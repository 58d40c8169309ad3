import Tagging.Pattern.Reader
import Tagging.Proofs.Lexing

/-!
# The grammar of patterns

A pattern is a chain of operators over operands. There are three kinds of chains: adjacency binds closest
and disjunction least, and each groups to the left. Lexemes that derive from the grammar are read as the
tree that they derive, and nothing else is read.

Both directions follow the reader through the lexemes. What the reader keeps stands for the lexemes that
it has taken, so a pattern that is complete at the end derives from all of them. Conversely the reader
gets through a chain with what was pending before it left in place.
-/

namespace Tagging

/-! ## The grammar -/

/-- The operators between two operands. -/
inductive Operator where
  /-- Adjacency. -/
  | join
  /-- Conjunction. -/
  | and
  /-- Disjunction. -/
  | or
deriving DecidableEq, Repr

namespace Operator

/-- The lexeme of an operator. -/
def lexeme : Operator → Lexeme
  | join => .join
  | and => .and
  | or => .or

/-- The pattern of two operands and the operator between them. -/
def combine : Operator → Pattern → Pattern → Pattern
  | join => .join
  | and => .and
  | or => .or

end Operator

/-- The kinds of phrases of the grammar. -/
inductive Level where
  /-- What needs no parentheses anywhere. -/
  | operand
  /-- Operands of an operator, one or more. -/
  | chain (operator : Operator)
deriving DecidableEq, Repr

/-- What the operands of an operator are: those of adjacency are single operands, those of conjunction
are chains of adjacency, and those of disjunction chains of conjunction. -/
def Operator.closer : Operator → Level
  | join => .operand
  | and => .chain .join
  | or => .chain .and

/-- The lexemes make up a pattern of that kind. -/
inductive Derives : Level → List Lexeme → Pattern → Prop where
  | word (w : String) : Derives .operand [.word w] (.word w)
  | quoted (w : String) : Derives .operand [.quoted w] (.word w)
  | exactWord (w : String) : Derives .operand [.exactWord w] (.exactWord w)
  | wildcard (w : Wildcard) : Derives .operand [.wildcard w] (.wildcard w)
  | lookup (name : String) : Derives .operand [.lookup, .word name] (.lookup name)
  /-- Negation applies to the operand right after it. -/
  | not {lexemes : List Lexeme} {x : Pattern} (operand : Derives .operand lexemes x) :
      Derives .operand (.not :: lexemes) (.not x)
  /-- Inside parentheses anything may stand. -/
  | parentheses {lexemes : List Lexeme} {x : Pattern} (inner : Derives (.chain .or) lexemes x) :
      Derives .operand (.leftParen :: (lexemes ++ [.rightParen])) x
  /-- A chain may be a single operand. -/
  | single {operator : Operator} {lexemes : List Lexeme} {x : Pattern}
      (operand : Derives operator.closer lexemes x) : Derives (.chain operator) lexemes x
  /-- A chain may go on with one more operand. -/
  | more {operator : Operator} {left right : List Lexeme} {x y : Pattern}
      (chain : Derives (.chain operator) left x) (operand : Derives operator.closer right y) :
      Derives (.chain operator) (left ++ operator.lexeme :: right) (operator.combine x y)

/-! ## What the reader keeps -/

/-- What has been read in front of an operand of `operator`: nothing, or a chain and the `operator`. -/
def Attached (operator : Operator) : Option Pattern → List Lexeme → Prop
  | none, lexemes => lexemes = []
  | some left, lexemes => ∃ chain, lexemes = chain ++ [operator.lexeme] ∧
      Derives (.chain operator) chain left

/-- The chain in front of an operand goes on with it: `before` and the `lexemes` of the operand `x` derive the chain
that ends with `x`. -/
theorem Attached.derives {operator : Operator} {left : Option Pattern} {before lexemes : List Lexeme}
    {x : Pattern} (h : Attached operator left before) (hx : Derives operator.closer lexemes x) :
    Derives (.chain operator) (before ++ lexemes) (Pending.attach operator.combine left x) := by
  cases left with
  | none =>
    obtain rfl : before = [] := h
    exact .single hx
  | some left =>
    obtain ⟨chain, rfl, hchain⟩ := h
    rw [List.append_assoc]
    exact .more hchain hx

theorem derives_negate {lexemes : List Lexeme} {x : Pattern} (hx : Derives .operand lexemes x) :
    ∀ n, Derives .operand (List.replicate n .not ++ lexemes) (Pending.negate n x)
  | 0 => hx
  | n + 1 => (derives_negate hx n).not

namespace Pending

/-- What is `pending` stands for these `lexemes`. -/
def Represents (pending : Pending) (lexemes : List Lexeme) : Prop :=
  ∃ alternatives conditions parts,
    Attached .or pending.alternatives alternatives ∧
    Attached .and pending.conditions conditions ∧
    Attached .join pending.parts parts ∧
    lexemes = alternatives ++ (conditions ++ (parts ++ List.replicate pending.negations .not))

section Represents

variable {pending : Pending} {lexemes operand : List Lexeme} {x : Pattern}

theorem represents_nil : Represents {} [] := ⟨[], [], [], rfl, rfl, rfl, rfl⟩

variable (h : pending.Represents lexemes)

include h

theorem Represents.afterNot : pending.afterNot.Represents (lexemes ++ [.not]) := by
  obtain ⟨alternatives, conditions, parts, hor, hand, hjoin, rfl⟩ := h
  refine ⟨alternatives, conditions, parts, hor, hand, hjoin, ?_⟩
  rw [Pending.afterNot, List.replicate_succ']
  simp only [List.append_assoc]

variable (hx : Derives .operand operand x)

include hx

/-- With the operand `x` behind them the `lexemes` end with a chain of adjacency, and what is pending in front of
that chain is left as it is. -/
theorem Represents.phrase : ∃ alternatives conditions chain,
    Attached .or pending.alternatives alternatives ∧
    Attached .and pending.conditions conditions ∧
    Derives (.chain .join) chain (pending.phrase x) ∧
    lexemes ++ operand = alternatives ++ (conditions ++ chain) := by
  obtain ⟨alternatives, conditions, parts, hor, hand, hjoin, rfl⟩ := h
  have hchain := hjoin.derives (derives_negate hx pending.negations)
  exact ⟨alternatives, conditions, _, hor, hand, hchain, by simp only [List.append_assoc]⟩

/-- With the operand `x` behind them the `lexemes` end with a chain of conjunction, and the alternatives that are
pending are left as they are. -/
theorem Represents.conjunction : ∃ alternatives chain,
    Attached .or pending.alternatives alternatives ∧
    Derives (.chain .and) chain (pending.conjunction x) ∧
    lexemes ++ operand = alternatives ++ chain := by
  obtain ⟨alternatives, conditions, phrase, hor, hand, hphrase, heq⟩ := h.phrase hx
  exact ⟨alternatives, _, hor, hand.derives hphrase, heq⟩

/-- With the operand `x` behind them all of the `lexemes` derive one chain of disjunction. -/
theorem Represents.disjunction :
    Derives (.chain .or) (lexemes ++ operand) (pending.disjunction x) := by
  obtain ⟨alternatives, conjunction, hor, hconjunction, heq⟩ := h.conjunction hx
  rw [heq]
  exact hor.derives hconjunction

theorem Represents.afterJoin :
    (pending.afterJoin x).Represents (lexemes ++ operand ++ [.join]) := by
  obtain ⟨alternatives, conditions, phrase, hor, hand, hphrase, heq⟩ := h.phrase hx
  refine ⟨alternatives, conditions, _, hor, hand, ⟨phrase, rfl, hphrase⟩, ?_⟩
  rw [heq]
  simp only [Pending.afterJoin, List.replicate_zero, List.append_nil, List.append_assoc]
  rfl

theorem Represents.afterAnd :
    (pending.afterAnd x).Represents (lexemes ++ operand ++ [.and]) := by
  obtain ⟨alternatives, conjunction, hor, hconjunction, heq⟩ := h.conjunction hx
  refine ⟨alternatives, _, [], hor, ⟨conjunction, rfl, hconjunction⟩, rfl, ?_⟩
  rw [heq]
  simp only [Pending.afterAnd, List.replicate_zero, List.append_nil, List.append_assoc]
  rfl

theorem Represents.afterOr : (pending.afterOr x).Represents (lexemes ++ operand ++ [.or]) :=
  ⟨_, [], [], ⟨_, rfl, h.disjunction hx⟩, rfl, rfl, by simp [Pending.afterOr, Operator.lexeme]⟩

end Represents

end Pending

/-- What has been read in front of the open parentheses of a stack stands for these lexemes. -/
def StackRepresents : List (Nat × Pending) → List Lexeme → Prop
  | [], lexemes => lexemes = []
  | (_, pending) :: stack, lexemes => ∃ outside inside, StackRepresents stack outside ∧
      pending.Represents inside ∧ lexemes = outside ++ inside ++ [.leftParen]

/-- What has been read since the last operator or parenthesis stands for these lexemes. -/
def Expected.Represents : Expected → List Lexeme → Prop
  | .operand, lexemes => lexemes = []
  | .ruleName, lexemes => lexemes = [.lookup]
  | .operator x, lexemes => Derives .operand lexemes x

namespace Reader

/-- The state of the `reader` stands for these `lexemes`. -/
def Represents (reader : Reader) (lexemes : List Lexeme) : Prop :=
  ∃ outside inside current, StackRepresents reader.stack outside ∧
    reader.pending.Represents inside ∧ reader.expected.Represents current ∧
    lexemes = outside ++ inside ++ current

theorem represents_nil : Represents {} [] :=
  ⟨[], [], [], rfl, Pending.represents_nil, rfl, rfl⟩

section Read

variable {reader after : Reader} {outside inside current : List Lexeme} {position : Nat}
  {lexeme : Lexeme} (hstack : StackRepresents reader.stack outside)
  (hpending : reader.pending.Represents inside)

include hstack hpending

/-- Where an operand is expected, the `lexeme` that is taken comes behind those that the state `after` it stands
for. -/
theorem represents_readOperand (hexpected : reader.expected = .operand)
    (h : reader.readOperand position lexeme = .ok after) :
    after.Represents (outside ++ inside ++ [lexeme]) := by
  cases lexeme with
  | word w | quoted w | exactWord w | wildcard w =>
    cases h
    exact ⟨outside, inside, _, hstack, hpending, by constructor, rfl⟩
  | not =>
    cases h
    refine ⟨outside, inside ++ [.not], [], hstack, hpending.afterNot, ?_, by simp⟩
    rw [hexpected]
    rfl
  | lookup =>
    cases h
    exact ⟨outside, inside, _, hstack, hpending, rfl, rfl⟩
  | leftParen =>
    cases h
    exact ⟨_, [], [], ⟨outside, inside, hstack, hpending, rfl⟩, Pending.represents_nil, rfl, by simp⟩
  | and | or | join | rightParen => cases h

/-- Behind the sign of a lookup the `lexeme` that is taken has to be a name, and joins the sign. -/
theorem represents_readRuleName (h : reader.readRuleName position lexeme = .ok after) :
    after.Represents (outside ++ inside ++ [.lookup] ++ [lexeme]) := by
  cases lexeme with
  | word w =>
    cases h
    exact ⟨outside, inside, _, hstack, hpending, .lookup w, by simp⟩
  | _ => cases h

/-- Behind the operand `x` the `lexeme` that is taken is an operator, which ends the chains that bind closer, or a
closing parenthesis, which ends all of them. -/
theorem represents_readOperator {x : Pattern} (hx : Derives .operand current x)
    (h : reader.readOperator x position lexeme = .ok after) :
    after.Represents (outside ++ inside ++ current ++ [lexeme]) := by
  rw [List.append_assoc outside]
  cases lexeme with
  | join =>
    cases h
    exact ⟨outside, _, [], hstack, hpending.afterJoin hx, rfl, by simp⟩
  | and =>
    cases h
    exact ⟨outside, _, [], hstack, hpending.afterAnd hx, rfl, by simp⟩
  | or =>
    cases h
    exact ⟨outside, _, [], hstack, hpending.afterOr hx, rfl, by simp⟩
  | rightParen =>
    obtain ⟨stack, pending, expected⟩ := reader
    cases stack with
    | nil => cases h
    | cons top stack =>
      cases h
      obtain ⟨below, before, hbelow, hbefore, rfl⟩ := hstack
      refine ⟨below, before, _, hbelow, hbefore, .parentheses (hpending.disjunction hx), ?_⟩
      simp
  | word _ | quoted _ | exactWord _ | wildcard _ | not | lookup | leftParen =>
    obtain ⟨stack, pending, expected⟩ := reader
    cases stack <;> cases h

end Read

variable {reader after : Reader}

/-- If `reader` stands for `lexemes`, the reader `after` one more stands for them and that one: none is lost. -/
theorem Represents.read {lexemes : List Lexeme} (h : reader.Represents lexemes) {next : Located}
    (hread : reader.read next = .ok after) : after.Represents (lexemes ++ [next.lexeme]) := by
  obtain ⟨outside, inside, current, hstack, hpending, hcurrent, rfl⟩ := h
  unfold Reader.read at hread
  cases hexpected : reader.expected with
  | operand =>
    rw [hexpected] at hread hcurrent
    obtain rfl : current = [] := hcurrent
    rw [List.append_nil]
    exact represents_readOperand hstack hpending hexpected hread
  | ruleName =>
    rw [hexpected] at hread hcurrent
    obtain rfl : current = [.lookup] := hcurrent
    exact represents_readRuleName hstack hpending hread
  | operator x =>
    rw [hexpected] at hread hcurrent
    exact represents_readOperator hstack hpending hcurrent hread

/-- If `reader` stands for `lexemes`, the reader `after` a list of others stands for all of them. -/
theorem Represents.foldlM {located : List Located} : ∀ {reader after : Reader} {lexemes : List Lexeme},
    reader.Represents lexemes → located.foldlM Reader.read reader = .ok after →
    after.Represents (lexemes ++ located.map Located.lexeme) := by
  induction located with
  | nil =>
    intro reader after lexemes h hread
    cases hread
    simpa using h
  | cons next rest ih =>
    intro reader after lexemes h hread
    rw [List.foldlM_cons] at hread
    cases hnext : reader.read next with
    | error error =>
      rw [hnext] at hread
      cases hread
    | ok between =>
      rw [hnext] at hread
      have hafter := ih (h.read hnext) hread
      simpa using hafter

/-- A pattern `x` that is complete when the lexemes end derives from all of them. -/
theorem Represents.finish {lexemes : List Lexeme} {position : Nat} {x : Pattern}
    (h : reader.Represents lexemes) (hfinish : reader.finish position = .ok x) :
    Derives (.chain .or) lexemes x := by
  obtain ⟨stack, pending, expected⟩ := reader
  obtain ⟨outside, inside, current, hstack, hpending, hcurrent, rfl⟩ := h
  cases expected with
  | operand => cases hfinish
  | ruleName => cases hfinish
  | operator operand =>
    cases stack with
    | cons top stack => cases hfinish
    | nil =>
      cases hfinish
      obtain rfl : outside = [] := hstack
      exact hpending.disjunction hcurrent

end Reader

/-! ## What the grammar derives -/

namespace Operator

/-- What is pending around a chain of the operator. -/
def outer (pending : Pending) : Operator → Pending
  | join => { pending with parts := none, negations := 0 }
  | and => { alternatives := pending.alternatives }
  | or => {}

/-- The chain of the operator that ends with the operand `x`. -/
def chain (pending : Pending) (x : Pattern) : Operator → Pattern
  | join => pending.phrase x
  | and => pending.conjunction x
  | or => pending.disjunction x

/-- What is pending when a chain of the operator goes on behind the operand `x`. -/
def after (pending : Pending) (x : Pattern) : Operator → Pending
  | join => pending.afterJoin x
  | and => pending.afterAnd x
  | or => pending.afterOr x

end Operator

namespace Reader

/-- The reader gets through the lexemes `located`, from the state `before` to the state `after`. -/
def Reads (before : Reader) (located : List Located) (after : Reader) : Prop :=
  located.foldlM Reader.read before = .ok after

theorem Reads.nil (reader : Reader) : Reads reader [] reader := rfl

theorem Reads.append {first second third : Reader} {left right : List Located}
    (hleft : Reads first left second) (hright : Reads second right third) :
    Reads first (left ++ right) third := by
  unfold Reads at hleft ⊢
  rw [List.foldlM_append, hleft]
  exact hright

theorem Reads.single {before after : Reader} {next : Located} (h : before.read next = .ok after) :
    Reads before [next] after := by
  unfold Reads
  rw [List.foldlM_cons, h]
  rfl

/-- Lexemes that make up an operand or a chain `x` are read from any state in which one may start. Afterwards the
reader is behind the last operand, and what was pending around is still there. -/
def Accepts (located : List Located) (x : Pattern) : Level → Prop
  | .operand => ∀ stack pending, ∃ n y, Pending.negate n y = x ∧
      Reads ⟨stack, pending, .operand⟩ located
        ⟨stack, { pending with negations := pending.negations + n }, .operator y⟩
  | .chain operator => ∀ stack pending, operator.outer pending = pending →
      ∃ inner y, operator.chain inner y = x ∧ operator.outer inner = pending ∧
        Reads ⟨stack, pending, .operand⟩ located ⟨stack, inner, .operator y⟩

variable {located left right : List Located} {next last : Located} {x y : Pattern}
  {operator : Operator}

theorem accepts_of_reads (h : ∀ stack pending,
      Reads ⟨stack, pending, .operand⟩ located ⟨stack, pending, .operator x⟩) :
    Accepts located x .operand :=
  fun stack pending => ⟨0, x, rfl, h stack pending⟩

/-- A sign of negation in front of the lexemes of an operand `x` is read as `x` negated. -/
theorem Accepts.not (h : Accepts located x .operand) (hnext : next.lexeme = .not) :
    Accepts (next :: located) (.not x) .operand := by
  intro stack pending
  obtain ⟨n, y, rfl, hread⟩ := h stack pending.afterNot
  refine ⟨n + 1, y, rfl, ?_⟩
  have hfirst : Reads ⟨stack, pending, .operand⟩ [next] ⟨stack, pending.afterNot, .operand⟩ := by
    refine Reads.single ?_
    simp only [Reader.read, hnext]
    rfl
  have hcount : pending.afterNot.negations + n = pending.negations + (n + 1) := by
    simp only [Pending.afterNot]
    omega
  rw [hcount] at hread
  exact hfirst.append hread

/-- Parentheses around the lexemes of a chain of disjunction `x` are read as the operand `x`. -/
theorem Accepts.parentheses (h : Accepts located x (.chain .or)) (hnext : next.lexeme = .leftParen)
    (hlast : last.lexeme = .rightParen) : Accepts (next :: (located ++ [last])) x .operand := by
  refine accepts_of_reads fun stack pending => ?_
  obtain ⟨inner, y, rfl, -, hread⟩ := h ((next.position, pending) :: stack) {} rfl
  have hfirst : Reads ⟨stack, pending, .operand⟩ [next]
      ⟨(next.position, pending) :: stack, {}, .operand⟩ := by
    refine Reads.single ?_
    simp only [Reader.read, hnext]
    rfl
  have hclose : Reads ⟨(next.position, pending) :: stack, inner, .operator y⟩ [last]
      ⟨stack, pending, .operator (inner.disjunction y)⟩ := by
    refine Reads.single ?_
    simp only [Reader.read, hlast]
    rfl
  exact hfirst.append (hread.append hclose)

/-- A chain of `operator` may have a single operand `x`, which is itself a chain of a closer operator or a single
operand. -/
theorem Accepts.single (h : Accepts located x operator.closer) :
    Accepts located x (.chain operator) := by
  intro stack pending houter
  cases operator with
  | join =>
    obtain ⟨n, y, rfl, hread⟩ := h stack pending
    obtain ⟨alternatives, conditions, parts, negations⟩ := pending
    cases houter
    rw [Nat.zero_add] at hread
    exact ⟨_, y, rfl, rfl, hread⟩
  | and =>
    obtain ⟨alternatives, conditions, parts, negations⟩ := pending
    cases houter
    obtain ⟨inner, y, rfl, hinner, hread⟩ := h stack { alternatives } rfl
    obtain ⟨alternatives, conditions, parts, negations⟩ := inner
    cases hinner
    exact ⟨_, y, rfl, rfl, hread⟩
  | or =>
    obtain rfl : {} = pending := houter
    obtain ⟨inner, y, rfl, hinner, hread⟩ := h stack {} rfl
    obtain ⟨alternatives, conditions, parts, negations⟩ := inner
    cases hinner
    exact ⟨_, y, rfl, rfl, hread⟩

/-- Behind an operand `x` the lexeme `next` of an `operator` is read, and `operator.after` is then pending. -/
theorem reads_operator (stack : List (Nat × Pending)) (pending : Pending) (x : Pattern)
    (hnext : next.lexeme = operator.lexeme) :
    Reads ⟨stack, pending, .operator x⟩ [next] ⟨stack, operator.after pending x, .operand⟩ := by
  refine Reads.single ?_
  cases operator <;> simp only [Reader.read, hnext] <;> rfl

/-- A chain `x` goes on behind the lexeme `next` of its `operator` with one more operand `y`. -/
theorem Accepts.more (hleft : Accepts left x (.chain operator))
    (hright : Accepts right y operator.closer) (hnext : next.lexeme = operator.lexeme) :
    Accepts (left ++ next :: right) (operator.combine x y) (.chain operator) := by
  intro stack pending houter
  obtain ⟨inner, last, rfl, hinner, hread⟩ := hleft stack pending houter
  have hbefore := hread.append (reads_operator stack inner last hnext)
  rw [List.append_cons]
  cases operator with
  | join =>
    obtain ⟨n, z, rfl, hread⟩ := hright stack (inner.afterJoin last)
    rw [show (inner.afterJoin last).negations + n = n from Nat.zero_add n] at hread
    refine ⟨_, z, ?_, ?_, hbefore.append hread⟩
    · rfl
    · exact hinner
  | and =>
    obtain ⟨inner', z, rfl, hinner', hread⟩ := hright stack (inner.afterAnd last) rfl
    obtain ⟨alternatives, conditions, parts, negations⟩ := inner'
    cases hinner'
    refine ⟨_, z, ?_, ?_, hbefore.append hread⟩
    · rfl
    · exact hinner
  | or =>
    obtain ⟨inner', z, rfl, hinner', hread⟩ := hright stack (inner.afterOr last) rfl
    obtain ⟨alternatives, conditions, parts, negations⟩ := inner'
    cases hinner'
    refine ⟨_, z, ?_, ?_, hbefore.append hread⟩
    · rfl
    · exact hinner

end Reader

/-- Lexemes `located` are accepted as the pattern `x` that they derive. By induction on the derivation: what is
pending when a part starts is any, so the parts follow each other. -/
theorem Derives.accepts {level : Level} {lexemes : List Lexeme} {x : Pattern}
    (h : Derives level lexemes x) :
    ∀ {located : List Located}, located.map Located.lexeme = lexemes →
      Reader.Accepts located x level := by
  induction h with
  | word w | quoted w | exactWord w | wildcard w =>
    intro located hlocated
    obtain ⟨next, rest, rfl, hnext, hrest⟩ := List.map_eq_cons_iff.1 hlocated
    obtain rfl := List.map_eq_nil_iff.1 hrest
    refine Reader.accepts_of_reads fun stack pending => Reader.Reads.single ?_
    simp only [Reader.read, hnext]
    rfl
  | lookup name =>
    intro located hlocated
    obtain ⟨sign, rest, rfl, hsign, hrest⟩ := List.map_eq_cons_iff.1 hlocated
    obtain ⟨next, rest, rfl, hnext, hrest⟩ := List.map_eq_cons_iff.1 hrest
    obtain rfl := List.map_eq_nil_iff.1 hrest
    refine Reader.accepts_of_reads fun stack pending => ?_
    have hfirst : Reader.Reads ⟨stack, pending, .operand⟩ [sign] ⟨stack, pending, .ruleName⟩ := by
      refine Reader.Reads.single ?_
      simp only [Reader.read, hsign]
      rfl
    refine hfirst.append (Reader.Reads.single ?_)
    simp only [Reader.read, hnext]
    rfl
  | not operand ih =>
    intro located hlocated
    obtain ⟨next, rest, rfl, hnext, hrest⟩ := List.map_eq_cons_iff.1 hlocated
    exact (ih hrest).not hnext
  | parentheses inner ih =>
    intro located hlocated
    obtain ⟨next, rest, rfl, hnext, hrest⟩ := List.map_eq_cons_iff.1 hlocated
    obtain ⟨inside, closing, rfl, hinside, hclosing⟩ := List.map_eq_append_iff.1 hrest
    obtain ⟨last, rest, rfl, hlast, hrest⟩ := List.map_eq_cons_iff.1 hclosing
    obtain rfl := List.map_eq_nil_iff.1 hrest
    exact (ih hinside).parentheses hnext hlast
  | single operand ih => exact fun hlocated => (ih hlocated).single
  | more chain operand ihchain ihoperand =>
    intro located hlocated
    obtain ⟨left, rest, rfl, hleft, hrest⟩ := List.map_eq_append_iff.1 hlocated
    obtain ⟨next, right, rfl, hnext, hright⟩ := List.map_eq_cons_iff.1 hrest
    exact (ihchain hleft).more (ihoperand hright) hnext

/-! ## Reading -/

namespace Lexed

/-- A list `lexed` of lexemes is read as the pattern `x` exactly if it is closed by no fault and derives `x`. -/
theorem toPattern_eq_ok_iff {lexed : Lexed} {x : Pattern} : lexed.toPattern = .ok x ↔
    (∃ stop, lexed.ending = .ok stop) ∧ Derives (.chain .or) (lexed.lexemes.map Located.lexeme) x := by
  unfold toPattern
  constructor
  · intro h
    cases hread : lexed.lexemes.foldlM Reader.read {} with
    | error error =>
      rw [hread] at h
      cases h
    | ok reader =>
      rw [hread] at h
      cases hending : lexed.ending with
      | error error =>
        rw [hending] at h
        cases h
      | ok stop =>
        rw [hending] at h
        exact ⟨⟨stop, rfl⟩, (Reader.represents_nil.foldlM hread).finish h⟩
  · rintro ⟨⟨stop, hending⟩, hderives⟩
    obtain ⟨pending, y, rfl, -, hread⟩ := hderives.accepts rfl [] {} rfl
    rw [hending, show lexed.lexemes.foldlM Reader.read {} = .ok ⟨[], pending, .operator y⟩ from hread]
    rfl

end Lexed

namespace Pattern

/-- A written pattern is read as a `tree` exactly if lexemes can be read up to the end of `source` and all of them
together derive that `tree`. Whether an operator is written as a `sign` or as a keyword makes no difference to its
`lexeme`. -/
theorem ofString_eq_ok_iff_derives (source : String) (tree : Pattern) :
    (ofString source = .ok tree ↔
      (Lexed.ofString source).ending = .ok (Text.byteLength source.toList) ∧
      Derives (.chain .or) ((Lexed.ofString source).lexemes.map Located.lexeme) tree) ∧
    ∀ sign first word lexeme, (sign, first :: word, lexeme) ∈ Lexeme.spellings →
      ∀ rest, Lexeme.EndsWord rest → Lexeme.next sign rest = .ok (lexeme, rest) ∧
        Lexeme.next first (word ++ rest) = .ok (lexeme, rest) := by
  refine ⟨?_, fun sign first word lexeme hspelling rest => Lexeme.next_of_mem_spellings hspelling⟩
  rw [ofString, Lexed.toPattern_eq_ok_iff]
  refine and_congr_left fun _ => ⟨?_, fun hending => ⟨_, hending⟩⟩
  rintro ⟨stop, hending⟩
  have hstop := Lexed.eq_byteLength_of_ending_eq_ok hending
  rw [hending, hstop, Nat.zero_add]

/-- A conjunction that is written with its keyword, right in front of a negation. -/
theorem ofString_eq_ok_iff_derives_keyword :
    ofString "a AND-b" = .ok (.and (.word "a") (.not (.word "b"))) ∧
      Lexeme.next '&' "-b".toList = .ok (.and, "-b".toList) ∧
      Lexeme.next 'A' ("ND".toList ++ "-b".toList) = .ok (.and, "-b".toList) := by
  have hlexemes : (Lexed.ofString "a AND-b").lexemes.map Located.lexeme =
      [.word "a"] ++ Operator.and.lexeme :: [.not, .word "b"] := by
    decide +kernel
  have hending : (Lexed.ofString "a AND-b").ending.toOption = some 7 := by
    decide +kernel
  have hchain : Derives (.chain .and) ([.word "a"] ++ Operator.and.lexeme :: [.not, .word "b"])
      (Operator.and.combine (.word "a") (.not (.word "b"))) :=
    .more (.single (.single (.word "a"))) (.single (.not (.word "b")))
  obtain ⟨hiff, hspelling⟩ := ofString_eq_ok_iff_derives "a AND-b" (.and (.word "a") (.not (.word "b")))
  refine ⟨hiff.2 ⟨?_, ?_⟩, hspelling '&' 'A' "ND".toList .and (by decide) _ ?_⟩
  · cases h : (Lexed.ofString "a AND-b").ending with
    | error error =>
      rw [h] at hending
      cases hending
    | ok stop =>
      rw [h] at hending
      cases hending
      rfl
  · rw [hlexemes]
    exact .single hchain
  · intro c hc
    obtain rfl : '-' = c := by simpa using hc
    decide +kernel

end Pattern

end Tagging
