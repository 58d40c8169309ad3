import Tagging.Proofs.WellFormed
import Tagging.RuleSet.Evaluate

/-!
# Verdicts

The verdict of a text on a literal, a clausal form or a rule is what is found when nothing is remembered:
every lookup is followed, and every literal is searched for where it stands. Rules do not lead back to
themselves, so following lookups ends.
-/

namespace Tagging

namespace Span

/-- Runs from the start of the first span to the largest end of all. -/
def hull (first : Span) (rest : List Span) : Span :=
  ⟨first.start, (rest.map stop).foldr max first.stop⟩

/-- Reaching from span to span ends at the `hull` of `first` and `rest`. -/
theorem foldl_reach (rest : List Span) : ∀ first : Span, rest.foldl reach first = hull first rest := by
  induction rest with
  | nil => intro first; rfl
  | cons span rest ih =>
    intro first
    rw [List.foldl_cons, ih]
    have hmax : ∀ (stops : List Nat) (a b : Nat),
        stops.foldr max (max a b) = max b (stops.foldr max a) := by
      intro stops a b
      induction stops with
      | nil => simp [Nat.max_comm]
      | cons stop stops ih => simp [ih, Nat.max_left_comm]
    simp [hull, reach, hmax]

end Span

/-! ## Literals and clausal forms -/

/-- What a literal finds when the outcomes of the rules are given. -/
def Literal.verdict (tokens : List Token) (ofRule : String → Outcome) (literal : Literal) : Outcome :=
  match literal.target? with
  | none => literal.find tokens
  | some name =>
    if literal.negated then (ofRule name).complement tokens.length else ofRule name

/-- What the first literal of a clause that holds has found. -/
def Clause.verdict (ofLiteral : Literal → Outcome) (clause : Clause) : Outcome :=
  clause.findSome? ofLiteral

/-- Some literal of a clause holds. -/
def Clause.Holds (ofLiteral : Literal → Outcome) (clause : Clause) : Prop :=
  ∃ literal ∈ clause, (ofLiteral literal).isSome

/-- What a clausal form finds in a text of `length` tokens when the outcomes of literals are given: without
clauses the whole text, and otherwise what lies between the start of what the first clause has found and
the largest end among what all clauses have found. -/
def Cnf.verdict (ofLiteral : Literal → Outcome) (length : Nat) (cnf : Cnf) : Outcome :=
  match cnf.clauses with
  | [] => some ⟨0, length⟩
  | first :: rest => do
    let span ← Clause.verdict ofLiteral first
    let spans ← rest.mapM (Clause.verdict ofLiteral)
    return span.hull spans

namespace Literal

variable (tokens : List Token) (ofRule : String → Outcome) (subject : Subject) (negated : Bool)

/-- A negated literal is found where the literal itself is not. -/
theorem isSome_find_negated : (find tokens ⟨negated, subject⟩).isSome =
    xor negated (find tokens ⟨false, subject⟩).isSome := by
  have hterms : terms ⟨negated, subject⟩ = terms ⟨false, subject⟩ := rfl
  unfold find
  rw [hterms]
  cases negated <;> cases Phrase.find tokens (terms ⟨false, subject⟩) <;> rfl

theorem isSome_verdict_negated : (verdict tokens ofRule ⟨negated, subject⟩).isSome =
    xor negated (verdict tokens ofRule ⟨false, subject⟩).isSome := by
  cases subject with
  | phrase phrase => exact isSome_find_negated tokens (.phrase phrase) negated
  | lookup name =>
    cases negated <;> cases h : ofRule name <;> simp [verdict, target?, h, Outcome.complement]

variable {tokens}

/-- Of the outcomes `f` and `g` only that of the rule counts which `literal` looks up. -/
theorem verdict_congr {f g : String → Outcome} {literal : Literal}
    (h : ∀ target, literal.target? = some target → f target = g target) :
    verdict tokens f literal = verdict tokens g literal := by
  unfold verdict
  cases htarget : literal.target? with
  | none => rfl
  | some target => simp only [h target htarget]

end Literal

namespace Clause

variable {f g : Literal → Outcome}

theorem verdict_cons (literal : Literal) (rest : Clause) :
    verdict f (literal :: rest) = (f literal).or (verdict f rest) := by
  rw [verdict, List.findSome?_cons]
  cases f literal <;> rfl

theorem verdict_congr {clause : Clause} (h : ∀ literal ∈ clause, f literal = g literal) :
    verdict f clause = verdict g clause := by
  induction clause with
  | nil => rfl
  | cons literal rest ih =>
    rw [verdict_cons, verdict_cons, h literal (by simp),
      ih fun other ho => h other (List.mem_cons_of_mem _ ho)]

/-- A `clause` has a verdict exactly if a literal of it holds. -/
theorem isSome_verdict_iff {clause : Clause} : (verdict f clause).isSome ↔ Holds f clause := by
  simp [verdict, Holds]

theorem mapM_verdict_congr {clauses : List Clause}
    (h : ∀ clause ∈ clauses, ∀ literal ∈ clause, f literal = g literal) :
    clauses.mapM (verdict f) = clauses.mapM (verdict g) := by
  induction clauses with
  | nil => rfl
  | cons clause rest ih =>
    rw [List.mapM_cons, List.mapM_cons, verdict_congr (h clause (by simp)),
      ih fun other ho => h other (List.mem_cons_of_mem _ ho)]

theorem isSome_mapM_verdict_iff {clauses : List Clause} :
    (clauses.mapM (verdict f)).isSome ↔ ∀ clause ∈ clauses, (verdict f clause).isSome := by
  induction clauses with
  | nil => simp
  | cons clause rest ih =>
    rw [List.mapM_cons, List.forall_mem_cons, ← ih]
    cases verdict f clause <;> cases rest.mapM (verdict f) <;> simp

end Clause

namespace Cnf

variable {f g : Literal → Outcome} {length : Nat} {cnf : Cnf}

/-- Only the literals of a clausal form count. -/
theorem verdict_congr (h : ∀ literal ∈ cnf.literals, f literal = g literal) :
    cnf.verdict f length = cnf.verdict g length := by
  have h : ∀ clause ∈ cnf.clauses, ∀ literal ∈ clause, f literal = g literal :=
    fun clause hclause literal hliteral => h literal (List.mem_flatten.2 ⟨clause, hclause, hliteral⟩)
  unfold verdict
  cases hc : cnf.clauses with
  | nil => rfl
  | cons first rest =>
    rw [hc, List.forall_mem_cons] at h
    simp only [Clause.verdict_congr h.1, Clause.mapM_verdict_congr h.2]

/-- Something is found exactly if every clause has a literal that holds. -/
theorem isSome_verdict_iff :
    (cnf.verdict f length).isSome ↔ ∀ clause ∈ cnf.clauses, Clause.Holds f clause := by
  simp only [← Clause.isSome_verdict_iff]
  unfold verdict
  cases hc : cnf.clauses with
  | nil => simp
  | cons first rest =>
    rw [List.forall_mem_cons, ← Clause.isSome_mapM_verdict_iff]
    cases hfirst : Clause.verdict f first <;> cases hrest : rest.mapM (Clause.verdict f) <;>
      simp [hfirst, hrest]

end Cnf

/-! ## Rules -/

namespace RuleSet

/-- What the rule of that name finds. A name without a rule finds nothing. -/
def verdict (set : RuleSet) (tokens : List Token) (name : String) : Outcome :=
  match set.find? name with
  | none => none
  | some rule =>
    rule.cnf.verdict (Literal.verdict tokens fun target =>
      if _h : target ∈ set.lookupsOf name then set.verdict tokens target else none) tokens.length
termination_by set.wellFounded_lookups.wrap name

theorem verdict_eq (set : RuleSet) (tokens : List Token) (name : String) :
    set.verdict tokens name =
      match set.find? name with
      | none => none
      | some rule =>
        rule.cnf.verdict (Literal.verdict tokens (set.verdict tokens)) tokens.length := by
  rw [verdict]
  cases hfind : set.find? name with
  | none => rfl
  | some rule =>
    refine Cnf.verdict_congr fun literal hliteral => Literal.verdict_congr fun target htarget => ?_
    exact dif_pos (mem_lookupsOf_of_target? hfind hliteral htarget)

end RuleSet

end Tagging
