import Mathlib.Data.List.Forall2
import Tagging.Proofs.Operands

/-!
# The clauses of a pattern

The clauses of a pattern are read off its tree in one pass. Those of a conjunction are the clauses of its left and
then of its right side. A disjunction has one clause for each pair of clauses of its sides, the literals of the left
one first, and the clause of the left side changes fastest. Under an odd number of negations the two change places.

Distribution makes these clauses, in this order. So it neither hides an operand nor makes up one, and a pattern has
a clausal form exactly if each of its operands has a literal.
-/

namespace Tagging

/-! ## Lists of results -/

/-- Results `ys` for all of a list come from a result for each of its members. -/
theorem mapM_eq_ok_iff {ε α β : Type} {f : α → Except ε β} {xs : List α} :
    ∀ {ys : List β}, xs.mapM f = .ok ys ↔ List.Forall₂ (fun x y => f x = .ok y) xs ys := by
  induction xs with
  | nil =>
    intro ys
    rw [List.mapM_nil, List.forall₂_nil_left_iff]
    exact ⟨fun h => by cases h; rfl, fun h => by subst h; rfl⟩
  | cons x xs ih =>
    intro ys
    rw [List.mapM_cons, bind_eq_ok_iff, List.forall₂_cons_left_iff]
    constructor
    · rintro ⟨y, hy, h⟩
      obtain ⟨rest, hrest, h⟩ := bind_eq_ok_iff.1 h
      cases h
      exact ⟨y, rest, hy, ih.1 hrest, rfl⟩
    · rintro ⟨y, rest, hy, hrest, rfl⟩
      exact ⟨y, hy, bind_eq_ok_iff.2 ⟨rest, ih.2 hrest, rfl⟩⟩

/-- There is a list related to `xs` exactly if each member of `xs` is related to something. -/
theorem exists_forall₂_iff {α β : Type} {R : α → β → Prop} {xs : List α} :
    (∃ ys, List.Forall₂ R xs ys) ↔ ∀ x ∈ xs, ∃ y, R x y := by
  induction xs with
  | nil => exact ⟨fun _ => by simp, fun _ => ⟨[], .nil⟩⟩
  | cons x xs ih =>
    rw [List.forall_mem_cons, ← ih]
    constructor
    · rintro ⟨ys, h⟩
      cases h with
      | cons hy hrest => exact ⟨⟨_, hy⟩, ⟨_, hrest⟩⟩
    · rintro ⟨⟨y, hy⟩, rest, hrest⟩
      exact ⟨y :: rest, .cons hy hrest⟩

theorem forall₂_congr_left {α β : Type} {R S : α → β → Prop} {xs : List α}
    (h : ∀ x ∈ xs, ∀ y, R x y ↔ S x y) : ∀ {ys : List β}, List.Forall₂ R xs ys ↔ List.Forall₂ S xs ys := by
  induction xs with
  | nil => simp
  | cons x xs ih =>
    intro ys
    obtain ⟨hx, hxs⟩ := List.forall_mem_cons.1 h
    rw [List.forall₂_cons_left_iff, List.forall₂_cons_left_iff]
    simp only [hx, ih hxs]

namespace Pattern

variable {normalizer : Normalizer} {tree operand : Pattern} {cnf : Cnf}

/-! ## Clauses in one pass -/

/-- For each list on the right, every list on the left with that list behind it. -/
def cross {α : Type} (left right : List (List α)) : List (List α) :=
  right.flatMap fun behind => left.map (· ++ behind)

/-- The clauses of a pattern, or of its opposite where `positive` is off. -/
def clauseList : Bool → Pattern → List (List Pattern)
  | true, .and l r => clauseList true l ++ clauseList true r
  | false, .and l r => cross (clauseList false l) (clauseList false r)
  | true, .or l r => cross (clauseList true l) (clauseList true r)
  | false, .or l r => clauseList false l ++ clauseList false r
  | positive, .not x => clauseList (!positive) x
  | positive, operand => [[pushNot positive operand]]

/-- The parts of a conjunction, from left to right. -/
def conjuncts : Pattern → List Pattern
  | .and l r => l.conjuncts ++ r.conjuncts
  | part => [part]

/-- The parts of a disjunction, from left to right. -/
def disjuncts : Pattern → List Pattern
  | .or l r => l.disjuncts ++ r.disjuncts
  | part => [part]

/-- The disjunctions that a pattern is the conjunction of, each as the list of its parts. -/
def flatten (tree : Pattern) : List (List Pattern) := tree.conjuncts.map disjuncts

@[simp] theorem clauseList_not (positive : Bool) (x : Pattern) :
    clauseList positive (.not x) = clauseList (!positive) x := by
  cases positive <;> rfl

@[simp] theorem flatten_and (l r : Pattern) : (Pattern.and l r).flatten = l.flatten ++ r.flatten :=
  List.map_append

/-- Distributing `right` over the conjunctions of `left` puts its parts behind each clause. -/
theorem flatten_distributeLeft (right left : Pattern) :
    (distributeLeft right left).flatten = left.flatten.map (· ++ right.disjuncts) := by
  induction left with
  | and b c ihb ihc => rw [distributeLeft, flatten_and, flatten_and, ihb, ihc, List.map_append]
  | _ => rfl

/-- Distributing over both sides pairs their clauses. The `left` side is opened last, so its clauses change fastest.
-/
theorem flatten_distributeOr (left right : Pattern) :
    (distributeOr left right).flatten = cross left.flatten right.flatten := by
  induction right with
  | and b c ihb ihc =>
    rw [distributeOr, flatten_and, flatten_and, ihb, ihc]
    exact List.flatMap_append.symm
  | _ => exact (flatten_distributeLeft _ left).trans (List.flatMap_singleton _ _).symm

/-- Distribution after the pass makes the clauses that are read off the `tree`. -/
theorem flatten_distribute_pushNot (tree : Pattern) :
    ∀ positive, (pushNot positive tree).distribute.flatten = clauseList positive tree := by
  induction tree with
  | and l r ihl ihr | or l r ihl ihr =>
    intro positive
    cases positive <;>
      simp only [pushNot, distribute, clauseList, flatten_and, flatten_distributeOr, ihl, ihr]
  | not x ih =>
    intro positive
    rw [pushNot_not, clauseList_not, ih]
  | _ =>
    intro positive
    cases positive <;> rfl

theorem flatten_clausalTree (tree : Pattern) : tree.clausalTree.flatten = clauseList true tree := by
  rw [clausalTree, negationNormal_eq_pushNot, flatten_distribute_pushNot]

/-- Two conjunctions in a disjunction. The left one is gone through for each part of the right one. -/
example : clauseList true (.or (.and (.word "a") (.word "b")) (.and (.word "c") (.word "d"))) =
    [[.word "a", .word "c"], [.word "b", .word "c"], [.word "a", .word "d"], [.word "b", .word "d"]] := rfl

/-! ## Operands -/

/-- What a pattern is made of by conjunctions and disjunctions. -/
def operands : Pattern → List Pattern
  | .and l r => l.operands ++ r.operands
  | .or l r => l.operands ++ r.operands
  | operand => [operand]

theorem mem_cross_iff {α : Type} {left right : List (List α)} {list : List α} :
    list ∈ cross left right ↔ ∃ behind ∈ right, ∃ before ∈ left, before ++ behind = list := by
  simp [cross]

theorem cross_ne_nil {α : Type} {left right : List (List α)} (hleft : left ≠ []) (hright : right ≠ []) :
    cross left right ≠ [] := by
  obtain ⟨before, hbefore⟩ := List.exists_mem_of_ne_nil _ hleft
  obtain ⟨behind, hbehind⟩ := List.exists_mem_of_ne_nil _ hright
  exact List.ne_nil_of_mem (mem_cross_iff.2 ⟨behind, hbehind, before, hbefore, rfl⟩)

/-- The product has the members of both sides. The other side has a clause too, so each clause of one side is part
of some clause. -/
theorem mem_flatten_cross_iff {α : Type} {left right : List (List α)} {x : α} (hleft : left ≠ [])
    (hright : right ≠ []) : x ∈ (cross left right).flatten ↔ x ∈ left.flatten ∨ x ∈ right.flatten := by
  simp only [List.mem_flatten, mem_cross_iff]
  constructor
  · rintro ⟨_, ⟨behind, hbehind, before, hbefore, rfl⟩, hx⟩
    rcases List.mem_append.1 hx with hx | hx
    · exact .inl ⟨before, hbefore, hx⟩
    · exact .inr ⟨behind, hbehind, hx⟩
  · rintro (⟨before, hbefore, hx⟩ | ⟨behind, hbehind, hx⟩)
    · obtain ⟨behind, hbehind⟩ := List.exists_mem_of_ne_nil _ hright
      exact ⟨_, ⟨behind, hbehind, before, hbefore, rfl⟩, List.mem_append_left _ hx⟩
    · obtain ⟨before, hbefore⟩ := List.exists_mem_of_ne_nil _ hleft
      exact ⟨_, ⟨behind, hbehind, before, hbefore, rfl⟩, List.mem_append_right _ hx⟩

theorem clauseList_ne_nil (tree : Pattern) : ∀ positive, clauseList positive tree ≠ [] := by
  induction tree with
  | and l r ihl ihr | or l r ihl ihr =>
    intro positive
    cases positive <;> simp [clauseList, cross_ne_nil, ihl, ihr]
  | not x ih =>
    intro positive
    rw [clauseList_not]
    exact ih (!positive)
  | _ =>
    intro positive
    cases positive <;> simp [clauseList]

/-- The clauses have the operands of the `tree` in negation normal form, and no others. -/
theorem mem_flatten_clauseList_iff (tree : Pattern) : ∀ positive,
    operand ∈ (clauseList positive tree).flatten ↔ operand ∈ (pushNot positive tree).operands := by
  induction tree with
  | and l r ihl ihr | or l r ihl ihr =>
    intro positive
    cases positive <;>
      simp only [clauseList, pushNot, operands, List.flatten_append, List.mem_append,
        mem_flatten_cross_iff, clauseList_ne_nil, ne_eq, not_false_eq_true, ihl, ihr]
  | not x ih =>
    intro positive
    rw [clauseList_not, pushNot_not, ih]
  | _ =>
    intro positive
    cases positive <;> simp [clauseList, pushNot, operands]

theorem IsNegationNormal.of_mem_operands (h : tree.IsNegationNormal) (hmem : operand ∈ tree.operands) :
    operand.IsNegationNormal := by
  induction tree with
  | and l r ihl ihr =>
    obtain ⟨hl, hr⟩ := isNegationNormal_and.1 h
    exact (List.mem_append.1 hmem).elim (ihl hl) (ihr hr)
  | or l r ihl ihr =>
    obtain ⟨hl, hr⟩ := isNegationNormal_or.1 h
    exact (List.mem_append.1 hmem).elim (ihl hl) (ihr hr)
  | _ => rwa [List.mem_singleton.1 hmem]

theorem isNegationNormal_of_mem_clauseList (h : operand ∈ (clauseList true tree).flatten) :
    operand.IsNegationNormal :=
  (tree.isNegationNormal_pushNot true).of_mem_operands ((mem_flatten_clauseList_iff tree true).1 h)

/-! ## The clausal form -/

theorem clause_eq_mapM (x : Pattern) :
    clause normalizer x = x.disjuncts.mapM (operandLiteral normalizer) := by
  induction x with
  | or l r ihl ihr => rw [clause, disjuncts, List.mapM_append, ihl, ihr]
  | _ => simp [clause, disjuncts, operandLiteral, unnegated, isNegation]

theorem clauses_eq_mapM (x : Pattern) :
    clauses normalizer x = x.flatten.mapM fun operands => operands.mapM (operandLiteral normalizer) := by
  induction x with
  | and l r ihl ihr => rw [clauses, flatten_and, List.mapM_append, ihl, ihr]
  | _ => simp [clauses, flatten, conjuncts, clause_eq_mapM]

/-- The clausal form of a `tree` has the literals of the operands in `clauseList`. -/
theorem toCnf_eq_map (tree : Pattern) : tree.toCnf normalizer =
    Cnf.mk <$> (clauseList true tree).mapM fun operands => operands.mapM (operandLiteral normalizer) := by
  rw [toCnf, clauses_eq_mapM, flatten_clausalTree]
  rfl

theorem toCnf_eq_ok_iff : tree.toCnf normalizer = .ok cnf ↔
    (clauseList true tree).mapM (fun operands => operands.mapM (operandLiteral normalizer)) =
      .ok cnf.clauses := by
  rw [toCnf_eq_map]
  cases (clauseList true tree).mapM fun operands => operands.mapM (operandLiteral normalizer) with
  | error fault => simp [Functor.map, Except.map]
  | ok clauses =>
    obtain ⟨clauses'⟩ := cnf
    simp [Functor.map, Except.map]

/-- The clausal form of a `tree` is the `cnf` whose literals state the operands one by one, in their order. -/
theorem toCnf_eq_ok_iff_states : tree.toCnf normalizer = .ok cnf ↔
    List.Forall₂ (List.Forall₂ (States normalizer)) (clauseList true tree) cnf.clauses := by
  simp only [toCnf_eq_ok_iff, mapM_eq_ok_iff]
  refine forall₂_congr_left fun operands hmem _ => forall₂_congr_left fun operand hoperand _ => ?_
  exact operandLiteral_eq_ok_iff
    (isNegationNormal_of_mem_clauseList (List.mem_flatten.2 ⟨operands, hmem, hoperand⟩))

/-- Distribution makes the clauses of the pattern, and its clausal form states their operands one by one. -/
theorem clausal_form_lists_clauses (normalizer : Normalizer) (tree : Pattern) (cnf : Cnf) :
    tree.clausalTree.flatten = clauseList true tree ∧
      (tree.toCnf normalizer = .ok cnf ↔
        List.Forall₂ (List.Forall₂ (States normalizer)) (clauseList true tree) cnf.clauses) :=
  ⟨flatten_clausalTree tree, toCnf_eq_ok_iff_states⟩

/-! ## Which patterns have a clausal form -/

/-- The literal has terms, of which no two neighbours are wildcards, and looks up a rule only if its operand
does. -/
structure WellBuilt (operand : Pattern) (literal : Literal) : Prop where
  terms_ne_nil : literal.terms ≠ []
  apart : (literal.terms.map Term.wildcard?).IsChain Apart
  lookup : literal.isLookup = true → ∃ name, operand.unnegated = .lookup name

/-- A literal that states its `operand` is well built, since a phrase has terms and carries that no two neighbours
are wildcards. -/
theorem States.wellBuilt {literal : Literal} (h : operand.States normalizer literal) :
    WellBuilt operand literal where
  terms_ne_nil := by simp [Literal.terms, Subject.terms]
  apart := hasAdjacentWildcards_eq_false_iff.1 literal.separated
  lookup hlookup := by
    obtain ⟨negated, subject⟩ := literal
    cases subject with
    | phrase phrase => cases hlookup
    | lookup name => exact ⟨name, h.subject⟩

/-- A `tree` has a clausal form exactly if each operand in its clauses has a literal. -/
theorem exists_toCnf_iff : (∃ cnf, tree.toCnf normalizer = .ok cnf) ↔
    ∀ operand ∈ (clauseList true tree).flatten, ∃ literal, operand.operandLiteral normalizer = .ok literal := by
  simp only [toCnf_eq_ok_iff, mapM_eq_ok_iff]
  calc (∃ cnf : Cnf, List.Forall₂ (List.Forall₂ fun operand literal =>
          operand.operandLiteral normalizer = .ok literal) (clauseList true tree) cnf.clauses)
      ↔ ∃ clauses, List.Forall₂ (List.Forall₂ fun operand literal =>
          operand.operandLiteral normalizer = .ok literal) (clauseList true tree) clauses :=
        ⟨fun ⟨cnf, h⟩ => ⟨cnf.clauses, h⟩, fun ⟨clauses, h⟩ => ⟨⟨clauses⟩, h⟩⟩
    _ ↔ ∀ operands ∈ clauseList true tree, ∀ operand ∈ operands,
          ∃ literal, operand.operandLiteral normalizer = .ok literal := by
        simp only [exists_forall₂_iff]
    _ ↔ _ := by
        simp only [List.mem_flatten, forall_exists_index, and_imp]
        exact ⟨fun h operand operands hmem hoperand => h operands hmem operand hoperand,
          fun h operands hmem operand hoperand => h operand operands hmem hoperand⟩

/-- A pattern has a clausal form exactly if each of its operands has a literal. There is at least one clause then,
no clause is empty, and all literals are well built. -/
theorem exists_toCnf_iff_operands (normalizer : Normalizer) (tree : Pattern) :
    ((∃ cnf, tree.toCnf normalizer = .ok cnf) ↔
      ∀ operand ∈ (pushNot true tree).operands, operand.unnegated.HasLiteral normalizer) ∧
    ∀ cnf, tree.toCnf normalizer = .ok cnf → cnf.clauses ≠ [] ∧ [] ∉ cnf.clauses ∧
      List.Forall₂ (List.Forall₂ WellBuilt) (clauseList true tree) cnf.clauses := by
  constructor
  · rw [exists_toCnf_iff]
    simp only [← mem_flatten_clauseList_iff]
    refine forall₂_congr fun operand hmem => ?_
    exact exists_literal_iff (isNegationNormal_unnegated (isNegationNormal_of_mem_clauseList hmem)) _
  · intro cnf h
    have hstates := toCnf_eq_ok_iff_states.1 h
    refine ⟨?_, nil_notMem_of_toCnf h, ?_⟩
    · rintro hnil
      rw [hnil, List.forall₂_nil_right_iff] at hstates
      exact clauseList_ne_nil tree true hstates
    · exact hstates.imp fun _ _ hclause => hclause.imp fun _ _ => States.wellBuilt

/-- A lookup beside a negated disjunction, with two negations in a phrase that cancel out. -/
theorem exists_toCnf_iff_operands_double_negation :
    let tree : Pattern := .or (.lookup "meal")
      (.not (.or (.word "Soup") (.join (.not (.not (.word "big"))) (.wildcard .one))))
    let phrase : Phrase := ⟨⟨"big", "big", .normalized⟩, [.ofWildcard .one], rfl⟩
    let cnf : Cnf := ⟨[[.lookup "meal" false, .ofTerm ⟨"Soup", "soup", .normalized⟩ true],
      [.lookup "meal" false, ⟨true, .phrase phrase⟩]]⟩
    tree.toCnf .standard = .ok cnf ∧ cnf.clauses ≠ [] ∧ [] ∉ cnf.clauses ∧
      List.Forall₂ (List.Forall₂ WellBuilt) (clauseList true tree) cnf.clauses := by
  intro tree phrase cnf
  have hcnf : tree.toCnf .standard = .ok cnf := toCnf_eq_ok_iff.2 (by decide +kernel)
  exact ⟨hcnf, (exists_toCnf_iff_operands .standard tree).2 cnf hcnf⟩

end Pattern

end Tagging
