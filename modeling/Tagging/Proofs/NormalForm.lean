import Mathlib.Logic.Function.Iterate
import Tagging.Pattern.Distribution

/-!
# Normal forms of patterns

Rounds of sweeps end at the form that one pass from the root makes, which flips conjunctions and disjunctions
under an odd number of negations and keeps a negation only where a phrase or a lookup is left below. No rule
changes what that pass makes of a pattern, and where no rule fires the pass has nothing to do. So it does not
matter in which order the sweeps come to the places where rules fire.

Distribution then leaves no conjunction below a disjunction.
-/

namespace Tagging.Pattern

variable {rule : Pattern → Option Pattern} {tree l r x : Pattern}

/-! ## Parts of a pattern -/

/-- Whether the pattern is a conjunction, a disjunction or a negation. -/
def isConnective : Pattern → Bool
  | .and _ _ | .or _ _ | .not _ => true
  | _ => false

/-- The parts of a pattern at any depth, the pattern itself among them. -/
def parts : Pattern → List Pattern
  | .and l r => .and l r :: (l.parts ++ r.parts)
  | .or l r => .or l r :: (l.parts ++ r.parts)
  | .join l r => .join l r :: (l.parts ++ r.parts)
  | .not x => .not x :: x.parts
  | leaf => [leaf]

/-- The parts that stand neither in a phrase nor under a negation. -/
def outerParts : Pattern → List Pattern
  | .and l r => .and l r :: (l.outerParts ++ r.outerParts)
  | .or l r => .or l r :: (l.outerParts ++ r.outerParts)
  | operand => [operand]

theorem self_mem_parts (tree : Pattern) : tree ∈ tree.parts := by
  cases tree <;> simp [parts]

theorem self_mem_outerParts (tree : Pattern) : tree ∈ tree.outerParts := by
  cases tree <;> simp [outerParts]

/-! ## Negation normal form -/

/-- No negation stands right above a connective, at any depth. -/
def IsNegationNormal (tree : Pattern) : Prop :=
  ∀ x, .not x ∈ tree.parts → x.isConnective = false

@[simp] theorem isNegationNormal_and :
    (Pattern.and l r).IsNegationNormal ↔ l.IsNegationNormal ∧ r.IsNegationNormal := by
  simp [IsNegationNormal, parts, or_imp, forall_and]

@[simp] theorem isNegationNormal_or :
    (Pattern.or l r).IsNegationNormal ↔ l.IsNegationNormal ∧ r.IsNegationNormal := by
  simp [IsNegationNormal, parts, or_imp, forall_and]

@[simp] theorem isNegationNormal_join :
    (Pattern.join l r).IsNegationNormal ↔ l.IsNegationNormal ∧ r.IsNegationNormal := by
  simp [IsNegationNormal, parts, or_imp, forall_and]

@[simp] theorem isNegationNormal_not :
    (Pattern.not x).IsNegationNormal ↔ x.isConnective = false ∧ x.IsNegationNormal := by
  simp [IsNegationNormal, parts, or_imp, forall_and]

/-! ## One pass -/

/-- The pattern, or its opposite where `positive` is off, with its negations moved inwards in one pass. -/
def pushNot : Bool → Pattern → Pattern
  | true, .and l r => .and (pushNot true l) (pushNot true r)
  | false, .and l r => .or (pushNot false l) (pushNot false r)
  | true, .or l r => .or (pushNot true l) (pushNot true r)
  | false, .or l r => .and (pushNot false l) (pushNot false r)
  | positive, .not x => pushNot (!positive) x
  | true, .join l r => .join (pushNot true l) (pushNot true r)
  | false, .join l r => .not (.join (pushNot true l) (pushNot true r))
  | true, leaf => leaf
  | false, leaf => .not leaf

@[simp] theorem pushNot_not (positive : Bool) (x : Pattern) :
    pushNot positive (.not x) = pushNot (!positive) x := by
  cases positive <;> rfl

theorem pushNot_false (h : tree.isConnective = false) :
    pushNot false tree = .not (pushNot true tree) := by
  cases tree with
  | and _ _ | or _ _ | not _ => cases h
  | _ => rfl

/-- One pass leaves no negation above a connective, whichever `positive` it begins with. -/
theorem isNegationNormal_pushNot (tree : Pattern) :
    ∀ positive, (pushNot positive tree).IsNegationNormal := by
  induction tree with
  | and l r ihl ihr | or l r ihl ihr =>
    intro positive
    cases positive <;> simp [pushNot, ihl, ihr]
  | not x ih =>
    intro positive
    rw [pushNot_not]
    exact ih (!positive)
  | join l r ihl ihr =>
    intro positive
    cases positive <;> simp [pushNot, ihl, ihr, isConnective]
  | _ =>
    intro positive
    cases positive <;> simp [pushNot, IsNegationNormal, parts, isConnective]

/-- The pass has nothing to do where no negation stands above a connective. -/
theorem pushNot_eq_self (h : tree.IsNegationNormal) : pushNot true tree = tree := by
  induction tree with
  | and l r ihl ihr =>
    obtain ⟨hl, hr⟩ := isNegationNormal_and.1 h
    rw [pushNot, ihl hl, ihr hr]
  | or l r ihl ihr =>
    obtain ⟨hl, hr⟩ := isNegationNormal_or.1 h
    rw [pushNot, ihl hl, ihr hr]
  | join l r ihl ihr =>
    obtain ⟨hl, hr⟩ := isNegationNormal_join.1 h
    rw [pushNot, ihl hl, ihr hr]
  | not x ih =>
    obtain ⟨hx, hinner⟩ := isNegationNormal_not.1 h
    rw [pushNot_not, Bool.not_true, pushNot_false hx, ih hinner]
  | _ => rfl

/-! ## Rules and rounds -/

/-- What a rule makes of a pattern is the same to the pass. -/
def Commutes (rule : Pattern → Option Pattern) : Prop :=
  ∀ tree next, rule tree = some next → ∀ positive, pushNot positive next = pushNot positive tree

theorem commutes_notOverOr : Commutes notOverOr := by
  intro tree next h positive
  unfold notOverOr at h
  split at h
  · cases h
    cases positive <;> rfl
  · contradiction

theorem commutes_notOverAnd : Commutes notOverAnd := by
  intro tree next h positive
  unfold notOverAnd at h
  split at h
  · cases h
    cases positive <;> rfl
  · contradiction

theorem commutes_doubleNot : Commutes doubleNot := by
  intro tree next h positive
  unfold doubleNot at h
  split at h
  · cases h
    cases positive <;> rfl
  · contradiction

/-- A sweep of a rule that is the same to the pass is the same to it too. -/
theorem Commutes.sweep (hrule : Commutes rule) (tree : Pattern) :
    ∀ positive, pushNot positive (Pattern.sweep rule tree) = pushNot positive tree := by
  fun_induction Pattern.sweep rule tree with
  | case1 tree next h => exact hrule tree next h
  | case2 l r _ ihl ihr | case3 l r _ ihl ihr | case4 l r _ ihl ihr =>
    intro positive
    cases positive <;> simp only [pushNot, ihl, ihr]
  | case5 x _ ih =>
    intro positive
    rw [pushNot_not, pushNot_not, ih]
  | case6 => exact fun _ => rfl

/-- A round of sweeps makes a pattern of which the pass makes the same as of `tree`. -/
theorem pushNot_round (tree : Pattern) (positive : Bool) :
    pushNot positive (round tree) = pushNot positive tree := by
  rw [round, commutes_doubleNot.sweep, commutes_notOverAnd.sweep, commutes_notOverOr.sweep]

/-- Whether the rule fires anywhere, so that a sweep of it changes something. -/
def fires (rule : Pattern → Option Pattern) (tree : Pattern) : Bool :=
  tree.parts.any fun part => (rule part).isSome

/-- Whether one of the three sweeps of a round changes something. -/
def changes (tree : Pattern) : Bool :=
  fires notOverOr tree || fires notOverAnd (sweep notOverOr tree) ||
    fires doubleNot (sweep notOverAnd (sweep notOverOr tree))

theorem fires_eq_false_iff : fires rule tree = false ↔ ∀ part ∈ tree.parts, rule part = none := by
  simp [fires]

theorem sweep_eq_self (h : fires rule tree = false) : sweep rule tree = tree := by
  rw [fires_eq_false_iff] at h
  fun_induction sweep rule tree with
  | case1 tree next hnext =>
    rw [h tree tree.self_mem_parts] at hnext
    cases hnext
  | case2 l r _ ihl ihr | case3 l r _ ihl ihr | case4 l r _ ihl ihr =>
    simp only [parts, List.forall_mem_cons, List.forall_mem_append] at h
    rw [ihl h.2.1, ihr h.2.2]
  | case5 x _ ih =>
    simp only [parts, List.forall_mem_cons] at h
    rw [ih h.2]
  | case6 => rfl

theorem Lowers.negationWeight_sweep_le (hrule : Lowers rule) (tree : Pattern) :
    (Pattern.sweep rule tree).negationWeight ≤ tree.negationWeight := by
  rcases (hrule.sweep tree).2 with h | h
  · exact Nat.le_of_eq (congrArg negationWeight h)
  · exact Nat.le_of_lt h

/-- A sweep that does not lower the weight has fired nowhere. -/
theorem Lowers.fires_eq_false (hrule : Lowers rule)
    (h : tree.negationWeight ≤ (Pattern.sweep rule tree).negationWeight) : fires rule tree = false := by
  have heq : Pattern.sweep rule tree = tree := (hrule.sweep tree).2.resolve_right (Nat.not_lt.2 h)
  clear h
  rw [fires_eq_false_iff]
  fun_induction Pattern.sweep rule tree with
  | case1 tree next hnext =>
    subst heq
    exact absurd (hrule _ _ hnext).2 (Nat.lt_irrefl _)
  | case2 l r hnone ihl ihr | case3 l r hnone ihl ihr | case4 l r hnone ihl ihr =>
    injection heq with hl hr
    simp only [parts, List.forall_mem_cons, List.forall_mem_append]
    exact ⟨hnone, ihl hl, ihr hr⟩
  | case5 x hnone ih =>
    injection heq with hx
    simp only [parts, List.forall_mem_cons]
    exact ⟨hnone, ih hx⟩
  | case6 leaf hnone _ _ _ _ =>
    cases leaf <;> simp_all [parts]

/-- Where nothing changes, each of the three sweeps has seen the `tree` that the round began with. -/
theorem fires_eq_false_of_changes (h : changes tree = false) :
    fires notOverOr tree = false ∧ fires notOverAnd tree = false ∧ fires doubleNot tree = false := by
  simp only [changes, Bool.or_eq_false_iff] at h
  obtain ⟨⟨hor, hand⟩, hdouble⟩ := h
  rw [sweep_eq_self hor] at hand hdouble
  rw [sweep_eq_self hand] at hdouble
  exact ⟨hor, hand, hdouble⟩

/-- Something changes in a round exactly if the pattern is another one after it. For no sweep adds to the weight, so
where it is the same after all three, none has lowered it. -/
theorem changes_eq_false_iff : changes tree = false ↔ round tree = tree := by
  constructor
  · intro h
    obtain ⟨hor, hand, hdouble⟩ := fires_eq_false_of_changes h
    rw [round, sweep_eq_self hor, sweep_eq_self hand, sweep_eq_self hdouble]
  · intro h
    have hor := lowers_notOverOr.negationWeight_sweep_le tree
    have hand := lowers_notOverAnd.negationWeight_sweep_le (sweep notOverOr tree)
    have hdouble := lowers_doubleNot.negationWeight_sweep_le (sweep notOverAnd (sweep notOverOr tree))
    have hround : (sweep doubleNot (sweep notOverAnd (sweep notOverOr tree))).negationWeight =
        tree.negationWeight := congrArg negationWeight h
    rw [changes, lowers_notOverOr.fires_eq_false (by omega), lowers_notOverAnd.fires_eq_false (by omega),
      lowers_doubleNot.fires_eq_false (by omega)]
    rfl

/-! ## The end of the rounds -/

theorem isNegationNormal_of_changes (h : changes tree = false) : tree.IsNegationNormal := by
  obtain ⟨hor, hand, hdouble⟩ := fires_eq_false_of_changes h
  rw [fires_eq_false_iff] at hor hand hdouble
  intro x hx
  cases x with
  | or _ _ => cases hor _ hx
  | and _ _ => cases hand _ hx
  | not _ => cases hdouble _ hx
  | _ => rfl

/-- The rounds end at what one pass makes of the `tree`. -/
theorem negationNormal_eq_pushNot (tree : Pattern) : tree.negationNormal = pushNot true tree := by
  fun_induction negationNormal tree with
  | case1 tree h =>
    exact (pushNot_eq_self (isNegationNormal_of_changes (changes_eq_false_iff.2 h))).symm
  | case2 tree _ ih => exact ih.trans (pushNot_round tree true)

theorem isNegationNormal_negationNormal (tree : Pattern) : tree.negationNormal.IsNegationNormal := by
  rw [negationNormal_eq_pushNot]
  exact tree.isNegationNormal_pushNot true

/-- Every round but the last changes something, and there are no more of these than `negationWeight` says. -/
theorem exists_round_iterate (tree : Pattern) : ∃ n ≤ tree.negationWeight,
    (∀ k < n, changes (round^[k] tree) = true) ∧ changes (round^[n] tree) = false ∧
      round^[n] tree = tree.negationNormal := by
  fun_induction negationNormal tree with
  | case1 tree h => exact ⟨0, Nat.zero_le _, by simp, changes_eq_false_iff.2 h, rfl⟩
  | case2 tree h ih =>
    obtain ⟨n, hle, hbefore, hafter, hreached⟩ := ih
    have hlt := negationWeight_round_lt h
    refine ⟨n + 1, by omega, fun k hk => ?_, hafter, hreached⟩
    cases k with
    | zero => exact eq_true_of_ne_false fun hfirst => h (changes_eq_false_iff.1 hfirst)
    | succ k => exact hbefore k (Nat.lt_of_succ_lt_succ hk)

/-! ## Distribution -/

/-- No conjunction stands in the pattern, except in phrases and under negations. -/
def IsDisjunctive (tree : Pattern) : Prop := ∀ part ∈ tree.outerParts, part.isAnd = false

/-- No conjunction stands below a disjunction, except in phrases and under negations. -/
def IsConjunctive (tree : Pattern) : Prop :=
  ∀ l r, .or l r ∈ tree.outerParts → (Pattern.or l r).IsDisjunctive

theorem isDisjunctive_or : (Pattern.or l r).IsDisjunctive ↔ l.IsDisjunctive ∧ r.IsDisjunctive := by
  simp [IsDisjunctive, outerParts, isAnd, or_imp, forall_and]

theorem isConjunctive_and : (Pattern.and l r).IsConjunctive ↔ l.IsConjunctive ∧ r.IsConjunctive := by
  simp [IsConjunctive, outerParts, or_imp, forall_and]

/-- A conjunctive `tree` that is no conjunction has none at all. -/
theorem IsConjunctive.isDisjunctive (h : tree.IsConjunctive) (hand : tree.isAnd = false) :
    tree.IsDisjunctive := by
  cases tree with
  | and _ _ => cases hand
  | or l r => exact h l r (self_mem_outerParts _)
  | _ => simp [IsDisjunctive, outerParts, isAnd]

theorem IsDisjunctive.isConjunctive (h : tree.IsDisjunctive) : tree.IsConjunctive := by
  induction tree with
  | and l r _ _ => cases h _ (self_mem_outerParts _)
  | or l r ihl ihr =>
    obtain ⟨hl, hr⟩ := isDisjunctive_or.1 h
    intro l' r' hmem
    simp only [outerParts, List.mem_cons, List.mem_append] at hmem
    rcases hmem with heq | hmem | hmem
    · rwa [heq]
    · exact ihl hl l' r' hmem
    · exact ihr hr l' r' hmem
  | _ => simp [IsConjunctive, outerParts]

theorem isConjunctive_distributeLeft (hleft : l.IsConjunctive) (hright : r.IsDisjunctive) :
    (distributeLeft r l).IsConjunctive := by
  induction l with
  | and b c ihb ihc =>
    obtain ⟨hb, hc⟩ := isConjunctive_and.1 hleft
    exact isConjunctive_and.2 ⟨ihb hb, ihc hc⟩
  | _ => exact (isDisjunctive_or.2 ⟨hleft.isDisjunctive rfl, hright⟩).isConjunctive

theorem isConjunctive_distributeOr (hleft : l.IsConjunctive) (hright : r.IsConjunctive) :
    (distributeOr l r).IsConjunctive := by
  induction r with
  | and b c ihb ihc =>
    obtain ⟨hb, hc⟩ := isConjunctive_and.1 hright
    exact isConjunctive_and.2 ⟨ihb hb, ihc hc⟩
  | _ => exact isConjunctive_distributeLeft hleft (hright.isDisjunctive rfl)

theorem isConjunctive_distribute (tree : Pattern) : tree.distribute.IsConjunctive := by
  induction tree with
  | and l r ihl ihr => exact isConjunctive_and.2 ⟨ihl, ihr⟩
  | or l r ihl ihr => exact isConjunctive_distributeOr ihl ihr
  | _ => simp [distribute, IsConjunctive, outerParts]

/-! ## Both forms -/

/-- The rounds come to an end, which is in negation normal form, and distribution makes a conjunction of
disjunctions of it. -/
theorem rounds_end_in_normal_form (tree : Pattern) :
    (∃ n ≤ tree.negationWeight, (∀ k < n, changes (round^[k] tree) = true) ∧
      changes (round^[n] tree) = false ∧ round^[n] tree = tree.negationNormal) ∧
    tree.negationNormal.IsNegationNormal ∧ tree.clausalTree.IsConjunctive :=
  ⟨tree.exists_round_iterate, tree.isNegationNormal_negationNormal, isConjunctive_distribute _⟩

end Tagging.Pattern
