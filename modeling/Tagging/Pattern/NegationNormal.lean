import Tagging.Pattern

/-!
# Negation normal form

Three rules move negations inwards: past a disjunction, past a conjunction, and off another negation.
A sweep applies one rule at every node from the root down and does not look again at what a rule has
just built. Rounds of three sweeps go on until a round changes nothing.

A rule that fires never adds to the weight of a tree, which counts how many other nodes stand under
each negation, and takes something from it at the place where it fires. That is why the rounds end.
-/

namespace Tagging

namespace Pattern

/-- A negated disjunction is the conjunction of the negations. -/
def notOverOr : Pattern → Option Pattern
  | .not (.or x y) => some (.and (.not x) (.not y))
  | _ => none

/-- A negated conjunction is the disjunction of the negations. -/
def notOverAnd : Pattern → Option Pattern
  | .not (.and x y) => some (.or (.not x) (.not y))
  | _ => none

/-- Two negations cancel out. -/
def doubleNot : Pattern → Option Pattern
  | .not (.not x) => some x
  | _ => none

/-- Applies `rule` from the root down wherever it fires, but not inside what it builds. -/
def sweep (rule : Pattern → Option Pattern) (tree : Pattern) : Pattern :=
  match rule tree with
  | some next => next
  | none =>
    match tree with
    | .and l r => .and (sweep rule l) (sweep rule r)
    | .or l r => .or (sweep rule l) (sweep rule r)
    | .join l r => .join (sweep rule l) (sweep rule r)
    | .not x => .not (sweep rule x)
    | leaf => leaf

/-- One sweep of each rule. -/
def round (tree : Pattern) : Pattern :=
  sweep doubleNot (sweep notOverAnd (sweep notOverOr tree))

/-- The number of nodes that are no negations. -/
def positiveSize : Pattern → Nat
  | .and l r | .or l r | .join l r => 1 + l.positiveSize + r.positiveSize
  | .not x => x.positiveSize
  | .word _ | .exactWord _ | .lookup _ | .wildcard _ => 1

/-- The number of nodes under each negation that are no negations themselves, summed up. -/
def negationWeight : Pattern → Nat
  | .and l r | .or l r | .join l r => l.negationWeight + r.negationWeight
  | .not x => x.positiveSize + x.negationWeight
  | .word _ | .exactWord _ | .lookup _ | .wildcard _ => 0

theorem positiveSize_pos (tree : Pattern) : 0 < tree.positiveSize := by
  induction tree with
  | not x ih => exact ih
  | _ => simp only [positiveSize]; omega

/-- What makes a rule safe to repeat: it keeps the number of other nodes and lowers the weight. -/
def Lowers (rule : Pattern → Option Pattern) : Prop :=
  ∀ tree next, rule tree = some next →
    next.positiveSize = tree.positiveSize ∧ next.negationWeight < tree.negationWeight

theorem lowers_notOverOr : Lowers notOverOr := by
  intro tree next h
  unfold notOverOr at h
  split at h
  · cases h
    refine ⟨rfl, ?_⟩
    simp only [positiveSize, negationWeight]
    omega
  · contradiction

theorem lowers_notOverAnd : Lowers notOverAnd := by
  intro tree next h
  unfold notOverAnd at h
  split at h
  · cases h
    refine ⟨rfl, ?_⟩
    simp only [positiveSize, negationWeight]
    omega
  · contradiction

theorem lowers_doubleNot : Lowers doubleNot := by
  intro tree next h
  unfold doubleNot at h
  split at h
  · cases h
    have := positiveSize_pos next
    refine ⟨rfl, ?_⟩
    simp only [positiveSize, negationWeight]
    omega
  · contradiction

/-- A sweep leaves the `tree` alone or lowers its weight, and keeps the number of other nodes. By induction along the
sweep: at a node with two children the changes of both sides add up. -/
theorem Lowers.sweep {rule : Pattern → Option Pattern} (hrule : Lowers rule) (tree : Pattern) :
    (Pattern.sweep rule tree).positiveSize = tree.positiveSize ∧
      (Pattern.sweep rule tree = tree ∨
        (Pattern.sweep rule tree).negationWeight < tree.negationWeight) := by
  fun_induction Pattern.sweep rule tree with
  | case1 tree next h =>
    have := hrule tree next h
    exact ⟨this.1, .inr this.2⟩
  | case2 l r _ ihl ihr | case3 l r _ ihl ihr | case4 l r _ ihl ihr =>
    obtain ⟨hl, hl'⟩ := ihl
    obtain ⟨hr, hr'⟩ := ihr
    refine ⟨by simp only [positiveSize, hl, hr], ?_⟩
    rcases hl' with hl' | hl' <;> rcases hr' with hr' | hr'
    · exact .inl (by rw [hl', hr'])
    all_goals
      right
      simp only [negationWeight]
      try rw [hl']
      try rw [hr']
      omega
  | case5 x _ ih =>
    obtain ⟨hx, hx'⟩ := ih
    refine ⟨by simp only [positiveSize, hx], ?_⟩
    rcases hx' with hx' | hx'
    · exact .inl (by rw [hx'])
    · right
      simp only [negationWeight]
      omega
  | case6 => exact ⟨rfl, .inl rfl⟩

/-- A round that changes something lowers the weight. -/
theorem negationWeight_round_lt {tree : Pattern} (h : round tree ≠ tree) :
    (round tree).negationWeight < tree.negationWeight := by
  have h₁ := (lowers_notOverOr.sweep tree).2
  have h₂ := (lowers_notOverAnd.sweep (sweep notOverOr tree)).2
  have h₃ := (lowers_doubleNot.sweep (sweep notOverAnd (sweep notOverOr tree))).2
  unfold round at h ⊢
  rcases h₁ with h₁ | h₁
  · rw [h₁] at h₂ h₃ h ⊢
    rcases h₂ with h₂ | h₂
    · rw [h₂] at h₃ h ⊢
      rcases h₃ with h₃ | h₃
      · exact absurd h₃ h
      · exact h₃
    · rcases h₃ with h₃ | h₃
      · rw [h₃]; exact h₂
      · omega
  · rcases h₂ with h₂ | h₂ <;> rcases h₃ with h₃ | h₃
    · rw [h₃, h₂]; exact h₁
    · rw [h₂] at h₃ ⊢; omega
    · rw [h₃]; omega
    · omega

/-- The tree with all negations moved inwards as far as they go. -/
def negationNormal (tree : Pattern) : Pattern :=
  if _h : round tree = tree then tree else negationNormal (round tree)
termination_by tree.negationWeight
decreasing_by exact negationWeight_round_lt _h

end Pattern

end Tagging
