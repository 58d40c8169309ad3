import Mathlib.Logic.Basic
import Tagging.Cnf.Compile
import Tagging.Literal.Search

/-!
# What patterns mean

A pattern is a boolean combination of lookups and phrases, and what it means is read off its tree. A
phrase is true of a text in which it is found, a lookup is true if the tree of its rule is, and the
connectives are what they are called. Two negations inside a phrase cancel out, and everything else that
cannot be part of a phrase leaves the phrase without a meaning.

Moving negations inwards and distributing disjunctions over conjunctions keep the meaning. This is shown
rule by rule, and neither step has to reach any particular form for it.
-/

namespace Tagging

namespace Pattern

/-! ## Meaning -/

/-- The terms of a phrase, or of a part of it that stands under an even number of negations (`positive`).
A part under an odd number of negations must be a negation itself. -/
def terms? (normalizer : Normalizer) : Bool → Pattern → Option (List Term)
  | true, .word w =>
    let normalized := normalizer.normalize w
    if normalized.isEmpty then none else some [{ word := w, normalized }]
  | true, .exactWord w => if w.isEmpty then none else some [.exactly w]
  | true, .wildcard w => some [.ofWildcard w]
  | true, .join l r => do
    let left ← terms? normalizer true l
    let right ← terms? normalizer true r
    return left ++ right
  | positive, .not x => terms? normalizer (!positive) x
  | _, _ => none

/-- The literal of a phrase, which is a word, a wildcard or several of these next to each other. -/
def phrase? (normalizer : Normalizer) : Pattern → Option Literal
  | .and _ _ | .or _ _ | .not _ | .lookup _ => none
  | operand => do
    let terms ← operand.terms? normalizer true
    (Literal.ofTerms terms false).toOption

/-- Whether a pattern is true of a text when that is known of the rules. A pattern with a part that means
nothing means nothing. -/
def truth? (normalizer : Normalizer) (tokens : List Token) (ofRule : String → Option Bool) :
    Pattern → Option Bool
  | .and l r => do
    let left ← l.truth? normalizer tokens ofRule
    let right ← r.truth? normalizer tokens ofRule
    return left && right
  | .or l r => do
    let left ← l.truth? normalizer tokens ofRule
    let right ← r.truth? normalizer tokens ofRule
    return left || right
  | .not x => do
    let inner ← x.truth? normalizer tokens ofRule
    return !inner
  | .lookup name => ofRule name
  | operand => do
    let literal ← operand.phrase? normalizer
    return (literal.find tokens).isSome

/-- Whether a pattern is true of `tokens`, where lookups lead to the `trees` of the rules. -/
inductive Judged (trees : List (String × Pattern)) (normalizer : Normalizer) (tokens : List Token) :
    Pattern → Bool → Prop where
  | and {l r : Pattern} {a b : Bool} : Judged trees normalizer tokens l a →
      Judged trees normalizer tokens r b → Judged trees normalizer tokens (.and l r) (a && b)
  | or {l r : Pattern} {a b : Bool} : Judged trees normalizer tokens l a →
      Judged trees normalizer tokens r b → Judged trees normalizer tokens (.or l r) (a || b)
  | not {x : Pattern} {b : Bool} : Judged trees normalizer tokens x b →
      Judged trees normalizer tokens (.not x) (!b)
  | lookup {name : String} {tree : Pattern} {b : Bool} : (name, tree) ∈ trees →
      Judged trees normalizer tokens tree b → Judged trees normalizer tokens (.lookup name) b
  | phrase {x : Pattern} {literal : Literal} : x.phrase? normalizer = some literal →
      Judged trees normalizer tokens x (literal.find tokens).isSome

section Judgement

variable {trees : List (String × Pattern)} {normalizer : Normalizer} {tokens : List Token}
  {ofRule : String → Option Bool}

/-- A phrase is true where its `literal` is found. -/
theorem truth?_eq_of_phrase? {x : Pattern} {literal : Literal}
    (h : x.phrase? normalizer = some literal) :
    x.truth? normalizer tokens ofRule = some (literal.find tokens).isSome := by
  cases x with
  | and l r | or l r | not x | lookup name => cases h
  | join l r | word w | exactWord w | wildcard w =>
    simp only [truth?, h]
    rfl

/-- Where the rules have the truth of their `trees`, so does everything that is judged. -/
theorem Judged.truth?_eq (hrules : ∀ entry ∈ trees,
      entry.2.truth? normalizer tokens ofRule = ofRule entry.1) {x : Pattern} {b : Bool}
    (h : Judged trees normalizer tokens x b) : x.truth? normalizer tokens ofRule = some b := by
  induction h with
  | and _ _ ihl ihr => simp [truth?, ihl, ihr]
  | or _ _ ihl ihr => simp [truth?, ihl, ihr]
  | not _ ih => simp [truth?, ih]
  | lookup hmem _ ih => exact (hrules _ hmem).symm.trans ih
  | phrase h => exact truth?_eq_of_phrase? h

/-- What has a truth is judged, once the lookups that it depends on are. By induction on the pattern. -/
theorem judged_of_truth?_eq
    (hrules : ∀ name b, ofRule name = some b → Judged trees normalizer tokens (.lookup name) b)
    {x : Pattern} : ∀ {b : Bool}, x.truth? normalizer tokens ofRule = some b →
      Judged trees normalizer tokens x b := by
  induction x with
  | and l r ihl ihr =>
    intro b h
    obtain ⟨left, hl, h⟩ := Option.bind_eq_some_iff.1 h
    obtain ⟨right, hr, h⟩ := Option.bind_eq_some_iff.1 h
    cases h
    exact .and (ihl hl) (ihr hr)
  | or l r ihl ihr =>
    intro b h
    obtain ⟨left, hl, h⟩ := Option.bind_eq_some_iff.1 h
    obtain ⟨right, hr, h⟩ := Option.bind_eq_some_iff.1 h
    cases h
    exact .or (ihl hl) (ihr hr)
  | not x ih =>
    intro b h
    obtain ⟨inner, hx, h⟩ := Option.bind_eq_some_iff.1 h
    cases h
    exact .not (ih hx)
  | lookup name => exact fun h => hrules name _ h
  | join l r | word w | exactWord w | wildcard w =>
    intro b h
    simp only [truth?] at h
    obtain ⟨literal, hliteral, h⟩ := Option.bind_eq_some_iff.1 h
    cases h
    exact .phrase hliteral

end Judgement

/-! ## Patterns of one meaning -/

/-- The patterns `a` and `b` mean the same, also as parts of a phrase. -/
structure SameMeaning (normalizer : Normalizer) (a b : Pattern) : Prop where
  terms : ∀ positive, a.terms? normalizer positive = b.terms? normalizer positive
  truth : ∀ tokens ofRule, a.truth? normalizer tokens ofRule = b.truth? normalizer tokens ofRule

namespace SameMeaning

variable {normalizer : Normalizer} {a b c l l' r r' : Pattern}

theorem refl (a : Pattern) : SameMeaning normalizer a a := ⟨fun _ => rfl, fun _ _ => rfl⟩

theorem trans (h : SameMeaning normalizer a b) (h' : SameMeaning normalizer b c) :
    SameMeaning normalizer a c :=
  ⟨fun positive => (h.terms positive).trans (h'.terms positive),
    fun tokens ofRule => (h.truth tokens ofRule).trans (h'.truth tokens ofRule)⟩

theorem and (hl : SameMeaning normalizer l l') (hr : SameMeaning normalizer r r') :
    SameMeaning normalizer (.and l r) (.and l' r') := by
  refine ⟨fun positive => ?_, fun tokens ofRule => ?_⟩
  · cases positive <;> rfl
  · simp only [truth?, hl.truth, hr.truth]

theorem or (hl : SameMeaning normalizer l l') (hr : SameMeaning normalizer r r') :
    SameMeaning normalizer (.or l r) (.or l' r') := by
  refine ⟨fun positive => ?_, fun tokens ofRule => ?_⟩
  · cases positive <;> rfl
  · simp only [truth?, hl.truth, hr.truth]

theorem not (h : SameMeaning normalizer a b) : SameMeaning normalizer (.not a) (.not b) := by
  refine ⟨fun positive => ?_, fun tokens ofRule => ?_⟩
  · cases positive <;> exact h.terms _
  · simp only [truth?, h.truth]

theorem join (hl : SameMeaning normalizer l l') (hr : SameMeaning normalizer r r') :
    SameMeaning normalizer (.join l r) (.join l' r') := by
  have hterms : ∀ positive, terms? normalizer positive (.join l r) =
      terms? normalizer positive (.join l' r') := by
    intro positive
    cases positive with
    | false => rfl
    | true => simp only [terms?, hl.terms, hr.terms]
  exact ⟨hterms, fun tokens ofRule => by simp only [truth?, phrase?, hterms]⟩

end SameMeaning

/-! ## Negation normal form -/

/-- What `rule` makes of a pattern means the same. -/
def Keeps (normalizer : Normalizer) (rule : Pattern → Option Pattern) : Prop :=
  ∀ tree next, rule tree = some next → SameMeaning normalizer next tree

section NegationNormal

variable (normalizer : Normalizer)

/-- A negation moves over a disjunction without a change of meaning. -/
theorem keeps_notOverOr : Keeps normalizer notOverOr := by
  intro tree next h
  unfold notOverOr at h
  split at h
  · rename_i x y
    cases h
    refine ⟨fun positive => by cases positive <;> rfl, fun tokens ofRule => ?_⟩
    simp only [truth?]
    cases x.truth? normalizer tokens ofRule <;> cases y.truth? normalizer tokens ofRule <;> simp
  · contradiction

theorem keeps_notOverAnd : Keeps normalizer notOverAnd := by
  intro tree next h
  unfold notOverAnd at h
  split at h
  · rename_i x y
    cases h
    refine ⟨fun positive => by cases positive <;> rfl, fun tokens ofRule => ?_⟩
    simp only [truth?]
    cases x.truth? normalizer tokens ofRule <;> cases y.truth? normalizer tokens ofRule <;> simp
  · contradiction

theorem keeps_doubleNot : Keeps normalizer doubleNot := by
  intro tree next h
  unfold doubleNot at h
  split at h
  · rename_i x
    cases h
    refine ⟨fun positive => by cases positive <;> rfl, fun tokens ofRule => ?_⟩
    simp only [truth?]
    cases next.truth? normalizer tokens ofRule <;> simp
  · contradiction

variable {normalizer}

/-- A `rule` that keeps the meaning where it fires keeps it when it is applied all over the `tree`. -/
theorem Keeps.sweep {rule : Pattern → Option Pattern} (hrule : Keeps normalizer rule)
    (tree : Pattern) : SameMeaning normalizer (Pattern.sweep rule tree) tree := by
  fun_induction Pattern.sweep rule tree with
  | case1 tree next h => exact hrule tree next h
  | case2 l r _ ihl ihr => exact ihl.and ihr
  | case3 l r _ ihl ihr => exact ihl.or ihr
  | case4 l r _ ihl ihr => exact ihl.join ihr
  | case5 x _ ih => exact ih.not
  | case6 tree => exact .refl tree

theorem sameMeaning_round (tree : Pattern) : SameMeaning normalizer (round tree) tree := by
  have h₁ := (keeps_notOverOr normalizer).sweep tree
  have h₂ := (keeps_notOverAnd normalizer).sweep (sweep notOverOr tree)
  have h₃ := (keeps_doubleNot normalizer).sweep (sweep notOverAnd (sweep notOverOr tree))
  exact h₃.trans (h₂.trans h₁)

/-- The negation normal form of a `tree` means the same, however many rounds it takes. -/
theorem sameMeaning_negationNormal (tree : Pattern) :
    SameMeaning normalizer tree.negationNormal tree := by
  fun_induction negationNormal tree with
  | case1 tree _ => exact .refl tree
  | case2 tree _ ih => exact ih.trans (sameMeaning_round tree)

end NegationNormal

/-! ## Distribution -/

section Distribution

variable {normalizer : Normalizer} {tokens : List Token} {ofRule : String → Option Bool}

theorem truth?_distributeLeft (right left : Pattern) :
    (distributeLeft right left).truth? normalizer tokens ofRule =
      (Pattern.or left right).truth? normalizer tokens ofRule := by
  fun_induction distributeLeft right left with
  | case1 b c ihb ihc =>
    rw [truth?, ihb, ihc]
    simp only [truth?]
    cases b.truth? normalizer tokens ofRule <;> cases c.truth? normalizer tokens ofRule <;>
      cases right.truth? normalizer tokens ofRule <;> simp [Bool.or_and_distrib_right]
  | case2 left _ => rfl

/-- Distributing a disjunction over the conjunctions on both sides keeps its truth. -/
theorem truth?_distributeOr (left right : Pattern) :
    (distributeOr left right).truth? normalizer tokens ofRule =
      (Pattern.or left right).truth? normalizer tokens ofRule := by
  fun_induction distributeOr left right with
  | case1 b c ihb ihc =>
    rw [truth?, ihb, ihc]
    simp only [truth?]
    cases left.truth? normalizer tokens ofRule <;> cases b.truth? normalizer tokens ofRule <;>
      cases c.truth? normalizer tokens ofRule <;> simp [Bool.or_and_distrib_left]
  | case2 right _ => exact truth?_distributeLeft right left

theorem truth?_distribute (tree : Pattern) :
    tree.distribute.truth? normalizer tokens ofRule = tree.truth? normalizer tokens ofRule := by
  fun_induction distribute tree with
  | case1 l r ihl ihr => simp only [truth?, ihl, ihr]
  | case2 l r ihl ihr => rw [truth?_distributeOr, truth?, truth?, ihl, ihr]
  | case3 => rfl

/-- The tree that clauses are read off is true of the same texts as the `tree` it was made from. -/
theorem truth?_clausalTree (tree : Pattern) :
    tree.clausalTree.truth? normalizer tokens ofRule = tree.truth? normalizer tokens ofRule :=
  (truth?_distribute _).trans ((sameMeaning_negationNormal tree).truth tokens ofRule)

end Distribution

end Pattern

end Tagging
