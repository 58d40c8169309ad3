import Mathlib.Order.Defs.LinearOrder
import Tagging.Proofs.Simplification

/-!
# The order of literals

Literals are compared by five things one after the other, each of them in a total order. So the order of literals
is total, and since together the five say what a literal compares, it calls exactly those literals equal that say
the same. In a clause that is sorted by it, halving finds a literal if there is one that says the same.
-/

namespace Tagging

/-! ## A total order -/

instance : Std.TransOrd Form where
  eq_swap {a b} := by cases a <;> cases b <;> rfl
  isLE_trans {a b c} := by cases a <;> cases b <;> cases c <;> decide

namespace Literal

variable {a b c : Literal}

/-- The order compares five things one after the other, of which `negated` counts the other way around. -/
theorem compare_eq_compareLex : Literal.compare =
    compareLex (compareOn fun literal => literal.subject.first.key)
      (compareLex (flip (compareOn Literal.negated))
        (compareLex (compareOn fun literal => literal.subject.rest.map Term.key)
          (compareLex (compareOn Literal.isLookup)
            (compareOn fun literal => literal.terms.map Term.form)))) := rfl

instance : Std.TransOrd Literal := by
  have : Std.TransCmp Literal.compare := by
    rw [compare_eq_compareLex]
    infer_instance
  exact this

/-- Terms that say the same have the same keys and forms. -/
theorem map_eq_of_forall₂_same {as bs : List Term} (h : List.Forall₂ (fun s t => s.same t = true) as bs) :
    as.map Term.key = bs.map Term.key ∧ as.map Term.form = bs.map Term.form := by
  induction h with
  | nil => exact ⟨rfl, rfl⟩
  | cons hab _ ih =>
    obtain ⟨hform, hkey⟩ := Term.same_iff.1 hab
    simp only [List.map_cons, hform, hkey, ih.1, ih.2, and_self]

/-- The order calls those literals equal that say the same. -/
theorem compare_eq_iff_same : compare a b = .eq ↔ a.same b = true := by
  refine ⟨same_of_compare_eq, fun h => ?_⟩
  obtain ⟨hterms, hnegated, hlookup⟩ := same_iff.1 h
  obtain ⟨hkeys, hforms⟩ := map_eq_of_forall₂_same hterms
  obtain ⟨hfirst, hrest⟩ := List.cons.inj hkeys
  change Literal.compare a b = .eq
  simp only [Literal.compare, Ordering.then_eq_eq, Std.compare_eq_iff_eq]
  exact ⟨hfirst, hnegated.symm, hrest, hlookup, hforms⟩

theorem same_symm (h : a.same b = true) : b.same a = true :=
  compare_eq_iff_same.1 (Std.OrientedCmp.eq_symm (compare_eq_iff_same.2 h))

theorem same_trans (hab : a.same b = true) (hbc : b.same c = true) : a.same c = true :=
  compare_eq_iff_same.1 (Std.TransCmp.eq_trans (compare_eq_iff_same.2 hab) (compare_eq_iff_same.2 hbc))

/-- Literals `a` and `b` that say the same can stand for each other in front of any `c`. -/
theorem same_congr (hab : a.same b = true) : a.same c = b.same c :=
  Bool.eq_iff_iff.2 ⟨same_trans (same_symm hab), same_trans hab⟩

theorem same_congr_right (hab : a.same b = true) : c.same a = c.same b :=
  Bool.eq_iff_iff.2 ⟨fun hca => same_trans hca hab, fun hcb => same_trans hcb (same_symm hab)⟩

@[simp] theorem negate_negate (a : Literal) : a.negate.negate = a := by
  simp [negate]

/-- Opposites of literals can be compared with the literals themselves. -/
theorem same_negate : a.negate.same b = a.same b.negate := by
  rw [Bool.eq_iff_iff, same_iff, same_iff]
  have hnegated : (!a.negated) = b.negated ↔ a.negated = !b.negated := by
    cases a.negated <;> cases b.negated <;> decide
  exact and_congr_right fun _ => and_congr_left fun _ => hnegated

theorem le_trans (a b c : Literal) (hab : le a b = true) (hbc : le b c = true) : le a c = true :=
  Std.TransCmp.isLE_trans hab hbc

theorem le_of_same (h : a.same b = true) : le a b = true := by
  rw [le, compare_eq_iff_same.2 h]
  rfl

/-- A literal `a` that may stand before `b` and does not say the same is less. -/
theorem compare_eq_lt (hle : le a b = true) (hsame : a.same b = false) : compare a b = .lt := by
  cases hcompare : compare a b with
  | lt => rfl
  | eq =>
    rw [compare_eq_iff_same.1 hcompare] at hsame
    cases hsame
  | gt =>
    rw [le, hcompare] at hle
    cases hle

/-- Of two literals one may stand before the other. -/
theorem le_total (a b : Literal) : (le a b || le b a) = true := by
  have hswap : compare b a = (compare a b).swap := Std.OrientedCmp.eq_swap
  rw [le, le, hswap]
  cases compare a b <;> rfl

end Literal

/-! ## Sorted clauses -/

namespace Clause

variable {clause : Clause} {literal a b : Literal}

/-- Every literal of `clause` may stand before those after it. -/
def Ascending (clause : Clause) : Prop := clause.Pairwise fun a b => Literal.le a b = true

instance (clause : Clause) : Decidable clause.Ascending :=
  inferInstanceAs (Decidable (clause.Pairwise fun a b => Literal.le a b = true))

theorem ascending_mergeSort (clause : Clause) : Ascending (clause.mergeSort Literal.le) :=
  List.pairwise_mergeSort Literal.le_trans Literal.le_total clause

/-- In a sorted clause halving finds `literal` exactly if one of the literals says the same. By induction on the
search: from the middle on all literals are greater than one that is less than the middle, and up to the middle all
are smaller than one that is greater. -/
theorem Ascending.search_iff (h : clause.Ascending) :
    search clause literal = true ↔ ∃ other ∈ clause, literal.same other = true := by
  refine ⟨exists_same_of_search, ?_⟩
  rintro ⟨other, hmem, hsame⟩
  rw [← Literal.compare_eq_iff_same] at hsame
  fun_induction search clause literal with
  | case1 clause hdrop =>
    have hlength := List.drop_eq_nil_iff.1 hdrop
    have hpos := List.length_pos_of_mem hmem
    omega
  | case2 => rfl
  | case3 clause middle upper hdrop hlt ih =>
    have hsplit := clause.take_append_drop (clause.length / 2)
    rw [hdrop] at hsplit
    rw [← hsplit] at h hmem
    obtain ⟨hlower, hupper, -⟩ := List.pairwise_append.1 h
    rcases List.mem_append.1 hmem with hmem | hmem
    · exact ih hlower hmem
    · have hother : compare literal other = .lt := by
        rcases List.mem_cons.1 hmem with rfl | hmem
        · exact hlt
        · exact Std.TransCmp.lt_of_lt_of_isLE hlt ((List.pairwise_cons.1 hupper).1 other hmem)
      rw [hother] at hsame
      cases hsame
  | case4 clause middle upper hdrop hgt ih =>
    have hsplit := clause.take_append_drop (clause.length / 2)
    rw [hdrop] at hsplit
    rw [← hsplit] at h hmem
    obtain ⟨-, hupper, hacross⟩ := List.pairwise_append.1 h
    have hgt := Std.OrientedCmp.gt_iff_lt.1 hgt
    rw [List.mem_append, List.mem_cons, ← or_assoc, or_comm] at hmem
    rcases hmem with hmem | hmem
    · exact ih (List.pairwise_cons.1 hupper).2 hmem
    · have hother : compare other literal = .lt := by
        rcases hmem with hmem | rfl
        · exact Std.TransCmp.lt_of_isLE_of_lt (hacross other hmem middle (by simp)) hgt
        · exact hgt
      rw [Std.OrientedCmp.eq_symm hsame] at hother
      cases hother

/-! ## Increasing clauses -/

/-- Every literal of `clause` stands before those that are greater, and no two say the same. -/
def Increasing (clause : Clause) : Prop := clause.Pairwise fun a b => compare a b = .lt

theorem Increasing.ascending (h : clause.Increasing) : clause.Ascending :=
  List.Pairwise.imp (fun {_ _} hlt => Ordering.isLE_of_eq_lt hlt) h

theorem Increasing.nodup (h : clause.Increasing) : clause.Nodup := by
  refine List.Pairwise.imp (fun {a b} hlt heq => ?_) h
  rw [heq, Literal.compare_eq_iff_same.2 b.same_refl] at hlt
  cases hlt

/-- No two literals of an increasing clause say the same. -/
theorem Increasing.eq_of_same (h : clause.Increasing) (ha : a ∈ clause) (hb : b ∈ clause)
    (hsame : a.same b = true) : a = b := by
  induction h with
  | nil => cases ha
  | @cons first rest hfirst _ ih =>
    have hne : ∀ other ∈ rest, ¬ first.same other = true := fun other hother hsame => by
      rw [← Literal.compare_eq_iff_same, hfirst other hother] at hsame
      cases hsame
    rw [List.mem_cons] at ha hb
    rcases ha with rfl | ha <;> rcases hb with rfl | hb
    · rfl
    · exact absurd hsame (hne b hb)
    · exact absurd (Literal.same_symm hsame) (hne a ha)
    · exact ih ha hb

end Clause

/-! ## The order as a whole -/

namespace Literal

/-- Literals are in a total order, whatever their terms are and whether they are negated or look up a rule, and only
those that say the same are equal in it. So in a `clause` that is sorted by it halving finds a literal exactly if
one is there that says the same. -/
theorem compare_is_total (a b c : Literal) :
    (compare a b = .eq ↔ a.same b = true) ∧
      compare b a = (compare a b).swap ∧
      (∀ order, compare a b = order → compare b c = order → compare a c = order) ∧
      (le a b = true → le b c = true → le a c = true) ∧
      ∀ clause : Clause, clause.Ascending →
        (clause.search a = true ↔ ∃ other ∈ clause, a.same other = true) := by
  refine ⟨compare_eq_iff_same, Std.OrientedCmp.eq_swap, fun order hab hbc => ?_, le_trans a b c,
    fun clause h => h.search_iff⟩
  cases order with
  | lt => exact Std.TransCmp.lt_trans hab hbc
  | eq => exact Std.TransCmp.eq_trans hab hbc
  | gt => exact Std.TransCmp.gt_trans hab hbc

/-- Five literals of one word, two of which say the same though they are written in different words, and a
literal that says the same as these two. -/
theorem compare_is_total_respelled :
    let fig : Literal := .ofTerm { word := "Fig", normalized := "fig" } false
    let other : Literal := .ofTerm { word := "figs", normalized := "fig" } false
    let written : Literal := .ofTerm (.exactly "fig") false
    let clause : Clause := [other.negate, written, other, .ofTerm { word := "fig" } false, .lookup "fig" false]
    compare written fig = .lt ∧ compare fig (.lookup "fig" false) = .lt ∧
      compare written (.lookup "fig" false) = .lt ∧ clause.Ascending ∧ clause.search fig = true := by
  intro fig other written clause
  have hwritten : compare written fig = .lt := by decide
  have hlookup : compare fig (.lookup "fig" false) = .lt := by decide
  have hsorted : clause.Ascending := by decide
  obtain ⟨-, -, htrans, -⟩ := compare_is_total written fig (.lookup "fig" false)
  obtain ⟨-, -, -, -, hsearch⟩ := compare_is_total fig written other
  exact ⟨hwritten, hlookup, htrans .lt hwritten hlookup, hsorted, (hsearch clause hsorted).2 (by decide)⟩

end Literal

end Tagging
