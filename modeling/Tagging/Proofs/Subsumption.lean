import Mathlib.Data.List.Nodup
import Tagging.Proofs.Order

/-!
# What is left by simplification

A clause that is sorted and collapsed has the first of all literals that say the same, and no others, in increasing
order. In such clauses the searches by halving answer as a look at every literal would. So what is left of a clausal
form are those of its sorted clauses that can fail and that have no earlier one, kept or not, within them.

Simplifying what is left changes nothing any more, for sorting leaves an increasing clause as it is.
-/

namespace Tagging

namespace Clause

variable {clause arranged small large : Clause} {literal kept : Literal} {rest : Clause}

/-! ## Sorting -/

/-- The literals of `clause` in increasing order, and of those that say the same only the first. -/
structure Arranges (clause arranged : Clause) : Prop where
  increasing : arranged.Increasing
  mem_iff : ∀ literal, literal ∈ arranged ↔ clause.find? (·.same literal) = some literal

/-- Sorting keeps literals that say the same in their order, so the first that says the same as `literal` stays
first. -/
theorem find?_mergeSort (clause : Clause) (literal : Literal) :
    (clause.mergeSort Literal.le).find? (·.same literal) = clause.find? (·.same literal) := by
  have hpairwise : (clause.filter (·.same literal)).Pairwise fun a b => Literal.le a b = true := by
    refine List.pairwise_of_forall_mem_list fun a ha b hb => Literal.le_of_same ?_
    exact Literal.same_trans (List.mem_filter.1 ha).2 (Literal.same_symm (List.mem_filter.1 hb).2)
  have hsorted : (clause.filter (·.same literal)).Sublist (clause.mergeSort Literal.le) :=
    List.sublist_mergeSort Literal.le_trans Literal.le_total hpairwise List.filter_sublist
  have hsublist := hsorted.filter (·.same literal)
  rw [List.filter_filter] at hsublist
  simp only [Bool.and_self] at hsublist
  have hlength := ((List.mergeSort_perm clause Literal.le).filter (·.same literal)).length_eq
  rw [← List.head?_filter, ← List.head?_filter, hsublist.eq_of_length hlength.symm]

/-- Collapsing keeps the first of the literals that say the same as `literal`. -/
theorem find?_collapse_go (kept : Literal) (rest : Clause) (literal : Literal) :
    (collapse.go kept rest).find? (·.same literal) = (kept :: rest).find? (·.same literal) := by
  fun_induction collapse.go kept rest with
  | case1 => rfl
  | case2 kept other rest hsame ih =>
    rw [ih, List.find?_cons, List.find?_cons, List.find?_cons, Literal.same_congr hsame]
    cases other.same literal <;> rfl
  | case3 kept other rest hsame ih => rw [List.find?_cons, List.find?_cons, ih]

theorem find?_collapse (clause : Clause) (literal : Literal) :
    (collapse clause).find? (·.same literal) = clause.find? (·.same literal) := by
  cases clause with
  | nil => rfl
  | cons first rest => exact find?_collapse_go first rest literal

theorem increasing_collapse_go (h : Ascending (kept :: rest)) :
    Increasing (collapse.go kept rest) := by
  fun_induction collapse.go kept rest with
  | case1 => exact List.pairwise_singleton _ _
  | case2 kept other rest hsame ih => exact ih (h.sublist (by simp))
  | case3 kept other rest hsame ih =>
    obtain ⟨hkept, hrest⟩ := List.pairwise_cons.1 h
    have hother := Literal.compare_eq_lt (hkept other (by simp)) (eq_false_of_ne_true hsame)
    refine List.pairwise_cons.2 ⟨fun literal hmem => ?_, ih hrest⟩
    rcases List.mem_cons.1 (mem_collapse_go hmem) with rfl | hmem
    · exact hother
    · exact Std.TransCmp.lt_of_lt_of_isLE hother ((List.pairwise_cons.1 hrest).1 literal hmem)

theorem increasing_sorted (clause : Clause) : (sorted clause).Increasing := by
  have hascending := ascending_mergeSort clause
  unfold sorted
  cases hsort : clause.mergeSort Literal.le with
  | nil => exact .nil
  | cons first rest =>
    rw [hsort] at hascending
    exact increasing_collapse_go hascending

/-- An increasing clause has no two literals that say the same, so each `literal` of it is the first of its kind. -/
theorem Increasing.mem_iff (h : clause.Increasing) :
    literal ∈ clause ↔ clause.find? (·.same literal) = some literal := by
  refine ⟨fun hmem => ?_, List.mem_of_find?_eq_some⟩
  cases hfind : clause.find? (·.same literal) with
  | none => exact absurd literal.same_refl (List.find?_eq_none.1 hfind literal hmem)
  | some other =>
    have hsame : other.same literal = true := by simpa using List.find?_some hfind
    rw [h.eq_of_same (List.mem_of_find?_eq_some hfind) hmem hsame]

theorem arranges_sorted (clause : Clause) : Arranges clause (sorted clause) where
  increasing := increasing_sorted clause
  mem_iff literal := by
    rw [(increasing_sorted clause).mem_iff, sorted, find?_collapse, find?_mergeSort]

/-- There is no other way to arrange a `clause` than to sort it. -/
theorem arranges_iff : Arranges clause arranged ↔ arranged = sorted clause := by
  refine ⟨fun h => ?_, fun h => h ▸ arranges_sorted clause⟩
  have hsorted := arranges_sorted clause
  have hperm : arranged.Perm (sorted clause) :=
    (List.perm_ext_iff_of_nodup h.increasing.nodup hsorted.increasing.nodup).2 fun literal =>
      (h.mem_iff literal).trans (hsorted.mem_iff literal).symm
  refine hperm.eq_of_pairwise (fun a b _ _ hab hba => ?_) h.increasing hsorted.increasing
  rw [Std.OrientedCmp.gt_of_lt hab] at hba
  cases hba

theorem Increasing.sorted_eq (h : clause.Increasing) : sorted clause = clause :=
  (arranges_iff.1 ⟨h, fun _ => h.mem_iff⟩).symm

/-! ## Opposites and clauses within others -/

/-- The `clause` has a literal and its opposite. -/
def HasOpposites (clause : Clause) : Prop :=
  ∃ literal ∈ clause, ∃ other ∈ clause, other.same literal.negate = true

/-- All literals of `small` are among those of `large`. -/
def Within (small large : Clause) : Prop :=
  ∀ literal ∈ small, ∃ other ∈ large, literal.same other = true

instance (clause : Clause) : Decidable clause.HasOpposites :=
  inferInstanceAs (Decidable (∃ literal ∈ clause, ∃ other ∈ clause, other.same literal.negate = true))

instance (small large : Clause) : Decidable (Within small large) :=
  inferInstanceAs (Decidable (∀ literal ∈ small, ∃ other ∈ large, literal.same other = true))

/-- The check by halving finds whether `clause` has opposites. Of two opposites one is negated, and that is the one
whose opposite is searched for. -/
theorem Increasing.isTautology_iff (h : clause.Increasing) :
    isTautology clause = true ↔ clause.HasOpposites := by
  simp only [isTautology, List.any_eq_true, Bool.and_eq_true, h.ascending.search_iff]
  constructor
  · rintro ⟨literal, hmem, -, other, hother, hsame⟩
    exact ⟨literal, hmem, other, hother, Literal.same_symm hsame⟩
  · rintro ⟨literal, hmem, other, hother, hsame⟩
    by_cases hnegated : literal.negated = true
    · exact ⟨literal, hmem, hnegated, other, hother, Literal.same_symm hsame⟩
    · refine ⟨other, hother, ?_, literal, hmem, ?_⟩
      · rw [Literal.negated_eq_of_same hsame]
        simpa [Literal.negate] using hnegated
      · rwa [Literal.same_negate]

/-- An increasing clause `small` is no longer than a clause that it is within. -/
theorem Increasing.length_le (h : small.Increasing) (hwithin : small.Within large) :
    small.length ≤ large.length := by
  have : Inhabited Literal := ⟨.lookup "" false⟩
  choose! partner hpartner using hwithin
  have hnodup : (small.map partner).Nodup := by
    refine List.Nodup.map_on (fun a ha b hb heq => h.eq_of_same ha hb ?_) h.nodup
    exact Literal.same_trans (hpartner a ha).2 (heq ▸ Literal.same_symm (hpartner b hb).2)
  have hsubset : small.map partner ⊆ large := by
    intro other hother
    obtain ⟨literal, hmem, rfl⟩ := List.mem_map.1 hother
    exact (hpartner literal hmem).1
  simpa using hnodup.length_le_of_subset hsubset

theorem Increasing.isSubset_iff (hsmall : small.Increasing) (hlarge : large.Increasing) :
    isSubset small large = true ↔ small.Within large := by
  simp only [isSubset, Bool.and_eq_true, decide_eq_true_eq, List.all_eq_true, hlarge.ascending.search_iff]
  exact ⟨fun h => h.2, fun h => ⟨hsmall.length_le h, h⟩⟩

end Clause

/-! ## What is left -/

namespace Cnf

variable {clauses earlier : List Clause} {clause : Clause} {cnf : Cnf}

/-- Those of the `clauses` that have no earlier one within them. -/
def minimal (clauses : List Clause) : List Clause :=
  (clauses.zipIdx.filter fun (clause, index) =>
    ∀ earlier ∈ clauses.take index, ¬ earlier.Within clause).map Prod.fst

/-- What `unsubsumed` leaves of `clauses` are those that have no other within them in front, among `earlier` or
among `clauses`, whether these were kept or not. -/
theorem unsubsumed_eq (hincreasing : ∀ clause ∈ earlier ++ clauses, clause.Increasing) :
    unsubsumed earlier clauses =
      ((clauses.zipIdx earlier.length).filter fun (clause, index) =>
        ∀ other ∈ (earlier ++ clauses).take index, ¬ other.Within clause).map Prod.fst := by
  induction clauses generalizing earlier with
  | nil => rfl
  | cons first rest ih =>
    rw [← List.singleton_append, ← List.append_assoc] at hincreasing
    have hrest := ih hincreasing
    rw [List.length_append, List.length_singleton, List.append_assoc, List.singleton_append] at hrest
    have hany : earlier.any (Clause.isSubset · first) = true ↔
        ¬ ∀ other ∈ (earlier ++ first :: rest).take earlier.length, ¬ other.Within first := by
      rw [List.take_left, List.any_eq_true]
      push Not
      refine exists_congr fun other => and_congr_right fun hother => ?_
      exact (hincreasing other (by simp [hother])).isSubset_iff (hincreasing first (by simp))
    rw [unsubsumed, List.zipIdx_cons, List.filter_cons, hrest]
    by_cases h : earlier.any (Clause.isSubset · first) = true
    · rw [if_pos h, if_neg (by simpa using hany.1 h)]
    · rw [if_neg h, if_pos (by simpa using mt hany.2 h), List.map_cons]

/-- No clause that is left makes a later one superfluous, nor does one of `earlier`. -/
theorem pairwise_unsubsumed :
    (unsubsumed earlier clauses).Pairwise (fun a b => Clause.isSubset a b = false) ∧
      ∀ clause ∈ unsubsumed earlier clauses, ∀ other ∈ earlier, Clause.isSubset other clause = false := by
  induction clauses generalizing earlier with
  | nil => exact ⟨.nil, by simp [unsubsumed]⟩
  | cons first rest ih =>
    obtain ⟨hpairwise, hearlier⟩ := @ih (earlier ++ [first])
    have hkept : ∀ clause ∈ unsubsumed (earlier ++ [first]) rest, ∀ other ∈ earlier,
        Clause.isSubset other clause = false :=
      fun clause hclause other hother => hearlier clause hclause other (by simp [hother])
    unfold unsubsumed
    split_ifs with hany
    · exact ⟨hpairwise, hkept⟩
    · have hfirst : ∀ other ∈ earlier, Clause.isSubset other first = false := by simpa using hany
      refine ⟨List.pairwise_cons.2 ⟨fun clause hclause => ?_, hpairwise⟩, List.forall_mem_cons.2 ⟨hfirst, hkept⟩⟩
      exact hearlier clause hclause first (by simp)

/-- Where no clause makes a later one superfluous all `clauses` are left. -/
theorem unsubsumed_eq_self (hpairwise : clauses.Pairwise fun a b => Clause.isSubset a b = false)
    (hearlier : ∀ clause ∈ clauses, ∀ other ∈ earlier, Clause.isSubset other clause = false) :
    unsubsumed earlier clauses = clauses := by
  induction clauses generalizing earlier with
  | nil => rfl
  | cons first rest ih =>
    obtain ⟨hfirst, hpairwise⟩ := List.pairwise_cons.1 hpairwise
    obtain ⟨hbefore, hearlier⟩ := List.forall_mem_cons.1 hearlier
    rw [unsubsumed, if_neg (by simpa using hbefore), ih hpairwise fun clause hclause => ?_]
    simp only [List.mem_append, List.mem_singleton]
    rintro other (hother | rfl)
    · exact hearlier clause hclause other hother
    · exact hfirst clause hclause

theorem mem_essential_iff : clause ∈ essential clauses ↔
    clause ∈ clauses.map Clause.sorted ∧ clause ≠ [] ∧ Clause.isTautology clause = false := by
  simp [essential]

theorem increasing_of_mem_essential (h : clause ∈ essential clauses) : clause.Increasing := by
  obtain ⟨unsorted, -, rfl⟩ := List.mem_map.1 (mem_essential_iff.1 h).1
  exact Clause.increasing_sorted unsorted

/-- The essential clauses are the sorted ones that are not empty and have no opposites. -/
theorem essential_eq_filter : essential clauses =
    (clauses.map Clause.sorted).filter fun clause : Clause => clause ≠ [] ∧ ¬ clause.HasOpposites := by
  refine List.filter_congr fun clause hclause => ?_
  obtain ⟨unsorted, -, rfl⟩ := List.mem_map.1 hclause
  rw [Bool.eq_iff_iff]
  simp [← (Clause.increasing_sorted unsorted).isTautology_iff]

/-- Increasing `clauses` that can fail stay as they are. -/
theorem essential_eq_self (h : ∀ clause ∈ clauses, clause.Increasing ∧ clause ≠ [] ∧
    Clause.isTautology clause = false) : essential clauses = clauses := by
  have hmap : clauses.map Clause.sorted = clauses :=
    (List.map_congr_left fun clause hclause => (h clause hclause).1.sorted_eq).trans (List.map_id clauses)
  rw [essential, hmap, List.filter_eq_self]
  intro clause hclause
  simpa using (h clause hclause).2

theorem simplify_simplify (cnf : Cnf) : cnf.simplify.simplify = cnf.simplify := by
  have hessential : essential cnf.simplify.clauses = cnf.simplify.clauses := by
    refine essential_eq_self fun clause hclause => ?_
    have hmem := mem_of_mem_unsubsumed hclause
    exact ⟨increasing_of_mem_essential hmem, (mem_essential_iff.1 hmem).2⟩
  have hkept : unsubsumed [] cnf.simplify.clauses = cnf.simplify.clauses :=
    unsubsumed_eq_self pairwise_unsubsumed.1 (by simp)
  rw [simplify, hessential, hkept]

/-- Simplification leaves those of the clauses that can fail, each arranged, that have no earlier one within them.
Done once more it changes nothing. -/
theorem simplify_leaves_minimal (cnf : Cnf) :
    (∀ clause arranged, Clause.Arranges clause arranged ↔ arranged = Clause.sorted clause) ∧
      cnf.simplify.clauses = minimal ((cnf.clauses.map Clause.sorted).filter fun clause : Clause =>
        clause ≠ [] ∧ ¬ clause.HasOpposites) ∧
      cnf.simplify.simplify = cnf.simplify := by
  refine ⟨fun _ _ => Clause.arranges_iff, ?_, simplify_simplify cnf⟩
  rw [← essential_eq_filter]
  exact unsubsumed_eq fun clause hclause => increasing_of_mem_essential hclause

end Cnf

end Tagging
