/-!
# Sets of code points

A property of characters is given by the closed ranges of code points that have it, in ascending
order. Membership walks the ranges and stops at the first one that lies beyond the code point, so
characters near the start of the table are answered after a few comparisons. That nothing is missed
by stopping there rests on the order, and every table carries a proof of its order.
-/

namespace Tagging.Unicode

namespace Ranges

/-- Whether each range is in order, and the next one starts after a gap. -/
def isAscending : List (Nat × Nat) → Bool
  | [] => true
  | [(first, last)] => decide (first ≤ last)
  | (first, last) :: (next, last') :: ranges =>
    decide (first ≤ last) && decide (last + 1 < next) && isAscending ((next, last') :: ranges)

/-- Whether `n` lies in one of the ranges. The search gives up at the first range that starts
after `n`. -/
def search : List (Nat × Nat) → Nat → Bool
  | [], _ => false
  | (first, last) :: ranges, n => decide (first ≤ n) && (decide (n ≤ last) || search ranges n)

end Ranges

/-- Closed ranges of code points, ascending and apart. -/
structure Ranges where
  /-- The first and the last code point of each range. -/
  toList : List (Nat × Nat)
  /-- Each range is in order, and the next one starts after a gap. -/
  ascending : Ranges.isAscending toList = true

namespace Ranges

/-- A code point is a member if it lies in one of the ranges. -/
instance : Membership Nat Ranges where
  mem ranges n := ∃ range ∈ ranges.toList, range.1 ≤ n ∧ n ≤ range.2

/-- Whether `n` is found in one of the ranges. -/
def covers (ranges : Ranges) (n : Nat) : Bool := search ranges.toList n

/-- The ranges behind `range` start after its end. -/
theorem lt_of_isAscending {range : Nat × Nat} {ranges : List (Nat × Nat)}
    (h : isAscending (range :: ranges) = true) :
    isAscending ranges = true ∧ range.1 ≤ range.2 ∧ ∀ other ∈ ranges, range.2 < other.1 := by
  induction ranges generalizing range with
  | nil => exact ⟨rfl, by simpa [isAscending] using h, by simp⟩
  | cons next ranges ih =>
    simp only [isAscending, Bool.and_eq_true, decide_eq_true_eq] at h
    obtain ⟨⟨hrange, hgap⟩, hnext⟩ := h
    obtain ⟨-, horder, hbehind⟩ := ih hnext
    refine ⟨hnext, hrange, List.forall_mem_cons.2 ⟨by omega, fun other hother => ?_⟩⟩
    have := hbehind other hother
    omega

/-- Nothing is missed where the search of ascending `ranges` for `n` gives up. -/
theorem search_iff {ranges : List (Nat × Nat)} {n : Nat} (h : isAscending ranges = true) :
    search ranges n = true ↔ ∃ range ∈ ranges, range.1 ≤ n ∧ n ≤ range.2 := by
  induction ranges with
  | nil => simp [search]
  | cons range ranges ih =>
    obtain ⟨hrest, horder, hbehind⟩ := lt_of_isAscending h
    simp only [search, Bool.and_eq_true, Bool.or_eq_true, decide_eq_true_eq, ih hrest, List.mem_cons,
      exists_eq_or_imp]
    constructor
    · rintro ⟨hfirst, hlast | hother⟩
      · exact .inl ⟨hfirst, hlast⟩
      · exact .inr hother
    · rintro (⟨hfirst, hlast⟩ | ⟨other, hmem, hother⟩)
      · exact ⟨hfirst, .inl hlast⟩
      · have := hbehind other hmem
        exact ⟨by omega, .inr ⟨other, hmem, hother⟩⟩

/-- The search for `n` succeeds exactly if `n` lies in one of the ranges. -/
theorem covers_iff_mem {ranges : Ranges} {n : Nat} : ranges.covers n = true ↔ n ∈ ranges :=
  search_iff ranges.ascending

end Ranges

end Tagging.Unicode
