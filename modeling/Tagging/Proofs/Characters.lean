import Tagging.Unicode.Alphanumeric
import Tagging.Unicode.Letter
import Tagging.Unicode.Mark
import Tagging.Unicode.WhiteSpace

/-!
# Classes of characters

A class is given by ranges of code points. That a class has all of an interval, or nothing of it, is seen from
the ranges, without a look at each code point. So it can be computed that two classes are apart, as white space
is from the classes that words are made of.
-/

namespace Tagging.Unicode

namespace Ranges

variable {ranges others : Ranges} {lo hi n : Nat}

/-- Whether one of the ranges has all code points from `lo` to `hi`. -/
def holds (ranges : Ranges) (lo hi : Nat) : Bool :=
  ranges.toList.any fun range => Nat.ble range.1 lo && Nat.ble hi range.2

/-- Whether none of the ranges has a code point from `lo` to `hi`. -/
def misses (ranges : Ranges) (lo hi : Nat) : Bool :=
  ranges.toList.all fun range => Nat.blt hi range.1 || Nat.blt range.2 lo

/-- If one of the `ranges` has the interval from `lo` to `hi`, the search finds every `n` of the interval. -/
theorem covers_of_holds (h : ranges.holds lo hi = true) (hlo : lo ≤ n) (hhi : n ≤ hi) :
    ranges.covers n = true := by
  obtain ⟨range, hmem, hrange⟩ := List.any_eq_true.1 h
  rw [Bool.and_eq_true, Nat.ble_eq, Nat.ble_eq] at hrange
  exact covers_iff_mem.2 ⟨range, hmem, Nat.le_trans hrange.1 hlo, Nat.le_trans hhi hrange.2⟩

/-- If none of the `ranges` touches the interval from `lo` to `hi`, the search finds no `n` of the interval. -/
theorem covers_eq_false_of_misses (h : ranges.misses lo hi = true) (hlo : lo ≤ n) (hhi : n ≤ hi) :
    ranges.covers n = false := by
  refine Bool.eq_false_iff.2 fun hcovers => ?_
  obtain ⟨range, hmem, hfirst, hlast⟩ := covers_iff_mem.1 hcovers
  have hrange := List.all_eq_true.1 h range hmem
  rw [Bool.or_eq_true, Nat.blt_eq, Nat.blt_eq] at hrange
  omega

/-- Whether `others` has nothing of any of the `ranges`. -/
def avoid (ranges others : Ranges) : Bool := ranges.toList.all fun range => others.misses range.1 range.2

theorem covers_eq_false_of_avoid (h : ranges.avoid others = true) (hn : ranges.covers n = true) :
    others.covers n = false := by
  obtain ⟨range, hrange, hfirst, hlast⟩ := covers_iff_mem.1 hn
  exact covers_eq_false_of_misses (List.all_eq_true.1 h range hrange) hfirst hlast

end Ranges

/-! ## White space and words -/

variable {c : Char}

/-- No class that `whiteSpaceRanges` avoids has any white space. -/
theorem not_isWhiteSpace_of_covers {others : Ranges} (havoid : whiteSpaceRanges.avoid others = true)
    (h : others.covers c.toNat = true) : isWhiteSpace c = false := by
  refine Bool.eq_false_iff.2 fun hspace => ?_
  have hnot := Ranges.covers_eq_false_of_avoid havoid hspace
  rw [h] at hnot
  cases hnot

theorem not_isWhiteSpace_of_isAlphanumeric (h : isAlphanumeric c = true) : isWhiteSpace c = false :=
  not_isWhiteSpace_of_covers (by decide +kernel) h

theorem not_isWhiteSpace_of_isLetter (h : isLetter c = true) : isWhiteSpace c = false :=
  not_isWhiteSpace_of_covers (by decide +kernel) h

theorem not_isWhiteSpace_of_isMark (h : isMark c = true) : isWhiteSpace c = false := by
  rw [isMark, Bool.or_eq_true] at h
  rcases h with h | h
  · exact not_isWhiteSpace_of_covers (by decide +kernel) h
  · exact not_isWhiteSpace_of_covers (by decide +kernel) h

/-- The printed ones among the first 128 characters, from code point 33 to 126, are no white space. -/
theorem not_isWhiteSpace_of_printed (hfirst : 33 ≤ c.toNat) (hlast : c.toNat ≤ 126) :
    isWhiteSpace c = false := by
  let printed : Ranges := ⟨[(33, 126)], by decide⟩
  have hcovers : printed.covers c.toNat = true :=
    Ranges.covers_iff_mem.2 ⟨(33, 126), List.mem_singleton_self _, hfirst, hlast⟩
  exact not_isWhiteSpace_of_covers (by decide +kernel) hcovers

/-- The first letter of all is `A`, with code point 65. -/
theorem le_of_isLetter (h : isLetter c = true) : 65 ≤ c.toNat := by
  rcases Nat.lt_or_ge c.toNat 65 with hlt | hle
  · have hmisses : letterRanges.misses 0 64 = true := by decide +kernel
    have hnot : isLetter c = false :=
      Ranges.covers_eq_false_of_misses hmisses (Nat.zero_le c.toNat) (Nat.le_of_lt_succ hlt)
    rw [h] at hnot
    cases hnot
  · exact hle

theorem toNat_of_isDigit (h : c.isDigit = true) : 48 ≤ c.toNat ∧ c.toNat ≤ 57 := by
  rw [Char.isDigit, Bool.and_eq_true, decide_eq_true_iff, decide_eq_true_iff] at h
  exact ⟨UInt32.le_iff_toNat_le.1 h.1, UInt32.le_iff_toNat_le.1 h.2⟩

theorem not_isWhiteSpace_of_isDigit (h : c.isDigit = true) : isWhiteSpace c = false := by
  obtain ⟨hfirst, hlast⟩ := toNat_of_isDigit h
  exact not_isWhiteSpace_of_printed (by omega) (by omega)

theorem not_isWhiteSpace_of_isAlphanum (h : c.isAlphanum = true) : isWhiteSpace c = false := by
  have hcases : (c.isUpper || c.isLower || c.isDigit) = true := h
  rw [Bool.or_eq_true, Bool.or_eq_true] at hcases
  rcases hcases with (hupper | hlower) | hdigit
  · obtain ⟨hfirst, hlast⟩ : 'A'.val ≤ c.val ∧ c.val ≤ 'Z'.val := of_decide_eq_true hupper
    have hfirst : 65 ≤ c.toNat := UInt32.le_iff_toNat_le.1 hfirst
    have hlast : c.toNat ≤ 90 := UInt32.le_iff_toNat_le.1 hlast
    exact not_isWhiteSpace_of_printed (by omega) (by omega)
  · have hlower : (decide ('a'.val ≤ c.val) && decide (c.val ≤ 'z'.val)) = true := hlower
    rw [Bool.and_eq_true, decide_eq_true_iff, decide_eq_true_iff] at hlower
    have hfirst : 97 ≤ c.toNat := UInt32.le_iff_toNat_le.1 hlower.1
    have hlast : c.toNat ≤ 122 := UInt32.le_iff_toNat_le.1 hlower.2
    exact not_isWhiteSpace_of_printed (by omega) (by omega)
  · exact not_isWhiteSpace_of_isDigit hdigit

end Tagging.Unicode
