import Mathlib.Tactic.SplitIfs
import Tagging.Normalizer
import Tagging.Proofs.Characters

/-!
# Small forms

Whether writing in lower case leaves a character in its class, and whether doing it twice makes a difference,
is asked of every character, but the table of capitals has runs. A run and an interval of code points are
compared by their ends, and so are two runs, with a look at the distance of their capitals where they overlap.
The outcome is that small forms have no small forms of their own, and that those of letters are letters.
-/

namespace Tagging

namespace Unicode

/-! ## Characters that words are made of -/

/-- Whether no character from `lo` to `hi` is one that words are made of. -/
def keepsNone (lo hi : Nat) : Bool :=
  letterRanges.misses lo hi && nonspacingMarkRanges.misses lo hi && otherMarkRanges.misses lo hi &&
    Nat.blt 57 lo

/-- If `keepsNone` says so, a character from `lo` to `hi` is none that words are made of. -/
theorem keeps_eq_false_of_keepsNone {lo hi : Nat} {c : Char} (h : keepsNone lo hi = true)
    (hlo : lo ≤ c.toNat) (hhi : c.toNat ≤ hi) : Step.keeps c = false := by
  simp only [keepsNone, Bool.and_eq_true, Nat.blt_eq] at h
  obtain ⟨⟨⟨hletter, hnonspacing⟩, hother⟩, hdigit⟩ := h
  have hletter : isLetter c = false := Ranges.covers_eq_false_of_misses hletter hlo hhi
  have hnonspacing : isNonspacingMark c = false := Ranges.covers_eq_false_of_misses hnonspacing hlo hhi
  have hother := Ranges.covers_eq_false_of_misses hother hlo hhi
  have hdigit : c.isDigit = false := by
    refine Bool.eq_false_iff.2 fun hc => ?_
    have hle := (toNat_of_isDigit hc).2
    omega
  rw [Step.keeps, isMark, hletter, hnonspacing, hother, hdigit]
  rfl

namespace CaseRun

variable {run other : CaseRun} {n : Nat}

/-- The code point of the small form of a capital of the run. -/
def small (run : CaseRun) (n : Nat) : Nat := ((n : Int) + run.offset).toNat

theorem covers_iff : run.covers n = true ↔
    run.first ≤ n ∧ n ≤ run.last ∧ (n - run.first) % run.step = 0 := by
  simp [covers, and_assoc]

/-- The small forms of a `run` are as much in order as its capitals. -/
theorem small_bounds (hn : run.covers n = true) :
    run.small run.first ≤ run.small n ∧ run.small n ≤ run.small run.last := by
  obtain ⟨hfirst, hlast, -⟩ := covers_iff.1 hn
  unfold small
  omega

/-! ## Small forms are no capitals -/

/-- Whether no small form of the run is a capital of the other one: all of them are in front of it or behind it,
or they fall between its capitals. -/
def avoids (run other : CaseRun) : Bool :=
  Nat.blt (run.small run.last) other.first || Nat.blt other.last (run.small run.first) ||
    ((Nat.beq run.first run.last || Nat.beq (run.step % other.step) 0) &&
      Nat.ble other.first (run.small run.first) &&
      Nat.blt 0 ((run.small run.first - other.first) % other.step))

/-- No small form of `run` is a capital of a run that it `avoids`. Where the two overlap, a remainder is left
between a small form and the capitals of `other`, so the first small form is not 0 and nothing was cut off there. -/
theorem covers_small_eq_false (h : run.avoids other = true) (hn : run.covers n = true) :
    other.covers (run.small n) = false := by
  refine Bool.eq_false_iff.2 fun hcovers => ?_
  obtain ⟨hfirst, hlast, hstep⟩ := covers_iff.1 hn
  obtain ⟨hfirst', hlast', hstep'⟩ := covers_iff.1 hcovers
  obtain ⟨hlo, hhi⟩ := small_bounds hn
  simp only [avoids, Bool.or_eq_true, Bool.and_eq_true, Nat.blt_eq, Nat.ble_eq, Nat.beq_eq] at h
  rcases h with (hbefore | hbehind) | ⟨⟨hsteps, hle⟩, hrest⟩
  · omega
  · omega
  · have hdvd : other.step ∣ n - run.first := by
      rcases hsteps with heq | hsteps
      · have hzero : n - run.first = 0 := by omega
        rw [hzero]
        exact Nat.dvd_zero other.step
      · exact Nat.dvd_trans (Nat.dvd_of_mod_eq_zero hsteps) (Nat.dvd_of_mod_eq_zero hstep)
    obtain ⟨k, hk⟩ := hdvd
    have hpos : 0 < run.small run.first - other.first := by
      refine Nat.pos_of_ne_zero fun hzero => ?_
      rw [hzero, Nat.zero_mod] at hrest
      exact Nat.lt_irrefl 0 hrest
    have hsmall : run.small n - other.first = run.small run.first - other.first + other.step * k := by
      unfold small at hpos ⊢
      omega
    rw [hsmall, Nat.add_mul_mod_self_left] at hstep'
    omega

/-! ## Small forms of letters -/

/-- Whether the small forms of those capitals of the run that words are made of are letters. There may be no
other capitals in the run; only if neither is so for the whole run each of them is looked at. -/
def reachesLetters (run : CaseRun) : Bool :=
  letterRanges.holds (run.small run.first) (run.small run.last) || keepsNone run.first run.last ||
    (List.range' run.first (run.last + 1 - run.first)).all fun n =>
      !run.covers n || letterRanges.holds (run.small n) (run.small n) || keepsNone n n

/-- If `reachesLetters` says so, the small form of a capital `c` that words are made of is a letter. -/
theorem covers_small_of_keeps {c : Char} (h : run.reachesLetters = true) (hc : run.covers c.toNat = true)
    (hkeeps : Step.keeps c = true) : letterRanges.covers (run.small c.toNat) = true := by
  obtain ⟨hfirst, hlast, -⟩ := covers_iff.1 hc
  have hnot : ∀ {lo hi}, lo ≤ c.toNat → c.toNat ≤ hi → keepsNone lo hi ≠ true := by
    intro lo hi hlo hhi hnone
    rw [keeps_eq_false_of_keepsNone hnone hlo hhi] at hkeeps
    cases hkeeps
  simp only [reachesLetters, Bool.or_eq_true] at h
  rcases h with (hholds | hnone) | hall
  · obtain ⟨hlo, hhi⟩ := small_bounds hc
    exact Ranges.covers_of_holds hholds hlo hhi
  · exact absurd hnone (hnot hfirst hlast)
  · have hmem : c.toNat ∈ List.range' run.first (run.last + 1 - run.first) := by
      rw [List.mem_range'_1]
      omega
    have hn := List.all_eq_true.1 hall _ hmem
    simp only [hc, Bool.not_true, Bool.false_or, Bool.or_eq_true] at hn
    rcases hn with hholds | hnone
    · exact Ranges.covers_of_holds hholds (Nat.le_refl _) (Nat.le_refl _)
    · exact absurd hnone (hnot (Nat.le_refl _) (Nat.le_refl _))

/-- Whether all small forms of the run are code points of characters. -/
def reachesChars (run : CaseRun) : Bool :=
  Nat.blt (run.small run.last) 0xD800 ||
    (Nat.blt 0xDFFF (run.small run.first) && Nat.blt (run.small run.last) 0x110000)

/-- If `reachesChars` says so, the small forms of `run` are code points of characters. -/
theorem toNat_ofNat_small (h : run.reachesChars = true) (hn : run.covers n = true) :
    (Char.ofNat (run.small n)).toNat = run.small n := by
  obtain ⟨hlo, hhi⟩ := small_bounds hn
  have hvalid : (run.small n).isValidChar := by
    simp only [reachesChars, Bool.or_eq_true, Bool.and_eq_true, Nat.blt_eq] at h
    unfold Nat.isValidChar
    omega
  rw [Char.ofNat, dif_pos hvalid]
  rfl

end CaseRun

/-! ## Characters -/

/-- The capital I with a dot above, whose small form is two characters, as a run. -/
def dottedRun : CaseRun := ⟨0x0130, 0x0130, 1, 0⟩

theorem avoids_caseRuns : ∀ run ∈ caseRuns, ∀ other ∈ dottedRun :: caseRuns, run.avoids other = true := by
  have hall : (caseRuns.all fun run => (dottedRun :: caseRuns).all run.avoids) = true := by
    decide +kernel
  intro run hrun other hother
  exact List.all_eq_true.1 (List.all_eq_true.1 hall run hrun) other hother

theorem reachesLetters_caseRuns : ∀ run ∈ caseRuns, run.reachesLetters = true := by
  have hall : caseRuns.all CaseRun.reachesLetters = true := by decide +kernel
  exact List.all_eq_true.1 hall

theorem reachesChars_caseRuns : ∀ run ∈ caseRuns, run.reachesChars = true := by
  have hall : caseRuns.all CaseRun.reachesChars = true := by decide +kernel
  exact List.all_eq_true.1 hall

/-- A character `c` that no run covers is its own small form. -/
theorem lowerChar_eq_self {c : Char} (h : ∀ run ∈ dottedRun :: caseRuns, run.covers c.toNat = false) :
    lowerChar c = [c] := by
  obtain ⟨hdotted, hruns⟩ := List.forall_mem_cons.1 h
  have hne : c ≠ '\u0130' := by
    rintro rfl
    exact absurd hdotted (by decide)
  have hnone : caseRuns.find? (·.covers c.toNat) = none := by
    rw [List.find?_eq_none]
    intro run hrun
    rw [hruns run hrun]
    exact Bool.false_ne_true
  rw [lowerChar, if_neg hne, hnone]

/-- A character `c` is its own small form, or has two characters for one, or is the capital of a run. -/
theorem lowerChar_cases (c : Char) :
    lowerChar c = [c] ∨ (c = '\u0130' ∧ lowerChar c = ['i', '\u0307']) ∨
      ∃ run ∈ caseRuns, run.covers c.toNat = true ∧ lowerChar c = [Char.ofNat (run.small c.toNat)] := by
  by_cases hdotted : c = '\u0130'
  · exact .inr (.inl ⟨hdotted, if_pos hdotted⟩)
  · rw [lowerChar, if_neg hdotted]
    cases hfind : caseRuns.find? (·.covers c.toNat) with
    | none => exact .inl rfl
    | some run =>
      have hcovers : run.covers c.toNat = true :=
        List.find?_some (p := fun run : CaseRun => run.covers c.toNat) hfind
      exact .inr (.inr ⟨run, List.mem_of_find?_eq_some hfind, hcovers, rfl⟩)

variable {c d : Char} {text : List Char}

/-- A small form `d` is its own small form, since no run covers it. -/
theorem lowerChar_eq_self_of_mem (h : d ∈ lowerChar c) : lowerChar d = [d] := by
  rcases lowerChar_cases c with hself | ⟨-, hdotted⟩ | ⟨run, hrun, hcovers, hsmall⟩
  · rw [hself, List.mem_singleton] at h
    rw [h]
    exact hself
  · rw [hdotted] at h
    have hall : ['i', '\u0307'].all (fun d => lowerChar d == [d]) = true := by decide +kernel
    simpa using List.all_eq_true.1 hall d h
  · rw [hsmall, List.mem_singleton] at h
    refine lowerChar_eq_self fun other hother => ?_
    rw [h, CaseRun.toNat_ofNat_small (reachesChars_caseRuns run hrun) hcovers]
    exact CaseRun.covers_small_eq_false (avoids_caseRuns run hrun other hother) hcovers

theorem keeps_of_mem_lowerChar (hc : Step.keeps c = true) (h : d ∈ lowerChar c) : Step.keeps d = true := by
  rcases lowerChar_cases c with hself | ⟨-, hdotted⟩ | ⟨run, hrun, hcovers, hsmall⟩
  · rw [hself, List.mem_singleton] at h
    rwa [h]
  · rw [hdotted] at h
    have hall : ['i', '\u0307'].all Step.keeps = true := by decide +kernel
    exact List.all_eq_true.1 hall d h
  · rw [hsmall, List.mem_singleton] at h
    have hletter : isLetter d = true := by
      rw [isLetter, h, CaseRun.toNat_ofNat_small (reachesChars_caseRuns run hrun) hcovers]
      exact CaseRun.covers_small_of_keeps (reachesLetters_caseRuns run hrun) hcovers hc
    simp [Step.keeps, hletter]

/-! ## Texts -/

/-- What is written in lower case behind `before` is made of small forms of characters of the `text`, and sigma has
a second one. -/
theorem mem_lowercase_go {before : List Char} (h : d ∈ lowercase.go before text) :
    d = 'ς' ∨ ∃ c ∈ text, d ∈ lowerChar c := by
  induction text generalizing before with
  | nil => cases h
  | cons c text ih =>
    rw [lowercase.go, List.mem_append] at h
    rcases h with h | h
    · split_ifs at h with hsigma hfinal
      · exact .inl (List.mem_singleton.1 h)
      · have hd : d ∈ lowerChar c := by
          rw [hsigma]
          exact h
        exact .inr ⟨c, List.mem_cons_self, hd⟩
      · exact .inr ⟨c, List.mem_cons_self, h⟩
    · rcases ih h with hfinal | ⟨e, he, hd⟩
      · exact .inl hfinal
      · exact .inr ⟨e, List.mem_cons_of_mem c he, hd⟩

theorem mem_lowercase (h : d ∈ lowercase text) : d = 'ς' ∨ ∃ c ∈ text, d ∈ lowerChar c :=
  mem_lowercase_go h

theorem lowercase_go_eq_self {before : List Char} (h : ∀ c ∈ text, lowerChar c = [c]) :
    lowercase.go before text = text := by
  induction text generalizing before with
  | nil => rfl
  | cons c text ih =>
    obtain ⟨hc, htext⟩ := List.forall_mem_cons.1 h
    have hsigma : c ≠ 'Σ' := by
      rintro rfl
      exact absurd hc (by decide)
    rw [lowercase.go, if_neg hsigma, hc, ih htext]
    rfl

theorem lowercase_eq_self (h : ∀ c ∈ text, lowerChar c = [c]) : lowercase text = text :=
  lowercase_go_eq_self h

theorem lowerChar_eq_self_of_mem_lowercase (h : d ∈ lowercase text) : lowerChar d = [d] := by
  rcases mem_lowercase h with rfl | ⟨c, -, hd⟩
  · decide +kernel
  · exact lowerChar_eq_self_of_mem hd

theorem keeps_of_mem_lowercase (hkeeps : ∀ c ∈ text, Step.keeps c = true) (h : d ∈ lowercase text) :
    Step.keeps d = true := by
  rcases mem_lowercase h with rfl | ⟨c, hc, hd⟩
  · decide +kernel
  · exact keeps_of_mem_lowerChar (hkeeps c hc) hd

end Unicode

end Tagging
