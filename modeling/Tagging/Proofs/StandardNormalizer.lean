import Mathlib.Data.List.Basic
import Tagging.Proofs.SmallForms

/-!
# Words normalized by the standard steps

What `standard` leaves of a word is plain: letters, digits and marks that take up space, all of them in lower
case and without accents. Accents are dropped last, which leaves base letters that no earlier step would have
changed. So no step changes a plain word, and to normalize a word a second time makes no difference.
-/

namespace Tagging

/-! ## Plain characters -/

/-- A character that no step of `standard` changes or leaves out. -/
structure IsPlain (c : Char) : Prop where
  kept : Step.keeps c = true
  small : Unicode.lowerChar c = [c]
  unaccented : Accent.base c = [c]
  spacing : Unicode.isNonspacingMark c = false

instance (c : Char) : Decidable (IsPlain c) :=
  decidable_of_iff (Step.keeps c = true ∧ Unicode.lowerChar c = [c] ∧ Accent.base c = [c] ∧
    Unicode.isNonspacingMark c = false)
    ⟨fun ⟨kept, small, unaccented, spacing⟩ => ⟨kept, small, unaccented, spacing⟩,
      fun ⟨kept, small, unaccented, spacing⟩ => ⟨kept, small, unaccented, spacing⟩⟩

variable {c d : Char} {text : List Char}

theorem Step.keeps_iff : Step.keeps c = true ↔
    Unicode.isLetter c = true ∨ Unicode.isMark c = true ∨ c.isDigit = true := by
  simp [Step.keeps, or_assoc]

theorem Step.not_isWhiteSpace_of_keeps (h : Step.keeps c = true) : Unicode.isWhiteSpace c = false := by
  rcases Step.keeps_iff.1 h with h | h | h
  · exact Unicode.not_isWhiteSpace_of_isLetter h
  · exact Unicode.not_isWhiteSpace_of_isMark h
  · exact Unicode.not_isWhiteSpace_of_isDigit h

/-! ## What is left of a word -/

/-- Accented letters are no small ones, or the base letters in `group` are plain. -/
theorem isPlain_of_mem_groups {group : List Char × List Char} (hgroup : group ∈ Accent.groups)
    (hc : c ∈ group.1) (hsmall : Unicode.lowerChar c = [c]) : ∀ d ∈ group.2, IsPlain d := by
  have hall : (Accent.groups.all fun group =>
      group.1.all (fun c => decide (Unicode.lowerChar c ≠ [c])) ||
        group.2.all fun d => decide (IsPlain d)) = true := by
    decide +kernel
  have hgroup := List.all_eq_true.1 hall group hgroup
  simp only [Bool.or_eq_true, List.all_eq_true, decide_eq_true_eq] at hgroup
  rcases hgroup with hcapital | hplain
  · exact absurd hsmall (hcapital c hc)
  · exact hplain

/-- A character is its own base letter, or stands in a group that has its base letters. -/
theorem Accent.base_cases (c : Char) :
    base c = [c] ∨ ∃ group ∈ groups, c ∈ group.1 ∧ base c = group.2 := by
  unfold base
  cases hfind : groups.find? (·.1.contains c) with
  | none => exact .inl rfl
  | some group =>
    have hc : c ∈ group.1 := by simpa using List.find?_some hfind
    exact .inr ⟨group, List.mem_of_find?_eq_some hfind, hc, rfl⟩

/-- The base letters `d` of a small one `c` are plain, less the marks that take up no space. -/
theorem isPlain_of_mem_base (hkept : Step.keeps c = true) (hsmall : Unicode.lowerChar c = [c])
    (hd : d ∈ Accent.base c) (hspacing : Unicode.isNonspacingMark d = false) : IsPlain d := by
  rcases Accent.base_cases c with hself | ⟨group, hgroup, hc, hbase⟩
  · rw [hself, List.mem_singleton] at hd
    rw [hd] at hspacing ⊢
    exact ⟨hkept, hsmall, hself, hspacing⟩
  · rw [hbase] at hd
    exact isPlain_of_mem_groups hgroup hc hsmall d hd

/-- Whatever the `text` is, what `standard` leaves of it is plain. What the first steps keep is still kept in lower
case, and of these letters the base letters are plain. -/
theorem isPlain_of_mem_normalizeChars (h : d ∈ Normalizer.standard.normalizeChars text) : IsPlain d := by
  have h : d ∈ Accent.drop (Unicode.lowercase ((Text.trim text).filter Step.keeps)) := h
  obtain ⟨hd, hspacing⟩ := List.mem_filter.1 h
  obtain ⟨c, hc, hd⟩ := List.mem_flatMap.1 hd
  have hkept : Step.keeps c = true :=
    Unicode.keeps_of_mem_lowercase (fun e he => (List.mem_filter.1 he).2) hc
  have hsmall : Unicode.lowerChar c = [c] := Unicode.lowerChar_eq_self_of_mem_lowercase hc
  exact isPlain_of_mem_base hkept hsmall hd (by simpa using hspacing)

/-! ## Steps that change nothing -/

theorem Text.trimStart_eq_self (h : ∀ c ∈ text, Unicode.isWhiteSpace c = false) :
    trimStart text = text := by
  cases text with
  | nil => rfl
  | cons c text =>
    have hc : ¬ Unicode.isWhiteSpace c = true := by simp [h c List.mem_cons_self]
    exact List.dropWhile_cons_of_neg hc

theorem Text.trim_eq_self (h : ∀ c ∈ text, Unicode.isWhiteSpace c = false) : trim text = text := by
  have hreverse : ∀ c ∈ text.reverse, Unicode.isWhiteSpace c = false := by simpa using h
  rw [trim, trimStart_eq_self h, trimEnd, trimStart_eq_self hreverse, List.reverse_reverse]

theorem Accent.drop_eq_self (hbase : ∀ c ∈ text, base c = [c])
    (hspacing : ∀ c ∈ text, Unicode.isNonspacingMark c = false) : drop text = text := by
  have hflat : text.flatMap base = text := by
    rw [List.flatMap_congr hbase]
    simp
  rw [drop, hflat, List.filter_eq_self]
  intro c hc
  rw [hspacing c hc]
  rfl

/-- No step of `standard` changes a text that is plain. -/
theorem Step.apply_eq_self (h : ∀ c ∈ text, IsPlain c) :
    ∀ step ∈ Normalizer.standard.steps, step.apply text = text := by
  intro step hstep
  have hcases : step = .trim ∨ step = .lettersAndDigits ∨ step = .lowercase ∨ step = .withoutAccents := by
    simpa [Normalizer.standard] using hstep
  rcases hcases with rfl | rfl | rfl | rfl
  · exact Text.trim_eq_self fun c hc => not_isWhiteSpace_of_keeps (h c hc).kept
  · exact List.filter_eq_self.2 fun c hc => (h c hc).kept
  · exact Unicode.lowercase_eq_self fun c hc => (h c hc).small
  · exact Accent.drop_eq_self (fun c hc => (h c hc).unaccented) fun c hc => (h c hc).spacing

theorem Normalizer.normalizeChars_eq_self {normalizer : Normalizer}
    (h : ∀ step ∈ normalizer.steps, step.apply text = text) : normalizer.normalizeChars text = text := by
  obtain ⟨steps⟩ := normalizer
  induction steps with
  | nil => rfl
  | cons step steps ih =>
    obtain ⟨hstep, hsteps⟩ := List.forall_mem_cons.1 h
    show steps.foldl (fun text step => step.apply text) (step.apply text) = text
    rw [hstep]
    exact ih hsteps

theorem Normalizer.toList_normalize (normalizer : Normalizer) (word : String) :
    (normalizer.normalize word).toList = normalizer.normalizeChars word.toList :=
  String.toList_ofList

theorem isPlain_of_mem_normalize {word : String}
    (h : c ∈ (Normalizer.standard.normalize word).toList) : IsPlain c := by
  rw [Normalizer.toList_normalize] at h
  exact isPlain_of_mem_normalizeChars h

theorem Normalizer.standard_normalize_normalize (word : String) :
    standard.normalize (standard.normalize word) = standard.normalize word := by
  have hplain : ∀ c ∈ (standard.normalize word).toList, IsPlain c :=
    fun c hc => isPlain_of_mem_normalize hc
  rw [← String.toList_inj, toList_normalize]
  exact normalizeChars_eq_self (Step.apply_eq_self hplain)

end Tagging
