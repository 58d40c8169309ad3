import Mathlib.Data.List.DropRight
import Tagging.Proofs.TokenizerCut

/-!
# The matching tokenizer keeps words whole

Where a letter or a digit comes next, `matching` takes something, so none of them is passed over. What it takes
from a letter on is a whole word: the run of letters, marks and apostrophes that stands there, up to its last
letter and the marks behind that. What is left of the run starts with an apostrophe, so nothing of the word is
left behind.
-/

namespace Tagging

namespace Tokenizer

variable {c : Char} {text run piece after rest : List Char}

/-! ## What is in a piece -/

theorem mem_digits (h : c ∈ digits text) : inNumber c = true := by
  cases text with
  | nil => cases h
  | cons d text =>
    unfold digits at h
    dsimp only at h
    split_ifs at h with hd
    · rcases List.mem_cons.1 h with rfl | h
      · simp [inNumber, hd]
      · exact List.mem_takeWhile_imp h
    · cases h

/-- A number is made of digits, points, commas and signs. -/
theorem mem_number (h : c ∈ number text) : inNumber c = true ∨ c = '-' ∨ c = '+' := by
  cases text with
  | nil => cases h
  | cons d text =>
    unfold number at h
    dsimp only at h
    split_ifs at h with hd
    · cases hdigits : digits text with
      | nil =>
        rw [hdigits] at h
        cases h
      | cons e found =>
        rw [hdigits] at h
        rcases List.mem_cons.1 h with rfl | h
        · exact .inr hd
        · rw [← hdigits] at h
          exact .inl (mem_digits h)
    · exact .inl (mem_digits h)

theorem mem_tag (h : c ∈ tag text) : opensTag c = true ∨ inTag c = true := by
  unfold tag at h
  dsimp only at h
  split_ifs at h
  · cases h
  · rcases List.mem_append.1 h with h | h
    · exact .inl (List.mem_takeWhile_imp h)
    · exact .inr (List.mem_takeWhile_imp h)

theorem mem_word (h : c ∈ word text) : inWord c = true := by
  cases text with
  | nil => cases h
  | cons d text =>
    unfold word at h
    dsimp only at h
    split_ifs at h with hd
    · rcases List.mem_cons.1 ((prefix_closeWord _).subset h) with rfl | h
      · simp [inWord, hd]
      · exact List.mem_takeWhile_imp h
    · cases h

theorem not_isWhiteSpace_of_inWord (h : inWord c = true) : Unicode.isWhiteSpace c = false := by
  simp only [inWord, Bool.or_eq_true, decide_eq_true_eq] at h
  rcases h with (h | h) | rfl
  · exact Unicode.not_isWhiteSpace_of_isLetter h
  · exact Unicode.not_isWhiteSpace_of_isMark h
  · decide

theorem not_isWhiteSpace_of_mem_number (h : c ∈ number text) : Unicode.isWhiteSpace c = false := by
  rcases mem_number h with h | rfl | rfl
  · simp only [inNumber, Bool.or_eq_true, decide_eq_true_eq] at h
    rcases h with (h | rfl) | rfl
    · exact Unicode.not_isWhiteSpace_of_isDigit h
    · decide
    · decide
  · decide
  · decide

theorem not_isWhiteSpace_of_mem_tag (h : c ∈ tag text) : Unicode.isWhiteSpace c = false := by
  rcases mem_tag h with h | h
  · have hc : c = '#' ∨ c = '@' := by simpa [opensTag] using h
    rcases hc with rfl | rfl <;> decide
  · simp only [inTag, Bool.or_eq_true, decide_eq_true_eq] at h
    rcases h with (h | rfl) | rfl
    · exact Unicode.not_isWhiteSpace_of_isAlphanum h
    · decide
    · decide

/-- No white space is taken, whichever of the three alternatives takes something. -/
theorem not_isWhiteSpace_of_mem_front_matching (h : c ∈ front .matching text) :
    Unicode.isWhiteSpace c = false := by
  unfold front at h
  dsimp only at h
  rcases List.mem_append.1 h with h | h
  · rcases List.mem_append.1 h with h | h
    · exact not_isWhiteSpace_of_mem_number h
    · exact not_isWhiteSpace_of_mem_tag h
  · exact not_isWhiteSpace_of_inWord (mem_word h)

/-! ## Whole words -/

/-- A word is nothing but letters, marks and apostrophes, and ends with a letter or a mark; it is whole if
neither a letter nor a mark follows. -/
structure IsWholeWord (word after : List Char) : Prop where
  forall_mem : ∀ c ∈ word, Unicode.isLetter c = true ∨ Unicode.isMark c = true ∨ c = '\''
  ends : ∃ c ∈ word.getLast?, Unicode.isLetter c = true ∨ Unicode.isMark c = true
  stops : ∀ c ∈ after.head?, Unicode.isLetter c = false ∧ Unicode.isMark c = false

theorem forall_mem_head?_dropWhile {ofClass : Char → Bool} :
    ∀ c ∈ (text.dropWhile ofClass).head?, ofClass c = false := by
  intro c hc
  have hhead := List.head?_dropWhile_not ofClass text
  rw [hc] at hhead
  exact hhead

/-- A `run` with a letter is closed behind the last one and the marks there. What is `left` starts with no mark. -/
theorem exists_closeWord (h : ∃ c ∈ run, Unicode.isLetter c = true) : ∃ core last marks left,
    closeWord run = core ++ last :: marks ∧ run = closeWord run ++ left ∧
      Unicode.isLetter last = true ∧ (∀ c ∈ marks, Unicode.isMark c = true) ∧
      (∀ c ∈ left, Unicode.isLetter c = false) ∧ ∀ c ∈ left.head?, Unicode.isMark c = false := by
  generalize hcore : run.rdropWhile (!Unicode.isLetter ·) = core
  generalize htail : run.rtakeWhile (!Unicode.isLetter ·) = tail
  have hrun : run = core ++ tail := by
    rw [← hcore, ← htail]
    exact List.rdropWhile_append_rtakeWhile.symm
  have hclose : closeWord run = core ++ tail.takeWhile Unicode.isMark := by
    have hdrop : closeWord run = core ++ (run.drop core.length).takeWhile Unicode.isMark := by
      rw [← hcore]
      rfl
    rw [hdrop, hrun, List.drop_left]
  have hne : core ≠ [] := by
    rw [← hcore, ne_eq, List.rdropWhile_eq_nil_iff]
    intro hnone
    obtain ⟨c, hc, hletter⟩ := h
    have hnot := hnone c hc
    rw [hletter] at hnot
    cases hnot
  have hlast : Unicode.isLetter (core.getLast hne) = true := by
    subst hcore
    simpa using List.rdropWhile_last_not _ _ hne
  refine ⟨core.dropLast, core.getLast hne, tail.takeWhile Unicode.isMark, tail.dropWhile Unicode.isMark,
    ?_, ?_, hlast, fun c hc => List.mem_takeWhile_imp hc, fun c hc => ?_, ?_⟩
  · rw [hclose, List.append_cons, List.dropLast_concat_getLast]
  · rw [hclose, List.append_assoc, List.takeWhile_append_dropWhile, hrun]
  · rw [← htail] at hc
    simpa using List.mem_rtakeWhile_imp ((List.dropWhile_suffix _).subset hc)
  · exact forall_mem_head?_dropWhile

/-- The word at the front of a text that starts with a letter `c` is a whole one. -/
theorem exists_word_cons (h : Unicode.isLetter c = true) (text : List Char) :
    ∃ after, c :: text = word (c :: text) ++ after ∧ IsWholeWord (word (c :: text)) after := by
  obtain ⟨core, last, marks, left, hclose, hrun, hlast, hmarks, hletter, hmark⟩ :=
    exists_closeWord ⟨c, List.mem_cons_self (l := text.takeWhile inWord), h⟩
  rw [← word_cons h] at hclose hrun
  refine ⟨left ++ text.dropWhile inWord, ?_, fun d hd => ?_, ?_, fun d hd => ?_⟩
  · rw [← List.append_assoc, ← hrun, List.cons_append, List.takeWhile_append_dropWhile]
  · have hin : inWord d = true := mem_word hd
    simpa [inWord, or_assoc] using hin
  · have hne := List.cons_ne_nil last marks
    refine ⟨(last :: marks).getLast hne, ?_, ?_⟩
    · rw [hclose, List.getLast?_append_of_ne_nil core hne]
      exact List.getLast?_eq_some_getLast hne
    · rcases List.mem_cons.1 (List.getLast_mem hne) with heq | hmem
      · rw [heq]
        exact .inl hlast
      · exact .inr (hmarks _ hmem)
  · rw [List.head?_append] at hd
    cases hhead : left.head? with
    | some e =>
      rw [hhead] at hd
      cases hd
      exact ⟨hletter d (List.mem_of_head? hhead), hmark d hhead⟩
    | none =>
      rw [hhead] at hd
      have hnot : inWord d = false := forall_mem_head?_dropWhile d hd
      simp only [inWord, Bool.or_eq_false_iff] at hnot
      exact hnot.1

/-! ## Nothing of a word is passed over -/

theorem front_matching_ne_nil_of_isLetter (h : Unicode.isLetter c = true) (rest : List Char) :
    front .matching (c :: rest) ≠ [] := by
  rw [front_matching_of_isLetter h]
  obtain ⟨after, -, hwhole⟩ := exists_word_cons h rest
  obtain ⟨d, hd, -⟩ := hwhole.ends
  exact List.ne_nil_of_mem (List.mem_of_getLast? hd)

theorem front_matching_ne_nil_of_isDigit (h : c.isDigit = true) (rest : List Char) :
    front .matching (c :: rest) ≠ [] := by
  have hsign : ¬ (c = '-' ∨ c = '+') := by
    rintro (rfl | rfl)
    · exact absurd h (by decide)
    · exact absurd h (by decide)
  have hnumber : number (c :: rest) = c :: rest.takeWhile inNumber := by
    unfold number digits
    dsimp only
    rw [if_neg hsign, if_pos h]
  unfold front
  dsimp only
  rw [hnumber]
  simp

end Tokenizer

/-- The character that stands in the text behind `before` is in the token. -/
def Token.Holds (before : List Char) (c : Char) (token : Token) : Prop :=
  token.bytes.start ≤ Text.byteLength before ∧ Text.byteLength before + c.utf8Size ≤ token.bytes.stop

namespace Tokenizer

variable {tokenizer : Tokenizer} {string : String} {before : List Char}

/-- What one token holds is held by no later one, since tokens do not overlap. -/
theorem not_holds_of_holds_of_lt {normalizer : Normalizer} {i j : Nat} {token other : Token}
    (hi : (tokenizer.tokenize normalizer string)[i]? = some token)
    (hj : (tokenizer.tokenize normalizer string)[j]? = some other) (hij : i < j)
    (hholds : token.Holds before c) : ¬ other.Holds before c := by
  intro hother
  obtain ⟨hlt, rfl⟩ := List.getElem?_eq_some_iff.1 hi
  obtain ⟨hlt', rfl⟩ := List.getElem?_eq_some_iff.1 hj
  have hapart := List.pairwise_iff_getElem.1 (pairwise_tokenize tokenizer normalizer string) i j hlt hlt' hij
  have hsize := c.utf8Size_pos
  have hstop := hholds.2
  have hstart := hother.1
  omega

/-- A character that is never passed over, as `htaken` says, is in one token, and in no other. -/
theorem exists_unique_holds (normalizer : Normalizer) (htaken : ∀ rest, tokenizer.front (c :: rest) ≠ [])
    (htext : string.toList = before ++ c :: after) :
    ∃! i : Nat, ∃ token : Token,
      (tokenizer.tokenize normalizer string)[i]? = some token ∧ token.Holds before c := by
  obtain ⟨token, hmem, -, hholds⟩ := exists_token_around normalizer htaken htext
  obtain ⟨i, hi⟩ := List.mem_iff_getElem?.1 hmem
  refine ⟨i, ⟨token, hi, hholds⟩, ?_⟩
  rintro j ⟨other, hj, hother⟩
  rcases Nat.lt_trichotomy i j with hlt | heq | hlt
  · exact absurd hother (not_holds_of_holds_of_lt hi hj hlt hholds)
  · exact heq.symm
  · exact absurd hholds (not_holds_of_holds_of_lt hj hi hlt hother)

/-- Whatever the text is, `matching` has each letter and each digit in exactly one token and white space in
none. A token that starts with a letter is a whole word. -/
theorem matching_keeps_words (normalizer : Normalizer) (string : String) :
    (∀ before c after, string.toList = before ++ c :: after →
      Unicode.isLetter c = true ∨ c.isDigit = true →
        ∃! i : Nat, ∃ token : Token,
          (matching.tokenize normalizer string)[i]? = some token ∧ token.Holds before c) ∧
    ∀ token ∈ matching.tokenize normalizer string,
      (∀ c ∈ token.word.toList, Unicode.isWhiteSpace c = false) ∧
      ∀ c ∈ token.word.toList.head?, Unicode.isLetter c = true →
        ∃ before after, string.toList = before ++ (token.word.toList ++ after) ∧
          Text.byteLength before = token.bytes.start ∧ IsWholeWord token.word.toList after := by
  refine ⟨fun before c after htext hc => ?_, fun token htoken => ?_⟩
  · have htaken : ∀ rest, front .matching (c :: rest) ≠ [] := by
      rcases hc with hletter | hdigit
      · exact front_matching_ne_nil_of_isLetter hletter
      · exact front_matching_ne_nil_of_isDigit hdigit
    exact exists_unique_holds normalizer htaken htext
  · obtain ⟨hpiece, -⟩ := exists_piece_of_mem htoken
    obtain ⟨-, before, after, htext, hstart, htaken⟩ :=
      (parted_tokenizer matching string.toList).exists_taken hpiece
    rw [Nat.zero_add] at hstart
    refine ⟨fun c hc => ?_, fun c hhead hletter => ⟨before, after, htext, hstart, ?_⟩⟩
    · rw [← htaken] at hc
      exact not_isWhiteSpace_of_mem_front_matching hc
    · obtain ⟨rest, hword⟩ := List.head?_eq_some_iff.1 hhead
      rw [hword] at htaken ⊢
      rw [List.cons_append, front_matching_of_isLetter hletter] at htaken
      obtain ⟨behind, hrest, hwhole⟩ := exists_word_cons hletter (rest ++ after)
      rw [htaken] at hrest hwhole
      rw [← List.cons_append] at hrest
      obtain rfl := List.append_cancel_left hrest
      exact hwhole

/-- A word with an apostrophe inside and one behind it that is not of it, and a number right there. -/
theorem matching_keeps_words_apostrophes :
    let text := "né don't'4,2"
    let word := "don't"
    (∃! i : Nat, ∃ token : Token,
      (matching.tokenize .standard text)[i]? = some token ∧ token.Holds "né don't'".toList '4') ∧
    ∃ before after, text.toList = before ++ (word.toList ++ after) ∧ Text.byteLength before = 4 ∧
      IsWholeWord word.toList after := by
  intro text word
  obtain ⟨hholds, hwords⟩ := matching_keeps_words .standard text
  have htoken : (⟨word, "dont", 1, ⟨4, 9⟩⟩ : Token) ∈ matching.tokenize .standard text := by decide +kernel
  refine ⟨hholds _ '4' [',', '2'] (by decide +kernel) (.inr (by decide)), ?_⟩
  exact (hwords _ htoken).2 'd' (by decide +kernel) (by decide +kernel)

end Tokenizer

end Tagging
