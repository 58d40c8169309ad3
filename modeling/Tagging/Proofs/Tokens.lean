import Tagging.Proofs.Characters
import Tagging.Proofs.Place
import Tagging.Tokenizer

/-!
# Tokens stand in the text

Each tokenizer takes what is at the front of a text or nothing. So the pieces that are cut from a text stand
in it one behind the other, and the bytes of a token are the place of its word. Of two tokens, the text from
the start of the first to the end of the second starts with the one word and ends with the other.
-/

namespace Tagging

namespace Tokenizer

variable {c : Char} {text : List Char}

/-! ## What stands at the front -/

theorem prefix_digits (text : List Char) : digits text <+: text := by
  cases text with
  | nil => exact List.prefix_rfl
  | cons c text =>
    unfold digits
    dsimp only
    split_ifs
    · exact (List.prefix_cons_inj c).2 (List.takeWhile_prefix _)
    · exact List.nil_prefix

theorem prefix_number (text : List Char) : number text <+: text := by
  cases text with
  | nil => exact List.prefix_rfl
  | cons c text =>
    unfold number
    dsimp only
    split_ifs
    · cases hdigits : digits text with
      | nil => exact List.nil_prefix
      | cons d found =>
        have hbegins := prefix_digits text
        rw [hdigits] at hbegins
        exact (List.prefix_cons_inj c).2 hbegins
    · exact prefix_digits (c :: text)

theorem prefix_tag (text : List Char) : tag text <+: text := by
  unfold tag
  dsimp only
  split_ifs
  · exact List.nil_prefix
  · have hword : (text.dropWhile opensTag).takeWhile inTag <+: text.dropWhile opensTag :=
      List.takeWhile_prefix _
    have htag := (List.prefix_append_right_inj (text.takeWhile opensTag)).2 hword
    rwa [List.takeWhile_append_dropWhile] at htag

/-- What is left of a `run` when it is closed stands at its front. -/
theorem prefix_closeWord (run : List Char) : closeWord run <+: run := by
  unfold closeWord
  dsimp only
  generalize hcore : (run.reverse.dropWhile (!Unicode.isLetter ·)).reverse = core
  have hbegins : core <+: run := by
    rw [← List.reverse_suffix, ← hcore, List.reverse_reverse]
    exact List.dropWhile_suffix _
  clear hcore
  obtain ⟨rest, rfl⟩ := hbegins
  rw [List.drop_left]
  exact (List.prefix_append_right_inj core).2 (List.takeWhile_prefix _)

theorem prefix_word (text : List Char) : word text <+: text := by
  cases text with
  | nil => exact List.prefix_rfl
  | cons c text =>
    unfold word
    dsimp only
    split_ifs
    · exact (prefix_closeWord _).trans ((List.prefix_cons_inj c).2 (List.takeWhile_prefix _))
    · exact List.nil_prefix

theorem word_cons (h : Unicode.isLetter c = true) (text : List Char) :
    word (c :: text) = closeWord (c :: text.takeWhile inWord) := by
  unfold word
  exact if_pos h

theorem word_eq_nil (h : ¬ Unicode.isLetter c = true) (text : List Char) : word (c :: text) = [] := by
  unfold word
  exact if_neg h

/-- No number starts at the sign of a tag, nor at a character with code point 65 or more, since all digits and signs
of numbers are in front of these. -/
theorem number_eq_nil (h : 65 ≤ c.toNat ∨ opensTag c = true) : number (c :: text) = [] := by
  have hc : ¬ (c = '-' ∨ c = '+') ∧ c.isDigit = false := by
    rcases h with h | h
    · refine ⟨?_, Bool.eq_false_iff.2 fun hdigit => ?_⟩
      · rintro (rfl | rfl)
        · exact absurd h (by decide)
        · exact absurd h (by decide)
      · have := Unicode.toNat_of_isDigit hdigit
        omega
    · have hc : c = '#' ∨ c = '@' := by simpa [opensTag] using h
      rcases hc with rfl | rfl <;> decide
  unfold number
  dsimp only
  rw [if_neg hc.1]
  unfold digits
  dsimp only
  rw [if_neg (by rw [hc.2]; simp)]

theorem tag_eq_nil (h : opensTag c = false) : tag (c :: text) = [] := by
  simp [tag, List.takeWhile_cons, h]

/-- Where a letter comes next there is neither a number nor a tag. -/
theorem front_matching_of_isLetter (h : Unicode.isLetter c = true) (text : List Char) :
    front .matching (c :: text) = word (c :: text) := by
  have hle := Unicode.le_of_isLetter h
  have htag : opensTag c = false := by
    refine Bool.eq_false_iff.2 fun htag => ?_
    have hc : c = '#' ∨ c = '@' := by simpa [opensTag] using htag
    rcases hc with rfl | rfl
    · exact absurd hle (by decide)
    · exact absurd hle (by decide)
  unfold front
  dsimp only
  rw [number_eq_nil (.inl hle), tag_eq_nil htag]
  rfl

/-- What `matching` takes stands at the front, since at most one of a number, a tag and a word does. -/
theorem prefix_matching (text : List Char) : front .matching text <+: text := by
  cases text with
  | nil => exact List.prefix_rfl
  | cons c text =>
    by_cases hletter : Unicode.isLetter c = true
    · rw [front_matching_of_isLetter hletter]
      exact prefix_word (c :: text)
    · unfold front
      dsimp only
      rw [word_eq_nil hletter, List.append_nil]
      by_cases htag : opensTag c = true
      · rw [number_eq_nil (.inr htag)]
        exact prefix_tag (c :: text)
      · rw [tag_eq_nil (by simpa using htag), List.append_nil]
        exact prefix_number (c :: text)

/-- What a `tokenizer` takes stands at the front of the `text`. -/
theorem prefix_front (tokenizer : Tokenizer) (text : List Char) : tokenizer.front text <+: text := by
  cases tokenizer with
  | matching => exact prefix_matching text
  | splitting => exact List.takeWhile_prefix _
  | whitespace => exact List.takeWhile_prefix _

/-! ## Pieces of a text -/

/-- The pieces are what `front` takes from the text, and at the characters that are passed over it takes
nothing; `offset` is that of the text itself. -/
inductive Parted (front : List Char → List Char) : Nat → List Char → List (Nat × List Char) → Prop where
  | nil (offset : Nat) : Parted front offset [] []
  | skip {offset : Nat} {c : Char} {text : List Char} {pieces : List (Nat × List Char)}
      (untaken : front (c :: text) = []) (rest : Parted front (offset + c.utf8Size) text pieces) :
      Parted front offset (c :: text) pieces
  | take {offset : Nat} {piece text : List Char} {pieces : List (Nat × List Char)}
      (ne_nil : piece ≠ []) (taken : front (piece ++ text) = piece)
      (rest : Parted front (offset + Text.byteLength piece) text pieces) :
      Parted front offset (piece ++ text) ((offset, piece) :: pieces)

/-- The pieces are no empty ones, and stand in the text in this order at these offsets; `offset` is that of
the text itself. -/
inductive Placed : Nat → List Char → List (Nat × List Char) → Prop where
  | nil (offset : Nat) (text : List Char) : Placed offset text []
  | cons {offset : Nat} {text : List Char} {pieces : List (Nat × List Char)}
      (skipped piece : List Char) (ne_nil : piece ≠ [])
      (rest : Placed (offset + Text.byteLength skipped + Text.byteLength piece) text pieces) :
      Placed offset (skipped ++ (piece ++ text)) ((offset + Text.byteLength skipped, piece) :: pieces)

variable {front : List Char → List Char} {offset : Nat} {pieces : List (Nat × List Char)}

/-- If all that `front` takes stands at the front, as `hfront` says, cutting gives its pieces. -/
theorem parted_cut (hfront : ∀ text, front text <+: text) (offset : Nat) (text : List Char) :
    Parted front offset text (cut front offset text) := by
  fun_induction cut front offset text with
  | case1 offset => exact .nil offset
  | case2 offset c text hnone ih => exact .skip hnone ih
  | case3 offset c text first piece htaken ih =>
    have hbegins := hfront (c :: text)
    rw [htaken] at hbegins
    obtain ⟨rfl, hpiece⟩ := List.cons_prefix_cons.1 hbegins
    obtain ⟨rest, rfl⟩ := hpiece
    rw [List.drop_left] at ih ⊢
    exact .take (List.cons_ne_nil first piece) htaken ih

theorem Placed.skip (h : Placed (offset + c.utf8Size) text pieces) :
    Placed offset (c :: text) pieces := by
  cases h with
  | nil => exact .nil offset _
  | cons skipped piece ne_nil rest =>
    rw [Nat.add_assoc offset, ← Text.byteLength_cons] at rest ⊢
    exact .cons (c :: skipped) piece ne_nil rest

/-- Pieces that are taken stand in the `text` one behind the other. -/
theorem Parted.placed (h : Parted front offset text pieces) : Placed offset text pieces := by
  induction h with
  | nil offset => exact .nil offset []
  | skip _ _ ih => exact ih.skip
  | @take offset piece text pieces hne _ _ ih => exact .cons [] piece hne ih

theorem placed_cut (hfront : ∀ text, front text <+: text) (offset : Nat) (text : List Char) :
    Placed offset text (cut front offset text) :=
  (parted_cut hfront offset text).placed

/-- From the start of a piece to the end of another one that is not before it, the `text` starts with the one and
ends with the other. By induction on how they are placed: if the first of the two is at the front, what lies between
is that piece and what comes before the end of the other. -/
theorem Placed.between (h : Placed offset text pieces) :
    ∀ {i j start stop : Nat} {first last : List Char}, i ≤ j → pieces[i]? = some (start, first) →
      pieces[j]? = some (stop, last) → ∃ before body after, text = before ++ (body ++ after) ∧
        offset + Text.byteLength before = start ∧
        start + Text.byteLength body = stop + Text.byteLength last ∧ first <+: body ∧ last <:+ body := by
  induction h with
  | nil =>
    intro i j start stop first last hij hi
    cases hi
  | @cons offset text pieces skipped piece ne_nil rest ih =>
    intro i j start stop first last hij hi hj
    cases i with
    | zero =>
      cases hi
      cases j with
      | zero =>
        cases hj
        exact ⟨skipped, piece, text, rfl, rfl, rfl, List.prefix_rfl, List.suffix_rfl⟩
      | succ j =>
        obtain ⟨before, body, after, rfl, hstart, hstop, -, hlast⟩ := ih (Nat.le_refl j) hj hj
        refine ⟨skipped, piece ++ (before ++ body), after, by simp, rfl, ?_, ?_, ?_⟩
        · simp only [Text.byteLength_append]
          omega
        · exact List.prefix_append _ _
        · exact hlast.trans ((List.suffix_append _ _).trans (List.suffix_append _ _))
    | succ i =>
      cases j with
      | zero => cases hij
      | succ j =>
        obtain ⟨before, body, after, rfl, hstart, hstop, hfirst, hlast⟩ := ih (by omega) hi hj
        refine ⟨skipped ++ (piece ++ before), body, after, by simp, ?_, hstop, hfirst, hlast⟩
        simp only [Text.byteLength_append]
        omega

end Tokenizer

end Tagging
