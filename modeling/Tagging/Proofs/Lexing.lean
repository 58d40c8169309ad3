import Mathlib.Data.List.TakeWhile
import Mathlib.Tactic.SplitIfs
import Tagging.Pattern.Lexing
import Tagging.Proofs.Characters
import Tagging.Proofs.Place

/-!
# Where lexemes end

Each lexeme is taken from the front of a text, and that front alone would be read as the same lexeme. So
what follows a lexeme is the end of the text, and a list of lexemes that no fault closes has got to the end
of the text. A whole word is one lexeme, and each of the four keywords is the lexeme of a sign.
-/

namespace Tagging

namespace Lexeme

variable {c : Char} {text rest : List Char} {lexeme : Lexeme}

/-! ## Words -/

/-- No alphanumeric character is at the front of `rest`, so a word in front of `rest` would end there. -/
def EndsWord (rest : List Char) : Prop := ∀ c ∈ rest.head?, Unicode.isAlphanumeric c = false

/-- The characters that `ofSign?` takes for lexemes of their own are these ten. -/
theorem mem_of_ofSign? (h : ofSign? c = some lexeme) : c ∈ "()&|_-#?+*".toList := by
  refine Decidable.byContradiction fun hc => ?_
  simp only [String.reduceToList, List.mem_cons, not_or] at hc
  simp [ofSign?, hc] at h

theorem not_isAlphanumeric_of_ofSign? (h : ofSign? c = some lexeme) :
    Unicode.isAlphanumeric c = false := by
  have hall : "()&|_-#?+*".toList.all (!Unicode.isAlphanumeric ·) = true := by decide
  simpa using List.all_eq_true.1 hall c (mem_of_ofSign? h)

theorem not_isWhiteSpace_of_ofSign? (h : ofSign? c = some lexeme) :
    Unicode.isWhiteSpace c = false := by
  have hall : "()&|_-#?+*".toList.all (!Unicode.isWhiteSpace ·) = true := by decide
  simpa using List.all_eq_true.1 hall c (mem_of_ofSign? h)

theorem endsWord_cons (h : Unicode.isAlphanumeric c = false) (text : List Char) :
    EndsWord (c :: text) := by
  intro d hd
  obtain rfl : c = d := by simpa using hd
  exact h

theorem endsWord_of_ofSign? (h : ofSign? c = some lexeme) : EndsWord (c :: text) :=
  endsWord_cons (not_isAlphanumeric_of_ofSign? h) text

/-- Nothing of `rest` would be added to a word in front of it. -/
theorem EndsWord.takeWhile_eq_nil (h : EndsWord rest) :
    rest.takeWhile Unicode.isAlphanumeric = [] := by
  cases rest with
  | nil => rfl
  | cons c rest => exact List.takeWhile_cons_of_neg (by simp [h c (by simp)])

theorem EndsWord.dropWhile_eq_self (h : EndsWord rest) :
    rest.dropWhile Unicode.isAlphanumeric = rest := by
  cases rest with
  | nil => rfl
  | cons c rest => exact List.dropWhile_cons_of_neg (by simp [h c (by simp)])

/-- From the alphanumeric character `c` on, `next` takes the whole word, which is `c` and `word`, and stops at
`rest`. -/
theorem next_word {word : List Char} (hc : Unicode.isAlphanumeric c = true)
    (hword : ∀ d ∈ word, Unicode.isAlphanumeric d = true) (hrest : EndsWord rest) :
    next c (word ++ rest) = .ok (ofWord (String.ofList (c :: word)), rest) := by
  have hsign : ofSign? c = none := by
    cases hsign : ofSign? c with
    | none => rfl
    | some lexeme => rw [not_isAlphanumeric_of_ofSign? hsign] at hc; cases hc
  have hexact : c ≠ '\"' := by
    rintro rfl
    exact absurd hc (by decide)
  have hquoted : c ≠ '\'' := by
    rintro rfl
    exact absurd hc (by decide)
  unfold next
  rw [hsign]
  dsimp only
  rw [if_neg hexact, if_neg hquoted, if_pos hc, List.takeWhile_append_of_pos hword,
    List.dropWhile_append_of_pos hword, hrest.takeWhile_eq_nil, hrest.dropWhile_eq_self,
    List.append_nil]

/-! ## What lexemes are read from -/

/-- The `content` of a quoted word is read from what stands in front of `rest`, and would be read from that alone.
-/
theorem exists_written_of_unquote? {quote : Char} {content : List Char}
    (h : unquote? quote text = some (content, rest)) :
    ∃ written, text = written ++ rest ∧ unquote? quote written = some (content, []) := by
  fun_induction unquote? quote text generalizing content rest with
  | case1 => contradiction
  | case2 => contradiction
  | case3 d text ih =>
    obtain ⟨⟨inner, tail⟩, hinner, heq⟩ := Option.map_eq_some_iff.1 h
    cases heq
    obtain ⟨written, rfl, hwritten⟩ := ih hinner
    exact ⟨'\\' :: d :: written, rfl, by simp [unquote?, hwritten]⟩
  | case4 text hescape =>
    cases h
    exact ⟨[quote], rfl, by simp [unquote?, hescape]⟩
  | case5 c text hescape hquote ih =>
    obtain ⟨⟨inner, tail⟩, hinner, heq⟩ := Option.map_eq_some_iff.1 h
    cases heq
    obtain ⟨written, rfl, hwritten⟩ := ih hinner
    refine ⟨c :: written, rfl, ?_⟩
    unfold unquote?
    dsimp only
    rw [if_neg hescape, if_neg hquote, hwritten, Option.map_some]

/-- Each `lexeme` is read from what stands in front of `rest`, and `next` would read it from that alone. -/
theorem exists_written_of_next (h : next c text = .ok (lexeme, rest)) :
    ∃ written, text = written ++ rest ∧ next c written = .ok (lexeme, []) := by
  unfold next at h
  cases hsign : ofSign? c with
  | some sign =>
    rw [hsign] at h
    cases h
    exact ⟨[], rfl, by rw [next, hsign]⟩
  | none =>
    rw [hsign] at h
    dsimp only at h
    split_ifs at h with hexact hquoted hword
    · cases hunquote : unquote? c text with
      | none =>
        rw [hunquote] at h
        cases h
      | some parts =>
        rw [hunquote] at h
        cases h
        obtain ⟨written, htext, hwritten⟩ := exists_written_of_unquote? hunquote
        refine ⟨written, htext, ?_⟩
        unfold next
        rw [hsign]
        dsimp only
        rw [if_pos hexact, hwritten]
    · cases hunquote : unquote? c text with
      | none =>
        rw [hunquote] at h
        cases h
      | some parts =>
        rw [hunquote] at h
        cases h
        obtain ⟨written, htext, hwritten⟩ := exists_written_of_unquote? hunquote
        refine ⟨written, htext, ?_⟩
        unfold next
        rw [hsign]
        dsimp only
        rw [if_neg hexact, if_pos hquoted, hwritten]
    · cases h
      have hrun : ∀ d ∈ text.takeWhile Unicode.isAlphanumeric, Unicode.isAlphanumeric d = true :=
        fun d hd => List.mem_takeWhile_imp hd
      have hend : EndsWord [] := by simp [EndsWord]
      have hwhole := next_word hword hrun hend
      rw [List.append_nil] at hwhole
      exact ⟨_, List.takeWhile_append_dropWhile.symm, hwhole⟩

theorem suffix_of_next_eq_ok (h : next c text = .ok (lexeme, rest)) : rest <:+ text := by
  obtain ⟨written, rfl, -⟩ := exists_written_of_next h
  exact List.suffix_append written rest

/-! ## Keywords -/

/-- The signs that can also be written as a keyword, which are those of negation, lookups, conjunction and
disjunction. -/
def spellings : List (Char × List Char × Lexeme) :=
  [('-', "NOT".toList, .not), ('#', "LOOKUP".toList, .lookup), ('&', "AND".toList, .and),
    ('|', "OR".toList, .or)]

theorem ofSign?_of_mem_spellings {sign : Char} {keyword : List Char}
    (h : (sign, keyword, lexeme) ∈ spellings) : ofSign? sign = some lexeme := by
  have hall : ∀ spelling ∈ spellings, ofSign? spelling.1 = some spelling.2.2 := by decide
  exact hall _ h

/-- A `keyword` of `spellings` is a word, and `ofWord` takes it for the `lexeme` of its sign. -/
theorem ofWord_of_mem_spellings {sign : Char} {keyword : List Char}
    (h : (sign, keyword, lexeme) ∈ spellings) :
    keyword.all Unicode.isAlphanumeric = true ∧ ofWord (String.ofList keyword) = lexeme := by
  have hall : spellings.all (fun (_, keyword, lexeme) => keyword.all Unicode.isAlphanumeric &&
      decide (ofWord (String.ofList keyword) = lexeme)) = true := by decide
  simpa using List.all_eq_true.1 hall _ h

/-- Where a keyword of `spellings` is a whole word, as `EndsWord rest` says, `next` takes it for the `lexeme` of its
`sign`. -/
theorem next_of_mem_spellings {sign : Char} {word : List Char}
    (h : (sign, c :: word, lexeme) ∈ spellings) (hrest : EndsWord rest) :
    next sign rest = .ok (lexeme, rest) ∧ next c (word ++ rest) = .ok (lexeme, rest) := by
  obtain ⟨hword, hlexeme⟩ := ofWord_of_mem_spellings h
  obtain ⟨hc, hword⟩ := List.forall_mem_cons.1 (List.all_eq_true.1 hword)
  constructor
  · unfold next
    rw [ofSign?_of_mem_spellings h]
  · rw [next_word hc hword hrest, hlexeme]

end Lexeme

namespace Lexed

/-- If `next` takes a `lexeme` from the front and leaves `rest`, then `ofChars` has that `lexeme` first, at
`position`, and goes on with the lexemes of `rest` behind the bytes of `c` and `tail`. -/
theorem ofChars_cons {c : Char} {tail rest : List Char} {lexeme : Lexeme}
    (hspace : ¬ Unicode.isWhiteSpace c = true) (hnext : Lexeme.next c (tail ++ rest) = .ok (lexeme, rest))
    (position : Nat) : ofChars position (c :: (tail ++ rest)) =
      ⟨⟨lexeme, position⟩ :: (ofChars (position + Text.byteLength (c :: tail)) rest).lexemes,
        (ofChars (position + Text.byteLength (c :: tail)) rest).ending⟩ := by
  have hconsumed : Text.byteLength (c :: (tail ++ rest)) - Text.byteLength rest =
      Text.byteLength (c :: tail) := by
    rw [← List.cons_append, Text.byteLength_append, Nat.add_sub_cancel]
  rw [ofChars, if_neg hspace]
  split
  · next cause hcause =>
    rw [hnext] at hcause
    cases hcause
  · next lexeme' rest' hok =>
    rw [hnext] at hok
    cases hok
    rw [hconsumed]

/-- Lexemes that no fault closes get to the end of `text`, so they end `Text.byteLength text` bytes behind
`position`. -/
theorem eq_byteLength_of_ending_eq_ok {position stop : Nat} {text : List Char}
    (h : (ofChars position text).ending = .ok stop) : stop = position + Text.byteLength text := by
  fun_induction ofChars position text with
  | case1 position =>
    cases h
    rfl
  | case2 position c text hspace ih =>
    rw [ih h, Text.byteLength_cons, Nat.add_assoc]
  | case3 position c text hspace cause hnext =>
    cases h
  | case4 position c text hspace lexeme rest hnext consumed lexed ih =>
    have hle := Text.byteLength_le_of_suffix
      ((Lexeme.suffix_of_next_eq_ok hnext).trans (List.suffix_cons c text))
    rw [ih h]
    omega

end Lexed

end Tagging
