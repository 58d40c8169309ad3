import Tagging.Proofs.Positions

/-!
# Words in quotes

Inside quotes a backslash takes away the meaning of the character after it. So any word can be quoted: with a
backslash in front of each quote and each backslash of it, it is read back as it was, and reading stops right
behind the closing quote, whatever follows there.
-/

namespace Tagging

namespace Lexeme

variable {quote : Char} {lexeme : String → Lexeme} {word text rest : List Char}

/-! ## Escapes -/

/-- The `word` with a backslash in front of each `quote` and each backslash. -/
def escape (quote : Char) (word : List Char) : List Char :=
  word.flatMap fun c => if c = quote ∨ c = '\\' then ['\\', c] else [c]

theorem escape_cons (quote c : Char) (word : List Char) : escape quote (c :: word) =
    (if c = quote ∨ c = '\\' then ['\\', c] else [c]) ++ escape quote word := rfl

/-- A `word` without the `quote` and without backslashes stays as it is. -/
theorem escape_eq_self (hquote : quote ∉ word) (hescape : '\\' ∉ word) : escape quote word = word := by
  induction word with
  | nil => rfl
  | cons c word ih =>
    rw [List.mem_cons, not_or] at hquote hescape
    have hc : ¬ (c = quote ∨ c = '\\') := not_or.2 ⟨Ne.symm hquote.1, Ne.symm hescape.1⟩
    rw [escape_cons, if_neg hc, ih hquote.2 hescape.2, List.singleton_append]

/-- Behind a backslash any character `c` stands for itself. -/
theorem unquote?_escaped (quote c : Char) (text : List Char) : unquote? quote ('\\' :: c :: text) =
    (unquote? quote text).map fun (content, rest) => (c :: content, rest) := by
  rw [unquote?.eq_def]
  dsimp only
  rw [if_pos rfl]

/-- The first `quote` that no backslash stands in front of ends the content. -/
theorem unquote?_quote (hne : quote ≠ '\\') (rest : List Char) :
    unquote? quote (quote :: rest) = some ([], rest) := by
  rw [unquote?.eq_def]
  dsimp only
  rw [if_neg hne, if_pos rfl]

theorem unquote?_plain {c : Char} (hquote : c ≠ quote) (hescape : c ≠ '\\') (text : List Char) :
    unquote? quote (c :: text) = (unquote? quote text).map fun (content, rest) => (c :: content, rest) := by
  rw [unquote?.eq_def]
  dsimp only
  rw [if_neg hescape, if_neg hquote]

/-- Of an escaped `word`, up to the `quote` behind it, the `word` is read, since behind a backslash any character
stands for itself. -/
theorem unquote?_escape (hne : quote ≠ '\\') (word rest : List Char) :
    unquote? quote (escape quote word ++ quote :: rest) = some (word, rest) := by
  induction word with
  | nil => exact unquote?_quote hne rest
  | cons c word ih =>
    rw [escape_cons]
    split_ifs with hc
    · simp only [List.cons_append, List.nil_append]
      rw [unquote?_escaped, ih, Option.map_some]
    · obtain ⟨hquote, hescape⟩ := not_or.1 hc
      rw [List.singleton_append, List.cons_append, unquote?_plain hquote hescape, ih, Option.map_some]

/-! ## Quotes -/

/-- The quotes, each with the lexemes of the words that stand in it. -/
def quotes : List (Char × (String → Lexeme)) := [('\'', .quoted), ('\"', .exactWord)]

theorem mem_quotes : ('\'', .quoted) ∈ quotes ∧ ('\"', .exactWord) ∈ quotes := by
  simp [quotes]

theorem eq_of_mem_quotes (h : (quote, lexeme) ∈ quotes) :
    quote = '\'' ∧ lexeme = .quoted ∨ quote = '\"' ∧ lexeme = .exactWord := by
  simpa [quotes] using h

theorem ne_backslash_of_mem_quotes (h : (quote, lexeme) ∈ quotes) : quote ≠ '\\' := by
  rcases eq_of_mem_quotes h with ⟨rfl, -⟩ | ⟨rfl, -⟩
  · decide
  · decide

theorem not_isWhiteSpace_of_mem_quotes (h : (quote, lexeme) ∈ quotes) :
    ¬ Unicode.isWhiteSpace quote = true := by
  rcases eq_of_mem_quotes h with ⟨rfl, -⟩ | ⟨rfl, -⟩
  · decide
  · decide

/-- Where `unquote?` finds a `word` behind a quote of `quotes`, `next` takes the `lexeme` of that quote with the
`word`. -/
theorem next_quote (h : (quote, lexeme) ∈ quotes) (hunquote : unquote? quote text = some (word, rest)) :
    next quote text = .ok (lexeme (String.ofList word), rest) := by
  rcases eq_of_mem_quotes h with ⟨rfl, rfl⟩ | ⟨rfl, rfl⟩
  · have hsign : ofSign? '\'' = none := by decide
    rw [next, hsign, hunquote]
    rfl
  · have hsign : ofSign? '\"' = none := by decide
    rw [next, hsign, hunquote]
    rfl

/-- The `word` between two quotes, with its escapes. -/
def enclose (quote : Char) (word : String) : List Char := quote :: (escape quote word.toList ++ [quote])

/-- From a quote of `quotes` on, `next` takes the `lexeme` of exactly the `word` that was escaped and stops at
`rest`. -/
theorem next_escape (h : (quote, lexeme) ∈ quotes) (word : String) (rest : List Char) :
    next quote (escape quote word.toList ++ quote :: rest) = .ok (lexeme word, rest) := by
  have hnext := next_quote h (unquote?_escape (ne_backslash_of_mem_quotes h) word.toList rest)
  rwa [String.ofList_toList] at hnext

/-! ## Quoted words in a source -/

/-- Any `word` can be quoted. Wherever it stands in a source, a turn of the lexer takes the `lexeme` of exactly that
`word`, and stops at the byte where exactly `rest`, the characters behind the closing `quote`, are ahead. The list
of lexemes has that `lexeme` and goes on with those of `rest`. -/
theorem enclosed_word_is_read (hquote : (quote, lexeme) ∈ quotes) (word : String) (before rest : List Char) :
    let source := before ++ (enclose quote word ++ rest)
    let start := Text.byteLength before
    let stop := start + Text.byteLength (enclose quote word)
    Lexed.turn? source start = some (.taken ⟨lexeme word, start⟩ stop) ∧
      Text.dropBytes? stop source = some rest ∧
      Lexed.ofChars start (enclose quote word ++ rest) =
        ⟨⟨lexeme word, start⟩ :: (Lexed.ofChars stop rest).lexemes, (Lexed.ofChars stop rest).ending⟩ := by
  intro source start stop
  have hspace := not_isWhiteSpace_of_mem_quotes hquote
  have hnext := next_escape hquote word rest
  have hstop : stop = Text.byteLength (before ++ enclose quote word) := (Text.byteLength_append _ _).symm
  have henclosed : enclose quote word ++ rest = quote :: (escape quote word.toList ++ [quote] ++ rest) := rfl
  rw [List.append_cons] at hnext
  refine ⟨?_, ?_, ?_⟩
  · show Lexed.turn? (before ++ (enclose quote word ++ rest)) (Text.byteLength before) = _
    rw [henclosed, Lexed.turn?_cons hspace, Lexed.Turn.read_taken before hnext, hstop]
    rfl
  · exact Text.dropBytes?_eq_some_iff.2 ⟨before ++ enclose quote word, (List.append_assoc _ _ _).symm, hstop.symm⟩
  · exact Lexed.ofChars_cons hspace hnext start

/-- Both quotes, a backslash at the end, and a character of two bytes behind an escape. -/
theorem enclosed_word_is_read_accented :
    let source := "x & 'it\\'s \"\\\\é\\\\' | y".toList
    ('\'', Lexeme.quoted) ∈ quotes ∧
      Lexed.turn? source 4 = some (.taken ⟨.quoted "it's \"\\é\\", 4⟩ 19) ∧
      Text.dropBytes? 19 source = some " | y".toList := by
  intro source
  have hsource : "x & ".toList ++ (enclose '\'' "it's \"\\é\\" ++ " | y".toList) = source := by decide
  have hstart : Text.byteLength "x & ".toList = 4 := by decide
  have hlength : Text.byteLength (enclose '\'' "it's \"\\é\\") = 15 := by decide
  obtain ⟨hturn, hrest, -⟩ := enclosed_word_is_read mem_quotes.1 "it's \"\\é\\" "x & ".toList " | y".toList
  rw [hsource, hstart, hlength] at hturn hrest
  exact ⟨mem_quotes.1, hturn, hrest⟩

end Lexeme

end Tagging
