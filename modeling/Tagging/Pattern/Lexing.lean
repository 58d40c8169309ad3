import Tagging.Pattern.ReadError
import Tagging.Text.Bytes
import Tagging.Unicode.Alphanumeric
import Tagging.Unicode.WhiteSpace

/-!
# From characters to lexemes

White space separates lexemes and is left out. A word is a run of alphanumeric characters, as long as
can be. Inside quotes a backslash stands for the character after it, whatever that is, so any text can
be quoted.

The lexemes of a text are listed up to its end or up to the first place where no lexeme can be read.
Such a fault closes the list; whether it matters is up to the reader of the list, who may find an
error further to the left.
-/

namespace Tagging

namespace Lexeme

/-- The content of a quoted word and what follows it. The text starts behind the opening quote. -/
def unquote? (quote : Char) : List Char → Option (List Char × List Char)
  | [] => none
  | c :: text =>
    if c = '\\' then
      match text with
      | [] => none
      | d :: text => (unquote? quote text).map fun (content, rest) => (d :: content, rest)
    else if c = quote then some ([], text)
    else (unquote? quote text).map fun (content, rest) => (c :: content, rest)

/-- The lexeme that starts with `c` in front of `text`, and what follows it. -/
def next (c : Char) (text : List Char) : Except ReadError.Cause (Lexeme × List Char) :=
  match ofSign? c with
  | some lexeme => .ok (lexeme, text)
  | none =>
    if c = '\"' then
      match unquote? c text with
      | some (content, rest) => .ok (.exactWord (String.ofList content), rest)
      | none => .error (.unterminatedQuote c)
    else if c = '\'' then
      match unquote? c text with
      | some (content, rest) => .ok (.quoted (String.ofList content), rest)
      | none => .error (.unterminatedQuote c)
    else if Unicode.isAlphanumeric c then
      .ok (ofWord (String.ofList (c :: text.takeWhile Unicode.isAlphanumeric)),
        text.dropWhile Unicode.isAlphanumeric)
    else .error (.unexpectedCharacter c)

theorem length_le_of_unquote?_eq_some {quote : Char} {text content rest : List Char}
    (h : unquote? quote text = some (content, rest)) : rest.length ≤ text.length := by
  fun_induction unquote? quote text generalizing content rest with
  | case1 => contradiction
  | case2 => contradiction
  | case3 d text ih =>
    obtain ⟨⟨w, r⟩, h', heq⟩ := Option.map_eq_some_iff.1 h
    cases heq
    have := ih h'
    simp only [List.length_cons]
    omega
  | case4 => cases h; simp
  | case5 c text _ _ ih =>
    obtain ⟨⟨w, r⟩, h', heq⟩ := Option.map_eq_some_iff.1 h
    cases heq
    have := ih h'
    simp only [List.length_cons]
    omega

/-- Reading a lexeme gets ahead by one character at least. -/
theorem length_le_of_next_eq_ok {c : Char} {text rest : List Char} {lexeme : Lexeme}
    (h : next c text = .ok (lexeme, rest)) : rest.length ≤ text.length := by
  simp only [next] at h
  split at h
  · cases h; exact Nat.le_refl _
  · split at h
    · split at h
      · next hu => cases h; exact length_le_of_unquote?_eq_some hu
      · contradiction
    · split at h
      · split at h
        · next hu => cases h; exact length_le_of_unquote?_eq_some hu
        · contradiction
      · split at h
        · cases h; exact (List.dropWhile_sublist _).length_le
        · contradiction

end Lexeme

/-- A lexeme and the byte offset at which it starts. -/
structure Located where
  /-- The lexeme. -/
  lexeme : Lexeme
  /-- The byte offset of its first character. -/
  position : Nat
deriving DecidableEq, Repr

/-- The lexemes of a text, and how the list ends. -/
structure Lexed where
  /-- The lexemes that can be read, in order. -/
  lexemes : List Located
  /-- The byte offset of the end of the text, or why reading stops before it. -/
  ending : Except ReadError Nat

namespace Lexed

/-- The lexemes of `text`, which starts at byte `position` of the pattern. -/
def ofChars (position : Nat) : List Char → Lexed
  | [] => ⟨[], .ok position⟩
  | c :: text =>
    if Unicode.isWhiteSpace c then ofChars (position + c.utf8Size) text
    else
      match _h : Lexeme.next c text with
      | .error cause => ⟨[], .error ⟨cause, position⟩⟩
      | .ok (lexeme, rest) =>
        let consumed := Text.byteLength (c :: text) - Text.byteLength rest
        let lexed := ofChars (position + consumed) rest
        ⟨⟨lexeme, position⟩ :: lexed.lexemes, lexed.ending⟩
termination_by text => text.length
decreasing_by
  · simp
  · have := Lexeme.length_le_of_next_eq_ok _h
    simp only [List.length_cons]
    omega

/-- The lexemes of a written pattern. -/
def ofString (source : String) : Lexed :=
  ofChars 0 source.toList

end Lexed

end Tagging
