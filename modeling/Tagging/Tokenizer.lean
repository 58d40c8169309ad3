import Tagging.Normalizer
import Tagging.Text.Bytes
import Tagging.Token

/-!
# Tokenizers

A tokenizer cuts a text into tokens and leaves out what stands between them. It is given by what it
takes from the front of a text: as long as that is nothing, it moves on by one character.

## What is a token

* `matching` takes words, numbers and tags. A word is a run of letters, combining marks and
  apostrophes that starts with a letter and ends with a letter or with marks after one. A number is a
  run of digits with an optional sign in front, and points and commas after the first digit. A tag is a
  run of `#` and `@`, and then a run of plain letters, digits, `_` and `-`.
* `splitting` takes what stands between blanks, line breaks and punctuation.
* `whitespace` takes what stands between white space.
-/

namespace Tagging

/-- How a text is cut into tokens. -/
inductive Tokenizer where
  /-- Takes words, numbers and tags. -/
  | matching
  /-- Takes what stands between separators. -/
  | splitting
  /-- Takes what stands between white space. -/
  | whitespace
deriving DecidableEq, Repr, Inhabited

namespace Tokenizer

/-- The name by which a tokenizer is chosen and shown. -/
def name : Tokenizer → String
  | .matching => "matching"
  | .splitting => "splitting"
  | .whitespace => "whitespace"

/-- The tokenizer of that name, if there is one. -/
def ofName? (name : String) : Option Tokenizer :=
  if name = "matching" then some .matching
  else if name = "splitting" then some .splitting
  else if name = "whitespace" then some .whitespace
  else none

/-! ## Numbers, tags and words -/

/-- Whether a character may stand in a number behind its first digit. -/
def inNumber (c : Char) : Bool := c.isDigit || c = '.' || c = ','

/-- The number without a sign at the front of a text. -/
def digits : List Char → List Char
  | [] => []
  | c :: text => if c.isDigit then c :: text.takeWhile inNumber else []

/-- The number at the front of a text. -/
def number : List Char → List Char
  | [] => []
  | c :: text =>
    if c = '-' ∨ c = '+' then
      match digits text with
      | [] => []
      | found => c :: found
    else digits (c :: text)

/-- Whether a character opens a tag. -/
def opensTag (c : Char) : Bool := c = '#' || c = '@'

/-- Whether a character may stand in the name of a tag. -/
def inTag (c : Char) : Bool := c.isAlphanum || c = '_' || c = '-'

/-- The tag at the front of a text. -/
def tag (text : List Char) : List Char :=
  let signs := text.takeWhile opensTag
  let word := (text.dropWhile opensTag).takeWhile inTag
  if signs.isEmpty || word.isEmpty then [] else signs ++ word

/-- Whether a character may stand in a word. -/
def inWord (c : Char) : Bool := Unicode.isLetter c || Unicode.isMark c || c = '\''

/-- The run up to its last letter and the marks right behind that. -/
def closeWord (run : List Char) : List Char :=
  let core := (run.reverse.dropWhile (!Unicode.isLetter ·)).reverse
  core ++ (run.drop core.length).takeWhile Unicode.isMark

/-- The word at the front of a text. -/
def word : List Char → List Char
  | [] => []
  | c :: text =>
    if Unicode.isLetter c then closeWord (c :: text.takeWhile inWord) else []

/-! ## Cutting a text -/

/-- Whether a character separates tokens for `splitting`. -/
def separates (c : Char) : Bool :=
  " \t\n\r\x0c,.:;?![]()\x7b\x7d&|/<=>".toList.contains c

/-- What stands at the front of a text that is a token. At most one of a number, a tag and a word can
stand there, for they start with different characters. -/
def front : Tokenizer → List Char → List Char
  | .matching, text => number text ++ tag text ++ word text
  | .splitting, text => text.takeWhile (!separates ·)
  | .whitespace, text => text.takeWhile (!Unicode.isWhiteSpace ·)

/-- The pieces that `front` takes from a text, with the byte offsets where they start. -/
def cut (front : List Char → List Char) (offset : Nat) : List Char → List (Nat × List Char)
  | [] => []
  | c :: text =>
    match front (c :: text) with
    | [] => cut front (offset + c.utf8Size) text
    | first :: piece =>
      (offset, first :: piece) ::
        cut front (offset + Text.byteLength (first :: piece)) (text.drop piece.length)
termination_by text => text.length
decreasing_by
  · simp
  · simp only [List.length_drop, List.length_cons]
    omega

/-- The token of a piece of a text. -/
def toToken (normalizer : Normalizer) (position offset : Nat) (piece : List Char) : Token where
  word := String.ofList piece
  normalized := String.ofList (normalizer.normalizeChars piece)
  position := position
  bytes := ⟨offset, offset + Text.byteLength piece⟩

/-- The tokens of a text, their words brought to the form of the normalizer. -/
def tokenize (tokenizer : Tokenizer) (normalizer : Normalizer) (text : String) : List Token :=
  (cut tokenizer.front 0 text.toList).mapIdx fun position (offset, piece) =>
    toToken normalizer position offset piece

end Tokenizer

end Tagging
