import Tagging.Span

/-!
# Tokens

A token is a word-like piece of a text. It keeps the word as it is written, the form that a normalizer
gives it, and its place in the text.
-/

namespace Tagging

/-- A word-like piece of a text. -/
structure Token where
  /-- The word as it is written. -/
  word : String
  /-- The form of the word that patterns are usually compared with. -/
  normalized : String := word
  /-- The number of tokens before this one. -/
  position : Nat := 0
  /-- The bytes of the text that the token was cut from. -/
  bytes : Span := ⟨0, 0⟩
deriving DecidableEq, Repr, Inhabited

end Tagging
