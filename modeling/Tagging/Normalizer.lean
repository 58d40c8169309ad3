import Tagging.Normalizer.Accent
import Tagging.Normalizer.Bracket
import Tagging.Text.Line
import Tagging.Unicode.Letter
import Tagging.Unicode.LowerCase

/-!
# Normalizers

A normalizer brings a word to the form in which it is compared. It is a list of steps, each a
transformation of the text that the steps before it have left. Text and patterns have to be brought to
their form by the same normalizer, or equal words will not compare equal.
-/

namespace Tagging

/-- One transformation of a word. -/
inductive Step where
  /-- Leaves out white space at both ends. -/
  | trim
  /-- Writes everything in lower case. -/
  | lowercase
  /-- Keeps letters, combining marks and the digits from 0 to 9 only. -/
  | lettersAndDigits
  /-- Leaves out bracketed groups. -/
  | withoutBrackets
  /-- Replaces accented letters by their base letters and leaves out nonspacing marks. -/
  | withoutAccents
deriving DecidableEq, Repr

namespace Step

/-- Whether a character survives `Step.lettersAndDigits`. -/
def keeps (c : Char) : Bool :=
  Unicode.isLetter c || Unicode.isMark c || c.isDigit

/-- The text that a step makes of `text`. -/
def apply : Step → List Char → List Char
  | .trim, text => Text.trim text
  | .lowercase, text => Unicode.lowercase text
  | .lettersAndDigits, text => text.filter keeps
  | .withoutBrackets, text => Bracket.drop text
  | .withoutAccents, text => Accent.drop text

/-- The name by which a step is chosen and shown. -/
def name : Step → String
  | .trim => "trim"
  | .lowercase => "lower"
  | .lettersAndDigits => "alpha-num"
  | .withoutBrackets => "no-brackets"
  | .withoutAccents => "no-accents"

end Step

/-- A pipeline of steps. -/
structure Normalizer where
  /-- The steps, first one first. -/
  steps : List Step
deriving DecidableEq, Repr

namespace Normalizer

/-- Leaves every word as it is. -/
def identity : Normalizer := ⟨[]⟩

/-- Compares words without regard to case. -/
def lowercase : Normalizer := ⟨[.lowercase]⟩

/-- Compares words without regard to case, accents and punctuation. -/
def standard : Normalizer := ⟨[.trim, .lettersAndDigits, .lowercase, .withoutAccents]⟩

instance : Inhabited Normalizer := ⟨standard⟩

/-- The normalizer of that name, if there is one. -/
def ofName? (name : String) : Option Normalizer :=
  if name = "default" then some standard
  else if name = "lower" then some lowercase
  else if name = "none" ∨ name = "identity" then some identity
  else none

/-- The form of the characters that is compared. -/
def normalizeChars (normalizer : Normalizer) (text : List Char) : List Char :=
  normalizer.steps.foldl (fun text step => step.apply text) text

/-- The form of a word that is compared. -/
def normalize (normalizer : Normalizer) (word : String) : String :=
  String.ofList (normalizer.normalizeChars word.toList)

/-- The names of the steps in their order, and `identity` for a normalizer without steps. -/
def describe (normalizer : Normalizer) : String :=
  if normalizer.steps.isEmpty then "identity"
  else " > ".intercalate (normalizer.steps.map Step.name)

end Normalizer

end Tagging
