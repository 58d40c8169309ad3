import Tagging.Token

/-!
# Terms

A term is one element of a phrase: a word that has to occur, or a wildcard. A word is compared with a
token either in its normalized form or exactly as it is written. Wildcards have no kind of their own:
an exact term whose word is one of the three wildcard signs is that wildcard.
-/

namespace Tagging

/-- The wildcards that may stand in a phrase. -/
inductive Wildcard where
  /-- Stands for exactly one token. -/
  | one
  /-- Stands for one or more tokens. -/
  | plus
  /-- Stands for any number of tokens, even none. -/
  | star
deriving DecidableEq, Repr

namespace Wildcard

/-- The sign of a wildcard. -/
def symbol : Wildcard → String
  | .one => "?"
  | .plus => "+"
  | .star => "*"

/-- The wildcard of that sign, if it is one. -/
def ofSymbol? (sign : String) : Option Wildcard :=
  if sign = "?" then some .one
  else if sign = "+" then some .plus
  else if sign = "*" then some .star
  else none

end Wildcard

/-- The two forms of a word that can be compared. -/
inductive Form where
  /-- The word as it is written. -/
  | written
  /-- The word as a normalizer leaves it. -/
  | normalized
deriving DecidableEq, Repr, Ord

/-- One element of a phrase. -/
structure Term where
  /-- The word as it is written in the pattern. -/
  word : String
  /-- The form of the word that a normalizer gives it. -/
  normalized : String := word
  /-- Which form is compared with the text. -/
  form : Form := .normalized
deriving DecidableEq, Repr, Inhabited

namespace Term

/-- A term that is compared as it is written. -/
def exactly (word : String) : Term := { word, form := .written }

/-- The term that stands for a wildcard. -/
def ofWildcard (wildcard : Wildcard) : Term := exactly wildcard.symbol

/-- The form of the word that is compared, which is also how the term is shown. -/
def key (term : Term) : String :=
  match term.form with
  | .written => term.word
  | .normalized => term.normalized

/-- The wildcard that the term stands for, if it does. -/
def wildcard? (term : Term) : Option Wildcard :=
  match term.form with
  | .written => Wildcard.ofSymbol? term.word
  | .normalized => none

/-- Whether the term stands for a wildcard. -/
def isWildcard (term : Term) : Bool :=
  term.wildcard?.isSome

/-- Whether two terms ask for the same: the same form of the same key. The form that is not compared
does not count. -/
def same (a b : Term) : Bool :=
  decide (a.form = b.form) && a.key == b.key

/-- Whether a token satisfies the term. The wildcard for one token is satisfied by every token. -/
def accepts (term : Term) (token : Token) : Bool :=
  if term.wildcard? = some .one then true
  else
    match term.form with
    | .written => token.word == term.word
    | .normalized => token.normalized == term.normalized

end Term

end Tagging
