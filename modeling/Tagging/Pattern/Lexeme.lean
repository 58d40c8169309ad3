import Tagging.Term

/-!
# Lexemes

The smallest parts of a written pattern: words, quoted words, wildcards, operators and parentheses.
An operator has one lexeme, whichever of its two spellings is used.
-/

namespace Tagging

/-- The smallest parts of a written pattern. -/
inductive Lexeme where
  /-- A word without quotes. -/
  | word (word : String)
  /-- A word in single quotes. -/
  | quoted (word : String)
  /-- A word in double quotes, to be compared as it is written. -/
  | exactWord (word : String)
  /-- A wildcard sign. -/
  | wildcard (wildcard : Wildcard)
  /-- The sign of negation, `-` or `NOT`. -/
  | not
  /-- The sign in front of the name of a rule, `#` or `LOOKUP`. -/
  | lookup
  /-- The sign of conjunction, `&` or `AND`. -/
  | and
  /-- The sign of disjunction, `|` or `OR`. -/
  | or
  /-- The sign between neighbouring words, `_`. -/
  | join
  /-- An opening parenthesis. -/
  | leftParen
  /-- A closing parenthesis. -/
  | rightParen
deriving DecidableEq, Repr

namespace Lexeme

/-- How a lexeme is named where it is not expected. -/
def describe : Lexeme → String
  | .word w => "word '" ++ w ++ "'"
  | .quoted w => "'" ++ w ++ "'"
  | .exactWord w => "\"" ++ w ++ "\""
  | .wildcard w => "'" ++ w.symbol ++ "'"
  | .not => "'-'"
  | .lookup => "'#'"
  | .and => "'&'"
  | .or => "'|'"
  | .join => "'_'"
  | .leftParen => "'('"
  | .rightParen => "')'"

/-- The lexeme of a sign that stands for itself. -/
def ofSign? (c : Char) : Option Lexeme :=
  if c = '(' then some .leftParen
  else if c = ')' then some .rightParen
  else if c = '&' then some .and
  else if c = '|' then some .or
  else if c = '_' then some .join
  else if c = '-' then some .not
  else if c = '#' then some .lookup
  else if c = '?' then some (.wildcard .one)
  else if c = '+' then some (.wildcard .plus)
  else if c = '*' then some (.wildcard .star)
  else none

/-- The lexeme of a whole word: an operator for one of the four keywords, which are written in
capitals, and a word otherwise. -/
def ofWord (word : String) : Lexeme :=
  if word = "AND" then .and
  else if word = "OR" then .or
  else if word = "NOT" then .not
  else if word = "LOOKUP" then .lookup
  else .word word

end Lexeme

end Tagging
