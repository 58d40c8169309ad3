import Tagging.Pattern.Lexeme

/-!
# Errors of reading

Why a written pattern cannot be read, and where.
-/

namespace Tagging

namespace ReadError

/-- Why a written pattern cannot be read. -/
inductive Cause where
  /-- A quoted word does not end. -/
  | unterminatedQuote (quote : Char)
  /-- No lexeme starts with this character. -/
  | unexpectedCharacter (c : Char)
  /-- The pattern ends where an operand has to stand. -/
  | missingOperand
  /-- This lexeme stands where an operand has to stand. -/
  | operandExpected (found : Lexeme)
  /-- This lexeme stands where the pattern could only go on with an operator. -/
  | operatorExpected (found : Lexeme)
  /-- An opened parenthesis is not closed after a complete operand. -/
  | unclosedParenthesis
  /-- The sign of a lookup is not followed by a name. -/
  | ruleNameExpected
deriving DecidableEq, Repr

/-- The wording of a cause. -/
def Cause.message : Cause → String
  | .unterminatedQuote quote => "unterminated " ++ quote.toString ++ "-quoted string"
  | .unexpectedCharacter c => "unexpected character '" ++ c.toString ++ "'"
  | .missingOperand => "expected a pattern"
  | .operandExpected found => "expected a pattern but found " ++ found.describe
  | .operatorExpected found => "expected an operator but found " ++ found.describe
  | .unclosedParenthesis => "missing ')'"
  | .ruleNameExpected => "expected a rule name after '#'"

end ReadError

/-- Why, and from which byte of the pattern on, a written pattern cannot be read. -/
structure ReadError where
  /-- Why the pattern cannot be read. -/
  cause : ReadError.Cause
  /-- The byte offset of the offending part. -/
  position : Nat
deriving DecidableEq, Repr

end Tagging
