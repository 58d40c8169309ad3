import Tagging.Pattern
import Tagging.Pattern.Lexing

/-!
# Reading patterns

Adjacency binds closer than conjunction, and conjunction closer than disjunction; all three group to
the left. Negation applies to the operand right after it.

The reader takes the lexemes one by one and keeps what is already complete: inside each pair of open
parentheses at most one unfinished disjunction, one unfinished conjunction in it and one unfinished
phrase in that, with the negations that wait for the next operand. A stack holds the same for the
parentheses around.
-/

namespace Tagging

/-- What has been read inside one pair of parentheses, in front of the operand to come. -/
structure Pending where
  /-- The alternatives before the current one. -/
  alternatives : Option Pattern := none
  /-- The conditions before the current one, inside the current alternative. -/
  conditions : Option Pattern := none
  /-- The parts before the current one, inside the current phrase. -/
  parts : Option Pattern := none
  /-- How many negations wait for the operand. -/
  negations : Nat := 0
deriving DecidableEq, Repr

namespace Pending

/-- Adds `x` behind what has been read at one level. -/
def attach (combine : Pattern → Pattern → Pattern) : Option Pattern → Pattern → Pattern
  | none, x => x
  | some left, x => combine left x

/-- The pattern under `n` negations. -/
def negate : Nat → Pattern → Pattern
  | 0, x => x
  | n + 1, x => .not (negate n x)

/-- The phrase that ends with the operand `x`. -/
def phrase (pending : Pending) (x : Pattern) : Pattern :=
  attach .join pending.parts (negate pending.negations x)

/-- The conjunction that ends with the operand `x`. -/
def conjunction (pending : Pending) (x : Pattern) : Pattern :=
  attach .and pending.conditions (pending.phrase x)

/-- The disjunction that ends with the operand `x`. -/
def disjunction (pending : Pending) (x : Pattern) : Pattern :=
  attach .or pending.alternatives (pending.conjunction x)

/-- One more negation waits for the operand. -/
def afterNot (pending : Pending) : Pending :=
  { pending with negations := pending.negations + 1 }

/-- The phrase goes on behind the operand `x`. -/
def afterJoin (pending : Pending) (x : Pattern) : Pending :=
  { pending with parts := some (pending.phrase x), negations := 0 }

/-- The conjunction goes on behind the operand `x`. -/
def afterAnd (pending : Pending) (x : Pattern) : Pending :=
  { alternatives := pending.alternatives, conditions := some (pending.conjunction x) }

/-- The disjunction goes on behind the operand `x`. -/
def afterOr (pending : Pending) (x : Pattern) : Pending :=
  { alternatives := some (pending.disjunction x) }

end Pending

/-- What the reader has to find next. -/
inductive Expected where
  /-- An operand. -/
  | operand
  /-- The name that a lookup sign announces. -/
  | ruleName
  /-- An operator, a closing parenthesis or the end, behind this operand. -/
  | operator (operand : Pattern)
deriving DecidableEq, Repr

/-- The state of the reader between two lexemes. -/
structure Reader where
  /-- The open parentheses, innermost first: where each stands, and what was read before it. -/
  stack : List (Nat × Pending) := []
  /-- What has been read inside the innermost open parenthesis. -/
  pending : Pending := {}
  /-- What has to come next. -/
  expected : Expected := .operand
deriving DecidableEq, Repr

namespace Reader

/-- Takes a lexeme where an operand has to stand. -/
def readOperand (reader : Reader) (position : Nat) : Lexeme → Except ReadError Reader
  | .word w | .quoted w => .ok { reader with expected := .operator (.word w) }
  | .exactWord w => .ok { reader with expected := .operator (.exactWord w) }
  | .wildcard w => .ok { reader with expected := .operator (.wildcard w) }
  | .not => .ok { reader with pending := reader.pending.afterNot }
  | .lookup => .ok { reader with expected := .ruleName }
  | .leftParen => .ok { stack := (position, reader.pending) :: reader.stack }
  | found => .error ⟨.operandExpected found, position⟩

/-- Takes a lexeme where the name of a rule has to stand. -/
def readRuleName (reader : Reader) (position : Nat) : Lexeme → Except ReadError Reader
  | .word w => .ok { reader with expected := .operator (.lookup w) }
  | _ => .error ⟨.ruleNameExpected, position⟩

/-- Takes a lexeme behind the operand `x`. Inside parentheses every lexeme that does not continue the
pattern is reported as a parenthesis left open. -/
def readOperator (reader : Reader) (x : Pattern) (position : Nat) :
    Lexeme → Except ReadError Reader
  | .join => .ok { reader with pending := reader.pending.afterJoin x, expected := .operand }
  | .and => .ok { reader with pending := reader.pending.afterAnd x, expected := .operand }
  | .or => .ok { reader with pending := reader.pending.afterOr x, expected := .operand }
  | found =>
    match reader.stack, found with
    | (_, outer) :: stack, .rightParen =>
      .ok { stack, pending := outer, expected := .operator (reader.pending.disjunction x) }
    | (opened, _) :: _, _ => .error ⟨.unclosedParenthesis, opened⟩
    | [], found => .error ⟨.operatorExpected found, position⟩

/-- Takes the next lexeme. -/
def read (reader : Reader) (next : Located) : Except ReadError Reader :=
  match reader.expected with
  | .operand => reader.readOperand next.position next.lexeme
  | .ruleName => reader.readRuleName next.position next.lexeme
  | .operator x => reader.readOperator x next.position next.lexeme

/-- The pattern that has been read, when the text ends at byte `position`. -/
def finish (reader : Reader) (position : Nat) : Except ReadError Pattern :=
  match reader.expected, reader.stack with
  | .operand, _ => .error ⟨.missingOperand, position⟩
  | .ruleName, _ => .error ⟨.ruleNameExpected, position⟩
  | .operator _, (opened, _) :: _ => .error ⟨.unclosedParenthesis, opened⟩
  | .operator x, [] => .ok (reader.pending.disjunction x)

end Reader

/-- The pattern that the lexemes stand for. An error met among the lexemes comes before the fault that
closes their list. -/
def Lexed.toPattern (lexed : Lexed) : Except ReadError Pattern := do
  let reader ← lexed.lexemes.foldlM Reader.read {}
  reader.finish (← lexed.ending)

/-- Reads a written pattern. -/
def Pattern.ofString (source : String) : Except ReadError Pattern :=
  (Lexed.ofString source).toPattern

end Tagging
