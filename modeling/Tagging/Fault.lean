import Tagging.Pattern
import Tagging.Pattern.ReadError

/-!
# Faults

Everything that can go wrong goes wrong while patterns, rules and sets of rules are built. Searching a
text never fails: that nothing is found is an ordinary answer.
-/

namespace Tagging

/-- Why a pattern, a rule or a set of rules cannot be built. -/
inductive Fault where
  /-- The pattern cannot be read. The line is known when it stands in a list of rules. -/
  | unreadable (line : Option Nat) (error : ReadError)
  /-- The line has no equals sign. -/
  | missingAssignment (line : Nat)
  /-- What stands before the equals sign is no name. -/
  | invalidRuleHead (head : String) (line : Nat)
  /-- Two rules have one name. -/
  | duplicateRule (head : String)
  /-- A rule looks up a name that no rule has. -/
  | unresolvedLookup (rule target : String)
  /-- A rule looks itself up. -/
  | selfLookup (rule : String)
  /-- Following lookups leads back to where it started. -/
  | lookupCycle (path : List String)
  /-- Two neighbouring terms of a phrase are wildcards. -/
  | adjacentWildcards (negated : Bool) (terms : List Term)
  /-- This part of a pattern cannot be searched for. -/
  | malformedOperand (operand : Pattern)
  /-- A phrase has no terms. -/
  | emptyPhrase
  /-- Nothing is left of a word. -/
  | emptyWord (word : String)
  /-- A rule is filed under a name that is not its own. -/
  | misfiledRule (key head : String)
deriving DecidableEq, Repr

namespace Fault

/-- The wording of a fault. -/
def message : Fault → String
  | .unreadable none error =>
    error.cause.message ++ " at byte " ++ toString error.position
  | .unreadable (some line) error =>
    "line " ++ toString line ++ ": " ++ error.cause.message ++ " at byte " ++
      toString error.position
  | .missingAssignment line =>
    "line " ++ toString line ++ ": the rule does not assign a rule name (rule_name = ...)"
  | .invalidRuleHead head line =>
    "line " ++ toString line ++ ": invalid rule name '" ++ head ++ "'"
  | .duplicateRule head => "there are multiple definitions of rule '" ++ head ++ "'"
  | .unresolvedLookup rule target =>
    "rule '" ++ rule ++ "' contains a lookup to a rule that is not defined: #" ++ target
  | .selfLookup rule =>
    "rule '" ++ rule ++ "' contains a lookup to itself; no recursion allowed"
  | .lookupCycle path => "rules form a lookup cycle: " ++ " -> ".intercalate path
  | .adjacentWildcards negated terms =>
    "pattern contains multiple wildcards next to each other: " ++ (if negated then "-" else "") ++
      "_".intercalate (terms.map Term.key)
  | .malformedOperand operand => "unexpected node in CNF expression: " ++ operand.render
  | .emptyPhrase => "unexpected node in CNF expression: empty token sequence"
  | .emptyWord word => "pattern word '" ++ word ++ "' is empty after normalization"
  | .misfiledRule key head => "rule '" ++ head ++ "' is stored under the key '" ++ key ++ "'"

end Fault

end Tagging
