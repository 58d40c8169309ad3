import Tagging.Options
import Tagging.RuleSet
import Tagging.Unicode.Alphanumeric

/-!
# Sources of rules

A source gives one rule a line: its name, an equals sign and its pattern. White space around these does
not count. Empty lines and lines that start with two slashes are left out, but they are counted, since
faults name the line where they stand.
-/

namespace Tagging

/-- The fault, which stands in that line if it is one of reading. -/
def Fault.inLine (line : Nat) : Fault → Fault
  | .unreadable none error => .unreadable (some line) error
  | fault => fault

namespace Rule

/-- Whether a rule can have this name: letters and digits, at least one. -/
def isName (name : List Char) : Bool :=
  !name.isEmpty && name.all Unicode.isAlphanumeric

/-- The rule in line number `number`, without white space at its ends. -/
def ofTrimmed (options : Options) (number : Nat) (line : List Char) : Except Fault Rule :=
  match Text.splitOnce? '=' line with
  | none => .error (.missingAssignment number)
  | some (head, body) =>
    let head := Text.trim head
    if isName head then
      match options.compile (String.ofList (Text.trim body)) with
      | .error fault => .error (fault.inLine number)
      | .ok cnf => .ok ⟨String.ofList head, cnf⟩
    else .error (.invalidRuleHead (String.ofList head) number)

/-- The rule of a line that stands alone. -/
def ofLine (options : Options) (line : String) : Except Fault Rule :=
  ofTrimmed options 1 (Text.trim line.toList)

end Rule

namespace RuleSet

/-- Whether a line, without white space at its ends, gives no rule. -/
def isSkipped : List Char → Bool
  | [] => true
  | '/' :: '/' :: _ => true
  | _ => false

/-- The lines that give a rule, without white space at their ends, and their numbers. -/
def ruleLines (source : String) : List (Nat × List Char) :=
  ((Text.lines source.toList).mapIdx fun index line => (index + 1, Text.trim line)).filter
    fun (_, line) => !isSkipped line

/-- The rules of a source. -/
def readRules (options : Options) (source : String) : Except Fault (List Rule) :=
  (ruleLines source).mapM fun (number, line) => Rule.ofTrimmed options number line

/-- The set of the rules of a source. -/
def ofSource (options : Options) (source : String) : Except Fault RuleSet := do
  ofRules (← readRules options source)

end RuleSet

end Tagging
