import Tagging.CommandLine.Arguments
import Tagging.CommandLine.Report
import Tagging.RuleSet.Source

/-!
# The command line

The program reads its arguments, compiles the rules, labels the text and writes a report. Everything
that it needs from outside is asked of a host: the contents of files, the standard input, and the time.
So what it answers is a function of what the host answers.
-/

namespace Tagging.CommandLine

/-- What the program asks of the outside. -/
structure Host (m : Type → Type) where
  /-- The bytes of a file, or why it cannot be read. -/
  file : String → m (Except String ByteArray)
  /-- The bytes of the standard input, or why it cannot be read. -/
  input : m (Except String ByteArray)
  /-- The time in nanoseconds. -/
  clock : m Nat
  /-- Whether the standard output is a terminal. -/
  isTerminal : m Bool

/-- How the program ends. -/
structure Response where
  /-- The exit code: 0 for success, 1 for faulty rules, 2 for faulty arguments. -/
  exit : Nat
  /-- What is written to the standard output. -/
  output : String := ""
  /-- What is written to the standard error. -/
  errors : String := ""
deriving DecidableEq, Repr

/-- Why there are no rules. -/
inductive SourceError where
  /-- The file cannot be read. -/
  | unreadable (cause : String)
  /-- The rules are faulty. -/
  | faulty (fault : Fault)
deriving DecidableEq, Repr

namespace SourceError

/-- The wording of an error. -/
def message : SourceError → String
  | .unreadable cause => "error: " ++ cause
  | .faulty fault => "error: " ++ fault.message

end SourceError

/-- The text of bytes in UTF-8. -/
def decode (bytes : ByteArray) : Except String String :=
  match String.fromUTF8? bytes with
  | some text => .ok text
  | none => .error "stream did not contain valid UTF-8"

variable {m : Type → Type} [Monad m]

/-- The rules of a source. -/
def loadRules (host : Host m) (options : Options) : Source → m (Except SourceError RuleSet)
  | .file path => do
    match (← host.file path) >>= decode with
    | .error cause => return .error (.unreadable cause)
    | .ok source => return (RuleSet.ofSource options source).mapError .faulty
  | .expression source =>
    return (do RuleSet.ofRules [⟨expressionLabel, ← options.compile source⟩]).mapError .faulty

/-- The text to be labelled: that of the arguments, or else the standard input. -/
def loadInput (host : Host m) : Option String → m (Except UsageError String)
  | some text => return if isBlank text then .error .missingInput else .ok text
  | none => do
    match (← host.input) >>= decode with
    | .error cause => return .error (.unreadableInput cause)
    | .ok text => return if isBlank text then .error .missingInput else .ok text

/-- Evaluates the rules on the text. -/
def evaluate (host : Host m) (settings : Settings) (set : RuleSet) (text : String) :
    m Evaluation := do
  let start ← host.clock
  let tokens := settings.options.tokenize text
  let cut ← host.clock
  if settings.parallel then
    let found := set.evaluateTogether (set.turns set.size) tokens
    return ⟨text, tokens, found, cut - start, (← host.clock) - start, none⟩
  else
    let (found, metrics) ← set.evaluateMetered host.clock tokens
    return ⟨text, tokens, found, cut - start, (← host.clock) - start, some metrics⟩

/-- The log of the work, if it is asked for. -/
def log (settings : Settings) (set : RuleSet) (evaluation : Evaluation) : String :=
  if settings.debug then
    "debug: rules=" ++ toString set.size ++ " tokens=" ++ toString evaluation.tokens.length ++
      " found=" ++ toString evaluation.found.entries.length ++ "\n"
  else ""

/-- Labels a text as the settings say. -/
def label (host : Host m) (settings : Settings) : m Response := do
  match settings.source with
  | none => return { exit := 2, errors := UsageError.missingSource.message ++ "\n" }
  | some source =>
    match ← loadInput host settings.input with
    | .error error => return { exit := 2, errors := error.message ++ "\n" }
    | .ok text =>
      match ← loadRules host settings.options source with
      | .error error => return { exit := 1, errors := error.message ++ "\n" }
      | .ok set =>
        let evaluation ← evaluate host settings set text
        let style : Style :=
          ⟨⟨settings.color⟩, settings.highlight, settings.dialect, settings.options⟩
        return { exit := 0, output := style.report set evaluation,
                 errors := log settings set evaluation }

/-- Runs the program with these arguments. -/
def run (host : Host m) (arguments : List String) : m Response := do
  match ({ color := ← host.isTerminal } : Settings).read arguments with
  | .error error => return { exit := 2, errors := error.message ++ "\n" }
  | .ok .help => return { exit := 0, output := help ++ "\n" }
  | .ok .version => return { exit := 0, output := version ++ "\n" }
  | .ok (.label settings) => label host settings

end Tagging.CommandLine
