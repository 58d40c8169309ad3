import Tagging.CommandLine.Help
import Tagging.Options
import Tagging.Query

/-!
# Arguments

Arguments are read from left to right. Switches stand alone, and other options are followed by their
value, or carry it behind an equals sign if their name is a long one. The first argument that is no
option starts the text, which takes all arguments that are left, and so does everything behind `--`.
A lone `-` is text.
-/

namespace Tagging.CommandLine

/-- Where the rules come from. -/
inductive Source where
  /-- From a file of rules. -/
  | file (path : String)
  /-- From a single pattern. -/
  | expression (text : String)
deriving DecidableEq, Repr

/-- What the arguments ask for. -/
structure Settings where
  /-- The text, if it is among the arguments. -/
  input : Option String := none
  /-- Where the rules come from, if it is said. -/
  source : Option Source := none
  /-- How texts and patterns are made ready. -/
  options : Options := {}
  /-- Whether the rules are evaluated together. -/
  parallel : Bool := false
  /-- Whether the highlighted text is shown. -/
  highlight : Bool := false
  /-- The dialect in which the rules are shown as queries. -/
  dialect : Option Dialect := none
  /-- Whether colours are used. -/
  color : Bool := false
  /-- Whether the steps of the work are logged. -/
  debug : Bool := false
deriving DecidableEq, Repr

/-- What is to be done. -/
inductive Request where
  /-- The help is shown. -/
  | help
  /-- The version is shown. -/
  | version
  /-- A text is labelled. -/
  | label (settings : Settings)
deriving DecidableEq, Repr

/-- Why nothing can be done. -/
inductive UsageError where
  /-- The value of an option is missing. -/
  | missingValue (option : String)
  /-- It is said twice where the rules come from. -/
  | severalSources
  /-- There is no tokenizer of that name. -/
  | unknownTokenizer (name : String)
  /-- There is no normalizer of that name. -/
  | unknownNormalizer (name : String)
  /-- There is no dialect of that name. -/
  | unknownDialect (name : String)
  /-- There is no such option. -/
  | unknownOption (argument : String)
  /-- It is not said where the rules come from. -/
  | missingSource
  /-- The standard input cannot be read. -/
  | unreadableInput (cause : String)
  /-- There is no text. -/
  | missingInput
deriving DecidableEq, Repr

namespace UsageError

/-- The wording of an error. -/
def message : UsageError → String
  | .missingValue option => "error: " ++ option ++ " expects a value"
  | .severalSources => "error: --rules and --expr are mutually exclusive and may be given once"
  | .unknownTokenizer name =>
    "error: invalid --tokenizer '" ++ name ++ "' (expected matching, splitting or whitespace)"
  | .unknownNormalizer name =>
    "error: invalid --normalizer '" ++ name ++ "' (expected default, lower or none)"
  | .unknownDialect name =>
    "error: invalid --query '" ++ name ++ "' (expected default, lucene or postgres)"
  | .unknownOption argument => "error: unknown option '" ++ argument ++ "'"
  | .missingSource => "error: one of --rules or --expr is required\n\n" ++ help
  | .unreadableInput cause => "error: failed to read stdin: " ++ cause
  | .missingInput => "error: no input provided\n\n" ++ help

end UsageError

/-! ## Options -/

/-- An option that stands alone. -/
inductive Switch where
  /-- Shows the help. -/
  | help
  /-- Shows the version. -/
  | version
  /-- Uses colours, or does not. -/
  | color (on : Bool)
  /-- Logs the steps of the work. -/
  | debug
  /-- Evaluates the rules together. -/
  | parallel
  /-- Shows the highlighted text. -/
  | highlight
  /-- Leaves clausal forms as they are. -/
  | noSimplify
deriving DecidableEq, Repr

/-- An option with a value. -/
inductive Valued where
  /-- A file of rules. -/
  | rules
  /-- A single pattern. -/
  | expression
  /-- How texts are cut. -/
  | tokenizer
  /-- How words are compared. -/
  | normalizer
  /-- The dialect of queries. -/
  | query
deriving DecidableEq, Repr

/-- The switch of that name, if it is one. -/
def switch? (name : String) : Option Switch :=
  [("-h", .help), ("--help", .help), ("-V", .version), ("--version", .version),
    ("--color", .color true), ("--no-color", .color false), ("--debug", .debug),
    ("--parallel", .parallel), ("--highlight", .highlight),
    ("--no-simplify", .noSimplify)].lookup name

/-- The option with a value of that name, if it is one. -/
def valued? (name : String) : Option Valued :=
  [("-r", .rules), ("--rules", .rules), ("-e", .expression), ("--expr", .expression),
    ("--tokenizer", .tokenizer), ("--normalizer", .normalizer), ("--query", .query)].lookup name

/-- The name of an option, and the value behind its equals sign. Only names that start with two signs
can have one. -/
def splitOption (argument : String) : String × Option String :=
  match Text.splitOnce? '=' argument.toList with
  | some ('-' :: '-' :: name, value) =>
    (String.ofList ('-' :: '-' :: name), some (String.ofList value))
  | _ => (argument, none)

/-- Whether an argument that is no option looks like one. -/
def looksLikeOption (argument : String) : Bool :=
  match argument.toList with
  | '-' :: _ :: _ => true
  | _ => false

/-- Whether nothing but white space is in a text. -/
def isBlank (text : String) : Bool := (Text.trim text.toList).isEmpty

namespace Settings

/-- Says where the rules come from, which can be said only once. -/
def setSource (settings : Settings) (source : Source) : Except UsageError Settings :=
  match settings.source with
  | some _ => .error .severalSources
  | none => .ok { settings with source := some source }

/-- The settings with a value given to an option. -/
def setValue (settings : Settings) (option : Valued) (value : String) :
    Except UsageError Settings :=
  match option with
  | .rules => settings.setSource (.file value)
  | .expression => settings.setSource (.expression value)
  | .tokenizer =>
    match Tokenizer.ofName? value with
    | some tokenizer => .ok { settings with options := { settings.options with tokenizer } }
    | none => .error (.unknownTokenizer value)
  | .normalizer =>
    match Normalizer.ofName? value with
    | some normalizer => .ok { settings with options := { settings.options with normalizer } }
    | none => .error (.unknownNormalizer value)
  | .query =>
    match Dialect.ofName? value with
    | some dialect => .ok { settings with dialect := some dialect }
    | none => .error (.unknownDialect value)

/-- What a switch asks for. -/
def turnOn (settings : Settings) : Switch → Request
  | .help => .help
  | .version => .version
  | .color on => .label { settings with color := on }
  | .debug => .label { settings with debug := true }
  | .parallel => .label { settings with parallel := true }
  | .highlight => .label { settings with highlight := true }
  | .noSimplify =>
    .label { settings with options := { settings.options with simplify := false } }

/-- What the arguments ask for, beyond what is set already. -/
def read (settings : Settings) : List String → Except UsageError Request
  | [] => .ok (.label settings)
  | argument :: rest =>
    let (name, value) := splitOption argument
    match switch? name, valued? name with
    | some switch, _ =>
      match settings.turnOn switch with
      | .label settings => settings.read rest
      | request => .ok request
    | none, some option =>
      match value, rest with
      | some value, rest => do (← settings.setValue option value).read rest
      | none, value :: rest => do (← settings.setValue option value).read rest
      | none, [] => .error (.missingValue name)
    | none, none =>
      if name = "--" then
        let text := " ".intercalate rest
        .ok (.label (if isBlank text then settings else { settings with input := some text }))
      else if looksLikeOption argument then .error (.unknownOption argument)
      else .ok (.label { settings with input := some (" ".intercalate (argument :: rest)) })

end Settings

end Tagging.CommandLine
