import Tagging.CommandLine.Duration
import Tagging.CommandLine.Palette
import Tagging.Highlight
import Tagging.Options
import Tagging.Query
import Tagging.RuleSet.Meter

/-!
# Reports

A report tells what was done: which rules there are, how the text was cut, what was found, and how long
it took.
-/

namespace Tagging.CommandLine

/-- An evaluation of rules on a text. -/
structure Evaluation where
  /-- The text. -/
  text : String
  /-- Its tokens. -/
  tokens : List Token
  /-- What was found. -/
  found : Catalog Match
  /-- How long it took to cut the text, in nanoseconds. -/
  tokenizing : Nat
  /-- How long everything took, in nanoseconds. -/
  elapsed : Nat
  /-- What was read for the rules, if they were evaluated one after the other. -/
  metrics : Option Metrics

/-- What is shown, and how. -/
structure Style where
  /-- Whether colours are used. -/
  palette : Palette
  /-- Whether the highlighted text is shown. -/
  highlight : Bool
  /-- The dialect in which the rules are shown as queries. -/
  dialect : Option Dialect
  /-- How the text was made ready. -/
  options : Options

namespace Style

/-- A part of the report, made to stand out. -/
def paint (style : Style) (color : Paint) (text : String) : String :=
  style.palette.paint color text

/-- A heavy part of the report, in a colour. -/
def paintBold (style : Style) (color : Paint) (text : String) : String :=
  style.paint .bold (style.paint color text)

/-- The title of a section, with the empty line before it. -/
def title (style : Style) (name : String) : List String :=
  ["", style.paint .gray ("━━━ " ++ name ++ " ━━━")]

/-- The lines on a rule. -/
def ruleLines (style : Style) (set : RuleSet) (rule : Rule) : List String :=
  let lookups := set.lookupsOf rule.head
  ["  " ++ style.paintBold .blue rule.head ++ " " ++ style.paint .dim rule.cnf.render] ++
  (if lookups.isEmpty then []
   else ["      " ++ style.paint .dim "looks up:" ++ " " ++
     style.paint .magenta (", ".intercalate lookups)]) ++
  (match style.dialect with
   | none => []
   | some dialect => ["      " ++ style.paint .dim "query:" ++ " " ++
     style.paint .cyan (dialect.write rule.cnf)])

/-- The number of tokens that are shown. -/
def shownTokens : Nat := 24

/-- The lines on the tokens. -/
def tokenLines (style : Style) (tokens : List Token) : List String :=
  let words := " ".intercalate ((tokens.take shownTokens).map Token.normalized)
  let more :=
    if shownTokens < tokens.length then
      " ... +" ++ toString (tokens.length - shownTokens) ++ " more"
    else ""
  ["  " ++ style.paint .dim "count:" ++ " " ++ style.paint .yellow (toString tokens.length) ++
     "  " ++ style.paint .dim "tokenizer:" ++ " " ++
     style.paint .blue style.options.tokenizer.name ++
     "  " ++ style.paint .dim "normalizer:" ++ " " ++
     style.paint .blue style.options.normalizer.describe,
   "  " ++ style.paint .dim (words ++ more)]

/-- The lines on a match. -/
def matchLines (style : Style) (text : String) (index : Nat) (found : Match) : List String :=
  ["  " ++ style.paint .gray ("[" ++ toString index ++ "]") ++ " " ++
     style.paintBold .green found.label ++ " " ++ style.paint .dim "│" ++ " " ++
     style.paint .yellow ("tokens " ++ found.tokens.describe) ++ "  " ++
     style.paint .dim ("bytes " ++ found.bytes.describe)] ++
  (match found.body? text with
   | none => []
   | some body => ["      " ++ style.paint .dim "body:" ++ " " ++
     style.paint .cyan ("\"" ++ body ++ "\"")])

/-- The lines on what was found. -/
def resultLines (style : Style) (evaluation : Evaluation) : List String :=
  if evaluation.found.isEmpty then
    [style.paint .dim "  No rule matched",
     "",
     style.paint .yellow "Possible reasons:",
     "  • Text and patterns normalize differently (quoted \"Exact\" atoms compare case)",
     "  • A `+` wildcard needs at least one token in between",
     "  • A negated literal found its pattern",
     "",
     style.paint .dim "  Tip: run with --debug or PHRASEMATCH_LOG=trace to follow lookups"]
  else (evaluation.found.values.mapIdx (style.matchLines evaluation.text)).flatten

/-- The lines with the highlighted text. -/
def highlightLines (style : Style) (evaluation : Evaluation) : List String :=
  if style.highlight then
    style.title "Highlight" ++ ["  " ++ Tagging.highlight evaluation.text evaluation.found]
  else []

/-- The lines on the time that was needed. -/
def timingLines (style : Style) (evaluation : Evaluation) : List String :=
  let total := "  Total: " ++ style.paint .green (Duration.render evaluation.elapsed)
  match evaluation.metrics with
  | none => [total ++ "  │  " ++ style.paint .dim "parallel evaluation, no per-rule timings"]
  | some metrics =>
    [total ++ "  │  Tokenize: " ++ style.paint .dim (Duration.render evaluation.tokenizing) ++
       "  │  Evaluate: " ++ style.paint .cyan (Duration.render metrics.duration)] ++
    (match metrics.slowest? with
     | none => []
     | some slowest =>
       ["  " ++ style.paint .dim "slowest:" ++ " " ++ style.paint .blue slowest.rule ++ " " ++
          style.paint .dim (Duration.render slowest.duration) ++ "  " ++
          style.paint .dim "clauses:" ++ " " ++ style.paint .yellow (toString slowest.clauses)])

/-- All lines of the report. -/
def lines (style : Style) (set : RuleSet) (evaluation : Evaluation) : List String :=
  let text := String.ofList (Text.trimEnd evaluation.text.toList)
  ["", style.paintBold .cyan ("⚙  Matching: \"" ++ text ++ "\"")] ++
  style.title "Rules" ++ (set.rules.map (style.ruleLines set)).flatten ++
  style.title "Tokens" ++ style.tokenLines evaluation.tokens ++
  style.title "Results" ++ style.resultLines evaluation ++
  style.highlightLines evaluation ++
  style.title "Timing" ++ style.timingLines evaluation ++
  [""]

/-- The report as it is written. -/
def report (style : Style) (set : RuleSet) (evaluation : Evaluation) : String :=
  String.join ((style.lines set evaluation).map (· ++ "\n"))

end Style

end Tagging.CommandLine
