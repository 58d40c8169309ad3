/-!
# Help

What the program says about itself.
-/

namespace Tagging.CommandLine

/-- The name and the version of the program. -/
def version : String := "phrasematch 0.1.0"

/-- The label under which a single expression is reported. -/
def expressionLabel : String := "expr"

/-- How the program is used. -/
def help : String :=
  version ++ "

Label text spans with boolean phrase patterns.

Usage:
  phrasematch [OPTIONS] --rules <file> [--] <text...>
  phrasematch [OPTIONS] --expr <expression> [--] <text...>

Text is read from stdin when no text arguments are given.

Options:
  -r, --rules <file>         Rule-set source: one `name = expression` per line,
                             `//` starts a comment line.
  -e, --expr <expression>    Single expression, reported as label \"" ++ expressionLabel ++ "\".
  --tokenizer <kind>         matching | splitting | whitespace (default: matching)
  --normalizer <kind>        default | lower | none (default: default)
  --no-simplify              Keep compiled expressions unsimplified.
  --parallel                 Evaluate rules on a thread pool.
  --highlight                Print the text with <span> markup per label.
  --query <preset>           Also print each expression as a query:
                             default | lucene | postgres
  --color                    Force ANSI color output.
  --no-color                 Disable ANSI color output.
  --debug                    Debug logging on stderr (else $PHRASEMATCH_LOG, default warn).
  -h, --help                 Show this help message.
  -V, --version              Print version information.

Exit codes:
  0  Success.
  1  The rules or expression failed to compile.
  2  Invalid arguments or missing input.
"

end Tagging.CommandLine
