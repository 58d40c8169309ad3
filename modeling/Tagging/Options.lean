import Tagging.Cnf.Compile
import Tagging.Cnf.Search
import Tagging.Cnf.Simplify
import Tagging.Match
import Tagging.Pattern.Reader
import Tagging.Tokenizer

/-!
# From sources to searches

The options say how texts are cut, how words are compared and whether clausal forms are simplified.
They belong to texts and patterns alike, for only what was brought to one form can be compared.
-/

namespace Tagging

/-- How texts and patterns are made ready. -/
structure Options where
  /-- Brings words to the form in which they are compared. -/
  normalizer : Normalizer := .standard
  /-- Cuts texts into tokens. -/
  tokenizer : Tokenizer := .matching
  /-- Whether clausal forms are simplified. -/
  simplify : Bool := true
deriving DecidableEq, Repr, Inhabited

namespace Options

/-- The tokens of a text. -/
def tokenize (options : Options) (text : String) : List Token :=
  options.tokenizer.tokenize options.normalizer text

/-- The clausal form of a pattern, as it is searched for. -/
def clausalForm (options : Options) (pattern : Pattern) : Except Fault Cnf := do
  let cnf ← pattern.toCnf options.normalizer
  return if options.simplify then cnf.simplify else cnf

/-- Reads a pattern. -/
def compile (options : Options) (source : String) : Except Fault Cnf :=
  match Pattern.ofString source with
  | .error error => .error (.unreadable none error)
  | .ok pattern => options.clausalForm pattern

/-- Where a pattern is found in a text when there are no rules. The match is labelled with the source
of the pattern. -/
def find (options : Options) (text source : String) : Except Fault (Option Match) := do
  let cnf ← options.compile source
  let tokens := options.tokenize text
  return (cnf.find tokens).map (Match.ofSpan source tokens)

end Options

end Tagging
