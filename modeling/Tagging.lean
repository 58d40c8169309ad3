import Tagging.Catalog
import Tagging.Cnf
import Tagging.Cnf.Compile
import Tagging.Cnf.Search
import Tagging.Cnf.Simplify
import Tagging.CommandLine
import Tagging.CommandLine.Arguments
import Tagging.CommandLine.Duration
import Tagging.CommandLine.Help
import Tagging.CommandLine.Palette
import Tagging.CommandLine.Report
import Tagging.Fault
import Tagging.Highlight
import Tagging.Inquiry
import Tagging.Literal
import Tagging.Literal.Search
import Tagging.Main
import Tagging.Match
import Tagging.Normalizer
import Tagging.Normalizer.Accent
import Tagging.Normalizer.Bracket
import Tagging.Options
import Tagging.Pattern
import Tagging.Pattern.Distribution
import Tagging.Pattern.Lexeme
import Tagging.Pattern.Lexing
import Tagging.Pattern.NegationNormal
import Tagging.Pattern.ReadError
import Tagging.Pattern.Reader
import Tagging.Query
import Tagging.RuleSet
import Tagging.RuleSet.Cycle
import Tagging.RuleSet.Evaluate
import Tagging.RuleSet.Meter
import Tagging.RuleSet.Source
import Tagging.Span
import Tagging.Term
import Tagging.Text.Bytes
import Tagging.Text.Line
import Tagging.Token
import Tagging.Tokenizer
import Tagging.Unicode.Alphanumeric
import Tagging.Unicode.Casing
import Tagging.Unicode.Letter
import Tagging.Unicode.LowerCase
import Tagging.Unicode.Mark
import Tagging.Unicode.Ranges
import Tagging.Unicode.WhiteSpace
import Tagging.Proofs.Characters
import Tagging.Proofs.Cycle
import Tagging.Proofs.WellFormed
import Tagging.Proofs.Sameness
import Tagging.Proofs.Verdict
import Tagging.Proofs.Memory
import Tagging.Proofs.Asking
import Tagging.Proofs.Calls
import Tagging.Proofs.Caching
import Tagging.Proofs.Simplification
import Tagging.Proofs.Meaning
import Tagging.Proofs.Compilation
import Tagging.Proofs.Source
import Tagging.Proofs.Lexing
import Tagging.Proofs.Grammar
import Tagging.Proofs.Interleaving
import Tagging.Proofs.Place
import Tagging.Proofs.Tokens
import Tagging.Proofs.Extent
import Tagging.Proofs.Pieces
import Tagging.Proofs.TokenizerCut
import Tagging.Proofs.Nesting
import Tagging.Proofs.Overlay
import Tagging.Proofs.Elements
import Tagging.Proofs.Rendering
import Tagging.Proofs.Locality
import Tagging.Proofs.Additions
import Tagging.Proofs.Surroundings
import Tagging.Proofs.Prefilter
import Tagging.Proofs.Starts
import Tagging.Proofs.PhraseFollow
import Tagging.Proofs.Gaps
import Tagging.Proofs.NormalForm
import Tagging.Proofs.Operands
import Tagging.Proofs.Clauses
import Tagging.Proofs.Verbatim
import Tagging.Proofs.Order
import Tagging.Proofs.Subsumption
import Tagging.Proofs.Exchange
import Tagging.Proofs.Runs
import Tagging.Proofs.MatchingTokenizer
import Tagging.Proofs.SmallForms
import Tagging.Proofs.StandardNormalizer
import Tagging.Proofs.Respelling
import Tagging.Proofs.Groups
import Tagging.Proofs.LookupNames
import Tagging.Proofs.Offsets
import Tagging.Proofs.Positions
import Tagging.Proofs.Quoting
import Tagging.Proofs.Escaping
import Tagging.Proofs.Usage
