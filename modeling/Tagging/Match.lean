import Tagging.Text.Bytes
import Tagging.Token

/-!
# Matches

A match says under which label something was found, and where: which tokens it covers, and which bytes
of the text. The bytes are read off the tokens. An empty span of tokens stands for the empty place in
front of the token where it starts, or at the end of the last token when there is none there.
-/

namespace Tagging

/-- A labelled piece of a text. -/
structure Match where
  /-- The name of the rule, or the source of the pattern. -/
  label : String
  /-- The tokens covered. -/
  tokens : Span
  /-- The bytes covered. -/
  bytes : Span
deriving DecidableEq, Repr, Inhabited

/-- The bytes that a span of tokens covers. -/
def Span.toBytes (tokens : List Token) (span : Span) : Span :=
  if span.isEmpty then
    let place := match tokens[span.start]? with
      | some token => token.bytes.start
      | none => (tokens.getLast?.map fun token => token.bytes.stop).getD 0
    ⟨place, place⟩
  else
    let start := (tokens[span.start]?.map fun token => token.bytes.start).getD 0
    ⟨start, (tokens[span.stop - 1]?.map fun token => token.bytes.stop).getD start⟩

namespace Match

/-- The match that covers a span of tokens. -/
def ofSpan (label : String) (tokens : List Token) (span : Span) : Match :=
  ⟨label, span, span.toBytes tokens⟩

/-- The piece of the text that is covered, if the bytes are one. -/
def body? (text : String) (found : Match) : Option String :=
  (Text.slice? text.toList found.bytes.start found.bytes.stop).map String.ofList

/-- The match as it is shown. -/
def render (found : Match) : String :=
  found.label ++ " @ tokens " ++ found.tokens.describe ++ " bytes " ++ found.bytes.describe

end Match

end Tagging
