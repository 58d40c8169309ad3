import Tagging.Catalog
import Tagging.Match

/-!
# Highlighting

The matches of a text can be shown by elements around the pieces that they cover. Elements have to be
nested, but matches may cross. So where a match ends inside another that was opened later, that one is
closed too and opened again behind it. At one place elements are closed before others are opened, and
of those opened there the longer ones come first.

A match that covers nothing, or whose bytes are no piece of the text, is not shown.
-/

namespace Tagging

/-- A part of a highlighted text. -/
inductive Markup where
  /-- A character of the text. -/
  | character (c : Char)
  /-- The start of the element of a match with that label. -/
  | opening (label : String)
  /-- The end of the element that was opened last. -/
  | closing
deriving DecidableEq, Repr

namespace Markup

/-- A character as it is written where it must not act as markup. -/
def escape (c : Char) : String :=
  if c = '&' then "&amp;"
  else if c = '<' then "&lt;"
  else if c = '>' then "&gt;"
  else if c = '"' then "&quot;"
  else String.singleton c

/-- A text as it is written where it must not act as markup. -/
def escapeText (text : String) : String := String.join (text.toList.map escape)

/-- A part as it is written. -/
def renderPart : Markup → String
  | .character c => escape c
  | .opening label => "<span class=\"" ++ escapeText label ++ "\">"
  | .closing => "</span>"

/-- A highlighted text as it is written. -/
def render (parts : List Markup) : String := String.join (parts.map renderPart)

/-- Whether a match is shown: it covers something, and that is a piece of the text. -/
def isShown (text : List Char) (found : Match) : Bool :=
  decide (found.bytes.start < found.bytes.stop) &&
    (Text.slice? text found.bytes.start found.bytes.stop).isSome

/-- Whether `a` is opened before `b` where both start: the longer one first, and those of one length in
the order of their labels. -/
def opensBefore (a b : Match) : Bool :=
  ((compare b.bytes.stop a.bytes.stop).then (compare a.label b.label)).isLE

/-- Closes what ends at byte `offset`, and everything opened later, of which the rest is opened again.
Given is what is open, outermost first; the answer is what is written, and what is open then. -/
def closeAt (offset : Nat) (opened : List Match) : List Markup × List Match :=
  let outer := opened.takeWhile (·.bytes.stop != offset)
  let closed := opened.dropWhile (·.bytes.stop != offset)
  let again := closed.filter (·.bytes.stop != offset)
  (closed.map (fun _ => closing) ++ again.map fun found => opening found.label, outer ++ again)

/-- Opens what starts at byte `offset`. -/
def openAt (shown : List Match) (offset : Nat) (opened : List Match) :
    List Markup × List Match :=
  let starting := (shown.filter (·.bytes.start == offset)).mergeSort opensBefore
  (starting.map fun found => opening found.label, opened ++ starting)

/-- What is closed and opened at byte `offset`. -/
def turn (shown : List Match) (offset : Nat) (opened : List Match) : List Markup × List Match :=
  let (closings, opened) := closeAt offset opened
  let (openings, opened) := openAt shown offset opened
  (closings ++ openings, opened)

/-- The text from byte `offset` on, with elements for the matches. -/
def overlay (shown : List Match) (offset : Nat) (opened : List Match) : List Char → List Markup
  | [] => (turn shown offset opened).1
  | c :: text =>
    let (parts, opened) := turn shown offset opened
    parts ++ character c :: overlay shown (offset + c.utf8Size) opened text

/-- The text with elements for the matches that can be shown. -/
def ofMatches (text : List Char) (found : List Match) : List Markup :=
  overlay (found.filter (isShown text)) 0 [] text

end Markup

/-- The text with elements for its matches, as it is written. -/
def highlight (text : String) (found : Catalog Match) : String :=
  Markup.render (Markup.ofMatches text.toList found.values)

end Tagging
