/-!
# Palettes

On a terminal, parts of a report stand out by colours and weights. They are turned on by a code in
front of the part and turned off behind it. Where colours are not wanted nothing is written.
-/

namespace Tagging.CommandLine

/-- How a part of a report stands out. -/
inductive Paint where
  /-- Stands back. -/
  | dim
  /-- Stands out by its weight. -/
  | bold
  /-- Stands out in green. -/
  | green
  /-- Stands out in yellow. -/
  | yellow
  /-- Stands out in blue. -/
  | blue
  /-- Stands out in magenta. -/
  | magenta
  /-- Stands out in cyan. -/
  | cyan
  /-- Stands back in gray. -/
  | gray
deriving DecidableEq, Repr

namespace Paint

/-- The code that turns it on. -/
def code : Paint → String
  | .dim => "\x1b[2m"
  | .bold => "\x1b[1m"
  | .green => "\x1b[32m"
  | .yellow => "\x1b[33m"
  | .blue => "\x1b[34m"
  | .magenta => "\x1b[35m"
  | .cyan => "\x1b[36m"
  | .gray => "\x1b[90m"

/-- The code that turns everything off. -/
def reset : String := "\x1b[0m"

end Paint

/-- Whether colours are used. -/
structure Palette where
  /-- Whether anything is written for them. -/
  enabled : Bool
deriving DecidableEq, Repr

namespace Palette

/-- A part of a report, made to stand out. -/
def paint (palette : Palette) (color : Paint) (text : String) : String :=
  if palette.enabled then color.code ++ text ++ Paint.reset else text

end Palette

end Tagging.CommandLine
