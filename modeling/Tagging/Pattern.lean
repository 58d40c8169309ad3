import Tagging.Term

/-!
# Patterns

A pattern says what a text has to contain: words and wildcards, alone or next to each other, and other
patterns by the name of their rule, combined by negation, conjunction and disjunction.
-/

namespace Tagging

/-- A boolean combination of phrases. -/
inductive Pattern where
  /-- Both patterns have to be found. -/
  | and (left right : Pattern)
  /-- At least one of the patterns has to be found. -/
  | or (left right : Pattern)
  /-- The pattern must not be found. -/
  | not (inner : Pattern)
  /-- The patterns have to be found right after each other. -/
  | join (left right : Pattern)
  /-- A word, compared in its normalized form. -/
  | word (word : String)
  /-- A word, compared as it is written. -/
  | exactWord (word : String)
  /-- The rule of that name has to match. -/
  | lookup (name : String)
  /-- A wildcard. -/
  | wildcard (wildcard : Wildcard)
deriving DecidableEq, Repr

namespace Pattern

/-- The pattern in full parentheses. -/
def render : Pattern → String
  | .and l r => "(" ++ l.render ++ " AND " ++ r.render ++ ")"
  | .or l r => "(" ++ l.render ++ " OR " ++ r.render ++ ")"
  | .not x => "NOT(" ++ x.render ++ ")"
  | .join l r => l.render ++ "_" ++ r.render
  | .word w => "'" ++ w ++ "'"
  | .exactWord w => "\"" ++ w ++ "\""
  | .lookup name => "#" ++ name
  | .wildcard w => w.symbol

/-- The number of nodes of the tree. -/
def size : Pattern → Nat
  | .and l r | .or l r | .join l r => 1 + l.size + r.size
  | .not x => 1 + x.size
  | .word _ | .exactWord _ | .lookup _ | .wildcard _ => 1

/-- Whether the pattern is a conjunction. -/
def isAnd : Pattern → Bool
  | .and _ _ => true
  | _ => false

/-- Whether the pattern has no parts. -/
def isLeaf : Pattern → Bool
  | .word _ | .exactWord _ | .lookup _ | .wildcard _ => true
  | .and _ _ | .or _ _ | .not _ | .join _ _ => false

end Pattern

end Tagging
