import Tagging.Literal
import Tagging.Span

/-!
# Searching a text for a literal

A phrase is tried at every token in turn, and the first token where it fits decides. From there its
terms are followed through the tokens without ever going back:

* a word has to be satisfied by the next token, and `?` takes one token;
* `*` leaps to the first token that satisfies the term after it, and `+` does the same after leaving
  out one token;
* at the end of the phrase, `*` takes nothing and `+` takes one token.

When a phrase needs more tokens than are left, no later token can be the start of it either, so the
search stops there. A negated literal holds of the whole text when its phrase is found nowhere.
-/

namespace Tagging

/-- What a search finds: the tokens covered, or nothing. -/
abbrev Outcome := Option Span

namespace Outcome

/-- The outcome of the opposite condition: the whole text of `length` tokens where nothing was found,
and nothing where something was. -/
def complement (length : Nat) : Outcome → Outcome
  | some _ => none
  | none => some ⟨0, length⟩

end Outcome

/-- How following a phrase from one token ends. -/
inductive Attempt where
  /-- The phrase fits, and ends just before the token of that number. -/
  | found (stop : Nat)
  /-- Some token does not satisfy its term. -/
  | mismatch
  /-- The phrase needs more tokens than there are. -/
  | exhausted
deriving DecidableEq, Repr

namespace Term

/-- Leaps over the first token that satisfies the term. `position` is the number of the first of
`tokens`; the answer is what stands after the leap, and its number. -/
def leap? (term : Term) (position : Nat) : List Token → Option (Nat × List Token)
  | [] => none
  | token :: tokens =>
    if term.accepts token then some (position + 1, tokens) else term.leap? (position + 1) tokens

end Term

namespace Phrase

/-- Follows the terms through `tokens`, the first of which has the number `position`. -/
def follow (position : Nat) (tokens : List Token) : List Term → Attempt
  | [] => .found position
  | [last] =>
    match last.wildcard?, tokens with
    | some .star, _ => .found position
    | _, [] => .exhausted
    | some _, _ :: _ => .found (position + 1)
    | none, token :: _ => if last.accepts token then .found (position + 1) else .mismatch
  | term :: next :: terms =>
    match term.wildcard?, tokens with
    | _, [] | some .plus, [_] => .exhausted
    | some .star, tokens =>
      match next.leap? position tokens with
      | none => .mismatch
      | some (position, tokens) => follow position tokens terms
    | some .plus, _ :: tokens =>
      match next.leap? (position + 1) tokens with
      | none => .mismatch
      | some (position, tokens) => follow position tokens terms
    | some .one, _ :: tokens => follow (position + 1) tokens (next :: terms)
    | none, token :: tokens =>
      if term.accepts token then follow (position + 1) tokens (next :: terms) else .mismatch

/-- The first place where the terms fit, at the token of number `start` or later. -/
def scan (terms : List Term) (start : Nat) : List Token → Outcome
  | [] => none
  | token :: tokens =>
    match follow start (token :: tokens) terms with
    | .found stop => some ⟨start, stop⟩
    | .exhausted => none
    | .mismatch => scan terms (start + 1) tokens

/-- Where the terms are found first in a text. -/
def find (tokens : List Token) (terms : List Term) : Outcome :=
  scan terms 0 tokens

end Phrase

namespace Literal

/-- Where a literal holds in a text. A lookup counts as a word that is compared as it is written. -/
def find (tokens : List Token) (literal : Literal) : Outcome :=
  let found := Phrase.find tokens literal.terms
  if literal.negated then found.complement tokens.length else found

end Literal

end Tagging
