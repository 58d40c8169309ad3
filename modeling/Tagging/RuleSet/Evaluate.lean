import Tagging.Catalog
import Tagging.Cnf.Search
import Tagging.Inquiry
import Tagging.Match
import Tagging.RuleSet

/-!
# Evaluating sets of rules

The outcome of a rule is what its clausal form finds, where a lookup is answered by the outcome of the
rule it names. Outcomes are kept in a cache, so no rule is searched for twice. The rules of a set may
be evaluated one after the other, or all together on one cache in any order of their requests.
-/

namespace Tagging

namespace Literal

/-- The outcome of a literal, where the outcome of another rule is asked for. -/
def answer (tokens : List Token) (outcomeOf : String → Inquiry Outcome) (literal : Literal) :
    Inquiry Outcome :=
  match literal.target? with
  | none => pure (literal.find tokens)
  | some name => do
    let outcome ← outcomeOf name
    return if literal.negated then outcome.complement tokens.length else outcome

end Literal

namespace Cnf

/-- What a clausal form finds, where the outcome of another rule is asked for. -/
def findAsking (tokens : List Token) (outcomeOf : String → Inquiry Outcome) (cnf : Cnf) :
    Inquiry Outcome :=
  cnf.findBy (·.answer tokens outcomeOf) tokens.length

end Cnf

namespace RuleSet

/-- The outcome of the rule of that name. It is taken from the cache when it is known there, and made
known there when it is not. A name without a rule finds nothing. Lookups are followed no more than
`depth` deep. -/
def outcomeWithin (set : RuleSet) (tokens : List Token) : Nat → String → Inquiry Outcome
  | 0, _ => pure none
  | depth + 1, name => do
    match ← Inquiry.known name with
    | some outcome => return outcome
    | none =>
      let outcome ← match set.find? name with
        | none => pure none
        | some rule => rule.cnf.findAsking tokens (set.outcomeWithin tokens depth)
      Inquiry.tell name outcome
      return outcome

/-- The outcome of the rule of that name. Rules do not lead back to themselves, so no more of them
than there are follow each other. -/
def outcome (set : RuleSet) (tokens : List Token) (name : String) : Inquiry Outcome :=
  set.outcomeWithin tokens (set.size + 1) name

/-- Where a clausal form is found in a text when its lookups name rules of the set. -/
def find (set : RuleSet) (tokens : List Token) (cnf : Cnf) : Inquiry Outcome :=
  cnf.findAsking tokens (set.outcome tokens)

/-! ## All rules of a set -/

/-- The outcomes of all rules, in their order. -/
def outcomes (set : RuleSet) (tokens : List Token) : List (Inquiry Outcome) :=
  set.rules.map fun rule => set.outcome tokens rule.head

/-- The matches of the rules that have found something, filed under their names. -/
def collect (set : RuleSet) (tokens : List Token) (outcomes : List Outcome) : Catalog Match :=
  Catalog.ofList <| (set.rules.zip outcomes).filterMap fun (rule, outcome) =>
    outcome.map fun span => (rule.head, Match.ofSpan rule.head tokens span)

/-- Evaluates the rules one after the other. -/
def evaluate (set : RuleSet) (tokens : List Token) : Catalog Match :=
  set.collect tokens (Inquiry.runAll (set.outcomes tokens) .empty).1

/-- Evaluates the rules together, their requests answered in the order of the schedule. -/
def evaluateTogether (set : RuleSet) (schedule : List Nat) (tokens : List Token) : Catalog Match :=
  set.collect tokens (Inquiry.interleave schedule (set.outcomes tokens) .empty).1

/-- The schedule that lets every rule have its turn, so many times. -/
def turns (set : RuleSet) (times : Nat) : List Nat :=
  (List.replicate times (List.range set.size)).flatten

end RuleSet

end Tagging
