import Tagging.RuleSet.Evaluate

/-!
# Metered evaluation

An evaluation may be watched by a clock. The clock is looked at before and after every rule, and what
the rules find does not depend on it.
-/

namespace Tagging

/-- What was read for one rule. -/
structure RuleReading where
  /-- The name of the rule. -/
  rule : String
  /-- The number of its clauses. -/
  clauses : Nat
  /-- Whether it has found something. -/
  found : Bool
  /-- How long that took. A rule whose outcome was known already takes next to no time. -/
  duration : Nat
deriving DecidableEq, Repr

/-- What was read during an evaluation. -/
structure Metrics where
  /-- The number of tokens. -/
  tokens : Nat
  /-- What was read for each rule, in their order. -/
  rules : List RuleReading
  /-- How long all rules took together. -/
  duration : Nat
deriving DecidableEq, Repr

namespace Metrics

/-- The number of rules that have found something. -/
def found (metrics : Metrics) : Nat := metrics.rules.countP RuleReading.found

/-- The rule that took longest, the last of these if there are several. -/
def slowest? (metrics : Metrics) : Option RuleReading :=
  metrics.rules.foldl (fun slowest reading =>
    match slowest with
    | none => some reading
    | some other => if other.duration ≤ reading.duration then some reading else some other) none

end Metrics

namespace RuleSet

variable {m : Type → Type} [Monad m]

/-- Evaluates rules one after the other, and reads the clock before and after each. -/
def readEach (clock : m Nat) (set : RuleSet) (tokens : List Token) (cache : Cache) :
    List Rule → m (List (Outcome × RuleReading))
  | [] => pure []
  | rule :: rest => do
    let start ← clock
    let (outcome, cache) := (set.outcome tokens rule.head).run cache
    let reading := { rule := rule.head, clauses := rule.cnf.clauses.length,
                     found := outcome.isSome, duration := (← clock) - start }
    return (outcome, reading) :: (← readEach clock set tokens cache rest)

/-- Evaluates the rules one after the other, watched by a clock. -/
def evaluateMetered (clock : m Nat) (set : RuleSet) (tokens : List Token) :
    m (Catalog Match × Metrics) := do
  let start ← clock
  let readings ← readEach clock set tokens .empty set.rules
  let found := set.collect tokens (readings.map Prod.fst)
  return (found, ⟨tokens.length, readings.map Prod.snd, (← clock) - start⟩)

end RuleSet

end Tagging
