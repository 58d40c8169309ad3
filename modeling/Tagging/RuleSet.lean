import Tagging.Catalog
import Tagging.Cnf
import Tagging.Fault
import Tagging.RuleSet.Cycle

/-!
# Sets of rules

A rule gives a name to a clausal form. In a set of rules every name stands for one rule, every lookup
names a rule of the set, and no rule leads back to itself by lookups. This is checked when the set is
made, so that a set of rules is always a sound one and evaluating it cannot go wrong.
-/

namespace Tagging

/-- A clausal form with a name. -/
structure Rule where
  /-- The name, which is also the label of what the rule finds. -/
  head : String
  /-- What has to hold of a text. -/
  cnf : Cnf
deriving DecidableEq, Repr, Inhabited

namespace Rule

/-- The names of the rules that this rule looks up. -/
def targets (rule : Rule) : List String := rule.cnf.targets

/-- The rule of that name. -/
def find? (rules : List Rule) (head : String) : Option Rule :=
  rules.find? fun rule => rule.head == head

/-- The names that the rule of that name looks up. -/
def lookupsOf (rules : List Rule) (head : String) : List String :=
  ((find? rules head).map targets).getD []

/-! ## What may be wrong with a list of rules -/

/-- The first name that repeats one before it, `seen` among these. -/
def repeated? (seen : List String) : List String → Option String
  | [] => none
  | head :: rest => if seen.contains head then some head else repeated? (head :: seen) rest

/-- The fault of a lookup, if it is one of the rule itself or names no rule. -/
def lookupFault? (heads : List String) (head target : String) : Option Fault :=
  if target = head then some (.selfLookup head)
  else if heads.contains target then none
  else some (.unresolvedLookup head target)

/-- The fault of the first lookup of a rule that has one. -/
def lookupsFault? (heads : List String) (rule : Rule) : Option Fault :=
  rule.targets.findSome? (lookupFault? heads rule.head)

/-- Why the rules are no set of rules: a name that is given twice, or else a lookup that leads nowhere
or to the rule itself, or else a cycle of lookups. -/
def fault? (rules : List Rule) : Option Fault :=
  let heads := rules.map head
  ((repeated? [] heads).map .duplicateRule).or <|
  (rules.findSome? (lookupsFault? heads)).or <|
  (Cycle.find? (lookupsOf rules) heads).map .lookupCycle

end Rule

/-- Rules that may look each other up. -/
structure RuleSet where
  /-- The rules in the order in which they were given. -/
  rules : List Rule
  /-- Nothing is wrong with them. -/
  sound : Rule.fault? rules = none

namespace RuleSet

/-- The set without rules. -/
def empty : RuleSet := ⟨[], rfl⟩

instance : Inhabited RuleSet := ⟨empty⟩

/-- The set of the rules, unless something is wrong with them. -/
def ofRules (rules : List Rule) : Except Fault RuleSet :=
  match h : Rule.fault? rules with
  | none => .ok ⟨rules, h⟩
  | some fault => .error fault

/-- The set of rules that are filed under their names, in the order of these. Of two rules under one
name the later counts. -/
def ofKeyed (entries : List (String × Rule)) : Except Fault RuleSet :=
  let catalog := Catalog.ofList entries
  match catalog.entries.find? fun (key, rule) => key != rule.head with
  | some (key, rule) => .error (.misfiledRule key rule.head)
  | none => ofRules catalog.values

/-- The rule of that name. -/
def find? (set : RuleSet) (head : String) : Option Rule := Rule.find? set.rules head

/-- Whether there is a rule of that name. -/
def contains (set : RuleSet) (head : String) : Bool := (set.find? head).isSome

/-- The number of rules. -/
def size (set : RuleSet) : Nat := set.rules.length

/-- Whether there is no rule. -/
def isEmpty (set : RuleSet) : Bool := set.rules.isEmpty

/-- The names that the rule of that name looks up directly. -/
def lookupsOf (set : RuleSet) (head : String) : List String := Rule.lookupsOf set.rules head

end RuleSet

end Tagging
