import Mathlib.Data.List.Nodup
import Tagging.Proofs.Cycle
import Tagging.RuleSet

/-!
# Well-formed lists of rules

A list of rules is well formed if no two rules have one name, every lookup names a rule of the list, and
no rule leads back to itself. Exactly these lists are accepted as sets of rules. For any other list the
fault names the first thing that is wrong: a name given twice, or else a lookup of the rule itself or of
no rule, or else a cycle. The path that is reported for a cycle can be followed by lookups.
-/

namespace Tagging

open Relation

/-! ## Names in the order in which they are first seen -/

/-- `distinct` has the entries of `names`, ordered by their first places there. -/
structure FirstSeen (names distinct : List String) : Prop where
  mem : ∀ name, name ∈ distinct ↔ name ∈ names
  order : distinct.Pairwise fun a b => names.idxOf a < names.idxOf b

theorem eraseDups_concat (names : List String) (name : String) :
    (names ++ [name]).eraseDups =
      if name ∈ names then names.eraseDups else names.eraseDups ++ [name] := by
  rw [List.eraseDups_append]
  by_cases h : name ∈ names <;> simp [List.removeAll, h, List.eraseDups_cons]

/-- Dropping what comes again leaves the `names` in the order in which they are first seen. By induction from the
end, since another entry there leaves the first places of those before it as they are. -/
theorem firstSeen_eraseDups (names : List String) : FirstSeen names names.eraseDups := by
  refine ⟨fun name => List.mem_eraseDups, ?_⟩
  induction names using List.reverseRecOn with
  | nil => simp
  | append_singleton names name ih =>
    have hplace : ∀ a ∈ names.eraseDups, (names ++ [name]).idxOf a = names.idxOf a :=
      fun a ha => List.idxOf_append_of_mem (List.mem_eraseDups.1 ha)
    have hkept : names.eraseDups.Pairwise fun a b =>
        (names ++ [name]).idxOf a < (names ++ [name]).idxOf b := by
      refine ih.imp_of_mem fun ha hb hab => ?_
      rw [hplace _ ha, hplace _ hb]
      exact hab
    rw [eraseDups_concat]
    by_cases hname : name ∈ names
    · rw [if_pos hname]
      exact hkept
    · rw [if_neg hname]
      refine List.pairwise_append.2 ⟨hkept, List.pairwise_singleton _ _, fun a ha b hb => ?_⟩
      have hlast : (names ++ [name]).idxOf name = names.length := by
        simp [List.idxOf_append_of_notMem hname]
      rw [List.mem_singleton.1 hb, hplace a ha, hlast]
      exact List.idxOf_lt_length_iff.2 (List.mem_eraseDups.1 ha)

theorem findSome?_eraseDups {α : Type} (f : String → Option α) (names : List String) :
    names.eraseDups.findSome? f = names.findSome? f := by
  induction names using List.reverseRecOn with
  | nil => rfl
  | append_singleton names name ih =>
    rw [eraseDups_concat]
    by_cases hname : name ∈ names
    · rw [if_pos hname, ih, List.findSome?_append]
      cases hfind : names.findSome? f with
      | some found => rfl
      | none => simp [List.findSome?_eq_none_iff.1 hfind name hname]
    · rw [if_neg hname, List.findSome?_append, List.findSome?_append, ih]

namespace Rule

/-! ## Lookups -/

/-- The names that a rule looks up, literal by literal. -/
def lookups (rule : Rule) : List String := rule.cnf.literals.filterMap Literal.target?

/-- Some rule named `a` looks up `b`. -/
def LooksUp (rules : List Rule) (a b : String) : Prop :=
  ∃ rule ∈ rules, rule.head = a ∧ b ∈ rule.lookups

/-- What makes a list of rules a set of rules. -/
structure WellFormed (rules : List Rule) : Prop where
  distinct : (rules.map head).Nodup
  defined : ∀ rule ∈ rules, ∀ target ∈ rule.lookups, ∃ other ∈ rules, other.head = target
  acyclic : ∀ rule ∈ rules, ¬ TransGen (LooksUp rules) rule.head rule.head

theorem firstSeen_targets (rule : Rule) : FirstSeen rule.lookups rule.targets :=
  firstSeen_eraseDups _

theorem mem_targets {rule : Rule} {target : String} :
    target ∈ rule.targets ↔ target ∈ rule.lookups :=
  rule.firstSeen_targets.mem target

/-- Where names are distinct, each finds its own `rule`. -/
theorem find?_eq_some_iff {rules : List Rule} (hdistinct : (rules.map head).Nodup) {name : String}
    {rule : Rule} : find? rules name = some rule ↔ rule ∈ rules ∧ rule.head = name := by
  constructor
  · intro h
    exact ⟨List.mem_of_find?_eq_some h, by simpa using List.find?_some h⟩
  · rintro ⟨hrule, rfl⟩
    obtain ⟨found, hfound⟩ : ∃ found, find? rules rule.head = some found := by
      rw [← Option.isSome_iff_exists]
      exact List.find?_isSome.2 ⟨rule, hrule, by simp⟩
    have hhead : found.head = rule.head := by simpa using List.find?_some hfound
    rw [hfound, List.inj_on_of_nodup_map hdistinct (List.mem_of_find?_eq_some hfound) hrule hhead]

/-- Where names are distinct, the lookups of a name are those of its rule. -/
theorem mem_lookupsOf {rules : List Rule} (hdistinct : (rules.map head).Nodup) {a b : String} :
    b ∈ lookupsOf rules a ↔ LooksUp rules a b := by
  unfold lookupsOf
  constructor
  · intro h
    cases hfind : find? rules a with
    | none => simp [hfind] at h
    | some rule =>
      obtain ⟨hrule, hhead⟩ := (find?_eq_some_iff hdistinct).1 hfind
      exact ⟨rule, hrule, hhead, mem_targets.1 (by simpa [hfind] using h)⟩
  · rintro ⟨rule, hrule, hhead, hb⟩
    rw [(find?_eq_some_iff hdistinct).2 ⟨hrule, hhead⟩]
    exact mem_targets.2 hb

/-! ## What is wrong with other lists -/

/-- A lookup that no set of rules can have: of the rule itself, or of a name without a rule. -/
def Offends (rules : List Rule) (rule : Rule) (target : String) : Prop :=
  target = rule.head ∨ ∀ other ∈ rules, other.head ≠ target

/-- The first such lookup, rule by rule and literal by literal. -/
structure FirstOffence (rules : List Rule) (rule : Rule) (target : String) : Prop where
  offends : Offends rules rule target
  rules_before : ∃ before after, rules = before ++ rule :: after ∧
    ∀ other ∈ before, ∀ name ∈ other.lookups, ¬ Offends rules other name
  lookups_before : ∃ before after, rule.lookups = before ++ target :: after ∧
    ∀ name ∈ before, ¬ Offends rules rule name

/-- The fault that a list of rules has to be rejected with. -/
inductive Rejected (rules : List Rule) : Fault → Prop where
  /-- The first name that repeats one before it. -/
  | duplicate {name : String} (before after : List String) :
      rules.map head = before ++ name :: after → before.Nodup → name ∈ before →
      Rejected rules (.duplicateRule name)
  /-- All names differ, and the first offending lookup is of the rule itself. -/
  | self {rule : Rule} : (rules.map head).Nodup → FirstOffence rules rule rule.head →
      Rejected rules (.selfLookup rule.head)
  /-- All names differ, and the first offending lookup is of a name without a rule. -/
  | unresolved {rule : Rule} {target : String} : (rules.map head).Nodup →
      FirstOffence rules rule target → target ≠ rule.head →
      Rejected rules (.unresolvedLookup rule.head target)
  /-- All names differ and no lookup offends by itself, but some rule leads back to itself. -/
  | cycle {path : List String} : (rules.map head).Nodup →
      (∀ rule ∈ rules, ∀ target ∈ rule.lookups, ¬ Offends rules rule target) →
      (∃ rule ∈ rules, TransGen (LooksUp rules) rule.head rule.head) →
      Rejected rules (.lookupCycle path)

/-- What goes wrong with the `names`, those in `seen` being taken: one is given twice, or none is. -/
theorem repeated?_spec (names : List String) : ∀ seen : List String,
    match repeated? seen names with
    | none => names.Nodup ∧ ∀ name ∈ names, name ∉ seen
    | some name => ∃ before after, names = before ++ name :: after ∧
        (before.Nodup ∧ ∀ x ∈ before, x ∉ seen) ∧ (name ∈ seen ∨ name ∈ before) := by
  induction names with
  | nil => simp [repeated?]
  | cons first rest ih =>
    intro seen
    unfold repeated?
    by_cases hfirst : first ∈ seen
    · rw [if_pos (by simpa using hfirst)]
      exact ⟨[], rest, rfl, by simp, .inl hfirst⟩
    · rw [if_neg (by simpa using hfirst)]
      have hrest := ih (first :: seen)
      cases hr : repeated? (first :: seen) rest with
      | none =>
        rw [hr] at hrest
        obtain ⟨hnodup, hnot⟩ := hrest
        refine ⟨List.nodup_cons.2 ⟨fun h => hnot first h (by simp), hnodup⟩, fun name hname => ?_⟩
        rcases List.mem_cons.1 hname with rfl | hname
        · exact hfirst
        · exact fun h => hnot name hname (List.mem_cons_of_mem _ h)
      | some name =>
        rw [hr] at hrest
        obtain ⟨before, after, rfl, ⟨hnodup, hnot⟩, hmem⟩ := hrest
        refine ⟨first :: before, after, rfl, ⟨?_, fun x hx => ?_⟩, ?_⟩
        · exact List.nodup_cons.2 ⟨fun h => hnot first h (by simp), hnodup⟩
        · rcases List.mem_cons.1 hx with rfl | hx
          · exact hfirst
          · exact fun h => hnot x hx (List.mem_cons_of_mem _ h)
        · rcases hmem with hmem | hmem
          · rcases List.mem_cons.1 hmem with rfl | hmem
            · exact .inr (by simp)
            · exact .inl hmem
          · exact .inr (List.mem_cons_of_mem _ hmem)

theorem lookupFault?_eq_none_iff {rules : List Rule} {rule : Rule} {target : String} :
    lookupFault? (rules.map head) rule.head target = none ↔ ¬ Offends rules rule target := by
  unfold lookupFault? Offends
  by_cases hself : target = rule.head
  · simp [hself]
  · simp [hself]

/-- The `fault` of an offending lookup, a lookup of the rule itself being named first. -/
theorem lookupFault?_eq_some {rules : List Rule} {rule : Rule} {target : String} {fault : Fault}
    (h : lookupFault? (rules.map head) rule.head target = some fault) :
    Offends rules rule target ∧
      ((target = rule.head ∧ fault = .selfLookup rule.head) ∨
        (target ≠ rule.head ∧ fault = .unresolvedLookup rule.head target)) := by
  have hoffends : Offends rules rule target := by
    by_contra hnot
    rw [lookupFault?_eq_none_iff.2 hnot] at h
    cases h
  refine ⟨hoffends, ?_⟩
  unfold lookupFault? at h
  split_ifs at h with hself hdefined
  · exact .inl ⟨hself, (Option.some.inj h).symm⟩
  · exact .inr ⟨hself, (Option.some.inj h).symm⟩

theorem lookupsFault?_eq_none_iff {rules : List Rule} {rule : Rule} :
    lookupsFault? (rules.map head) rule = none ↔
      ∀ target ∈ rule.lookups, ¬ Offends rules rule target := by
  unfold lookupsFault?
  rw [List.findSome?_eq_none_iff]
  simp only [lookupFault?_eq_none_iff, mem_targets]

/-- The `fault` of the first offending lookup of a list of `rules`. -/
theorem rejected_of_findSome? {rules : List Rule} {fault : Fault}
    (hdistinct : (rules.map head).Nodup)
    (h : rules.findSome? (lookupsFault? (rules.map head)) = some fault) : Rejected rules fault := by
  obtain ⟨before, rule, after, hrules, hrule, hbefore⟩ := List.findSome?_eq_some_iff.1 h
  have hlookups : rule.lookups.findSome? (lookupFault? (rules.map head) rule.head) = some fault := by
    rw [← findSome?_eraseDups]
    exact hrule
  obtain ⟨earlier, target, later, hlist, htarget, hearlier⟩ :=
    List.findSome?_eq_some_iff.1 hlookups
  obtain ⟨hoffends, hfault⟩ := lookupFault?_eq_some htarget
  have hfirst : FirstOffence rules rule target :=
    { offends := hoffends
      rules_before := ⟨before, after, hrules, fun other ho name hn =>
        lookupsFault?_eq_none_iff.1 (hbefore other ho) name hn⟩
      lookups_before := ⟨earlier, later, hlist, fun name hn =>
        lookupFault?_eq_none_iff.1 (hearlier name hn)⟩ }
  rcases hfault with ⟨hself, rfl⟩ | ⟨hother, rfl⟩
  · exact .self hdistinct (hself ▸ hfirst)
  · exact .unresolved hdistinct hfirst hother

theorem mem_heads_of_mem_lookupsOf {rules : List Rule} (hdistinct : (rules.map head).Nodup)
    (hsound : ∀ rule ∈ rules, ∀ target ∈ rule.lookups, ¬ Offends rules rule target) :
    ∀ name ∈ rules.map head, ∀ target ∈ lookupsOf rules name, target ∈ rules.map head := by
  intro name _ target htarget
  obtain ⟨rule, hrule, -, hmem⟩ := (mem_lookupsOf hdistinct).1 htarget
  by_contra hnot
  refine hsound rule hrule target hmem (.inr fun other ho heq => hnot ?_)
  exact List.mem_map.2 ⟨other, ho, heq⟩

/-- Rules that keep their names and look up no more than before, as `hhead` and `hlookups` say, stay well formed. -/
theorem WellFormed.map {rules : List Rule} (h : WellFormed rules) {g : Rule → Rule}
    (hhead : ∀ rule, (g rule).head = rule.head)
    (hlookups : ∀ rule, ∀ name ∈ (g rule).lookups, name ∈ rule.lookups) :
    WellFormed (rules.map g) := by
  have hheads : (rules.map g).map head = rules.map head := by
    rw [List.map_map]
    exact List.map_congr_left fun rule _ => hhead rule
  have hlooksUp : ∀ a b, LooksUp (rules.map g) a b → LooksUp rules a b := by
    rintro a b ⟨other, hother, rfl, hb⟩
    obtain ⟨rule, hrule, rfl⟩ := List.mem_map.1 hother
    exact ⟨rule, hrule, (hhead rule).symm, hlookups rule b hb⟩
  refine ⟨by rw [hheads]; exact h.distinct, ?_, ?_⟩
  · rw [List.forall_mem_map]
    intro rule hrule target htarget
    obtain ⟨other, hother, rfl⟩ := h.defined rule hrule target (hlookups rule target htarget)
    exact ⟨g other, List.mem_map_of_mem hother, hhead other⟩
  · rw [List.forall_mem_map]
    intro rule hrule hcycle
    rw [hhead] at hcycle
    exact h.acyclic rule hrule (TransGen.mono hlooksUp _ _ hcycle)

theorem WellFormed.not_offends {rules : List Rule} (h : WellFormed rules) :
    ∀ rule ∈ rules, ∀ target ∈ rule.lookups, ¬ Offends rules rule target := by
  rintro rule hrule target htarget (rfl | hundefined)
  · exact h.acyclic rule hrule (TransGen.single ⟨rule, hrule, rfl, htarget⟩)
  · obtain ⟨other, ho, heq⟩ := h.defined rule hrule target htarget
    exact hundefined other ho heq

/-- Where no lookup offends by itself, as `hsound` says, the search for a cycle decides. -/
theorem find?_cycle_eq_none_iff {rules : List Rule} (hdistinct : (rules.map head).Nodup)
    (hsound : ∀ rule ∈ rules, ∀ target ∈ rule.lookups, ¬ Offends rules rule target) :
    Cycle.find? (lookupsOf rules) (rules.map head) = none ↔
      ∀ rule ∈ rules, ¬ TransGen (LooksUp rules) rule.head rule.head := by
  have hlooksUp : Cycle.Refers (lookupsOf rules) = LooksUp rules := by
    funext a b
    exact propext (mem_lookupsOf hdistinct)
  rw [Cycle.find?_eq_none_iff (mem_heads_of_mem_lookupsOf hdistinct hsound), hlooksUp]
  simp only [List.forall_mem_map]

/-- What is wrong with `rules` whose lookups do not offend by themselves can only be a cycle. -/
theorem cycleFault?_spec {rules : List Rule} (hdistinct : (rules.map head).Nodup)
    (hsound : ∀ rule ∈ rules, ∀ target ∈ rule.lookups, ¬ Offends rules rule target) :
    match (Cycle.find? (lookupsOf rules) (rules.map head)).map Fault.lookupCycle with
    | none => WellFormed rules
    | some fault => ¬ WellFormed rules ∧ Rejected rules fault := by
  have hacyclic := find?_cycle_eq_none_iff hdistinct hsound
  cases hc : Cycle.find? (lookupsOf rules) (rules.map head) with
  | none =>
    refine ⟨hdistinct, fun rule hrule target htarget => ?_, hacyclic.1 hc⟩
    by_contra hnot
    exact hsound rule hrule target htarget (.inr fun other ho heq => hnot ⟨other, ho, heq⟩)
  | some path =>
    have hcyclic : ∃ rule ∈ rules, TransGen (LooksUp rules) rule.head rule.head := by
      by_contra hnot
      rw [hacyclic.2 fun rule hrule hloop => hnot ⟨rule, hrule, hloop⟩] at hc
      cases hc
    refine ⟨fun hwf => ?_, .cycle hdistinct hsound hcyclic⟩
    obtain ⟨rule, hrule, hloop⟩ := hcyclic
    exact hwf.acyclic rule hrule hloop

/-- Nothing is wrong with well-formed `rules`, and any others are rejected. -/
theorem fault?_spec (rules : List Rule) :
    match fault? rules with
    | none => WellFormed rules
    | some fault => ¬ WellFormed rules ∧ Rejected rules fault := by
  have hrepeated := repeated?_spec (rules.map head) []
  cases hr : repeated? [] (rules.map head) with
  | some name =>
    have hfault : fault? rules = some (.duplicateRule name) := by simp [fault?, hr]
    rw [hr] at hrepeated
    rw [hfault]
    obtain ⟨before, after, hnames, ⟨hnodup, -⟩, hmem⟩ := hrepeated
    have hmem : name ∈ before := hmem.resolve_left (by simp)
    refine ⟨fun hwf => ?_, .duplicate before after hnames hnodup hmem⟩
    have := hwf.distinct
    rw [hnames] at this
    exact (List.nodup_append.1 this).2.2 name hmem name (by simp) rfl
  | none =>
    rw [hr] at hrepeated
    have hdistinct : (rules.map head).Nodup := hrepeated.1
    cases hl : rules.findSome? (lookupsFault? (rules.map head)) with
    | some fault =>
      have hfault : fault? rules = some fault := by simp [fault?, hr, hl]
      rw [hfault]
      refine ⟨fun hwf => ?_, rejected_of_findSome? hdistinct hl⟩
      obtain ⟨rule, hrule, hsome⟩ := List.exists_of_findSome?_eq_some hl
      rw [lookupsFault?_eq_none_iff.2 (hwf.not_offends rule hrule)] at hsome
      cases hsome
    | none =>
      have hfault : fault? rules =
          (Cycle.find? (lookupsOf rules) (rules.map head)).map .lookupCycle := by
        simp [fault?, hr, hl]
      rw [hfault]
      exact cycleFault?_spec hdistinct fun rule hrule =>
        lookupsFault?_eq_none_iff.1 (List.findSome?_eq_none_iff.1 hl rule hrule)

/-- A cycle is only reported when nothing else is wrong, and then its `path` is the one that the search has met. -/
theorem isCycle_of_fault? {rules : List Rule} {path : List String}
    (h : fault? rules = some (.lookupCycle path)) :
    Cycle.IsCycle (lookupsOf rules) (rules.map head) path ∧ Cycle.Refers (lookupsOf rules) = LooksUp rules ∧
      ∀ rule ∈ rules, ∀ target ∈ rule.lookups, ¬ Offends rules rule target := by
  have hspec := fault?_spec rules
  rw [h] at hspec
  obtain ⟨-, hrejected⟩ := hspec
  cases hrejected with
  | cycle hdistinct hsound =>
    have hfind := Cycle.find?_spec (mem_heads_of_mem_lookupsOf hdistinct hsound)
    have hpath : Cycle.find? (lookupsOf rules) (rules.map head) = some path := by
      unfold fault? at h
      rcases Option.or_eq_some_iff.1 h with h | ⟨-, h⟩
      · simp at h
      rcases Option.or_eq_some_iff.1 h with h | ⟨-, h⟩
      · obtain ⟨rule, hrule, hfault⟩ := List.exists_of_findSome?_eq_some h
        rw [lookupsFault?_eq_none_iff.2 (hsound rule hrule)] at hfault
        cases hfault
      · simpa using h
    rw [hpath] at hfind
    exact ⟨hfind, funext₂ fun a b => propext (mem_lookupsOf hdistinct), hsound⟩

end Rule

namespace RuleSet

theorem ofRules_eq_ok_iff {rules : List Rule} {set : RuleSet} :
    ofRules rules = .ok set ↔ set.rules = rules := by
  unfold ofRules
  constructor
  · intro h
    split at h
    · cases h
      rfl
    · cases h
  · rintro rfl
    split
    · rfl
    · rename_i fault hfault
      rw [set.sound] at hfault
      cases hfault

/-- A list of `rules` is rejected with the `fault` that is found in it. -/
theorem ofRules_eq_error_iff {rules : List Rule} {fault : Fault} :
    ofRules rules = .error fault ↔ Rule.fault? rules = some fault := by
  unfold ofRules
  constructor
  · intro h
    split at h
    · cases h
    · rename_i other hother
      cases h
      exact hother
  · intro h
    split
    · rename_i hnone
      rw [h] at hnone
      cases hnone
    · rename_i other hother
      rw [h] at hother
      rw [Option.some.inj hother]

theorem exists_ofRules_eq_ok {rules : List Rule} (h : Rule.WellFormed rules) :
    ∃ set, ofRules rules = .ok set := by
  cases hrules : ofRules rules with
  | ok set => exact ⟨set, rfl⟩
  | error fault =>
    have hspec := Rule.fault?_spec rules
    rw [ofRules_eq_error_iff.1 hrules] at hspec
    exact absurd h hspec.1

theorem wellFormed (set : RuleSet) : Rule.WellFormed set.rules := by
  have hspec := Rule.fault?_spec set.rules
  rw [set.sound] at hspec
  exact hspec

theorem find?_eq_some_iff {set : RuleSet} {name : String} {rule : Rule} :
    set.find? name = some rule ↔ rule ∈ set.rules ∧ rule.head = name :=
  Rule.find?_eq_some_iff set.wellFormed.distinct

theorem find?_eq_none {set : RuleSet} {name : String} (h : name ∉ set.rules.map Rule.head) :
    set.find? name = none := by
  refine List.find?_eq_none.2 fun rule hrule hhead => h ?_
  exact List.mem_map.2 ⟨rule, hrule, by simpa using hhead⟩

theorem mem_lookupsOf {set : RuleSet} {a b : String} :
    b ∈ set.lookupsOf a ↔ Rule.LooksUp set.rules a b :=
  Rule.mem_lookupsOf set.wellFormed.distinct

theorem lookupsOf_eq_targets {set : RuleSet} {name : String} {rule : Rule}
    (h : set.find? name = some rule) : set.lookupsOf name = rule.targets := by
  have h : Rule.find? set.rules name = some rule := h
  simp [lookupsOf, Rule.lookupsOf, h]

theorem mem_lookupsOf_of_target? {set : RuleSet} {name target : String} {rule : Rule} {literal : Literal}
    (h : set.find? name = some rule) (hliteral : literal ∈ rule.cnf.literals)
    (htarget : literal.target? = some target) : target ∈ set.lookupsOf name := by
  rw [lookupsOf_eq_targets h, Rule.mem_targets]
  exact List.mem_filterMap.2 ⟨literal, hliteral, htarget⟩

/-- Going from rule to rule by lookups ends: no rule leads back to itself, and a name without a rule looks up
nothing. -/
theorem wellFounded_lookups (set : RuleSet) : WellFounded fun b a => b ∈ set.lookupsOf a := by
  have hwf := set.wellFormed
  have hspec := Cycle.find?_spec
    (Rule.mem_heads_of_mem_lookupsOf hwf.distinct hwf.not_offends)
  rw [(Rule.find?_cycle_eq_none_iff hwf.distinct hwf.not_offends).2 hwf.acyclic] at hspec
  refine ⟨fun name => ?_⟩
  by_cases hname : name ∈ set.rules.map Rule.head
  · exact hspec name hname
  · refine Acc.intro _ fun target htarget => ?_
    obtain ⟨rule, hrule, hhead, -⟩ := mem_lookupsOf.1 htarget
    exact absurd (List.mem_map.2 ⟨rule, hrule, hhead⟩) hname

/-- A list of rules is accepted exactly if it is well formed. Then each name finds its rule, and the
lookups of a rule are listed once each, in the order in which they are first seen. Otherwise the fault
names the first thing that is wrong. -/
theorem ofRules_accepts_wellFormed (rules : List Rule) :
    match ofRules rules with
    | .ok set => Rule.WellFormed rules ∧
        (∀ name rule, set.find? name = some rule ↔ rule ∈ rules ∧ rule.head = name) ∧
        ∀ rule ∈ rules, FirstSeen rule.lookups (set.lookupsOf rule.head)
    | .error fault => ¬ Rule.WellFormed rules ∧ Rule.Rejected rules fault := by
  have hspec := Rule.fault?_spec rules
  cases hrules : ofRules rules with
  | error fault =>
    rw [ofRules_eq_error_iff.1 hrules] at hspec
    exact hspec
  | ok set =>
    obtain rfl := ofRules_eq_ok_iff.1 hrules
    refine ⟨set.wellFormed, fun name rule => find?_eq_some_iff, fun rule hrule => ?_⟩
    rw [lookupsOf_eq_targets (find?_eq_some_iff.2 ⟨hrule, rfl⟩)]
    exact rule.firstSeen_targets

/-- A cycle that is reported is one: it runs through two different rules at least and ends where it starts, no other
name comes twice, all names are those of rules, and each of these looks up the next. A cycle through one rule only
would be a lookup of the rule itself, which is another fault. -/
theorem reported_cycle_is_real {rules : List Rule} {path : List String}
    (h : ofRules rules = .error (.lookupCycle path)) :
    3 ≤ path.length ∧
    (∃ name inner, path = name :: inner ++ [name] ∧ (name :: inner).Nodup) ∧
    (∀ name ∈ path, name ∈ rules.map Rule.head) ∧
    path.IsChain (Rule.LooksUp rules) := by
  obtain ⟨hcycle, hrefers, hsound⟩ := Rule.isCycle_of_fault? (ofRules_eq_error_iff.1 h)
  have hchain := hcycle.chain
  rw [hrefers] at hchain
  refine ⟨?_, hcycle.ends, hcycle.subset, hchain⟩
  obtain ⟨name, inner, rfl, -⟩ := hcycle.ends
  cases inner with
  | nil =>
    obtain ⟨rule, hrule, rfl, hself⟩ := List.isChain_pair.1 hchain
    exact absurd (.inl rfl) (hsound rule hrule rule.head hself)
  | cons second rest => simp

/-- The rule that the search starts from leads into the cycle but is not on it. -/
theorem reported_cycle_is_real_start_outside :
    let rules : List Rule := [⟨"meal", ⟨[[.lookup "fruit" false]]⟩⟩,
      ⟨"fruit", ⟨[[.ofTerm (.exactly "fig") false, .lookup "tree" true]]⟩⟩,
      ⟨"tree", ⟨[[.lookup "fruit" false]]⟩⟩]
    ofRules rules = .error (.lookupCycle ["fruit", "tree", "fruit"]) ∧
      3 ≤ ["fruit", "tree", "fruit"].length ∧
      (∃ name inner, ["fruit", "tree", "fruit"] = name :: inner ++ [name] ∧ (name :: inner).Nodup) ∧
      (∀ name ∈ ["fruit", "tree", "fruit"], name ∈ rules.map Rule.head) ∧
      ["fruit", "tree", "fruit"].IsChain (Rule.LooksUp rules) := by
  intro rules
  have hrules : ofRules rules = .error (.lookupCycle ["fruit", "tree", "fruit"]) :=
    ofRules_eq_error_iff.2 (by decide)
  exact ⟨hrules, reported_cycle_is_real hrules⟩

end RuleSet

end Tagging
