import Tagging.Proofs.Caching

/-!
# What a rule finds depends on the rules it reaches

The rules that a rule leads to by lookups settle what it finds, and no others have a part in it. Neither the
order of the rules nor the presence of unrelated ones makes a difference, although both decide which outcomes
are in the cache when a lookup is met. Whether a list is accepted does not depend on its order either, and
it makes no difference whether rules are listed or filed under their names.
-/

namespace Tagging

open Relation

theorem Rule.WellFormed.perm {rules rules' : List Rule} (h : WellFormed rules)
    (hperm : rules.Perm rules') : WellFormed rules' where
  distinct := (hperm.map head).nodup_iff.1 h.distinct
  defined rule hrule target htarget := by
    obtain ⟨other, hother, hhead⟩ := h.defined rule (hperm.mem_iff.2 hrule) target htarget
    exact ⟨other, hperm.mem_iff.1 hother, hhead⟩
  acyclic rule hrule := by
    have hlooksUp : LooksUp rules' = LooksUp rules := by
      funext a b
      simp only [LooksUp, hperm.mem_iff]
    rw [hlooksUp]
    exact h.acyclic rule (hperm.mem_iff.2 hrule)

namespace RuleSet

/-- Following lookups from one rule leads to another, or to the rule itself if none is followed. -/
def Reaches (set : RuleSet) : String → String → Prop :=
  ReflTransGen fun a b => b ∈ set.lookupsOf a

variable {a b : RuleSet} {tokens : List Token}

/-- Rules that are the same as far as lookups lead from `head` have one verdict. The induction is along the lookups
of `a`; `b` has the same ones as far as they lead. -/
theorem verdict_congr (tokens : List Token) (head : String)
    (h : ∀ name, a.Reaches head name → a.find? name = b.find? name) :
    a.verdict tokens head = b.verdict tokens head := by
  induction head using a.wellFounded_lookups.induction with
  | _ head ih =>
    rw [verdict_eq, verdict_eq, ← h head .refl]
    cases hfind : a.find? head with
    | none => rfl
    | some rule =>
      refine Cnf.verdict_congr fun literal hliteral => Literal.verdict_congr fun target htarget => ?_
      have hlookup : target ∈ a.lookupsOf head := mem_lookupsOf_of_target? hfind hliteral htarget
      exact ih target hlookup fun name hreaches => h name (.head hlookup hreaches)

/-- Sets that have the same rule under every name find the same. -/
theorem evaluate_congr (tokens : List Token) (h : ∀ name, a.find? name = b.find? name) :
    a.evaluate tokens = b.evaluate tokens := by
  have hentries : (a.evaluate tokens).entries = (b.evaluate tokens).entries := by
    refine (Catalog.ordered_ofList _).eq_of_lookup_eq (Catalog.ordered_ofList _) fun name => ?_
    have hverdict := verdict_congr tokens name fun other _ => h other
    exact (a.find?_evaluate tokens name).trans (hverdict ▸ (b.find?_evaluate tokens name).symm)
  exact congrArg Catalog.mk hentries

/-! ## The order of the rules -/

/-- Both are accepted or neither is, and if they are, they find the same in every text. -/
def Alike (x y : Except Fault RuleSet) : Prop :=
  match x, y with
  | .ok a, .ok b => ∀ tokens, a.evaluate tokens = b.evaluate tokens
  | .error _, .error _ => True
  | _, _ => False

theorem find?_eq_of_perm (h : a.rules.Perm b.rules) (name : String) : a.find? name = b.find? name := by
  refine Option.ext fun rule => ?_
  rw [find?_eq_some_iff, find?_eq_some_iff, h.mem_iff]

/-- In another order `rules` are accepted or not as before, and find the same. -/
theorem alike_of_perm {rules rules' : List Rule} (h : rules.Perm rules') :
    Alike (ofRules rules) (ofRules rules') := by
  cases ha : ofRules rules with
  | ok a =>
    obtain rfl := ofRules_eq_ok_iff.1 ha
    obtain ⟨b, hb⟩ := exists_ofRules_eq_ok (a.wellFormed.perm h)
    rw [hb]
    obtain rfl := ofRules_eq_ok_iff.1 hb
    exact fun tokens => evaluate_congr tokens (find?_eq_of_perm h)
  | error fault =>
    cases hb : ofRules rules' with
    | ok b =>
      obtain rfl := ofRules_eq_ok_iff.1 hb
      obtain ⟨a, ha'⟩ := exists_ofRules_eq_ok (b.wellFormed.perm h.symm)
      rw [ha'] at ha
      cases ha
    | error fault' => trivial

/-- Rules that are filed under their names are put into the order of these. -/
theorem ofKeyed_eq_ofRules {entries : List (String × Rule)} (hdistinct : (entries.map Prod.fst).Nodup)
    (hown : ∀ entry ∈ entries, entry.1 = entry.2.head) :
    ofKeyed entries = ofRules (Catalog.ofList entries).values := by
  unfold ofKeyed
  dsimp only
  split
  case h_1 key rule hmisfiled =>
    have hmem := (Catalog.ofList_perm hdistinct).mem_iff.1 (List.mem_of_find?_eq_some hmisfiled)
    have hne := List.find?_some hmisfiled
    exact absurd (hown _ hmem) (bne_iff_ne.1 hne)
  case h_2 => rfl

/-! ## Unrelated rules -/

theorem mem_heads_of_reaches {head name : String} (hhead : head ∈ a.rules.map Rule.head)
    (h : a.Reaches head name) : name ∈ a.rules.map Rule.head := by
  cases h with
  | refl => exact hhead
  | tail _ hlookup =>
    obtain ⟨rule, hrule, -, htarget⟩ := mem_lookupsOf.1 hlookup
    obtain ⟨other, hother, rfl⟩ := a.wellFormed.defined rule hrule _ htarget
    exact List.mem_map_of_mem hother

theorem find?_eq_of_subset (h : a.rules ⊆ b.rules) {name : String}
    (hname : name ∈ a.rules.map Rule.head) : a.find? name = b.find? name := by
  obtain ⟨rule, hrule, rfl⟩ := List.mem_map.1 hname
  rw [find?_eq_some_iff.2 ⟨hrule, rfl⟩, find?_eq_some_iff.2 ⟨h hrule, rfl⟩]

/-- What a rule finds depends only on the rules that it reaches. So a list of rules is accepted or not, and
finds the same, in whatever order the rules are given and also when they are filed under their names; and
what is found by the rules of a set is found by them in every larger set. -/
theorem evaluate_depends_on_reached (tokens : List Token) :
    (∀ (a b : RuleSet) (head : String), (∀ name, a.Reaches head name → a.find? name = b.find? name) →
      (a.evaluate tokens).find? head = (b.evaluate tokens).find? head) ∧
    (∀ rules rules' : List Rule, rules.Perm rules' → Alike (ofRules rules) (ofRules rules')) ∧
    (∀ entries : List (String × Rule), (entries.map Prod.fst).Nodup →
      (∀ entry ∈ entries, entry.1 = entry.2.head) →
      Alike (ofKeyed entries) (ofRules (entries.map Prod.snd))) ∧
    ∀ a b : RuleSet, a.rules ⊆ b.rules → ∀ rule ∈ a.rules,
      (b.evaluate tokens).find? rule.head = (a.evaluate tokens).find? rule.head := by
  have hlocal : ∀ (a b : RuleSet) (head : String),
      (∀ name, a.Reaches head name → a.find? name = b.find? name) →
      (a.evaluate tokens).find? head = (b.evaluate tokens).find? head := by
    intro a b head h
    rw [find?_evaluate, find?_evaluate, verdict_congr tokens head h]
  refine ⟨hlocal, fun rules rules' => alike_of_perm, fun entries hdistinct hown => ?_, ?_⟩
  · rw [ofKeyed_eq_ofRules hdistinct hown]
    exact alike_of_perm ((Catalog.ofList_perm hdistinct).map Prod.snd)
  · intro a b hsubset rule hrule
    refine (hlocal a b rule.head fun name hreaches => ?_).symm
    exact find?_eq_of_subset hsubset (mem_heads_of_reaches (List.mem_map_of_mem hrule) hreaches)

/-- A rule that looks up another, in a set with a third rule that looks up the first and in one without. -/
theorem evaluate_depends_on_reached_larger_set :
    let fruit : Rule := ⟨"fruit", ⟨[[.ofTerm (.exactly "fig") false]]⟩⟩
    let meal : Rule := ⟨"meal", ⟨[[.lookup "fruit" false]]⟩⟩
    let fast : Rule := ⟨"fast", ⟨[[.lookup "meal" true]]⟩⟩
    let a : RuleSet := ⟨[meal, fruit], by decide⟩
    let b : RuleSet := ⟨[fast, fruit, meal], by decide⟩
    let tokens : List Token := [{ word := "fig" }]
    ((∀ name, a.Reaches "meal" name → a.find? name = b.find? name) ∧
      (a.evaluate tokens).find? "meal" = (b.evaluate tokens).find? "meal") ∧
    ([fruit, meal].Perm [meal, fruit] ∧ Alike (ofRules [fruit, meal]) (ofRules [meal, fruit])) ∧
    ((["meal", "fruit"].Nodup ∧ ∀ entry ∈ [("meal", meal), ("fruit", fruit)], entry.1 = entry.2.head) ∧
      Alike (ofKeyed [("meal", meal), ("fruit", fruit)]) (ofRules [meal, fruit])) ∧
    a.rules ⊆ b.rules ∧ fruit ∈ a.rules ∧
      (b.evaluate tokens).find? "fruit" = (a.evaluate tokens).find? "fruit" := by
  intro fruit meal fast a b tokens
  obtain ⟨hlocal, hperm, hkeyed, hsubset⟩ := evaluate_depends_on_reached tokens
  have hrules : a.rules ⊆ b.rules := by decide
  have hreached : ∀ name, a.Reaches "meal" name → a.find? name = b.find? name :=
    fun name hreaches => find?_eq_of_subset hrules (mem_heads_of_reaches (by decide) hreaches)
  have hswap : [fruit, meal].Perm [meal, fruit] := .swap meal fruit []
  have hown : ∀ entry ∈ [("meal", meal), ("fruit", fruit)], entry.1 = entry.2.head := by decide
  exact ⟨⟨hreached, hlocal a b "meal" hreached⟩, ⟨hswap, hperm _ _ hswap⟩,
    ⟨⟨by decide, hown⟩, hkeyed _ (by decide) hown⟩, hrules, by decide,
    hsubset a b hrules fruit (by decide)⟩

end RuleSet

end Tagging
