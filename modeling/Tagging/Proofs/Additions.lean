import Tagging.Proofs.Locality

/-!
# An evaluation only adds to the cache

What becomes known during an evaluation is new each time. Whether what is known already is right or wrong, it
stays as it is, and no outcome is made known twice. For a rule to be made known there has to be a way to it by
lookups, and as rules do not lead back to themselves, nothing below a rule that is being evaluated makes this
rule known.
-/

namespace Tagging

/-! ## Caches -/

namespace Cache

variable {cache : Cache} {name : String} {entries : List (String × Outcome)}

/-- Makes outcomes known one after the other. -/
def putAll (cache : Cache) (entries : List (String × Outcome)) : Cache :=
  entries.foldl (fun cache entry => cache.put entry.1 entry.2) cache

theorem get?_putAll_of_notMem (h : name ∉ entries.map Prod.fst) :
    (cache.putAll entries).get? name = cache.get? name := by
  induction entries generalizing cache with
  | nil => rfl
  | cons entry rest ih =>
    rw [List.map_cons, List.mem_cons, not_or] at h
    exact (ih h.2).trans (get?_put_of_ne cache entry.2 h.1)

/-- A `name` is not known only if it was not known before and is not among `entries`. -/
theorem get?_putAll_eq_none_iff : (cache.putAll entries).get? name = none ↔
    cache.get? name = none ∧ name ∉ entries.map Prod.fst := by
  induction entries generalizing cache with
  | nil => simp [putAll]
  | cons entry rest ih =>
    have hrest : ((cache.put entry.1 entry.2).putAll rest).get? name = none ↔
        (cache.put entry.1 entry.2).get? name = none ∧ name ∉ rest.map Prod.fst := ih
    refine hrest.trans ?_
    rw [List.map_cons, List.mem_cons, not_or]
    by_cases hname : name = entry.1
    · simp [hname]
    · simp [hname, get?_put_of_ne cache entry.2 hname]

/-- What is known either is among `entries` or was known before. -/
theorem mem_or_get?_of_get?_putAll {outcome : Outcome} (h : (cache.putAll entries).get? name = some outcome) :
    (name, outcome) ∈ entries ∨ cache.get? name = some outcome := by
  induction entries generalizing cache with
  | nil => exact .inr h
  | cons entry rest ih =>
    have hrest : ((cache.put entry.1 entry.2).putAll rest).get? name = some outcome := h
    rcases ih hrest with h | h
    · exact .inl (List.mem_cons_of_mem _ h)
    · by_cases hname : name = entry.1
      · subst hname
        rw [get?_put_self] at h
        cases h
        exact .inl (List.mem_cons_self ..)
      · rw [get?_put_of_ne cache entry.2 hname] at h
        exact .inr h

end Cache

/-! ## Additions -/

/-- Outcomes that are made known one after the other: only what the cache does not know, each rule once, and
only outcomes that are allowed. -/
structure Additions (allowed : String → Outcome → Prop) (cache : Cache) (told : List (String × Outcome)) :
    Prop where
  nodup : (told.map Prod.fst).Nodup
  unknown : ∀ name ∈ told.map Prod.fst, cache.get? name = none
  allowed : ∀ name outcome, (name, outcome) ∈ told → allowed name outcome

namespace Additions

variable {allowed allowed' : String → Outcome → Prop} {cache : Cache} {told later : List (String × Outcome)}
  {name : String} {outcome : Outcome}

theorem nil : Additions allowed cache [] :=
  ⟨List.nodup_nil, fun _ h => (nomatch h), fun _ _ h => (nomatch h)⟩

theorem single (hunknown : cache.get? name = none) (hallowed : allowed name outcome) :
    Additions allowed cache [(name, outcome)] := by
  refine ⟨List.nodup_singleton _, fun other hother => ?_, fun other known hother => ?_⟩
  · rwa [List.mem_singleton.1 hother]
  · cases List.mem_singleton.1 hother
    exact hallowed

theorem mono (h : Additions allowed cache told)
    (hallowed : ∀ name outcome, allowed name outcome → allowed' name outcome) :
    Additions allowed' cache told :=
  ⟨h.nodup, h.unknown, fun name outcome htold => hallowed _ _ (h.allowed name outcome htold)⟩

/-- Additions after additions are additions. What `later` has was not known in between, so neither before. -/
theorem append (h : Additions allowed cache told) (hlater : Additions allowed (cache.putAll told) later) :
    Additions allowed cache (told ++ later) := by
  have hunknown : ∀ name ∈ later.map Prod.fst, cache.get? name = none ∧ name ∉ told.map Prod.fst :=
    fun name hname => Cache.get?_putAll_eq_none_iff.1 (hlater.unknown name hname)
  refine ⟨?_, fun name hname => ?_, fun name outcome htold => ?_⟩
  · rw [List.map_append]
    refine List.nodup_append.2 ⟨h.nodup, hlater.nodup, fun a ha b hb => ?_⟩
    rintro rfl
    exact (hunknown a hb).2 ha
  · rw [List.map_append] at hname
    rcases List.mem_append.1 hname with hname | hname
    · exact h.unknown name hname
    · exact (hunknown name hname).1
  · rcases List.mem_append.1 htold with htold | htold
    · exact h.allowed name outcome htold
    · exact hlater.allowed name outcome htold

/-- What the `cache` knows stays as it is. -/
theorem get?_putAll (h : Additions allowed cache told) (hknown : cache.get? name = some outcome) :
    (cache.putAll told).get? name = some outcome := by
  rw [Cache.get?_putAll_of_notMem, hknown]
  intro hname
  rw [h.unknown name hname] at hknown
  cases hknown

end Additions

/-! ## What an inquiry makes known -/

namespace Inquiry

variable {α β : Type} {inquiry : Inquiry α} {cache : Cache} {name : String}

/-- What an inquiry makes known while it is followed, in this order. -/
def told : Inquiry α → Cache → List (String × Outcome)
  | done _, _ => []
  | get name next, cache => (next (cache.get? name)).told cache
  | put name outcome next, cache => (name, outcome) :: next.told (cache.put name outcome)

/-- What an `inquiry` leaves is the cache it began with and what it has `told`. -/
theorem run_snd_eq (inquiry : Inquiry α) (cache : Cache) :
    (inquiry.run cache).2 = cache.putAll (inquiry.told cache) := by
  induction inquiry generalizing cache with
  | done answer => rfl
  | get name next ih => exact ih _ _
  | put name outcome next ih => exact ih _

/-- First the `inquiry` tells what it has to, then what goes on with its answer. -/
theorem told_bind (inquiry : Inquiry α) (next : α → Inquiry β) (cache : Cache) :
    (inquiry.bind next).told cache =
      inquiry.told cache ++ (next (inquiry.run cache).1).told (inquiry.run cache).2 := by
  induction inquiry generalizing cache with
  | done answer => rfl
  | get name rest ih => exact ih _ _
  | put name outcome rest ih => exact congrArg ((name, outcome) :: ·) (ih _)

/-- Inquiries one after the other. -/
def inTurn : List (Inquiry α) → Inquiry (List α)
  | [] => done []
  | inquiry :: rest =>
    inquiry.bind fun answer => (inTurn rest).bind fun answers => done (answer :: answers)

theorem run_inTurn_cons (inquiry : Inquiry α) (rest : List (Inquiry α)) (cache : Cache) :
    (inTurn (inquiry :: rest)).run cache =
      ((inquiry.run cache).1 :: ((inTurn rest).run (inquiry.run cache).2).1,
        ((inTurn rest).run (inquiry.run cache).2).2) := by
  rw [inTurn, run_bind, run_bind, run]

theorem run_inTurn (inquiries : List (Inquiry α)) :
    ∀ cache, (inTurn inquiries).run cache = runAll inquiries cache := by
  induction inquiries with
  | nil => exact fun cache => rfl
  | cons inquiry rest ih =>
    intro cache
    rw [run_inTurn_cons, ih]
    rfl

theorem get?_run_ne_none (inquiry : Inquiry α) (h : cache.get? name ≠ none) :
    (inquiry.run cache).2.get? name ≠ none := by
  rw [run_snd_eq]
  exact fun hnone => h (Cache.get?_putAll_eq_none_iff.1 hnone).1

theorem get?_run_inTurn_ne_none {inquiries : List (Inquiry α)} (hmem : inquiry ∈ inquiries)
    (h : ∀ cache, (inquiry.run cache).2.get? name ≠ none) :
    ∀ cache, ((inTurn inquiries).run cache).2.get? name ≠ none := by
  induction inquiries with
  | nil => cases hmem
  | cons first rest ih =>
    intro cache
    rw [run_inTurn_cons]
    rcases List.mem_cons.1 hmem with rfl | hmem
    · exact get?_run_ne_none _ (h cache)
    · exact ih hmem _

/-! ## Inquiries that only add -/

/-- Whatever is known, the inquiry only adds to it. -/
def Adds (allowed : String → Outcome → Prop) (inquiry : Inquiry α) : Prop :=
  ∀ cache, Additions allowed cache (inquiry.told cache)

variable {allowed allowed' : String → Outcome → Prop}

theorem adds_done (answer : α) : Adds allowed (done answer) := fun _ => .nil

theorem Adds.mono (h : Adds allowed inquiry)
    (hallowed : ∀ name outcome, allowed name outcome → allowed' name outcome) : Adds allowed' inquiry :=
  fun cache => (h cache).mono hallowed

theorem Adds.bind {next : α → Inquiry β} (h : Adds allowed inquiry)
    (hnext : ∀ answer, Adds allowed (next answer)) : Adds allowed (inquiry.bind next) := by
  intro cache
  rw [told_bind, run_snd_eq]
  exact (h cache).append (hnext _ _)

/-- Inquiries that only add, whatever they answer. -/
def adding (allowed : String → Outcome → Prop) : Correspondence Inquiry Id where
  Rel inquiry _ := Adds allowed inquiry
  rel_pure := adds_done
  rel_bind := Adds.bind

theorem adds_inTurn {inquiries : List (Inquiry α)} (h : ∀ inquiry ∈ inquiries, Adds allowed inquiry) :
    Adds allowed (inTurn inquiries) := by
  induction inquiries with
  | nil => exact adds_done []
  | cons inquiry rest ih =>
    obtain ⟨hfirst, hrest⟩ := List.forall_mem_cons.1 h
    exact hfirst.bind fun answer => (ih hrest).bind fun answers => adds_done _

end Inquiry

open Inquiry Relation

/-! ## Inquiries into rules -/

theorem Cnf.adds_findAsking {allowed : String → Outcome → Prop} {tokens : List Token} {cnf : Cnf}
    {outcomeOf : String → Inquiry Outcome} (h : ∀ name ∈ cnf.targets, Adds allowed (outcomeOf name)) :
    Adds allowed (cnf.findAsking tokens outcomeOf) := by
  have hask : ∀ literal ∈ cnf.literals, (adding allowed).Rel (literal.answer tokens outcomeOf)
      (pure none) := by
    intro literal hliteral
    show Adds allowed (literal.answer tokens outcomeOf)
    unfold Literal.answer
    cases htarget : literal.target? with
    | none => exact adds_done _
    | some name =>
      exact (h name (Cnf.mem_targets.2 ⟨literal, hliteral, htarget⟩)).bind fun outcome => adds_done _
  exact Cnf.rel_findBy (adding allowed) hask tokens.length

namespace RuleSet

variable (set : RuleSet) (tokens : List Token) {name target : String}

/-- No rule is reached from a `target` that it looks up. -/
theorem not_reaches_of_mem_lookupsOf (h : target ∈ set.lookupsOf name) : ¬ set.Reaches target name := by
  intro hreaches
  have hloop : TransGen (fun a b => b ∈ set.lookupsOf a) name name := .head' h hreaches
  exact Cycle.not_transGen_of_acc (set.wellFounded_lookups.apply name) (transGen_swap.2 hloop)

/-- What an inquiry into rules may make known: outcomes of rules that it leads to, and that nothing is found
for names without a rule. -/
def MayTell (starts : List String) (name : String) (outcome : Outcome) : Prop :=
  (∃ start ∈ starts, set.Reaches start name) ∧ (name ∉ set.rules.map Rule.head → outcome = none)

/-- A rule that is known makes nothing known; otherwise `name` itself is made known in the end. -/
theorem told_outcome (name : String) (cache : Cache) :
    (cache.get? name ≠ none ∧ (set.outcome tokens name).told cache = []) ∨
    (cache.get? name = none ∧ (set.outcome tokens name).told cache =
      (set.search tokens name).told cache ++ [(name, ((set.search tokens name).run cache).1)]) := by
  rw [outcome_eq, told]
  cases cache.get? name with
  | some outcome => exact .inl ⟨Option.some_ne_none outcome, rfl⟩
  | none => exact .inr ⟨rfl, told_bind _ _ _⟩

theorem adds_find_of_targets {cnf : Cnf}
    (h : ∀ target ∈ cnf.targets, Adds (set.MayTell [target]) (set.outcome tokens target)) :
    Adds (set.MayTell cnf.targets) (set.find tokens cnf) := by
  refine Cnf.adds_findAsking fun target htarget => (h target htarget).mono ?_
  rintro other outcome ⟨⟨start, hstart, hreaches⟩, hnone⟩
  rw [List.mem_singleton.1 hstart] at hreaches
  exact ⟨⟨target, htarget, hreaches⟩, hnone⟩

/-- Below a rule, a search only tells of what its lookups lead to. -/
theorem adds_search (name : String)
    (h : ∀ target ∈ set.lookupsOf name, Adds (set.MayTell [target]) (set.outcome tokens target)) :
    Adds (set.MayTell (set.lookupsOf name)) (set.search tokens name) := by
  unfold search
  cases hfind : set.find? name with
  | none => exact adds_done none
  | some rule =>
    rw [lookupsOf_eq_targets hfind]
    exact set.adds_find_of_targets tokens fun target htarget =>
      h target (mem_lookupsOf_of_find? hfind htarget)

/-- An inquiry into a rule only adds to what is known. The search goes on below the rule only, so it does not make
known `name` itself. -/
theorem adds_outcome (name : String) : Adds (set.MayTell [name]) (set.outcome tokens name) := by
  induction name using set.wellFounded_lookups.induction with
  | _ name ih =>
    have hsearch := set.adds_search tokens name ih
    intro cache
    rcases set.told_outcome tokens name cache with ⟨-, htold⟩ | ⟨hunknown, htold⟩
    · rw [htold]
      exact .nil
    have hown : name ∉ ((set.search tokens name).told cache).map Prod.fst := by
      intro hname
      obtain ⟨⟨_, outcome⟩, htold, rfl⟩ := List.mem_map.1 hname
      obtain ⟨⟨target, htarget, hreaches⟩, -⟩ := (hsearch cache).allowed _ outcome htold
      exact set.not_reaches_of_mem_lookupsOf htarget hreaches
    rw [htold]
    refine .append ((hsearch cache).mono ?_) (.single (Cache.get?_putAll_eq_none_iff.2 ⟨hunknown, hown⟩) ?_)
    · rintro other outcome ⟨⟨target, htarget, hreaches⟩, hnone⟩
      exact ⟨⟨name, by simp, .head htarget hreaches⟩, hnone⟩
    · refine ⟨⟨name, by simp, .refl⟩, fun hname => ?_⟩
      unfold search
      rw [find?_eq_none hname]
      rfl

/-- In the end `name` is known, if it was not before. -/
theorem get?_run_outcome_ne_none (name : String) (cache : Cache) :
    ((set.outcome tokens name).run cache).2.get? name ≠ none := by
  rw [run_snd_eq]
  rcases set.told_outcome tokens name cache with ⟨hknown, htold⟩ | ⟨-, htold⟩
  · rw [htold]
    exact hknown
  · intro hnone
    rw [htold] at hnone
    exact (Cache.get?_putAll_eq_none_iff.1 hnone).2 (by simp)

/-! ## What is known after an evaluation -/

/-- A search for a clausal form that began with one cache and ended with another has added to what was known,
each rule once. -/
structure OnlyAdded (cnf : Cnf) (before after : Cache) (told : List (String × Outcome)) : Prop where
  all : after = before.putAll told
  once : (told.map Prod.fst).Nodup
  kept : ∀ name outcome, before.get? name = some outcome → after.get? name = some outcome
  reached : ∀ name, before.get? name = none → after.get? name ≠ none →
    ∃ target ∈ cnf.targets, set.Reaches target name
  missing : ∀ name outcome, before.get? name = none → after.get? name = some outcome →
    name ∉ set.rules.map Rule.head → outcome = none

/-- A search for a clausal form has only added to the `cache` it began with. -/
theorem onlyAdded_find (cnf : Cnf) (cache : Cache) : set.OnlyAdded cnf cache
    ((set.find tokens cnf).run cache).2 ((set.find tokens cnf).told cache) := by
  have hadds := set.adds_find_of_targets tokens fun target (_ : target ∈ cnf.targets) =>
    set.adds_outcome tokens target
  have hnew : ∀ name outcome, cache.get? name = none →
      ((set.find tokens cnf).run cache).2.get? name = some outcome →
      set.MayTell cnf.targets name outcome := by
    intro name outcome hunknown hknown
    rw [run_snd_eq] at hknown
    rcases Cache.mem_or_get?_of_get?_putAll hknown with htold | hknown
    · exact (hadds cache).allowed name outcome htold
    · rw [hunknown] at hknown
      cases hknown
  exact
    { all := run_snd_eq _ cache
      once := (hadds cache).nodup
      kept := fun name outcome hknown => by
        rw [run_snd_eq]
        exact (hadds cache).get?_putAll hknown
      reached := fun name hunknown hknown => by
        obtain ⟨outcome, houtcome⟩ := Option.ne_none_iff_exists'.1 hknown
        exact (hnew name outcome hunknown houtcome).1
      missing := fun name outcome hunknown hknown => (hnew name outcome hunknown hknown).2 }

theorem adds_outcomes :
    Adds (fun name _ => name ∈ set.rules.map Rule.head) (inTurn (set.outcomes tokens)) := by
  refine adds_inTurn fun inquiry hinquiry => ?_
  obtain ⟨rule, hrule, rfl⟩ := List.mem_map.1 hinquiry
  refine (set.adds_outcome tokens rule.head).mono ?_
  rintro name outcome ⟨⟨start, hstart, hreaches⟩, -⟩
  rw [List.mem_singleton.1 hstart] at hreaches
  exact mem_heads_of_reaches (List.mem_map_of_mem hrule) hreaches

/-- When all rules have been inquired into in turn, what was made known are their names and no others. -/
theorem mem_told_outcomes_iff (name : String) :
    name ∈ ((inTurn (set.outcomes tokens)).told .empty).map Prod.fst ↔
      name ∈ set.rules.map Rule.head := by
  constructor
  · intro hname
    obtain ⟨⟨_, outcome⟩, htold, rfl⟩ := List.mem_map.1 hname
    exact (set.adds_outcomes tokens .empty).allowed _ outcome htold
  · intro hname
    obtain ⟨rule, hrule, rfl⟩ := List.mem_map.1 hname
    have hmem : set.outcome tokens rule.head ∈ set.outcomes tokens := List.mem_map_of_mem hrule
    have hknown := get?_run_inTurn_ne_none hmem (set.get?_run_outcome_ne_none tokens rule.head) .empty
    rw [run_snd_eq] at hknown
    by_contra hnot
    exact hknown (Cache.get?_putAll_eq_none_iff.2 ⟨Cache.get?_empty _, hnot⟩)

/-- A search for a clausal form only adds to the cache, whatever that knows: what was known stays as it is,
and each rule is made known at most once. An evaluation of all rules makes known every one of them once. -/
theorem every_search_only_adds :
    (∀ cnf cache, set.OnlyAdded cnf cache ((set.find tokens cnf).run cache).2
      ((set.find tokens cnf).told cache)) ∧
    set.evaluate tokens = set.collect tokens ((inTurn (set.outcomes tokens)).run .empty).1 ∧
    (((inTurn (set.outcomes tokens)).told .empty).map Prod.fst).Perm (set.rules.map Rule.head) ∧
    (set.rules.map Rule.head).Nodup := by
  have hdistinct := set.wellFormed.distinct
  refine ⟨set.onlyAdded_find tokens, by rw [run_inTurn]; rfl, ?_, hdistinct⟩
  exact (List.perm_ext_iff_of_nodup (set.adds_outcomes tokens .empty).nodup hdistinct).2
    (set.mem_told_outcomes_iff tokens)

end RuleSet

end Tagging
