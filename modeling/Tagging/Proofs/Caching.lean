import Tagging.Proofs.Asking
import Tagging.Proofs.Catalog
import Tagging.Proofs.Memory

/-!
# The cache changes nothing

Rules share one cache of outcomes, and which of them are known at what time depends on what was asked
before. Still no answer depends on it, because an inquiry into the rules of a set is *faithful*: as long as
it is told only what is true, it makes known only what is true, and its answer is the verdict. So every
cache that holds verdicts only is left with verdicts only.
-/

namespace Tagging

namespace Cache

variable {truth : String → Outcome} {cache : Cache}

/-- Everything that is known is true. -/
def Right (truth : String → Outcome) (cache : Cache) : Prop :=
  ∀ name outcome, cache.get? name = some outcome → outcome = truth name

theorem right_empty : Right truth empty := by
  intro name outcome h
  simp at h

theorem Right.get?_eq (h : cache.Right truth) (name : String) :
    cache.get? name = none ∨ cache.get? name = some (truth name) := by
  cases hget : cache.get? name with
  | none => exact .inl rfl
  | some outcome => exact .inr (by rw [h name outcome hget])

/-- A cache stays right when the truth about `name` is made known. -/
theorem Right.put (h : cache.Right truth) (name : String) :
    (cache.put name (truth name)).Right truth := by
  intro other outcome hget
  by_cases hname : other = name
  · subst hname
    rw [get?_put_self] at hget
    exact (Option.some.inj hget).symm
  · rw [get?_put_of_ne cache _ hname] at hget
    exact h other outcome hget

end Cache

/-! ## Faithful inquiries -/

namespace Inquiry

variable {α β : Type} {truth : String → Outcome}

/-- Told only what is true, the inquiry makes known only what is true, and its answer has the property. -/
def Faithful (truth : String → Outcome) (p : α → Prop) : Inquiry α → Prop
  | done answer => p answer
  | get name next =>
    ∀ known, known = none ∨ known = some (truth name) → Faithful truth p (next known)
  | put name outcome next => outcome = truth name ∧ Faithful truth p next

/-- A faithful `inquiry`, gone on with faithfully from every answer that it may give, is faithful. -/
theorem Faithful.bind {p : α → Prop} {q : β → Prop} {inquiry : Inquiry α} {next : α → Inquiry β}
    (h : Faithful truth p inquiry) (hnext : ∀ answer, p answer → Faithful truth q (next answer)) :
    Faithful truth q (inquiry.bind next) := by
  induction inquiry with
  | done answer => exact hnext answer h
  | get name rest ih => exact fun known hknown => ih known (h known hknown)
  | put name outcome rest ih => exact ⟨h.1, ih h.2⟩

/-- An inquiry that is faithful to its answer corresponds to that answer. -/
def faithfulness (truth : String → Outcome) : Correspondence Inquiry Id where
  Rel inquiry answer := Faithful truth (· = answer.run) inquiry
  rel_pure _ := rfl
  rel_bind h hnext := h.bind fun _ hanswer => hanswer ▸ hnext _

/-- On a `cache` that is right a faithful inquiry answers as it should, and leaves a cache that is right. -/
theorem Faithful.run {p : α → Prop} {inquiry : Inquiry α} (h : Faithful truth p inquiry) :
    ∀ {cache : Cache}, cache.Right truth →
      p (inquiry.run cache).1 ∧ (inquiry.run cache).2.Right truth := by
  induction inquiry with
  | done answer => exact fun hcache => ⟨h, hcache⟩
  | get name next ih =>
    intro cache hcache
    exact ih _ (h _ (hcache.get?_eq name)) hcache
  | put name outcome next ih =>
    intro cache hcache
    obtain ⟨rfl, hnext⟩ := h
    exact ih hnext (hcache.put name)

/-- Several inquiries are faithful, each to its own answer. -/
def AllFaithful (truth : String → Outcome) (inquiries : List (Inquiry α)) (answers : List α) : Prop :=
  List.Forall₂ (fun inquiry answer => Faithful truth (· = answer) inquiry) inquiries answers

theorem AllFaithful.runAll {inquiries : List (Inquiry α)} {answers : List α}
    (h : AllFaithful truth inquiries answers) :
    ∀ {cache : Cache}, cache.Right truth → (runAll inquiries cache).1 = answers := by
  induction h with
  | nil => exact fun _ => rfl
  | cons hfirst hrest ih =>
    intro cache hcache
    obtain ⟨hanswer, hcache'⟩ := hfirst.run hcache
    simp only [Inquiry.runAll, hanswer, ih hcache']

end Inquiry

/-! ## Inquiries into rules -/

open Inquiry

/-- Asking for a `literal` is faithful to its verdict if `outcomeOf` is, for the rule that it looks up. -/
theorem Literal.faithful_answer {truth : String → Outcome} {tokens : List Token} {literal : Literal}
    {outcomeOf : String → Inquiry Outcome}
    (h : ∀ name, literal.target? = some name → Faithful truth (· = truth name) (outcomeOf name)) :
    Faithful truth (· = literal.verdict tokens truth) (literal.answer tokens outcomeOf) := by
  unfold answer verdict
  cases htarget : literal.target? with
  | none => exact rfl
  | some name =>
    refine (h name htarget).bind ?_
    rintro outcome rfl
    exact rfl

/-- A search is faithful to the verdict on `cnf` if `outcomeOf` is, for all of its targets. -/
theorem Cnf.faithful_findAsking {truth : String → Outcome} {tokens : List Token} {cnf : Cnf}
    {outcomeOf : String → Inquiry Outcome}
    (h : ∀ name ∈ cnf.targets, Faithful truth (· = truth name) (outcomeOf name)) :
    Faithful truth (· = cnf.verdict (Literal.verdict tokens truth) tokens.length)
      (cnf.findAsking tokens outcomeOf) := by
  have hask : ∀ literal ∈ cnf.literals, (faithfulness truth).Rel (literal.answer tokens outcomeOf)
      (pure (literal.verdict tokens truth)) := by
    intro literal hliteral
    exact Literal.faithful_answer fun name hname => h name (Cnf.mem_targets.2 ⟨literal, hliteral, hname⟩)
  have hfind := Cnf.rel_findBy (faithfulness truth) hask tokens.length
  rwa [Cnf.findBy_eq (uniform_verdict tokens truth)] at hfind

namespace RuleSet

variable (set : RuleSet) (tokens : List Token)

/-- An inquiry into a rule is faithful to the verdict on it. By induction along the lookups, which end. -/
theorem faithful_outcome (name : String) :
    Faithful (set.verdict tokens) (· = set.verdict tokens name) (set.outcome tokens name) := by
  induction name using set.wellFounded_lookups.induction with
  | _ name ih =>
    have hsearch : Faithful (set.verdict tokens) (· = set.verdict tokens name) (set.search tokens name) := by
      rw [verdict_eq]
      unfold search
      cases hfind : set.find? name with
      | none => exact rfl
      | some rule =>
        exact Cnf.faithful_findAsking fun target htarget => ih target (mem_lookupsOf_of_find? hfind htarget)
    rw [outcome_eq]
    rintro known (rfl | rfl)
    · refine hsearch.bind ?_
      rintro outcome rfl
      exact ⟨rfl, rfl⟩
    · exact rfl

theorem faithful_find (cnf : Cnf) :
    Faithful (set.verdict tokens)
      (· = cnf.verdict (Literal.verdict tokens (set.verdict tokens)) tokens.length)
      (set.find tokens cnf) :=
  Cnf.faithful_findAsking fun name _ => set.faithful_outcome tokens name

theorem find_run_empty (cnf : Cnf) :
    ((set.find tokens cnf).run .empty).1 =
      cnf.verdict (Literal.verdict tokens (set.verdict tokens)) tokens.length :=
  ((set.faithful_find tokens cnf).run Cache.right_empty).1

/-! ## All rules of a set -/

theorem verdict_eq_none {name : String} (h : name ∉ set.rules.map Rule.head) :
    set.verdict tokens name = none := by
  rw [verdict_eq, find?_eq_none h]

/-- Of the matches that are filed for `rules`, each is found under the head of its rule. -/
theorem lookup_filterMap (f : String → Outcome) (rules : List Rule) (name : String) :
    (rules.filterMap fun rule => (f rule.head).map fun span =>
        (rule.head, Match.ofSpan rule.head tokens span)).lookup name =
      if name ∈ rules.map Rule.head then (f name).map (Match.ofSpan name tokens) else none := by
  induction rules with
  | nil => rfl
  | cons rule rest ih =>
    rw [List.filterMap_cons, List.map_cons]
    cases hf : f rule.head with
    | none =>
      rw [Option.map_none]
      dsimp only
      rw [ih]
      by_cases hname : name = rule.head
      · subst hname
        simp [hf]
      · simp [hname]
    | some span =>
      rw [Option.map_some]
      dsimp only
      rw [Catalog.lookup_cons_eq_ite, ih]
      by_cases hname : name = rule.head
      · subst hname
        simp [hf]
      · simp [hname]

/-- Of the outcomes `f` of all rules, those are filed that have found something. -/
theorem find?_collect {f : String → Outcome} (hf : ∀ name ∉ set.rules.map Rule.head, f name = none)
    (name : String) :
    (set.collect tokens (set.rules.map fun rule => f rule.head)).find? name =
      (f name).map (Match.ofSpan name tokens) := by
  unfold collect
  rw [Catalog.find?_ofList, ← List.map_prod_left_eq_zip, List.filterMap_map, ← List.filterMap_reverse]
  refine (lookup_filterMap tokens f set.rules.reverse name).trans ?_
  by_cases hname : name ∈ set.rules.map Rule.head
  · rw [if_pos (by simpa using hname)]
  · rw [if_neg (by simpa using hname), hf name hname]
    rfl

theorem allFaithful_outcomes : AllFaithful (set.verdict tokens) (set.outcomes tokens)
    (set.rules.map fun rule => set.verdict tokens rule.head) := by
  refine List.forall₂_map_left_iff.2 (List.forall₂_map_right_iff.2 (List.forall₂_same.2 ?_))
  exact fun rule _ => set.faithful_outcome tokens rule.head

theorem evaluate_eq_collect : set.evaluate tokens =
    set.collect tokens (set.rules.map fun rule => set.verdict tokens rule.head) :=
  congrArg _ ((set.allFaithful_outcomes tokens).runAll Cache.right_empty)

/-- Under each `name` an evaluation files the verdict on the rule of that name. -/
theorem find?_evaluate (name : String) :
    (set.evaluate tokens).find? name = (set.verdict tokens name).map (Match.ofSpan name tokens) := by
  rw [evaluate_eq_collect]
  exact set.find?_collect tokens (fun name hname => set.verdict_eq_none tokens hname) name

theorem mem_names_evaluate_iff {name : String} :
    name ∈ (set.evaluate tokens).names ↔ (set.verdict tokens name).isSome := by
  rw [Catalog.mem_names_iff, find?_evaluate, Option.isSome_map]

/-- An evaluation files exactly the verdicts on the rules, and a search through a clausal form finds the
verdict on it, whatever verdicts were known before. Afterwards only verdicts are known. -/
theorem evaluate_files_verdicts :
    (∀ name, (set.evaluate tokens).find? name =
      (set.verdict tokens name).map (Match.ofSpan name tokens)) ∧
    Catalog.Ordered (set.evaluate tokens).entries ∧
    ∀ (cnf : Cnf) (cache : Cache), cache.Right (set.verdict tokens) →
      ((set.find tokens cnf).run cache).1 =
        cnf.verdict (Literal.verdict tokens (set.verdict tokens)) tokens.length ∧
      ((set.find tokens cnf).run cache).2.Right (set.verdict tokens) := by
  refine ⟨set.find?_evaluate tokens, Catalog.ordered_ofList _, fun cnf cache hcache => ?_⟩
  exact (set.faithful_find tokens cnf).run hcache

/-- A rule that looks up one whose verdict is known. -/
theorem evaluate_files_verdicts_known :
    let set : RuleSet := ⟨[⟨"fruit", ⟨[[.ofTerm (.exactly "fig") false]]⟩⟩,
      ⟨"meal", ⟨[[.lookup "fruit" false]]⟩⟩], by decide⟩
    let tokens : List Token := [{ word := "fig" }]
    let cache := Cache.empty.put "fruit" (some ⟨0, 1⟩)
    cache.Right (set.verdict tokens) ∧
      ((set.find tokens ⟨[[.lookup "meal" false]]⟩).run cache).1 = some ⟨0, 1⟩ ∧
      ((set.find tokens ⟨[[.lookup "meal" false]]⟩).run cache).2.Right (set.verdict tokens) := by
  intro set tokens cache
  have hfruit : set.verdict tokens "fruit" = some ⟨0, 1⟩ := by
    rw [verdict_eq]
    decide
  have hcache : cache.Right (set.verdict tokens) := by
    have hput : (Cache.empty.put "fruit" (set.verdict tokens "fruit")).Right (set.verdict tokens) :=
      Cache.right_empty.put "fruit"
    rwa [hfruit] at hput
  obtain ⟨-, -, hfind⟩ := evaluate_files_verdicts set tokens
  exact ⟨hcache, by decide, (hfind _ cache hcache).2⟩

end RuleSet

end Tagging
