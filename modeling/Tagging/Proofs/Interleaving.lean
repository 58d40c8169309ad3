import Tagging.Proofs.Caching
import Tagging.RuleSet.Meter

/-!
# The order of requests changes nothing

Rules that are evaluated together share one cache, and any of them may be the next to have a request
answered. What a rule is told then depends on how far the others are. Since their inquiries are faithful,
it is told only what is true, so each request leaves a cache of verdicts and inquiries that still answer
with their verdicts. This holds from one request to the next, and with it for every order of requests.

Inquiries also come to an end: each has a bound on its requests that holds for all true answers, so an
order of requests in which every rule has its turn often enough leaves nothing to be asked.
-/

namespace Tagging

namespace Inquiry

variable {α : Type} {truth : String → Outcome} {cache : Cache} {inquiry : Inquiry α}
  {inquiries : List (Inquiry α)} {answers : List α}

/-! ## One request -/

/-- When one request is answered from a `cache` that is right, the inquiry stays faithful and the cache right. -/
theorem Faithful.step {p : α → Prop} (h : Faithful truth p inquiry) (hcache : cache.Right truth) :
    Faithful truth p (inquiry.step cache).1 ∧ (inquiry.step cache).2.Right truth := by
  cases inquiry with
  | done answer => exact ⟨h, hcache⟩
  | get name next => exact ⟨h _ (hcache.get?_eq name), hcache⟩
  | put name outcome next =>
    obtain ⟨rfl, hnext⟩ := h
    exact ⟨hnext, hcache.put name⟩

/-- One request of the inquiry number `n` leaves all inquiries faithful and the cache right. -/
theorem AllFaithful.stepAt (h : AllFaithful truth inquiries answers) :
    ∀ (n : Nat) {cache : Cache}, cache.Right truth →
      AllFaithful truth (stepAt n inquiries cache).1 answers ∧
        (stepAt n inquiries cache).2.Right truth := by
  induction h with
  | nil =>
    intro n cache hcache
    cases n <;> exact ⟨.nil, hcache⟩
  | cons hfirst hrest ih =>
    intro n cache hcache
    cases n with
    | zero =>
      obtain ⟨hstep, hcache'⟩ := hfirst.step hcache
      exact ⟨.cons hstep hrest, hcache'⟩
    | succ n =>
      obtain ⟨hstep, hcache'⟩ := ih n hcache
      exact ⟨.cons hfirst hstep, hcache'⟩

/-! ## Any number of requests -/

/-- Any number of requests, in the order of `schedule`, leave all inquiries faithful and the cache right. -/
theorem AllFaithful.follow (schedule : List Nat) : ∀ {inquiries : List (Inquiry α)} {cache : Cache},
    AllFaithful truth inquiries answers → cache.Right truth →
      AllFaithful truth (follow schedule inquiries cache).1 answers ∧
        (follow schedule inquiries cache).2.Right truth := by
  induction schedule with
  | nil => exact fun h hcache => ⟨h, hcache⟩
  | cons n rest ih =>
    intro inquiries cache h hcache
    obtain ⟨hstep, hcache'⟩ := h.stepAt n hcache
    exact ih hstep hcache'

/-- Whatever the `schedule`, the answers are those that the inquiries are faithful to. -/
theorem AllFaithful.interleave (h : AllFaithful truth inquiries answers) (schedule : List Nat)
    (hcache : cache.Right truth) : (interleave schedule inquiries cache).1 = answers := by
  obtain ⟨hfollow, hcache'⟩ := h.follow schedule hcache
  exact hfollow.runAll hcache'

/-! ## The end of all requests -/

/-- As long as it is told only what is true, the inquiry has no more than `n` requests to go. -/
inductive EndsWithin (truth : String → Outcome) : Nat → Inquiry α → Prop where
  | done (n : Nat) (answer : α) : EndsWithin truth n (done answer)
  | get {n : Nat} {name : String} {next : Option Outcome → Inquiry α}
      (h : ∀ known, known = none ∨ known = some (truth name) → EndsWithin truth n (next known)) :
      EndsWithin truth (n + 1) (get name next)
  | put {n : Nat} {next : Inquiry α} (name : String) (outcome : Outcome)
      (h : EndsWithin truth n next) : EndsWithin truth (n + 1) (put name outcome next)

theorem EndsWithin.mono {m : Nat} (h : EndsWithin truth m inquiry) :
    ∀ {n : Nat}, m ≤ n → EndsWithin truth n inquiry := by
  induction h with
  | done m answer => exact fun _ => .done _ answer
  | get _ ih =>
    rintro (_ | n) hle
    · omega
    · exact .get fun known hknown => ih known hknown (by omega)
  | put name outcome _ ih =>
    rintro (_ | n) hle
    · omega
    · exact .put name outcome (ih (by omega))

/-- Every `inquiry` comes to an end. Only two answers to a request are true, so the larger of their two bounds
serves for both. -/
theorem exists_endsWithin (truth : String → Outcome) (inquiry : Inquiry α) :
    ∃ n, EndsWithin truth n inquiry := by
  induction inquiry with
  | done answer => exact ⟨0, .done 0 answer⟩
  | get name next ih =>
    obtain ⟨m, hm⟩ := ih none
    obtain ⟨n, hn⟩ := ih (some (truth name))
    refine ⟨max m n + 1, .get ?_⟩
    rintro known (rfl | rfl)
    · exact hm.mono (Nat.le_max_left m n)
    · exact hn.mono (Nat.le_max_right m n)
  | put name outcome next ih =>
    obtain ⟨n, hn⟩ := ih
    exact ⟨n + 1, .put name outcome hn⟩

theorem exists_forall_endsWithin (truth : String → Outcome) (inquiries : List (Inquiry α)) :
    ∃ n, ∀ inquiry ∈ inquiries, EndsWithin truth n inquiry := by
  induction inquiries with
  | nil => exact ⟨0, by simp⟩
  | cons first rest ih =>
    obtain ⟨m, hm⟩ := exists_endsWithin truth first
    obtain ⟨n, hn⟩ := ih
    refine ⟨max m n, List.forall_mem_cons.2 ⟨hm.mono (Nat.le_max_left m n), ?_⟩⟩
    exact fun inquiry hinquiry => (hn inquiry hinquiry).mono (Nat.le_max_right m n)

theorem EndsWithin.step {n : Nat} (h : EndsWithin truth n inquiry) (hcache : cache.Right truth) :
    EndsWithin truth (n - 1) (inquiry.step cache).1 := by
  cases h with
  | done n answer => exact .done _ answer
  | get hnext => exact hnext _ (hcache.get?_eq _)
  | put name outcome hnext => exact hnext

/-- Only the inquiry number `n` is changed when it has its turn. -/
theorem getElem?_stepAt : ∀ (n : Nat) (inquiries : List (Inquiry α)) (cache : Cache) (i : Nat),
    (stepAt n inquiries cache).1[i]? =
      if i = n then inquiries[i]?.map fun inquiry => (inquiry.step cache).1 else inquiries[i]?
  | n, [], cache, i => by cases n <;> simp [stepAt]
  | 0, first :: rest, cache, i => by cases i <;> simp [stepAt]
  | n + 1, first :: rest, cache, i => by
    cases i with
    | zero => simp [stepAt]
    | succ i => simp [stepAt, getElem?_stepAt n rest cache i]

/-- Every turn of an inquiry brings it closer to its end, and no other inquiry sets it back. By induction on
`schedule`. -/
theorem AllFaithful.endsWithin_follow (schedule : List Nat) :
    ∀ (bound : Nat → Nat) {inquiries : List (Inquiry α)} {cache : Cache},
      AllFaithful truth inquiries answers → cache.Right truth →
      (∀ i inquiry, inquiries[i]? = some inquiry → EndsWithin truth (bound i) inquiry) →
      ∀ i inquiry, (Inquiry.follow schedule inquiries cache).1[i]? = some inquiry →
        EndsWithin truth (bound i - schedule.count i) inquiry := by
  induction schedule with
  | nil => exact fun _ _ _ _ _ hends => hends
  | cons n rest ih =>
    intro bound inquiries cache h hcache hends i inquiry hi
    obtain ⟨hstep, hcache'⟩ := h.stepAt n hcache
    have hrest := ih (fun i => bound i - if i = n then 1 else 0) hstep hcache' ?_ i inquiry hi
    · refine hrest.mono ?_
      rw [List.count_cons]
      by_cases hin : i = n
      · simp [hin]
        omega
      · simp [hin, Ne.symm hin]
    · intro i inquiry hi
      rw [getElem?_stepAt] at hi
      split_ifs at hi ⊢ with hin
      · obtain ⟨before, hbefore, rfl⟩ := Option.map_eq_some_iff.1 hi
        exact (hends i before hbefore).step hcache
      · exact hends i inquiry hi

theorem AllFaithful.eq_map_done (h : AllFaithful truth inquiries answers)
    (hends : ∀ inquiry ∈ inquiries, EndsWithin truth 0 inquiry) : inquiries = answers.map done := by
  induction h with
  | nil => rfl
  | cons hfirst hrest ih =>
    obtain ⟨hend, hrest⟩ := List.forall_mem_cons.1 hends
    cases hend with
    | done n answer =>
      obtain rfl := hfirst
      rw [List.map_cons, ← ih hrest]

/-- When every inquiry has had as many as `turns`, all are at their ends. -/
theorem AllFaithful.exists_turns (h : AllFaithful truth inquiries answers)
    (hcache : cache.Right truth) : ∃ turns, ∀ schedule : List Nat,
      (∀ n < inquiries.length, turns ≤ schedule.count n) →
      (Inquiry.follow schedule inquiries cache).1 = answers.map done := by
  obtain ⟨turns, hturns⟩ := exists_forall_endsWithin truth inquiries
  refine ⟨turns, fun schedule hcount => ?_⟩
  obtain ⟨hfollow, -⟩ := h.follow schedule hcache
  refine hfollow.eq_map_done fun inquiry hinquiry => ?_
  obtain ⟨i, hi⟩ := List.getElem?_of_mem hinquiry
  have hends := h.endsWithin_follow schedule (fun _ => turns) hcache
    (fun j other hj => hturns other (List.mem_of_getElem? hj)) i inquiry hi
  have hlength : (Inquiry.follow schedule inquiries cache).1.length = inquiries.length := by
    rw [List.Forall₂.length_eq hfollow, List.Forall₂.length_eq h]
  have hlt : i < inquiries.length := by
    rw [← hlength]
    exact (List.getElem?_eq_some_iff.1 hi).1
  rwa [Nat.sub_eq_zero_of_le (hcount i hlt)] at hends

end Inquiry

open Inquiry

/-- The clock is looked at twice for a rule of which it is known whether it has found something. -/
def Rule.reading {m : Type → Type} [Monad m] (clock : m Nat) (found : Catalog Match) (rule : Rule) :
    m RuleReading := do
  let start ← clock
  let stop ← clock
  return { rule := rule.head, clauses := rule.cnf.clauses.length,
           found := decide (rule.head ∈ found.names), duration := stop - start }

namespace RuleSet

variable (set : RuleSet) (tokens : List Token)

/-! ## Rules that are evaluated together -/

theorem outcome_run_empty (name : String) :
    ((set.outcome tokens name).run .empty).1 = set.verdict tokens name :=
  ((set.faithful_outcome tokens name).run Cache.right_empty).1

theorem evaluateTogether_eq_evaluate (schedule : List Nat) :
    set.evaluateTogether schedule tokens = set.evaluate tokens := by
  rw [evaluate_eq_collect]
  exact congrArg _ ((set.allFaithful_outcomes tokens).interleave schedule Cache.right_empty)

/-! ## Rules that are watched by a clock -/

section Clock

variable {m : Type → Type} [Monad m] [LawfulMonad m] (clock : m Nat) {γ : Type}

/-- One after the other the `rules` find their verdicts, and only how long that took is up to the `clock`. -/
theorem readEach_bind (rules : List Rule) :
    ∀ {cache : Cache} (next : List Outcome → List RuleReading → m γ), cache.Right (set.verdict tokens) →
      (readEach clock set tokens cache rules >>= fun readings =>
        next (readings.map Prod.fst) (readings.map Prod.snd)) =
      (rules.mapM (Rule.reading clock (set.evaluate tokens)) >>=
        next (rules.map fun rule => set.verdict tokens rule.head)) := by
  induction rules with
  | nil =>
    intro cache next hcache
    simp [readEach]
  | cons rule rest ih =>
    intro cache next hcache
    obtain ⟨hanswer, hcache'⟩ := (set.faithful_outcome tokens rule.head).run hcache
    have hfound : decide (rule.head ∈ (set.evaluate tokens).names) =
        (set.verdict tokens rule.head).isSome := by
      rw [Bool.eq_iff_iff, decide_eq_true_iff, mem_names_evaluate_iff]
    have hrest := fun reading => ih (fun outcomes readings =>
      next (set.verdict tokens rule.head :: outcomes) (reading :: readings)) hcache'
    simp only [readEach, Rule.reading, List.mapM_cons, bind_assoc, pure_bind, List.map_cons, hfound,
      hanswer]
    refine bind_congr fun start => bind_congr fun stop => ?_
    exact hrest _

/-- An evaluation watched by a `clock` finds the same, and reads the clock twice for every rule. -/
theorem evaluateMetered_eq : set.evaluateMetered clock tokens = (do
    let start ← clock
    let readings ← set.rules.mapM (Rule.reading clock (set.evaluate tokens))
    let stop ← clock
    return (set.evaluate tokens, ⟨tokens.length, readings, stop - start⟩)) := by
  refine bind_congr fun start => ?_
  have hread := set.readEach_bind tokens clock set.rules (fun outcomes readings => do
    let stop ← clock
    return (set.collect tokens outcomes, (⟨tokens.length, readings, stop - start⟩ : Metrics)))
    Cache.right_empty
  refine hread.trans ?_
  rw [← evaluate_eq_collect]

end Clock

/-- Evaluated together in any order of requests, rules know nothing but what each of them finds alone; if
each has its turn often enough, all of them have found that, and what is collected at the end is what the
rules find one after the other. So it is when they are watched by a clock, which reads for every rule in
turn whether it is among what is found. -/
theorem interleaving_agrees {m : Type → Type} [Monad m] [LawfulMonad m] (clock : m Nat) :
    (∀ schedule name outcome,
      (follow schedule (set.outcomes tokens) .empty).2.get? name = some outcome →
        outcome = ((set.outcome tokens name).run .empty).1) ∧
    (∃ turns, ∀ schedule : List Nat, (∀ n < set.size, turns ≤ schedule.count n) →
      (follow schedule (set.outcomes tokens) .empty).1 =
        set.rules.map fun rule => .done ((set.outcome tokens rule.head).run .empty).1) ∧
    (∀ schedule, set.evaluateTogether schedule tokens = set.evaluate tokens) ∧
    set.evaluateMetered clock tokens = (do
      let start ← clock
      let readings ← set.rules.mapM (Rule.reading clock (set.evaluate tokens))
      let stop ← clock
      return (set.evaluate tokens, ⟨tokens.length, readings, stop - start⟩)) := by
  have hfaithful := set.allFaithful_outcomes tokens
  simp only [outcome_run_empty]
  refine ⟨fun schedule name outcome hget => ?_, ?_, set.evaluateTogether_eq_evaluate tokens,
    set.evaluateMetered_eq tokens clock⟩
  · exact (hfaithful.follow schedule Cache.right_empty).2 name outcome hget
  · obtain ⟨turns, hturns⟩ := hfaithful.exists_turns Cache.right_empty
    refine ⟨turns, fun schedule hcount => ?_⟩
    rw [hturns schedule fun n hn => hcount n (by simpa [outcomes, size] using hn), List.map_map]
    rfl

/-- Two rules, one of which looks up the other, and a clock that goes on by one when it is looked at. -/
theorem interleaving_agrees_lookup :
    let set : RuleSet := ⟨[⟨"fruit", ⟨[[.ofTerm (.exactly "fig") false]]⟩⟩,
      ⟨"meal", ⟨[[.lookup "fruit" false]]⟩⟩], by decide⟩
    let tokens : List Token := [{ word := "fig" }]
    let clock : StateM Nat Nat := modifyGet fun time => (time, time + 1)
    (follow [0, 1, 1, 0] (set.outcomes tokens) .empty).2.get? "fruit" = some (some ⟨0, 1⟩) ∧
      some ⟨0, 1⟩ = ((set.outcome tokens "fruit").run .empty).1 ∧
      (∃ schedule, (follow schedule (set.outcomes tokens) .empty).1 =
        [.done (some ⟨0, 1⟩), .done (some ⟨0, 1⟩)]) ∧
      set.evaluateTogether [1, 0, 1] tokens = set.evaluate tokens ∧
      ((set.evaluateMetered clock tokens).run 0).1.1 = set.evaluate tokens := by
  intro set tokens clock
  obtain ⟨hknown, ⟨turns, hturns⟩, htogether, hmetered⟩ := interleaving_agrees set tokens clock
  have hget : (follow [0, 1, 1, 0] (set.outcomes tokens) .empty).2.get? "fruit" = some (some ⟨0, 1⟩) := by
    decide
  have hanswers : (set.rules.map fun rule => ((set.outcome tokens rule.head).run .empty).1) =
      [some ⟨0, 1⟩, some ⟨0, 1⟩] := by
    decide
  refine ⟨hget, hknown _ _ _ hget, ?_, htogether [1, 0, 1], by rw [hmetered]; rfl⟩
  refine ⟨List.replicate turns 0 ++ List.replicate turns 1, ?_⟩
  rw [hturns _ fun n hn => ?_]
  · exact congrArg (List.map Inquiry.done) hanswers
  · have hn : n = 0 ∨ n = 1 := by
      have : n < 2 := hn
      omega
    rcases hn with rfl | rfl <;> simp [List.count_replicate]

end RuleSet

end Tagging
