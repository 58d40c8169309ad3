import Mathlib.Logic.Function.Iterate
import Tagging.Proofs.Asking

/-!
# Calls

To evaluate a rule is to search for its clausal form, and each lookup on the way calls for another rule to be
evaluated first. Here an evaluation is followed call by call, with nothing that bounds it: a call waits until
the calls that it has led to are back. That it ends all the same, and that no rule is called again while it
is being evaluated, is due to the rules alone. What the cache knows may be wrong; it can only make an
evaluation shorter.
-/

namespace Tagging

/-! ## Questions -/

/-- A computation that asks for the outcomes of rules. -/
inductive Questions (α : Type) where
  /-- The answer is found. -/
  | done (answer : α)
  /-- Asks for the outcome of a rule, and goes on with it. -/
  | ask (name : String) (next : Outcome → Questions α)

namespace Questions

variable {α β : Type}

/-- Goes on with the answer. -/
protected def bind : Questions α → (α → Questions β) → Questions β
  | done answer, next => next answer
  | ask name rest, next => ask name fun outcome => (rest outcome).bind next

instance : Monad Questions where
  pure := done
  bind := Questions.bind

/-- Has every question answered by an inquiry. -/
def inquire (outcomeOf : String → Inquiry Outcome) : Questions α → Inquiry α
  | done answer => .done answer
  | ask name next => (outcomeOf name).bind fun outcome => (next outcome).inquire outcomeOf

/-- Only such rules are asked for. -/
def AsksOnly (allowed : String → Prop) : Questions α → Prop
  | done _ => True
  | ask name next => allowed name ∧ ∀ outcome, AsksOnly allowed (next outcome)

variable {outcomeOf : String → Inquiry Outcome} {allowed : String → Prop}

theorem inquire_bind (questions : Questions α) (next : α → Questions β) :
    (questions.bind next).inquire outcomeOf =
      (questions.inquire outcomeOf).bind fun answer => (next answer).inquire outcomeOf := by
  induction questions with
  | done answer => rfl
  | ask name rest ih =>
    refine Eq.trans ?_ (Inquiry.bind_bind _ _ _).symm
    exact congrArg (Inquiry.bind (outcomeOf name)) (funext ih)

theorem AsksOnly.bind {questions : Questions α} {next : α → Questions β} (h : questions.AsksOnly allowed)
    (hnext : ∀ answer, (next answer).AsksOnly allowed) : (questions.bind next).AsksOnly allowed := by
  induction questions with
  | done answer => exact hnext answer
  | ask name rest ih => exact ⟨h.1, fun outcome => ih outcome (h.2 outcome)⟩

theorem asksOnly_of_forall (hallowed : ∀ name, allowed name) (questions : Questions α) :
    questions.AsksOnly allowed := by
  induction questions with
  | done answer => trivial
  | ask name rest ih => exact ⟨hallowed name, ih⟩

/-- Questions after such rules, and the inquiry that they become when they are answered. -/
def inquiring (outcomeOf : String → Inquiry Outcome) (allowed : String → Prop) :
    Correspondence Questions Inquiry where
  Rel questions inquiry := questions.AsksOnly allowed ∧ questions.inquire outcomeOf = inquiry
  rel_pure _ := ⟨trivial, rfl⟩
  rel_bind hx hf := by
    obtain ⟨hx, rfl⟩ := hx
    refine ⟨hx.bind fun a => (hf a).1, (inquire_bind _ _).trans ?_⟩
    exact congrArg (Inquiry.bind _) (funext fun a => (hf a).2)

end Questions

/-- What a literal asks for. -/
def Literal.questions (tokens : List Token) (literal : Literal) : Questions Outcome :=
  match literal.target? with
  | none => .done (literal.find tokens)
  | some name => .ask name fun outcome =>
    .done (if literal.negated then outcome.complement tokens.length else outcome)

/-- The search for a clausal form, in which the outcomes of rules are left open. -/
def Cnf.questions (tokens : List Token) (cnf : Cnf) : Questions Outcome :=
  cnf.findBy (·.questions tokens) tokens.length

/-- The questions of a search are about the rules that are looked up, and answering them is all that
remains to be done. -/
theorem Cnf.inquiring_questions (tokens : List Token) (cnf : Cnf) (outcomeOf : String → Inquiry Outcome) :
    (Questions.inquiring outcomeOf (· ∈ cnf.targets)).Rel (cnf.questions tokens)
      (cnf.findAsking tokens outcomeOf) := by
  refine Cnf.rel_findBy _ (fun literal hliteral => ?_) tokens.length
  unfold Literal.questions Literal.answer
  cases htarget : literal.target? with
  | none => exact ⟨trivial, rfl⟩
  | some name =>
    exact ⟨⟨Cnf.mem_targets.2 ⟨literal, hliteral, htarget⟩, fun outcome => trivial⟩, rfl⟩

/-- What the rule of that name asks for. -/
def RuleSet.questions (set : RuleSet) (tokens : List Token) (name : String) : Questions Outcome :=
  match set.find? name with
  | none => .done none
  | some rule => rule.cnf.questions tokens

/-- A rule asks only for the rules that it looks up. -/
theorem RuleSet.asksOnly_questions (set : RuleSet) (tokens : List Token) (name : String) :
    (set.questions tokens name).AsksOnly (· ∈ set.lookupsOf name) := by
  unfold questions
  cases hfind : set.find? name with
  | none => trivial
  | some rule =>
    rw [lookupsOf_eq_targets hfind]
    exact (rule.cnf.inquiring_questions tokens (set.outcome tokens)).1

theorem RuleSet.inquire_questions (set : RuleSet) (tokens : List Token) (name : String) :
    (set.questions tokens name).inquire (set.outcome tokens) = set.search tokens name := by
  unfold questions search
  cases set.find? name with
  | none => rfl
  | some rule => exact (rule.cnf.inquiring_questions tokens (set.outcome tokens)).2

/-! ## Evaluation call by call -/

/-- A rule is called for. -/
structure Call where
  /-- The name of the rule. -/
  name : String
  /-- What the caller does with the outcome. -/
  resume : Outcome → Questions Outcome

/-- A moment of an evaluation. The calls in progress are given innermost first. -/
inductive Moment where
  /-- A call begins inside of others. -/
  | entering (call : Call) (below : List Call) (cache : Cache)
  /-- The search on behalf of the innermost call goes on, or the outermost search if there is no call. -/
  | searching (rest : Questions Outcome) (calls : List Call) (cache : Cache)

namespace Moment

/-- The calls that have begun and are not back yet. -/
def calls : Moment → List Call
  | entering call below _ => call :: below
  | searching _ calls _ => calls

/-- The outermost search begins. -/
def start (questions : Questions Outcome) (cache : Cache) : Moment := searching questions [] cache

/-- The outermost search is done. -/
def finish (result : Outcome × Cache) : Moment := searching (.done result.1) [] result.2

section Steps

variable (set : RuleSet) (tokens : List Token)

/-- One step of an evaluation. What is known of a rule that is called for is taken from the cache. Otherwise
the rule is searched for, and what is found is made known before the caller goes on. -/
def next : Moment → Moment
  | entering call below cache =>
    match cache.get? call.name with
    | some outcome => searching (call.resume outcome) below cache
    | none => searching (set.questions tokens call.name) (call :: below) cache
  | searching (.ask name resume) calls cache => entering ⟨name, resume⟩ calls cache
  | searching (.done outcome) (call :: below) cache =>
    searching (call.resume outcome) below (cache.put call.name outcome)
  | searching (.done outcome) [] cache => finish (outcome, cache)

/-- The evaluation gets from one moment to the other. -/
def Leads (a b : Moment) : Prop := ∃ steps, (next set tokens)^[steps] a = b

variable {set tokens} {a b c : Moment}

theorem Leads.refl (a : Moment) : Leads set tokens a a := ⟨0, rfl⟩

theorem Leads.head (h : Leads set tokens (next set tokens a) b) : Leads set tokens a b := by
  obtain ⟨steps, h⟩ := h
  exact ⟨steps + 1, h⟩

theorem Leads.trans (hab : Leads set tokens a b) (hbc : Leads set tokens b c) : Leads set tokens a c := by
  obtain ⟨m, rfl⟩ := hab
  obtain ⟨n, rfl⟩ := hbc
  exact ⟨n + m, Function.iterate_add_apply _ n m a⟩

end Steps

/-! ## The end of an evaluation -/

section Ends

variable (set : RuleSet) (tokens : List Token)

/-- A call that was begun with this cache is back with the outcome of its rule. -/
def Returns (name : String) : Prop :=
  ∀ resume below cache, Leads set tokens (entering ⟨name, resume⟩ below cache)
    (searching (resume ((set.outcome tokens name).run cache).1) below ((set.outcome tokens name).run cache).2)

variable {set tokens}

/-- A search ends if all calls that it leads to come back, as `hreturns` says of those that are `allowed`. By
induction on `questions`. -/
theorem leads_of_asksOnly {allowed : String → Prop}
    (hreturns : ∀ name, allowed name → Returns set tokens name) {questions : Questions Outcome}
    (h : questions.AsksOnly allowed) : ∀ calls cache,
    Leads set tokens (searching questions calls cache)
      (searching (.done ((questions.inquire (set.outcome tokens)).run cache).1) calls
        ((questions.inquire (set.outcome tokens)).run cache).2) := by
  induction questions with
  | done answer => exact fun calls cache => .refl _
  | ask name rest ih =>
    intro calls cache
    rw [Questions.inquire, Inquiry.run_bind]
    exact .head ((hreturns name h.1 rest calls cache).trans (ih _ (h.2 _) calls _))

variable (set tokens)

/-- What is known of a rule is its outcome, and otherwise it is searched for and made known. -/
theorem run_outcome (name : String) (cache : Cache) : (set.outcome tokens name).run cache =
    match cache.get? name with
    | some outcome => (outcome, cache)
    | none =>
      let result := ((set.questions tokens name).inquire (set.outcome tokens)).run cache
      (result.1, result.2.put name result.1) := by
  rw [RuleSet.outcome_eq, RuleSet.inquire_questions, Inquiry.run]
  cases cache.get? name with
  | some outcome => rfl
  | none => exact Inquiry.run_bind _ _ _

/-- Every call comes back, since the calls that it leads to are further down. By induction along the lookups, which
end. -/
theorem returns (name : String) : Returns set tokens name := by
  induction name using set.wellFounded_lookups.induction with
  | _ name ih =>
    intro resume below cache
    rw [run_outcome]
    refine .head ?_
    rw [next]
    cases cache.get? name with
    | some outcome => exact .refl _
    | none =>
      have hsearch := leads_of_asksOnly ih (set.asksOnly_questions tokens name)
      exact (hsearch (⟨name, resume⟩ :: below) cache).trans (.head (.refl _))

end Ends

/-! ## The calls in progress -/

section Calls

variable (set : RuleSet)

/-- The rules that may be called for next: any by the outermost search, and otherwise those that the
innermost call looks up. -/
def MayCall : List Call → String → Prop
  | [], _ => True
  | call :: _, name => name ∈ set.lookupsOf call.name

/-- Each call was made by one that looks up its rule, and so will be those that are made when it is back. -/
def Orderly : List Call → Prop
  | [] => True
  | call :: below => MayCall set below call.name ∧
    (∀ outcome, (call.resume outcome).AsksOnly (MayCall set below)) ∧ Orderly below

/-- The calls in progress are orderly, and so will be those to come. -/
def Proper : Moment → Prop
  | entering call below _ => Orderly set (call :: below)
  | searching rest calls _ => rest.AsksOnly (MayCall set calls) ∧ Orderly set calls

variable {set}

/-- In one step, calls in progress stay orderly. -/
theorem Proper.next {tokens : List Token} {moment : Moment} (h : Proper set moment) :
    Proper set (next set tokens moment) := by
  cases moment with
  | entering call below cache =>
    rw [Moment.next]
    cases cache.get? call.name with
    | some outcome => exact ⟨h.2.1 outcome, h.2.2⟩
    | none => exact ⟨set.asksOnly_questions tokens call.name, h⟩
  | searching rest calls cache =>
    obtain ⟨hrest, hcalls⟩ := h
    cases rest with
    | ask name resume => exact ⟨hrest.1, hrest.2, hcalls⟩
    | done outcome =>
      cases calls with
      | nil => exact ⟨trivial, trivial⟩
      | cons call below => exact ⟨hcalls.2.1 outcome, hcalls.2.2⟩

theorem Proper.iterate {tokens : List Token} {moment : Moment} (h : Proper set moment) :
    ∀ steps, Proper set ((Moment.next set tokens)^[steps] moment)
  | 0 => h
  | steps + 1 => h.next.iterate steps

theorem Proper.orderly {moment : Moment} (h : Proper set moment) : Orderly set moment.calls := by
  cases moment with
  | entering call below cache => exact h
  | searching rest calls cache => exact h.2

/-- Lookups lead from call to call, up to the innermost `call`. -/
theorem Orderly.reached {call : Call} {below : List Call} (h : Orderly set (call :: below)) :
    set.Reached (below.map Call.name) call.name := by
  induction below generalizing call with
  | nil => exact RuleSet.reached_nil call.name
  | cons caller below ih => exact RuleSet.reached_cons (ih h.2.2) h.1

/-- No rule is called again while it is being evaluated. -/
theorem Orderly.nodup {calls : List Call} (h : Orderly set calls) : (calls.map Call.name).Nodup := by
  cases calls with
  | nil => exact List.nodup_nil
  | cons call below => exact List.nodup_cons.2 ⟨RuleSet.not_mem_path h.reached, h.reached.nodup⟩

/-- Besides one there are no more calls in progress than there are rules. -/
theorem Orderly.length_le {calls : List Call} (h : Orderly set calls) : calls.length ≤ set.size + 1 := by
  cases calls with
  | nil => exact Nat.zero_le _
  | cons call below =>
    have hbelow := RuleSet.length_path_le h.reached
    rw [List.length_map] at hbelow
    exact Nat.succ_le_succ hbelow

end Calls

/-- The evaluation ends with that outcome and that cache. On the way all rules that are being evaluated are
different ones, and besides one there are no more calls in progress than there are rules. -/
structure Ends (set : RuleSet) (tokens : List Token) (moment : Moment) (result : Outcome × Cache) : Prop where
  leads : Leads set tokens moment (finish result)
  distinct : ∀ steps, (((next set tokens)^[steps] moment).calls.map Call.name).Nodup
  bounded : ∀ steps, ((next set tokens)^[steps] moment).calls.length ≤ set.size + 1

/-- From its start a search ends with what the inquiry that answers its `questions` finds out. -/
theorem ends_start (set : RuleSet) (tokens : List Token) (questions : Questions Outcome) (cache : Cache) :
    Ends set tokens (start questions cache) ((questions.inquire (set.outcome tokens)).run cache) := by
  have hasks : questions.AsksOnly (MayCall set []) := questions.asksOnly_of_forall fun _ => trivial
  have hproper : Proper set (start questions cache) := ⟨hasks, trivial⟩
  exact
    { leads := leads_of_asksOnly (fun name _ => returns set tokens name) hasks [] cache
      distinct := fun steps => (hproper.iterate steps).orderly.nodup
      bounded := fun steps => (hproper.iterate steps).orderly.length_le }

end Moment

namespace RuleSet

open Moment

/-- Every evaluation ends, of a clausal form as of a rule: also where lookups name rules that are not in the
set, and whatever the cache knows. It ends with what the inquiry finds out and makes known. -/
theorem every_evaluation_ends (set : RuleSet) (tokens : List Token) (cache : Cache) :
    (∀ cnf, Ends set tokens (start (cnf.questions tokens) cache) ((set.find tokens cnf).run cache)) ∧
    ∀ name, Ends set tokens (start (.ask name .done) cache) ((set.outcome tokens name).run cache) := by
  constructor
  · intro cnf
    have hends := ends_start set tokens (cnf.questions tokens) cache
    rwa [(cnf.inquiring_questions tokens (set.outcome tokens)).2] at hends
  · intro name
    have hends := ends_start set tokens (.ask name .done) cache
    rwa [show (Questions.ask name .done).inquire (set.outcome tokens) = set.outcome tokens name from
      Inquiry.bind_done _] at hends

end RuleSet

end Tagging
