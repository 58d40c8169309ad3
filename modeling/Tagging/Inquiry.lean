import Tagging.Literal.Search

/-!
# Inquiries

To find out whether a rule matches may need the outcomes of other rules. Those found so far are kept
in a cache, which several such computations may share. An inquiry is a computation that touches the
cache by two requests only: what is known about a rule, and to make its outcome known. Each request is
answered at once, and nothing else happens while it is answered.

Because an inquiry shows every request, it can be followed on a cache of its own, or in any order with
others on a cache that they share.
-/

namespace Tagging

/-! ## The cache -/

/-- The outcomes of rules that are known. -/
structure Cache where
  /-- Names of rules with their outcomes. Of two entries for one name the first counts. -/
  entries : List (String × Outcome)
deriving DecidableEq, Repr

namespace Cache

/-- Knows nothing. -/
def empty : Cache := ⟨[]⟩

instance : Inhabited Cache := ⟨empty⟩

/-- The outcome of a rule, if it is known. -/
def get? (cache : Cache) (name : String) : Option Outcome := cache.entries.lookup name

/-- Makes the outcome of a rule known, in place of what was known about it. -/
def put (cache : Cache) (name : String) (outcome : Outcome) : Cache :=
  ⟨(name, outcome) :: cache.entries⟩

@[simp] theorem get?_empty (name : String) : empty.get? name = none := rfl

@[simp] theorem get?_put_self (cache : Cache) (name : String) (outcome : Outcome) :
    (cache.put name outcome).get? name = some outcome := by
  simp [get?, put]

theorem get?_put_of_ne (cache : Cache) {name other : String} (outcome : Outcome)
    (h : other ≠ name) : (cache.put name outcome).get? other = cache.get? other := by
  have : (other == name) = false := by simpa using h
  simp [get?, put, List.lookup_cons, this]

end Cache

/-! ## Inquiries -/

/-- A computation that asks a cache. -/
inductive Inquiry (α : Type) where
  /-- The answer is found. -/
  | done (answer : α)
  /-- Asks what is known about a rule, and goes on with that. -/
  | get (name : String) (next : Option Outcome → Inquiry α)
  /-- Makes an outcome known, and goes on. -/
  | put (name : String) (outcome : Outcome) (next : Inquiry α)

namespace Inquiry

variable {α β : Type}

/-- Goes on with the answer of an inquiry. -/
protected def bind : Inquiry α → (α → Inquiry β) → Inquiry β
  | done answer, next => next answer
  | get name rest, next => get name fun known => (rest known).bind next
  | put name outcome rest, next => put name outcome (rest.bind next)

instance : Monad Inquiry where
  pure := done
  bind := Inquiry.bind

@[simp] theorem bind_done (inquiry : Inquiry α) : inquiry.bind done = inquiry := by
  induction inquiry with
  | done answer => rfl
  | get name rest ih => exact congrArg (get name) (funext ih)
  | put name outcome rest ih => exact congrArg (put name outcome) ih

theorem bind_bind {γ : Type} (inquiry : Inquiry α) (first : α → Inquiry β)
    (second : β → Inquiry γ) :
    (inquiry.bind first).bind second = inquiry.bind fun answer => (first answer).bind second := by
  induction inquiry with
  | done answer => rfl
  | get name rest ih => exact congrArg (get name) (funext ih)
  | put name outcome rest ih => exact congrArg (put name outcome) ih

instance : LawfulMonad Inquiry :=
  LawfulMonad.mk' Inquiry bind_done (fun _ _ => rfl) bind_bind

/-- What is known about a rule. -/
def known (name : String) : Inquiry (Option Outcome) := get name done

/-- Makes the outcome of a rule known. -/
def tell (name : String) (outcome : Outcome) : Inquiry Unit := put name outcome (done ())

/-- Follows an inquiry to its end. -/
def run : Inquiry α → Cache → α × Cache
  | done answer, cache => (answer, cache)
  | get name next, cache => (next (cache.get? name)).run cache
  | put name outcome next, cache => next.run (cache.put name outcome)

/-- Answers the next request of an inquiry, if it has one. -/
def step : Inquiry α → Cache → Inquiry α × Cache
  | done answer, cache => (done answer, cache)
  | get name next, cache => (next (cache.get? name), cache)
  | put name outcome next, cache => (next, cache.put name outcome)

/-! ## Several inquiries on one cache -/

/-- Answers the next request of inquiry number `n`, if there is one. -/
def stepAt : Nat → List (Inquiry α) → Cache → List (Inquiry α) × Cache
  | _, [], cache => ([], cache)
  | 0, inquiry :: rest, cache =>
    let (inquiry, cache) := inquiry.step cache
    (inquiry :: rest, cache)
  | n + 1, inquiry :: rest, cache =>
    let (rest, cache) := stepAt n rest cache
    (inquiry :: rest, cache)

/-- Follows inquiries to their ends, one after the other. -/
def runAll : List (Inquiry α) → Cache → List α × Cache
  | [], cache => ([], cache)
  | inquiry :: rest, cache =>
    let (answer, cache) := inquiry.run cache
    let (answers, cache) := runAll rest cache
    (answer :: answers, cache)

/-- Answers one request of each inquiry that the schedule names. -/
def follow (schedule : List Nat) (inquiries : List (Inquiry α)) (cache : Cache) :
    List (Inquiry α) × Cache :=
  schedule.foldl (fun (inquiries, cache) n => stepAt n inquiries cache) (inquiries, cache)

/-- Follows inquiries together: first as the schedule says, then one after the other to their ends. -/
def interleave (schedule : List Nat) (inquiries : List (Inquiry α)) (cache : Cache) :
    List α × Cache :=
  let (inquiries, cache) := follow schedule inquiries cache
  runAll inquiries cache

@[simp] theorem interleave_nil (inquiries : List (Inquiry α)) (cache : Cache) :
    interleave [] inquiries cache = runAll inquiries cache := rfl

theorem run_bind (inquiry : Inquiry α) (next : α → Inquiry β) (cache : Cache) :
    (inquiry.bind next).run cache = (next (inquiry.run cache).1).run (inquiry.run cache).2 := by
  induction inquiry generalizing cache with
  | done answer => rfl
  | get name rest ih => exact ih _ _
  | put name outcome rest ih => exact ih _

end Inquiry

end Tagging
