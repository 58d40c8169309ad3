import Tagging.Cnf
import Tagging.Literal.Search

/-!
# Searching a text for a clausal form

The clauses are met from left to right. A clause holds by its first literal that holds, and the first
clause that does not hold ends the search. What is found starts where the literal of the first clause
starts and reaches as far as any of the literals does, so it covers the tokens in between too.

How a literal is answered is left open: without rules it is searched for in the text, with rules a
lookup asks another rule. Literals that say the same are asked once and then remembered.
-/

namespace Tagging

/-- The literals that have been answered. -/
structure Memo where
  /-- Literals with their outcomes. -/
  entries : List (Literal × Outcome)

namespace Memo

/-- Nothing has been answered. -/
def empty : Memo := ⟨[]⟩

/-- The outcome of a literal that says the same, if one has been answered. -/
def get? (memo : Memo) (literal : Literal) : Option Outcome :=
  (memo.entries.find? fun entry => entry.1.same literal).map Prod.snd

/-- Remembers the outcome of a literal. -/
def put (memo : Memo) (literal : Literal) (outcome : Outcome) : Memo :=
  ⟨(literal, outcome) :: memo.entries⟩

end Memo

variable {m : Type → Type} [Monad m]

namespace Memo

/-- The outcome of a literal, which is asked for only if it is not remembered. -/
def answer (ask : Literal → m Outcome) (memo : Memo) (literal : Literal) :
    m (Outcome × Memo) :=
  match memo.get? literal with
  | some outcome => pure (outcome, memo)
  | none => do
    let outcome ← ask literal
    return (outcome, memo.put literal outcome)

end Memo

namespace Clause

/-- The outcome of the first literal that holds. -/
def findBy (ask : Literal → m Outcome) (memo : Memo) : Clause → m (Outcome × Memo)
  | [] => pure (none, memo)
  | literal :: rest => do
    let (outcome, memo) ← memo.answer ask literal
    match outcome with
    | some span => return (some span, memo)
    | none => findBy ask memo rest

end Clause

namespace Cnf

/-- What covers `covered` and an outcome of every clause. -/
def coverBy (ask : Literal → m Outcome) (memo : Memo) (covered : Outcome) :
    List Clause → m Outcome
  | [] => pure covered
  | clause :: rest => do
    let (outcome, memo) ← Clause.findBy ask memo clause
    match outcome with
    | none => return none
    | some span =>
      let covered := match covered with
        | none => span
        | some covered => covered.reach span
      coverBy ask memo (some covered) rest

/-- What is found in a text of `length` tokens when literals are answered by `ask`. Without clauses
that is the whole text. -/
def findBy (ask : Literal → m Outcome) (length : Nat) (cnf : Cnf) : m Outcome :=
  if cnf.clauses.isEmpty then pure (some ⟨0, length⟩) else coverBy ask .empty none cnf.clauses

/-- Where a clausal form is found in a text when there are no rules. -/
def find (tokens : List Token) (cnf : Cnf) : Outcome :=
  Id.run (cnf.findBy (fun literal => pure (literal.find tokens)) tokens.length)

/-- Whether a clausal form is found in a text when there are no rules. -/
def occurs (tokens : List Token) (cnf : Cnf) : Bool := (cnf.find tokens).isSome

/-- Whether one of the clausal forms at least is found. -/
def anyOccurs (tokens : List Token) (cnfs : List Cnf) : Bool := cnfs.any (occurs tokens)

/-- Whether every one of the clausal forms is found. -/
def allOccur (tokens : List Token) (cnfs : List Cnf) : Bool := cnfs.all (occurs tokens)

end Cnf

end Tagging
