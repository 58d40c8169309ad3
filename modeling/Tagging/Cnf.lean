import Tagging.Literal

/-!
# Clausal form

A pattern in clausal form is a conjunction of clauses, and a clause is a disjunction of literals. The
order of clauses and of literals counts: a search takes the first literal of a clause that holds, and
its answer starts where that of the first clause starts.
-/

namespace Tagging

/-- A disjunction of literals. -/
abbrev Clause := List Literal

/-- A conjunction of clauses. Without clauses it holds of every text. -/
structure Cnf where
  /-- The clauses, first one first. -/
  clauses : List Clause
deriving DecidableEq, Repr, Inhabited

namespace Cnf

/-- All literals, clause by clause. -/
def literals (cnf : Cnf) : List Literal := cnf.clauses.flatten

/-- The names of the rules that are looked up, each once, in the order of their first lookups. -/
def targets (cnf : Cnf) : List String :=
  (cnf.literals.filterMap Literal.target?).eraseDups

/-- A clause as it is shown. -/
def renderClause (clause : Clause) : String :=
  "[" ++ ", ".intercalate (clause.map Literal.render) ++ "]"

/-- The clausal form as it is shown, such as `[[-b, c], [-b, a]]`. -/
def render (cnf : Cnf) : String :=
  "[" ++ ", ".intercalate (cnf.clauses.map renderClause) ++ "]"

end Cnf

end Tagging
