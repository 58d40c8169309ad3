import Tagging.Cnf

/-!
# Simplification

Three things make a clausal form shorter without changing which texts it holds of. Inside a clause
literals are sorted, and of those that say the same the first is kept. A clause that holds of every
text, because it has a literal and its opposite, is dropped, and an empty clause is dropped too. Last,
a clause is dropped when all literals of some earlier clause are among its own, for then the earlier
one is the stronger condition.

This is no minimization: clauses are never combined.
-/

namespace Tagging

namespace Clause

/-- Whether a literal that says the same is in the clause, by halving a sorted clause. -/
def search (clause : Clause) (literal : Literal) : Bool :=
  match _h : clause.drop (clause.length / 2) with
  | [] => false
  | middle :: upper =>
    match compare literal middle with
    | .eq => true
    | .lt => search (clause.take (clause.length / 2)) literal
    | .gt => search upper literal
termination_by clause.length
decreasing_by
  all_goals
    have := congrArg List.length _h
    simp only [List.length_drop, List.length_cons] at this
  · simp only [List.length_take]
    omega
  · omega

/-- Leaves out every literal that says the same as the one before it. -/
def collapse : Clause → Clause
  | [] => []
  | literal :: rest => go literal rest
where
  /-- Goes on behind `kept`, the last literal that was kept. -/
  go (kept : Literal) : Clause → Clause
    | [] => [kept]
    | literal :: rest => if kept.same literal then go kept rest else kept :: go literal rest

/-- The literals in their order, those that say the same only once. -/
def sorted (clause : Clause) : Clause :=
  collapse (clause.mergeSort Literal.le)

/-- Whether a sorted clause has a literal and its opposite. -/
def isTautology (clause : Clause) : Bool :=
  clause.any fun literal => literal.negated && search clause literal.negate

/-- Whether all literals of `small` are in `large`, both sorted. -/
def isSubset (small large : Clause) : Bool :=
  decide (small.length ≤ large.length) && small.all (search large)

end Clause

namespace Cnf

/-- The clauses that none of `earlier` and none of the clauses before them makes superfluous. -/
def unsubsumed (earlier : List Clause) : List Clause → List Clause
  | [] => []
  | clause :: rest =>
    if earlier.any (Clause.isSubset · clause) then unsubsumed (earlier ++ [clause]) rest
    else clause :: unsubsumed (earlier ++ [clause]) rest

/-- The sorted clauses that can fail. -/
def essential (clauses : List Clause) : List Clause :=
  (clauses.map Clause.sorted).filter fun clause => !clause.isEmpty && !Clause.isTautology clause

/-- A shorter clausal form that holds of the same texts. -/
def simplify (cnf : Cnf) : Cnf :=
  ⟨unsubsumed [] (essential cnf.clauses)⟩

end Cnf

end Tagging
