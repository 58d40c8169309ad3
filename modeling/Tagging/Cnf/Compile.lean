import Tagging.Cnf
import Tagging.Normalizer
import Tagging.Pattern.Distribution

/-!
# From patterns to clausal form

Once conjunctions stand outside and disjunctions inside, the clauses and their literals are read off
from left to right. What stands below, apart from one negation, has to be a lookup or a phrase: words
and wildcards next to each other. Inside a phrase neither lookups nor other operators make sense.
-/

namespace Tagging.Pattern

/-- The literal of an operand. A lookup is allowed only where `top` says so, and not in a phrase. -/
def literal (normalizer : Normalizer) (negated top : Bool) : Pattern → Except Fault Literal
  | .word w =>
    let normalized := normalizer.normalize w
    if normalized.isEmpty then .error (.emptyWord w)
    else .ok (.ofTerm { word := w, normalized } negated)
  | .exactWord w =>
    if w.isEmpty then .error (.emptyWord w) else .ok (.ofTerm (.exactly w) negated)
  | .wildcard w => .ok (.ofWildcard w negated)
  | .lookup name =>
    if top then .ok (.lookup name negated) else .error (.malformedOperand (.lookup name))
  | .join l r => do
    let left ← literal normalizer false false l
    let right ← literal normalizer false false r
    left.join right negated
  | operand => .error (.malformedOperand operand)

/-- The literals of a disjunction, from left to right. -/
def clause (normalizer : Normalizer) : Pattern → Except Fault Clause
  | .or l r => do
    let left ← clause normalizer l
    let right ← clause normalizer r
    return left ++ right
  | .not x => do return [← literal normalizer true true x]
  | operand => do return [← literal normalizer false true operand]

/-- The clauses of a conjunction, from left to right. -/
def clauses (normalizer : Normalizer) : Pattern → Except Fault (List Clause)
  | .and l r => do
    let left ← clauses normalizer l
    let right ← clauses normalizer r
    return left ++ right
  | operand => do return [← clause normalizer operand]

/-- The clausal form of a pattern, with its words brought to the form of the normalizer. -/
def toCnf (normalizer : Normalizer) (tree : Pattern) : Except Fault Cnf := do
  return ⟨← clauses normalizer tree.clausalTree⟩

end Tagging.Pattern
