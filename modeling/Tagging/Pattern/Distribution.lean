import Tagging.Pattern.NegationNormal

/-!
# Distribution

A disjunction of conjunctions is turned into a conjunction of disjunctions. Where both sides of a
disjunction are conjunctions, the right one is opened first, so the conditions on the left come in
their order for each condition on the right.
-/

namespace Tagging.Pattern

/-- The conjunction of `part or right` for every part of `left`. -/
def distributeLeft (right : Pattern) : Pattern → Pattern
  | .and b c => .and (distributeLeft right b) (distributeLeft right c)
  | left => .or left right

/-- The conjunction of `left or part` for every part of `right`, where `left` is opened in its turn. -/
def distributeOr (left : Pattern) : Pattern → Pattern
  | .and b c => .and (distributeOr left b) (distributeOr left c)
  | right => distributeLeft right left

/-- The pattern with no conjunction left under a disjunction. -/
def distribute : Pattern → Pattern
  | .and l r => .and (distribute l) (distribute r)
  | .or l r => distributeOr (distribute l) (distribute r)
  | operand => operand

/-- The pattern as a conjunction of disjunctions of operands, some of them negated. -/
def clausalTree (tree : Pattern) : Pattern :=
  tree.negationNormal.distribute

end Tagging.Pattern
