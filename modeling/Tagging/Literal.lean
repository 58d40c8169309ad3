import Tagging.Fault

/-!
# Literals

A literal is the smallest condition on a text: that a phrase occurs, or that another rule matches, or
that one of these is not so. A phrase is never empty and never has two wildcards next to each other,
since nothing would tell where the tokens of the one end and those of the other begin.

## The order of literals

Literals are ordered by the key of their first term, then negated ones first, then by the remaining
keys, then phrases before lookups, and last by the forms that their terms compare. Equal literals in
this order are those that ask for the same, `Literal.same`: what a term does not compare has no say.
-/

namespace Tagging

/-- Whether two neighbouring terms are both wildcards. -/
def hasAdjacentWildcards : List Term → Bool
  | a :: b :: terms => a.isWildcard && b.isWildcard || hasAdjacentWildcards (b :: terms)
  | _ => false

/-- A sequence of terms that tokens right after each other have to satisfy. -/
structure Phrase where
  /-- The first term. -/
  first : Term
  /-- The terms after it. -/
  rest : List Term
  /-- No two wildcards are neighbours. -/
  separated : hasAdjacentWildcards (first :: rest) = false
deriving DecidableEq, Repr

/-- What a literal asks for. -/
inductive Subject where
  /-- The phrase has to occur in the text. -/
  | phrase (phrase : Phrase)
  /-- The rule of that name has to match. -/
  | lookup (name : String)
deriving DecidableEq, Repr

/-- A condition on a text, or its negation. -/
structure Literal where
  /-- Whether the condition must not hold. -/
  negated : Bool := false
  /-- What is asked for. -/
  subject : Subject
deriving DecidableEq, Repr

namespace Phrase

/-- All terms, first one first. -/
def terms (phrase : Phrase) : List Term := phrase.first :: phrase.rest

/-- The phrase of a single term. -/
def ofTerm (term : Term) : Phrase := ⟨term, [], rfl⟩

instance : Inhabited Phrase := ⟨ofTerm default⟩

end Phrase

namespace Subject

/-- The first term. A lookup counts as the name of its rule, compared as it is written. -/
def first : Subject → Term
  | .phrase p => p.first
  | .lookup name => .exactly name

/-- The terms after the first one. -/
def rest : Subject → List Term
  | .phrase p => p.rest
  | .lookup _ => []

/-- All terms, first one first. -/
def terms (subject : Subject) : List Term := subject.first :: subject.rest

/-- Whether the subject is another rule. -/
def isLookup : Subject → Bool
  | .phrase _ => false
  | .lookup _ => true

end Subject

namespace Literal

/-- The literal of a single term. -/
def ofTerm (term : Term) (negated : Bool) : Literal :=
  { negated, subject := .phrase (.ofTerm term) }

/-- The literal of a lone wildcard. -/
def ofWildcard (wildcard : Wildcard) (negated : Bool) : Literal :=
  ofTerm (.ofWildcard wildcard) negated

/-- The literal that looks up a rule. -/
def lookup (name : String) (negated : Bool) : Literal :=
  { negated, subject := .lookup name }

/-- The literal of a phrase, unless the terms make up no phrase. -/
def ofTerms (terms : List Term) (negated : Bool) : Except Fault Literal :=
  match terms with
  | [] => .error .emptyPhrase
  | first :: rest =>
    if h : hasAdjacentWildcards (first :: rest) = false then
      .ok { negated, subject := .phrase ⟨first, rest, h⟩ }
    else .error (.adjacentWildcards negated (first :: rest))

/-- The terms of a literal, first one first. -/
def terms (literal : Literal) : List Term := literal.subject.terms

/-- Whether the literal looks up a rule. -/
def isLookup (literal : Literal) : Bool := literal.subject.isLookup

/-- The name of the rule that the literal looks up. -/
def target? (literal : Literal) : Option String :=
  match literal.subject with
  | .phrase _ => none
  | .lookup name => some name

/-- The literal of the terms of `left` and then those of `right`. Whether these are negated does not
count. -/
def join (left right : Literal) (negated : Bool) : Except Fault Literal :=
  ofTerms (left.terms ++ right.terms) negated

/-- The opposite condition. -/
def negate (literal : Literal) : Literal := { literal with negated := !literal.negated }

/-- The literal as it is shown, such as `-#fruit` or `the_?_hub`. -/
def render (literal : Literal) : String :=
  (if literal.negated then "-" else "") ++ (if literal.isLookup then "#" else "") ++
    "_".intercalate (literal.terms.map Term.key)

/-! ## Sameness and order -/

/-- Whether two lists of terms ask for the same, term by term. -/
def sameTerms : List Term → List Term → Bool
  | [], [] => true
  | a :: as, b :: bs => a.same b && sameTerms as bs
  | _, _ => false

/-- Whether two literals state the same condition. -/
def same (a b : Literal) : Bool :=
  sameTerms a.terms b.terms && a.negated == b.negated && a.isLookup == b.isLookup

/-- The order of literals. -/
protected def compare (a b : Literal) : Ordering :=
  (compare a.subject.first.key b.subject.first.key).then <|
  (compare b.negated a.negated).then <|
  (compare (a.subject.rest.map Term.key) (b.subject.rest.map Term.key)).then <|
  (compare a.isLookup b.isLookup).then <|
  compare (a.terms.map Term.form) (b.terms.map Term.form)

instance : Ord Literal := ⟨Literal.compare⟩

/-- Whether `a` may stand before `b` in a sorted list. -/
def le (a b : Literal) : Bool := (compare a b).isLE

end Literal

end Tagging
