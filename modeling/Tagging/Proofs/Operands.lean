import Tagging.Proofs.Compilation
import Tagging.Proofs.PhraseFollow
import Tagging.Proofs.NormalForm

/-!
# Operands

Under the conjunctions, disjunctions and negations of a pattern in negation normal form stand its operands. An
operand has a literal if it is a lookup, or if it consists of words and wildcards next to each other, no two
neighbours of them wildcards. A phrase is put together part by part, and its parts are checked before the whole;
but a part has no neighbours that the whole does not have, so only the whole counts.
-/

namespace Tagging

/-! ## Neighbouring wildcards -/

/-- At most one of two neighbours is a wildcard. -/
def Apart (a b : Option Wildcard) : Prop := a = none ∨ b = none

/-- The check for neighbouring wildcards finds none exactly if of any two neighbours among `terms` at most one is a
wildcard. -/
theorem hasAdjacentWildcards_eq_false_iff {terms : List Term} :
    hasAdjacentWildcards terms = false ↔ (terms.map Term.wildcard?).IsChain Apart := by
  fun_induction hasAdjacentWildcards terms with
  | case1 a b terms ih =>
    rw [List.map_cons, List.map_cons, List.isChain_cons_cons, ← List.map_cons, ← ih, Apart]
    cases ha : a.wildcard? <;> cases hb : b.wildcard? <;> simp [Term.isWildcard, ha, hb]
  | case2 terms h =>
    cases terms with
    | nil => simp
    | cons a terms =>
      cases terms with
      | nil => simp
      | cons b terms => exact absurd rfl (h a b terms)

theorem Phrase.eq_of_terms_eq {p q : Phrase} (h : p.terms = q.terms) : p = q := by
  cases p
  cases q
  cases h
  rfl

namespace Pattern

variable {normalizer : Normalizer} {x l r : Pattern} {terms : List Term} {literal : Literal}

/-! ## Words and wildcards -/

/-- Words and wildcards next to each other. Something is left of each word to be compared. -/
inductive OfTerms (normalizer : Normalizer) : Pattern → Prop where
  | word {w : String} : normalizer.normalize w ≠ "" → OfTerms normalizer (.word w)
  | exactWord {w : String} : w ≠ "" → OfTerms normalizer (.exactWord w)
  | wildcard {w : Wildcard} : OfTerms normalizer (.wildcard w)
  | join {l r : Pattern} : OfTerms normalizer l → OfTerms normalizer r →
      OfTerms normalizer (.join l r)

/-- The parts of a pattern that stand next to each other, from left to right. -/
def leaves : Pattern → List Pattern
  | .join l r => l.leaves ++ r.leaves
  | leaf => [leaf]

/-- The wildcard that a leaf becomes, which a quoted word does too if it is the sign of one. -/
def wildcard? : Pattern → Option Wildcard
  | .wildcard w => some w
  | .exactWord w => Wildcard.ofSymbol? w
  | _ => none

theorem OfTerms.isNegationNormal (h : OfTerms normalizer x) : x.IsNegationNormal := by
  induction h with
  | join _ _ ihl ihr => exact isNegationNormal_join.2 ⟨ihl, ihr⟩
  | _ => simp [IsNegationNormal, parts]

/-- The token is the word: a quoted word as it is written, any other in its normalized form. -/
def IsAt (normalizer : Normalizer) : Pattern → Token → Prop
  | .word w, token => token.normalized = normalizer.normalize w
  | .exactWord w, token => token.word = w
  | _, _ => False

/-- The term that a leaf becomes. It is the same wildcard as the leaf, or satisfied by the tokens that are the
word. -/
structure Becomes (normalizer : Normalizer) (leaf : Pattern) (term : Term) : Prop where
  wildcard : term.wildcard? = leaf.wildcard?
  accepts : term.wildcard? = none → ∀ token, leaf.IsAt normalizer token ↔ term.accepts token = true

/-- Words and wildcards have `terms`, one for each of the leaves. -/
theorem OfTerms.exists_terms (h : OfTerms normalizer x) : ∃ terms,
    x.terms? normalizer true = some terms ∧ List.Forall₂ (Becomes normalizer) x.leaves terms := by
  induction h with
  | @word w hw =>
    refine ⟨[⟨w, normalizer.normalize w, .normalized⟩], by simp [terms?, hw], .cons ⟨rfl, ?_⟩ .nil⟩
    intro hplain token
    simp [IsAt, Term.accepts, hplain]
  | @exactWord w hw =>
    refine ⟨[.exactly w], by simp [terms?, hw], .cons ⟨rfl, ?_⟩ .nil⟩
    intro hplain token
    simp [IsAt, Term.accepts, Term.exactly, Term.wildcard?] at hplain ⊢
    simp [hplain]
  | @wildcard w =>
    have hwildcard : (Term.ofWildcard w).wildcard? = some w := by cases w <;> rfl
    refine ⟨[.ofWildcard w], rfl, .cons ⟨hwildcard, fun hplain => ?_⟩ .nil⟩
    rw [hwildcard] at hplain
    cases hplain
  | join _ _ ihl ihr =>
    obtain ⟨left, hleft, hl⟩ := ihl
    obtain ⟨right, hright, hr⟩ := ihr
    exact ⟨left ++ right, by simp [terms?, hleft, hright], List.rel_append hl hr⟩

theorem map_wildcard?_eq {leaves : List Pattern} (h : List.Forall₂ (Becomes normalizer) leaves terms) :
    terms.map Term.wildcard? = leaves.map wildcard? := by
  induction h with
  | nil => rfl
  | cons hbecomes _ ih => rw [List.map_cons, List.map_cons, hbecomes.wildcard, ih]

/-- A pattern in negation normal form has terms only if it consists of words and wildcards. -/
theorem ofTerms_of_terms? (hnormal : x.IsNegationNormal) (h : x.terms? normalizer true = some terms) :
    OfTerms normalizer x := by
  induction x generalizing terms with
  | and _ _ | or _ _ | lookup _ => cases h
  | not x =>
    obtain ⟨hx, -⟩ := isNegationNormal_not.1 hnormal
    cases x with
    | and _ _ | or _ _ | not _ => cases hx
    | _ => cases h
  | word w =>
    refine .word fun hempty => ?_
    simp [terms?, hempty] at h
  | exactWord w =>
    refine .exactWord fun hempty => ?_
    simp [terms?, hempty] at h
  | wildcard w => exact .wildcard
  | join l r ihl ihr =>
    obtain ⟨hl, hr⟩ := isNegationNormal_join.1 hnormal
    obtain ⟨left, hleft, h⟩ := Option.bind_eq_some_iff.1 h
    obtain ⟨right, hright, -⟩ := Option.bind_eq_some_iff.1 h
    exact .join (ihl hl hleft) (ihr hr hright)

/-- When no two neighbours among `terms` are wildcards they make up a phrase, however they are put together: a part
of `x` has no neighbours that `x` does not have. -/
theorem OfTerms.exists_literal (h : OfTerms normalizer x)
    (hterms : x.terms? normalizer true = some terms)
    (hseparated : hasAdjacentWildcards terms = false) (negated top : Bool) :
    ∃ phrase : Phrase, phrase.terms = terms ∧
      x.literal normalizer negated top = .ok ⟨negated, .phrase phrase⟩ := by
  induction h generalizing terms negated top with
  | word hw =>
    simp only [terms?, String.isEmpty_iff, hw, if_false, Option.some.injEq] at hterms
    subst hterms
    exact ⟨.ofTerm _, rfl, by simp [Pattern.literal, hw, Literal.ofTerm]⟩
  | exactWord hw =>
    simp only [terms?, String.isEmpty_iff, hw, if_false, Option.some.injEq] at hterms
    subst hterms
    exact ⟨.ofTerm _, rfl, by simp [Pattern.literal, hw, Literal.ofTerm, Term.exactly]⟩
  | wildcard =>
    cases hterms
    exact ⟨.ofTerm _, rfl, rfl⟩
  | join _ _ ihl ihr =>
    obtain ⟨left, hleft, hterms⟩ := Option.bind_eq_some_iff.1 hterms
    obtain ⟨right, hright, hterms⟩ := Option.bind_eq_some_iff.1 hterms
    cases hterms
    obtain ⟨hl, hr⟩ := hasAdjacentWildcards_append hseparated
    obtain ⟨leftPhrase, rfl, hleftLiteral⟩ := ihl hleft hl false false
    obtain ⟨rightPhrase, rfl, hrightLiteral⟩ := ihr hright hr false false
    let phrase : Phrase := ⟨leftPhrase.first, leftPhrase.rest ++ rightPhrase.terms, hseparated⟩
    refine ⟨phrase, rfl, ?_⟩
    rw [Pattern.literal, hleftLiteral, hrightLiteral]
    exact Literal.ofTerms_terms phrase negated

/-! ## The literal of an operand -/

/-- An operand that has a literal: a lookup, or words and wildcards of which no two neighbours become
wildcards. -/
def HasLiteral (normalizer : Normalizer) (x : Pattern) : Prop :=
  (∃ name, x = .lookup name) ∨
    (OfTerms normalizer x ∧ (x.leaves.map wildcard?).IsChain Apart)

/-- The literal is about what the operand is about: it looks up the same rule, or asks for the words and
wildcards of the operand in their order. -/
def IsSubjectOf (normalizer : Normalizer) (x : Pattern) : Subject → Prop
  | .lookup name => x = .lookup name
  | .phrase phrase => x.terms? normalizer true = some phrase.terms

/-- The literal of an operand `x` is negated as asked for and is about what `x` is about. -/
theorem literal_eq_ok_iff (hnormal : x.IsNegationNormal) {negated : Bool} :
    x.literal normalizer negated true = .ok literal ↔
      literal.negated = negated ∧ x.IsSubjectOf normalizer literal.subject := by
  constructor
  · intro h
    rcases literal_spec h with ⟨-, name, rfl, rfl⟩ | ⟨phrase, rfl, hterms, -⟩
    · exact ⟨rfl, rfl⟩
    · exact ⟨rfl, hterms⟩
  · rintro ⟨rfl, hsubject⟩
    obtain ⟨negated, subject⟩ := literal
    cases subject with
    | lookup name =>
      cases hsubject
      rfl
    | phrase phrase =>
      obtain ⟨other, hother, hliteral⟩ := (ofTerms_of_terms? hnormal hsubject).exists_literal hsubject
        phrase.separated negated true
      rw [hliteral, Phrase.eq_of_terms_eq hother]

/-- Whether an operand has a literal does not depend on `negated`. -/
theorem exists_literal_iff (hnormal : x.IsNegationNormal) (negated : Bool) :
    (∃ literal, x.literal normalizer negated true = .ok literal) ↔ x.HasLiteral normalizer := by
  constructor
  · rintro ⟨literal, h⟩
    rcases literal_spec h with ⟨-, name, rfl, -⟩ | ⟨phrase, -, hterms, -⟩
    · exact .inl ⟨name, rfl⟩
    · have hof := ofTerms_of_terms? hnormal hterms
      obtain ⟨terms, hsome, hbecomes⟩ := hof.exists_terms
      rw [hterms] at hsome
      cases hsome
      refine .inr ⟨hof, ?_⟩
      rw [← map_wildcard?_eq hbecomes]
      exact hasAdjacentWildcards_eq_false_iff.1 phrase.separated
  · rintro (⟨name, rfl⟩ | ⟨hof, hapart⟩)
    · exact ⟨.lookup name negated, rfl⟩
    · obtain ⟨terms, hterms, hbecomes⟩ := hof.exists_terms
      rw [← map_wildcard?_eq hbecomes] at hapart
      obtain ⟨phrase, -, hliteral⟩ := hof.exists_literal hterms
        (hasAdjacentWildcards_eq_false_iff.2 hapart) negated true
      exact ⟨_, hliteral⟩

/-! ## Negated operands -/

/-- Whether the pattern is a negation. -/
def isNegation : Pattern → Bool
  | .not _ => true
  | _ => false

/-- The pattern without the negation that it may start with. -/
def unnegated : Pattern → Pattern
  | .not x => x
  | x => x

/-- The literal states what the operand does: it has the same subject, and is negated if the operand is. -/
structure States (normalizer : Normalizer) (operand : Pattern) (literal : Literal) : Prop where
  negated : literal.negated = operand.isNegation
  subject : operand.unnegated.IsSubjectOf normalizer literal.subject

/-- The literal of an operand, negated or not. -/
def operandLiteral (normalizer : Normalizer) (operand : Pattern) : Except Fault Literal :=
  operand.unnegated.literal normalizer operand.isNegation true

theorem isNegationNormal_unnegated (h : x.IsNegationNormal) : x.unnegated.IsNegationNormal := by
  cases x with
  | not x => exact (isNegationNormal_not.1 h).2
  | _ => exact h

/-- The `literal` of an operand is the one that states what it does. -/
theorem operandLiteral_eq_ok_iff (hnormal : x.IsNegationNormal) :
    x.operandLiteral normalizer = .ok literal ↔ x.States normalizer literal := by
  rw [operandLiteral, literal_eq_ok_iff (isNegationNormal_unnegated hnormal)]
  exact ⟨fun ⟨hnegated, hsubject⟩ => ⟨hnegated, hsubject⟩, fun h => ⟨h.negated, h.subject⟩⟩

end Pattern

end Tagging
