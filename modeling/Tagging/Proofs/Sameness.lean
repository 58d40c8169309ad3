import Mathlib.Data.List.Forall2
import Mathlib.Data.List.Induction
import Tagging.Cnf
import Tagging.Literal.Search

/-!
# Literals that say the same

Two literals that say the same may still be written with different words, since only one form of a word
is compared. Nothing that a search looks at tells them apart: they are found in the same places and look
up the same rule. The order of literals calls only such literals equal. Two clausal forms say the same if their
literals do, one by one.
-/

namespace Tagging

/-! ## Terms -/

namespace Term

variable {a b : Term}

theorem same_iff : a.same b = true ↔ a.form = b.form ∧ a.key = b.key := by
  simp [same]

@[simp] theorem same_refl (a : Term) : a.same a = true := same_iff.2 ⟨rfl, rfl⟩

/-- The key, which is the word or its normalized form, is the only word that `a` and `b` are ever compared by. -/
theorem word_or_normalized_eq_of_same (h : a.same b = true) :
    (a.form = .written ∧ b.form = .written ∧ a.word = b.word) ∨
      (a.form = .normalized ∧ b.form = .normalized ∧ a.normalized = b.normalized) := by
  obtain ⟨hform, hkey⟩ := same_iff.1 h
  cases hb : b.form <;> rw [hb] at hform <;> simp [key, hb, hform] at hkey ⊢ <;> exact hkey

theorem wildcard?_eq_of_same (h : a.same b = true) : a.wildcard? = b.wildcard? := by
  rcases word_or_normalized_eq_of_same h with ⟨ha, hb, hword⟩ | ⟨ha, hb, -⟩
  · simp [wildcard?, ha, hb, hword]
  · simp [wildcard?, ha, hb]

theorem accepts_eq_of_same (h : a.same b = true) (token : Token) :
    a.accepts token = b.accepts token := by
  unfold accepts
  rw [wildcard?_eq_of_same h]
  rcases word_or_normalized_eq_of_same h with ⟨ha, hb, hword⟩ | ⟨ha, hb, hnormalized⟩
  · rw [ha, hb, hword]
  · rw [ha, hb, hnormalized]

theorem leap?_eq_of_same (h : a.same b = true) (tokens : List Token) :
    ∀ position, a.leap? position tokens = b.leap? position tokens := by
  induction tokens with
  | nil => intro position; rfl
  | cons token tokens ih =>
    intro position
    simp only [leap?, accepts_eq_of_same h, ih]

end Term

/-! ## Phrases -/

namespace Literal

/-- The comparison of two lists of terms goes through both of them at once. -/
theorem sameTerms_iff {as bs : List Term} :
    sameTerms as bs = true ↔ List.Forall₂ (fun a b => a.same b = true) as bs := by
  fun_induction sameTerms as bs with
  | case1 => simp
  | case2 a as b bs ih => simp [ih]
  | case3 as bs hnil hcons =>
    simp only [Bool.false_eq_true, false_iff]
    intro h
    cases h with
    | nil => exact hnil rfl rfl
    | cons hab h => exact hcons _ _ _ _ rfl rfl

end Literal

namespace Phrase

/-- Terms `as` and `bs` that say the same one by one lead through the tokens on the same way. -/
theorem follow_congr {as bs : List Term} (h : List.Forall₂ (fun a b => a.same b = true) as bs) :
    ∀ position tokens, follow position tokens as = follow position tokens bs := by
  induction as using List.twoStepInduction generalizing bs with
  | nil =>
    intro position tokens
    cases h
    rfl
  | singleton a =>
    intro position tokens
    cases h with
    | cons hab h =>
    cases h
    simp only [follow, Term.wildcard?_eq_of_same hab, Term.accepts_eq_of_same hab]
  | cons_cons a a' as ih ih' =>
    intro position tokens
    cases h with
    | cons hab h =>
    have hrest := ih' a' h
    cases h with
    | cons hab' h =>
    simp only [follow, Term.wildcard?_eq_of_same hab, Term.accepts_eq_of_same hab,
      Term.leap?_eq_of_same hab', ih h, hrest]

theorem scan_congr {as bs : List Term} (h : List.Forall₂ (fun a b => a.same b = true) as bs)
    (tokens : List Token) : ∀ start, scan as start tokens = scan bs start tokens := by
  induction tokens with
  | nil => intro start; rfl
  | cons token tokens ih =>
    intro start
    simp only [scan, follow_congr h, ih]

end Phrase

/-! ## Literals -/

namespace Literal

variable {a b : Literal}

/-- Literals say the same if their terms do, and both are negated or not, and lookups or not. -/
theorem same_iff : a.same b = true ↔
    List.Forall₂ (fun s t => s.same t = true) a.terms b.terms ∧ a.negated = b.negated ∧
      a.isLookup = b.isLookup := by
  simp [same, sameTerms_iff, and_assoc]

@[simp] theorem same_refl (a : Literal) : a.same a = true :=
  same_iff.2 ⟨List.forall₂_same.2 fun term _ => term.same_refl, rfl, rfl⟩

theorem negated_eq_of_same (h : a.same b = true) : a.negated = b.negated := (same_iff.1 h).2.1

theorem find_eq_of_same (h : a.same b = true) (tokens : List Token) :
    a.find tokens = b.find tokens := by
  obtain ⟨hterms, hnegated, -⟩ := same_iff.1 h
  simp only [find, Phrase.find, Phrase.scan_congr hterms, hnegated]

/-- Literals that say the same look up the same rule. For the only term of a lookup is the name of its rule. -/
theorem target?_eq_of_same (h : a.same b = true) : a.target? = b.target? := by
  obtain ⟨hterms, -, hlookup⟩ := same_iff.1 h
  unfold isLookup at hlookup
  unfold target? terms at *
  cases ha : a.subject with
  | phrase p =>
    cases hb : b.subject with
    | phrase q => rfl
    | lookup name => simp [ha, hb, Subject.isLookup] at hlookup
  | lookup name =>
    cases hb : b.subject with
    | phrase q => simp [ha, hb, Subject.isLookup] at hlookup
    | lookup other =>
      simpa [ha, hb, Subject.terms, Subject.first, Subject.rest, Term.same_iff, Term.exactly,
        Term.key] using hterms

/-! ## The order of literals -/

instance : Std.LawfulEqOrd Form where
  compare_self {a} := by cases a <;> rfl
  eq_of_compare {a b} := by cases a <;> cases b <;> decide

/-- Terms of the same keys and forms say the same. -/
theorem forall₂_same_of_map_eq {as bs : List Term} (hkeys : as.map Term.key = bs.map Term.key)
    (hforms : as.map Term.form = bs.map Term.form) :
    List.Forall₂ (fun s t => s.same t = true) as bs := by
  induction as generalizing bs with
  | nil => simp_all
  | cons a as ih =>
    cases bs with
    | nil => simp at hkeys
    | cons b bs =>
      obtain ⟨hkey, hkeys⟩ := List.cons.inj hkeys
      obtain ⟨hform, hforms⟩ := List.cons.inj hforms
      exact .cons (Term.same_iff.2 ⟨hform, hkey⟩) (ih hkeys hforms)

theorem same_of_compare_eq (h : compare a b = .eq) : a.same b = true := by
  have h : Literal.compare a b = .eq := h
  simp only [Literal.compare, Ordering.then_eq_eq, Std.compare_eq_iff_eq] at h
  obtain ⟨hfirst, hnegated, hrest, hlookup, hforms⟩ := h
  refine same_iff.2 ⟨forall₂_same_of_map_eq ?_ hforms, hnegated.symm, hlookup⟩
  simp only [terms, Subject.terms, List.map_cons, hfirst, hrest]

end Literal

/-! ## Clausal forms -/

/-- The clausal forms `a` and `b` have the same literals in the same places, up to literals that say the same. -/
def Cnf.Same (a b : Cnf) : Prop :=
  List.Forall₂ (List.Forall₂ fun l m => l.same m = true) a.clauses b.clauses

end Tagging
