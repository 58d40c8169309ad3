import Mathlib.Data.List.Forall2
import Tagging.Cnf.Compile
import Tagging.Proofs.NormalForm
import Tagging.Proofs.StandardNormalizer
import Tagging.Proofs.Sameness

/-!
# Words of patterns

The words of a pattern count only in their normalized form. They do not decide which way the pattern is taken
apart, so when they are replaced by words that are normalized to the same, there come the same clauses with the
same literals, or a failure as before. For `standard` the normalized words themselves are such words.
-/

namespace Tagging

/-! ## Computations that agree -/

/-- Both computations fail, or both give something and the results are related. -/
inductive Agree {α β : Type} (rel : α → β → Prop) : Except Fault α → Except Fault β → Prop where
  | ok {a : α} {b : β} (related : rel a b) : Agree rel (.ok a) (.ok b)
  | error (left right : Fault) : Agree rel (.error left) (.error right)

namespace Agree

variable {α β γ δ : Type} {rel : α → β → Prop} {x : Except Fault α} {y : Except Fault β}

theorem bind {rel' : γ → δ → Prop} {f : α → Except Fault γ} {g : β → Except Fault δ} (h : Agree rel x y)
    (hnext : ∀ a b, rel a b → Agree rel' (f a) (g b)) : Agree rel' (x >>= f) (y >>= g) := by
  cases h with
  | ok hab => exact hnext _ _ hab
  | error left right => exact .error left right

theorem singleton (h : Agree rel x y) :
    Agree (List.Forall₂ rel) (do return [← x]) (do return [← y]) := by
  refine h.bind fun a b hab => ?_
  exact .ok (.cons hab .nil)

theorem append {xs xs' : Except Fault (List α)} {ys ys' : Except Fault (List β)}
    (h : Agree (List.Forall₂ rel) xs ys) (h' : Agree (List.Forall₂ rel) xs' ys') :
    Agree (List.Forall₂ rel) (do let left ← xs; let right ← xs'; return left ++ right)
      (do let left ← ys; let right ← ys'; return left ++ right) := by
  refine h.bind fun left left' hleft => ?_
  refine h'.bind fun right right' hright => ?_
  exact .ok (List.rel_append hleft hright)

end Agree

namespace Literal

variable {as bs : List Term}

/-- Terms that say the same one by one are the same wildcards. -/
theorem hasAdjacentWildcards_congr (h : List.Forall₂ (fun a b => a.same b = true) as bs) :
    hasAdjacentWildcards as = hasAdjacentWildcards bs := by
  induction h with
  | nil => rfl
  | @cons a b as bs hab hrest ih =>
    cases hrest with
    | nil => rfl
    | cons hnext _ =>
      have ha := Term.wildcard?_eq_of_same hab
      have hb := Term.wildcard?_eq_of_same hnext
      rw [hasAdjacentWildcards, hasAdjacentWildcards, ih, Term.isWildcard, Term.isWildcard, ha, hb]
      rfl

/-- Terms that say the same one by one make up literals that say the same, or none. -/
theorem agree_ofTerms (h : List.Forall₂ (fun a b => a.same b = true) as bs)
    (negated : Bool) : Agree (fun a b => a.same b = true) (ofTerms as negated) (ofTerms bs negated) := by
  have hadjacent := hasAdjacentWildcards_congr h
  cases h with
  | nil => exact .error _ _
  | @cons a b as bs hab hrest =>
    by_cases hseparated : hasAdjacentWildcards (a :: as) = false
    · have hseparated' : hasAdjacentWildcards (b :: bs) = false := by rw [← hadjacent, hseparated]
      rw [ofTerms, ofTerms, dif_pos hseparated, dif_pos hseparated']
      exact .ok (same_iff.2 ⟨.cons hab hrest, rfl, rfl⟩)
    · have hseparated' : ¬ hasAdjacentWildcards (b :: bs) = false := by rwa [← hadjacent]
      rw [ofTerms, ofTerms, dif_neg hseparated, dif_neg hseparated']
      exact .error _ _

end Literal

namespace Pattern

variable {normalizer : Normalizer} {f : String → String}

/-! ## Taking a pattern apart -/

/-- The pattern with `f` applied to each word that is compared in its normalized form. -/
def mapWords (f : String → String) : Pattern → Pattern
  | .and l r => .and (mapWords f l) (mapWords f r)
  | .or l r => .or (mapWords f l) (mapWords f r)
  | .not x => .not (mapWords f x)
  | .join l r => .join (mapWords f l) (mapWords f r)
  | .word w => .word (f w)
  | leaf => leaf

theorem pushNot_mapWords (f : String → String) (tree : Pattern) :
    ∀ positive, pushNot positive (tree.mapWords f) = (pushNot positive tree).mapWords f := by
  induction tree with
  | and l r ihl ihr | or l r ihl ihr | join l r ihl ihr =>
    intro positive
    cases positive <;> simp only [mapWords, pushNot, ihl, ihr]
  | not x ih =>
    intro positive
    rw [mapWords, pushNot_not, pushNot_not, ih]
  | _ =>
    intro positive
    cases positive <;> rfl

theorem distributeLeft_mapWords (f : String → String) (l r : Pattern) :
    distributeLeft (r.mapWords f) (l.mapWords f) = (distributeLeft r l).mapWords f := by
  induction l with
  | and b c ihb ihc => simp only [mapWords, distributeLeft, ihb, ihc]
  | _ => rfl

theorem distributeOr_mapWords (f : String → String) (l r : Pattern) :
    distributeOr (l.mapWords f) (r.mapWords f) = (distributeOr l r).mapWords f := by
  induction r with
  | and b c ihb ihc => simp only [mapWords, distributeOr, ihb, ihc]
  | _ => exact distributeLeft_mapWords f l _

theorem distribute_mapWords (f : String → String) (tree : Pattern) :
    distribute (tree.mapWords f) = (distribute tree).mapWords f := by
  induction tree with
  | and l r ihl ihr => simp only [mapWords, distribute, ihl, ihr]
  | or l r ihl ihr => rw [mapWords, distribute, distribute, ihl, ihr, distributeOr_mapWords]
  | _ => rfl

/-- Replacing words by `f` makes no difference to how the `tree` is taken apart. -/
theorem clausalTree_mapWords (f : String → String) (tree : Pattern) :
    (tree.mapWords f).clausalTree = tree.clausalTree.mapWords f := by
  rw [clausalTree, clausalTree, negationNormal_eq_pushNot, negationNormal_eq_pushNot, pushNot_mapWords,
    distribute_mapWords]

/-! ## Clauses and literals -/

/-- With words replaced by `f`, an operand has a literal that says the same, or none as before. By induction on `x`.
A word keeps its normalized form, as `hf` says, and what its term does not compare is how the word was written. -/
theorem agree_literal (hf : ∀ word, normalizer.normalize (f word) = normalizer.normalize word)
    (x : Pattern) : ∀ negated top, Agree (fun a b => a.same b = true)
      (literal normalizer negated top x) (literal normalizer negated top (x.mapWords f)) := by
  induction x with
  | word w =>
    intro negated top
    simp only [mapWords, literal, hf]
    split_ifs
    · exact .error _ _
    · have hterm : Term.same ⟨w, normalizer.normalize w, .normalized⟩
          ⟨f w, normalizer.normalize w, .normalized⟩ = true := Term.same_iff.2 ⟨rfl, rfl⟩
      exact .ok (Literal.same_iff.2 ⟨.cons hterm .nil, rfl, rfl⟩)
  | join l r ihl ihr =>
    intro negated top
    refine (ihl false false).bind fun left left' hleft => ?_
    refine (ihr false false).bind fun right right' hright => ?_
    have hterms := List.rel_append (Literal.same_iff.1 hleft).1 (Literal.same_iff.1 hright).1
    exact Literal.agree_ofTerms hterms negated
  | exactWord w =>
    intro negated top
    simp only [mapWords, literal]
    split_ifs
    · exact .error _ _
    · exact .ok (Literal.same_refl _)
  | lookup name =>
    intro negated top
    simp only [mapWords, literal]
    split_ifs
    · exact .ok (Literal.same_refl _)
    · exact .error _ _
  | wildcard w => exact fun negated top => .ok (Literal.same_refl _)
  | and l r | or l r | not x => exact fun negated top => .error _ _

theorem agree_clause (hf : ∀ word, normalizer.normalize (f word) = normalizer.normalize word)
    (x : Pattern) : Agree (List.Forall₂ fun a b => a.same b = true)
      (clause normalizer x) (clause normalizer (x.mapWords f)) := by
  induction x with
  | or l r ihl ihr => exact ihl.append ihr
  | not x => exact (agree_literal hf x true true).singleton
  | _ => exact (agree_literal hf _ false true).singleton

theorem agree_clauses (hf : ∀ word, normalizer.normalize (f word) = normalizer.normalize word)
    (x : Pattern) : Agree (List.Forall₂ (List.Forall₂ fun a b => a.same b = true))
      (clauses normalizer x) (clauses normalizer (x.mapWords f)) := by
  induction x with
  | and l r ihl ihr => exact ihl.append ihr
  | _ => exact (agree_clause hf _).singleton

/-- Words may be replaced by others that are normalized to the same, as `hf` says. -/
theorem agree_toCnf (hf : ∀ word, normalizer.normalize (f word) = normalizer.normalize word)
    (tree : Pattern) : Agree Cnf.Same (tree.toCnf normalizer) ((tree.mapWords f).toCnf normalizer) := by
  unfold toCnf
  rw [clausalTree_mapWords]
  exact (agree_clauses hf tree.clausalTree).bind fun a b hab => .ok hab

end Pattern

namespace Normalizer

/-- To normalize twice is to normalize once. Only letters, digits and marks that take up space are left, and no
step changes anything more: a word stays as it is exactly if it does at each step. Patterns have the same
clausal forms when their words are already normalized. -/
theorem standard_yields_plain_words :
    (∀ word, standard.normalize (standard.normalize word) = standard.normalize word) ∧
    (∀ word, ∀ c ∈ (standard.normalize word).toList, Unicode.isNonspacingMark c = false ∧
      (Unicode.isLetter c = true ∨ Unicode.isMark c = true ∨ c.isDigit = true)) ∧
    (∀ word, ∀ step ∈ standard.steps,
      step.apply (standard.normalize word).toList = (standard.normalize word).toList) ∧
    (∀ word, standard.normalize word = word ↔
      ∀ step ∈ standard.steps, step.apply word.toList = word.toList) ∧
    ∀ tree : Pattern, Agree Cnf.Same (tree.toCnf standard)
      ((tree.mapWords standard.normalize).toCnf standard) := by
  have hsteps : ∀ word, ∀ step ∈ standard.steps,
      step.apply (standard.normalize word).toList = (standard.normalize word).toList :=
    fun word => Step.apply_eq_self fun c hc => isPlain_of_mem_normalize hc
  refine ⟨standard_normalize_normalize, fun word c hc => ?_, hsteps, fun word => ⟨fun h => ?_, fun h => ?_⟩,
    fun tree => ?_⟩
  · have hplain := isPlain_of_mem_normalize hc
    exact ⟨hplain.spacing, Step.keeps_iff.1 hplain.kept⟩
  · have hword := hsteps word
    rwa [h] at hword
  · rw [← String.toList_inj, toList_normalize]
    exact normalizeChars_eq_self h
  · exact Pattern.agree_toCnf standard_normalize_normalize tree

/-- A word with a sharp s and, behind a blank that is left out, a sigma at its end. -/
theorem standard_yields_plain_words_final_sigma :
    let word := "Großer ΟΔΟΣ"
    let plain := "grosserοδος"
    standard.normalize word = plain ∧ standard.normalize plain = plain ∧ 'ς' ∈ plain.toList ∧
      Unicode.isNonspacingMark 'ς' = false ∧ Unicode.lowercase plain.toList = plain.toList := by
  intro word plain
  have hform : standard.normalize word = plain := by decide +kernel
  have hsigma : 'ς' ∈ plain.toList := by decide +kernel
  obtain ⟨hidem, hplain, hsteps, -⟩ := standard_yields_plain_words
  have hidem := hidem word
  have hplain := hplain word 'ς'
  have hsteps := hsteps word .lowercase (by decide)
  rw [hform] at hidem hplain hsteps
  exact ⟨hform, hidem, hsigma, (hplain hsigma).1, hsteps⟩

end Normalizer

end Tagging
