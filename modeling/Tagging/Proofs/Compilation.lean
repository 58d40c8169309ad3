import Tagging.Proofs.Meaning
import Tagging.Proofs.Simplification

/-!
# Compiling keeps the meaning

A pattern that has a clausal form has a meaning, and its clausal form finds something in a text exactly if
the pattern is true of it. No clause of it is empty, so simplification keeps the meaning too.
-/

namespace Tagging

theorem bind_eq_ok_iff {ε α β : Type} {x : Except ε α} {next : α → Except ε β} {b : β} :
    x >>= next = .ok b ↔ ∃ a, x = .ok a ∧ next a = .ok b := by
  constructor
  · intro h
    cases x with
    | error fault => cases h
    | ok a => exact ⟨a, rfl, h⟩
  · rintro ⟨a, rfl, h⟩
    exact h

namespace Literal

theorem ofTerms_terms (phrase : Phrase) (negated : Bool) :
    ofTerms phrase.terms negated = .ok ⟨negated, .phrase phrase⟩ :=
  dif_pos phrase.separated

/-- A literal that `ofTerms` gives is the phrase of the `terms`. -/
theorem exists_phrase_of_ofTerms {terms : List Term} {negated : Bool} {literal : Literal}
    (h : ofTerms terms negated = .ok literal) :
    ∃ phrase : Phrase, phrase.terms = terms ∧ literal = ⟨negated, .phrase phrase⟩ := by
  cases terms with
  | nil => cases h
  | cons first rest =>
    by_cases hseparated : hasAdjacentWildcards (first :: rest) = false
    · rw [ofTerms, dif_pos hseparated] at h
      cases h
      exact ⟨⟨first, rest, hseparated⟩, rfl, rfl⟩
    · rw [ofTerms, dif_neg hseparated] at h
      cases h

end Literal

namespace Pattern

variable {normalizer : Normalizer} {tokens : List Token} {ofRule : String → Option Bool}
  {outcome : String → Outcome}

/-! ## Literals -/

/-- The literal of an operand is a lookup where `top` allows one, or else a phrase. By induction on `x`. Both sides
of a join are phrases, since lookups may not stand inside one. -/
theorem literal_spec {x : Pattern} : ∀ {negated top : Bool} {lit : Literal},
    literal normalizer negated top x = .ok lit →
      (top = true ∧ ∃ name, x = .lookup name ∧ lit = .lookup name negated) ∨
        ∃ phrase : Phrase, lit = ⟨negated, .phrase phrase⟩ ∧
          x.terms? normalizer true = some phrase.terms ∧
          x.phrase? normalizer = some ⟨false, .phrase phrase⟩ := by
  induction x with
  | and l r | or l r | not x =>
    intro negated top lit h
    cases h
  | word w =>
    intro negated top lit h
    right
    simp only [literal] at h
    split_ifs at h with hempty
    cases h
    refine ⟨_, rfl, ?_⟩
    simp [terms?, phrase?, hempty, Phrase.terms, Phrase.ofTerm, Literal.ofTerms,
      hasAdjacentWildcards, Except.toOption]
  | exactWord w =>
    intro negated top lit h
    right
    simp only [literal] at h
    split_ifs at h with hempty
    cases h
    refine ⟨_, rfl, ?_⟩
    simp [terms?, phrase?, hempty, Phrase.terms, Phrase.ofTerm, Literal.ofTerms,
      hasAdjacentWildcards, Except.toOption]
  | wildcard w =>
    intro negated top lit h
    cases h
    exact .inr ⟨_, rfl, rfl, rfl⟩
  | lookup name =>
    intro negated top lit h
    simp only [literal] at h
    split_ifs at h with htop
    cases h
    exact .inl ⟨htop, name, rfl, rfl⟩
  | join l r ihl ihr =>
    intro negated top lit h
    right
    obtain ⟨left, hl, h⟩ := bind_eq_ok_iff.1 h
    obtain ⟨right, hr, h⟩ := bind_eq_ok_iff.1 h
    obtain ⟨phrase, hterms, rfl⟩ := Literal.exists_phrase_of_ofTerms h
    obtain ⟨leftPhrase, rfl, hleft, -⟩ := (ihl hl).resolve_left (by simp)
    obtain ⟨rightPhrase, rfl, hright, -⟩ := (ihr hr).resolve_left (by simp)
    have hjoin : terms? normalizer true (.join l r) = some phrase.terms := by
      rw [terms?, hleft, hright, hterms]
      rfl
    refine ⟨phrase, rfl, hjoin, ?_⟩
    simp only [phrase?, hjoin]
    exact congrArg Except.toOption (Literal.ofTerms_terms phrase false)

/-- What is known about rules agrees with their outcomes, for all rules that are looked up. -/
def Informs (ofRule : String → Option Bool) (outcome : String → Outcome) (literals : List Literal) :
    Prop :=
  ∀ literal ∈ literals, ∀ name, literal.target? = some name →
    ofRule name = some (outcome name).isSome

/-- An operand `x` is true exactly if its literal holds, and `negated` turns both around. -/
theorem truth?_of_literal {negated : Bool} {x : Pattern} {lit : Literal}
    (h : literal normalizer negated true x = .ok lit) (hinforms : Informs ofRule outcome [lit]) :
    x.truth? normalizer tokens ofRule =
      some (xor negated (lit.verdict tokens outcome).isSome) := by
  rcases literal_spec h with ⟨-, name, rfl, rfl⟩ | ⟨phrase, rfl, -, hphrase⟩
  · have hname := hinforms (.lookup name negated) (by simp) name rfl
    rw [Literal.lookup, Literal.isSome_verdict_negated, truth?, hname]
    simp [Literal.verdict, Literal.target?]
  · rw [truth?_eq_of_phrase? hphrase, Literal.isSome_verdict_negated]
    simp [Literal.verdict, Literal.target?]

/-! ## Clauses -/

/-- A disjunction `x` is true exactly if a literal of its clause holds. -/
theorem truth?_of_clause {x : Pattern} : ∀ {c : Clause}, clause normalizer x = .ok c →
    Informs ofRule outcome c → x.truth? normalizer tokens ofRule =
      some (c.any fun lit => (lit.verdict tokens outcome).isSome) := by
  fun_induction clause normalizer x with
  | case1 l r ihl ihr =>
    intro c h hinforms
    obtain ⟨left, hl, h⟩ := bind_eq_ok_iff.1 h
    obtain ⟨right, hr, h⟩ := bind_eq_ok_iff.1 h
    cases h
    have htruthl := ihl hl fun lit hlit => hinforms lit (List.mem_append_left _ hlit)
    have htruthr := ihr hr fun lit hlit => hinforms lit (List.mem_append_right _ hlit)
    rw [truth?, htruthl, htruthr, List.any_append]
    rfl
  | case2 x =>
    intro c h hinforms
    obtain ⟨lit, hlit, h⟩ := bind_eq_ok_iff.1 h
    cases h
    rw [truth?, truth?_of_literal hlit hinforms]
    simp
  | case3 x _ _ =>
    intro c h hinforms
    obtain ⟨lit, hlit, h⟩ := bind_eq_ok_iff.1 h
    cases h
    rw [truth?_of_literal hlit hinforms]
    simp

theorem ne_nil_of_clause {x : Pattern} : ∀ {c : Clause}, clause normalizer x = .ok c → c ≠ [] := by
  fun_induction clause normalizer x with
  | case1 l r ihl ihr =>
    intro c h
    obtain ⟨left, hl, h⟩ := bind_eq_ok_iff.1 h
    obtain ⟨right, hr, h⟩ := bind_eq_ok_iff.1 h
    cases h
    simp [ihl hl]
  | case2 x | case3 x _ _ =>
    intro c h
    obtain ⟨lit, hlit, h⟩ := bind_eq_ok_iff.1 h
    cases h
    simp

/-- A conjunction `x` is true exactly if each of its clauses has a literal that holds. -/
theorem truth?_of_clauses {x : Pattern} : ∀ {cs : List Clause}, clauses normalizer x = .ok cs →
    Informs ofRule outcome cs.flatten → x.truth? normalizer tokens ofRule =
      some (cs.all fun c => c.any fun lit => (lit.verdict tokens outcome).isSome) := by
  fun_induction clauses normalizer x with
  | case1 l r ihl ihr =>
    intro cs h hinforms
    obtain ⟨left, hl, h⟩ := bind_eq_ok_iff.1 h
    obtain ⟨right, hr, h⟩ := bind_eq_ok_iff.1 h
    cases h
    rw [List.flatten_append] at hinforms
    have htruthl := ihl hl fun lit hlit => hinforms lit (List.mem_append_left _ hlit)
    have htruthr := ihr hr fun lit hlit => hinforms lit (List.mem_append_right _ hlit)
    rw [truth?, htruthl, htruthr, List.all_append]
    rfl
  | case2 x _ =>
    intro cs h hinforms
    obtain ⟨c, hc, h⟩ := bind_eq_ok_iff.1 h
    cases h
    rw [truth?_of_clause hc (by simpa using hinforms)]
    simp

theorem nil_notMem_of_clauses {x : Pattern} : ∀ {cs : List Clause}, clauses normalizer x = .ok cs →
    [] ∉ cs := by
  fun_induction clauses normalizer x with
  | case1 l r ihl ihr =>
    intro cs h
    obtain ⟨left, hl, h⟩ := bind_eq_ok_iff.1 h
    obtain ⟨right, hr, h⟩ := bind_eq_ok_iff.1 h
    cases h
    simp [ihl hl, ihr hr]
  | case2 x _ =>
    intro cs h
    obtain ⟨c, hc, h⟩ := bind_eq_ok_iff.1 h
    cases h
    simpa using (ne_nil_of_clause hc).symm

/-! ## Clausal forms -/

/-- No clause of a clausal form that a `tree` has is empty. -/
theorem nil_notMem_of_toCnf {tree : Pattern} {cnf : Cnf} (h : tree.toCnf normalizer = .ok cnf) :
    [] ∉ cnf.clauses := by
  obtain ⟨cs, hcs, h⟩ := bind_eq_ok_iff.1 h
  cases h
  exact nil_notMem_of_clauses hcs

/-- A `tree` is true of a text exactly if its clausal form `cnf` finds something there, when `hinforms` says that
`ofRule` and `outcome` agree about the rules it looks up. -/
theorem truth?_of_toCnf {tree : Pattern} {cnf : Cnf} (h : tree.toCnf normalizer = .ok cnf)
    (hinforms : Informs ofRule outcome cnf.literals) :
    tree.truth? normalizer tokens ofRule =
      some (cnf.verdict (Literal.verdict tokens outcome) tokens.length).isSome := by
  obtain ⟨cs, hcs, h⟩ := bind_eq_ok_iff.1 h
  cases h
  rw [← truth?_clausalTree, truth?_of_clauses hcs hinforms]
  congr 1
  rw [Bool.eq_iff_iff, Cnf.isSome_verdict_iff]
  simp [Clause.Holds]

end Pattern

end Tagging
