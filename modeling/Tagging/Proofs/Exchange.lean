import Tagging.Proofs.Caching
import Tagging.Proofs.Order

/-!
# Literals that stand for each other

Where two literals say the same, an evaluation may take the one for the other: both are found in the same places,
ask for the same rule, and have opposites that say the same. A search that remembers what it was answered does
just that, and so does a clause that keeps one of several literals that say the same.

A search is a program that asks and goes on with the answer. Two searches for literals that say the same, in the
same places of a clausal form, are one program. They remember different literals, but nothing that is asked of
their memories shows it, so they are compared by how they go on.
-/

namespace Tagging

/-! ## Literals -/

namespace Literal

variable {a b : Literal}

/-- Nothing that evaluates literals tells `a` and `b` apart. -/
structure Exchangeable (a b : Literal) : Prop where
  find : ∀ tokens, a.find tokens = b.find tokens
  target? : a.target? = b.target?
  negate : a.negate.same b.negate = true
  answer : ∀ tokens outcomeOf, a.answer tokens outcomeOf = b.answer tokens outcomeOf

theorem answer_eq_of_same (h : a.same b = true) (tokens : List Token) (outcomeOf : String → Inquiry Outcome) :
    a.answer tokens outcomeOf = b.answer tokens outcomeOf := by
  unfold answer
  rw [target?_eq_of_same h, negated_eq_of_same h, find_eq_of_same h]

theorem exchangeable_of_same (h : a.same b = true) : a.Exchangeable b where
  find := find_eq_of_same h
  target? := target?_eq_of_same h
  negate := by rwa [same_negate, negate_negate]
  answer := answer_eq_of_same h

end Literal

/-! ## Memories -/

namespace Memo

variable {memo memo' : Memo} {a b : Literal}

/-- The memories `memo` and `memo'` know the same. -/
def Agree (memo memo' : Memo) : Prop := ∀ literal, memo.get? literal = memo'.get? literal

/-- A memory knows the same about literals that say the same. -/
theorem get?_eq_of_same (h : a.same b = true) (memo : Memo) : memo.get? a = memo.get? b := by
  have hentry : (fun entry : Literal × Outcome => entry.1.same a) = fun entry => entry.1.same b :=
    funext fun entry => Literal.same_congr_right h
  rw [get?, get?, hentry]

/-- Memories that know the same still do when one remembers an outcome for `a` and the other for `b`, which says the
same. -/
theorem Agree.put (hmemo : memo.Agree memo') (h : a.same b = true) (outcome : Outcome) :
    (memo.put a outcome).Agree (memo'.put b outcome) := by
  intro literal
  rw [get?_put, get?_put, Literal.same_congr h, hmemo literal]

theorem exists_mem_of_get? {outcome : Outcome} (h : memo.get? a = some outcome) :
    ∃ other, (other, outcome) ∈ memo.entries ∧ other.same a = true := by
  obtain ⟨entry, hfind, rfl⟩ := Option.map_eq_some_iff.1 h
  have hsame : entry.1.same a = true := by simpa using List.find?_some hfind
  exact ⟨entry.1, List.mem_of_find?_eq_some hfind, hsame⟩

end Memo

/-! ## Searches -/

section Search

variable {m : Type → Type} [Monad m] [LawfulMonad m] {α : Type} {ask : Literal → m Outcome} {memo memo' : Memo}
  {next next' : Outcome × Memo → m α}

/-- Both `next` and `next'` go on in the same way with memories that know the same. -/
def GoesOnAlike (next next' : Outcome × Memo → m α) : Prop :=
  ∀ (outcome : Outcome) (memo memo' : Memo), memo.Agree memo' → next (outcome, memo) = next' (outcome, memo')

/-- Asking for `a` and going on is the same program as asking for `b`, which says the same, and going on alike. -/
theorem Memo.answer_bind_congr (hask : ∀ a b, a.same b = true → ask a = ask b) {a b : Literal}
    (h : a.same b = true) (hmemo : memo.Agree memo') (hnext : GoesOnAlike next next') :
    memo.answer ask a >>= next = memo'.answer ask b >>= next' := by
  unfold answer
  rw [hmemo a, get?_eq_of_same h, hask a b h]
  cases memo'.get? b with
  | some outcome => simpa only [pure_bind] using hnext outcome memo memo' hmemo
  | none =>
    simp only [bind_assoc, pure_bind]
    exact bind_congr fun outcome => hnext outcome _ _ (hmemo.put h outcome)

/-- Searching a `clause` and going on is the same program as searching `clause'`, whose literals say the same one by
one. -/
theorem Clause.findBy_bind_congr (hask : ∀ a b, a.same b = true → ask a = ask b) {clause clause' : Clause}
    (h : List.Forall₂ (fun a b => a.same b = true) clause clause') (hmemo : memo.Agree memo')
    (hnext : GoesOnAlike next next') :
    findBy ask memo clause >>= next = findBy ask memo' clause' >>= next' := by
  induction h generalizing memo memo' with
  | nil => simpa only [findBy, pure_bind] using hnext none memo memo' hmemo
  | cons hsame _ ih =>
    simp only [findBy, bind_assoc]
    refine Memo.answer_bind_congr hask hsame hmemo fun outcome memo memo' hmemo => ?_
    cases outcome with
    | some span => simpa only [pure_bind] using hnext (some span) memo memo' hmemo
    | none => exact ih hmemo

namespace Cnf

/-- Searching `clauses` one after the other is the same program for `clauses'` that say the same. -/
theorem coverBy_congr (hask : ∀ a b, a.same b = true → ask a = ask b) {clauses clauses' : List Clause}
    (h : List.Forall₂ (List.Forall₂ fun a b => a.same b = true) clauses clauses')
    (hmemo : memo.Agree memo') (covered : Outcome) :
    coverBy ask memo covered clauses = coverBy ask memo' covered clauses' := by
  induction h generalizing memo memo' covered with
  | nil => rfl
  | cons hclause _ ih =>
    unfold coverBy
    refine Clause.findBy_bind_congr hask hclause hmemo fun outcome memo memo' hmemo => ?_
    cases outcome with
    | none => rfl
    | some span => exact ih hmemo _

/-- Searches that do not tell apart literals that say the same are one program for clausal forms that say the same.
-/
theorem findBy_congr (hask : ∀ a b, a.same b = true → ask a = ask b) {cnf cnf' : Cnf} (h : cnf.Same cnf')
    (length : Nat) : cnf.findBy ask length = cnf'.findBy ask length := by
  have hempty : cnf.clauses.isEmpty = cnf'.clauses.isEmpty := by
    rw [Bool.eq_iff_iff, List.isEmpty_iff_length_eq_zero, List.isEmpty_iff_length_eq_zero, h.length_eq]
  unfold findBy
  rw [hempty, coverBy_congr hask h (fun _ => rfl)]

end Cnf

end Search

/-! ## Evaluation -/

/-- Literals that say the same can stand for each other. What a search remembers about a literal was answered to
one that can stand for it, so a search finds what it would find if it remembered nothing, and it is the same
program for clausal forms that say the same. What a clause keeps when it is sorted can stand for what it drops. -/
theorem Literal.same_are_exchangeable :
    (∀ a b : Literal, a.same b = true → a.Exchangeable b) ∧
      (∀ (memo : Memo) (literal : Literal) (outcome : Outcome), memo.get? literal = some outcome →
        ∃ other, (other, outcome) ∈ memo.entries ∧ other.Exchangeable literal) ∧
      (∀ (set : RuleSet) (tokens : List Token) (cnf : Cnf),
        cnf.find tokens = cnf.verdict (Literal.find tokens) tokens.length ∧
          ((set.find tokens cnf).run .empty).1 =
            cnf.verdict (Literal.verdict tokens (set.verdict tokens)) tokens.length) ∧
      (∀ (tokens : List Token) (outcomeOf : String → Inquiry Outcome) (cnf cnf' : Cnf), cnf.Same cnf' →
        cnf.find tokens = cnf'.find tokens ∧
          cnf.findAsking tokens outcomeOf = cnf'.findAsking tokens outcomeOf) ∧
      ∀ clause : Clause, ∀ literal ∈ clause, ∃ kept ∈ clause.sorted, kept ∈ clause ∧ kept.Exchangeable literal := by
  refine ⟨fun a b => exchangeable_of_same, fun memo literal outcome h => ?_, fun set tokens cnf => ?_,
    fun tokens outcomeOf cnf cnf' h => ?_, fun clause literal hmem => ?_⟩
  · obtain ⟨other, hmem, hsame⟩ := Memo.exists_mem_of_get? h
    exact ⟨other, hmem, exchangeable_of_same hsame⟩
  · exact ⟨cnf.find_eq_verdict tokens, set.find_run_empty tokens cnf⟩
  · have hfind : ∀ a b : Literal, a.same b = true → (pure (a.find tokens) : Id Outcome) = pure (b.find tokens) :=
      fun a b hsame => congrArg pure (find_eq_of_same hsame tokens)
    have hanswer : ∀ a b : Literal, a.same b = true → a.answer tokens outcomeOf = b.answer tokens outcomeOf :=
      fun a b hsame => answer_eq_of_same hsame tokens outcomeOf
    exact ⟨congrArg Id.run (Cnf.findBy_congr hfind h tokens.length), Cnf.findBy_congr hanswer h tokens.length⟩
  · obtain ⟨kept, hkept, hsame⟩ := Clause.exists_same_mem_sorted hmem
    exact ⟨kept, hkept, Clause.mem_sorted hkept, exchangeable_of_same hsame⟩

/-- Two literals that are written in different words, each of which is asked for once the other is remembered. -/
theorem Literal.same_are_exchangeable_remembered :
    let fig : Literal := .ofTerm { word := "Fig", normalized := "fig" } true
    let figs : Literal := .ofTerm { word := "FIGS", normalized := "fig" } true
    let tree : Literal := .lookup "tree" false
    let cnf : Cnf := ⟨[[fig], [tree, figs]]⟩
    let cnf' : Cnf := ⟨[[figs], [tree, fig]]⟩
    let tokens : List Token := [{ word := "oak" }]
    fig.same figs = true ∧ fig.Exchangeable figs ∧ cnf.Same cnf' ∧ cnf.find tokens = some ⟨0, 1⟩ ∧
      cnf'.find tokens = some ⟨0, 1⟩ := by
  intro fig figs tree cnf cnf' tokens
  obtain ⟨hexchange, -, -, hforms, -⟩ := same_are_exchangeable
  have hsame : fig.same figs = true := by decide
  have hcnf : cnf.Same cnf' :=
    .cons (.cons hsame .nil) (.cons (.cons tree.same_refl (.cons (same_symm hsame) .nil)) .nil)
  have hfind : cnf.find tokens = some ⟨0, 1⟩ := by decide
  obtain ⟨hcongr, -⟩ := hforms tokens (fun _ => pure none) cnf cnf' hcnf
  exact ⟨hsame, hexchange fig figs hsame, hcnf, hfind, hcongr ▸ hfind⟩

end Tagging
