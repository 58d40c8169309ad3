import Tagging.Proofs.Sameness
import Tagging.Proofs.Verdict

/-!
# Remembering literals changes nothing

A search through a clausal form asks for each literal at most once and remembers the answer for all
literals that say the same. As long as such literals have one outcome, the search finds what the verdict
says.
-/

namespace Tagging

/-- Literals that say the same have one outcome in `ofLiteral`. -/
def Uniform (ofLiteral : Literal → Outcome) : Prop :=
  ∀ a b : Literal, a.same b = true → ofLiteral a = ofLiteral b

theorem uniform_find (tokens : List Token) : Uniform (Literal.find tokens) :=
  fun _ _ h => Literal.find_eq_of_same h tokens

theorem uniform_verdict (tokens : List Token) (ofRule : String → Outcome) :
    Uniform (Literal.verdict tokens ofRule) := by
  intro a b h
  unfold Literal.verdict
  rw [Literal.target?_eq_of_same h, Literal.negated_eq_of_same h, Literal.find_eq_of_same h]

variable {ofLiteral : Literal → Outcome}

namespace Memo

/-- Everything that is remembered in `memo` is right. -/
def Right (ofLiteral : Literal → Outcome) (memo : Memo) : Prop :=
  ∀ literal outcome, memo.get? literal = some outcome → outcome = ofLiteral literal

theorem right_empty : Right ofLiteral empty := by
  intro literal outcome h
  simp [get?, empty] at h

/-- What is put for `literal` is known of every `other` that says the same, and of no other literal. -/
theorem get?_put (memo : Memo) (literal other : Literal) (outcome : Outcome) :
    (memo.put literal outcome).get? other =
      if literal.same other = true then some outcome else memo.get? other := by
  unfold get? Memo.put
  rw [List.find?_cons]
  cases literal.same other <;> rfl

/-- A memory stays right when it remembers the outcome that `ofLiteral` gives, since literals that say the same have
one. -/
theorem Right.put {memo : Memo} (h : memo.Right ofLiteral) (huniform : Uniform ofLiteral)
    (literal : Literal) : (memo.put literal (ofLiteral literal)).Right ofLiteral := by
  intro other outcome hget
  rw [get?_put] at hget
  split_ifs at hget with hsame
  · rw [← Option.some.inj hget, huniform literal other hsame]
  · exact h other outcome hget

end Memo

/-! ## Searches that only compute -/

section Search

variable {m : Type → Type} [Monad m] [LawfulMonad m]

/-- The outcome of one `literal`, remembered or not, is the one that `ofLiteral` gives, and the memory stays right.
-/
theorem Memo.exists_answer_eq {memo : Memo} (h : memo.Right ofLiteral) (huniform : Uniform ofLiteral)
    (literal : Literal) : ∃ memo', memo'.Right ofLiteral ∧
      memo.answer (fun literal => (pure (ofLiteral literal) : m Outcome)) literal =
        pure (ofLiteral literal, memo') := by
  unfold answer
  cases hget : memo.get? literal with
  | some outcome => exact ⟨memo, h, by rw [h literal outcome hget]⟩
  | none => exact ⟨_, h.put huniform literal, by simp⟩

/-- A search of one `clause` finds its verdict, which later literals have no part in once one holds. -/
theorem Clause.exists_findBy_eq (huniform : Uniform ofLiteral) (clause : Clause) :
    ∀ {memo : Memo}, memo.Right ofLiteral → ∃ memo', memo'.Right ofLiteral ∧
      findBy (fun literal => (pure (ofLiteral literal) : m Outcome)) memo clause =
        pure (verdict ofLiteral clause, memo') := by
  induction clause with
  | nil => exact fun {memo} hmemo => ⟨memo, hmemo, rfl⟩
  | cons literal rest ih =>
    intro memo hmemo
    obtain ⟨memo', hmemo', hanswer⟩ := Memo.exists_answer_eq (m := m) hmemo huniform literal
    unfold findBy
    rw [hanswer, pure_bind, verdict_cons]
    dsimp only
    cases ofLiteral literal with
    | some span => exact ⟨memo', hmemo', rfl⟩
    | none => exact ih hmemo'

namespace Cnf

/-- The span `covered` by the clauses met so far is extended as far as the verdicts of `clauses` reach. -/
theorem coverBy_eq (huniform : Uniform ofLiteral) (clauses : List Clause) :
    ∀ {memo : Memo} (covered : Span), memo.Right ofLiteral →
      coverBy (fun literal => (pure (ofLiteral literal) : m Outcome)) memo (some covered) clauses =
        pure ((clauses.mapM (Clause.verdict ofLiteral)).map fun spans => spans.foldl Span.reach covered) := by
  induction clauses with
  | nil => exact fun covered _ => rfl
  | cons clause rest ih =>
    intro memo covered hmemo
    obtain ⟨memo', hmemo', hclause⟩ := Clause.exists_findBy_eq (m := m) huniform clause hmemo
    unfold coverBy
    rw [hclause, pure_bind, List.mapM_cons]
    dsimp only
    cases Clause.verdict ofLiteral clause with
    | none => rfl
    | some span =>
      refine (ih (covered.reach span) hmemo').trans ?_
      cases rest.mapM (Clause.verdict ofLiteral) <;> rfl

/-- A search of `cnf` finds what the verdict says. -/
theorem findBy_eq (huniform : Uniform ofLiteral) (length : Nat) (cnf : Cnf) :
    cnf.findBy (fun literal => (pure (ofLiteral literal) : m Outcome)) length =
      pure (cnf.verdict ofLiteral length) := by
  unfold findBy verdict
  cases cnf.clauses with
  | nil => rfl
  | cons first rest =>
    obtain ⟨memo, hmemo, hfirst⟩ := Clause.exists_findBy_eq (m := m) huniform first Memo.right_empty
    rw [if_neg (by simp)]
    unfold coverBy
    rw [hfirst, pure_bind]
    dsimp only
    cases Clause.verdict ofLiteral first with
    | none => rfl
    | some span =>
      have hrest := coverBy_eq (m := m) huniform rest span hmemo
      simp only [hrest, Span.foldl_reach]
      cases rest.mapM (Clause.verdict ofLiteral) <;> rfl

theorem find_eq_verdict (tokens : List Token) (cnf : Cnf) :
    cnf.find tokens = cnf.verdict (Literal.find tokens) tokens.length :=
  congrArg Id.run (cnf.findBy_eq (m := Id) (uniform_find tokens) tokens.length)

end Cnf

end Search

end Tagging
