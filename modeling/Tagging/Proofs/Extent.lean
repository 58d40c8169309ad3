import Tagging.Proofs.Memory
import Tagging.Proofs.Starts

/-!
# Searches stay inside the text

Every span that is found is in order and reaches no farther than the text. This is so for a phrase, because
following it only ever goes forward, and it carries over to what complements, covers and lookups make of the
spans of phrases. The covering span starts with one of the spans and ends with another, but cannot be
reversed: its end is no smaller than that of the span it starts with.
-/

namespace Tagging

/-- The `span` is in order, and ends within the first `length` places. -/
def Span.Within (length : Nat) (span : Span) : Prop := span.start ≤ span.stop ∧ span.stop ≤ length

theorem Span.within_whole (length : Nat) : Span.Within length ⟨0, length⟩ :=
  ⟨Nat.zero_le length, Nat.le_refl length⟩

theorem Span.Within.hull {length : Nat} {first : Span} {rest : List Span} (hfirst : first.Within length)
    (hrest : ∀ span ∈ rest, span.Within length) : (first.hull rest).Within length := by
  have hstops : first.stop ≤ (rest.map stop).foldr max first.stop ∧
      (rest.map stop).foldr max first.stop ≤ length := by
    induction rest with
    | nil => exact ⟨Nat.le_refl _, hfirst.2⟩
    | cons span rest ih =>
      obtain ⟨hspan, hrest⟩ := List.forall_mem_cons.1 hrest
      obtain ⟨hle, hlength⟩ := ih hrest
      rw [List.map_cons, List.foldr_cons]
      exact ⟨Nat.le_trans hle (Nat.le_max_right _ _), Nat.max_le.2 ⟨hspan.2, hlength⟩⟩
  exact ⟨Nat.le_trans hfirst.1 hstops.1, hstops.2⟩

theorem Outcome.within_complement {length : Nat} {outcome : Outcome} :
    ∀ span ∈ outcome.complement length, span.Within length := by
  intro span hspan
  cases outcome with
  | none =>
    cases hspan
    exact Span.within_whole length
  | some found => cases hspan

/-! ## Phrases -/

/-- A leap of `term` gets forward, and loses no token: `rest` stands behind `next`. -/
theorem Term.leap?_eq_some {term : Term} {tokens : List Token} {position : Nat} {next : Nat}
    {rest : List Token} (h : term.leap? position tokens = some (next, rest)) :
    position < next ∧ next + rest.length = position + tokens.length := by
  obtain ⟨gap, token, rfl, -, -, rfl⟩ := leap?_eq_some_iff.1 h
  rw [List.length_append, List.length_cons]
  omega

namespace Phrase

/-- Where `terms` are followed to `stop`, this is not in front of `position`, and not beyond the end of the
`tokens`. -/
theorem follow_eq_found {position : Nat} {tokens : List Token} {terms : List Term} {stop : Nat}
    (h : follow position tokens terms = .found stop) :
    position ≤ stop ∧ stop ≤ position + tokens.length := by
  fun_induction follow position tokens terms with
  | case1 position tokens | case2 position tokens =>
    cases h
    omega
  | case4 position | case5 position =>
    cases h
    rw [List.length_cons]
    omega
  | case10 position term next terms tokens _ _ position' rest hleap ih =>
    have := Term.leap?_eq_some hleap
    have := ih h
    omega
  | case12 position term next terms token tokens _ _ position' rest hleap ih =>
    have := Term.leap?_eq_some hleap
    have := ih h
    rw [List.length_cons]
    omega
  | case13 position term next terms token tokens _ ih
  | case14 position term next terms token tokens _ _ ih =>
    have := ih h
    rw [List.length_cons]
    omega
  | case3 | case6 | case7 | case8 | case9 | case11 | case15 => cases h

/-- A `span` that a scan finds is in order and ends within the `tokens`. -/
theorem scan_eq_some {terms : List Term} {start : Nat} {tokens : List Token} {span : Span}
    (h : scan terms start tokens = some span) : span.Within (start + tokens.length) := by
  fun_induction scan terms start tokens with
  | case1 => cases h
  | case2 start token tokens stop hfollow =>
    cases h
    exact follow_eq_found hfollow
  | case3 => cases h
  | case4 start token tokens hfollow ih =>
    have hspan := ih h
    rwa [Nat.add_assoc, Nat.add_comm 1, ← List.length_cons] at hspan

end Phrase

/-! ## Literals and clausal forms -/

theorem Literal.within_find (tokens : List Token) (literal : Literal) :
    ∀ span ∈ literal.find tokens, span.Within tokens.length := by
  intro span hspan
  unfold find at hspan
  dsimp only at hspan
  split_ifs at hspan
  · exact Outcome.within_complement span hspan
  · have hscan := Phrase.scan_eq_some hspan
    rwa [Nat.zero_add] at hscan

/-- The verdict of a `literal` is within the `tokens` if those of the rules that it looks up are. -/
theorem Literal.within_verdict {tokens : List Token} {ofRule : String → Outcome} {literal : Literal}
    (h : ∀ target, literal.target? = some target →
      ∀ span ∈ ofRule target, span.Within tokens.length) :
    ∀ span ∈ literal.verdict tokens ofRule, span.Within tokens.length := by
  intro span hspan
  unfold verdict at hspan
  cases htarget : literal.target? with
  | none =>
    rw [htarget] at hspan
    exact literal.within_find tokens span hspan
  | some target =>
    rw [htarget] at hspan
    dsimp only at hspan
    split_ifs at hspan
    · exact Outcome.within_complement span hspan
    · exact h target htarget span hspan

section

variable {f : Literal → Outcome} {length : Nat}

/-- The verdict of a `clause` is that of one of its literals, so it is within the text if theirs are. -/
theorem Clause.within_verdict {clause : Clause}
    (h : ∀ literal ∈ clause, ∀ span ∈ f literal, span.Within length) :
    ∀ span ∈ verdict f clause, span.Within length := by
  intro span hspan
  obtain ⟨literal, hliteral, hf⟩ := List.exists_of_findSome?_eq_some hspan
  exact h literal hliteral span hf

theorem Clause.within_mapM_verdict {clauses : List Clause}
    (h : ∀ clause ∈ clauses, ∀ literal ∈ clause, ∀ span ∈ f literal, span.Within length) :
    ∀ spans ∈ clauses.mapM (verdict f), ∀ span ∈ spans, span.Within length := by
  induction clauses with
  | nil =>
    rintro spans ⟨⟩ span hspan
    cases hspan
  | cons clause rest ih =>
    intro spans hspans
    obtain ⟨hclause, hrest⟩ := List.forall_mem_cons.1 h
    rw [List.mapM_cons] at hspans
    obtain ⟨first, hfirst, hspans⟩ := Option.bind_eq_some_iff.1 hspans
    obtain ⟨others, hothers, hspans⟩ := Option.bind_eq_some_iff.1 hspans
    cases hspans
    exact List.forall_mem_cons.2 ⟨within_verdict hclause first hfirst, ih hrest others hothers⟩

/-- The verdict of `cnf` covers verdicts of its literals, so it is within the text if theirs are. -/
theorem Cnf.within_verdict {cnf : Cnf}
    (h : ∀ literal ∈ cnf.literals, ∀ span ∈ f literal, span.Within length) :
    ∀ span ∈ cnf.verdict f length, span.Within length := by
  have h : ∀ clause ∈ cnf.clauses, ∀ literal ∈ clause, ∀ span ∈ f literal, span.Within length :=
    fun clause hclause literal hliteral => h literal (List.mem_flatten.2 ⟨clause, hclause, hliteral⟩)
  intro span hspan
  unfold verdict at hspan
  cases hc : cnf.clauses with
  | nil =>
    rw [hc] at hspan
    cases hspan
    exact Span.within_whole length
  | cons first rest =>
    rw [hc] at hspan h
    obtain ⟨hfirst, hrest⟩ := List.forall_mem_cons.1 h
    obtain ⟨found, hfound, hspan⟩ := Option.bind_eq_some_iff.1 hspan
    obtain ⟨others, hothers, hspan⟩ := Option.bind_eq_some_iff.1 hspan
    cases hspan
    exact (Clause.within_verdict hfirst found hfound).hull
      (Clause.within_mapM_verdict hrest others hothers)

end

theorem Cnf.within_find (tokens : List Token) (cnf : Cnf) :
    ∀ span ∈ cnf.find tokens, span.Within tokens.length := by
  rw [find_eq_verdict]
  exact within_verdict fun literal _ => literal.within_find tokens

/-- The verdict of the rule `name` is within the `tokens`. By induction along the lookups, which end. -/
theorem RuleSet.within_verdict (set : RuleSet) (tokens : List Token) (name : String) :
    ∀ span ∈ set.verdict tokens name, span.Within tokens.length := by
  induction name using set.wellFounded_lookups.induction with
  | _ name ih =>
    rw [verdict_eq]
    cases hfind : set.find? name with
    | none =>
      intro span hspan
      cases hspan
    | some rule =>
      refine Cnf.within_verdict fun literal hliteral => Literal.within_verdict fun target htarget => ?_
      exact ih target (mem_lookupsOf_of_target? hfind hliteral htarget)

end Tagging
