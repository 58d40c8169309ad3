import Tagging.Cnf.Simplify
import Tagging.Proofs.Caching

/-!
# What simplification keeps

Sorting a clause, dropping clauses that hold of every text and dropping clauses that an earlier one makes
superfluous leave the texts of which a clausal form holds as they are. Only soundness of the searches in
sorted clauses is needed for that: whatever is found in a clause says the same as one of its literals.

An empty clause holds of no text, but it is dropped like one that holds of all. So a clausal form with an
empty clause is found nowhere, while its simplification is found wherever its other clauses are.
-/

namespace Tagging

variable {f : Literal → Outcome}

/-- Of a literal and its opposite one holds. -/
def Decisive (ofLiteral : Literal → Outcome) : Prop :=
  ∀ literal, (ofLiteral literal).isSome ∨ (ofLiteral literal.negate).isSome

/-- If negation reverses whether a literal holds, one of two opposites does. -/
theorem decisive_of_isSome_negated (h : ∀ subject negated,
      (f ⟨negated, subject⟩).isSome = xor negated (f ⟨false, subject⟩).isSome) : Decisive f := by
  rintro ⟨negated, subject⟩
  rw [Literal.negate, h subject negated, h subject (!negated)]
  cases negated <;> cases (f ⟨false, subject⟩).isSome <;> simp

theorem decisive_find (tokens : List Token) : Decisive (Literal.find tokens) :=
  decisive_of_isSome_negated (Literal.isSome_find_negated tokens)

theorem decisive_verdict (tokens : List Token) (ofRule : String → Outcome) :
    Decisive (Literal.verdict tokens ofRule) :=
  decisive_of_isSome_negated (Literal.isSome_verdict_negated tokens ofRule)

namespace Clause

variable {clause : Clause} {literal : Literal}

/-! ## Sorted clauses -/

/-- What is found by halving is there: some literal of `clause` says the same. -/
theorem exists_same_of_search (h : search clause literal = true) :
    ∃ other ∈ clause, literal.same other = true := by
  fun_induction search clause literal with
  | case1 => cases h
  | case2 clause middle upper hdrop heq =>
    have hmiddle : middle ∈ clause.drop (clause.length / 2) := by simp [hdrop]
    exact ⟨middle, List.mem_of_mem_drop hmiddle, Literal.same_of_compare_eq heq⟩
  | case3 clause middle upper hdrop hlt ih =>
    obtain ⟨other, hother, hsame⟩ := ih h
    exact ⟨other, List.mem_of_mem_take hother, hsame⟩
  | case4 clause middle upper hdrop hgt ih =>
    obtain ⟨other, hother, hsame⟩ := ih h
    have hupper : other ∈ clause.drop (clause.length / 2) := by simp [hdrop, hother]
    exact ⟨other, List.mem_of_mem_drop hupper, hsame⟩

theorem mem_collapse_go {kept : Literal} {rest : Clause} (h : literal ∈ collapse.go kept rest) :
    literal ∈ kept :: rest := by
  fun_induction collapse.go kept rest with
  | case1 => exact h
  | case2 kept other rest hsame ih =>
    rcases List.mem_cons.1 (ih h) with rfl | hrest
    · simp
    · simp [hrest]
  | case3 kept other rest hsame ih =>
    rcases List.mem_cons.1 h with rfl | hrest
    · simp
    · exact List.mem_cons_of_mem _ (ih hrest)

theorem self_mem_collapse_go (kept : Literal) (rest : Clause) : kept ∈ collapse.go kept rest := by
  fun_induction collapse.go kept rest with
  | case1 => simp
  | case2 kept other rest hsame ih => exact ih
  | case3 => simp

/-- Every `literal` has one among those kept that says the same. -/
theorem exists_same_mem_collapse_go {kept : Literal} {rest : Clause} (h : literal ∈ kept :: rest) :
    ∃ other ∈ collapse.go kept rest, other.same literal = true := by
  fun_induction collapse.go kept rest with
  | case1 => exact ⟨literal, h, literal.same_refl⟩
  | case2 kept other rest hsame ih =>
    rcases List.mem_cons.1 h with rfl | h
    · exact ih (by simp)
    · rcases List.mem_cons.1 h with rfl | h
      · exact ⟨kept, self_mem_collapse_go kept rest, hsame⟩
      · exact ih (List.mem_cons_of_mem _ h)
  | case3 kept other rest hsame ih =>
    rcases List.mem_cons.1 h with rfl | h
    · exact ⟨literal, by simp, literal.same_refl⟩
    · obtain ⟨found, hfound, hsame⟩ := ih h
      exact ⟨found, List.mem_cons_of_mem _ hfound, hsame⟩

theorem mem_sorted (h : literal ∈ sorted clause) : literal ∈ clause := by
  have hmem : literal ∈ clause.mergeSort Literal.le := by
    unfold sorted at h
    cases hsort : clause.mergeSort Literal.le with
    | nil =>
      rw [hsort] at h
      exact h
    | cons first rest =>
      rw [hsort] at h
      exact mem_collapse_go h
  exact List.mem_mergeSort.1 hmem

theorem exists_same_mem_sorted (h : literal ∈ clause) :
    ∃ other ∈ sorted clause, other.same literal = true := by
  have hmem : literal ∈ clause.mergeSort Literal.le := List.mem_mergeSort.2 h
  unfold sorted
  cases hsort : clause.mergeSort Literal.le with
  | nil =>
    rw [hsort] at hmem
    cases hmem
  | cons first rest =>
    rw [hsort] at hmem
    exact exists_same_mem_collapse_go hmem

theorem holds_sorted_iff (huniform : Uniform f) : Holds f (sorted clause) ↔ Holds f clause := by
  constructor
  · rintro ⟨literal, hmem, hsome⟩
    exact ⟨literal, mem_sorted hmem, hsome⟩
  · rintro ⟨literal, hmem, hsome⟩
    obtain ⟨other, hother, hsame⟩ := exists_same_mem_sorted hmem
    exact ⟨other, hother, by rwa [huniform other literal hsame]⟩

theorem sorted_eq_nil_iff : sorted clause = [] ↔ clause = [] := by
  constructor
  · intro h
    refine List.eq_nil_iff_forall_not_mem.2 fun literal hmem => ?_
    obtain ⟨other, hother, -⟩ := exists_same_mem_sorted hmem
    rw [h] at hother
    cases hother
  · rintro rfl
    simp [sorted, collapse]

/-! ## What may be dropped -/

theorem holds_of_isTautology (huniform : Uniform f) (hdecisive : Decisive f)
    (h : isTautology clause = true) : Holds f clause := by
  obtain ⟨literal, hmem, h⟩ := List.any_eq_true.1 h
  obtain ⟨other, hother, hsame⟩ := exists_same_of_search (Bool.and_eq_true_iff.1 h).2
  rcases hdecisive literal with hsome | hsome
  · exact ⟨literal, hmem, hsome⟩
  · exact ⟨other, hother, by rwa [← huniform _ other hsame]⟩

theorem Holds.of_isSubset {small large : Clause} (h : Holds f small) (huniform : Uniform f)
    (hsubset : isSubset small large = true) : Holds f large := by
  obtain ⟨literal, hmem, hsome⟩ := h
  have hsearch := List.all_eq_true.1 (Bool.and_eq_true_iff.1 hsubset).2 literal hmem
  obtain ⟨other, hother, hsame⟩ := exists_same_of_search hsearch
  exact ⟨other, hother, by rwa [← huniform _ other hsame]⟩

end Clause

namespace Cnf

variable {cnf : Cnf} {clauses : List Clause}

theorem mem_of_mem_unsubsumed {clause : Clause} : ∀ {earlier : List Clause},
    clause ∈ unsubsumed earlier clauses → clause ∈ clauses := by
  induction clauses with
  | nil => exact fun h => h
  | cons first rest ih =>
    intro earlier h
    unfold unsubsumed at h
    split_ifs at h with hsub
    · exact List.mem_cons_of_mem _ (ih h)
    · rcases List.mem_cons.1 h with rfl | h
      · simp
      · exact List.mem_cons_of_mem _ (ih h)

/-- If the clauses that are left hold, all of `clauses` do. By induction on `clauses`: one that is dropped contains
an `earlier` one, and kept or not it holds, so it counts among the earlier ones from there on. -/
theorem holds_of_unsubsumed (huniform : Uniform f) : ∀ {earlier : List Clause},
    (∀ clause ∈ earlier, Clause.Holds f clause) →
    (∀ clause ∈ unsubsumed earlier clauses, Clause.Holds f clause) →
    ∀ clause ∈ clauses, Clause.Holds f clause := by
  induction clauses with
  | nil => exact fun _ _ => by simp
  | cons first rest ih =>
    intro earlier hearlier hkept
    have hstep : Clause.Holds f first ∧
        ∀ clause ∈ unsubsumed (earlier ++ [first]) rest, Clause.Holds f clause := by
      unfold unsubsumed at hkept
      split_ifs at hkept with hsub
      · obtain ⟨small, hsmall, hsubset⟩ := List.any_eq_true.1 hsub
        exact ⟨(hearlier small hsmall).of_isSubset huniform hsubset, hkept⟩
      · exact List.forall_mem_cons.1 hkept
    obtain ⟨hfirst, hrest⟩ := hstep
    refine List.forall_mem_cons.2 ⟨hfirst, ih (fun clause hclause => ?_) hrest⟩
    rcases List.mem_append.1 hclause with hclause | hclause
    · exact hearlier clause hclause
    · rw [List.mem_singleton.1 hclause]
      exact hfirst

/-- The essential clauses hold exactly if the clauses do that are not empty. -/
theorem holds_essential_iff (huniform : Uniform f) (hdecisive : Decisive f) :
    (∀ clause ∈ essential clauses, Clause.Holds f clause) ↔
      ∀ clause ∈ clauses, clause ≠ [] → Clause.Holds f clause := by
  unfold essential
  constructor
  · intro h clause hclause hne
    rw [← Clause.holds_sorted_iff huniform]
    by_cases htautology : Clause.isTautology (Clause.sorted clause) = true
    · exact Clause.holds_of_isTautology huniform hdecisive htautology
    · have hsorted : Clause.sorted clause ≠ [] := fun hnil => hne (Clause.sorted_eq_nil_iff.1 hnil)
      refine h _ (List.mem_filter.2 ⟨List.mem_map_of_mem hclause, ?_⟩)
      simpa [hsorted] using htautology
  · intro h sorted hmem
    obtain ⟨hmem, hkept⟩ := List.mem_filter.1 hmem
    obtain ⟨clause, hclause, rfl⟩ := List.mem_map.1 hmem
    rw [Clause.holds_sorted_iff huniform]
    refine h clause hclause fun hnil => ?_
    rw [Clause.sorted_eq_nil_iff.2 hnil] at hkept
    cases hkept

theorem mem_literals_of_mem_simplify {literal : Literal} (h : literal ∈ cnf.simplify.literals) :
    literal ∈ cnf.literals := by
  obtain ⟨sorted, hsorted, hliteral⟩ := List.mem_flatten.1 h
  obtain ⟨hmem, -⟩ := List.mem_filter.1 (mem_of_mem_unsubsumed hsorted)
  obtain ⟨clause, hclause, rfl⟩ := List.mem_map.1 hmem
  exact List.mem_flatten.2 ⟨clause, hclause, Clause.mem_sorted hliteral⟩

/-- The clausal form `cnf` without its empty clauses. -/
def withoutEmpty (cnf : Cnf) : Cnf := ⟨cnf.clauses.filter (!·.isEmpty)⟩

/-- A simplified clausal form holds where the clauses do that are not empty. -/
theorem isSome_verdict_simplify (huniform : Uniform f) (hdecisive : Decisive f) (length : Nat) :
    (cnf.simplify.verdict f length).isSome = (cnf.withoutEmpty.verdict f length).isSome := by
  rw [Bool.eq_iff_iff, isSome_verdict_iff, isSome_verdict_iff]
  have hsimplify : (∀ clause ∈ cnf.simplify.clauses, Clause.Holds f clause) ↔
      ∀ clause ∈ essential cnf.clauses, Clause.Holds f clause :=
    ⟨fun h => holds_of_unsubsumed huniform (by simp) h,
      fun h clause hclause => h clause (mem_of_mem_unsubsumed hclause)⟩
  rw [hsimplify, holds_essential_iff huniform hdecisive]
  simp [withoutEmpty, and_imp]

/-- Where `cnf` has no empty clause, simplification loses nothing. -/
theorem isSome_verdict_simplify_of_nil_notMem (huniform : Uniform f) (hdecisive : Decisive f)
    (length : Nat) (h : [] ∉ cnf.clauses) :
    (cnf.simplify.verdict f length).isSome = (cnf.verdict f length).isSome := by
  have hclauses : cnf.clauses.filter (!·.isEmpty) = cnf.clauses := by
    refine List.filter_eq_self.2 fun clause hclause => ?_
    cases clause with
    | nil => exact absurd hclause h
    | cons literal rest => rfl
  rw [isSome_verdict_simplify huniform hdecisive length, withoutEmpty, hclauses]

/-- Simplification changes whether something is found exactly if `cnf` has an empty clause and the others are found.
-/
theorem isSome_verdict_simplify_eq_iff (huniform : Uniform f) (hdecisive : Decisive f) (length : Nat) :
    (cnf.simplify.verdict f length).isSome = (cnf.verdict f length).isSome ↔
      ¬ ([] ∈ cnf.clauses ∧ (cnf.withoutEmpty.verdict f length).isSome = true) := by
  by_cases hnil : [] ∈ cnf.clauses
  · have hnone : (cnf.verdict f length).isSome = false := by
      rw [Bool.eq_false_iff]
      intro hsome
      obtain ⟨literal, hmem, -⟩ := isSome_verdict_iff.1 hsome [] hnil
      cases hmem
    rw [hnone, isSome_verdict_simplify huniform hdecisive length]
    simp [hnil]
  · rw [isSome_verdict_simplify_of_nil_notMem huniform hdecisive length hnil]
    simp [hnil]

/-! ## Texts and rules -/

/-- Whether `cnf` holds of a text is left alone by simplification, with and without rules, except where an empty
clause is dropped beside clauses that hold. -/
theorem simplify_keeps_isSome_iff (cnf : Cnf) (set : RuleSet) (tokens : List Token) :
    ((cnf.simplify.find tokens).isSome = (cnf.find tokens).isSome ↔
      ¬ ([] ∈ cnf.clauses ∧ (cnf.withoutEmpty.find tokens).isSome = true)) ∧
    (((set.find tokens cnf.simplify).run .empty).1.isSome =
        ((set.find tokens cnf).run .empty).1.isSome ↔
      ¬ ([] ∈ cnf.clauses ∧ ((set.find tokens cnf.withoutEmpty).run .empty).1.isSome = true)) := by
  constructor
  · simp only [find_eq_verdict]
    exact isSome_verdict_simplify_eq_iff (uniform_find tokens) (decisive_find tokens) _
  · simp only [RuleSet.find_run_empty]
    exact isSome_verdict_simplify_eq_iff (uniform_verdict tokens _) (decisive_verdict tokens _) _

/-- The clausal form of one empty clause is found in no text, and its simplification in every text. -/
theorem simplify_forgets_empty_clause :
    ((⟨[[]]⟩ : Cnf).find [{ word := "a" }]).isSome = false ∧
      ((⟨[[]]⟩ : Cnf).simplify.find [{ word := "a" }]).isSome = true := by
  have hsimplify : (⟨[[]]⟩ : Cnf).simplify = ⟨[]⟩ := by
    simp [simplify, essential, Clause.sorted_eq_nil_iff.2, unsubsumed]
  rw [hsimplify]
  exact ⟨rfl, rfl⟩

end Cnf

end Tagging
