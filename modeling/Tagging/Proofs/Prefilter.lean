import Tagging.Proofs.Surroundings
import Tagging.Query

/-!
# Queries as filters

A query is a conjunction of disjunctions of conditions on the words that occur in a text. If it is to leave
out only texts that the clausal form does not hold of, each of its conditions has to be true wherever the
literal that it was made from holds. For a phrase that is asked for this is so: its words occur where the
phrase does. For a negated phrase it is so only if the phrase is a single word, for the words of a longer one
may occur apart from each other. And a literal of which no words are left must not be one of several
alternatives, since the query drops it and so asks for one of the others.
-/

namespace Tagging

/-- A term of a query with the terms of the phrase that its words are taken from. -/
structure Condition where
  /-- Whether the condition must not hold. -/
  negated : Bool
  /-- The terms that tokens have to satisfy. -/
  terms : List Term
deriving DecidableEq, Repr

namespace Condition

/-- The term of the query. -/
def toTerm (condition : Condition) : QueryTerm := ⟨condition.negated, condition.terms.map Term.key⟩

/-- Every term is satisfied by some one of the `tokens`, wherever it stands, or if the `condition` is negated some
term by none. -/
def holds (tokens : List Token) (condition : Condition) : Bool :=
  xor condition.negated (condition.terms.all fun term => tokens.any term.accepts)

variable {terms : List Term} {tokens : List Token}

theorem holds_plain_iff : holds tokens ⟨false, terms⟩ = true ↔
    ∀ term ∈ terms, ∃ token ∈ tokens, term.accepts token = true := by
  simp only [holds, Bool.false_xor, List.all_eq_true, List.any_eq_true]

theorem holds_negated_iff : holds tokens ⟨true, terms⟩ = true ↔
    ∃ term ∈ terms, ∀ token ∈ tokens, ¬ term.accepts token = true := by
  rw [holds, Bool.true_xor, Bool.not_eq_true', List.all_eq_false]
  simp only [List.any_eq_true, not_exists, not_and]

end Condition

namespace Dialect

variable (dialect : Dialect)

/-- The terms that `dialect` keeps of a `literal`. -/
def kept (literal : Literal) : List Term :=
  literal.terms.filter fun term => !(dialect.dropsWildcards && term.isWildcard)

/-- The condition of a `literal`, unless no terms are left of it. -/
def condition? (literal : Literal) : Option Condition :=
  match dialect.kept literal with
  | [] => none
  | terms => some ⟨literal.negated, terms⟩

/-- The conditions of the query of `cnf`. -/
def conditions (cnf : Cnf) : List (List Condition) :=
  (cnf.clauses.map fun clause => clause.filterMap dialect.condition?).filter (!·.isEmpty)

/-- The query of `cnf` is true of the `tokens`. -/
def selects (tokens : List Token) (cnf : Cnf) : Bool :=
  (dialect.conditions cnf).all fun clause => clause.any (Condition.holds tokens)

variable {dialect} {literal : Literal} {condition : Condition} {tokens : List Token}

theorem term?_eq_map (literal : Literal) :
    dialect.term? literal = (dialect.condition? literal).map Condition.toTerm := by
  unfold term? condition? words
  rw [← kept]
  cases dialect.kept literal <;> rfl

/-- The query of `cnf` has the terms of its `conditions`, so what `selects` evaluates is the query that is written.
-/
theorem query_eq_map (cnf : Cnf) :
    dialect.query cnf = (dialect.conditions cnf).map (·.map Condition.toTerm) := by
  have hclauses : (cnf.clauses.map fun clause => clause.filterMap dialect.term?) =
      (cnf.clauses.map fun clause => clause.filterMap dialect.condition?).map
        (·.map Condition.toTerm) := by
    simp only [List.map_map, Function.comp_def, List.map_filterMap, ← term?_eq_map]
  unfold query conditions
  rw [hclauses, List.filter_map]
  simp only [Function.comp_def, List.isEmpty_map]

theorem condition?_eq_some_iff : dialect.condition? literal = some condition ↔
    dialect.kept literal ≠ [] ∧ condition = ⟨literal.negated, dialect.kept literal⟩ := by
  unfold condition?
  cases dialect.kept literal with
  | nil => simp
  | cons term terms => simp [eq_comm]

theorem condition?_eq_none_iff : dialect.condition? literal = none ↔ dialect.kept literal = [] := by
  unfold condition?
  cases dialect.kept literal <;> simp

/-- A query is true if every clause of which something is left has a literal of which something is left and whose
condition is true. -/
theorem selects_iff {cnf : Cnf} : dialect.selects tokens cnf = true ↔ ∀ clause ∈ cnf.clauses,
    (∃ literal ∈ clause, dialect.kept literal ≠ []) → ∃ literal ∈ clause,
      dialect.kept literal ≠ [] ∧
        Condition.holds tokens ⟨literal.negated, dialect.kept literal⟩ = true := by
  have hempty : ∀ clause : Clause, (!(clause.filterMap dialect.condition?).isEmpty) = true ↔
      ∃ literal ∈ clause, dialect.kept literal ≠ [] := by
    intro clause
    simp [List.filterMap_eq_nil_iff, condition?_eq_none_iff]
  have hany : ∀ clause : Clause, (clause.filterMap dialect.condition?).any (Condition.holds tokens) =
      true ↔ ∃ literal ∈ clause, dialect.kept literal ≠ [] ∧
        Condition.holds tokens ⟨literal.negated, dialect.kept literal⟩ = true := by
    intro clause
    simp only [List.any_eq_true, List.mem_filterMap, condition?_eq_some_iff]
    constructor
    · rintro ⟨condition, ⟨literal, hliteral, hkept, rfl⟩, hholds⟩
      exact ⟨literal, hliteral, hkept, hholds⟩
    · rintro ⟨literal, hliteral, hkept, hholds⟩
      exact ⟨_, ⟨literal, hliteral, hkept, rfl⟩, hholds⟩
  unfold selects conditions
  simp only [List.all_eq_true, List.mem_filter, List.mem_map, and_imp, forall_exists_index,
    forall_apply_eq_imp_iff₂, hempty, hany]

end Dialect

/-! ## Words that occur where a phrase does -/

theorem Term.exists_accepts_of_leap?_eq_some {term : Term} {tokens rest : List Token}
    {position stop : Nat} (h : term.leap? position tokens = some (stop, rest)) :
    ∃ token ∈ tokens, term.accepts token = true := by
  obtain ⟨gap, token, rfl, -, haccepts, -⟩ := leap?_eq_some_iff.1 h
  exact ⟨token, by simp, haccepts⟩

theorem Term.mem_of_mem_wildcard_cons {word term : Term} {wildcard : Wildcard} {terms : List Term}
    (hword : word ∈ term :: terms) (hplain : word.wildcard? = none)
    (hterm : term.wildcard? = some wildcard) : word ∈ terms := by
  rcases List.mem_cons.1 hword with rfl | hword
  · rw [hplain] at hterm
    cases hterm
  · exact hword

namespace Phrase

variable {word : Term} {terms : List Term} {tokens : List Token}

/-- Every `word` of a phrase that can be followed is satisfied by some token. -/
theorem exists_accepts_of_follow_eq_found {position stop : Nat}
    (h : follow position tokens terms = .found stop) (hword : word ∈ terms)
    (hplain : word.wildcard? = none) : ∃ token ∈ tokens, word.accepts token = true := by
  fun_induction follow position tokens terms with
  | case1 => cases hword
  | case2 position tokens last hstar => cases Term.mem_of_mem_wildcard_cons hword hplain hstar
  | case4 position last wildcard token rest _ hwildcard =>
    cases Term.mem_of_mem_wildcard_cons hword hplain hwildcard
  | case5 position last token rest _ haccepts =>
    obtain rfl := List.mem_singleton.1 hword
    exact ⟨token, by simp, haccepts⟩
  | case10 position term next terms tokens _ hstar position' rest hleap ih =>
    rcases List.mem_cons.1 (Term.mem_of_mem_wildcard_cons hword hplain hstar) with rfl | hword
    · exact Term.exists_accepts_of_leap?_eq_some hleap
    · obtain ⟨token, htoken, haccepts⟩ := ih h hword
      exact ⟨token, (Term.suffix_of_leap?_eq_some hleap).mem htoken, haccepts⟩
  | case12 position term next terms token tokens _ hplus position' rest hleap ih =>
    rcases List.mem_cons.1 (Term.mem_of_mem_wildcard_cons hword hplain hplus) with rfl | hword
    · obtain ⟨other, hother, haccepts⟩ := Term.exists_accepts_of_leap?_eq_some hleap
      exact ⟨other, List.mem_cons_of_mem _ hother, haccepts⟩
    · obtain ⟨other, hother, haccepts⟩ := ih h hword
      exact ⟨other, List.mem_cons_of_mem _ ((Term.suffix_of_leap?_eq_some hleap).mem hother), haccepts⟩
  | case13 position term next terms token tokens hone ih =>
    have hword := Term.mem_of_mem_wildcard_cons hword hplain hone
    obtain ⟨other, hother, haccepts⟩ := ih h hword
    exact ⟨other, List.mem_cons_of_mem _ hother, haccepts⟩
  | case14 position term next terms token tokens _ haccepts ih =>
    rcases List.mem_cons.1 hword with rfl | hword
    · exact ⟨token, by simp, haccepts⟩
    · obtain ⟨other, hother, haccepts⟩ := ih h hword
      exact ⟨other, List.mem_cons_of_mem _ hother, haccepts⟩
  | case3 | case6 | case7 | case8 | case9 | case11 | case15 => cases h

/-- Every `word` of a phrase that is found is satisfied by some token. -/
theorem exists_accepts_of_isSome_find (h : (find tokens terms).isSome) (hword : word ∈ terms)
    (hplain : word.wildcard? = none) : ∃ token ∈ tokens, word.accepts token = true := by
  obtain ⟨start, -, stop, hattempt⟩ := isSome_find_iff.1 h
  obtain ⟨token, htoken, haccepts⟩ := exists_accepts_of_follow_eq_found hattempt hword hplain
  exact ⟨token, List.mem_of_mem_drop htoken, haccepts⟩

/-- Nothing, or a `*`. -/
def AtMostStar (terms : List Term) : Prop :=
  terms = [] ∨ ∃ star : Term, star.wildcard? = some .star ∧ terms = [star]

/-- The `terms` are one `word`, with a `*` on either side or not. -/
def OneWord (word : Term) (terms : List Term) : Prop :=
  word.wildcard? = none ∧ ∃ before after, terms = before ++ word :: after ∧
    AtMostStar before ∧ AtMostStar after

/-- A phrase of one `word` is found wherever a `token` satisfies that. A `*` in front of the `word` leaps from the
`token` itself. -/
theorem OneWord.isSome_find (h : OneWord word terms) {token : Token} (htoken : token ∈ tokens)
    (haccepts : word.accepts token = true) : (find tokens terms).isSome := by
  obtain ⟨hplain, before, after, rfl, hbefore, hafter⟩ := h
  obtain ⟨earlier, rest, rfl⟩ := List.append_of_mem htoken
  refine isSome_find_iff.2 ⟨earlier.length, by simp, earlier.length + 1, ?_⟩
  rw [attempt, List.drop_left]
  have hleap : word.leap? earlier.length (token :: rest) = some (earlier.length + 1, rest) := by
    rw [Term.leap?, if_pos haccepts]
  rcases hbefore with rfl | ⟨star, hstar, rfl⟩ <;> rcases hafter with rfl | ⟨star', hstar', rfl⟩
  · simp [follow, hplain, haccepts]
  · simp [follow, hplain, haccepts, hstar']
  · rw [List.singleton_append, follow_star hstar (by simp), hleap]
    rfl
  · rw [List.singleton_append, follow_star hstar (by simp), hleap]
    simp [follow, hstar']

end Phrase

/-! ## Clauses that a query does not overstate -/

namespace Literal

variable {literal : Literal} {tokens : List Token}

theorem isSome_find_of_negated (h : literal.negated = true) :
    (literal.find tokens).isSome = (Phrase.find tokens literal.terms).isNone := by
  unfold find
  rw [h]
  cases Phrase.find tokens literal.terms <;> rfl

/-- No more is asked for than a single word. -/
def AsksOneWord (literal : Literal) : Prop := ∃ word, Phrase.OneWord word literal.terms

end Literal

namespace Dialect

variable {dialect : Dialect} {literal : Literal} {tokens : List Token}

/-- A dialect that drops wildcards keeps the words of a `literal`. -/
theorem mem_kept_iff (hdrops : dialect.dropsWildcards = true) {term : Term} :
    term ∈ dialect.kept literal ↔ term ∈ literal.terms ∧ term.wildcard? = none := by
  simp [kept, hdrops, Term.isWildcard]

/-- Where a `literal` holds that is not negated or asks for one word, so does its condition. For were the word of a
negated one satisfied by a token, its phrase would be found there. -/
theorem holds_of_isSome_find (hdrops : dialect.dropsWildcards = true)
    (hfound : (literal.find tokens).isSome)
    (hnegated : literal.negated = true → literal.AsksOneWord) :
    Condition.holds tokens ⟨literal.negated, dialect.kept literal⟩ = true := by
  cases hliteral : literal.negated with
  | false =>
    rw [Literal.find_of_not_negated hliteral] at hfound
    refine Condition.holds_plain_iff.2 fun term hterm => ?_
    have ⟨hmem, hplain⟩ := (mem_kept_iff hdrops).1 hterm
    exact Phrase.exists_accepts_of_isSome_find hfound hmem hplain
  | true =>
    obtain ⟨word, hword⟩ := hnegated hliteral
    rw [Literal.isSome_find_of_negated hliteral] at hfound
    have hkept : word ∈ dialect.kept literal := by
      obtain ⟨hplain, before, after, hterms, -⟩ := hword
      exact (mem_kept_iff hdrops).2 ⟨by simp [hterms], hplain⟩
    refine Condition.holds_negated_iff.2 ⟨word, hkept, fun token htoken haccepts => ?_⟩
    rw [Option.isNone_iff_eq_none] at hfound
    have hsome := hword.isSome_find htoken haccepts
    rw [hfound] at hsome
    cases hsome

/-- The query asks for more than `clause` does: something is left of `clause`, but its literals that hold of the
`tokens` are either left without words, or negated phrases of more than one word, all of which occur. -/
def Overstates (dialect : Dialect) (tokens : List Token) (clause : Clause) : Prop :=
  (∃ literal ∈ clause, dialect.kept literal ≠ []) ∧
    ∀ literal ∈ clause, (literal.find tokens).isSome → dialect.kept literal = [] ∨
      literal.negated = true ∧ ¬ literal.AsksOneWord ∧
        ∀ term ∈ dialect.kept literal, ∃ token ∈ tokens, term.accepts token = true

/-- Either nothing is left of `clause`, or words are left of each of its literals and only single words are negated.
-/
def Keeps (dialect : Dialect) (clause : Clause) : Prop :=
  (∀ literal ∈ clause, dialect.kept literal = []) ∨
    ∀ literal ∈ clause, dialect.kept literal ≠ [] ∧ (literal.negated = true → literal.AsksOneWord)

/-- A clause that the dialect `Keeps` is overstated nowhere that it holds. -/
theorem Keeps.not_overstates {clause : Clause} (h : dialect.Keeps clause)
    (hholds : ∃ literal ∈ clause, (literal.find tokens).isSome) :
    ¬ dialect.Overstates tokens clause := by
  rintro ⟨⟨literal, hliteral, hkept⟩, hlost⟩
  rcases h with hnone | hall
  · exact hkept (hnone literal hliteral)
  · obtain ⟨other, hother, hfound⟩ := hholds
    obtain ⟨hkept, hword⟩ := hall other hother
    rcases hlost other hother hfound with hnil | ⟨hnegated, hphrase, -⟩
    · exact hkept hnil
    · exact hphrase (hword hnegated)

/-- A `clause` of which something is left has a true condition unless the query overstates it. For of a negated
phrase that holds and does not make it overstated some word does not occur at all. -/
theorem exists_holds_of_not_overstates (hdrops : dialect.dropsWildcards = true) {clause : Clause}
    (hleft : ∃ literal ∈ clause, dialect.kept literal ≠ [])
    (h : ¬ dialect.Overstates tokens clause) : ∃ literal ∈ clause, dialect.kept literal ≠ [] ∧
      Condition.holds tokens ⟨literal.negated, dialect.kept literal⟩ = true := by
  unfold Overstates at h
  push Not at h
  obtain ⟨literal, hliteral, hfound, hkept, hnegated⟩ := h hleft
  refine ⟨literal, hliteral, hkept, ?_⟩
  by_cases hword : literal.negated = true → literal.AsksOneWord
  · exact holds_of_isSome_find hdrops hfound hword
  · push Not at hword
    obtain ⟨term, hterm, hnone⟩ := hnegated hword.1 hword.2
    rw [hword.1]
    exact Condition.holds_negated_iff.2 ⟨term, hterm, hnone⟩

/-- The query of `cnf` is true of the `tokens` or overstates some clause. -/
theorem selects_or_overstates (hdrops : dialect.dropsWildcards = true) {cnf : Cnf} :
    dialect.selects tokens cnf = true ∨ ∃ clause ∈ cnf.clauses, dialect.Overstates tokens clause := by
  by_cases h : ∃ clause ∈ cnf.clauses, dialect.Overstates tokens clause
  · exact .inr h
  · push Not at h
    refine .inl (selects_iff.2 fun clause hclause hleft => ?_)
    exact exists_holds_of_not_overstates hdrops hleft (h clause hclause)

end Dialect

theorem Cnf.exists_holds_of_isSome_find {cnf : Cnf} {tokens : List Token}
    (h : (cnf.find tokens).isSome) :
    ∀ clause ∈ cnf.clauses, ∃ literal ∈ clause, (literal.find tokens).isSome := by
  rw [find_eq_verdict, isSome_verdict_iff] at h
  exact h

namespace Dialect

/-- Where `cnf` is found, its query in a dialect that joins words like conditions is true of the `tokens`, unless
the query overstates some clause. It overstates no clause of which nothing is left, and none in which words are left
of every literal and only single words are negated. -/
theorem selects_of_isSome_find {dialect : Dialect} (hdialect : dialect ∈ [plain, postgres])
    {tokens : List Token} {cnf : Cnf} (hfound : (cnf.find tokens).isSome) :
    (dialect.query cnf = (dialect.conditions cnf).map (·.map Condition.toTerm) ∧
      dialect.separator = dialect.conjunction) ∧
    (dialect.selects tokens cnf = true ∨ ∃ clause ∈ cnf.clauses, dialect.Overstates tokens clause) ∧
    ((∀ clause ∈ cnf.clauses, dialect.Keeps clause) → dialect.selects tokens cnf = true) := by
  have hflags : dialect.dropsWildcards = true ∧ dialect.separator = dialect.conjunction := by
    rcases List.mem_cons.1 hdialect with rfl | hdialect
    · exact ⟨rfl, rfl⟩
    · obtain rfl := List.mem_singleton.1 hdialect
      exact ⟨rfl, rfl⟩
  refine ⟨⟨dialect.query_eq_map cnf, hflags.2⟩, selects_or_overstates hflags.1, fun hkeeps => ?_⟩
  refine (selects_or_overstates hflags.1).resolve_right ?_
  rintro ⟨clause, hclause, hoverstates⟩
  have hholds := cnf.exists_holds_of_isSome_find hfound clause hclause
  exact (hkeeps clause hclause).not_overstates hholds hoverstates

/-- A negated word behind a `*` beside a phrase with a gap, and a wildcard in a clause of its own. -/
theorem selects_of_isSome_find_wildcards :
    let bad : Term := { word := "bad" }
    let noneBad : Literal := ⟨true, .phrase ⟨.ofWildcard .star, [bad], by decide⟩⟩
    let cake : Literal :=
      ⟨false, .phrase ⟨{ word := "fig" }, [.ofWildcard .one, { word := "cake" }], by decide⟩⟩
    let cnf : Cnf := ⟨[[noneBad, cake], [.ofWildcard .one false]]⟩
    let tokens : List Token := ["bad", "fig", "nut", "cake"].map fun word => { word }
    postgres ∈ [plain, postgres] ∧ (cnf.find tokens).isSome ∧
      postgres.write cnf = "(!(bad) | fig & cake)" ∧
      (∀ clause ∈ cnf.clauses, postgres.Keeps clause) ∧ postgres.selects tokens cnf = true := by
  intro bad noneBad cake cnf tokens
  have hdialect : postgres ∈ [plain, postgres] := by simp
  have hfound : (cnf.find tokens).isSome := by decide
  have hbad : noneBad.AsksOneWord :=
    ⟨bad, rfl, [.ofWildcard .star], [], rfl, .inr ⟨.ofWildcard .star, by decide, rfl⟩, .inl rfl⟩
  have hfirst : postgres.Keeps [noneBad, cake] := by
    refine .inr (List.forall_mem_cons.2 ⟨⟨by decide, fun _ => hbad⟩, ?_⟩)
    exact List.forall_mem_singleton.2 ⟨by decide, fun hnegated => absurd hnegated (by decide)⟩
  have hsecond : postgres.Keeps [.ofWildcard .one false] :=
    .inl (List.forall_mem_singleton.2 (by decide))
  have hkeeps : ∀ clause ∈ cnf.clauses, postgres.Keeps clause :=
    List.forall_mem_cons.2 ⟨hfirst, List.forall_mem_singleton.2 hsecond⟩
  exact ⟨hdialect, hfound, by decide, hkeeps, (selects_of_isSome_find hdialect hfound).2.2 hkeeps⟩

/-- Two words that occur, but not as the phrase that is negated, and a wildcard that is dropped beside a word
that does not occur. -/
theorem selects_misses_found :
    let apart : Cnf := ⟨[[⟨true, .phrase ⟨{ word := "a" }, [{ word := "b" }], by decide⟩⟩]]⟩
    let either : Cnf := ⟨[[.ofTerm { word := "x" } false, .ofWildcard .one false]]⟩
    let tokens : List Token := ["b", "a"].map fun word => { word }
    ((∀ literal ∈ apart.literals, literal.target? = none) ∧ (apart.find tokens).isSome ∧
      plain.write apart = "(not(\"a & b\"))" ∧ plain.selects tokens apart = false ∧
      postgres.selects tokens apart = false) ∧
    ((∀ literal ∈ either.literals, literal.target? = none) ∧ (either.find tokens).isSome ∧
      plain.write either = "(\"x\")" ∧ plain.selects tokens either = false ∧
      postgres.selects tokens either = false) := by
  decide

end Dialect

end Tagging
