import Tagging.Proofs.Extent

/-!
# Following a phrase

A phrase that is followed to its end cuts the tokens it covers into consecutive pieces, one for each of its
terms. A word and a `?` have one token each. A `+` or `*` inside the phrase has the tokens up to the first that
satisfies the term after it, where the first token of a `+` does not count; at the end a `+` has one token and a
`*` none. Since no two wildcards are neighbours, what stands after a `+` or `*` is always a word.

Following a phrase to its end is the same as cutting the tokens in this way.
-/

namespace Tagging

/-! ## Neighbouring wildcards -/

theorem hasAdjacentWildcards_cons {a : Term} {terms : List Term}
    (h : hasAdjacentWildcards (a :: terms) = false) : hasAdjacentWildcards terms = false := by
  cases terms with
  | nil => rfl
  | cons b terms =>
    rw [hasAdjacentWildcards, Bool.or_eq_false_iff] at h
    exact h.2

/-- What stands after a wildcard `a` is a word `b`. -/
theorem wildcard?_eq_none_of_wildcard {a b : Term} {terms : List Term} {wildcard : Wildcard}
    (h : hasAdjacentWildcards (a :: b :: terms) = false) (ha : a.wildcard? = some wildcard) :
    b.wildcard? = none := by
  rw [hasAdjacentWildcards, Bool.or_eq_false_iff] at h
  simpa [Term.isWildcard, ha] using h.1

/-- Parts of a phrase have no neighbouring wildcards that the whole phrase does not have. -/
theorem hasAdjacentWildcards_append {as bs : List Term}
    (h : hasAdjacentWildcards (as ++ bs) = false) :
    hasAdjacentWildcards as = false ∧ hasAdjacentWildcards bs = false := by
  induction as using List.twoStepInduction with
  | nil => exact ⟨rfl, h⟩
  | singleton a => exact ⟨rfl, hasAdjacentWildcards_cons h⟩
  | cons_cons a b as _ ih =>
    rw [List.cons_append, List.cons_append, hasAdjacentWildcards, Bool.or_eq_false_iff] at h
    obtain ⟨has, hbs⟩ := ih b h.2
    rw [hasAdjacentWildcards, h.1, has]
    exact ⟨rfl, hbs⟩

/-! ## Pieces of tokens -/

/-- The `pieces`, one behind the other, are the `tokens` of the `span`. -/
def Span.Joins (tokens : List Token) (pieces : List (List Token)) (span : Span) : Prop :=
  span.Within tokens.length ∧ tokens.extract span.start span.stop = pieces.flatten

/-- The `pieces` are the tokens of the `span` exactly if they stand where it starts and it ends behind them. -/
theorem Span.joins_iff {tokens : List Token} {pieces : List (List Token)} {span : Span} :
    span.Joins tokens pieces ↔ span.start ≤ tokens.length ∧
      ∃ rest, tokens.drop span.start = pieces.flatten ++ rest ∧
        span.stop = span.start + pieces.flatten.length := by
  unfold Joins Within
  rw [List.extract_eq_take_drop]
  constructor
  · rintro ⟨⟨hle, hlength⟩, hpieces⟩
    refine ⟨Nat.le_trans hle hlength, (tokens.drop span.start).drop (span.stop - span.start), ?_, ?_⟩
    · rw [← hpieces, List.take_append_drop]
    · rw [← hpieces, List.length_take, List.length_drop]
      omega
  · rintro ⟨hle, rest, hdrop, hstop⟩
    have hlength := congrArg List.length hdrop
    rw [List.length_drop, List.length_append] at hlength
    refine ⟨by omega, ?_⟩
    rw [hdrop, hstop, Nat.add_sub_cancel_left, List.take_left]

/-! ## Phrases -/

namespace Phrase

variable {term next : Term} {terms : List Term} {token : Token} {tokens rest : List Token}
  {pieces : List (List Token)} {position stop : Nat}

/-- The pieces that the terms stand for when a `+` or `*` reaches no farther than it must. -/
inductive Cut : List Term → List (List Token) → Prop where
  | nil : Cut [] []
  /-- A word stands for one token that satisfies it. -/
  | word {term : Term} {terms : List Term} {token : Token} {pieces : List (List Token)} :
      term.wildcard? = none → term.accepts token = true → Cut terms pieces →
        Cut (term :: terms) ([token] :: pieces)
  /-- A `?` stands for any one token. -/
  | one {term : Term} {terms : List Term} {token : Token} {pieces : List (List Token)} :
      term.wildcard? = some .one → Cut terms pieces → Cut (term :: terms) ([token] :: pieces)
  /-- A `+` stands for one token, and for those after it that do not satisfy the next term. -/
  | plus {term next : Term} {terms : List Term} {first : Token} {gap : List Token}
      {pieces : List (List Token)} :
      term.wildcard? = some .plus → (∀ token ∈ gap, ¬ next.accepts token = true) →
        Cut (next :: terms) pieces → Cut (term :: next :: terms) ((first :: gap) :: pieces)
  /-- A `*` stands for tokens that do not satisfy the next term. -/
  | star {term next : Term} {terms : List Term} {gap : List Token} {pieces : List (List Token)} :
      term.wildcard? = some .star → (∀ token ∈ gap, ¬ next.accepts token = true) →
        Cut (next :: terms) pieces → Cut (term :: next :: terms) (gap :: pieces)
  /-- At the end a `+` stands for one token. -/
  | lastPlus {term : Term} {token : Token} : term.wildcard? = some .plus → Cut [term] [[token]]
  /-- At the end a `*` stands for nothing. -/
  | lastStar {term : Term} : term.wildcard? = some .star → Cut [term] [[]]

/-- A leap of the word `next` and a cut of the `terms` behind it make up a cut of both, behind a gap that the leap
passed over. -/
theorem Cut.of_leap?_eq_some {next' : Nat} (hplain : next.wildcard? = none)
    (hleap : next.leap? position tokens = some (next', rest)) (hcut : Cut terms pieces) :
    ∃ gap token, tokens = gap ++ token :: rest ∧ next' = position + gap.length + 1 ∧
      (∀ other ∈ gap, ¬ next.accepts other = true) ∧ Cut (next :: terms) ([token] :: pieces) := by
  obtain ⟨gap, token, htokens, hgap, haccepts, hnext⟩ := Term.leap?_eq_some_iff.1 hleap
  exact ⟨gap, token, htokens, hnext, hgap, .word hplain haccepts hcut⟩

/-- Following `terms` to their end cuts the `tokens` up to there. By induction on `follow`. -/
theorem exists_cut_of_follow_eq_found (hseparated : hasAdjacentWildcards terms = false)
    (h : follow position tokens terms = .found stop) :
    ∃ pieces rest, Cut terms pieces ∧ tokens = pieces.flatten ++ rest ∧
      stop = position + pieces.flatten.length := by
  fun_induction follow position tokens terms with
  | case1 position tokens =>
    cases h
    exact ⟨[], tokens, .nil, rfl, rfl⟩
  | case2 position tokens last hstar =>
    cases h
    exact ⟨[[]], tokens, .lastStar hstar, rfl, rfl⟩
  | case4 position last wildcard token rest hnotStar hwildcard =>
    cases h
    refine ⟨[[token]], rest, ?_, rfl, rfl⟩
    cases wildcard with
    | one => exact .one hwildcard .nil
    | plus => exact .lastPlus hwildcard
    | star => exact absurd rfl hnotStar
  | case5 position last token rest hword haccepts =>
    cases h
    exact ⟨[[token]], rest, .word hword haccepts .nil, rfl, rfl⟩
  | case10 position term next terms tokens _ hstar position' after hleap ih =>
    have hplain := wildcard?_eq_none_of_wildcard hseparated hstar
    have hterms := hasAdjacentWildcards_cons (hasAdjacentWildcards_cons hseparated)
    obtain ⟨pieces, rest, hcut, rfl, rfl⟩ := ih hterms h
    obtain ⟨gap, token, rfl, rfl, hgap, hcut⟩ := Cut.of_leap?_eq_some hplain hleap hcut
    refine ⟨gap :: [token] :: pieces, rest, .star hstar hgap hcut, by simp, ?_⟩
    simp
    omega
  | case12 position term next terms first tokens _ hplus position' after hleap ih =>
    have hplain := wildcard?_eq_none_of_wildcard hseparated hplus
    have hterms := hasAdjacentWildcards_cons (hasAdjacentWildcards_cons hseparated)
    obtain ⟨pieces, rest, hcut, rfl, rfl⟩ := ih hterms h
    obtain ⟨gap, token, rfl, rfl, hgap, hcut⟩ := Cut.of_leap?_eq_some hplain hleap hcut
    refine ⟨(first :: gap) :: [token] :: pieces, rest, .plus hplus hgap hcut, by simp, ?_⟩
    simp
    omega
  | case13 position term next terms token tokens hone ih =>
    obtain ⟨pieces, rest, hcut, rfl, rfl⟩ := ih (hasAdjacentWildcards_cons hseparated) h
    refine ⟨[token] :: pieces, rest, .one hone hcut, by simp, ?_⟩
    simp
    omega
  | case14 position term next terms token tokens hword haccepts ih =>
    obtain ⟨pieces, rest, hcut, rfl, rfl⟩ := ih (hasAdjacentWildcards_cons hseparated) h
    refine ⟨[token] :: pieces, rest, .word hword haccepts hcut, by simp, ?_⟩
    simp
    omega
  | case3 | case6 | case7 | case8 | case9 | case11 | case15 => cases h

theorem follow_word (hword : term.wildcard? = none) (position : Nat) (token : Token)
    (tokens : List Token) (terms : List Term) :
    follow position (token :: tokens) (term :: terms) =
      if term.accepts token then follow (position + 1) tokens terms else .mismatch := by
  cases terms <;> simp only [follow, hword]

theorem follow_one (hone : term.wildcard? = some .one) (position : Nat) (token : Token)
    (tokens : List Token) (terms : List Term) :
    follow position (token :: tokens) (term :: terms) = follow (position + 1) tokens terms := by
  cases terms <;> simp only [follow, hone]

/-- Where the word `next` and what follows it can be cut off behind a `gap`, a leap over the `gap` leads to what
follows. -/
theorem Cut.exists_leap?_eq_some (h : Cut (next :: terms) pieces) (hplain : next.wildcard? = none)
    {gap : List Token} (hgap : ∀ other ∈ gap, ¬ next.accepts other = true) (position : Nat)
    (rest : List Token) : ∃ token pieces', pieces = [token] :: pieces' ∧
      next.leap? position (gap ++ pieces.flatten ++ rest) =
        some (position + gap.length + 1, pieces'.flatten ++ rest) ∧
      follow (position + gap.length) (pieces.flatten ++ rest) (next :: terms) =
        follow (position + gap.length + 1) (pieces'.flatten ++ rest) terms := by
  cases h with
  | word hword haccepts hcut =>
    rename_i token pieces'
    refine ⟨token, pieces', rfl, ?_, ?_⟩
    · exact Term.leap?_eq_some_iff.2 ⟨gap, token, by simp, hgap, haccepts, rfl⟩
    · rw [List.flatten_cons, List.singleton_append, List.cons_append, follow_word hword, if_pos haccepts]
  | one hwildcard | plus hwildcard | star hwildcard | lastPlus hwildcard | lastStar hwildcard =>
    rw [hplain] at hwildcard
    cases hwildcard

/-- A cut is followed to its end, whatever `rest` stands behind it. By induction on the cut; a leap takes the gap
and the word together, while the cut of what follows begins with the word. -/
theorem Cut.follow_eq_found (h : Cut terms pieces) (hseparated : hasAdjacentWildcards terms = false) :
    ∀ position rest, follow position (pieces.flatten ++ rest) terms =
      .found (position + pieces.flatten.length) := by
  induction h with
  | nil => exact fun position rest => rfl
  | word hword haccepts _ ih =>
    intro position rest
    have hrest := ih (hasAdjacentWildcards_cons hseparated) (position + 1) rest
    rw [List.flatten_cons, List.singleton_append, List.cons_append, follow_word hword, if_pos haccepts,
      hrest, List.length_cons]
    congr 1
    omega
  | one hone _ ih =>
    intro position rest
    have hrest := ih (hasAdjacentWildcards_cons hseparated) (position + 1) rest
    rw [List.flatten_cons, List.singleton_append, List.cons_append, follow_one hone, hrest,
      List.length_cons]
    congr 1
    omega
  | plus hplus hgap hcut ih =>
    rename_i first gap pieces
    intro position rest
    have hplain := wildcard?_eq_none_of_wildcard hseparated hplus
    obtain ⟨token, pieces', rfl, hleap, hfollow⟩ :=
      hcut.exists_leap?_eq_some hplain hgap (position + 1) rest
    have hrest := ih (hasAdjacentWildcards_cons hseparated) (position + 1 + gap.length) rest
    rw [List.flatten_cons, List.cons_append, List.cons_append, follow_plus hplus (by simp), hleap]
    rw [hfollow] at hrest
    simp only [hrest, List.length_cons, List.length_append]
    congr 1
    omega
  | star hstar hgap hcut ih =>
    rename_i gap pieces
    intro position rest
    have hplain := wildcard?_eq_none_of_wildcard hseparated hstar
    obtain ⟨token, pieces', rfl, hleap, hfollow⟩ :=
      hcut.exists_leap?_eq_some hplain hgap position rest
    have hrest := ih (hasAdjacentWildcards_cons hseparated) (position + gap.length) rest
    rw [List.flatten_cons, follow_star hstar (by simp), hleap]
    rw [hfollow] at hrest
    simp only [hrest, List.length_append]
    congr 1
    omega
  | lastPlus hplus => exact fun position rest => by simp [follow, hplus]
  | lastStar hstar => exact fun position rest => by simp [follow, hstar]

/-- The `terms` can be followed from token `start` on to `stop` exactly if the tokens between can be cut for them.
-/
theorem attempt_eq_found_iff (hseparated : hasAdjacentWildcards terms = false) {start : Nat}
    (hstart : start ≤ tokens.length) : attempt tokens terms start = .found stop ↔
      ∃ pieces, Cut terms pieces ∧ Span.Joins tokens pieces ⟨start, stop⟩ := by
  simp only [Span.joins_iff]
  constructor
  · intro h
    obtain ⟨pieces, rest, hcut, hdrop, hstop⟩ := exists_cut_of_follow_eq_found hseparated h
    exact ⟨pieces, hcut, hstart, rest, hdrop, hstop⟩
  · rintro ⟨pieces, hcut, -, rest, hdrop, rfl⟩
    rw [attempt, hdrop]
    exact hcut.follow_eq_found hseparated start rest

end Phrase

namespace Literal

/-- The terms of a `literal` never have two wildcards next to each other. -/
theorem separated (literal : Literal) : hasAdjacentWildcards literal.terms = false := by
  unfold terms Subject.terms
  cases literal.subject with
  | phrase phrase => exact phrase.separated
  | lookup name => rfl

/-- What a `literal` finds that is not negated begins at a token, and its tokens can be cut into pieces, one for
each term in its order, that the terms stand for. -/
theorem find_is_cut {tokens : List Token} {literal : Literal} (hnegated : literal.negated = false)
    {span : Span} (h : literal.find tokens = some span) :
    span.start < tokens.length ∧ span.start ≤ span.stop ∧ span.stop ≤ tokens.length ∧
      ∃ pieces, tokens.extract span.start span.stop = pieces.flatten ∧
        Phrase.Cut literal.terms pieces := by
  have hspec := Phrase.find_spec tokens literal.terms
  rw [find_of_not_negated hnegated] at h
  rw [h] at hspec
  obtain ⟨⟨⟨hlt, -⟩, -⟩, hattempt⟩ := hspec
  obtain ⟨pieces, hcut, ⟨hle, hlength⟩, hpieces⟩ :=
    (Phrase.attempt_eq_found_iff literal.separated (Nat.le_of_lt hlt)).1 hattempt
  exact ⟨hlt, hle, hlength, pieces, hpieces, hcut⟩

/-- A `+` before a word that stands right behind the first word too, and a `*` at the end. -/
theorem find_is_cut_plus_and_star :
    let cake : Literal := ⟨false, .phrase
      ⟨{ word := "nut" }, [.ofWildcard .plus, { word := "cake" }, .ofWildcard .star], by decide⟩⟩
    let tokens : List Token := ["a", "nut", "cake", "fig", "cake", "pie"].map fun word => { word }
    cake.negated = false ∧ cake.find tokens = some ⟨1, 5⟩ ∧
      1 < tokens.length ∧ 1 ≤ 5 ∧ 5 ≤ tokens.length ∧
        ∃ pieces, tokens.extract 1 5 = pieces.flatten ∧ Phrase.Cut cake.terms pieces := by
  intro cake tokens
  have hfind : cake.find tokens = some ⟨1, 5⟩ := by decide
  exact ⟨rfl, hfind, find_is_cut rfl hfind⟩

end Literal

end Tagging
