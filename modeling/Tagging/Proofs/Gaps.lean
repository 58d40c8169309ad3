import Tagging.Proofs.PhraseFollow

/-!
# Gaps before a single word

A phrase occurs where tokens can be parted among its terms at all, however far each `+` and `*` may reach.
Following the phrase leaps to the first token that satisfies the word after a gap and never goes back, so in
general it misses occurrences. It misses none if nothing stands behind that word but the next gap, or a `?` at
the end. Then a leap that ends earlier leaves more tokens to what follows and loses nothing: from wherever the
phrase occurs it can be followed, and ends no later than the occurrence does.
-/

namespace Tagging

/-! ## What a term may stand for -/

namespace Term

variable {term : Term} {piece : List Token}

/-- Whether the tokens of `piece` are what `term` may stand for: one that satisfies a word, any one for a `?`, one
or more for a `+`, and any number for a `*`. -/
def admits (term : Term) (piece : List Token) : Bool :=
  match term.wildcard?, piece with
  | none, [token] => term.accepts token
  | some .one, [_] => true
  | some .plus, _ :: _ => true
  | some .star, _ => true
  | _, _ => false

/-- Whether `term` is a wildcard for any number of tokens, be it with or without none. -/
def isGap (term : Term) : Bool := term.wildcard? = some .plus || term.wildcard? = some .star

theorem admits_word_iff (hword : term.wildcard? = none) :
    term.admits piece = true ↔ ∃ token, piece = [token] ∧ term.accepts token = true := by
  rcases piece with _ | ⟨token, _ | ⟨second, rest⟩⟩ <;> simp [admits, hword]

theorem admits_one_iff (hone : term.wildcard? = some .one) :
    term.admits piece = true ↔ ∃ token, piece = [token] := by
  rcases piece with _ | ⟨token, _ | ⟨second, rest⟩⟩ <;> simp [admits, hone]

theorem admits_plus_iff (hplus : term.wildcard? = some .plus) :
    term.admits piece = true ↔ ∃ first gap, piece = first :: gap := by
  cases piece <;> simp [admits, hplus]

theorem admits_star (hstar : term.wildcard? = some .star) : term.admits piece = true := by
  simp [admits, hstar]

theorem isGap_iff : term.isGap = true ↔
    term.wildcard? = some .plus ∨ term.wildcard? = some .star := by
  simp [isGap]

/-- A `token` that satisfies `term` is not leapt over: the leap leaves all that stands behind the `token`. -/
theorem exists_leap?_of_accepts {token : Token} {after tokens : List Token}
    (haccepts : term.accepts token = true) (hsuffix : token :: after <:+ tokens) (position : Nat) :
    ∃ stop rest, term.leap? position tokens = some (stop, rest) ∧ after <:+ rest ∧
      stop + rest.length = position + tokens.length := by
  have hfirst : term.leap? 0 (token :: after) = some (1, after) := by rw [leap?, if_pos haccepts]
  obtain ⟨stop, rest, hleap, hrest⟩ := leap?_of_suffix hsuffix hfirst position
  exact ⟨stop, rest, hleap, hrest, (leap?_eq_some hleap).2⟩

end Term

namespace Phrase

variable {terms : List Term} {tokens : List Token} {pieces : List (List Token)}

/-- The `tokens` of `span` can be parted into pieces, one for each term in its order, that the terms may stand for.
-/
def Occurs (tokens : List Token) (terms : List Term) (span : Span) : Prop :=
  ∃ pieces, List.Forall₂ (fun term piece => term.admits piece = true) terms pieces ∧
    span.Joins tokens pieces

/-- The pieces of a cut are pieces that the terms may stand for. -/
theorem Cut.admits (h : Cut terms pieces) :
    List.Forall₂ (fun term piece => term.admits piece = true) terms pieces := by
  induction h with
  | nil => exact .nil
  | word hword haccepts _ ih => exact .cons ((Term.admits_word_iff hword).2 ⟨_, rfl, haccepts⟩) ih
  | one hone _ ih => exact .cons ((Term.admits_one_iff hone).2 ⟨_, rfl⟩) ih
  | plus hplus _ _ ih => exact .cons ((Term.admits_plus_iff hplus).2 ⟨_, _, rfl⟩) ih
  | star hstar _ _ ih => exact .cons (Term.admits_star hstar) ih
  | lastPlus hplus => exact .cons ((Term.admits_plus_iff hplus).2 ⟨_, _, rfl⟩) .nil
  | lastStar hstar => exact .cons (Term.admits_star hstar) .nil

/-! ## Phrases that need not go back -/

/-- Whether terms begin a new gap, or leave nothing to be satisfied: there are none, or a single `?`. -/
def closesGap : List Term → Bool
  | [] => true
  | term :: terms => term.isGap || (term.wildcard? = some .one && terms.isEmpty)

/-- Whether behind every `+` or `*` that is not the last term there stands a single word, and behind the word
nothing, another `+` or `*`, or a `?` at the end. -/
def hasOneWordGaps : List Term → Bool
  | gap :: word :: terms => (!gap.isGap || closesGap terms) && hasOneWordGaps (word :: terms)
  | _ => true

theorem hasOneWordGaps_cons {term : Term} (h : hasOneWordGaps (term :: terms) = true) :
    hasOneWordGaps terms = true := by
  cases terms with
  | nil => rfl
  | cons next terms =>
    rw [hasOneWordGaps, Bool.and_eq_true] at h
    exact h.2

/-- Behind the one `word` after a `gap` the `terms` begin a new gap, or leave nothing to be satisfied. -/
theorem closesGap_of_isGap {gap word : Term} (h : hasOneWordGaps (gap :: word :: terms) = true)
    (hgap : gap.isGap = true) : closesGap terms = true := by
  rw [hasOneWordGaps, hgap, Bool.not_true, Bool.false_or, Bool.and_eq_true] at h
  exact h.1

/-- A wildcard `last` at the end takes no more tokens than it stands for. -/
theorem exists_follow_last {last : Term} {piece rest : List Token} (hcloses : closesGap [last] = true)
    (hpiece : last.admits piece = true) (hsuffix : piece ++ rest <:+ tokens) (position : Nat) :
    ∃ stop, follow position tokens [last] = .found stop ∧
      stop + rest.length ≤ position + tokens.length := by
  have hlength := hsuffix.length_le
  rw [List.length_append] at hlength
  rw [closesGap, Bool.or_eq_true, Term.isGap_iff] at hcloses
  have hcloses : (last.wildcard? = some .plus ∨ last.wildcard? = some .star) ∨
      last.wildcard? = some .one := by simpa using hcloses
  rcases hcloses with (hplus | hstar) | hone
  · obtain ⟨first, gap, rfl⟩ := (Term.admits_plus_iff hplus).1 hpiece
    obtain ⟨token, tokens, rfl, -⟩ := exists_cons_of_cons_suffix hsuffix
    refine ⟨position + 1, by simp [follow, hplus], ?_⟩
    rw [List.length_cons] at hlength
    omega
  · exact ⟨position, by simp [follow, hstar], by omega⟩
  · obtain ⟨token, rfl⟩ := (Term.admits_one_iff hone).1 hpiece
    obtain ⟨first, tokens, rfl, -⟩ := exists_cons_of_cons_suffix hsuffix
    refine ⟨position + 1, by simp [follow, hone], ?_⟩
    rw [List.length_singleton] at hlength
    omega

/-- Where `terms` that begin with a gap occur in front of `rest` at the end of the tokens, they can be followed from
any earlier token and leave no less. By induction on `terms`: wherever the leap begins in front of the word, it
leaves enough for the terms behind it. -/
theorem exists_follow_of_suffix (hgaps : hasOneWordGaps terms = true)
    (hcloses : closesGap terms = true) (hseparated : hasAdjacentWildcards terms = false)
    (hadmits : List.Forall₂ (fun term piece => term.admits piece = true) terms pieces) :
    ∀ {tokens : List Token} (position : Nat) (rest : List Token),
      pieces.flatten ++ rest <:+ tokens → ∃ stop, follow position tokens terms = .found stop ∧
        stop + rest.length ≤ position + tokens.length := by
  induction terms using List.twoStepInduction generalizing pieces with
  | nil =>
    intro tokens position rest hsuffix
    cases hadmits
    have hlength := hsuffix.length_le
    exact ⟨position, rfl, Nat.add_le_add_left hlength position⟩
  | singleton last =>
    intro tokens position rest hsuffix
    rcases hadmits with _ | ⟨hpiece, ⟨⟩⟩
    rw [List.flatten_singleton] at hsuffix
    exact exists_follow_last hcloses hpiece hsuffix position
  | cons_cons gap word terms ih _ =>
    intro tokens position rest hsuffix
    rcases hadmits with _ | ⟨hgap, hadmits⟩
    rcases hadmits with _ | ⟨hword, hadmits⟩
    rename_i gapTokens wordTokens pieces
    have hisGap : gap.isGap = true := by simpa [closesGap] using hcloses
    have hplain : word.wildcard? = none := by
      rcases Term.isGap_iff.1 hisGap with hplus | hstar
      · exact wildcard?_eq_none_of_wildcard hseparated hplus
      · exact wildcard?_eq_none_of_wildcard hseparated hstar
    obtain ⟨token, rfl, haccepts⟩ := (Term.admits_word_iff hplain).1 hword
    have hsuffix : gapTokens ++ token :: (pieces.flatten ++ rest) <:+ tokens := by simpa using hsuffix
    have hleap : ∀ {later : List Token} (start : Nat), token :: (pieces.flatten ++ rest) <:+ later →
        ∃ next left stop, word.leap? start later = some (next, left) ∧
          follow next left terms = .found stop ∧ stop + rest.length ≤ start + later.length := by
      intro later start hlater
      obtain ⟨next, left, hleap, hleft, hnumber⟩ := Term.exists_leap?_of_accepts haccepts hlater start
      obtain ⟨stop, hfollow, hstop⟩ := ih (hasOneWordGaps_cons (hasOneWordGaps_cons hgaps))
        (closesGap_of_isGap hgaps hisGap) (hasAdjacentWildcards_cons (hasAdjacentWildcards_cons hseparated))
        hadmits next rest hleft
      exact ⟨next, left, stop, hleap, hfollow, by omega⟩
    rcases Term.isGap_iff.1 hisGap with hplus | hstar
    · obtain ⟨first, gapTokens, rfl⟩ := (Term.admits_plus_iff hplus).1 hgap
      obtain ⟨second, tokens, rfl, hlater⟩ := exists_cons_of_cons_suffix hsuffix
      have hword := (List.suffix_append gapTokens _).trans hlater
      obtain ⟨next, left, stop, hleap, hfollow, hstop⟩ := hleap (position + 1) hword
      have hne : tokens ≠ [] := List.ne_nil_of_mem (hword.mem List.mem_cons_self)
      refine ⟨stop, by rw [follow_plus hplus hne, hleap, ← hfollow], ?_⟩
      rw [List.length_cons]
      omega
    · have hword := (List.suffix_append gapTokens _).trans hsuffix
      obtain ⟨next, left, stop, hleap, hfollow, hstop⟩ := hleap position hword
      have hne : tokens ≠ [] := List.ne_nil_of_mem (hword.mem List.mem_cons_self)
      exact ⟨stop, by rw [follow_star hstar hne, hleap, ← hfollow], hstop⟩

/-- From wherever `terms` occur they can be followed, and end no later. By induction on `terms`: before the first
gap a word or `?` and the occurrence take the same token, and from that gap on the occurrence may be behind. -/
theorem exists_follow_of_admits (hgaps : hasOneWordGaps terms = true)
    (hseparated : hasAdjacentWildcards terms = false)
    (hadmits : List.Forall₂ (fun term piece => term.admits piece = true) terms pieces) :
    ∀ position rest, ∃ stop, follow position (pieces.flatten ++ rest) terms = .found stop ∧
      stop ≤ position + pieces.flatten.length := by
  induction hadmits with
  | nil => exact fun position rest => ⟨position, rfl, Nat.le_refl position⟩
  | cons hpiece hadmits ih =>
    rename_i term piece terms pieces
    intro position rest
    have ih := ih (hasOneWordGaps_cons hgaps) (hasAdjacentWildcards_cons hseparated)
    by_cases hisGap : term.isGap = true
    · obtain ⟨stop, hfollow, hstop⟩ := exists_follow_of_suffix hgaps (by rw [closesGap, hisGap, Bool.true_or])
        hseparated (.cons hpiece hadmits) position rest List.suffix_rfl
      rw [List.length_append] at hstop
      exact ⟨stop, hfollow, by omega⟩
    · rw [Term.isGap_iff] at hisGap
      have hstep : ∃ token, piece = [token] ∧ follow position ([token] ++ pieces.flatten ++ rest)
          (term :: terms) = follow (position + 1) (pieces.flatten ++ rest) terms := by
        cases hwildcard : term.wildcard? with
        | none =>
          obtain ⟨token, rfl, haccepts⟩ := (Term.admits_word_iff hwildcard).1 hpiece
          exact ⟨token, rfl, (follow_word hwildcard position token _ terms).trans (if_pos haccepts)⟩
        | some wildcard =>
          cases wildcard with
          | one =>
            obtain ⟨token, rfl⟩ := (Term.admits_one_iff hwildcard).1 hpiece
            exact ⟨token, rfl, follow_one hwildcard position token _ terms⟩
          | plus => exact absurd (.inl hwildcard) hisGap
          | star => exact absurd (.inr hwildcard) hisGap
      obtain ⟨token, rfl, hstep⟩ := hstep
      obtain ⟨stop, hfollow, hstop⟩ := ih (position + 1) rest
      refine ⟨stop, by rw [List.flatten_cons, hstep, hfollow], ?_⟩
      rw [List.flatten_cons, List.length_append, List.length_singleton]
      omega

section OneWordGaps

variable (hseparated : hasAdjacentWildcards terms = false)

include hseparated

/-- Where `terms` can be followed they occur. -/
theorem occurs_of_attempt_eq_found {start stop : Nat} (hstart : start ≤ tokens.length)
    (h : attempt tokens terms start = .found stop) : Occurs tokens terms ⟨start, stop⟩ := by
  obtain ⟨pieces, hcut, hjoins⟩ := (attempt_eq_found_iff hseparated hstart).1 h
  exact ⟨pieces, hcut.admits, hjoins⟩

/-- Where `terms` occur they can be followed, and end no later than the `span` in which they occur. -/
theorem exists_attempt_of_occurs (hgaps : hasOneWordGaps terms = true) {span : Span}
    (h : Occurs tokens terms span) :
    ∃ stop, attempt tokens terms span.start = .found stop ∧ stop ≤ span.stop := by
  obtain ⟨pieces, hadmits, hjoins⟩ := h
  obtain ⟨hle, rest, hdrop, hstop⟩ := Span.joins_iff.1 hjoins
  obtain ⟨stop, hfollow, hle⟩ := exists_follow_of_admits hgaps hseparated hadmits span.start rest
  exact ⟨stop, by rw [attempt, hdrop, hfollow], by omega⟩

/-- The starts of `terms` are the numbers of the tokens from which they occur. -/
theorem starts_eq_occurs (hgaps : hasOneWordGaps terms = true) : starts tokens terms =
    {start | start < tokens.length ∧ ∃ stop, Occurs tokens terms ⟨start, stop⟩} := by
  ext start
  constructor
  · rintro ⟨hlt, stop, h⟩
    exact ⟨hlt, stop, occurs_of_attempt_eq_found hseparated (Nat.le_of_lt hlt) h⟩
  · rintro ⟨hlt, stop, h⟩
    obtain ⟨stop', hattempt, -⟩ := exists_attempt_of_occurs hseparated hgaps h
    exact ⟨hlt, stop', hattempt⟩

end OneWordGaps

end Phrase

namespace Literal

/-- A phrase in which only single words stand behind a gap is found wherever it occurs: at the least token from
which it does, and no farther than the shortest occurrence from there. -/
theorem find_isLeast_of_occurs {tokens : List Token} {literal : Literal}
    (hnegated : literal.negated = false) (hgaps : Phrase.hasOneWordGaps literal.terms = true)
    (hoccurs : ∃ start < tokens.length, ∃ stop, Phrase.Occurs tokens literal.terms ⟨start, stop⟩) :
    ∃ span, literal.find tokens = some span ∧
      IsLeast {start | start < tokens.length ∧
        ∃ stop, Phrase.Occurs tokens literal.terms ⟨start, stop⟩} span.start ∧
      IsLeast {stop | Phrase.Occurs tokens literal.terms ⟨span.start, stop⟩} span.stop := by
  have hspec := Phrase.find_spec tokens literal.terms
  rw [Phrase.starts_eq_occurs literal.separated hgaps] at hspec
  rw [find_of_not_negated hnegated]
  split at hspec
  · rename_i span hfind
    obtain ⟨hleast, hattempt⟩ := hspec
    refine ⟨span, hfind, hleast, ?_, fun stop hstop => ?_⟩
    · exact Phrase.occurs_of_attempt_eq_found literal.separated (Nat.le_of_lt hleast.1.1) hattempt
    · obtain ⟨stop', hattempt', hle⟩ := Phrase.exists_attempt_of_occurs literal.separated hgaps hstop
      rw [hattempt] at hattempt'
      cases hattempt'
      exact hle
  · obtain ⟨start, hstart⟩ := hoccurs
    exact absurd hstart (Set.eq_empty_iff_forall_notMem.1 hspec start)

/-- Two gaps and a `?` at the end. The phrase occurs in several ways, and the shortest is found. -/
theorem find_isLeast_of_occurs_several_ways :
    let cake : Literal := ⟨false, .phrase ⟨{ word := "nut" }, [.ofWildcard .plus, { word := "cake" },
      .ofWildcard .star, { word := "pie" }, .ofWildcard .one], by decide⟩⟩
    let tokens : List Token :=
      ["a", "nut", "cake", "fig", "cake", "pie", "cake", "pie", "a"].map fun word => { word }
    cake.negated = false ∧ Phrase.hasOneWordGaps cake.terms = true ∧
      Phrase.Occurs tokens cake.terms ⟨1, 9⟩ ∧ cake.find tokens = some ⟨1, 7⟩ ∧
      IsLeast {start | start < tokens.length ∧ ∃ stop, Phrase.Occurs tokens cake.terms ⟨start, stop⟩} 1 ∧
      IsLeast {stop | Phrase.Occurs tokens cake.terms ⟨1, stop⟩} 7 := by
  intro cake tokens
  have hgaps : Phrase.hasOneWordGaps cake.terms = true := by decide
  have hoccurs : Phrase.Occurs tokens cake.terms ⟨1, 9⟩ := by
    let text (words : List String) : List Token := words.map fun word => { word }
    exact ⟨[text ["nut"], text ["cake", "fig"], text ["cake"], text ["pie", "cake"], text ["pie"],
      text ["a"]], by decide, ⟨by decide, by decide⟩, by decide⟩
  have hfound : cake.find tokens = some ⟨1, 7⟩ := by decide
  obtain ⟨span, hfind, hstart, hstop⟩ :=
    find_isLeast_of_occurs rfl hgaps ⟨1, by decide, 9, hoccurs⟩
  rw [hfound] at hfind
  cases hfind
  exact ⟨rfl, hgaps, hoccurs, hfound, hstart, hstop⟩

/-- With two words behind a gap an occurrence may be missed: the leap ends at the first cake, not at the second. -/
example :
    let terms : List Term := [{ word := "nut" }, .ofWildcard .plus, { word := "cake" }, { word := "pie" }]
    let tokens : List Token := ["nut", "a", "cake", "fig", "cake", "pie"].map fun word => { word }
    Phrase.hasOneWordGaps terms = false ∧ Phrase.find tokens terms = none := by
  decide

end Literal

end Tagging
