import Mathlib.Order.Bounds.Basic
import Tagging.Literal.Search

/-!
# Trying every start

A phrase is tried at one token after the other, up to where it needs more tokens than are left. What is found
is still what trying every token would find: the phrase at the least number from which it can be followed to its
end. A negated phrase holds of the whole text exactly if there is no such number at all.
-/

namespace Tagging

/-! ## Leaps -/

namespace Term

variable {term : Term} {tokens later rest : List Token} {position stop : Nat}

/-- A leap takes the tokens up to the first that satisfies `term`. -/
theorem leap?_eq_some_iff : term.leap? position tokens = some (stop, rest) ↔
      ∃ gap token, tokens = gap ++ token :: rest ∧ (∀ other ∈ gap, ¬ term.accepts other = true) ∧
        term.accepts token = true ∧ stop = position + gap.length + 1 := by
  constructor
  · intro h
    fun_induction leap? term position tokens with
    | case1 => cases h
    | case2 position token tokens haccepts =>
      cases h
      exact ⟨[], token, rfl, by simp, haccepts, rfl⟩
    | case3 position token tokens hrejects ih =>
      obtain ⟨gap, other, rfl, hgap, haccepts, rfl⟩ := ih h
      refine ⟨token :: gap, other, rfl, List.forall_mem_cons.2 ⟨hrejects, hgap⟩, haccepts, ?_⟩
      rw [List.length_cons]
      omega
  · rintro ⟨gap, token, rfl, hgap, haccepts, rfl⟩
    induction gap generalizing position with
    | nil => rw [List.nil_append, leap?, if_pos haccepts, List.length_nil, Nat.add_zero]
    | cons other gap ih =>
      obtain ⟨hother, hgap⟩ := List.forall_mem_cons.1 hgap
      rw [List.cons_append, leap?, if_neg hother, ih hgap, List.length_cons]
      congr 2
      omega

theorem suffix_of_leap?_eq_some (h : term.leap? position tokens = some (stop, rest)) :
    rest <:+ tokens := by
  obtain ⟨gap, token, rfl, -⟩ := leap?_eq_some_iff.1 h
  exact (List.suffix_cons token rest).trans (List.suffix_append gap _)

/-- A leap does not depend on what follows, here `after`, nor on where counting starts. -/
theorem leap?_append (h : term.leap? position tokens = some (stop, rest)) (after : List Token)
    (start : Nat) : ∃ stop', term.leap? start (tokens ++ after) = some (stop', rest ++ after) := by
  obtain ⟨gap, token, rfl, hgap, haccepts, -⟩ := leap?_eq_some_iff.1 h
  exact ⟨_, leap?_eq_some_iff.2 ⟨gap, token, by simp, hgap, haccepts, rfl⟩⟩

/-- Who starts to leap earlier, here in `tokens` rather than `later`, does not get farther. -/
theorem leap?_of_suffix (hsuffix : later <:+ tokens)
    (h : term.leap? position later = some (stop, rest)) :
    ∀ start, ∃ stop' rest', term.leap? start tokens = some (stop', rest') ∧ rest <:+ rest' := by
  obtain ⟨before, rfl⟩ := hsuffix
  induction before with
  | nil =>
    intro start
    obtain ⟨stop', hleap⟩ := leap?_append h [] start
    rw [List.append_nil, List.append_nil] at hleap
    exact ⟨stop', rest, hleap, List.suffix_rfl⟩
  | cons token before ih =>
    intro start
    rw [List.cons_append, leap?]
    split_ifs with haccepts
    · have hrest : rest <:+ later := suffix_of_leap?_eq_some h
      exact ⟨start + 1, before ++ later, rfl, hrest.trans (List.suffix_append before later)⟩
    · exact ih (start + 1)

end Term

/-! ## Phrases -/

/-- What ends with a `token` and others starts with some token, and ends with these others behind it. -/
theorem exists_cons_of_cons_suffix {token : Token} {later tokens : List Token}
    (h : token :: later <:+ tokens) : ∃ first rest, tokens = first :: rest ∧ later <:+ rest := by
  obtain ⟨before, rfl⟩ := h
  cases before with
  | nil => exact ⟨token, later, rfl, List.suffix_rfl⟩
  | cons first before =>
    exact ⟨first, before ++ token :: later, rfl, (List.suffix_cons token later).trans
      (List.suffix_append before _)⟩

namespace Phrase

variable {term next : Term} {terms : List Term} {token : Token} {tokens : List Token} {start : Nat}

/-- A `*` in front of another term leaps to the first token that satisfies that term. -/
theorem follow_star (h : term.wildcard? = some .star) (hne : tokens ≠ []) (position : Nat) :
    follow position tokens (term :: next :: terms) =
      match next.leap? position tokens with
      | none => .mismatch
      | some (position, tokens) => follow position tokens terms := by
  cases tokens with
  | nil => contradiction
  | cons token tokens =>
    cases hleap : next.leap? position (token :: tokens) <;> simp only [follow, h, hleap]

/-- A `+` in front of another term leaps like a `*`, but from the second token on. -/
theorem follow_plus (h : term.wildcard? = some .plus) (hne : tokens ≠ []) (position : Nat) :
    follow position (token :: tokens) (term :: next :: terms) =
      match next.leap? (position + 1) tokens with
      | none => .mismatch
      | some (position, tokens) => follow position tokens terms := by
  cases tokens with
  | nil => contradiction
  | cons second tokens =>
    cases hleap : next.leap? (position + 1) (second :: tokens) <;> simp only [follow, h, hleap]

/-- Where `terms` can be followed from a later token, they do not run out of tokens from an earlier one. By
induction on `follow`: the leap that starts earlier ends no later, and leaves no fewer tokens for the rest of the
phrase. -/
theorem follow_ne_exhausted {position stop : Nat} {later : List Token}
    (h : follow position later terms = .found stop) :
    ∀ start tokens, later <:+ tokens → follow start tokens terms ≠ .exhausted := by
  fun_induction follow position later terms with
  | case1 | case2 => simp [follow, *]
  | case4 position last wildcard token rest hne hwildcard =>
    intro start tokens hsuffix
    obtain ⟨first, rest', rfl, -⟩ := exists_cons_of_cons_suffix hsuffix
    simp [follow, *]
  | case5 position last token rest hword haccepts =>
    intro start tokens hsuffix
    obtain ⟨first, rest', rfl, -⟩ := exists_cons_of_cons_suffix hsuffix
    simp only [follow, hword]
    split_ifs <;> simp
  | case10 position term next terms later hne hstar position' rest hleap ih =>
    intro start tokens hsuffix
    obtain ⟨start', rest', hleap', hrest⟩ := Term.leap?_of_suffix hsuffix hleap start
    have hne : tokens ≠ [] := by
      rintro rfl
      exact hne (List.suffix_nil.1 hsuffix)
    rw [follow_star hstar hne, hleap']
    exact ih h start' rest' hrest
  | case12 position term next terms token later hne hplus position' rest hleap ih =>
    intro start tokens hsuffix
    obtain ⟨first, tokens, rfl, hrest⟩ := exists_cons_of_cons_suffix hsuffix
    obtain ⟨start', rest', hleap', hrest'⟩ := Term.leap?_of_suffix hrest hleap (start + 1)
    have hne : tokens ≠ [] := by
      rintro rfl
      exact hne (List.suffix_nil.1 hrest)
    rw [follow_plus hplus hne, hleap']
    exact ih h start' rest' hrest'
  | case13 position term next terms token later hone ih =>
    intro start tokens hsuffix
    obtain ⟨first, tokens, rfl, hrest⟩ := exists_cons_of_cons_suffix hsuffix
    simpa [follow, hone] using ih h (start + 1) tokens hrest
  | case14 position term next terms token later hword haccepts ih =>
    intro start tokens hsuffix
    obtain ⟨first, tokens, rfl, hrest⟩ := exists_cons_of_cons_suffix hsuffix
    simp only [follow, hword]
    split_ifs
    · exact ih h (start + 1) tokens hrest
    · simp
  | case3 | case6 | case7 | case8 | case9 | case11 | case15 => cases h

/-! ## Starts -/

/-- How following the `terms` from the token of number `start` ends. -/
def attempt (tokens : List Token) (terms : List Term) (start : Nat) : Attempt :=
  follow start (tokens.drop start) terms

/-- The numbers of the tokens from which the `terms` can be followed to their end. -/
def starts (tokens : List Token) (terms : List Term) : Set Nat :=
  {start | start < tokens.length ∧ ∃ stop, attempt tokens terms start = .found stop}

/-- Where the tokens run out from `start` on, they run out from every `later` token too. -/
theorem notMem_starts_of_exhausted (h : attempt tokens terms start = .exhausted) {later : Nat}
    (hle : start ≤ later) : later ∉ starts tokens terms := by
  rintro ⟨-, stop, hfound⟩
  exact follow_ne_exhausted hfound start _ (List.drop_suffix_drop_left tokens hle) h

/-- A scan of the tokens from number `start` on finds the `terms` at the least of their starts that is no smaller.
By induction on the tokens; where they run out the scan stops, but what it leaves out holds no start. -/
theorem scan_spec (text : List Token) (terms : List Term) (htext : text.drop start = tokens) :
    match scan terms start tokens with
    | some span => IsLeast {i ∈ starts text terms | start ≤ i} span.start ∧
        attempt text terms span.start = .found span.stop
    | none => ∀ i ∈ starts text terms, i < start := by
  fun_induction scan terms start tokens with
  | case1 start =>
    intro i hi
    exact Nat.lt_of_lt_of_le hi.1 (List.drop_eq_nil_iff.1 htext)
  | case2 start token tokens stop hfollow =>
    have hattempt : attempt text terms start = .found stop := by rw [attempt, htext, hfollow]
    have hlt : start < text.length := by
      by_contra! hle
      rw [List.drop_eq_nil_of_le hle] at htext
      cases htext
    exact ⟨⟨⟨⟨hlt, stop, hattempt⟩, Nat.le_refl start⟩, fun i hi => hi.2⟩, hattempt⟩
  | case3 start token tokens hfollow =>
    intro i hi
    have hattempt : attempt text terms start = .exhausted := by rw [attempt, htext, hfollow]
    by_contra! hle
    exact notMem_starts_of_exhausted hattempt hle hi
  | case4 start token tokens hfollow ih =>
    have hnot : start ∉ starts text terms := by
      rintro ⟨-, stop, hattempt⟩
      rw [attempt, htext, hfollow] at hattempt
      cases hattempt
    have hafter : ∀ i ∈ starts text terms, start ≤ i → start + 1 ≤ i := by
      intro i hi hle
      exact Nat.lt_of_le_of_ne hle fun heq => hnot (heq ▸ hi)
    have hnext := ih (by rw [← List.drop_drop, htext, List.drop_one, List.tail_cons])
    split at hnext
    · obtain ⟨⟨⟨hmem, hle⟩, hleast⟩, hattempt⟩ := hnext
      exact ⟨⟨⟨hmem, Nat.le_of_succ_le hle⟩, fun i hi => hleast ⟨hi.1, hafter i hi.1 hi.2⟩⟩, hattempt⟩
    · intro i hi
      by_contra! hle
      exact absurd (hnext i hi) (Nat.not_lt.2 (hafter i hi hle))

/-- The `terms` are found at the least of their `starts`, and not found if there are none. -/
theorem find_spec (tokens : List Token) (terms : List Term) :
    match find tokens terms with
    | some span => IsLeast (starts tokens terms) span.start ∧
        attempt tokens terms span.start = .found span.stop
    | none => starts tokens terms = ∅ := by
  have hscan := scan_spec tokens terms List.drop_zero
  unfold find
  split at hscan
  · simpa using hscan
  · exact Set.eq_empty_iff_forall_notMem.2 fun i hi => absurd (hscan i hi) (Nat.not_lt_zero i)

theorem isSome_find_iff : (find tokens terms).isSome ↔ (starts tokens terms).Nonempty := by
  have hspec := find_spec tokens terms
  cases hfind : find tokens terms with
  | none =>
    rw [hfind] at hspec
    simp [hspec]
  | some span =>
    rw [hfind] at hspec
    simpa using ⟨span.start, hspec.1.1⟩

end Phrase

/-! ## Literals -/

namespace Literal

theorem find_of_not_negated {literal : Literal} (h : literal.negated = false)
    (tokens : List Token) : literal.find tokens = Phrase.find tokens literal.terms := by
  unfold find
  rw [h]
  rfl

/-- Where the `tokens` run out for a phrase, no later token is a start of it. So a `literal` finds what trying every
token would find: its phrase at the least of its starts, and negated the whole text if there are none. -/
theorem find_misses_no_start (tokens : List Token) (literal : Literal) :
    (∀ start later, start < later → later < tokens.length →
      Phrase.attempt tokens literal.terms start = .exhausted →
        ∀ stop, Phrase.attempt tokens literal.terms later ≠ .found stop) ∧
    match literal.negated, literal.find tokens with
    | false, some span => IsLeast (Phrase.starts tokens literal.terms) span.start ∧
        Phrase.attempt tokens literal.terms span.start = .found span.stop
    | false, none => Phrase.starts tokens literal.terms = ∅
    | true, none => (Phrase.starts tokens literal.terms).Nonempty
    | true, some span => Phrase.starts tokens literal.terms = ∅ ∧ span = ⟨0, tokens.length⟩ := by
  refine ⟨fun start later hlt hlater hexhausted stop hfound => ?_, ?_⟩
  · exact Phrase.notMem_starts_of_exhausted hexhausted (Nat.le_of_lt hlt) ⟨hlater, stop, hfound⟩
  · have hspec := Phrase.find_spec tokens literal.terms
    unfold find
    cases hfound : Phrase.find tokens literal.terms with
    | none =>
      rw [hfound] at hspec
      cases literal.negated with
      | false => exact hspec
      | true => exact ⟨hspec, rfl⟩
    | some span =>
      rw [hfound] at hspec
      cases literal.negated with
      | false => exact hspec
      | true => exact ⟨span.start, hspec.1.1⟩

/-- A phrase that runs out of tokens from the first token on, although its first word occurs once more. -/
theorem find_misses_no_start_exhausted :
    let phrase : Phrase :=
      ⟨{ word := "nut" }, [.ofWildcard .one, { word := "nut" }, { word := "cake" }], by decide⟩
    let noCake : Literal := ⟨true, .phrase phrase⟩
    let tokens : List Token := ["nut", "fig", "nut"].map fun word => { word }
    (0 < 2 ∧ 2 < tokens.length ∧ Phrase.attempt tokens phrase.terms 0 = .exhausted ∧
      ∀ stop, Phrase.attempt tokens phrase.terms 2 ≠ .found stop) ∧
    noCake.find tokens = some ⟨0, 3⟩ ∧ Phrase.starts tokens phrase.terms = ∅ := by
  intro phrase noCake tokens
  obtain ⟨hearly, hfind⟩ := find_misses_no_start tokens noCake
  have hexhausted : Phrase.attempt tokens phrase.terms 0 = .exhausted := by decide
  have hwhole : noCake.find tokens = some ⟨0, 3⟩ := by decide
  rw [hwhole] at hfind
  exact ⟨⟨by decide, by decide, hexhausted, hearly 0 2 (by decide) (by decide) hexhausted⟩, hwhole,
    hfind.1⟩

end Literal

end Tagging
