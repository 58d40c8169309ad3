import Tagging.Proofs.Clauses

/-!
# Words one behind the other

A pattern of words next to each other, quoted or not, asks for exactly these words: it is found at the least
token from which they stand in the text one behind the other. There is one exception. A term has no mark that
tells a wildcard from a word, so a word in quotes that is the sign of a wildcard is taken for the wildcard. With
such a word a pattern is found where it should not be, or has two neighbouring wildcards and no clausal form.
-/

namespace Tagging

/-! ## Phrases without wildcards -/

namespace Phrase

variable {term : Term} {terms : List Term} {tokens : List Token} {position stop start : Nat}

theorem follow_word_nil (hword : term.wildcard? = none) (position : Nat) (terms : List Term) :
    follow position [] (term :: terms) = .exhausted := by
  cases terms <;> simp only [follow, hword]

/-- If none of `terms` is a wildcard, as `hwords` says, they are followed through as many tokens, each of which has
to satisfy its word. -/
theorem follow_eq_found_iff_of_words (hwords : ∀ term ∈ terms, term.wildcard? = none) :
    follow position tokens terms = .found stop ↔
      List.Forall₂ (fun term token => term.accepts token = true) terms (tokens.take terms.length) ∧
        stop = position + terms.length := by
  induction terms generalizing position tokens with
  | nil =>
    constructor
    · rintro ⟨⟩
      exact ⟨.nil, rfl⟩
    · rintro ⟨-, rfl⟩
      rfl
  | cons term terms ih =>
    obtain ⟨hword, hwords⟩ := List.forall_mem_cons.1 hwords
    cases tokens with
    | nil => simp [follow_word_nil hword]
    | cons token tokens =>
      rw [follow_word hword, List.length_cons, List.take_succ_cons, List.forall₂_cons]
      split_ifs with haccepts
      · rw [ih hwords, Nat.add_right_comm, Nat.add_assoc]
        simp [haccepts]
      · simp [haccepts]

theorem separated_of_words (hwords : ∀ term ∈ terms, term.wildcard? = none) :
    hasAdjacentWildcards terms = false := by
  fun_induction hasAdjacentWildcards terms with
  | case1 a b terms ih =>
    obtain ⟨ha, hwords⟩ := List.forall_mem_cons.1 hwords
    simp [Term.isWildcard, ha, ih hwords]
  | case2 => rfl

end Phrase

/-! ## Patterns of words -/

namespace Pattern

variable {normalizer : Normalizer} {tree leaf : Pattern} {terms : List Term} {tokens : List Token}
  {start : Nat}

/-- A pattern of one word, or of several next to each other. Something is left of each to be compared. -/
structure OfWords (normalizer : Normalizer) (tree : Pattern) : Prop where
  ofTerms : OfTerms normalizer tree
  plain : ∀ w, .wildcard w ∉ tree.leaves

/-- The words of the pattern are the tokens from number `start` on. -/
def StandsAt (normalizer : Normalizer) (tree : Pattern) (tokens : List Token) (start : Nat) : Prop :=
  List.Forall₂ (IsAt normalizer) tree.leaves
    (tokens.extract start (start + tree.leaves.length))

/-- The pattern has a clausal form, which is found in a text at the least token from which its words stand
there, covering one token for each, and not found if they stand there nowhere. -/
def FindsVerbatim (normalizer : Normalizer) (tree : Pattern) : Prop :=
  ∃ cnf, tree.toCnf normalizer = .ok cnf ∧ ∀ tokens,
    match cnf.find tokens with
    | some span => IsLeast {start | tree.StandsAt normalizer tokens start} span.start ∧
        span.stop = span.start + tree.leaves.length
    | none => ∀ start, ¬ tree.StandsAt normalizer tokens start

/-! ## The clausal form of words -/

theorem OfTerms.clauseList_eq (h : OfTerms normalizer tree) : clauseList true tree = [[tree]] := by
  have hpass : clauseList true tree = [[pushNot true tree]] := by
    cases h <;> rfl
  rw [hpass, pushNot_eq_self h.isNegationNormal]

theorem OfTerms.toCnf_eq (h : OfTerms normalizer tree) :
    tree.toCnf normalizer = (literal normalizer false true tree).map fun lit => ⟨[[lit]]⟩ := by
  have hliteral : tree.operandLiteral normalizer = literal normalizer false true tree := by
    cases h <;> rfl
  rw [toCnf_eq_map, h.clauseList_eq]
  simp only [List.mapM_cons, List.mapM_nil, hliteral]
  cases literal normalizer false true tree <;> rfl

/-! ## Where words stand -/

/-- The words of `leaves` are the `tokens` exactly if the terms they become are satisfied by them one by one. -/
theorem forall₂_isAt_iff {leaves : List Pattern} (h : List.Forall₂ (Becomes normalizer) leaves terms)
    (hplain : ∀ term ∈ terms, term.wildcard? = none) (tokens : List Token) :
    List.Forall₂ (IsAt normalizer) leaves tokens ↔
      List.Forall₂ (fun term token => term.accepts token = true) terms tokens := by
  induction h generalizing tokens with
  | nil => simp only [List.forall₂_nil_left_iff]
  | cons hbecomes _ ih =>
    obtain ⟨hterm, hplain⟩ := List.forall_mem_cons.1 hplain
    cases tokens with
    | nil => simp
    | cons token tokens =>
      rw [List.forall₂_cons, List.forall₂_cons, ih hplain, hbecomes.accepts hterm]

/-- Where words that are no signs stand, their `terms` can be followed, and nowhere else. -/
theorem attempt_eq_found_iff_standsAt (hterms : List.Forall₂ (Becomes normalizer) tree.leaves terms)
    (hplain : ∀ term ∈ terms, term.wildcard? = none) {stop : Nat} :
    Phrase.attempt tokens terms start = .found stop ↔
      tree.StandsAt normalizer tokens start ∧ stop = start + tree.leaves.length := by
  rw [Phrase.attempt, Phrase.follow_eq_found_iff_of_words hplain, StandsAt, List.extract_eq_take_drop,
    Nat.add_sub_cancel_left, ← hterms.length_eq, forall₂_isAt_iff hterms hplain]

theorem leaves_ne_nil (tree : Pattern) : tree.leaves ≠ [] := by
  induction tree with
  | join l r ihl _ => simp [leaves, ihl]
  | _ => simp [leaves]

/-- A pattern has a leaf, so where it stands there is a token. -/
theorem StandsAt.lt_length (h : tree.StandsAt normalizer tokens start) : start < tokens.length := by
  have hlength := h.length_eq
  have hpos := List.length_pos_iff.2 tree.leaves_ne_nil
  rw [List.extract_eq_take_drop, List.length_take, List.length_drop] at hlength
  omega

theorem starts_eq_standsAt (hterms : List.Forall₂ (Becomes normalizer) tree.leaves terms)
    (hplain : ∀ term ∈ terms, term.wildcard? = none) :
    Phrase.starts tokens terms = {start | tree.StandsAt normalizer tokens start} := by
  ext start
  constructor
  · rintro ⟨-, stop, hfound⟩
    exact ((attempt_eq_found_iff_standsAt hterms hplain).1 hfound).1
  · intro hstands
    exact ⟨hstands.lt_length, _, (attempt_eq_found_iff_standsAt hterms hplain).2 ⟨hstands, rfl⟩⟩

/-! ## Words and signs -/

/-- The clausal form of words is the phrase of their `terms`. -/
theorem OfTerms.toCnf_eq_ok_iff (h : OfTerms normalizer tree)
    (hterms : tree.terms? normalizer true = some terms) {cnf : Cnf} :
    tree.toCnf normalizer = .ok cnf ↔
      ∃ phrase : Phrase, phrase.terms = terms ∧ cnf = ⟨[[⟨false, .phrase phrase⟩]]⟩ := by
  rw [h.toCnf_eq]
  constructor
  · intro hcnf
    cases hliteral : literal normalizer false true tree with
    | error fault =>
      rw [hliteral] at hcnf
      cases hcnf
    | ok lit =>
      rw [hliteral] at hcnf
      cases hcnf
      rcases literal_spec hliteral with ⟨-, name, rfl, -⟩ | ⟨phrase, rfl, hphrase, -⟩
      · cases h
      · rw [hterms] at hphrase
        cases hphrase
        exact ⟨phrase, rfl, rfl⟩
  · rintro ⟨phrase, rfl, rfl⟩
    obtain ⟨other, hother, hliteral⟩ := h.exists_literal hterms phrase.separated false true
    rw [hliteral, Phrase.eq_of_terms_eq hother]
    rfl

theorem find_phrase (tokens : List Token) (phrase : Phrase) :
    (⟨[[⟨false, .phrase phrase⟩]]⟩ : Cnf).find tokens = Phrase.find tokens phrase.terms := by
  have hliteral : Literal.find tokens ⟨false, .phrase phrase⟩ = Phrase.find tokens phrase.terms :=
    Literal.find_of_not_negated rfl tokens
  rw [Cnf.find_eq_verdict]
  cases hfind : Phrase.find tokens phrase.terms <;>
    simp [Cnf.verdict, Clause.verdict, hliteral, hfind, Span.hull]

/-- Words of which none is a sign, as `hsigns` says, are found where they stand. -/
theorem OfTerms.findsVerbatim (h : OfTerms normalizer tree)
    (hsigns : ∀ leaf ∈ tree.leaves, leaf.wildcard? = none) : tree.FindsVerbatim normalizer := by
  obtain ⟨terms, hterms, hbecomes⟩ := h.exists_terms
  have hplain : ∀ term ∈ terms, term.wildcard? = none := by
    rw [← List.forall_mem_map (P := (· = none)), map_wildcard?_eq hbecomes, List.forall_mem_map]
    exact hsigns
  obtain ⟨phrase, rfl, -⟩ := h.exists_literal hterms (Phrase.separated_of_words hplain) false true
  refine ⟨_, (h.toCnf_eq_ok_iff hterms).2 ⟨phrase, rfl, rfl⟩, fun tokens => ?_⟩
  have hspec := Phrase.find_spec tokens phrase.terms
  rw [starts_eq_standsAt hbecomes hplain] at hspec
  rw [find_phrase]
  cases hfind : Phrase.find tokens phrase.terms with
  | none =>
    rw [hfind] at hspec
    exact Set.eq_empty_iff_forall_notMem.1 hspec
  | some span =>
    rw [hfind] at hspec
    obtain ⟨hleast, hattempt⟩ := hspec
    exact ⟨hleast, ((attempt_eq_found_iff_standsAt hbecomes hplain).1 hattempt).2⟩

end Pattern

/-! ## Blank tokens for wildcards -/

/-- A token that is no word. -/
def Token.blank : Token := { word := "" }

/-- Tokens that the term may stand for, which for a wildcard are no words. -/
def Term.sample (term : Term) : List Token :=
  match term.wildcard? with
  | none => [{ word := term.word, normalized := term.normalized }]
  | some .star => []
  | some _ => [.blank]

/-- When no two neighbours among `terms` are wildcards, the samples of the terms are a text that they match piece by
piece. -/
theorem Phrase.cut_sample {terms : List Term} (hseparated : hasAdjacentWildcards terms = false) :
    Cut terms (terms.map Term.sample) := by
  induction terms with
  | nil => exact .nil
  | cons term terms ih =>
    have hrest := ih (hasAdjacentWildcards_cons hseparated)
    cases hwildcard : term.wildcard? with
    | none =>
      have haccepts : term.accepts { word := term.word, normalized := term.normalized } = true := by
        cases hform : term.form <;> simp [Term.accepts, hform]
      simpa [Term.sample, hwildcard] using Cut.word hwildcard haccepts hrest
    | some wildcard =>
      cases wildcard with
      | one => simpa [Term.sample, hwildcard] using Cut.one hwildcard hrest
      | plus =>
        cases terms with
        | nil => simpa [Term.sample, hwildcard] using Cut.lastPlus hwildcard
        | cons next terms => simpa [Term.sample, hwildcard] using Cut.plus hwildcard (by simp) hrest
      | star =>
        cases terms with
        | nil => simpa [Term.sample, hwildcard] using Cut.lastStar hwildcard
        | cons next terms => simpa [Term.sample, hwildcard] using Cut.star hwildcard (by simp) hrest

/-- Only words have tokens that are words. -/
theorem Term.countP_sample_le (terms : List Term) :
    (terms.map sample).flatten.countP (· ≠ Token.blank) ≤ (terms.map wildcard?).count none := by
  induction terms with
  | nil => exact Nat.le_refl 0
  | cons term terms ih =>
    have hterm : term.sample.countP (· ≠ Token.blank) ≤ if term.wildcard? == none then 1 else 0 := by
      unfold sample
      split
      · rename_i hword
        rw [hword]
        exact List.countP_le_length
      · exact Nat.zero_le _
      · simp
    rw [List.map_cons, List.map_cons, List.flatten_cons, List.countP_append, List.count_cons]
    omega

namespace Pattern

variable {normalizer : Normalizer} {tree : Pattern}

/-- A token that a word of `tree` is, is not blank. -/
theorem OfTerms.ne_blank (h : OfTerms normalizer tree) :
    ∀ leaf ∈ tree.leaves, ∀ token, leaf.IsAt normalizer token → token ≠ Token.blank := by
  induction h with
  | word hw =>
    rintro leaf hleaf token hat rfl
    obtain rfl := List.mem_singleton.1 hleaf
    exact hw hat.symm
  | exactWord hw =>
    rintro leaf hleaf token hat rfl
    obtain rfl := List.mem_singleton.1 hleaf
    exact hw hat.symm
  | wildcard =>
    rintro leaf hleaf token hat
    obtain rfl := List.mem_singleton.1 hleaf
    cases hat
  | join _ _ ihl ihr => exact List.forall_mem_append.2 ⟨ihl, ihr⟩

theorem length_eq_countP {leaves : List Pattern} {tokens : List Token}
    (h : List.Forall₂ (IsAt normalizer) leaves tokens)
    (hwords : ∀ leaf ∈ leaves, ∀ token, leaf.IsAt normalizer token → token ≠ Token.blank) :
    leaves.length = tokens.countP (· ≠ Token.blank) := by
  induction h with
  | nil => rfl
  | cons hat _ ih =>
    obtain ⟨hleaf, hleaves⟩ := List.forall_mem_cons.1 hwords
    rw [List.countP_cons, List.length_cons, ih hleaves, if_pos (by simpa using hleaf _ hat)]

/-- Where `tree` stands, the text has a word for each of its leaves. -/
theorem OfTerms.length_le_countP (h : OfTerms normalizer tree) {tokens : List Token} {start : Nat}
    (hstands : tree.StandsAt normalizer tokens start) :
    tree.leaves.length ≤ tokens.countP (· ≠ Token.blank) := by
  rw [length_eq_countP hstands h.ne_blank, List.extract_eq_take_drop]
  exact ((List.take_sublist _ _).trans (List.drop_sublist _ _)).countP_le

/-- A pattern that finds its words verbatim has no sign in quotes. With one it would have no clausal form, or be
found in the samples of its terms, which have a blank token for the sign and so too few words for `tree` to stand
there. -/
theorem OfTerms.wildcard?_eq_none (h : OfTerms normalizer tree) (hfinds : tree.FindsVerbatim normalizer) :
    ∀ leaf ∈ tree.leaves, leaf.wildcard? = none := by
  obtain ⟨terms, hterms, hbecomes⟩ := h.exists_terms
  obtain ⟨cnf, hcnf, hfinds⟩ := hfinds
  obtain ⟨phrase, rfl, rfl⟩ := (h.toCnf_eq_ok_iff hterms).1 hcnf
  let text : List Token := (phrase.terms.map Term.sample).flatten ++ [Token.blank]
  have hstart : 0 ∈ Phrase.starts text phrase.terms :=
    ⟨by simp [text], _, (Phrase.cut_sample phrase.separated).follow_eq_found phrase.separated 0 _⟩
  have hspec := Phrase.find_spec text phrase.terms
  have hfound := hfinds text
  rw [find_phrase] at hfound
  cases hfind : Phrase.find text phrase.terms with
  | none =>
    rw [hfind] at hspec
    exact absurd hstart (Set.eq_empty_iff_forall_notMem.1 hspec 0)
  | some span =>
    rw [hfind] at hfound
    have hwords : text.countP (· ≠ Token.blank) ≤ (tree.leaves.map wildcard?).count none := by
      rw [List.countP_append, ← map_wildcard?_eq hbecomes]
      exact Term.countP_sample_le phrase.terms
    have hlength := Nat.le_trans (h.length_le_countP hfound.1.1) hwords
    have hall := List.count_eq_length.1 (Nat.le_antisymm List.count_le_length
      (by rwa [List.length_map]))
    exact fun leaf hleaf => (List.forall_mem_map.1 hall leaf hleaf).symm

/-- A pattern of words finds them verbatim exactly if none of those in quotes is the sign of a wildcard. -/
theorem findsVerbatim_iff {normalizer : Normalizer} {tree : Pattern} (h : OfWords normalizer tree) :
    tree.FindsVerbatim normalizer ↔
      ∀ w, .exactWord w ∈ tree.leaves → Wildcard.ofSymbol? w = none := by
  constructor
  · intro hfinds w hw
    exact h.ofTerms.wildcard?_eq_none hfinds _ hw
  · intro hsigns
    refine h.ofTerms.findsVerbatim fun leaf hleaf => ?_
    cases leaf with
    | exactWord w => exact hsigns w hleaf
    | wildcard w => exact absurd hleaf (h.plain w)
    | _ => rfl

/-- Two words in quotes around one that is not. The last has the sign of a wildcard in it, but is none. -/
theorem findsVerbatim_iff_sign_inside_word :
    let tree : Pattern := .join (.exactWord "The") (.join (.word "Big") (.exactWord "Hub?"))
    tree.OfWords .standard ∧
      (∀ w, .exactWord w ∈ tree.leaves → Wildcard.ofSymbol? w = none) ∧ tree.FindsVerbatim .standard := by
  intro tree
  have hbig : Normalizer.standard.normalize "Big" ≠ "" := by decide +kernel
  have hwords : tree.OfWords .standard :=
    ⟨.join (.exactWord (by decide)) (.join (.word hbig) (.exactWord (by decide))), by simp [tree, leaves]⟩
  have hsigns : ∀ w, .exactWord w ∈ tree.leaves → Wildcard.ofSymbol? w = none := by
    intro w hw
    have hw : w = "The" ∨ w = "Hub?" := by simpa [tree, leaves] using hw
    rcases hw with rfl | rfl <;> decide
  exact ⟨hwords, hsigns, (findsVerbatim_iff hwords).2 hsigns⟩

/-- A question mark in quotes is found in a text without question marks, and has no clausal form together with a
plus sign in quotes. -/
theorem quoted_sign_is_wildcard :
    let mark : Pattern := .exactWord "?"
    let text : List Token := [{ word := "a" }]
    mark.OfWords .standard ∧
      (∃ cnf, mark.toCnf .standard = .ok cnf ∧ cnf.find text = some ⟨0, 1⟩) ∧
      (∀ start, ¬ mark.StandsAt .standard text start) ∧
      (Pattern.join mark (.exactWord "+")).OfWords .standard ∧
      (Pattern.join mark (.exactWord "+")).toCnf .standard =
        .error (.adjacentWildcards false [.exactly "?", .exactly "+"]) := by
  intro mark text
  have hmark : mark.OfWords .standard := ⟨.exactWord (by decide), by simp [mark, leaves]⟩
  have hboth : (Pattern.join mark (.exactWord "+")).OfWords .standard :=
    ⟨.join hmark.ofTerms (.exactWord (by decide)), by simp [mark, leaves]⟩
  refine ⟨hmark, ⟨⟨[[.ofTerm (.exactly "?") false]]⟩, ?_, by decide⟩, ?_, hboth, ?_⟩
  · rw [hmark.ofTerms.toCnf_eq]
    rfl
  · intro start hstands
    obtain rfl : start = 0 := Nat.lt_one_iff.1 hstands.lt_length
    cases hstands with
    | cons hat _ =>
      have hat : "a" = "?" := hat
      exact absurd hat (by decide)
  · rw [hboth.ofTerms.toCnf_eq]
    rfl

end Pattern

end Tagging
