import Mathlib.Data.List.Basic
import Mathlib.Tactic.SplitIfs
import Tagging.Options
import Tagging.Query

/-!
# Quotes in queries

Whoever reads a query knows its terms only by their quotes: a term starts behind an opening quote and runs to
the next closing one. Around the terms nothing is written that looks like the start of an opening quote, so
each term is found where it was written, unless it holds a closing quote itself. A word is written as it is, so
a query can be cut into its terms again exactly if none of its words has such a quote in it.
-/

namespace Tagging

namespace Text

variable {sign text before after rest : List Char} {c quote : Char}

/-- What stands before and behind the first occurrence of `sign`. -/
def partAt? (sign : List Char) : List Char → Option (List Char × List Char)
  | [] => if sign = [] then some ([], []) else none
  | c :: text =>
    match (c :: text).dropPrefix? sign with
    | some rest => some ([], rest)
    | none => (partAt? sign text).map fun (before, after) => (c :: before, after)

/-- The parts `before` and `after` make up `text` again, with `sign` between them. -/
theorem eq_of_partAt? (h : partAt? sign text = some (before, after)) :
    text = before ++ (sign ++ after) := by
  induction text generalizing before with
  | nil =>
    unfold partAt? at h
    split_ifs at h with hsign
    cases h
    rw [hsign]
    rfl
  | cons c text ih =>
    unfold partAt? at h
    cases hdrop : (c :: text).dropPrefix? sign with
    | some rest =>
      rw [hdrop] at h
      cases h
      obtain ⟨front, htext, hfront⟩ := List.dropPrefix?_eq_some_iff.1 hdrop
      obtain rfl := eq_of_beq hfront
      rw [htext, List.nil_append]
    | none =>
      rw [hdrop] at h
      obtain ⟨⟨front, rest⟩, hpart, ⟨⟩⟩ := Option.map_eq_some_iff.1 h
      rw [ih hpart, List.cons_append]

/-- In `before`, which does not hold the first character `c` of the sign, no occurrence of the sign starts. -/
theorem partAt?_append_of_notMem (hbefore : c ∉ before) (sign text : List Char) :
    partAt? (c :: sign) (before ++ text) =
      (partAt? (c :: sign) text).map fun (front, after) => (before ++ front, after) := by
  induction before with
  | nil => simp
  | cons d before ih =>
    rw [List.mem_cons, not_or] at hbefore
    have hnone : (d :: (before ++ text)).dropPrefix? (c :: sign) = none := by
      rw [List.dropPrefix?, if_neg (by simpa using Ne.symm hbefore.1)]
    rw [List.cons_append, partAt?, hnone]
    dsimp only
    rw [ih hbefore.2, Option.map_map]
    rfl

theorem partAt?_append_self (sign rest : List Char) :
    partAt? sign (sign ++ rest) = some ([], rest) := by
  have hdrop : (sign ++ rest).dropPrefix? sign = some rest :=
    List.dropPrefix?_append_of_beq rest (beq_self_eq_true sign)
  cases htext : sign ++ rest with
  | nil =>
    obtain ⟨rfl, rfl⟩ := List.append_eq_nil_iff.1 htext
    rfl
  | cons c text => rw [partAt?, ← htext, hdrop]

/-- The first `quote` has none in front of it. -/
theorem notMem_of_partAt?_singleton (h : partAt? [quote] text = some (before, after)) :
    quote ∉ before := by
  induction text generalizing before with
  | nil => cases h
  | cons c text ih =>
    unfold partAt? at h
    cases hdrop : (c :: text).dropPrefix? [quote] with
    | some rest =>
      rw [hdrop] at h
      cases h
      exact List.not_mem_nil
    | none =>
      rw [hdrop] at h
      obtain ⟨⟨front, rest⟩, hpart, ⟨⟩⟩ := Option.map_eq_some_iff.1 h
      have hne : quote ≠ c := by
        rintro rfl
        simp [List.dropPrefix?] at hdrop
      simp [hne, ih hpart]

end Text

namespace Dialect

/-- The terms that are found in `text` by their quotes. Quotes that take up no room enclose none. -/
def cut (dialect : Dialect) (text : List Char) : List String :=
  match Text.partAt? dialect.opening.toList text with
  | none => []
  | some (_, inside) =>
    match Text.partAt? dialect.closing.toList inside with
    | none => []
    | some (term, rest) =>
      if rest.length < text.length then String.ofList term :: cut dialect rest else []
termination_by text.length

/-- The terms of `cnf` that a query has to show: what is kept of each literal, unless nothing is. -/
def termTexts (dialect : Dialect) (cnf : Cnf) : List String :=
  ((cnf.literals.map dialect.words).filter (!·.isEmpty)).map dialect.separator.intercalate

/-- The opening quote of `dialect` starts with `first` and the closing one is a double quote, and neither is written
for anything else. -/
structure QuotesApart (dialect : Dialect) (first : Char) : Prop where
  opening : ∃ more, dialect.opening.toList = first :: more
  closing : dialect.closing.toList = ['\"']
  outside : ∀ sign ∈ [dialect.conjunction, dialect.disjunction, dialect.negation, "(", ")"],
    first ∉ sign.toList
  separator : '\"' ∉ dialect.separator.toList

/-- The two dialects with quotes, `plain` and `lucene`, keep them apart from everything else they write. -/
theorem exists_quotesApart {dialect : Dialect} (h : dialect ∈ [plain, lucene]) :
    ∃ first, dialect.QuotesApart first := by
  rcases List.mem_cons.1 h with rfl | h
  · exact ⟨'\"', ⟨[], rfl⟩, rfl, by decide, by decide⟩
  · obtain rfl := List.mem_singleton.1 h
    exact ⟨'+', ⟨['\"'], rfl⟩, rfl, by decide, by decide⟩

/-! ## What is found in a query -/

/-- The terms `terms` are what is found in `piece`, wherever in a query it stands. -/
def Shows (dialect : Dialect) (piece : String) (terms : List String) : Prop :=
  ∀ rest, dialect.cut (piece.toList ++ rest) = terms ++ dialect.cut rest

section Shows

variable {dialect : Dialect} {first : Char} {piece other : String} {terms more : List String}

theorem cut_nil (hquotes : dialect.QuotesApart first) : dialect.cut [] = [] := by
  obtain ⟨more, hopening⟩ := hquotes.opening
  rw [cut, hopening]
  rfl

theorem Shows.append (h : dialect.Shows piece terms) (hother : dialect.Shows other more) :
    dialect.Shows (piece ++ other) (terms ++ more) := by
  intro rest
  rw [String.toList_append, List.append_assoc, h, hother, List.append_assoc]

/-- A `piece` without the `first` character of opening quotes shows no term. By induction on `piece`; the recursion
of `cut` goes on only where the text gets shorter, which holds with the piece and without. -/
theorem shows_outside (hquotes : dialect.QuotesApart first) (hpiece : first ∉ piece.toList) :
    dialect.Shows piece [] := by
  intro rest
  obtain ⟨more, hopening⟩ := hquotes.opening
  rw [List.nil_append, cut, cut, hopening, Text.partAt?_append_of_notMem hpiece]
  cases hpart : Text.partAt? (first :: more) rest with
  | none => rfl
  | some parts =>
    obtain ⟨front, inside⟩ := parts
    rw [Option.map_some]
    dsimp only
    cases hterm : Text.partAt? dialect.closing.toList inside with
    | none => rfl
    | some parts =>
      obtain ⟨term, after⟩ := parts
      have hshorter : after.length < rest.length := by
        rw [Text.eq_of_partAt? hpart, Text.eq_of_partAt? hterm]
        simp only [List.length_append, List.length_cons]
        omega
      have hlonger : after.length < (piece.toList ++ rest).length := by
        rw [List.length_append]
        omega
      dsimp only
      rw [if_pos hshorter, if_pos hlonger]

/-- A `term` without double quotes is found between its quotes. -/
theorem shows_quoted (hquotes : dialect.QuotesApart first) {term : String} (hterm : '\"' ∉ term.toList) :
    dialect.Shows (dialect.opening ++ term ++ dialect.closing) [term] := by
  intro rest
  obtain ⟨more, hopening⟩ := hquotes.opening
  have hpiece : (dialect.opening ++ term ++ dialect.closing).toList ++ rest =
      dialect.opening.toList ++ (term.toList ++ (dialect.closing.toList ++ rest)) := by
    simp only [String.toList_append, List.append_assoc]
  have hinside : Text.partAt? dialect.closing.toList (term.toList ++ (dialect.closing.toList ++ rest)) =
      some (term.toList, rest) := by
    rw [hquotes.closing, Text.partAt?_append_of_notMem hterm, Text.partAt?_append_self, Option.map_some]
    dsimp only
    rw [List.append_nil]
  have hlength : rest.length <
      (dialect.opening.toList ++ (term.toList ++ (dialect.closing.toList ++ rest))).length := by
    rw [hopening]
    simp only [List.length_append, List.length_cons]
    omega
  rw [hpiece, cut, Text.partAt?_append_self]
  dsimp only
  rw [hinside]
  dsimp only
  rw [if_pos hlength, String.ofList_toList]
  rfl

/-- If each of `xs` shows its terms and `separator` shows none, all of them in a row show all their terms. -/
theorem Shows.intercalate {α : Type} {write : α → String} {read : α → List String} {xs : List α}
    {separator : String} (h : ∀ x ∈ xs, dialect.Shows (write x) (read x))
    (hseparator : dialect.Shows separator []) :
    dialect.Shows (separator.intercalate (xs.map write)) (xs.flatMap read) := by
  induction xs with
  | nil => exact fun rest => rfl
  | cons x xs ih =>
    obtain ⟨hx, hxs⟩ := List.forall_mem_cons.1 h
    cases xs with
    | nil => simpa using hx
    | cons y ys =>
      have hrest := (hx.append hseparator).append (ih hxs)
      rw [List.append_nil] at hrest
      simpa using hrest

/-- Terms without double quotes are found in the `query` that they were written to. -/
theorem shows_render (hquotes : dialect.QuotesApart first) {query : Query}
    (hterms : ∀ clause ∈ query, ∀ term ∈ clause,
      '\"' ∉ (dialect.separator.intercalate term.words).toList) :
    dialect.Shows (dialect.render query)
      (query.flatMap fun clause => clause.map fun term => dialect.separator.intercalate term.words) := by
  have hsigns : ∀ sign ∈ [dialect.conjunction, dialect.disjunction, dialect.negation, "(", ")"],
      dialect.Shows sign [] := fun sign hsign => shows_outside hquotes (hquotes.outside sign hsign)
  simp only [List.forall_mem_cons] at hsigns
  obtain ⟨hconjunction, hdisjunction, hnegation, hleft, hright, -⟩ := hsigns
  have hterm : ∀ clause ∈ query, ∀ term ∈ clause,
      dialect.Shows (dialect.renderTerm term) [dialect.separator.intercalate term.words] := by
    intro clause hclause term hterm
    have hquoted := shows_quoted hquotes (hterms clause hclause term hterm)
    unfold renderTerm
    dsimp only
    split_ifs
    · exact ((hnegation.append hleft).append hquoted).append hright
    · exact hquoted
  refine Shows.intercalate (fun clause hclause => ?_) hconjunction
  have hinner := Shows.intercalate (hterm clause hclause) hdisjunction
  have hclause := (hleft.append hinner).append hright
  rw [List.nil_append, List.append_nil, ← List.map_eq_flatMap] at hclause
  exact hclause

end Shows

/-! ## Words that can be quoted -/

section Words

variable {dialect : Dialect} {first c : Char} {cnf : Cnf} {separator word : String} {words : List String}

theorem mem_intercalate_of_mem (hword : word ∈ words) (hc : c ∈ word.toList) :
    c ∈ (separator.intercalate words).toList := by
  induction words with
  | nil => cases hword
  | cons head words ih =>
    cases words with
    | nil =>
      obtain rfl := List.mem_singleton.1 hword
      simpa using hc
    | cons next words =>
      rw [String.intercalate_cons_cons, String.toList_append, String.toList_append]
      rcases List.mem_cons.1 hword with rfl | hword
      · exact List.mem_append_left _ (List.mem_append_left _ hc)
      · exact List.mem_append_right _ (ih hword)

/-- A character `c` of joined `words` is one of the `separator`, or of one of them. -/
theorem mem_or_mem_of_mem_intercalate (h : c ∈ (separator.intercalate words).toList) :
    c ∈ separator.toList ∨ ∃ word ∈ words, c ∈ word.toList := by
  induction words with
  | nil => simp at h
  | cons head words ih =>
    cases words with
    | nil => exact .inr ⟨head, List.mem_singleton_self head, by simpa using h⟩
    | cons next words =>
      rw [String.intercalate_cons_cons, String.toList_append, String.toList_append, List.mem_append,
        List.mem_append] at h
      rcases h with (hhead | hseparator) | hrest
      · exact .inr ⟨head, List.mem_cons_self, hhead⟩
      · exact .inl hseparator
      · exact (ih hrest).imp_right fun ⟨word, hword, hc⟩ => ⟨word, List.mem_cons_of_mem _ hword, hc⟩

theorem map_words_filterMap_term? (dialect : Dialect) (literals : List Literal) :
    (literals.filterMap dialect.term?).map QueryTerm.words =
      (literals.map dialect.words).filter (!·.isEmpty) := by
  induction literals with
  | nil => rfl
  | cons literal literals ih =>
    rw [List.filterMap_cons, List.map_cons, List.filter_cons, term?]
    cases dialect.words literal with
    | nil => simpa using ih
    | cons word words => simpa using ih

/-- The terms of `dialect.query cnf` are those that it has to show. -/
theorem termTexts_eq (dialect : Dialect) (cnf : Cnf) : dialect.termTexts cnf =
    (dialect.query cnf).flatMap fun clause =>
      clause.map fun term => dialect.separator.intercalate term.words := by
  have hterms : (dialect.query cnf).flatten = cnf.literals.filterMap dialect.term? := by
    rw [query, List.flatten_filter_not_isEmpty, Cnf.literals, List.filterMap_flatten]
  rw [termTexts, ← map_words_filterMap_term?, ← hterms, List.flatMap_def, List.map_map, List.map_flatten]
  rfl

/-- A term that is found ends in front of the first closing quote, so it holds none. -/
theorem notMem_of_mem_cut (hquotes : dialect.QuotesApart first) (text : List Char) :
    ∀ term ∈ dialect.cut text, '\"' ∉ term.toList := by
  fun_induction cut dialect text with
  | case1 => simp
  | case2 => simp
  | case3 text before inside hopening term rest hclosing hlength ih =>
    rw [hquotes.closing] at hclosing
    refine List.forall_mem_cons.2 ⟨?_, ih⟩
    rw [String.toList_ofList]
    exact Text.notMem_of_partAt?_singleton hclosing
  | case4 => simp

/-- A query can be cut at its quotes into the terms of the clausal form `cnf` that it was made from, one for each
literal of which something is kept and in their order, exactly if no `word` of them has a double quote in it. For no
term that is cut out has one. -/
theorem cut_write_iff {dialect : Dialect} (hdialect : dialect ∈ [plain, lucene]) (cnf : Cnf) :
    dialect.cut (dialect.write cnf).toList = dialect.termTexts cnf ↔
      ∀ literal ∈ cnf.literals, ∀ word ∈ dialect.words literal, '\"' ∉ word.toList := by
  obtain ⟨first, hquotes⟩ := exists_quotesApart hdialect
  constructor
  · intro hcut literal hliteral word hword hquote
    have hkept : dialect.separator.intercalate (dialect.words literal) ∈ dialect.termTexts cnf := by
      refine List.mem_map.2 ⟨_, List.mem_filter.2 ⟨List.mem_map.2 ⟨literal, hliteral, rfl⟩, ?_⟩, rfl⟩
      simpa using List.ne_nil_of_mem hword
    rw [← hcut] at hkept
    exact notMem_of_mem_cut hquotes _ _ hkept (mem_intercalate_of_mem hword hquote)
  · intro hwords
    have hterms : ∀ text ∈ dialect.termTexts cnf, '\"' ∉ text.toList := by
      intro text htext hquote
      obtain ⟨words, hwordsmem, rfl⟩ := List.mem_map.1 htext
      obtain ⟨literal, hliteral, rfl⟩ := List.mem_map.1 (List.mem_filter.1 hwordsmem).1
      rcases mem_or_mem_of_mem_intercalate hquote with hseparator | ⟨word, hword, hmem⟩
      · exact hquotes.separator hseparator
      · exact hwords literal hliteral word hword hmem
    rw [termTexts_eq] at hterms ⊢
    have hshows := shows_render hquotes (fun clause hclause term hterm =>
      hterms _ (List.mem_flatMap.2 ⟨clause, hclause, List.mem_map.2 ⟨term, hterm, rfl⟩⟩)) []
    rwa [List.append_nil, cut_nil hquotes, List.append_nil] at hshows

end Words

/-- Two literals of one clause, of which one is a phrase and the other a negated word with operators in it. -/
theorem cut_write_iff_operators_in_word :
    let pie : Literal := ⟨false, .phrase ⟨{ word := "pear" }, [.ofWildcard .star, { word := "pie" }], by decide⟩⟩
    let odd : Literal := .ofTerm (.exactly "a) OR (+b") true
    let cnf : Cnf := ⟨[[pie, odd]]⟩
    lucene ∈ [plain, lucene] ∧ lucene.write cnf = "(+\"pear pie\" OR -(+\"a) OR (+b\"))" ∧
      lucene.cut (lucene.write cnf).toList = ["pear pie", "a) OR (+b"] := by
  intro pie odd cnf
  have hdialect : lucene ∈ [plain, lucene] := by simp
  have hwords : ∀ literal ∈ cnf.literals, ∀ word ∈ lucene.words literal, '\"' ∉ word.toList := by decide
  exact ⟨hdialect, by decide, (cut_write_iff hdialect cnf).2 hwords⟩

/-- A word with quotes and an operator in it is taken for two words. -/
theorem cut_write_splits_word :
    let odd : Literal := .ofTerm (.exactly "x\" | \"y") false
    (Options.compile {} "\"x\\\" | \\\"y\"").toOption = some ⟨[[odd]]⟩ ∧
      plain.write ⟨[[odd]]⟩ = "(\"x\" | \"y\")" ∧
      plain.cut (plain.write ⟨[[odd]]⟩).toList = ["x", "y"] ∧
      plain.termTexts ⟨[[odd]]⟩ = ["x\" | \"y"] := by
  intro odd
  exact ⟨by decide +kernel, by decide, by decide +kernel, by decide⟩

end Dialect

end Tagging
