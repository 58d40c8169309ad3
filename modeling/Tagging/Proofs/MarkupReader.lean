import Mathlib.Data.List.Basic
import Mathlib.Tactic.SplitIfs
import Tagging.Highlight

/-!
# Reading markup back

A reader for highlighted texts. It knows the two tags and how the characters of markup are escaped, and it
refuses such a character wherever it stands outside a tag. Whatever parts are written, the reader finds the
same parts again, so neither the text nor a label can act as markup.
-/

namespace Tagging.Markup

/-! ## The reader -/

/-- The escaped forms of the characters of markup. -/
def entities : List (List Char × Char) :=
  [("&amp;".toList, '&'), ("&lt;".toList, '<'), ("&gt;".toList, '>'), ("&quot;".toList, '"')]

/-- Reads a character, which may be escaped and has to be if it is one of markup. -/
def readChar? : List Char → Option (Char × List Char)
  | [] => none
  | c :: text =>
    if c ∈ entities.map Prod.snd then
      entities.findSome? fun (entity, d) => ((c :: text).dropPrefix? entity).map fun rest => (d, rest)
    else some (c, text)

theorem length_of_dropPrefix?_eq_some {text front rest : List Char} (hne : front ≠ [])
    (h : text.dropPrefix? front = some rest) : rest.length < text.length := by
  obtain ⟨front', rfl, hfront⟩ := List.dropPrefix?_eq_some_iff.1 h
  obtain rfl := eq_of_beq hfront
  have := List.length_pos_iff.2 hne
  rw [List.length_append]
  omega

theorem length_of_readChar?_eq_some {text rest : List Char} {c : Char}
    (h : readChar? text = some (c, rest)) : rest.length < text.length := by
  cases text with
  | nil => cases h
  | cons d text =>
    unfold readChar? at h
    dsimp only at h
    split_ifs at h
    · obtain ⟨⟨entity, e⟩, hentity, h⟩ := List.exists_of_findSome?_eq_some h
      obtain ⟨rest', hrest, ⟨⟩⟩ := Option.map_eq_some_iff.1 h
      have hne : ∀ entity ∈ entities, entity.1 ≠ [] := by decide
      exact length_of_dropPrefix?_eq_some (hne _ hentity) hrest
    · cases h
      exact Nat.lt_succ_self _

/-- Reads a label and the quote behind it. -/
def readLabel? (text : List Char) : Option (List Char × List Char) :=
  match text.dropPrefix? ['"'] with
  | some rest => some ([], rest)
  | none =>
    match _h : readChar? text with
    | none => none
    | some (c, rest) => (readLabel? rest).map fun (label, rest) => (c :: label, rest)
termination_by text.length
decreasing_by exact length_of_readChar?_eq_some _h

/-- Less text is left behind a label, since at least its quote has been read. -/
theorem length_of_readLabel?_eq_some {text : List Char} : ∀ {label rest : List Char},
    readLabel? text = some (label, rest) → rest.length < text.length := by
  fun_induction readLabel? text with
  | case1 text rest' hquote =>
    intro label rest h
    cases h
    exact length_of_dropPrefix?_eq_some (List.cons_ne_nil _ _) hquote
  | case2 =>
    intro label rest h
    cases h
  | case3 text _ c rest' hchar ih =>
    intro label rest h
    obtain ⟨⟨tail, rest''⟩, htail, ⟨⟩⟩ := Option.map_eq_some_iff.1 h
    exact Nat.lt_trans (ih htail) (length_of_readChar?_eq_some hchar)

/-- Reads the tag that closes an element. -/
def readClosing? (text : List Char) : Option (Markup × List Char) :=
  (text.dropPrefix? "</span>".toList).map fun rest => (closing, rest)

/-- Reads the tag that opens an element. -/
def readOpening? (text : List Char) : Option (Markup × List Char) := do
  let rest ← text.dropPrefix? "<span class=\"".toList
  let (label, rest) ← readLabel? rest
  let rest ← rest.dropPrefix? ['>']
  return (opening (String.ofList label), rest)

/-- Reads a tag or a character. -/
def readPart? (text : List Char) : Option (Markup × List Char) :=
  (readClosing? text).or <| (readOpening? text).or <|
    (readChar? text).map fun (c, rest) => (character c, rest)

theorem length_of_readPart?_eq_some {text rest : List Char} {part : Markup}
    (h : readPart? text = some (part, rest)) : rest.length < text.length := by
  rcases Option.or_eq_some_iff.1 h with h | ⟨-, h⟩
  · obtain ⟨rest', hrest, ⟨⟩⟩ := Option.map_eq_some_iff.1 h
    exact length_of_dropPrefix?_eq_some (by decide) hrest
  rcases Option.or_eq_some_iff.1 h with h | ⟨-, h⟩
  · obtain ⟨behindTag, htag, h⟩ := Option.bind_eq_some_iff.1 h
    obtain ⟨⟨label, behindLabel⟩, hlabel, h⟩ := Option.bind_eq_some_iff.1 h
    obtain ⟨rest', hrest, ⟨⟩⟩ := Option.bind_eq_some_iff.1 h
    have htag := length_of_dropPrefix?_eq_some (by decide) htag
    have hlabel := length_of_readLabel?_eq_some hlabel
    have hrest := length_of_dropPrefix?_eq_some (by decide) hrest
    omega
  · obtain ⟨⟨c, rest'⟩, hchar, ⟨⟩⟩ := Option.map_eq_some_iff.1 h
    exact length_of_readChar?_eq_some hchar

/-- Reads a highlighted text, unless some markup in it is none. -/
def read? : List Char → Option (List Markup)
  | [] => some []
  | c :: text =>
    match _h : readPart? (c :: text) with
    | none => none
    | some (part, rest) => (read? rest).map (part :: ·)
termination_by text => text.length
decreasing_by exact length_of_readPart?_eq_some _h

/-! ## What is written is read -/

/-- The reader takes an escaped character `c` for `c`, whatever `rest` follows. -/
theorem readChar?_escape (c : Char) (rest : List Char) :
    readChar? ((escape c).toList ++ rest) = some (c, rest) := by
  unfold escape
  split_ifs with hand hlt hgt hquote
  · simp [readChar?, entities, List.dropPrefix?, hand]
  · simp [readChar?, entities, List.dropPrefix?, hlt]
  · simp [readChar?, entities, List.dropPrefix?, hgt]
  · simp [readChar?, entities, List.dropPrefix?, hquote]
  · rw [String.toList_singleton, List.singleton_append, readChar?, if_neg]
    simp [entities, hand, hlt, hgt, hquote]

/-- An escaped character `c` looks like the start of no tag, nor like the end of a label. -/
theorem exists_escape_eq_cons (c : Char) :
    ∃ d tail, (escape c).toList = d :: tail ∧ d ≠ '<' ∧ d ≠ '"' := by
  unfold escape
  split_ifs with hand hlt hgt hquote
  · exact ⟨'&', "amp;".toList, rfl, by decide, by decide⟩
  · exact ⟨'&', "lt;".toList, rfl, by decide, by decide⟩
  · exact ⟨'&', "gt;".toList, rfl, by decide, by decide⟩
  · exact ⟨'&', "quot;".toList, rfl, by decide, by decide⟩
  · exact ⟨c, [], String.toList_singleton c, hlt, hquote⟩

theorem dropPrefix?_append (front rest : List Char) : (front ++ rest).dropPrefix? front = some rest :=
  List.dropPrefix?_append_of_beq rest (beq_self_eq_true front)

theorem dropPrefix?_cons_of_ne {c d : Char} (h : c ≠ d) (text front : List Char) :
    (c :: text).dropPrefix? (d :: front) = none := by
  rw [List.dropPrefix?, if_neg (by simpa using h)]

theorem readLabel?_quote (rest : List Char) : readLabel? ('"' :: rest) = some ([], rest) := by
  rw [readLabel?, show '"' :: rest = ['"'] ++ rest from rfl, dropPrefix?_append]

/-- One escaped character `c` of a label is read, and the label goes on behind it. -/
theorem readLabel?_escape (c : Char) (text : List Char) : readLabel? ((escape c).toList ++ text) =
    (readLabel? text).map fun (label, rest) => (c :: label, rest) := by
  have hquote : ((escape c).toList ++ text).dropPrefix? ['"'] = none := by
    obtain ⟨d, tail, hescape, -, hne⟩ := exists_escape_eq_cons c
    rw [hescape]
    exact dropPrefix?_cons_of_ne hne _ _
  rw [readLabel?, hquote]
  dsimp only
  split
  · next hchar =>
    rw [readChar?_escape] at hchar
    cases hchar
  · next d rest hchar =>
    rw [readChar?_escape] at hchar
    cases hchar
    rfl

/-- A `label` that is escaped is read up to the quote behind it. -/
theorem readLabel?_escapeText (label : String) (rest : List Char) :
    readLabel? ((escapeText label).toList ++ '"' :: rest) = some (label.toList, rest) := by
  unfold escapeText
  rw [String.toList_join, List.flatMap_map]
  induction label.toList with
  | nil =>
    exact readLabel?_quote rest
  | cons c label ih =>
    rw [List.flatMap_cons, List.append_assoc, readLabel?_escape, ih]
    rfl

theorem renderPart_opening (label : String) :
    renderPart (opening label) = "<span class=\"" ++ escapeText label ++ "\">" := rfl

theorem readClosing?_closing (rest : List Char) :
    readClosing? ((renderPart closing).toList ++ rest) = some (closing, rest) := by
  unfold readClosing?
  rw [show renderPart closing = "</span>" from rfl, dropPrefix?_append]
  rfl

theorem readOpening?_opening (label : String) (rest : List Char) :
    readOpening? ((renderPart (opening label)).toList ++ rest) = some (opening label, rest) := by
  have htag : (renderPart (opening label)).toList ++ rest =
      "<span class=\"".toList ++ ((escapeText label).toList ++ '"' :: (['>'] ++ rest)) := by
    simp only [renderPart_opening, String.toList_append, List.append_assoc]
    rfl
  unfold readOpening?
  rw [htag, dropPrefix?_append, Option.bind_eq_bind, Option.bind_some, readLabel?_escapeText]
  dsimp only [Option.bind_eq_bind, Option.bind_some]
  rw [dropPrefix?_append, Option.bind_some, String.ofList_toList]
  rfl

/-- Whatever `rest` follows, a `part` is read as what was rendered. Two characters tell the tags and the characters
apart: only tags start with `<`, and the second character tells the two tags from each other. -/
theorem readPart?_renderPart (part : Markup) (rest : List Char) :
    readPart? ((renderPart part).toList ++ rest) = some (part, rest) := by
  unfold readPart?
  cases part with
  | closing => rw [readClosing?_closing, Option.some_or]
  | opening label =>
    have hclosing : readClosing? ((renderPart (.opening label)).toList ++ rest) = none := by
      simp [readClosing?, renderPart_opening, List.dropPrefix?]
    rw [hclosing, readOpening?_opening, Option.none_or, Option.some_or]
  | character c =>
    obtain ⟨d, tail, hescape, hne, -⟩ := exists_escape_eq_cons c
    have hclosing : readClosing? ((escape c).toList ++ rest) = none := by
      rw [readClosing?, hescape]
      exact congrArg _ (dropPrefix?_cons_of_ne hne _ "/span>".toList)
    have hopening : readOpening? ((escape c).toList ++ rest) = none := by
      rw [readOpening?, hescape]
      exact congrArg (Option.bind · _) (dropPrefix?_cons_of_ne hne _ "span class=\"".toList)
    rw [show renderPart (.character c) = escape c from rfl, hclosing, hopening, Option.none_or,
      Option.none_or, readChar?_escape]
    rfl

/-- Where a `part` can be read, it comes first, and `rest` is read on. -/
theorem read?_of_readPart? {text rest : List Char} {part : Markup}
    (h : readPart? text = some (part, rest)) : read? text = (read? rest).map (part :: ·) := by
  cases text with
  | nil => exact absurd (length_of_readPart?_eq_some h) (Nat.not_lt_zero _)
  | cons c text =>
    rw [read?]
    split
    · next hpart =>
      rw [h] at hpart
      cases hpart
    · next part' rest' hpart =>
      rw [h] at hpart
      cases hpart
      rfl

/-- Whatever `parts` are rendered, the reader finds the same `parts` again. -/
theorem read?_render (parts : List Markup) : read? (render parts).toList = some parts := by
  unfold render
  rw [String.toList_join, List.flatMap_map]
  induction parts with
  | nil => rw [List.flatMap_nil, read?]
  | cons part parts ih =>
    rw [List.flatMap_cons, read?_of_readPart? (readPart?_renderPart part _), ih]
    rfl

end Tagging.Markup
