import Tagging.Proofs.Escaping
import Tagging.Proofs.Grammar

/-!
# Reading what was rendered

A pattern is rendered in full parentheses, except for adjacency, which is written without any. So whatever
is rendered can be read again, and the tree that is read is the same one, except that adjacency has been
grouped to the left. The words of the tree have to be such that quotes hold them together, and its names
such that they are words of their own.

The lexemes of a rendered pattern are laid down first. They are what the text is cut into, wherever it is
followed by something that does not run on a word, and they derive the regrouped tree.
-/

namespace Tagging

namespace Pattern

/-! ## Grouping to the left -/

/-- Puts `x` in front of a phrase whose parts are grouped to the left. -/
def joinBefore (x : Pattern) : Pattern → Pattern
  | .join l r => .join (joinBefore x l) r
  | y => .join x y

/-- The pattern with all adjacency grouped to the left. -/
def regroup : Pattern → Pattern
  | .and l r => .and l.regroup r.regroup
  | .or l r => .or l.regroup r.regroup
  | .not x => .not x.regroup
  | .join l r => joinBefore l.regroup r.regroup
  | leaf => leaf

/-- Whether the pattern says that two patterns are next to each other. -/
def isJoin : Pattern → Bool
  | .join _ _ => true
  | _ => false

/-- Adjacency is grouped to the left everywhere. -/
def Grouped : Pattern → Prop
  | .and l r | .or l r => l.Grouped ∧ r.Grouped
  | .not x => x.Grouped
  | .join l r => r.isJoin = false ∧ l.Grouped ∧ r.Grouped
  | _ => True

/-- In front of a single operand `y` nothing has to be regrouped. -/
theorem joinBefore_of_isJoin_eq_false {y : Pattern} (h : y.isJoin = false) (x : Pattern) :
    joinBefore x y = .join x y := by
  cases y with
  | join l r => cases h
  | _ => rfl

/-- It makes no difference to the grouping which of three phrases are put together first. -/
theorem joinBefore_joinBefore (x y z : Pattern) :
    joinBefore (joinBefore x y) z = joinBefore x (joinBefore y z) := by
  induction z with
  | join l r ihl _ => simp only [joinBefore, ihl]
  | _ => rfl

theorem isJoin_joinBefore (x y : Pattern) : (joinBefore x y).isJoin = true := by
  cases y <;> rfl

theorem isJoin_regroup (x : Pattern) : x.regroup.isJoin = x.isJoin := by
  cases x with
  | join l r => exact isJoin_joinBefore l.regroup r.regroup
  | _ => rfl

/-- A pattern that is grouped to the left already is not changed by `regroup`. -/
theorem Grouped.regroup_eq {x : Pattern} (h : x.Grouped) : x.regroup = x := by
  induction x with
  | and l r ihl ihr => simp only [regroup, ihl h.1, ihr h.2]
  | or l r ihl ihr => simp only [regroup, ihl h.1, ihr h.2]
  | not x ih => simp only [regroup, ih h]
  | join l r ihl ihr =>
    obtain ⟨hjoin, hl, hr⟩ := h
    rw [regroup, ihl hl, ihr hr, joinBefore_of_isJoin_eq_false hjoin]
  | word | exactWord | lookup | wildcard => rfl

/-- What `joinBefore` puts together of grouped patterns is grouped. -/
theorem Grouped.joinBefore {x y : Pattern} (hx : x.Grouped) (hy : y.Grouped) :
    (joinBefore x y).Grouped := by
  induction y with
  | join l r ihl _ =>
    obtain ⟨hjoin, hl, hr⟩ := hy
    exact ⟨hjoin, ihl hl, hr⟩
  | _ => exact ⟨rfl, hx, hy⟩

/-- Whatever `x` is, `x.regroup` is grouped to the left everywhere. -/
theorem grouped_regroup (x : Pattern) : x.regroup.Grouped := by
  induction x with
  | and l r ihl ihr => exact ⟨ihl, ihr⟩
  | or l r ihl ihr => exact ⟨ihl, ihr⟩
  | not x ih => exact ih
  | join l r ihl ihr => exact ihl.joinBefore ihr
  | word | exactWord | lookup | wildcard => trivial

/-! ## The lexemes of a rendered pattern -/

/-- The lexemes that a pattern is rendered with. -/
def lexemes : Pattern → List Lexeme
  | .and l r => .leftParen :: (l.lexemes ++ .and :: r.lexemes ++ [.rightParen])
  | .or l r => .leftParen :: (l.lexemes ++ .or :: r.lexemes ++ [.rightParen])
  | .not x => .not :: .leftParen :: (x.lexemes ++ [.rightParen])
  | .join l r => l.lexemes ++ .join :: r.lexemes
  | .word w => [.quoted w]
  | .exactWord w => [.exactWord w]
  | .lookup name => [.lookup, .word name]
  | .wildcard w => [.wildcard w]

/-- The lexemes of `x` derive `x.regroup`, alone and as the end of a longer phrase. -/
def DerivesPhrase (x : Pattern) : Prop :=
  Derives (.chain .join) x.lexemes x.regroup ∧
    ∀ before left, Derives (.chain .join) before left →
      Derives (.chain .join) (before ++ .join :: x.lexemes) (joinBefore left x.regroup)

/-- A pattern `x` whose lexemes derive an operand is a phrase, alone and behind another. -/
theorem derivesPhrase_of_operand {x : Pattern} (hjoin : x.isJoin = false)
    (h : Derives .operand x.lexemes x.regroup) : x.DerivesPhrase := by
  refine ⟨.single h, fun before left hleft => ?_⟩
  rw [joinBefore_of_isJoin_eq_false (by rw [isJoin_regroup, hjoin])]
  exact .more hleft h

/-- A phrase `r` behind another one `l` goes on part by part, which is how it comes to be grouped to the left. -/
theorem DerivesPhrase.join {l r : Pattern} (hl : l.DerivesPhrase) (hr : r.DerivesPhrase) :
    (join l r).DerivesPhrase := by
  refine ⟨hr.2 _ _ hl.1, fun before left hleft => ?_⟩
  have hboth := hr.2 _ _ (hl.2 before left hleft)
  rw [joinBefore_joinBefore, List.append_assoc] at hboth
  exact hboth

/-- The lexemes of any pattern derive the regrouped pattern as a phrase. Only adjacency needs both parts of
`DerivesPhrase`: everything else stands in a phrase as it is. -/
theorem derivesPhrase (x : Pattern) : x.DerivesPhrase := by
  induction x with
  | and l r ihl ihr =>
    have hchain : Derives (.chain .and) (l.lexemes ++ .and :: r.lexemes) (.and l.regroup r.regroup) :=
      .more (.single ihl.1) ihr.1
    exact derivesPhrase_of_operand rfl (.parentheses (.single hchain))
  | or l r ihl ihr =>
    have hchain : Derives (.chain .or) (l.lexemes ++ .or :: r.lexemes) (.or l.regroup r.regroup) :=
      .more (.single (.single ihl.1)) (.single ihr.1)
    exact derivesPhrase_of_operand rfl (.parentheses hchain)
  | not x ih => exact derivesPhrase_of_operand rfl (.not (.parentheses (.single (.single ih.1))))
  | join l r ihl ihr => exact ihl.join ihr
  | word w => exact derivesPhrase_of_operand rfl (.quoted w)
  | exactWord w => exact derivesPhrase_of_operand rfl (.exactWord w)
  | lookup name => exact derivesPhrase_of_operand rfl (.lookup name)
  | wildcard w => exact derivesPhrase_of_operand rfl (.wildcard w)

theorem derives_lexemes (x : Pattern) : Derives (.chain .or) x.lexemes x.regroup :=
  .single (.single x.derivesPhrase.1)

end Pattern

/-! ## What a rendered pattern is cut into -/

/-- The `text` can be cut into these `lexemes` up to its end, at whatever position it starts. -/
def Lexes (text : List Char) (lexemes : List Lexeme) : Prop :=
  ∀ position, (Lexed.ofChars position text).lexemes.map Located.lexeme = lexemes ∧
    ∃ stop, (Lexed.ofChars position text).ending = .ok stop

namespace Lexes

open Lexeme (EndsWord ofSign? ofWord next)

variable {c : Char} {text rest : List Char} {lexeme : Lexeme} {lexemes : List Lexeme}

theorem nil : Lexes [] [] := by
  intro position
  rw [Lexed.ofChars]
  exact ⟨rfl, position, rfl⟩

theorem whiteSpace (hc : Unicode.isWhiteSpace c = true) (h : Lexes text lexemes) :
    Lexes (c :: text) lexemes := by
  intro position
  rw [Lexed.ofChars, if_pos hc]
  exact h _

/-- A `lexeme` that `next` takes comes in front of the `lexemes` of the `rest`. -/
theorem cons (hc : Unicode.isWhiteSpace c = false) (hnext : next c text = .ok (lexeme, rest))
    (h : Lexes rest lexemes) : Lexes (c :: text) (lexeme :: lexemes) := by
  intro position
  obtain ⟨tail, rfl, -⟩ := Lexeme.exists_written_of_next hnext
  obtain ⟨hlexemes, stop, hending⟩ := h (position + Text.byteLength (c :: tail))
  rw [Lexed.ofChars_cons (by simp [hc]) hnext]
  exact ⟨by rw [List.map_cons, hlexemes], stop, hending⟩

theorem sign (hc : ofSign? c = some lexeme) (h : Lexes text lexemes) :
    Lexes (c :: text) (lexeme :: lexemes) := by
  have hspace : Unicode.isWhiteSpace c = false := Lexeme.not_isWhiteSpace_of_ofSign? hc
  refine cons hspace ?_ h
  rw [next, hc]

theorem word {word : List Char} (hc : Unicode.isAlphanumeric c = true)
    (hword : ∀ d ∈ word, Unicode.isAlphanumeric d = true) (hrest : EndsWord rest)
    (h : Lexes rest lexemes) :
    Lexes (c :: (word ++ rest)) (ofWord (String.ofList (c :: word)) :: lexemes) :=
  cons (Unicode.not_isWhiteSpace_of_isAlphanumeric hc) (Lexeme.next_word hc hword hrest) h

theorem keyword {sign first : Char} {word : List Char}
    (hspelling : (sign, first :: word, lexeme) ∈ Lexeme.spellings) (hrest : EndsWord rest)
    (h : Lexes rest lexemes) : Lexes (first :: (word ++ rest)) (lexeme :: lexemes) := by
  obtain ⟨halphanumeric, hlexeme⟩ := Lexeme.ofWord_of_mem_spellings hspelling
  obtain ⟨hfirst, hword⟩ := List.forall_mem_cons.1 (List.all_eq_true.1 halphanumeric)
  rw [← hlexeme]
  exact .word hfirst hword hrest h

theorem enclosed {quote : Char} {kind : String → Lexeme} (hkind : (quote, kind) ∈ Lexeme.quotes) {word : String}
    (hquote : quote ∉ word.toList) (hescape : '\\' ∉ word.toList) (h : Lexes rest lexemes) :
    Lexes (quote :: (word.toList ++ quote :: rest)) (kind word :: lexemes) := by
  have hnext := Lexeme.next_escape hkind word rest
  rw [Lexeme.escape_eq_self hquote hescape] at hnext
  exact cons (eq_false_of_ne_true (Lexeme.not_isWhiteSpace_of_mem_quotes hkind)) hnext h

end Lexes

namespace Pattern

/-- The words of the pattern can stand in quotes as they are, and its names are words of their own. -/
def Writable : Pattern → Prop
  | .and l r | .or l r | .join l r => l.Writable ∧ r.Writable
  | .not x => x.Writable
  | .word w => '\'' ∉ w.toList ∧ '\\' ∉ w.toList
  | .exactWord w => '\"' ∉ w.toList ∧ '\\' ∉ w.toList
  | .lookup name => name ≠ "" ∧ (∀ c ∈ name.toList, Unicode.isAlphanumeric c = true) ∧
      name ∉ ["AND", "OR", "NOT", "LOOKUP"]
  | .wildcard _ => True

theorem ofWord_of_notMem_keywords {name : String} (h : name ∉ ["AND", "OR", "NOT", "LOOKUP"]) :
    Lexeme.ofWord name = .word name := by
  simp only [List.mem_cons, List.not_mem_nil, or_false, not_or] at h
  simp only [Lexeme.ofWord, h, if_false]

/-- A name that is a word of its own is read as a lookup behind its sign. -/
theorem lexes_lookup {name : String} (h : (lookup name).Writable) {rest : List Char}
    {lexemes : List Lexeme} (hrest : Lexeme.EndsWord rest) (hlexes : Lexes rest lexemes) :
    Lexes ('#' :: (name.toList ++ rest)) (.lookup :: .word name :: lexemes) := by
  obtain ⟨hne, halphanumeric, hkeyword⟩ := h
  refine .sign rfl ?_
  cases hname : name.toList with
  | nil => exact absurd (String.toList_eq_nil_iff.1 hname) hne
  | cons c word =>
    rw [hname] at halphanumeric
    obtain ⟨hc, hword⟩ := List.forall_mem_cons.1 halphanumeric
    have hlexeme := Lexes.word hc hword hrest hlexes
    rw [← hname, String.ofList_toList, ofWord_of_notMem_keywords hkeyword] at hlexeme
    exact hlexeme

/-- Whatever `rest` follows what `x` is rendered as, unless it runs on a word, the rendered text is cut into the
lexemes of `x`. -/
def LexesRendered (x : Pattern) : Prop :=
  ∀ rest lexemes, Lexeme.EndsWord rest → Lexes rest lexemes →
    Lexes (x.render.toList ++ rest) (x.lexemes ++ lexemes)

section Parts

variable {l r x : Pattern} {rest : List Char} {lexemes : List Lexeme}

/-- A closing parenthesis may follow a rendered pattern `x`, since it runs on no word. -/
theorem lexes_closed (hx : x.LexesRendered) (h : Lexes rest lexemes) :
    Lexes (x.render.toList ++ ')' :: rest) (x.lexemes ++ .rightParen :: lexemes) :=
  hx _ _ (Lexeme.endsWord_of_ofSign? rfl) (.sign rfl h)

/-- Two patterns `l` and `r` in parentheses with a keyword between them are cut into their lexemes and that of the
keyword. -/
theorem lexes_infix (hl : l.LexesRendered) (hr : r.LexesRendered) {sign first : Char}
    {word : List Char} {lexeme : Lexeme}
    (hspelling : (sign, first :: word, lexeme) ∈ Lexeme.spellings) (h : Lexes rest lexemes) :
    Lexes ('(' :: (l.render.toList ++ ' ' :: first :: (word ++ ' ' :: (r.render.toList ++ ')' :: rest))))
      (.leftParen :: (l.lexemes ++ lexeme :: (r.lexemes ++ .rightParen :: lexemes))) := by
  have hspace : Unicode.isWhiteSpace ' ' = true := by decide
  have hends : ∀ text, Lexeme.EndsWord (' ' :: text) :=
    fun text => Lexeme.endsWord_cons (by decide +kernel) text
  have hright := Lexes.whiteSpace hspace (lexes_closed hr h)
  have hkeyword := Lexes.whiteSpace hspace (Lexes.keyword hspelling (hends _) hright)
  exact .sign rfl (hl _ _ (hends _) hkeyword)

theorem lexes_not (hx : x.LexesRendered) (h : Lexes rest lexemes) :
    Lexes ('N' :: (['O', 'T'] ++ '(' :: (x.render.toList ++ ')' :: rest)))
      (.not :: .leftParen :: (x.lexemes ++ .rightParen :: lexemes)) := by
  have hopen : Lexes ('(' :: (x.render.toList ++ ')' :: rest))
      (.leftParen :: (x.lexemes ++ .rightParen :: lexemes)) := .sign rfl (lexes_closed hx h)
  have hspelling : ('-', ['N', 'O', 'T'], .not) ∈ Lexeme.spellings := by decide
  exact .keyword hspelling (Lexeme.endsWord_of_ofSign? rfl) hopen

/-- Two patterns `l` and `r` with the sign of adjacency between them are cut into the lexemes of both. -/
theorem lexes_join (hl : l.LexesRendered) (hr : r.LexesRendered) (hrest : Lexeme.EndsWord rest)
    (h : Lexes rest lexemes) :
    Lexes (l.render.toList ++ '_' :: (r.render.toList ++ rest))
      (l.lexemes ++ .join :: (r.lexemes ++ lexemes)) :=
  hl _ _ (Lexeme.endsWord_of_ofSign? rfl) (.sign rfl (hr _ _ hrest h))

end Parts

/-- The text that `x` is rendered as is cut into `x.lexemes` if `x` is `Writable`. By induction on `x`, with what
follows left arbitrary, since each part is followed by whatever encloses it. -/
theorem lexes_render {x : Pattern} (h : x.Writable) : x.LexesRendered := by
  induction x with
  | and l r ihl ihr =>
    intro rest lexemes hrest hlexes
    have hspelling : ('&', ['A', 'N', 'D'], .and) ∈ Lexeme.spellings := by decide
    simpa [render, Pattern.lexemes] using lexes_infix (ihl h.1) (ihr h.2) hspelling hlexes
  | or l r ihl ihr =>
    intro rest lexemes hrest hlexes
    have hspelling : ('|', ['O', 'R'], .or) ∈ Lexeme.spellings := by decide
    simpa [render, Pattern.lexemes] using lexes_infix (ihl h.1) (ihr h.2) hspelling hlexes
  | not x ih =>
    intro rest lexemes hrest hlexes
    simpa [render, Pattern.lexemes] using lexes_not (ih h) hlexes
  | join l r ihl ihr =>
    intro rest lexemes hrest hlexes
    simpa [render, Pattern.lexemes] using lexes_join (ihl h.1) (ihr h.2) hrest hlexes
  | word w =>
    intro rest lexemes hrest hlexes
    simpa [render, Pattern.lexemes] using
      Lexes.enclosed Lexeme.mem_quotes.1 h.1 h.2 hlexes
  | exactWord w =>
    intro rest lexemes hrest hlexes
    simpa [render, Pattern.lexemes] using
      Lexes.enclosed Lexeme.mem_quotes.2 h.1 h.2 hlexes
  | lookup name =>
    intro rest lexemes hrest hlexes
    simpa [render, Pattern.lexemes] using lexes_lookup h hrest hlexes
  | wildcard w =>
    intro rest lexemes hrest hlexes
    cases w with
    | one => exact .sign (c := '?') rfl hlexes
    | plus => exact .sign (c := '+') rfl hlexes
    | star => exact .sign (c := '*') rfl hlexes

/-! ## Reading it again -/

/-- What `joinBefore` regroups is rendered as the two patterns with the sign of adjacency between them. -/
theorem render_joinBefore (x y : Pattern) :
    (joinBefore x y).render = x.render ++ "_" ++ y.render := by
  induction y with
  | join l r ihl _ => simp only [joinBefore, render, ihl, String.append_assoc]
  | _ => rfl

/-- Grouping to the left does not show in what `x` is rendered as. -/
theorem render_regroup (x : Pattern) : x.regroup.render = x.render := by
  induction x with
  | and l r ihl ihr | or l r ihl ihr => simp only [regroup, render, ihl, ihr]
  | not x ih => simp only [regroup, render, ih]
  | join l r ihl ihr => rw [regroup, render_joinBefore, ihl, ihr, render]
  | word | exactWord | lookup | wildcard => rfl

/-- A pattern `x` that is `Writable` is read again from what it is rendered as, with adjacency grouped to the left,
which is the one thing that parentheses do not show. If `x` is `Grouped` like that, it is read again as it was. -/
theorem ofString_render {x : Pattern} (h : x.Writable) :
    ofString x.render = .ok x.regroup ∧
      x.regroup.Grouped ∧ x.regroup.render = x.render ∧ (x.Grouped → ofString x.render = .ok x) := by
  have hread : ofString x.render = .ok x.regroup := by
    have hlexes := lexes_render h [] [] (by simp [Lexeme.EndsWord]) .nil 0
    rw [List.append_nil, List.append_nil] at hlexes
    obtain ⟨hlexemes, hending⟩ := hlexes
    refine Lexed.toPattern_eq_ok_iff.2 ⟨hending, ?_⟩
    rw [Lexed.ofString, hlexemes]
    exact x.derives_lexemes
  refine ⟨hread, x.grouped_regroup, x.render_regroup, fun hgrouped => ?_⟩
  rw [hread, hgrouped.regroup_eq]

/-- A phrase that is grouped to the right, with an operator, a quote and white space among its words. -/
theorem ofString_render_right_grouped :
    let x : Pattern := .join (.word "a AND (b") (.join (.not (.lookup "fruit")) (.exactWord "it's"))
    x.Writable ∧ x.render = "'a AND (b'_NOT(#fruit)_\"it's\"" ∧ ofString x.render =
      .ok (.join (.join (.word "a AND (b") (.not (.lookup "fruit"))) (.exactWord "it's")) := by
  intro x
  have hname : ∀ c ∈ "fruit".toList, Unicode.isAlphanumeric c = true := by
    rw [← List.all_eq_true]
    decide +kernel
  have hwritable : x.Writable :=
    ⟨⟨by decide, by decide⟩, ⟨by decide, hname, by decide⟩, by decide, by decide⟩
  exact ⟨hwritable, by decide, (ofString_render hwritable).1⟩

end Pattern

end Tagging
