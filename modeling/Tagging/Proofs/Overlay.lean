import Mathlib.Data.List.Perm.Basic
import Tagging.Proofs.Nesting
import Tagging.Proofs.Place
import Tagging.Proofs.MarkupReader

/-!
# Highlighting lays elements over the text

What is open after the turn in front of a character are exactly the matches that cover the character. Before
the turn these are the matches that cover the byte in front of it: since matches start and stop at places of
the text, nothing changes inside a character. A turn closes from the inside and opens to the outside of what
comes next, so the parts stay nested, and what it opens stays open for at least one character.
-/

namespace Tagging.Markup

variable {text : List Char} {shown opened : List Match} {offset : Nat} {labels : List String}
  {parts : List Markup} {chars : List (Char × List String)}

/-- Whether byte `n` is covered by the match `found`. -/
def covers (n : Nat) (found : Match) : Bool :=
  decide (found.bytes.start ≤ n) && decide (n < found.bytes.stop)

/-- Whether there is a byte in front of byte `n` and the match `found` covers it. -/
def coversBefore (n : Nat) (found : Match) : Bool :=
  decide (found.bytes.start < n) && decide (n ≤ found.bytes.stop)

/-- The labels of what is `opened`, innermost first. -/
def labelsOf (opened : List Match) : List String := (opened.map Match.label).reverse

theorem labelsOf_append (outer inner : List Match) :
    labelsOf (outer ++ inner) = labelsOf inner ++ labelsOf outer := by
  unfold labelsOf
  rw [List.map_append, List.reverse_append]

theorem labelsOf_perm {found : List Match} (h : opened.Perm found) :
    (labelsOf opened).Perm (found.map Match.label) :=
  (List.reverse_perm _).trans (h.map Match.label)

theorem labelsOf_cons (found : Match) (opened : List Match) :
    labelsOf (found :: opened) ++ labels = labelsOf opened ++ found.label :: labels := by
  simp [labelsOf]

theorem length_labelsOf (opened : List Match) : (labelsOf opened).length = opened.length := by
  simp [labelsOf]

/-! ## A turn keeps the parts nested -/

/-- Closing tags for the elements of `closed` may stand in front of `parts`, which go on inside of `labels`. -/
theorem Continues.closings (h : Continues labels parts chars) : ∀ closed : List String,
    Continues (closed ++ labels) (List.replicate closed.length .closing ++ parts) chars
  | [] => h
  | _ :: closed => (h.closings closed).closing

/-- The elements of `starting` may be opened in front of `parts`, outermost first, unless they would be closed at
once. -/
theorem Continues.openings {starting : List Match} : ∀ {labels : List String},
    Continues (labelsOf starting ++ labels) parts chars → parts.head? ≠ some .closing →
      Continues labels (starting.map (fun found => .opening found.label) ++ parts) chars := by
  induction starting with
  | nil => exact fun h _ => h
  | cons found starting ih =>
    intro labels h hparts
    rw [labelsOf_cons] at h
    refine (ih h hparts).opening ?_
    cases starting with
    | nil => exact hparts
    | cons next starting => exact fun h => nomatch h

/-- A turn keeps the parts nested: if `parts` go on inside of what is open after it, then what it writes and `parts`
go on inside of what is open before it. -/
theorem Continues.turn (h : Continues (labelsOf (turn shown offset opened).2) parts chars)
    (hparts : parts.head? ≠ some .closing) :
    Continues (labelsOf opened) ((turn shown offset opened).1 ++ parts) chars := by
  unfold Markup.turn closeAt openAt at h ⊢
  dsimp only at h ⊢
  generalize (shown.filter (·.bytes.start == offset)).mergeSort opensBefore = starting at h ⊢
  generalize hclosed : opened.dropWhile (·.bytes.stop != offset) = closed at h ⊢
  have hopened : opened.takeWhile (·.bytes.stop != offset) ++ closed = opened := by
    rw [← hclosed, List.takeWhile_append_dropWhile]
  rw [List.append_assoc, labelsOf_append] at h
  have hclosings := (h.openings hparts).closings (labelsOf closed)
  rw [← labelsOf_append, hopened, length_labelsOf, List.map_append] at hclosings
  rw [List.map_const']
  simpa using hclosings

/-! ## What is open after a turn -/

/-- What is closed at byte `offset` and does not end there is opened again, so only what ends there is gone. -/
theorem closeAt_opened (offset : Nat) (opened : List Match) :
    (closeAt offset opened).2 = opened.filter (·.bytes.stop != offset) := by
  unfold closeAt
  dsimp only
  have houter : (opened.takeWhile (·.bytes.stop != offset)).filter (·.bytes.stop != offset) =
      opened.takeWhile (·.bytes.stop != offset) :=
    List.filter_eq_self.2 fun found hfound => List.all_eq_true.1 List.all_takeWhile found hfound
  rw [← houter, ← List.filter_append, List.takeWhile_append_dropWhile]

/-- If before a turn that is `opened` which covers the byte before byte `offset`, then after it that is open which
covers the byte behind. This is the invariant of the turns. -/
theorem turn_opened_perm (hshown : ∀ found ∈ shown, found.bytes.start < found.bytes.stop)
    (h : opened.Perm (shown.filter (coversBefore offset))) :
    (turn shown offset opened).2.Perm (shown.filter (covers offset)) := by
  have hclosed : (closeAt offset opened).2.Perm
      ((shown.filter (covers offset)).filter (·.bytes.start != offset)) := by
    rw [closeAt_opened]
    refine (h.filter _).trans (.of_eq ?_)
    rw [List.filter_filter, List.filter_filter]
    refine List.filter_congr fun found hfound => ?_
    have := hshown found hfound
    rw [Bool.eq_iff_iff]
    simp only [covers, coversBefore, Bool.and_eq_true, decide_eq_true_iff, bne_iff_ne]
    omega
  have hstarting : ((shown.filter (·.bytes.start == offset)).mergeSort opensBefore).Perm
      ((shown.filter (covers offset)).filter (·.bytes.start == offset)) := by
    refine (List.mergeSort_perm _ _).trans (.of_eq ?_)
    rw [List.filter_filter]
    refine List.filter_congr fun found hfound => ?_
    have := hshown found hfound
    rw [Bool.eq_iff_iff]
    simp only [covers, Bool.and_eq_true, decide_eq_true_iff, beq_iff_eq]
    omega
  show ((closeAt offset opened).2 ++ _).Perm _
  refine (hclosed.append hstarting).trans (List.perm_append_comm.trans ?_)
  exact List.filter_append_perm (·.bytes.start == offset) (shown.filter (covers offset))

/-! ## The whole text -/

/-- A match is shown exactly if it has at least one byte and starts and stops at places of `text`. -/
theorem isShown_eq_true_iff {found : Match} : isShown text found = true ↔
    found.bytes.start < found.bytes.stop ∧ Text.IsPlace text found.bytes.start ∧
      Text.IsPlace text found.bytes.stop := by
  rw [isShown, Bool.and_eq_true, decide_eq_true_iff, Text.isSome_slice?_iff]
  constructor
  · rintro ⟨hlt, -, hplaces⟩
    exact ⟨hlt, hplaces⟩
  · rintro ⟨hlt, hplaces⟩
    exact ⟨hlt, Nat.le_of_lt hlt, hplaces⟩

/-- No match that is shown starts or stops inside the character `c`, so it covers the first byte of `c` exactly if
it covers the last. -/
theorem coversBefore_eq_covers {before after : List Char} {c : Char} {found : Match}
    (h : isShown (before ++ c :: after) found = true) :
    coversBefore (Text.byteLength before + c.utf8Size) found = covers (Text.byteLength before) found := by
  obtain ⟨-, hstart, hstop⟩ := isShown_eq_true_iff.1 h
  have hstart := hstart.le_or_le
  have hstop := hstop.le_or_le
  have hsize := c.utf8Size_pos
  rw [Bool.eq_iff_iff]
  simp only [covers, coversBefore, Bool.and_eq_true, decide_eq_true_iff]
  omega

/-- No match that is shown covers anything behind the end of `text`. -/
theorem filter_covers_byteLength (hshown : ∀ found ∈ shown, isShown text found = true) :
    shown.filter (covers (Text.byteLength text)) = [] := by
  refine List.filter_eq_nil_iff.2 fun found hfound => ?_
  obtain ⟨-, -, hstop⟩ := isShown_eq_true_iff.1 (hshown found hfound)
  have hle := hstop.le_byteLength
  simp only [covers, Bool.and_eq_true, decide_eq_true_iff]
  omega

/-- From one character to the next, what is open covers the byte in front: the invariant holds again behind the
character `c`. -/
theorem turn_opened_perm_next {before rest : List Char} {c : Char}
    (hshown : ∀ found ∈ shown, isShown text found = true) (htext : text = before ++ c :: rest)
    (h : opened.Perm (shown.filter (coversBefore (Text.byteLength before)))) :
    (turn shown (Text.byteLength before) opened).2.Perm
      (shown.filter (coversBefore (Text.byteLength (before ++ [c])))) := by
  have hperm := turn_opened_perm (fun found hfound => (isShown_eq_true_iff.1 (hshown found hfound)).1) h
  refine hperm.trans (.of_eq (List.filter_congr fun found hfound => ?_))
  have hfound := hshown found hfound
  rw [htext] at hfound
  simpa using (coversBefore_eq_covers hfound).symm

/-- After the turn at the end of `text` nothing is open any more. -/
theorem turn_opened_eq_nil (hshown : ∀ found ∈ shown, isShown text found = true)
    (h : opened.Perm (shown.filter (coversBefore (Text.byteLength text)))) :
    (turn shown (Text.byteLength text) opened).2 = [] := by
  have hperm := turn_opened_perm (fun found hfound => (isShown_eq_true_iff.1 (hshown found hfound)).1) h
  rwa [filter_covers_byteLength hshown, List.perm_nil] at hperm

/-- From any place of `text` on, what `overlay` writes goes on inside of what is `opened` there, has the characters
of `rest`, and each of these stands inside of what covers it. By induction on `rest`, with the invariant that what
is `opened` covers the byte in front. -/
theorem continues_overlay (hshown : ∀ found ∈ shown, isShown text found = true) (rest : List Char) :
    ∀ {before : List Char} {opened : List Match}, text = before ++ rest →
      opened.Perm (shown.filter (coversBefore (Text.byteLength before))) →
      ∃ chars, Continues (labelsOf opened) (overlay shown (Text.byteLength before) opened rest) chars ∧
        chars.map Prod.fst = rest ∧
        ∀ front c after, rest = front ++ c :: after → ∃ labels, chars[front.length]? = some (c, labels) ∧
          labels.Perm ((shown.filter (covers (Text.byteLength (before ++ front)))).map Match.label) := by
  induction rest with
  | nil =>
    intro before opened htext hopened
    rw [List.append_nil] at htext
    subst htext
    refine ⟨[], ?_, rfl, fun front c after h => absurd h (by simp)⟩
    have hend : Continues (labelsOf (turn shown (Text.byteLength text) opened).2) [] [] := by
      rw [turn_opened_eq_nil hshown hopened]
      exact .nil []
    have hturn := hend.turn (fun h => nomatch h)
    rwa [List.append_nil] at hturn
  | cons c rest ih =>
    intro before opened htext hopened
    have hnext := turn_opened_perm_next hshown htext hopened
    obtain ⟨chars, hcontinues, hchars, haround⟩ := ih (by rw [htext, List.append_assoc]; rfl) hnext
    rw [Text.byteLength_append] at hcontinues
    refine ⟨(c, labelsOf (turn shown (Text.byteLength before) opened).2) :: chars, ?_, ?_, ?_⟩
    · exact (hcontinues.character c).turn (fun h => nomatch h)
    · rw [List.map_cons, hchars]
    · intro front d after h
      cases front with
      | nil =>
        obtain ⟨rfl, rfl⟩ := List.cons.inj h
        refine ⟨_, rfl, ?_⟩
        rw [List.append_nil]
        refine labelsOf_perm (turn_opened_perm (fun found hfound => ?_) hopened)
        exact (isShown_eq_true_iff.1 (hshown found hfound)).1
      | cons e front =>
        obtain ⟨rfl, rfl⟩ := List.cons.inj h
        obtain ⟨labels, hget, hlabels⟩ := haround front d after rfl
        rw [List.append_assoc] at hlabels
        exact ⟨labels, hget, hlabels⟩

/-- A highlighted `text` can be read back. It consists of the characters of `text` in nested elements, none of them
empty, and the elements around a character are those of the matches `found` that are shown and cover it. -/
theorem highlight_lays_over (text : String) (found : Catalog Match) :
    ∃ parts chars, read? (highlight text found).toList = some parts ∧
      characters parts = text.toList ∧ Nested [] parts chars ∧
      ∀ before c after, text.toList = before ++ c :: after →
        ∃ labels, chars[before.length]? = some (c, labels) ∧
          labels.Perm ((found.values.filter fun shown =>
            covers (Text.byteLength before) shown && isShown text.toList shown).map Match.label) := by
  have hshown : ∀ shown ∈ found.values.filter (isShown text.toList), isShown text.toList shown = true :=
    fun shown h => (List.mem_filter.1 h).2
  have hopened : List.Perm [] ((found.values.filter (isShown text.toList)).filter
      (coversBefore (Text.byteLength []))) := by
    simp [coversBefore]
  obtain ⟨chars, hcontinues, hchars, haround⟩ :=
    continues_overlay hshown text.toList (List.nil_append _).symm hopened
  have hnested : Nested [] (ofMatches text.toList found.values) chars := hcontinues
  refine ⟨_, chars, read?_render _, ?_, hnested, ?_⟩
  · rw [← hnested.map_fst_eq, hchars]
  · intro before c after h
    obtain ⟨labels, hget, hlabels⟩ := haround before c after h
    rw [List.filter_filter, List.nil_append] at hlabels
    exact ⟨labels, hget, hlabels⟩

/-- Two matches cross in a text of a character of two bytes and one of markup; two more are not shown. The
second character has both elements around it. -/
theorem highlight_lays_over_crossing :
    let text := "aé<b"
    let found : Catalog Match := ⟨[("no", ⟨"no", ⟨0, 0⟩, ⟨2, 4⟩⟩), ("un", ⟨"un", ⟨0, 0⟩, ⟨4, 1⟩⟩),
      ("x", ⟨"x", ⟨0, 0⟩, ⟨0, 3⟩⟩), ("y", ⟨"y", ⟨0, 0⟩, ⟨1, 5⟩⟩)]⟩
    text.toList = ['a'] ++ 'é' :: ['<', 'b'] ∧ ∃ parts chars,
      read? (highlight text found).toList = some parts ∧ characters parts = text.toList ∧
        Nested [] parts chars ∧ ∃ labels, chars[1]? = some ('é', labels) ∧ labels.Perm ["x", "y"] := by
  intro text found
  have htext : text.toList = ['a'] ++ 'é' :: ['<', 'b'] := by decide
  obtain ⟨parts, chars, hread, hchars, hnested, haround⟩ := highlight_lays_over text found
  obtain ⟨labels, hget, hlabels⟩ := haround ['a'] 'é' ['<', 'b'] htext
  have hcovering : (found.values.filter fun shown =>
      covers (Text.byteLength ['a']) shown && isShown text.toList shown).map Match.label =
        ["x", "y"] := by decide
  rw [hcovering] at hlabels
  exact ⟨htext, parts, chars, hread, hchars, hnested, labels, hget, hlabels⟩

end Tagging.Markup
