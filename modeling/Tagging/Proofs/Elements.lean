import Tagging.Proofs.Overlay

/-!
# Nested matches are shown whole

If of any two matches one lies inside the other or both are apart, then no element has to be closed before its
match ends. For what is open is ordered by its ends, outermost last to end, and whatever ends at one place is
all innermost. So every match has one element, which stands exactly over the bytes of the match; and for that
reason alone the elements of smaller matches inside of it are inside of its element.
-/

namespace Tagging.Markup

open Text (byteLength)

/-! ## Matches inside of others -/

/-- The match `a` lies inside of `b`, or covers the same. -/
def Within (a b : Match) : Prop := b.bytes.start ≤ a.bytes.start ∧ a.bytes.stop ≤ b.bytes.stop

/-- The matches `a` and `b` are apart, or one of them lies inside of the other. -/
def Compatible (a b : Match) : Prop :=
  a.bytes.stop ≤ b.bytes.start ∨ b.bytes.stop ≤ a.bytes.start ∨ Within a b ∨ Within b a

instance (a b : Match) : Decidable (Within a b) := inferInstanceAs (Decidable (_ ∧ _))

instance (a b : Match) : Decidable (Compatible a b) := inferInstanceAs (Decidable (_ ∨ _))

/-- If `a` is smaller than `b` and lies inside of it, and `b` inside of `c`, then `a` is smaller than `c`. -/
theorem Within.bytes_ne {a b c : Match} (hab : Within a b) (hne : a.bytes ≠ b.bytes) (hbc : Within b c) :
    a.bytes ≠ c.bytes := by
  obtain ⟨hstart, hstop⟩ := hab
  obtain ⟨hstart', hstop'⟩ := hbc
  intro heq
  rw [← heq] at hstart' hstop'
  exact hne (congrArg₂ Span.mk (Nat.le_antisymm hstart' hstart) (Nat.le_antisymm hstop hstop'))

/-! ## Contents -/

/-- What a text or an element consists of: characters, and elements for matches. -/
inductive Content where
  /-- Nothing more. -/
  | nil
  /-- A character, and what follows it. -/
  | character (c : Char) (rest : Content)
  /-- The element of a match with what is inside of it, and what follows it. -/
  | element (shown : Match) (inside rest : Content)

/-- The element of a match in its place. -/
structure Element where
  /-- The characters of the text in front of the element. -/
  before : List Char
  /-- The match that it shows. -/
  shown : Match
  /-- What is inside of it. -/
  inside : Content

namespace Content

/-- The parts that a content is written in. -/
def parts : Content → List Markup
  | nil => []
  | character c rest => .character c :: rest.parts
  | element shown inside rest => .opening shown.label :: (inside.parts ++ .closing :: rest.parts)

/-- The characters without the elements. -/
def characters : Content → List Char
  | nil => []
  | character c rest => c :: rest.characters
  | element _ inside rest => inside.characters ++ rest.characters

/-- All matches that have elements, one for each element. -/
def shown : Content → List Match
  | nil => []
  | character _ rest => rest.shown
  | element found inside rest => found :: (inside.shown ++ rest.shown)

/-- All elements, also those inside of others, when the content follows the characters `before`. -/
def elements (before : List Char) : Content → List Element
  | nil => []
  | character c rest => rest.elements (before ++ [c])
  | element shown inside rest =>
    ⟨before, shown, inside⟩ :: (inside.elements before ++ rest.elements (before ++ inside.characters))

/-- The elements of a `content` show the matches of `Content.shown`, in their order. -/
theorem map_shown_elements (content : Content) :
    ∀ before, (content.elements before).map Element.shown = content.shown := by
  induction content with
  | nil => exact fun before => rfl
  | character c rest ih => exact fun before => ih _
  | element found inside rest ihInside ihRest =>
    intro before
    rw [elements, shown, List.map_cons, List.map_append, ihInside, ihRest]

/-- Every element stands exactly over the bytes of its match, when the content begins at byte `offset`. -/
def Fits (offset : Nat) : Content → Prop
  | nil => True
  | character c rest => rest.Fits (offset + c.utf8Size)
  | element found inside rest => found.bytes.start = offset ∧
    found.bytes.stop = offset + byteLength inside.characters ∧ inside.Fits offset ∧
    rest.Fits (offset + byteLength inside.characters)

variable {content : Content} {offset : Nat}

/-- The matches shown in a `content` that fits at byte `offset` lie within the bytes of its characters. -/
theorem Fits.bounds (h : content.Fits offset) : ∀ found ∈ content.shown,
    offset ≤ found.bytes.start ∧ found.bytes.stop ≤ offset + byteLength content.characters := by
  induction content generalizing offset with
  | nil => exact fun found hfound => nomatch hfound
  | character c rest ih =>
    intro found hfound
    obtain ⟨hstart, hstop⟩ := ih h found hfound
    rw [characters, Text.byteLength_cons]
    omega
  | element found inside rest ihInside ihRest =>
    intro other hother
    obtain ⟨hstart, hstop, hinside, hrest⟩ := h
    rw [characters, Text.byteLength_append]
    rcases List.mem_cons.1 hother with rfl | hother
    · omega
    rcases List.mem_append.1 hother with hother | hother
    · have := ihInside hinside other hother
      omega
    · have := ihRest hrest other hother
      omega

/-- The characters inside of an element are those that its match covers. -/
theorem Fits.slice?_eq {before : List Char} (h : content.Fits (byteLength before)) (after : List Char) :
    ∀ element ∈ content.elements before, byteLength element.before = element.shown.bytes.start ∧
      Text.slice? (before ++ (content.characters ++ after)) element.shown.bytes.start
        element.shown.bytes.stop = some element.inside.characters := by
  induction content generalizing before after with
  | nil => exact fun element helement => nomatch helement
  | character c rest ih =>
    intro element helement
    have h : rest.Fits (byteLength (before ++ [c])) := by
      rw [Text.byteLength_append]
      exact h
    have hrest := ih h after element helement
    rwa [List.append_assoc] at hrest
  | element found inside rest ihInside ihRest =>
    intro element helement
    obtain ⟨hstart, hstop, hinside, hrest⟩ := h
    rw [← Text.byteLength_append] at hrest
    rcases List.mem_cons.1 helement with rfl | helement
    · refine ⟨hstart.symm, Text.slice?_eq_some_iff.2
        ⟨before, rest.characters ++ after, ?_, hstart.symm, ?_⟩⟩
      · rw [characters, List.append_assoc]
      · rw [hstart, hstop]
    rcases List.mem_append.1 helement with helement | helement
    · have := ihInside hinside (rest.characters ++ after) element helement
      rwa [characters, List.append_assoc]
    · have := ihRest hrest after element helement
      rwa [characters, List.append_assoc, ← List.append_assoc before]

theorem shown_mem_of_mem_elements {before : List Char} {element : Element}
    (h : element ∈ content.elements before) : element.shown ∈ content.shown := by
  rw [← content.map_shown_elements before]
  exact List.mem_map_of_mem h

/-- A match `other` in front of the `content` or behind it has no element in it. -/
theorem Fits.count_eq_zero (h : content.Fits offset) {other : Match}
    (hother : other.bytes.start < other.bytes.stop)
    (hapart : other.bytes.stop ≤ offset ∨ offset + byteLength content.characters ≤ other.bytes.start) :
    content.shown.count other = 0 := by
  refine List.count_eq_zero.2 fun hmem => ?_
  obtain ⟨hstart, hstop⟩ := h.bounds other hmem
  omega

/-- The elements of a match `other` that is smaller than the match of an element and lies inside of it are all
inside of that element, since everywhere else elements stand over other bytes. By induction on `content`: the
element is the first one, or inside of that, or behind it. -/
theorem Fits.count_inside {before : List Char} (h : content.Fits offset) {other : Match}
    (hother : other.bytes.start < other.bytes.stop) : ∀ element ∈ content.elements before,
    Within other element.shown → other.bytes ≠ element.shown.bytes →
    element.inside.shown.count other = content.shown.count other := by
  induction content generalizing before offset with
  | nil => exact fun element helement => nomatch helement
  | character c rest ih => exact ih h
  | element found inside rest ihInside ihRest =>
    intro element helement hwithin hne
    obtain ⟨hstart, hstop, hinside, hrest⟩ := h
    rw [shown, List.count_cons, List.count_append]
    have hfound (hbytes : other.bytes ≠ found.bytes) : (found == other) = false :=
      beq_eq_false_iff_ne.2 fun heq => hbytes (congrArg Match.bytes heq.symm)
    have hnotRest (hbefore : other.bytes.stop ≤ found.bytes.stop) : rest.shown.count other = 0 :=
      hrest.count_eq_zero hother (.inl (hstop ▸ hbefore))
    have hnotInside (hbehind : found.bytes.stop ≤ other.bytes.start) : inside.shown.count other = 0 :=
      hinside.count_eq_zero hother (.inr (hstop ▸ hbehind))
    rcases List.mem_cons.1 helement with rfl | helement
    · simp [hfound hne, hnotRest hwithin.2]
    rcases List.mem_append.1 helement with helement | helement
    · have hbounds := hinside.bounds _ (shown_mem_of_mem_elements helement)
      rw [← hstop, ← hstart] at hbounds
      rw [ihInside hinside element helement hwithin hne, hnotRest (Nat.le_trans hwithin.2 hbounds.2)]
      simp [hfound (hwithin.bytes_ne hne hbounds)]
    · have hbounds := hrest.bounds _ (shown_mem_of_mem_elements helement)
      rw [← hstop] at hbounds
      have hbehind : found.bytes.stop ≤ other.bytes.start := Nat.le_trans hbounds.1 hwithin.1
      have hbytes : other.bytes ≠ found.bytes := by
        intro heq
        rw [heq] at hother hbehind
        omega
      rw [ihRest hrest element helement hwithin hne, hnotInside hbehind]
      simp [hfound hbytes]

end Content

/-! ## Elements that are open -/

/-- The parts go on at byte `offset` inside of the elements of the opened matches, innermost first, each of which
they close where its match ends. Given are also the matches whose elements are still to come, and the characters. -/
def Completes (offset : Nat) : List Match → List Markup → List Match → List Char → Prop
  | [], parts, coming, text => ∃ content : Content,
      parts = content.parts ∧ coming = content.shown ∧ text = content.characters ∧ content.Fits offset
  | found :: opened, parts, coming, text => ∃ (content : Content) (behind : List Markup)
      (later : List Match) (others : List Char),
      parts = content.parts ++ .closing :: behind ∧ coming = content.shown ++ later ∧
        text = content.characters ++ others ∧ content.Fits offset ∧
        found.bytes.stop = offset + byteLength content.characters ∧
        Completes found.bytes.stop opened behind later others

variable {offset : Nat} {opened coming : List Match} {found : Match} {parts : List Markup} {text : List Char}

/-- A character `c` in front of `parts` moves their byte `offset` on. -/
theorem Completes.character {c : Char} (h : Completes (offset + c.utf8Size) opened parts coming text) :
    Completes offset opened (character c :: parts) coming (c :: text) := by
  cases opened with
  | nil =>
    obtain ⟨content, rfl, rfl, rfl, hfits⟩ := h
    exact ⟨.character c content, rfl, rfl, rfl, hfits⟩
  | cons found opened =>
    obtain ⟨content, behind, later, others, rfl, rfl, rfl, hfits, hstop, hbehind⟩ := h
    refine ⟨.character c content, behind, later, others, rfl, rfl, rfl, hfits, ?_, hbehind⟩
    rw [hstop, Content.characters, Text.byteLength_cons, Nat.add_assoc]

/-- The element of a match `found` that starts here may be opened in front of `parts`, which close it. -/
theorem Completes.opening (h : Completes offset (found :: opened) parts coming text)
    (hstart : found.bytes.start = offset) :
    Completes offset opened (opening found.label :: parts) (found :: coming) text := by
  obtain ⟨inside, behind, later, others, rfl, rfl, rfl, hinside, hstop, hbehind⟩ := h
  cases opened with
  | nil =>
    obtain ⟨rest, rfl, rfl, rfl, hrest⟩ := hbehind
    exact ⟨.element found inside rest, rfl, rfl, rfl, hstart, hstop, hinside, hstop ▸ hrest⟩
  | cons outer opened =>
    obtain ⟨rest, behind, later, others, rfl, rfl, rfl, hrest, hstop', hbehind⟩ := hbehind
    refine ⟨.element found inside rest, behind, later, others, ?_, ?_, ?_,
      ⟨hstart, hstop, hinside, hstop ▸ hrest⟩, ?_, hbehind⟩
    · simp [Content.parts]
    · simp [Content.shown]
    · simp [Content.characters]
    · rw [hstop', hstop, Content.characters, Text.byteLength_append, Nat.add_assoc]

/-- The element of a match `found` that ends here is closed in front of `parts`. -/
theorem Completes.closing (h : Completes offset opened parts coming text) (hstop : found.bytes.stop = offset) :
    Completes offset (found :: opened) (closing :: parts) coming text :=
  ⟨.nil, parts, coming, text, rfl, rfl, rfl, trivial, hstop, hstop ▸ h⟩

/-- The elements of all matches of `closed`, which end here, are closed in front of `parts`. -/
theorem Completes.closings (h : Completes offset opened parts coming text) {closed : List Match}
    (hstop : ∀ found ∈ closed, found.bytes.stop = offset) :
    Completes offset (closed ++ opened) (closed.map (fun _ => .closing) ++ parts) coming text := by
  induction closed with
  | nil => exact h
  | cons found closed ih =>
    obtain ⟨hfirst, hrest⟩ := List.forall_mem_cons.1 hstop
    exact (ih hrest).closing hfirst

/-- The elements of all matches of `starting`, which start here, are opened in front of `parts`. -/
theorem Completes.openings {starting : List Match}
    (hstart : ∀ found ∈ starting, found.bytes.start = offset) :
    ∀ {opened : List Match}, Completes offset (starting.reverse ++ opened) parts coming text →
    Completes offset opened (starting.map (fun found => .opening found.label) ++ parts) (starting ++ coming)
      text := by
  induction starting with
  | nil => exact fun h => h
  | cons found starting ih =>
    intro opened h
    obtain ⟨hfirst, hrest⟩ := List.forall_mem_cons.1 hstart
    rw [List.reverse_cons, List.append_assoc] at h
    exact (ih hrest h).opening hfirst

/-! ## A turn reopens nothing -/

/-- The `outer` match ends no earlier than the `inner` one. -/
def EndsLater (outer inner : Match) : Prop := inner.bytes.stop ≤ outer.bytes.stop

/-- The order in which elements are opened, as a comparison. -/
def compareOpening : Match → Match → Ordering :=
  compareLex (flip (compareOn fun found => found.bytes.stop)) (compareOn Match.label)

theorem opensBefore_eq (a b : Match) : opensBefore a b = (compareOpening a b).isLE := rfl

instance : Std.TransCmp compareOpening := by
  unfold compareOpening
  infer_instance

/-- What is opened first of what starts at one place ends last. -/
theorem endsLater_of_opensBefore {a b : Match} (h : opensBefore a b = true) : EndsLater a b := by
  unfold opensBefore at h
  unfold EndsLater
  cases hstops : compare b.bytes.stop a.bytes.stop with
  | lt => exact Nat.le_of_lt (Nat.compare_eq_lt.1 hstops)
  | eq => exact Nat.le_of_eq (Nat.compare_eq_eq.1 hstops)
  | gt =>
    rw [hstops] at h
    cases h

theorem pairwise_mergeSort_opensBefore (found : List Match) :
    (found.mergeSort opensBefore).Pairwise EndsLater := by
  have htrans : ∀ a b c, opensBefore a b = true → opensBefore b c = true → opensBefore a c = true :=
    fun a b c hab => Std.TransCmp.isLE_trans (show (compareOpening a b).isLE = true from hab)
  have htotal : ∀ a b, (opensBefore a b || opensBefore b a) = true := by
    intro a b
    have hswap : compareOpening b a = (compareOpening a b).swap := Std.OrientedCmp.eq_swap
    rw [opensBefore_eq, opensBefore_eq, hswap]
    cases compareOpening a b <;> rfl
  exact (List.pairwise_mergeSort htrans htotal found).imp endsLater_of_opensBefore

/-- Where the matches of `opened` end from the inside to the outside, those that end at byte `offset` are innermost,
and `closeAt` closes these and reopens none. For if the first of them ends at `offset`, none of the others ends
later. -/
theorem exists_closeAt_eq (hsorted : opened.Pairwise EndsLater)
    (hopen : ∀ found ∈ opened, offset ≤ found.bytes.stop) :
    ∃ outer closed, opened = outer ++ closed ∧ (∀ found ∈ outer, found.bytes.stop ≠ offset) ∧
      (∀ found ∈ closed, found.bytes.stop = offset) ∧
      closeAt offset opened = (closed.map fun _ => .closing, outer) := by
  have hparted : opened.takeWhile (·.bytes.stop != offset) ++ opened.dropWhile (·.bytes.stop != offset) =
      opened := List.takeWhile_append_dropWhile
  have houter : ∀ found ∈ opened.takeWhile (·.bytes.stop != offset), found.bytes.stop ≠ offset :=
    fun found hfound => bne_iff_ne.1 (List.all_eq_true.1 List.all_takeWhile found hfound)
  have hclosed : ∀ found ∈ opened.dropWhile (·.bytes.stop != offset), found.bytes.stop = offset := by
    have hends := hsorted.sublist (List.dropWhile_sublist (·.bytes.stop != offset))
    cases hdrop : opened.dropWhile (·.bytes.stop != offset) with
    | nil => exact fun found hfound => nomatch hfound
    | cons first rest =>
      rw [hdrop] at hends
      have hfirst : first.bytes.stop = offset := by
        have hhead := List.head?_dropWhile_not (·.bytes.stop != offset) opened
        rw [hdrop] at hhead
        simpa using hhead
      refine List.forall_mem_cons.2 ⟨hfirst, fun found hfound => ?_⟩
      have hle : found.bytes.stop ≤ first.bytes.stop := (List.pairwise_cons.1 hends).1 found hfound
      have hmem : found ∈ opened := by
        rw [← hparted, hdrop]
        exact List.mem_append_right _ (List.mem_cons_of_mem _ hfound)
      exact Nat.le_antisymm (hfirst ▸ hle) (hopen found hmem)
  refine ⟨_, _, hparted.symm, houter, hclosed, ?_⟩
  unfold closeAt
  have hagain : (opened.dropWhile (·.bytes.stop != offset)).filter (·.bytes.stop != offset) = [] :=
    List.filter_eq_nil_iff.2 fun found hfound => by simp [hclosed found hfound]
  simp [hagain]

section Turn

variable {shown : List Match}

/-- The matches of `shown` that start at byte `offset`, in the order in which they are opened. -/
def startingAt (shown : List Match) (offset : Nat) : List Match :=
  (shown.filter (·.bytes.start == offset)).mergeSort opensBefore

theorem mem_startingAt :
    found ∈ startingAt shown offset ↔ found ∈ shown ∧ found.bytes.start = offset := by
  simp [startingAt, List.mem_mergeSort]

/-- If `closeAt` leaves `outer` open, a turn opens what starts at `offset` inside of that. -/
theorem turn_eq {outer : List Match} {closings : List Markup} (h : closeAt offset opened = (closings, outer)) :
    turn shown offset opened =
      (closings ++ (startingAt shown offset).map (fun found => .opening found.label),
        outer ++ startingAt shown offset) := by
  unfold turn
  rw [h]
  rfl

/-- A turn at byte `offset` closes what ends there and opens what starts there, and each element is closed where its
match ends. -/
theorem Completes.turn (hsorted : opened.Pairwise EndsLater)
    (hopen : ∀ found ∈ opened, offset ≤ found.bytes.stop)
    (h : Completes offset (turn shown offset opened).2.reverse parts coming text) :
    Completes offset opened.reverse ((turn shown offset opened).1 ++ parts) (startingAt shown offset ++ coming)
      text := by
  obtain ⟨outer, closed, rfl, -, hclosed, hclose⟩ := exists_closeAt_eq hsorted hopen
  rw [turn_eq hclose, List.reverse_append] at h
  have hopenings := h.openings fun found hfound => (mem_startingAt.1 hfound).2
  have hreverse : ∀ found ∈ closed.reverse, found.bytes.stop = offset :=
    fun found hfound => hclosed found (List.mem_reverse.1 hfound)
  have hclosings := hopenings.closings hreverse
  rw [turn_eq hclose, List.reverse_append, List.append_assoc]
  simpa using hclosings

/-- What a turn opens ends no later than what is open already, as it starts inside of it. So the matches that are
open stay in the order of their ends. -/
theorem pairwise_turn (hcompatible : ∀ a ∈ shown, ∀ b ∈ shown, Compatible a b)
    (hlt : ∀ found ∈ shown, found.bytes.start < found.bytes.stop) (hsorted : opened.Pairwise EndsLater)
    (hopened : ∀ found ∈ opened,
      found ∈ shown ∧ found.bytes.start < offset ∧ offset ≤ found.bytes.stop) :
    (turn shown offset opened).2.Pairwise EndsLater := by
  obtain ⟨outer, closed, rfl, houter, -, hclose⟩ :=
    exists_closeAt_eq hsorted fun found hfound => (hopened found hfound).2.2
  rw [turn_eq hclose]
  refine List.pairwise_append.2 ⟨(List.pairwise_append.1 hsorted).1, pairwise_mergeSort_opensBefore _, ?_⟩
  intro a ha b hb
  obtain ⟨hmem, hstart, hstop⟩ := hopened a (List.mem_append_left _ ha)
  obtain ⟨hmem', hstart'⟩ := mem_startingAt.1 hb
  have hne := houter a ha
  have hlt := hlt b hmem'
  rcases hcompatible a hmem b hmem' with h | h | ⟨h, -⟩ | ⟨-, h⟩
  · omega
  · omega
  · omega
  · exact h

/-- What is still to come at byte `offset` starts there, or is among the `later` ones that start behind it. -/
theorem startingAt_append_perm {later : List Match}
    (h : later.Perm (shown.filter fun found => decide (offset < found.bytes.start))) :
    (startingAt shown offset ++ later).Perm
      (shown.filter fun found => decide (offset ≤ found.bytes.start)) := by
  have hstarting : (startingAt shown offset).Perm
      ((shown.filter fun found => decide (offset ≤ found.bytes.start)).filter
        (·.bytes.start == offset)) := by
    refine (List.mergeSort_perm _ _).trans (.of_eq ?_)
    rw [List.filter_filter]
    refine List.filter_congr fun found hfound => ?_
    rw [Bool.eq_iff_iff]
    simp only [Bool.and_eq_true, decide_eq_true_iff, beq_iff_eq]
    omega
  have hlater : later.Perm
      ((shown.filter fun found => decide (offset ≤ found.bytes.start)).filter fun found =>
        !(found.bytes.start == offset)) := by
    refine h.trans (.of_eq ?_)
    rw [List.filter_filter]
    refine List.filter_congr fun found hfound => ?_
    rw [Bool.eq_iff_iff]
    simp only [Bool.and_eq_true, decide_eq_true_iff, Bool.not_eq_true', beq_eq_false_iff_ne]
    omega
  exact (hstarting.append hlater).trans (List.filter_append_perm _ _)

end Turn

/-! ## The whole text -/

/-- From any place of `text` on, what `overlay` writes closes each of the `opened` elements where its match ends,
and has one element for each match of `shown` that starts in `rest`. By induction on `rest`, with the invariants
that what is `opened` covers the byte in front and ends from the inside to the outside; no match starts inside of a
character. -/
theorem exists_completes_overlay {shown : List Match} (hshown : ∀ found ∈ shown, isShown text found = true)
    (hcompatible : ∀ a ∈ shown, ∀ b ∈ shown, Compatible a b) (rest : List Char) :
    ∀ {before : List Char} {opened : List Match}, text = before ++ rest →
      opened.Perm (shown.filter (coversBefore (byteLength before))) → opened.Pairwise EndsLater →
      ∃ coming, Completes (byteLength before) opened.reverse (overlay shown (byteLength before) opened rest)
        coming rest ∧
        coming.Perm (shown.filter fun found => decide (byteLength before ≤ found.bytes.start)) := by
  have hlt : ∀ found ∈ shown, found.bytes.start < found.bytes.stop :=
    fun found hfound => (isShown_eq_true_iff.1 (hshown found hfound)).1
  have hopen : ∀ {before : List Char} {opened : List Match},
      opened.Perm (shown.filter (coversBefore (byteLength before))) → ∀ found ∈ opened,
      found ∈ shown ∧ found.bytes.start < byteLength before ∧ byteLength before ≤ found.bytes.stop := by
    intro before opened hopened found hfound
    simpa [coversBefore] using List.mem_filter.1 (hopened.mem_iff.1 hfound)
  induction rest with
  | nil =>
    intro before opened htext hopened hsorted
    rw [List.append_nil] at htext
    subst htext
    have hend : Completes (byteLength text) (turn shown (byteLength text) opened).2.reverse [] [] [] := by
      rw [turn_opened_eq_nil hshown hopened]
      exact ⟨.nil, rfl, rfl, rfl, trivial⟩
    have hturn := hend.turn hsorted fun found hfound => (hopen hopened found hfound).2.2
    rw [List.append_nil] at hturn
    refine ⟨_, hturn, startingAt_append_perm
      (.of_eq (List.filter_eq_nil_iff.2 fun found hfound => ?_).symm)⟩
    have hstop := (isShown_eq_true_iff.1 (hshown found hfound)).2.2.le_byteLength
    have := hlt found hfound
    simp only [decide_eq_true_iff]
    omega
  | cons c rest ih =>
    intro before opened htext hopened hsorted
    have hnext := turn_opened_perm_next hshown htext hopened
    have hsorted' := pairwise_turn hcompatible hlt hsorted (hopen hopened)
    obtain ⟨later, hcompletes, hlater⟩ := ih (by rw [htext, List.append_assoc]; rfl) hnext hsorted'
    rw [Text.byteLength_append] at hcompletes
    have hturn := hcompletes.character.turn hsorted fun found hfound => (hopen hopened found hfound).2.2
    refine ⟨_, hturn, startingAt_append_perm
      (hlater.trans (.of_eq (List.filter_congr fun found hfound => ?_)))⟩
    have hplace := (isShown_eq_true_iff.1 (hshown found hfound)).2.1
    rw [htext] at hplace
    have hstart := hplace.le_or_le
    have hsize := c.utf8Size_pos
    rw [Text.byteLength_append, Text.byteLength_cons, Text.byteLength_nil, Bool.eq_iff_iff]
    simp only [decide_eq_true_iff]
    omega

/-- Of matches `found` that are nested in each other or apart, each has one element, which begins where the match
begins, has inside of it just the characters of the match, and has inside of it all elements of the smaller matches
that lie inside of the match. -/
theorem highlight_keeps_whole (text : String) (found : Catalog Match)
    (h : ∀ a ∈ found.values.filter (isShown text.toList), ∀ b ∈ found.values.filter (isShown text.toList),
      Compatible a b) :
    ∃ content : Content, read? (highlight text found).toList = some content.parts ∧
      content.characters = text.toList ∧
      ((content.elements []).map Element.shown).Perm (found.values.filter (isShown text.toList)) ∧
      ∀ element ∈ content.elements [], byteLength element.before = element.shown.bytes.start ∧
        Text.slice? text.toList element.shown.bytes.start element.shown.bytes.stop =
          some element.inside.characters ∧
        ∀ other ∈ found.values.filter (isShown text.toList), Within other element.shown →
          other.bytes ≠ element.shown.bytes →
            element.inside.shown.count other = content.shown.count other := by
  have hshown : ∀ shown ∈ found.values.filter (isShown text.toList), isShown text.toList shown = true :=
    fun shown hmem => (List.mem_filter.1 hmem).2
  have hopened : List.Perm [] ((found.values.filter (isShown text.toList)).filter
      (coversBefore (byteLength []))) := by
    simp [coversBefore]
  obtain ⟨coming, ⟨content, hparts, rfl, hchars, hfits⟩, hcoming⟩ :=
    exists_completes_overlay hshown h text.toList (List.nil_append _).symm hopened .nil
  have hall : content.shown.Perm (found.values.filter (isShown text.toList)) := by
    simpa using hcoming
  refine ⟨content, ?_, hchars.symm, ?_, fun element helement => ?_⟩
  · rw [← hparts]
    exact read?_render _
  · rw [content.map_shown_elements]
    exact hall
  · have hslice := hfits.slice?_eq [] element helement
    rw [List.append_nil, List.nil_append, ← hchars] at hslice
    refine ⟨hslice.1, hslice.2, fun other hother hwithin hne => ?_⟩
    have hlt := (isShown_eq_true_iff.1 (hshown other hother)).1
    exact hfits.count_inside hlt element helement hwithin hne

/-- Two matches cover the same piece inside of a third, a fourth begins where they end, and one more is not
shown. -/
theorem highlight_keeps_whole_same_piece :
    let text := "aé<b"
    let pear : Match := ⟨"pear", ⟨0, 0⟩, ⟨1, 3⟩⟩
    let fruit : Match := ⟨"fruit", ⟨0, 0⟩, ⟨1, 3⟩⟩
    let meal : Match := ⟨"meal", ⟨0, 0⟩, ⟨0, 5⟩⟩
    let rest : Match := ⟨"rest", ⟨0, 0⟩, ⟨3, 5⟩⟩
    let found : Catalog Match := ⟨[("fruit", fruit), ("meal", meal), ("no", ⟨"no", ⟨0, 0⟩, ⟨2, 4⟩⟩),
      ("pear", pear), ("rest", rest)]⟩
    found.values.filter (isShown text.toList) = [fruit, meal, pear, rest] ∧
    (∀ a ∈ [fruit, meal, pear, rest], ∀ b ∈ [fruit, meal, pear, rest], Compatible a b) ∧
    ∃ content : Content, read? (highlight text found).toList = some content.parts ∧
      content.characters = text.toList ∧
      ((content.elements []).map Element.shown).Perm [fruit, meal, pear, rest] ∧
      ∀ element ∈ content.elements [], byteLength element.before = element.shown.bytes.start ∧
        Text.slice? text.toList element.shown.bytes.start element.shown.bytes.stop =
          some element.inside.characters ∧
        ∀ other ∈ [fruit, meal, pear, rest], Within other element.shown →
          other.bytes ≠ element.shown.bytes →
          element.inside.shown.count other = content.shown.count other := by
  intro text pear fruit meal rest found
  have hshown : found.values.filter (isShown text.toList) = [fruit, meal, pear, rest] := by decide
  have hcompatible :
      ∀ a ∈ [fruit, meal, pear, rest], ∀ b ∈ [fruit, meal, pear, rest], Compatible a b := by
    decide
  have hwhole := highlight_keeps_whole text found (by rwa [hshown])
  rw [hshown] at hwhole
  exact ⟨hshown, hcompatible, hwhole⟩

end Tagging.Markup
