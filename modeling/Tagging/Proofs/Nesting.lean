import Tagging.Highlight

/-!
# Nested elements

Parts are nested if every element that is opened is closed again, with nested parts between, and if none of
the elements is without characters. Each character then stands inside certain elements.

Parts are written from the left, while elements are open. So beside parts that are nested there are those
that go on inside of elements: first they close the innermost one, and then go on inside the others.
-/

namespace Tagging.Markup

/-- The characters of `parts` without the elements. -/
def characters (parts : List Markup) : List Char :=
  parts.filterMap fun
    | character c => some c
    | opening _ | closing => none

/-- The parts are nested inside elements of these labels, innermost first. Given is also each character with the
labels of all elements around it. -/
inductive Nested : List String → List Markup → List (Char × List String) → Prop where
  | nil (labels : List String) : Nested labels [] []
  | character {labels : List String} {parts : List Markup} {chars : List (Char × List String)} (c : Char)
      (rest : Nested labels parts chars) : Nested labels (character c :: parts) ((c, labels) :: chars)
  | element {labels : List String} {inside parts : List Markup} {within chars : List (Char × List String)}
      (label : String) (ne_nil : within ≠ []) (content : Nested (label :: labels) inside within)
      (rest : Nested labels parts chars) :
      Nested labels (opening label :: (inside ++ closing :: parts)) (within ++ chars)

/-- The parts close the elements of these labels one after the other, innermost first, and are nested between
and behind. -/
def Continues : List String → List Markup → List (Char × List String) → Prop
  | [], parts, chars => Nested [] parts chars
  | label :: labels, parts, chars => ∃ inside behind within others,
      parts = inside ++ closing :: behind ∧ chars = within ++ others ∧
        Nested (label :: labels) inside within ∧ Continues labels behind others

variable {labels : List String} {label : String} {parts inside behind : List Markup}
  {chars within others : List (Char × List String)}

/-- The characters `chars` of nested `parts` are those that `characters` reads off. -/
theorem Nested.map_fst_eq (h : Nested labels parts chars) : chars.map Prod.fst = characters parts := by
  induction h with
  | nil => rfl
  | character c rest ih => exact congrArg (c :: ·) ih
  | element label ne_nil content rest ihContent ihRest =>
    rw [List.map_append, ihContent, ihRest]
    simp [characters]

/-- Elements are not empty, so without characters there are no `parts`. -/
theorem Nested.eq_nil (h : Nested labels parts []) : parts = [] := by
  generalize hchars : ([] : List (Char × List String)) = chars at h
  cases h with
  | nil => rfl
  | character => cases hchars
  | element label ne_nil => exact absurd (List.append_eq_nil_iff.1 hchars.symm).1 ne_nil

/-- What can be put in front of nested parts, such as `front`, can be put in front of parts that go on. -/
theorem Continues.of_nested {front : List Markup} {before : List (Char × List String)}
    (h : Continues labels parts chars) (hfront : ∀ {parts : List Markup} {chars : List (Char × List String)},
      Nested labels parts chars → Nested labels (front ++ parts) (before ++ chars)) :
    Continues labels (front ++ parts) (before ++ chars) := by
  cases labels with
  | nil => exact hfront h
  | cons label labels =>
    obtain ⟨inside, behind, within, others, rfl, rfl, hinside, hbehind⟩ := h
    refine ⟨front ++ inside, behind, before ++ within, others, ?_, ?_, hfront hinside, hbehind⟩
    · rw [List.append_assoc]
    · rw [List.append_assoc]

/-- A character `c` in front of `parts` stands inside the elements of `labels`. -/
theorem Continues.character (c : Char) (h : Continues labels parts chars) :
    Continues labels (character c :: parts) ((c, labels) :: chars) := by
  have hfront : Continues labels ([.character c] ++ parts) ([(c, labels)] ++ chars) :=
    h.of_nested fun hrest => .character c hrest
  exact hfront

/-- An element of any `label` may be opened in front of `parts`, but must not be closed at once. -/
theorem Continues.opening (h : Continues (label :: labels) parts chars)
    (hparts : parts.head? ≠ some closing) : Continues labels (opening label :: parts) chars := by
  obtain ⟨inside, behind, within, others, rfl, rfl, hinside, hbehind⟩ := h
  have hne : within ≠ [] := by
    rintro rfl
    rw [hinside.eq_nil] at hparts
    exact hparts rfl
  have hfront : Continues labels (.opening label :: (inside ++ [.closing]) ++ behind) (within ++ others) := by
    refine hbehind.of_nested fun hrest => ?_
    have helement := Nested.element label hne hinside hrest
    rwa [List.cons_append, List.append_assoc]
  rwa [List.cons_append, List.append_assoc] at hfront

/-- A closing tag in front of `parts` closes an element of any `label` that was open inside the others. -/
theorem Continues.closing (h : Continues labels parts chars) :
    Continues (label :: labels) (closing :: parts) chars :=
  ⟨[], parts, [], chars, rfl, rfl, .nil _, h⟩

end Tagging.Markup
