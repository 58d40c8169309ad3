import Tagging.Unicode.WhiteSpace

/-!
# Lines and their parts

Sources are read line by line, with white space at both ends of a line left out, and a line splits at
the first sign that separates its two parts.
-/

namespace Tagging.Text

open Unicode (isWhiteSpace)

/-- The text without the white space at its start. -/
def trimStart (text : List Char) : List Char :=
  text.dropWhile isWhiteSpace

/-- The text without the white space at its end. -/
def trimEnd (text : List Char) : List Char :=
  (trimStart text.reverse).reverse

/-- The text without the white space at either end. -/
def trim (text : List Char) : List Char :=
  trimEnd (trimStart text)

/-- The lines of a text, which line feeds separate. A text that ends with a line feed has an empty
last line. -/
def lines : List Char → List (List Char)
  | [] => [[]]
  | c :: text =>
    if c = '\n' then [] :: lines text
    else
      match lines text with
      | [] => [[c]]
      | line :: rest => (c :: line) :: rest

/-- What stands before and after the first occurrence of `sign`. -/
def splitOnce? (sign : Char) : List Char → Option (List Char × List Char)
  | [] => none
  | c :: text =>
    if c = sign then some ([], text)
    else (splitOnce? sign text).map fun (left, right) => (c :: left, right)

theorem splitOnce?_eq_some_iff {sign : Char} {text left right : List Char} :
    splitOnce? sign text = some (left, right) ↔ text = left ++ sign :: right ∧ sign ∉ left := by
  induction text generalizing left with
  | nil => simp [splitOnce?]
  | cons c text ih =>
    unfold splitOnce?
    split
    · next hsign =>
      constructor
      · rintro ⟨⟩
        exact ⟨by rw [hsign, List.nil_append], List.not_mem_nil⟩
      · rintro ⟨htext, hnone⟩
        cases left with
        | nil => rw [(List.cons.inj htext).2]
        | cons d left => exact absurd (by simp [← (List.cons.inj htext).1, hsign]) hnone
    · next hsign =>
      rw [Option.map_eq_some_iff]
      constructor
      · rintro ⟨⟨front, back⟩, hsplit, ⟨⟩⟩
        obtain ⟨rfl, hnone⟩ := ih.1 hsplit
        exact ⟨rfl, by simp [Ne.symm hsign, hnone]⟩
      · rintro ⟨htext, hnone⟩
        cases left with
        | nil => exact absurd (List.cons.inj htext).1 hsign
        | cons d left =>
          obtain ⟨rfl, rfl⟩ := List.cons.inj htext
          have hleft : sign ∉ left := fun hmem => hnone (List.mem_cons_of_mem c hmem)
          exact ⟨(left, right), ih.2 ⟨rfl, hleft⟩, rfl⟩

end Tagging.Text
