/-!
# Bracketed groups

A group runs from an opening bracket to the first closing bracket of the same shape, and may not go
beyond its line. Groups are looked for from left to right and do not nest: an opening bracket that
closes nowhere on its line is ordinary text, and so is a closing bracket that nothing opens.
-/

namespace Tagging.Bracket

/-- The bracket that closes a group opened by `c`, if `c` opens one. -/
def closing? (c : Char) : Option Char :=
  if c = '(' then some ')'
  else if c = '[' then some ']'
  else if c = '\x7b' then some '\x7d'
  else none

/-- What follows the first `close`, if there is one on this line. -/
def after? (close : Char) : List Char → Option (List Char)
  | [] => none
  | c :: text => if c = close then some text else if c = '\n' then none else after? close text

/-- What follows the group that `c` opens in front of `text`, if it opens one. -/
def group? (c : Char) (text : List Char) : Option (List Char) :=
  (closing? c).bind (after? · text)

theorem length_of_after?_eq_some {close : Char} {text rest : List Char}
    (h : after? close text = some rest) : rest.length < text.length := by
  induction text with
  | nil => simp [after?] at h
  | cons c text ih =>
    simp only [after?] at h
    split at h
    · cases h; simp
    · split at h
      · contradiction
      · have := ih h
        simp only [List.length_cons]
        omega

theorem length_of_group?_eq_some {c : Char} {text rest : List Char}
    (h : group? c text = some rest) : rest.length < text.length := by
  obtain ⟨_, _, h⟩ := Option.bind_eq_some_iff.1 h
  exact length_of_after?_eq_some h

/-- The text without its bracketed groups. -/
def drop : List Char → List Char
  | [] => []
  | c :: text =>
    match _h : group? c text with
    | some rest => drop rest
    | none => c :: drop text
termination_by text => text.length
decreasing_by
  · have := length_of_group?_eq_some _h
    simp only [List.length_cons]
    omega
  · simp

end Tagging.Bracket
