import Mathlib.Tactic.SplitIfs
import Tagging.Text.Bytes

/-!
# Places in a text

A byte offset names a place in a text if the text can be parted there. What is cut out between two places
is then what stands between them, and there is nothing else that can be cut out.
-/

namespace Tagging.Text

variable {text before after piece : List Char} {c : Char} {n start stop : Nat}

/-- Every character takes at least one byte, so `byteLength` is positive unless `text` is empty. -/
theorem byteLength_pos (h : text ≠ []) : 0 < byteLength text := by
  cases text with
  | nil => exact absurd rfl h
  | cons c text =>
    have := c.utf8Size_pos
    rw [byteLength_cons]
    omega

theorem byteLength_eq_zero_iff : byteLength text = 0 ↔ text = [] := by
  refine ⟨fun h => ?_, fun h => by rw [h, byteLength_nil]⟩
  refine Decidable.byContradiction fun hne => ?_
  have := byteLength_pos hne
  omega

theorem byteLength_le_of_prefix {a b : List Char} (h : a <+: b) : byteLength a ≤ byteLength b := by
  obtain ⟨rest, rfl⟩ := h
  rw [byteLength_append]
  omega

theorem byteLength_le_of_suffix {a b : List Char} (h : a <:+ b) : byteLength a ≤ byteLength b := by
  obtain ⟨before, rfl⟩ := h
  rw [byteLength_append]
  omega

/-- Of two prefixes `a` and `b` of one `text`, the one with fewer bytes is a prefix of the other. -/
theorem prefix_of_byteLength_le {a b : List Char} (ha : a <+: text) (hb : b <+: text)
    (h : byteLength a ≤ byteLength b) : a <+: b := by
  rcases List.prefix_or_prefix_of_prefix ha hb with hab | ⟨rest, rfl⟩
  · exact hab
  · rw [byteLength_append] at h
    have hrest : rest = [] := byteLength_eq_zero_iff.1 (by omega)
    simp [hrest]

/-- A character of `text` starts at byte `n`, or `text` ends there. -/
def IsPlace (text : List Char) (n : Nat) : Prop := ∃ before, before <+: text ∧ byteLength before = n

theorem IsPlace.le_byteLength (h : IsPlace text n) : n ≤ byteLength text := by
  obtain ⟨before, hbefore, rfl⟩ := h
  exact byteLength_le_of_prefix hbefore

/-- No place `n` is inside the character `c`: it is at most where `c` starts, or at least where `c` ends. -/
theorem IsPlace.le_or_le (h : IsPlace (before ++ c :: after) n) :
    n ≤ byteLength before ∨ byteLength before + c.utf8Size ≤ n := by
  obtain ⟨front, hfront, rfl⟩ := h
  by_cases hle : byteLength front ≤ byteLength before
  · exact .inl hle
  · have hstrict : before <+: front :=
      prefix_of_byteLength_le (List.prefix_append before _) hfront (by omega)
    obtain ⟨rest, rfl⟩ := hstrict
    have hrest : rest <+: c :: after := List.prefix_append_right_inj before |>.1 hfront
    cases rest with
    | nil =>
      simp at hle
    | cons d rest =>
      obtain ⟨rfl, -⟩ := List.cons_prefix_cons.1 hrest
      right
      rw [byteLength_append, byteLength_cons]
      omega

/-! ## Cutting -/

/-- The `text` parted at byte `n`, if a character starts there or `text` ends there. -/
def partBytes? : Nat → List Char → Option (List Char × List Char)
  | 0, text => some ([], text)
  | _ + 1, [] => none
  | n + 1, c :: text =>
    if c.utf8Size ≤ n + 1 then (partBytes? (n + 1 - c.utf8Size) text).map (Prod.map (c :: ·) id) else none

/-- `dropBytes?` gives the second of the parts that `partBytes?` gives. -/
theorem dropBytes?_eq_part (n : Nat) (text : List Char) :
    dropBytes? n text = (partBytes? n text).map Prod.snd := by
  fun_induction partBytes? n text with
  | case1 text => simp only [dropBytes?, Option.map_some]
  | case2 n => rfl
  | case3 n c text hle ih => simp [dropBytes?, hle, ih, Function.comp_def]
  | case4 n c text hlt => simp [dropBytes?, hlt]

/-- `takeBytes?` gives the first of the parts that `partBytes?` gives. -/
theorem takeBytes?_eq_part (n : Nat) (text : List Char) :
    takeBytes? n text = (partBytes? n text).map Prod.fst := by
  fun_induction partBytes? n text with
  | case1 text => simp only [takeBytes?, Option.map_some]
  | case2 n => rfl
  | case3 n c text hle ih => simp [takeBytes?, hle, ih, Function.comp_def]
  | case4 n c text hlt => simp [takeBytes?, hlt]

/-- The parts `before` and `after` of `partBytes?` make up `text` again, and `before` has `n` bytes. -/
theorem partBytes?_eq_some_iff : partBytes? n text = some (before, after) ↔
    text = before ++ after ∧ byteLength before = n := by
  fun_induction partBytes? n text generalizing before with
  | case1 text =>
    rw [byteLength_eq_zero_iff]
    constructor
    · rintro ⟨⟩
      exact ⟨rfl, rfl⟩
    · rintro ⟨rfl, rfl⟩
      rfl
  | case2 n =>
    constructor
    · intro h
      cases h
    · rintro ⟨htext, hbefore⟩
      rw [(List.append_eq_nil_iff.1 htext.symm).1] at hbefore
      cases hbefore
  | case3 n c text hle ih =>
    constructor
    · intro h
      obtain ⟨⟨rest, after⟩, hpart, hrest⟩ := Option.map_eq_some_iff.1 h
      cases hrest
      obtain ⟨rfl, hlength⟩ := ih.1 hpart
      exact ⟨rfl, by rw [byteLength_cons, hlength, Nat.add_sub_of_le hle]⟩
    · rintro ⟨htext, hbefore⟩
      cases before with
      | nil => cases hbefore
      | cons d rest =>
        obtain ⟨rfl, rfl⟩ := List.cons.inj htext
        rw [byteLength_cons] at hbefore
        rw [ih.2 ⟨rfl, Nat.eq_sub_of_add_eq' hbefore⟩]
        rfl
  | case4 n c text hlt =>
    constructor
    · intro h
      cases h
    · rintro ⟨htext, hbefore⟩
      cases before with
      | nil => cases hbefore
      | cons d rest =>
        obtain ⟨rfl, -⟩ := List.cons.inj htext
        rw [byteLength_cons] at hbefore
        omega

/-- `dropBytes?` gives what stands behind the first `n` bytes, and fails only if `text` cannot be parted there. -/
theorem dropBytes?_eq_some_iff : dropBytes? n text = some after ↔
    ∃ before, text = before ++ after ∧ byteLength before = n := by
  simp [dropBytes?_eq_part, partBytes?_eq_some_iff]

/-- `takeBytes?` gives the prefix of `n` bytes, and fails only if `text` has none. -/
theorem takeBytes?_eq_some_iff : takeBytes? n text = some piece ↔
    piece <+: text ∧ byteLength piece = n := by
  rw [takeBytes?_eq_part, Option.map_eq_some_iff]
  constructor
  · rintro ⟨⟨front, after⟩, hpart, rfl⟩
    obtain ⟨rfl, hlength⟩ := partBytes?_eq_some_iff.1 hpart
    exact ⟨List.prefix_append front after, hlength⟩
  · rintro ⟨⟨after, rfl⟩, hlength⟩
    exact ⟨(piece, after), partBytes?_eq_some_iff.2 ⟨rfl, hlength⟩, rfl⟩

/-- The `piece` that `slice?` cuts out stands in `text` from byte `start` to byte `stop`. -/
theorem slice?_eq_some_iff : slice? text start stop = some piece ↔
    ∃ before after, text = before ++ (piece ++ after) ∧ byteLength before = start ∧
      start + byteLength piece = stop := by
  unfold slice?
  split_ifs with hle
  · rw [Option.bind_eq_some_iff]
    constructor
    · rintro ⟨rest, hrest, hpiece⟩
      obtain ⟨before, rfl, rfl⟩ := dropBytes?_eq_some_iff.1 hrest
      obtain ⟨⟨after, rfl⟩, hpiece⟩ := takeBytes?_eq_some_iff.1 hpiece
      exact ⟨before, after, rfl, rfl, by omega⟩
    · rintro ⟨before, after, rfl, rfl, rfl⟩
      refine ⟨piece ++ after, dropBytes?_eq_some_iff.2 ⟨before, rfl, rfl⟩, ?_⟩
      exact takeBytes?_eq_some_iff.2 ⟨List.prefix_append piece after, by omega⟩
  · constructor
    · intro h
      cases h
    · rintro ⟨before, after, rfl, rfl, rfl⟩
      omega

/-- Something can be cut out between `start` and `stop` exactly if both are places and in order. -/
theorem isSome_slice?_iff : (slice? text start stop).isSome ↔
    start ≤ stop ∧ IsPlace text start ∧ IsPlace text stop := by
  constructor
  · intro h
    obtain ⟨piece, hpiece⟩ := Option.isSome_iff_exists.1 h
    obtain ⟨before, after, rfl, rfl, rfl⟩ := slice?_eq_some_iff.1 hpiece
    refine ⟨Nat.le_add_right _ _, ⟨before, List.prefix_append _ _, rfl⟩, before ++ piece, ?_, ?_⟩
    · exact ⟨after, List.append_assoc _ _ _⟩
    · rw [byteLength_append]
  · rintro ⟨hle, ⟨before, hbefore, rfl⟩, ⟨front, hfront, rfl⟩⟩
    obtain ⟨piece, rfl⟩ := prefix_of_byteLength_le hbefore hfront hle
    obtain ⟨after, rfl⟩ := hfront
    refine Option.isSome_iff_exists.2 ⟨piece, slice?_eq_some_iff.2 ⟨before, after, ?_, rfl, ?_⟩⟩
    · rw [List.append_assoc]
    · rw [byteLength_append]

end Tagging.Text
