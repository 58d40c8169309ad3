import Mathlib.Data.List.Basic
import Mathlib.Tactic.SplitIfs
import Tagging.Normalizer

/-!
# Texts without bracketed groups

Groups are left out in one pass from left to right. An opening bracket that is kept closes nowhere on its
line. Whatever is left out behind it holds no line feed, so its line has the same end as before and gains no
character. This is why leaving out groups never makes new ones, and why a second pass finds nothing to do.
-/

namespace Tagging.Bracket

variable {c close : Char} {text rest : List Char}

/-- Between an `opening` bracket of `text` and one that closes it there is always the end of a line. -/
def HasNoGroup (text : List Char) : Prop :=
  ∀ before opening inside closing after, closing? opening = some closing →
    text = before ++ opening :: (inside ++ closing :: after) → '\n' ∈ inside

/-! ## Where a group ends -/

/-- What `after?` skips stands on one line and ends with the first bracket `close`. -/
theorem exists_inside_of_after? (h : after? close text = some rest) :
    ∃ inside, text = inside ++ close :: rest ∧ close ∉ inside ∧ '\n' ∉ inside := by
  induction text with
  | nil => cases h
  | cons c text ih =>
    unfold after? at h
    split_ifs at h with hclose hfeed
    · cases h
      exact ⟨[], by rw [hclose, List.nil_append], List.not_mem_nil, List.not_mem_nil⟩
    · obtain ⟨inside, rfl, hinside, hline⟩ := ih h
      exact ⟨c :: inside, rfl, by simp [Ne.symm hclose, hinside], by simp [Ne.symm hfeed, hline]⟩

/-- Nothing closes on this line exactly if the line ends before each bracket `close`. -/
theorem after?_eq_none_iff : after? close text = none ↔
    ∀ inside rest, text = inside ++ close :: rest → '\n' ∈ inside := by
  induction text with
  | nil => simp [after?]
  | cons c text ih =>
    unfold after?
    split_ifs with hclose hfeed
    · simp only [false_iff, not_forall]
      exact ⟨[], text, by rw [hclose, List.nil_append], List.not_mem_nil⟩
    · refine iff_of_true rfl fun inside rest htext => ?_
      cases inside with
      | nil => exact absurd (List.cons.inj htext).1 hclose
      | cons d inside => simp [← (List.cons.inj htext).1, hfeed]
    · rw [ih]
      constructor
      · intro h inside rest htext
        cases inside with
        | nil => exact absurd (List.cons.inj htext).1 hclose
        | cons d inside => exact List.mem_cons_of_mem _ (h inside rest (List.cons.inj htext).2)
      · intro h inside rest htext
        have hmem := h (c :: inside) rest (by rw [htext, List.cons_append])
        exact (List.mem_cons.1 hmem).resolve_left (Ne.symm hfeed)

/-- No group starts with `c` exactly if no bracket that closes `c` stands on its line. -/
theorem group?_eq_none_iff : group? c text = none ↔
    ∀ closing, closing? c = some closing → after? closing text = none := by
  simp [group?, Option.bind_eq_none_iff]

/-! ## Leaving out groups -/

/-- A character `c` at which no group starts may stand in front of a text without groups. -/
theorem HasNoGroup.cons (hc : group? c text = none) (h : HasNoGroup text) : HasNoGroup (c :: text) := by
  intro before opening inside closing after hclosing htext
  cases before with
  | nil =>
    obtain ⟨rfl, rfl⟩ := List.cons.inj htext
    exact after?_eq_none_iff.1 (group?_eq_none_iff.1 hc closing hclosing) inside after rfl
  | cons d before => exact h before opening inside closing after hclosing (List.cons.inj htext).2

theorem HasNoGroup.tail (h : HasNoGroup (c :: text)) : HasNoGroup text :=
  fun before opening inside closing after hclosing htext =>
    h (c :: before) opening inside closing after hclosing (by rw [htext, List.cons_append])

/-- Where there is no group, `drop` changes nothing. -/
theorem drop_eq_self (h : HasNoGroup text) : drop text = text := by
  fun_induction drop text with
  | case1 => rfl
  | case2 c text rest hgroup ih =>
    obtain ⟨closing, hclosing, hafter⟩ := Option.bind_eq_some_iff.1 hgroup
    obtain ⟨inside, rfl, -, hline⟩ := exists_inside_of_after? hafter
    exact absurd (h [] c inside closing rest hclosing rfl) hline
  | case3 c text hgroup ih => rw [ih h.tail]

end Tagging.Bracket

namespace Tagging.Step

/-- The characters around a group that is left out come together without making up another one. -/
example : withoutBrackets.apply "([)](b) \x7ba(b\x7d\n)".toList = "] \n)".toList := by
  decide +kernel

end Tagging.Step
