import Mathlib.Data.List.Chain
import Mathlib.Data.List.Nodup
import Mathlib.Data.List.Perm.Subperm
import Mathlib.Logic.Relation
import Tagging.RuleSet.Cycle

/-!
# The search for a cycle

The search finds a cycle exactly if there is one. Two facts carry this. The path that leads to a name
is a chain of references without repetition, so a name met again on it closes a cycle, and the path is
never longer than there are names. The names that are done with are *settled*: each of them refers only
to names that were done with before it, so no chain of references goes on from them forever.
-/

namespace Tagging.Cycle

open Relation

variable {next : String → List String} {names : List String}

/-- `a` refers to `b`. -/
def Refers (next : String → List String) (a b : String) : Prop := b ∈ next a

/-- A cycle of references among `names`, as it is reported: one name stands at both ends, all others
differ from it and from each other. -/
structure IsCycle (next : String → List String) (names cycle : List String) : Prop where
  ends : ∃ name inner, cycle = name :: inner ++ [name] ∧ (name :: inner).Nodup
  chain : cycle.IsChain (Refers next)
  subset : ∀ name ∈ cycle, name ∈ names

/-- Whatever stands on a cycle first leads back to itself. -/
theorem IsCycle.exists_transGen {cycle : List String} (h : IsCycle next names cycle) :
    ∃ name ∈ names, TransGen (Refers next) name name := by
  obtain ⟨name, inner, rfl, -⟩ := h.ends
  refine ⟨name, h.subset name (by simp), ?_⟩
  have hchain : (name :: (inner ++ [name])).IsChain (Refers next) := h.chain
  cases inner with
  | nil => exact TransGen.single (List.isChain_pair.1 hchain)
  | cons second rest =>
    obtain ⟨hfirst, hrest⟩ := List.isChain_cons_cons.1 hchain
    refine TransGen.head' hfirst ?_
    simpa using List.relationReflTransGen_of_exists_isChain_cons _ hrest rfl

theorem not_transGen_of_acc {r : String → String → Prop} {name : String} (h : Acc r name) :
    ¬ TransGen r name name := by
  have hacc := h.transGen
  clear h
  induction hacc with
  | intro x _ ih => exact fun hcycle => ih x hcycle hcycle

/-! ## The names that are done with -/

/-- Each name refers to names further down the list only. -/
def Settled (next : String → List String) : List String → Prop
  | [] => True
  | name :: rest => (∀ target ∈ next name, target ∈ rest) ∧ Settled next rest

/-- From names that are `done` with no references go on forever, by induction from the end of the list. -/
theorem Settled.acc {done : List String} (h : Settled next done) :
    ∀ name ∈ done, Acc (fun b a => Refers next a b) name := by
  induction done with
  | nil => simp
  | cons first rest ih =>
    obtain ⟨hfirst, hrest⟩ := h
    intro name hname
    rcases List.mem_cons.1 hname with rfl | hname
    · exact Acc.intro _ fun target htarget => ih hrest target (hfirst target htarget)
    · exact ih hrest name hname

/-! ## The path -/

/-- How references lead to `name`: along a path, given innermost name first, that repeats no name. -/
structure Reached (next : String → List String) (names path : List String) (name : String) :
    Prop where
  nodup : path.Nodup
  subset : ∀ x ∈ path, x ∈ names
  chain : (name :: path).IsChain (fun b a => Refers next a b)

theorem Reached.length_le {path : List String} {name : String} (h : Reached next names path name) :
    path.length ≤ names.length :=
  (h.nodup.subperm h.subset).length_le

/-- Going down one more reference, from a `name` that is not on the `path`. -/
theorem Reached.descend {path : List String} {name target : String}
    (h : Reached next names path name) (hname : name ∉ path) (hmem : name ∈ names)
    (htarget : target ∈ next name) : Reached next names (name :: path) target where
  nodup := List.nodup_cons.2 ⟨hname, h.nodup⟩
  subset := by
    intro x hx
    rcases List.mem_cons.1 hx with rfl | hx
    · exact hmem
    · exact h.subset x hx
  chain := List.isChain_cons_cons.2 ⟨htarget, h.chain⟩

/-- A `name` met again on the `path` closes a cycle. What stands on the path above the name is what the cycle
repeats in reverse. -/
theorem Reached.isCycle_close {path : List String} {name : String}
    (h : Reached next names path name) (hname : name ∈ path) :
    IsCycle next names (close path name) := by
  obtain ⟨inner, rest, rfl, hnot⟩ := List.eq_append_cons_of_mem hname
  have hinner : (inner ++ name :: rest).takeWhile (· != name) = inner := by
    have hne : ∀ x ∈ inner, (x != name) = true := by
      intro x hx
      have : x ≠ name := fun heq => hnot (heq ▸ hx)
      simpa using this
    rw [List.takeWhile_append_of_pos hne, List.takeWhile_cons_of_neg (by simp), List.append_nil]
  have hnodup : inner.Nodup := (List.sublist_append_left _ _).nodup h.nodup
  refine ⟨⟨name, inner.reverse, by rw [close, hinner], ?_⟩, ?_, ?_⟩
  · exact List.nodup_cons.2 ⟨by simpa using hnot, List.nodup_reverse.2 hnodup⟩
  · have hchain : (name :: (inner ++ [name])).IsChain (fun b a => Refers next a b) :=
      h.chain.prefix ⟨rest, by simp⟩
    have hreverse := List.isChain_reverse.2 hchain
    simpa [close, hinner] using hreverse
  · intro x hx
    have hx : x = name ∨ x ∈ inner := by
      simpa [close, hinner, or_comm] using hx
    rcases hx with rfl | hx
    · exact h.subset x hname
    · exact h.subset x (List.mem_append_left _ hx)

/-! ## The search -/

/-- What the search may answer when it has gone through `targets`, `done` being settled before: a cycle,
or more settled names with all `targets` among them. -/
def Answers (next : String → List String) (names done targets : List String) :
    Except (List String) (List String) → Prop
  | .ok done' =>
    Settled next done' ∧ (∀ x ∈ done, x ∈ done') ∧ ∀ target ∈ targets, target ∈ done'
  | .error cycle => IsCycle next names cycle

/-- From name to name of `targets` the answer stays right, if `hvisit` says that visiting one name answers rightly.
-/
theorem answers_foldlM (depth : Nat) (path : List String)
    (hvisit : ∀ done name, Reached next names path name → name ∈ names → Settled next done →
      Answers next names done [name] (visit next depth path done name)) :
    ∀ (targets done : List String),
      (∀ target ∈ targets, Reached next names path target ∧ target ∈ names) → Settled next done →
      Answers next names done targets (targets.foldlM (visit next depth path) done) := by
  intro targets
  induction targets with
  | nil =>
    intro done _ hdone
    exact ⟨hdone, fun x hx => hx, by simp⟩
  | cons first rest ih =>
    intro done hreached hdone
    obtain ⟨hpath, hmem⟩ := hreached first (by simp)
    have hfirst := hvisit done first hpath hmem hdone
    rw [List.foldlM_cons]
    cases hv : visit next depth path done first with
    | error cycle =>
      rw [hv] at hfirst
      exact hfirst
    | ok done₁ =>
      rw [hv] at hfirst
      obtain ⟨hdone₁, hsub₁, hmem₁⟩ := hfirst
      have hrest := ih done₁ (fun target ht => hreached target (List.mem_cons_of_mem _ ht)) hdone₁
      show Answers next names done (first :: rest) (rest.foldlM (visit next depth path) done₁)
      cases hf : rest.foldlM (visit next depth path) done₁ with
      | error cycle =>
        rw [hf] at hrest
        exact hrest
      | ok done₂ =>
        rw [hf] at hrest
        obtain ⟨hdone₂, hsub₂, hmem₂⟩ := hrest
        refine ⟨hdone₂, fun x hx => hsub₂ x (hsub₁ x hx), fun target ht => ?_⟩
        rcases List.mem_cons.1 ht with rfl | ht
        · exact hsub₂ _ (hmem₁ _ (by simp))
        · exact hmem₂ target ht

/-- Going down from one `name`. The `depth` left and the `path` taken are together more than there are names, so the
search never stops short. -/
theorem answers_visit (hnext : ∀ name ∈ names, ∀ target ∈ next name, target ∈ names) :
    ∀ (depth : Nat) (path done : List String) (name : String), Reached next names path name →
      name ∈ names → names.length < depth + path.length → Settled next done →
      Answers next names done [name] (visit next depth path done name) := by
  intro depth
  induction depth with
  | zero =>
    intro path done name hreached _ hdepth _
    have := hreached.length_le
    omega
  | succ depth ih =>
    intro path done name hreached hmem hdepth hdone
    unfold visit
    by_cases hpath : name ∈ path
    · rw [if_pos (by simpa using hpath)]
      exact hreached.isCycle_close hpath
    · rw [if_neg (by simpa using hpath)]
      by_cases hname : name ∈ done
      · rw [if_pos (by simpa using hname)]
        exact ⟨hdone, fun x hx => hx, by simpa using hname⟩
      · rw [if_neg (by simpa using hname)]
        have hfold := answers_foldlM depth (name :: path)
          (fun done target hr hm hd => ih (name :: path) done target hr hm (by simp; omega) hd)
          (next name) done
          (fun target ht => ⟨hreached.descend hpath hmem ht, hnext name hmem target ht⟩) hdone
        cases hf : (next name).foldlM (visit next depth (name :: path)) done with
        | error cycle =>
          rw [hf] at hfold
          exact hfold
        | ok done' =>
          rw [hf] at hfold
          obtain ⟨hdone', hsub, htargets⟩ := hfold
          exact ⟨⟨htargets, hdone'⟩, fun x hx => List.mem_cons_of_mem _ (hsub x hx), by simp⟩

/-- The search from all `names` reports a cycle, or there is none below any name. -/
theorem find?_spec (hnext : ∀ name ∈ names, ∀ target ∈ next name, target ∈ names) :
    match find? next names with
    | some cycle => IsCycle next names cycle
    | none => ∀ name ∈ names, Acc (fun b a => Refers next a b) name := by
  have hfold := answers_foldlM (names.length + 1) []
    (fun done name hr hm hd => answers_visit hnext _ [] done name hr hm (by simp) hd)
    names [] (fun name hn => ⟨⟨List.nodup_nil, by simp, by simp⟩, hn⟩) trivial
  unfold find?
  cases hf : names.foldlM (visit next (names.length + 1) []) [] with
  | error cycle =>
    rw [hf] at hfold
    exact hfold
  | ok done =>
    rw [hf] at hfold
    obtain ⟨hdone, -, hmem⟩ := hfold
    exact fun name hn => hdone.acc name (hmem name hn)

/-- No cycle is reported exactly if none of `names` leads back to itself. -/
theorem find?_eq_none_iff (hnext : ∀ name ∈ names, ∀ target ∈ next name, target ∈ names) :
    find? next names = none ↔ ∀ name ∈ names, ¬ TransGen (Refers next) name name := by
  have hspec := find?_spec hnext
  constructor
  · intro hnone name hname hcycle
    rw [hnone] at hspec
    exact not_transGen_of_acc (hspec name hname) (transGen_swap.2 hcycle)
  · intro hacyclic
    cases hfind : find? next names with
    | none => rfl
    | some cycle =>
      rw [hfind] at hspec
      obtain ⟨name, hname, hcycle⟩ := hspec.exists_transGen
      exact absurd hcycle (hacyclic name hname)

end Tagging.Cycle
