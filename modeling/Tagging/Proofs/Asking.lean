import Tagging.Proofs.WellFormed
import Tagging.RuleSet.Evaluate

/-!
# A search only asks

All that a search through a clausal form does is to ask for literals, so two searches correspond to each
other as soon as their ways of asking do, literal by literal. This holds for every correspondence that
carries over from one step of a computation to the next.

In particular the inquiry into a rule can be replaced by one that finds out the same. Rules do not lead back
to themselves, so on the way down from rule to rule the depth that an inquiry is allowed is never used up,
and inquiries obey the equation that has no depth in it.
-/

namespace Tagging

/-! ## Correspondence -/

/-- A way to compare computations of two kinds, which carries over from step to step. -/
structure Correspondence (m n : Type → Type) [Monad m] [Monad n] where
  /-- The one computation corresponds to the other. -/
  Rel : {α : Type} → m α → n α → Prop
  rel_pure : ∀ {α : Type} (a : α), Rel (pure a) (pure a)
  rel_bind : ∀ {α β : Type} {x : m α} {y : n α} {f : α → m β} {g : α → n β},
    Rel x y → (∀ a, Rel (f a) (g a)) → Rel (x >>= f) (y >>= g)

/-- Equal computations. -/
def Correspondence.eq (m : Type → Type) [Monad m] : Correspondence m m where
  Rel x y := x = y
  rel_pure _ := rfl
  rel_bind hx hf := by rw [hx, funext hf]

section Search

variable {m n : Type → Type} [Monad m] [Monad n] (C : Correspondence m n) {ask : Literal → m Outcome}
  {ask' : Literal → n Outcome}

/-- What a memory answers corresponds if asking for the `literal` does, since it is either remembered or asked for.
-/
theorem Memo.rel_answer {literal : Literal} (h : C.Rel (ask literal) (ask' literal)) (memo : Memo) :
    C.Rel (memo.answer ask literal) (memo.answer ask' literal) := by
  unfold answer
  cases memo.get? literal with
  | some outcome => exact C.rel_pure _
  | none => exact C.rel_bind h fun outcome => C.rel_pure _

/-- Searches of a `clause` correspond if asking does for each of its literals. -/
theorem Clause.rel_findBy {clause : Clause}
    (h : ∀ literal ∈ clause, C.Rel (ask literal) (ask' literal)) :
    ∀ memo : Memo, C.Rel (findBy ask memo clause) (findBy ask' memo clause) := by
  induction clause with
  | nil => exact fun memo => C.rel_pure _
  | cons literal rest ih =>
    intro memo
    obtain ⟨hfirst, hrest⟩ := List.forall_mem_cons.1 h
    unfold findBy
    refine C.rel_bind (Memo.rel_answer C hfirst memo) ?_
    rintro ⟨outcome, memo'⟩
    cases outcome with
    | some span => exact C.rel_pure _
    | none => exact ih hrest memo'

/-- Searches of `clauses` in turn correspond if asking does for all of their literals. -/
theorem Cnf.rel_coverBy {clauses : List Clause}
    (h : ∀ clause ∈ clauses, ∀ literal ∈ clause, C.Rel (ask literal) (ask' literal)) :
    ∀ (memo : Memo) (covered : Outcome),
      C.Rel (coverBy ask memo covered clauses) (coverBy ask' memo covered clauses) := by
  induction clauses with
  | nil => exact fun memo covered => C.rel_pure _
  | cons clause rest ih =>
    intro memo covered
    obtain ⟨hfirst, hrest⟩ := List.forall_mem_cons.1 h
    unfold coverBy
    refine C.rel_bind (Clause.rel_findBy C hfirst memo) ?_
    rintro ⟨outcome, memo'⟩
    cases outcome with
    | none => exact C.rel_pure _
    | some span => exact ih hrest memo' _

/-- Searches correspond if their ways of asking do. -/
theorem Cnf.rel_findBy {cnf : Cnf} (h : ∀ literal ∈ cnf.literals, C.Rel (ask literal) (ask' literal))
    (length : Nat) : C.Rel (cnf.findBy ask length) (cnf.findBy ask' length) := by
  unfold findBy
  split
  · exact C.rel_pure _
  · refine rel_coverBy C (fun clause hclause literal hliteral => h literal ?_) .empty none
    exact List.mem_flatten.2 ⟨clause, hclause, hliteral⟩

end Search

/-! ## Asking for rules -/

theorem Cnf.mem_targets {cnf : Cnf} {name : String} :
    name ∈ cnf.targets ↔ ∃ literal ∈ cnf.literals, literal.target? = some name :=
  List.mem_eraseDups.trans List.mem_filterMap

/-- A search depends on `outcomeOf` for the targets of `cnf` only. -/
theorem Cnf.findAsking_congr {tokens : List Token} {cnf : Cnf} {f g : String → Inquiry Outcome}
    (h : ∀ name ∈ cnf.targets, f name = g name) : cnf.findAsking tokens f = cnf.findAsking tokens g := by
  refine Cnf.rel_findBy (.eq Inquiry) (fun literal hliteral => ?_) tokens.length
  show literal.answer tokens f = literal.answer tokens g
  unfold Literal.answer
  cases htarget : literal.target? with
  | none => rfl
  | some name => simp only [h name (Cnf.mem_targets.2 ⟨literal, hliteral, htarget⟩)]

namespace RuleSet

variable (set : RuleSet) (tokens : List Token)

/-! ## The depth of an inquiry -/

/-- How lookups lead from rule to rule down to `name`, innermost rule first. -/
abbrev Reached (path : List String) (name : String) : Prop :=
  Cycle.Reached set.lookupsOf (set.rules.map Rule.head) path name

variable {set} {path : List String} {name target : String} {rule : Rule}

theorem reached_nil (name : String) : set.Reached [] name :=
  ⟨List.nodup_nil, by simp, by simp⟩

/-- On the way down no rule comes twice: `name` is not on the `path`. -/
theorem not_mem_path (h : set.Reached path name) : name ∉ path := by
  intro hname
  obtain ⟨x, -, hx⟩ := (h.isCycle_close hname).exists_transGen
  exact Cycle.not_transGen_of_acc (set.wellFounded_lookups.apply x) (Relation.transGen_swap.2 hx)

theorem mem_heads_of_mem_lookupsOf (h : target ∈ set.lookupsOf name) : name ∈ set.rules.map Rule.head := by
  obtain ⟨rule, hrule, hhead, -⟩ := mem_lookupsOf.1 h
  exact List.mem_map.2 ⟨rule, hrule, hhead⟩

theorem mem_lookupsOf_of_find? (h : set.find? name = some rule) (htarget : target ∈ rule.cnf.targets) :
    target ∈ set.lookupsOf name := by
  rw [lookupsOf_eq_targets h]
  exact htarget

theorem reached_cons (h : set.Reached path name) (htarget : target ∈ set.lookupsOf name) :
    set.Reached (name :: path) target :=
  h.descend (not_mem_path h) (mem_heads_of_mem_lookupsOf htarget) htarget

theorem length_path_le (h : set.Reached path name) : path.length ≤ set.size := by
  have hlength := h.length_le
  rwa [List.length_map] at hlength

variable (set)

/-- The `depth` left and the `path` taken are together more than there are rules, so the depth makes no difference.
By induction on `depth`. When none is left, the way would be longer than there are rules, and would repeat one. -/
theorem outcomeWithin_succ : ∀ (depth : Nat) (path : List String) (name : String),
    set.Reached path name → set.size < depth + path.length →
    set.outcomeWithin tokens (depth + 1) name = set.outcomeWithin tokens depth name := by
  intro depth
  induction depth with
  | zero =>
    intro path name hreached hdepth
    have := length_path_le hreached
    omega
  | succ depth ih =>
    intro path name hreached hdepth
    rw [outcomeWithin, outcomeWithin]
    cases hfind : set.find? name with
    | none => rfl
    | some rule =>
      have htargets : ∀ target ∈ rule.cnf.targets,
          set.outcomeWithin tokens (depth + 1) target = set.outcomeWithin tokens depth target := by
        intro target htarget
        have hbelow := reached_cons hreached (mem_lookupsOf_of_find? hfind htarget)
        refine ih (name :: path) target hbelow ?_
        rw [List.length_cons]
        omega
      dsimp only
      rw [Cnf.findAsking_congr htargets]

/-- What is found for that name when nothing is known about it. -/
def search (name : String) : Inquiry Outcome :=
  match set.find? name with
  | none => pure none
  | some rule => set.find tokens rule.cnf

/-- How an inquiry goes on with what is known of a rule. An outcome that is not known is searched for and made
known. -/
def settle (name : String) : Option Outcome → Inquiry Outcome
  | some outcome => return outcome
  | none => do
    let outcome ← set.search tokens name
    Inquiry.tell name outcome
    return outcome

/-- An inquiry asks what is known of the rule and goes on with that. Lookups are followed as far as they
lead. -/
theorem outcome_eq (name : String) :
    set.outcome tokens name = .get name (set.settle tokens name) := by
  unfold outcome
  rw [outcomeWithin]
  refine congrArg (Inquiry.get name) (funext fun known => ?_)
  cases known with
  | some outcome => rfl
  | none =>
    unfold settle search
    cases hfind : set.find? name with
    | none => rfl
    | some rule =>
      have hfound : rule.cnf.findAsking tokens (set.outcomeWithin tokens set.size) =
          set.find tokens rule.cnf := by
        refine Cnf.findAsking_congr fun target htarget => ?_
        have hreached := reached_cons (reached_nil name) (mem_lookupsOf_of_find? hfind htarget)
        exact (set.outcomeWithin_succ tokens set.size [name] target hreached (Nat.lt_succ_self _)).symm
      exact congrArg (Inquiry.bind · fun outcome => .put name outcome (.done outcome)) hfound

end RuleSet

end Tagging
