import Tagging.Proofs.Extent
import Tagging.Proofs.Locality

/-!
# More text around a match

What is found in a text is still found when the text goes on at either end, as long as nothing negated is
asked for. Text behind a match is never looked at. Text in front of it is searched first, and the search may
find something there; but it never stops in front of a token from which the phrase can be followed.
-/

namespace Tagging

/-! ## Phrases -/

namespace Phrase

variable {terms : List Term} {tokens : List Token}

/-- A phrase that can be followed to its end can be followed whatever comes behind, and wherever counting starts. -/
theorem exists_follow_append {position stop : Nat} (h : follow position tokens terms = .found stop)
    (after : List Token) : ∀ start, ∃ stop', follow start (tokens ++ after) terms = .found stop' := by
  fun_induction follow position tokens terms with
  | case1 | case2 | case4 | case5 => simp [follow, *]
  | case10 position term next terms tokens hne hstar position' rest hleap ih =>
    intro start
    obtain ⟨start', hleap'⟩ := Term.leap?_append hleap after start
    rw [follow_star hstar (by simpa using fun h _ => hne h), hleap']
    exact ih h start'
  | case12 position term next terms token tokens hne hplus position' rest hleap ih =>
    intro start
    obtain ⟨start', hleap'⟩ := Term.leap?_append hleap after (start + 1)
    rw [List.cons_append, follow_plus hplus (by simpa using fun h _ => hne h), hleap']
    exact ih h start'
  | case13 position term next terms token tokens hone ih => simpa [follow, hone] using fun start => ih h _
  | case14 position term next terms token tokens hword haccepts ih =>
    simpa [follow, hword, haccepts] using fun start => ih h _
  | case3 | case6 | case7 | case8 | case9 | case11 | case15 => cases h

/-- A phrase that is found in `mid` is found in every longer text, since from the same token on, which is
`pre.length` tokens further behind there, it can still be followed. -/
theorem isSome_find_append {mid : List Token} (h : (find mid terms).isSome) (pre post : List Token) :
    (find (pre ++ mid ++ post) terms).isSome := by
  rw [isSome_find_iff] at h ⊢
  obtain ⟨start, hlt, stop, hattempt⟩ := h
  have hdrop : (pre ++ mid ++ post).drop (pre.length + start) = mid.drop start ++ post := by
    rw [List.append_assoc, List.drop_length_add_append, List.drop_append_of_le_length (Nat.le_of_lt hlt)]
  obtain ⟨stop', hfollow⟩ := exists_follow_append hattempt post (pre.length + start)
  refine ⟨pre.length + start, ?_, stop', by rw [attempt, hdrop, hfollow]⟩
  simp only [List.length_append]
  omega

end Phrase

/-! ## Literals and clausal forms -/

/-- A literal that is not negated holds in a longer text too if the rule that it looks up does, as `hmono` says. -/
theorem Literal.isSome_verdict_append {literal : Literal} (hnegated : literal.negated = false)
    {f g : String → Outcome} {mid : List Token} (pre post : List Token)
    (hmono : ∀ target, literal.target? = some target → (f target).isSome → (g target).isSome)
    (h : (literal.verdict mid f).isSome) : (literal.verdict (pre ++ mid ++ post) g).isSome := by
  unfold verdict at h ⊢
  cases htarget : literal.target? with
  | none =>
    rw [htarget] at h
    dsimp only at h ⊢
    rw [find_of_not_negated hnegated] at h ⊢
    exact Phrase.isSome_find_append h pre post
  | some target =>
    rw [htarget] at h
    dsimp only at h ⊢
    rw [hnegated, if_neg (by decide)] at h ⊢
    exact hmono target htarget h

/-- Nothing negated is asked for. -/
def Cnf.Positive (cnf : Cnf) : Prop := ∀ literal ∈ cnf.literals, literal.negated = false

theorem Cnf.isSome_verdict_mono {cnf : Cnf} {f g : Literal → Outcome} {m n : Nat}
    (hmono : ∀ literal ∈ cnf.literals, (f literal).isSome → (g literal).isSome)
    (h : (cnf.verdict f m).isSome) : (cnf.verdict g n).isSome := by
  rw [isSome_verdict_iff] at h ⊢
  intro clause hclause
  obtain ⟨literal, hliteral, hfound⟩ := h clause hclause
  exact ⟨literal, hliteral, hmono literal (List.mem_flatten.2 ⟨clause, hclause, hliteral⟩) hfound⟩

theorem Cnf.isSome_find_append {cnf : Cnf} (hpositive : cnf.Positive) {mid : List Token}
    (h : (cnf.find mid).isSome) (pre post : List Token) :
    (cnf.find (pre ++ mid ++ post)).isSome := by
  rw [find_eq_verdict] at h ⊢
  refine isSome_verdict_mono (fun literal hliteral hfound => ?_) h
  rw [Literal.find_of_not_negated (hpositive literal hliteral)] at hfound ⊢
  exact Phrase.isSome_find_append hfound pre post

namespace RuleSet

variable {set : RuleSet} {mid : List Token}

/-- Going down by lookups from `head`, every rule that is reached still matches in the longer text. -/
theorem isSome_verdict_append (pre post : List Token) (head : String)
    (hpositive : ∀ name rule, set.Reaches head name → set.find? name = some rule → rule.cnf.Positive)
    (h : (set.verdict mid head).isSome) : (set.verdict (pre ++ mid ++ post) head).isSome := by
  induction head using set.wellFounded_lookups.induction with
  | _ head ih =>
    rw [verdict_eq] at h ⊢
    cases hfind : set.find? head with
    | none =>
      rw [hfind] at h
      cases h
    | some rule =>
      rw [hfind] at h
      refine Cnf.isSome_verdict_mono (fun literal hliteral hfound => ?_) h
      have hnegated := hpositive head rule .refl hfind literal hliteral
      refine literal.isSome_verdict_append hnegated pre post (fun target htarget htargetFound => ?_) hfound
      have hlookup : target ∈ set.lookupsOf head := mem_lookupsOf_of_target? hfind hliteral htarget
      have hdown : ∀ name rule, set.Reaches target name → set.find? name = some rule →
          rule.cnf.Positive := fun name rule hreaches => hpositive name rule (.head hlookup hreaches)
      exact ih target hlookup hdown htargetFound

/-- A rule that is found in a text is found in every longer text, if nothing negated is asked for by it or
by a rule that it reaches. So is a clausal form when there are no rules. -/
theorem matches_in_longer_text (pre mid post : List Token) :
    (∀ (set : RuleSet) (head : String),
      (∀ name rule, set.Reaches head name → set.find? name = some rule → rule.cnf.Positive) →
      head ∈ (set.evaluate mid).names → head ∈ (set.evaluate (pre ++ mid ++ post)).names) ∧
    ∀ cnf : Cnf, cnf.Positive → (cnf.find mid).isSome → (cnf.find (pre ++ mid ++ post)).isSome := by
  refine ⟨fun set head hpositive hmatch => ?_, fun cnf hpositive hfound => ?_⟩
  · rw [mem_names_evaluate_iff] at hmatch ⊢
    exact isSome_verdict_append pre post head hpositive hmatch
  · exact cnf.isSome_find_append hpositive hfound pre post

/-- A phrase with a gap, looked up by another rule. In front of the match stands a word that the phrase
starts with. -/
theorem matches_in_longer_text_earlier_start :
    let terms : Phrase := ⟨{ word := "nut" }, [.ofWildcard .plus, { word := "cake" }], by decide⟩
    let cake : Cnf := ⟨[[{ subject := .phrase terms }]]⟩
    let set : RuleSet := ⟨[⟨"cake", cake⟩, ⟨"meal", ⟨[[.lookup "cake" false]]⟩⟩], by decide⟩
    let text (words : List String) : List Token := words.map fun word => { word }
    let mid := text ["nut", "fig", "cake"]
    ((∀ name rule, set.Reaches "meal" name → set.find? name = some rule → rule.cnf.Positive) ∧
      "meal" ∈ (set.evaluate mid).names ∧
      "meal" ∈ (set.evaluate (text ["nut"] ++ mid ++ text ["cake"])).names) ∧
    cake.Positive ∧ (cake.find mid).isSome ∧
      (cake.find (text ["nut"] ++ mid ++ text ["cake"])).isSome := by
  intro terms cake set text mid
  obtain ⟨hset, hcnf⟩ := matches_in_longer_text (text ["nut"]) mid (text ["cake"])
  have hrules : ∀ rule ∈ set.rules, ∀ literal ∈ rule.cnf.literals, literal.negated = false := by
    decide
  have hpositive : ∀ name rule, set.Reaches "meal" name → set.find? name = some rule →
      rule.cnf.Positive := fun name rule _ hfind => hrules rule (find?_eq_some_iff.1 hfind).1
  have hcake : cake.Positive := hrules ⟨"cake", cake⟩ (by simp [set])
  have hmatch : "meal" ∈ (set.evaluate mid).names := by decide
  have hfound : (cake.find mid).isSome := by decide
  exact ⟨⟨hpositive, hmatch, hset set "meal" hpositive hmatch⟩, hcake, hfound,
    hcnf cake hcake hfound⟩

end RuleSet

end Tagging
