import Tagging.Proofs.Compilation
import Tagging.RuleSet.Source

/-!
# Sources mean what they say

A source gives its rules as trees. Evaluating the set that is compiled from it finds a rule exactly if its
tree is true, whether clausal forms are simplified or not. A source that can be compiled without
simplification can also be compiled with it, since simplification adds no lookups.
-/

namespace Tagging

variable {normalizer : Normalizer} {tokenizer : Tokenizer}

namespace Rule

/-- The name and the tree in a line, if there is a tree in it. -/
def tree? (line : List Char) : Option (String × Pattern) := do
  let (head, body) ← Text.splitOnce? '=' line
  let tree ← (Pattern.ofString (String.ofList (Text.trim body))).toOption
  return (String.ofList (Text.trim head), tree)

/-- The rule with its clausal form simplified. -/
def simplify (rule : Rule) : Rule := ⟨rule.head, rule.cnf.simplify⟩

/-- A rule that is read has the name and the clausal form of the tree that are in its `line`, and with
simplification the same line gives the same rule simplified. -/
theorem ofTrimmed_spec {number : Nat} {line : List Char} {rule : Rule}
    (h : ofTrimmed ⟨normalizer, tokenizer, false⟩ number line = .ok rule) :
    (∃ tree, tree? line = some (rule.head, tree) ∧ tree.toCnf normalizer = .ok rule.cnf) ∧
      ofTrimmed ⟨normalizer, tokenizer, true⟩ number line = .ok rule.simplify := by
  unfold ofTrimmed at h ⊢
  cases hsplit : Text.splitOnce? '=' line with
  | none =>
    rw [hsplit] at h
    cases h
  | some parts =>
    obtain ⟨head, body⟩ := parts
    rw [hsplit] at h
    dsimp only at h ⊢
    by_cases hname : isName (Text.trim head) = true
    · rw [if_pos hname] at h ⊢
      unfold Options.compile at h ⊢
      cases hread : Pattern.ofString (String.ofList (Text.trim body)) with
      | error error =>
        rw [hread] at h
        cases h
      | ok tree =>
        rw [hread] at h
        unfold Options.clausalForm at h ⊢
        dsimp only at h ⊢
        cases hcnf : tree.toCnf normalizer with
        | error fault =>
          rw [hcnf] at h
          cases h
        | ok cnf =>
          rw [hcnf] at h
          cases h
          refine ⟨⟨tree, ?_, hcnf⟩, rfl⟩
          simp [tree?, hsplit, hread, Except.toOption]
    · rw [if_neg hname] at h
      cases h

end Rule

namespace RuleSet

/-- The rules of a source as they are written: names with trees. -/
def trees (source : String) : List (String × Pattern) :=
  (ruleLines source).filterMap fun (_, line) => Rule.tree? line

/-- The rules are those of the trees. -/
structure CompiledFrom (normalizer : Normalizer) (trees : List (String × Pattern))
    (rules : List Rule) : Prop where
  rule_of_tree : ∀ head tree, (head, tree) ∈ trees →
    ∃ rule ∈ rules, rule.head = head ∧ tree.toCnf normalizer = .ok rule.cnf
  tree_of_rule : ∀ rule ∈ rules, ∃ tree, (rule.head, tree) ∈ trees

/-- Rules that are read from `lines` are those of the trees in them, and with simplification the same lines give the
same rules simplified. -/
theorem compiledFrom_of_mapM {lines : List (Nat × List Char)} : ∀ {rules : List Rule},
    (lines.mapM fun (number, line) => Rule.ofTrimmed ⟨normalizer, tokenizer, false⟩ number line) =
        .ok rules →
      CompiledFrom normalizer (lines.filterMap fun (_, line) => Rule.tree? line) rules ∧
      (lines.mapM fun (number, line) => Rule.ofTrimmed ⟨normalizer, tokenizer, true⟩ number line) =
        .ok (rules.map Rule.simplify) := by
  induction lines with
  | nil =>
    intro rules h
    cases h
    exact ⟨⟨by simp, by simp⟩, rfl⟩
  | cons first rest ih =>
    obtain ⟨number, line⟩ := first
    intro rules h
    rw [List.mapM_cons] at h ⊢
    obtain ⟨rule, hrule, h⟩ := bind_eq_ok_iff.1 h
    obtain ⟨others, hothers, h⟩ := bind_eq_ok_iff.1 h
    cases h
    obtain ⟨⟨tree, htree, hcnf⟩, hsimplify⟩ := Rule.ofTrimmed_spec hrule
    obtain ⟨hcompiled, hsimplified⟩ := ih hothers
    rw [List.filterMap_cons]
    simp only [htree]
    refine ⟨⟨fun head other hmem => ?_, fun other hmem => ?_⟩, ?_⟩
    · rcases List.mem_cons.1 hmem with heq | hmem
      · cases heq
        exact ⟨rule, by simp, rfl, hcnf⟩
      · obtain ⟨found, hfound, hhead, hcnf⟩ := hcompiled.rule_of_tree head other hmem
        exact ⟨found, List.mem_cons_of_mem _ hfound, hhead, hcnf⟩
    · rcases List.mem_cons.1 hmem with rfl | hmem
      · exact ⟨tree, by simp⟩
      · obtain ⟨found, hfound⟩ := hcompiled.tree_of_rule other hmem
        exact ⟨found, List.mem_cons_of_mem _ hfound⟩
    · rw [hsimplify, hsimplified]
      rfl

/-- The rules of a set `raw` that is compiled without simplification are those of the trees, and it is compiled with
simplification too. -/
theorem ofSource_spec {source : String} {raw : RuleSet}
    (h : ofSource ⟨normalizer, tokenizer, false⟩ source = .ok raw) :
    CompiledFrom normalizer (trees source) raw.rules ∧
      ∃ simplified, ofSource ⟨normalizer, tokenizer, true⟩ source = .ok simplified ∧
        simplified.rules = raw.rules.map Rule.simplify := by
  obtain ⟨rules, hread, hrules⟩ := bind_eq_ok_iff.1 h
  obtain rfl := ofRules_eq_ok_iff.1 hrules
  obtain ⟨hcompiled, hsimplified⟩ := compiledFrom_of_mapM hread
  have hwf : Rule.WellFormed (raw.rules.map Rule.simplify) := by
    refine raw.wellFormed.map (fun _ => rfl) fun rule name hname => ?_
    obtain ⟨literal, hliteral, htarget⟩ := List.mem_filterMap.1 hname
    exact List.mem_filterMap.2 ⟨literal, Cnf.mem_literals_of_mem_simplify hliteral, htarget⟩
  obtain ⟨simplified, hset⟩ := exists_ofRules_eq_ok hwf
  refine ⟨hcompiled, simplified, ?_, ofRules_eq_ok_iff.1 hset⟩
  exact bind_eq_ok_iff.2 ⟨_, hsimplified, hset⟩

/-! ## Trees and verdicts -/

/-- What the verdicts say about the rules of the set. -/
def known? (set : RuleSet) (tokens : List Token) (name : String) : Option Bool :=
  (set.find? name).map fun _ => (set.verdict tokens name).isSome

/-- The set finds a rule exactly if its tree is true, and every tree is either true or false. -/
structure Means (set : RuleSet) (normalizer : Normalizer) (trees : List (String × Pattern)) :
    Prop where
  named : ∀ tokens, ∀ head ∈ (set.evaluate tokens).names, ∃ tree, (head, tree) ∈ trees
  found_iff : ∀ tokens head tree, (head, tree) ∈ trees →
    (head ∈ (set.evaluate tokens).names ↔ tree.Judged trees normalizer tokens true)
  missed_iff : ∀ tokens head tree, (head, tree) ∈ trees →
    (head ∉ (set.evaluate tokens).names ↔ tree.Judged trees normalizer tokens false)

section Verdicts

variable {trees : List (String × Pattern)} {set raw : RuleSet} {tokens : List Token}

theorem known?_eq_some {name : String} {rule : Rule} (h : set.find? name = some rule) :
    set.known? tokens name = some (set.verdict tokens name).isSome := by
  rw [known?, h, Option.map_some]

theorem exists_rule_of_target?_eq {rule : Rule} (hrule : rule ∈ set.rules) {literal : Literal}
    (hliteral : literal ∈ rule.cnf.literals) {name : String} (hname : literal.target? = some name) :
    ∃ other ∈ set.rules, other.head = name :=
  set.wellFormed.defined rule hrule name (List.mem_filterMap.2 ⟨literal, hliteral, hname⟩)

/-- The `tree` of a rule is as true as the verdict says, if `ofRule` agrees with the verdicts on other rules as
`hinforms` says. -/
theorem truth?_eq_isSome_verdict {head : String} {rule : Rule} {cnf : Cnf} {tree : Pattern}
    {ofRule : String → Option Bool} (hfind : set.find? head = some rule)
    (htree : tree.toCnf normalizer = .ok cnf) (hcnf : rule.cnf = cnf ∨ rule.cnf = cnf.simplify)
    (hinforms : Pattern.Informs ofRule (set.verdict tokens) cnf.literals) :
    tree.truth? normalizer tokens ofRule = some (set.verdict tokens head).isSome := by
  rw [Pattern.truth?_of_toCnf htree hinforms, verdict_eq, hfind]
  dsimp only
  rcases hcnf with hcnf | hcnf
  · rw [hcnf]
  · rw [hcnf, Cnf.isSome_verdict_simplify_of_nil_notMem (uniform_verdict tokens _)
      (decisive_verdict tokens _) tokens.length (Pattern.nil_notMem_of_toCnf htree)]

/-- Simplified or not, as `hset` says, a `rule` is found under its name. -/
theorem exists_find?_eq (hset : set.rules = raw.rules ∨ set.rules = raw.rules.map Rule.simplify)
    {rule : Rule} (hrule : rule ∈ raw.rules) : ∃ found, set.find? rule.head = some found ∧
      (found.cnf = rule.cnf ∨ found.cnf = rule.cnf.simplify) := by
  rcases hset with hset | hset
  · exact ⟨rule, find?_eq_some_iff.2 ⟨hset ▸ hrule, rfl⟩, .inl rfl⟩
  · have hmem : rule.simplify ∈ set.rules := hset ▸ List.mem_map_of_mem hrule
    exact ⟨rule.simplify, find?_eq_some_iff.2 ⟨hmem, rfl⟩, .inr rfl⟩

namespace CompiledFrom

variable (h : CompiledFrom normalizer trees raw.rules)

include h

/-- Going down by lookups, every `tree` is judged as the verdict on its rule says. Only rules that this one looks up
are known, so the induction along the lookups reaches all of them. -/
theorem judged (tokens : List Token) : ∀ (name : String) (tree : Pattern), (name, tree) ∈ trees →
    tree.Judged trees normalizer tokens (raw.verdict tokens name).isSome := by
  intro name
  induction name using raw.wellFounded_lookups.induction with
  | _ name ih =>
    intro tree hmem
    obtain ⟨rule, hrule, rfl, htree⟩ := h.rule_of_tree name tree hmem
    have hfind : raw.find? rule.head = some rule := find?_eq_some_iff.2 ⟨hrule, rfl⟩
    have hinforms : Pattern.Informs
        (fun target => if target ∈ raw.lookupsOf rule.head then raw.known? tokens target else none)
        (raw.verdict tokens) rule.cnf.literals := by
      intro literal hliteral target htarget
      have hlookup : target ∈ raw.lookupsOf rule.head :=
        mem_lookupsOf_of_target? hfind hliteral htarget
      obtain ⟨other, hother, hhead⟩ := exists_rule_of_target?_eq hrule hliteral htarget
      exact (if_pos hlookup).trans (known?_eq_some (find?_eq_some_iff.2 ⟨hother, hhead⟩))
    refine Pattern.judged_of_truth?_eq (fun target b hb => ?_)
      (truth?_eq_isSome_verdict hfind htree (.inl rfl) hinforms)
    split_ifs at hb with hlookup
    obtain ⟨found, hfound, rfl⟩ := Option.map_eq_some_iff.1 hb
    obtain ⟨hmem', rfl⟩ := find?_eq_some_iff.1 hfound
    obtain ⟨other, hother⟩ := h.tree_of_rule found hmem'
    exact .lookup hother (ih found.head hlookup other hother)

variable (hset : set.rules = raw.rules ∨ set.rules = raw.rules.map Rule.simplify)

include hset

/-- A `tree` is as true as the verdict on its rule, when the verdicts are what is known of rules. -/
theorem truth?_eq (tokens : List Token) {head : String} {tree : Pattern}
    (hmem : (head, tree) ∈ trees) :
    tree.truth? normalizer tokens (set.known? tokens) = set.known? tokens head := by
  obtain ⟨rule, hrule, rfl, htree⟩ := h.rule_of_tree head tree hmem
  obtain ⟨found, hfind, hcnf⟩ := exists_find?_eq hset hrule
  rw [known?_eq_some hfind]
  refine truth?_eq_isSome_verdict hfind htree hcnf fun literal hliteral target htarget => ?_
  obtain ⟨other, hother, rfl⟩ := exists_rule_of_target?_eq hrule hliteral htarget
  obtain ⟨found', hfind', -⟩ := exists_find?_eq hset hother
  exact known?_eq_some hfind'

/-- A `tree` is judged in one way only, as the verdict on its rule says. -/
theorem judged_iff (tokens : List Token) {head : String} {tree : Pattern}
    (hmem : (head, tree) ∈ trees) (b : Bool) :
    tree.Judged trees normalizer tokens b ↔ (set.verdict tokens head).isSome = b := by
  have hverdict : ∀ b, tree.Judged trees normalizer tokens b →
      (set.verdict tokens head).isSome = b := by
    intro b hjudged
    have htruth := hjudged.truth?_eq fun entry hentry => h.truth?_eq hset tokens hentry
    obtain ⟨rule, hrule, rfl, -⟩ := h.rule_of_tree head tree hmem
    obtain ⟨found, hfind, -⟩ := exists_find?_eq hset hrule
    rw [h.truth?_eq hset tokens hmem, known?_eq_some hfind] at htruth
    exact Option.some.inj htruth
  constructor
  · exact hverdict b
  · rintro rfl
    have hjudged := h.judged tokens head tree hmem
    rwa [← hverdict _ hjudged] at hjudged

/-- The rules of trees, simplified or not, make up a set that means what the trees say. -/
theorem means : set.Means normalizer trees where
  named tokens head hhead := by
    rw [mem_names_evaluate_iff] at hhead
    have hmem : head ∈ set.rules.map Rule.head := by
      by_contra hnot
      rw [set.verdict_eq_none tokens hnot] at hhead
      cases hhead
    have hheads : set.rules.map Rule.head = raw.rules.map Rule.head := by
      rcases hset with hset | hset
      · rw [hset]
      · rw [hset, List.map_map]
        rfl
    rw [hheads] at hmem
    obtain ⟨rule, hrule, rfl⟩ := List.mem_map.1 hmem
    exact h.tree_of_rule rule hrule
  found_iff tokens head tree hmem := by
    rw [mem_names_evaluate_iff, h.judged_iff hset tokens hmem]
  missed_iff tokens head tree hmem := by
    rw [mem_names_evaluate_iff, h.judged_iff hset tokens hmem, Bool.not_eq_true]

end CompiledFrom

end Verdicts

/-- A source that is compiled without simplification is compiled with it too, and both sets mean what the
source says. -/
theorem ofSource_means {source : String} {raw : RuleSet}
    (h : ofSource ⟨normalizer, tokenizer, false⟩ source = .ok raw) :
    ∃ simplified, ofSource ⟨normalizer, tokenizer, true⟩ source = .ok simplified ∧
      raw.Means normalizer (trees source) ∧ simplified.Means normalizer (trees source) := by
  obtain ⟨hcompiled, simplified, hsimplified, hrules⟩ := ofSource_spec h
  exact ⟨simplified, hsimplified, hcompiled.means (.inl rfl), hcompiled.means (.inr hrules)⟩

/-- A source of two rules, one of which looks up the other. -/
theorem ofSource_means_lookup :
    let source := "fruit = apple | pear\nmeal = #fruit & -soup"
    ∃ raw simplified, ofSource ⟨.standard, .matching, false⟩ source = .ok raw ∧
      ofSource ⟨.standard, .matching, true⟩ source = .ok simplified ∧
      (trees source).map Prod.fst = ["fruit", "meal"] ∧
      raw.Means .standard (trees source) ∧ simplified.Means .standard (trees source) := by
  intro source
  have hcompiles : (ofSource ⟨.standard, .matching, false⟩ source).toBool = true := by
    decide +kernel
  cases hraw : ofSource ⟨.standard, .matching, false⟩ source with
  | error fault =>
    rw [hraw] at hcompiles
    cases hcompiles
  | ok raw =>
    obtain ⟨simplified, hsimplified, hmeans⟩ := ofSource_means hraw
    exact ⟨raw, simplified, rfl, hsimplified, by decide +kernel, hmeans⟩

end RuleSet

end Tagging
