import Mathlib.Data.List.TakeWhile
import Tagging.Proofs.NormalForm
import Tagging.Proofs.StandardNormalizer
import Tagging.Proofs.Rendering
import Tagging.RuleSet.Source

/-!
# Names of rules in lookups

A rule may have any name of letters and digits, and a lookup names a rule by a word. These are the same
strings but for four. The keywords are names that a rule can have, yet each of them is the lexeme of an
operator wherever it stands, so the rule of that name cannot be looked up.
-/

namespace Tagging

/-! ## Names that are read -/

namespace Lexeme

/-- The words that are lexemes of operators. -/
abbrev keywords : List String := ["AND", "OR", "NOT", "LOOKUP"]

/-- The `name` is a word of its own: letters and digits, at least one, and no keyword. -/
def IsWord (name : String) : Prop := (Pattern.lookup name).Writable

variable {c : Char} {text rest : List Char} {name : String}

/-- The `word` that is taken for a name is that `name`, and no keyword. -/
theorem eq_of_ofWord_eq_word {word : String} (h : ofWord word = .word name) :
    word = name ∧ name ∉ keywords := by
  unfold ofWord at h
  split_ifs at h with hand hor hnot hlookup
  cases h
  simp [hand, hor, hnot, hlookup]

theorem ofSign?_ne_word : ofSign? c ≠ some (.word name) := by
  intro h
  have hall : "()&|_-#?+*".toList.map ofSign? =
      [some .leftParen, some .rightParen, some .and, some .or, some .join, some .not, some .lookup,
        some (.wildcard .one), some (.wildcard .plus), some (.wildcard .star)] := by
    decide
  have hsign : ofSign? c ∈ "()&|_-#?+*".toList.map ofSign? := List.mem_map.2 ⟨c, mem_of_ofSign? h, rfl⟩
  rw [h, hall] at hsign
  simp at hsign

/-- If `next` takes the lexeme of a `name`, the `name` is a whole run of alphanumeric characters and no keyword. -/
theorem isWord_of_next (h : next c text = .ok (.word name, rest)) : IsWord name := by
  unfold next at h
  cases hsign : ofSign? c with
  | some sign =>
    rw [hsign] at h
    cases h
    exact absurd hsign ofSign?_ne_word
  | none =>
    rw [hsign] at h
    dsimp only at h
    split_ifs at h with hexact hquoted hword
    · cases hunquote : unquote? c text <;> rw [hunquote] at h <;> cases h
    · cases hunquote : unquote? c text <;> rw [hunquote] at h <;> cases h
    · obtain ⟨hlexeme, -⟩ := Prod.mk.inj (Except.ok.inj h)
      obtain ⟨rfl, hkeyword⟩ := eq_of_ofWord_eq_word hlexeme
      refine ⟨by simp [String.ext_iff], fun d hd => ?_, hkeyword⟩
      rw [String.toList_ofList] at hd
      rcases List.mem_cons.1 hd with rfl | hd
      · exact hword
      · exact List.mem_takeWhile_imp hd

end Lexeme

theorem Lexed.isWord_of_mem {position : Nat} {text : List Char} {located : Located} {name : String}
    (h : located ∈ (ofChars position text).lexemes) (hname : located.lexeme = .word name) :
    Lexeme.IsWord name := by
  fun_induction ofChars position text with
  | case1 => cases h
  | case2 position c text hspace ih => exact ih h
  | case3 => cases h
  | case4 position c text hspace lexeme rest hnext consumed lexed ih =>
    rcases List.mem_cons.1 h with rfl | h
    · obtain rfl : lexeme = .word name := hname
      exact Lexeme.isWord_of_next hnext
    · exact ih h

/-- The `name` of each lookup in a `tree` is one of the lexemes that derive the `tree`. -/
theorem Derives.word_mem {level : Level} {lexemes : List Lexeme} {tree : Pattern} {name : String}
    (h : Derives level lexemes tree) (hname : .lookup name ∈ tree.parts) : .word name ∈ lexemes := by
  induction h with
  | word | quoted | exactWord | wildcard => simp [Pattern.parts] at hname
  | lookup other =>
    obtain rfl : name = other := by simpa [Pattern.parts] using hname
    simp
  | not operand ih =>
    have hmem := ih (by simpa [Pattern.parts] using hname)
    exact List.mem_cons_of_mem _ hmem
  | parentheses inner ih => simp [ih hname]
  | single operand ih => exact ih hname
  | @more operator left right x y chain operand ihchain ihoperand =>
    have hparts : .lookup name ∈ x.parts ∨ .lookup name ∈ y.parts := by
      cases operator <;> simpa [Operator.combine, Pattern.parts] using hname
    rcases hparts with hx | hy
    · exact List.mem_append_left _ (ihchain hx)
    · exact List.mem_append_right _ (List.mem_cons_of_mem _ (ihoperand hy))

namespace Pattern

variable {source name : String} {tree : Pattern}

theorem ofString_eq_ok_of_lexes {lexemes : List Lexeme} (h : Lexes source.toList lexemes)
    (hderives : Derives (.chain .or) lexemes tree) : ofString source = .ok tree := by
  obtain ⟨hlexemes, hending⟩ := h 0
  refine Lexed.toPattern_eq_ok_iff.2 ⟨hending, ?_⟩
  rw [Lexed.ofString, hlexemes]
  exact hderives

theorem isWord_of_ofString (h : ofString source = .ok tree) (hname : .lookup name ∈ tree.parts) :
    Lexeme.IsWord name := by
  obtain ⟨-, hderives⟩ := Lexed.toPattern_eq_ok_iff.1 h
  obtain ⟨located, hlocated, hword⟩ := List.mem_map.1 (hderives.word_mem hname)
  exact Lexed.isWord_of_mem hlocated hword

/-- The sign of a lookup and a `name` behind it are read as the lookup of that `name` exactly if it is a word of its
own. -/
theorem ofString_lookup_iff : ofString ("#" ++ name) = .ok (.lookup name) ↔ Lexeme.IsWord name := by
  refine ⟨fun h => isWord_of_ofString h (self_mem_parts _), fun h => ?_⟩
  have hlexes := lexes_lookup h (by simp [Lexeme.EndsWord]) .nil
  rw [List.append_nil] at hlexes
  refine ofString_eq_ok_of_lexes ?_ (lookup name).derives_lexemes
  rw [String.toList_append]
  exact hlexes

end Pattern

/-- If the lexeme `next` behind the `sign` of a lookup is no word, there is an error at `next`. -/
theorem Lexed.toPattern_eq_error_of_noName {lexed : Lexed} {sign next : Located} {more : List Located}
    (hlexemes : lexed.lexemes = sign :: next :: more) (hsign : sign.lexeme = .lookup)
    (hnext : ∀ name, next.lexeme ≠ .word name) :
    lexed.toPattern = .error ⟨.ruleNameExpected, next.position⟩ := by
  have hfirst : Reader.read {} sign = .ok { expected := .ruleName } := by
    unfold Reader.read
    rw [hsign]
    rfl
  have hsecond : Reader.read { expected := .ruleName } next =
      .error ⟨.ruleNameExpected, next.position⟩ := by
    show Reader.readRuleName _ _ next.lexeme = _
    cases hlexeme : next.lexeme with
    | word name => exact absurd hlexeme (hnext name)
    | _ => rfl
  unfold toPattern
  rw [hlexemes, List.foldlM_cons, hfirst]
  show (List.foldlM Reader.read _ (next :: more) >>= _) = _
  rw [List.foldlM_cons, hsecond]
  rfl

/-- A keyword is not read as the name of a rule, but as an error at its first character. -/
theorem Pattern.ofString_lookup_keyword {name : String} (h : name ∈ Lexeme.keywords) :
    ofString ("#" ++ name) = .error ⟨.ruleNameExpected, 1⟩ := by
  have hlexemes : ∀ name ∈ Lexeme.keywords,
      (Lexed.ofString ("#" ++ name)).lexemes = [⟨.lookup, 0⟩, ⟨Lexeme.ofWord name, 1⟩] := by
    decide +kernel
  refine Lexed.toPattern_eq_error_of_noName (hlexemes name h) rfl fun other hother => ?_
  obtain ⟨rfl, hkeyword⟩ := Lexeme.eq_of_ofWord_eq_word hother
  exact hkeyword h

/-! ## Names that rules can have -/

namespace Rule

variable {options : Options} {name : String}

/-- Some line gives a rule of that `name`. -/
def IsDefinable (options : Options) (name : String) : Prop :=
  ∃ line rule, ofLine options line = .ok rule ∧ rule.head = name

theorem isName_iff {name : List Char} :
    isName name = true ↔ name ≠ [] ∧ ∀ c ∈ name, Unicode.isAlphanumeric c = true := by
  simp [isName, List.all_eq_true]

/-- The head of each `rule` that a `line` gives is a name of letters and digits. -/
theorem isName_of_ofTrimmed {number : Nat} {line : List Char} {rule : Rule}
    (h : ofTrimmed options number line = .ok rule) : isName rule.head.toList = true := by
  unfold ofTrimmed at h
  cases hsplit : Text.splitOnce? '=' line with
  | none =>
    rw [hsplit] at h
    cases h
  | some parts =>
    rw [hsplit] at h
    dsimp only at h
    split_ifs at h with hname
    cases hcompile : options.compile (String.ofList (Text.trim parts.2)) with
    | error fault =>
      rw [hcompile] at h
      cases h
    | ok cnf =>
      rw [hcompile] at h
      cases h
      rw [String.toList_ofList]
      exact hname

/-- The pattern of a wildcard can be compiled whatever the `options` are. -/
theorem exists_compile_wildcard (options : Options) : ∃ cnf, options.compile "?" = .ok cnf := by
  have hread : Pattern.ofString "?" = .ok (.wildcard .one) :=
    Pattern.ofString_eq_ok_of_lexes (.sign (c := '?') rfl .nil)
      (Pattern.wildcard .one).derives_lexemes
  have hcnf : (Pattern.wildcard .one).toCnf options.normalizer =
      .ok ⟨[[.ofWildcard .one false]]⟩ := by
    rw [Pattern.toCnf, Pattern.clausalTree, Pattern.negationNormal_eq_pushNot]
    rfl
  unfold Options.compile Options.clausalForm
  rw [hread]
  dsimp only
  rw [hcnf]
  exact ⟨_, rfl⟩

/-- A line of a `name`, an equals sign and a wildcard gives the rule of that `name`. -/
theorem ofLine_wildcard (hname : isName name.toList = true) {cnf : Cnf}
    (hcnf : options.compile "?" = .ok cnf) : ofLine options (name ++ "=?") = .ok ⟨name, cnf⟩ := by
  obtain ⟨-, halphanumeric⟩ := isName_iff.1 hname
  have hspace : ∀ c ∈ name.toList, Unicode.isWhiteSpace c = false :=
    fun c hc => Unicode.not_isWhiteSpace_of_isAlphanumeric (halphanumeric c hc)
  have hequals : Unicode.isWhiteSpace '=' = false := by decide
  have hwildcard : Unicode.isWhiteSpace '?' = false := by decide
  have hsigns : ∀ c ∈ ['=', '?'], Unicode.isWhiteSpace c = false := by simp [hequals, hwildcard]
  have hline : Text.trim (name ++ "=?").toList = name.toList ++ ['=', '?'] := by
    rw [String.toList_append]
    exact Text.trim_eq_self fun c hc => (List.mem_append.1 hc).elim (hspace c) (hsigns c)
  have hsplit : Text.splitOnce? '=' (name.toList ++ ['=', '?']) = some (name.toList, ['?']) := by
    refine Text.splitOnce?_eq_some_iff.2 ⟨rfl, fun hmem => ?_⟩
    exact absurd (halphanumeric '=' hmem) (by decide +kernel)
  unfold ofLine ofTrimmed
  rw [hline, hsplit]
  dsimp only
  rw [Text.trim_eq_self hspace, if_pos hname]
  have hbody : String.ofList (Text.trim ['?']) = "?" := by decide
  rw [hbody, hcnf, String.ofList_toList]

/-- The names that rules can have are the words of letters and digits, keywords included. Any body shows this: that
of a wildcard has no words, so it compiles with every normalizer. -/
theorem isDefinable_iff : IsDefinable options name ↔
    name ≠ "" ∧ ∀ c ∈ name.toList, Unicode.isAlphanumeric c = true := by
  have hname : isName name.toList = true ↔
      name ≠ "" ∧ ∀ c ∈ name.toList, Unicode.isAlphanumeric c = true := by
    rw [isName_iff, ne_eq, String.toList_eq_nil_iff]
  rw [← hname]
  constructor
  · rintro ⟨line, rule, hrule, rfl⟩
    exact isName_of_ofTrimmed hrule
  · intro hname
    obtain ⟨cnf, hcnf⟩ := exists_compile_wildcard options
    exact ⟨_, _, ofLine_wildcard hname hcnf, rfl⟩

/-- The names that lookups can have are those that rules can have, except for `keywords`, which no lookup can have.
All names that are looked up in a `tree` that can be read are names that rules can have. -/
theorem lookup_names_definable_rule (options : Options) :
    (∀ name, Pattern.ofString ("#" ++ name) = .ok (.lookup name) ↔
      IsDefinable options name ∧ name ∉ Lexeme.keywords) ∧
    (∀ name ∈ Lexeme.keywords, IsDefinable options name ∧
      Pattern.ofString ("#" ++ name) = .error ⟨.ruleNameExpected, 1⟩) ∧
    ∀ source tree, Pattern.ofString source = .ok tree →
      ∀ name, .lookup name ∈ tree.parts → IsDefinable options name := by
  refine ⟨fun name => ?_, fun name hname => ⟨?_, Pattern.ofString_lookup_keyword hname⟩, ?_⟩
  · rw [Pattern.ofString_lookup_iff, isDefinable_iff, and_assoc]
    rfl
  · have hall : ∀ name ∈ Lexeme.keywords,
        name ≠ "" ∧ name.toList.all Unicode.isAlphanumeric = true := by decide +kernel
    exact isDefinable_iff.2 ⟨(hall name hname).1, List.all_eq_true.1 (hall name hname).2⟩
  · intro source tree hread name hname
    obtain ⟨hne, halphanumeric, -⟩ := Pattern.isWord_of_ofString hread hname
    exact isDefinable_iff.2 ⟨hne, halphanumeric⟩

/-- A line gives a rule that has a keyword for its name, and no pattern can look it up by that name. -/
theorem keyword_rule_has_no_lookup :
    (ofLine {} "AND = x").toOption.map Rule.head = some "AND" ∧
      Pattern.ofString "#AND" = .error ⟨.ruleNameExpected, 1⟩ := by
  have hkeyword : "AND" ∈ Lexeme.keywords := by decide
  exact ⟨by decide +kernel, Pattern.ofString_lookup_keyword hkeyword⟩

end Rule

end Tagging
