import Tagging.Proofs.TokenizerCut

/-!
# Runs of characters

A tokenizer that takes whatever is of a class takes the longest runs of that class, and takes every one of them:
where it stops there is no more of the class, so the next run starts behind a character that is not of it. For
`whitespace` the class is all that is not white space. For `splitting` it is all but its separators, among which
are no more than five of the white space characters.
-/

namespace Tagging

namespace Text

/-! ## Longest runs -/

/-- Between `before` and `after`, `run` has nothing but characters of the class and cannot be made longer. -/
structure IsLongest (ofClass : Char → Bool) (before run after : List Char) : Prop where
  ne_nil : run ≠ []
  forall_mem : ∀ c ∈ run, ofClass c = true
  before_ends : ∀ c ∈ before.getLast?, ofClass c = false
  after_starts : ∀ c ∈ after.head?, ofClass c = false

/-- A longest run of characters of the class stands in the text from byte `start` on; `offset` is that of the
text itself. -/
def IsRunAt (ofClass : Char → Bool) (offset : Nat) (text : List Char) (start : Nat) (run : List Char) :
    Prop :=
  ∃ before after, text = before ++ (run ++ after) ∧ offset + byteLength before = start ∧
    IsLongest ofClass before run after

/-- These are the bytes of a longest run of characters of the class. -/
def IsRun (ofClass : Char → Bool) (text : List Char) (span : Span) : Prop :=
  ∃ run, IsRunAt ofClass 0 text span.start run ∧ span.stop = span.start + byteLength run

variable {ofClass : Char → Bool} {c : Char} {offset start : Nat} {text before run after : List Char}
  {words : List (List Char)}

/-- What is taken of a class from `run` and what follows is `run` itself exactly if it is of the class and the class
ends there. -/
theorem takeWhile_append_eq_self_iff : (run ++ after).takeWhile ofClass = run ↔
    (∀ c ∈ run, ofClass c = true) ∧ ∀ c ∈ after.head?, ofClass c = false := by
  induction run with
  | nil => cases after <;> simp [List.takeWhile_cons]
  | cons c run ih =>
    by_cases hc : ofClass c = true
    · rw [List.cons_append, List.takeWhile_cons_of_pos hc, List.cons.injEq, ih, List.forall_mem_cons]
      simp [hc]
    · rw [List.cons_append, List.takeWhile_cons_of_neg hc]
      simp [hc]

theorem IsLongest.takeWhile_eq (h : IsLongest ofClass before run after) :
    (run ++ after).takeWhile ofClass = run :=
  takeWhile_append_eq_self_iff.2 ⟨h.forall_mem, h.after_starts⟩

theorem IsLongest.exists_cons (h : IsLongest ofClass before run after) :
    ∃ c rest, run = c :: rest ∧ ofClass c = true := by
  obtain ⟨c, rest, rfl⟩ := List.exists_cons_of_ne_nil h.ne_nil
  exact ⟨c, rest, rfl, h.forall_mem c List.mem_cons_self⟩

theorem forall_mem_getLast?_cons_iff (hc : ofClass c = false) :
    (∀ d ∈ (c :: before).getLast?, ofClass d = false) ↔ ∀ d ∈ before.getLast?, ofClass d = false := by
  cases before with
  | nil => simp [hc]
  | cons d before => rw [List.getLast?_cons_cons]

/-- What is all of the class and does not end with a character of it is empty. -/
theorem eq_nil_of_forall_mem_getLast? (hall : ∀ d ∈ before, ofClass d = true)
    (h : ∀ d ∈ before.getLast?, ofClass d = false) : before = [] := by
  cases hlast : before.getLast? with
  | none => exact List.getLast?_eq_none_iff.1 hlast
  | some d =>
    have hd := h d hlast
    rw [hall d (List.mem_of_getLast? hlast)] at hd
    cases hd

theorem not_isRunAt_nil : ¬ IsRunAt ofClass offset [] start run := by
  rintro ⟨before, after, htext, -, hlongest⟩
  have hrun := (List.append_eq_nil_iff.1 (List.append_eq_nil_iff.1 htext.symm).2).1
  exact hlongest.ne_nil hrun

/-- A character `c` that is not of the class is in no run. -/
theorem isRunAt_cons_iff (hc : ofClass c = false) : IsRunAt ofClass offset (c :: text) start run ↔
    IsRunAt ofClass (offset + c.utf8Size) text start run := by
  constructor
  · rintro ⟨before, after, htext, rfl, hlongest⟩
    cases before with
    | nil =>
      obtain ⟨d, rest, rfl, hd⟩ := hlongest.exists_cons
      obtain ⟨rfl, -⟩ := List.cons.inj htext
      rw [hc] at hd
      cases hd
    | cons d before =>
      obtain ⟨rfl, rfl⟩ := List.cons.inj htext
      have hends := (forall_mem_getLast?_cons_iff hc).1 hlongest.before_ends
      exact ⟨before, after, rfl, by rw [byteLength_cons, Nat.add_assoc],
        { hlongest with before_ends := hends }⟩
  · rintro ⟨before, after, rfl, rfl, hlongest⟩
    have hends := (forall_mem_getLast?_cons_iff hc).2 hlongest.before_ends
    exact ⟨c :: before, after, rfl, by rw [byteLength_cons, Nat.add_assoc],
      { hlongest with before_ends := hends }⟩

/-- A longest run `first` at the front of a text is one of its runs, and the others follow it. A run does not start
inside of `first`: what stands before it there would be of the class, and may not end with it. -/
theorem isRunAt_append_iff {first : List Char} (hfirst : IsLongest ofClass [] first text) :
    IsRunAt ofClass offset (first ++ text) start run ↔ (start = offset ∧ run = first) ∨
      IsRunAt ofClass (offset + byteLength first) text start run := by
  constructor
  · rintro ⟨before, after, htext, rfl, hlongest⟩
    rcases List.append_eq_append_iff.1 htext with ⟨between, rfl, hrest⟩ | ⟨inner, hinner, -⟩
    · right
      have hbetween : between ≠ [] := by
        rintro rfl
        rw [List.append_nil] at hlongest
        exact hfirst.ne_nil (eq_nil_of_forall_mem_getLast? hfirst.forall_mem hlongest.before_ends)
      refine ⟨between, after, hrest, by rw [byteLength_append, Nat.add_assoc], ?_⟩
      refine { hlongest with before_ends := ?_ }
      rw [← List.getLast?_append_of_ne_nil first hbetween]
      exact hlongest.before_ends
    · left
      have hbefore : ∀ d ∈ before, ofClass d = true := by
        intro d hd
        refine hfirst.forall_mem d ?_
        rw [hinner]
        exact List.mem_append_left _ hd
      obtain rfl := eq_nil_of_forall_mem_getLast? hbefore hlongest.before_ends
      rw [List.nil_append] at htext
      refine ⟨rfl, ?_⟩
      rw [← hlongest.takeWhile_eq, ← htext, hfirst.takeWhile_eq]
  · rintro (⟨rfl, rfl⟩ | ⟨before, after, rfl, rfl, hlongest⟩)
    · exact ⟨[], text, rfl, rfl, hfirst⟩
    · have hbefore : before ≠ [] := by
        rintro rfl
        obtain ⟨d, rest, rfl, hd⟩ := hlongest.exists_cons
        rw [hfirst.after_starts d rfl] at hd
        cases hd
      refine ⟨first ++ before, after, by simp, by rw [byteLength_append, Nat.add_assoc], ?_⟩
      refine { hlongest with before_ends := ?_ }
      rw [List.getLast?_append_of_ne_nil _ hbefore]
      exact hlongest.before_ends

theorem IsRun.forall_mem_slice? {span : Span} {piece : List Char} (h : IsRun ofClass text span)
    (hslice : slice? text span.start span.stop = some piece) : ∀ c ∈ piece, ofClass c = true := by
  obtain ⟨run, ⟨before, after, htext, hstart, hlongest⟩, hstop⟩ := h
  rw [Nat.zero_add] at hstart
  have hrun : slice? text span.start span.stop = some run :=
    slice?_eq_some_iff.2 ⟨before, after, htext, hstart, hstop.symm⟩
  rw [hslice] at hrun
  cases hrun
  exact hlongest.forall_mem

/-- Classes that agree on the `text` have the same runs in it. -/
theorem IsRun.congr {other : Char → Bool} {span : Span} (hagree : ∀ c ∈ text, ofClass c = other c)
    (h : IsRun ofClass text span) : IsRun other text span := by
  obtain ⟨run, ⟨before, after, rfl, hstart, hlongest⟩, hstop⟩ := h
  have hbefore : ∀ c ∈ before, other c = ofClass c :=
    fun c hc => (hagree c (List.mem_append_left _ hc)).symm
  have hrun : ∀ c ∈ run, other c = ofClass c :=
    fun c hc => (hagree c (List.mem_append_right _ (List.mem_append_left _ hc))).symm
  have hafter : ∀ c ∈ after, other c = ofClass c :=
    fun c hc => (hagree c (List.mem_append_right _ (List.mem_append_right _ hc))).symm
  refine ⟨run, ⟨before, after, rfl, hstart, hlongest.ne_nil, fun c hc => ?_, fun c hc => ?_,
    fun c hc => ?_⟩, hstop⟩
  · rw [hrun c hc]
    exact hlongest.forall_mem c hc
  · rw [hbefore c (List.mem_of_getLast? hc)]
    exact hlongest.before_ends c hc
  · rw [hafter c (List.mem_of_head? hc)]
    exact hlongest.after_starts c hc

/-! ## Words and what is between them -/

/-- The words stand in the text in this order, with nothing but characters of the class around them. -/
inductive Interleaved (ofClass : Char → Bool) : List Char → List (List Char) → Prop where
  | last {text : List Char} (gap : ∀ c ∈ text, ofClass c = true) : Interleaved ofClass text []
  | word {before word text : List Char} {words : List (List Char)}
      (gap : ∀ c ∈ before, ofClass c = true) (rest : Interleaved ofClass text words) :
      Interleaved ofClass (before ++ (word ++ text)) (word :: words)

theorem Interleaved.cons (hc : ofClass c = true) (h : Interleaved ofClass text words) :
    Interleaved ofClass (c :: text) words := by
  cases h with
  | last gap => exact .last (List.forall_mem_cons.2 ⟨hc, gap⟩)
  | @word before _ _ _ gap rest =>
    have hgap : ∀ d ∈ c :: before, ofClass d = true := List.forall_mem_cons.2 ⟨hc, gap⟩
    exact .word hgap rest

end Text

/-! ## What is taken of a class -/

namespace Tokenizer

open Text (IsRun IsRunAt Interleaved)

variable {front : List Char → List Char} {ofClass : Char → Bool} {offset start : Nat}
  {text run : List Char} {pieces : List (Nat × List Char)}

/-- If all that is passed over is of the class, as `hskip` says, the pieces are words between which there is nothing
else. -/
theorem Parted.interleaved (h : Parted front offset text pieces)
    (hskip : ∀ c text, front (c :: text) = [] → ofClass c = true) :
    Interleaved ofClass text (pieces.map Prod.snd) := by
  induction h with
  | nil => exact .last (by simp)
  | skip huntaken _ ih => exact ih.cons (hskip _ _ huntaken)
  | take _ _ _ ih => exact .word (List.forall_mem_nil _) ih

theorem takeWhile_cons_eq_nil_iff {c : Char} :
    (c :: text).takeWhile ofClass = [] ↔ ofClass c = false := by
  by_cases hc : ofClass c = true <;> simp [hc]

/-- What is taken of a class are its longest runs. By induction on the parting, since behind a run there starts a
text that has the others. -/
theorem Parted.mem_iff_isRunAt (h : Parted (·.takeWhile ofClass) offset text pieces) :
    (start, run) ∈ pieces ↔ IsRunAt ofClass offset text start run := by
  induction h with
  | nil => exact ⟨fun hmem => absurd hmem List.not_mem_nil, fun hrun => absurd hrun Text.not_isRunAt_nil⟩
  | skip huntaken _ ih => rw [Text.isRunAt_cons_iff (takeWhile_cons_eq_nil_iff.1 huntaken), ih]
  | @take offset piece text pieces hne htaken _ ih =>
    obtain ⟨hpiece, htext⟩ := Text.takeWhile_append_eq_self_iff.1 htaken
    rw [List.mem_cons, ih, Prod.mk.injEq, Text.isRunAt_append_iff ⟨hne, hpiece, by simp, htext⟩]

/-- The tokens of a tokenizer that takes whatever is of a class, as `hfront` says, are the longest runs of it. -/
theorem mem_map_bytes_iff_isRun {tokenizer : Tokenizer} (hfront : tokenizer.front = (·.takeWhile ofClass))
    (normalizer : Normalizer) (text : String) (span : Span) :
    span ∈ (tokenizer.tokenize normalizer text).map Token.bytes ↔ IsRun ofClass text.toList span := by
  have hparted := parted_tokenizer tokenizer text.toList
  rw [map_bytes_tokenize, List.mem_map]
  rw [hfront] at hparted ⊢
  constructor
  · rintro ⟨⟨start, run⟩, hmem, rfl⟩
    exact ⟨run, hparted.mem_iff_isRunAt.1 hmem, rfl⟩
  · rintro ⟨run, hrun, hstop⟩
    exact ⟨(span.start, run), hparted.mem_iff_isRunAt.2 hrun, congrArg (Span.mk span.start) hstop.symm⟩

end Tokenizer

/-! ## Tokens -/

/-- The token says truly where it stands in the text, what stands there and how that is compared. -/
structure Token.IsPiece (normalizer : Normalizer) (text : String) (token : Token) : Prop where
  start_lt_stop : token.bytes.start < token.bytes.stop
  isPlace_start : Text.IsPlace text.toList token.bytes.start
  isPlace_stop : Text.IsPlace text.toList token.bytes.stop
  slice : Text.slice? text.toList token.bytes.start token.bytes.stop = some token.word.toList
  normalized : token.normalized = normalizer.normalize token.word

namespace Tokenizer

open Text (IsRun Interleaved)

/-- Token number `i` has this number and is a piece of the `text`. -/
theorem isPiece_of_getElem? {tokenizer : Tokenizer} {normalizer : Normalizer} {text : String} {i : Nat}
    {token : Token} (h : (tokenizer.tokenize normalizer text)[i]? = some token) :
    token.position = i ∧ token.IsPiece normalizer text := by
  obtain ⟨hmem, hstop⟩ := exists_piece_of_mem (List.mem_of_getElem? h)
  obtain ⟨hne, before, after, htext, hstart, -⟩ := (parted_tokenizer tokenizer text.toList).exists_taken hmem
  rw [Nat.zero_add] at hstart
  have hlength := Text.byteLength_pos hne
  have hslice : Text.slice? text.toList token.bytes.start token.bytes.stop = some token.word.toList :=
    Text.slice?_eq_some_iff.2 ⟨before, after, htext, hstart, hstop.symm⟩
  obtain ⟨-, hplaceStart, hplaceStop⟩ := Text.isSome_slice?_iff.1 (Option.isSome_of_mem hslice)
  rw [getElem?_tokenize] at h
  obtain ⟨⟨start, piece⟩, -, rfl⟩ := Option.map_eq_some_iff.1 h
  refine ⟨rfl, by omega, hplaceStart, hplaceStop, hslice, ?_⟩
  show _ = String.ofList (normalizer.normalizeChars (String.ofList piece).toList)
  rw [String.toList_ofList]
  rfl

/-- The tokens are pieces of the text, numbered from front to back, none of which overlap. Those of `whitespace`
are the longest runs without white space, and nothing else stands around them. -/
theorem tokens_stand_in_order (tokenizer : Tokenizer) (normalizer : Normalizer) (text : String) :
    (∀ (i : Nat) (token : Token), (tokenizer.tokenize normalizer text)[i]? = some token →
      token.position = i ∧ token.IsPiece normalizer text) ∧
    ((tokenizer.tokenize normalizer text).Pairwise fun a b => a.bytes.stop ≤ b.bytes.start) ∧
    (∀ span, span ∈ (whitespace.tokenize normalizer text).map Token.bytes ↔
      IsRun (!Unicode.isWhiteSpace ·) text.toList span) ∧
    Interleaved Unicode.isWhiteSpace text.toList
      ((whitespace.tokenize normalizer text).map (·.word.toList)) := by
  refine ⟨fun i token h => isPiece_of_getElem? h, pairwise_tokenize tokenizer normalizer text, ?_, ?_⟩
  · exact mem_map_bytes_iff_isRun rfl normalizer text
  · rw [map_word_tokenize]
    refine (parted_tokenizer whitespace text.toList).interleaved fun c rest huntaken => ?_
    have huntaken : (c :: rest).takeWhile (!Unicode.isWhiteSpace ·) = [] := huntaken
    simpa using takeWhile_cons_eq_nil_iff.1 huntaken

/-- The second token of a text with a two-byte letter in its first word. -/
theorem tokens_stand_in_order_accented :
    let token : Token := ⟨"Pear", "pear", 1, ⟨6, 10⟩⟩
    (whitespace.tokenize .standard "Née  Pear")[1]? = some token ∧
      token.position = 1 ∧ token.IsPiece .standard "Née  Pear" := by
  intro token
  have htoken : (whitespace.tokenize .standard "Née  Pear")[1]? = some token := by decide +kernel
  exact ⟨htoken, (tokens_stand_in_order whitespace .standard "Née  Pear").1 1 token htoken⟩

/-! ## Separators -/

/-- The white space characters that `splitting` cuts at. -/
def blanks : List Char := [' ', '\t', '\n', '\r', '\x0c']

/-- The punctuation marks that `splitting` cuts at. -/
def punctuation : List Char := ",.:;?![]()\x7b\x7d&|/<=>".toList

/-- Whether a character is white space of any kind or one of the punctuation marks. -/
def isSpaceOrPunctuation (c : Char) : Bool := Unicode.isWhiteSpace c || punctuation.contains c

theorem separates_iff {c : Char} : separates c = true ↔ c ∈ blanks ∨ c ∈ punctuation := by
  have hlist : " \t\n\r\x0c,.:;?![]()\x7b\x7d&|/<=>".toList = blanks ++ punctuation := by decide
  rw [separates, hlist, List.contains_iff_mem, List.mem_append]

theorem isSpaceOrPunctuation_iff {c : Char} :
    isSpaceOrPunctuation c = true ↔ Unicode.isWhiteSpace c = true ∨ c ∈ punctuation := by
  rw [isSpaceOrPunctuation, Bool.or_eq_true, List.contains_iff_mem]

theorem isWhiteSpace_of_mem_blanks {c : Char} (h : c ∈ blanks) : Unicode.isWhiteSpace c = true := by
  have hall : blanks.all Unicode.isWhiteSpace = true := by decide +kernel
  exact List.all_eq_true.1 hall c h

theorem not_isWhiteSpace_of_mem_punctuation {c : Char} (h : c ∈ punctuation) :
    Unicode.isWhiteSpace c = false := by
  have hall : punctuation.all (!Unicode.isWhiteSpace ·) = true := by decide +kernel
  simpa using List.all_eq_true.1 hall c h

/-- If `c` is a blank or no white space at all, it is cut at exactly if it is white space or punctuation. -/
theorem separates_eq_isSpaceOrPunctuation {c : Char} (h : Unicode.isWhiteSpace c = true → c ∈ blanks) :
    separates c = isSpaceOrPunctuation c := by
  rw [Bool.eq_iff_iff, separates_iff, isSpaceOrPunctuation_iff]
  exact or_congr_left ⟨isWhiteSpace_of_mem_blanks, h⟩

/-- White space that is not cut at is in a token, which then is no run of characters without white space. -/
theorem mem_blanks_of_forall_isRun {normalizer : Normalizer} {text : String}
    (h : ∀ span ∈ (splitting.tokenize normalizer text).map Token.bytes,
      IsRun (!isSpaceOrPunctuation ·) text.toList span) :
    ∀ c ∈ text.toList, Unicode.isWhiteSpace c = true → c ∈ blanks := by
  intro c hc hspace
  by_contra hblank
  have hpunctuation : c ∉ punctuation := by
    intro hmem
    rw [not_isWhiteSpace_of_mem_punctuation hmem] at hspace
    cases hspace
  have htaken : ∀ rest, splitting.front (c :: rest) ≠ [] := by
    intro rest hnil
    have hnil : (c :: rest).takeWhile (!separates ·) = [] := hnil
    have hseparates : separates c = true := by simpa using takeWhile_cons_eq_nil_iff.1 hnil
    exact (separates_iff.1 hseparates).elim hblank hpunctuation
  obtain ⟨before, after, htext⟩ := List.append_of_mem hc
  obtain ⟨token, htoken, hword, -⟩ := exists_token_around normalizer htaken htext
  obtain ⟨i, hi⟩ := List.mem_iff_getElem?.1 htoken
  have hrun := h token.bytes (List.mem_map_of_mem htoken)
  have hnot := hrun.forall_mem_slice? (isPiece_of_getElem? hi).2.slice c hword
  rw [Bool.not_eq_true', Bool.eq_false_iff, ne_eq, isSpaceOrPunctuation_iff] at hnot
  exact hnot (.inl hspace)

/-- The tokens of `splitting` are the longest runs without its separators. They are the longest runs without
white space and punctuation exactly if there is no white space in the text but blanks. -/
theorem splitting_cuts_at_blanks (normalizer : Normalizer) (text : String) :
    (∀ span, span ∈ (splitting.tokenize normalizer text).map Token.bytes ↔
      IsRun (!separates ·) text.toList span) ∧
    ((∀ span, span ∈ (splitting.tokenize normalizer text).map Token.bytes ↔
        IsRun (!isSpaceOrPunctuation ·) text.toList span) ↔
      ∀ c ∈ text.toList, Unicode.isWhiteSpace c = true → c ∈ blanks) := by
  have hfront : splitting.front = (·.takeWhile (!separates ·)) := rfl
  have hruns := mem_map_bytes_iff_isRun hfront normalizer text
  refine ⟨hruns, fun h => mem_blanks_of_forall_isRun fun span => (h span).1, fun hblanks span => ?_⟩
  have hagree : ∀ c ∈ text.toList, (!separates c) = !isSpaceOrPunctuation c :=
    fun c hc => congrArg (!·) (separates_eq_isSpaceOrPunctuation (hblanks c hc))
  rw [hruns]
  exact ⟨Text.IsRun.congr hagree, Text.IsRun.congr fun c hc => (hagree c hc).symm⟩

/-- A no-break space, which is two bytes wide, stays inside a token. -/
theorem splitting_keeps_no_break_space :
    let text := "a\u00a0b"
    Unicode.isWhiteSpace '\u00a0' = true ∧
      (splitting.tokenize .identity text).map Token.bytes = [⟨0, 4⟩] ∧
      IsRun (!isSpaceOrPunctuation ·) text.toList ⟨0, 1⟩ ∧
      ¬ ∀ span, span ∈ (splitting.tokenize .identity text).map Token.bytes ↔
        IsRun (!isSpaceOrPunctuation ·) text.toList span := by
  intro text
  have hbytes : (splitting.tokenize .identity text).map Token.bytes = [⟨0, 4⟩] := by decide +kernel
  have hrun : IsRun (!isSpaceOrPunctuation ·) text.toList ⟨0, 1⟩ := by
    have htext : text.toList = [] ++ (['a'] ++ ['\u00a0', 'b']) := by decide +kernel
    have ha : (!isSpaceOrPunctuation 'a') = true := by decide +kernel
    have hspace : (!isSpaceOrPunctuation '\u00a0') = false := by decide +kernel
    exact ⟨['a'], ⟨[], ['\u00a0', 'b'], htext, rfl, by simp, by simpa using ha, by simp,
      by simpa using hspace⟩, rfl⟩
  refine ⟨by decide +kernel, hbytes, hrun, fun h => ?_⟩
  have hmem := (h ⟨0, 1⟩).2 hrun
  rw [hbytes] at hmem
  exact absurd hmem (by decide)

end Tokenizer

end Tagging
