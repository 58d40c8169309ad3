import Tagging.Options
import Tagging.Proofs.Caching
import Tagging.Proofs.Extent
import Tagging.Proofs.Tokens

/-!
# Matches are pieces of the text

The bytes of a match are read off its tokens, so they are no better than the span of tokens and the places
of the tokens in the text. Searches stay inside the text, and tokens stand in it one behind the other.
Together this says that a match always covers a real piece of the text: it begins with the word of the first
token covered and ends with that of the last one.
-/

namespace Tagging

namespace Tokenizer

variable {tokenizer : Tokenizer} {normalizer : Normalizer} {text : String} {i j : Nat}
  {token first last : Token}

theorem getElem?_tokenize (tokenizer : Tokenizer) (normalizer : Normalizer) (text : String) (i : Nat) :
    (tokenizer.tokenize normalizer text)[i]? = ((cut tokenizer.front 0 text.toList)[i]?).map
      fun (offset, piece) => toToken normalizer i offset piece := by
  unfold tokenize
  exact List.getElem?_mapIdx

/-- From the start of a token to the end of one that is not before it, the text starts with the word of `first` and
ends with that of `last`. -/
theorem slice?_tokens (hij : i ≤ j) (hi : (tokenizer.tokenize normalizer text)[i]? = some first)
    (hj : (tokenizer.tokenize normalizer text)[j]? = some last) :
    ∃ body, Text.slice? text.toList first.bytes.start last.bytes.stop = some body ∧
      first.word.toList <+: body ∧ last.word.toList <:+ body := by
  rw [getElem?_tokenize] at hi hj
  obtain ⟨⟨start, head⟩, hhead, rfl⟩ := Option.map_eq_some_iff.1 hi
  obtain ⟨⟨stop, tail⟩, htail, rfl⟩ := Option.map_eq_some_iff.1 hj
  obtain ⟨before, body, after, htext, hstart, hstop, hbegins, hends⟩ :=
    (placed_cut tokenizer.prefix_front 0 text.toList).between hij hhead htail
  refine ⟨body, Text.slice?_eq_some_iff.2 ⟨before, after, htext, ?_, hstop⟩, ?_, ?_⟩
  · rw [← hstart, Nat.zero_add]
    rfl
  · simpa [toToken] using hbegins
  · simpa [toToken] using hends

theorem isPlace_token (h : (tokenizer.tokenize normalizer text)[i]? = some token) :
    Text.IsPlace text.toList token.bytes.start ∧ Text.IsPlace text.toList token.bytes.stop := by
  obtain ⟨body, hbody, -⟩ := slice?_tokens (Nat.le_refl i) h h
  exact (Text.isSome_slice?_iff.1 (Option.isSome_of_mem hbody)).2

end Tokenizer

/-! ## The bytes of a span of tokens -/

namespace Span

variable {span : Span} {tokens : List Token} {first last : Token}

theorem isEmpty_eq_true_iff : span.isEmpty = true ↔ span.stop ≤ span.start :=
  decide_eq_true_iff

theorem toBytes_of_lt (hlt : span.start < span.stop) (hfirst : tokens[span.start]? = some first)
    (hlast : tokens[span.stop - 1]? = some last) :
    span.toBytes tokens = ⟨first.bytes.start, last.bytes.stop⟩ := by
  unfold toBytes
  rw [if_neg (by rw [isEmpty_eq_true_iff]; omega), hfirst, hlast]
  rfl

/-- When no token is covered, the bytes are the empty ones at a `place` of the text. -/
theorem toBytes_of_le {tokenizer : Tokenizer} {normalizer : Normalizer} {text : String}
    (hle : span.stop ≤ span.start) :
    ∃ place, span.toBytes (tokenizer.tokenize normalizer text) = ⟨place, place⟩ ∧
      Text.IsPlace text.toList place := by
  unfold toBytes
  rw [if_pos (isEmpty_eq_true_iff.2 hle)]
  refine ⟨_, rfl, ?_⟩
  cases hget : (tokenizer.tokenize normalizer text)[span.start]? with
  | some token => exact (Tokenizer.isPlace_token hget).1
  | none =>
    cases hlast : (tokenizer.tokenize normalizer text).getLast? with
    | none => exact ⟨[], List.nil_prefix, rfl⟩
    | some token =>
      rw [List.getLast?_eq_getElem?] at hlast
      exact (Tokenizer.isPlace_token hlast).2

end Span

/-! ## Matches -/

namespace Match

/-- What is covered reaches from the first of the tokens covered to the last one: it begins with the word of
the one and ends with that of the other. -/
def JoinsTokens (text : String) (tokens : List Token) (found : Match) : Prop :=
  ∃ first last body, tokens[found.tokens.start]? = some first ∧
    tokens[found.tokens.stop - 1]? = some last ∧
    found.bytes = ⟨first.bytes.start, last.bytes.stop⟩ ∧ found.body? text = some body ∧
    first.word.toList <+: body.toList ∧ last.word.toList <:+ body.toList

/-- The match covers a piece of the text that the tokens were cut from. -/
structure IsPiece (text : String) (tokens : List Token) (found : Match) : Prop where
  /-- The tokens covered are in order and among those of the text. -/
  tokens_within : found.tokens.Within tokens.length
  /-- The bytes covered are in order and among those of the text. -/
  bytes_within : found.bytes.Within (Text.byteLength text.toList)
  /-- They start in front of a character or at the end of the text. -/
  isPlace_start : Text.IsPlace text.toList found.bytes.start
  /-- They stop in front of a character or at the end of the text. -/
  isPlace_stop : Text.IsPlace text.toList found.bytes.stop
  /-- They can be cut out. -/
  isSome_body? : (found.body? text).isSome
  /-- If tokens are covered, the bytes are those from the first to the last of them. -/
  joins : found.tokens.start < found.tokens.stop → found.JoinsTokens text tokens
  /-- If no tokens are covered, no bytes are. -/
  empty : found.tokens.start = found.tokens.stop → found.bytes.start = found.bytes.stop

/-- A match whose bytes can be cut out of the `text` covers a piece of it, since only between two places something
can be cut out. -/
theorem IsPiece.of_isSome_slice? {text : String} {tokens : List Token} {found : Match}
    (hwithin : found.tokens.Within tokens.length)
    (hslice : (Text.slice? text.toList found.bytes.start found.bytes.stop).isSome)
    (joins : found.tokens.start < found.tokens.stop → found.JoinsTokens text tokens)
    (empty : found.tokens.start = found.tokens.stop → found.bytes.start = found.bytes.stop) :
    found.IsPiece text tokens := by
  obtain ⟨hle, hstart, hstop⟩ := Text.isSome_slice?_iff.1 hslice
  refine ⟨hwithin, ⟨hle, hstop.le_byteLength⟩, hstart, hstop, ?_, joins, empty⟩
  unfold body?
  rw [Option.isSome_map]
  exact hslice

/-- A span `h` within the tokens of a text is all that is needed. -/
theorem isPiece_ofSpan {tokenizer : Tokenizer} {normalizer : Normalizer} {text : String}
    (label : String) {span : Span} (h : span.Within (tokenizer.tokenize normalizer text).length) :
    (ofSpan label (tokenizer.tokenize normalizer text) span).IsPiece text
      (tokenizer.tokenize normalizer text) := by
  rcases Nat.lt_or_ge span.start span.stop with hlt | hle
  · obtain ⟨first, hfirst⟩ : ∃ first, (tokenizer.tokenize normalizer text)[span.start]? = some first :=
      ⟨_, List.getElem?_eq_getElem (Nat.lt_of_lt_of_le hlt h.2)⟩
    obtain ⟨last, hlast⟩ : ∃ last, (tokenizer.tokenize normalizer text)[span.stop - 1]? = some last :=
      ⟨_, List.getElem?_eq_getElem (Nat.lt_of_lt_of_le (by omega) h.2)⟩
    obtain ⟨body, hbody, hbegins, hends⟩ := Tokenizer.slice?_tokens (by omega) hfirst hlast
    have hbytes := Span.toBytes_of_lt hlt hfirst hlast
    unfold ofSpan
    rw [hbytes]
    refine .of_isSome_slice? h (Option.isSome_of_mem hbody) (fun _ => ?_) fun heq => ?_
    · refine ⟨first, last, String.ofList body, hfirst, hlast, rfl, ?_, ?_, ?_⟩
      · exact congrArg (Option.map String.ofList) hbody
      · rwa [String.toList_ofList]
      · rwa [String.toList_ofList]
    · exact absurd heq (Nat.ne_of_lt hlt)
  · obtain ⟨place, hbytes, hplace⟩ := Span.toBytes_of_le hle
    unfold ofSpan
    rw [hbytes]
    refine .of_isSome_slice? h ?_ (fun hlt => ?_) fun _ => rfl
    · exact Text.isSome_slice?_iff.2 ⟨Nat.le_refl _, hplace, hplace⟩
    · exact absurd hlt (Nat.not_lt.2 hle)

end Match

namespace Options

/-- Whatever the options and the rules are, every match that an evaluation files is filed under its label and
is a piece of the text, and so is what is found of a single pattern. -/
theorem matches_are_pieces (options : Options) (text : String) :
    (∀ (set : RuleSet) (name : String) (found : Match),
      (name, found) ∈ (set.evaluate (options.tokenize text)).entries →
        found.label = name ∧ found.IsPiece text (options.tokenize text)) ∧
    ∀ (source : String) (found : Match), options.find text source = .ok (some found) →
      found.label = source ∧ found.IsPiece text (options.tokenize text) := by
  constructor
  · intro set name found hmem
    have hfind := (Catalog.ordered_ofList _).lookup_eq_some hmem
    have hverdict := (set.find?_evaluate (options.tokenize text) name).symm.trans hfind
    obtain ⟨span, hspan, rfl⟩ := Option.map_eq_some_iff.1 hverdict
    exact ⟨rfl, Match.isPiece_ofSpan name (set.within_verdict _ name span hspan)⟩
  · intro source found hfind
    unfold find at hfind
    cases hcompile : options.compile source with
    | error fault =>
      rw [hcompile] at hfind
      cases hfind
    | ok cnf =>
      rw [hcompile] at hfind
      obtain ⟨span, hspan, rfl⟩ := Option.map_eq_some_iff.1 (Except.ok.inj hfind)
      exact ⟨rfl, Match.isPiece_ofSpan source (cnf.within_find _ span hspan)⟩

/-- The match of a rule and that of a pattern, both from the second byte of a text to its end. -/
theorem matches_are_pieces_accented :
    let options : Options := ⟨.identity, .whitespace, false⟩
    let text := " née pear"
    let set : RuleSet := ⟨[⟨"meal", ⟨[[.ofTerm (.exactly "née") false], [.ofTerm (.exactly "pear") false]]⟩⟩],
      by decide⟩
    let ofRule : Match := ⟨"meal", ⟨0, 2⟩, ⟨1, 10⟩⟩
    let ofPattern : Match := ⟨"née_?", ⟨0, 2⟩, ⟨1, 10⟩⟩
    (("meal", ofRule) ∈ (set.evaluate (options.tokenize text)).entries ∧
      ofRule.IsPiece text (options.tokenize text)) ∧
    options.find text "née_?" = .ok (some ofPattern) ∧
      ofPattern.IsPiece text (options.tokenize text) := by
  intro options text set ofRule ofPattern
  have hmem : ("meal", ofRule) ∈ (set.evaluate (options.tokenize text)).entries := by decide +kernel
  have hfind : options.find text "née_?" = .ok (some ofPattern) := by decide +kernel
  exact ⟨⟨hmem, ((options.matches_are_pieces text).1 set "meal" ofRule hmem).2⟩,
    hfind, ((options.matches_are_pieces text).2 "née_?" ofPattern hfind).2⟩

end Options

end Tagging
