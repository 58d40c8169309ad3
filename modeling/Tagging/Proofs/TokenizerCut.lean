import Tagging.Proofs.Pieces

/-!
# How a tokenizer cuts a text

A text is gone through from the front. What a tokenizer takes there is a piece, and where it takes nothing, one
character is passed over. So a piece is all that is taken at its place, no two pieces overlap, and a character
at which something is always taken is in a piece.
-/

namespace Tagging

namespace Tokenizer

variable {front : List Char → List Char} {offset start : Nat} {c : Char}
  {text piece before after : List Char} {pieces : List (Nat × List Char)}

namespace Parted

/-- No piece starts before `offset`, where the text does. -/
theorem le_of_mem (h : Parted front offset text pieces) (hmem : (start, piece) ∈ pieces) :
    offset ≤ start := by
  induction h with
  | nil => cases hmem
  | skip _ _ ih =>
    have := ih hmem
    omega
  | take _ _ _ ih =>
    rcases List.mem_cons.1 hmem with heq | hmem
    · exact Nat.le_of_eq (Prod.mk.inj heq).1.symm
    · have := ih hmem
      omega

theorem pairwise (h : Parted front offset text pieces) :
    pieces.Pairwise fun a b => a.1 + Text.byteLength a.2 ≤ b.1 := by
  induction h with
  | nil => exact .nil
  | skip _ _ ih => exact ih
  | take _ _ rest ih => exact .cons (fun _ hnext => rest.le_of_mem hnext) ih

/-- A `piece` is what is taken from all that follows at its place. -/
theorem exists_taken (h : Parted front offset text pieces) (hmem : (start, piece) ∈ pieces) :
    piece ≠ [] ∧ ∃ before after, text = before ++ (piece ++ after) ∧
      offset + Text.byteLength before = start ∧ front (piece ++ after) = piece := by
  induction h with
  | nil => cases hmem
  | @skip offset c text pieces _ _ ih =>
    obtain ⟨hne, before, after, rfl, hstart, htaken⟩ := ih hmem
    refine ⟨hne, c :: before, after, rfl, ?_, htaken⟩
    rw [Text.byteLength_cons, ← Nat.add_assoc, hstart]
  | @take offset first text pieces hne htaken _ ih =>
    rcases List.mem_cons.1 hmem with heq | hmem
    · obtain ⟨rfl, rfl⟩ := Prod.mk.inj heq
      exact ⟨hne, [], text, rfl, rfl, htaken⟩
    · obtain ⟨hne, before, after, rfl, hstart, htaken⟩ := ih hmem
      refine ⟨hne, first ++ before, after, by simp, ?_, htaken⟩
      rw [Text.byteLength_append, ← Nat.add_assoc, hstart]

/-- A character `c` is in a piece if something is taken wherever it comes next, as `htaken` says. By induction on
the parting: either `c` is in the piece at the front, or it is in the text behind that. -/
theorem exists_around (h : Parted front offset (before ++ c :: after) pieces)
    (htaken : ∀ rest, front (c :: rest) ≠ []) :
    ∃ start left right, (start, left ++ c :: right) ∈ pieces ∧
      start + Text.byteLength left = offset + Text.byteLength before := by
  generalize htext : before ++ c :: after = text at h
  induction h generalizing before with
  | nil => exact absurd htext (by simp)
  | @skip offset d text pieces huntaken _ ih =>
    cases before with
    | nil =>
      obtain ⟨rfl, rfl⟩ := List.cons.inj htext
      exact absurd huntaken (htaken after)
    | cons e before =>
      obtain ⟨rfl, hrest⟩ := List.cons.inj htext
      obtain ⟨start, left, right, hmem, hplace⟩ := ih hrest
      refine ⟨start, left, right, hmem, ?_⟩
      rw [hplace, Text.byteLength_cons, Nat.add_assoc]
  | @take offset piece text pieces _ _ _ ih =>
    have hbeyond : ∀ between, before = piece ++ between → between ++ c :: after = text →
        ∃ start left right, (start, left ++ c :: right) ∈ (offset, piece) :: pieces ∧
          start + Text.byteLength left = offset + Text.byteLength before := by
      rintro between rfl hrest
      obtain ⟨start, left, right, hmem, hplace⟩ := ih hrest
      refine ⟨start, left, right, List.mem_cons_of_mem _ hmem, ?_⟩
      rw [hplace, Text.byteLength_append, Nat.add_assoc]
    rcases List.append_eq_append_iff.1 htext with ⟨inner, hpiece, hrest⟩ | ⟨between, hbefore, hrest⟩
    · cases inner with
      | nil =>
        rw [List.append_nil] at hpiece
        exact hbeyond [] (by rw [hpiece, List.append_nil]) hrest
      | cons d right =>
        obtain ⟨rfl, -⟩ := List.cons.inj hrest
        exact ⟨offset, before, right, by rw [hpiece]; exact List.mem_cons_self, rfl⟩
    · exact hbeyond between hbefore hrest.symm

end Parted

/-! ## Tokens -/

variable {tokenizer : Tokenizer} {normalizer : Normalizer} {string : String} {token : Token} {i : Nat}

theorem parted_tokenizer (tokenizer : Tokenizer) (text : List Char) :
    Parted tokenizer.front 0 text (cut tokenizer.front 0 text) :=
  parted_cut tokenizer.prefix_front 0 text

theorem map_bytes_tokenize (tokenizer : Tokenizer) (normalizer : Normalizer) (text : String) :
    (tokenizer.tokenize normalizer text).map Token.bytes =
      (cut tokenizer.front 0 text.toList).map
        fun (start, piece) => ⟨start, start + Text.byteLength piece⟩ := by
  refine List.ext_getElem? fun i => ?_
  rw [List.getElem?_map, List.getElem?_map, getElem?_tokenize, Option.map_map]
  rfl

theorem map_word_tokenize (tokenizer : Tokenizer) (normalizer : Normalizer) (text : String) :
    (tokenizer.tokenize normalizer text).map (·.word.toList) =
      (cut tokenizer.front 0 text.toList).map Prod.snd := by
  refine List.ext_getElem? fun i => ?_
  rw [List.getElem?_map, List.getElem?_map, getElem?_tokenize, Option.map_map]
  refine congrArg (Option.map · _) (funext fun (start, piece) => ?_)
  exact String.toList_ofList

/-- A `token` has the word and the bytes of a piece. -/
theorem exists_piece_of_mem (h : token ∈ tokenizer.tokenize normalizer string) :
    (token.bytes.start, token.word.toList) ∈ cut tokenizer.front 0 string.toList ∧
      token.bytes.stop = token.bytes.start + Text.byteLength token.word.toList := by
  obtain ⟨i, hi⟩ := List.mem_iff_getElem?.1 h
  rw [getElem?_tokenize] at hi
  obtain ⟨⟨start, piece⟩, hpiece, rfl⟩ := Option.map_eq_some_iff.1 hi
  have hword : (toToken normalizer i start piece).word.toList = piece := String.toList_ofList
  rw [hword]
  exact ⟨List.mem_of_getElem? hpiece, rfl⟩

theorem pairwise_tokenize (tokenizer : Tokenizer) (normalizer : Normalizer) (text : String) :
    (tokenizer.tokenize normalizer text).Pairwise fun a b => a.bytes.stop ≤ b.bytes.start := by
  have hbytes : ((tokenizer.tokenize normalizer text).map Token.bytes).Pairwise
      fun a b => a.stop ≤ b.start := by
    rw [map_bytes_tokenize]
    exact List.pairwise_map.2 (parted_tokenizer tokenizer text.toList).pairwise
  exact List.pairwise_map.1 hbytes

/-- A character `c` is in a token if something is taken wherever it comes next, as `htaken` says. -/
theorem exists_token_around (normalizer : Normalizer) (htaken : ∀ rest, tokenizer.front (c :: rest) ≠ [])
    (htext : string.toList = before ++ c :: after) :
    ∃ token ∈ tokenizer.tokenize normalizer string, c ∈ token.word.toList ∧
      token.bytes.start ≤ Text.byteLength before ∧
      Text.byteLength before + c.utf8Size ≤ token.bytes.stop := by
  have hparted := parted_tokenizer tokenizer string.toList
  rw [htext] at hparted
  obtain ⟨start, left, right, hmem, hplace⟩ := hparted.exists_around htaken
  rw [← htext] at hmem
  obtain ⟨i, hi⟩ := List.mem_iff_getElem?.1 hmem
  have htoken : (tokenizer.tokenize normalizer string)[i]? =
      some (toToken normalizer i start (left ++ c :: right)) := by
    rw [getElem?_tokenize, hi]
    rfl
  have hbytes : (toToken normalizer i start (left ++ c :: right)).bytes =
      ⟨start, start + (Text.byteLength left + (c.utf8Size + Text.byteLength right))⟩ := by
    rw [← Text.byteLength_cons, ← Text.byteLength_append]
    rfl
  refine ⟨_, List.mem_of_getElem? htoken, ?_, ?_, ?_⟩
  · simp [toToken]
  · rw [hbytes]
    show start ≤ _
    omega
  · rw [hbytes]
    show _ ≤ start + _
    omega

end Tokenizer

end Tagging
