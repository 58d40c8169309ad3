import Tagging.Proofs.Lexing
import Tagging.Proofs.Place

/-!
# A lexer that keeps a byte offset

Such a lexer has nothing of the source but the offset that it has got to. Before it can look at a character
it has to cut the source there, and wherever that cannot be done it fails. From a place of the source on it
never fails: it reads what stands there, as if that had been given to it as a text.
-/

namespace Tagging

/-! ## Characters by their offsets -/

namespace Text

variable {source : List Char} {c : Char} {position stop : Nat} {p : Char → Bool}

/-- The character at byte `position`, with the offset behind it, or `none` at the end of `source`. Fails if `source`
cannot be cut at `position`. -/
def charAt? (source : List Char) (position : Nat) : Option (Option (Char × Nat)) :=
  (dropBytes? position source).map fun ahead => ahead.head?.map fun c => (c, position + c.utf8Size)

theorem charAt?_cons (before : List Char) (c : Char) (text : List Char) :
    charAt? (before ++ c :: text) (byteLength before) = some (some (c, byteLength (before ++ [c]))) := by
  have hahead : dropBytes? (byteLength before) (before ++ c :: text) = some (c :: text) :=
    dropBytes?_eq_some_iff.2 ⟨before, rfl, rfl⟩
  simp [charAt?, hahead]

theorem charAt?_nil (source : List Char) : charAt? source (byteLength source) = some none := by
  have hahead : dropBytes? (byteLength source) source = some [] :=
    dropBytes?_eq_some_iff.2 ⟨source, (List.append_nil source).symm, rfl⟩
  simp [charAt?, hahead]

/-- The offset `stop` behind a character is further on than its `position`, but not beyond the end of `source`. -/
theorem lt_of_charAt? (h : charAt? source position = some (some (c, stop))) :
    position < stop ∧ stop ≤ byteLength source := by
  obtain ⟨ahead, hahead, hhead⟩ := Option.map_eq_some_iff.1 h
  obtain ⟨before, rfl, rfl⟩ := dropBytes?_eq_some_iff.1 hahead
  obtain ⟨d, hd, ⟨⟩⟩ := Option.map_eq_some_iff.1 hhead
  obtain ⟨text, rfl⟩ := List.head?_eq_some_iff.1 hd
  have := c.utf8Size_pos
  rw [byteLength_append, byteLength_cons]
  omega

/-- The offset behind the characters from byte `position` on that satisfy `p`. -/
def runEnd? (p : Char → Bool) (source : List Char) (position : Nat) : Option Nat :=
  match _h : charAt? source position with
  | none => none
  | some none => some position
  | some (some (c, stop)) => if p c then runEnd? p source stop else some position
termination_by byteLength source - position
decreasing_by
  have := lt_of_charAt? _h
  omega

theorem runEnd?_eq_of_end (h : charAt? source position = some none) :
    runEnd? p source position = some position := by
  rw [runEnd?]
  split <;> simp_all

theorem runEnd?_eq_of_char (h : charAt? source position = some (some (c, stop))) :
    runEnd? p source position = if p c then runEnd? p source stop else some position := by
  rw [runEnd?]
  split <;> simp_all

/-- From behind `before` on, a run ends where `text.takeWhile p` does. -/
theorem runEnd?_append (p : Char → Bool) (before text : List Char) :
    runEnd? p (before ++ text) (byteLength before) =
      some (byteLength (before ++ text.takeWhile p)) := by
  induction text generalizing before with
  | nil =>
    rw [List.takeWhile_nil, List.append_nil]
    exact runEnd?_eq_of_end (charAt?_nil before)
  | cons c text ih =>
    rw [runEnd?_eq_of_char (charAt?_cons before c text), List.takeWhile_cons]
    split_ifs with hc
    · rw [List.append_cons, ih, ← List.append_cons]
    · rw [List.append_nil]

theorem byteLength_append_sub (before rest : List Char) :
    byteLength (before ++ rest) - byteLength rest = byteLength before := by
  rw [byteLength_append, Nat.add_sub_cancel]

end Text

/-! ## Lexemes by their offsets -/

namespace Lexeme

variable {source : List Char} {c d quote : Char} {position stop after : Nat}

/-- The content of a quoted word that goes on at byte `position`, with the offset behind its `quote`, or `none` if
no `quote` ends it. -/
def unquoteAt? (source : List Char) (quote : Char) (position : Nat) :
    Option (Option (List Char × Nat)) :=
  match _hc : Text.charAt? source position with
  | none => none
  | some none => some none
  | some (some (c, stop)) =>
    if c = '\\' then
      match _hd : Text.charAt? source stop with
      | none => none
      | some none => some none
      | some (some (d, stop)) => (unquoteAt? source quote stop).map
          (·.map fun (content, stop) => (d :: content, stop))
    else if c = quote then some (some ([], stop))
    else (unquoteAt? source quote stop).map (·.map fun (content, stop) => (c :: content, stop))
termination_by Text.byteLength source - position
decreasing_by
  · have := Text.lt_of_charAt? _hc
    have := Text.lt_of_charAt? _hd
    omega
  · have := Text.lt_of_charAt? _hc
    omega

theorem unquoteAt?_eq_of_end (h : Text.charAt? source position = some none) :
    unquoteAt? source quote position = some none := by
  rw [unquoteAt?]
  split <;> simp_all

theorem unquoteAt?_eq_of_char (h : Text.charAt? source position = some (some (c, stop))) (hc : c ≠ '\\') :
    unquoteAt? source quote position =
      if c = quote then some (some ([], stop))
      else (unquoteAt? source quote stop).map (·.map fun (content, stop) => (c :: content, stop)) := by
  rw [unquoteAt?]
  split <;> simp_all

theorem unquoteAt?_eq_of_escape (h : Text.charAt? source position = some (some ('\\', stop)))
    (hnext : Text.charAt? source stop = some (some (d, after))) :
    unquoteAt? source quote position =
      (unquoteAt? source quote after).map (·.map fun (content, stop) => (d :: content, stop)) := by
  rw [unquoteAt?]
  split <;> simp_all
  split <;> simp_all

theorem unquoteAt?_eq_of_open_escape (h : Text.charAt? source position = some (some ('\\', stop)))
    (hnext : Text.charAt? source stop = some none) : unquoteAt? source quote position = some none := by
  rw [unquoteAt?]
  split <;> simp_all
  split <;> simp_all

/-- From behind `before` on, `unquoteAt?` reads what `unquote?` reads from `text`, and the offset that it gives is
where the characters start that `unquote?` leaves. The two characters of an escape are looked at one by one, each
from a place of its own. -/
theorem unquoteAt?_append (quote : Char) (before text : List Char) :
    unquoteAt? (before ++ text) quote (Text.byteLength before) =
      some ((unquote? quote text).map fun (content, rest) =>
        (content, Text.byteLength (before ++ text) - Text.byteLength rest)) := by
  fun_induction unquote? quote text generalizing before with
  | case1 =>
    rw [List.append_nil]
    exact unquoteAt?_eq_of_end (Text.charAt?_nil before)
  | case2 =>
    refine unquoteAt?_eq_of_open_escape (Text.charAt?_cons before '\\' []) ?_
    exact Text.charAt?_nil (before ++ ['\\'])
  | case3 d text ih =>
    have hescape := Text.charAt?_cons before '\\' (d :: text)
    have hnext := Text.charAt?_cons (before ++ ['\\']) d text
    rw [← List.append_cons] at hnext
    rw [unquoteAt?_eq_of_escape hescape hnext]
    have hrest := ih (before ++ ['\\'] ++ [d])
    rw [← List.append_cons, ← List.append_cons] at hrest
    rw [hrest]
    simp [Option.map_map]
    rfl
  | case4 text hescape =>
    have hstop := Text.byteLength_append_sub (before ++ [quote]) text
    rw [← List.append_cons] at hstop
    rw [unquoteAt?_eq_of_char (Text.charAt?_cons before quote text) hescape, if_pos rfl, ← hstop]
    rfl
  | case5 c text hescape hquote ih =>
    have hrest := ih (before ++ [c])
    rw [← List.append_cons] at hrest
    rw [unquoteAt?_eq_of_char (Text.charAt?_cons before c text) hescape, if_neg hquote, hrest]
    simp [Option.map_map]
    rfl

/-- The lexeme whose first character `c` stands at byte `start`, up to byte `stop`, and the offset behind the
lexeme. -/
def nextAt? (source : List Char) (start : Nat) (c : Char) (stop : Nat) :
    Option (Except ReadError.Cause (Lexeme × Nat)) :=
  match ofSign? c with
  | some lexeme => some (.ok (lexeme, stop))
  | none =>
    if c = '\"' then
      (unquoteAt? source c stop).map fun
        | some (content, stop) => .ok (.exactWord (String.ofList content), stop)
        | none => .error (.unterminatedQuote c)
    else if c = '\'' then
      (unquoteAt? source c stop).map fun
        | some (content, stop) => .ok (.quoted (String.ofList content), stop)
        | none => .error (.unterminatedQuote c)
    else if Unicode.isAlphanumeric c then do
      let stop ← Text.runEnd? Unicode.isAlphanumeric source stop
      let word ← Text.slice? source start stop
      return .ok (ofWord (String.ofList word), stop)
    else some (.error (.unexpectedCharacter c))

/-- The word that starts with `c` behind `before` can be cut out up to where its run of alphanumeric characters
ends. -/
theorem slice?_word (before : List Char) (c : Char) (text : List Char) :
    Text.slice? (before ++ c :: text) (Text.byteLength before)
      (Text.byteLength (before ++ [c] ++ text.takeWhile Unicode.isAlphanumeric)) =
      some (c :: text.takeWhile Unicode.isAlphanumeric) := by
  refine Text.slice?_eq_some_iff.2 ⟨before, text.dropWhile Unicode.isAlphanumeric, ?_, rfl, ?_⟩
  · rw [List.cons_append, List.takeWhile_append_dropWhile]
  · rw [← List.append_cons, Text.byteLength_append]

/-- From behind `before` on, `nextAt?` reads the lexeme that `next` reads from `c` and `text`, and the offset that
it gives is where the characters start that `next` leaves. -/
theorem nextAt?_append (before : List Char) (c : Char) (text : List Char) :
    nextAt? (before ++ c :: text) (Text.byteLength before) c (Text.byteLength (before ++ [c])) =
      some ((next c text).map fun (lexeme, rest) =>
        (lexeme, Text.byteLength (before ++ c :: text) - Text.byteLength rest)) := by
  have hunquote := unquoteAt?_append c (before ++ [c]) text
  have hrun := Text.runEnd?_append Unicode.isAlphanumeric (before ++ [c]) text
  rw [← List.append_cons] at hunquote hrun
  unfold nextAt? next
  cases hsign : ofSign? c with
  | some lexeme =>
    have hstop := Text.byteLength_append_sub (before ++ [c]) text
    rw [← List.append_cons] at hstop
    dsimp only
    rw [← hstop]
    rfl
  | none =>
    dsimp only
    split_ifs with hexact hquoted hword
    · rw [hunquote]
      cases unquote? c text <;> rfl
    · rw [hunquote]
      cases unquote? c text <;> rfl
    · rw [hrun]
      show (Text.slice? _ _ _ >>= _) = _
      rw [slice?_word]
      have hstop := Text.byteLength_append_sub
        (before ++ c :: text.takeWhile Unicode.isAlphanumeric) (text.dropWhile Unicode.isAlphanumeric)
      rw [List.append_assoc, List.cons_append, List.takeWhile_append_dropWhile] at hstop
      rw [← List.append_cons, ← hstop]
      rfl
    · rfl

end Lexeme

/-! ## Turns -/

namespace Lexed

/-- What a turn of the lexer comes to. -/
inductive Turn where
  /-- A lexeme, and the byte offset behind it. -/
  | taken (located : Located) (stop : Nat)
  /-- An error, which ends the reading. -/
  | fault (error : ReadError)
  /-- The end of the source, at that byte offset. -/
  | finish (position : Nat)

/-- One turn of the lexer from byte `position` of `source` on: white space is skipped, and then a lexeme is read.
The turn fails if `source` cannot be cut at one of the offsets at which a character is looked for. -/
def turn? (source : List Char) (position : Nat) : Option Turn := do
  let start ← Text.runEnd? Unicode.isWhiteSpace source position
  match ← Text.charAt? source start with
  | none => return .finish (Text.byteLength source)
  | some (c, stop) =>
    match ← Lexeme.nextAt? source start c stop with
    | .error cause => return .fault ⟨cause, start⟩
    | .ok (lexeme, stop) => return .taken ⟨lexeme, start⟩ stop

/-- What the lexer comes to at byte `start` of `source`, where the given text is ahead. -/
def Turn.read (source : List Char) (start : Nat) : List Char → Turn
  | [] => .finish (Text.byteLength source)
  | c :: text =>
    match Lexeme.next c text with
    | .error cause => .fault ⟨cause, start⟩
    | .ok (lexeme, rest) => .taken ⟨lexeme, start⟩ (Text.byteLength source - Text.byteLength rest)

/-- From behind `before` on, a turn never fails. It skips the white space at the front of `ahead` and comes to what
`Turn.read` says of the others. -/
theorem turn?_append (before ahead : List Char) :
    turn? (before ++ ahead) (Text.byteLength before) =
      some (.read (before ++ ahead)
        (Text.byteLength (before ++ ahead.takeWhile Unicode.isWhiteSpace))
        (ahead.dropWhile Unicode.isWhiteSpace)) := by
  unfold turn?
  rw [Text.runEnd?_append]
  have hsource : before ++ ahead = before ++ ahead.takeWhile Unicode.isWhiteSpace ++
      ahead.dropWhile Unicode.isWhiteSpace := by
    rw [List.append_assoc, List.takeWhile_append_dropWhile]
  generalize before ++ ahead.takeWhile Unicode.isWhiteSpace = front at hsource ⊢
  rw [hsource]
  show (Text.charAt? _ _ >>= _) = _
  cases ahead.dropWhile Unicode.isWhiteSpace with
  | nil =>
    rw [List.append_nil, Text.charAt?_nil]
    rfl
  | cons c text =>
    rw [Text.charAt?_cons]
    show (Lexeme.nextAt? _ _ _ _ >>= _) = _
    rw [Lexeme.nextAt?_append, Turn.read]
    cases Lexeme.next c text <;> rfl

end Lexed

end Tagging
