import Tagging.Pattern.Reader
import Tagging.Proofs.Offsets

/-!
# Positions of lexemes and errors

Lexemes and errors are located by byte offsets. A lexer that keeps nothing but such an offset cannot go on
from inside a character, and if it took the failure for the end of the source, the rest of a pattern would be
lost without notice. It never gets there: each of its turns ends at a place of the source, further on than it
started, if it does not end the reading. Its lexemes are those that the source is cut into, so every error is
located at a place of the source too.
-/

namespace Tagging

/-- The `lexeme` is read from the characters `written`, and nothing of them is left. -/
def Lexeme.IsWritten (lexeme : Lexeme) (written : List Char) : Prop :=
  ∃ c text, written = c :: text ∧ next c text = .ok (lexeme, [])

namespace Lexed

/-! ## Turns from places of the source -/

/-- Turns of the lexer, each from where the one before it stopped, come to these lexemes and to this end. -/
inductive Follows (source : List Char) : Nat → Lexed → Prop where
  | taken {position stop : Nat} {located : Located} {lexed : Lexed}
      (hturn : turn? source position = some (.taken located stop)) (h : Follows source stop lexed) :
      Follows source position ⟨located :: lexed.lexemes, lexed.ending⟩
  | fault {position : Nat} {error : ReadError} (hturn : turn? source position = some (.fault error)) :
      Follows source position ⟨[], .error error⟩
  | finish {position stop : Nat} (hturn : turn? source position = some (.finish stop)) :
      Follows source position ⟨[], .ok stop⟩

/-- Between the byte offsets `start` and `stop` of `source` stands white space, or nothing. -/
def IsBlank (source : List Char) (start stop : Nat) : Prop :=
  ∃ blank, Text.slice? source start stop = some blank ∧ ∀ c ∈ blank, Unicode.isWhiteSpace c = true

/-- What a turn from byte `position` on comes to stands behind white space. A lexeme has been read from what stands
between its two offsets, and the second one is a place further on. An error is located at a place, and the end is
that of `source`. -/
def Turn.IsSafe (source : List Char) (position : Nat) : Turn → Prop
  | .taken located stop => IsBlank source position located.position ∧
      (∃ written, Text.slice? source located.position stop = some written ∧
        located.lexeme.IsWritten written) ∧
      position < stop ∧ Text.IsPlace source stop
  | .fault error => IsBlank source position error.position ∧ Text.IsPlace source error.position
  | .finish stop => IsBlank source position stop ∧ stop = Text.byteLength source

section Turns

variable {source before ahead tail rest : List Char} {c : Char} {lexeme : Lexeme} {position : Nat}
  {lexed : Lexed}

/-- If `next` takes a `lexeme` from `c` and `tail`, the turn stops right behind `tail`. -/
theorem Turn.read_taken (before : List Char) (hnext : Lexeme.next c (tail ++ rest) = .ok (lexeme, rest)) :
    Turn.read (before ++ c :: (tail ++ rest)) (Text.byteLength before) (c :: (tail ++ rest)) =
      .taken ⟨lexeme, Text.byteLength before⟩ (Text.byteLength (before ++ c :: tail)) := by
  have hstop := Text.byteLength_append_sub (before ++ c :: tail) rest
  rw [List.append_assoc, List.cons_append] at hstop
  rw [read, hnext, ← hstop]

/-- What is read from `behind` is safe for a turn that started in front of the white space `blank`. -/
theorem Turn.isSafe_read {blank : List Char} (before behind : List Char)
    (hblank : ∀ c ∈ blank, Unicode.isWhiteSpace c = true) :
    (Turn.read (before ++ blank ++ behind) (Text.byteLength (before ++ blank)) behind).IsSafe
      (before ++ blank ++ behind) (Text.byteLength before) := by
  have hskipped : IsBlank (before ++ blank ++ behind) (Text.byteLength before)
      (Text.byteLength (before ++ blank)) := by
    refine ⟨blank, Text.slice?_eq_some_iff.2 ⟨before, behind, ?_, rfl, ?_⟩, hblank⟩
    · rw [List.append_assoc]
    · rw [Text.byteLength_append]
  cases behind with
  | nil =>
    rw [List.append_nil] at hskipped ⊢
    exact ⟨hskipped, rfl⟩
  | cons c text =>
    cases hnext : Lexeme.next c text with
    | error cause =>
      rw [read, hnext]
      exact ⟨hskipped, before ++ blank, List.prefix_append _ _, rfl⟩
    | ok parts =>
      obtain ⟨lexeme, rest⟩ := parts
      obtain ⟨tail, rfl, hwritten⟩ := Lexeme.exists_written_of_next hnext
      have hpositive := Text.byteLength_pos (List.cons_ne_nil c tail)
      rw [read_taken _ hnext]
      refine ⟨hskipped, ⟨c :: tail, ?_, c, tail, rfl, hwritten⟩, ?_, ?_⟩
      · exact Text.slice?_eq_some_iff.2 ⟨before ++ blank, rest, rfl, rfl, (Text.byteLength_append _ _).symm⟩
      · simp only [Text.byteLength_append]
        omega
      · refine ⟨before ++ blank ++ c :: tail, ⟨rest, ?_⟩, rfl⟩
        rw [List.append_assoc _ (c :: tail), List.cons_append]

/-- From each place of `source` a turn can be made, and what it comes to is safe. -/
theorem exists_turn (h : Text.IsPlace source position) :
    ∃ turn, turn? source position = some turn ∧ turn.IsSafe source position := by
  obtain ⟨before, ⟨ahead, rfl⟩, rfl⟩ := h
  refine ⟨_, turn?_append before ahead, ?_⟩
  have hblank : ∀ c ∈ ahead.takeWhile Unicode.isWhiteSpace, Unicode.isWhiteSpace c = true :=
    fun c hc => List.mem_takeWhile_imp hc
  have hsafe := Turn.isSafe_read before (ahead.dropWhile Unicode.isWhiteSpace) hblank
  rwa [List.append_assoc, List.takeWhile_append_dropWhile] at hsafe

/-! ## The lexemes of the source -/

/-- A turn that starts at the white space `c` comes to the same as one that starts behind `c`. -/
theorem turn?_whiteSpace (hc : Unicode.isWhiteSpace c = true) (before ahead : List Char) :
    turn? (before ++ c :: ahead) (Text.byteLength before) =
      turn? (before ++ c :: ahead) (Text.byteLength (before ++ [c])) := by
  have hskipped := turn?_append (before ++ [c]) ahead
  rw [← List.append_cons, ← List.append_cons] at hskipped
  rw [turn?_append, hskipped, List.takeWhile_cons_of_pos hc, List.dropWhile_cons_of_pos hc]

/-- A turn that starts at a character `c` that is no white space reads from `c` on. -/
theorem turn?_cons (hc : ¬ Unicode.isWhiteSpace c = true) (before text : List Char) :
    turn? (before ++ c :: text) (Text.byteLength before) =
      some (.read (before ++ c :: text) (Text.byteLength before) (c :: text)) := by
  rw [turn?_append, List.takeWhile_cons_of_neg hc, List.dropWhile_cons_of_neg hc, List.append_nil]

/-- The lexemes are the same from two offsets whose first turns are: it makes no difference where in the white space
before a lexeme the lexer starts. -/
theorem Follows.of_turn?_eq {start : Nat} (h : Follows source position lexed)
    (hturn : turn? source start = turn? source position) : Follows source start lexed := by
  cases h with
  | taken hfirst h => exact .taken (hturn.trans hfirst) h
  | fault hfirst => exact .fault (hturn.trans hfirst)
  | finish hfirst => exact .finish (hturn.trans hfirst)

/-- The lexemes that `ofChars` reads from `ahead` are those that turns come to from byte `position` of `source` on,
where `ahead` stands. By induction on `ofChars`: what a lexeme is read from joins `before`, and the next turn starts
behind both. -/
theorem follows_ofChars (hsource : source = before ++ ahead) (hposition : Text.byteLength before = position) :
    Follows source position (ofChars position ahead) := by
  fun_induction ofChars position ahead generalizing before with
  | case1 position =>
    subst hsource hposition
    refine .finish ?_
    rw [turn?_append, List.append_nil]
    rfl
  | case2 position c text hspace ih =>
    subst hsource hposition
    have hskipped : Text.byteLength (before ++ [c]) = Text.byteLength before + c.utf8Size := by simp
    rw [← hskipped] at ih ⊢
    exact (ih (List.append_cons before c text) rfl).of_turn?_eq (turn?_whiteSpace hspace before text)
  | case3 position c text hspace cause hnext =>
    subst hsource hposition
    refine .fault ?_
    rw [turn?_cons hspace, Turn.read, hnext]
  | case4 position c text hspace lexeme rest hnext consumed lexed =>
    rename_i ih
    subst hsource hposition
    obtain ⟨tail, rfl, -⟩ := Lexeme.exists_written_of_next hnext
    have hconsumed : Text.byteLength (before ++ c :: tail) = Text.byteLength before + consumed := by
      have hlength := Text.byteLength_append_sub (c :: tail) rest
      rw [List.cons_append] at hlength
      rw [Text.byteLength_append, ← hlength]
    refine .taken ?_ (ih ?_ hconsumed)
    · rw [turn?_cons hspace, Turn.read_taken before hnext, hconsumed]
    · rw [List.append_assoc, List.cons_append]

theorem IsBlank.isPlace {start stop : Nat} (h : IsBlank source start stop) : Text.IsPlace source stop := by
  obtain ⟨blank, hblank, -⟩ := h
  exact (Text.isSome_slice?_iff.1 (Option.isSome_of_eq_some hblank)).2.2

/-- A turn from a place of `source` is the one that `exists_turn` gives, so it is safe. -/
theorem isSafe_of_turn? {turn : Turn} (h : turn? source position = some turn)
    (hposition : Text.IsPlace source position) : turn.IsSafe source position := by
  obtain ⟨other, hother, hsafe⟩ := exists_turn hposition
  rw [h] at hother
  cases hother
  exact hsafe

/-- The offsets of the lexemes that turns come to, and of the end or the fault behind them, are places of `source`.
-/
theorem Follows.isPlace (h : Follows source position lexed) (hposition : Text.IsPlace source position) :
    (∀ located ∈ lexed.lexemes, Text.IsPlace source located.position) ∧
      (∀ stop, lexed.ending = .ok stop → Text.IsPlace source stop) ∧
      ∀ error, lexed.ending = .error error → Text.IsPlace source error.position := by
  induction h with
  | taken hturn h ih =>
    obtain ⟨hblank, -, -, hstop⟩ := isSafe_of_turn? hturn hposition
    obtain ⟨hlexemes, hending⟩ := ih hstop
    exact ⟨List.forall_mem_cons.2 ⟨hblank.isPlace, hlexemes⟩, hending⟩
  | fault hturn =>
    have hplace := (isSafe_of_turn? hturn hposition).2
    exact ⟨by simp, by simp, by rintro _ ⟨⟩; exact hplace⟩
  | finish hturn =>
    have hplace := (isSafe_of_turn? hturn hposition).1.isPlace
    exact ⟨by simp, by rintro _ ⟨⟩; exact hplace, by simp⟩

end Turns

end Lexed

namespace Reader

/-! ## Errors of the reader -/

/-- Each parenthesis that is still open stands at a byte offset with the property `place`. -/
def OpenedAt (place : Nat → Prop) (reader : Reader) : Prop := ∀ opened ∈ reader.stack, place opened.1

variable {place : Nat → Prop} {reader after : Reader} {next : Located} {error : ReadError}

/-- One lexeme that stands at such a `place` keeps the open parentheses at such places, and an error of `read` is
located at one too. A closing parenthesis that is missing is reported where the open one stands. -/
theorem OpenedAt.read (h : reader.OpenedAt place) (hnext : place next.position) :
    match reader.read next with
    | .ok after => after.OpenedAt place
    | .error error => place error.position := by
  obtain ⟨stack, pending, expected⟩ := reader
  obtain ⟨lexeme, position⟩ := next
  unfold Reader.read
  cases expected with
  | operand =>
    cases lexeme with
    | leftParen => exact List.forall_mem_cons.2 ⟨hnext, h⟩
    | word | quoted | exactWord | wildcard | not | lookup => exact h
    | and | or | join | rightParen => exact hnext
  | ruleName =>
    cases lexeme with
    | word => exact h
    | _ => exact hnext
  | operator x =>
    cases stack with
    | nil =>
      cases lexeme with
      | and | or | join => exact h
      | _ => exact hnext
    | cons top stack =>
      obtain ⟨hopened, hstack⟩ := List.forall_mem_cons.1 h
      cases lexeme with
      | and | or | join => exact h
      | rightParen => exact hstack
      | _ => exact hopened

/-- A list of lexemes at such places keeps the open parentheses at such places, and so does its first error. -/
theorem OpenedAt.foldlM {located : List Located} (hplaces : ∀ next ∈ located, place next.position)
    (h : reader.OpenedAt place) :
    match located.foldlM Reader.read reader with
    | .ok after => after.OpenedAt place
    | .error error => place error.position := by
  induction located generalizing reader with
  | nil => exact h
  | cons next rest ih =>
    obtain ⟨hnext, hrest⟩ := List.forall_mem_cons.1 hplaces
    have hread := h.read hnext
    rw [List.foldlM_cons]
    cases hresult : reader.read next with
    | error error =>
      rw [hresult] at hread
      exact hread
    | ok between =>
      rw [hresult] at hread
      exact ih hrest hread

/-- An error at the end of the lexemes is located there, at `position`, or where a parenthesis is still open. -/
theorem OpenedAt.finish {position : Nat} (h : reader.OpenedAt place) (hposition : place position)
    (hfinish : reader.finish position = .error error) : place error.position := by
  obtain ⟨stack, pending, expected⟩ := reader
  cases expected with
  | operand | ruleName =>
    cases hfinish
    exact hposition
  | operator x =>
    cases stack with
    | nil => cases hfinish
    | cons top stack =>
      cases hfinish
      exact (List.forall_mem_cons.1 h).1

end Reader

/-- An error of `toPattern` is located where a lexeme stands, or where the list of lexemes ends. -/
theorem Lexed.place_of_toPattern_eq_error {place : Nat → Prop} {lexed : Lexed} {error : ReadError}
    (hplaces : ∀ located ∈ lexed.lexemes, place located.position)
    (hstop : ∀ stop, lexed.ending = .ok stop → place stop)
    (hfault : ∀ fault, lexed.ending = .error fault → place fault.position)
    (h : lexed.toPattern = .error error) : place error.position := by
  have hstart : Reader.OpenedAt place {} := by simp [Reader.OpenedAt]
  have hread := hstart.foldlM hplaces
  unfold toPattern at h
  cases hresult : lexed.lexemes.foldlM Reader.read {} with
  | error early =>
    rw [hresult] at hread h
    cases h
    exact hread
  | ok reader =>
    rw [hresult] at hread h
    cases hending : lexed.ending with
    | error fault =>
      rw [hending] at h
      cases h
      exact hfault error hending
    | ok stop =>
      rw [hending] at h
      exact hread.finish (hstop stop hending) h

/-- Whatever the source is, a turn of the lexer can be made from each of its places, and does what it has to.
The lexemes that are read are those that the turns come to from the front of the source on. From them either a
pattern is read, or an error is found at a place of the source. -/
theorem Pattern.every_source_is_read_safely (source : String) :
    (∀ position, Text.IsPlace source.toList position →
      ∃ turn, Lexed.turn? source.toList position = some turn ∧ turn.IsSafe source.toList position) ∧
    Lexed.Follows source.toList 0 (Lexed.ofString source) ∧
    ((∃ tree, ofString source = .ok tree) ∨
      ∃ error, ofString source = .error error ∧ Text.IsPlace source.toList error.position ∧
        error.position ≤ Text.byteLength source.toList) := by
  have hfollows : Lexed.Follows source.toList 0 (Lexed.ofString source) :=
    Lexed.follows_ofChars (List.nil_append source.toList).symm rfl
  refine ⟨fun position => Lexed.exists_turn, hfollows, ?_⟩
  cases hread : ofString source with
  | ok tree => exact .inl ⟨tree, rfl⟩
  | error error =>
    obtain ⟨hlexemes, hstop, hfault⟩ := hfollows.isPlace ⟨[], List.nil_prefix, rfl⟩
    have hplace := Lexed.place_of_toPattern_eq_error hlexemes hstop hfault hread
    exact .inr ⟨error, rfl, hplace, hplace.le_byteLength⟩

end Tagging
