import YamlLexer.Proofs.Session
import YamlLexer.Proofs.Transcript

/-!
# What lies before the start

A lexer may start anywhere in its input, and what lies before that does not matter to it. More than
that holds: bytes put in front of the input at any time, with all offsets moved along, are not
noticed either. `Lexer.behind` puts them there, and every request commutes with it, up to the
offsets in the answer (`session_behind`). A lexer that starts at some offset is the lexer of the rest
of the input, behind the bytes that come first (`ofCursor_eq_behind`).

Offsets are moved wherever they occur, in spans, marks and errors. Lines and columns stay: a column
is the difference of two offsets that both move.
-/

namespace YamlLexer

/-! ## Offsets -/

def Span.shift (n : Nat) (s : Span) : Span := ⟨n + s.start, n + s.stop⟩

/-- The mark, so many bytes further on, at the same line and column. -/
def Mark.shift (n : Nat) (m : Mark) : Mark := { m with pos := n + m.pos }

/-- The place, so many bytes further on, together with the start of its line. -/
def Place.shift (n : Nat) (p : Place) : Place := ⟨n + p.offset, p.line, n + p.lineStart⟩

def LexError.shift (n : Nat) : LexError → LexError
  | malformedScalar span mark fault => .malformedScalar (span.shift n) (mark.shift n) fault
  | unbalancedCloser found mark => .unbalancedCloser found (mark.shift n)
  | invalidContext kind mark => .invalidContext kind (mark.shift n)
  | unsupported construct mark => .unsupported construct (mark.shift n)
  | undecodable span => .undecodable (span.shift n)

def Answer.shift (n : Nat) : Answer → Answer
  | silence => .silence
  | token answer => .token (answer.mapError (LexError.shift n))
  | item answer => .item (answer.map (Except.mapError (LexError.shift n)))
  | drawn answers => .drawn (answers.map (Option.map (Except.mapError (LexError.shift n))))

theorem Span.isEmpty_shift (n : Nat) (s : Span) : (s.shift n).isEmpty = s.isEmpty :=
  decide_eq_decide.mpr (Nat.add_le_add_iff_left)

namespace Place

theorem column_shift (n : Nat) (p : Place) : (p.shift n).column = p.column :=
  Nat.add_sub_add_left n p.offset p.lineStart

theorem mark_shift (n : Nat) (p : Place) : (p.shift n).mark = p.mark.shift n := by
  rw [mark, column_shift]
  rfl

theorem pass_shift (n : Nat) (p : Place) (b : Byte) (s : List Byte) :
    (p.shift n).pass b s = (p.pass b s).shift n := by
  simp only [pass, shift, Place.mk.injEq, true_and]
  refine ⟨Nat.add_assoc n p.offset 1, ?_⟩
  split
  · exact Nat.add_assoc n p.offset 1
  · rfl

theorem skipGap_shift (n : Nat) (p : Place) (s : List Byte) :
    (p.shift n).skipGap s = (p.skipGap s).shift n := by
  induction s generalizing p with
  | nil => rfl
  | cons b s ih =>
    rw [skipGap, skipGap]
    split
    · rw [pass_shift, ih]
    · rfl

end Place

theorem Refusal.error_shift (n : Nat) (p : Place) (r : Refusal) :
    r.error (p.shift n) = (r.error p).shift n := by
  rcases r with construct | ⟨fault, extent⟩
  · rw [error, error, Place.mark_shift]
    rfl
  · rw [error, error, Place.mark_shift, LexError.shift, Span.shift, ← Nat.add_assoc]
    rfl

theorem NestingFault.error_shift (n : Nat) (m : Mark) (fault : NestingFault) :
    fault.error (m.shift n) = (fault.error m).shift n := by
  rcases fault with kind | shape <;> rfl

/-!
## Cursors

The bytes in front are read by nothing, and the bytes ahead are the same. So whatever is a function
of `Cursor.rest` is the same too, and a slice by offsets is one by offsets that have moved along.
-/

namespace Cursor

/-- The cursor at the same byte, with other bytes put in front of its source. -/
def behind (c : Cursor) (front : List Byte) : Cursor where
  source := front ++ c.source
  offset := front.length + c.offset
  offset_le := by
    rw [List.length_append]
    exact Nat.add_le_add_left c.offset_le _

variable (front : List Byte) (c : Cursor)

theorem rest_behind : (c.behind front).rest = c.rest := List.drop_length_add_append c.offset

theorem moveTo_behind (offset : Nat) :
    (c.behind front).moveTo (front.length + offset) = (c.moveTo offset).behind front := by
  simp only [moveTo, behind, Cursor.mk.injEq, true_and]
  rw [List.length_append, Nat.add_min_add_left]

theorem sliceText_behind (span : Span) : (c.behind front).sliceText (span.shift front.length) =
    (c.sliceText span).mapError (LexError.shift front.length) := by
  have hslice : (c.behind front).slice (span.shift front.length) = c.slice span := by
    simp only [slice, behind, Span.shift]
    rw [List.take_length_add_append, List.drop_length_add_append]
  rw [sliceText, sliceText, hslice]
  split
  · rfl
  · rfl

end Cursor

namespace Lexer

/-- The lexer in the same state, with other bytes put in front of its input. -/
def behind (l : Lexer) (front : List Byte) : Lexer where
  cursor := l.cursor.behind front
  line := l.line
  lineStart := front.length + l.lineStart
  lexeme := l.lexeme.shift front.length
  stack := l.stack
  pending := l.pending
  last := l.last
  failure := l.failure.map (LexError.shift front.length)

/-- To start in the middle is to be behind what comes first. -/
theorem ofCursor_eq_behind (c : Cursor) :
    ofCursor c = (ofBytes c.rest).behind (c.source.take c.offset) := by
  have hlength : (c.source.take c.offset).length = c.offset := by
    rw [List.length_take, Nat.min_eq_left c.offset_le]
  have hcursor : (Cursor.ofBytes c.rest).behind (c.source.take c.offset) = c := by
    simp only [Cursor.behind, Cursor.ofBytes, Cursor.rest, List.take_append_drop, hlength,
      Nat.add_zero]
  simp only [ofBytes, ofCursor, behind, hcursor, hlength, Span.shift, Option.map_none]
  rfl

/-! ## Scans -/

variable (front : List Byte) {l l' : Lexer}

theorem mark_behind (l : Lexer) : (l.behind front).mark = l.mark.shift front.length := by
  rw [mark, mark, Mark.shift, Mark.mk.injEq]
  exact ⟨rfl, rfl, Nat.add_sub_add_left _ _ _⟩

theorem text_behind (l : Lexer) :
    (l.behind front).text = l.text.mapError (LexError.shift front.length) := by
  have htext : (l.behind front).text = if l.last.hasLexeme && !l.lexeme.isEmpty then
      (l.cursor.sliceText l.lexeme).mapError (LexError.shift front.length) else .ok "" := by
    rw [← Cursor.sliceText_behind, ← Span.isEmpty_shift front.length]
    rfl
  rw [htext, text]
  split
  · rfl
  · rfl

theorem nextPlace_behind (l : Lexer) :
    (l.behind front).nextPlace = l.nextPlace.shift front.length := by
  have hrest : (l.behind front).cursor.rest = l.cursor.rest := Cursor.rest_behind front l.cursor
  rw [nextPlace, hrest]
  exact Place.skipGap_shift front.length l.place l.cursor.rest

theorem nextReading_behind (l : Lexer) : (l.behind front).nextReading = l.nextReading := by
  have hrest : (l.behind front).cursor.rest = l.cursor.rest := Cursor.rest_behind front l.cursor
  rw [nextReading_eq, nextReading_eq, upcoming, upcoming, hrest]
  rfl

theorem column_nextPlace_behind (l : Lexer) :
    (l.behind front).nextPlace.column = l.nextPlace.column := by
  rw [nextPlace_behind, Place.column_shift]

theorem moveOver_behind (l : Lexer) (p : Place) (r : Reading) :
    (l.behind front).moveOver (p.shift front.length) r = (l.moveOver p r).behind front := by
  have hcursor : (l.cursor.behind front).moveTo (front.length + p.offset + r.width) =
      (l.cursor.moveTo (p.offset + r.width)).behind front := by
    rw [Nat.add_assoc, Cursor.moveTo_behind]
  have hlexeme : (⟨front.length + p.offset + r.before,
      front.length + p.offset + r.before + r.size⟩ : Span) =
      Span.shift front.length ⟨p.offset + r.before, p.offset + r.before + r.size⟩ := by
    simp only [Span.shift, Nat.add_assoc]
  change ({ l.behind front with
    cursor := (l.cursor.behind front).moveTo (front.length + p.offset + r.width)
    line := p.line
    lineStart := front.length + p.lineStart
    lexeme := _ } : Lexer) = _
  rw [hcursor]
  exact congrArg (fun lexeme ↦ { (l.moveOver p r).behind front with lexeme := lexeme }) hlexeme

theorem moved_behind (l : Lexer) : (l.behind front).moved = l.moved.behind front := by
  rw [moved, nextPlace_behind, nextReading_behind, moveOver_behind]
  rfl

/-!
## Requests

Every request commutes with putting bytes in front, one after the other, and hence every session
does.
-/

/-- A pull does the same behind other bytes, whichever it is. -/
theorem Pull.next_behind {answer : Except LexError Token} (h : l.Pull answer l') :
    (l.behind front).next =
      (answer.mapError (LexError.shift front.length), l'.behind front) := by
  have hfailure {o : Option LexError} (h : l.failure = o) :
      (l.behind front).failure = o.map (LexError.shift front.length) := by rw [← h]; rfl
  rcases h with failure | ⟨failure, queue⟩ | ⟨failure, queue, found⟩ |
    @⟨_, _, fault, failure, queue, found, effect⟩ | ⟨failure, queue, found, effect⟩
  · rw [next_of_failure (hfailure failure)]
    rfl
  · rw [next_of_pending (hfailure failure) queue]
    rfl
  · rw [← nextReading_behind front] at found
    rw [next_of_refused (hfailure failure) queue found, nextPlace_behind, Refusal.error_shift,
      moved_behind]
    rfl
  · rw [← nextReading_behind front] at found
    rw [← column_nextPlace_behind front] at effect
    rw [next_of_faulted (l := l.behind front) (hfailure failure) queue found effect, moved_behind,
      mark_behind, NestingFault.error_shift]
    rfl
  · rw [← nextReading_behind front] at found
    rw [← column_nextPlace_behind front] at effect
    rw [next_of_scanned (l := l.behind front) (hfailure failure) queue found effect, moved_behind]
    rfl

theorem next_behind (l : Lexer) : (l.behind front).next =
    (l.next.1.mapError (LexError.shift front.length), l.next.2.behind front) :=
  l.pull_next.next_behind front

theorem next?_behind (l : Lexer) : (l.behind front).next? =
    (l.next?.1.map (Except.mapError (LexError.shift front.length)), l.next?.2.behind front) := by
  have hfailure : (l.behind front).failure.isSome = l.failure.isSome := Option.isSome_map
  rw [next?, next?, hfailure, next_behind]
  split
  · rfl
  · rcases l.next with ⟨_ | token, l'⟩
    · rfl
    · rcases token with _ | _ <;> rfl

theorem current_behind (l : Lexer) : (l.behind front).current =
    (l.current.1.mapError (LexError.shift front.length), l.current.2.behind front) := by
  rw [current, current, next_behind]
  change (if l.last = .nothing then _ else (Except.ok l.last, l.behind front)) = _
  split
  · rfl
  · rfl

end Lexer

namespace TokenStream

variable (front : List Byte)

/-- The stream of the lexer with other bytes put in front of its input. -/
def behind (s : TokenStream) : TokenStream := ⟨s.lexer.behind front, s.finished⟩

theorem next?_behind (s : TokenStream) : (s.behind front).next? =
    (s.next?.1.map (Except.mapError (LexError.shift front.length)), s.next?.2.behind front) := by
  obtain ⟨l, _ | _⟩ := s
  · rcases hnext : l.next with ⟨e | token, l'⟩
    · have hnext' : (l.behind front).next = (.error (e.shift front.length), l'.behind front) := by
        rw [Lexer.next_behind, hnext]
        rfl
      rw [behind, next?_of_error hnext, next?_of_error hnext']
      rfl
    · have hnext' : (l.behind front).next = (.ok token, l'.behind front) := by
        rw [Lexer.next_behind, hnext]
        rfl
      by_cases htoken : token = .nothing
      · subst htoken
        rw [behind, next?_of_nothing hnext, next?_of_nothing hnext']
        rfl
      · rw [behind, next?_of_token hnext htoken, next?_of_token hnext' htoken,
          Lexer.text_behind]
        rcases l'.text with e | text
        · rfl
        · rfl
  · rfl

theorem draws_behind (s : TokenStream) (n : Nat) : (s.behind front).draws n =
    ((s.draws n).1.map (Option.map (Except.mapError (LexError.shift front.length))),
      (s.draws n).2.behind front) := by
  induction n generalizing s with
  | zero => rfl
  | succ n ih =>
    rw [draws, next?_behind, ih]
    rfl

end TokenStream

namespace Lexer

variable (front : List Byte)

theorem ask_behind (l : Lexer) (r : Request) : (l.behind front).ask r =
    ((l.ask r).1.shift front.length, (l.ask r).2.behind front) := by
  rcases r with (_ | _ | _ | token | kind) | n
  · rw [ask, next_behind]
    rfl
  · rw [ask, next?_behind]
    rfl
  · rw [ask, current_behind]
    rfl
  · rfl
  · rfl
  · have hdraws := TokenStream.draws_behind front ⟨l, false⟩ n
    rw [TokenStream.behind] at hdraws
    rw [ask, hdraws]
    rfl

theorem session_behind (l : Lexer) (rs : List Request) : (l.behind front).session rs =
    ((l.session rs).1.map (Answer.shift front.length), (l.session rs).2.behind front) := by
  induction rs generalizing l with
  | nil => rfl
  | cons r rs ih =>
    rw [session, ask_behind, ih]
    rfl

/-! ## Starting anywhere -/

/-- A lexer in the same state as another one, but for offsets, which are so many bytes further on.
What else can be looked at depends on the stack alone, or on the tokens in line. -/
structure Displaced (n : Nat) (l l' : Lexer) : Prop where
  offset : l'.cursor.offset = n + l.cursor.offset
  lexeme : l'.lexeme = l.lexeme.shift n
  line : l'.line = l.line
  lineStart : l'.lineStart = n + l.lineStart
  mark : l'.mark = l.mark.shift n
  text : l'.text = l.text.mapError (LexError.shift n)
  stack : l'.stack = l.stack
  pending : l'.pending = l.pending
  last : l'.last = l.last
  failure : l'.failure = l.failure.map (LexError.shift n)

theorem displaced_behind (l : Lexer) : Displaced front.length l (l.behind front) :=
  ⟨rfl, rfl, rfl, rfl, l.mark_behind front, l.text_behind front, rfl, rfl, rfl, rfl⟩

/-- A lexer of the whole input that starts at an offset, and the lexer of what follows from there,
answer every client alike, and are in the same state at any time, but for the offsets. -/
theorem session_moveTo (bytes : List Byte) {start : Nat} (h : start ≤ bytes.length)
    (rs : List Request) :
    let whole := (ofCursor ((Cursor.ofBytes bytes).moveTo start)).session rs
    let suffix := (ofBytes (bytes.drop start)).session rs
    whole.1 = suffix.1.map (Answer.shift start) ∧ Displaced start suffix.2 whole.2 := by
  have hoffset : min start bytes.length = start := Nat.min_eq_left h
  have hlength : (bytes.take start).length = start := by
    rw [List.length_take, hoffset]
  have hlexer : ofCursor ((Cursor.ofBytes bytes).moveTo start) =
      (ofBytes (bytes.drop start)).behind (bytes.take start) := by
    rw [ofCursor_eq_behind, Cursor.rest, Cursor.offset_moveTo, Cursor.source_moveTo]
    change (ofBytes (bytes.drop (min start bytes.length))).behind
      (bytes.take (min start bytes.length)) = _
    rw [hoffset]
  intro whole suffix
  have hwhole : whole =
      (suffix.1.map (Answer.shift start), suffix.2.behind (bytes.take start)) := by
    change (ofCursor _).session rs = _
    rw [hlexer, session_behind, hlength]
  have hdisplaced := displaced_behind (bytes.take start) suffix.2
  rw [hlength] at hdisplaced
  rw [hwhole]
  exact ⟨rfl, hdisplaced⟩

/-- A start between the two bytes of a line break, in front of a bracket without a partner.
Its line is counted from the start on. -/
theorem session_moveTo_closer :
    let bytes : List Byte := [0x61, 0x0D, 0x0A, 0x20, 0x5D]
    let whole := (ofCursor ((Cursor.ofBytes bytes).moveTo 2)).session [.call .next, .draw 2]
    let suffix := (ofBytes [0x0A, 0x20, 0x5D]).session [.call .next, .draw 2]
    suffix.1 = [.token (.error (.unbalancedCloser ']' ⟨2, 1, 1⟩)),
        .drawn [some (.error (.unbalancedCloser ']' ⟨2, 1, 1⟩)), none]] ∧
      whole.1 = [.token (.error (.unbalancedCloser ']' ⟨4, 1, 1⟩)),
        .drawn [some (.error (.unbalancedCloser ']' ⟨4, 1, 1⟩)), none]] ∧
      Displaced 2 suffix.2 whole.2 := by
  intro bytes whole suffix
  obtain ⟨hanswers, hdisplaced⟩ :=
    session_moveTo bytes (by decide : 2 ≤ bytes.length) [.call .next, .draw 2]
  have hsuffix : suffix.1 = [.token (.error (.unbalancedCloser ']' ⟨2, 1, 1⟩)),
      .drawn [some (.error (.unbalancedCloser ']' ⟨2, 1, 1⟩)), none]] := rfl
  refine ⟨hsuffix, ?_, hdisplaced⟩
  rw [hanswers]
  change suffix.1.map (Answer.shift 2) = _
  rw [hsuffix]
  rfl

end Lexer

end YamlLexer
