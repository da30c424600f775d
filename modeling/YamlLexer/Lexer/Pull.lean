import YamlLexer.Lexer.State
import YamlLexer.Nesting.Effect
import YamlLexer.Reading

/-!
# Pulling tokens

`Lexer.next` is the one way in which a lexer moves. The other two ways to pull are views of it:
`Lexer.next?` ends the stream where `next` would answer `nothing` or repeat an error, and
`Lexer.current` pulls only if no token has been delivered yet.

A scan has two halves. The lexical one is `Reading.of`, on the bytes behind the gap; the structural
one is `Stack.apply`, at the column where they start. Either may fail, and the position has moved by
then, so that the error is about something that has been passed.
-/

namespace YamlLexer

/-- The error for a construct that is refused at a place. -/
def Refusal.error (p : Place) : Refusal → LexError
  | unsupported construct => .unsupported construct p.mark
  | malformed fault extent => .malformedScalar ⟨p.offset, p.offset + extent⟩ p.mark fault

/-- The error for a construct that the open structures do not allow, at a mark. -/
def NestingFault.error (m : Mark) : NestingFault → LexError
  | unclosable kind => .invalidContext kind m
  | unopened shape => .unbalancedCloser shape.closer m

namespace Lexer

/-- The place of the next construct, after the gap in front of it. -/
def nextPlace (l : Lexer) : Place := l.place.skipGap l.cursor.rest

theorem offset_nextPlace (l : Lexer) :
    l.nextPlace.offset = l.cursor.offset + (l.cursor.rest.takeWhile Byte.isGap).length :=
  Place.offset_skipGap _ _

theorem drop_nextPlace (l : Lexer) :
    l.cursor.source.drop l.nextPlace.offset = l.cursor.rest.dropWhile Byte.isGap := by
  rw [offset_nextPlace, ← List.drop_drop, Cursor.rest, drop_length_takeWhile]

def nextReading (l : Lexer) : Reading :=
  Reading.of l.inFlow (l.cursor.source.drop l.nextPlace.offset)

/-- Either only a gap is left of the input, or a construct follows that takes at least a byte. -/
theorem nextReading_cases (l : Lexer) :
    l.nextPlace.offset = l.cursor.source.length ∧ l.nextReading = Reading.of l.inFlow [] ∨
      l.nextPlace.offset < l.cursor.source.length ∧ 0 < l.nextReading.width := by
  have hle : l.nextPlace.offset ≤ l.cursor.source.length := by
    have hgap := (List.takeWhile_sublist Byte.isGap (l := l.cursor.rest)).length_le
    have hoffset := l.cursor.offset_add_remaining
    rw [Cursor.length_rest] at hgap
    rw [offset_nextPlace]
    omega
  have hlength := congrArg List.length l.drop_nextPlace
  rw [List.length_drop] at hlength
  rw [nextReading, drop_nextPlace]
  cases hrest : l.cursor.rest.dropWhile Byte.isGap with
  | nil =>
    rw [hrest, List.length_nil] at hlength
    exact .inl ⟨by omega, rfl⟩
  | cons b s =>
    have hb : b.isGap = false := by
      simpa [hrest] using List.head?_dropWhile_not Byte.isGap l.cursor.rest
    rw [hrest, List.length_cons] at hlength
    exact .inr ⟨by omega, Reading.width_pos hb⟩

/-- Moves past a reading at a place. -/
def moveOver (l : Lexer) (p : Place) (r : Reading) : Lexer :=
  { l with
    cursor := l.cursor.moveTo (p.offset + r.width)
    line := p.line
    lineStart := p.lineStart
    lexeme := ⟨p.offset + r.before, p.offset + r.before + r.size⟩ }

/-- Reads the next construct and lines up the tokens that it becomes. Nothing else may be in line.
When a construct is refused, the position still moves, to where reading stopped. -/
def scan (l : Lexer) : Except LexError (List Token) × Lexer :=
  let place := l.nextPlace
  let reading := l.nextReading
  let moved := l.moveOver place reading
  match reading.found with
  | .error refusal => (.error (refusal.error place), moved)
  | .ok construct =>
    let nesting := l.stack.apply place.column construct
    (nesting.tokens.mapError (·.error moved.mark), { moved with stack := nesting.stack })

def deliver (l : Lexer) (token : Token) (pending : List Token) : Except LexError Token × Lexer :=
  (.ok token, { l with last := token, pending := pending })

/-- Pulls the next token. At the end of the input it is `nothing`, again and again. After an error
it is that error. -/
def next (l : Lexer) : Except LexError Token × Lexer :=
  match l.failure with
  | some e => (.error e, l)
  | none =>
    match l.pending with
    | token :: pending => l.deliver token pending
    | [] =>
      match l.scan with
      | (.error e, l') => (.error e, { l' with failure := some e })
      | (.ok [], l') => l'.deliver .nothing []
      | (.ok (token :: pending), l') => l'.deliver token pending

/-- Pulls the next token, and answers with none at the end of the input and after an error. -/
def next? (l : Lexer) : Option (Except LexError Token) × Lexer :=
  if l.failure.isSome then (none, l)
  else
    match l.next with
    | (.ok .nothing, l') => (none, l')
    | (answer, l') => (some answer, l')

/-- The token delivered last. If none was, or `nothing`, the next one is pulled. -/
def current (l : Lexer) : Except LexError Token × Lexer :=
  if l.last = .nothing then l.next else (.ok l.last, l)

/-! ## What a pull is -/

theorem next_of_failure {l : Lexer} {e : LexError} (h : l.failure = some e) :
    l.next = (.error e, l) := by
  rw [next, h]

theorem next_of_pending {l : Lexer} {token : Token} {pending : List Token}
    (hf : l.failure = none) (h : l.pending = token :: pending) :
    l.next = l.deliver token pending := by
  rw [next, hf, h]

end Lexer

end YamlLexer
