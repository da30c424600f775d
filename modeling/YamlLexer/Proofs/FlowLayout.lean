import Mathlib.Data.List.Basic
import YamlLexer.Proofs.Nesting.Kinds
import YamlLexer.Proofs.Run

/-!
# Layout in flow context

As long as a flow collection is open, it does not matter how its text is broken into lines, nor how
far any of it is indented. This can be said without a second text. Two lexers read the same bytes
from the same offset, but they do not agree on the line, on where it starts, or on the columns at
which the open structures began (`Lexer.Abreast`). In flow context they deliver the same tokens with
the same texts all the same, and fail together (`Lexer.Abreast.pulled`).

Two things make this true. What is read is a matter of the bytes alone, and whether flow rules hold;
and what it does to the open structures depends on their kinds, as `Stack.SameKinds.apply` says. Only
the marks of errors show the difference, so errors are compared by their byte (`LexError.atByte`).
-/

namespace YamlLexer

/-- A mark without its line and column. -/
def Mark.atByte (m : Mark) : Mark := ⟨m.pos, 0, 0⟩

/-- An error of which only the byte is told, but neither line nor column. -/
def LexError.atByte : LexError → LexError
  | malformedScalar s m f => malformedScalar s m.atByte f
  | unbalancedCloser c m => unbalancedCloser c m.atByte
  | invalidContext k m => invalidContext k m.atByte
  | unsupported u m => unsupported u m.atByte
  | undecodable s => undecodable s

theorem Refusal.atByte_error {p p' : Place} (h : p'.offset = p.offset) (r : Refusal) :
    (r.error p').atByte = (r.error p).atByte := by
  have hmark : p'.mark.atByte = p.mark.atByte := congrArg (Mark.mk · 0 0) h
  cases r with
  | unsupported construct => exact congrArg (LexError.unsupported construct) hmark
  | malformed fault extent =>
    rw [Refusal.error, Refusal.error, LexError.atByte, LexError.atByte, hmark, h]

theorem NestingFault.atByte_error {m m' : Mark} (h : m'.pos = m.pos) (fault : NestingFault) :
    (fault.error m').atByte = (fault.error m).atByte := by
  have hmark : m'.atByte = m.atByte := congrArg (Mark.mk · 0 0) h
  cases fault with
  | unclosable kind => exact congrArg (LexError.invalidContext kind) hmark
  | unopened shape => exact congrArg (LexError.unbalancedCloser shape.closer) hmark

namespace Lexer

/-- Lexers that have read the same bytes, but may not agree on the line, on where it starts, or on
what opened the structures and where. -/
structure Abreast (l l' : Lexer) : Prop where
  cursor : l'.cursor = l.cursor
  lexeme : l'.lexeme = l.lexeme
  stack : l.stack.SameKinds l'.stack
  pending : l'.pending = l.pending
  last : l'.last = l.last
  failure : l'.failure.map LexError.atByte = l.failure.map LexError.atByte

variable {l l' : Lexer}

namespace Abreast

variable (h : Abreast l l')

include h

theorem text : l'.text = l.text := by
  rw [Lexer.text, Lexer.text, h.cursor, h.lexeme, h.last]

theorem inFlow : l'.inFlow = l.inFlow := h.stack.inFlow

/-!
## Scans

Each part of a scan is compared by itself: where it starts, what it reads, and what it leaves. None
of them looks at a line, and the column goes nowhere but into the effect on the stack.
-/

theorem offset_nextPlace : l'.nextPlace.offset = l.nextPlace.offset := by
  rw [Lexer.offset_nextPlace, Lexer.offset_nextPlace, h.cursor]

theorem nextReading : l'.nextReading = l.nextReading := by
  rw [nextReading_eq, nextReading_eq, upcoming, upcoming, h.cursor, h.inFlow]

theorem cursor_moved : l'.moved.cursor = l.moved.cursor := by
  change l'.cursor.moveTo (l'.nextPlace.offset + l'.nextReading.width) =
    l.cursor.moveTo (l.nextPlace.offset + l.nextReading.width)
  rw [h.cursor, h.offset_nextPlace, h.nextReading]

theorem lexeme_moved : l'.moved.lexeme = l.moved.lexeme := by
  rw [moved, moved, moveOver, moveOver, h.offset_nextPlace, h.nextReading]

theorem running (running : l.failure = none) : l'.failure = none := by
  have hnone := h.failure
  rwa [running, Option.map_none, Option.map_eq_none_iff] at hnone

/-! ## Runs -/

/-- In flow context the two make the same pull. -/
theorem pull (flow : l.inFlow = true) {answer : Except LexError Token} {m : Lexer}
    (hpull : l.Pull answer m) :
    l'.next.1.mapError LexError.atByte = answer.mapError LexError.atByte ∧
      Abreast m l'.next.2 := by
  -- Only scans look at the stack, and flow rules make their columns irrelevant there.
  cases hpull with
  | @repeated e failure =>
    have hsome := h.failure
    rw [failure, Option.map_some, Option.map_eq_some_iff] at hsome
    obtain ⟨e', failure', he⟩ := hsome
    rw [next_of_failure failure']
    exact ⟨congrArg Except.error he, h⟩
  | queued failure queue =>
    rw [next_of_pending (h.running failure) (h.pending.trans queue)]
    exact ⟨rfl, h.cursor, h.lexeme, h.stack, rfl, rfl, h.failure⟩
  | @refused refusal failure queue found =>
    have hfound : l'.nextReading.found = .error refusal := by
      rw [h.nextReading, found]
    have herror := refusal.atByte_error h.offset_nextPlace
    rw [next_of_refused (h.running failure) (h.pending.trans queue) hfound]
    exact ⟨congrArg Except.error herror, h.cursor_moved, h.lexeme_moved, h.stack, h.pending, h.last,
      congrArg some herror⟩
  | @faulted c stack fault failure queue found effect =>
    have hfound : l'.nextReading.found = .ok c := by
      rw [h.nextReading, found]
    have happly := h.stack.apply flow l.nextPlace.column l'.nextPlace.column c
    rw [effect] at happly
    have heffect : l'.stack.apply l'.nextPlace.column c = ⟨_, .error fault⟩ :=
      congrArg (Nesting.mk _) happly.tokens
    have hpos : l'.moved.mark.pos = l.moved.mark.pos := congrArg Span.start h.lexeme_moved
    have herror := fault.atByte_error hpos
    rw [next_of_faulted (h.running failure) (h.pending.trans queue) hfound heffect]
    exact ⟨congrArg Except.error herror, h.cursor_moved, h.lexeme_moved, happly.stack, h.pending,
      h.last, congrArg some herror⟩
  | @scanned c stack tokens failure queue found effect =>
    have hfound : l'.nextReading.found = .ok c := by
      rw [h.nextReading, found]
    have happly := h.stack.apply flow l.nextPlace.column l'.nextPlace.column c
    rw [effect] at happly
    have heffect : l'.stack.apply l'.nextPlace.column c = ⟨_, .ok tokens⟩ :=
      congrArg (Nesting.mk _) happly.tokens
    rw [next_of_scanned (h.running failure) (h.pending.trans queue) hfound heffect]
    exact ⟨rfl, h.cursor_moved, h.lexeme_moved, happly.stack, rfl, rfl, h.failure⟩

theorem pulled {n : Nat} (flow : ∀ i < n, (l.pulled i).inFlow = true) :
    Abreast (l.pulled n) (l'.pulled n) := by
  induction n with
  | zero => exact h
  | succ n ih =>
    have hn := ih fun i hi ↦ flow i (Nat.lt_succ_of_lt hi)
    exact (hn.pull (flow n (Nat.lt_succ_self n)) (l.pulled n).pull_next).2

end Abreast

/-- Two lexers of the same bytes, wherever they take their lines to start and their structures to be.
For as many pulls as flow rules hold, they have the same answers, but for the line and the column of
an error, and the same texts, and stay abreast. The last of these pulls may end flow context. -/
theorem pulled_in_flow (h : Abreast l l') (n : Nat)
    (flow : ∀ i < n, (l.pulled i).inFlow = true) :
    (∀ i < n,
      (l'.pulled i).next.1.mapError LexError.atByte =
          (l.pulled i).next.1.mapError LexError.atByte ∧
        (l'.pulled (i + 1)).text = (l.pulled (i + 1)).text) ∧
      Abreast (l.pulled n) (l'.pulled n) := by
  refine ⟨?_, h.pulled flow⟩
  intro i hi
  have hbefore : Abreast (l.pulled i) (l'.pulled i) :=
    h.pulled fun j hj ↦ flow j (Nat.lt_trans hj hi)
  obtain ⟨hanswer, hafter⟩ := hbefore.pull (flow i hi) (l.pulled i).pull_next
  exact ⟨hanswer, hafter.text⟩

/-- A flow sequence on the second line of a text, and the same bytes read from the bracket on, so that
there is no first line. The key in it is read alike, and the brace behind it fails at the same
byte, though on another line and in another column. -/
theorem pulled_in_flow_brace :
    let source : List Byte := [0x0A, 0x20, 0x5B, 0x61, 0x3A, 0x20, 0x7D]
    let l := (ofBytes source).pulled 1
    let l' := (ofCursor ((Cursor.ofBytes source).moveTo 2)).pulled 1
    Abreast l l' ∧ (∀ i < 4, (l.pulled i).inFlow = true) ∧
      l.indent = 1 ∧ l'.indent = 0 ∧ (l.pulled 2).next.1 = .ok .text ∧
      (l'.pulled 3).text = (l.pulled 3).text ∧
      (l.pulled 3).next.1 = .error (.unbalancedCloser '\x7d' ⟨6, 1, 5⟩) ∧
      (l'.pulled 3).next.1 = .error (.unbalancedCloser '\x7d' ⟨6, 0, 4⟩) ∧
      Abreast (l.pulled 4) (l'.pulled 4) := by
  intro source l l'
  have h : Abreast l l' := ⟨rfl, rfl, ⟨rfl, rfl, rfl⟩, rfl, rfl, rfl⟩
  have hflow : ∀ i < 4, (l.pulled i).inFlow = true := by decide
  obtain ⟨hanswers, hafter⟩ := pulled_in_flow h 4 hflow
  obtain ⟨-, htext⟩ := hanswers 2 (by decide)
  exact ⟨h, hflow, by decide, by decide, by decide, htext, by decide, by decide, hafter⟩

end Lexer

end YamlLexer
