import YamlLexer.Proofs.Position
import YamlLexer.Proofs.Words.Gap
import YamlLexer.Proofs.Words.Nesting
import YamlLexer.Proofs.Words.Reading

/-!
# Nothing goes wrong in a scan

A scan by a machine is put together here from its parts: the gap, the reader and the stack. That all
of them are used where they do not go wrong is `Lexer.InBounds`. It orders the offsets of a lexer,
and every call keeps it, also one that fails, and whatever is injected and overridden.

Offsets are not compared with the input alone. A column is counted from the start of the line, and
that is not behind the construct; the line has a number, and that is not greater than the offset at
which it starts; and the depth at which flow rules were switched on is that of a level.
-/

namespace YamlLexer

namespace Words

/-- What a scan reads and changes. -/
structure State where
  source : List Byte
  place : Place
  lexeme : Span
  nest : Nest

/-- Reads the next construct. Of a fault of the stack, the mark is that of the lexeme. -/
def scan? (m : State) : Option (Except LexError (List Token) × State) := do
  let p ← gap? m.source (m.source.length + 1) m.place
  let column ← sub? p.offset p.lineStart
  let found ← read? m.source (← m.nest.inFlow?) p
  let moved := { m with place := { p with offset := found.offset }, lexeme := found.lexeme }
  match found.answer with
  | .error e => return (.error e, moved)
  | .ok c =>
    let mark ← mark? { p with offset := found.lexeme.start }
    let (nest, tokens) ← m.nest.effect? column c
    return (tokens.mapError (·.error mark), { moved with nest })

end Words

open Words

namespace Lexer

/-- A lexer, in memory. -/
def words (l : Lexer) : State := ⟨l.cursor.source, l.place, l.lexeme, l.stack.nest⟩

/-- What the offsets of a lexer are known to be when it scans. -/
structure InBounds (l : Lexer) : Prop where
  short : Short l.cursor.source
  bounded : Bounded l.cursor.source l.place
  line : l.lineStart ≤ l.lexeme.start
  lexeme : l.lexeme.start ≤ l.lexeme.stop
  read : l.lexeme.stop ≤ l.cursor.offset
  flow : l.stack.FlowWithin

variable {c : Cursor} {l l' : Lexer}

theorem inBounds_ofCursor (h : Short c.source) : (ofCursor c).InBounds :=
  ⟨h, ⟨Nat.zero_le _, Nat.le_refl _, c.offset_le⟩, Nat.le_refl _, Nat.le_refl _, Nat.le_refl _,
    Stack.flowWithin_empty⟩

/-! ## Scans -/

section

variable (h : l.InBounds)

include h

theorem InBounds.gap?_eq : gap? l.cursor.source (l.cursor.source.length + 1) l.place =
    some l.nextPlace ∧ Bounded l.cursor.source l.nextPlace :=
  Words.gap?_eq h.short h.bounded (Nat.lt_add_left l.cursor.offset (Nat.lt_succ_self _))

theorem InBounds.moved : l.moved.InBounds := by
  obtain ⟨hline, hlineStart, -⟩ := h.gap?_eq.2
  have hoffset := l.offset_moved
  have hlexeme := l.reads_upcoming.width_le.1
  refine ⟨h.short, ⟨hline, ?_, l.moved.cursor.offset_le⟩, ?_, Nat.le_add_right _ _, ?_, h.flow⟩
  · change l.nextPlace.lineStart ≤ l.moved.cursor.offset
    omega
  · change l.nextPlace.lineStart ≤ l.nextPlace.offset + l.nextReading.before
    omega
  · change l.nextPlace.offset + l.nextReading.before + l.nextReading.size ≤ l.moved.cursor.offset
    omega

/-- No step of a scan goes wrong, and together they are the scan. -/
theorem InBounds.scan?_eq : scan? l.words = some (l.scan.1, l.scan.2.words) := by
  obtain ⟨hgap, hbounded⟩ := h.gap?_eq
  have hcolumn : l.nextPlace.column < 2 ^ 32 :=
    ((Nat.sub_le _ _).trans hbounded.offset).trans_lt h.short
  have hread : read? l.cursor.source l.stack.inFlow l.nextPlace =
      some (.ofReading l.nextReading l.nextPlace) :=
    read?_eq h.short l.inFlow hbounded.lineStart hbounded.offset
  have hplace : l.moved.place = { l.nextPlace with
      offset := l.nextPlace.offset + l.nextReading.width } := by
    rw [Lexer.place, offset_moved]
    rfl
  -- Each step goes right and is the one that `scan` makes.
  rw [scan?, words]
  dsimp only
  rw [bind_eq hgap, bind_eq (sub?_eq hbounded.lineStart), bind_eq (Nest.inFlow?_nest h.flow),
    bind_eq hread, scan]
  dsimp only [Found.ofReading]
  rw [← hplace]
  rcases l.nextReading.found with refusal | construct
  · rfl
  · have hmark : mark? { l.nextPlace with offset := l.nextPlace.offset + l.nextReading.before } =
        some l.moved.mark := mark?_eq h.moved.line
    have happly : l.stack.nest.effect? (l.nextPlace.offset - l.nextPlace.lineStart) construct =
        some (l.stack.apply l.nextPlace.column construct).nest :=
      Nest.effect?_nest h.flow hcolumn construct
    dsimp only [Except.mapError]
    rw [bind_eq hmark, bind_eq happly]
    rfl

end

-- Out of bounds, scans do go wrong: here the line starts behind the byte that is next, and then the
-- stream has no level.
example : scan? ⟨[0x61], ⟨0, 0, 1⟩, ⟨0, 0⟩, ⟨[⟨.nothing, 0⟩], none⟩⟩ = none := rfl

example : scan? ⟨[0x61], ⟨0, 0, 0⟩, ⟨0, 0⟩, ⟨[], some 0⟩⟩ = none := rfl

/-!
## Clients

The invariant is about the offsets that a client has led the lexer to. It is kept by pulls, one case
for each, and calls that read nothing leave all offsets as they are.
-/

theorem InBounds.pull {answer : Except LexError Token} (h : l.InBounds)
    (hpull : l.Pull answer l') : l'.InBounds := by
  rcases hpull with _ | _ | _ | @⟨c, stack, fault, _, _, _, effect⟩ |
    @⟨c, stack, tokens, _, _, _, effect⟩
  · exact h
  · exact ⟨h.short, h.bounded, h.line, h.lexeme, h.read, h.flow⟩
  · have hmoved := h.moved
    exact ⟨hmoved.short, hmoved.bounded, hmoved.line, hmoved.lexeme, hmoved.read, hmoved.flow⟩
  · have hmoved := h.moved
    have hflow := h.flow.apply l.nextPlace.column c
    rw [effect] at hflow
    exact ⟨hmoved.short, hmoved.bounded, hmoved.line, hmoved.lexeme, hmoved.read, hflow⟩
  · have hmoved := h.moved
    have hflow := h.flow.apply l.nextPlace.column c
    rw [effect] at hflow
    exact ⟨hmoved.short, hmoved.bounded, hmoved.line, hmoved.lexeme, hmoved.read, hflow⟩

theorem inBounds_calls (h : Short c.source) (cs : List Call) :
    ((ofCursor c).calls cs).InBounds := by
  refine calls_induction InBounds.pull ?_ ?_ (inBounds_ofCursor h) cs
  · intro l token h
    exact ⟨h.short, h.bounded, h.line, h.lexeme, h.read, h.flow⟩
  · intro l kind h
    exact ⟨h.short, h.bounded, h.line, h.lexeme, h.read, h.flow.setKind kind⟩

theorem Pull.offset_le {answer : Except LexError Token} (hpull : l.Pull answer l') :
    l.cursor.offset ≤ l'.cursor.offset := by
  have hmoved : l.cursor.offset ≤ l.moved.cursor.offset := by
    rw [offset_moved, offset_nextPlace, Nat.add_assoc]
    exact Nat.le_add_right _ _
  rcases hpull with _ | _ | _ | _ | _
  · exact Nat.le_refl _
  · exact Nat.le_refl _
  · exact hmoved
  · exact hmoved
  · exact hmoved

theorem offset_le_call (l : Lexer) (call : Call) : l.cursor.offset ≤ (l.call call).cursor.offset :=
  calls_induction (P := fun l' ↦ l.cursor.offset ≤ l'.cursor.offset)
    (fun h hpull ↦ h.trans hpull.offset_le) (fun _ h ↦ h) (fun _ h ↦ h) (Nat.le_refl _) [call]

/-- A lexer that starts anywhere in an input whose length fits the counter of lines, after anything
that a client can do, errors included: the line does not start behind the lexeme, which does not end
behind the bytes that have been read. The next call does not go back in the input. A scan in machine
words has the same answer as one that has no bounds, and leaves the same behind; no difference falls
below zero, no sum is too great for its word, and no index or slice is out of bounds. Nor is that
of the level that an override changes. -/
theorem scan?_calls (h : c.source.length < 2 ^ 32) (cs : List Call) :
    let l := (ofCursor c).calls cs
    (l.lineStart ≤ l.lexeme.start ∧ l.lexeme.start ≤ l.lexeme.stop ∧
      l.lexeme.stop ≤ l.cursor.offset ∧ l.cursor.offset ≤ c.source.length) ∧
    (∀ call, l.cursor.offset ≤ (l.call call).cursor.offset) ∧
    scan? l.words = some (l.scan.1, l.scan.2.words) ∧
    ∀ kind, l.words.nest.setKind? kind = some (l.setContext kind).words.nest := by
  intro l
  have hbounds : l.InBounds := inBounds_calls h cs
  have hsource : l.cursor.source = c.source := (tracked_calls c cs).placed.source
  have hend := l.cursor.offset_le
  rw [hsource] at hend
  exact ⟨⟨hbounds.line, hbounds.lexeme, hbounds.read, hend⟩, l.offset_le_call, hbounds.scan?_eq,
    Nest.setKind?_nest l.stack⟩

/-- An entry in the second line of an input that is read from its second byte on, and behind it a
scalar that is refused. That was some calls ago, and the kind of the sequence is overridden. -/
theorem scan?_calls_refused :
    let c : Cursor := ⟨[0x61, 0x0D, 0x0A, 0x2D, 0x20, 0x22, 0x62, 0x07], 1, by decide⟩
    let cs : List Call :=
      [.next, .next, .next, .setContext .mappingStart, .next, .push .comment, .current]
    let l := (ofCursor c).calls cs
    c.source.length < 2 ^ 32 ∧ l.failure.isSome = true ∧
      scan? l.words = some (l.scan.1, l.scan.2.words) := by
  intro c cs l
  have hlength : c.source.length < 2 ^ 32 := by decide
  exact ⟨hlength, by decide +kernel, (scan?_calls hlength cs).2.2.1⟩

end Lexer

end YamlLexer
