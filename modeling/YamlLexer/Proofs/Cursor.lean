import Mathlib.Data.List.TakeWhile
import Mathlib.Order.Bounds.Basic
import YamlLexer.Cursor

/-!
# What a cursor does

A cursor can be moved in four ways and looked at in several. What is relied on about each of them is
said here of offsets and single bytes, and `Cursor.Contract` lists it. A move by a signed amount
goes to the sum, or as far as the source reaches in that direction. Where bytes of a class are
passed, the cursor stops at the least offset that is not one of theirs (`isLeast_takeWhile`). A
slice is known by the byte at each of its indices, so its bounds may be reversed, or lie outside of
the source.

This holds of every cursor, as no cursor is out of its source. So all that there is to say about a
sequence of moves is that it keeps the source (`source_moves`).

Offsets and amounts are words here, as a client gives them, although a cursor computes without
bounds. That it cannot be told from the cursor of a machine, which computes in words, is said
elsewhere (`contract_moves`); this file is what both have to measure up to. The contract is a
structure with a field for each operation, so that a proof about one of them need not know the
others.
-/

namespace YamlLexer

theorem of_lt_takeWhile {p : Byte → Bool} {s : List Byte} {i : Nat}
    (h : i < (s.takeWhile p).length) : ∀ d ∈ s[i]?, p d = true := by
  intro d hd
  rw [← List.takeWhile_append_dropWhile (p := p) (l := s), List.getElem?_append_left h] at hd
  exact List.mem_takeWhile_imp (List.mem_of_getElem? hd)

/-- Bytes of a class end at the first one that stops them, being of another, or where the input
ends. -/
theorem isLeast_takeWhile {p : Byte → Bool} {stops : Byte → Prop}
    (hstops : ∀ b, stops b ↔ p b = false) (source : List Byte) (start : Nat) :
    IsLeast {i | start ≤ i ∧ ∀ b ∈ source[i]?, stops b}
      (start + ((source.drop start).takeWhile p).length) := by
  simp only [hstops]
  constructor
  · refine ⟨Nat.le_add_right _ _, ?_⟩
    intro b hb
    rw [← List.head?_drop, ← List.drop_drop, drop_length_takeWhile] at hb
    simpa [Option.mem_def.mp hb] using List.head?_dropWhile_not p (source.drop start)
  · rintro i ⟨hle, hstop⟩
    obtain ⟨j, rfl⟩ := Nat.exists_eq_add_of_le hle
    by_contra hlt
    have hj : j < ((source.drop start).takeWhile p).length := by omega
    have hlength := (List.takeWhile_sublist p (l := source.drop start)).length_le
    have hb := List.getElem?_eq_getElem (hj.trans_le hlength)
    have hclass := of_lt_takeWhile hj _ hb
    rw [List.getElem?_drop] at hb
    rw [hstop _ hb] at hclass
    cases hclass

namespace Cursor

/-- The ways to move a cursor. Offsets and amounts are words. -/
inductive Move where
  | moveTo (offset : UInt64)
  | skip (amount : Int64)
  | read
  | skipBlanks
deriving DecidableEq, Repr

def move (c : Cursor) : Move → Cursor
  | .moveTo offset => c.moveTo offset.toNat
  | .skip amount => c.skip amount.toInt
  | .read => c.read?.2
  | .skipBlanks => c.skipBlanks.2

def moves (c : Cursor) (ms : List Move) : Cursor := ms.foldl move c

/-- What a cursor of the bytes does. -/
structure Contract (c : Cursor) (bytes : List Byte) : Prop where
  source : c.source = bytes
  offset_le : c.offset ≤ bytes.length
  remaining : c.offset + c.remaining = bytes.length
  moveTo (offset : Nat) : (c.moveTo offset).offset = min offset bytes.length
  skip (amount : Int) : (c.skip amount).offset = max 0 (min (c.offset + amount) bytes.length)
  peek : c.peek? = bytes[c.offset]?
  peekIs (b : Byte) : c.peekIs b = true ↔ bytes[c.offset]? = some b
  read : c.read? = (c.peek?, c.skip 1)
  /-- Blanks are passed up to the first byte that is none. -/
  skipBlanks : IsLeast {i | c.offset ≤ i ∧ ∀ b ∈ bytes[i]?, b ≠ 0x20 ∧ b ≠ 0x09}
    c.skipBlanks.2.offset
  blanks : c.offset + c.skipBlanks.1 = c.skipBlanks.2.offset
  lineEnd : IsLeast {i | c.offset ≤ i ∧ ∀ b ∈ bytes[i]?, b = 0x0D ∨ b = 0x0A} c.lineEnd
  slice (start stop i : Nat) :
    (c.slice ⟨start, stop⟩)[i]? = if start + i < stop then bytes[start + i]? else none
  rest : c.rest = c.slice ⟨c.offset, c.offset + c.remaining⟩
  unread : bytes.take c.offset ++ c.rest = bytes

variable {c : Cursor}

theorem offset_skip (c : Cursor) (amount : Int) :
    (c.skip amount).offset = max 0 (min (c.offset + amount) c.source.length) := by
  rw [skip, offset_moveTo]
  omega

theorem read?_eq (c : Cursor) : c.read? = (c.peek?, c.skip 1) := rfl

theorem offset_skipBlanks (c : Cursor) :
    c.skipBlanks.2.offset = c.offset + (c.rest.takeWhile Byte.isBlank).length := by
  have hlength := (List.takeWhile_sublist Byte.isBlank (l := c.rest)).length_le
  rw [length_rest] at hlength
  have hoffset := c.offset_add_remaining
  change min (c.offset + (c.rest.takeWhile Byte.isBlank).length) c.source.length = _
  omega

theorem getElem?_slice (c : Cursor) (start stop i : Nat) :
    (c.slice ⟨start, stop⟩)[i]? = if start + i < stop then c.source[start + i]? else none := by
  rw [slice, List.getElem?_drop, List.getElem?_take]

theorem rest_eq_slice (c : Cursor) : c.rest = c.slice ⟨c.offset, c.offset + c.remaining⟩ := by
  rw [slice, offset_add_remaining, List.take_length, rest]

theorem contract (c : Cursor) : c.Contract c.source where
  source := rfl
  offset_le := c.offset_le
  remaining := c.offset_add_remaining
  moveTo := c.offset_moveTo
  skip := c.offset_skip
  peek := rfl
  peekIs _ := beq_iff_eq
  read := c.read?_eq
  skipBlanks := by
    rw [offset_skipBlanks]
    exact isLeast_takeWhile (fun b ↦ by simp [Byte.isBlank]) c.source c.offset
  blanks := c.offset_skipBlanks.symm
  lineEnd := isLeast_takeWhile (fun b ↦ by simp [Byte.isBreak, or_comm, or_iff_not_imp_left])
    c.source c.offset
  slice := c.getElem?_slice
  rest := c.rest_eq_slice
  unread := List.take_append_drop _ _

theorem source_move (c : Cursor) (m : Move) : (c.move m).source = c.source := by
  cases m with
  | moveTo | skip | read | skipBlanks => rfl

theorem source_moves (c : Cursor) (ms : List Move) : (c.moves ms).source = c.source := by
  induction ms generalizing c with
  | nil => rfl
  | cons m ms ih => exact (ih (c.move m)).trans (c.source_move m)

end Cursor

end YamlLexer
