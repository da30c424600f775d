import Mathlib.Algebra.Group.Nat.Defs
import YamlLexer.Gap

/-!
# Arithmetic of machine words

The numbers of a lexer have no bounds, and it looks at lists, not at indices. A machine counts in
words and addresses its memory. There a sum may not fit, a difference may fall below zero, and an
index or a slice may lie outside of what it is for. This file has each of these operations in the
form that can go wrong, with `none` for that it has.

A reader that clamps an offset to its input, or a difference to zero, cannot go wrong in this way,
but it answers something else than was asked for. No clamp is used here: where one would take
effect, the answer is `none` as well.

## What goes right

An input is `Short` if its length fits the counter of lines. All that is ever computed from its
offsets fits a word, so of the conditions below only those remain that an offset is within the
input, and that one is not behind another.
-/

namespace YamlLexer.Words

def add? (a b : Nat) : Option Nat := if a + b < 2 ^ 64 then some (a + b) else none

def sub? (a b : Nat) : Option Nat := if b ≤ a then some (a - b) else none

/-- The number of the next line. Lines are counted in half a word. -/
def nextLine? (line : Nat) : Option Nat := if line + 1 < 2 ^ 32 then some (line + 1) else none

def slice? {α : Type} (xs : List α) (start stop : Nat) : Option (List α) :=
  if start ≤ stop ∧ stop ≤ xs.length then some ((xs.take stop).drop start) else none

def moveTo? (source : List Byte) (offset : Nat) : Option Nat :=
  if offset ≤ source.length then some offset else none

/-- Moves forward. The amount is a signed word. -/
def skip? (source : List Byte) (offset amount : Nat) : Option Nat :=
  if amount < 2 ^ 63 then do moveTo? source (← add? offset amount) else none

def rest? (source : List Byte) (offset : Nat) : Option (List Byte) := do
  let remaining ← sub? source.length offset
  slice? source offset (← add? offset remaining)

/-- Whether there is white space at an offset, or the end of the input. -/
def spaceAt (source : List Byte) (offset : Nat) : Bool := source[offset]?.all Byte.isSpace

/-- A mark at the offset of a place. -/
def mark? (p : Place) : Option Mark := do
  return ⟨p.offset, p.line, ← sub? p.offset p.lineStart⟩

/-- The input leaves room for one more, in a counter of lines. -/
def Short (source : List Byte) : Prop := source.length < 2 ^ 32

/-! ## When nothing goes wrong -/

variable {source : List Byte} {a b offset amount : Nat} {p : Place}

theorem bind_eq {α β : Type} {x : Option α} {y : α} (h : x = some y) (next : α → Option β) :
    x >>= next = next y := by
  rw [h, Option.bind_eq_bind, Option.bind_some]

theorem add?_eq (h : a + b < 2 ^ 64) : add? a b = some (a + b) := if_pos h

theorem sub?_eq (h : b ≤ a) : sub? a b = some (a - b) := if_pos h

theorem slice?_eq {α : Type} {xs : List α} (hstart : a ≤ b) (hstop : b ≤ xs.length) :
    slice? xs a b = some ((xs.take b).drop a) := if_pos ⟨hstart, hstop⟩

theorem moveTo?_eq (h : offset ≤ source.length) : moveTo? source offset = some offset := if_pos h

theorem Short.add?_eq (h : Short source) (ha : a ≤ source.length) (hb : b ≤ source.length + 3) :
    add? a b = some (a + b) := by
  rw [Short] at h
  exact Words.add?_eq (by omega)

theorem Short.skip?_eq (h : Short source) (hle : offset + amount ≤ source.length) :
    skip? source offset amount = some (offset + amount) := by
  have hamount : amount < 2 ^ 63 := by
    rw [Short] at h
    omega
  rw [skip?, if_pos hamount, bind_eq (h.add?_eq (by omega) (by omega)), moveTo?_eq hle]

theorem Short.rest?_eq (h : Short source) (hle : offset ≤ source.length) :
    rest? source offset = some (source.drop offset) := by
  rw [rest?, bind_eq (sub?_eq hle), bind_eq (h.add?_eq hle (by omega)), Nat.add_sub_of_le hle,
    slice?_eq hle (Nat.le_refl _), List.take_length]

theorem spaceAt_eq (source : List Byte) (offset : Nat) :
    spaceAt source offset = atSpace (source.drop offset) := by
  rw [spaceAt, ← List.head?_drop]
  rcases source.drop offset with _ | ⟨b, s⟩
  · rfl
  · rfl

theorem mark?_eq (h : p.lineStart ≤ p.offset) : mark? p = some p.mark := by
  rw [mark?, bind_eq (sub?_eq h)]
  rfl

theorem drop_eq_nil_of_getElem? (h : source[offset]? = none) : source.drop offset = [] := by
  rw [← List.head?_eq_none_iff, List.head?_drop]
  exact h

theorem drop_eq_cons_of_getElem? {b : Byte} (h : source[offset]? = some b) :
    source.drop offset = b :: source.drop (offset + 1) := by
  obtain ⟨hlt, rfl⟩ := List.getElem?_eq_some_iff.mp h
  exact List.drop_eq_getElem_cons hlt

theorem succ_le_of_getElem? {b : Byte} (h : source[offset]? = some b) :
    offset + 1 ≤ source.length :=
  (List.getElem?_eq_some_iff.mp h).1

end YamlLexer.Words
