import YamlLexer.Byte
import YamlLexer.Error

/-!
# Byte cursors

A cursor is a place in a fixed sequence of bytes. Offsets are absolute, and no move leaves the
sequence: an offset past the end is taken as the end, and a step back past the start as the
start. The bound is a field of the structure, so no reader has to check it.

The lexical rules never see a cursor. They work on `Cursor.rest`, the bytes not read yet, and
answer with the number of bytes to advance by.
-/

namespace YamlLexer

/-- A place in a sequence of bytes. -/
structure Cursor where
  /-- The bytes under the cursor, read and unread. -/
  source : List Byte
  /-- The offset of the next byte to read. -/
  offset : Nat
  /-- The cursor is in the source, or at its end. -/
  offset_le : offset ≤ source.length
deriving DecidableEq, Repr

namespace Cursor

def ofBytes (bytes : List Byte) : Cursor := ⟨bytes, 0, Nat.zero_le _⟩

instance : Inhabited Cursor := ⟨ofBytes []⟩

/-- Moves to an absolute offset, or to the end if that comes first. -/
def moveTo (c : Cursor) (offset : Nat) : Cursor :=
  ⟨c.source, min offset c.source.length, Nat.min_le_right _ _⟩

@[simp] theorem source_moveTo (c : Cursor) (offset : Nat) :
    (c.moveTo offset).source = c.source := rfl

@[simp] theorem offset_moveTo (c : Cursor) (offset : Nat) :
    (c.moveTo offset).offset = min offset c.source.length := rfl

/-- Moves by a signed number of bytes, as far as the ends of the source allow. -/
def skip (c : Cursor) (amount : Int) : Cursor := c.moveTo (c.offset + amount).toNat

/-- Moves forward, as far as the end of the source allows. -/
def advance (c : Cursor) (amount : Nat) : Cursor := c.moveTo (c.offset + amount)

/-- The bytes not read yet. -/
def rest (c : Cursor) : List Byte := c.source.drop c.offset

def remaining (c : Cursor) : Nat := c.source.length - c.offset

@[simp] theorem length_rest (c : Cursor) : c.rest.length = c.remaining := List.length_drop

theorem offset_add_remaining (c : Cursor) : c.offset + c.remaining = c.source.length :=
  Nat.add_sub_of_le c.offset_le

/-- The byte at an absolute offset. -/
def peekAt? (c : Cursor) (offset : Nat) : Option Byte := c.source[offset]?

def peek? (c : Cursor) : Option Byte := c.peekAt? c.offset

def peekIs (c : Cursor) (b : Byte) : Bool := c.peek? == some b

def read? (c : Cursor) : Option Byte × Cursor := (c.peek?, c.advance 1)

/-- The bytes of a span, as far as the source has them. -/
def slice (c : Cursor) (span : Span) : List Byte := (c.source.take span.stop).drop span.start

/-- The text of a span, whose bytes must be UTF-8. -/
def sliceText (c : Cursor) (span : Span) : Except LexError String :=
  match String.fromUTF8? ⟨(c.slice span).toArray⟩ with
  | some text => .ok text
  | none => .error (.undecodable span)

/-- Moves past spaces and tabs, and tells how many there were. -/
def skipBlanks (c : Cursor) : Nat × Cursor :=
  let blanks := (c.rest.takeWhile Byte.isBlank).length
  (blanks, c.advance blanks)

/-- The offset of the next line break, or of the end of the source. -/
def lineEnd (c : Cursor) : Nat := c.offset + (c.rest.takeWhile (!·.isBreak)).length

end Cursor

end YamlLexer
