import YamlLexer.Byte
import YamlLexer.Mark

/-!
# Gaps and lines

Between two constructs there may be white space and commas. Line breaks stand nowhere else, so
lines are counted while a gap is passed, and only there. A carriage return followed by a line feed
is one break.

A place keeps the offset at which its line starts, and the column is the difference. So columns need
no count of their own, and a line break has only to record where the next line begins.
-/

namespace YamlLexer

/-- An offset together with the line that it is on. -/
structure Place where
  /-- The offset in bytes. -/
  offset : Nat
  /-- The number of the line, counted from zero. -/
  line : Nat
  /-- The offset at which the line starts. -/
  lineStart : Nat
deriving DecidableEq, Repr, Inhabited

namespace Place

/-- The column in bytes, counted from zero. -/
def column (p : Place) : Nat := p.offset - p.lineStart

def mark (p : Place) : Mark := ⟨p.offset, p.line, p.column⟩

/-- Whether a byte ends a line, given the bytes behind it. -/
def endsLine (b : Byte) (s : List Byte) : Bool :=
  b == 0x0A || (b == 0x0D && s.head? != some 0x0A)

/-- Moves past a byte, given the bytes behind it. Either half of a double break moves the start of
the line, and one of them counts. -/
def pass (p : Place) (b : Byte) (s : List Byte) : Place where
  offset := p.offset + 1
  line := if endsLine b s then p.line + 1 else p.line
  lineStart := if b.isBreak then p.offset + 1 else p.lineStart

/-- Moves past a gap, given the bytes from the place on. -/
def skipGap (p : Place) : List Byte → Place
  | [] => p
  | b :: s => if b.isGap then (p.pass b s).skipGap s else p

@[simp] theorem offset_pass (p : Place) (b : Byte) (s : List Byte) :
    (p.pass b s).offset = p.offset + 1 := rfl

theorem offset_skipGap (p : Place) (s : List Byte) :
    (p.skipGap s).offset = p.offset + (s.takeWhile Byte.isGap).length := by
  induction s generalizing p with
  | nil => rfl
  | cons b s ih =>
    rw [skipGap, List.takeWhile_cons]
    split
    · rw [ih, offset_pass, List.length_cons]
      omega
    · rfl

end Place

end YamlLexer
