/-!
# Positions in the input

A `Mark` is where something stands, a `Span` which bytes it covers. Both count bytes from zero;
only the text of a mark counts lines and columns from one, as editors do.

A span may be reversed, or be empty; it then covers no bytes, and is not an error.
-/

namespace YamlLexer

/-- A place in the input. -/
structure Mark where
  /-- The offset in bytes. -/
  pos : Nat := 0
  /-- The line, counted from zero. -/
  line : Nat := 0
  /-- The column in bytes, counted from zero. -/
  col : Nat := 0
deriving DecidableEq, Repr

instance : Inhabited Mark := ⟨{}⟩

/-- The text of a mark: line and column as an editor shows them, and the offset. -/
def Mark.describe (m : Mark) : String :=
  s!"line {m.line + 1} column {m.col + 1} (byte {m.pos})"

/-- The bytes from `start` up to, but not including, `stop`. There are none if `stop` comes first. -/
structure Span where
  /-- The offset of the first byte. -/
  start : Nat
  /-- The offset after the last byte. -/
  stop : Nat
deriving DecidableEq, Repr, Inhabited

def Span.isEmpty (s : Span) : Bool := s.stop ≤ s.start

/-- The text of a span: both ends, joined by two dots. -/
def Span.describe (s : Span) : String := s!"{s.start}..{s.stop}"

end YamlLexer
