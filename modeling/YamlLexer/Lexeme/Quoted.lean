import YamlLexer.Byte
import YamlLexer.Error

/-!
# Quoted scalars

A quoted scalar runs from one quote to the next, and its lexeme is what stands between them, with
escapes left as written. Between double quotes a backslash makes the next byte content; between
single quotes a doubled quote is content. No byte below the space may stand there, escaped or not.

The reader jumps from one byte that matters to the next, a stretch at a time: a stretch without
control bytes, then an escape, and so on to the closing quote. How far it got when a scalar is
malformed is part of its answer, because that is where reading would go on.
-/

namespace YamlLexer

/-- The two quotes. -/
inductive Quote where
  | single
  | double
deriving DecidableEq, Repr

namespace Quote

/-- The byte that opens and closes a scalar. -/
def byte : Quote → Byte
  | single => 0x27
  | double => 0x22

/-- Whether the byte ends a stretch, because it closes the scalar or starts an escape. -/
def isStop : Quote → Byte → Bool
  | single, b => b == 0x27
  | double, b => b == 0x22 || b == 0x5C

/-- Whether the first of the bytes starts an escape. It is known to end a stretch. -/
def isEscape : Quote → List Byte → Bool
  | single, s => s.take 2 == [0x27, 0x27]
  | double, s => s.head? == some 0x5C

end Quote

namespace Quoted

/-- The answer about a quoted scalar, given the bytes behind its opening quote. -/
inductive Outcome where
  /-- So many bytes of content, then the closing quote. -/
  | closed (size : Nat)
  /-- The scalar is malformed, as the first so many bytes show. Those before the last stretch,
  `settled` of them, were in order. -/
  | faulty (fault : ScalarFault) (extent settled : Nat)
deriving DecidableEq, Repr

/-- Shifts an answer by bytes that come before those it is about. -/
def Outcome.shift (n : Nat) : Outcome → Outcome
  | closed size => closed (n + size)
  | faulty fault extent settled => faulty fault (n + extent) (n + settled)

/-- The first control byte of a stretch, with its index. -/
def control? (stretch : List Byte) : Option (Nat × Byte) :=
  (stretch.findIdx? Byte.isControl).bind fun i ↦ stretch[i]?.map (i, ·)

/-- Reads a quoted scalar, given the bytes behind its opening quote. -/
def read (q : Quote) (s : List Byte) : Outcome :=
  let stretch := s.takeWhile (!q.isStop ·)
  match control? stretch with
  | some (i, b) => .faulty (.controlByte b) (i + 1) 0
  | none =>
    if q.isEscape (s.drop stretch.length) then
      match h : s.drop (stretch.length + 1) with
      | [] => .faulty .unterminated s.length 0
      | b :: rest =>
        if b.isControl then .faulty (.controlByte b) (stretch.length + 2) 0
        else (read q rest).shift (stretch.length + 2)
    else if stretch.length < s.length then .closed stretch.length
    else .faulty .unterminated s.length 0
termination_by s.length
decreasing_by
  have := congrArg List.length h
  simp at this
  omega

end Quoted

end YamlLexer
