import YamlLexer.Byte

/-!
# Key marks

A scalar is the key of a mapping if a colon follows it, after any number of blanks, and white
space or the end of the input follows the colon. The mark takes one blank behind the colon with
it, and never a line break. Without a colon, only the blanks are taken.
-/

namespace YamlLexer

/-- What stands behind a scalar. -/
structure KeyMark where
  /-- Whether the scalar is a key. -/
  isKey : Bool
  /-- How many bytes the mark takes, the blanks before it included. -/
  width : Nat
deriving DecidableEq, Repr

namespace KeyMark

/-- One if a blank comes next, and zero otherwise. -/
def leadingBlank : List Byte → Nat
  | [] => 0
  | b :: _ => if b.isBlank then 1 else 0

def read (s : List Byte) : KeyMark :=
  let blanks := (s.takeWhile Byte.isBlank).length
  match s.dropWhile Byte.isBlank with
  | [] => ⟨false, blanks⟩
  | b :: rest =>
    if b = Byte.colon ∧ atSpace rest then ⟨true, blanks + 1 + leadingBlank rest⟩
    else ⟨false, blanks⟩

/-- A colon before white space marks a key, and takes a blank with it. -/
theorem read_colon {s : List Byte} (h : atSpace s = true) :
    read (Byte.colon :: s) = ⟨true, 1 + leadingBlank s⟩ := by
  have hb : Byte.isBlank Byte.colon = false := rfl
  simp [read, hb, h]

end KeyMark

end YamlLexer
