import YamlLexer.Byte

/-!
# Plain scalars

A plain scalar is delimited by what may not stand in it: a line break, a bracket, a comment sign,
a colon that white space follows, and inside a flow collection a comma. Its lexeme leaves out the
blanks before that point, and may be empty when a colon comes first.

Where it stops is a function of the bytes from there on and never of those before, which is what
makes the text a longest beginning (`stopsAt_drop_extent`, `stopsAt_of_lt_extent`).
-/

namespace YamlLexer.Plain

/-- Whether a plain scalar ends before the first of the bytes. -/
def stopsAt (inFlow : Bool) : List Byte → Bool
  | [] => true
  | b :: s => if b = Byte.colon then atSpace s else if b = Byte.comma then inFlow else b.endsPlain

/-- The bytes of a plain scalar, with the blanks behind it. -/
def extent (inFlow : Bool) : List Byte → List Byte
  | [] => []
  | b :: s => if stopsAt inFlow (b :: s) then [] else b :: extent inFlow s

/-- The bytes of a plain scalar. -/
def lexeme (inFlow : Bool) (s : List Byte) : List Byte := trimEnd Byte.isBlank (extent inFlow s)

variable {inFlow : Bool} {s : List Byte}

theorem extent_append_drop : extent inFlow s ++ s.drop (extent inFlow s).length = s := by
  induction s with
  | nil => rfl
  | cons b s ih =>
    rw [extent]
    split
    · rfl
    · simpa using ih

/-- A plain scalar ends where it has to. -/
theorem stopsAt_drop_extent : stopsAt inFlow (s.drop (extent inFlow s).length) = true := by
  induction s with
  | nil => rfl
  | cons b s ih =>
    rw [extent]
    split
    · simpa
    · simpa using ih

/-- A plain scalar does not end before it has to. -/
theorem stopsAt_of_lt_extent {i : Nat} (h : i < (extent inFlow s).length) :
    stopsAt inFlow (s.drop i) = false := by
  induction s generalizing i with
  | nil => simp [extent] at h
  | cons b s ih =>
    rw [extent] at h
    split at h
    · simp at h
    · rename_i hb
      cases i with
      | zero => simpa using hb
      | succ i => simpa using ih (by simpa using h)

end YamlLexer.Plain
