import YamlLexer.Gap

/-!
# Columns behind gaps

A place keeps offsets, and a column is their difference. What matters about a gap is what it does to
the column, and that is a function of the column in front of it and of its bytes: where in the input
the gap is makes no difference (`column_skipGap`). So two runs over different inputs can be compared
by their columns alone.

The start of a line is never behind the place (`lineStart_skipGap_le`), so the difference is not cut
off at zero. This is the only thing that has to be known of a place to pass from its offsets to its
column.
-/

namespace YamlLexer

/-- The column behind a gap, given the column in front of it and the bytes from there on. -/
def columnBehind (column : Nat) : List Byte → Nat
  | [] => column
  | b :: s => if b.isGap then columnBehind (if b.isBreak then 0 else column + 1) s else column

namespace Place

variable {p : Place}

theorem lineStart_pass_le (h : p.lineStart ≤ p.offset) (b : Byte) (s : List Byte) :
    (p.pass b s).lineStart ≤ (p.pass b s).offset := by
  change (if b.isBreak then p.offset + 1 else p.lineStart) ≤ p.offset + 1
  split
  · exact Nat.le_refl _
  · exact Nat.le_succ_of_le h

theorem column_pass (h : p.lineStart ≤ p.offset) (b : Byte) (s : List Byte) :
    (p.pass b s).column = if b.isBreak then 0 else p.column + 1 := by
  change p.offset + 1 - (if b.isBreak then p.offset + 1 else p.lineStart) = _
  split
  · exact Nat.sub_self _
  · rw [column]
    omega

theorem lineStart_skipGap_le (h : p.lineStart ≤ p.offset) (s : List Byte) :
    (p.skipGap s).lineStart ≤ (p.skipGap s).offset := by
  induction s generalizing p with
  | nil => exact h
  | cons b s ih =>
    rw [skipGap]
    split
    · exact ih (lineStart_pass_le h b s)
    · exact h

theorem column_skipGap (h : p.lineStart ≤ p.offset) (s : List Byte) :
    (p.skipGap s).column = columnBehind p.column s := by
  induction s generalizing p with
  | nil => rfl
  | cons b s ih =>
    rw [skipGap, columnBehind]
    split
    · rw [ih (lineStart_pass_le h b s), column_pass h]
    · rfl

end Place

end YamlLexer
