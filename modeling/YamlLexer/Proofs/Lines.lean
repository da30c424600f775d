import YamlLexer.Cursor
import YamlLexer.Gap
import YamlLexer.Proofs.Reading.Line

/-!
# Lines of a text

The lexer carries the number of its line along and never looks back. What that number has to be is a
matter of the bytes alone: `Cursor.placeAt` finds the line of an offset by the breaks that end at or
before it, wherever a lexer has stopped. Here it is worked out what a single byte does to it
(`placeAt_succ`), and from that what bytes within a line do (`placeAt_add`) and what a gap does
(`Follows.skipGap`).

## Double breaks

A carriage return with a line feed behind it is one break, which ends behind the line feed. A lexer
that goes byte by byte moves the start of its line at both of them. So between the two, and only
there, the start of the line is ahead of what it should be, and the line feed sets it right. The
induction over a gap carries this as an alternative.
-/

namespace YamlLexer

/-!
## Line breaks

The law of lines has no lexer in it: the breaks are listed with the offsets behind them, and the
line of an offset is counted by those that are not greater.
-/

/-- The offsets behind the line breaks of bytes of which the first is at the given offset. -/
def breakEnds (offset : Nat) : List Byte → List Nat
  | [] => []
  | 0x0D :: 0x0A :: s => (offset + 2) :: breakEnds (offset + 2) s
  | b :: s =>
    if b.isBreak then (offset + 1) :: breakEnds (offset + 1) s else breakEnds (offset + 1) s

/-- The place of an offset, if lines are counted from a cursor on: on the line that the last of the
breaks up to there has started. -/
def Cursor.placeAt (c : Cursor) (pos : Nat) : Place :=
  let breaks := (breakEnds c.offset c.rest).filter (· ≤ pos)
  { offset := pos, line := breaks.length, lineStart := breaks.getLastD c.offset }

variable {offset : Nat} {b : Byte} {s text : List Byte}

theorem Place.endsLine_of_isBreak (h : b.isBreak = false) : Place.endsLine b s = false := by
  obtain ⟨hfeed, hreturn⟩ := Bool.or_eq_false_iff.mp h
  rw [endsLine, hfeed, hreturn]
  rfl

/-- A break ends its line, unless it is the first half of a double one. -/
theorem Place.endsLine_eq_isBreak (h : ¬(b = 0x0D ∧ s.head? = some 0x0A)) :
    Place.endsLine b s = b.isBreak := by
  rw [endsLine, Byte.isBreak]
  by_cases hb : b = 0x0D
  · have hs : s.head? ≠ some 0x0A := fun hs ↦ h ⟨hb, hs⟩
    simp [hb, hs]
  · rw [beq_eq_false_iff_ne.mpr hb, Bool.false_and]

/-- Byte by byte: a break ends where its last byte does. -/
theorem breakEnds_cons (offset : Nat) (b : Byte) (s : List Byte) : breakEnds offset (b :: s) =
    (if Place.endsLine b s then [offset + 1] else []) ++ breakEnds (offset + 1) s := by
  rw [breakEnds.eq_def]
  split
  · rename_i heq
    cases heq
  · rename_i heq
    obtain ⟨rfl, rfl⟩ := List.cons_eq_cons.mp heq
    rfl
  · rename_i hdouble heq
    obtain ⟨rfl, rfl⟩ := List.cons_eq_cons.mp heq
    -- A line feed behind a carriage return would have made the two one break.
    have hdouble : ¬(b = 0x0D ∧ s.head? = some 0x0A) := by
      rintro ⟨hb, hhead⟩
      obtain ⟨s', rfl⟩ := List.head?_eq_some_iff.mp hhead
      exact hdouble s' hb rfl
    rw [Place.endsLine_eq_isBreak hdouble]
    split
    · rfl
    · rfl

/-- A break, a double one, a byte and a break. -/
example : breakEnds 0 [0x0D, 0x0D, 0x0A, 0x61, 0x0A] = [1, 3, 5] := rfl

theorem lt_of_mem_breakEnds {i : Nat} (h : i ∈ breakEnds offset text) : offset < i := by
  induction text generalizing offset with
  | nil => cases h
  | cons b s ih =>
    rw [breakEnds_cons, List.mem_append] at h
    rcases h with h | h
    · split at h
      · rw [List.mem_singleton] at h
        omega
      · cases h
    · have hlt := ih h
      omega

theorem filter_breakEnds_eq_nil {pos : Nat} (h : pos ≤ offset) :
    (breakEnds offset text).filter (· ≤ pos) = [] := by
  rw [List.filter_eq_nil_iff]
  intro i hi
  have hlt := lt_of_mem_breakEnds hi
  simp only [decide_eq_true_eq]
  omega

theorem filter_breakEnds_succ {i : Nat} (h : text.drop i = b :: s) :
    (breakEnds offset text).filter (· ≤ offset + i + 1) =
      (breakEnds offset text).filter (· ≤ offset + i) ++
        if Place.endsLine b s then [offset + i + 1] else [] := by
  induction text generalizing offset i with
  | nil => simp at h
  | cons c t ih =>
    rw [breakEnds_cons, List.filter_append, List.filter_append]
    rcases i with _ | i
    · obtain ⟨rfl, rfl⟩ := List.cons_eq_cons.mp h
      rw [Nat.add_zero, filter_breakEnds_eq_nil (Nat.le_refl _),
        filter_breakEnds_eq_nil (Nat.le_succ _)]
      split
      · simp
      · rfl
    · rw [← Nat.add_assoc, Nat.add_right_comm offset i 1, ih h, ← List.append_assoc]
      congr 2
      split
      · simp
        omega
      · rfl

namespace Cursor

variable {c : Cursor} {pos n : Nat}

/-- Lines are counted from the cursor on. -/
theorem placeAt_offset (c : Cursor) : c.placeAt c.offset = ⟨c.offset, 0, c.offset⟩ := by
  rw [placeAt, filter_breakEnds_eq_nil (Nat.le_refl _)]
  rfl

theorem lineStart_placeAt_le (h : c.offset ≤ pos) : (c.placeAt pos).lineStart ≤ pos := by
  have hmem : (c.placeAt pos).lineStart ∈
      c.offset :: (breakEnds c.offset c.rest).filter (· ≤ pos) := List.getLastD_mem_cons
  rcases List.mem_cons.mp hmem with hfirst | hbreak
  · rwa [hfirst]
  · simpa using (List.mem_filter.mp hbreak).2

theorem placeAt_succ (hpos : c.offset ≤ pos) (h : c.source.drop pos = b :: s) :
    c.placeAt (pos + 1) =
      if Place.endsLine b s then ⟨pos + 1, (c.placeAt pos).line + 1, pos + 1⟩
      else { c.placeAt pos with offset := pos + 1 } := by
  obtain ⟨i, rfl⟩ := Nat.exists_eq_add_of_le hpos
  have hdrop : c.rest.drop i = b :: s := by
    rw [rest, List.drop_drop, h]
  rw [placeAt, filter_breakEnds_succ hdrop, placeAt]
  split
  · simp
  · simp

theorem placeAt_add (hpos : c.offset ≤ pos) (h : n ≤ (firstLine (c.source.drop pos)).length) :
    c.placeAt (pos + n) = { c.placeAt pos with offset := pos + n } := by
  induction n with
  | zero => rfl
  | succ n ih =>
    have hline : (firstLine (c.source.drop pos)).drop n = firstLine (c.source.drop (pos + n)) := by
      rw [drop_firstLine (Nat.le_of_succ_le h), List.drop_drop]
    have hlength := congrArg List.length hline
    rw [List.length_drop] at hlength
    rcases hrest : c.source.drop (pos + n) with _ | ⟨b, s⟩
    · rw [hrest] at hlength
      change _ = 0 at hlength
      omega
    · have hb : b.isBreak = false := by
        by_contra hb
        rw [Bool.not_eq_false] at hb
        rw [hrest, firstLine_cons_of_isBreak hb, List.length_nil] at hlength
        omega
      rw [← Nat.add_assoc, placeAt_succ (Nat.le_add_right_of_le hpos) hrest,
        Place.endsLine_of_isBreak hb, ih (Nat.le_of_succ_le h)]
      rfl

end Cursor

/-!
## Gaps

Here the lexer comes in. It goes through a gap byte by byte, with the bytes behind each to tell a
double break from two, and keeps up with the law.
-/

namespace Place

variable {c : Cursor} {p : Place}

/-- The line of a place is that of its offset. Between the halves of a double break the start of the
line is already that of the next one. -/
structure Follows (c : Cursor) (p : Place) : Prop where
  le : c.offset ≤ p.offset
  line : p.line = (c.placeAt p.offset).line
  lineStart : p.lineStart = (c.placeAt p.offset).lineStart ∨
    (c.source.drop p.offset).head? = some 0x0A

theorem follows_placeAt {pos : Nat} (h : c.offset ≤ pos) : Follows c (c.placeAt pos) :=
  ⟨h, rfl, .inl rfl⟩

/-- Where no gap goes on, no double break does. -/
theorem Follows.eq_placeAt (h : Follows c p)
    (hgap : ∀ b ∈ (c.source.drop p.offset).head?, b.isGap = false) : p = c.placeAt p.offset := by
  have hstart : p.lineStart = (c.placeAt p.offset).lineStart := by
    rcases h.lineStart with hstart | hfeed
    · exact hstart
    · exact absurd (hgap _ hfeed) (by decide)
  calc p = ⟨p.offset, p.line, p.lineStart⟩ := rfl
    _ = c.placeAt p.offset := by rw [h.line, hstart]; rfl

theorem Follows.pass (h : Follows c p) (hdrop : c.source.drop p.offset = b :: s) :
    Follows c (p.pass b s) := by
  have hrest : c.source.drop (p.offset + 1) = s := by
    rw [← List.drop_drop, hdrop, List.drop_one, List.tail_cons]
  have hsucc := Cursor.placeAt_succ h.le hdrop
  refine ⟨Nat.le_succ_of_le h.le, ?_, ?_⟩
  · rw [offset_pass, hsucc, Place.pass, h.line]
    split
    · rfl
    · rfl
  · rw [offset_pass, hsucc, hrest, Place.pass]
    by_cases hfirst : b = 0x0D ∧ s.head? = some 0x0A
    · exact .inr hfirst.2
    · rw [endsLine_eq_isBreak hfirst]
      rcases hbreak : b.isBreak with _ | _
      · rcases h.lineStart with hstart | hfeed
        · exact .inl hstart
        · rw [hdrop] at hfeed
          obtain rfl : b = 0x0A := by simpa using hfeed
          cases hbreak
      · exact .inl rfl

theorem Follows.skipGap (h : Follows c p) (hdrop : c.source.drop p.offset = s) :
    p.skipGap s = c.placeAt (p.skipGap s).offset := by
  induction s generalizing p with
  | nil =>
    refine h.eq_placeAt ?_
    rw [hdrop]
    simp
  | cons b s ih =>
    rw [Place.skipGap]
    split
    · refine ih (h.pass hdrop) ?_
      rw [offset_pass, ← List.drop_drop, hdrop, List.drop_one, List.tail_cons]
    · rename_i hgap
      refine h.eq_placeAt ?_
      rw [hdrop]
      simpa using hgap

end Place

end YamlLexer
