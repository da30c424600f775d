import YamlLexer.Proofs.Lines
import YamlLexer.Proofs.Lockstep

/-!
# Indentation

Moving a whole text to the right changes none of its tokens. `indentLines k` puts `k` spaces in
front of every line, where `\r\n` is one line break, and the event text stays as it is, on every
input (`ofBytes_indentLines`).

The lexers of the two texts stay aligned, `k` columns apart. The spaces are part of the gaps, so the
constructs are where they were but for their columns. Only within a double line break would the
columns be the same in both, and no construct stands there; the column behind a line feed does not
depend on the one before it, and this is what carries the induction in `columnBehind_indentBreaks`.
-/

namespace YamlLexer

/-- The bytes, with `k` spaces behind every line break. -/
def indentBreaks (k : Nat) : List Byte → List Byte
  | [] => []
  | b :: s =>
    b :: ((if Place.endsLine b s then List.replicate k 0x20 else []) ++ indentBreaks k s)

/-- The bytes, with `k` spaces in front of every line. -/
def indentLines (k : Nat) (bytes : List Byte) : List Byte :=
  List.replicate k 0x20 ++ indentBreaks k bytes

variable {k : Nat} {b : Byte} {s : List Byte}

/-- A line break that does not end its line is the first half of a double one. -/
theorem head_of_endsLine (hbreak : b.isBreak = true) (hends : Place.endsLine b s = false) :
    s.head? = some 0x0A := by
  obtain rfl | rfl := isBreak_cases hbreak
  · cases hends
  · simpa [Place.endsLine] using hends

theorem indentBreaks_cons (h : b.isBreak = false) :
    indentBreaks k (b :: s) = b :: indentBreaks k s := by
  rw [indentBreaks, Place.endsLine_of_isBreak h, if_neg Bool.false_ne_true, List.nil_append]

/-!
## What a scan sees

What begins with no gap is seen through the spaces: its first line is the same, and what is left
when some bytes of that line have been taken is again a text with `k` spaces behind each of its
breaks.
-/

theorem firstLine_indentBreaks (k : Nat) (s : List Byte) :
    firstLine (indentBreaks k s) = firstLine s := by
  refine firstLine_of_cons rfl (fun _ _ hb ↦ indentBreaks_cons hb) ?_ s
  intro b s hb
  rw [indentBreaks, firstLine_cons_of_isBreak hb]

theorem drop_indentBreaks {n : Nat} (h : n ≤ (firstLine s).length) :
    (indentBreaks k s).drop n = indentBreaks k (s.drop n) :=
  drop_of_cons (fun _ _ hb ↦ indentBreaks_cons hb) h

theorem dropWhile_replicate (k : Nat) (s : List Byte) :
    (List.replicate k 0x20 ++ s).dropWhile Byte.isGap = s.dropWhile Byte.isGap := by
  refine List.dropWhile_append_of_pos ?_
  intro b hb
  obtain rfl := List.eq_of_mem_replicate hb
  rfl

theorem dropWhile_indentBreaks (k : Nat) (s : List Byte) :
    (indentBreaks k s).dropWhile Byte.isGap = indentBreaks k (s.dropWhile Byte.isGap) := by
  induction s with
  | nil => rfl
  | cons b s ih =>
    by_cases hb : b.isGap = true
    · rw [indentBreaks, List.dropWhile_cons_of_pos hb, List.dropWhile_cons_of_pos hb, ← ih]
      -- The spaces behind a break belong to the gap as well.
      split
      · exact dropWhile_replicate k _
      · rfl
    · rw [indentBreaks, List.dropWhile_cons_of_neg hb, List.dropWhile_cons_of_neg hb, indentBreaks]

/-! ## Columns -/

theorem columnBehind_replicate (k column : Nat) (s : List Byte) :
    columnBehind column (List.replicate k 0x20 ++ s) = columnBehind (column + k) s := by
  induction k generalizing column with
  | zero => rfl
  | succ k ih =>
    rw [List.replicate_succ, List.cons_append]
    change columnBehind (column + 1) _ = _
    rw [ih, Nat.add_right_comm, Nat.add_assoc]

/-- Columns behind gaps are `k` apart if they were before, and also if the second half of a double
line break comes next. -/
theorem columnBehind_indentBreaks {column column' : Nat} (s : List Byte)
    (h : column' = column + k ∨ s.head? = some 0x0A) :
    columnBehind column' (indentBreaks k s) = columnBehind column s + k := by
  induction s generalizing column column' with
  | nil =>
    rcases h with rfl | h
    · rfl
    · cases h
  | cons b s ih =>
    have hcolumn (hb : b.isBreak = false) : column' = column + k := by
      rcases h with h | h
      · exact h
      · -- The second half of a double line break is a break itself.
        obtain rfl : b = 0x0A := by simpa using h
        cases hb
    rw [indentBreaks, columnBehind, columnBehind]
    by_cases hgap : b.isGap = true
    · rw [if_pos hgap, if_pos hgap]
      by_cases hbreak : b.isBreak = true
      · rw [if_pos hbreak, if_pos hbreak]
        by_cases hends : Place.endsLine b s = true
        · rw [if_pos hends, columnBehind_replicate]
          exact ih (.inl rfl)
        · -- The first half of a double line break: nothing is put between the two.
          rw [if_neg hends, List.nil_append]
          exact ih (.inr (head_of_endsLine hbreak (by simpa using hends)))
      · rw [Bool.not_eq_true] at hbreak
        rw [Place.endsLine_of_isBreak hbreak, hbreak, hcolumn hbreak]
        exact ih (.inl (Nat.add_right_comm _ _ _))
    · rw [if_neg hgap, if_neg hgap]
      exact hcolumn (isBreak_of_isGap (by simpa using hgap))

/-!
## The two runs

The first line is indented too, which puts the two lexers `k` columns apart from the beginning. From
then on the lockstep of `Aligned` does all that is left to do.
-/

theorem agrees_indentBreaks (k : Nat) {s s' : List Byte} (h : s' = indentBreaks k s) :
    Agrees k (fun s s' ↦ s' = indentBreaks k s) s s' := by
  subst h
  refine ⟨(firstLine_indentBreaks k s).symm, ?_, ?_⟩
  · intro n hn
    rw [drop_indentBreaks hn, dropWhile_indentBreaks]
  · intro n hn _ column
    rw [drop_indentBreaks hn, columnBehind_indentBreaks _ (.inl rfl)]

theorem aligned_ofBytes (k : Nat) (bytes : List Byte) :
    Lexer.Aligned k (fun s s' ↦ s' = indentBreaks k s)
      (Lexer.ofBytes bytes) (Lexer.ofBytes (indentLines k bytes)) := by
  refine ⟨Lexer.regular_ofBytes _, Lexer.regular_ofBytes _, rfl, rfl, rfl, rfl, rfl, ?_, ?_⟩
  · intro _
    rw [Lexer.column_nextPlace (Nat.le_refl _), Lexer.column_nextPlace (Nat.le_refl _)]
    change columnBehind 0 (indentLines k bytes) = columnBehind 0 bytes + k
    rw [indentLines, columnBehind_replicate, columnBehind_indentBreaks _ (.inl rfl)]
  · change (indentLines k bytes).dropWhile Byte.isGap = indentBreaks k (bytes.dropWhile Byte.isGap)
    rw [indentLines, dropWhile_replicate, dropWhile_indentBreaks]

/-- Moving a whole text to the right does not change its event text, nor whether it fails. -/
theorem ofBytes_indentLines (k : Nat) (bytes : List Byte) :
    EventText.ofBytes (indentLines k bytes) = EventText.ofBytes bytes ∧
      (Lexer.ofBytes (indentLines k bytes)).transcript.1.failure.isSome =
        (Lexer.ofBytes bytes).transcript.1.failure.isSome := by
  obtain ⟨hitems, hfailure⟩ :=
    (aligned_ofBytes k bytes).transcript fun h ↦ agrees_indentBreaks k h
  refine ⟨?_, hfailure⟩
  rw [EventText.ofBytes, EventText.ofBytes, EventText.ofLexer, EventText.ofLexer,
    EventText.ofTranscript_congr hitems hfailure]

end YamlLexer
