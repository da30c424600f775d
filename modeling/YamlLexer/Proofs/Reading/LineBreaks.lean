import YamlLexer.Proofs.Reading.Line

/-!
# Readings and the style of line breaks

A line may end with a line feed, a carriage return, or both. `restyleBreaks` rewrites a text whose
lines end with line feeds into another style, and this module says what a reading makes of that:
nothing, as it stays on its line. The one place where a break gets into a reading is the reason for
which a quoted scalar is refused that goes on behind its line. The byte that is blamed there is the
first one of the break, so a reading of the other text is the same but for that byte
(`of_restyleBreaks`).
-/

namespace YamlLexer

/-- The ways to end a line. -/
inductive LineBreak where
  | lf
  | cr
  | crlf
deriving DecidableEq, Repr

namespace LineBreak

def bytes : LineBreak → List Byte
  | lf => [0x0A]
  | cr => [0x0D]
  | crlf => [0x0D, 0x0A]

def first : LineBreak → Byte
  | lf => 0x0A
  | cr | crlf => 0x0D

/-- The byte that is met first where lines end in this style, and with a line feed before. -/
def restyle (style : LineBreak) (b : Byte) : Byte := if b = 0x0A then style.first else b

theorem bytes_eq (style : LineBreak) : style.bytes = style.first :: style.bytes.tail := by
  cases style <;> rfl

theorem isBreak_of_mem_bytes {style : LineBreak} {b : Byte} (h : b ∈ style.bytes) :
    b.isBreak = true := by
  cases style with
  | lf | cr =>
    obtain rfl := List.mem_singleton.mp h
    rfl
  | crlf =>
    obtain rfl | rfl : b = 0x0D ∨ b = 0x0A := by simpa [bytes] using h
    · rfl
    · rfl

theorem isBreak_first (style : LineBreak) : style.first.isBreak = true := by
  cases style <;> rfl

end LineBreak

/-- The bytes, with a break of the given style for every line feed. -/
def restyleBreaks (style : LineBreak) : List Byte → List Byte
  | [] => []
  | b :: s => if b = 0x0A then style.bytes ++ restyleBreaks style s else b :: restyleBreaks style s

variable {style : LineBreak} {p : Byte → Bool} {b : Byte} {s : List Byte}

theorem restyleBreaks_feed (style : LineBreak) (s : List Byte) :
    restyleBreaks style (0x0A :: s) = style.bytes ++ restyleBreaks style s := rfl

theorem restyleBreaks_cons (h : b ≠ 0x0A) :
    restyleBreaks style (b :: s) = b :: restyleBreaks style s := by
  rw [restyleBreaks, if_neg h]

theorem ne_feed_of_isBreak (h : b.isBreak = false) : b ≠ 0x0A := by
  rintro rfl
  cases h

theorem restyleBreaks_eq_self (h : 0x0A ∉ s) : restyleBreaks style s = s := by
  induction s with
  | nil => rfl
  | cons b s ih =>
    rw [List.mem_cons, not_or] at h
    rw [restyleBreaks_cons (Ne.symm h.1), ih h.2]

/-- A line, and an empty one. -/
example : restyleBreaks .crlf [0x61, 0x0A, 0x0A] = [0x61, 0x0D, 0x0A, 0x0D, 0x0A] := rfl

/-!
## What a scan sees

A list without breaks is its own restyled text, so the first line is the same in each style. Behind
that one break takes the place of another, and both are white space.
-/

theorem firstLine_restyleBreaks (style : LineBreak) (s : List Byte) :
    firstLine (restyleBreaks style s) = firstLine s := by
  refine firstLine_of_cons rfl (fun _ _ hb ↦ restyleBreaks_cons (ne_feed_of_isBreak hb)) ?_ s
  intro b s hbreak
  by_cases hb : b = 0x0A
  · subst hb
    rw [restyleBreaks_feed, style.bytes_eq, List.cons_append,
      firstLine_cons_of_isBreak style.isBreak_first]
  · rw [restyleBreaks_cons hb, firstLine_cons_of_isBreak hbreak]

theorem drop_restyleBreaks {n : Nat} (h : n ≤ (firstLine s).length) :
    (restyleBreaks style s).drop n = restyleBreaks style (s.drop n) :=
  drop_of_cons (fun _ _ hb ↦ restyleBreaks_cons (ne_feed_of_isBreak hb)) h

/-- A class that all breaks belong to does not tell one style from another. -/
theorem takeWhile_restyleBreaks (hp : ∀ b : Byte, b.isBreak = true → p b = true) (s : List Byte) :
    (restyleBreaks style s).takeWhile p = restyleBreaks style (s.takeWhile p) := by
  induction s with
  | nil => rfl
  | cons b s ih =>
    by_cases hb : b = 0x0A
    · subst hb
      rw [restyleBreaks_feed, List.takeWhile_append_of_pos fun b hb ↦
        hp b (LineBreak.isBreak_of_mem_bytes hb), List.takeWhile_cons_of_pos (hp _ rfl), ih]
      rfl
    · rw [restyleBreaks_cons hb]
      by_cases hpb : p b = true
      · rw [List.takeWhile_cons_of_pos hpb, List.takeWhile_cons_of_pos hpb, ih,
          restyleBreaks_cons hb]
      · rw [List.takeWhile_cons_of_neg hpb, List.takeWhile_cons_of_neg hpb]
        rfl

theorem dropWhile_restyleBreaks (hp : ∀ b : Byte, b.isBreak = true → p b = true) (s : List Byte) :
    (restyleBreaks style s).dropWhile p = restyleBreaks style (s.dropWhile p) := by
  induction s with
  | nil => rfl
  | cons b s ih =>
    by_cases hb : b = 0x0A
    · subst hb
      rw [restyleBreaks_feed, List.dropWhile_append_of_pos fun b hb ↦
        hp b (LineBreak.isBreak_of_mem_bytes hb), List.dropWhile_cons_of_pos (hp _ rfl), ih]
    · rw [restyleBreaks_cons hb]
      by_cases hpb : p b = true
      · rw [List.dropWhile_cons_of_pos hpb, List.dropWhile_cons_of_pos hpb, ih]
      · rw [List.dropWhile_cons_of_neg hpb, List.dropWhile_cons_of_neg hpb, restyleBreaks_cons hb]

/-!
## Quoted scalars

The reader meets a break as a control byte, and blames it. The answers differ in that byte and in
nothing else, as all that comes before it is on the first line.
-/

def ScalarFault.restyle (style : LineBreak) : ScalarFault → ScalarFault
  | controlByte b => .controlByte (style.restyle b)
  | unterminated => .unterminated

namespace Quoted

variable {q : Quote}

def Outcome.restyle (style : LineBreak) : Outcome → Outcome
  | closed size => .closed size
  | faulty fault extent settled => .faulty (fault.restyle style) extent settled

theorem Outcome.restyle_shift (style : LineBreak) (n : Nat) (o : Outcome) :
    (o.shift n).restyle style = (o.restyle style).shift n := by
  cases o <;> rfl

theorem isControl_of_isBreak (h : b.isBreak = true) : b.isControl = true := by
  obtain rfl | rfl := isBreak_cases h
  · rfl
  · rfl

theorem control?_restyleBreaks (s : List Byte) : control? (restyleBreaks style s) =
    (control? s).map fun found ↦ (found.1, style.restyle found.2) := by
  induction s with
  | nil => rfl
  | cons b s ih =>
    by_cases hb : b = 0x0A
    · subst hb
      rw [restyleBreaks_feed, style.bytes_eq, List.cons_append, control?_cons, control?_cons,
        if_pos (isControl_of_isBreak style.isBreak_first),
        if_pos (isControl_of_isBreak (b := 0x0A) rfl)]
      rfl
    · rw [restyleBreaks_cons hb, control?_cons, control?_cons, ih]
      split
      · rw [Option.map_some, LineBreak.restyle, if_neg hb]
      · rw [Option.map_map, Option.map_map]
        rfl

theorem isEscape_restyleBreaks (q : Quote) (s : List Byte) :
    q.isEscape (restyleBreaks style s) = q.isEscape s := by
  rw [← isEscape_firstLine, firstLine_restyleBreaks, isEscape_firstLine]

theorem restyleBreaks_of_isEscape (h : q.isEscape (b :: s) = true) :
    restyleBreaks style (b :: s) = b :: restyleBreaks style s :=
  restyleBreaks_cons (ne_feed_of_isBreak (isBreak_of_isStop (isStop_of_isEscape h)))

theorem feed_notMem_of_control? (h : control? s = none) : 0x0A ∉ s := by
  intro hmem
  exact absurd (control?_eq_none_iff.mp h _ hmem) (by decide)

theorem restyleBreaks_eq_nil_iff : restyleBreaks style s = [] ↔ s = [] := by
  rcases s with _ | ⟨b, s⟩
  · simp [restyleBreaks]
  · by_cases hb : b = 0x0A
    · subst hb
      rw [restyleBreaks_feed, style.bytes_eq]
      simp
    · rw [restyleBreaks_cons hb]
      simp

/-- Behind a stretch a break is met only where it is escaped, and is refused there. -/
theorem readBehind_restyleBreaks (n : Nat) (h : ∀ rest : List Byte, rest.length < s.length →
    read q (restyleBreaks style rest) = (read q rest).restyle style) :
    readBehind q n (restyleBreaks style s) = (readBehind q n s).restyle style := by
  rw [readBehind, readBehind, isEscape_restyleBreaks]
  by_cases hescape : q.isEscape s = true
  · rw [if_pos hescape, if_pos hescape]
    rcases s with _ | ⟨b, _ | ⟨c, rest⟩⟩
    · rfl
    · rw [restyleBreaks_of_isEscape hescape]
      rfl
    · rw [restyleBreaks_of_isEscape hescape]
      -- An escaped line feed is blamed, and in the other text the first byte of its break.
      by_cases hc : c = 0x0A
      · subst hc
        rw [restyleBreaks_feed, style.bytes_eq]
        simp only [List.tail_cons, List.cons_append,
          if_pos (isControl_of_isBreak style.isBreak_first)]
        rfl
      · rw [restyleBreaks_cons hc]
        dsimp only [List.tail_cons]
        split
        · rw [Outcome.restyle, ScalarFault.restyle, LineBreak.restyle, if_neg hc]
        · have hlt : rest.length < (b :: c :: rest).length := by
            rw [List.length_cons, List.length_cons]
            omega
          rw [h rest hlt, Outcome.restyle_shift]
  · rw [if_neg hescape, if_neg hescape]
    simp only [restyleBreaks_eq_nil_iff]
    split <;> rfl

/-- A quoted scalar is read alike in all styles of line breaks. If a break is what makes it
malformed, its first byte is blamed. -/
theorem read_restyleBreaks (q : Quote) (s : List Byte) :
    read q (restyleBreaks style s) = (read q s).restyle style := by
  have hbreak : ∀ b : Byte, b.isBreak = true → (!q.isStop b) = true := by
    intro b hb
    by_contra hstop
    rw [Bool.not_eq_true, Bool.not_eq_false'] at hstop
    rw [isBreak_of_isStop hstop] at hb
    cases hb
  rw [read_eq, read_eq q s, takeWhile_restyleBreaks hbreak, dropWhile_restyleBreaks hbreak,
    control?_restyleBreaks]
  rcases hcontrol : control? (s.takeWhile (!q.isStop ·)) with _ | ⟨i, b⟩
  · rw [restyleBreaks_eq_self (feed_notMem_of_control? hcontrol)]
    refine readBehind_restyleBreaks _ fun rest hlt ↦ ?_
    have hle := (List.dropWhile_suffix (!q.isStop ·) (l := s)).length_le
    exact read_restyleBreaks q rest
  · rfl
termination_by s.length

end Quoted

/-! ## Readings -/

def Refusal.restyle (style : LineBreak) : Refusal → Refusal
  | unsupported construct => .unsupported construct
  | malformed fault extent => .malformed (fault.restyle style) extent

namespace Reading

/-- The reading of a text with breaks of the given style. -/
def restyle (style : LineBreak) (r : Reading) : Reading :=
  { r with found := r.found.mapError (Refusal.restyle style) }

theorem restyle_of_ok {r : Reading} {c : Construct} (h : r.found = .ok c) :
    r.restyle style = r := by
  rw [restyle, h]
  obtain ⟨found, before, size, width⟩ := r
  cases h
  rfl

theorem starts_restyleBreaks (h : Starts s) : Starts (restyleBreaks style s) := by
  rcases s with _ | ⟨b, s⟩
  · exact h
  · rw [restyleBreaks_cons (ne_feed_of_isBreak (isBreak_of_isGap (h b rfl)))]
    exact h

theorem quoted_restyleBreaks {q : Quote} {refusal : Refusal}
    (h : (quoted q s).found = .error refusal) :
    quoted q (restyleBreaks style s) = (quoted q s).restyle style := by
  rw [quoted] at h
  rw [quoted, quoted, Quoted.read_restyleBreaks]
  rcases hread : Quoted.read q s with size | ⟨fault, extent, settled⟩
  · rw [hread] at h
    cases h
  · rfl

/-- A construct is read alike in all styles of line breaks, but for the byte that is blamed for a
malformed scalar. -/
theorem of_restyleBreaks (inFlow : Bool) (h : Starts s) :
    of inFlow (restyleBreaks style s) = (of inFlow s).restyle style := by
  rcases hfound : (of inFlow s).found with refusal | c
  · obtain ⟨-, ⟨-, -, -, q, hq⟩ | ⟨u, -, b, hb, role⟩⟩ := (reads_of inFlow s).of_refused hfound
    · obtain ⟨s, rfl⟩ := List.head?_eq_some_iff.mp hq
      have hbyte := ne_feed_of_isBreak (Quoted.isBreak_of_isStop (Quoted.isStop_byte q))
      rw [of_quote] at hfound
      rw [restyleBreaks_cons hbyte, of_quote, of_quote, quoted_restyleBreaks hfound]
    · obtain ⟨s, rfl⟩ := List.head?_eq_some_iff.mp hb
      rw [restyleBreaks_cons (ne_feed_of_isBreak (isBreak_of_isGap (h b rfl))), of, of, role]
      rfl
  · rw [restyle_of_ok hfound]
    rcases of_congr_firstLine inFlow (starts_restyleBreaks h) h (firstLine_restyleBreaks style s)
      with hof | ⟨-, hrefused⟩
    · exact hof
    · rw [isRefused, hfound] at hrefused
      cases hrefused

theorem lexemeIn_restyleBreaks (inFlow : Bool) (h : Starts s) :
    ((of inFlow s).restyle style).lexemeIn (restyleBreaks style s) = (of inFlow s).lexemeIn s := by
  rcases hfound : (of inFlow s).found with refusal | c
  · have hsize : (of inFlow s).size = 0 := (reads_of inFlow s).size_of_refused hfound
    rw [lexemeIn, lexemeIn, restyle, hsize, List.take_zero, List.take_zero]
  · rw [restyle_of_ok hfound]
    exact (lexemeIn_congr h hfound (firstLine_restyleBreaks style s).symm).symm

end Reading

end YamlLexer
