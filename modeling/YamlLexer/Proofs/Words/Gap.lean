import YamlLexer.Proofs.Gap
import YamlLexer.Proofs.Lines
import YamlLexer.Proofs.Words.Arithmetic

/-!
# Gaps, passed by index

A machine passes white space in one loop, in which it counts lines, and commas in another one around
it. Together they pass a gap (`gap?_eq`). The counter of lines has half the bits of an offset, so it
is the one number here that could be too small for its input. That it is not follows from
`Bounded`: every line starts behind a byte that ended the one before it, so there are no more lines
than bytes.

The only differences that are taken are columns, one behind each stretch of white space. The start
of the line is never behind the offset that it is taken from.
-/

namespace YamlLexer.Words

/-- A place that its line does not start behind, in an input. There were as many bytes as lines in
front of the line. -/
structure Bounded (source : List Byte) (p : Place) : Prop where
  line : p.line ≤ p.lineStart
  lineStart : p.lineStart ≤ p.offset
  offset : p.offset ≤ source.length

/-- The line behind a line break, given the offset behind it. The first half of a double break does
not count. -/
def breakLine? (source : List Byte) (b : Byte) (line offset : Nat) : Option Nat :=
  if b == 0x0A || source[offset]? != some 0x0A then nextLine? line else some line

/-- Moves past a byte of white space. -/
def pass? (source : List Byte) (p : Place) (b : Byte) : Option Place := do
  let offset ← skip? source p.offset 1
  if b.isBreak then return ⟨offset, ← breakLine? source b p.line offset, offset⟩
  else return { p with offset }

def spaces? (source : List Byte) : Nat → Place → Option Place
  | 0, _ => none
  | fuel + 1, p =>
    match source[p.offset]? with
    | none => some p
    | some b => if b.isSpace then do spaces? source fuel (← pass? source p b) else some p

/-- Moves past white space and commas. The column is computed behind each stretch of white space. -/
def gap? (source : List Byte) : Nat → Place → Option Place
  | 0, _ => none
  | fuel + 1, p => do
    let p ← spaces? source (source.length + 1) p
    let _ ← sub? p.offset p.lineStart
    if source[p.offset]? = some Byte.comma then
      gap? source fuel { p with offset := ← add? p.offset 1 }
    else return p

variable {source : List Byte} {p : Place} {b : Byte}

theorem Bounded.pass (h : Bounded source p) (hb : source[p.offset]? = some b) (s : List Byte) :
    Bounded source (p.pass b s) := by
  have hline := h.line
  have hlineStart := h.lineStart
  refine ⟨?_, Place.lineStart_pass_le hlineStart b s, succ_le_of_getElem? hb⟩
  change (if Place.endsLine b s then p.line + 1 else p.line) ≤
    if b.isBreak then p.offset + 1 else p.lineStart
  by_cases hbreak : b.isBreak = true
  · rw [if_pos hbreak]
    split
    · omega
    · omega
  · rw [Bool.not_eq_true] at hbreak
    rw [Place.endsLine_of_isBreak hbreak, hbreak]
    exact hline

theorem pass?_eq (h : Short source) (hp : Bounded source p) (hb : source[p.offset]? = some b) :
    pass? source p b = some (p.pass b (source.drop (p.offset + 1))) := by
  have hlt := succ_le_of_getElem? hb
  have hline : nextLine? p.line = some (p.line + 1) := by
    have hle := hp.line
    have hlineStart := hp.lineStart
    rw [Short] at h
    exact if_pos (by omega)
  rw [pass?, bind_eq (h.skip?_eq hlt), Place.pass]
  by_cases hbreak : b.isBreak = true
  · rw [if_pos hbreak, if_pos hbreak, breakLine?, hline, Place.endsLine, List.head?_drop]
    obtain rfl | rfl := isBreak_cases hbreak
    · rfl
    · by_cases hfeed : source[p.offset + 1]? = some 0x0A
      · simp [hfeed]
      · simp [hfeed]
  · rw [Bool.not_eq_true] at hbreak
    rw [Place.endsLine_of_isBreak hbreak, hbreak]
    rfl

/-- White space is passed as a part of the gap. What comes behind it is not more of it. -/
theorem exists_spaces?_eq (h : Short source) (fuel : Nat) (hp : Bounded source p)
    (hfuel : source.length < p.offset + fuel) :
    ∃ p', spaces? source fuel p = some p' ∧ Bounded source p' ∧ p.offset ≤ p'.offset ∧
      p'.skipGap (source.drop p'.offset) = p.skipGap (source.drop p.offset) ∧
      ∀ b, source[p'.offset]? = some b → b.isSpace = false := by
  -- Each turn takes a byte, so there are always more turns left than bytes.
  induction fuel generalizing p with
  | zero =>
    have hle := hp.offset
    omega
  | succ fuel ih =>
    rw [spaces?]
    rcases hb : source[p.offset]? with _ | b
    · refine ⟨p, rfl, hp, Nat.le_refl _, rfl, ?_⟩
      intro b hb'
      cases hb.symm.trans hb'
    · by_cases hspace : b.isSpace = true
      · have hgap : b.isGap = true := by rw [Byte.isGap, hspace, Bool.true_or]
        obtain ⟨p', hp', hbounded, hle, hskip, hend⟩ :=
          ih (hp.pass hb (source.drop (p.offset + 1))) (by rw [Place.offset_pass]; omega)
        dsimp only
        rw [if_pos hspace, bind_eq (pass?_eq h hp hb)]
        refine ⟨p', hp', hbounded, Nat.le_of_succ_le hle, ?_, hend⟩
        rw [hskip, drop_eq_cons_of_getElem? hb, Place.skipGap, if_pos hgap]
        rfl
      · dsimp only
        rw [if_neg hspace]
        refine ⟨p, rfl, hp, Nat.le_refl _, rfl, ?_⟩
        intro c hc
        obtain rfl := Option.some_inj.mp (hb.symm.trans hc)
        simpa using hspace

theorem gap?_eq (h : Short source) {fuel : Nat} (hp : Bounded source p)
    (hfuel : source.length < p.offset + fuel) :
    gap? source fuel p = some (p.skipGap (source.drop p.offset)) ∧
      Bounded source (p.skipGap (source.drop p.offset)) := by
  induction fuel generalizing p with
  | zero =>
    have hle := hp.offset
    omega
  | succ fuel ih =>
    obtain ⟨p', hspaces, hbounded, hle, hskip, hend⟩ := exists_spaces?_eq h
      (source.length + 1) hp (by omega)
    rw [gap?, bind_eq hspaces, bind_eq (sub?_eq hbounded.lineStart), ← hskip]
    rcases hb : source[p'.offset]? with _ | b
    · rw [drop_eq_nil_of_getElem? hb, if_neg (by simp)]
      exact ⟨rfl, hbounded⟩
    · rw [drop_eq_cons_of_getElem? hb, Place.skipGap, Byte.isGap, hend b hb]
      by_cases hcomma : b = Byte.comma
      · subst hcomma
        have hpass : { p' with offset := p'.offset + 1 } =
            p'.pass Byte.comma (source.drop (p'.offset + 1)) := rfl
        rw [if_pos rfl, bind_eq (h.add?_eq hbounded.offset (by omega)), hpass]
        exact ih (hbounded.pass hb _) (by rw [Place.offset_pass]; omega)
      · rw [if_neg (by simpa using hcomma), if_neg (by simpa using hcomma)]
        exact ⟨rfl, hbounded⟩

end YamlLexer.Words
