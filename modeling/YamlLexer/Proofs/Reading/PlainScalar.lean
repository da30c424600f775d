import Mathlib.Data.List.TakeWhile
import YamlLexer.Proofs.Reading.Forms

/-!
# Where plain scalars end

A plain scalar is read a byte at a time, and what is left of it is trimmed. Here both are said about
offsets of the input instead. `Plain.EndsAt` is what no plain scalar can go past, and
`Plain.Delimited` are the two offsets that follow from it: the first one at which it ends, and the
one to which it then reaches, which is behind the last byte that is no blank. The lexeme of a plain
scalar lies between them, whatever stands in it (`delimited_plain`).

A plain scalar has no byte of its own to start with. `Plain.Begins` lists the bytes that something
else starts with, and what has to stand behind a dash or a point for them to be content.
-/

namespace YamlLexer

theorem getLast?_trimEnd {p : Byte → Bool} {s : List Byte} :
    ∀ b ∈ (trimEnd p s).getLast?, p b = false := by
  intro b hb
  rw [trimEnd, List.getLast?_reverse] at hb
  simpa [Option.mem_def.mp hb] using List.head?_dropWhile_not p s.reverse

namespace Plain

variable {inFlow : Bool} {b : Byte} {s source : List Byte} {i n : Nat}

/-! ## Beginnings -/

/-- The bytes at the start of a construct with which something else than a plain scalar begins, or
may begin. -/
def announcers : List Byte :=
  [0x23, 0x22, 0x27, 0x3F, 0x2D, 0x2E, 0x26, 0x2A, 0x21, 0x7C, 0x3E, 0x25, 0x40, 0x60, 0x7B, 0x5B,
    0x7D, 0x5D, 0x2B]

/-- The bytes begin a plain scalar. They are known not to start with a gap. -/
inductive Begins : List Byte → Prop
  | other (b : Byte) (s : List Byte) (announcer : b ∉ announcers) (digit : b.isDigit = false) :
      Begins (b :: s)
  /-- A dash that makes no entry, no marker of a document start, and no negative number. -/
  | dash (s : List Byte) (entry : atSpace s = false)
      (marker : Reading.isMarker 0x2D (0x2D :: s) = false) (number : Reading.atDigit s = false) :
      Begins (0x2D :: s)
  /-- A point that makes no marker of a document end, and no number. -/
  | point (s : List Byte) (marker : Reading.isMarker 0x2E (0x2E :: s) = false)
      (number : Reading.atDigit s = false) : Begins (0x2E :: s)

theorem role_eq_plain_iff : Role.of b = .plain ↔ b ∉ announcers ∧ b.isDigit = false := by
  constructor
  · intro h
    have hannounced : ∀ b ∈ announcers, Role.of b ≠ .plain := by decide +kernel
    refine ⟨fun hmem ↦ hannounced b hmem h, ?_⟩
    unfold Role.of at h
    split at h
    case h_20 => simpa using h
    all_goals cases h
  · rintro ⟨hannouncer, hdigit⟩
    unfold Role.of
    split
    case h_20 => rw [hdigit, if_neg Bool.false_ne_true]
    all_goals exact absurd (by decide) hannouncer

theorem Begins.of_eq (h : Begins s) (inFlow : Bool) :
    Reading.of inFlow s = Reading.plain inFlow s := by
  cases h with
  | other b s announcer digit => rw [Reading.of, role_eq_plain_iff.mpr ⟨announcer, digit⟩]
  | dash s entry marker number =>
    change Reading.dash inFlow (0x2D :: s) = _
    rw [Reading.dash, List.drop_one, List.tail_cons, entry, marker, number]
    rfl
  | point s marker number =>
    change Reading.point inFlow (0x2E :: s) = _
    rw [Reading.point, List.drop_one, List.tail_cons, marker, number]
    rfl

/-! ## Ends -/

/-- The bytes that end a plain scalar wherever it stands: brackets, the comment sign, and line
breaks. -/
def terminators : List Byte := [0x5B, 0x5D, 0x7B, 0x7D, 0x23, 0x0A, 0x0D]

theorem mem_terminators_iff : b ∈ terminators ↔ b.endsPlain = true := by
  simp [terminators, Byte.endsPlain, Byte.isBracket, Byte.isBreak, or_assoc]

/-- A plain scalar does not go past the offset. -/
inductive EndsAt (inFlow : Bool) (source : List Byte) (i : Nat) : Prop
  /-- The input ends there. -/
  | finish (byte : source[i]? = none)
  | terminator (b : Byte) (byte : source[i]? = some b) (mem : b ∈ terminators)
  /-- A colon, and behind it white space or the end of the input. -/
  | colon (byte : source[i]? = some Byte.colon) (space : ∀ d ∈ source[i + 1]?, d.isSpace = true)
  /-- A comma inside a flow collection. -/
  | comma (byte : source[i]? = some Byte.comma) (flow : inFlow = true)

theorem atSpace_iff : atSpace s = true ↔ ∀ d ∈ s.head?, d.isSpace = true := by
  rcases s with _ | ⟨d, s⟩ <;> simp [atSpace]

theorem endsAt_iff : EndsAt inFlow source i ↔ stopsAt inFlow (source.drop i) = true := by
  have hbyte : source[i]? = (source.drop i).head? := List.head?_drop.symm
  have hnext : source[i + 1]? = (source.drop i).tail.head? := by
    rw [List.tail_drop, List.head?_drop]
  rcases hdrop : source.drop i with _ | ⟨b, s⟩
  · rw [hdrop] at hbyte
    exact iff_of_true (.finish hbyte) rfl
  · rw [hdrop] at hbyte hnext
    rw [stopsAt]
    constructor
    · rintro (hfinish | ⟨d, hd, hmem⟩ | ⟨hcolon, hspace⟩ | ⟨hcomma, hflow⟩)
      · cases hbyte.symm.trans hfinish
      · -- Neither a colon nor a comma is a terminator.
        obtain rfl : b = d := Option.some.inj (hbyte.symm.trans hd)
        rw [if_neg (by rintro rfl; revert hmem; decide),
          if_neg (by rintro rfl; revert hmem; decide)]
        exact mem_terminators_iff.mp hmem
      · obtain rfl : b = Byte.colon := Option.some.inj (hbyte.symm.trans hcolon)
        rw [hnext] at hspace
        rw [if_pos rfl]
        exact atSpace_iff.mpr hspace
      · obtain rfl : b = Byte.comma := Option.some.inj (hbyte.symm.trans hcomma)
        rw [if_neg (by decide), if_pos rfl]
        exact hflow
    · intro hstop
      split at hstop
      · subst b
        refine .colon hbyte ?_
        rw [hnext]
        exact atSpace_iff.mp hstop
      · split at hstop
        · subst b
          exact .comma hbyte hstop
        · exact .terminator b hbyte (mem_terminators_iff.mpr hstop)

/-!
## Delimitation

The first place that a plain scalar cannot go past is at the latest the end of the input, so there
always is one. Between that and the end of the lexeme there are blanks and nothing else.
-/

/-- A plain scalar that begins at an offset ends at the first one that it cannot go past, and
reaches to behind the last byte in between that is no blank. If there is no such byte, it is
empty. -/
structure Delimited (inFlow : Bool) (source : List Byte) (start close stop : Nat) : Prop where
  le : start ≤ close
  ends : EndsAt inFlow source close
  least : ∀ i, start ≤ i → i < close → ¬EndsAt inFlow source i
  start_le : start ≤ stop
  stop_le : stop ≤ close
  last : start < stop → ∃ b, source[stop - 1]? = some b ∧ b.isBlank = false
  blank : ∀ i, stop ≤ i → i < close → ∀ b ∈ source[i]?, b.isBlank = true

/-- A plain scalar takes the blanks behind its lexeme along. -/
theorem exists_blanks (inFlow : Bool) (s : List Byte) : ∃ blanks,
    (∀ b ∈ blanks, b.isBlank = true) ∧
      (extent inFlow s).length = (lexeme inFlow s).length + blanks.length ∧
      s = lexeme inFlow s ++ (blanks ++ s.drop (extent inFlow s).length) := by
  have htrim := trimEnd_append_takeWhile Byte.isBlank (extent inFlow s)
  refine ⟨((extent inFlow s).reverse.takeWhile Byte.isBlank).reverse, ?_, ?_, ?_⟩
  · intro b hb
    exact List.mem_takeWhile_imp (List.mem_reverse.mp hb)
  · rw [lexeme, ← List.length_append, htrim]
  · rw [lexeme, ← List.append_assoc, htrim, extent_append_drop]

theorem delimited_plain (inFlow : Bool) (source : List Byte) (start : Nat) :
    let s := source.drop start
    Delimited inFlow source start (start + (extent inFlow s).length)
      (start + (lexeme inFlow s).length) := by
  intro s
  obtain ⟨blanks, hblanks, hlength, hbytes⟩ := exists_blanks inFlow s
  have hget (j : Nat) : source[start + j]? =
      (lexeme inFlow s ++ (blanks ++ s.drop (extent inFlow s).length))[j]? := by
    rw [← hbytes, List.getElem?_drop]
  refine ⟨Nat.le_add_right _ _, ?_, ?_, Nat.le_add_right _ _, ?_, ?_, ?_⟩
  · rw [endsAt_iff, ← List.drop_drop]
    exact stopsAt_drop_extent
  · intro i hle hlt
    obtain ⟨j, rfl⟩ := Nat.exists_eq_add_of_le hle
    rw [endsAt_iff, ← List.drop_drop, stopsAt_of_lt_extent (Nat.lt_of_add_lt_add_left hlt)]
    exact Bool.false_ne_true
  · rw [hlength, ← Nat.add_assoc]
    exact Nat.le_add_right _ _
  · -- The lexeme has been trimmed, so the last of its bytes is no blank.
    intro hlt
    have hpos : 0 < (lexeme inFlow s).length := Nat.lt_add_right_iff_pos.mp hlt
    have hb := List.getLast?_eq_some_getLast (List.length_pos_iff.mp hpos)
    refine ⟨_, ?_, getLast?_trimEnd _ hb⟩
    rw [Nat.add_sub_assoc hpos, hget, List.getElem?_append_left (Nat.sub_one_lt_of_lt hpos),
      ← List.getLast?_eq_getElem?, hb]
  · -- Between the two offsets there are the blanks that have been trimmed.
    intro i hle hlt b hb
    obtain ⟨j, rfl⟩ := Nat.exists_eq_add_of_le hle
    have hj : j < blanks.length := by omega
    rw [Nat.add_assoc, hget, List.getElem?_append_right (Nat.le_add_right _ _),
      Nat.add_sub_cancel_left, List.getElem?_append_left hj] at hb
    exact hblanks b (List.mem_of_getElem? hb)

/-- The text of a plain scalar. -/
structure Content (inFlow : Bool) (source : List Byte) (start stop : Nat) : Prop where
  /-- It holds no line break, no bracket and no comment sign. -/
  bytes : ∀ i, start ≤ i → i < stop → ∀ b ∈ source[i]?,
    b.isBreak = false ∧ b.isBracket = false ∧ b ≠ 0x23
  /-- What follows a colon in it is no white space. -/
  colon : ∀ i, start ≤ i → i < stop → source[i]? = some Byte.colon →
    ∃ d, source[i + 1]? = some d ∧ d.isSpace = false
  /-- It holds no comma if a flow collection is open. -/
  comma : inFlow = true → ∀ i, start ≤ i → i < stop → source[i]? ≠ some Byte.comma
  /-- It neither begins nor ends with a blank. -/
  first : start < stop → ∀ b ∈ source[start]?, b.isBlank = false
  last : start < stop → ∀ b ∈ source[stop - 1]?, b.isBlank = false

/-- The text is between the offsets, and so it does not hold what would have ended it. -/
theorem Delimited.content {start close stop : Nat} (h : Delimited inFlow source start close stop)
    (first : ∀ b ∈ source[start]?, b.isBlank = false) : Content inFlow source start stop := by
  have hopen (i : Nat) (hle : start ≤ i) (hlt : i < stop) : ¬EndsAt inFlow source i :=
    h.least i hle (hlt.trans_le h.stop_le)
  refine ⟨?_, ?_, ?_, fun _ ↦ first, ?_⟩
  · intro i hle hlt b hb
    have hends : b.endsPlain = false := by
      rw [Bool.eq_false_iff]
      exact fun hends ↦ hopen i hle hlt (.terminator b hb (mem_terminators_iff.mpr hends))
    simpa [Byte.endsPlain, and_assoc, and_comm] using hends
  · intro i hle hlt hcolon
    by_contra hnone
    refine hopen i hle hlt (.colon hcolon fun d hd ↦ ?_)
    by_contra hspace
    exact hnone ⟨d, hd, Bool.eq_false_iff.mpr hspace⟩
  · intro hflow i hle hlt hcomma
    exact hopen i hle hlt (.comma hcomma hflow)
  · intro hlt b hb
    obtain ⟨d, hd, hblank⟩ := h.last hlt
    obtain rfl : d = b := Option.some.inj (hd.symm.trans hb)
    exact hblank

end Plain

end YamlLexer
