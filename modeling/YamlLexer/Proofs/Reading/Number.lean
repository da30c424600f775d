import YamlLexer.Proofs.Cursor
import YamlLexer.Proofs.Reading.Forms

/-!
# Where numbers end

A number is announced by its first byte, or by the first two, and then takes what it can get. Its
kind is found in passing. `Number.Begins` lists the beginnings, and `Number.Delimited` says of the
input alone where the number ends and of what kind it is: it reaches as far as there are bytes that
can continue it, and it is decimal if one of the bytes on the way is a decimal mark. The first byte
counts for the kind, and is not asked whether it could continue a number.

Nothing more is asked of a number. A date is one, and so is a plus sign on its own.
-/

namespace YamlLexer

theorem Role.of_isDigit {b : Byte} (h : b.isDigit = true) : of b = .number := by
  unfold of
  split
  case h_20 => rw [if_pos h]
  all_goals cases h

theorem mem_iff_of_prefix_drop {source t : List Byte} {start : Nat} (h : t <+: source.drop start)
    {b : Byte} : b ∈ t ↔ ∃ i, start ≤ i ∧ i < start + t.length ∧ source[i]? = some b := by
  have hget {j : Nat} (hj : j < t.length) : source[start + j]? = t[j]? := by
    obtain ⟨rest, hrest⟩ := h
    rw [← List.getElem?_drop, ← hrest, List.getElem?_append_left hj]
  constructor
  · intro hmem
    obtain ⟨j, hj⟩ := List.mem_iff_getElem?.mp hmem
    obtain ⟨hlt, -⟩ := List.getElem?_eq_some_iff.mp hj
    exact ⟨start + j, Nat.le_add_right _ _, Nat.add_lt_add_left hlt _, (hget hlt).trans hj⟩
  · rintro ⟨i, hle, hlt, hb⟩
    obtain ⟨j, rfl⟩ := Nat.exists_eq_add_of_le hle
    rw [hget (Nat.lt_of_add_lt_add_left hlt)] at hb
    exact List.mem_of_getElem? hb

namespace Number

variable {b : Byte} {s : List Byte}

/-! ## Beginnings -/

/-- The bytes begin a number. -/
inductive Begins : List Byte → Prop
  | plus (s : List Byte) : Begins (0x2B :: s)
  | digit (b : Byte) (s : List Byte) (digit : b.isDigit = true) : Begins (b :: s)
  /-- A dash or a point, and a digit right behind it. -/
  | sign (b d : Byte) (s : List Byte) (sign : b = 0x2D ∨ b = 0x2E) (digit : d.isDigit = true) :
      Begins (b :: d :: s)

theorem isSpace_of_isDigit (h : b.isDigit = true) : b.isSpace = false := by
  obtain ⟨hlow, -⟩ : 0x30 ≤ b ∧ b ≤ 0x39 := by simpa [Byte.isDigit] using h
  exact decide_eq_false fun hle ↦ absurd (UInt8.le_trans hlow hle) (by decide)

theorem isMarker_of_isDigit {d : Byte} (hb : b = 0x2D ∨ b = 0x2E) (hd : d.isDigit = true) :
    Reading.isMarker b (b :: d :: s) = false := by
  rw [Bool.eq_false_iff]
  intro hmarker
  obtain ⟨rest, hbytes, -⟩ := Reading.isMarker_iff.mp hmarker
  obtain rfl : d = b := (List.cons_eq_cons.mp (List.cons_eq_cons.mp hbytes).2).1
  rcases hb with rfl | rfl
  · cases hd
  · cases hd

theorem Begins.of_eq (h : Begins s) (inFlow : Bool) : Reading.of inFlow s = Reading.number s := by
  cases h with
  | plus s => rfl
  | digit b s digit => rw [Reading.of, Role.of_isDigit digit]
  | sign b d s sign digit =>
    have hmarker := isMarker_of_isDigit (s := s) sign digit
    have hspace : atSpace (d :: s) = false := isSpace_of_isDigit digit
    have hdigit : Reading.atDigit (d :: s) = true := digit
    rcases sign with rfl | rfl
    · change Reading.dash inFlow (0x2D :: d :: s) = _
      rw [Reading.dash, List.drop_one, List.tail_cons, hspace, hmarker, hdigit]
      rfl
    · change Reading.point inFlow (0x2E :: d :: s) = _
      rw [Reading.point, List.drop_one, List.tail_cons, hmarker, hdigit]
      rfl

/-!
## Ends and kinds

The end of a number is the greatest of the offsets that it may go on to, which is what it means for
a reader to take what it can get (`isGreatest_lexeme`).
-/

/-- The point and the letters of an exponent. -/
def decimalMarks : List Byte := [0x2E, 0x65, 0x45]

/-- The bytes that continue a number are the digits, the underscore, the minus sign and the decimal
marks. -/
def Continues (b : Byte) : Prop := b.isDigit = true ∨ b = 0x5F ∨ b = 0x2D ∨ b ∈ decimalMarks

theorem mem_decimalMarks_iff : b ∈ decimalMarks ↔ b.isDecimalMark = true := by
  simp [decimalMarks, Byte.isDecimalMark, or_assoc]

theorem continues_iff : Continues b ↔ b.isNumberPart = true := by
  simp [Continues, mem_decimalMarks_iff, Byte.isNumberPart, or_assoc]

/-- A number that starts at one offset may go on up to the other. -/
structure Reaches (source : List Byte) (start stop : Nat) : Prop where
  lt : start < stop
  le : stop ≤ source.length
  part : ∀ i, start < i → i < stop → ∀ b ∈ source[i]?, Continues b

def Holds (source : List Byte) (start stop : Nat) (b : Byte) : Prop :=
  ∃ i, start ≤ i ∧ i < stop ∧ source[i]? = some b

/-- A number goes on as far as it may, and it is one or the other of two kinds. -/
structure Delimited (source : List Byte) (start stop : Nat) (kind : Token) : Prop where
  greatest : IsGreatest {e | Reaches source start e} stop
  decimal : kind = .decimal ↔ ∃ b ∈ decimalMarks, Holds source start stop b
  integer : kind = .integer ↔ ∀ b ∈ decimalMarks, ¬Holds source start stop b

theorem isPrefix_lexeme (s : List Byte) : lexeme s <+: s := by
  cases s with
  | nil => exact List.prefix_rfl
  | cons b s => exact List.cons_prefix_cons.mpr ⟨rfl, List.takeWhile_prefix _⟩

variable {source : List Byte} {start : Nat}

theorem length_lexeme_drop (h : start < source.length) : (lexeme (source.drop start)).length =
    ((source.drop (start + 1)).takeWhile Byte.isNumberPart).length + 1 := by
  rw [List.drop_eq_getElem_cons h, lexeme, List.length_cons]

/-- Where a byte comes that does not continue a number, the number has come to its end. -/
theorem isGreatest_lexeme (h : start < source.length) :
    IsGreatest {e | Reaches source start e} (start + (lexeme (source.drop start)).length) := by
  have hlexeme := length_lexeme_drop h
  have hstops (b : Byte) : ¬Continues b ↔ b.isNumberPart = false := by
    rw [continues_iff, Bool.not_eq_true]
  have hleast := isLeast_takeWhile hstops source (start + 1)
  have hstop : start + (lexeme (source.drop start)).length =
      start + 1 + ((source.drop (start + 1)).takeWhile Byte.isNumberPart).length := by omega
  have hlength := (isPrefix_lexeme (source.drop start)).length_le
  rw [List.length_drop] at hlength
  rw [← hstop] at hleast
  obtain ⟨⟨-, hends⟩, -⟩ := hleast
  constructor
  · refine ⟨by omega, by omega, fun i hlt hi b hb ↦ ?_⟩
    have hle : start + 1 ≤ i := hlt
    obtain ⟨j, rfl⟩ := Nat.exists_eq_add_of_le hle
    rw [← List.getElem?_drop] at hb
    exact continues_iff.mpr (of_lt_takeWhile (by omega) b hb)
  · intro e hreaches
    by_contra hlt
    rw [Nat.not_le] at hlt
    have hb := List.getElem?_eq_getElem (hlt.trans_le hreaches.le)
    exact hends _ hb (hreaches.part _ (by omega) hlt _ hb)

theorem delimited_number (h : start < source.length) :
    let s := source.drop start
    Delimited source start (start + (lexeme s).length) (kind (lexeme s)) := by
  intro s
  have hmem (b : Byte) : b ∈ lexeme s ↔ Holds source start (start + (lexeme s).length) b :=
    mem_iff_of_prefix_drop (isPrefix_lexeme s)
  refine ⟨isGreatest_lexeme h, ?_, ?_⟩
  · rw [kind_eq_decimal_iff]
    simp only [mem_decimalMarks_iff, ← hmem, and_comm]
  · rw [kind_eq_integer_iff]
    simp only [mem_decimalMarks_iff, ← hmem, ← Bool.not_eq_true]
    exact forall_congr' fun b ↦ imp_not_comm

end Number

end YamlLexer
