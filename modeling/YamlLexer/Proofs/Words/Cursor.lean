import Mathlib.Data.UInt
import YamlLexer.Proofs.Cursor
import YamlLexer.Proofs.Words.Lexeme

/-!
# Cursors in words

A machine has a cursor as a word and a piece of memory, and nothing keeps the one within the other.
`Words.Reader` is that, with the operations as a machine has them. An offset may be any word and an
amount any signed word, the least of which is further from zero than the greatest; so an amount is
split into its sign and its magnitude, and what a sum of words cannot hold is cut off at zero and at
the greatest word (`subSat`, `addSat`). The bounds of a slice are cut to the memory. Everything else
is plain arithmetic, which goes wrong if its result is no word, and the answer is then `none`.

If there are fewer than `2 ^ 63` bytes, none of this can be told from a cursor that counts without
bounds. Every move goes right and leaves the words of the cursor that is meant (`moves?_words`), and
there the reader answers to every request, with any words, what the cursor does (`Cursor.InWords`).
-/

namespace YamlLexer

namespace Words

/-! ## Arithmetic -/

/-- A sum of words, or the greatest word. -/
def addSat (a b : UInt64) : UInt64 := if a + b < a then 0xFFFFFFFFFFFFFFFF else a + b

/-- A difference of words, or zero. -/
def subSat (a b : UInt64) : UInt64 := if a < b then 0 else a - b

/-- How far a signed word is from zero. -/
def magnitude (amount : Int64) : UInt64 :=
  if amount < 0 then 0 - amount.toUInt64 else amount.toUInt64

/-- A sum of words, if that is a word. -/
def plus? (a b : UInt64) : Option UInt64 := (add? a.toNat b.toNat).map .ofNat

/-- A difference of words, if that is a word. -/
def minus? (a b : UInt64) : Option UInt64 := (sub? a.toNat b.toNat).map .ofNat

theorem toNat_addSat (a b : UInt64) :
    (addSat a b).toNat = min (a.toNat + b.toNat) (2 ^ 64 - 1) := by
  have ha := a.toNat_lt
  have hb := b.toNat_lt
  have hsum := UInt64.toNat_add a b
  rw [addSat]
  split
  · rename_i hcarry
    rw [UInt64.lt_iff_toNat_lt] at hcarry
    change 2 ^ 64 - 1 = _
    omega
  · rename_i hcarry
    rw [UInt64.lt_iff_toNat_lt] at hcarry
    omega

theorem toNat_subSat (a b : UInt64) : (subSat a b).toNat = a.toNat - b.toNat := by
  rw [subSat]
  split
  · rename_i hlt
    rw [UInt64.lt_iff_toNat_lt] at hlt
    exact (Nat.sub_eq_zero_of_le (Nat.le_of_lt hlt)).symm
  · rename_i hle
    exact UInt64.toNat_sub_of_le a b (UInt64.not_lt.mp hle)

/-- In two's complement, a negative word stands for what is missing to `2 ^ 64`. -/
theorem toNat_magnitude (amount : Int64) :
    (magnitude amount).toNat = amount.toInt.natAbs := by
  have hbits : amount.toInt = _ := amount.toBitVec.toInt_eq_toNat_cond
  have hword : amount.toBitVec.toNat = amount.toUInt64.toNat := rfl
  have hlt := amount.toUInt64.toNat_lt
  rw [hword] at hbits
  rw [magnitude]
  split
  · rename_i hneg
    rw [Int64.lt_iff_toInt_lt, Int64.toInt_zero] at hneg
    have hzero : (0 : UInt64).toNat = 0 := rfl
    rw [UInt64.toNat_sub, hzero]
    omega
  · rename_i hpos
    rw [Int64.lt_iff_toInt_lt, Int64.toInt_zero] at hpos
    omega

theorem plus?_eq {a b : UInt64} (h : a.toNat + b.toNat < 2 ^ 64) :
    plus? a b = some (.ofNat (a.toNat + b.toNat)) := by
  rw [plus?, add?_eq h, Option.map_some]

theorem minus?_eq {a b : UInt64} (h : b.toNat ≤ a.toNat) :
    minus? a b = some (.ofNat (a.toNat - b.toNat)) := by
  rw [minus?, sub?_eq h, Option.map_some]

/-! ## Readers -/

/-- A cursor in memory. Its offset may be anything. -/
structure Reader where
  source : List Byte
  offset : UInt64
deriving DecidableEq, Repr

namespace Reader

def ofBytes (bytes : List Byte) : Reader := ⟨bytes, 0⟩

def size (r : Reader) : UInt64 := .ofNat r.source.length

def moveTo (r : Reader) (offset : UInt64) : Reader := ⟨r.source, min offset r.size⟩

def skip (r : Reader) (amount : Int64) : Reader :=
  if amount < 0 then r.moveTo (subSat r.offset (magnitude amount))
  else r.moveTo (addSat r.offset (magnitude amount))

def peekAt? (r : Reader) (offset : UInt64) : Option Byte := r.source[offset.toNat]?

def read? (r : Reader) : Option (Option Byte × Reader) :=
  match r.peekAt? r.offset with
  | none => some (none, r)
  | some b => do return (some b, ⟨r.source, ← plus? r.offset 1⟩)

def remaining? (r : Reader) : Option UInt64 := minus? r.size r.offset

/-- The bytes from one offset up to another, both cut to what there is. -/
def slice? (r : Reader) (start stop : UInt64) : Option (List Byte) :=
  let stop := min stop r.size
  Words.slice? r.source (min start stop).toNat stop.toNat

def rest? (r : Reader) : Option (List Byte) := do
  r.slice? r.offset (← plus? r.offset (← r.remaining?))

/-- Moves past blanks, and tells how many there were. That number is moved by as a signed word. -/
def skipBlanks? (r : Reader) : Option (UInt64 × Reader) := do
  let blanks := UInt64.ofNat ((← r.rest?).takeWhile Byte.isBlank).length
  return (blanks, r.skip blanks.toInt64)

def lineEnd? (r : Reader) : Option UInt64 := do
  plus? r.offset (.ofNat ((← r.rest?).findIdx Byte.isBreak))

def move? (r : Reader) : Cursor.Move → Option Reader
  | .moveTo offset => some (r.moveTo offset)
  | .skip amount => some (r.skip amount)
  | .read => r.read?.map Prod.snd
  | .skipBlanks => r.skipBlanks?.map Prod.snd

def moves? (r : Reader) (ms : List Cursor.Move) : Option Reader := ms.foldlM move? r

end Reader

end Words

open Words

namespace Cursor

/-- A cursor, in memory. -/
def words (c : Cursor) : Reader := ⟨c.source, .ofNat c.offset⟩

/-- What a cursor does, its words do, and they never go wrong. -/
structure InWords (c : Cursor) : Prop where
  offset : c.words.offset.toNat = c.offset
  remaining : c.words.remaining?.map UInt64.toNat = some c.remaining
  moveTo (offset : UInt64) : c.words.moveTo offset = (c.moveTo offset.toNat).words
  skip (amount : Int64) : c.words.skip amount = (c.skip amount.toInt).words
  peekAt (offset : UInt64) : c.words.peekAt? offset = c.peekAt? offset.toNat
  read : c.words.read? = some (c.read?.1, c.read?.2.words)
  skipBlanks : c.words.skipBlanks?.map (Prod.map UInt64.toNat id) =
    some (c.skipBlanks.1, c.skipBlanks.2.words)
  lineEnd : c.words.lineEnd?.map UInt64.toNat = some c.lineEnd
  slice (start stop : UInt64) :
    c.words.slice? start stop = some (c.slice ⟨start.toNat, stop.toNat⟩)
  rest : c.words.rest? = some c.rest

variable {c : Cursor} {r : Reader}

theorem eq_words (source : r.source = c.source) (offset : r.offset.toNat = c.offset) :
    r = c.words := by
  rw [words, ← source, ← offset, UInt64.ofNat_toNat]

theorem lineEnd_le (c : Cursor) : c.lineEnd ≤ c.source.length :=
  length_takeWhile_le_of_drop (!·.isBreak) c.offset_le

section

variable (short : c.source.length < 2 ^ 63)

include short

theorem toNat_ofNat_of_le {n : Nat} (hle : n ≤ c.source.length) : (UInt64.ofNat n).toNat = n :=
  UInt64.toNat_ofNat_of_lt' (hle.trans_lt (short.trans (by decide)))

theorem toNat_offset_words : c.words.offset.toNat = c.offset :=
  toNat_ofNat_of_le short c.offset_le

theorem toNat_size_words : c.words.size.toNat = c.source.length :=
  toNat_ofNat_of_le short (Nat.le_refl _)

theorem toNat_remaining : (UInt64.ofNat c.remaining).toNat = c.remaining :=
  toNat_ofNat_of_le short (Nat.sub_le _ _)

theorem toNat_length_takeWhile (p : Byte → Bool) :
    (UInt64.ofNat (c.rest.takeWhile p).length).toNat = (c.rest.takeWhile p).length :=
  toNat_ofNat_of_le short (by
    have hlength := length_takeWhile_le_of_drop p c.offset_le
    rw [← rest] at hlength
    omega)

theorem toNat_offset_moveTo (offset : UInt64) :
    (c.words.moveTo offset).offset.toNat = min offset.toNat c.source.length := by
  rw [Reader.moveTo, UInt64.toNat_min, toNat_size_words short]

theorem moveTo_words (offset : UInt64) :
    c.words.moveTo offset = (c.moveTo offset.toNat).words :=
  eq_words rfl (toNat_offset_moveTo short offset)

/-- What does not fit a word is out of the source in any case. -/
theorem skip_words (amount : Int64) : c.words.skip amount = (c.skip amount.toInt).words := by
  have hoffset := c.offset_skip amount.toInt
  rw [Reader.skip]
  split
  · rename_i hneg
    rw [Int64.lt_iff_toInt_lt, Int64.toInt_zero] at hneg
    refine eq_words rfl ?_
    rw [toNat_offset_moveTo short, toNat_subSat, toNat_magnitude, toNat_offset_words short]
    omega
  · rename_i hpos
    rw [Int64.lt_iff_toInt_lt, Int64.toInt_zero] at hpos
    refine eq_words rfl ?_
    rw [toNat_offset_moveTo short, toNat_addSat, toNat_magnitude, toNat_offset_words short]
    omega

theorem peek?_words : c.words.peekAt? c.words.offset = c.peek? := by
  rw [Reader.peekAt?, toNat_offset_words short]
  rfl

/-- The offset behind a byte is a word, and behind the last one it is the end. -/
theorem read?_words : c.words.read? = some (c.read?.1, c.read?.2.words) := by
  rw [Reader.read?, peek?_words short]
  rcases hpeek : c.peek? with _ | b
  · have hend : c.source.length ≤ c.offset := List.getElem?_eq_none_iff.mp hpeek
    have hwords : c.words = (c.advance 1).words := by
      refine eq_words rfl ?_
      rw [toNat_offset_words short, advance, offset_moveTo]
      have hoffset := c.offset_le
      omega
    rw [read?, hpeek, ← hwords]
  · have hlt : c.offset < c.source.length := (List.getElem?_eq_some_iff.mp hpeek).1
    have hone : (1 : UInt64).toNat = 1 := rfl
    have hplus : plus? c.words.offset 1 = some (.ofNat (c.offset + 1)) := by
      rw [plus?_eq (by rw [toNat_offset_words short, hone]; omega), toNat_offset_words short, hone]
    have hwords : (c.advance 1).words = ⟨c.source, .ofNat (c.offset + 1)⟩ := by
      rw [words, advance, offset_moveTo, Nat.min_eq_left hlt]
      rfl
    dsimp only
    rw [bind_eq hplus, read?, hpeek, hwords]
    rfl

theorem remaining?_words : c.words.remaining? = some (.ofNat c.remaining) := by
  have hoffset := c.offset_le
  rw [Reader.remaining?, minus?_eq (by rwa [toNat_size_words short, toNat_offset_words short]),
    toNat_size_words short, toNat_offset_words short, remaining]

/-- Bounds that are cut, and bounds that are not, are those of the same bytes. -/
theorem slice?_words (start stop : UInt64) :
    c.words.slice? start stop = some (c.slice ⟨start.toNat, stop.toNat⟩) := by
  have hstop : (min stop c.words.size).toNat = min stop.toNat c.source.length := by
    rw [UInt64.toNat_min, toNat_size_words short]
  rw [Reader.slice?, UInt64.toNat_min, hstop]
  have hwords : c.words.source = c.source := rfl
  rw [hwords, slice?_eq (Nat.min_le_right _ _) (Nat.min_le_right _ _)]
  refine congrArg some (List.ext_getElem? fun i ↦ ?_)
  rw [List.getElem?_drop, List.getElem?_take, getElem?_slice]
  by_cases hin : start.toNat + i < min stop.toNat c.source.length
  · rw [if_pos (by omega), if_pos (by omega), Nat.min_eq_left (by omega)]
  · rw [if_neg (by omega)]
    split
    · exact (List.getElem?_eq_none (by omega)).symm
    · rfl

theorem rest?_words : c.words.rest? = some c.rest := by
  have hoffset := toNat_offset_words short
  have hsum := c.offset_add_remaining
  have hremaining := toNat_remaining short
  have hplus : plus? c.words.offset (.ofNat c.remaining) =
      some (.ofNat (c.offset + c.remaining)) := by
    rw [plus?_eq (by omega), hoffset, hremaining]
  have hstop : (UInt64.ofNat (c.offset + c.remaining)).toNat = c.offset + c.remaining :=
    toNat_ofNat_of_le short hsum.le
  rw [Reader.rest?, bind_eq (remaining?_words short), bind_eq hplus, slice?_words short, hoffset,
    hstop, ← rest_eq_slice]

theorem skipBlanks?_words :
    c.words.skipBlanks? = some (.ofNat c.skipBlanks.1, c.skipBlanks.2.words) := by
  have hlength : c.offset + c.skipBlanks.1 ≤ c.source.length :=
    length_takeWhile_le_of_drop Byte.isBlank c.offset_le
  have hamount : (UInt64.ofNat c.skipBlanks.1).toInt64.toInt = c.skipBlanks.1 := by
    rw [UInt64.toInt64_ofNat']
    exact Int64.toInt_ofNat_of_lt (by omega)
  rw [Reader.skipBlanks?, bind_eq (rest?_words short)]
  change some (UInt64.ofNat c.skipBlanks.1, c.words.skip (UInt64.ofNat c.skipBlanks.1).toInt64) = _
  rw [skip_words short, hamount]
  rfl

theorem lineEnd?_words : c.words.lineEnd? = some (.ofNat c.lineEnd) := by
  have hlength := c.lineEnd_le
  have hindex := toNat_length_takeWhile short (!·.isBreak)
  have hoffset := toNat_offset_words short
  rw [lineEnd] at hlength
  rw [Reader.lineEnd?, bind_eq (rest?_words short), findIdx_eq_length_takeWhile,
    plus?_eq (by omega), hoffset, hindex]
  rfl

theorem inWords : c.InWords where
  offset := toNat_offset_words short
  remaining := by
    rw [remaining?_words short, Option.map_some, toNat_remaining short]
  moveTo := moveTo_words short
  skip := skip_words short
  peekAt _ := rfl
  read := read?_words short
  skipBlanks := by
    rw [skipBlanks?_words short, Option.map_some, Prod.map_apply,
      skipBlanks, toNat_length_takeWhile short]
    rfl
  lineEnd := by
    rw [lineEnd?_words short, Option.map_some, toNat_ofNat_of_le short c.lineEnd_le]
  slice := slice?_words short
  rest := rest?_words short

/-! ## Sequences of moves -/

theorem move?_words (m : Move) : c.words.move? m = some (c.move m).words := by
  cases m with
  | moveTo offset => exact congrArg some (moveTo_words short offset)
  | skip amount => exact congrArg some (skip_words short amount)
  | read => rw [Reader.move?, read?_words short, Option.map_some, move]
  | skipBlanks => rw [Reader.move?, skipBlanks?_words short, Option.map_some, move]

end

/-- A move does not change how many bytes there are, so the next one goes right as well. -/
theorem moves?_words (short : c.source.length < 2 ^ 63) (ms : List Move) :
    c.words.moves? ms = some (c.moves ms).words := by
  induction ms generalizing c with
  | nil => rfl
  | cons m ms ih =>
    have hshort : (c.move m).source.length < 2 ^ 63 := by rwa [source_move]
    rw [Reader.moves?, List.foldlM_cons, bind_eq (move?_words short m)]
    exact ih hshort

/-- In fewer than `2 ^ 63` bytes no sequence of moves can go wrong, whatever its offsets and amounts
are. The cursor then keeps to the contract, and its words stand for it. -/
theorem contract_moves (bytes : List Byte) (short : bytes.length < 2 ^ 63) (ms : List Move) :
    let c := (ofBytes bytes).moves ms
    c.Contract bytes ∧ (Reader.ofBytes bytes).moves? ms = some c.words ∧ c.InWords := by
  intro c
  have hsource : c.source = bytes := source_moves _ ms
  refine ⟨?_, moves?_words (c := ofBytes bytes) short ms, inWords (by rwa [hsource])⟩
  rw [← hsource]
  exact c.contract

/-- The least amount goes back to the start, and the greatest offset is the end. Sums that are no
words are in between. -/
theorem contract_moves_limits :
    let bytes : List Byte := [0x20, 0x61, 0x09, 0x0A]
    let ms : List Move := [.moveTo 0xFFFFFFFFFFFFFFFF, .read, .skip 0x7FFFFFFFFFFFFFFF,
      .skip (-0x8000000000000000), .skipBlanks, .read]
    let c := (ofBytes bytes).moves ms
    bytes.length < 2 ^ 63 ∧ c.offset = 2 ∧ c.Contract bytes ∧
      (Reader.ofBytes bytes).moves? ms = some ⟨bytes, 2⟩ ∧ c.InWords ∧
        c.words.skip (-0x8000000000000000) = ⟨bytes, 0⟩ := by
  intro bytes ms c
  have hshort : bytes.length < 2 ^ 63 := by decide
  have hplace : c.words = ⟨bytes, 2⟩ := by decide
  have hstart : (c.skip (Int64.toInt (-0x8000000000000000))).words = ⟨bytes, 0⟩ := by decide
  obtain ⟨hcontract, hmoves, hwords⟩ := contract_moves bytes hshort ms
  exact ⟨hshort, by decide, hcontract, hmoves.trans (congrArg some hplace), hwords,
    (hwords.skip _).trans hstart⟩

end Cursor

end YamlLexer
