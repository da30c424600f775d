import Mathlib.Data.List.TakeWhile
import Mathlib.Data.Nat.Bitwise
import YamlLexer.Byte

/-!
# Bytes that are a text

A list of bytes is a text if it is the UTF-8 encoding of characters, and then it is decoded to them.
It can be cut in two wherever no character goes on, and it is enough for that if the byte behind the
cut is the first of a character (`IsText.cut`). An ASCII byte always is. So whatever stops at ASCII
bytes only, or takes nothing else, leaves two texts, although it sees nothing but bytes. `IsBoundary`
is such a place, and offsets of one text are counted on from offsets of another by it.

Decoding itself is that of the library, on byte arrays. It is opened once, by the two lemmas that
make it the inverse of encoding (`fromUTF8?_encode`, `eq_encode_of_fromUTF8?`), and from then on a
text is a list of characters. Behind a cut that is known to be one, the rest is a text if the whole
is one, and the other way round. No decoder is followed through its states for this: of the encoding
it is enough to know which bytes can be the first of a character.
-/

namespace YamlLexer

def encode (cs : List Char) : List Byte := cs.flatMap String.utf8EncodeChar

theorem encode_cons (c : Char) (cs : List Char) :
    encode (c :: cs) = String.utf8EncodeChar c ++ encode cs := rfl

theorem encode_append (cs ds : List Char) : encode (cs ++ ds) = encode cs ++ encode ds :=
  List.flatMap_append

theorem mem_encode {c : Char} {cs : List Char} (hc : c ∈ cs) {b : Byte}
    (hb : b ∈ String.utf8EncodeChar c) : b ∈ encode cs :=
  List.mem_flatMap.mpr ⟨c, hc, hb⟩

/-- Bytes that encode characters. -/
def IsText (s : List Byte) : Prop := ∃ cs, s = encode cs

variable {s t : List Byte}

/-! ## Decoding -/

theorem toByteArray_encode (cs : List Char) :
    (⟨(encode cs).toArray⟩ : ByteArray) = cs.utf8Encode := by
  refine ByteArray.ext (Array.toList_inj.mp ?_)
  rw [List.utf8Encode, List.toList_data_toByteArray, encode]

theorem fromUTF8?_encode (cs : List Char) :
    String.fromUTF8? ⟨(encode cs).toArray⟩ = some (String.ofList cs) := by
  rw [toByteArray_encode, String.fromUTF8?, dif_pos ByteArray.isValidUTF8_utf8Encode]
  rfl

theorem eq_encode_of_fromUTF8? {text : String} (h : String.fromUTF8? ⟨s.toArray⟩ = some text) :
    s = encode text.toList := by
  by_cases hvalid : ByteArray.IsValidUTF8 ⟨s.toArray⟩
  · obtain ⟨cs, hcs⟩ := hvalid
    rw [← toByteArray_encode] at hcs
    obtain rfl : s = encode cs := by simpa using hcs
    rw [fromUTF8?_encode] at h
    cases h
    rw [String.toList_ofList]
  · rw [String.fromUTF8?, dif_neg hvalid] at h
    cases h

/-!
## Cuts

A cut in the bytes falls between two characters, or inside one. In the latter case the byte behind
it continues a character, and cannot be the first byte of any.
-/

theorem isText_nil : IsText [] := ⟨[], rfl⟩

theorem IsText.append (hs : IsText s) (ht : IsText t) : IsText (s ++ t) := by
  obtain ⟨cs, rfl⟩ := hs
  obtain ⟨ds, rfl⟩ := ht
  exact ⟨cs ++ ds, (encode_append cs ds).symm⟩

theorem IsText.of_append (hs : IsText s) (h : IsText (s ++ t)) : IsText t := by
  obtain ⟨cs, rfl⟩ := hs
  obtain ⟨ds, h⟩ := h
  have hprefix : cs <+: ds := by
    refine List.isPrefix_of_utf8Encode_append_eq_utf8Encode t.toByteArray ?_
    have harray := congrArg List.toByteArray h
    rwa [List.toByteArray_append] at harray
  obtain ⟨es, rfl⟩ := hprefix
  rw [encode_append] at h
  exact ⟨es, List.append_cancel_left h⟩

/-- A cut in front of the first byte of a character, or at the end. -/
theorem IsText.cut (h : IsText (s ++ t)) (ht : ∀ b, t.head? = some b → b.IsUTF8FirstByte) :
    IsText s ∧ IsText t := by
  obtain ⟨cs, h⟩ := h
  induction cs generalizing s with
  | nil =>
    obtain ⟨rfl, rfl⟩ := List.append_eq_nil_iff.mp h
    exact ⟨isText_nil, isText_nil⟩
  | cons c cs ih =>
    -- The bytes of the first character are either all in front of the cut, or not.
    have hc : IsText (String.utf8EncodeChar c) := ⟨[c], (List.append_nil _).symm⟩
    rw [encode_cons] at h
    rcases List.append_eq_append_iff.mp h with ⟨u, hu, ht'⟩ | ⟨u, rfl, hu⟩
    · rcases s with _ | ⟨b, s⟩
      · exact ⟨isText_nil, c :: cs, by rw [encode_cons, ← h, List.nil_append]⟩
      · rcases u with _ | ⟨d, u⟩
        · rw [List.append_nil] at hu
          exact ⟨hu ▸ hc, cs, ht'⟩
        · -- A cut inside the character has a byte behind it that is not the first of any.
          have hlt : (b :: s).length < (String.utf8EncodeChar c).length := by simp [hu]
          have hfirst := ht d (by rw [ht', List.cons_append, List.head?_cons])
          obtain rfl : (String.utf8EncodeChar c)[(b :: s).length] = d := by simp [hu]
          exact absurd (UInt8.isUTF8FirstByte_getElem_utf8EncodeChar.mp hfirst) (by simp)
    · obtain ⟨hs, ht⟩ := ih hu.symm
      exact ⟨hc.append hs, ht⟩

/-- A place between two characters of a text, or at an end of it. -/
structure IsBoundary (s : List Byte) (i : Nat) : Prop where
  le : i ≤ s.length
  before : IsText (s.take i)
  behind : IsText (s.drop i)

namespace IsBoundary

variable {i j : Nat}

theorem zero (h : IsText s) : IsBoundary s 0 := ⟨Nat.zero_le _, isText_nil, h⟩

theorem of_append (hs : IsText s) (ht : IsText t) : IsBoundary (s ++ t) s.length := by
  refine ⟨by simp, ?_, ?_⟩
  · rwa [List.take_left]
  · rwa [List.drop_left]

theorem add (hi : IsBoundary s i) (hj : IsBoundary (s.drop i) j) : IsBoundary s (i + j) := by
  have hle := hj.le
  rw [List.length_drop] at hle
  refine ⟨by have := hi.le; omega, ?_, ?_⟩
  · rw [List.take_add]
    exact hi.before.append hj.before
  · rw [← List.drop_drop]
    exact hj.behind

/-- What is between two boundaries. -/
theorem slice (hi : IsBoundary s i) (hj : IsBoundary s j) : IsText ((s.take j).drop i) := by
  rcases Nat.le_total i j with hle | hle
  · have happend := List.take_append_drop i (s.take j)
    rw [List.take_take, Nat.min_eq_left hle] at happend
    refine hi.before.of_append ?_
    rw [happend]
    exact hj.before
  · rw [List.drop_eq_nil_of_le (by rw [List.length_take]; omega)]
    exact isText_nil

end IsBoundary

/-! ## ASCII -/

/-- Bytes that are a character of their own. -/
def Byte.isAscii (b : Byte) : Bool := b < 0x80

theorem isUTF8FirstByte_of_isAscii {b : Byte} (h : b.isAscii = true) : b.IsUTF8FirstByte := by
  have hlt : b.toNat < 2 ^ 7 := UInt8.lt_iff_toNat_lt.mp (of_decide_eq_true h)
  refine .inl (UInt8.toNat_inj.mp ?_)
  rw [UInt8.toNat_and]
  change b.toNat &&& 2 ^ 7 = 0
  rw [Nat.and_two_pow, Nat.testBit_lt_two_pow hlt]
  rfl

theorem isText_of_isAscii (h : ∀ b ∈ s, b.isAscii = true) : IsText s := by
  induction s with
  | nil => exact isText_nil
  | cons b s ih =>
    rw [List.forall_mem_cons] at h
    have hlt : b.toNat < 128 := UInt8.lt_iff_toNat_lt.mp (of_decide_eq_true h.1)
    have hval : (Char.ofUInt8 b).val.toNat = b.toNat := rfl
    have hb : [b] = encode [Char.ofUInt8 b] := by
      simp [encode, String.utf8EncodeChar, hval, show b.toNat ≤ 127 by omega]
    exact IsText.append (s := [b]) ⟨_, hb⟩ (ih h.2)

theorem IsText.cut_of_isAscii (h : IsText (s ++ t))
    (ht : ∀ b, t.head? = some b → b.isAscii = true) : IsText s ∧ IsText t :=
  h.cut fun b hb ↦ isUTF8FirstByte_of_isAscii (ht b hb)

variable {p : Byte → Bool}

/-- What stops at ASCII bytes only does not stop inside a character. -/
theorem IsText.takeWhile_dropWhile (h : IsText s) (hp : ∀ b, p b = false → b.isAscii = true) :
    IsText (s.takeWhile p) ∧ IsText (s.dropWhile p) := by
  rw [← List.takeWhile_append_dropWhile (p := p) (l := s)] at h
  refine h.cut_of_isAscii fun b hb ↦ hp b ?_
  have hhead := List.head?_dropWhile_not p s
  rwa [hb] at hhead

theorem IsText.dropWhile (h : IsText s) (hp : ∀ b, p b = true → b.isAscii = true) :
    IsText (s.dropWhile p) := by
  rw [← List.takeWhile_append_dropWhile (p := p) (l := s)] at h
  exact (isText_of_isAscii fun b hb ↦ hp b (List.mem_takeWhile_imp hb)).of_append h

theorem IsText.trimEnd (h : IsText s) (hp : ∀ b, p b = true → b.isAscii = true) :
    IsText (trimEnd p s) := by
  rw [← trimEnd_append_takeWhile p s] at h
  refine (h.cut_of_isAscii fun b hb ↦ hp b ?_).1
  have hmem := List.mem_reverse.mp (List.mem_of_mem_head? hb)
  exact List.mem_takeWhile_imp hmem

end YamlLexer
