import YamlLexer.Lexeme.KeyMark
import YamlLexer.Lexeme.Name
import YamlLexer.Lexeme.Number
import YamlLexer.Lexeme.Plain
import YamlLexer.Role

/-!
# Readings

The lexical half of the lexer. Given the bytes not read yet, the first of which is not part of a
gap, `Reading.of` says which construct stands next, where its lexeme is, and how many bytes it
takes. It knows nothing else: neither the columns nor the open structures, only whether a flow
collection is open, because a comma ends a plain scalar there.

A reading is an answer in numbers: how many bytes come before the lexeme, how many are its own, and
how many are taken in all. So it says nothing about where in the input the bytes are, and can be
compared with a reading of other bytes.
-/

namespace YamlLexer

/-- A construct as it stands in the input. -/
structure Reading where
  /-- The construct, if it is not refused. -/
  found : Except Refusal Construct
  /-- How many bytes come before the lexeme. -/
  before : Nat := 0
  /-- How many bytes the lexeme has. -/
  size : Nat := 0
  /-- How many bytes are taken, the lexeme and what comes before and behind it. -/
  width : Nat := 1

namespace Reading

/-- Three times the byte, then white space or the end of the input. -/
def isMarker (b : Byte) (s : List Byte) : Bool := s.take 3 == [b, b, b] && atSpace (s.drop 3)

def atDigit : List Byte → Bool
  | [] => false
  | b :: _ => b.isDigit

/-- A scalar with what stands behind it. The lexeme comes after `before` bytes of `s`, has `size`
bytes, and the scalar itself takes `extent` of them. -/
def scalar (kind : Token) (before size extent : Nat) (s : List Byte) : Reading :=
  let mark := KeyMark.read (s.drop extent)
  { found := .ok (.scalar kind mark.isKey)
    before := before
    size := size
    width := extent + mark.width }

def number (s : List Byte) : Reading :=
  let lexeme := Number.lexeme s
  scalar (Number.kind lexeme) 0 lexeme.length lexeme.length s

def plain (inFlow : Bool) (s : List Byte) : Reading :=
  scalar .text 0 (Plain.lexeme inFlow s).length (Plain.extent inFlow s).length s

/-- A quoted scalar whose opening quote is in front of `s`. If it is malformed, the bytes in order
so far are taken, and there is no lexeme. -/
def quoted (q : Quote) (s : List Byte) : Reading :=
  match Quoted.read q s with
  | .closed size => scalar .text 1 size (size + 2) (q.byte :: s)
  | .faulty fault extent settled =>
    { found := .error (.malformed fault (extent + 1)), width := settled + 1 }

/-- A comment whose sign is in front of `s`. -/
def comment (s : List Byte) : Reading :=
  { found := .ok (.single .comment)
    before := 1 + Comment.indent s
    size := (Comment.lexeme s).length
    width := 1 + Comment.indent s + (Comment.extent s).length }

/-- The name of an anchor, an alias or a tag, whose indicator is in front of `s`. -/
def name (token : Token) (s : List Byte) : Reading :=
  let lexeme := Name.lexeme s
  { found := .ok (.single token), before := 1, size := lexeme.length, width := 1 + lexeme.length }

/-- What a dash begins: an entry if white space follows, the marker of a document start, a
negative number, or else a plain scalar. -/
def dash (inFlow : Bool) (s : List Byte) : Reading :=
  if atSpace (s.drop 1) then { found := .ok .entry }
  else if isMarker 0x2D s then { found := .ok .documentStart, width := 3 }
  else if atDigit (s.drop 1) then number s
  else plain inFlow s

/-- What a point begins: the marker of a document end, a number without digits before the point,
or else a plain scalar. -/
def point (inFlow : Bool) (s : List Byte) : Reading :=
  if isMarker 0x2E s then { found := .ok .documentEnd, width := 3 }
  else if atDigit (s.drop 1) then number s
  else plain inFlow s

/-- Reads the construct at the start of the bytes. -/
def of (inFlow : Bool) : List Byte → Reading
  | [] => { found := .ok .streamEnd, width := 0 }
  | b :: s =>
    match Role.of b with
    | .comment => comment s
    | .quote q => quoted q s
    | .explicitKey => { found := .ok (.single .mappingKey) }
    | .dash => dash inFlow (b :: s)
    | .point => point inFlow (b :: s)
    | .name token => name token s
    | .unsupported u => { found := .error (.unsupported u) }
    | .flowStart shape => { found := .ok (.flowStart shape) }
    | .flowEnd shape => { found := .ok (.flowEnd shape) }
    | .number => number (b :: s)
    | .plain => plain inFlow (b :: s)

/-! ## Constructs take bytes -/

theorem width_plain_pos {inFlow : Bool} {b : Byte} {s : List Byte}
    (hb : b.endsPlain = false) (hc : b ≠ Byte.comma) : 0 < (plain inFlow (b :: s)).width := by
  rw [plain, scalar, Plain.extent]
  split
  · rename_i hstop
    rw [Plain.stopsAt, hb, if_neg hc] at hstop
    split at hstop
    · rename_i hcolon
      subst hcolon
      simp only [List.length_nil, List.drop_zero, KeyMark.read_colon hstop]
      omega
    · simp at hstop
  · simp only [List.length_cons]
    omega

theorem width_number_pos {b : Byte} {s : List Byte} : 0 < (number (b :: s)).width := by
  simp only [number, scalar, Number.lexeme, List.length_cons]
  omega

/-- A construct that does not start with a gap takes at least one byte. -/
theorem width_pos {inFlow : Bool} {b : Byte} {s : List Byte} (hb : b.isGap = false) :
    0 < (of inFlow (b :: s)).width := by
  rw [of]
  split
  · -- The cases come in the order of the roles.
    simp only [comment]
    omega
  · rw [quoted]
    split
    · simp only [scalar]
      omega
    · simp
  · exact Nat.one_pos
  · obtain rfl := Role.eq_of_byte? ‹_› rfl
    rw [dash]
    split
    · exact Nat.one_pos
    · split
      · exact Nat.succ_pos 2
      · split
        · exact width_number_pos
        · exact width_plain_pos rfl (by decide)
  · obtain rfl := Role.eq_of_byte? ‹_› rfl
    rw [point]
    split
    · exact Nat.succ_pos 2
    · split
      · exact width_number_pos
      · exact width_plain_pos rfl (by decide)
  · simp only [name]
    omega
  · exact Nat.one_pos
  · exact Nat.one_pos
  · exact Nat.one_pos
  · exact width_number_pos
  · refine width_plain_pos (Role.endsPlain_of_plain ‹_› hb) ?_
    rintro rfl
    exact absurd hb (by decide)

end Reading

end YamlLexer
