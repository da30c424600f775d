import YamlLexer.Proofs.Reading.Forms
import YamlLexer.Proofs.Words.Quoted

/-!
# Readings by index

The construct at an offset, read by a machine. It takes a byte and looks what that announces.
Where the byte turns out to belong to a number or a plain scalar it is put back, and a marker is
looked for from one byte back and up to three bytes ahead. `read?_eq` says that none of this goes
wrong, and that the answer is what `Reading.of` makes of the bytes that are left.

Three of its indices are further ahead than the construct may reach: those of a marker. They may be
outside of the input, and then there is no marker; a machine has to ask for that before it looks.
-/

namespace YamlLexer.Words

/-- Whether there are three bytes of a kind at an offset, and white space or nothing behind them. -/
def isMarkerAt? (source : List Byte) (b : Byte) (offset : Nat) : Option Bool := do
  let second ← add? offset 1
  let third ← add? offset 2
  let behind ← add? offset 3
  return source[offset]? == some b && source[second]? == some b && source[third]? == some b &&
    spaceAt source behind

/-- Reads what begins with a dash or a point, behind that. -/
def marker? (source : List Byte) (inFlow : Bool) (b : Byte) (construct : Construct) (offset : Nat) :
    Option Found := do
  let start ← sub? offset 1
  if ← isMarkerAt? source b start then
    return ⟨.ok construct, ← skip? source offset 2, ⟨start, start⟩⟩
  else if source[offset]?.any Byte.isDigit then number? source start
  else plain? source inFlow start

def read? (source : List Byte) (inFlow : Bool) (p : Place) : Option Found :=
  match source[p.offset]? with
  | none => some ⟨.ok .streamEnd, p.offset, ⟨p.offset, p.offset⟩⟩
  | some b => do
    let offset ← add? p.offset 1
    let found (answer : Except LexError Construct) : Found := ⟨answer, offset, ⟨p.offset, p.offset⟩⟩
    match Role.of b with
    | .comment => comment? source offset
    | .quote q => quoted? source q p offset
    | .explicitKey => return found (.ok (.single .mappingKey))
    | .dash =>
      if spaceAt source offset then return found (.ok .entry)
      else marker? source inFlow 0x2D .documentStart offset
    | .point => marker? source inFlow 0x2E .documentEnd offset
    | .name token => name? source token offset
    | .unsupported u => return found (.error (.unsupported u (← mark? p)))
    | .flowStart shape => return found (.ok (.flowStart shape))
    | .flowEnd shape => return found (.ok (.flowEnd shape))
    | .number => number? source (← sub? offset 1)
    | .plain => plain? source inFlow (← sub? offset 1)

variable {source : List Byte} {inFlow : Bool} {offset : Nat} {p : Place} {b : Byte}

theorem isDecimalMark_of_isDigit (h : b.isDigit = true) : b.isDecimalMark = false := by
  rw [Bool.eq_false_iff]
  intro hmark
  simp only [Byte.isDecimalMark, Bool.or_eq_true, beq_iff_eq] at hmark
  rcases hmark with (rfl | rfl) | rfl
  · exact absurd h (by decide)
  · exact absurd h (by decide)
  · exact absurd h (by decide)

theorem isMarkerAt?_eq (h : Short source) (hle : offset ≤ source.length) :
    isMarkerAt? source b offset = some (Reading.isMarker b (source.drop offset)) := by
  have hget (n : Nat) : source[offset + n]? = (source.drop offset)[n]? := List.getElem?_drop.symm
  have hfirst : source[offset]? = (source.drop offset)[0]? := hget 0
  rw [isMarkerAt?, bind_eq (h.add?_eq hle (by omega)), bind_eq (h.add?_eq hle (by omega)),
    bind_eq (h.add?_eq hle (by omega)), spaceAt_eq, Reading.isMarker, ← List.drop_drop, hfirst,
    hget, hget]
  rcases source.drop offset with _ | ⟨c, _ | ⟨d, _ | ⟨e, rest⟩⟩⟩
  · rfl
  · simp
  · simp
  · simp [Bool.and_assoc]

/-- A dash or a point is put back, unless it begins a marker. -/
theorem marker?_eq (h : Short source) (inFlow : Bool) (construct : Construct)
    (hb : source[p.offset]? = some b) (hstart : b = 0x2D ∨ b = 0x2E) :
    marker? source inFlow b construct (p.offset + 1) =
      some (.ofReading (if Reading.isMarker b (source.drop p.offset) then
          { found := .ok construct, width := 3 }
        else if Reading.atDigit ((source.drop p.offset).drop 1) then
          Reading.number (source.drop p.offset)
        else Reading.plain inFlow (source.drop p.offset)) p) := by
  have hlt := succ_le_of_getElem? hb
  have hback : sub? (p.offset + 1) 1 = some p.offset := sub?_eq (by omega)
  have hdigit : source[p.offset + 1]?.any Byte.isDigit =
      Reading.atDigit ((source.drop p.offset).drop 1) := by
    rw [List.drop_drop, ← List.head?_drop]
    rcases source.drop (p.offset + 1) with _ | ⟨c, rest⟩
    · rfl
    · rfl
  rw [marker?, bind_eq hback, bind_eq (isMarkerAt?_eq h (by omega)), hdigit]
  split
  · rename_i hmarker
    obtain ⟨rest, hs, -⟩ := Reading.isMarker_iff.mp hmarker
    have hlength := congrArg List.length hs
    simp only [List.length_drop, List.length_cons] at hlength
    rw [bind_eq (h.skip?_eq (by omega))]
    rfl
  · split
    · refine number?_eq h hb ?_
      rcases hstart with rfl | rfl
      · exact .inr (.inr ⟨rfl, rfl⟩)
      · exact .inr (.inl rfl)
    · exact plain?_eq h inFlow (by omega)

theorem read?_eq (h : Short source) (inFlow : Bool) (hline : p.lineStart ≤ p.offset)
    (hle : p.offset ≤ source.length) :
    read? source inFlow p =
      some (.ofReading (Reading.of inFlow (source.drop p.offset)) p) := by
  rw [read?]
  rcases hb : source[p.offset]? with _ | b
  · rw [drop_eq_nil_of_getElem? hb]
    rfl
  · have hlt := succ_le_of_getElem? hb
    have hback : sub? (p.offset + 1) 1 = some p.offset := sub?_eq (by omega)
    have hcons := drop_eq_cons_of_getElem? hb
    dsimp only
    rw [bind_eq (h.add?_eq hle (by omega)), hcons, Reading.of]
    -- There is a reader for each role. Numbers and plain scalars are read from the byte itself, so
    -- it is put back for them.
    rcases hrole : Role.of b with _ | q | _ | _ | _ | token | u | shape | shape | _ | _
    case comment => exact comment?_eq h hlt
    case quote =>
      obtain rfl := Role.eq_of_byte? hrole rfl
      exact quoted?_eq h q hline hb
    case dash =>
      obtain rfl := Role.eq_of_byte? hrole rfl
      dsimp only
      rw [← hcons, spaceAt_eq, Reading.dash, List.drop_drop]
      split
      · rfl
      · have hmarker := marker?_eq h inFlow .documentStart hb (.inl rfl)
        rwa [List.drop_drop] at hmarker
    case point =>
      obtain rfl := Role.eq_of_byte? hrole rfl
      dsimp only
      rw [← hcons]
      exact marker?_eq h inFlow .documentEnd hb (.inr rfl)
    case name => exact name?_eq h hlt token
    case unsupported =>
      dsimp only
      rw [bind_eq (mark?_eq hline)]
      rfl
    case number =>
      dsimp only
      rw [bind_eq hback, ← hcons]
      refine number?_eq h hb ?_
      rcases Reading.eq_plus_or_isDigit hrole with rfl | hdigit
      · exact .inl rfl
      · exact .inr (.inr ⟨by simp [Byte.isNumberPart, hdigit], isDecimalMark_of_isDigit hdigit⟩)
    case plain =>
      dsimp only
      rw [bind_eq hback, ← hcons]
      exact plain?_eq h inFlow hle
    -- The other constructs take this one byte.
    all_goals rfl

end YamlLexer.Words
