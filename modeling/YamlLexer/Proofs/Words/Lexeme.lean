import YamlLexer.Lexer.Pull
import YamlLexer.Proofs.Words.Arithmetic

/-!
# Lexemes, read by index

The readers of lexemes as a machine runs them. Each works on the whole input and an offset in it,
looks at one byte at a time or at a slice, and computes where to go on. Every step of that is one of
the operations that can go wrong.

None of them does, and what is read is the same: `comment?_eq`, `name?_eq`, `number?_eq` and
`plain?_eq` say of the readers that they answer with the reading of the bytes that are left, put at
its place in the input (`Found.ofReading`). Behind a scalar the same holds of the colon that makes
it a key (`keyMark?_eq`).

A loop is given a number of turns, and goes wrong when it needs more. One turn more than there are
bytes is always enough, so no loop runs forever either.
-/

namespace YamlLexer.Words

/-- What has been read: the construct or the error, where to read on, and the lexeme. -/
structure Found where
  answer : Except LexError Construct
  offset : Nat
  lexeme : Span

/-- What a reading amounts to, at the place where its construct stands. -/
def Found.ofReading (r : Reading) (p : Place) : Found where
  answer := r.found.mapError (·.error p)
  offset := p.offset + r.width
  lexeme := ⟨p.offset + r.before, p.offset + r.before + r.size⟩

/-- The index of the last element of a kind. -/
def lastIdx? (p : Byte → Bool) : List Byte → Option Nat
  | [] => none
  | b :: s => ((lastIdx? p s).map (· + 1)).or (if p b then some 0 else none)

def skipBlanks? (source : List Byte) (offset : Nat) : Option Nat := do
  let rest ← rest? source offset
  skip? source offset (rest.takeWhile Byte.isBlank).length

/-- Moves past a space or a tab, if there is one. -/
def skipBlank? (source : List Byte) (offset : Nat) : Option Nat :=
  if source[offset]?.any Byte.isBlank then skip? source offset 1 else some offset

def lineEnd? (source : List Byte) (offset : Nat) : Option Nat := do
  let rest ← rest? source offset
  add? offset (rest.findIdx Byte.isBreak)

/-- Where a text ends, without the white space behind it. -/
def trimmed? (start : Nat) (text : List Byte) : Option Nat :=
  match lastIdx? (!·.isSpace) text with
  | none => some start
  | some last => do add? (← add? start last) 1

def comment? (source : List Byte) (offset : Nat) : Option Found := do
  let start ← skipBlanks? source offset
  let stop ← lineEnd? source start
  let trimmed ← trimmed? start (← slice? source start stop)
  return ⟨.ok (.single .comment), ← moveTo? source stop, ⟨start, trimmed⟩⟩

def name? (source : List Byte) (token : Token) (offset : Nat) : Option Found := do
  let rest ← rest? source offset
  let length := rest.findIdx Byte.endsName
  let behind ← skip? source offset length
  return ⟨.ok (.single token), behind, ⟨offset, ← add? offset length⟩⟩

/-- Reads what stands behind a scalar: whether it is a key, and where to read on. -/
def keyMark? (source : List Byte) (offset : Nat) : Option (Bool × Nat) := do
  let colon ← skipBlanks? source offset
  let behind ← add? colon 1
  if source[colon]? = some Byte.colon ∧ spaceAt source behind then
    return (true, ← skipBlank? source (← skip? source colon 1))
  else return (false, colon)

/-- A scalar of which the lexeme has been read, and what stands behind it. -/
def scalar? (source : List Byte) (kind : Token) (lexeme : Span) (offset : Nat) : Option Found := do
  let (isKey, behind) ← keyMark? source offset
  return ⟨.ok (.scalar kind isKey), behind, lexeme⟩

/-- Moves past the bytes that continue a number, and tells what kind of number it is. -/
def digits? (source : List Byte) : Nat → Token → Nat → Option (Token × Nat)
  | 0, _, _ => none
  | fuel + 1, kind, offset =>
    match source[offset]? with
    | none => some (kind, offset)
    | some b =>
      if b.isDecimalMark then do digits? source fuel .decimal (← skip? source offset 1)
      else if b.isNumberPart then do digits? source fuel kind (← skip? source offset 1)
      else some (kind, offset)

/-- Moves past a sign or a point at the start of a number. -/
def sign? (source : List Byte) (offset : Nat) : Option (Token × Nat) :=
  match source[offset]? with
  | some 0x2B => do return (.integer, ← skip? source offset 1)
  | some 0x2E => do return (.decimal, ← skip? source offset 1)
  | _ => some (.integer, offset)

def number? (source : List Byte) (offset : Nat) : Option Found := do
  let (kind, start) ← sign? source offset
  let (kind, behind) ← digits? source (source.length + 1) kind start
  scalar? source kind ⟨offset, behind⟩ behind

/-- Whether a plain scalar ends before a byte, given whether white space follows. -/
def endsText (inFlow : Bool) (b : Byte) (space : Bool) : Bool :=
  if b = Byte.colon then space else if b = Byte.comma then inFlow else b.endsPlain

/-- Moves past the bytes of a plain scalar, and tells where the last one ends that is no blank. -/
def text? (source : List Byte) (inFlow : Bool) : Nat → Nat → Nat → Option (Nat × Nat)
  | 0, _, _ => none
  | fuel + 1, stop, offset =>
    match source[offset]? with
    | none => some (stop, offset)
    | some b => do
      let behind ← add? offset 1
      if endsText inFlow b (spaceAt source behind) then return (stop, offset)
      else
        let next ← skip? source offset 1
        text? source inFlow fuel (if b.isBlank then stop else next) next

def plain? (source : List Byte) (inFlow : Bool) (offset : Nat) : Option Found := do
  let (stop, behind) ← text? source inFlow (source.length + 1) offset offset
  scalar? source .text ⟨offset, stop⟩ behind

/-! ## Blanks and lines -/

variable {source : List Byte} {offset : Nat} {p : Place}

theorem length_takeWhile_le_of_drop (p : Byte → Bool) (hle : offset ≤ source.length) :
    offset + ((source.drop offset).takeWhile p).length ≤ source.length := by
  have hlength := (List.takeWhile_sublist p (l := source.drop offset)).length_le
  rw [List.length_drop] at hlength
  omega

theorem drop_add_length_takeWhile (source : List Byte) (offset : Nat) (p : Byte → Bool) :
    source.drop (offset + ((source.drop offset).takeWhile p).length) =
      (source.drop offset).dropWhile p := by
  rw [← List.drop_drop, drop_length_takeWhile]

theorem findIdx_eq_length_takeWhile (p : Byte → Bool) (s : List Byte) :
    s.findIdx p = (s.takeWhile (!p ·)).length := by
  induction s with
  | nil => rfl
  | cons b s ih =>
    rw [List.findIdx_cons, List.takeWhile_cons, ih]
    cases p b with
    | false => rfl
    | true => rfl

theorem skipBlanks?_eq (h : Short source) (hle : offset ≤ source.length) :
    skipBlanks? source offset =
      some (offset + ((source.drop offset).takeWhile Byte.isBlank).length) := by
  rw [skipBlanks?, bind_eq (h.rest?_eq hle),
    h.skip?_eq (length_takeWhile_le_of_drop Byte.isBlank hle)]

theorem lineEnd?_eq (h : Short source) (hle : offset ≤ source.length) :
    lineEnd? source offset =
      some (offset + ((source.drop offset).takeWhile (!·.isBreak)).length) := by
  have hline := length_takeWhile_le_of_drop (!·.isBreak) hle
  rw [lineEnd?, bind_eq (h.rest?_eq hle), findIdx_eq_length_takeWhile,
    h.add?_eq hle (by omega)]

theorem slice?_takeWhile (p : Byte → Bool) (hle : offset ≤ source.length) :
    slice? source offset (offset + ((source.drop offset).takeWhile p).length) =
      some ((source.drop offset).takeWhile p) := by
  rw [slice?_eq (Nat.le_add_right _ _) (length_takeWhile_le_of_drop p hle), List.drop_take,
    Nat.add_sub_cancel_left, ← List.prefix_iff_eq_take.mp (List.takeWhile_prefix p)]

/-!
## Comments and names

Where white space is trimmed, a machine looks for the last byte that is to stay, from the end, and
cuts behind it (`elim_lastIdx?`). There may be no such byte, and then nothing is left.
-/

theorem trimEnd_cons (p : Byte → Bool) (b : Byte) (s : List Byte) :
    trimEnd p (b :: s) =
      if trimEnd p s = [] then (if p b then [] else [b]) else b :: trimEnd p s := by
  simp only [trimEnd, List.reverse_cons, List.dropWhile_append, List.isEmpty_iff,
    List.reverse_eq_nil_iff]
  split
  · rw [List.dropWhile_cons]
    split
    · rfl
    · rfl
  · rw [List.reverse_concat]

/-- Trimming cuts behind the last byte that is to stay. -/
theorem elim_lastIdx? (p : Byte → Bool) (s : List Byte) :
    (lastIdx? (!p ·) s).elim 0 (· + 1) = (trimEnd p s).length := by
  induction s with
  | nil => rfl
  | cons b s ih =>
    rw [lastIdx?, trimEnd_cons]
    rcases hlast : lastIdx? (!p ·) s with _ | last
    · rw [hlast] at ih
      rw [if_pos (List.length_eq_zero_iff.mp ih.symm)]
      cases p b with
      | false => rfl
      | true => rfl
    · rw [hlast] at ih
      have hne : trimEnd p s ≠ [] := by
        intro hnil
        rw [hnil] at ih
        exact Nat.succ_ne_zero last ih
      rw [if_neg hne, List.length_cons, ← ih]
      rfl

/-- The text of a comment ends behind the last byte of its line that is no white space. -/
theorem trimmed?_eq {text : List Byte} (h : Short source)
    (hle : offset + text.length ≤ source.length) :
    trimmed? offset text = some (offset + (trimEnd Byte.isSpace text).length) := by
  have hlength := length_trimEnd_le Byte.isSpace text
  rw [trimmed?]
  rw [← elim_lastIdx? Byte.isSpace text] at hlength ⊢
  rcases hidx : lastIdx? (!·.isSpace) text with _ | last
  · rfl
  · rw [hidx] at hlength
    have hlast : last + 1 ≤ text.length := hlength
    dsimp only
    rw [bind_eq (h.add?_eq (by omega) (by omega)), h.add?_eq (by omega) (by omega)]
    rfl

theorem comment?_eq (h : Short source) (hle : p.offset + 1 ≤ source.length) :
    comment? source (p.offset + 1) =
      some (.ofReading (Reading.comment (source.drop (p.offset + 1))) p) := by
  have hblanks := length_takeWhile_le_of_drop Byte.isBlank hle
  have hline := length_takeWhile_le_of_drop (!·.isBreak) hblanks
  rw [comment?, bind_eq (skipBlanks?_eq h hle), bind_eq (lineEnd?_eq h hblanks),
    bind_eq (slice?_takeWhile _ hblanks), bind_eq (trimmed?_eq h hline), bind_eq (moveTo?_eq hline),
    drop_add_length_takeWhile, Reading.comment, Found.ofReading, Comment.lexeme, Comment.extent,
    Comment.indent]
  simp only [Nat.add_assoc]
  rfl

theorem name?_eq (h : Short source) (hle : p.offset + 1 ≤ source.length) (token : Token) :
    name? source token (p.offset + 1) =
      some (.ofReading (Reading.name token (source.drop (p.offset + 1))) p) := by
  have hname := length_takeWhile_le_of_drop (!·.endsName) hle
  rw [name?, bind_eq (h.rest?_eq hle)]
  dsimp only
  rw [findIdx_eq_length_takeWhile, bind_eq (h.skip?_eq hname),
    bind_eq (h.add?_eq hle (by omega)), Reading.name, Found.ofReading, Name.lexeme]
  simp only [Nat.add_assoc]
  rfl

/-!
## Scalars

All scalars are read in two steps, the lexeme and what stands behind it, and the second is the same
for each (`scalar?_eq`). So a sort of scalar is a loop that finds the end of its lexeme.
-/

theorem skipBlank?_eq (h : Short source) :
    skipBlank? source offset =
      some (offset + KeyMark.leadingBlank (source.drop offset)) := by
  rw [skipBlank?]
  rcases hb : source[offset]? with _ | b
  · rw [drop_eq_nil_of_getElem? hb]
    rfl
  · have hlt := succ_le_of_getElem? hb
    rw [drop_eq_cons_of_getElem? hb, KeyMark.leadingBlank, Option.any_some]
    split
    · exact h.skip?_eq hlt
    · rfl

theorem keyMark?_eq (h : Short source) (hle : offset ≤ source.length) :
    keyMark? source offset =
      some ((KeyMark.read (source.drop offset)).isKey,
        offset + (KeyMark.read (source.drop offset)).width) := by
  have hblanks := length_takeWhile_le_of_drop Byte.isBlank hle
  rw [keyMark?, bind_eq (skipBlanks?_eq h hle), bind_eq (h.add?_eq hblanks (by omega)), spaceAt_eq,
    KeyMark.read, ← drop_add_length_takeWhile]
  generalize ((source.drop offset).takeWhile Byte.isBlank).length = blanks at *
  rcases hb : source[offset + blanks]? with _ | b
  · rw [drop_eq_nil_of_getElem? hb, if_neg (by simp)]
    rfl
  · have hlt := succ_le_of_getElem? hb
    rw [drop_eq_cons_of_getElem? hb]
    dsimp only
    by_cases hmark : b = Byte.colon ∧ atSpace (source.drop (offset + blanks + 1)) = true
    · rw [if_pos hmark, if_pos (by simpa using hmark), bind_eq (h.skip?_eq hlt),
        bind_eq (skipBlank?_eq h)]
      simp only [Nat.add_assoc]
      rfl
    · rw [if_neg hmark, if_neg (by simpa using hmark)]
      rfl

/-- What stands behind a scalar is read in the same way, whatever the scalar is. -/
theorem scalar?_eq (h : Short source) (kind : Token) (before size : Nat) {extent : Nat}
    (hle : p.offset + extent ≤ source.length) :
    scalar? source kind ⟨p.offset + before, p.offset + before + size⟩ (p.offset + extent) =
      some (.ofReading (Reading.scalar kind before size extent (source.drop p.offset)) p) := by
  rw [scalar?, bind_eq (keyMark?_eq h hle), Found.ofReading, Reading.scalar, List.drop_drop]
  simp only [Nat.add_assoc]
  rfl

/-- The kind changes with a decimal mark, and not back. -/
theorem digits?_eq (h : Short source) {fuel : Nat} (kind : Token) (hle : offset ≤ source.length)
    (hfuel : source.length < offset + fuel) :
    digits? source fuel kind offset =
      some (if ((source.drop offset).takeWhile Byte.isNumberPart).any Byte.isDecimalMark
          then .decimal else kind,
        offset + ((source.drop offset).takeWhile Byte.isNumberPart).length) := by
  induction fuel generalizing kind offset with
  | zero => omega
  | succ fuel ih =>
    rw [digits?]
    rcases hb : source[offset]? with _ | b
    · rw [drop_eq_nil_of_getElem? hb]
      rfl
    · have hlt := succ_le_of_getElem? hb
      rw [drop_eq_cons_of_getElem? hb]
      dsimp only
      rw [bind_eq (h.skip?_eq hlt), bind_eq (h.skip?_eq hlt), ih _ hlt (by omega),
        ih _ hlt (by omega)]
      by_cases hmark : b.isDecimalMark = true
      · have hpart : b.isNumberPart = true := by simp [Byte.isNumberPart, hmark]
        rw [if_pos hmark, List.takeWhile_cons_of_pos hpart]
        simp [hmark, Nat.add_assoc, Nat.add_comm 1]
      · rw [if_neg hmark]
        by_cases hpart : b.isNumberPart = true
        · rw [if_pos hpart, List.takeWhile_cons_of_pos hpart]
          simp [hmark, Nat.add_assoc, Nat.add_comm 1]
        · rw [if_neg hpart, List.takeWhile_cons_of_neg hpart]
          rfl

theorem exists_sign?_eq (h : Short source) {b : Byte} (hb : source[offset]? = some b)
    (hstart : b = 0x2B ∨ b = 0x2E ∨ b.isNumberPart = true ∧ b.isDecimalMark = false) :
    ∃ kind start, sign? source offset = some (kind, start) ∧
      digits? source (source.length + 1) kind start =
        some (Number.kind (Number.lexeme (source.drop offset)),
          offset + (Number.lexeme (source.drop offset)).length) := by
  have hlt := succ_le_of_getElem? hb
  have hdrop := drop_eq_cons_of_getElem? hb
  rw [sign?, hb, hdrop, Number.lexeme, Number.kind, List.any_cons, List.length_cons]
  rcases hstart with rfl | rfl | ⟨hpart, hmark⟩
  · refine ⟨.integer, offset + 1, bind_eq (h.skip?_eq hlt) _, ?_⟩
    rw [digits?_eq h _ hlt (by omega), Nat.add_assoc, Nat.add_comm 1]
    rfl
  · refine ⟨.decimal, offset + 1, bind_eq (h.skip?_eq hlt) _, ?_⟩
    rw [digits?_eq h _ hlt (by omega), Nat.add_assoc, Nat.add_comm 1, ite_self]
    rfl
  · -- The first byte is a digit or a dash, and is read with those behind it.
    refine ⟨.integer, offset, ?_, ?_⟩
    · split
      · rename_i heq
        cases heq
        cases hpart
      · rename_i heq
        cases heq
        cases hmark
      · rfl
    · rw [digits?_eq h _ (Nat.le_of_succ_le hlt) (by omega), hdrop,
        List.takeWhile_cons_of_pos hpart, List.any_cons, List.length_cons]

theorem number?_eq (h : Short source) {b : Byte} (hb : source[p.offset]? = some b)
    (hstart : b = 0x2B ∨ b = 0x2E ∨ b.isNumberPart = true ∧ b.isDecimalMark = false) :
    number? source p.offset = some (.ofReading (Reading.number (source.drop p.offset)) p) := by
  have hlt := succ_le_of_getElem? hb
  have hbehind := length_takeWhile_le_of_drop Byte.isNumberPart hlt
  obtain ⟨kind, start, hsign, hdigits⟩ := exists_sign?_eq h hb hstart
  rw [number?, bind_eq hsign]
  dsimp only
  rw [bind_eq hdigits]
  refine scalar?_eq h _ 0 (Number.lexeme (source.drop p.offset)).length ?_
  rw [drop_eq_cons_of_getElem? hb, Number.lexeme, List.length_cons]
  omega

theorem text?_eq (h : Short source) (inFlow : Bool) {fuel stop : Nat}
    (hle : offset ≤ source.length) (hfuel : source.length < offset + fuel) :
    text? source inFlow fuel stop offset =
      some (if Plain.lexeme inFlow (source.drop offset) = [] then stop
          else offset + (Plain.lexeme inFlow (source.drop offset)).length,
        offset + (Plain.extent inFlow (source.drop offset)).length) := by
  induction fuel generalizing stop offset with
  | zero => omega
  | succ fuel ih =>
    rw [text?]
    rcases hb : source[offset]? with _ | b
    · rw [drop_eq_nil_of_getElem? hb]
      rfl
    · have hlt := succ_le_of_getElem? hb
      have hends : endsText inFlow b (spaceAt source (offset + 1)) =
          Plain.stopsAt inFlow (source.drop offset) := by
        rw [drop_eq_cons_of_getElem? hb, spaceAt_eq]
        rfl
      dsimp only
      rw [bind_eq (h.add?_eq hle (by omega)), bind_eq (h.skip?_eq hlt), ih hlt (by omega), hends,
        Plain.lexeme, Plain.lexeme, drop_eq_cons_of_getElem? hb, Plain.extent]
      split
      · rfl
      · have hcons (t : List Byte) : offset + (b :: t).length = offset + 1 + t.length :=
          Nat.add_right_comm offset t.length 1
        rw [trimEnd_cons, hcons]
        -- If only blanks follow, it is this byte that the scalar reaches to, unless it is a blank
        -- too.
        by_cases htrim : trimEnd Byte.isBlank (Plain.extent inFlow (source.drop (offset + 1))) = []
        · rw [if_pos htrim, if_pos htrim]
          by_cases hblank : b.isBlank = true
          · rw [if_pos hblank, if_pos hblank, if_pos rfl]
          · rw [if_neg hblank, if_neg hblank, if_neg (List.cons_ne_nil b [])]
            rfl
        · rw [if_neg htrim, if_neg htrim, if_neg (List.cons_ne_nil b _), hcons]

theorem plain?_eq (h : Short source) (inFlow : Bool) (hle : p.offset ≤ source.length) :
    plain? source inFlow p.offset =
      some (.ofReading (Reading.plain inFlow (source.drop p.offset)) p) := by
  have hextent := congrArg List.length (@Plain.extent_append_drop inFlow (source.drop p.offset))
  simp only [List.length_append, List.length_drop] at hextent
  rw [plain?, bind_eq (text?_eq h inFlow hle (by omega))]
  have hstop : (if Plain.lexeme inFlow (source.drop p.offset) = [] then p.offset
      else p.offset + (Plain.lexeme inFlow (source.drop p.offset)).length) =
        p.offset + (Plain.lexeme inFlow (source.drop p.offset)).length := by
    split
    · rename_i hnil
      rw [hnil]
      rfl
    · rfl
  dsimp only
  rw [hstop]
  exact scalar?_eq h .text 0 (Plain.lexeme inFlow (source.drop p.offset)).length (by omega)

end YamlLexer.Words
