import YamlLexer.Proofs.Reading.Layout

/-!
# Constructs do not leave their line

No construct goes on behind a line break, and no look-ahead tells a line break from the end of the
input. So a reading is settled by the bytes up to the next break (`of_congr_firstLine`). The one
thing that lies further ahead is the reason for which an unclosed quoted scalar is refused: a reader
of the whole input meets the break, and one of the line alone meets the end.

Each part of a reading is first compared with the same part of the first line: a class of bytes that
holds no line break is taken up to the same place (`takeWhile_firstLine`), and what asks for the
byte behind that may get a break from the one and the end from the other, which it takes for the
same (`apply_firstLine`).
-/

namespace YamlLexer

def firstLine (s : List Byte) : List Byte := s.takeWhile (!·.isBreak)

variable {p : Byte → Bool} {b : Byte} {s : List Byte}

theorem isBreak_cases (h : b.isBreak = true) : b = 0x0A ∨ b = 0x0D := by
  simpa [Byte.isBreak] using h

theorem isBreak_of_class (hfeed : p 0x0A = false) (hreturn : p 0x0D = false) (h : p b = true) :
    b.isBreak = false := by
  by_contra hbreak
  rw [Bool.not_eq_false] at hbreak
  obtain rfl | rfl := isBreak_cases hbreak
  · rw [hfeed] at h
    cases h
  · rw [hreturn] at h
    cases h

theorem isBreak_of_isGap (h : b.isGap = false) : b.isBreak = false :=
  isBreak_of_class (p := (!·.isGap)) rfl rfl (by simpa using h)

theorem firstLine_cons (h : b.isBreak = false) : firstLine (b :: s) = b :: firstLine s := by
  rw [firstLine, List.takeWhile_cons_of_pos (by simp [h]), firstLine]

theorem firstLine_cons_of_isBreak (h : b.isBreak = true) : firstLine (b :: s) = [] := by
  rw [firstLine, List.takeWhile_cons_of_neg (by simp [h])]

@[simp] theorem firstLine_firstLine (s : List Byte) : firstLine (firstLine s) = firstLine s := by
  rw [firstLine, firstLine, List.takeWhile_takeWhile]
  simp

theorem length_firstLine_le (s : List Byte) : (firstLine s).length ≤ s.length :=
  (List.takeWhile_sublist _).length_le

theorem firstLine_append {t : List Byte} (h : ∀ b ∈ t, b.isBreak = false) :
    firstLine (t ++ s) = t ++ firstLine s := by
  rw [firstLine, List.takeWhile_append_of_pos (by simpa using h), firstLine]

theorem takeWhile_firstLine (hp : ∀ b, p b = true → b.isBreak = false) (s : List Byte) :
    (firstLine s).takeWhile p = s.takeWhile p := by
  rw [firstLine, List.takeWhile_takeWhile]
  congr 1
  funext b
  have hb := hp b
  by_cases hpb : p b = true
  · simp [hpb, hb hpb]
  · simp [hpb]

theorem firstLine_eq_append (hp : ∀ b, p b = true → b.isBreak = false) (s : List Byte) :
    firstLine s = s.takeWhile p ++ firstLine (s.dropWhile p) := by
  rw [← firstLine_append fun b hb ↦ hp b (List.mem_takeWhile_imp hb),
    List.takeWhile_append_dropWhile]

theorem dropWhile_firstLine (hp : ∀ b, p b = true → b.isBreak = false) (s : List Byte) :
    (firstLine s).dropWhile p = firstLine (s.dropWhile p) := by
  have happend := List.takeWhile_append_dropWhile (p := p) (l := firstLine s)
  rw [takeWhile_firstLine hp s] at happend
  exact List.append_cancel_left (happend.trans (firstLine_eq_append hp s))

/-- A change behind line breaks leaves what can be dropped from the line. -/
theorem drop_of_cons {f : List Byte → List Byte}
    (hf : ∀ b s, b.isBreak = false → f (b :: s) = b :: f s) {n : Nat}
    (h : n ≤ (firstLine s).length) : (f s).drop n = f (s.drop n) := by
  induction n generalizing s with
  | zero => rfl
  | succ n ih =>
    rcases s with _ | ⟨b, s⟩
    · exact absurd h (Nat.not_succ_le_zero n)
    · by_cases hb : b.isBreak = true
      · rw [firstLine_cons_of_isBreak hb] at h
        exact absurd h (Nat.not_succ_le_zero n)
      · rw [Bool.not_eq_true] at hb
        rw [firstLine_cons hb] at h
        rw [hf b s hb]
        exact ih (Nat.le_of_succ_le_succ h)

theorem drop_firstLine {n : Nat} (h : n ≤ (firstLine s).length) :
    (firstLine s).drop n = firstLine (s.drop n) :=
  drop_of_cons (fun _ _ hb ↦ firstLine_cons hb) h

theorem take_firstLine {n : Nat} (h : n ≤ (firstLine s).length) :
    (firstLine s).take n = s.take n := by
  have hs : firstLine s ++ s.dropWhile (!·.isBreak) = s := List.takeWhile_append_dropWhile
  have htake : (firstLine s ++ s.dropWhile (!·.isBreak)).take n = (firstLine s).take n :=
    List.take_append_of_le_length h
  rw [hs] at htake
  exact htake.symm

theorem firstLine_of_cons {f : List Byte → List Byte} (hnil : f [] = [])
    (hf : ∀ b s, b.isBreak = false → f (b :: s) = b :: f s)
    (hbreak : ∀ b s, b.isBreak = true → firstLine (f (b :: s)) = []) (s : List Byte) :
    firstLine (f s) = firstLine s := by
  induction s with
  | nil => rw [hnil]
  | cons b s ih =>
    by_cases hb : b.isBreak = true
    · rw [hbreak b s hb, firstLine_cons_of_isBreak hb]
    · rw [Bool.not_eq_true] at hb
      rw [hf b s hb, firstLine_cons hb, firstLine_cons hb, ih]

theorem exists_cons_of_firstLine {t : List Byte} (h : firstLine s = b :: t) :
    ∃ rest, s = b :: rest ∧ firstLine rest = t := by
  rcases s with _ | ⟨c, s⟩
  · cases h
  · by_cases hc : c.isBreak = true
    · rw [firstLine_cons_of_isBreak hc] at h
      cases h
    · rw [Bool.not_eq_true] at hc
      rw [firstLine_cons hc] at h
      obtain ⟨rfl, rfl⟩ := List.cons_eq_cons.mp h
      exact ⟨s, rfl, rfl⟩

/-!
## Look-ahead

What is looked at ahead is white space, a digit, or the bytes of a marker. A line break is white
space just as the end of the input is, and it is none of the others.
-/

/-- What looks at the first byte alone, and takes a break for the end, looks at the line. -/
theorem apply_firstLine {β : Type} {f : List Byte → β} (hhead : ∀ b s t, f (b :: s) = f (b :: t))
    (hfeed : f [0x0A] = f []) (hreturn : f [0x0D] = f []) (s : List Byte) :
    f (firstLine s) = f s := by
  rcases s with _ | ⟨b, s⟩
  · rfl
  · by_cases hb : b.isBreak = true
    · rw [firstLine_cons_of_isBreak hb, hhead b s []]
      obtain rfl | rfl := isBreak_cases hb
      · exact hfeed.symm
      · exact hreturn.symm
    · rw [Bool.not_eq_true] at hb
      rw [firstLine_cons hb]
      exact hhead b _ _

theorem atSpace_firstLine (s : List Byte) : atSpace (firstLine s) = atSpace s :=
  apply_firstLine (fun _ _ _ ↦ rfl) rfl rfl s

theorem atDigit_firstLine (s : List Byte) : Reading.atDigit (firstLine s) = Reading.atDigit s :=
  apply_firstLine (fun _ _ _ ↦ rfl) rfl rfl s

theorem isMarker_firstLine (hb : b.isBreak = false) (s : List Byte) :
    Reading.isMarker b (firstLine s) = Reading.isMarker b s := by
  rw [Bool.eq_iff_iff, Reading.isMarker_iff, Reading.isMarker_iff]
  constructor
  · rintro ⟨rest, hline, hspace⟩
    have hs : firstLine s ++ s.dropWhile (!·.isBreak) = s := List.takeWhile_append_dropWhile
    rw [hline] at hs
    refine ⟨rest ++ s.dropWhile (!·.isBreak), hs.symm, ?_⟩
    -- The line goes on with `rest`, so white space follows the marker in both.
    rw [← hs, List.cons_append, List.cons_append, List.cons_append, firstLine_cons hb,
      firstLine_cons hb, firstLine_cons hb] at hline
    have hrest : firstLine (rest ++ s.dropWhile (!·.isBreak)) = rest := by simpa using hline
    rw [← atSpace_firstLine, hrest, hspace]
  · rintro ⟨rest, rfl, hspace⟩
    refine ⟨firstLine rest, ?_, by rwa [atSpace_firstLine]⟩
    rw [firstLine_cons hb, firstLine_cons hb, firstLine_cons hb]

theorem isBreak_of_isBlank (b : Byte) (h : b.isBlank = true) : b.isBreak = false :=
  isBreak_of_class rfl rfl h

theorem isBreak_of_isNumberPart (b : Byte) (h : b.isNumberPart = true) : b.isBreak = false :=
  isBreak_of_class rfl rfl h

theorem leadingBlank_firstLine (s : List Byte) :
    KeyMark.leadingBlank (firstLine s) = KeyMark.leadingBlank s :=
  apply_firstLine (fun _ _ _ ↦ rfl) rfl rfl s

theorem keyMark_firstLine (s : List Byte) : KeyMark.read (firstLine s) = KeyMark.read s := by
  rw [KeyMark.read, KeyMark.read, takeWhile_firstLine isBreak_of_isBlank,
    dropWhile_firstLine isBreak_of_isBlank]
  rcases s.dropWhile Byte.isBlank with _ | ⟨b, rest⟩
  · rfl
  · by_cases hb : b.isBreak = true
    · -- Only blanks are left of the line, and no colon.
      rw [firstLine_cons_of_isBreak hb]
      have hne : b ≠ Byte.colon := by
        rintro rfl
        cases hb
      simp [hne]
    · rw [Bool.not_eq_true] at hb
      rw [firstLine_cons hb]
      simp only [atSpace_firstLine, leadingBlank_firstLine]

/-! ## Readings -/

namespace Quoted

variable {q : Quote} {n : Nat}

theorem isBreak_of_isControl (h : b.isControl = false) : b.isBreak = false :=
  isBreak_of_class (p := (!·.isControl)) rfl rfl (by simpa using h)

theorem isBreak_of_isStop (h : q.isStop b = true) : b.isBreak = false := by
  rcases q with _ | _
  · exact isBreak_of_class rfl rfl h
  · exact isBreak_of_class rfl rfl h

theorem isEscape_firstLine (s : List Byte) : q.isEscape (firstLine s) = q.isEscape s := by
  rcases s with _ | ⟨b, s⟩
  · rfl
  · by_cases hb : b.isBreak = true
    · rw [firstLine_cons_of_isBreak hb, isEscape_nil, eq_comm, ← Bool.not_eq_true]
      intro hescape
      rw [isBreak_of_isStop (isStop_of_isEscape hescape)] at hb
      cases hb
    · rw [Bool.not_eq_true] at hb
      rw [firstLine_cons hb]
      -- A backslash escapes whatever follows, so the second byte matters to a doubled quote alone.
      rcases q with _ | _
      · exact apply_firstLine (f := fun t ↦ Quote.single.isEscape (b :: t)) (fun _ _ _ ↦ rfl)
          (by simp [Quote.isEscape]) (by simp [Quote.isEscape]) s
      · rfl

theorem Closes.line (h : Closes q s n) : Closes q (firstLine s) n := by
  induction h with
  | close s escape =>
    have hbyte := isBreak_of_isStop (isStop_byte q)
    rw [← isEscape_firstLine, firstLine_cons hbyte] at escape
    rw [firstLine_cons hbyte]
    exact .close _ escape
  | content stop control _ ih =>
    rw [firstLine_cons (isBreak_of_isControl control)]
    exact .content stop control ih
  | escape escape control _ ih =>
    have hb := isBreak_of_isStop (isStop_of_isEscape escape)
    have hc := isBreak_of_isControl control
    rw [← isEscape_firstLine, firstLine_cons hb, firstLine_cons hc] at escape
    rw [firstLine_cons hb, firstLine_cons hc]
    exact .escape escape control ih

theorem Closes.of_firstLine (h : Closes q (firstLine s) n) : Closes q s n := by
  generalize hline : firstLine s = t at h
  induction h generalizing s with
  | close t escape =>
    obtain ⟨s, rfl, rfl⟩ := exists_cons_of_firstLine hline
    rw [← hline, isEscape_firstLine] at escape
    exact .close s escape
  | content stop control _ ih =>
    obtain ⟨s, rfl, hs⟩ := exists_cons_of_firstLine hline
    exact .content stop control (ih hs)
  | escape escape control _ ih =>
    rw [← hline, isEscape_firstLine] at escape
    obtain ⟨s, rfl, hs⟩ := exists_cons_of_firstLine hline
    obtain ⟨s, rfl, hrest⟩ := exists_cons_of_firstLine hs
    exact .escape escape control (ih hrest)

theorem closes_firstLine : Closes q (firstLine s) n ↔ Closes q s n := ⟨Closes.of_firstLine, Closes.line⟩

end Quoted

namespace Reading

variable {inFlow : Bool}

theorem scalar_firstLine {extent : Nat} (kind : Token) (before size : Nat)
    (h : extent ≤ (firstLine s).length) :
    scalar kind before size extent (firstLine s) = scalar kind before size extent s := by
  rw [scalar, scalar, drop_firstLine h, keyMark_firstLine]

theorem number_firstLine (hb : b.isBreak = false) : number (b :: firstLine s) = number (b :: s) := by
  have hlexeme : Number.lexeme (b :: firstLine s) = Number.lexeme (b :: s) := by
    rw [Number.lexeme, Number.lexeme, takeWhile_firstLine isBreak_of_isNumberPart]
  have hle : (Number.lexeme (b :: s)).length ≤ (firstLine (b :: s)).length := by
    rw [← hlexeme, firstLine_cons hb, Number.lexeme, List.length_cons, List.length_cons]
    exact Nat.succ_le_succ (List.takeWhile_sublist _).length_le
  rw [number, number, hlexeme, ← firstLine_cons hb, scalar_firstLine _ _ _ hle]

theorem extent_firstLine (s : List Byte) :
    Plain.extent inFlow (firstLine s) = Plain.extent inFlow s := by
  induction s with
  | nil => rfl
  | cons b s ih =>
    by_cases hb : b.isBreak = true
    · have hstops : Plain.stopsAt inFlow (b :: s) = true := by
        obtain rfl | rfl := isBreak_cases hb
        · rfl
        · rfl
      rw [firstLine_cons_of_isBreak hb, Plain.extent, Plain.extent, if_pos hstops]
    · rw [Bool.not_eq_true] at hb
      have hstops : Plain.stopsAt inFlow (b :: firstLine s) = Plain.stopsAt inFlow (b :: s) := by
        rw [Plain.stopsAt, Plain.stopsAt, atSpace_firstLine]
      rw [firstLine_cons hb, Plain.extent, Plain.extent, hstops, ih]

theorem plain_firstLine (s : List Byte) : plain inFlow (firstLine s) = plain inFlow s := by
  have hle : (Plain.extent inFlow s).length ≤ (firstLine s).length := by
    have happend : Plain.extent inFlow (firstLine s) ++
        (firstLine s).drop (Plain.extent inFlow (firstLine s)).length = firstLine s :=
      Plain.extent_append_drop
    have hlength := congrArg List.length happend
    rw [List.length_append, extent_firstLine] at hlength
    omega
  rw [plain, plain, Plain.lexeme, Plain.lexeme, extent_firstLine, scalar_firstLine _ _ _ hle]

theorem comment_firstLine (s : List Byte) : comment (firstLine s) = comment s := by
  have hextent : Comment.extent (firstLine s) = Comment.extent s := by
    rw [Comment.extent, Comment.extent, dropWhile_firstLine isBreak_of_isBlank]
    exact firstLine_firstLine _
  have hindent : Comment.indent (firstLine s) = Comment.indent s := by
    rw [Comment.indent, Comment.indent, takeWhile_firstLine isBreak_of_isBlank]
  rw [comment, comment, Comment.lexeme, Comment.lexeme, hextent, hindent]

theorem name_firstLine (token : Token) (s : List Byte) : name token (firstLine s) = name token s := by
  have hname : ∀ b : Byte, (!b.endsName) = true → b.isBreak = false := by
    intro b hb
    exact isBreak_of_class (p := (!·.endsName)) rfl rfl hb
  rw [name, name, Name.lexeme, Name.lexeme, takeWhile_firstLine hname]

def isRefused (r : Reading) : Bool :=
  match r.found with
  | .ok _ => false
  | .error _ => true

theorem isRefused_iff {r : Reading} :
    r.isRefused = true ↔ ∃ refusal, r.found = .error refusal := by
  rw [isRefused]
  rcases r.found with refusal | c
  · simp
  · simp

/-- A quoted scalar that closes is read from its line. One that does not is refused. -/
theorem quoted_firstLine (q : Quote) (s : List Byte) : quoted q (firstLine s) = quoted q s ∨
    (quoted q (firstLine s)).isRefused = true ∧ (quoted q s).isRefused = true := by
  cases hread : Quoted.read q s with
  | closed n =>
    have hcloses : Quoted.Closes q (firstLine s) n := (Quoted.read_eq_closed_iff.mp hread).line
    have hread' : Quoted.read q (firstLine s) = .closed n := Quoted.read_eq_closed_iff.mpr hcloses
    have hbyte : q.byte.isBreak = false := Quoted.isBreak_of_isStop (Quoted.isStop_byte q)
    have hle : n + 2 ≤ (firstLine (q.byte :: s)).length := by
      obtain ⟨content, rest, hline, rfl, -⟩ := hcloses.exists_append
      rw [firstLine_cons hbyte, hline]
      simp
    rw [quoted, quoted, hread, hread']
    dsimp only
    rw [← firstLine_cons hbyte, scalar_firstLine _ _ _ hle]
    exact .inl rfl
  | faulty fault extent settled =>
    refine .inr ⟨?_, by rw [quoted, hread]; rfl⟩
    cases hread' : Quoted.read q (firstLine s) with
    | closed n =>
      have hcloses := Quoted.closes_firstLine.mp (Quoted.read_eq_closed_iff.mp hread')
      rw [Quoted.read_eq_closed_iff.mpr hcloses] at hread
      cases hread
    | faulty => rw [quoted, hread']; rfl

theorem dash_firstLine (s : List Byte) :
    dash inFlow (0x2D :: firstLine s) = dash inFlow (0x2D :: s) := by
  have hmarker : isMarker 0x2D (firstLine (0x2D :: s)) = isMarker 0x2D (0x2D :: s) :=
    isMarker_firstLine rfl _
  have hplain : plain inFlow (firstLine (0x2D :: s)) = plain inFlow (0x2D :: s) := plain_firstLine _
  rw [firstLine_cons rfl] at hmarker hplain
  rw [dash, dash, hmarker, hplain, number_firstLine rfl]
  simp only [List.drop_one, List.tail_cons, atSpace_firstLine, atDigit_firstLine]

theorem point_firstLine (s : List Byte) :
    point inFlow (0x2E :: firstLine s) = point inFlow (0x2E :: s) := by
  have hmarker : isMarker 0x2E (firstLine (0x2E :: s)) = isMarker 0x2E (0x2E :: s) :=
    isMarker_firstLine rfl _
  have hplain : plain inFlow (firstLine (0x2E :: s)) = plain inFlow (0x2E :: s) := plain_firstLine _
  rw [firstLine_cons rfl] at hmarker hplain
  rw [point, point, hmarker, hplain, number_firstLine rfl]
  simp only [List.drop_one, List.tail_cons, atDigit_firstLine]

/-- A construct is read from its line, unless it is refused. -/
theorem of_firstLine (inFlow : Bool) (hb : b.isGap = false) (s : List Byte) :
    of inFlow (firstLine (b :: s)) = of inFlow (b :: s) ∨
      (of inFlow (firstLine (b :: s))).isRefused = true ∧ (of inFlow (b :: s)).isRefused = true := by
  have hbreak := isBreak_of_isGap hb
  rw [firstLine_cons hbreak, of, of]
  cases hrole : Role.of b with
  | comment => exact .inl (comment_firstLine s)
  | quote q => exact quoted_firstLine q s
  | explicitKey => exact .inl rfl
  | dash =>
    obtain rfl := Role.eq_of_byte? hrole rfl
    exact .inl (dash_firstLine s)
  | point =>
    obtain rfl := Role.eq_of_byte? hrole rfl
    exact .inl (point_firstLine s)
  | name token => exact .inl (name_firstLine token s)
  | unsupported => exact .inl rfl
  | flowStart => exact .inl rfl
  | flowEnd => exact .inl rfl
  | number => exact .inl (number_firstLine hbreak)
  | plain =>
    have hplain : plain inFlow (firstLine (b :: s)) = plain inFlow (b :: s) := plain_firstLine _
    rw [firstLine_cons hbreak] at hplain
    exact .inl hplain

/-- What stands behind a gap. -/
def Starts (s : List Byte) : Prop := ∀ b ∈ s.head?, b.isGap = false

theorem starts_dropWhile (s : List Byte) : Starts (s.dropWhile Byte.isGap) := by
  intro b hb
  have hhead := List.head?_dropWhile_not Byte.isGap s
  rw [Option.mem_def.mp hb] at hhead
  simpa using hhead

theorem of_congr_firstLine (inFlow : Bool) {t : List Byte} (hs : Starts s) (ht : Starts t)
    (h : firstLine s = firstLine t) : of inFlow s = of inFlow t ∨
      (of inFlow s).isRefused = true ∧ (of inFlow t).isRefused = true := by
  have hnil {s : List Byte} (hs : Starts s) (h : firstLine s = []) : s = [] := by
    rcases s with _ | ⟨b, s⟩
    · rfl
    · rw [firstLine_cons (isBreak_of_isGap (hs b rfl))] at h
      cases h
  rcases s with _ | ⟨b, s⟩
  · rw [hnil ht h.symm]
    exact .inl rfl
  · rcases t with _ | ⟨c, t⟩
    · rw [hnil hs h]
      exact .inl rfl
    · have hs := of_firstLine inFlow (hs b rfl) s
      have ht := of_firstLine inFlow (ht c rfl) t
      rw [h] at hs
      -- The common line is read like each of the two, unless the readings are refused.
      rcases hs with hs | hs <;> rcases ht with ht | ht
      · exact .inl (hs.symm.trans ht)
      · rw [← hs]
        exact .inr ⟨ht.1, ht.2⟩
      · rw [← ht]
        exact .inr ⟨hs.2, hs.1⟩
      · exact .inr ⟨hs.2, ht.2⟩

theorem width_le_firstLine {inFlow : Bool} {c : Construct} (hs : Starts s)
    (hfound : (of inFlow s).found = .ok c) :
    (of inFlow s).before + (of inFlow s).size ≤ (of inFlow s).width ∧
      (of inFlow s).width ≤ (firstLine s).length := by
  have hline : Starts (firstLine s) := by
    intro b hb
    rcases s with _ | ⟨d, s⟩
    · cases hb
    · have hd := hs d rfl
      rw [firstLine_cons (isBreak_of_isGap hd)] at hb
      obtain rfl : d = b := by simpa using hb
      exact hd
  have hof : of inFlow (firstLine s) = of inFlow s := by
    rcases of_congr_firstLine inFlow hline hs (firstLine_firstLine s) with hof | ⟨-, hrefused⟩
    · exact hof
    · rw [isRefused, hfound] at hrefused
      cases hrefused
  rw [← hof] at hfound ⊢
  exact (reads_of inFlow (firstLine s)).width_le

def lexemeIn (r : Reading) (s : List Byte) : List Byte := (s.drop r.before).take r.size

theorem lexemeIn_firstLine {r : Reading} (h : r.before + r.size ≤ (firstLine s).length) :
    r.lexemeIn (firstLine s) = r.lexemeIn s := by
  have hbefore : r.before ≤ (firstLine s).length := (Nat.le_add_right _ _).trans h
  have hsize : r.size ≤ (firstLine (s.drop r.before)).length := by
    rw [← drop_firstLine hbefore, List.length_drop]
    omega
  rw [lexemeIn, lexemeIn, drop_firstLine hbefore, take_firstLine hsize]

theorem lexemeIn_congr {inFlow : Bool} {c : Construct} {t : List Byte} (hs : Starts s)
    (hfound : (of inFlow s).found = .ok c) (h : firstLine s = firstLine t) :
    (of inFlow s).lexemeIn s = (of inFlow s).lexemeIn t := by
  obtain ⟨hsize, hwidth⟩ := width_le_firstLine hs hfound
  have hline := hsize.trans hwidth
  rw [← lexemeIn_firstLine hline, h, lexemeIn_firstLine (h ▸ hline)]

end Reading

end YamlLexer
