import YamlLexer.Proofs.Reading.Forms
import YamlLexer.Proofs.Reading.QuotedScalar

/-!
# How far a reading looks ahead

A construct is read from the bytes that it takes and two more: what is right behind it, and one byte
behind that. So bytes that agree that far are read alike (`of_agreeOn`), whatever comes then, and it
makes no difference either whether anything comes.

Both of the two are needed. The first may be a colon, and whether it marks a key depends on the
second.

## Markers

A marker is looked for four bytes deep, also where none is found and less is read. What saves the
bound is that three bytes of a marker are always taken: by the marker itself, or by a plain scalar
that begins with them. So a construct that takes less does not begin with three of them, and that
shows within the bytes it is read from (`isMarker_agreeOn`).
-/

namespace YamlLexer

/-- Bytes of which the first `n` are the same, and that end together if they end there. -/
inductive AgreeOn : Nat → List Byte → List Byte → Prop
  | zero (s t : List Byte) : AgreeOn 0 s t
  | nil (n : Nat) : AgreeOn n [] []
  | cons (b : Byte) {n : Nat} {s t : List Byte} (h : AgreeOn n s t) :
      AgreeOn (n + 1) (b :: s) (b :: t)

variable {n m k : Nat} {b : Byte} {s t : List Byte} {p : Byte → Bool}

namespace AgreeOn

theorem of_take (h : s.take n = t.take n) : AgreeOn n s t := by
  induction n generalizing s t with
  | zero => exact .zero s t
  | succ n ih =>
    rcases s with _ | ⟨b, s⟩ <;> rcases t with _ | ⟨c, t⟩
    · exact .nil _
    · cases h
    · cases h
    · rw [List.take_succ_cons, List.take_succ_cons] at h
      obtain ⟨rfl, hrest⟩ := List.cons_eq_cons.mp h
      exact .cons b (ih hrest)

theorem take (h : AgreeOn n s t) : t.take n = s.take n := by
  induction h with
  | zero => rfl
  | nil => rfl
  | cons b _ ih => rw [List.take_succ_cons, List.take_succ_cons, ih]

theorem tail (h : AgreeOn (n + 1) (b :: s) (b :: t)) : AgreeOn n s t := by
  rcases h with _ | _ | ⟨_, h⟩
  exact h

theorem mono (h : AgreeOn n s t) (hm : m ≤ n) : AgreeOn m s t := by
  induction h generalizing m with
  | zero =>
    obtain rfl := Nat.le_zero.mp hm
    exact .zero _ _
  | nil => exact .nil m
  | cons b _ ih =>
    rcases m with _ | m
    · exact .zero _ _
    · exact .cons b (ih (Nat.le_of_succ_le_succ hm))

theorem drop (h : AgreeOn (k + n) s t) : AgreeOn n (s.drop k) (t.drop k) := by
  induction k generalizing s t with
  | zero => simpa using h
  | succ k ih =>
    rw [Nat.add_right_comm] at h
    rcases h with _ | _ | ⟨b, h⟩
    · exact .nil n
    · exact ih h

theorem apply {β : Type} {f : List Byte → β} (hhead : ∀ b s t, f (b :: s) = f (b :: t))
    (h : AgreeOn (n + 1) s t) : f t = f s := by
  rcases h with _ | _ | ⟨b, h⟩
  · rfl
  · exact hhead b _ _

theorem atSpace (h : AgreeOn (n + 1) s t) : atSpace t = atSpace s := h.apply fun _ _ _ ↦ rfl

theorem atDigit (h : AgreeOn (n + 1) s t) : Reading.atDigit t = Reading.atDigit s :=
  h.apply fun _ _ _ ↦ rfl

/-- Maximal munch looks one byte further than it goes. -/
theorem takeWhile (h : AgreeOn n s t) (hn : (s.takeWhile p).length < n) :
    t.takeWhile p = s.takeWhile p := by
  induction h with
  | zero => exact absurd hn (Nat.not_lt_zero _)
  | nil => rfl
  | cons b _ ih =>
    by_cases hb : p b = true
    · rw [List.takeWhile_cons_of_pos hb] at hn ⊢
      rw [List.takeWhile_cons_of_pos hb, ih (Nat.lt_of_succ_lt_succ hn)]
    · rw [List.takeWhile_cons_of_neg hb, List.takeWhile_cons_of_neg hb]

theorem dropWhile (h : AgreeOn ((s.takeWhile p).length + n) s t) (hn : 0 < n) :
    AgreeOn n (s.dropWhile p) (t.dropWhile p) := by
  have hmunch := h.takeWhile (p := p) (by omega)
  rw [← drop_length_takeWhile, ← drop_length_takeWhile, hmunch]
  exact h.drop

end AgreeOn

/-! ## Key marks -/

theorem KeyMark.length_takeWhile_le_width (s : List Byte) :
    (s.takeWhile Byte.isBlank).length ≤ (read s).width := by
  rw [read]
  split
  · exact Nat.le_refl _
  · split
    · dsimp only
      omega
    · exact Nat.le_refl _

theorem KeyMark.read_agreeOn (h : AgreeOn ((read s).width + 2) s t) : read t = read s := by
  have hwidth := length_takeWhile_le_width s
  have hblanks := h.takeWhile (p := Byte.isBlank) (by omega)
  have hrest : AgreeOn 2 (s.dropWhile Byte.isBlank) (t.dropWhile Byte.isBlank) :=
    AgreeOn.dropWhile (h.mono (by omega)) (by omega)
  rw [read, read, hblanks]
  generalize s.dropWhile Byte.isBlank = u, t.dropWhile Byte.isBlank = v at hrest
  rcases hrest with _ | _ | ⟨b, hrest⟩
  · rfl
  · have hblank : leadingBlank _ = leadingBlank _ := hrest.apply fun _ _ _ ↦ rfl
    simp only [hrest.atSpace, hblank]

namespace Reading

variable {inFlow : Bool}

/-! ## Scalars -/

theorem scalar_agreeOn {kind : Token} {before size extent : Nat}
    (h : AgreeOn ((scalar kind before size extent s).width + 2) s t) :
    scalar kind before size extent t = scalar kind before size extent s := by
  have hmark : KeyMark.read (t.drop extent) = KeyMark.read (s.drop extent) := by
    refine KeyMark.read_agreeOn (AgreeOn.drop ?_)
    rwa [← Nat.add_assoc]
  rw [scalar, scalar, hmark]

theorem extent_le_width (kind : Token) (before size extent : Nat) (s : List Byte) :
    extent ≤ (scalar kind before size extent s).width := Nat.le_add_right _ _

theorem number_agreeOn (h : AgreeOn ((number (b :: s)).width + 2) (b :: s) (b :: t)) :
    number (b :: t) = number (b :: s) := by
  have hwidth : (Number.lexeme (b :: s)).length ≤ (number (b :: s)).width :=
    extent_le_width _ _ _ _ _
  have hlexeme : Number.lexeme (b :: t) = Number.lexeme (b :: s) := by
    rw [Number.lexeme, List.length_cons] at hwidth
    rw [Number.lexeme, Number.lexeme, h.tail.takeWhile (by omega)]
  rw [number, number, hlexeme]
  exact scalar_agreeOn h

theorem stopsAt_agreeOn (h : AgreeOn (n + 2) s t) :
    Plain.stopsAt inFlow t = Plain.stopsAt inFlow s := by
  rcases h with _ | _ | ⟨b, h⟩
  · rfl
  · rw [Plain.stopsAt, Plain.stopsAt, h.atSpace]

theorem extent_agreeOn (h : AgreeOn n s t) (hn : (Plain.extent inFlow s).length + 2 ≤ n) :
    Plain.extent inFlow t = Plain.extent inFlow s := by
  induction h with
  | zero => exact absurd hn (Nat.not_succ_le_zero _)
  | nil => rfl
  | @cons b n s t h ih =>
    have hstops : Plain.stopsAt inFlow (b :: t) = Plain.stopsAt inFlow (b :: s) :=
      stopsAt_agreeOn ((AgreeOn.cons b h).mono (by omega : 0 + 2 ≤ n + 1))
    rw [Plain.extent] at hn
    rw [Plain.extent, Plain.extent, hstops]
    split at hn
    · rename_i hstop
      rw [if_pos hstop, if_pos hstop]
    · rename_i hstop
      rw [List.length_cons] at hn
      rw [if_neg hstop, if_neg hstop, ih (by omega)]

theorem plain_agreeOn (h : AgreeOn ((plain inFlow s).width + 2) s t) :
    plain inFlow t = plain inFlow s := by
  have hwidth : (Plain.extent inFlow s).length ≤ (plain inFlow s).width :=
    extent_le_width _ _ _ _ _
  have hextent : Plain.extent inFlow t = Plain.extent inFlow s :=
    extent_agreeOn h (by omega)
  rw [plain, plain, Plain.lexeme, Plain.lexeme, hextent]
  exact scalar_agreeOn h

/-! ## Quoted scalars -/

theorem isEscape_agreeOn {q : Quote} (h : AgreeOn (n + 2) s t) : q.isEscape t = q.isEscape s := by
  rcases q with _ | _
  · rw [Quote.isEscape, Quote.isEscape, (h.mono (Nat.le_add_left 2 n)).take]
  · exact h.apply fun _ _ _ ↦ rfl

theorem closes_agreeOn {q : Quote} (hcloses : Quoted.Closes q s n) (h : AgreeOn (n + 2) s t) :
    Quoted.Closes q t n := by
  induction hcloses generalizing t with
  | close s escape =>
    rw [← isEscape_agreeOn h] at escape
    rcases h with _ | _ | ⟨_, h⟩
    exact .close _ escape
  | content stop control _ ih =>
    rcases h with _ | _ | ⟨_, h⟩
    exact .content stop control (ih h)
  | escape escape control _ ih =>
    rw [← isEscape_agreeOn h] at escape
    rcases h with _ | _ | ⟨_, _ | _ | ⟨_, h⟩⟩
    exact .escape escape control (ih h)

theorem quoted_agreeOn {q : Quote} {c : Construct} (hfound : (quoted q s).found = .ok c)
    (h : AgreeOn ((quoted q s).width + 2) (q.byte :: s) (q.byte :: t)) :
    quoted q t = quoted q s := by
  rcases hread : Quoted.read q s with size | ⟨fault, extent, settled⟩
  · have hquoted : quoted q s = scalar .text 1 size (size + 2) (q.byte :: s) := by
      rw [quoted, hread]
    have hwidth := extent_le_width .text 1 size (size + 2) (q.byte :: s)
    rw [hquoted] at h
    have hread' : Quoted.read q t = .closed size :=
      Quoted.read_eq_closed_iff.mpr
        (closes_agreeOn (Quoted.read_eq_closed_iff.mp hread) (h.tail.mono (by omega)))
    rw [hquoted, quoted, hread']
    exact scalar_agreeOn h
  · rw [quoted, hread] at hfound
    cases hfound

/-! ## Comments and names -/

theorem comment_agreeOn (h : AgreeOn ((comment s).width + 2) (b :: s) (b :: t)) :
    comment t = comment s := by
  have hwidth : (comment s).width = 1 + Comment.indent s + (Comment.extent s).length := rfl
  have hindent : Comment.indent t = Comment.indent s := by
    rw [Comment.indent] at hwidth
    rw [Comment.indent, Comment.indent, h.tail.takeWhile (by omega)]
  have hextent : Comment.extent t = Comment.extent s := by
    rw [Comment.indent] at hwidth
    have hrest : AgreeOn ((Comment.extent s).length + 1) (s.dropWhile Byte.isBlank)
        (t.dropWhile Byte.isBlank) :=
      AgreeOn.dropWhile (h.tail.mono (by omega)) (Nat.succ_pos _)
    exact hrest.takeWhile (Nat.lt_succ_self _)
  rw [comment, comment, Comment.lexeme, Comment.lexeme, hindent, hextent]

theorem name_agreeOn {token : Token} (h : AgreeOn ((name token s).width + 2) (b :: s) (b :: t)) :
    name token t = name token s := by
  have hwidth : (name token s).width = 1 + (Name.lexeme s).length := rfl
  have hlexeme : Name.lexeme t = Name.lexeme s := by
    rw [Name.lexeme] at hwidth
    exact h.tail.takeWhile (by omega)
  rw [name, name, hlexeme]

/-! ## Markers -/

/-- If the bytes of a marker are taken where three of them stand, it shows whether there is one. -/
theorem isMarker_agreeOn (h : AgreeOn (n + 2) s t) (hn : 0 < n)
    (hthree : ∀ rest, s = b :: b :: b :: rest → 3 ≤ n) : isMarker b t = isMarker b s := by
  have htake : t.take 3 = s.take 3 := (h.mono (by omega)).take
  rw [isMarker, isMarker, htake]
  by_cases hbytes : s.take 3 = [b, b, b]
  · have hs : s = b :: b :: b :: s.drop 3 := by
      calc s = s.take 3 ++ s.drop 3 := (List.take_append_drop 3 s).symm
        _ = b :: b :: b :: s.drop 3 := by rw [hbytes]; rfl
    have hthree := hthree _ hs
    have hrest : AgreeOn 2 (s.drop 3) (t.drop 3) := AgreeOn.drop (h.mono (by omega))
    rw [hrest.atSpace]
  · rw [beq_eq_false_iff_ne.mpr hbytes]
    rfl

theorem three_le_width_plain (hb : ∀ s, Plain.stopsAt inFlow (b :: s) = false) (s : List Byte) :
    3 ≤ (plain inFlow (b :: b :: b :: s)).width := by
  have hextent : Plain.extent inFlow (b :: b :: b :: s) = b :: b :: b :: Plain.extent inFlow s := by
    simp [Plain.extent, hb]
  have hwidth : (Plain.extent inFlow (b :: b :: b :: s)).length ≤
      (plain inFlow (b :: b :: b :: s)).width := extent_le_width _ _ _ _ _
  rw [hextent] at hwidth
  simp only [List.length_cons] at hwidth
  omega

theorem three_le_width_dash (s : List Byte) :
    3 ≤ (dash inFlow (0x2D :: 0x2D :: 0x2D :: s)).width := by
  have hdash : dash inFlow (0x2D :: 0x2D :: 0x2D :: s) =
      if isMarker 0x2D (0x2D :: 0x2D :: 0x2D :: s) then { found := .ok .documentStart, width := 3 }
      else plain inFlow (0x2D :: 0x2D :: 0x2D :: s) := rfl
  rw [hdash]
  split
  · exact Nat.le_refl 3
  · exact three_le_width_plain (fun _ ↦ rfl) s

theorem three_le_width_point (s : List Byte) :
    3 ≤ (point inFlow (0x2E :: 0x2E :: 0x2E :: s)).width := by
  have hpoint : point inFlow (0x2E :: 0x2E :: 0x2E :: s) =
      if isMarker 0x2E (0x2E :: 0x2E :: 0x2E :: s) then { found := .ok .documentEnd, width := 3 }
      else plain inFlow (0x2E :: 0x2E :: 0x2E :: s) := rfl
  rw [hpoint]
  split
  · exact Nat.le_refl 3
  · exact three_le_width_plain (fun _ ↦ rfl) s

theorem number_or_plain_agreeOn
    (h : AgreeOn ((if atDigit s then number (b :: s) else plain inFlow (b :: s)).width + 2)
      (b :: s) (b :: t)) :
    (if atDigit t then number (b :: t) else plain inFlow (b :: t)) =
      if atDigit s then number (b :: s) else plain inFlow (b :: s) := by
  rw [h.tail.atDigit]
  split at h
  · rename_i hdigit
    rw [if_pos hdigit, if_pos hdigit, number_agreeOn h]
  · rename_i hdigit
    rw [if_neg hdigit, if_neg hdigit, plain_agreeOn h]

theorem dash_agreeOn (h : AgreeOn ((dash inFlow (0x2D :: s)).width + 2) (0x2D :: s) (0x2D :: t)) :
    dash inFlow (0x2D :: t) = dash inFlow (0x2D :: s) := by
  have hspace : YamlLexer.atSpace ((0x2D :: t).drop 1) = YamlLexer.atSpace ((0x2D :: s).drop 1) :=
    h.tail.atSpace
  have hpos : 0 < (of inFlow (0x2D :: s)).width := width_pos rfl
  have hmarker : isMarker 0x2D (0x2D :: t) = isMarker 0x2D (0x2D :: s) := by
    refine isMarker_agreeOn h hpos ?_
    intro rest hs
    rw [hs]
    exact three_le_width_dash rest
  rw [dash] at h
  rw [dash, dash, hspace, hmarker]
  split at h
  · rename_i hentry
    rw [if_pos hentry, if_pos hentry]
  · rename_i hentry
    rw [if_neg hentry, if_neg hentry]
    split at h
    · rename_i hstart
      rw [if_pos hstart, if_pos hstart]
    · rename_i hstart
      rw [if_neg hstart, if_neg hstart]
      exact number_or_plain_agreeOn h

theorem point_agreeOn
    (h : AgreeOn ((point inFlow (0x2E :: s)).width + 2) (0x2E :: s) (0x2E :: t)) :
    point inFlow (0x2E :: t) = point inFlow (0x2E :: s) := by
  have hpos : 0 < (of inFlow (0x2E :: s)).width := width_pos rfl
  have hmarker : isMarker 0x2E (0x2E :: t) = isMarker 0x2E (0x2E :: s) := by
    refine isMarker_agreeOn h hpos ?_
    intro rest hs
    rw [hs]
    exact three_le_width_point rest
  rw [point] at h
  rw [point, point, hmarker]
  split at h
  · rename_i hend
    rw [if_pos hend, if_pos hend]
  · rename_i hend
    rw [if_neg hend, if_neg hend]
    exact number_or_plain_agreeOn h

/-! ## Constructs -/

/-- A construct that is not refused is read from the bytes that it takes and the two behind them. -/
theorem of_agreeOn {c : Construct} (hfound : (of inFlow s).found = .ok c)
    (h : AgreeOn ((of inFlow s).width + 2) s t) : of inFlow t = of inFlow s := by
  have hsucc := h.mono (Nat.le_add_left 1 ((of inFlow s).width + 1))
  -- Both are empty, or they begin with the same byte and hence with the same role.
  rcases hsucc with _ | _ | ⟨b, hsucc⟩
  · rfl
  · rename_i s t
    rw [of] at hfound h
    rw [of, of]
    cases hrole : Role.of b with
    | explicitKey => rfl
    | unsupported => rfl
    | flowStart => rfl
    | flowEnd => rfl
    | comment =>
      rw [hrole] at h
      exact comment_agreeOn h
    | quote q =>
      obtain rfl := Role.eq_of_byte? hrole rfl
      rw [hrole] at h hfound
      exact quoted_agreeOn hfound h
    | dash =>
      obtain rfl := Role.eq_of_byte? hrole rfl
      exact dash_agreeOn h
    | point =>
      obtain rfl := Role.eq_of_byte? hrole rfl
      exact point_agreeOn h
    | name =>
      rw [hrole] at h
      exact name_agreeOn h
    | number =>
      rw [hrole] at h
      exact number_agreeOn h
    | plain =>
      rw [hrole] at h
      exact plain_agreeOn h

/-- Both bytes are needed: a number is followed by a colon, and then it is a key or not. -/
example : (of false [0x31, 0x3A, 0x61]).width = 1 ∧
    (of false [0x31, 0x3A, 0x61]).found ≠ (of false [0x31, 0x3A, 0x20]).found := by decide

end Reading

end YamlLexer
