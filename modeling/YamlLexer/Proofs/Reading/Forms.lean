import YamlLexer.Proofs.Nesting.Announce
import YamlLexer.Reading

/-!
# The forms of a reading

`Reading.of` decides by the first byte, and by the next ones where that is a dash or a point. Here
the outcome is turned around: `Reading.Reads` lists the readings there are, each with the bytes it
is of. A fact about all readings is proved by one case for each form, and a form carries what its
bytes are known to be, so the decision is not made again.

There are thirteen forms. A number may begin with a dash or a point that has a digit behind it, and
a plain scalar with one that nothing else could be made of; of the latter the form says no more than
which of the bytes it is. Of quotes there is one form for both.
-/

namespace YamlLexer.Reading

/-- The readings of bytes. -/
inductive Reads (inFlow : Bool) : List Byte → Reading → Prop
  | streamEnd : Reads inFlow [] { found := .ok .streamEnd, width := 0 }
  | comment (s : List Byte) : Reads inFlow (0x23 :: s) (comment s)
  | quoted (q : Quote) (s : List Byte) : Reads inFlow (q.byte :: s) (quoted q s)
  | explicitKey (s : List Byte) : Reads inFlow (0x3F :: s) { found := .ok (.single .mappingKey) }
  | entry (s : List Byte) (space : atSpace s = true) :
      Reads inFlow (0x2D :: s) { found := .ok .entry }
  | documentStart (s : List Byte) (space : atSpace s = true) :
      Reads inFlow (0x2D :: 0x2D :: 0x2D :: s) { found := .ok .documentStart, width := 3 }
  | documentEnd (s : List Byte) (space : atSpace s = true) :
      Reads inFlow (0x2E :: 0x2E :: 0x2E :: s) { found := .ok .documentEnd, width := 3 }
  | name {b : Byte} {token : Token} (s : List Byte) (role : Role.of b = .name token) :
      Reads inFlow (b :: s) (name token s)
  | unsupported {b : Byte} {u : Unsupported} (s : List Byte) (role : Role.of b = .unsupported u) :
      Reads inFlow (b :: s) { found := .error (.unsupported u) }
  | flowStart {b : Byte} {shape : Shape} (s : List Byte) (role : Role.of b = .flowStart shape) :
      Reads inFlow (b :: s) { found := .ok (.flowStart shape) }
  | flowEnd {b : Byte} {shape : Shape} (s : List Byte) (role : Role.of b = .flowEnd shape) :
      Reads inFlow (b :: s) { found := .ok (.flowEnd shape) }
  | number {b : Byte} (s : List Byte)
      (start : Role.of b = .number ∨ (b = 0x2D ∨ b = 0x2E) ∧ atDigit s = true) :
      Reads inFlow (b :: s) (number (b :: s))
  | plain {b : Byte} (s : List Byte) (start : Role.of b = .plain ∨ b = 0x2D ∨ b = 0x2E) :
      Reads inFlow (b :: s) (plain inFlow (b :: s))

theorem isMarker_iff {b : Byte} {s : List Byte} :
    isMarker b s = true ↔ ∃ rest, s = b :: b :: b :: rest ∧ atSpace rest = true := by
  constructor
  · intro h
    obtain ⟨hthree, hspace⟩ := Bool.and_eq_true_iff.mp h
    rcases s with _ | ⟨c, _ | ⟨d, _ | ⟨e, rest⟩⟩⟩
    · simp at hthree
    · simp at hthree
    · simp at hthree
    · obtain ⟨rfl, rfl, rfl⟩ : c = b ∧ d = b ∧ e = b := by simpa using hthree
      exact ⟨rest, rfl, hspace⟩
  · rintro ⟨rest, rfl, hspace⟩
    simpa [isMarker] using hspace

variable {inFlow : Bool} {s : List Byte}

theorem reads_dash : Reads inFlow (0x2D :: s) (dash inFlow (0x2D :: s)) := by
  rw [dash]
  split
  · exact .entry s ‹_›
  · split
    · rename_i hmarker
      obtain ⟨rest, hs, hspace⟩ := isMarker_iff.mp hmarker
      obtain rfl := (List.cons_eq_cons.mp hs).2
      exact .documentStart rest hspace
    · split
      · exact .number s (.inr ⟨.inl rfl, ‹_›⟩)
      · exact .plain s (.inr (.inl rfl))

theorem reads_point : Reads inFlow (0x2E :: s) (point inFlow (0x2E :: s)) := by
  rw [point]
  split
  · rename_i hmarker
    obtain ⟨rest, hs, hspace⟩ := isMarker_iff.mp hmarker
    obtain rfl := (List.cons_eq_cons.mp hs).2
    exact .documentEnd rest hspace
  · split
    · exact .number s (.inr ⟨.inr rfl, ‹_›⟩)
    · exact .plain s (.inr (.inr rfl))

/-- Every reading has one of the forms. -/
theorem reads_of (inFlow : Bool) (s : List Byte) : Reads inFlow s (of inFlow s) := by
  cases s with
  | nil => exact .streamEnd
  | cons b s =>
    rw [of]
    split
    · obtain rfl := Role.eq_of_byte? ‹_› rfl
      exact .comment s
    · obtain rfl := Role.eq_of_byte? ‹_› rfl
      exact .quoted _ s
    · obtain rfl := Role.eq_of_byte? ‹_› rfl
      exact .explicitKey s
    · obtain rfl := Role.eq_of_byte? ‹_› rfl
      exact reads_dash
    · obtain rfl := Role.eq_of_byte? ‹_› rfl
      exact reads_point
    · exact .name s ‹_›
    · exact .unsupported s ‹_›
    · exact .flowStart s ‹_›
    · exact .flowEnd s ‹_›
    · exact .number s (.inl ‹_›)
    · exact .plain s (.inl ‹_›)

theorem of_quote (inFlow : Bool) (q : Quote) (s : List Byte) :
    of inFlow (q.byte :: s) = quoted q s := by
  cases q <;> rfl

theorem found_quoted {q : Quote} {c : Construct} (h : (quoted q s).found = .ok c) :
    ∃ isKey, c = .scalar .text isKey := by
  rw [quoted] at h
  split at h
  · cases h
    exact ⟨_, rfl⟩
  · cases h

theorem Reads.isMarker {r : Reading} (h : Reads inFlow s r) (hfound : r.found = .ok .documentEnd) :
    isMarker 0x2E s = true := by
  cases h with
  | documentEnd s space => exact isMarker_iff.mpr ⟨s, rfl, space⟩
  | quoted q s =>
    obtain ⟨isKey, hc⟩ := found_quoted hfound
    cases hc
  | _ => cases hfound

theorem Reads.eq_nil {r : Reading} (h : Reads inFlow s r) (hfound : r.found = .ok .streamEnd) :
    s = [] := by
  cases h with
  | streamEnd => rfl
  | quoted q s =>
    obtain ⟨isKey, hc⟩ := found_quoted hfound
    cases hc
  | _ => cases hfound

theorem eq_plus_or_isDigit {b : Byte} (h : Role.of b = .number) : b = 0x2B ∨ b.isDigit = true := by
  unfold Role.of at h
  split at h
  case h_19 => exact .inl rfl
  case h_20 =>
    split at h
    · exact .inr ‹_›
    · cases h
  all_goals cases h

/-!
## Own tokens

A construct that is read may have a token of its own, and this token has a lexeme unless it is that
of an explicit key. The forms tell which lexeme, and how much of it there is.
-/

theorem hasLexeme_of_role_name {b : Byte} {token : Token} (h : Role.of b = .name token) :
    token.hasLexeme = true := by
  unfold Role.of at h
  split at h
  case h_20 => split at h <;> cases h
  all_goals cases h <;> rfl

theorem hasLexeme_kind (lexeme : List Byte) : (Number.kind lexeme).hasLexeme = true := by
  rw [Number.kind]
  split
  · rfl
  · rfl

/-- The token of a construct has a lexeme, but for an explicit key indicator. -/
theorem Reads.hasLexeme {r : Reading} {c : Construct} {token : Token} (h : Reads inFlow s r)
    (hfound : r.found = .ok c) (hown : c.own? = some token) :
    token.hasLexeme = true ∨ token = .mappingKey ∧ r.size = 0 := by
  cases h with
  | streamEnd | entry | documentStart | documentEnd | flowStart | flowEnd =>
    cases hfound
    cases hown
  | unsupported => cases hfound
  | comment =>
    cases hfound
    cases hown
    exact .inl rfl
  | quoted q s =>
    obtain ⟨isKey, rfl⟩ := found_quoted hfound
    cases hown
    exact .inl rfl
  | explicitKey =>
    cases hfound
    cases hown
    exact .inr ⟨rfl, rfl⟩
  | name s role =>
    cases hfound
    cases hown
    exact .inl (hasLexeme_of_role_name role)
  | number =>
    cases hfound
    cases hown
    exact .inl (hasLexeme_kind _)
  | plain =>
    cases hfound
    cases hown
    exact .inl rfl

theorem Reads.hasLexeme_scalar {r : Reading} {kind : Token} {isKey : Bool}
    (h : Reads inFlow s r) (hfound : r.found = .ok (.scalar kind isKey)) :
    kind.hasLexeme = true := by
  rcases h with _ | _ | ⟨q, s⟩ | _ | _ | _ | _ | _ | _ | _ | _ | _ | _
  case quoted =>
    obtain ⟨isKey, hc⟩ := found_quoted hfound
    cases hc
    rfl
  case number =>
    cases hfound
    exact hasLexeme_kind _
  case plain =>
    cases hfound
    rfl
  all_goals cases hfound

/-!
## First bytes

Conversely, some constructs are known by their first byte: a closing bracket, a quote, and all that
is refused.
-/

/-- Only quotes and reserved indicators begin what is refused, and that has no lexeme. -/
theorem Reads.of_refused {r : Reading} {refusal : Refusal} (h : Reads inFlow s r)
    (hfound : r.found = .error refusal) : r.before = 0 ∧
      ((∃ fault extent, refusal = .malformed fault extent ∧ ∃ q : Quote, s.head? = some q.byte) ∨
        ∃ u, refusal = .unsupported u ∧ ∃ b, s.head? = some b ∧ Role.of b = .unsupported u) := by
  rcases h with _ | _ | ⟨q, s⟩ | _ | _ | _ | _ | _ | ⟨s, role⟩ | _ | _ | _ | _
  case quoted =>
    rw [Reading.quoted] at hfound ⊢
    split at hfound
    · cases hfound
    · cases hfound
      exact ⟨rfl, .inl ⟨_, _, rfl, q, rfl⟩⟩
  case unsupported =>
    cases hfound
    exact ⟨rfl, .inr ⟨_, rfl, _, rfl, role⟩⟩
  all_goals cases hfound

theorem Reads.size_of_refused {r : Reading} {refusal : Refusal} (h : Reads inFlow s r)
    (hfound : r.found = .error refusal) : r.size = 0 := by
  rcases h with _ | _ | ⟨q, s⟩ | _ | _ | _ | _ | _ | _ | _ | _ | _ | _
  case quoted =>
    rw [Reading.quoted] at hfound ⊢
    split at hfound
    · cases hfound
    · rfl
  case unsupported => rfl
  all_goals cases hfound

theorem Reads.of_flowEnd {r : Reading} {shape : Shape} (h : Reads inFlow s r)
    (hfound : r.found = .ok (.flowEnd shape)) :
    r.before = 0 ∧ ∃ b, s.head? = some b ∧ Role.of b = .flowEnd shape := by
  rcases h with _ | _ | ⟨q, s⟩ | _ | _ | _ | _ | _ | _ | _ | ⟨s, role⟩ | _ | _
  case quoted =>
    obtain ⟨isKey, hc⟩ := found_quoted hfound
    cases hc
  case flowEnd =>
    cases hfound
    exact ⟨rfl, _, rfl, role⟩
  all_goals cases hfound

theorem Reads.size_eq_zero {r : Reading} {c : Construct} (h : Reads inFlow s r)
    (hfound : r.found = .ok c) (hown : c.own? = none) : r.size = 0 := by
  cases h with
  | streamEnd | entry | documentStart | documentEnd | flowStart | flowEnd => rfl
  | unsupported => cases hfound
  | quoted q s =>
    obtain ⟨isKey, rfl⟩ := found_quoted hfound
    cases hown
  | comment | explicitKey | name | number | plain =>
    cases hfound
    cases hown

end YamlLexer.Reading
