import YamlLexer.Proofs.Encoding
import YamlLexer.Proofs.Reading.Line

/-!
# Readings cut no character

The bytes that a reading goes by are ASCII, so every cut it makes has one of them in front of it or
behind it. That is plain for markup. A lexeme may begin and end with any character, but is ended by
a byte that is ASCII, unless it is a number and all its bytes are. Even the byte behind a backslash
is passed with the rest of its character, because no byte of that is a quote.
-/

namespace YamlLexer

namespace Byte

variable {b : Byte}

theorem isAscii_of_isSpace (h : b.isSpace = true) : b.isAscii = true := by
  have hle : b ≤ 0x20 := of_decide_eq_true h
  exact decide_eq_true (UInt8.lt_of_le_of_lt hle (by decide))

theorem isAscii_of_isMarkup (h : b.isMarkup = true) : b.isAscii = true := by
  rcases Bool.or_eq_true_iff.mp h with hspace | hindicator
  · exact isAscii_of_isSpace hspace
  · have hall : indicators.all isAscii = true := rfl
    exact List.all_eq_true.mp hall b (List.contains_iff_mem.mp hindicator)

theorem isAscii_of_isDigit (h : b.isDigit = true) : b.isAscii = true := by
  have hle : b ≤ 0x39 := of_decide_eq_true (Bool.and_eq_true_iff.mp h).2
  exact decide_eq_true (UInt8.lt_of_le_of_lt hle (by decide))

theorem isAscii_of_isNumberPart (h : b.isNumberPart = true) : b.isAscii = true := by
  rw [isNumberPart, isDecimalMark] at h
  simp only [Bool.or_eq_true, beq_iff_eq] at h
  rcases h with ((hdigit | rfl) | rfl) | (rfl | rfl) | rfl
  · exact isAscii_of_isDigit hdigit
  all_goals rfl

theorem isMarkup_of_isBracket (h : b.isBracket = true) : b.isMarkup = true := by
  rw [isBracket] at h
  simp only [Bool.or_eq_true, beq_iff_eq] at h
  rcases h with ((rfl | rfl) | rfl) | rfl <;> rfl

theorem isMarkup_of_isBreak (h : b.isBreak = true) : b.isMarkup = true := by
  obtain rfl | rfl := isBreak_cases h
  · rfl
  · rfl

theorem isMarkup_of_endsName (h : b.endsName = true) : b.isMarkup = true := by
  rcases Bool.or_eq_true_iff.mp h with hgap | hbracket
  · exact isMarkup_of_isGap hgap
  · exact isMarkup_of_isBracket hbracket

theorem isMarkup_of_endsPlain (h : b.endsPlain = true) : b.isMarkup = true := by
  rw [endsPlain] at h
  simp only [Bool.or_eq_true, beq_iff_eq] at h
  rcases h with (hbracket | rfl) | hbreak
  · exact isMarkup_of_isBracket hbracket
  · rfl
  · exact isMarkup_of_isBreak hbreak

end Byte

namespace Quote

theorem isAscii_byte (q : Quote) : q.byte.isAscii = true := by
  cases q <;> rfl

end Quote

variable {inFlow : Bool} {b : Byte} {s : List Byte}

theorem IsText.tail (h : IsText (b :: s)) (hb : b.isAscii = true) : IsText s :=
  (isText_of_isAscii (s := [b]) (by simpa using hb)).of_append h

/-!
## Lexemes

For each sort of lexeme there are two ways to see that it is a text. Either it stops at ASCII bytes
and at nothing else, or it takes nothing else; and trimming takes off ASCII bytes only.
-/

theorem Comment.isText_lexeme (h : IsText s) : IsText (lexeme s) := by
  have hblanks : IsText (s.dropWhile Byte.isBlank) :=
    h.dropWhile fun b hb ↦ Byte.isAscii_of_isMarkup (Byte.isMarkup_of_isBlank hb)
  have hextent : IsText (extent s) := by
    refine (hblanks.takeWhile_dropWhile fun b hb ↦ ?_).1
    exact Byte.isAscii_of_isMarkup (Byte.isMarkup_of_isBreak (by simpa using hb))
  exact hextent.trimEnd fun b hb ↦ Byte.isAscii_of_isSpace hb

theorem Name.isText_lexeme (h : IsText s) : IsText (lexeme s) := by
  refine (h.takeWhile_dropWhile fun b hb ↦ ?_).1
  exact Byte.isAscii_of_isMarkup (Byte.isMarkup_of_endsName (by simpa using hb))

theorem Number.isText_lexeme (hb : b.isAscii = true) : IsText (lexeme (b :: s)) := by
  refine isText_of_isAscii (List.forall_mem_cons.mpr ⟨hb, fun c hc ↦ ?_⟩)
  exact Byte.isAscii_of_isNumberPart (List.mem_takeWhile_imp hc)

theorem Plain.isMarkup_of_stopsAt (h : stopsAt inFlow (b :: s) = true) : b.isMarkup = true := by
  rw [stopsAt] at h
  split at h
  · subst ‹b = _›
    rfl
  · split at h
    · subst ‹b = _›
      rfl
    · exact Byte.isMarkup_of_endsPlain h

theorem Plain.isText_lexeme (h : IsText s) : IsText (lexeme inFlow s) := by
  have happend : extent inFlow s ++ s.drop (extent inFlow s).length = s := extent_append_drop
  have hstop : stopsAt inFlow (s.drop (extent inFlow s).length) = true := stopsAt_drop_extent
  rw [← happend] at h
  refine IsText.trimEnd (h.cut_of_isAscii fun b hb ↦ ?_).1 fun b hb ↦
    Byte.isAscii_of_isMarkup (Byte.isMarkup_of_isBlank hb)
  obtain ⟨rest, hrest⟩ := List.head?_eq_some_iff.mp hb
  rw [hrest] at hstop
  exact Byte.isAscii_of_isMarkup (isMarkup_of_stopsAt hstop)

theorem Quoted.isText_take {q : Quote} {size : Nat} (h : IsText s) (hread : read q s = .closed size) :
    IsText (s.take size) := by
  obtain ⟨content, rest, rfl, rfl, -⟩ := (read_eq_closed_iff.mp hread).exists_append
  rw [List.take_left]
  refine (h.cut_of_isAscii fun b hb ↦ ?_).1
  cases hb
  exact q.isAscii_byte

namespace Reading

theorem Layout.lexemeIn_eq {r : Reading} {front lexeme back rest : List Byte}
    (h : Layout r s front lexeme back rest) : r.lexemeIn s = lexeme := by
  rw [lexemeIn, h.before, h.size, h.bytes, List.drop_left, List.take_left]

theorem isAscii_of_role_number (h : Role.of b = .number) : b.isAscii = true := by
  rcases eq_plus_or_isDigit h with rfl | hdigit
  · rfl
  · exact Byte.isAscii_of_isDigit hdigit

theorem Reads.isText_lexemeIn {r : Reading} {c : Construct} (h : Reads inFlow s r)
    (hfound : r.found = .ok c) (hs : IsText s) : IsText (r.lexemeIn s) := by
  cases h with
  | streamEnd | explicitKey | entry | documentStart | documentEnd | flowStart | flowEnd =>
    exact isText_nil
  | unsupported => cases hfound
  | comment s =>
    obtain ⟨front, back, rest, hlayout⟩ := exists_layout_comment s
    rw [hlayout.lexemeIn_eq]
    exact Comment.isText_lexeme (hs.tail rfl)
  | quoted q s =>
    rw [Reading.quoted] at hfound ⊢
    split at hfound
    · rename_i size hread
      exact Quoted.isText_take (hs.tail q.isAscii_byte) hread
    · cases hfound
  | name s role =>
    obtain ⟨rest, hlayout⟩ := exists_layout_name s role
    rw [hlayout.lexemeIn_eq]
    exact Name.isText_lexeme (hs.tail (Byte.isAscii_of_isMarkup (isMarkup_of_role_name role)))
  | number s start =>
    -- No byte needs to be behind a number to end it, so its own bytes are looked at.
    obtain ⟨back, rest, hlayout⟩ := exists_layout_number _ s
    rw [hlayout.lexemeIn_eq]
    refine Number.isText_lexeme ?_
    rcases start with role | ⟨rfl | rfl, -⟩
    · exact isAscii_of_role_number role
    · rfl
    · rfl
  | plain s =>
    obtain ⟨back, rest, hlayout⟩ := exists_layout_plain inFlow (_ :: s)
    rw [hlayout.lexemeIn_eq]
    exact Plain.isText_lexeme hs

theorem isText_of_markup (h : s.all Byte.isMarkup = true) : IsText s :=
  isText_of_isAscii fun b hb ↦ Byte.isAscii_of_isMarkup (List.all_eq_true.mp h b hb)

/-- A text is cut between two characters in front of the lexeme, behind it, and behind all that is
taken. -/
theorem Reads.isBoundary {r : Reading} {c : Construct} (h : Reads inFlow s r)
    (hfound : r.found = .ok c) (hs : IsText s) :
    IsBoundary s r.before ∧ IsBoundary s (r.before + r.size) ∧ IsBoundary s r.width := by
  obtain ⟨front, lexeme, back, rest, hlayout⟩ := exists_layout h hfound
  -- Markup and lexeme are texts on their own, so what is behind them is one too.
  have hlexeme := h.isText_lexemeIn hfound hs
  have hfront := isText_of_markup hlayout.front_markup
  have hback := isText_of_markup hlayout.back_markup
  rw [hlayout.lexemeIn_eq] at hlexeme
  rw [hlayout.before, hlayout.size, hlayout.width]
  obtain rfl := hlayout.bytes
  have hbehind : IsText (lexeme ++ (back ++ rest)) := hfront.of_append hs
  have hrest : IsText (back ++ rest) := hlexeme.of_append hbehind
  refine ⟨.of_append hfront hbehind, ?_, ?_⟩
  · rw [← List.append_assoc, ← List.length_append]
    exact .of_append (hfront.append hlexeme) hrest
  · rw [← List.append_assoc, ← List.append_assoc, ← List.length_append, ← List.length_append]
    exact .of_append ((hfront.append hlexeme).append hback) (hback.of_append hrest)

end Reading

end YamlLexer
