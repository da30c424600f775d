import YamlLexer.Proofs.Reading.Forms
import YamlLexer.Proofs.Reading.QuotedScalar

/-!
# The layout of a reading

A construct takes some bytes of markup, then its lexeme, then markup again. `Layout` cuts the bytes
accordingly, and `exists_layout` says that every reading that is not refused has one. In particular
no reading takes more bytes than there are, and what it drops is never content.

Where a construct has no lexeme of its own all its bytes are markup, so the cut is trivial.

Which bytes count as markup does not depend on where they stand: white space and the fifteen bytes
that have a meaning somewhere. So it is not said of each of them that it means something at its
place, only that no byte of another sort is ever outside of all lexemes. A dot is among them because
of the marker of a document end, and a quote for the two at the ends of its scalar.
-/

namespace YamlLexer

namespace Byte

/-- The bytes other than white space that may stand outside all lexemes. -/
def indicators : List Byte :=
  [0x2C, 0x3A, 0x2D, 0x2E, 0x3F, 0x23, 0x22, 0x27, 0x26, 0x2A, 0x21, 0x5B, 0x5D, 0x7B, 0x7D]

def isMarkup (b : Byte) : Bool := b.isSpace || indicators.contains b

variable {b : Byte}

theorem isMarkup_of_isSpace (h : b.isSpace = true) : b.isMarkup = true := by
  rw [isMarkup, h, Bool.true_or]

theorem isMarkup_of_isBlank (h : b.isBlank = true) : b.isMarkup = true := by
  obtain rfl | rfl : b = 0x20 ∨ b = 0x09 := by simpa [isBlank] using h
  · rfl
  · rfl

theorem isMarkup_of_isGap (h : b.isGap = true) : b.isMarkup = true := by
  rcases Bool.or_eq_true_iff.mp h with hspace | hcomma
  · exact isMarkup_of_isSpace hspace
  · obtain rfl := eq_of_beq hcomma
    rfl

end Byte

theorem all_takeWhile {p : Byte → Bool} (hp : ∀ {b : Byte}, p b = true → b.isMarkup = true)
    (s : List Byte) : (s.takeWhile p).all Byte.isMarkup = true := by
  rw [List.all_eq_true]
  intro b hb
  exact hp (List.mem_takeWhile_imp hb)

theorem all_reverse_takeWhile {p : Byte → Bool}
    (hp : ∀ {b : Byte}, p b = true → b.isMarkup = true) (s : List Byte) :
    (s.takeWhile p).reverse.all Byte.isMarkup = true := by
  rw [List.all_reverse, all_takeWhile hp]

theorem exists_trimEnd {p : Byte → Bool} (hp : ∀ {b : Byte}, p b = true → b.isMarkup = true)
    (s : List Byte) : ∃ back, s = trimEnd p s ++ back ∧ back.all Byte.isMarkup = true :=
  ⟨_, (trimEnd_append_takeWhile p s).symm, all_reverse_takeWhile hp _⟩

theorem KeyMark.exists_append (s : List Byte) :
    ∃ mark rest, s = mark ++ rest ∧ mark.length = (read s).width ∧
      mark.all Byte.isMarkup = true := by
  have hblanks := all_takeWhile Byte.isMarkup_of_isBlank s
  have happend := List.takeWhile_append_dropWhile (p := Byte.isBlank) (l := s)
  rw [read]
  split
  · rename_i hnil
    rw [hnil] at happend
    exact ⟨_, [], happend.symm, rfl, hblanks⟩
  · rename_i b rest hcons
    rw [hcons] at happend
    split
    · rename_i hkey
      obtain ⟨rfl, -⟩ := hkey
      -- One blank behind the colon belongs to the mark.
      refine ⟨s.takeWhile Byte.isBlank ++ Byte.colon :: rest.take (leadingBlank rest),
        rest.drop (leadingBlank rest), ?_, ?_, ?_⟩
      · rw [List.append_assoc, List.cons_append, List.take_append_drop, happend]
      · cases rest with
        | nil => simp [leadingBlank]
        | cons c rest =>
          by_cases hc : c.isBlank = true
          · simp [leadingBlank, hc]
          · simp [leadingBlank, hc]
      · rw [List.all_append, hblanks, Bool.true_and]
        cases rest with
        | nil => rfl
        | cons c rest =>
          by_cases hc : c.isBlank = true
          · have hmarkup := Byte.isMarkup_of_isBlank hc
            simp [leadingBlank, hc, hmarkup]
            rfl
          · simp [leadingBlank, hc]
            rfl
    · exact ⟨_, b :: rest, happend.symm, rfl, hblanks⟩

namespace Reading

/-- A reading of the bytes, cut into markup, the lexeme, more markup, and what is behind it. -/
structure Layout (r : Reading) (s front lexeme back rest : List Byte) : Prop where
  bytes : s = front ++ (lexeme ++ (back ++ rest))
  before : r.before = front.length
  size : r.size = lexeme.length
  width : r.width = front.length + lexeme.length + back.length
  front_markup : front.all Byte.isMarkup = true
  back_markup : back.all Byte.isMarkup = true

theorem Layout.width_le {r : Reading} {s front lexeme back rest : List Byte}
    (h : Layout r s front lexeme back rest) :
    r.before + r.size ≤ r.width ∧ r.width ≤ s.length := by
  have hlength := congrArg List.length h.bytes
  simp only [List.length_append] at hlength
  rw [h.before, h.size, h.width]
  omega

theorem layout_markup {found : Except Refusal Construct} (back rest : List Byte)
    (h : back.all Byte.isMarkup = true) :
    Layout { found := found, width := back.length } (back ++ rest) [] [] back rest :=
  ⟨rfl, rfl, rfl, by simp, rfl, h⟩

theorem exists_layout_scalar (kind : Token) {s front lexeme back rest : List Byte}
    (bytes : s = front ++ (lexeme ++ (back ++ rest))) (hfront : front.all Byte.isMarkup = true)
    (hback : back.all Byte.isMarkup = true) :
    ∃ mark rest, Layout (scalar kind front.length lexeme.length
      (front.length + lexeme.length + back.length) s) s front lexeme (back ++ mark) rest := by
  obtain ⟨mark, rest', rfl, hlength, hmark⟩ := KeyMark.exists_append rest
  have hdrop : s.drop (front.length + lexeme.length + back.length) = mark ++ rest' := by
    rw [bytes, ← List.append_assoc, ← List.append_assoc, ← List.length_append,
      ← List.length_append, List.drop_left]
  refine ⟨mark, rest', ?_, rfl, rfl, ?_, hfront, ?_⟩
  · rw [bytes, List.append_assoc back]
  · rw [scalar, hdrop, List.length_append, hlength, Nat.add_assoc]
  · rw [List.all_append, hback, hmark, Bool.and_self]

theorem exists_layout_number (b : Byte) (s : List Byte) :
    ∃ back rest, Layout (number (b :: s)) (b :: s) [] (Number.lexeme (b :: s)) back rest := by
  have bytes : b :: s =
      [] ++ (Number.lexeme (b :: s) ++ ([] ++ s.dropWhile Byte.isNumberPart)) := by
    rw [List.nil_append, List.nil_append, Number.lexeme, List.cons_append,
      List.takeWhile_append_dropWhile]
  obtain ⟨mark, rest, h⟩ := exists_layout_scalar (Number.kind (Number.lexeme (b :: s)))
    bytes rfl rfl
  exact ⟨mark, rest, by simpa [number] using h⟩

theorem exists_layout_plain (inFlow : Bool) (s : List Byte) :
    ∃ back rest, Layout (plain inFlow s) s [] (Plain.lexeme inFlow s) back rest := by
  obtain ⟨blanks, hextent, hblanks⟩ :=
    exists_trimEnd Byte.isMarkup_of_isBlank (Plain.extent inFlow s)
  have bytes : s = [] ++ (Plain.lexeme inFlow s ++
      (blanks ++ s.drop (Plain.extent inFlow s).length)) := by
    rw [List.nil_append, ← List.append_assoc, Plain.lexeme, ← hextent, Plain.extent_append_drop]
  have hlength : (Plain.extent inFlow s).length =
      (Plain.lexeme inFlow s).length + blanks.length := by
    rw [Plain.lexeme, ← List.length_append, ← hextent]
  obtain ⟨mark, rest, h⟩ := exists_layout_scalar .text bytes rfl hblanks
  rw [List.length_nil, Nat.zero_add, ← hlength] at h
  exact ⟨blanks ++ mark, rest, h⟩

theorem exists_layout_quoted {q : Quote} {s : List Byte} {c : Construct}
    (h : (quoted q s).found = .ok c) :
    ∃ lexeme back rest, Layout (quoted q s) (q.byte :: s) [q.byte] lexeme back rest := by
  have hquote : [q.byte].all Byte.isMarkup = true := by
    cases q <;> rfl
  rw [quoted] at h ⊢
  split at h
  · rename_i size hread
    obtain ⟨lexeme, rest, rfl, rfl, -⟩ := (Quoted.read_eq_closed_iff.mp hread).exists_append
    have bytes : q.byte :: (lexeme ++ q.byte :: rest) =
      [q.byte] ++ (lexeme ++ ([q.byte] ++ rest)) := rfl
    obtain ⟨mark, rest, h⟩ := exists_layout_scalar .text bytes hquote hquote
    refine ⟨lexeme, [q.byte] ++ mark, rest, ?_⟩
    rwa [List.length_singleton, Nat.add_comm 1, Nat.add_assoc] at h
  · cases h

theorem exists_layout_comment (s : List Byte) :
    ∃ front back rest, Layout (comment s) (0x23 :: s) front (Comment.lexeme s) back rest := by
  obtain ⟨spaces, hextent, hspaces⟩ :=
    exists_trimEnd Byte.isMarkup_of_isSpace (Comment.extent s)
  have hblanks := all_takeWhile Byte.isMarkup_of_isBlank s
  refine ⟨0x23 :: s.takeWhile Byte.isBlank, spaces,
    (s.dropWhile Byte.isBlank).dropWhile (!·.isBreak), ?_, ?_, rfl, ?_, ?_, hspaces⟩
  · rw [← List.append_assoc (Comment.lexeme s), Comment.lexeme, ← hextent, Comment.extent,
      List.takeWhile_append_dropWhile, List.cons_append, List.takeWhile_append_dropWhile]
  · rw [List.length_cons, Nat.add_comm]
    rfl
  · have hlength : (Comment.extent s).length = (Comment.lexeme s).length + spaces.length := by
      rw [Comment.lexeme, ← List.length_append, ← hextent]
    change 1 + Comment.indent s + (Comment.extent s).length = _
    rw [hlength, Comment.indent, List.length_cons]
    omega
  · rw [List.all_cons, hblanks, Bool.and_true]
    rfl

/-- Bytes announce a construct, or begin a scalar, or are refused. -/
theorem isMarkup_or_role (b : Byte) : b.isMarkup = true ∨ Role.of b = .number ∨
    Role.of b = .plain ∨ ∃ u, Role.of b = .unsupported u := by
  unfold Role.of
  split <;> try exact .inl rfl
  all_goals simp
  split
  · simp
  · simp

theorem isMarkup_of_role_name {b : Byte} {token : Token} (h : Role.of b = .name token) :
    b.isMarkup = true := by
  simpa [h] using isMarkup_or_role b

theorem exists_layout_name {b : Byte} {token : Token} (s : List Byte)
    (role : Role.of b = .name token) :
    ∃ rest, Layout (name token s) (b :: s) [b] (Name.lexeme s) [] rest := by
  have hb : [b].all Byte.isMarkup = true := by
    rw [List.all_cons, isMarkup_of_role_name role, List.all_nil, Bool.and_self]
  refine ⟨s.dropWhile (!·.endsName), ?_, rfl, rfl, rfl, hb, rfl⟩
  rw [Name.lexeme, List.nil_append, List.takeWhile_append_dropWhile, List.singleton_append]

/-- Every reading has a layout, if it is not refused. -/
theorem exists_layout {inFlow : Bool} {s : List Byte} {r : Reading} {c : Construct}
    (h : Reads inFlow s r) (hfound : r.found = .ok c) :
    ∃ front lexeme back rest, Layout r s front lexeme back rest := by
  have hbracket {b : Byte} {s : List Byte} {found : Except Refusal Construct}
      (hb : b.isMarkup = true) : Layout { found := found } (b :: s) [] [] [b] s :=
    layout_markup [b] s (by rw [List.all_cons, hb, List.all_nil, Bool.and_self])
  cases h with
  | streamEnd => exact ⟨[], [], [], [], layout_markup [] [] rfl⟩
  | comment s =>
    obtain ⟨front, back, rest, h⟩ := exists_layout_comment s
    exact ⟨front, _, back, rest, h⟩
  | quoted q s =>
    obtain ⟨lexeme, back, rest, h⟩ := exists_layout_quoted hfound
    exact ⟨_, lexeme, back, rest, h⟩
  | explicitKey s => exact ⟨[], [], [_], s, hbracket rfl⟩
  | entry s => exact ⟨[], [], [_], s, hbracket rfl⟩
  | documentStart s => exact ⟨[], [], [_, _, _], s, layout_markup [_, _, _] s rfl⟩
  | documentEnd s => exact ⟨[], [], [_, _, _], s, layout_markup [_, _, _] s rfl⟩
  | name s role =>
    obtain ⟨rest, h⟩ := exists_layout_name s role
    exact ⟨_, _, [], rest, h⟩
  | unsupported s => cases hfound
  | @flowStart b shape s role =>
    have hb : b.isMarkup = true := by simpa [role] using isMarkup_or_role b
    exact ⟨[], [], [b], s, hbracket hb⟩
  | @flowEnd b shape s role =>
    have hb : b.isMarkup = true := by simpa [role] using isMarkup_or_role b
    exact ⟨[], [], [b], s, hbracket hb⟩
  | number s =>
    obtain ⟨back, rest, h⟩ := exists_layout_number _ s
    exact ⟨[], _, back, rest, h⟩
  | plain s =>
    obtain ⟨back, rest, h⟩ := exists_layout_plain inFlow (_ :: s)
    exact ⟨[], _, back, rest, h⟩

/-- The lexeme is in what is taken, and that is there. This holds of a refused construct too, which
has no layout. -/
theorem Reads.width_le {inFlow : Bool} {s : List Byte} {r : Reading} (h : Reads inFlow s r) :
    r.before + r.size ≤ r.width ∧ r.width ≤ s.length := by
  rcases hfound : r.found with refusal | c
  · obtain ⟨hbefore, -⟩ := h.of_refused hfound
    rw [hbefore, h.size_of_refused hfound]
    refine ⟨Nat.zero_le _, ?_⟩
    rcases h with _ | _ | ⟨q, s⟩ | _ | _ | _ | _ | _ | s | _ | _ | _ | _
    case quoted =>
      rw [Reading.quoted] at hfound ⊢
      split at hfound
      · cases hfound
      · rename_i hread
        exact Nat.succ_le_succ (Quoted.settled_le hread)
    case unsupported => exact Nat.le_add_left 1 s.length
    all_goals cases hfound
  · obtain ⟨front, lexeme, back, rest, hlayout⟩ := exists_layout h hfound
    exact hlayout.width_le

end Reading

end YamlLexer
