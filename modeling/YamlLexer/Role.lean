import YamlLexer.Byte
import YamlLexer.Construct
import YamlLexer.Lexeme.Quoted

/-!
# The role of the first byte

The first byte of a construct nearly decides which construct it is. Bytes that announce nothing in
particular begin a plain scalar.

Two bytes leave more than one reading open: a dash may begin an entry, a marker, a number or a text,
and a point all of these but the first.
-/

namespace YamlLexer

/-- What the first byte of a construct announces. A dash and a point leave several readings open,
and what follows them decides. -/
inductive Role where
  | comment
  | quote (q : Quote)
  | explicitKey
  | dash
  | point
  | name (token : Token)
  | unsupported (construct : Unsupported)
  | flowStart (shape : Shape)
  | flowEnd (shape : Shape)
  | number
  | plain
deriving DecidableEq, Repr

/-- The role of a byte at the start of a construct. -/
def Role.of (b : Byte) : Role :=
  match b with
  | 0x23 => .comment
  | 0x22 => .quote .double
  | 0x27 => .quote .single
  | 0x3F => .explicitKey
  | 0x2D => .dash
  | 0x2E => .point
  | 0x26 => .name .anchor
  | 0x2A => .name .reference
  | 0x21 => .name .tag
  | 0x7C => .unsupported .literalScalar
  | 0x3E => .unsupported .foldedScalar
  | 0x25 => .unsupported .directive
  | 0x40 => .unsupported (.reserved '@')
  | 0x60 => .unsupported (.reserved '\x60')
  | 0x7B => .flowStart .mapping
  | 0x5B => .flowStart .sequence
  | 0x7D => .flowEnd .mapping
  | 0x5D => .flowEnd .sequence
  | 0x2B => .number
  | _ => if b.isDigit then .number else .plain

namespace Role

/-- The byte of a role that only one byte has. -/
def byte? : Role → Option Byte
  | .comment => some 0x23
  | .quote q => some q.byte
  | .explicitKey => some 0x3F
  | .dash => some 0x2D
  | .point => some 0x2E
  | _ => none

theorem eq_of_byte? {b c : Byte} {r : Role} (h : of b = r) (hbyte : r.byte? = some c) :
    b = c := by
  subst h
  unfold of at hbyte
  split at hbyte
  case h_20 => split at hbyte <;> cases hbyte
  all_goals cases hbyte <;> rfl

/-- A byte that starts a plain scalar does not end one, unless it belongs to a gap. -/
theorem endsPlain_of_plain {b : Byte} (h : of b = .plain) (hb : b.isGap = false) :
    b.endsPlain = false := by
  refine Bool.eq_false_iff.mpr fun he ↦ ?_
  simp only [Byte.endsPlain, Byte.isBracket, Byte.isBreak, Bool.or_eq_true, beq_iff_eq] at he
  rcases he with ((((rfl | rfl) | rfl) | rfl) | rfl) | (rfl | rfl) <;>
    revert h hb <;> decide

end Role

end YamlLexer
