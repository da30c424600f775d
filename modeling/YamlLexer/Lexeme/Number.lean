import YamlLexer.Byte
import YamlLexer.Token

/-!
# Numbers

A number is recognised by its first byte, a sign, a point or a digit, and then takes everything
that can stand in one. What it takes need not be a number in any stricter sense: `1-2` and `1.e.`
are numbers here, and telling them apart is left to whoever reads the text.
-/

namespace YamlLexer.Number

/-- The bytes of a number: the first one, whatever it is, and all that continue it. -/
def lexeme : List Byte → List Byte
  | [] => []
  | b :: s => b :: s.takeWhile Byte.isNumberPart

/-- A number is decimal if there is a point or an exponent letter in it. -/
def kind (lexeme : List Byte) : Token :=
  if lexeme.any Byte.isDecimalMark then .decimal else .integer

theorem kind_eq_decimal_iff {lexeme : List Byte} :
    kind lexeme = .decimal ↔ ∃ b ∈ lexeme, b.isDecimalMark = true := by
  simp [kind]

theorem kind_eq_integer_iff {lexeme : List Byte} :
    kind lexeme = .integer ↔ ∀ b ∈ lexeme, b.isDecimalMark = false := by
  simp [kind]

end YamlLexer.Number
