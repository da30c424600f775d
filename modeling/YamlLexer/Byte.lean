/-!
# Byte classes

The lexer reads bytes, not characters: every byte it acts on is ASCII, and the bytes of a longer
UTF-8 sequence are all ordinary content. Each class below is a decidable set of bytes; together
they are the whole alphabet of the lexical rules.

The classes overlap on purpose. A comma is passed between constructs, yet where white space is asked
for it does not count; and a control byte separates constructs like a space does, while a quoted
scalar may not hold one.
-/

namespace YamlLexer

abbrev Byte := UInt8

namespace Byte

/-- The colon, which marks keys. -/
abbrev colon : Byte := 0x3A

/-- The comma, which separates the entries of a flow collection. -/
abbrev comma : Byte := 0x2C

/-- Every byte up to and including the space separates constructs, control bytes among them. -/
def isSpace (b : Byte) : Bool := b ≤ 0x20

/-- Space and tab, which may stand inside a line. -/
def isBlank (b : Byte) : Bool := b == 0x20 || b == 0x09

/-- Line feed and carriage return. -/
def isBreak (b : Byte) : Bool := b == 0x0A || b == 0x0D

/-- Bytes below the space, which a quoted scalar may not hold. -/
def isControl (b : Byte) : Bool := b < 0x20

/-- Space and commas: what may stand between two constructs. A comma separates the entries of a
flow collection, and elsewhere it is inert. -/
def isGap (b : Byte) : Bool := b.isSpace || b == comma

def isDigit (b : Byte) : Bool := 0x30 ≤ b && b ≤ 0x39

/-- Bytes that make a number a decimal one: the point and the exponent letters. -/
def isDecimalMark (b : Byte) : Bool := b == 0x2E || b == 0x65 || b == 0x45

/-- Bytes that continue a number: digits, grouping underscores, minus signs and decimal marks. -/
def isNumberPart (b : Byte) : Bool :=
  b.isDigit || b == 0x5F || b == 0x2D || b.isDecimalMark

/-- The four brackets that open or close a flow collection. -/
def isBracket (b : Byte) : Bool := b == 0x5B || b == 0x5D || b == 0x7B || b == 0x7D

/-- Bytes that end a plain scalar wherever it stands: brackets, the comment sign, line breaks. -/
def endsPlain (b : Byte) : Bool := b.isBracket || b == 0x23 || b.isBreak

/-- Bytes that end the name of an anchor, an alias or a tag. -/
def endsName (b : Byte) : Bool := b.isSpace || b == comma || b.isBracket

end Byte

/-- Whether white space or the end of the input comes next. -/
def atSpace : List Byte → Bool
  | [] => true
  | b :: _ => b.isSpace

/-- The bytes without the longest run at their end in which every byte satisfies `p`. -/
def trimEnd (p : Byte → Bool) (bytes : List Byte) : List Byte :=
  (bytes.reverse.dropWhile p).reverse

/-- Nothing is lost by trimming but bytes that satisfy `p`. -/
theorem trimEnd_append_takeWhile (p : Byte → Bool) (bytes : List Byte) :
    trimEnd p bytes ++ (bytes.reverse.takeWhile p).reverse = bytes := by
  rw [trimEnd, ← List.reverse_append, List.takeWhile_append_dropWhile, List.reverse_reverse]

theorem length_trimEnd_le (p : Byte → Bool) (bytes : List Byte) :
    (trimEnd p bytes).length ≤ bytes.length := by
  have h := congrArg List.length (trimEnd_append_takeWhile p bytes)
  rw [List.length_append] at h
  omega

theorem drop_length_takeWhile {α : Type} (p : α → Bool) (xs : List α) :
    xs.drop (xs.takeWhile p).length = xs.dropWhile p := by
  induction xs with
  | nil => rfl
  | cons x xs ih =>
    rw [List.takeWhile_cons, List.dropWhile_cons]
    split
    · exact ih
    · rfl

end YamlLexer
