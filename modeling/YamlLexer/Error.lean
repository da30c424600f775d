import YamlLexer.Mark
import YamlLexer.Token
import YamlLexer.Text.CharLiteral

/-!
# Errors

An error is a cause with its place. The wording is in `LexError.message` and nowhere else.

A lexer can fail for a scalar that is malformed, a closing bracket without a partner, a structure
that cannot be closed, and for what is recognised and not supported. Text that cannot be decoded is
the one error that is not the lexer's own, and the only one that has no mark but just its bytes.
-/

namespace YamlLexer

/-- Why a quoted scalar was rejected. -/
inductive ScalarFault where
  /-- A raw byte below the space stands between the quotes. -/
  | controlByte (byte : UInt8)
  /-- The input ends before the closing quote. -/
  | unterminated
deriving DecidableEq, Repr

def ScalarFault.describe : ScalarFault → String
  | controlByte b => s!"ControlByte({b.toNat})"
  | unterminated => "Unterminated"

/-- The constructs that are recognised and refused. -/
inductive Unsupported where
  /-- A literal block scalar, after a vertical bar. -/
  | literalScalar
  /-- A folded block scalar, after a greater sign. -/
  | foldedScalar
  /-- A directive, after a percent sign. -/
  | directive
  /-- A reserved indicator. -/
  | reserved (indicator : Char)
deriving DecidableEq, Repr

namespace Unsupported

/-- The token that the construct would be delivered as. -/
def token : Unsupported → Token
  | literalScalar | foldedScalar => .text
  | directive => .directive
  | reserved _ => .reserved

def describe : Unsupported → String
  | literalScalar => "LiteralScalar"
  | foldedScalar => "FoldedScalar"
  | directive => "Directive"
  | reserved c => "Reserved(" ++ Text.charLiteral c ++ ")"

end Unsupported

/-- Why a token cannot be delivered, or why its text cannot. -/
inductive LexError where
  /-- A quoted scalar holds a control byte or is not closed. -/
  | malformedScalar (span : Span) (mark : Mark) (fault : ScalarFault)
  /-- A flow collection is closed, and no collection of its shape is open. -/
  | unbalancedCloser (found : Char) (mark : Mark)
  /-- A structure to be closed has a kind that nothing closes. -/
  | invalidContext (kind : Token) (mark : Mark)
  /-- A construct that the lexer recognises and refuses. -/
  | unsupported (construct : Unsupported) (mark : Mark)
  /-- The bytes of a lexeme are not UTF-8. -/
  | undecodable (span : Span)
deriving DecidableEq, Repr

namespace LexError

def mark? : LexError → Option Mark
  | malformedScalar _ m _ | unbalancedCloser _ m | invalidContext _ m | unsupported _ m => some m
  | undecodable _ => none

def message : LexError → String
  | malformedScalar s m f =>
    s!"malformed quoted scalar at {m.describe} (bytes {s.describe}): {f.describe}"
  | unbalancedCloser c m => s!"unexpected `{c}` at {m.describe}, no matching collection is open"
  | invalidContext k m => s!"invalid context {k.name} at {m.describe}"
  | unsupported u m => s!"{u.describe} at {m.describe} is not supported"
  | undecodable s => s!"bytes {s.describe} are not valid UTF-8"

end LexError

end YamlLexer
