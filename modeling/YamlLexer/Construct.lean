import YamlLexer.Error
import YamlLexer.Shape

/-!
# Constructs

What the lexer can find in the input, between two gaps. A construct is what the bytes say before
their position is taken into account: a dash is an entry wherever it stands, and which structures
it ends or begins is settled by `Stack.apply`.

A scalar is known to be a key before anything is done about it, since that is a matter of the bytes
behind it. What is refused is no construct: a `Refusal` takes its place, and says why.
-/

namespace YamlLexer

/-- What may stand in the input. -/
inductive Construct where
  /-- A token that affects no structure: a comment, a name, an explicit key indicator. -/
  | single (token : Token)
  /-- A scalar of the given kind. If it is a key, it is an entry of a mapping. -/
  | scalar (kind : Token) (isKey : Bool)
  /-- A dash that makes an entry of a sequence. -/
  | entry
  | flowStart (shape : Shape)
  | flowEnd (shape : Shape)
  | documentStart
  | documentEnd
  | streamEnd
deriving DecidableEq, Repr

/-- Why a construct is refused on its own account. -/
inductive Refusal where
  | unsupported (construct : Unsupported)
  /-- A malformed quoted scalar, and how many bytes it takes to show that, the quote included. -/
  | malformed (fault : ScalarFault) (extent : Nat)
deriving DecidableEq, Repr

end YamlLexer
