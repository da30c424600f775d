import YamlLexer.Token

/-!
# Shapes of collections

A collection is a mapping or a sequence, whether its extent shows by indentation or by brackets.
The tokens it needs depend on its shape alone.

What can be said of both shapes at once is said of a shape, here and everywhere else, so that no
rule is written down twice, once for each.
-/

namespace YamlLexer

/-- What a collection is made of: keys with values, or entries. -/
inductive Shape where
  | mapping
  | sequence
deriving DecidableEq, Repr

namespace Shape

/-- The token that opens a collection. -/
def startToken : Shape → Token
  | mapping => .mappingStart
  | sequence => .sequenceStart

/-- The token that announces one more key or entry. -/
def entryToken : Shape → Token
  | mapping => .mappingKey
  | sequence => .sequenceEntry

/-- The token that closes a collection. -/
def endToken : Shape → Token
  | mapping => .mappingEnd
  | sequence => .sequenceEnd

/-- The bracket that closes a flow collection. -/
def closer : Shape → Char
  | mapping => '\x7d'
  | sequence => ']'

theorem closing?_startToken (s : Shape) : s.startToken.closing? = some s.endToken := by
  cases s <;> rfl

theorem startToken_injective {s t : Shape} (h : s.startToken = t.startToken) : s = t := by
  cases s <;> cases t <;> simp_all [startToken]

theorem startToken_ne_nothing (s : Shape) : s.startToken ≠ .nothing := by
  cases s <;> decide

end Shape

end YamlLexer
