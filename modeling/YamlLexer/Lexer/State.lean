import YamlLexer.Cursor
import YamlLexer.Gap
import YamlLexer.Nesting.Stack

/-!
# The lexer

A lexer turns bytes into tokens, one pull at a time. A pull delivers the token that is next in
line; when none is, the construct that stands next is read, and the tokens it becomes are lined
up. The lexeme and the place in the input are those of the construct read last, also while its
tokens are still being delivered.

An error is final. Every later pull answers with the same error, whatever was done in between.
-/

namespace YamlLexer

/-- The state of a lexer. -/
structure Lexer where
  /-- The input, and how far it has been read. -/
  cursor : Cursor
  /-- The number of the line that the last construct is on. -/
  line : Nat
  /-- The offset at which that line starts. -/
  lineStart : Nat
  /-- The lexeme of the last construct. If it has none, the span is empty, and at its start. -/
  lexeme : Span
  /-- The open structures, after the last construct. -/
  stack : Stack := {}
  /-- Tokens that are next in line. -/
  pending : List Token := []
  /-- The token delivered last. -/
  last : Token := .nothing
  /-- The error that ended the stream. -/
  failure : Option LexError := none
deriving DecidableEq, Repr

namespace Lexer

/-- A lexer of what is unread under a cursor. Lines are counted from there. -/
def ofCursor (c : Cursor) : Lexer where
  cursor := c
  line := 0
  lineStart := c.offset
  lexeme := ⟨c.offset, c.offset⟩

def ofBytes (bytes : List Byte) : Lexer := ofCursor (Cursor.ofBytes bytes)

instance : Inhabited Lexer := ⟨ofBytes []⟩

/-! ## Looking at the state -/

/-- The place of the next byte, before the gap in front of the next construct. -/
def place (l : Lexer) : Place := ⟨l.cursor.offset, l.line, l.lineStart⟩

/-- The mark at which the last construct stands: at its lexeme, if it has one. -/
def mark (l : Lexer) : Mark :=
  ⟨l.lexeme.start, l.line, l.lexeme.start - l.lineStart⟩

/-- The kind of the innermost open structure. -/
def context (l : Lexer) : Token := l.stack.kind

def depth (l : Lexer) : Nat := l.stack.depth

/-- The rank of the innermost open structure. -/
def indent (l : Lexer) : Nat := l.stack.indent

def inFlow (l : Lexer) : Bool := l.stack.inFlow

/-- Whether a token can be delivered without reading on. -/
def hasPending (l : Lexer) : Bool := !l.pending.isEmpty

/-- The text of the token delivered last, empty if it has no lexeme. Quoted scalars come without
their quotes, and with escapes as written. -/
def text (l : Lexer) : Except LexError String :=
  if l.last.hasLexeme && !l.lexeme.isEmpty then l.cursor.sliceText l.lexeme else .ok ""

/-! ## Interfering -/

/-- Makes a token the next one to be delivered. -/
def push (l : Lexer) (token : Token) : Lexer := { l with pending := token :: l.pending }

/-- Overrides the kind of the innermost open structure. -/
def setContext (l : Lexer) (kind : Token) : Lexer := { l with stack := l.stack.setKind kind }

end Lexer

end YamlLexer
