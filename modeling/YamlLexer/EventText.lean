import YamlLexer.Lexer.TokenStream

/-!
# Event text

The events of a stream as text, a line for each: the code of the token, and behind a space the
lexeme if the token has one. Every line starts with the line break that separates it from the one
before. The last line stands for the end of the stream, or for the error that ended it.
-/

namespace YamlLexer.EventText

def line (item : Token × String) : String :=
  if item.1.hasLexeme then "\n" ++ item.1.code ++ " " ++ item.2 else "\n" ++ item.1.code

def lastLine (t : Transcript) : String :=
  if t.failure.isSome then "\nERR" else "\n" ++ Token.nothing.code

def ofTranscript (t : Transcript) : String :=
  String.join (t.items.map line) ++ lastLine t

/-- The text of all that a lexer has still to deliver. -/
def ofLexer (l : Lexer) : String := ofTranscript l.transcript.1

def ofBytes (bytes : List Byte) : String := ofLexer (Lexer.ofBytes bytes)

end YamlLexer.EventText
