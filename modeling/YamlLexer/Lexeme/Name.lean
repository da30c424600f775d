import YamlLexer.Byte

/-!
# Names and comments

The lexemes of anchors, aliases, tags and comments. They stand behind an indicator, and no key
mark is looked for after them.

A name ends where white space, a comma or a bracket comes; a comment goes on to the end of its line,
and gives up the white space at both ends. Either may be empty.
-/

namespace YamlLexer

/-- The name of an anchor, an alias or a tag: up to white space, a comma or a bracket. -/
def Name.lexeme (s : List Byte) : List Byte := s.takeWhile (!·.endsName)

namespace Comment

/-- The blanks between the comment sign and the text of the comment. -/
def indent (s : List Byte) : Nat := (s.takeWhile Byte.isBlank).length

/-- What follows the blanks, up to the line break. -/
def extent (s : List Byte) : List Byte := (s.dropWhile Byte.isBlank).takeWhile (!·.isBreak)

/-- The text of a comment, without white space at either end. -/
def lexeme (s : List Byte) : List Byte := trimEnd Byte.isSpace (extent s)

end Comment

end YamlLexer
