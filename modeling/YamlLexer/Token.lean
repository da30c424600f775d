/-!
# Tokens

A token carries no payload. Tokens with a lexeme get their text from the byte range that the lexer
holds while they are current; the others mark structure.

The same type names the kinds of open structures: a structure is known by the token that opened
it, and a stack without structures has the kind `nothing`.
-/

namespace YamlLexer

/-- The closed vocabulary of tokens. -/
inductive Token where
  /-- A comment, up to the end of its line. -/
  | comment
  /-- The tag of the node that follows. -/
  | tag
  /-- A directive line. It is recognised and refused, so no scan produces it. -/
  | directive
  /-- The start of a document, written or implied. -/
  | directivesEnd
  /-- The end of a document, written or implied. -/
  | documentEnd
  /-- The start of a mapping. -/
  | mappingStart
  /-- Announces that the next scalar is a key. -/
  | mappingKey
  /-- The end of a mapping. -/
  | mappingEnd
  /-- The start of a sequence. -/
  | sequenceStart
  /-- The end of a sequence. -/
  | sequenceEnd
  /-- An entry of a sequence. -/
  | sequenceEntry
  /-- A number without fraction or exponent. -/
  | integer
  /-- A number with a point or an exponent. -/
  | decimal
  /-- A plain or quoted scalar. -/
  | text
  /-- The name given to the node that follows. -/
  | anchor
  /-- An alias, which stands for the node that was given the name. -/
  | reference
  /-- A reserved indicator. It is recognised and refused, so no scan produces it. -/
  | reserved
  /-- No token: what an exhausted stream delivers, and the kind of a stack with nothing open. -/
  | nothing
deriving DecidableEq, Repr

namespace Token

instance : Inhabited Token := ⟨nothing⟩

/-- The four-character code of a token in event text. -/
def code : Token → String
  | comment => "=COM"
  | tag => "=TAG"
  | directive => "=DIR"
  | directivesEnd => "+DOC"
  | documentEnd => "-DOC"
  | mappingStart => "+MAP"
  | mappingKey => "?KEY"
  | mappingEnd => "-MAP"
  | sequenceStart => "+SEQ"
  | sequenceEnd => "-SEQ"
  | sequenceEntry => "?ENT"
  | integer => "=INT"
  | decimal => "=DEC"
  | text => "=TXT"
  | anchor => "=ANC"
  | reference => "=ALI"
  | reserved => "=RES"
  | nothing => "-STR"

/-- The name of a token in messages. -/
def name : Token → String
  | comment => "Comment"
  | tag => "Tag"
  | directive => "Directive"
  | directivesEnd => "DirectivesEnd"
  | documentEnd => "DocumentEnd"
  | mappingStart => "MappingStart"
  | mappingKey => "MappingKey"
  | mappingEnd => "MappingEnd"
  | sequenceStart => "SequenceStart"
  | sequenceEnd => "SequenceEnd"
  | sequenceEntry => "SequenceEntry"
  | integer => "Integer"
  | decimal => "Decimal"
  | text => "Text"
  | anchor => "Anchor"
  | reference => "Alias"
  | reserved => "Reserved"
  | nothing => "None"

/-- Every token, in the order of the vocabulary. -/
def all : List Token :=
  [comment, tag, directive, directivesEnd, documentEnd, mappingStart, mappingKey, mappingEnd,
    sequenceStart, sequenceEnd, sequenceEntry, integer, decimal, text, anchor, reference,
    reserved, nothing]

def ofName? (s : String) : Option Token := all.find? fun t ↦ t.name == s

def ofCode? (s : String) : Option Token := all.find? fun t ↦ t.code == s

theorem ofCode?_code (t : Token) : ofCode? t.code = some t := by
  cases t <;> rfl

/-- The tokens that may precede the content of a document. -/
def header : List Token := [comment, directive, directivesEnd, nothing]

def isHeader (t : Token) : Bool := header.contains t

/-- Whether there is text behind the token. Tokens that only mark structure have none. -/
def hasLexeme : Token → Bool
  | comment | tag | directive | integer | decimal | text | anchor | reference | reserved => true
  | directivesEnd | documentEnd | mappingStart | mappingKey | mappingEnd | sequenceStart
  | sequenceEnd | sequenceEntry | nothing => false

/-- The token that closes a structure opened by this one, if it opens one. -/
def closing? : Token → Option Token
  | mappingStart => some mappingEnd
  | sequenceStart => some sequenceEnd
  | directivesEnd => some documentEnd
  | _ => none

end Token

end YamlLexer
