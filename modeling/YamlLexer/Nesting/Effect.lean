import YamlLexer.Construct
import YamlLexer.Nesting.Closing

/-!
# What constructs do to the stack

The structural half of the lexer. A construct at a column changes the stack, and becomes the
tokens that announce the change, followed by its own. In block context the column decides which
structures end and whether a new one starts; in flow context only brackets do.

Each operation answers with a stack and its tokens, or with a stack and a fault. The stack is there
in both cases, as what has been closed before a fault stays closed.
-/

namespace YamlLexer.Stack

/-- Makes room for an entry at a column. Outside flow collections the structures of higher rank
are closed, and a new one is opened unless the innermost of the others has the rank of the entry. -/
def enter (s : Stack) (shape : Shape) (column : Nat) : Nesting :=
  let opener := Opener.block shape
  let rank := opener.rank column
  if s.inFlow then ⟨s, .ok [shape.entryToken]⟩
  else
    (s.close (s.frames.takeWhile (rank < ·.indent)).length).andThen fun outer ↦
      if outer.indent = rank then (outer, [shape.entryToken])
      else
        let (opened, tokens) := outer.start opener column
        (opened, tokens ++ [shape.startToken, shape.entryToken])

/-- Opens a flow collection. In a sequence it is an entry, and says so. -/
def openFlow (s : Stack) (shape : Shape) (column : Nat) : Nesting :=
  let (opened, tokens) := s.startFlow shape column
  let entry := if s.kind = .sequenceStart then [.sequenceEntry] else []
  ⟨opened, .ok (tokens ++ entry ++ [shape.startToken])⟩

/-- Closes the innermost collection of a shape, and all structures in it. It need not be a flow
collection. -/
def closeFlow (s : Stack) (shape : Shape) : Nesting :=
  match s.frames.findIdx? (·.kind = shape.startToken) with
  | none => ⟨s, .error (.unopened shape)⟩
  | some i => s.close (i + 1)

/-- Closes everything and opens a document. -/
def startDocument (s : Stack) : Nesting :=
  s.closeAll.andThen fun empty ↦ (empty.push .document 0, [.directivesEnd])

/-- Closes everything. The end of a document is announced even if none was open. -/
def endDocument (s : Stack) : Nesting :=
  match s.closeAll with
  | ⟨empty, .ok tokens⟩ =>
    ⟨empty, .ok (if tokens.contains .documentEnd then tokens else tokens ++ [.documentEnd])⟩
  | faulty => faulty

/-- Closes everything at the end of the input. There are no tokens if nothing is open. -/
def endStream (s : Stack) : Nesting :=
  if s.kind = .nothing then ⟨s, .ok []⟩ else s.endDocument

/-- The change of the stack by a construct at a column. -/
def apply (s : Stack) (column : Nat) : Construct → Nesting
  | .single token => ⟨s, .ok [token]⟩
  | .scalar kind false => ⟨s, .ok [kind]⟩
  | .scalar kind true => (s.enter .mapping column).andThen fun inner ↦ (inner, [kind])
  | .entry => s.enter .sequence column
  | .flowStart shape => s.openFlow shape column
  | .flowEnd shape => s.closeFlow shape
  | .documentStart => s.startDocument
  | .documentEnd => s.endDocument
  | .streamEnd => s.endStream

end YamlLexer.Stack
