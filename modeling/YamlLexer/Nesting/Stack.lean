import YamlLexer.Shape

/-!
# The stack of open structures

Documents and collections nest. Each open structure is a frame that remembers what opened it and
at which column; from the two follows its rank, by which indentation is compared.

Frames are listed innermost first. There is no frame for the stream itself: with no frame open,
the kind of the stack is `nothing`, unless a client has overridden it.
-/

namespace YamlLexer

/-- What opens a structure. -/
inductive Opener where
  /-- A document marker, or the first structure of a document without one. -/
  | document
  /-- An entry of a collection whose extent shows by indentation. -/
  | block (shape : Shape)
  /-- An opening bracket. -/
  | flow (shape : Shape)
deriving DecidableEq, Repr

namespace Opener

/-- The token by which a structure is known. -/
def token : Opener → Token
  | document => .directivesEnd
  | block shape | flow shape => shape.startToken

/-- The rank of a structure that starts at a column. Entries of a block sequence rank just above
the keys at their column, so that a sequence may stand at the column of the key it belongs to. -/
def rank (column : Nat) : Opener → Nat
  | document => 0
  | block .mapping => 2 * column + 1
  | block .sequence => 2 * column + 2
  | flow _ => column

end Opener

/-- An open structure. -/
structure Frame where
  /-- What opened the structure. -/
  opener : Opener
  /-- The column at which it was opened. -/
  column : Nat
  /-- The token that the structure is known by. A client may override it. -/
  kind : Token := opener.token
deriving DecidableEq, Repr

namespace Frame

/-- The rank at which the structure was opened. -/
def indent (f : Frame) : Nat := f.opener.rank f.column

end Frame

/-- The open structures. -/
structure Stack where
  /-- The kind of the stack when no frame is open. -/
  rootKind : Token := .nothing
  /-- The open structures, innermost first. -/
  frames : List Frame := []
  /-- The depth of the outermost flow collection that is open. -/
  flowDepth : Option Nat := none
deriving DecidableEq, Repr

namespace Stack

instance : Inhabited Stack := ⟨{}⟩

def depth (s : Stack) : Nat := s.frames.length

def kind (s : Stack) : Token :=
  match s.frames with
  | [] => s.rootKind
  | f :: _ => f.kind

/-- The rank of the innermost structure, zero if there is none. -/
def indent (s : Stack) : Nat :=
  match s.frames with
  | [] => 0
  | f :: _ => f.indent

/-- Whether a flow collection is open. In one, indentation has no meaning. -/
def inFlow (s : Stack) : Bool := s.flowDepth.isSome

/-- Overrides the kind of the innermost structure. -/
def setKind (s : Stack) (kind : Token) : Stack :=
  match s.frames with
  | [] => { s with rootKind := kind }
  | f :: below => { s with frames := { f with kind := kind } :: below }

/-! ## Opening -/

def push (s : Stack) (opener : Opener) (column : Nat) : Stack :=
  { s with frames := { opener, column } :: s.frames }

@[simp] theorem depth_push (s : Stack) (opener : Opener) (column : Nat) :
    (s.push opener column).depth = s.depth + 1 := rfl

/-- Opens a collection, and tells which tokens come before its own. Where the kind is `nothing` no
document is open, and one is opened first. -/
def start (s : Stack) (opener : Opener) (column : Nat) : Stack × List Token :=
  if s.kind = .nothing then ((s.push .document 0).push opener column, [.directivesEnd])
  else (s.push opener column, [])

/-- Opens a flow collection. The outermost one switches to flow rules. -/
def startFlow (s : Stack) (shape : Shape) (column : Nat) : Stack × List Token :=
  let (opened, tokens) := s.start (.flow shape) column
  ({ opened with flowDepth := s.flowDepth.or (some opened.depth) }, tokens)

/-! ## Closing -/

/-- Takes the innermost structure off, leaving the given ones. Flow rules end with the collection
that switched to them. -/
def leaving (s : Stack) (below : List Frame) : Stack :=
  { s with frames := below, flowDepth := s.flowDepth.filter (· ≤ below.length) }

end Stack

end YamlLexer
