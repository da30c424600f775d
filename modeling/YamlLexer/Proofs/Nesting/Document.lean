import Mathlib.Data.List.TakeWhile
import YamlLexer.Nesting.Effect

/-!
# The stack of a document

A stack is a list of frames and nothing more, so it could hold anything. A lexer whose client does
not override kinds builds only two sorts: the empty stack, and the stack of a document in which
some collections have been opened by indentation, and others by brackets inside those. Written as
`Stack.document flows blocks` the second sort has no invariant left to prove but one: the ranks of
the block collections grow from the outside in.

For each operation there is one equation here that says what it does to such a stack. All that is
proved elsewhere about nesting rests on these equations, and nothing else opens an operation again.

## Closing

A document is closed one frame at a time, but what matters is where this stops.
`close_document` gives the result for every number of frames that leaves the document open, and
`closeAll_document` the one that does not. No closing fails, as every frame has the kind that its
opener gave it.

## Entries

An entry of a block collection closes what ranks higher, and what it finds then decides whether it
starts a collection. `Entered` lists the outcomes, each with its stacks and tokens, so that a fact
about entries takes one case for each and none of the ranks.
-/

namespace YamlLexer

/-- A collection as it was opened. -/
structure Collection where
  /-- Whether it holds keys or entries. -/
  shape : Shape
  /-- The column of its first key or entry, or of its bracket. -/
  column : Nat
deriving DecidableEq, Repr

namespace Collection

/-- The frame of a collection that indentation opened. -/
def block (c : Collection) : Frame := { opener := .block c.shape, column := c.column }

/-- The frame of a collection that a bracket opened. -/
def flow (c : Collection) : Frame := { opener := .flow c.shape, column := c.column }

def rank (c : Collection) : Nat := (Opener.block c.shape).rank c.column

@[simp] theorem indent_block (c : Collection) : c.block.indent = c.rank := rfl

@[simp] theorem kind_block (c : Collection) : c.block.kind = c.shape.startToken := rfl

@[simp] theorem kind_flow (c : Collection) : c.flow.kind = c.shape.startToken := rfl

theorem rank_pos (c : Collection) : 0 < c.rank := by
  obtain ⟨_ | _, column⟩ := c <;> exact Nat.succ_pos _

theorem closers_block (c : Collection) : c.block.closers = .ok [c.shape.endToken] :=
  Frame.closers_of_closing? c.shape.closing?_startToken

theorem closers_flow (c : Collection) : c.flow.closers = .ok [c.shape.endToken] :=
  Frame.closers_of_closing? c.shape.closing?_startToken

end Collection

/-- The tokens that close collections, given from the inside out. -/
def endTokens (cs : List Collection) : List Token := cs.map fun c ↦ c.shape.endToken

def Frame.document : Frame := { opener := .document, column := 0 }

namespace Stack

/-- The stack of a document with flow collections inside block collections, both given from the
inside out. -/
def document (flows blocks : List Collection) : Stack where
  frames := flows.map Collection.flow ++ (blocks.map Collection.block ++ [.document])
  flowDepth := if flows = [] then none else some (blocks.length + 2)

/-- The stacks that a lexer builds by itself. -/
inductive Sound : Stack → Prop
  /-- No document is open. -/
  | closed : Sound {}
  /-- A document is open. Its block collections rank higher the further inside they are. -/
  | document (flows blocks : List Collection)
      (ranked : blocks.Pairwise fun inner outer ↦ outer.rank < inner.rank) :
      Sound (document flows blocks)

variable {flows blocks : List Collection}

@[simp] theorem inFlow_document : (document flows blocks).inFlow = !flows.isEmpty := by
  cases flows <;> rfl

@[simp] theorem depth_document :
    (document flows blocks).depth = flows.length + blocks.length + 1 := by
  simp [depth, document, Nat.add_assoc]

/-- The innermost structure is the innermost collection, or the document if there is none. -/
theorem kind_document : (document flows blocks).kind =
    ((flows ++ blocks).head?.map (·.shape.startToken)).getD .directivesEnd := by
  cases flows <;> cases blocks <;> rfl

theorem kind_document_ne_nothing : (document flows blocks).kind ≠ .nothing := by
  rw [kind_document]
  cases flows ++ blocks with
  | nil => decide
  | cons c _ => exact c.shape.startToken_ne_nothing

theorem kinds_document : (document flows blocks).frames.map Frame.kind =
    (flows ++ blocks).map (·.shape.startToken) ++ [.directivesEnd] := by
  simp [document, Frame.document, Function.comp_def, Opener.token]

/-! ## Closing -/

theorem close_succ {s outer : Stack} {f : Frame} {token : Token}
    (hframes : s.frames = f :: outer.frames) (houter : s.leaving outer.frames = outer)
    (hclosers : f.closers = .ok [token]) (n : Nat) :
    s.close (n + 1) = ⟨(outer.close n).stack, (outer.close n).tokens.map (token :: ·)⟩ := by
  simp only [close, hframes, hclosers, houter]
  rfl

theorem close_flow (c : Collection) (n : Nat) :
    (document (c :: flows) blocks).close (n + 1) =
      ⟨((document flows blocks).close n).stack,
        ((document flows blocks).close n).tokens.map (c.shape.endToken :: ·)⟩ := by
  refine close_succ rfl ?_ c.closers_flow n
  -- The flow rules end with the outermost of the flow collections.
  cases flows with
  | nil => simp [leaving, document, Option.filter]
  | cons d flows =>
    simp [leaving, document, Option.filter]

theorem close_block (c : Collection) (n : Nat) :
    (document [] (c :: blocks)).close (n + 1) =
      ⟨((document [] blocks).close n).stack,
        ((document [] blocks).close n).tokens.map (c.shape.endToken :: ·)⟩ :=
  close_succ rfl rfl c.closers_block n

theorem close_document {n : Nat} (h : n ≤ flows.length + blocks.length) :
    (document flows blocks).close n =
      ⟨document (flows.drop n) (blocks.drop (n - flows.length)),
        .ok (endTokens ((flows ++ blocks).take n))⟩ := by
  induction n generalizing flows blocks with
  | zero => simp [close, endTokens]
  | succ n ih =>
    rcases flows with _ | ⟨c, flows⟩
    · rcases blocks with _ | ⟨c, blocks⟩
      · simp at h
      · rw [List.length_cons] at h
        rw [close_block, ih (by simpa using h)]
        simp [endTokens, Except.map]
    · rw [List.length_cons] at h
      rw [close_flow, ih (by omega)]
      simp [endTokens, Except.map]

theorem close_depth_document {n : Nat} (h : n = flows.length + blocks.length) :
    (document flows blocks).close (n + 1) =
      ⟨{}, .ok (endTokens (flows ++ blocks) ++ [.documentEnd])⟩ := by
  induction n generalizing flows blocks with
  | zero =>
    obtain ⟨rfl, rfl⟩ : flows = [] ∧ blocks = [] := by simpa using h.symm
    rfl
  | succ n ih =>
    rcases flows with _ | ⟨c, flows⟩
    · rcases blocks with _ | ⟨c, blocks⟩
      · simp at h
      · rw [List.length_cons] at h
        rw [close_block, ih (by omega)]
        rfl
    · rw [List.length_cons] at h
      rw [close_flow, ih (by omega)]
      rfl

theorem closeAll_document : (document flows blocks).closeAll =
    ⟨{}, .ok (endTokens (flows ++ blocks) ++ [.documentEnd])⟩ := by
  rw [closeAll, depth_document, close_depth_document rfl]
  simp [Nesting.andThen]

/-! ## Entries -/

theorem enter_closed (shape : Shape) (column : Nat) :
    ({} : Stack).enter shape column =
      ⟨document [] [⟨shape, column⟩],
        .ok [.directivesEnd, shape.startToken, shape.entryToken]⟩ := by
  have hrank : 0 ≠ (Opener.block shape).rank column :=
    Nat.ne_of_lt (Collection.rank_pos ⟨shape, column⟩)
  simp only [enter, inFlow, close, List.takeWhile_nil, List.length_nil, Nesting.andThen, indent,
    Option.isSome_none, Bool.false_eq_true, if_false, if_neg hrank]
  rfl

theorem enter_flow (c : Collection) (shape : Shape) (column : Nat) :
    (document (c :: flows) blocks).enter shape column =
      ⟨document (c :: flows) blocks, .ok [shape.entryToken]⟩ := rfl

/-- Block collections, cut where the ranks fall to the given one. -/
structure Cut (rank : Nat) (inner outer : List Collection) : Prop where
  lt_inner : ∀ c ∈ inner, rank < c.rank
  head_outer_le : ∀ c ∈ outer.head?, c.rank ≤ rank

theorem exists_cut (rank : Nat) (blocks : List Collection) :
    ∃ inner outer, inner ++ outer = blocks ∧ Cut rank inner outer := by
  refine ⟨blocks.takeWhile (rank < ·.rank), blocks.dropWhile (rank < ·.rank),
    List.takeWhile_append_dropWhile, ?_, ?_⟩
  · intro c hc
    simpa using List.mem_takeWhile_imp hc
  · intro c hc
    have hhead := List.head?_dropWhile_not (rank < ·.rank) blocks
    rw [Option.mem_def.mp hc] at hhead
    simpa using hhead

/-- What an entry closes. The frame of the document has rank zero, so it always stays. -/
theorem takeWhile_indent_document {rank : Nat} {inner outer : List Collection}
    (h : Cut rank inner outer) :
    (document [] (inner ++ outer)).frames.takeWhile (rank < ·.indent) =
      inner.map Collection.block := by
  have hinner : ∀ f ∈ inner.map Collection.block, decide (rank < f.indent) = true := by
    simpa using h.lt_inner
  have houter : (outer.map Collection.block ++ [Frame.document]).takeWhile
      (fun f ↦ decide (rank < f.indent)) = [] := by
    cases outer with
    | nil => simp [Frame.document, Frame.indent, Opener.rank]
    | cons c outer =>
      have hle : ¬ rank < c.block.indent := Nat.not_lt.mpr (h.head_outer_le c rfl)
      rw [List.map_cons, List.cons_append,
        List.takeWhile_cons_of_neg (by simpa only [decide_eq_true_eq])]
  rw [document, List.map_nil, List.nil_append, List.map_append, List.append_assoc,
    List.takeWhile_append_of_pos hinner, houter, List.append_nil]

theorem indent_document : (document [] blocks).indent =
    (blocks.head?.map Collection.rank).getD 0 := by
  cases blocks <;> rfl

theorem start_document (opener : Opener) (column : Nat) :
    (document flows blocks).start opener column =
      ((document flows blocks).push opener column, []) := by
  rw [start, if_neg kind_document_ne_nothing]

theorem push_block (shape : Shape) (column : Nat) :
    (document [] blocks).push (.block shape) column = document [] (⟨shape, column⟩ :: blocks) := rfl

/-- What an entry in block context leaves open, before it opens anything itself. -/
theorem close_inner {rank : Nat} {inner outer : List Collection} (h : Cut rank inner outer) :
    (document [] (inner ++ outer)).close
        ((document [] (inner ++ outer)).frames.takeWhile (rank < ·.indent)).length =
      ⟨document [] outer, .ok (endTokens inner)⟩ := by
  rw [takeWhile_indent_document h, List.length_map, close_document (by simp)]
  simp

/-- An entry at the rank of an open collection. -/
theorem enter_sibling {shape : Shape} {column : Nat} {inner outer : List Collection}
    (hcut : Cut ((Opener.block shape).rank column) inner outer)
    (hrank : outer.head?.map Collection.rank = some ((Opener.block shape).rank column)) :
    (document [] (inner ++ outer)).enter shape column =
      ⟨document [] outer, .ok (endTokens inner ++ [shape.entryToken])⟩ := by
  have hindent : (document [] outer).indent = (Opener.block shape).rank column := by
    rw [indent_document, hrank]
    rfl
  simp only [enter, inFlow_document, List.isEmpty_nil, Bool.not_true, Bool.false_eq_true, if_false]
  rw [close_inner hcut]
  simp [Nesting.andThen, hindent]

/-- An entry at a rank at which nothing is open. -/
theorem enter_nested {shape : Shape} {column : Nat} {inner outer : List Collection}
    (hcut : Cut ((Opener.block shape).rank column) inner outer)
    (hrank : outer.head?.map Collection.rank ≠ some ((Opener.block shape).rank column)) :
    (document [] (inner ++ outer)).enter shape column =
      ⟨document [] (⟨shape, column⟩ :: outer),
        .ok (endTokens inner ++ [shape.startToken, shape.entryToken])⟩ := by
  have hpos : 0 < (Opener.block shape).rank column := Collection.rank_pos ⟨shape, column⟩
  have hindent : (document [] outer).indent ≠ (Opener.block shape).rank column := by
    rw [indent_document]
    cases outer with
    | nil => exact Nat.ne_of_lt hpos
    | cons c outer => simpa using hrank
  simp only [enter, inFlow_document, List.isEmpty_nil, Bool.not_true, Bool.false_eq_true, if_false]
  rw [close_inner hcut]
  simp [Nesting.andThen, hindent, start_document, push_block]

/-- An entry, by the place where it stands: the stacks before it and behind it, and its tokens. -/
inductive Entered (shape : Shape) (column : Nat) : Stack → Stack → List Token → Prop
  /-- Where nothing is open, it starts a document. -/
  | first : Entered shape column {} (document [] [⟨shape, column⟩])
      [.directivesEnd, shape.startToken, shape.entryToken]
  /-- In flow context, it is one more entry of the innermost collection. -/
  | flow (c : Collection) (flows blocks : List Collection) :
      Entered shape column (document (c :: flows) blocks) (document (c :: flows) blocks)
        [shape.entryToken]
  /-- It continues a collection. -/
  | sibling {inner outer : List Collection}
      (ranked : (inner ++ outer).Pairwise fun inner outer ↦ outer.rank < inner.rank)
      (cut : Cut ((Opener.block shape).rank column) inner outer)
      (head : outer.head?.map Collection.rank = some ((Opener.block shape).rank column)) :
      Entered shape column (document [] (inner ++ outer)) (document [] outer)
        (endTokens inner ++ [shape.entryToken])
  /-- It starts a collection. -/
  | nested {inner outer : List Collection}
      (ranked : (inner ++ outer).Pairwise fun inner outer ↦ outer.rank < inner.rank)
      (cut : Cut ((Opener.block shape).rank column) inner outer)
      (head : outer.head?.map Collection.rank ≠ some ((Opener.block shape).rank column)) :
      Entered shape column (document [] (inner ++ outer)) (document [] (⟨shape, column⟩ :: outer))
        (endTokens inner ++ [shape.startToken, shape.entryToken])

variable {s s' : Stack} {shape : Shape} {column : Nat} {tokens : List Token}

theorem Entered.enter_eq (h : Entered shape column s s' tokens) :
    s.enter shape column = ⟨s', .ok tokens⟩ := by
  cases h with
  | first => exact enter_closed shape column
  | flow c flows blocks => exact enter_flow c shape column
  | sibling ranked cut head => exact enter_sibling cut head
  | nested ranked cut head => exact enter_nested cut head

/-- Every entry is one of these, and is allowed. -/
theorem Sound.exists_entered (h : s.Sound) (shape : Shape) (column : Nat) :
    ∃ s' tokens, Entered shape column s s' tokens := by
  cases h with
  | closed => exact ⟨_, _, .first⟩
  | document flows blocks ranked =>
    rcases flows with _ | ⟨c, flows⟩
    · obtain ⟨inner, outer, rfl, hcut⟩ := exists_cut ((Opener.block shape).rank column) blocks
      by_cases hhead : outer.head?.map Collection.rank = some ((Opener.block shape).rank column)
      · exact ⟨_, _, .sibling ranked hcut hhead⟩
      · exact ⟨_, _, .nested ranked hcut hhead⟩
    · exact ⟨_, _, .flow c flows blocks⟩

theorem Cut.pairwise_cons {inner outer : List Collection}
    (h : Cut ((Opener.block shape).rank column) inner outer)
    (hhead : outer.head?.map Collection.rank ≠ some ((Opener.block shape).rank column))
    (ranked : outer.Pairwise fun inner outer ↦ outer.rank < inner.rank) :
    (⟨shape, column⟩ :: outer : List Collection).Pairwise
      fun inner outer ↦ outer.rank < inner.rank := by
  refine List.pairwise_cons.mpr ⟨?_, ranked⟩
  intro c hc
  rcases outer with _ | ⟨d, outer⟩
  · cases hc
  · have hle : d.rank ≤ (Opener.block shape).rank column := h.head_outer_le d rfl
    have hne : d.rank ≠ (Opener.block shape).rank column := by simpa using hhead
    have hlt : d.rank < (Opener.block shape).rank column := Nat.lt_of_le_of_ne hle hne
    rcases List.mem_cons.mp hc with rfl | hc
    · exact hlt
    · exact ((List.pairwise_cons.mp ranked).1 c hc).trans hlt

/-!
## Brackets

An opening bracket puts its collection on top, and in a sequence it is announced as an entry. A
closing one looks for a collection of its shape among all that are open, and may have to go as far
as those which indentation opened.
-/

theorem openFlow_closed (shape : Shape) (column : Nat) :
    ({} : Stack).openFlow shape column =
      ⟨document [⟨shape, column⟩] [], .ok [.directivesEnd, shape.startToken]⟩ := rfl

theorem startFlow_document (shape : Shape) (column : Nat) :
    (document flows blocks).startFlow shape column =
      (document (⟨shape, column⟩ :: flows) blocks, []) := by
  rw [startFlow, start_document]
  cases flows with
  | nil => simp [document, push, depth, Collection.flow]
  | cons c flows => simp [document, push, Collection.flow]

theorem openFlow_document (shape : Shape) (column : Nat) :
    (document flows blocks).openFlow shape column =
      ⟨document (⟨shape, column⟩ :: flows) blocks,
        .ok ((if (document flows blocks).kind = .sequenceStart then [.sequenceEntry] else []) ++
          [shape.startToken])⟩ := by
  simp only [openFlow, startFlow_document, List.nil_append]

theorem closeFlow_closed (shape : Shape) :
    ({} : Stack).closeFlow shape = ⟨{}, .error (.unopened shape)⟩ := rfl

theorem findIdx?_frames_document (shape : Shape) :
    (document flows blocks).frames.findIdx? (·.kind = shape.startToken) =
      (flows ++ blocks).findIdx? (·.shape = shape) := by
  have hkind (c : Collection) :
      (c.shape.startToken = shape.startToken) = (c.shape = shape) :=
    propext ⟨fun h ↦ Shape.startToken_injective h, congrArg Shape.startToken⟩
  have hdocument : Frame.document.kind ≠ shape.startToken := by
    cases shape <;> decide
  simp [document, List.findIdx?_append, Function.comp_def, hkind, hdocument]

theorem closeFlow_document (shape : Shape) :
    (document flows blocks).closeFlow shape =
      match (flows ++ blocks).findIdx? (·.shape = shape) with
      | none => ⟨document flows blocks, .error (.unopened shape)⟩
      | some i => ⟨document (flows.drop (i + 1)) (blocks.drop (i + 1 - flows.length)),
          .ok (endTokens ((flows ++ blocks).take (i + 1)))⟩ := by
  rw [closeFlow, findIdx?_frames_document]
  cases hfind : (flows ++ blocks).findIdx? (·.shape = shape) with
  | none => rfl
  | some i =>
    obtain ⟨hlt, -⟩ := List.findIdx?_eq_some_iff_getElem.mp hfind
    rw [List.length_append] at hlt
    exact close_document hlt

/-! ## Documents -/

/-- The tokens that close everything, from the inside out. -/
def closing (s : Stack) : List Token := s.frames.filterMap (·.kind.closing?)

theorem closing_document : (document flows blocks).closing =
    endTokens (flows ++ blocks) ++ [.documentEnd] := by
  have hkind (c : Collection) :
      Token.closing? c.shape.startToken = some c.shape.endToken := c.shape.closing?_startToken
  simp [closing, document, endTokens, List.filterMap_append, List.filterMap_map,
    Function.comp_def, hkind]
  rfl

namespace Sound

variable {s : Stack}

theorem closeAll (h : s.Sound) : s.closeAll = ⟨{}, .ok s.closing⟩ := by
  cases h with
  | closed => rfl
  | document flows blocks => rw [closeAll_document, closing_document]

theorem startDocument (h : s.Sound) :
    s.startDocument = ⟨.document [] [], .ok (s.closing ++ [.directivesEnd])⟩ := by
  rw [Stack.startDocument, h.closeAll]
  rfl

theorem endStream (h : s.Sound) : s.endStream = ⟨{}, .ok s.closing⟩ := by
  cases h with
  | closed => rfl
  | document flows blocks =>
    rw [Stack.endStream, if_neg kind_document_ne_nothing, endDocument, closeAll_document,
      closing_document]
    simp

end Sound

theorem endDocument_closed : ({} : Stack).endDocument = ⟨{}, .ok [.documentEnd]⟩ := rfl

theorem endDocument_document : (document flows blocks).endDocument =
    ⟨{}, .ok (document flows blocks).closing⟩ := by
  rw [endDocument, closeAll_document, closing_document]
  simp

/-!
## Soundness

Every operation leaves one of the two sorts of stacks, whatever it is given, faults included. The
equations above cover all cases there are, so this only has to put them together.
-/

@[simp] theorem stack_andThen_token (n : Nesting) (token : Token) :
    (n.andThen fun inner ↦ (inner, [token])).stack = n.stack := by
  obtain ⟨stack, _ | tokens⟩ := n <;> rfl

namespace Sound

variable {s : Stack}

theorem enter (h : s.Sound) (shape : Shape) (column : Nat) :
    (s.enter shape column).stack.Sound := by
  obtain ⟨s', tokens, hentered⟩ := h.exists_entered shape column
  rw [hentered.enter_eq]
  cases hentered with
  | first => exact .document [] _ (List.pairwise_singleton _ _)
  | flow c flows blocks => exact h
  | sibling ranked cut head => exact .document [] _ (List.pairwise_append.mp ranked).2.1
  | nested ranked cut head =>
    exact .document [] _ (cut.pairwise_cons head (List.pairwise_append.mp ranked).2.1)

theorem openFlow (h : s.Sound) (shape : Shape) (column : Nat) :
    (s.openFlow shape column).stack.Sound := by
  cases h with
  | closed => exact .document [⟨shape, column⟩] [] List.Pairwise.nil
  | document flows blocks ranked =>
    rw [openFlow_document]
    exact .document (_ :: flows) blocks ranked

theorem closeFlow (h : s.Sound) (shape : Shape) : (s.closeFlow shape).stack.Sound := by
  cases h with
  | closed => exact .closed
  | document flows blocks ranked =>
    rw [closeFlow_document]
    split
    · exact .document flows blocks ranked
    · exact .document _ _ (ranked.sublist (List.drop_sublist _ _))

/-- Whatever a construct does, and also if it is not allowed, it leaves a sound stack. -/
theorem apply (h : s.Sound) (column : Nat) (c : Construct) : (s.apply column c).stack.Sound := by
  cases c with
  | single token => exact h
  | scalar kind isKey =>
    cases isKey with
    | false => exact h
    | true =>
      rw [Stack.apply, stack_andThen_token]
      exact h.enter .mapping column
  | entry => exact h.enter .sequence column
  | flowStart shape => exact h.openFlow shape column
  | flowEnd shape => exact h.closeFlow shape
  | documentStart =>
    rw [Stack.apply, h.startDocument]
    exact .document [] [] List.Pairwise.nil
  | documentEnd =>
    cases h with
    | closed => exact .closed
    | document flows blocks =>
      rw [Stack.apply, endDocument_document]
      exact .closed
  | streamEnd =>
    rw [Stack.apply, h.endStream]
    exact .closed

theorem enter_ok (h : s.Sound) (shape : Shape) (column : Nat) :
    ∃ s' tokens, s.enter shape column = ⟨s', .ok (tokens ++ [shape.entryToken])⟩ := by
  obtain ⟨s', tokens, hentered⟩ := h.exists_entered shape column
  rw [hentered.enter_eq]
  cases hentered with
  | first => exact ⟨_, [.directivesEnd, shape.startToken], rfl⟩
  | flow c flows blocks => exact ⟨_, [], rfl⟩
  | @sibling inner => exact ⟨_, endTokens inner, rfl⟩
  | @nested inner outer =>
    refine ⟨Stack.document [] (⟨shape, column⟩ :: outer), endTokens inner ++ [shape.startToken], ?_⟩
    rw [List.append_assoc]
    rfl

/-- A closing bracket is allowed if a collection of its shape is open, and ends at least that. -/
theorem closeFlow_cases (h : s.Sound) (shape : Shape) :
    s.closeFlow shape = ⟨s, .error (.unopened shape)⟩ ∨
      ∃ s' token tokens, s.closeFlow shape = ⟨s', .ok (token :: tokens)⟩ := by
  cases h with
  | closed => exact .inl rfl
  | document flows blocks =>
    rw [closeFlow_document]
    split
    · exact .inl rfl
    · rename_i i hfind
      obtain ⟨hlt, -⟩ := List.findIdx?_eq_some_iff_getElem.mp hfind
      rcases hcs : flows ++ blocks with _ | ⟨c, cs⟩
      · rw [hcs] at hlt
        exact absurd hlt (Nat.not_lt_zero i)
      · exact .inr ⟨_, _, _, rfl⟩

/-- What a construct can come to. Only a closing bracket may be not allowed, and it then does
nothing. Only the end of the input may become no token, and nothing is then open. -/
theorem apply_cases (h : s.Sound) (column : Nat) (c : Construct) :
    (∃ shape, c = .flowEnd shape ∧ s.apply column c = ⟨s, .error (.unopened shape)⟩) ∨
      (c = .streamEnd ∧ s = {} ∧ s.apply column c = ⟨{}, .ok []⟩) ∨
      ∃ s' token tokens, s.apply column c = ⟨s', .ok (token :: tokens)⟩ := by
  -- With a token at the end, there is a first one.
  have hne {tokens : List Token} (token : Token) (s' : Stack) :
      ∃ s'' first more, (⟨s', .ok (tokens ++ [token])⟩ : Nesting) =
        ⟨s'', .ok (first :: more)⟩ := by
    rcases tokens with _ | ⟨first, tokens⟩
    · exact ⟨_, _, _, rfl⟩
    · exact ⟨_, _, _, rfl⟩
  cases c with
  | single token => exact .inr (.inr ⟨_, _, _, rfl⟩)
  | scalar kind isKey =>
    cases isKey with
    | false => exact .inr (.inr ⟨_, _, _, rfl⟩)
    | true =>
      obtain ⟨s', tokens, henter⟩ := h.enter_ok .mapping column
      rw [Stack.apply, henter]
      exact .inr (.inr (hne kind _))
  | entry =>
    obtain ⟨s', tokens, henter⟩ := h.enter_ok .sequence column
    rw [Stack.apply, henter]
    exact .inr (.inr (hne _ s'))
  | flowStart shape => exact .inr (.inr (hne shape.startToken _))
  | flowEnd shape =>
    rcases h.closeFlow_cases shape with hfault | hok
    · exact .inl ⟨shape, rfl, hfault⟩
    · exact .inr (.inr hok)
  | documentStart =>
    rw [Stack.apply, h.startDocument]
    exact .inr (.inr (hne .directivesEnd _))
  | documentEnd =>
    cases h with
    | closed => exact .inr (.inr ⟨_, _, _, rfl⟩)
    | document flows blocks =>
      rw [Stack.apply, endDocument_document, closing_document]
      exact .inr (.inr (hne .documentEnd _))
  | streamEnd =>
    rw [Stack.apply, h.endStream]
    cases h with
    | closed => exact .inr (.inl ⟨rfl, rfl, rfl⟩)
    | document flows blocks =>
      rw [closing_document]
      exact .inr (.inr (hne .documentEnd _))

theorem apply_error {s' : Stack} {column : Nat} {c : Construct} {fault : NestingFault}
    (h : s.Sound) (heffect : s.apply column c = ⟨s', .error fault⟩) : s' = s := by
  rcases h.apply_cases column c with ⟨shape, -, hfault⟩ | ⟨-, -, hnil⟩ | ⟨t, token, tokens, hok⟩
  · exact congrArg Nesting.stack (heffect.symm.trans hfault)
  · cases heffect.symm.trans hnil
  · cases heffect.symm.trans hok

theorem apply_nil {s' : Stack} {column : Nat} {c : Construct} (h : s.Sound)
    (heffect : s.apply column c = ⟨s', .ok []⟩) : c = .streamEnd ∧ s = {} := by
  rcases h.apply_cases column c with ⟨shape, -, hfault⟩ | ⟨hc, hs, -⟩ | ⟨t, token, tokens, hok⟩
  · cases heffect.symm.trans hfault
  · exact ⟨hc, hs⟩
  · cases heffect.symm.trans hok

end Sound

end Stack

end YamlLexer
