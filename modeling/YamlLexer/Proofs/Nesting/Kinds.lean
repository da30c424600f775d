import YamlLexer.Nesting.Effect

/-!
# Stacks of the same kinds

A structure is closed with the token of its kind, and a bracket looks for a kind. What opened the
structure, and at which column, is of interest to indentation alone, and indentation means nothing in
flow context. So two stacks on which structures of the same kinds lie (`Stack.SameKinds`) close in the
same way whenever they do, and if flow rules hold every construct has the same effect on both, even
at two different columns (`Stack.SameKinds.apply`).

Flow rules are needed for one thing only, which is to make room for an entry
(`Stack.SameKinds.enter`).
-/

namespace YamlLexer

/-- Stacks on which structures of the same kinds lie, whatever opened them and at whatever column. -/
structure Stack.SameKinds (s s' : Stack) : Prop where
  rootKind : s'.rootKind = s.rootKind
  kinds : s'.frames.map Frame.kind = s.frames.map Frame.kind
  flowDepth : s'.flowDepth = s.flowDepth

/-- The same tokens or the same fault, with stacks of the same kinds. -/
structure Nesting.SameKinds (n n' : Nesting) : Prop where
  stack : n.stack.SameKinds n'.stack
  tokens : n'.tokens = n.tokens

theorem Nesting.SameKinds.andThen {n n' : Nesting} {step step' : Stack → Stack × List Token}
    (h : n.SameKinds n')
    (hstep : ∀ {s s' : Stack}, s.SameKinds s' →
      (step s).1.SameKinds (step' s').1 ∧ (step' s').2 = (step s).2) :
    (n.andThen step).SameKinds (n'.andThen step') := by
  obtain ⟨hstack, htokens⟩ := hstep h.stack
  rw [Nesting.andThen, Nesting.andThen, h.tokens]
  split
  · exact h
  · refine ⟨hstack, ?_⟩
    dsimp only
    rw [htokens]

theorem Frame.closers_eq {f f' : Frame} (h : f'.kind = f.kind) : f'.closers = f.closers := by
  rw [closers, closers, h]

namespace Stack

theorem kind_eq_headD (s : Stack) : s.kind = (s.frames.map Frame.kind).headD s.rootKind := by
  rw [kind]
  cases s.frames with
  | nil => rfl
  | cons f below => rfl

namespace SameKinds

variable {s s' : Stack} (h : s.SameKinds s')

include h

/-! ## What can be told from the kinds -/

theorem depth : s'.depth = s.depth := by
  simpa [Stack.depth] using congrArg List.length h.kinds

theorem kind : s'.kind = s.kind := by
  rw [kind_eq_headD, kind_eq_headD, h.kinds, h.rootKind]

theorem inFlow : s'.inFlow = s.inFlow := congrArg Option.isSome h.flowDepth

/-!
## Opening

Opening pushes a frame of the same kind on both, at columns that need not have to do with each
other.
-/

theorem push (opener : Opener) (column column' : Nat) :
    (s.push opener column).SameKinds (s'.push opener column') :=
  ⟨h.rootKind, congrArg (opener.token :: ·) h.kinds, h.flowDepth⟩

theorem start (opener : Opener) (column column' : Nat) :
    (s.start opener column).1.SameKinds (s'.start opener column').1 ∧
      (s'.start opener column').2 = (s.start opener column).2 := by
  rw [Stack.start, Stack.start, h.kind]
  split
  · exact ⟨(h.push .document 0 0).push opener column column', rfl⟩
  · exact ⟨h.push opener column column', rfl⟩

theorem startFlow (shape : Shape) (column column' : Nat) :
    (s.startFlow shape column).1.SameKinds (s'.startFlow shape column').1 ∧
      (s'.startFlow shape column').2 = (s.startFlow shape column).2 := by
  obtain ⟨hopened, htokens⟩ := h.start (.flow shape) column column'
  refine ⟨⟨hopened.rootKind, hopened.kinds, ?_⟩, htokens⟩
  change s'.flowDepth.or (some (s'.start (.flow shape) column').1.depth) =
    s.flowDepth.or (some (s.start (.flow shape) column).1.depth)
  rw [h.flowDepth, hopened.depth]

theorem openFlow (shape : Shape) (column column' : Nat) :
    (s.openFlow shape column).SameKinds (s'.openFlow shape column') := by
  obtain ⟨hopened, htokens⟩ := h.startFlow shape column column'
  refine ⟨hopened, ?_⟩
  simp only [Stack.openFlow, htokens, h.kind]

/-! ## Closing -/

theorem leaving {below below' : List Frame}
    (kinds : below'.map Frame.kind = below.map Frame.kind) :
    (s.leaving below).SameKinds (s'.leaving below') := by
  refine ⟨h.rootKind, kinds, ?_⟩
  have hlength : below'.length = below.length := by simpa using congrArg List.length kinds
  rw [Stack.leaving, Stack.leaving, h.flowDepth, hlength]

theorem close (n : Nat) : (s.close n).SameKinds (s'.close n) := by
  induction n generalizing s s' with
  | zero => exact ⟨h, rfl⟩
  | succ n ih =>
    have hkinds := h.kinds
    rw [Stack.close, Stack.close]
    cases hframes : s.frames with
    | nil =>
      rw [hframes, List.map_nil, List.map_eq_nil_iff] at hkinds
      rw [hkinds]
      exact ⟨h, rfl⟩
    | cons f below =>
      rw [hframes, List.map_cons, List.map_eq_cons_iff] at hkinds
      obtain ⟨f', below', hframes', hkind, hbelow⟩ := hkinds
      simp only [hframes', Frame.closers_eq hkind]
      split
      · exact ⟨h, rfl⟩
      · rename_i tokens _
        have hrest := ih (h.leaving hbelow)
        exact ⟨hrest.stack, congrArg (Except.map (tokens ++ ·)) hrest.tokens⟩

theorem closeAll : s.closeAll.SameKinds s'.closeAll := by
  rw [Stack.closeAll, Stack.closeAll, h.depth]
  exact (h.close s.depth).andThen fun hempty ↦ ⟨⟨rfl, hempty.kinds, hempty.flowDepth⟩, rfl⟩

theorem closeFlow (shape : Shape) : (s.closeFlow shape).SameKinds (s'.closeFlow shape) := by
  have hindex (t : Stack) : t.frames.findIdx? (·.kind = shape.startToken) =
      (t.frames.map Frame.kind).findIdx? (· = shape.startToken) := by
    rw [List.findIdx?_map]
    rfl
  rw [Stack.closeFlow, Stack.closeFlow, hindex, hindex, h.kinds]
  split
  · exact ⟨h, rfl⟩
  · exact h.close _

theorem startDocument : s.startDocument.SameKinds s'.startDocument :=
  h.closeAll.andThen fun hempty ↦ ⟨hempty.push .document 0 0, rfl⟩

theorem endDocument : s.endDocument.SameKinds s'.endDocument := by
  have hempty := h.closeAll
  rw [Stack.endDocument, Stack.endDocument]
  generalize s.closeAll = empty at hempty
  generalize s'.closeAll = empty' at hempty
  obtain ⟨stack, tokens⟩ := empty
  obtain ⟨stack', tokens'⟩ := empty'
  obtain rfl : tokens' = tokens := hempty.tokens
  cases tokens' with
  | error fault => exact ⟨hempty.stack, rfl⟩
  | ok tokens => exact ⟨hempty.stack, rfl⟩

theorem endStream : s.endStream.SameKinds s'.endStream := by
  rw [Stack.endStream, Stack.endStream, h.kind]
  split
  · exact ⟨h, rfl⟩
  · exact h.endDocument

/-!
## In flow context

The column of an entry is compared with nothing there, and what is opened is opened by brackets.
-/

/-- An entry in flow context is announced and needs no room. -/
theorem enter (flow : s.inFlow = true) (shape : Shape) (column column' : Nat) :
    (s.enter shape column).SameKinds (s'.enter shape column') := by
  rw [Stack.enter, Stack.enter, if_pos flow, if_pos (h.inFlow.trans flow)]
  exact ⟨h, rfl⟩

/-- In flow context the column of a construct is of no importance, nor are those of the structures
that are open. -/
theorem apply (flow : s.inFlow = true) (column column' : Nat) (c : Construct) :
    (s.apply column c).SameKinds (s'.apply column' c) := by
  cases c with
  | single token => exact ⟨h, rfl⟩
  | scalar kind isKey =>
    cases isKey with
    | false => exact ⟨h, rfl⟩
    | true =>
      rw [Stack.apply, Stack.apply]
      exact (h.enter flow .mapping column column').andThen fun hinner ↦ ⟨hinner, rfl⟩
  | entry => exact h.enter flow .sequence column column'
  | flowStart shape => exact h.openFlow shape column column'
  | flowEnd shape => exact h.closeFlow shape
  | documentStart => exact h.startDocument
  | documentEnd => exact h.endDocument
  | streamEnd => exact h.endStream

end SameKinds

end Stack

end YamlLexer
