import YamlLexer.Proofs.Calls
import YamlLexer.Proofs.Nesting.Changes
import YamlLexer.Proofs.Nesting.Layers

/-!
# When flow rules hold

A stack does not look for brackets to tell whether it is in a flow collection. It keeps the depth of
the outermost one, which is set and dropped in passing. That this depth is what the frames say is an
invariant of every stack that a lexer gets to (`Stack.FlowMarked`), also where kinds have been
overridden: an override leaves what opened a structure as it is. So flow rules hold just when a
bracket has been opened and not been closed (`inFlow_calls_iff`).

The depth is set when a collection in brackets is opened and none is open, and dropped when the
frame at that depth is taken off; in between other frames come and go above it. `flowDepthOf` reads
the same depth off the frames, without a memory.
-/

namespace YamlLexer

/-- The depth of the outermost flow collection among frames. -/
def flowDepthOf : List Frame → Option Nat
  | [] => none
  | f :: below => (flowDepthOf below).or (if f.isFlow then some (below.length + 1) else none)

theorem le_length_of_mem_flowDepthOf {frames : List Frame} :
    ∀ depth ∈ flowDepthOf frames, depth ≤ frames.length := by
  induction frames with
  | nil => exact nofun
  | cons f below ih =>
    intro depth hdepth
    rcases hbelow : flowDepthOf below with _ | outer
    · rw [flowDepthOf, hbelow, Option.none_or] at hdepth
      obtain ⟨-, rfl⟩ : f.isFlow = true ∧ below.length + 1 = depth := by simpa using hdepth
      exact Nat.le_refl _
    · rw [flowDepthOf, hbelow] at hdepth
      obtain rfl : outer = depth := Option.some.inj hdepth
      exact Nat.le_succ_of_le (ih outer hbelow)

theorem isSome_flowDepthOf_iff {frames : List Frame} :
    (flowDepthOf frames).isSome = true ↔ ∃ f ∈ frames, f.isFlow = true := by
  induction frames with
  | nil => simp [flowDepthOf]
  | cons f below ih =>
    rw [flowDepthOf, Option.isSome_or, Bool.or_eq_true, ih, or_comm]
    by_cases hf : f.isFlow = true <;> simp [hf]

namespace Stack

/-- The depth that a stack keeps is that of its outermost flow collection. -/
def FlowMarked (s : Stack) : Prop := s.flowDepth = flowDepthOf s.frames

namespace FlowMarked

variable {s : Stack}

theorem inFlow_iff (h : s.FlowMarked) : s.inFlow = true ↔ ∃ f ∈ s.frames, f.isFlow = true := by
  rw [inFlow, h, isSome_flowDepthOf_iff]

theorem setKind (h : s.FlowMarked) (kind : Token) : (s.setKind kind).FlowMarked := by
  rw [Stack.setKind]
  split
  · exact h
  · rename_i f below hframes
    rw [FlowMarked, hframes] at h
    exact h

theorem leaving (h : s.FlowMarked) {f : Frame} {below : List Frame}
    (hframes : s.frames = f :: below) : (s.leaving below).FlowMarked := by
  rw [FlowMarked, hframes, flowDepthOf] at h
  rw [FlowMarked, Stack.leaving, h]
  rcases hbelow : flowDepthOf below with _ | outer
  · -- If there is no other flow collection below it, flow rules end with this one.
    by_cases hf : f.isFlow = true <;> simp [hf, Option.filter]
  · have hle := le_length_of_mem_flowDepthOf outer hbelow
    simp [Option.filter, hle]

theorem apply (h : s.FlowMarked) (column : Nat) (c : Construct) :
    (s.apply column c).stack.FlowMarked := by
  refine (keeps_apply (F := fun _ ↦ True) ?push ?switch
    (fun _ _ _ hframes h ↦ h.leaving hframes) (fun _ h ↦ h) (fun _ _ _ _ _ _ _ ↦ trivial)
    (fun _ ↦ trivial) h column c).stack
  case push =>
    intro s opener column block h
    have hframe : Frame.isFlow { opener, column } = false := by
      cases opener with
      | document | block => rfl
      | flow shape => exact absurd rfl (block shape)
    change s.flowDepth = (flowDepthOf s.frames).or _
    rw [hframe, if_neg Bool.false_ne_true, Option.or_none, h]
  case switch =>
    intro s shape column h
    change s.flowDepth.or _ = (flowDepthOf s.frames).or _
    rw [h]
    rfl

end FlowMarked

end Stack

namespace Lexer

theorem flowMarked_calls (c : Cursor) (cs : List Call) :
    ((ofCursor c).calls cs).stack.FlowMarked := by
  have hempty : (ofCursor c).stack.FlowMarked := rfl
  refine calls_induction (P := fun l ↦ l.stack.FlowMarked) ?_ (fun _ h ↦ h)
    (fun kind h ↦ h.setKind kind) hempty cs
  intro l answer l' h hpull
  cases hpull with
  | repeated | queued | refused => exact h
  | @faulted construct _ _ _ _ _ effect | @scanned construct _ _ _ _ _ effect =>
    have happly := h.apply l.nextPlace.column construct
    rwa [effect] at happly

/-- Whatever a client does: flow rules hold where a flow collection is open. -/
theorem inFlow_calls_iff (c : Cursor) (cs : List Call) :
    let l := (ofCursor c).calls cs
    l.inFlow = true ↔ ∃ f ∈ l.stack.frames, f.isFlow = true :=
  (flowMarked_calls c cs).inFlow_iff

end Lexer

end YamlLexer
