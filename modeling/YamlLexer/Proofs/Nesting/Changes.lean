import YamlLexer.Nesting.Effect

/-!
# What constructs keep

However many constructs there are, what they do to a stack comes down to four changes of it: a
structure is pushed that no bracket opens, a flow collection is pushed and flow rules hold from then
on, the innermost structure is taken off, an override of the kind of the stream is dropped. And they
are at fault for two reasons. `Stack.keeps_apply` turns this around. A property of stacks that each
of the changes keeps is kept by every construct, also by one that is at fault, and the fault has a
property if it has it for each of the reasons. Nothing is supposed about the kinds on the stack,
which a client may have changed.

The depth at which flow rules were switched on is a first example. It is never greater than the
depth of the stack, so there is still a level at that depth (`Stack.FlowWithin.apply`).
-/

namespace YamlLexer

theorem Nesting.tokens_of_andThen {n : Nesting} {step : Stack → Stack × List Token}
    {fault : NestingFault} (h : (n.andThen step).tokens = .error fault) :
    n.tokens = .error fault := by
  rcases htokens : n.tokens with fault' | tokens
  · simpa [andThen, htokens] using h
  · simp [andThen, htokens] at h

/-- A property holds of the stack that a change leaves, and another one of its fault, if it has
one. -/
structure Nesting.Keeps (P : Stack → Prop) (F : NestingFault → Prop) (n : Nesting) : Prop where
  stack : P n.stack
  fault : ∀ fault, n.tokens = .error fault → F fault

namespace Stack

variable {s : Stack}

section Keeps

open Nesting

variable {P : Stack → Prop} {F : NestingFault → Prop}
  (push : ∀ (s : Stack) opener column, (∀ shape, opener ≠ .flow shape) → P s →
    P (s.push opener column))
  (switch : ∀ (s : Stack) shape column, P s →
    P { s.push (.flow shape) column with flowDepth := s.flowDepth.or (some (s.depth + 1)) })
  (leave : ∀ (s : Stack) f below, s.frames = f :: below → P s → P (s.leaving below))
  (reset : ∀ s : Stack, P s → P { s with rootKind := .nothing })
  (unclosable : ∀ (s : Stack) f below fault, s.frames = f :: below → f.closers = .error fault →
    P s → F fault)
  (unopened : ∀ shape, F (.unopened shape))

theorem keeps_ok (h : P s) (tokens : List Token) : Keeps P F ⟨s, .ok tokens⟩ :=
  ⟨h, fun _ htokens ↦ nomatch htokens⟩

theorem keeps_andThen {n : Nesting} {step : Stack → Stack × List Token} (h : n.Keeps P F)
    (hstep : ∀ s : Stack, P s → P (step s).1) : (n.andThen step).Keeps P F := by
  refine ⟨?_, fun fault htokens ↦ h.fault fault (tokens_of_andThen htokens)⟩
  rw [Nesting.andThen]
  split
  · exact h.stack
  · exact hstep n.stack h.stack

include push in
theorem start_induction (h : P s) {opener : Opener} (block : ∀ shape, opener ≠ .flow shape)
    (column : Nat) : P (s.start opener column).1 := by
  rw [start]
  split
  · exact push _ opener column block (push s .document 0 nofun h)
  · exact push s opener column block h

include push switch in
theorem startFlow_induction (h : P s) (shape : Shape) (column : Nat) :
    P (s.startFlow shape column).1 := by
  by_cases hkind : s.kind = .nothing
  · rw [startFlow, start, if_pos hkind]
    exact switch _ shape column (push s .document 0 nofun h)
  · rw [startFlow, start, if_neg hkind]
    exact switch s shape column h

include leave unclosable in
theorem keeps_close (h : P s) (n : Nat) : (s.close n).Keeps P F := by
  induction n generalizing s with
  | zero => exact keeps_ok h []
  | succ n ih =>
    rw [close]
    split
    · exact keeps_ok h []
    · rename_i f below hframes
      split
      · rename_i fault hclosers
        refine ⟨h, ?_⟩
        rintro _ ⟨rfl⟩
        exact unclosable s f below fault hframes hclosers h
      · have hrest := ih (leave s f below hframes h)
        refine ⟨hrest.stack, fun fault htokens ↦ hrest.fault fault ?_⟩
        rcases hrest : ((s.leaving below).close n).tokens with fault' | rest
        · simpa [hrest, Except.map] using htokens
        · simp [hrest, Except.map] at htokens

include leave reset unclosable in
theorem keeps_closeAll (h : P s) : s.closeAll.Keeps P F :=
  keeps_andThen (keeps_close leave unclosable h s.depth) reset

include leave reset unclosable in
theorem keeps_endDocument (h : P s) : s.endDocument.Keeps P F := by
  have hempty : s.closeAll.Keeps P F := keeps_closeAll leave reset unclosable h
  rw [endDocument]
  split
  · rename_i hclose
    rw [hclose] at hempty
    exact keeps_ok hempty.stack _
  · exact hempty

include push leave unclosable in
theorem keeps_enter (h : P s) (shape : Shape) (column : Nat) :
    (s.enter shape column).Keeps P F := by
  rw [enter]
  split
  · exact keeps_ok h _
  · refine keeps_andThen (keeps_close leave unclosable h _) fun outer houter ↦ ?_
    split
    · exact houter
    · have hblock : ∀ other, Opener.block shape ≠ .flow other := nofun
      exact start_induction push houter hblock column

theorem flowDepth_start (s : Stack) (opener : Opener) (column : Nat) :
    (s.start opener column).1.flowDepth = s.flowDepth := by
  rw [start]
  split
  · rfl
  · rfl

include push switch leave reset unclosable unopened in
/-- Whatever a construct does, it does by pushing a structure, by pushing a flow collection and
switching to flow rules, by taking the innermost structure off, and by dropping an override of the
kind of the stream. It is at fault for a structure that it cannot take off, or for a bracket. -/
theorem keeps_apply (h : P s) (column : Nat) (c : Construct) : (s.apply column c).Keeps P F := by
  rcases c with token | ⟨kind, _ | _⟩ | _ | shape | shape | _ | _ | _
  · exact keeps_ok h _
  · exact keeps_ok h _
  · rw [apply]
    exact keeps_andThen (keeps_enter push leave unclosable h .mapping column) fun _ hinner ↦ hinner
  · exact keeps_enter push leave unclosable h .sequence column
  · exact keeps_ok (startFlow_induction push switch h shape column) _
  · rw [apply, closeFlow]
    split
    · refine ⟨h, ?_⟩
      rintro _ ⟨rfl⟩
      exact unopened shape
    · exact keeps_close leave unclosable h _
  · rw [apply, startDocument]
    exact keeps_andThen (keeps_closeAll leave reset unclosable h) fun empty hempty ↦
      push empty .document 0 nofun hempty
  · exact keeps_endDocument leave reset unclosable h
  · rw [apply, endStream]
    split
    · exact keeps_ok h _
    · exact keeps_endDocument leave reset unclosable h

end Keeps

/-! ## The level that switched to flow rules -/

/-- If flow rules are on, there is a level at the depth at which they were switched on. -/
def FlowWithin (s : Stack) : Prop := ∀ flow ∈ s.flowDepth, flow ≤ s.depth

theorem flowWithin_empty : FlowWithin {} := fun _ hflow ↦ nomatch hflow

theorem FlowWithin.setKind (h : s.FlowWithin) (kind : Token) : (s.setKind kind).FlowWithin := by
  rw [Stack.setKind]
  split
  · exact h
  · rename_i hframes
    intro flow hflow
    have hle := h flow hflow
    rwa [depth, hframes] at hle

theorem FlowWithin.apply (h : s.FlowWithin) (column : Nat) (c : Construct) :
    (s.apply column c).stack.FlowWithin := by
  refine (keeps_apply (F := fun _ ↦ True) ?push ?switch ?leave ?reset (fun _ _ _ _ _ _ _ ↦ trivial)
    (fun _ ↦ trivial) h column c).stack
  case push => exact fun s opener column _ h flow hflow ↦ Nat.le_succ_of_le (h flow hflow)
  case switch =>
    intro s shape column h flow hflow
    rcases hswitched : s.flowDepth with _ | _
    · rw [hswitched] at hflow
      cases hflow
      exact Nat.le_refl _
    · rw [hswitched] at hflow
      cases hflow
      exact Nat.le_succ_of_le (h flow hswitched)
  case leave =>
    intro s f below _ _ flow hflow
    exact of_decide_eq_true (Option.filter_eq_some_iff.mp hflow).2
  case reset => exact fun s h ↦ h

end Stack

end YamlLexer
