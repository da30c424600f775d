import YamlLexer.Proofs.Nesting.Changes

/-!
# Faults

A construct can fault for two reasons only. A structure of a kind that nothing closes stops whatever
would close it, and that takes an override. And a closing bracket may find no collection of its
shape open: no other construct has this fault (`eq_flowEnd_of_unopened`), whatever the stack.

So of the two, the one is about kinds and the other about brackets. A client that overrides nothing
never meets the first. The second is as much a matter of the input as of the stack, and it is left
to `Stack.tokens_closeFlow_iff` to say when it comes.
-/

namespace YamlLexer

/-- The only thing that can be at fault is a structure that cannot be closed. -/
def Nesting.OnlyUnclosable (n : Nesting) : Prop :=
  ∀ fault, n.tokens = .error fault → ∃ kind, fault = .unclosable kind

theorem Nesting.OnlyUnclosable.ne_unopened {n : Nesting} (h : n.OnlyUnclosable) (shape : Shape) :
    n.tokens ≠ .error (.unopened shape) := by
  intro htokens
  obtain ⟨kind, hkind⟩ := h _ htokens
  cases hkind

theorem Nesting.OnlyUnclosable.andThen {n : Nesting} (h : n.OnlyUnclosable)
    (step : Stack → Stack × List Token) : (n.andThen step).OnlyUnclosable := by
  intro fault htokens
  exact h fault (tokens_of_andThen htokens)

theorem Frame.exists_unclosable {f : Frame} {fault : NestingFault}
    (h : f.closers = .error fault) : ∃ kind, fault = .unclosable kind := by
  rw [closers] at h
  split at h
  · cases h
  · split at h
    · cases h
    · exact ⟨_, (Except.error.inj h).symm⟩

namespace Stack

theorem onlyUnclosable_close (s : Stack) (n : Nat) : (s.close n).OnlyUnclosable :=
  (keeps_close (P := fun _ ↦ True) (fun _ _ _ _ _ ↦ trivial)
    (fun _ f _ _ _ hclosers _ ↦ f.exists_unclosable hclosers) trivial n).fault

theorem onlyUnclosable_closeAll (s : Stack) : s.closeAll.OnlyUnclosable :=
  (s.onlyUnclosable_close s.depth).andThen _

theorem onlyUnclosable_enter (s : Stack) (shape : Shape) (column : Nat) :
    (s.enter shape column).OnlyUnclosable := by
  rw [enter]
  dsimp only
  split
  · intro fault h
    cases h
  · exact (s.onlyUnclosable_close _).andThen _

theorem onlyUnclosable_endDocument (s : Stack) : s.endDocument.OnlyUnclosable := by
  rw [endDocument]
  split
  · intro fault h
    cases h
  · exact s.onlyUnclosable_closeAll

/-- Only a closing bracket misses what it closes. -/
theorem eq_flowEnd_of_unopened {s : Stack} {column : Nat} {c : Construct} {shape : Shape}
    (h : (s.apply column c).tokens = .error (.unopened shape)) : c = .flowEnd shape := by
  rcases c with token | ⟨kind, _ | _⟩ | _ | shape' | shape' | _ | _ | _
  · cases h
  · cases h
  · exact absurd h (((s.onlyUnclosable_enter .mapping column).andThen _).ne_unopened shape)
  · exact absurd h ((s.onlyUnclosable_enter .sequence column).ne_unopened shape)
  · cases h
  · rw [apply, closeFlow] at h
    split at h
    · cases h
      rfl
    · exact absurd h ((s.onlyUnclosable_close _).ne_unopened shape)
  · exact absurd h ((s.onlyUnclosable_closeAll.andThen _).ne_unopened shape)
  · exact absurd h (s.onlyUnclosable_endDocument.ne_unopened shape)
  · rw [apply, endStream] at h
    split at h
    · cases h
    · exact absurd h (s.onlyUnclosable_endDocument.ne_unopened shape)

theorem eq_of_unopened {s s' : Stack} {column : Nat} {c : Construct} {shape : Shape}
    (h : s.apply column c = ⟨s', .error (.unopened shape)⟩) : s' = s := by
  obtain rfl := eq_flowEnd_of_unopened (congrArg Nesting.tokens h)
  rw [apply, closeFlow] at h
  split at h
  · exact (congrArg Nesting.stack h).symm
  · exact absurd (congrArg Nesting.tokens h) ((s.onlyUnclosable_close _).ne_unopened shape)

end Stack

end YamlLexer
