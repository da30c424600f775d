import YamlLexer.Nesting.Effect

/-!
# What structures cost

Every open structure will be closed by a token, and the end of a document is announced even where
no structure is one: `Stack.debt` counts the tokens that may still be due. A construct becomes a
few tokens and leaves a few more due (`length_apply_add_debt`). The end of the input, which can be
read any number of times, pays for its tokens out of the debt (`length_endStream_add_debt`).
-/

namespace YamlLexer.Stack

/-- The number of tokens that it may take to close everything: one for each structure, and one for
the document, which is announced also if no structure is one. -/
def debt (s : Stack) : Nat := s.depth + if s.kind = .nothing then 0 else 1

theorem debt_le (s : Stack) : s.debt ≤ s.depth + 1 := by
  rw [debt]
  split <;> omega

theorem length_close_add_depth {s s' : Stack} {n : Nat} {tokens : List Token}
    (h : s.close n = ⟨s', .ok tokens⟩) : tokens.length + s'.depth ≤ s.depth := by
  have hlength := length_close_le h
  rw [depth, frames_close h, List.length_drop, ← depth]
  omega

theorem length_closeAll {s s' : Stack} {tokens : List Token}
    (h : s.closeAll = ⟨s', .ok tokens⟩) :
    tokens.length ≤ s.depth ∧ s'.depth = 0 ∧ s'.kind = .nothing := by
  obtain ⟨first, hfirst, rfl, rfl⟩ := Nesting.andThen_eq_ok_iff.mp h
  have hclose : s.close s.depth = ⟨(s.close s.depth).stack, .ok first⟩ :=
    congrArg (Nesting.mk _) hfirst
  have hframes : (s.close s.depth).stack.frames = [] := by
    rw [frames_close hclose, depth, List.drop_length]
  refine ⟨?_, congrArg List.length hframes, by rw [kind, hframes]⟩
  simpa using length_close_le hclose

theorem length_start_add_depth (s : Stack) (opener : Opener) (column : Nat) :
    (s.start opener column).2.length + (s.start opener column).1.depth ≤ s.depth + 3 := by
  rw [start]
  split
  · simp only [depth_push, List.length_singleton]
    omega
  · simp only [depth_push, List.length_nil]
    omega

/-- An entry takes at most its own token, those of a structure and a document that it opens, and
those that close the two. -/
theorem length_enter_add_depth {s s' : Stack} {shape : Shape} {column : Nat} {tokens : List Token}
    (h : s.enter shape column = ⟨s', .ok tokens⟩) : tokens.length + s'.depth ≤ s.depth + 5 := by
  rw [enter] at h
  split at h
  · cases h
    simp
    omega
  · obtain ⟨first, hfirst, rfl, rfl⟩ := Nesting.andThen_eq_ok_iff.mp h
    have hclose := length_close_add_depth (s := s) (congrArg (Nesting.mk _) hfirst)
    split
    · simp
      omega
    · have hstart := length_start_add_depth
        (s.close (s.frames.takeWhile ((Opener.block shape).rank column < ·.indent)).length).stack
        (.block shape) column
      simp only [List.length_append, List.length_cons, List.length_nil]
      omega

theorem length_openFlow_add_depth {s s' : Stack} {shape : Shape} {column : Nat}
    {tokens : List Token} (h : s.openFlow shape column = ⟨s', .ok tokens⟩) :
    tokens.length + s'.depth ≤ s.depth + 5 := by
  have hstart := length_start_add_depth s (.flow shape) column
  simp only [openFlow, Nesting.mk.injEq, Except.ok.injEq] at h
  obtain ⟨rfl, rfl⟩ := h
  have hdepth : (s.startFlow shape column).1.depth = (s.start (.flow shape) column).1.depth := rfl
  have htokens : (s.startFlow shape column).2 = (s.start (.flow shape) column).2 := rfl
  rw [hdepth, htokens]
  split <;> simp only [List.length_append, List.length_cons, List.length_nil] <;> omega

theorem length_closeFlow_add_depth {s s' : Stack} {shape : Shape} {tokens : List Token}
    (h : s.closeFlow shape = ⟨s', .ok tokens⟩) : tokens.length + s'.depth ≤ s.depth := by
  rw [closeFlow] at h
  split at h
  · cases h
  · exact length_close_add_depth h

theorem length_startDocument_add_depth {s s' : Stack} {tokens : List Token}
    (h : s.startDocument = ⟨s', .ok tokens⟩) : tokens.length + s'.depth ≤ s.depth + 2 := by
  obtain ⟨first, hfirst, rfl, rfl⟩ := Nesting.andThen_eq_ok_iff.mp h
  have hclose : first.length ≤ s.depth ∧ s.closeAll.stack.depth = 0 ∧ _ :=
    length_closeAll (congrArg (Nesting.mk _) hfirst)
  simp only [depth_push, List.length_append, List.length_cons, List.length_nil]
  omega

theorem length_endDocument {s s' : Stack} {tokens : List Token}
    (h : s.endDocument = ⟨s', .ok tokens⟩) :
    tokens.length ≤ s.depth + 1 ∧ s'.debt = 0 := by
  rw [endDocument] at h
  split at h
  · rename_i empty first hfirst
    obtain ⟨hlength, hdepth, hkind⟩ := length_closeAll hfirst
    cases h
    refine ⟨?_, by rw [debt, hdepth, if_pos hkind]⟩
    split
    · omega
    · rw [List.length_append, List.length_singleton]
      omega
  · rename_i hfaulty
    exact absurd h (hfaulty _ _)

/-- The end of the input takes no bytes, so the tokens have been paid for before. -/
theorem length_endStream_add_debt {s s' : Stack} {tokens : List Token}
    (h : s.endStream = ⟨s', .ok tokens⟩) : tokens.length + s'.debt ≤ s.debt := by
  rw [endStream] at h
  split at h
  · cases h
    simp
  · rename_i hkind
    obtain ⟨hlength, hdebt⟩ := length_endDocument h
    rw [hdebt, debt, if_neg hkind]
    exact hlength

/-- What a construct that takes bytes may cost: the tokens that it becomes, and those that will
close what it opens. -/
theorem length_apply_add_depth {s s' : Stack} {c : Construct} {column : Nat} {tokens : List Token}
    (h : s.apply column c = ⟨s', .ok tokens⟩) : tokens.length + s'.depth ≤ s.depth + 6 := by
  have hdebt : s'.depth ≤ s'.debt := Nat.le_add_right _ _
  -- The dearest construct is a key: an entry, and one more token for the scalar.
  cases c with
  | single token =>
    cases h
    rw [List.length_singleton]
    omega
  | scalar kind isKey =>
    cases isKey with
    | false =>
      cases h
      rw [List.length_singleton]
      omega
    | true =>
      rw [apply] at h
      obtain ⟨first, hfirst, rfl, rfl⟩ := Nesting.andThen_eq_ok_iff.mp h
      have hcost : first.length + (s.enter .mapping column).stack.depth ≤ s.depth + 5 :=
        length_enter_add_depth (congrArg (Nesting.mk _) hfirst)
      dsimp only
      rw [List.length_append, List.length_singleton]
      omega
  | entry =>
    have := length_enter_add_depth h
    omega
  | flowStart shape =>
    have := length_openFlow_add_depth h
    omega
  | flowEnd shape =>
    have := length_closeFlow_add_depth h
    omega
  | documentStart =>
    have := length_startDocument_add_depth h
    omega
  | documentEnd =>
    obtain ⟨hlength, hclosed⟩ := length_endDocument h
    omega
  | streamEnd =>
    have hcost := length_endStream_add_debt h
    have hle := s.debt_le
    omega

theorem length_apply_add_debt {s s' : Stack} {c : Construct} {column : Nat} {tokens : List Token}
    (h : s.apply column c = ⟨s', .ok tokens⟩) : tokens.length + s'.debt ≤ s.debt + 7 := by
  have hcost := length_apply_add_depth h
  have hle := s'.debt_le
  have hge : s.depth ≤ s.debt := Nat.le_add_right _ _
  omega

end YamlLexer.Stack
