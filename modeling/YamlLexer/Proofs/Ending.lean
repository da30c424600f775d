import YamlLexer.Proofs.Schedules

/-!
# When a stream has ended for good

`Lexer.next?` keeps no record of having ended. It answers with none whenever it meets the token
`nothing`, and a client that asks again has to find out anew. So the question is where that token
comes from. At the end of the input it is all that is left, if the stack has the kind `nothing`
there, and asking again changes neither. No construct becomes `nothing`, and none becomes no token
at all, however the kinds of the open structures have been overridden (`Stack.eq_streamEnd_of_nil`).

But a client may inject that token, and then there can be more behind it: other tokens in line, or
the rest of the input. `Lexer.Over` is what remains when such a case is excluded, and it is exactly
what makes all further answers none. A client that does not inject `nothing` gets no such case to
see (`next?_stays_none`).
-/

namespace YamlLexer

/-!
## Every construct becomes tokens

Nothing is assumed about the stack here, as a client may have overridden any kind. Every construct
announces something, and a closing bracket at least the end of its collection. Only the end of the
input may come to nothing, and then the stack has no kind.
-/

namespace Stack

variable {s s' : Stack} {shape : Shape} {column : Nat} {tokens : List Token}

/-- A structure that a token closes is not closed without it. -/
theorem mem_of_close {n i : Nat} {f : Frame} {token : Token} (h : s.close n = ⟨s', .ok tokens⟩)
    (hf : s.frames[i]? = some f) (hi : i < n) (htoken : f.kind.closing? = some token) :
    token ∈ tokens := by
  induction n generalizing s tokens i with
  | zero => exact absurd hi (Nat.not_lt_zero i)
  | succ n ih =>
    have hne : s.frames ≠ [] := by
      intro hnil
      rw [hnil] at hf
      cases hf
    obtain ⟨g, below, hframes⟩ := List.exists_cons_of_ne_nil hne
    obtain ⟨first, rest, hfirst, hrest, rfl⟩ := close_succ_eq_ok hframes h
    rw [hframes] at hf
    rcases i with _ | i
    · obtain rfl : g = f := Option.some.inj hf
      rw [Frame.closers_of_closing? htoken] at hfirst
      obtain rfl : [token] = first := Except.ok.inj hfirst
      exact List.mem_append_left rest List.mem_cons_self
    · exact List.mem_append_right first (ih hrest hf (Nat.lt_of_succ_lt_succ hi))

theorem enter_ne_nil (h : s.enter shape column = ⟨s', .ok tokens⟩) : tokens ≠ [] := by
  rw [enter] at h
  split at h
  · obtain ⟨-, rfl⟩ : s = s' ∧ [shape.entryToken] = tokens := by simpa using h
    exact List.cons_ne_nil _ _
  · obtain ⟨first, -, -, rfl⟩ := Nesting.andThen_eq_ok_iff.mp h
    refine List.append_ne_nil_of_right_ne_nil _ ?_
    split
    · exact List.cons_ne_nil _ _
    · exact List.append_ne_nil_of_right_ne_nil _ (List.cons_ne_nil _ _)

theorem closeFlow_ne_nil (h : s.closeFlow shape = ⟨s', .ok tokens⟩) : tokens ≠ [] := by
  rw [closeFlow] at h
  split at h
  · exact absurd (congrArg Nesting.tokens h) (by simp)
  · rename_i i hfind
    obtain ⟨hlt, hkind, -⟩ := List.findIdx?_eq_some_iff_getElem.mp hfind
    have hclosing : s.frames[i].kind.closing? = some shape.endToken := by
      rw [of_decide_eq_true hkind, shape.closing?_startToken]
    exact List.ne_nil_of_mem
      (mem_of_close h (List.getElem?_eq_getElem hlt) (Nat.lt_succ_self i) hclosing)

theorem endDocument_ne_nil (h : s.endDocument = ⟨s', .ok tokens⟩) : tokens ≠ [] := by
  rw [endDocument] at h
  split at h
  · rename_i closed _
    obtain ⟨-, rfl⟩ := Nesting.mk.inj h |>.imp id Except.ok.inj
    split
    · rename_i hends
      exact List.ne_nil_of_mem (List.contains_iff_mem.mp hends)
    · exact List.append_ne_nil_of_right_ne_nil _ (List.cons_ne_nil _ _)
  · rename_i hfaulty
    exact absurd h (hfaulty _ _)

/-- Only the end of the input becomes no token, and only where the stack has no kind. -/
theorem eq_streamEnd_of_nil {c : Construct} (h : s.apply column c = ⟨s', .ok []⟩) :
    c = .streamEnd ∧ s.kind = .nothing := by
  rcases c with token | ⟨kind, _ | _⟩ | _ | shape | shape | _ | _ | _
  · exact absurd (congrArg Nesting.tokens h) (by simp [apply])
  · exact absurd (congrArg Nesting.tokens h) (by simp [apply])
  · rw [apply] at h
    obtain ⟨first, -, -, hnil⟩ := Nesting.andThen_eq_ok_iff.mp h
    exact absurd hnil (List.append_ne_nil_of_right_ne_nil _ (List.cons_ne_nil _ _))
  · exact absurd rfl (enter_ne_nil h)
  · exact absurd (congrArg Nesting.tokens h) (by simp [apply, openFlow])
  · exact absurd rfl (closeFlow_ne_nil h)
  · rw [apply, startDocument] at h
    obtain ⟨first, -, -, hnil⟩ := Nesting.andThen_eq_ok_iff.mp h
    exact absurd hnil (List.append_ne_nil_of_right_ne_nil _ (List.cons_ne_nil _ _))
  · exact absurd rfl (endDocument_ne_nil h)
  · by_cases hkind : s.kind = .nothing
    · exact ⟨rfl, hkind⟩
    · rw [apply, endStream, if_neg hkind] at h
      exact absurd rfl (endDocument_ne_nil h)

end Stack

namespace Lexer

variable {l l' : Lexer}

/-! ## The ways to answer with none -/

/-- Where the end of the input finds a stack without a kind, that is all there is to it. -/
theorem AtEnd.next_of_kind (h : l.AtEnd) (kind : l.stack.kind = .nothing) :
    l.next = (.ok .nothing, { l.moved with last := .nothing, pending := [] }) := by
  have heffect : l.stack.apply l.nextPlace.column .streamEnd = ⟨l.stack, .ok []⟩ := by
    rw [Stack.apply, Stack.endStream, if_pos kind]
  exact next_of_scanned h.running h.queue h.found heffect

/-- The token `nothing` is delivered because it was in line, or because the input is used up. -/
theorem Pull.of_nothing (h : l.Pull (.ok .nothing) l') :
    (∃ pending, l.failure = none ∧ l.pending = .nothing :: pending) ∨
      l.AtEnd ∧ l.stack.kind = .nothing := by
  generalize hanswer : Except.ok Token.nothing = answer at h
  rcases h with _ | ⟨failure, queue⟩ | _ | _ | ⟨failure, queue, found, effect⟩
  · cases hanswer
  · obtain rfl := Except.ok.inj hanswer
    exact .inl ⟨_, failure, queue⟩
  · cases hanswer
  · cases hanswer
  · rename_i c stack tokens
    rcases tokens with _ | ⟨token, tokens⟩
    · obtain ⟨rfl, hkind⟩ := Stack.eq_streamEnd_of_nil effect
      exact .inr ⟨⟨failure, queue, l.reads_upcoming.eq_nil found⟩, hkind⟩
    · obtain rfl : Token.nothing = token := Except.ok.inj hanswer
      exact absurd List.mem_cons_self (nothing_not_mem_scanned found effect)

theorem next?_of_nothing (h : l.next.1 = .ok .nothing) : l.next?.1 = none :=
  fst_next?_of_nothing (Prod.ext h rfl)

theorem of_next?_eq_none (h : l.next?.1 = none) :
    l.failure ≠ none ∨ (∃ pending, l.failure = none ∧ l.pending = .nothing :: pending) ∨
      l.AtEnd ∧ l.stack.kind = .nothing := by
  rcases hfailure : l.failure with _ | e
  · rcases hnext : l.next with ⟨e | token, l'⟩
    · rw [fst_next?_of_error hfailure hnext] at h
      cases h
    · by_cases htoken : token = .nothing
      · rw [htoken] at hnext
        have hpull := (pull_of_next hnext).of_nothing
        rw [hfailure] at hpull
        exact .inr hpull
      · rw [fst_next?_of_token hnext htoken] at h
        cases h
  · exact .inl (Option.some_ne_none e)

/-! ## Over -/

/-- Nothing will be delivered any more. There has been an error; or the input is used up, nothing
that has a kind is innermost, and if anything is in line, it is `nothing`. -/
def Over (l : Lexer) : Prop :=
  l.failure ≠ none ∨
    (∀ token ∈ l.pending, token = .nothing) ∧ l.upcoming = [] ∧ l.stack.kind = .nothing

theorem AtEnd.over (h : l.AtEnd) (kind : l.stack.kind = .nothing) : l.Over := by
  refine .inr ⟨?_, h.ahead, kind⟩
  intro token hmem
  rw [h.queue] at hmem
  exact absurd hmem List.not_mem_nil

theorem Over.next? (h : l.Over) : l.next?.1 = none ∧ l.next?.2.Over := by
  rcases hfailure : l.failure with _ | e
  · obtain ⟨hqueue, hahead, hkind⟩ := h.resolve_left (not_not_intro hfailure)
    rcases hpending : l.pending with _ | ⟨token, pending⟩
    · have hend : l.AtEnd := ⟨hfailure, hpending, hahead⟩
      have hnext := hend.next_of_kind hkind
      refine ⟨next?_of_nothing (congrArg Prod.fst hnext), ?_⟩
      rw [snd_next?, hnext]
      exact .inr ⟨fun token hmem ↦ absurd hmem List.not_mem_nil, hend.upcoming_moved, hkind⟩
    · rw [hpending] at hqueue
      obtain ⟨rfl, hrest⟩ := List.forall_mem_cons.mp hqueue
      have hnext := next_of_pending hfailure hpending
      refine ⟨next?_of_nothing (congrArg Prod.fst hnext), ?_⟩
      rw [snd_next?, hnext]
      exact .inr ⟨hrest, hahead, hkind⟩
  · rw [next?_of_failure hfailure]
    exact ⟨rfl, h⟩

theorem Over.calls (h : l.Over) (n : Nat) : (l.calls (List.replicate n .next?)).Over := by
  induction n generalizing l with
  | zero => exact h
  | succ n ih => exact ih h.next?.2

/-- Nothing but a lexer that is over goes on answering with none. The induction is on what is in
line: unless it is `nothing`, it is delivered, and behind it the end of the input has to be met. -/
theorem over_of_forall_none (h : ∀ n, (l.calls (List.replicate n .next?)).next?.1 = none) :
    l.Over := by
  generalize hpending : l.pending = pending
  have hnone : l.next?.1 = none := h 0
  induction pending generalizing l with
  | nil =>
    rcases of_next?_eq_none hnone with hfailure | ⟨pending, -, hqueue⟩ | ⟨hend, hkind⟩
    · exact .inl hfailure
    · cases hpending.symm.trans hqueue
    · exact hend.over hkind
  | cons token pending ih =>
    rcases of_next?_eq_none hnone with hfailure | ⟨_, running, hqueue⟩ | ⟨hend, hkind⟩
    · exact .inl hfailure
    · obtain ⟨rfl, rfl⟩ := List.cons_eq_cons.mp (hpending.symm.trans hqueue)
      have hcall : l.next?.2 = { l with last := .nothing, pending := pending } := by
        rw [snd_next?, next_of_pending running hqueue]
        rfl
      have hover : l.next?.2.Over := by
        refine ih (fun n ↦ h (n + 1)) ?_ (h 1)
        rw [hcall]
      rw [hcall] at hover
      obtain ⟨hrest, hahead, hkind⟩ := hover.resolve_left (not_not_intro running)
      refine .inr ⟨?_, hahead, hkind⟩
      rw [hpending]
      exact List.forall_mem_cons.mpr ⟨rfl, hrest⟩
    · exact hend.over hkind

/-! ## Clients -/

theorem nothing_not_mem_pending_calls (c : Cursor) {cs : List Call}
    (proper : Call.push .nothing ∉ cs) : .nothing ∉ ((ofCursor c).calls cs).pending := by
  have hstart : .nothing ∉ (ofCursor c).pending := List.not_mem_nil
  refine calls_induction_of_mem (P := fun l ↦ .nothing ∉ l.pending) ?_ ?_ ?_ hstart
  · intro l answer l' h hpull
    exact hpull.nothing_not_mem_pending h
  · intro l token hmem h hqueue
    rcases List.mem_cons.mp hqueue with rfl | hqueue
    · exact proper hmem
    · exact h hqueue
  · intro l kind _ h
    exact h

/-- Whatever a client has done, in an input that is read from anywhere: once `next?` has answered
with none, it goes on doing so, if the client has not injected the token `nothing`. In any case, it
goes on doing so just if the lexer is over. -/
theorem next?_stays_none (c : Cursor) (cs : List Call) :
    let l := (ofCursor c).calls cs
    l.next?.1 = none →
      (Call.push .nothing ∉ cs → ∀ n, (l.calls (List.replicate n .next?)).next?.1 = none) ∧
        ((∀ n, (l.calls (List.replicate n .next?)).next?.1 = none) ↔ l.Over) := by
  intro l hnone
  have hover (h : l.Over) (n : Nat) : (l.calls (List.replicate n .next?)).next?.1 = none :=
    (h.calls n).next?.1
  refine ⟨?_, over_of_forall_none, hover⟩
  intro proper
  refine hover ?_
  rcases of_next?_eq_none hnone with hfailure | ⟨pending, -, hqueue⟩ | ⟨hend, hkind⟩
  · exact .inl hfailure
  · have hmem : .nothing ∈ l.pending := by
      rw [hqueue]
      exact List.mem_cons_self
    exact absurd hmem (nothing_not_mem_pending_calls c proper)
  · exact hend.over hkind

/-- A client that makes a mapping without a kind innermost, and injects a token. The input ends with
the mapping and its document open, as the kind `nothing` stands for nothing to be closed. -/
theorem next?_stays_none_override :
    let c := Cursor.ofBytes [0x61, 0x3A]
    let cs : List Call := [.next, .setContext .nothing, .push .text, .next?, .next?, .next?, .next?]
    let l := (ofCursor c).calls cs
    l.next?.1 = none ∧ l.depth = 2 ∧ Call.push .nothing ∉ cs ∧
      ∀ n, (l.calls (List.replicate n .next?)).next?.1 = none := by
  intro c cs l
  have hnone : l.next?.1 = none := by decide
  have hproper : Call.push .nothing ∉ cs := by decide
  exact ⟨hnone, by decide, hproper, (next?_stays_none c cs hnone).1 hproper⟩

/-- A client that injects `nothing` in front of a scalar. It gets none, and then the scalar. -/
theorem next?_after_injected_nothing :
    let l := (ofBytes [0x61]).calls [.push .nothing]
    l.next?.1 = none ∧ (l.calls [.next?]).next?.1 = some (.ok .text) := by
  decide

end Lexer

end YamlLexer
