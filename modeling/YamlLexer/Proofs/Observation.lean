import YamlLexer.Proofs.Exhaustion

/-!
# A second look at the last token

`Lexer.current` is there to look at the last token again. It pulls if there has been none, and takes
that from the token itself: to have the token `nothing` last is to have none. But `nothing` can be
the last token that a client has got, at the end of the input or because it was injected. Then
`current` is one more pull, and may deliver what has been injected since, or read on.

So a client that looks again sees the same token, and leaves no trace, whenever that token is a proper
one, whatever it has done in between and also after an error. If it is `nothing`, the same can be said
just where a pull makes no difference, which is where the lexer is exhausted
(`current_observes_iff`).

## What a client has been shown

Which token is the last one is a matter of what the client has got (`received`), not of the state.
The two agree as long as every token that is delivered is also shown (`last_calls`). `next?` is the
one call that may take `nothing` out of line and not show it, so it is excluded. An injected token
has been got when it is delivered, and not when it is put in line.
-/

namespace YamlLexer

/-- The token that a client gets with an answer. -/
def Answer.token? : Answer → Option Token
  | .token (.ok t) | .item (some (.ok t)) => some t
  | _ => none

namespace Lexer

/-- The tokens that a client gets by some calls, in order. -/
def received (l : Lexer) (cs : List Call) : List Token :=
  (l.session (cs.map .call)).1.filterMap Answer.token?

/-- What a look at a lexer must leave as it is: the position, the lexeme, the open structures, and
what is in line. -/
structure Unmoved (l l' : Lexer) : Prop where
  cursor : l'.cursor = l.cursor
  line : l'.line = l.line
  lineStart : l'.lineStart = l.lineStart
  lexeme : l'.lexeme = l.lexeme
  stack : l'.stack = l.stack
  pending : l'.pending = l.pending

variable {l : Lexer} {c : Call} {cs : List Call} {token : Token}

/-! ## The token delivered last -/

theorem received_cons (l : Lexer) (c : Call) (cs : List Call) :
    l.received (c :: cs) = (l.ask (.call c)).1.token?.toList ++ (l.call c).received cs := by
  rw [received, List.map_cons, session, List.filterMap_cons, snd_ask_call]
  split
  · rename_i hnone
    rw [hnone]
    rfl
  · rename_i token hsome
    rw [hsome]
    rfl

theorem last_next (l : Lexer) : l.next.2.last = (Answer.token l.next.1).token?.getD l.last := by
  have hpull := l.pull_next
  rcases hanswer : l.next.1 with e | token
  · rw [hanswer] at hpull
    exact hpull.last_of_error
  · rw [hanswer] at hpull
    exact hpull.last_of_ok

/-- The token delivered last is the one that the client got last. Only `next?` may deliver a token
and not show it. -/
theorem last_call (direct : c ≠ .next?) :
    (l.call c).last = (l.ask (.call c)).1.token?.getD l.last := by
  cases c with
  | next => exact l.last_next
  | next? => exact absurd rfl direct
  | current =>
    change l.current.2.last = (Answer.token l.current.1).token?.getD l.last
    rw [current]
    split
    · exact l.last_next
    · rfl
  | push | setContext => rfl

theorem last_calls (direct : Call.next? ∉ cs) :
    (l.calls cs).last = (l.received cs).getLastD l.last := by
  induction cs generalizing l with
  | nil => rfl
  | cons c cs ih =>
    rw [List.mem_cons, not_or] at direct
    obtain ⟨hc, hcs⟩ := direct
    have hcalls : (l.calls (c :: cs)).last = ((l.call c).received cs).getLastD (l.call c).last :=
      ih hcs
    rw [hcalls, received_cons, last_call (Ne.symm hc)]
    rcases (l.ask (.call c)).1.token? with _ | token
    · rfl
    · rw [Option.toList_some, List.singleton_append, List.getLastD_cons, Option.getD_some]

/-! ## Looking again -/

/-- A pull that delivers `nothing` once more, and leaves no trace, changes nothing at all. -/
theorem next_eq_of_unmoved (last : l.last = .nothing) (answer : l.next.1 = .ok .nothing)
    (unmoved : l.Unmoved l.next.2) : l.next = (.ok .nothing, l) := by
  have hpull := l.pull_next
  rw [answer] at hpull
  have hlast : l.next.2.last = l.last := hpull.last_of_ok.trans last.symm
  have hfailure : l.next.2.failure = l.failure :=
    hpull.running_of_ok.trans hpull.failure_of_ok.symm
  refine Prod.ext answer ?_
  change Lexer.mk l.next.2.cursor l.next.2.line l.next.2.lineStart l.next.2.lexeme l.next.2.stack
    l.next.2.pending l.next.2.last l.next.2.failure = l
  rw [unmoved.cursor, unmoved.line, unmoved.lineStart, unmoved.lexeme, unmoved.stack,
    unmoved.pending, hlast, hfailure]

/-- On every input, read from anywhere, and whatever a client does that shows it the tokens: once it
has got one, and that was a proper token, to look again shows the same token and changes nothing. If
it was `nothing`, to look again is to pull. So a look shows the token that was got last, and leaves
no trace, just if that is a proper token or the lexer is exhausted. -/
theorem current_observes_iff (c : Cursor) {cs : List Call} (direct : Call.next? ∉ cs)
    (got : ((ofCursor c).received cs).getLast? = some token) :
    let l := (ofCursor c).calls cs
    (token ≠ .nothing → l.current = (.ok token, l)) ∧
      (token = .nothing → l.current = l.next) ∧
      (l.current.1 = .ok token ∧ l.Unmoved l.current.2 ↔ token ≠ .nothing ∨ l.Exhausted) := by
  intro l
  have hlast : l.last = token := by
    rw [last_calls direct, List.getLastD_eq_getLast?, got, Option.getD_some]
  have hproper (proper : token ≠ .nothing) : l.current = (.ok token, l) := by
    rw [current, if_neg (hlast ▸ proper), hlast]
  have hnothing (nothing : token = .nothing) : l.current = l.next := by
    rw [current, if_pos (hlast.trans nothing)]
  refine ⟨hproper, hnothing, ?_, ?_⟩
  · rintro ⟨answer, unmoved⟩
    by_cases htoken : token = .nothing
    · rw [hnothing htoken, htoken] at answer
      rw [hnothing htoken] at unmoved
      exact .inr (exhausted_iff.mpr (next_eq_of_unmoved (hlast.trans htoken) answer unmoved))
    · exact .inl htoken
  · rintro (proper | exhausted)
    · rw [hproper proper]
      exact ⟨rfl, rfl, rfl, rfl, rfl, rfl, rfl⟩
    · have htoken : token = .nothing := hlast.symm.trans exhausted.last
      rw [hnothing htoken, exhausted.next, htoken]
      exact ⟨rfl, rfl, rfl, rfl, rfl, rfl, rfl⟩

/-- A client that injects a token in front of a bracket without a partner, and looks again after the
error. An override of the kind makes no difference either. -/
theorem current_observes_iff_after_error :
    let c := Cursor.ofBytes [0x61, 0x20, 0x5D]
    let cs : List Call := [.current, .push .tag, .next, .next, .setContext .mappingStart]
    let l := (ofCursor c).calls cs
    Call.next? ∉ cs ∧ ((ofCursor c).received cs).getLast? = some .tag ∧
      l.failure = some (.unbalancedCloser ']' ⟨2, 0, 2⟩) ∧
      l.current.1 = .ok .tag ∧ l.Unmoved l.current.2 := by
  intro c cs l
  have hdirect : Call.next? ∉ cs := by decide
  have hgot : ((ofCursor c).received cs).getLast? = some .tag := by decide
  have hproper : Token.tag ≠ .nothing := by decide
  obtain ⟨-, -, hiff⟩ := current_observes_iff c hdirect hgot
  exact ⟨hdirect, hgot, by decide, hiff.mpr (.inl hproper)⟩

/-- A client that has got to the end of the input and injects a token there. To look again takes that
token out of line, although the last one was `nothing`. -/
theorem current_after_end :
    let c := Cursor.ofBytes [0x61]
    let cs : List Call := [.next, .next, .push .comment]
    let l := (ofCursor c).calls cs
    (ofCursor c).received cs = [.text, .nothing] ∧ l.pending = [.comment] ∧
      l.current.1 = .ok .comment ∧ l.current.2.pending = [] := by
  decide

end Lexer

end YamlLexer
