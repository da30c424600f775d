import YamlLexer.Proofs.Nesting.Faults
import YamlLexer.Proofs.Session

/-!
# Errors

An error concerns a construct and nothing around it. What has been opened stays open as it was, and
nothing of the construct gets in line. The exception is a structure that cannot be closed: it stands
in the way when others have been closed already, and only an override leads there.

And an error is final. It is kept by the lexer, and every way to pull looks for it first, so it wins
over what is in line, injected before or after. `Request.afterError` is all that a client can get to
see from then on. It depends on the error and on the token that was delivered last, and on nothing
that is still done.

The three ways to pull differ in how they show an error. `next` repeats it, `next?` has nothing more
to say, and so has a token stream once it has given the error itself. `current` does not look for
errors if a token has been delivered before, and goes on answering with that.
-/

namespace YamlLexer

/-- The answer to a request once there has been an error, given the token delivered last. -/
def Request.afterError (e : LexError) (last : Token) : Request → Answer
  | .call .next => .token (.error e)
  | .call .next? => .item none
  | .call .current => .token (if last = .nothing then .error e else .ok last)
  | .call (.push _) | .call (.setContext _) => .silence
  | .draw 0 => .drawn []
  | .draw (n + 1) => .drawn (some (.error e) :: List.replicate n none)

namespace Lexer

variable {l l' : Lexer} {e : LexError}

/-! ## What an error leaves -/

theorem Pull.last_of_error (h : l.Pull (.error e) l') : l'.last = l.last := by
  cases h <;> rfl

theorem Pull.pending_of_error (h : l.Pull (.error e) l') (running : l.failure = none) :
    l'.pending = [] := by
  rcases h.of_error with rfl | ⟨-, queue, -⟩
  · exact absurd (running.symm.trans h.failure_eq) (Option.some_ne_none e).symm
  · exact queue

/-- The open structures are the same as before, unless one of them is to blame. -/
theorem Pull.stack_of_error (h : l.Pull (.error e) l')
    (other : ∀ kind m, e ≠ .invalidContext kind m) : l'.stack = l.stack := by
  rcases h with _ | _ | _ | @⟨_, _, fault, _, _, _, effect⟩
  · rfl
  · rfl
  · rcases fault with kind | shape
    · exact absurd rfl (other kind _)
    · exact Stack.eq_of_unopened effect

/-!
## After an error

A session after an error is computed request by request, since the lexer that is left by each of
them has stopped at the same place with the same error (`SameStop`).
-/

/-- What no client can change after an error: the error itself, the place where the lexer has
stopped, and the token delivered last. -/
structure SameStop (l l' : Lexer) : Prop where
  failure : l'.failure = l.failure
  cursor : l'.cursor = l.cursor
  lexeme : l'.lexeme = l.lexeme
  line : l'.line = l.line
  lineStart : l'.lineStart = l.lineStart
  last : l'.last = l.last

theorem SameStop.refl (l : Lexer) : SameStop l l := ⟨rfl, rfl, rfl, rfl, rfl, rfl⟩

theorem SameStop.trans {l'' : Lexer} (h : SameStop l l') (h' : SameStop l' l'') :
    SameStop l l'' where
  failure := h'.failure.trans h.failure
  cursor := h'.cursor.trans h.cursor
  lexeme := h'.lexeme.trans h.lexeme
  line := h'.line.trans h.line
  lineStart := h'.lineStart.trans h.lineStart
  last := h'.last.trans h.last

theorem next?_of_failure (h : l.failure = some e) : l.next? = (none, l) := by
  rw [next?, h]
  rfl

theorem current_of_failure (h : l.failure = some e) :
    l.current = (if l.last = .nothing then .error e else .ok l.last, l) := by
  rw [current, next_of_failure h]
  split <;> rfl

theorem draws_of_failure (h : l.failure = some e) (n : Nat) :
    (TokenStream.mk l false).draws (n + 1) =
      (some (.error e) :: List.replicate n none, ⟨l, true⟩) := by
  rw [TokenStream.draws, TokenStream.next?_of_error (next_of_failure h),
    TokenStream.draws_of_finished rfl]

theorem ask_of_failure (h : l.failure = some e) (r : Request) :
    (l.ask r).1 = r.afterError e l.last ∧ SameStop l (l.ask r).2 := by
  rcases r with (_ | _ | _ | token | kind) | _ | n
  · rw [ask, next_of_failure h]
    exact ⟨rfl, .refl l⟩
  · rw [ask, next?_of_failure h]
    exact ⟨rfl, .refl l⟩
  · rw [ask, current_of_failure h]
    exact ⟨rfl, .refl l⟩
  · exact ⟨rfl, ⟨rfl, rfl, rfl, rfl, rfl, rfl⟩⟩
  · exact ⟨rfl, ⟨rfl, rfl, rfl, rfl, rfl, rfl⟩⟩
  · exact ⟨rfl, .refl l⟩
  · rw [ask, draws_of_failure h]
    exact ⟨rfl, .refl l⟩

theorem session_of_failure (h : l.failure = some e) (rs : List Request) :
    (l.session rs).1 = rs.map (Request.afterError e l.last) ∧ SameStop l (l.session rs).2 := by
  induction rs generalizing l with
  | nil => exact ⟨rfl, .refl l⟩
  | cons r rs ih =>
    obtain ⟨hanswer, hstop⟩ := ask_of_failure h r
    obtain ⟨hanswers, hstops⟩ := ih (hstop.failure.trans h)
    rw [hstop.last] at hanswers
    refine ⟨?_, hstop.trans hstops⟩
    rw [session, hanswer, hanswers, List.map_cons]

/-- When a pull fails for the first time: whatever is open stays open as it was, unless the error is
about that; nothing is in line; and the token delivered last is still the last one. From then on
every request is answered as the error demands, and the lexer does not move. -/
theorem session_after_error (running : l.failure = none) (hnext : l.next = (.error e, l')) :
    ((∀ kind m, e ≠ .invalidContext kind m) → l'.stack = l.stack) ∧
      l'.pending = [] ∧ l'.last = l.last ∧
      ∀ rs, (l'.session rs).1 = rs.map (Request.afterError e l.last) ∧
        SameStop l' (l'.session rs).2 := by
  have hpull := pull_of_next hnext
  refine ⟨hpull.stack_of_error, hpull.pending_of_error running, hpull.last_of_error, ?_⟩
  intro rs
  rw [← hpull.last_of_error]
  exact session_of_failure hpull.failure_eq rs

/-- A bracket without a partner behind a key. An injected token and a new kind of the mapping do not
get the client any further. -/
theorem session_after_error_closer :
    let l := (ofBytes [0x61, 0x3A, 0x20, 0x5D]).pulled 4
    let e := LexError.unbalancedCloser ']' ⟨3, 0, 3⟩
    l.next.1 = .error e ∧ l.next.2.stack = l.stack ∧
      (l.next.2.session [.call (.push .comment), .call .next, .call (.setContext .nothing),
        .call .next?, .draw 2, .call .current]).1 =
      [.silence, .token (.error e), .silence, .item none, .drawn [some (.error e), none],
        .token (.ok .text)] := by
  intro l e
  have hnext : l.next = (.error e, l.next.2) := rfl
  obtain ⟨hstack, -, -, hsession⟩ := session_after_error rfl hnext
  have hother : ∀ kind m, LexError.unbalancedCloser ']' ⟨3, 0, 3⟩ ≠ .invalidContext kind m := by
    intro kind m herror
    cases herror
  exact ⟨rfl, hstack hother, (hsession _).1⟩

end Lexer

end YamlLexer
