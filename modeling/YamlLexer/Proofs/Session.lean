import YamlLexer.Lexer.TokenStream
import YamlLexer.Proofs.Calls

/-!
# Sessions

A client knows a lexer by the answers to its requests. `Lexer.session` is that dialogue: requests of
every sort in any order, all answers to them, and the lexer that is left. A statement about what a
client can tell apart is an equation of sessions.

Besides the calls there is the request for a token stream. A stream holds its lexer for as long as
it is in use, so nothing can come between its draws, and making a stream, drawing from it a number
of times and dropping it is one request.

`TokenStream.Draw` is for streams what `Lexer.Pull` is for lexers: it says once everything that a
draw can do, so what holds of draws is proved by five short cases. A stream that has ended gives
nothing more, however often it is asked (`draws_of_finished`).
-/

namespace YamlLexer

namespace TokenStream

/-- The draws from a token stream, with their answers and the streams they leave. -/
inductive Draw (s : TokenStream) : Option (Except LexError (Token × String)) → TokenStream → Prop
  /-- A stream that has ended does not pull. -/
  | idle (finished : s.finished = true) : Draw s none s
  | failed {e : LexError} {l : Lexer} (running : s.finished = false)
      (next : s.lexer.next = (.error e, l)) : Draw s (some (.error e)) ⟨l, true⟩
  | ended {l : Lexer} (running : s.finished = false) (next : s.lexer.next = (.ok .nothing, l)) :
      Draw s none ⟨l, true⟩
  | undecodable {token : Token} {e : LexError} {l : Lexer} (running : s.finished = false)
      (next : s.lexer.next = (.ok token, l)) (proper : token ≠ .nothing)
      (decoded : l.text = .error e) : Draw s (some (.error e)) ⟨l, true⟩
  | item {token : Token} {text : String} {l : Lexer} (running : s.finished = false)
      (next : s.lexer.next = (.ok token, l)) (proper : token ≠ .nothing)
      (decoded : l.text = .ok text) : Draw s (some (.ok (token, text))) ⟨l, false⟩

theorem draw_next? (s : TokenStream) : s.Draw s.next?.1 s.next?.2 := by
  rw [next?]
  split
  · exact .idle ‹_›
  · have running : s.finished = false := by simpa using ‹¬s.finished = true›
    split
    · exact .failed running ‹_›
    · exact .ended running ‹_›
    · rename_i token l hne hnext
      have proper : token ≠ .nothing := fun hnothing ↦ hne (hnothing ▸ rfl)
      split
      · exact .undecodable running hnext proper ‹_›
      · exact .item running hnext proper ‹_›

theorem next?_of_error {l l' : Lexer} {e : LexError} (h : l.next = (.error e, l')) :
    (mk l false).next? = (some (.error e), ⟨l', true⟩) := by
  rw [next?, h]
  rfl

theorem next?_of_nothing {l l' : Lexer} (h : l.next = (.ok .nothing, l')) :
    (mk l false).next? = (none, ⟨l', true⟩) := by
  rw [next?, h]
  rfl

theorem next?_of_token {l l' : Lexer} {token : Token} (h : l.next = (.ok token, l'))
    (proper : token ≠ .nothing) : (mk l false).next? =
      match l'.text with
      | .error e => (some (.error e), ⟨l', true⟩)
      | .ok text => (some (.ok (token, text)), ⟨l', false⟩) := by
  rw [next?, h]
  cases token <;> first | rfl | exact absurd rfl proper

/-- Draws so many times, and lists the answers. -/
def draws (s : TokenStream) :
    Nat → List (Option (Except LexError (Token × String))) × TokenStream
  | 0 => ([], s)
  | n + 1 => (s.next?.1 :: (s.next?.2.draws n).1, (s.next?.2.draws n).2)

theorem draws_of_finished {s : TokenStream} (h : s.finished = true) (n : Nat) :
    s.draws n = (List.replicate n none, s) := by
  induction n with
  | zero => rfl
  | succ n ih =>
    have hnext : s.next? = (none, s) := by rw [next?, if_pos h]
    rw [draws, hnext, ih]
    rfl

end TokenStream

/-- What a client can ask of a lexer. -/
inductive Request where
  | call (c : Call)
  /-- To draw so many times from a token stream that is made for it. -/
  | draw (count : Nat)
deriving DecidableEq, Repr

inductive Answer where
  /-- An injection and an override have no answer. -/
  | silence
  /-- The answer to `next` or `current`. -/
  | token (answer : Except LexError Token)
  /-- The answer to `next?`. -/
  | item (answer : Option (Except LexError Token))
  /-- The answers to the draws from a token stream. -/
  | drawn (answers : List (Option (Except LexError (Token × String))))
deriving Repr

namespace Lexer

/-- The answer to a request, and the lexer that it leaves. -/
def ask (l : Lexer) : Request → Answer × Lexer
  | .call .next => (.token l.next.1, l.next.2)
  | .call .next? => (.item l.next?.1, l.next?.2)
  | .call .current => (.token l.current.1, l.current.2)
  | .call (.push token) => (.silence, l.push token)
  | .call (.setContext kind) => (.silence, l.setContext kind)
  | .draw count =>
    (.drawn ((TokenStream.mk l false).draws count).1,
      ((TokenStream.mk l false).draws count).2.lexer)

/-- The answers to some requests, and the lexer that they leave. -/
def session (l : Lexer) : List Request → List Answer × Lexer
  | [] => ([], l)
  | r :: rs => ((l.ask r).1 :: ((l.ask r).2.session rs).1, ((l.ask r).2.session rs).2)

theorem snd_ask_call (l : Lexer) (c : Call) : (l.ask (.call c)).2 = l.call c := by
  cases c <;> rfl

end Lexer

end YamlLexer
