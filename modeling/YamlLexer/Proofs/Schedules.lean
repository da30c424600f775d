import Mathlib.Data.List.Induction
import YamlLexer.Proofs.Decoding
import YamlLexer.Proofs.Documents
import YamlLexer.Proofs.Failure

/-!
# All ways to pull drain one stream

A client may pull by `next`, by `next?`, or by drawing from a token stream, and may change over at
any time. Each of these has its own idea of having ended: a lexer keeps its error and goes on
delivering `nothing`, `next?` answers with none in both cases, and a token stream keeps a flag. It
makes no difference to what is delivered. The pull after `n` others is the pull after `n` calls of
`next`, and each way shows its answer in its own form (`outcome_after`).

The reason is that an ended token stream, which does not pull any more, does not miss anything: a
lexer that has come to its end is not moved by a pull (`Lexer.Settled`).
-/

namespace YamlLexer

inductive Way where
  | next
  | next?
  /-- From the token stream in use. A pull that is not a draw has dropped it, and then this is the
  first draw from a new one. -/
  | draw
  /-- From a new token stream. The one in use is dropped. -/
  | drawNew
deriving DecidableEq, Repr

inductive Outcome where
  | token (answer : Except LexError Token)
  | item (answer : Option (Except LexError Token))
  | drawn (answer : Option (Except LexError (Token × String)))
deriving Repr

namespace Way

/-- Whether a token stream is in use after the pull. -/
def isDraw : Way → Bool
  | next | next? => false
  | draw | drawNew => true

/-- The outcome, given what `next`, `next?` and a draw answer. -/
def outcome (token : Except LexError Token) (item : Option (Except LexError Token))
    (drawn : Option (Except LexError (Token × String))) : Way → Outcome
  | next => .token token
  | next? => .item item
  | draw | drawNew => .drawn drawn

/-- The outcome where a token is delivered. -/
def delivered (token : Token) (text : String) : Way → Outcome :=
  outcome (.ok token) (some (.ok token)) (some (.ok (token, text)))

/-- The outcome where the stream ends, and ever after. -/
def atEnd : Way → Outcome := outcome (.ok .nothing) none none

/-- The outcome where the stream ends with an error. -/
def failed (e : LexError) : Way → Outcome :=
  outcome (.error e) (some (.error e)) (some (.error e))

/-- The outcome after an error. A token stream in use has answered with it already. -/
def afterError (e : LexError) (inUse : Bool) : Way → Outcome
  | next => .token (.error e)
  | next? => .item none
  | draw => .drawn (if inUse then none else some (.error e))
  | drawNew => .drawn (some (.error e))

end Way

namespace TokenStream

/-- Pulls in some way. While no token stream is in use, the state is that of a new one. -/
def pullBy (s : TokenStream) : Way → Outcome × TokenStream
  | .next => (.token s.lexer.next.1, ⟨s.lexer.next.2, false⟩)
  | .next? => (.item s.lexer.next?.1, ⟨s.lexer.next?.2, false⟩)
  | .draw => (.drawn s.next?.1, s.next?.2)
  | .drawNew => (.drawn (mk s.lexer false).next?.1, (mk s.lexer false).next?.2)

def after (s : TokenStream) (ways : List Way) : TokenStream :=
  ways.foldl (fun s way ↦ (s.pullBy way).2) s

theorem after_concat (s : TokenStream) (ways : List Way) (way : Way) :
    s.after (ways ++ [way]) = ((s.after ways).pullBy way).2 := by
  rw [after, List.foldl_append, after]
  rfl

end TokenStream

namespace Lexer

variable {l l' : Lexer} {e : LexError}

/-! ## The answers of `next?` -/

theorem fst_next?_of_token {token : Token} (h : l.next = (.ok token, l'))
    (proper : token ≠ .nothing) : l.next?.1 = some (.ok token) := by
  rw [next?, (pull_of_next h).failure_of_ok, h]
  cases token <;> first | rfl | exact absurd rfl proper

theorem fst_next?_of_nothing (h : l.next = (.ok .nothing, l')) : l.next?.1 = none := by
  rw [next?, (pull_of_next h).failure_of_ok, h]
  rfl

theorem fst_next?_of_error (running : l.failure = none) (h : l.next = (.error e, l')) :
    l.next?.1 = some (.error e) := by
  rw [next?, running, h]
  rfl

/-!
## The end

Once nothing is left, or there has been an error, the lexer is `Settled`: pulls leave it as it is,
so a pull that is not made is not missed.
-/

/-- Nothing more is delivered, and pulls do not move the lexer any more. -/
structure Settled (l : Lexer) : Prop where
  next : l.next.2 = l
  answer : ∀ token, l.next.1 = .ok token → token = .nothing

theorem settled_of_failure (h : l.failure = some e) : l.Settled := by
  refine ⟨?_, ?_⟩
  · rw [next_of_failure h]
  · intro token hanswer
    rw [next_of_failure h] at hanswer
    cases hanswer

/-- Where nothing is left, there is no gap, and the end of the input takes no bytes. -/
theorem AtEnd.moved_eq (h : l.AtEnd) (hrest : l.cursor.rest = []) :
    l.moved = { l with lexeme := ⟨l.cursor.offset, l.cursor.offset⟩ } := by
  have hplace : l.nextPlace = l.place := by
    rw [nextPlace, hrest]
    rfl
  have hcursor : l.cursor.moveTo l.cursor.offset = l.cursor := by
    rw [Cursor.mk.injEq]
    exact ⟨rfl, Nat.min_eq_left l.cursor.offset_le⟩
  rw [moved, moveOver, hplace, h.reading]
  simp only [place, Nat.add_zero, hcursor]

theorem AtEnd.next_next (h : l.AtEnd) (hstack : l.stack = {}) :
    l.next.2.next = (.ok .nothing, l.next.2) := by
  have heffect : l.stack.apply l.nextPlace.column .streamEnd = ⟨{}, .ok []⟩ := by
    rw [hstack]
    rfl
  have hrest : l.moved.cursor.rest = [] := by rw [rest_moved, h.ahead, List.drop_nil]
  have hlexeme : l.moved.lexeme = ⟨l.moved.cursor.offset, l.moved.cursor.offset⟩ := by
    rw [offset_moved, moved, moveOver, h.reading]
    rfl
  have hend : AtEnd { l.moved with stack := {}, last := .nothing, pending := [] } :=
    ⟨h.running, rfl, h.upcoming_moved⟩
  rw [next_of_scanned h.running h.queue h.found heffect]
  refine (next_of_scanned hend.running hend.queue hend.found rfl).trans ?_
  rw [hend.moved_eq hrest]
  change _ = (Except.ok Token.nothing, Lexer.mk _ _ _ l.moved.lexeme _ _ _ _)
  rw [hlexeme]
  rfl

theorem Regular.next_of_nothing (h : l.Regular) (hnext : l.next = (.ok .nothing, l')) :
    l'.next = (.ok .nothing, l') := by
  obtain ⟨hrunning, hqueue, hstack, hahead⟩ := h.of_nothing (pull_of_next hnext)
  have hend : l.AtEnd := ⟨hrunning, hqueue, hahead⟩
  have hnext' := hend.next_next hstack
  rwa [hnext] at hnext'

theorem Regular.settled_of_nothing (h : l.Regular) (hnext : l.next = (.ok .nothing, l')) :
    l'.Settled := by
  have hnext' := h.next_of_nothing hnext
  refine ⟨?_, ?_⟩
  · rw [hnext']
  · intro token hanswer
    rw [hnext'] at hanswer
    cases hanswer
    rfl

theorem Regular.pulled_of_nothing (h : l.Regular) {k n : Nat} (hle : k ≤ n)
    (hnothing : (l.pulled k).next.1 = .ok .nothing) : (l.pulled n).next.1 = .ok .nothing := by
  induction n, hle using Nat.le_induction with
  | base => exact hnothing
  | succ n _ ih =>
    have hnext : (l.pulled n).next = (.ok .nothing, l.pulled (n + 1)) := Prod.ext ih rfl
    rw [(h.pulled n).next_of_nothing hnext]

theorem failure_pulled {k n : Nat} (hlt : k < n) (herror : (l.pulled k).next.1 = .error e) :
    (l.pulled n).failure = some e := by
  induction n, hlt using Nat.le_induction with
  | base =>
    have hnext : (l.pulled k).next = (.error e, l.pulled (k + 1)) := Prod.ext herror rfl
    exact (pull_of_next hnext).failure_eq
  | succ n _ ih => rw [pulled_succ, next_of_failure ih, ih]

end Lexer

namespace TokenStream

variable {l l' : Lexer} {s : TokenStream} {bytes : List Byte} {e : LexError}

/-!
## The state of a schedule

A token stream holds its lexer and a flag. A schedule is in a state like that all the time; if no
stream is in use, it is that of a new one. It `Follows` the run: its lexer is that of the run, and
the flag is set only where nothing more is to come.
-/

/-- A state whose lexer is the given one. A token stream that has ended is in use only if there is
nothing more to come. -/
structure Follows (l : Lexer) (s : TokenStream) : Prop where
  lexer : s.lexer = l
  settled : s.finished = true → l.Settled

theorem follows_new (l : Lexer) : Follows l ⟨l, false⟩ :=
  ⟨rfl, fun hfinished ↦ nomatch hfinished⟩

/-- A draw leaves what a pull does, also if it is none. -/
theorem Follows.draw (h : Follows l s) (hregular : l.Regular) (hlegible : l.Legible bytes) :
    Follows l.next.2 s.next?.2 := by
  obtain rfl := h.lexer
  have hdraw := s.draw_next?
  generalize s.next?.1 = answer at hdraw
  generalize s.next?.2 = s' at hdraw
  cases hdraw with
  | idle finished =>
    -- The pull that is not made would have changed nothing.
    have hsettled := h.settled finished
    rw [hsettled.next]
    exact ⟨rfl, fun _ ↦ hsettled⟩
  | failed _ next =>
    rw [next]
    exact ⟨rfl, fun _ ↦ Lexer.settled_of_failure (Lexer.pull_of_next next).failure_eq⟩
  | ended _ next =>
    rw [next]
    exact ⟨rfl, fun _ ↦ hregular.settled_of_nothing next⟩
  | undecodable _ next _ decoded =>
    obtain ⟨text, htext⟩ := (hlegible.pull (Lexer.pull_of_next next)).exists_text
    rw [htext] at decoded
    cases decoded
  | item _ next =>
    rw [next]
    exact follows_new _

theorem Follows.pullBy (h : Follows l s) (hregular : l.Regular) (hlegible : l.Legible bytes)
    (way : Way) : Follows l.next.2 (s.pullBy way).2 := by
  cases way with
  | next =>
    rw [TokenStream.pullBy, h.lexer]
    exact follows_new _
  | next? =>
    rw [TokenStream.pullBy, h.lexer, l.snd_next?]
    exact follows_new _
  | draw => exact h.draw hregular hlegible
  | drawNew =>
    rw [TokenStream.pullBy, h.lexer]
    exact (follows_new l).draw hregular hlegible

/-- However `n` pulls have been made, the lexer is that after `n` pulls. -/
theorem follows_after (hregular : l.Regular) (hlegible : l.Legible bytes) (ways : List Way) :
    Follows (l.pulled ways.length) ((mk l false).after ways) := by
  induction ways using List.reverseRecOn with
  | nil => exact follows_new l
  | append_singleton ways way ih =>
    rw [after_concat, List.length_append]
    exact ih.pullBy (hregular.pulled _) (Lexer.pulled_induction Lexer.Legible.pull hlegible _) way

/-!
## Outcomes

There are four: a token is delivered, the stream is at its end, it fails for the first time, or it
has failed before. Each is computed from the state of the run, and that state is known.
-/

/-- If the stream in use and a new one answer alike, it does not matter which is drawn from. -/
theorem fst_pullBy {drawn : Option (Except LexError (Token × String))} (hdraw : s.next?.1 = drawn)
    (hnew : (TokenStream.mk s.lexer false).next?.1 = drawn) (way : Way) :
    (s.pullBy way).1 = way.outcome s.lexer.next.1 s.lexer.next?.1 drawn := by
  cases way with
  | next | next? => rfl
  | draw => exact congrArg Outcome.drawn hdraw
  | drawNew => exact congrArg Outcome.drawn hnew

theorem Follows.delivered (h : Follows l s) {token : Token} {text : String}
    (hnext : l.next = (.ok token, l')) (proper : token ≠ .nothing) (htext : l'.text = .ok text)
    (way : Way) : (s.pullBy way).1 = way.delivered token text := by
  obtain ⟨m, finished⟩ := s
  obtain rfl : m = l := h.lexer
  -- The stream in use has not ended, because there is a token to come.
  obtain rfl : finished = false := by
    rw [← Bool.not_eq_true]
    intro htrue
    exact proper ((h.settled htrue).answer token (congrArg Prod.fst hnext))
  have hdraw : (TokenStream.mk m false).next?.1 = some (.ok (token, text)) := by
    rw [next?_of_token hnext proper, htext]
  rw [fst_pullBy hdraw hdraw, hnext, Lexer.fst_next?_of_token hnext proper]
  rfl

theorem Follows.atEnd (h : Follows l s) (hnext : l.next = (.ok .nothing, l')) (way : Way) :
    (s.pullBy way).1 = way.atEnd := by
  obtain ⟨m, finished⟩ := s
  obtain rfl : m = l := h.lexer
  have hnew : (TokenStream.mk m false).next?.1 = none := by rw [next?_of_nothing hnext]
  -- A stream that has ended is not asked again, but that would not change the answer.
  have hdraw : (TokenStream.mk m finished).next?.1 = none := by
    cases finished with
    | false => exact hnew
    | true => rfl
  rw [fst_pullBy hdraw hnew, hnext, Lexer.fst_next?_of_nothing hnext]
  rfl

theorem Follows.failed (h : Follows l s) (running : l.failure = none)
    (hnext : l.next = (.error e, l')) (way : Way) : (s.pullBy way).1 = way.failed e := by
  obtain ⟨m, finished⟩ := s
  obtain rfl : m = l := h.lexer
  -- The stream in use has not ended, because the error is the first one.
  obtain rfl : finished = false := by
    rw [← Bool.not_eq_true]
    intro htrue
    have hfailure := (Lexer.pull_of_next hnext).failure_eq
    obtain rfl : m = l' := (h.settled htrue).next.symm.trans (congrArg Prod.snd hnext)
    rw [running] at hfailure
    cases hfailure
  have hdraw : (TokenStream.mk m false).next?.1 = some (.error e) := by rw [next?_of_error hnext]
  rw [fst_pullBy hdraw hdraw, hnext, Lexer.fst_next?_of_error running hnext]
  rfl

/-- After an error, a stream in use answers with it if it has not ended. -/
theorem Follows.afterError (h : Follows l s) (failure : l.failure = some e) (way : Way) :
    (s.pullBy way).1 = way.afterError e s.finished := by
  obtain ⟨m, finished⟩ := s
  obtain rfl : m = l := h.lexer
  have hnext := Lexer.next_of_failure failure
  have hdraw : (TokenStream.mk m false).next?.1 = some (.error e) := by
    rw [next?_of_error hnext]
  cases way with
  | next => exact congrArg (Outcome.token ·.1) hnext
  | next? => exact congrArg (Outcome.item ·.1) (Lexer.next?_of_failure failure)
  | draw =>
    cases finished with
    | false => exact congrArg Outcome.drawn hdraw
    | true => rfl
  | drawNew => exact congrArg Outcome.drawn hdraw

theorem Follows.finished_draw (h : Follows l s) (failure : l.next.2.failure = some e) :
    s.next?.2.finished = true := by
  obtain rfl := h.lexer
  have hdraw := s.draw_next?
  generalize s.next?.1 = answer at hdraw
  generalize s.next?.2 = s' at hdraw
  cases hdraw with
  | idle finished => exact finished
  | failed | ended | undecodable => rfl
  | item _ next =>
    rw [next, (Lexer.pull_of_next next).running_of_ok] at failure
    cases failure

theorem Follows.finished_pullBy (h : Follows l s) (failure : l.next.2.failure = some e)
    (way : Way) : (s.pullBy way).2.finished = way.isDraw := by
  cases way with
  | next | next? => rfl
  | draw => exact h.finished_draw failure
  | drawNew =>
    rw [TokenStream.pullBy, h.lexer]
    exact (follows_new l).finished_draw failure

theorem finished_after (hregular : l.Regular) (hlegible : l.Legible bytes) {ways : List Way}
    (hways : ways ≠ []) (failure : (l.pulled ways.length).failure = some e) :
    ((TokenStream.mk l false).after ways).finished = ways.getLast?.any Way.isDraw := by
  cases ways using List.reverseRecOn with
  | nil => exact absurd rfl hways
  | append_singleton ways last =>
    rw [after_concat, List.getLast?_concat]
    rw [List.length_append] at failure
    exact (follows_after hregular hlegible ways).finished_pullBy failure last

/-- An input that is a text, any pulls, and one more. The run that is made of `next` only tells what
comes of it. Where it delivers a token, so does this pull, with the text of that token if it is a
draw. From where it ends, no pull delivers anything. Where it fails for the first time, this pull
fails, and after that an error is answered by `next`, and by the first draw from a token stream. -/
theorem outcome_after {bytes : List Byte} (h : IsText bytes) (before : List Way) (way : Way) :
    let l := Lexer.ofBytes bytes
    let n := before.length
    let outcome := (((TokenStream.mk l false).after before).pullBy way).1
    (∀ token, (l.pulled n).next.1 = .ok token → token ≠ .nothing →
      ∃ text, (l.pulled (n + 1)).text = .ok text ∧ outcome = way.delivered token text) ∧
    (∀ k ≤ n, (l.pulled k).next.1 = .ok .nothing → outcome = way.atEnd) ∧
    (∀ e, (l.pulled n).failure = none → (l.pulled n).next.1 = .error e → outcome = way.failed e) ∧
    (∀ k < n, ∀ e, (l.pulled k).next.1 = .error e →
      outcome = way.afterError e (before.getLast?.any Way.isDraw)) := by
  intro l n outcome
  have hregular : l.Regular := Lexer.regular_ofBytes bytes
  have hlegible : l.Legible bytes :=
    Lexer.legible_ofCursor (c := Cursor.ofBytes bytes) (.zero h)
  have hfollows : Follows (l.pulled n) ((TokenStream.mk l false).after before) :=
    follows_after hregular hlegible before
  refine ⟨?_, ?_, ?_, ?_⟩
  · intro token hanswer proper
    obtain ⟨text, htext⟩ :=
      (Lexer.pulled_induction Lexer.Legible.pull hlegible (n + 1)).exists_text
    exact ⟨text, htext, hfollows.delivered (Prod.ext hanswer rfl) proper htext way⟩
  · intro k hle hnothing
    exact hfollows.atEnd (Prod.ext (hregular.pulled_of_nothing hle hnothing) rfl) way
  · intro e running herror
    exact hfollows.failed running (Prod.ext herror rfl) way
  · -- Whether the error is still to be drawn depends on how the last pull was made.
    intro k hlt e herror
    have hfailure := Lexer.failure_pulled hlt herror
    have hbefore : before ≠ [] := by
      rintro rfl
      exact absurd hlt (Nat.not_lt_zero k)
    rw [← finished_after hregular hlegible hbefore hfailure]
    exact hfollows.afterError hfailure way

/-- A key and a bracket without a partner. The key is drawn from a new stream, because the pull in
front of it was none of a stream. The error, met by `next?`, is given again to the first draw from a
stream, and not to the second. -/
theorem outcome_after_bracket :
    let bytes : List Byte := [0xC3, 0xA9, 0x3A, 0x20, 0x5D]
    let s := TokenStream.mk (Lexer.ofBytes bytes) false
    let e := LexError.unbalancedCloser ']' ⟨4, 0, 4⟩
    IsText bytes ∧
      ((s.after [.next, .drawNew, .next?]).pullBy .draw).1 = .drawn (some (.ok (.text, "é"))) ∧
      ((s.after [.next, .drawNew, .next?, .draw, .next?]).pullBy .draw).1 =
        .drawn (some (.error e)) ∧
      ((s.after [.next, .drawNew, .next?, .draw, .next?, .draw]).pullBy .draw).1 = .drawn none := by
  intro bytes s e
  have htext : IsText bytes := ⟨['é', ':', ' ', ']'], by decide⟩
  have hkey : ((Lexer.ofBytes bytes).pulled 3).next.1 = .ok .text := by decide
  have hbracket : ((Lexer.ofBytes bytes).pulled 4).next.1 = .error e := by decide
  obtain ⟨text, hdecoded, houtcome⟩ :=
    (outcome_after htext [.next, .drawNew, .next?] .draw).1 .text hkey (by decide)
  have hletter : ((Lexer.ofBytes bytes).pulled 4).text = .ok "é" :=
    Lexer.text_of_slice ['é'] (by decide) (by decide)
  obtain rfl : "é" = text := Except.ok.inj (hletter.symm.trans hdecoded)
  refine ⟨htext, houtcome, ?_, ?_⟩
  · exact (outcome_after htext [.next, .drawNew, .next?, .draw, .next?] .draw).2.2.2 4 (by decide) e
      hbracket
  · exact (outcome_after htext [.next, .drawNew, .next?, .draw, .next?, .draw] .draw).2.2.2 4
      (by decide) e hbracket

end TokenStream

end YamlLexer
