import YamlLexer.Proofs.Run

/-!
# Injected tokens

A client may put tokens in front of those in line, at any time: while the tokens of a construct are
still being delivered, before the first of them, behind the end of the input, and several at once.
It gets each of them back, the last one first, and otherwise notices nothing. The lexer reads on
only when they have all been delivered, and it then goes on as if they had never been there.

`Ledger` keeps the books of such a client. What is due to it is known from its turns alone; the
books balance if the lexer agrees, being that of a client who has pulled as often and injected
nothing, but for what it has in line in front and for the token delivered last. The next pull of its
own makes up for that too.

An error ends this. It wins over what has been injected, which is then never delivered.
-/

namespace YamlLexer

/-- What a client does that only pulls and injects. -/
inductive Turn where
  | pull
  | inject (token : Token)
deriving DecidableEq, Repr

/-- The books of a client. -/
structure Ledger where
  /-- The lexer, as the turns so far have left it. -/
  lexer : Lexer
  /-- The tokens injected and not yet delivered, the last one first. -/
  injected : List Token := []
  /-- What has been delivered when nothing injected was due, in order. -/
  own : List Delivery := []

/-- A pull is taken for one that delivers the token injected last, if there is one. -/
def Ledger.turn (b : Ledger) : Turn → Ledger
  | .inject token => { b with lexer := b.lexer.push token, injected := token :: b.injected }
  | .pull =>
    match b.injected with
    | _ :: earlier => { b with lexer := b.lexer.next.2, injected := earlier }
    | [] => { b with lexer := b.lexer.next.2, own := b.own ++ b.lexer.delivery?.toList }

/-- The token of a delivery, with the lexer at that time. -/
def Delivery.outcome (d : Delivery) : Token × Lexer := (d.token, d.after)

namespace Lexer

def turns (l : Lexer) (ts : List Turn) : Ledger := ts.foldl Ledger.turn { lexer := l }

/-!
## The token delivered last

Two lexers that differ only in that make the same pull, as no pull looks at it.
-/

section

variable {l l' : Lexer}

/-- A pull that delivers a token does not depend on the one delivered before. -/
theorem Pull.next_of_ok {token : Token} (h : l.Pull (.ok token) l') (last : Token) :
    next { l with last := last } = (.ok token, l') := by
  rcases h with _ | ⟨failure, queue⟩ | _ | _ | ⟨failure, queue, found, effect⟩
  · exact next_of_pending (l := { l with last := last }) failure queue
  · exact next_of_scanned (l := { l with last := last }) failure queue found effect

theorem Pull.next_of_error {e : LexError} (h : l.Pull (.error e) l') (last : Token) :
    next { l with last := last } = (.error e, { l' with last := last }) := by
  rcases h with failure | _ | ⟨failure, queue, found⟩ | ⟨failure, queue, found, effect⟩
  · exact next_of_failure (l := { l with last := last }) failure
  · exact next_of_refused (l := { l with last := last }) failure queue found
  · exact next_of_faulted (l := { l with last := last }) failure queue found effect

end

end Lexer

/-!
## Balanced books

A turn is an injection, a pull that gives a token back, or a pull of the client's own. Only the last
moves on in the run without injections, and by one pull of it.
-/

/-- The books balance with the run without injections: so many pulls of it have delivered the same,
and as long as there is no error, the lexer is the same, but for what has been injected. -/
structure Ledger.Balanced (l : Lexer) (b : Ledger) : Prop where
  own : b.own.map Delivery.outcome = (l.deliveries b.own.length).map Delivery.outcome
  lexer : b.lexer.failure = none → b.lexer = { l.pulled b.own.length with
    last := b.lexer.last
    pending := b.injected ++ (l.pulled b.own.length).pending }

namespace Ledger.Balanced

variable {l : Lexer} {b : Ledger}

theorem inject (h : Balanced l b) (token : Token) : Balanced l (b.turn (.inject token)) := by
  refine ⟨h.own, ?_⟩
  intro running
  have hlexer := h.lexer running
  change b.lexer.push token = _
  rw [Lexer.push, hlexer]
  rfl

theorem next_of_injected (h : Balanced l b) (running : b.lexer.failure = none) {token : Token}
    {earlier : List Token} (hinjected : b.injected = token :: earlier) :
    b.lexer.next = (.ok token, { l.pulled b.own.length with
      last := token
      pending := earlier ++ (l.pulled b.own.length).pending }) := by
  have hlexer := h.lexer running
  have hqueue : b.lexer.pending = token :: (earlier ++ (l.pulled b.own.length).pending) := by
    rw [hlexer, hinjected]
    rfl
  rw [Lexer.next_of_pending running hqueue, Lexer.deliver, hlexer]

/-- Where nothing injected is due, the only trace of it is the token delivered last, and no pull
looks at that. -/
theorem next_of_own (h : Balanced l b) (running : b.lexer.failure = none)
    (hinjected : b.injected = []) :
    b.lexer.next.1 = (l.pulled b.own.length).next.1 ∧
      ∀ token, b.lexer.next.1 = .ok token →
        b.lexer.next.2 = (l.pulled b.own.length).next.2 := by
  have hlexer := h.lexer running
  rw [hinjected, List.nil_append] at hlexer
  have hpull := (l.pulled b.own.length).pull_next
  rw [hlexer]
  rcases hanswer : (l.pulled b.own.length).next.1 with e | token
  · rw [hanswer] at hpull
    rw [hpull.next_of_error b.lexer.last]
    refine ⟨rfl, ?_⟩
    intro token htoken
    cases htoken
  · rw [hanswer] at hpull
    rw [hpull.next_of_ok b.lexer.last]
    exact ⟨rfl, fun _ _ ↦ rfl⟩

theorem pull_injected (h : Balanced l b) {token : Token} {earlier : List Token}
    (hinjected : b.injected = token :: earlier) : Balanced l (b.turn .pull) := by
  have hturn : b.turn .pull = { b with lexer := b.lexer.next.2, injected := earlier } := by
    rw [turn, hinjected]
  rw [hturn]
  refine ⟨h.own, ?_⟩
  intro running
  have hbefore : b.lexer.failure = none := Lexer.failure_of_next running
  dsimp only
  rw [h.next_of_injected hbefore hinjected]

/-- A pull that does not give an injected token back is one of the run without injections. -/
theorem pull_own (h : Balanced l b) (hinjected : b.injected = []) :
    Balanced l (b.turn .pull) := by
  have hturn : b.turn .pull =
      { b with lexer := b.lexer.next.2, own := b.own ++ b.lexer.delivery?.toList } := by
    rw [turn, hinjected]
  rw [hturn]
  rcases hnext : b.lexer.next with ⟨e | token, m⟩
  · -- Behind an error the books say nothing about the lexer.
    have hfailure : m.failure = some e := (Lexer.pull_of_next hnext).failure_eq
    rw [Lexer.delivery?_of_error hnext, Option.toList_none, List.append_nil]
    refine ⟨h.own, ?_⟩
    intro running
    cases running.symm.trans hfailure
  · have running : b.lexer.failure = none := (Lexer.pull_of_next hnext).failure_of_ok
    obtain ⟨hanswer, hstate⟩ := h.next_of_own running hinjected
    rw [hnext] at hanswer hstate
    obtain rfl : m = l.pulled (b.own.length + 1) := hstate token rfl
    rw [Lexer.delivery?_of_ok hnext, Option.toList_some]
    refine ⟨?_, ?_⟩
    · rw [List.length_append, List.length_singleton, Lexer.deliveries_succ_of_ok hanswer.symm,
        List.map_append, List.map_append, h.own]
      rfl
    · intro _
      rw [List.length_append, List.length_singleton, hinjected, List.nil_append]

theorem turn (h : Balanced l b) (t : Turn) : Balanced l (b.turn t) := by
  rcases t with _ | token
  · rcases hinjected : b.injected with _ | ⟨token, earlier⟩
    · exact h.pull_own hinjected
    · exact h.pull_injected hinjected
  · exact h.inject token

end Ledger.Balanced

namespace Lexer

theorem balanced_turns (l : Lexer) (ts : List Turn) : Ledger.Balanced l (l.turns ts) := by
  have hfold {b : Ledger} (h : Ledger.Balanced l b) :
      Ledger.Balanced l (ts.foldl Ledger.turn b) := by
    induction ts generalizing b with
    | nil => exact h
    | cons t ts ih => exact ih (h.turn t)
  exact hfold ⟨rfl, fun _ ↦ rfl⟩

/-- However pulls and injections alternate, up to the first error: what has been delivered apart
from injected tokens is what the same lexer delivers without injections, token by token, and the
lexer is in the same state each time. The next pull delivers the token injected last, if there is one
that is still due, and otherwise has the same answer as without injections, also if that is an
error. -/
theorem deliveries_turns (l : Lexer) (ts : List Turn)
    (running : (l.turns ts).lexer.failure = none) :
    let b := l.turns ts
    let undisturbed := l.pulled b.own.length
    b.own.map Delivery.outcome = (l.deliveries b.own.length).map Delivery.outcome ∧
      b.lexer = { undisturbed with
        last := b.lexer.last
        pending := b.injected ++ undisturbed.pending } ∧
      (∀ token earlier, b.injected = token :: earlier → b.lexer.next.1 = .ok token) ∧
      (b.injected = [] → b.lexer.next.1 = undisturbed.next.1 ∧
        ∀ token, b.lexer.next.1 = .ok token → b.lexer.next.2 = undisturbed.next.2) := by
  intro b undisturbed
  have hbalanced : Ledger.Balanced l b := l.balanced_turns ts
  refine ⟨hbalanced.own, hbalanced.lexer running, ?_, hbalanced.next_of_own running⟩
  intro token earlier hinjected
  rw [hbalanced.next_of_injected running hinjected]

/-- A comment in front of everything, and two tokens between the start of a mapping and its first
key. -/
theorem deliveries_turns_key :
    let l := ofBytes [0x61, 0x3A, 0x20, 0x62]
    let b := l.turns [.inject .comment, .pull, .pull, .pull, .inject .tag, .inject .nothing, .pull]
    b.own.map (·.token) = [.directivesEnd, .mappingStart] ∧ b.injected = [.tag] ∧
      b.lexer.next.1 = .ok .tag ∧ (b.turn .pull).lexer.next.2 = l.pulled 3 := by
  intro l b
  have hinjected : b.injected = [.tag] := by decide +kernel
  have hpulled : (b.turn .pull).injected = [] := by decide +kernel
  obtain ⟨-, -, hnext, -⟩ := l.deliveries_turns
    [.inject .comment, .pull, .pull, .pull, .inject .tag, .inject .nothing, .pull]
    (by decide +kernel)
  obtain ⟨-, -, -, hown⟩ := l.deliveries_turns
    [.inject .comment, .pull, .pull, .pull, .inject .tag, .inject .nothing, .pull, .pull]
    (by decide +kernel)
  refine ⟨by decide +kernel, hinjected, hnext .tag [] hinjected, ?_⟩
  exact (hown hpulled).2 .mappingKey rfl

end Lexer

end YamlLexer
