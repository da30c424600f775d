import YamlLexer.Proofs.Ending

/-!
# The end of the input

When all has been read and all that was open is closed, there is one thing left to deliver, and that
is `nothing`, as often as a client asks. `Lexer.Exhausted` is the state in which a lexer is then. It
is a fixed point, and no other state is one: it is exactly where a pull answers with `nothing` and
changes nothing at all (`exhausted_iff`).

A client that only pulls gets to `nothing` by no other way. So it may take the first `nothing` for
the end of the input, with every byte read and every structure closed, and from then on it can ask
whatever it likes, by any interface, and is told no more than that (`session_of_end`).
-/

namespace YamlLexer

namespace Request

/-- Whether the request injects a token or overrides a kind. -/
def interferes : Request → Bool
  | .call (.push _) | .call (.setContext _) => true
  | .call .next | .call .next? | .call .current | .draw _ => false

/-- The answer to a request when there is nothing left to deliver. -/
def atEnd : Request → Answer
  | .call .next | .call .current => .token (.ok .nothing)
  | .call .next? => .item none
  | .call (.push _) | .call (.setContext _) => .silence
  | .draw count => .drawn (List.replicate count none)

end Request

namespace Lexer

variable {l : Lexer}

/-- The input is used up, nothing that has a kind is innermost, and the last thing that was done was
to find that out. -/
structure Exhausted (l : Lexer) : Prop where
  running : l.failure = none
  queue : l.pending = []
  consumed : l.cursor.offset = l.cursor.source.length
  lexeme : l.lexeme = ⟨l.cursor.offset, l.cursor.offset⟩
  kind : l.stack.kind = .nothing
  last : l.last = .nothing

/-!
## The fixed point

A pull that changes nothing cannot have moved, and has delivered the token that was last before. So
there was nothing to be read, nothing in line and nothing to be closed.
-/

theorem Exhausted.rest (h : l.Exhausted) : l.cursor.rest = [] := by
  rw [Cursor.rest, h.consumed, List.drop_length]

theorem Exhausted.atEnd (h : l.Exhausted) : l.AtEnd := by
  refine ⟨h.running, h.queue, ?_⟩
  rw [upcoming, h.rest, List.dropWhile_nil]

theorem Exhausted.next (h : l.Exhausted) : l.next = (.ok .nothing, l) := by
  rw [h.atEnd.next_of_kind h.kind, h.atEnd.moved_eq h.rest]
  change _ = (Except.ok Token.nothing,
    Lexer.mk l.cursor l.line l.lineStart l.lexeme l.stack l.pending l.last l.failure)
  rw [h.lexeme, h.last, h.queue]

theorem AtEnd.exhausted (h : l.AtEnd) (kind : l.stack.kind = .nothing) : l.next.2.Exhausted := by
  have hplace : l.nextPlace.offset = l.cursor.source.length := by
    refine Nat.le_antisymm l.offset_nextPlace_le ?_
    rw [← List.drop_eq_nil_iff, drop_nextPlace, ← upcoming, h.ahead]
  have hoffset : l.moved.cursor.offset = l.nextPlace.offset := by
    rw [offset_moved, h.reading, Nat.add_zero]
  have hlexeme : l.moved.lexeme = ⟨l.moved.cursor.offset, l.moved.cursor.offset⟩ := by
    rw [hoffset, moved, moveOver, h.reading]
    rfl
  rw [h.next_of_kind kind]
  exact ⟨h.running, rfl, hoffset.trans hplace, hlexeme, kind, rfl⟩

/-- An exhausted lexer is one that a pull answers with `nothing` and does not change. -/
theorem exhausted_iff : l.Exhausted ↔ l.next = (.ok .nothing, l) := by
  constructor
  · exact Exhausted.next
  · intro hnext
    obtain ⟨pending, running, hqueue⟩ | ⟨hend, hkind⟩ := (pull_of_next hnext).of_nothing
    · -- A token that was in line is not any more, so that pull does make a change.
      have hpending : pending = l.pending := by
        rw [next_of_pending running hqueue] at hnext
        exact congrArg (fun answer ↦ answer.2.pending) hnext
      rw [hpending] at hqueue
      exact absurd hqueue.symm (List.cons_ne_self _ _)
    · have hexhausted := hend.exhausted hkind
      rwa [hnext] at hexhausted

/-! ## Clients at the end -/

theorem Exhausted.draws (h : l.Exhausted) (n : Nat) :
    ((TokenStream.mk l false).draws n).1 = List.replicate n none ∧
      ((TokenStream.mk l false).draws n).2.lexer = l := by
  cases n with
  | zero => exact ⟨rfl, rfl⟩
  | succ n =>
    rw [TokenStream.draws, TokenStream.next?_of_nothing h.next, TokenStream.draws_of_finished rfl]
    exact ⟨rfl, rfl⟩

theorem Exhausted.ask (h : l.Exhausted) {r : Request} (passive : r.interferes = false) :
    l.ask r = (r.atEnd, l) := by
  obtain (_ | _ | _ | token | kind) | count := r
  · rw [Lexer.ask, h.next, Request.atEnd]
  · rw [Lexer.ask, snd_next?, next?_of_nothing (congrArg Prod.fst h.next), h.next, Request.atEnd]
  · rw [Lexer.ask, current, if_pos h.last, h.next, Request.atEnd]
  · cases passive
  · cases passive
  · rw [Lexer.ask, (h.draws count).1, (h.draws count).2, Request.atEnd]

theorem Exhausted.session (h : l.Exhausted) {rs : List Request}
    (passive : ∀ r ∈ rs, r.interferes = false) : l.session rs = (rs.map Request.atEnd, l) := by
  induction rs with
  | nil => rfl
  | cons r rs ih =>
    obtain ⟨hr, hrs⟩ := List.forall_mem_cons.mp passive
    rw [Lexer.session, h.ask hr, ih hrs, List.map_cons]

/-- On every input, read from anywhere: when a pull answers with `nothing`, every byte has been
read, nothing is in line, nothing is open, and there has been no error. From then on every request
but an injection or an override is answered with the end of the stream, and leaves the lexer as it
is, however many there are. -/
theorem session_of_end (c : Cursor) (n : Nat)
    (ended : ((ofCursor c).pulled n).next.1 = .ok .nothing) :
    let l := (ofCursor c).pulled (n + 1)
    l.cursor.offset = c.source.length ∧ l.pending = [] ∧ l.depth = 0 ∧ l.context = .nothing ∧
      l.inFlow = false ∧ l.failure = none ∧
      ∀ rs : List Request, (∀ r ∈ rs, r.interferes = false) →
        l.session rs = (rs.map Request.atEnd, l) := by
  intro l
  have hregular := (regular_ofCursor c).pulled n
  have hpull := ((ofCursor c).pulled n).pull_next
  rw [ended] at hpull
  obtain ⟨running, queue, hstack, ahead⟩ := hregular.of_nothing hpull
  have hend : ((ofCursor c).pulled n).AtEnd := ⟨running, queue, ahead⟩
  have hkind : ((ofCursor c).pulled n).stack.kind = .nothing := by
    rw [hstack]
    rfl
  have hexhausted : l.Exhausted := hend.exhausted hkind
  have hclosed : l.stack = {} := by
    change ((ofCursor c).pulled n).next.2.stack = {}
    rw [hend.next_of_kind hkind]
    exact hstack
  have hsource : l.cursor.source = c.source :=
    pulled_induction (P := fun l ↦ l.cursor.source = c.source)
      (fun h hpull ↦ hpull.source_eq.trans h) rfl (n + 1)
  refine ⟨?_, hexhausted.queue, ?_, hexhausted.kind, ?_, hexhausted.running, ?_⟩
  · rw [hexhausted.consumed, hsource]
  · rw [depth, hclosed]
    rfl
  · rw [inFlow, hclosed]
    rfl
  · intro rs passive
    exact hexhausted.session passive

/-- A sequence in brackets that is not closed, as the entry of another one, with a gap behind it. The
end of the input closes both, and that takes three tokens. -/
theorem session_of_end_unclosed :
    let c := Cursor.ofBytes [0x2D, 0x20, 0x5B, 0x61, 0x2C, 0x0A]
    let l := (ofCursor c).pulled (9 + 1)
    ((ofCursor c).pulled 6).depth = 3 ∧ ((ofCursor c).pulled 9).next.1 = .ok .nothing ∧
      l.depth = 0 ∧
      l.session [.call .next, .call .current, .draw 2, .call .next?, .call .next] =
        ([.token (.ok .nothing), .token (.ok .nothing), .drawn [none, none], .item none,
          .token (.ok .nothing)], l) := by
  intro c l
  have hnothing : ((ofCursor c).pulled 9).next.1 = .ok .nothing := by decide +kernel
  obtain ⟨-, -, hdepth, -, -, -, hsession⟩ := session_of_end c 9 hnothing
  exact ⟨by decide +kernel, hnothing, hdepth, hsession _ (by decide)⟩

end Lexer

end YamlLexer
