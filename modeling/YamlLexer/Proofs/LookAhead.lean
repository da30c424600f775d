import YamlLexer.Proofs.Reading.LookAhead
import YamlLexer.Proofs.Regular

/-!
# Look-ahead is bounded

What a lexer does up to some offset depends on the bytes up to there and two more. So a lexer can
work on input that is still arriving: as long as it stays two bytes away from the end of what is
there, nothing that comes later can change what it has delivered.

To see this, run two lexers over inputs that agree for a while. A gap is passed alike if it ends in
the common part, and a construct is read alike if it does so two bytes before the end of that.
Everything else a pull does is a matter of the state alone.

The bound is about where the lexer stands after the run, not about each scan by itself. Offsets
never decrease, so if the last of the pulls has left two bytes, then every one before it has.
-/

namespace YamlLexer

/-- A gap is passed alike if the byte behind it is the same. -/
theorem Place.skipGap_agreeOn {n : Nat} {s t : List Byte} (h : AgreeOn n s t)
    (hn : (s.takeWhile Byte.isGap).length < n) (p : Place) : p.skipGap t = p.skipGap s := by
  induction h generalizing p with
  | zero => exact absurd hn (Nat.not_lt_zero _)
  | nil => rfl
  | @cons b n s t h ih =>
    rw [skipGap, skipGap]
    by_cases hb : b.isGap = true
    · rw [List.takeWhile_cons_of_pos hb, List.length_cons] at hn
      have hnext : AgreeOn (0 + 1) s t := h.mono (by omega)
      have hhead : t.head? = s.head? := hnext.apply fun _ _ _ ↦ rfl
      have hpass : p.pass b t = p.pass b s := by
        rw [pass, pass, endsLine, endsLine, hhead]
      rw [if_pos hb, if_pos hb, hpass, ih (by omega)]
    · rw [if_neg hb, if_neg hb]

namespace Lexer

/-- Lexers that are in the same state, over whatever input. -/
structure SameState (l l' : Lexer) : Prop where
  offset : l'.cursor.offset = l.cursor.offset
  lexeme : l'.lexeme = l.lexeme
  line : l'.line = l.line
  lineStart : l'.lineStart = l.lineStart
  stack : l'.stack = l.stack
  pending : l'.pending = l.pending
  last : l'.last = l.last
  failure : l'.failure = l.failure

/-- Lexers in the same state, over inputs that begin with the same `n` bytes. -/
structure Twins (n : Nat) (l l' : Lexer) : Prop extends SameState l l' where
  source : AgreeOn n l.cursor.source l'.cursor.source

variable {n : Nat} {l l' m : Lexer} {token : Token} {c : Construct}

/-!
## Scans

A gap is as wide for the one lexer as for the other, and so is a construct. So both move to the same
offset, and that is all of the input that a lexer keeps in its state.
-/

section

variable (h : Twins n l l') (hn : l.moved.cursor.offset + 2 ≤ n)

include h hn

theorem Twins.agreeOn_rest : AgreeOn
    ((l.cursor.rest.takeWhile Byte.isGap).length + (l.nextReading.width + 2))
    l.cursor.rest l'.cursor.rest := by
  rw [offset_moved, offset_nextPlace] at hn
  have hsource : AgreeOn (l.cursor.offset +
      ((l.cursor.rest.takeWhile Byte.isGap).length + (l.nextReading.width + 2)))
      l.cursor.source l'.cursor.source := h.source.mono (by omega)
  rw [Cursor.rest, Cursor.rest, h.offset]
  exact hsource.drop

theorem Twins.nextPlace_eq : l'.nextPlace = l.nextPlace := by
  have hplace : l'.place = l.place := by
    rw [place, place, h.offset, h.line, h.lineStart]
  rw [nextPlace, nextPlace, hplace]
  exact Place.skipGap_agreeOn (h.agreeOn_rest hn) (by omega) l.place

variable (found : l.nextReading.found = .ok c)

include found

theorem Twins.nextReading_eq : l'.nextReading = l.nextReading := by
  have hupcoming : AgreeOn (l.nextReading.width + 2) l.upcoming l'.upcoming :=
    (h.agreeOn_rest hn).dropWhile (by omega)
  have hflow : l'.inFlow = l.inFlow := by
    rw [inFlow, inFlow, h.stack]
  rw [Lexer.nextReading_eq] at found hupcoming
  rw [Lexer.nextReading_eq, Lexer.nextReading_eq, hflow]
  exact Reading.of_agreeOn found hupcoming

theorem Twins.moved : Twins n l.moved l'.moved := by
  have hplace := h.nextPlace_eq hn
  have hreading := h.nextReading_eq hn found
  have hoffset : l'.moved.cursor.offset = l.moved.cursor.offset := by
    rw [offset_moved, offset_moved, hplace, hreading]
  rw [Lexer.moved, Lexer.moved, moveOver, moveOver, hplace, hreading] at hoffset ⊢
  exact ⟨⟨hoffset, rfl, rfl, rfl, h.stack, h.pending, h.last, h.failure⟩, h.source⟩

end

/-! ## Pulls and runs -/

/-- A token that is in line is delivered alike, and one that is scanned if the scan ends in time. -/
theorem Twins.next (h : Twins n l l') (hnext : l.next = (.ok token, m))
    (hn : m.cursor.offset + 2 ≤ n) : ∃ m', l'.next = (.ok token, m') ∧ Twins n m m' := by
  have hpull := pull_of_next hnext
  rcases hpull with _ | ⟨failure, queue⟩ | _ | _ | ⟨failure, queue, found, effect⟩
  · refine ⟨_, next_of_pending (h.failure.trans failure) (h.pending.trans queue), ?_⟩
    exact ⟨⟨h.offset, h.lexeme, h.line, h.lineStart, h.stack, rfl, rfl, h.failure⟩, h.source⟩
  · rename_i c stack tokens
    have hmoved := h.moved hn found
    have found' : l'.nextReading.found = .ok c := by
      rw [h.nextReading_eq hn found, found]
    have effect' : l'.stack.apply l'.nextPlace.column c = ⟨stack, .ok tokens⟩ := by
      rw [h.stack, h.nextPlace_eq hn, effect]
    refine ⟨_, next_of_scanned (h.failure.trans failure) (h.pending.trans queue) found' effect', ?_⟩
    exact ⟨⟨hmoved.offset, hmoved.lexeme, hmoved.line, hmoved.lineStart, rfl, rfl, rfl,
      hmoved.failure⟩, hmoved.source⟩

theorem twins_ofBytes {x y : List Byte} (h : x.take n = y.take n) :
    Twins n (ofBytes x) (ofBytes y) :=
  ⟨⟨rfl, rfl, rfl, rfl, rfl, rfl, rfl, rfl⟩, .of_take h⟩

theorem Twins.pulled (h : Twins n l l') {k : Nat}
    (hk : ∀ i < k, (∃ token, (l.pulled i).next.1 = .ok token) ∧
      (l.pulled (i + 1)).cursor.offset + 2 ≤ n) :
    (∀ i < k, (l'.pulled i).next.1 = (l.pulled i).next.1) ∧
      Twins n (l.pulled k) (l'.pulled k) := by
  induction k with
  | zero => exact ⟨by simp, h⟩
  | succ k ih =>
    obtain ⟨hanswers, htwins⟩ := ih fun i hi ↦ hk i (Nat.lt_succ_of_lt hi)
    obtain ⟨⟨token, htoken⟩, hn⟩ := hk k (Nat.lt_succ_self k)
    obtain ⟨m', hnext', htwins'⟩ := htwins.next (Prod.ext htoken rfl) hn
    refine ⟨?_, ?_⟩
    · intro i hi
      rcases Nat.lt_succ_iff_lt_or_eq.mp hi with hlt | rfl
      · exact hanswers i hlt
      · rw [hnext', htoken]
    · rw [pulled_succ l', hnext']
      exact htwins'

/-- For inputs that begin with the same `n` bytes: as long as the lexer of one has delivered a token
with every pull, and has stayed two bytes away from the end of the common part, the lexer of the
other has delivered the same tokens, and is in the same state. -/
theorem sameState_pulled (x y : List Byte) (n k : Nat) (h : x.take n = y.take n)
    (hk : ∀ i < k, (∃ token, ((ofBytes x).pulled i).next.1 = .ok token) ∧
      ((ofBytes x).pulled (i + 1)).cursor.offset + 2 ≤ n) :
    (∀ i < k, ((ofBytes y).pulled i).next.1 = ((ofBytes x).pulled i).next.1) ∧
      SameState ((ofBytes x).pulled k) ((ofBytes y).pulled k) := by
  obtain ⟨hanswers, htwins⟩ := (twins_ofBytes h).pulled hk
  exact ⟨hanswers, htwins.toSameState⟩

/-- An entry is the same whether another one follows or a bracket that closes nothing. -/
theorem sameState_pulled_entry :
    let x : List Byte := [0x2D, 0x20, 0x61, 0x0A, 0x0A, 0x2D]
    let y : List Byte := [0x2D, 0x20, 0x61, 0x0A, 0x0A, 0x7D]
    (∀ i < 4, ((ofBytes y).pulled i).next.1 = ((ofBytes x).pulled i).next.1) ∧
      SameState ((ofBytes x).pulled 4) ((ofBytes y).pulled 4) := by
  intro x y
  refine sameState_pulled x y 5 4 rfl ?_
  intro i hi
  rcases i with _ | _ | _ | _ | i
  · exact ⟨⟨.directivesEnd, rfl⟩, by decide⟩
  · exact ⟨⟨.sequenceStart, rfl⟩, by decide⟩
  · exact ⟨⟨.sequenceEntry, rfl⟩, by decide⟩
  · exact ⟨⟨.text, rfl⟩, by decide⟩
  · omega

end Lexer

end YamlLexer
