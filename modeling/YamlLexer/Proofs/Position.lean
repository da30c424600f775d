import YamlLexer.Proofs.Calls
import YamlLexer.Proofs.Lines
import YamlLexer.Proofs.Nesting.Faults
import YamlLexer.Proofs.Regular

/-!
# Positions are exact

Lines are counted in gaps only, so the count is right as long as nothing else takes a line break,
and no double break is cut in two by a scan. Both are known of readings: a construct stays on its
line (`Reading.width_le_firstLine`), and behind one, lines are counted on from exactly where it
stops.

The invariant is `Tracked`. It speaks of two offsets at once: the one at which the last lexeme
starts, to which the line is reported, and the one up to which the lexer has read, from which it
counts on. After an error the second does not matter any more, as nothing is counted then.

Neither an injected token nor an override has anything to do with positions, so what holds of a
lexer that is only pulled holds for every client.
-/

namespace YamlLexer

/-- The byte that a construct begins with which is refused in this way. -/
def Unsupported.indicator : Unsupported → Byte
  | literalScalar => 0x7C
  | foldedScalar => 0x3E
  | directive => 0x25
  | reserved c => c.toNat.toUInt8

theorem Role.eq_indicator {b : Byte} {u : Unsupported} (h : Role.of b = .unsupported u) :
    b = u.indicator := by
  unfold Role.of at h
  split at h
  case h_20 => split at h <;> cases h
  all_goals cases h <;> rfl

theorem Role.eq_closer {b : Byte} {shape : Shape} (h : Role.of b = .flowEnd shape) :
    b = shape.closer.toNat.toUInt8 := by
  unfold Role.of at h
  split at h
  case h_20 => split at h <;> cases h
  all_goals cases h <;> rfl

namespace LexError

/-- Whether an error is about a construct that begins with the given byte: the quote that opens a
scalar, the closing bracket that was found, or a reserved indicator. -/
def Blames (b? : Option Byte) : LexError → Prop
  | malformedScalar _ _ _ => ∃ q : Quote, b? = some q.byte
  | unbalancedCloser found _ => b? = some found.toNat.toUInt8
  | unsupported u _ => b? = some u.indicator
  | invalidContext _ _ | undecodable _ => True

/-- The mark of an error is that of the given offset, and what it is about begins there. -/
structure StandsAt (c : Cursor) (pos : Nat) (e : LexError) : Prop where
  mark : e.mark? = some (c.placeAt pos).mark
  byte : e.Blames c.source[pos]?

end LexError

namespace Lexer

/-- The line of the last lexeme is the right one. -/
structure Placed (c : Cursor) (l : Lexer) : Prop where
  source : l.cursor.source = c.source
  le : c.offset ≤ l.lexeme.start
  line : l.line = (c.placeAt l.lexeme.start).line
  lineStart : l.lineStart = (c.placeAt l.lexeme.start).lineStart

/-- What holds of the lexer of a cursor, whatever its client does. -/
structure Tracked (c : Cursor) (l : Lexer) : Prop where
  placed : Placed c l
  ahead : l.failure = none → c.offset ≤ l.cursor.offset ∧ l.place = c.placeAt l.cursor.offset
  error : ∀ e, l.failure = some e → e.StandsAt c l.lexeme.start

variable {c : Cursor} {l l' : Lexer}

theorem tracked_ofCursor (c : Cursor) : Tracked c (ofCursor c) := by
  refine ⟨⟨rfl, Nat.le_refl _, ?_, ?_⟩, ?_, ?_⟩
  · change 0 = (c.placeAt c.offset).line
    rw [Cursor.placeAt_offset]
  · change c.offset = (c.placeAt c.offset).lineStart
    rw [Cursor.placeAt_offset]
  · intro _
    exact ⟨Nat.le_refl _, c.placeAt_offset.symm⟩
  · intro e hfailure
    cases hfailure

theorem Placed.congr (h : Placed c l) (source : l'.cursor.source = l.cursor.source)
    (lexeme : l'.lexeme = l.lexeme) (line : l'.line = l.line)
    (lineStart : l'.lineStart = l.lineStart) : Placed c l' := by
  refine ⟨source.trans h.source, ?_, ?_, ?_⟩
  · rw [lexeme]
    exact h.le
  · rw [lexeme, line]
    exact h.line
  · rw [lexeme, lineStart]
    exact h.lineStart

theorem Placed.mark (h : Placed c l) : l.mark = (c.placeAt l.lexeme.start).mark := by
  rw [Lexer.mark, h.line, h.lineStart]
  rfl

/-!
## Scans

A gap takes the lexer to the right place (`Follows.skipGap`), and a construct takes it on along that
line. The mark is at the lexeme, or at the construct if it has none, and both are on the line on
which the construct starts.
-/

section

variable (h : Tracked c l) (failure : l.failure = none)

include h

theorem Tracked.head?_upcoming : l.upcoming.head? = c.source[l.nextPlace.offset]? := by
  rw [← h.placed.source, Lexer.head?_upcoming]

include failure

theorem Tracked.le_nextPlace : c.offset ≤ l.nextPlace.offset := by
  rw [offset_nextPlace]
  exact Nat.le_add_right_of_le (h.ahead failure).1

theorem Tracked.nextPlace_eq : l.nextPlace = c.placeAt l.nextPlace.offset := by
  obtain ⟨hle, hplace⟩ := h.ahead failure
  have hfollows : Place.Follows c l.place := by
    rw [hplace]
    exact Place.follows_placeAt hle
  refine hfollows.skipGap ?_
  rw [← h.placed.source]
  rfl

theorem Tracked.placeAt_add {n : Nat} (hn : n ≤ (firstLine l.upcoming).length) :
    c.placeAt (l.nextPlace.offset + n) =
      ⟨l.nextPlace.offset + n, l.nextPlace.line, l.nextPlace.lineStart⟩ := by
  rw [upcoming, ← drop_nextPlace, h.placed.source] at hn
  rw [Cursor.placeAt_add (h.le_nextPlace failure) hn, ← h.nextPlace_eq failure]

theorem Tracked.placed_moved (hbefore : l.nextReading.before ≤ (firstLine l.upcoming).length) :
    Placed c l.moved := by
  have hstart : c.placeAt l.moved.lexeme.start = _ := h.placeAt_add failure hbefore
  refine ⟨h.placed.source, ?_, ?_, ?_⟩
  · exact Nat.le_add_right_of_le (h.le_nextPlace failure)
  · rw [hstart]
    rfl
  · rw [hstart]
    rfl

/-- A construct that is read is on one line, and so is what the lexer goes on from. -/
theorem Tracked.moved {construct : Construct} (found : l.nextReading.found = .ok construct) :
    Placed c l.moved ∧ c.offset ≤ l.moved.cursor.offset ∧
      l.moved.place = c.placeAt l.moved.cursor.offset := by
  have hline := width_le_upcoming found
  have hoffset := l.offset_moved
  refine ⟨h.placed_moved failure (by omega), ?_, ?_⟩
  · rw [hoffset]
    exact Nat.le_add_right_of_le (h.le_nextPlace failure)
  · rw [hoffset, h.placeAt_add failure hline.2, ← hoffset]
    rfl

theorem Tracked.refused {refusal : Refusal} (found : l.nextReading.found = .error refusal) :
    Placed c l.moved ∧ (refusal.error l.nextPlace).StandsAt c l.moved.lexeme.start := by
  obtain ⟨hbefore, hrefusal⟩ := l.reads_upcoming.of_refused found
  have hstart : l.moved.lexeme.start = l.nextPlace.offset := by
    change l.nextPlace.offset + l.nextReading.before = _
    rw [hbefore, Nat.add_zero]
  refine ⟨h.placed_moved failure (by omega), ?_⟩
  rw [h.head?_upcoming] at hrefusal
  rw [hstart]
  rcases hrefusal with ⟨fault, extent, rfl, hquote⟩ | ⟨u, rfl, b, hbyte, role⟩
  · refine ⟨?_, hquote⟩
    rw [← h.nextPlace_eq failure]
    rfl
  · refine ⟨?_, ?_⟩
    · rw [← h.nextPlace_eq failure]
      rfl
    · rw [hbyte, Role.eq_indicator role]
      rfl

theorem Tracked.faulted {construct : Construct} {stack : Stack} {fault : NestingFault}
    (found : l.nextReading.found = .ok construct)
    (effect : l.stack.apply l.nextPlace.column construct = ⟨stack, .error fault⟩) :
    (fault.error l.moved.mark).StandsAt c l.moved.lexeme.start := by
  have hmark := (h.moved failure found).1.mark
  rcases fault with kind | shape
  · exact ⟨congrArg some hmark, trivial⟩
  · refine ⟨congrArg some hmark, ?_⟩
    obtain rfl := Stack.eq_flowEnd_of_unopened (congrArg Nesting.tokens effect)
    obtain ⟨hbefore, b, hbyte, role⟩ := l.reads_upcoming.of_flowEnd found
    change c.source[l.nextPlace.offset + l.nextReading.before]? = some shape.closer.toNat.toUInt8
    rw [hbefore, Nat.add_zero, ← h.head?_upcoming, hbyte, Role.eq_closer role]

end

/-!
## Clients

An error has the mark of the scan that failed, also when it is repeated. What stands there is told
by `Blames`: an opening quote, a closing bracket, or an indicator that is refused.
-/

theorem Tracked.pull {answer : Except LexError Token} (h : Tracked c l) (hpull : l.Pull answer l') :
    Tracked c l' := by
  rcases hpull with _ | ⟨failure, _⟩ | ⟨failure, _, found⟩ | ⟨failure, _, found, effect⟩ |
    ⟨failure, _, found, _⟩
  · exact h
  · exact ⟨h.placed.congr rfl rfl rfl rfl, h.ahead, h.error⟩
  · obtain ⟨hplaced, herror⟩ := h.refused failure found
    refine ⟨hplaced.congr rfl rfl rfl rfl, ?_, ?_⟩
    · intro hnone
      cases hnone
    · rintro e ⟨rfl⟩
      exact herror
  · obtain ⟨hplaced, -⟩ := h.moved failure found
    refine ⟨hplaced.congr rfl rfl rfl rfl, ?_, ?_⟩
    · intro hnone
      cases hnone
    · rintro e ⟨rfl⟩
      exact h.faulted failure found effect
  · obtain ⟨hplaced, hahead⟩ := h.moved failure found
    refine ⟨hplaced.congr rfl rfl rfl rfl, fun _ ↦ hahead, ?_⟩
    intro e hfailure
    cases failure.symm.trans hfailure

theorem tracked_calls (c : Cursor) (cs : List Call) : Tracked c ((ofCursor c).calls cs) := by
  refine calls_induction Tracked.pull ?_ ?_ (tracked_ofCursor c) cs
  · intro l token h
    exact ⟨h.placed.congr rfl rfl rfl rfl, h.ahead, h.error⟩
  · intro l kind h
    exact ⟨h.placed.congr rfl rfl rfl rfl, h.ahead, h.error⟩

theorem fst_next_of_error {e : LexError}
    (h : l.next.1 = .error e ∨ l.next?.1 = some (.error e) ∨ l.current.1 = .error e) :
    l.next.1 = .error e := by
  rcases h with h | h | h
  · exact h
  · rw [next?] at h
    split at h
    · cases h
    · split at h
      · cases h
      · rename_i heq
        rw [heq]
        exact Option.some.inj h
  · rw [current] at h
    split at h
    · exact h
    · cases h

/-- A lexer that starts anywhere in any input, after anything that a client can do: the line is that
of the last lexeme, and so is the mark. An error, now or later, has the mark of the offset at which
the lexer stopped, and there stands what it is about. -/
theorem mark_calls (c : Cursor) (cs : List Call) :
    let l := (ofCursor c).calls cs
    let p := c.placeAt l.lexeme.start
    l.line = p.line ∧ l.lineStart = p.lineStart ∧ l.lineStart ≤ l.lexeme.start ∧ l.mark = p.mark ∧
      ∀ e, l.next.1 = .error e ∨ l.next?.1 = some (.error e) ∨ l.current.1 = .error e →
        e.StandsAt c l.next.2.lexeme.start := by
  intro l p
  have h : Tracked c l := tracked_calls c cs
  refine ⟨h.placed.line, h.placed.lineStart, ?_, h.placed.mark, ?_⟩
  · rw [h.placed.lineStart]
    exact Cursor.lineStart_placeAt_le h.placed.le
  · intro e he
    have hpull := l.pull_next
    refine (h.pull hpull).error e ?_
    rw [fst_next_of_error he] at hpull
    exact hpull.failure_eq

/-- A bracket without a partner, two lines below a scalar. The first of the two line breaks is a
double one, and that in front of the cursor does not count. -/
theorem mark_calls_closer :
    let c : Cursor := ⟨[0x0A, 0x61, 0x0D, 0x0A, 0x0A, 0x20, 0x5D], 1, by decide⟩
    let cs : List Call := [.next, .push .comment, .current, .next]
    let e := LexError.unbalancedCloser ']' ⟨6, 2, 1⟩
    ((ofCursor c).calls cs).next.1 = .error e ∧
      e.StandsAt c ((ofCursor c).calls cs).next.2.lexeme.start := by
  intro c cs e
  have herror : ((ofCursor c).calls cs).next.1 = .error e := by decide
  exact ⟨herror, (mark_calls c cs).2.2.2.2 e (.inl herror)⟩

end Lexer

end YamlLexer
