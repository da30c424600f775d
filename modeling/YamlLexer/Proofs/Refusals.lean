import YamlLexer.Proofs.Ending
import YamlLexer.Proofs.Scalars

/-!
# What a scan can fail for

A scan looks far ahead and may close any number of structures, but whether it fails is settled where
it starts. There has to be an indicator of something that is recognised and refused, a closing
bracket without a collection of its shape, or the quote of a malformed scalar. `Lexer.Refuses` is
this table, with the error for each entry, and for a client that overrides nothing it is complete
(`next_eq_error_iff`). So no dedent, no boundary of a document and no end of the input ever fails,
and nothing that is refused is ever taken for text.

The table is about the stack in one point only, a closing bracket. That one is refused if no
collection of its shape is open, and whether it is a bracket or indentation that opened it makes no
difference (`Stack.tokens_closeFlow_iff`). All the rest is a matter of the bytes. Both directions
are shown: what is in the table fails with the error given there, and what fails is in the table.
-/

namespace YamlLexer

/-- The bytes with which constructs begin that are recognised and refused. -/
def refusedIndicators : List (Byte × Unsupported) :=
  [(0x7C, .literalScalar), (0x3E, .foldedScalar), (0x25, .directive), (0x40, .reserved '@'),
    (0x60, .reserved '\x60')]

theorem mem_refusedIndicators_iff {b : Byte} {u : Unsupported} :
    (b, u) ∈ refusedIndicators ↔ Role.of b = .unsupported u := by
  constructor
  · intro h
    simp only [refusedIndicators, List.mem_cons, Prod.mk.injEq, List.not_mem_nil, or_false] at h
    obtain ⟨rfl, rfl⟩ | ⟨rfl, rfl⟩ | ⟨rfl, rfl⟩ | ⟨rfl, rfl⟩ | ⟨rfl, rfl⟩ := h <;> rfl
  · intro h
    unfold Role.of at h
    split at h
    case h_20 => split at h <;> cases h
    all_goals cases h <;> decide

/-- A bracket that closes nothing is refused, and no other. -/
theorem Stack.tokens_closeFlow_iff {s : Stack} {shape : Shape} :
    (s.closeFlow shape).tokens = .error (.unopened shape) ↔
      ∀ f ∈ s.frames, f.kind ≠ shape.startToken := by
  rw [closeFlow]
  split
  · rename_i hnone
    simpa using hnone
  · rename_i i hsome
    obtain ⟨hi, hkind, -⟩ := List.findIdx?_eq_some_iff_getElem.mp hsome
    refine iff_of_false ((s.onlyUnclosable_close _).ne_unopened shape) ?_
    intro hnone
    exact hnone _ (List.getElem_mem hi) (of_decide_eq_true hkind)

namespace Lexer

variable {l : Lexer} {b : Byte} {p : Nat} {m : Mark} {e : LexError}

/-- The bytes that a scan fails at when it starts there, each with the error. -/
inductive Refuses (l : Lexer) (p : Nat) (m : Mark) : Byte → LexError → Prop
  | unsupported (b : Byte) (u : Unsupported) (mem : (b, u) ∈ refusedIndicators) :
      Refuses l p m b (.unsupported u m)
  /-- A closing bracket, where no collection of its shape is open. -/
  | closer (shape : Shape) (unopened : ∀ f ∈ l.stack.frames, f.kind ≠ shape.startToken) :
      Refuses l p m shape.closer.toNat.toUInt8 (.unbalancedCloser shape.closer m)
  /-- A quote, behind which a control byte comes before the closing quote. -/
  | control (q : Quote) (b : Byte) (x : Nat)
      (walk : Quoted.walk q .content (p + 1) (l.cursor.source.drop (p + 1)) = .control b x) :
      Refuses l p m q.byte (.malformedScalar ⟨p, x + 1⟩ m (.controlByte b))
  /-- A quote that no other closes. -/
  | unterminated (q : Quote)
      (walk : Quoted.walk q .content (p + 1) (l.cursor.source.drop (p + 1)) = .exhausted) :
      Refuses l p m q.byte (.malformedScalar ⟨p, l.cursor.source.length⟩ m .unterminated)

theorem Refuses.mark?_eq (h : l.Refuses p m b e) : e.mark? = some m := by
  cases h <;> rfl

theorem mark_moved (h : l.nextReading.before = 0) : l.moved.mark = l.nextPlace.mark := by
  change (⟨l.nextPlace.offset + l.nextReading.before, l.nextPlace.line,
    l.nextPlace.offset + l.nextReading.before - l.nextPlace.lineStart⟩ : Mark) = _
  rw [h]
  rfl

section

variable (running : l.failure = none) (queue : l.pending = [])

include running queue

theorem Refuses.next_eq (h : l.Refuses p l.nextPlace.mark b e) (hmeets : l.Meets p b) :
    l.next.1 = .error e := by
  cases h with
  | unsupported b u mem =>
    have hfound : l.nextReading.found = .error (.unsupported u) := by
      rw [nextReading_eq, hmeets.upcoming, Reading.of, mem_refusedIndicators_iff.mp mem]
    rw [next_of_refused running queue hfound]
    rfl
  | closer shape unopened =>
    have hclose := hmeets.reading_of_closer
    have heffect : l.stack.apply l.nextPlace.column (.flowEnd shape) =
        ⟨(l.stack.closeFlow shape).stack, .error (.unopened shape)⟩ := by
      rw [← Stack.tokens_closeFlow_iff.mpr unopened]
      rfl
    rw [next_of_faulted running queue (congrArg Reading.found hclose) heffect,
      mark_moved (congrArg Reading.before hclose)]
    rfl
  | control q b x walk => exact hmeets.next_of_control running queue walk
  | unterminated q walk => exact hmeets.next_of_exhausted running queue walk

omit running queue in
theorem refuses_of_refused {refusal : Refusal} (found : l.nextReading.found = .error refusal) :
    ∃ b e, l.Meets l.nextPlace.offset b ∧ l.Refuses l.nextPlace.offset m b e := by
  obtain ⟨-, ⟨-, -, -, q, hbyte⟩ | ⟨u, -, b, hbyte, role⟩⟩ := l.reads_upcoming.of_refused found
  · have hmeets : l.Meets l.nextPlace.offset q.byte := meets_iff.mpr ⟨rfl, hbyte⟩
    refine ⟨q.byte, ?_⟩
    rcases hwalk : Quoted.walk q .content (l.nextPlace.offset + 1)
        (l.cursor.source.drop (l.nextPlace.offset + 1)) with x | ⟨d, x⟩ | _
    · -- A scalar that closes is not refused.
      obtain ⟨size, -, hquoted⟩ := Reading.quoted_of_closed hwalk
      rw [hmeets.reading_of_quote, hquoted] at found
      cases found
    · exact ⟨_, hmeets, .control q d x hwalk⟩
    · exact ⟨_, hmeets, .unterminated q hwalk⟩
  · exact ⟨b, _, meets_iff.mpr ⟨rfl, hbyte⟩,
      .unsupported b u (mem_refusedIndicators_iff.mpr role)⟩

/-- What is not in the table does not fail. -/
theorem next_ok_or_refuses (hsound : l.stack.Sound) : (∃ token, l.next.1 = .ok token) ∨
    ∃ p b e, l.Meets p b ∧ l.Refuses p l.nextPlace.mark b e := by
  rcases found : l.nextReading.found with refusal | construct
  · obtain ⟨b, e, hmeets, hrefuses⟩ := refuses_of_refused (m := l.nextPlace.mark) found
    exact .inr ⟨_, b, e, hmeets, hrefuses⟩
  · rcases hsound.apply_cases l.nextPlace.column construct with ⟨shape, rfl, heffect⟩ |
      ⟨-, -, heffect⟩ | ⟨stack, token, tokens, heffect⟩
    · -- Of all the constructs that are read, only a closing bracket can be at fault.
      obtain ⟨-, b, hbyte, role⟩ := l.reads_upcoming.of_flowEnd found
      have hunopened := Stack.tokens_closeFlow_iff.mp (congrArg Nesting.tokens heffect)
      rw [Role.eq_closer role] at hbyte
      exact .inr ⟨_, _, _, meets_iff.mpr ⟨rfl, hbyte⟩, .closer shape hunopened⟩
    · rw [next_of_scanned running queue found heffect]
      exact .inl ⟨_, rfl⟩
    · rw [next_of_scanned running queue found heffect]
      exact .inl ⟨_, rfl⟩

end

/-- A client that overrides nothing, where no token is in line and there has been no error. The next
pull fails just where the table says so, and with the error that it gives, which has the mark of
that byte. Otherwise a token is delivered, and it is `nothing` only where no such byte is left. -/
theorem next_eq_error_iff (c : Cursor) {cs : List Call}
    (plain : ∀ kind, Call.setContext kind ∉ cs) :
    let l := (ofCursor c).calls cs
    l.failure = none → l.pending = [] →
      (∀ e, l.next.1 = .error e ↔
        ∃ p b, l.Meets p b ∧ l.Refuses p (c.placeAt p).mark b e) ∧
      (∀ p b e, l.Refuses p (c.placeAt p).mark b e → ∃ m, e.mark? = some m ∧ m.pos = p) ∧
      ((¬∃ p b e, l.Meets p b ∧ l.Refuses p (c.placeAt p).mark b e) →
        ∃ token, l.next.1 = .ok token) ∧
      (l.next.1 = .ok .nothing → ∀ p b, ¬l.Meets p b) := by
  intro l running queue
  have htracked : Tracked c l := tracked_calls c cs
  have hsound : l.stack.Sound := sound_calls .closed plain
  have hplace {p : Nat} {b : Byte} (hmeets : l.Meets p b) :
      l.nextPlace.mark = (c.placeAt p).mark := by
    rw [htracked.nextPlace_eq running, (meets_iff.mp hmeets).1]
  have hfails {p : Nat} {b : Byte} {e : LexError} (hmeets : l.Meets p b)
      (hrefuses : l.Refuses p (c.placeAt p).mark b e) : l.next.1 = .error e := by
    rw [← hplace hmeets] at hrefuses
    exact hrefuses.next_eq running queue hmeets
  -- Either a token is delivered or the table applies, so an error can only be that of the table.
  have htotal : (∃ token, l.next.1 = .ok token) ∨
      ∃ p b e, l.Meets p b ∧ l.Refuses p (c.placeAt p).mark b e := by
    refine (next_ok_or_refuses running queue hsound).imp_right ?_
    rintro ⟨p, b, e, hmeets, hrefuses⟩
    exact ⟨p, b, e, hmeets, hplace hmeets ▸ hrefuses⟩
  refine ⟨fun e ↦ ⟨?_, ?_⟩, ?_, ?_, ?_⟩
  · intro herror
    rcases htotal with ⟨token, hok⟩ | ⟨p, b, e', hmeets, hrefuses⟩
    · cases hok.symm.trans herror
    · obtain rfl : e' = e := Except.error.inj ((hfails hmeets hrefuses).symm.trans herror)
      exact ⟨p, b, hmeets, hrefuses⟩
  · rintro ⟨p, b, hmeets, hrefuses⟩
    exact hfails hmeets hrefuses
  · intro p b e hrefuses
    exact ⟨_, hrefuses.mark?_eq, rfl⟩
  · intro hnone
    exact htotal.resolve_right hnone
  · intro hnothing p b hmeets
    have hpull := l.pull_next
    rw [hnothing] at hpull
    obtain ⟨pending, -, hpending⟩ | ⟨hend, -⟩ := hpull.of_nothing
    · cases queue.symm.trans hpending
    · cases hend.ahead.symm.trans hmeets.upcoming

/-- A closing brace on the second line, where a sequence is open and no mapping. -/
theorem next_eq_error_iff_brace :
    let c := Cursor.ofBytes [0x5B, 0x0A, 0x2C, 0x7D]
    let cs : List Call := [.next, .next]
    let l := (ofCursor c).calls cs
    (∀ kind, Call.setContext kind ∉ cs) ∧ l.Meets 3 0x7D ∧
      l.next.1 = .error (.unbalancedCloser '\x7d' ⟨3, 1, 1⟩) := by
  intro c cs l
  have hplain : ∀ kind, Call.setContext kind ∉ cs := by simp [cs]
  have hmeets : l.Meets 3 0x7D := meets_iff.mpr (by decide)
  have hrefuses : l.Refuses 3 (c.placeAt 3).mark 0x7D (.unbalancedCloser '\x7d' ⟨3, 1, 1⟩) :=
    .closer .mapping (by decide)
  obtain ⟨herror, -⟩ := next_eq_error_iff c hplain rfl rfl
  exact ⟨hplain, hmeets, (herror _).mpr ⟨3, 0x7D, hmeets, hrefuses⟩⟩

end Lexer

end YamlLexer
