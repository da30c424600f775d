import YamlLexer.Proofs.Gap
import YamlLexer.Proofs.Nesting.Announce
import YamlLexer.Proofs.Nesting.Document
import YamlLexer.Proofs.Reading.Line
import YamlLexer.Proofs.Run

/-!
# Regular lexers

A client may push any token and override any kind. One that only pulls never sees what comes of
that: its lexer is `Regular`, whatever the input and however often it is pulled. The stack is sound,
so the equations of `Stack.document` apply to it, and the token `nothing` is never in line.

That token is hence delivered for one reason alone, and `Regular.of_nothing` names it: the input is
used up, and nothing is open or in line any more.
-/

namespace YamlLexer.Lexer

/-- What holds of the lexer of an input after any number of pulls. -/
structure Regular (l : Lexer) : Prop where
  sound : l.stack.Sound
  queue : .nothing ∉ l.pending
  line : l.lineStart ≤ l.cursor.offset

theorem regular_ofCursor (c : Cursor) : (ofCursor c).Regular :=
  ⟨.closed, List.not_mem_nil, Nat.le_refl _⟩

theorem regular_ofBytes (bytes : List Byte) : (ofBytes bytes).Regular := regular_ofCursor _

variable {l l' : Lexer} {c : Construct} {stack : Stack} {tokens : List Token}

/-!
## Scans

What a scan takes is there to be taken, so the lexer moves by exactly the width of the reading,
which is not cut short by the end of the input (`offset_moved`). The tokens that it lines up are all
proper ones, and its own comes last (`scanned_tokens`).
-/

theorem reads_upcoming (l : Lexer) : Reading.Reads l.inFlow l.upcoming l.nextReading := by
  rw [nextReading_eq]
  exact Reading.reads_of _ _

theorem starts_upcoming (l : Lexer) : Reading.Starts l.upcoming :=
  Reading.starts_dropWhile _

theorem width_le_upcoming (found : l.nextReading.found = .ok c) :
    l.nextReading.before + l.nextReading.size ≤ l.nextReading.width ∧
      l.nextReading.width ≤ (firstLine l.upcoming).length := by
  rw [nextReading_eq] at found ⊢
  exact Reading.width_le_firstLine l.starts_upcoming found

/-- The end of the input does not cut short what is taken. -/
theorem offset_moved (l : Lexer) :
    l.moved.cursor.offset = l.nextPlace.offset + l.nextReading.width := by
  refine Nat.min_eq_left ?_
  have hwidth := l.reads_upcoming.width_le.2
  have hlength := congrArg List.length l.drop_nextPlace
  rw [List.length_drop, ← upcoming] at hlength
  have hoffset := l.offset_nextPlace_le
  omega

theorem scanned_tokens (effect : l.stack.apply l.nextPlace.column c = ⟨stack, .ok tokens⟩) :
    ∃ marks, marks.all Token.isStructural = true ∧ tokens = marks ++ c.own?.toList :=
  Stack.apply_tokens effect

/-- All tokens of a scan are proper ones. -/
theorem nothing_not_mem_scanned (found : l.nextReading.found = .ok c)
    (effect : l.stack.apply l.nextPlace.column c = ⟨stack, .ok tokens⟩) : .nothing ∉ tokens := by
  obtain ⟨marks, hmarks, rfl⟩ := scanned_tokens effect
  rw [List.mem_append, Option.mem_toList]
  rintro (hmem | hmem)
  · simpa [Token.isStructural] using List.all_eq_true.mp hmarks _ hmem
  · simpa [Token.hasLexeme] using l.reads_upcoming.hasLexeme found hmem

theorem lineStart_moved_le (h : l.lineStart ≤ l.cursor.offset) :
    l.moved.lineStart ≤ l.moved.cursor.offset := by
  have hline : l.nextPlace.lineStart ≤ l.nextPlace.offset :=
    Place.lineStart_skipGap_le h l.cursor.rest
  have hoffset := l.offset_nextPlace_le
  change l.nextPlace.lineStart ≤
    min (l.nextPlace.offset + l.nextReading.width) l.cursor.source.length
  omega

/-! ## Pulls and runs -/

theorem Pull.sound {answer : Except LexError Token} (hpull : l.Pull answer l')
    (h : l.stack.Sound) : l'.stack.Sound := by
  cases hpull with
  | repeated => exact h
  | queued => exact h
  | refused => exact h
  | faulted _ _ _ effect =>
    -- A faulty bracket leaves the stack as it was.
    obtain rfl := h.apply_error effect
    exact h
  | @scanned c _ _ _ _ _ effect =>
    have hstack := h.apply l.nextPlace.column c
    rwa [effect] at hstack

theorem Pull.nothing_not_mem_pending {answer : Except LexError Token} (hpull : l.Pull answer l')
    (h : .nothing ∉ l.pending) : .nothing ∉ l'.pending := by
  cases hpull with
  | queued failure queue =>
    intro hmem
    rw [queue] at h
    exact h (List.mem_cons_of_mem _ hmem)
  | scanned _ _ found effect =>
    intro hmem
    exact nothing_not_mem_scanned found effect (List.mem_of_mem_tail hmem)
  | _ => exact h

theorem Regular.pull {answer : Except LexError Token} (h : l.Regular) (hpull : l.Pull answer l') :
    l'.Regular := by
  refine ⟨hpull.sound h.sound, hpull.nothing_not_mem_pending h.queue, ?_⟩
  cases hpull with
  | repeated => exact h.line
  | queued => exact h.line
  | _ => exact lineStart_moved_le h.line

theorem Regular.next (h : l.Regular) : l.next.2.Regular := h.pull l.pull_next

theorem Regular.pulled (h : l.Regular) (n : Nat) : (l.pulled n).Regular :=
  pulled_induction Regular.pull h n

/-- The stream ends where the input does, with nothing open and nothing in line. -/
theorem Regular.of_nothing (h : l.Regular) (hpull : l.Pull (.ok .nothing) l') :
    l.failure = none ∧ l.pending = [] ∧ l.stack = {} ∧ l.upcoming = [] := by
  generalize hanswer : Except.ok Token.nothing = answer at hpull
  cases hpull with
  | queued failure queue =>
    cases hanswer
    exact absurd (queue ▸ List.mem_cons_self) h.queue
  | @scanned c stack tokens failure queue found effect =>
    cases tokens with
    | nil =>
      obtain ⟨rfl, hstack⟩ := h.sound.apply_nil effect
      exact ⟨failure, queue, hstack, l.reads_upcoming.eq_nil found⟩
    | cons token tokens =>
      obtain rfl : Token.nothing = token := by simpa using hanswer
      exact absurd List.mem_cons_self (nothing_not_mem_scanned found effect)
  | _ => cases hanswer

end YamlLexer.Lexer
