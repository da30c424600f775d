import Mathlib.Data.Option.Basic
import YamlLexer.Proofs.Lines
import YamlLexer.Proofs.Reading.LineBreaks
import YamlLexer.Proofs.Regular

/-!
# Line breaks

How the lines of a text end makes no difference to its tokens: with every line feed replaced by a
carriage return, or by both, each pull has the same answer, and leaves a lexer that shows the same
lexeme on the same line at the same column (`pulled_restyleBreaks`).

The lexers of the two texts are kept together by `Restyled`. Behind every construct, what is ahead
of the one is the restyled text that is ahead of the other. So no scan ever stops inside a double
break, and all breaks are passed in gaps, where a double one counts once. Offsets come apart, but
lines and columns do not.

After an error the lexers have stopped at places that have nothing to do with each other any more,
but nothing is read from there, and what can be seen of them is still the same.
-/

namespace YamlLexer

variable {style : LineBreak} {s : List Byte}

/-!
## Gaps

Within a gap the two texts come apart and meet again. Every line feed has become a break of the
given style, which counts once, as the line feed did.
-/

theorem columnBehind_restyleBreaks (style : LineBreak) (column : Nat) (s : List Byte) :
    columnBehind column (restyleBreaks style s) = columnBehind column s := by
  induction s generalizing column with
  | nil => rfl
  | cons b s ih =>
    by_cases hb : b = 0x0A
    · subst hb
      rw [restyleBreaks_feed]
      cases style <;> exact ih 0
    · rw [restyleBreaks_cons hb, columnBehind, columnBehind, ih]

theorem head?_restyleBreaks_cr (s : List Byte) : (restyleBreaks .cr s).head? ≠ some 0x0A := by
  rcases s with _ | ⟨b, s⟩
  · simp [restyleBreaks]
  · by_cases hb : b = 0x0A
    · subst hb
      simp [restyleBreaks_feed, LineBreak.bytes]
    · simpa [restyleBreaks_cons hb] using hb

namespace Place

/-- A break counts once, unless a carriage return gets a line feed behind it that is not its own. -/
theorem exists_skipGap_bytes (style : LineBreak) (p : Place)
    (h : style = .cr → s.head? ≠ some 0x0A) :
    ∃ p' : Place, p.skipGap (style.bytes ++ s) = p'.skipGap s ∧ p'.line = p.line + 1 := by
  cases style with
  | lf => exact ⟨p.pass 0x0A s, rfl, rfl⟩
  | cr => exact ⟨p.pass 0x0D s, rfl, if_pos (by simpa [endsLine] using h rfl)⟩
  | crlf => exact ⟨(p.pass 0x0D (0x0A :: s)).pass 0x0A s, rfl, rfl⟩

theorem line_skipGap_restyleBreaks (h : 0x0D ∉ s) {p p' : Place} (hline : p'.line = p.line) :
    (p'.skipGap (restyleBreaks style s)).line = (p.skipGap s).line := by
  induction s generalizing p p' with
  | nil => exact hline
  | cons b s ih =>
    rw [List.mem_cons, not_or] at h
    by_cases hb : b = 0x0A
    · subst hb
      obtain ⟨q, hgap, hq⟩ := p'.exists_skipGap_bytes (s := restyleBreaks style s) style
        fun hstyle ↦ hstyle ▸ head?_restyleBreaks_cr s
      rw [restyleBreaks_feed, hgap]
      refine ih h.2 ?_
      rw [hq, hline]
      rfl
    · have hbreak : b.isBreak = false := by simp [Byte.isBreak, hb, Ne.symm h.1]
      rw [restyleBreaks_cons hb, skipGap, skipGap]
      split
      · refine ih h.2 ?_
        rw [pass, pass, endsLine_of_isBreak hbreak, endsLine_of_isBreak hbreak]
        exact hline
      · exact hline

end Place

/-! ## Errors -/

/-- Marks on the same line at the same column. -/
structure Mark.SameColumn (m m' : Mark) : Prop where
  line : m'.line = m.line
  col : m'.col = m.col

/-- The same error in a text with breaks of the given style: for the same reason, and about what
stands on the same line at the same column. -/
inductive LexError.SameKind (style : LineBreak) : LexError → LexError → Prop
  | malformedScalar {m m' : Mark} (span span' : Span) (mark : m.SameColumn m')
      (fault : ScalarFault) : SameKind style (.malformedScalar span m fault)
        (.malformedScalar span' m' (fault.restyle style))
  | unbalancedCloser {m m' : Mark} (found : Char) (mark : m.SameColumn m') :
      SameKind style (.unbalancedCloser found m) (.unbalancedCloser found m')
  | invalidContext {m m' : Mark} (kind : Token) (mark : m.SameColumn m') :
      SameKind style (.invalidContext kind m) (.invalidContext kind m')
  | unsupported {m m' : Mark} (construct : Unsupported) (mark : m.SameColumn m') :
      SameKind style (.unsupported construct m) (.unsupported construct m')

theorem Refusal.sameKind_error (style : LineBreak) {p p' : Place}
    (h : p.mark.SameColumn p'.mark) (r : Refusal) :
    (r.error p).SameKind style ((r.restyle style).error p') := by
  rcases r with construct | ⟨fault, extent⟩
  · exact .unsupported construct h
  · exact .malformedScalar _ _ h fault

theorem NestingFault.sameKind_error (style : LineBreak) {m m' : Mark} (h : m.SameColumn m')
    (fault : NestingFault) : (fault.error m).SameKind style (fault.error m') := by
  rcases fault with kind | shape
  · exact .invalidContext kind h
  · exact .unbalancedCloser _ h

namespace Lexer

/-! ## Lexers side by side -/

/-- Answers that are the same, but for where errors are. -/
inductive SameAnswer (style : LineBreak) : Except LexError Token → Except LexError Token → Prop
  | error {e e' : LexError} (kind : e.SameKind style e') : SameAnswer style (.error e) (.error e')
  | token (token : Token) : SameAnswer style (.ok token) (.ok token)

/-- Lexers that look the same, but for offsets. -/
structure SameView (l l' : Lexer) : Prop where
  bytes : l'.cursor.slice l'.lexeme = l.cursor.slice l.lexeme
  mark : l.mark.SameColumn l'.mark
  depth : l'.depth = l.depth
  context : l'.context = l.context
  indent : l'.indent = l.indent
  inFlow : l'.inFlow = l.inFlow
  hasPending : l'.hasPending = l.hasPending

/-- Lexers at the same place in a text and in the same text with other breaks. -/
structure SamePlace (style : LineBreak) (l l' : Lexer) : Prop where
  rest : l'.cursor.rest = restyleBreaks style l.cursor.rest
  feeds : 0x0D ∉ l.cursor.rest
  column : l'.place.column = l.place.column
  line_le : l.lineStart ≤ l.cursor.offset
  line_le' : l'.lineStart ≤ l'.cursor.offset

/-- The lexers of a text and of the same text with other breaks, after the same pulls. As long as
there is no error, they read on at the same place. -/
structure Restyled (style : LineBreak) (l l' : Lexer) : Prop where
  bytes : l'.cursor.slice l'.lexeme = l.cursor.slice l.lexeme
  line : l'.line = l.line
  mark : l.mark.SameColumn l'.mark
  stack : l'.stack = l.stack
  pending : l'.pending = l.pending
  failure : Option.Rel (LexError.SameKind style) l.failure l'.failure
  place : l.failure = none → SamePlace style l l'

theorem restyled_ofBytes (style : LineBreak) {bytes : List Byte} (h : 0x0D ∉ bytes) :
    Restyled style (ofBytes bytes) (ofBytes (restyleBreaks style bytes)) :=
  ⟨rfl, rfl, ⟨rfl, rfl⟩, rfl, rfl, .none, fun _ ↦ ⟨rfl, h, rfl, Nat.le_refl _, Nat.le_refl _⟩⟩

variable {l l' : Lexer}

theorem Restyled.view (h : Restyled style l l') : SameView l l' where
  bytes := h.bytes
  mark := h.mark
  depth := congrArg Stack.depth h.stack
  context := congrArg Stack.kind h.stack
  indent := congrArg Stack.indent h.stack
  inFlow := congrArg Stack.inFlow h.stack
  hasPending := congrArg (fun pending : List Token ↦ !pending.isEmpty) h.pending

/-!
## Scans

What is ahead of the second lexer is the restyled text of what is ahead of the first, so the reading
is the same but for a break that it may blame (`Reading.of_restyleBreaks`). Lines and columns are
the same in front of it, hence also behind it, as no reading takes a break.
-/

theorem col_mark_moved (h : l.lineStart ≤ l.cursor.offset) :
    l.moved.mark.col = l.nextPlace.column + l.nextReading.before := by
  have hline : l.nextPlace.lineStart ≤ l.nextPlace.offset :=
    Place.lineStart_skipGap_le h l.cursor.rest
  change l.nextPlace.offset + l.nextReading.before - l.nextPlace.lineStart =
    l.nextPlace.offset - l.nextPlace.lineStart + l.nextReading.before
  omega

theorem column_place_moved (h : l.lineStart ≤ l.cursor.offset) :
    l.moved.place.column = l.nextPlace.column + l.nextReading.width := by
  have hline : l.nextPlace.lineStart ≤ l.nextPlace.offset :=
    Place.lineStart_skipGap_le h l.cursor.rest
  change l.moved.cursor.offset - l.nextPlace.lineStart =
    l.nextPlace.offset - l.nextPlace.lineStart + l.nextReading.width
  rw [offset_moved]
  omega

section

variable (h : Restyled style l l') (running : l.failure = none)

include h running

theorem Restyled.nextPlace : l.nextPlace.mark.SameColumn l'.nextPlace.mark := by
  have hplace := h.place running
  refine ⟨?_, ?_⟩
  · change (l'.place.skipGap l'.cursor.rest).line = (l.place.skipGap l.cursor.rest).line
    rw [hplace.rest]
    exact Place.line_skipGap_restyleBreaks hplace.feeds h.line
  · change l'.nextPlace.column = l.nextPlace.column
    rw [column_nextPlace hplace.line_le, column_nextPlace hplace.line_le', hplace.rest,
      hplace.column, columnBehind_restyleBreaks]

theorem Restyled.upcoming : l'.upcoming = restyleBreaks style l.upcoming := by
  have hbreak : ∀ b : Byte, b.isBreak = true → b.isGap = true := by
    intro b hb
    obtain rfl | rfl := isBreak_cases hb
    · rfl
    · rfl
  rw [Lexer.upcoming, (h.place running).rest, dropWhile_restyleBreaks hbreak, Lexer.upcoming]

theorem Restyled.nextReading : l'.nextReading = l.nextReading.restyle style := by
  rw [nextReading_eq, nextReading_eq, h.view.inFlow, h.upcoming running,
    Reading.of_restyleBreaks _ l.starts_upcoming]

theorem Restyled.bytes_moved :
    l'.moved.cursor.slice l'.moved.lexeme = l.moved.cursor.slice l.moved.lexeme := by
  rw [slice_moved, slice_moved, h.nextReading running, h.upcoming running, nextReading_eq]
  exact Reading.lexemeIn_restyleBreaks _ l.starts_upcoming

theorem Restyled.mark_moved : l.moved.mark.SameColumn l'.moved.mark := by
  have hplace := h.place running
  refine ⟨(h.nextPlace running).line, ?_⟩
  rw [col_mark_moved hplace.line_le, col_mark_moved hplace.line_le', h.nextReading running]
  exact congrArg (· + l.nextReading.before) (h.nextPlace running).col

theorem Restyled.place_moved {c : Construct} (found : l.nextReading.found = .ok c) :
    SamePlace style l.moved l'.moved := by
  have hplace := h.place running
  have hreading : l'.nextReading = l.nextReading := by
    rw [h.nextReading running, Reading.restyle_of_ok found]
  have hwidth := (width_le_upcoming found).2
  refine ⟨?_, ?_, ?_, lineStart_moved_le hplace.line_le, lineStart_moved_le hplace.line_le'⟩
  · rw [rest_moved, rest_moved, hreading, h.upcoming running, drop_restyleBreaks hwidth]
  · intro hmem
    rw [rest_moved] at hmem
    exact hplace.feeds ((List.dropWhile_suffix _).mem (List.mem_of_mem_drop hmem))
  · rw [column_place_moved hplace.line_le, column_place_moved hplace.line_le', hreading]
    exact congrArg (· + l.nextReading.width) (h.nextPlace running).col

theorem Restyled.apply (c : Construct) :
    l'.stack.apply l'.nextPlace.column c = l.stack.apply l.nextPlace.column c := by
  rw [h.stack]
  exact congrArg (l.stack.apply · c) (h.nextPlace running).col

end

/-! ## Runs -/

theorem Restyled.running (h : Restyled style l l') (running : l.failure = none) :
    l'.failure = none := by
  have hsame := h.failure
  rw [running] at hsame
  generalize l'.failure = failure at hsame
  cases hsame
  rfl

/-- After an error, nothing but what is shown has to be the same. -/
theorem Restyled.failed (h : Restyled style l l') (running : l.failure = none) {stack stack' : Stack}
    (hstack : stack' = stack) {e e' : LexError} (kind : e.SameKind style e') :
    Restyled style { l.moved with stack := stack, failure := some e }
      { l'.moved with stack := stack', failure := some e' } :=
  ⟨h.bytes_moved running, (h.nextPlace running).line, h.mark_moved running, hstack, h.pending,
    .some kind, fun hnone ↦ nomatch hnone⟩

theorem Restyled.pull {answer : Except LexError Token} {m : Lexer} (h : Restyled style l l')
    (hpull : l.Pull answer m) : SameAnswer style answer l'.next.1 ∧ Restyled style m l'.next.2 := by
  cases hpull with
  | @repeated e failure =>
    have hsame := h.failure
    rw [failure] at hsame
    generalize hfailure' : l'.failure = failure' at hsame
    cases hsame with
    | some kind =>
      rw [next_of_failure hfailure']
      exact ⟨.error kind, h⟩
  | @queued token pending failure queue =>
    rw [next_of_pending (h.running failure) (h.pending.trans queue)]
    have hplace := h.place failure
    exact ⟨.token token, h.bytes, h.line, h.mark, h.stack, rfl, h.failure, fun _ ↦
      ⟨hplace.rest, hplace.feeds, hplace.column, hplace.line_le, hplace.line_le'⟩⟩
  | @refused refusal failure queue found =>
    -- If a break is to blame, in the other text it is the first byte of one.
    have hfound : l'.nextReading.found = .error (refusal.restyle style) := by
      rw [h.nextReading failure, Reading.restyle, found]
      rfl
    have hkind := refusal.sameKind_error style (h.nextPlace failure)
    rw [next_of_refused (h.running failure) (h.pending.trans queue) hfound]
    exact ⟨.error hkind, h.failed failure h.stack hkind⟩
  | @faulted c stack fault failure queue found effect =>
    have hfound : l'.nextReading.found = .ok c := by
      rw [h.nextReading failure, Reading.restyle_of_ok found, found]
    have hkind := fault.sameKind_error style (h.mark_moved failure)
    rw [next_of_faulted (h.running failure) (h.pending.trans queue) hfound
      ((h.apply failure c).trans effect)]
    exact ⟨.error hkind, h.failed failure rfl hkind⟩
  | @scanned c stack tokens failure queue found effect =>
    have hfound : l'.nextReading.found = .ok c := by
      rw [h.nextReading failure, Reading.restyle_of_ok found, found]
    rw [next_of_scanned (h.running failure) (h.pending.trans queue) hfound
      ((h.apply failure c).trans effect)]
    have hplace := h.place_moved failure found
    exact ⟨.token _, h.bytes_moved failure, (h.nextPlace failure).line, h.mark_moved failure, rfl,
      rfl, h.failure, fun _ ↦
      ⟨hplace.rest, hplace.feeds, hplace.column, hplace.line_le, hplace.line_le'⟩⟩

theorem Restyled.pulled (h : Restyled style l l') (n : Nat) :
    Restyled style (l.pulled n) (l'.pulled n) := by
  induction n with
  | zero => exact h
  | succ n ih => exact (ih.pull (l.pulled n).pull_next).2

/-- A text without carriage returns, and the same text with another style of line breaks: each pull
has the same answer, and leaves lexers that look the same. -/
theorem pulled_restyleBreaks (style : LineBreak) (bytes : List Byte) (feeds : 0x0D ∉ bytes)
    (n : Nat) :
    let l := (ofBytes bytes).pulled n
    let l' := (ofBytes (restyleBreaks style bytes)).pulled n
    SameAnswer style l.next.1 l'.next.1 ∧ SameView l.next.2 l'.next.2 := by
  intro l l'
  have h : Restyled style l l' := (restyled_ofBytes style feeds).pulled n
  obtain ⟨hanswer, hnext⟩ := h.pull l.pull_next
  exact ⟨hanswer, hnext.view⟩

/-- A key and, below it, an entry in brackets. The entry is further along in the text with double
breaks, but at the same column. -/
theorem pulled_restyleBreaks_entry :
    let bytes : List Byte := [0x61, 0x3A, 0x0A, 0x20, 0x5B, 0x62]
    let bytes' : List Byte := [0x61, 0x3A, 0x0D, 0x0A, 0x20, 0x5B, 0x62]
    let l := (ofBytes bytes).pulled 5
    let l' := (ofBytes bytes').pulled 5
    restyleBreaks .crlf bytes = bytes' ∧ 0x0D ∉ bytes ∧
      SameAnswer .crlf l.next.1 l'.next.1 ∧ SameView l.next.2 l'.next.2 ∧
      l.next.1 = .ok .text ∧ l.next.2.mark = ⟨5, 1, 2⟩ ∧ l'.next.2.mark = ⟨6, 1, 2⟩ := by
  intro bytes bytes' l l'
  obtain ⟨hanswer, hview⟩ := pulled_restyleBreaks .crlf bytes (by decide) 5
  exact ⟨by decide, by decide, hanswer, hview, by decide, by decide, by decide⟩

end Lexer

end YamlLexer
