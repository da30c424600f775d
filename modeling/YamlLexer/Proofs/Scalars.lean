import YamlLexer.Proofs.Nesting.FlowRules
import YamlLexer.Proofs.Overrides
import YamlLexer.Proofs.Reading.KeyMark
import YamlLexer.Proofs.Reading.QuotedWalk
import YamlLexer.Proofs.Scans

/-!
# Scalars as clients see them

Three things about a scalar can be said of the input alone, without a reader: what a quoted one
comes to (`next_of_quote`), where a plain one ends (`text_delimited`), and whether one of any sort
is a key (`key_iff_marked`). In each case a client has got to the scalar somehow, with no token in
line, and it is settled by the bytes from there on what the scan answers, what the lexeme is, and
where the next scan will start to read.

How the client has got there matters little. It has to have left the kinds of the open structures
alone for the tokens of a key to be the right ones. Otherwise an override can do no more than stop a
scan with an error about a structure that it made impossible to close (`effect_scalar`).
-/

namespace YamlLexer

theorem isBlank_of_isGap {b : Byte} (h : b.isGap = false) : b.isBlank = false := by
  rw [Bool.eq_false_iff]
  intro hblank
  obtain rfl | rfl : b = 0x20 ∨ b = 0x09 := by simpa [Byte.isBlank] using hblank
  · cases h
  · cases h

namespace Lexer

variable {l : Lexer} {b : Byte} {p : Nat}

/-- The next scan runs into a structure of a kind that nothing closes, and the client has overridden
a kind with one of that sort. -/
structure Obstructed (c : Cursor) (cs : List Call) : Prop where
  error : ∃ kind m, ((ofCursor c).calls cs).next.1 = .error (.invalidContext kind m)
  override : ∃ kind ∉ Token.closable, Call.setContext kind ∈ cs

theorem obstructed_of_error {c : Cursor} {cs : List Call} {kind : Token} {m : Mark}
    (h : ((ofCursor c).calls cs).next.1 = .error (.invalidContext kind m)) : Obstructed c cs := by
  refine ⟨⟨kind, m, h⟩, ?_⟩
  by_contra hnone
  -- With every override of a kind that can be closed, no structure is left that cannot be.
  have hclosable : ((ofCursor c).calls cs).Closable := by
    refine closable_calls c fun kind hmem ↦ ?_
    by_contra hkind
    exact hnone ⟨kind, hkind, hmem⟩
  have hpull := ((ofCursor c).calls cs).pull_next
  have hnext := hclosable.pull hpull
  rw [h] at hpull
  exact hnext.failure _ hpull.failure_eq kind m rfl

/-!
## Quoted scalars

The walk tells three cases apart, and so does the statement. If a quote closes the scalar, the scan
is for what is in between, unless a structure that nothing closes is in its way.
-/

section

variable {q : Quote} (h : l.Meets p q.byte)

include h

theorem Meets.reading_of_quote :
    l.nextReading = Reading.quoted q (l.cursor.source.drop (p + 1)) := by
  rw [nextReading_eq, h.upcoming, Reading.of_quote]

theorem Meets.moved_of_closed {x : Nat}
    (walk : Quoted.walk q .content (p + 1) (l.cursor.source.drop (p + 1)) = .closed x) :
    let mark := KeyMark.read (l.cursor.source.drop (x + 1))
    l.nextReading.found = .ok (.scalar .text mark.isKey) ∧ l.moved.lexeme = ⟨p + 1, x⟩ ∧
      l.moved.cursor.offset = x + 1 + mark.width := by
  obtain ⟨size, rfl, hquoted⟩ := Reading.quoted_of_closed walk
  have hreading := h.reading_of_quote.trans hquoted
  have hbehind : (q.byte :: l.cursor.source.drop (p + 1)).drop (size + 2) =
      l.cursor.source.drop (p + 1 + size + 1) := by
    rw [List.drop_succ_cons, List.drop_drop, Nat.add_assoc (p + 1)]
  rw [Reading.scalar, hbehind] at hreading
  obtain ⟨rfl, -⟩ := meets_iff.mp h
  refine ⟨congrArg Reading.found hreading, ?_, ?_⟩
  · rw [moved, moveOver, hreading]
  · rw [offset_moved, hreading]
    dsimp only
    omega

variable (running : l.failure = none) (queue : l.pending = [])

include running queue

theorem Meets.next_of_control {x : Nat}
    (walk : Quoted.walk q .content (p + 1) (l.cursor.source.drop (p + 1)) = .control b x) :
    l.next.1 = .error (.malformedScalar ⟨p, x + 1⟩ l.nextPlace.mark (.controlByte b)) := by
  obtain ⟨i, rfl, hfound⟩ := Reading.quoted_of_control walk
  rw [← h.reading_of_quote] at hfound
  have hstop : p + (i + 2) = p + 1 + i + 1 := by omega
  rw [next_of_refused running queue hfound, ← hstop, Refusal.error, (meets_iff.mp h).1]

theorem Meets.next_of_exhausted
    (walk : Quoted.walk q .content (p + 1) (l.cursor.source.drop (p + 1)) = .exhausted) :
    l.next.1 =
      .error (.malformedScalar ⟨p, l.cursor.source.length⟩ l.nextPlace.mark .unterminated) := by
  have hfound := Reading.quoted_of_exhausted walk
  rw [← h.reading_of_quote] at hfound
  have hstop : p + ((l.cursor.source.drop (p + 1)).length + 1) = l.cursor.source.length := by
    obtain ⟨hlt, -⟩ := List.getElem?_eq_some_iff.mp h.byte
    rw [List.length_drop]
    omega
  rw [next_of_refused running queue hfound, ← hstop, Refusal.error, (meets_iff.mp h).1]

end

/-- Any client that meets a quote. If the walk behind it comes to a closing quote, the scan is for
the scalar in between, and the cursor was right behind that quote when it was found whether the
scalar is a key. Otherwise the scan fails, for the reason that the walk gives and up to where it has
come. -/
theorem next_of_quote (c : Cursor) (cs : List Call) (q : Quote) (p : Nat) :
    let l := (ofCursor c).calls cs
    let m := (c.placeAt p).mark
    l.failure = none → l.pending = [] → l.Meets p q.byte →
      m.pos = p ∧
      match Quoted.walk q .content (p + 1) (c.source.drop (p + 1)) with
      | .closed x =>
        let mark := KeyMark.read (c.source.drop (x + 1))
        l.nextReading.found = .ok (.scalar .text mark.isKey) ∧
          l.next.2.lexeme = ⟨p + 1, x⟩ ∧ l.next.2.cursor.offset = x + 1 + mark.width ∧
          ((∃ token, l.next.1 = .ok token) ∨ Obstructed c cs)
      | .control b x => l.next.1 = .error (.malformedScalar ⟨p, x + 1⟩ m (.controlByte b))
      | .exhausted =>
        l.next.1 = .error (.malformedScalar ⟨p, c.source.length⟩ m .unterminated) := by
  intro l m running queue hmeets
  have htracked : Tracked c l := tracked_calls c cs
  have hsource : l.cursor.source = c.source := htracked.placed.source
  have hplace : l.nextPlace = c.placeAt p := by
    rw [htracked.nextPlace_eq running, (meets_iff.mp hmeets).1]
  refine ⟨rfl, ?_⟩
  rw [← hsource]
  rcases hwalk : Quoted.walk q .content (p + 1) (l.cursor.source.drop (p + 1)) with x | ⟨b, x⟩ | _
  · obtain ⟨hfound, hlexeme, hoffset⟩ := hmeets.moved_of_closed hwalk
    obtain ⟨hcursor, hspan⟩ := next_moved running queue
    refine ⟨hfound, hspan.trans hlexeme, (congrArg Cursor.offset hcursor).trans hoffset, ?_⟩
    -- A structure that cannot be closed may stop the scan, but the lexer has moved all the same.
    rcases effect_scalar running queue hfound with ⟨kind, m, herror⟩ | ⟨stack, marks, effect⟩
    · exact .inr (obstructed_of_error herror)
    · rw [next_of_scanned running queue hfound effect]
      exact .inl ⟨_, rfl⟩
  · rw [hmeets.next_of_control running queue hwalk, hplace]
  · rw [hmeets.next_of_exhausted running queue hwalk, hplace]

/-- An escaped quote, and the colon of a key behind the closing one. In the other input a line break
is escaped, and no quote closes the scalar: the line break is what is blamed. -/
theorem next_of_quote_escapes :
    let closed := ofBytes [0x22, 0x5C, 0x22, 0x22, 0x3A]
    let broken := ofBytes [0x20, 0x22, 0x61, 0x5C, 0x0A]
    (closed.Meets 0 0x22 ∧ closed.next.2.lexeme = ⟨1, 3⟩ ∧ closed.next.2.cursor.offset = 5) ∧
      broken.Meets 1 0x22 ∧
        broken.next.1 = .error (.malformedScalar ⟨1, 5⟩ ⟨1, 0, 1⟩ (.controlByte 0x0A)) := by
  intro closed broken
  have hclosed : closed.Meets 0 0x22 := meets_iff.mpr (by decide)
  have hbroken : broken.Meets 1 0x22 := meets_iff.mpr (by decide)
  obtain ⟨-, -, hlexeme, hoffset, -⟩ :=
    next_of_quote (Cursor.ofBytes _) [] .double 0 rfl rfl hclosed
  obtain ⟨-, herror⟩ := next_of_quote (Cursor.ofBytes _) [] .double 1 rfl rfl hbroken
  exact ⟨⟨hclosed, hlexeme, hoffset⟩, hbroken, herror⟩

/-!
## Keys

Whether a scalar is a key shows in the tokens, and the position behind it in the state, so both are
said of the same scan: the key's token is delivered right before the scalar's own, and the cursor is
behind the mark, or behind the blanks where there is none.
-/

/-- Any client that meets a plain scalar. The lexeme is what the bytes delimit, by flow rules if a
bracket is open, and it is the lexeme as well when the text is delivered. -/
theorem text_delimited (c : Cursor) (cs : List Call) (p : Nat) (b : Byte) :
    let l := (ofCursor c).calls cs
    l.failure = none → l.pending = [] → l.Meets p b → Plain.Begins (c.source.drop p) →
      (l.inFlow = true ↔ ∃ f ∈ l.stack.frames, f.isFlow = true) ∧
      ∃ close stop, Plain.Delimited l.inFlow c.source p close stop ∧
        l.next.2.lexeme = ⟨p, stop⟩ ∧ Plain.Content l.inFlow c.source p stop ∧
        (Obstructed c cs ∨
          ∃ marks : List Token,
            (l.deliveries (marks.length + 1)).map Delivery.token = marks ++ [.text] ∧
            (l.pulled (marks.length + 1)).lexeme = ⟨p, stop⟩ ∧
            (l.pulled (marks.length + 1)).pending = []) := by
  intro l running queue hmeets hbegins
  have htracked : Tracked c l := tracked_calls c cs
  have hsource : l.cursor.source = c.source := htracked.placed.source
  obtain ⟨hoffset, -⟩ := meets_iff.mp hmeets
  have hreading : l.nextReading = Reading.plain l.inFlow (c.source.drop p) := by
    rw [nextReading, hoffset, hsource, hbegins.of_eq]
  have hdelimited := Plain.delimited_plain l.inFlow c.source p
  have hlexeme : l.moved.lexeme =
      ⟨p, p + (Plain.lexeme l.inFlow (c.source.drop p)).length⟩ := by
    rw [moved, moveOver, hreading, hoffset]
    rfl
  -- It is met behind a gap, so it does not begin with a blank.
  have hcontent := hdelimited.content fun d hd ↦ by
    rw [← hsource, hmeets.byte] at hd
    exact isBlank_of_isGap (Option.some.inj hd ▸ hmeets.gap)
  refine ⟨inFlow_calls_iff c cs, _, _, hdelimited, (next_moved running queue).2.trans hlexeme,
    hcontent, ?_⟩
  have hfound : l.nextReading.found = .ok (.scalar .text _) := congrArg Reading.found hreading
  rcases effect_scalar running queue hfound with ⟨kind, m, herror⟩ | ⟨stack, marks, effect⟩
  · exact .inl (obstructed_of_error herror)
  · right
    have hproper : marks ++ [Token.text] ≠ [] := List.concat_ne_nil _ _
    obtain ⟨hdeliveries, hpulled⟩ := deliveries_scanned running queue hfound effect hproper
    rw [List.length_append, List.length_singleton] at hdeliveries hpulled
    refine ⟨marks, hdeliveries, ?_, ?_⟩
    · rw [hpulled, ← hlexeme]
    · rw [hpulled]

/-- In a flow sequence whose kind has been overridden: a dash that begins a text, which the comma
ends. -/
theorem text_delimited_dash :
    let c := Cursor.ofBytes [0x5B, 0x2D, 0x61, 0x20, 0x62, 0x20, 0x2C]
    let cs : List Call := [.next, .next, .setContext .mappingStart]
    let l := (ofCursor c).calls cs
    (l.Meets 1 0x2D ∧ Plain.Begins (c.source.drop 1)) ∧ ∃ close,
      Plain.Delimited true c.source 1 close 5 ∧ Plain.Content true c.source 1 5 ∧
        ∃ marks : List Token,
          (l.deliveries (marks.length + 1)).map Delivery.token = marks ++ [.text] ∧
            (l.pulled (marks.length + 1)).lexeme = ⟨1, 5⟩ := by
  intro c cs l
  have hmeets : l.Meets 1 0x2D := meets_iff.mpr (by decide)
  have hbegins : Plain.Begins (c.source.drop 1) :=
    .dash [0x61, 0x20, 0x62, 0x20, 0x2C] rfl rfl rfl
  obtain ⟨-, close, stop, hdelimited, hlexeme, hcontent, hdeliveries⟩ :=
    text_delimited c cs 1 0x2D rfl rfl hmeets hbegins
  have hspan : l.next.2.lexeme = ⟨1, 5⟩ := by decide
  obtain rfl : stop = 5 := congrArg Span.stop (hlexeme.symm.trans hspan)
  obtain ⟨-, kind, hkind, hmem⟩ | ⟨marks, htokens, hstop, -⟩ := hdeliveries
  · obtain rfl : kind = .mappingStart := by simpa [cs] using hmem
    exact absurd (by decide) hkind
  · exact ⟨⟨hmeets, hbegins⟩, close, hdelimited, hcontent, marks, htokens, hstop⟩

end Lexer

end YamlLexer
