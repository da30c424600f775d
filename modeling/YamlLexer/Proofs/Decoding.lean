import YamlLexer.Proofs.Position
import YamlLexer.Proofs.Reading.Encoding
import YamlLexer.Proofs.Session

/-!
# Texts can be decoded

The text of a token is decoded when it is asked for, and bytes that are no text are answered with an
error. A client whose input is UTF-8 never gets that answer (`decoded_session`): the lexeme is cut
out between two characters, whatever has been requested and in whatever state the lexer is.

The invariant is `Legible`. That the lexer itself stands between two characters is part of it only
as long as there is no error. A quoted scalar that is refused leaves the lexer at the start of the
last stretch, and that is inside a character if the first byte of one was escaped in front of it.
But nothing is read from there, and the lexeme is empty then, in front of the quote.
-/

namespace YamlLexer

/-- The errors in an answer. -/
def Answer.errors : Answer → List LexError
  | .token (.error e) | .item (some (.error e)) => [e]
  | .drawn answers => answers.filterMap fun
    | some (.error e) => some e
    | _ => none
  | .silence | .token (.ok _) | .item (some (.ok _)) | .item none => []

theorem Answer.mem_errors_token {answer : Except LexError Token} {e : LexError} :
    e ∈ (Answer.token answer).errors ↔ answer = .error e := by
  rcases answer with d | token
  · simp [errors, eq_comm]
  · simp [errors]

theorem Answer.mem_errors_item {answer : Option (Except LexError Token)} {e : LexError} :
    e ∈ (Answer.item answer).errors ↔ answer = some (.error e) := by
  rcases answer with _ | d | token
  · simp [errors]
  · simp [errors, eq_comm]
  · simp [errors]

/-- Whether an error is about bytes that are no text. -/
def LexError.IsDecoding (e : LexError) : Prop := ∃ span, e = .undecodable span

namespace Lexer

/-- A lexer of a text, all lexemes of which are texts too. -/
structure Legible (s : List Byte) (l : Lexer) : Prop where
  source : l.cursor.source = s
  start : IsBoundary s l.lexeme.start
  stop : IsBoundary s l.lexeme.stop
  ahead : l.failure = none → IsBoundary s l.cursor.offset
  failure : ∀ e, l.failure = some e → ¬e.IsDecoding

theorem legible_ofCursor {c : Cursor} (h : IsBoundary c.source c.offset) :
    Legible c.source (ofCursor c) := by
  refine ⟨rfl, h, h, fun _ ↦ h, ?_⟩
  intro e hfailure
  cases hfailure

variable {s : List Byte} {l l' : Lexer}

theorem Legible.congr (h : Legible s l) (cursor : l'.cursor = l.cursor)
    (lexeme : l'.lexeme = l.lexeme) (failure : l'.failure = l.failure) : Legible s l' := by
  refine ⟨?_, ?_, ?_, ?_, ?_⟩
  · rw [cursor]
    exact h.source
  · rw [lexeme]
    exact h.start
  · rw [lexeme]
    exact h.stop
  · rw [failure, cursor]
    exact h.ahead
  · rw [failure]
    exact h.failure

theorem text_of_slice (cs : List Char) (found : (l.last.hasLexeme && !l.lexeme.isEmpty) = true)
    (slice : l.cursor.slice l.lexeme = encode cs) : l.text = .ok (String.ofList cs) := by
  rw [text, if_pos found, Cursor.sliceText, slice, fromUTF8?_encode]

theorem Legible.exists_text (h : Legible s l) : ∃ text, l.text = .ok text := by
  by_cases found : (l.last.hasLexeme && !l.lexeme.isEmpty) = true
  · obtain ⟨cs, hcs⟩ := h.start.slice h.stop
    rw [← h.source] at hcs
    exact ⟨_, text_of_slice cs found hcs⟩
  · exact ⟨"", by rw [text, if_neg found]⟩

/-!
## Scans

A boundary of what is ahead is one of the whole input (`Legible.add`). A gap is ASCII, so the lexer
is still between two characters behind it; and what is taken from there is cut where readings cut
(`Reading.Reads.isBoundary`). Of a construct that is refused, nothing is cut out at all.
-/

section

variable (h : Legible s l) (failure : l.failure = none)

include h failure

theorem Legible.nextPlace : IsBoundary s l.nextPlace.offset := by
  have hgap : IsText (l.cursor.rest.takeWhile Byte.isGap) := isText_of_isAscii fun b hb ↦
    Byte.isAscii_of_isMarkup (Byte.isMarkup_of_isGap (List.mem_takeWhile_imp hb))
  have hrest : IsText l.cursor.rest := by
    rw [Cursor.rest, h.source]
    exact (h.ahead failure).behind
  have happend := List.takeWhile_append_dropWhile (p := Byte.isGap) (l := l.cursor.rest)
  have hboundary : IsBoundary l.cursor.rest (l.cursor.rest.takeWhile Byte.isGap).length := by
    have hbehind := hgap.of_append (happend ▸ hrest)
    have hcut := IsBoundary.of_append hgap hbehind
    rwa [happend] at hcut
  rw [offset_nextPlace]
  refine (h.ahead failure).add ?_
  rwa [← h.source]

/-- A boundary of what is upcoming is one of the source. -/
theorem Legible.add {n : Nat} (hn : IsBoundary l.upcoming n) :
    IsBoundary s (l.nextPlace.offset + n) := by
  refine (h.nextPlace failure).add ?_
  rwa [← h.source, drop_nextPlace]

theorem Legible.isText_upcoming : IsText l.upcoming := by
  rw [upcoming, ← drop_nextPlace, h.source]
  exact (h.nextPlace failure).behind

/-- A construct is cut out between characters. -/
theorem Legible.moved {c : Construct} (found : l.nextReading.found = .ok c) :
    IsBoundary s l.moved.lexeme.start ∧ IsBoundary s l.moved.lexeme.stop ∧
      IsBoundary s l.moved.cursor.offset := by
  obtain ⟨hbefore, hsize, hwidth⟩ :=
    l.reads_upcoming.isBoundary found (h.isText_upcoming failure)
  refine ⟨h.add failure hbefore, ?_, ?_⟩
  · change IsBoundary s (l.nextPlace.offset + l.nextReading.before + l.nextReading.size)
    rw [Nat.add_assoc]
    exact h.add failure hsize
  · rw [offset_moved]
    exact h.add failure hwidth

/-- Of what is refused, nothing is cut out. -/
theorem Legible.refused {refusal : Refusal} (found : l.nextReading.found = .error refusal) :
    IsBoundary s l.moved.lexeme.start ∧ IsBoundary s l.moved.lexeme.stop := by
  have hplace := h.nextPlace failure
  have hbefore := (l.reads_upcoming.of_refused found).1
  have hsize := l.reads_upcoming.size_of_refused found
  refine ⟨?_, ?_⟩
  · change IsBoundary s (l.nextPlace.offset + l.nextReading.before)
    rwa [hbefore]
  · change IsBoundary s (l.nextPlace.offset + l.nextReading.before + l.nextReading.size)
    rwa [hbefore, hsize]

end

/-!
## Clients

No error of the lexer is about decoding, and a token stream adds one only if the text is not there.
Injections and overrides have nothing to do with any of this, and are harmless also after an error.
-/

theorem not_isDecoding_refusal (refusal : Refusal) (p : Place) : ¬(refusal.error p).IsDecoding := by
  rintro ⟨span, h⟩
  cases refusal <;> cases h

theorem not_isDecoding_fault (fault : NestingFault) (m : Mark) : ¬(fault.error m).IsDecoding := by
  rintro ⟨span, h⟩
  cases fault <;> cases h

theorem Legible.pull {answer : Except LexError Token} (h : Legible s l) (hpull : l.Pull answer l') :
    Legible s l' := by
  cases hpull with
  | repeated => exact h
  | queued => exact h.congr rfl rfl rfl
  | refused failure _ found =>
    obtain ⟨hstart, hstop⟩ := h.refused failure found
    refine ⟨h.source, hstart, hstop, ?_, ?_⟩
    · intro hnone
      cases hnone
    · rintro e ⟨rfl⟩
      exact not_isDecoding_refusal _ _
  | faulted failure _ found =>
    obtain ⟨hstart, hstop, -⟩ := h.moved failure found
    refine ⟨h.source, hstart, hstop, ?_, ?_⟩
    · intro hnone
      cases hnone
    · rintro e ⟨rfl⟩
      exact not_isDecoding_fault _ _
  | scanned failure _ found =>
    obtain ⟨hstart, hstop, hahead⟩ := h.moved failure found
    exact ⟨h.source, hstart, hstop, fun _ ↦ hahead, h.failure⟩

theorem Legible.call (h : Legible s l) (c : Call) : Legible s (l.call c) :=
  calls_induction Legible.pull (fun _ h ↦ h.congr rfl rfl rfl) (fun _ h ↦ h.congr rfl rfl rfl) h [c]

theorem Legible.not_isDecoding {e : LexError} (h : Legible s l)
    (he : l.next.1 = .error e ∨ l.next?.1 = some (.error e) ∨ l.current.1 = .error e) :
    ¬e.IsDecoding := by
  have hpull := l.pull_next
  refine (h.pull hpull).failure e ?_
  rw [fst_next_of_error he] at hpull
  exact hpull.failure_eq

theorem Legible.draws {t : TokenStream} (h : Legible s t.lexer) (n : Nat) :
    (∀ e ∈ (Answer.drawn (t.draws n).1).errors, ¬e.IsDecoding) ∧
      Legible s (t.draws n).2.lexer := by
  induction n generalizing t with
  | zero => exact ⟨fun e he ↦ absurd he List.not_mem_nil, h⟩
  | succ n ih =>
    rw [TokenStream.draws]
    have hdraw := t.draw_next?
    generalize t.next?.1 = answer at hdraw
    generalize t.next?.2 = t' at hdraw
    cases hdraw with
    | idle => exact ih h
    | ended _ next => exact ih (h.pull (pull_of_next next))
    | item _ next => exact ih (h.pull (pull_of_next next))
    | @failed e l _ next =>
      obtain ⟨herrors, hlegible⟩ := ih (t := ⟨l, true⟩) (h.pull (pull_of_next next))
      refine ⟨?_, hlegible⟩
      refine List.forall_mem_cons.mpr ⟨h.not_isDecoding (.inl ?_), herrors⟩
      rw [next]
    | undecodable _ next _ decoded =>
      obtain ⟨text, htext⟩ := (h.pull (pull_of_next next)).exists_text
      rw [htext] at decoded
      cases decoded

theorem Legible.ask (h : Legible s l) (r : Request) :
    (∀ e ∈ (l.ask r).1.errors, ¬e.IsDecoding) ∧ Legible s (l.ask r).2 := by
  rcases r with (_ | _ | _ | token | kind) | n
  · exact ⟨fun e he ↦ h.not_isDecoding (.inl (Answer.mem_errors_token.mp he)), h.call .next⟩
  · refine ⟨fun e he ↦ h.not_isDecoding (.inr (.inl ?_)), h.call .next?⟩
    exact Answer.mem_errors_item.mp he
  · refine ⟨fun e he ↦ h.not_isDecoding (.inr (.inr ?_)), h.call .current⟩
    exact Answer.mem_errors_token.mp he
  · exact ⟨fun e he ↦ absurd he List.not_mem_nil, h.call (.push token)⟩
  · exact ⟨fun e he ↦ absurd he List.not_mem_nil, h.call (.setContext kind)⟩
  · exact h.draws (t := ⟨l, false⟩) n

theorem Legible.session (h : Legible s l) (rs : List Request) :
    (∀ a ∈ (l.session rs).1, ∀ e ∈ a.errors, ¬e.IsDecoding) ∧ Legible s (l.session rs).2 := by
  induction rs generalizing l with
  | nil => exact ⟨fun a ha ↦ absurd ha List.not_mem_nil, h⟩
  | cons r rs ih =>
    obtain ⟨herrors, hlegible⟩ := h.ask r
    obtain ⟨hsession, hfinal⟩ := ih hlegible
    exact ⟨List.forall_mem_cons.mpr ⟨herrors, hsession⟩, hfinal⟩

/-- A lexer that starts between two characters of a text, and any requests of a client: the lexeme
is cut out between two characters, its text is there, and no answer is an error about bytes that are
no text. -/
theorem decoded_session {c : Cursor} (h : IsBoundary c.source c.offset) (rs : List Request) :
    let l := ((ofCursor c).session rs).2
    IsBoundary c.source l.lexeme.start ∧ IsBoundary c.source l.lexeme.stop ∧
      (∃ text, l.text = .ok text) ∧
      ∀ a ∈ ((ofCursor c).session rs).1, ∀ e ∈ a.errors, ¬e.IsDecoding := by
  intro l
  obtain ⟨herrors, hlegible⟩ := (legible_ofCursor h).session rs
  exact ⟨hlegible.start, hlegible.stop, hlegible.exists_text, herrors⟩

/-- An escape of a character of two bytes, of which the quoted scalar holds both. The lexer starts
behind another such character. -/
theorem decoded_session_escape :
    let c : Cursor := ⟨[0xC3, 0xA9, 0x22, 0x5C, 0xC3, 0xA9, 0x22], 2, by decide⟩
    let l := ((ofCursor c).session [.draw 1]).2
    IsBoundary c.source c.offset ∧ l.lexeme = ⟨3, 6⟩ ∧ l.text = .ok "\\é" ∧
      IsBoundary c.source l.lexeme.start ∧ IsBoundary c.source l.lexeme.stop ∧
      ∀ a ∈ ((ofCursor c).session [.draw 1]).1, ∀ e ∈ a.errors, ¬e.IsDecoding := by
  intro c l
  have hboundary : IsBoundary c.source c.offset :=
    ⟨by decide, ⟨['é'], by decide⟩, ⟨['\x22', '\\', 'é', '\x22'], by decide⟩⟩
  obtain ⟨hstart, hstop, -, herrors⟩ := decoded_session hboundary [.draw 1]
  have hnext : (ofCursor c).next = (.ok .text, (ofCursor c).next.2) :=
    Prod.ext (by decide +kernel) rfl
  have htext : (ofCursor c).next.2.text = .ok "\\é" :=
    text_of_slice ['\\', 'é'] (by decide +kernel) (by decide +kernel)
  -- The draw pulls once, and goes on, as there is a text.
  have hdraw : l = (ofCursor c).next.2 := by
    change (TokenStream.mk (ofCursor c) false).next?.2.lexer = _
    rw [TokenStream.next?_of_token hnext (by decide), htext]
  refine ⟨hboundary, ?_, ?_, hstart, hstop, herrors⟩
  · rw [hdraw]
    decide +kernel
  · rw [hdraw, htext]

end Lexer

end YamlLexer
