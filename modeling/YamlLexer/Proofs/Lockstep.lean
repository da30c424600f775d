import YamlLexer.Proofs.Nesting.Shift
import YamlLexer.Proofs.Reading.Line
import YamlLexer.Proofs.Transcript

/-!
# Two lexers in lockstep

To compare runs over two inputs, put the lexers side by side. They are `Aligned` if they have the
same tokens in line, hold lexemes of the same bytes, and have the same stack but for a shift of all
columns by `k`, by which the next constructs are apart too. How the inputs that lie ahead are
related is left open: that is a parameter, `Ahead`.

An aligned pair makes the same pull (`Aligned.next`), if its scan gets to see the same. All that has
to be known about the inputs for this is in `Agrees`: they agree up to the next line break, and
remain related behind the gap that follows the construct, wherever on the line it ends. Columns may
come to differ where nothing is ahead any more, as the end of the input has no use for its column.
-/

namespace YamlLexer

/-- A relation between the bytes ahead of one lexer and those ahead of another. -/
abbrev Ahead := List Byte → List Byte → Prop

/-- Bytes ahead that look alike to a scan, and remain related behind what it reads. -/
structure Agrees (k : Nat) (R : Ahead) (s s' : List Byte) : Prop where
  line : firstLine s = firstLine s'
  ahead : ∀ n ≤ (firstLine s).length,
    R ((s.drop n).dropWhile Byte.isGap) ((s'.drop n).dropWhile Byte.isGap)
  column : ∀ n ≤ (firstLine s).length, (s.drop n).dropWhile Byte.isGap ≠ [] → ∀ column,
    columnBehind (column + k) (s'.drop n) = columnBehind column (s.drop n) + k

namespace Lexer

/-- Lexers of which the second is to do what the first does, `k` columns further to the right. -/
structure Aligned (k : Nat) (R : Ahead) (l l' : Lexer) : Prop where
  regular : l.Regular
  regular' : l'.Regular
  running : l.failure = none
  running' : l'.failure = none
  pending : l'.pending = l.pending
  stack : l'.stack = l.stack.shift k
  lexeme : l'.cursor.slice l'.lexeme = l.cursor.slice l.lexeme
  column : l.upcoming ≠ [] → l'.nextPlace.column = l.nextPlace.column + k
  ahead : R l.upcoming l'.upcoming

variable {k : Nat} {R : Ahead} {l l' : Lexer}

/-! ## Texts -/

theorem slice_eq_nil (h : l.lexeme.isEmpty = true) : l.cursor.slice l.lexeme = [] := by
  have hle : l.lexeme.stop ≤ l.lexeme.start := by simpa [Span.isEmpty] using h
  rw [Cursor.slice, List.drop_eq_nil_iff, List.length_take]
  omega

theorem text_eq (l : Lexer) : l.text.toOption =
    if l.last.hasLexeme = true then
      String.fromUTF8? ⟨(l.cursor.slice l.lexeme).toArray⟩
    else some "" := by
  rw [text]
  by_cases hlast : l.last.hasLexeme = true
  · by_cases hempty : l.lexeme.isEmpty = true
    · -- An empty lexeme is not decoded, but would be decoded to the same.
      rw [hlast, hempty, slice_eq_nil hempty]
      rfl
    · rw [Bool.not_eq_true] at hempty
      rw [hlast, hempty]
      simp only [Bool.not_false, Bool.and_self, if_true, Cursor.sliceText]
      split
      · rename_i htext
        rw [htext]
        rfl
      · rename_i htext
        rw [htext]
        rfl
  · rw [Bool.not_eq_true] at hlast
    rw [hlast]
    rfl

/-!
## Pulls

A pull that takes a token from those in line does the same to both lexers at once. A scan reads the
same construct from both, at columns that are `k` apart, and `Stack.Sound.apply_shift` says what
comes of that. Errors agree in that both fail; what they say is not compared.
-/

/-- What two pulls have in common: both fail, or they deliver the same token, with the same text if
it can be decoded, and leave aligned lexers. -/
inductive SamePull (k : Nat) (R : Ahead) :
    Except LexError Token × Lexer → Except LexError Token × Lexer → Prop
  | failed {e e' : LexError} {l l' : Lexer} : SamePull k R (.error e, l) (.error e', l')
  | delivered {token : Token} {l l' : Lexer} (text : l'.text.toOption = l.text.toOption)
      (aligned : Aligned k R l l') : SamePull k R (.ok token, l) (.ok token, l')

theorem Aligned.inFlow (h : Aligned k R l l') : l'.inFlow = l.inFlow := by
  rw [Lexer.inFlow, Lexer.inFlow, h.stack, Stack.inFlow_shift]

theorem Aligned.apply (h : Aligned k R l l') {c : Construct}
    (hfound : l.nextReading.found = .ok c) :
    l'.stack.apply l'.nextPlace.column c =
      ⟨(l.stack.apply l.nextPlace.column c).stack.shift k,
        (l.stack.apply l.nextPlace.column c).tokens⟩ := by
  by_cases hend : l.upcoming = []
  · -- The end of the input takes effect at any column.
    rw [nextReading_eq, hend] at hfound
    cases hfound
    rw [h.stack]
    exact h.regular.sound.apply_shift k l.nextPlace.column .streamEnd
  · rw [h.stack, h.column hend, h.regular.sound.apply_shift]

section

variable {c : Construct}

theorem Aligned.lexeme_moved (hagrees : Agrees k R l.upcoming l'.upcoming)
    (hfound : l.nextReading.found = .ok c) (hreading : l'.nextReading = l.nextReading) :
    l'.moved.cursor.slice l'.moved.lexeme = l.moved.cursor.slice l.moved.lexeme := by
  rw [slice_moved, slice_moved, hreading]
  rw [nextReading_eq] at hfound ⊢
  exact (Reading.lexemeIn_congr l.starts_upcoming hfound hagrees.line).symm

theorem Aligned.column_moved (h : Aligned k R l l') (hagrees : Agrees k R l.upcoming l'.upcoming)
    (hfound : l.nextReading.found = .ok c) (hreading : l'.nextReading = l.nextReading)
    (hmore : l.moved.upcoming ≠ []) :
    l'.moved.nextPlace.column = l.moved.nextPlace.column + k := by
  have hwidth := (width_le_upcoming hfound).2
  have hwidth' : l'.nextReading.width ≤ l'.upcoming.length := by
    rw [hreading]
    rw [hagrees.line] at hwidth
    exact hwidth.trans (length_firstLine_le _)
  rw [upcoming_moved] at hmore
  -- More is ahead behind the construct, so more was ahead in front of it.
  have hnow : l.upcoming ≠ [] := by
    intro hnil
    rw [hnil, List.drop_nil] at hmore
    exact hmore rfl
  rw [Lexer.column_moved h.regular.line (hwidth.trans (length_firstLine_le _)),
    Lexer.column_moved h.regular'.line hwidth', hreading, h.column hnow, Nat.add_right_comm,
    hagrees.column _ hwidth hmore]

theorem Aligned.ahead_moved (hagrees : Agrees k R l.upcoming l'.upcoming)
    (hfound : l.nextReading.found = .ok c) (hreading : l'.nextReading = l.nextReading) :
    R l.moved.upcoming l'.moved.upcoming := by
  rw [upcoming_moved, upcoming_moved, hreading]
  exact hagrees.ahead _ (width_le_upcoming hfound).2

/-- A construct that the open structures allow is read alike, and the lexers stay aligned. -/
theorem Aligned.scan (h : Aligned k R l l') (hagrees : Agrees k R l.upcoming l'.upcoming)
    (hqueue : l.pending = []) (hfound : l.nextReading.found = .ok c)
    (hreading : l'.nextReading = l.nextReading) {stack : Stack} {tokens : List Token}
    (heffect : l.stack.apply l.nextPlace.column c = ⟨stack, .ok tokens⟩) :
    SamePull k R l.next l'.next := by
  have hqueue' : l'.pending = [] := h.pending.trans hqueue
  have hfound' : l'.nextReading.found = .ok c := by rw [hreading, hfound]
  have heffect' : l'.stack.apply l'.nextPlace.column c = ⟨stack.shift k, .ok tokens⟩ := by
    rw [h.apply hfound, heffect]
  have hregular : l.next.2.Regular := h.regular.next
  have hregular' : l'.next.2.Regular := h.regular'.next
  rw [next_of_scanned h.running hqueue hfound heffect] at hregular ⊢
  rw [next_of_scanned h.running' hqueue' hfound' heffect'] at hregular' ⊢
  have hlexeme := lexeme_moved hagrees hfound hreading
  refine .delivered ?_ ⟨hregular, hregular', h.running, h.running', rfl, rfl, hlexeme,
    h.column_moved hagrees hfound hreading, ahead_moved hagrees hfound hreading⟩
  rw [text_eq, text_eq, hlexeme]

end

theorem Aligned.next (h : Aligned k R l l')
    (hscan : l.pending = [] → Agrees k R l.upcoming l'.upcoming) :
    SamePull k R l.next l'.next := by
  rcases hqueue : l.pending with _ | ⟨token, pending⟩
  · have hagrees := hscan hqueue
    have hqueue' : l'.pending = [] := h.pending.trans hqueue
    have hline := hagrees.line
    rcases Reading.of_congr_firstLine l.inFlow l.starts_upcoming l'.starts_upcoming hline with
      hreading | ⟨hrefused, hrefused'⟩
    · rw [← nextReading_eq, ← h.inFlow, ← nextReading_eq] at hreading
      rcases hfound : l.nextReading.found with refusal | c
      · rw [next_of_refused h.running hqueue hfound,
          next_of_refused h.running' hqueue' (hreading ▸ hfound)]
        exact .failed
      · rcases heffect : l.stack.apply l.nextPlace.column c with ⟨stack, fault | tokens⟩
        · have heffect' :
              l'.stack.apply l'.nextPlace.column c = ⟨stack.shift k, .error fault⟩ := by
            rw [h.apply hfound, heffect]
          rw [next_of_faulted h.running hqueue hfound heffect,
            next_of_faulted h.running' hqueue' (hreading ▸ hfound) heffect']
          exact .failed
        · exact h.scan hagrees hqueue hfound hreading.symm heffect
    · -- An unclosed quote may be refused for different reasons, but is refused in both.
      rw [← nextReading_eq] at hrefused
      rw [← h.inFlow, ← nextReading_eq] at hrefused'
      obtain ⟨refusal, hfound⟩ := Reading.isRefused_iff.mp hrefused
      obtain ⟨refusal', hfound'⟩ := Reading.isRefused_iff.mp hrefused'
      rw [next_of_refused h.running hqueue hfound, next_of_refused h.running' hqueue' hfound']
      exact .failed
  · have hqueue' : l'.pending = token :: pending := h.pending.trans hqueue
    have hregular : l.next.2.Regular := h.regular.next
    have hregular' : l'.next.2.Regular := h.regular'.next
    rw [next_of_pending h.running hqueue] at hregular ⊢
    rw [next_of_pending h.running' hqueue'] at hregular' ⊢
    refine .delivered ?_ ⟨hregular, hregular', h.running, h.running', rfl, h.stack, h.lexeme,
      h.column, h.ahead⟩
    rw [text_eq, text_eq]
    -- What is delivered is new, but the lexeme is still that of the last scan.
    exact congrArg (fun bytes : List Byte ↦
      if token.hasLexeme = true then String.fromUTF8? ⟨bytes.toArray⟩ else some "") h.lexeme

theorem Aligned.next_error {e : LexError} {m : Lexer} (h : Aligned k R l l')
    (hscan : l.pending = [] → Agrees k R l.upcoming l'.upcoming) (hnext : l.next = (.error e, m)) :
    ∃ e' m', l'.next = (.error e', m') := by
  have hsame := h.next hscan
  rw [hnext] at hsame
  generalize hnext' : l'.next = p at hsame
  cases hsame
  exact ⟨_, _, rfl⟩

theorem Aligned.next_ok {token : Token} {m : Lexer} (h : Aligned k R l l')
    (hscan : l.pending = [] → Agrees k R l.upcoming l'.upcoming) (hnext : l.next = (.ok token, m)) :
    ∃ m', l'.next = (.ok token, m') ∧ m'.text.toOption = m.text.toOption ∧ Aligned k R m m' := by
  have hsame := h.next hscan
  rw [hnext] at hsame
  generalize hnext' : l'.next = p at hsame
  cases hsame with
  | delivered text aligned => exact ⟨_, rfl, text, aligned⟩

/-!
## Runs

Event text shows tokens with their texts, and that there was an error. So aligned lexers have the
same, if every scan gets to see the same, by induction on the derivation of the first transcript.
-/

theorem text_eq_ok {text : String} {m m' : Lexer} (h : m'.text.toOption = m.text.toOption)
    (decoded : m.text = .ok text) : m'.text = .ok text := by
  rw [decoded] at h
  rcases htext : m'.text with e | text'
  · rw [htext] at h
    cases h
  · rw [htext] at h
    cases h
    rfl

theorem text_eq_error {e : LexError} {m m' : Lexer} (h : m'.text.toOption = m.text.toOption)
    (decoded : m.text = .error e) : ∃ e', m'.text = .error e' := by
  rw [decoded] at h
  rcases htext : m'.text with e' | text'
  · exact ⟨e', rfl⟩
  · rw [htext] at h
    cases h

theorem Aligned.drains (h : Aligned k R l l') (hR : ∀ {s s'}, R s s' → Agrees k R s s')
    {t : Transcript} (hdrains : l.Drains t) :
    ∃ failure, l'.Drains ⟨t.items, failure⟩ ∧ failure.isSome = t.failure.isSome := by
  induction hdrains generalizing l' with
  | ended next =>
    obtain ⟨m', hnext, -, -⟩ := h.next_ok (fun _ ↦ hR h.ahead) next
    exact ⟨none, .ended hnext, rfl⟩
  | failed next =>
    obtain ⟨e', m', hnext⟩ := h.next_error (fun _ ↦ hR h.ahead) next
    exact ⟨some e', .failed hnext, rfl⟩
  | undecodable next proper decoded =>
    obtain ⟨m', hnext, htext, -⟩ := h.next_ok (fun _ ↦ hR h.ahead) next
    obtain ⟨e', htext'⟩ := text_eq_error htext decoded
    exact ⟨some e', .undecodable hnext proper htext', rfl⟩
  | item next proper decoded _ ih =>
    obtain ⟨m', hnext, htext, haligned⟩ := h.next_ok (fun _ ↦ hR h.ahead) next
    obtain ⟨failure, hdrains, hfailure⟩ := ih haligned
    exact ⟨failure, .item hnext proper (text_eq_ok htext decoded) hdrains, hfailure⟩

/-- The transcripts of aligned lexers differ in nothing but the places of errors. -/
theorem Aligned.transcript (h : Aligned k R l l') (hR : ∀ {s s'}, R s s' → Agrees k R s s') :
    l'.transcript.1.items = l.transcript.1.items ∧
      l'.transcript.1.failure.isSome = l.transcript.1.failure.isSome := by
  obtain ⟨failure, hdrains, hfailure⟩ := h.drains hR l.drains_transcript
  rw [hdrains.transcript_eq]
  exact ⟨rfl, hfailure⟩

end Lexer

end YamlLexer
