import YamlLexer.EventText
import YamlLexer.Proofs.Session

/-!
# Transcripts, item by item

A transcript is computed by recursion on the potential of the lexer. `Lexer.Drains` is the same
written as a derivation with one step for each item. A lexer drains to its transcript
(`drains_transcript`) and to nothing else (`Drains.transcript_eq`). Two lexers are compared by
induction on the derivation of the one: the other has to match a step at a time, and no measure is
involved any more.

`Lexer.Delivers` is the first part of a derivation, up to some lexer from which the rest is drained.

A lexer that can be drained in part has no answer yet to what comes then. So parts are put together
one behind the other (`Delivers.trans`), and the transcript of the whole is the items of the parts,
followed by what the last of them leaves (`Delivers.transcript_eq`).
-/

namespace YamlLexer

theorem EventText.ofTranscript_congr {t t' : Transcript} (hitems : t.items = t'.items)
    (hfailure : t.failure.isSome = t'.failure.isSome) : ofTranscript t = ofTranscript t' := by
  rw [ofTranscript, ofTranscript, lastLine, lastLine, hitems, hfailure]

theorem EventText.ofTranscript_append (items : List (Token × String)) (t : Transcript) :
    ofTranscript ⟨items ++ t.items, t.failure⟩ =
      String.join (items.map line) ++ ofTranscript t := by
  rw [ofTranscript, ofTranscript, List.map_append, String.join_append, String.append_assoc]
  rfl

/-! ## One item of a stream -/

namespace TokenStream

variable {s s' : TokenStream}

theorem drain_of_none (h : s.next? = (none, s')) : s.drain.1 = ⟨[], none⟩ := by
  rw [drain]
  split
  · rfl
  · simp_all
  · simp_all

theorem drain_of_error {e : LexError} (h : s.next? = (some (.error e), s')) :
    s.drain.1 = ⟨[], some e⟩ := by
  rw [drain]
  split
  · simp_all
  · simp_all
  · simp_all

theorem drain_of_item {item : Token × String} (h : s.next? = (some (.ok item), s')) :
    s.drain.1 = ⟨item :: s'.drain.1.items, s'.drain.1.failure⟩ := by
  rw [drain]
  split
  · simp_all
  · simp_all
  · simp_all

end TokenStream

namespace Lexer

variable {l l' : Lexer} {token : Token} {text : String} {e : LexError}

theorem transcript_of_nothing (h : l.next = (.ok .nothing, l')) : l.transcript.1 = ⟨[], none⟩ :=
  TokenStream.drain_of_none (TokenStream.next?_of_nothing h)

theorem transcript_of_error (h : l.next = (.error e, l')) : l.transcript.1 = ⟨[], some e⟩ :=
  TokenStream.drain_of_error (TokenStream.next?_of_error h)

theorem transcript_of_undecodable (h : l.next = (.ok token, l')) (proper : token ≠ .nothing)
    (decoded : l'.text = .error e) : l.transcript.1 = ⟨[], some e⟩ := by
  have hnext : (TokenStream.mk l false).next? = (some (.error e), ⟨l', true⟩) := by
    rw [TokenStream.next?_of_token h proper, decoded]
  exact TokenStream.drain_of_error hnext

theorem transcript_of_item (h : l.next = (.ok token, l')) (proper : token ≠ .nothing)
    (decoded : l'.text = .ok text) :
    l.transcript.1 = ⟨(token, text) :: l'.transcript.1.items, l'.transcript.1.failure⟩ := by
  have hnext : (TokenStream.mk l false).next? = (some (.ok (token, text)), ⟨l', false⟩) := by
    rw [TokenStream.next?_of_token h proper, decoded]
  exact TokenStream.drain_of_item hnext

/-! ## Derivations -/

/-- What a lexer answers until its stream ends. -/
inductive Drains : Lexer → Transcript → Prop
  | ended {l l' : Lexer} (next : l.next = (.ok .nothing, l')) : Drains l ⟨[], none⟩
  | failed {l l' : Lexer} {e : LexError} (next : l.next = (.error e, l')) : Drains l ⟨[], some e⟩
  | undecodable {l l' : Lexer} {token : Token} {e : LexError} (next : l.next = (.ok token, l'))
      (proper : token ≠ .nothing) (decoded : l'.text = .error e) : Drains l ⟨[], some e⟩
  | item {l l' : Lexer} {token : Token} {text : String} {t : Transcript}
      (next : l.next = (.ok token, l')) (proper : token ≠ .nothing) (decoded : l'.text = .ok text)
      (rest : Drains l' t) : Drains l ⟨(token, text) :: t.items, t.failure⟩

theorem drains_transcript (l : Lexer) : l.Drains l.transcript.1 := by
  rcases hnext : l.next with ⟨e | token, l'⟩
  · rw [transcript_of_error hnext]
    exact .failed hnext
  · by_cases htoken : token = .nothing
    · subst htoken
      rw [transcript_of_nothing hnext]
      exact .ended hnext
    · rcases htext : l'.text with e | text
      · rw [transcript_of_undecodable hnext htoken htext]
        exact .undecodable hnext htoken htext
      · have hlt : l'.potential < l.potential := potential_lt_of_next hnext htoken
        rw [transcript_of_item hnext htoken htext]
        exact .item hnext htoken htext (drains_transcript l')
termination_by l.potential

theorem Drains.transcript_eq {t : Transcript} (h : l.Drains t) : l.transcript.1 = t := by
  induction h with
  | ended next => exact transcript_of_nothing next
  | failed next => exact transcript_of_error next
  | undecodable next proper decoded => exact transcript_of_undecodable next proper decoded
  | item next proper decoded _ ih => rw [transcript_of_item next proper decoded, ih]

/-!
## Parts of a derivation

What a construct becomes is one part: its tokens are delivered, and the lexer is behind it.
-/

/-- The first items that a lexer answers, and the lexer behind them. -/
inductive Delivers : Lexer → List (Token × String) → Lexer → Prop
  | refl (l : Lexer) : Delivers l [] l
  | item {l l' m : Lexer} {token : Token} {text : String} {items : List (Token × String)}
      (next : l.next = (.ok token, l')) (proper : token ≠ .nothing) (decoded : l'.text = .ok text)
      (rest : Delivers l' items m) : Delivers l ((token, text) :: items) m

variable {m : Lexer} {items : List (Token × String)}

theorem Delivers.trans {n : Lexer} {more : List (Token × String)} (h : l.Delivers items m)
    (hmore : m.Delivers more n) : l.Delivers (items ++ more) n := by
  induction h with
  | refl => exact hmore
  | item next proper decoded _ ih => exact .item next proper decoded (ih hmore)

theorem Delivers.regular (h : l.Delivers items m) (hl : l.Regular) : m.Regular := by
  induction h with
  | refl => exact hl
  | @item l l' _ _ _ _ next _ _ _ ih =>
    have hregular := hl.next
    rw [next] at hregular
    exact ih hregular

/-- A transcript starts with the items delivered first, and goes on with those that follow. -/
theorem Delivers.transcript_eq (h : l.Delivers items m) :
    l.transcript.1 = ⟨items ++ m.transcript.1.items, m.transcript.1.failure⟩ := by
  induction h with
  | refl => rfl
  | item next proper decoded _ ih => rw [transcript_of_item next proper decoded, ih]; rfl

/-! ## Tokens without text -/

theorem text_of_isStructural (h : l.last.isStructural = true) : l.text = .ok "" := by
  have hlexeme : l.last.hasLexeme = false := by
    rw [Token.isStructural, Bool.and_eq_true, Bool.not_eq_true'] at h
    exact h.1
  rw [Lexer.text, hlexeme]
  rfl

theorem ne_nothing_of_isStructural (h : token.isStructural = true) : token ≠ .nothing := by
  rintro rfl
  cases h

/-- The tokens that have no text, with that. -/
def bare (tokens : List Token) : List (Token × String) := tokens.map (·, "")

theorem exists_delivers_pending {tokens : List Token} (running : l.failure = none)
    (queue : l.pending = tokens) (structural : tokens.all Token.isStructural = true) :
    ∃ last, l.Delivers (bare tokens) { l with last := last, pending := [] } := by
  induction tokens generalizing l with
  | nil =>
    have hl : { l with last := l.last, pending := [] } = l := by rw [← queue]
    refine ⟨l.last, ?_⟩
    rw [hl]
    exact .refl l
  | cons token tokens ih =>
    rw [List.all_cons, Bool.and_eq_true] at structural
    have hnext := next_of_pending running queue
    obtain ⟨last, hrest⟩ := ih (l := { l with last := token, pending := tokens }) running rfl
      structural.2
    exact ⟨last, .item hnext (ne_nothing_of_isStructural structural.1)
      (text_of_isStructural structural.1) hrest⟩

/-- What a construct becomes is delivered, if it is anything, and leaves the lexer behind it. -/
theorem exists_delivers_scanned {c : Construct} {stack : Stack} {tokens : List Token}
    (running : l.failure = none) (queue : l.pending = []) (found : l.nextReading.found = .ok c)
    (effect : l.stack.apply l.nextPlace.column c = ⟨stack, .ok tokens⟩)
    (structural : tokens.all Token.isStructural = true) (nonempty : tokens ≠ []) :
    ∃ last, l.Delivers (bare tokens)
      { l.moved with stack := stack, last := last, pending := [] } := by
  have hnext := next_of_scanned running queue found effect
  rcases tokens with _ | ⟨token, tokens⟩
  · exact absurd rfl nonempty
  · rw [List.all_cons, Bool.and_eq_true] at structural
    obtain ⟨last, hrest⟩ := exists_delivers_pending
      (l := { l.moved with stack := stack, last := token, pending := tokens }) running rfl
      structural.2
    exact ⟨last, .item hnext (ne_nothing_of_isStructural structural.1)
      (text_of_isStructural structural.1) hrest⟩

end Lexer

end YamlLexer
