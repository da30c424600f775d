import YamlLexer.Proofs.Reading.LineBreaks
import YamlLexer.Proofs.Words.Lexeme

/-!
# Quoted scalars, read by index

The reader of quoted scalars goes from one byte that matters to the next, and each stretch between
is a slice of what is left. It is the one reader that computes offsets from such a slice, looks
behind an escape for a byte that may not be there, and steps back, from the first byte of the
content to the quote. `quoted?_eq` says that this reads what `Reading.quoted` does.

The answer of the reader is about the bytes behind the opening quote, and `answerAt` moves it to its
place in the input. The reader of a machine has the place all along, so each turn of its loop is
compared with the answer about what is then left, shifted by what has been read (`content?_eq`).
-/

namespace YamlLexer.Words

/-- The answer about a quoted scalar by offsets: that of its closing quote, or the fault and where
it shows. The other offset is the one to read on at. -/
def answerAt (offset : Nat) : Quoted.Outcome → Except (ScalarFault × Nat) Nat × Nat
  | .closed size => (.ok (offset + size), offset + size + 1)
  | .faulty fault extent settled => (.error (fault, offset + extent), offset + settled)

/-- Reads what ends a stretch: the closing quote, or an escape, and then goes on behind that. -/
def behind? (source : List Byte) (q : Quote) (offset stop : Nat) (rest : List Byte)
    (next : Nat → Option (Except (ScalarFault × Nat) Nat × Nat)) :
    Option (Except (ScalarFault × Nat) Nat × Nat) :=
  if stop = rest.length then do
    return (.error (.unterminated, ← add? offset rest.length), offset)
  else do
    if q.isEscape (← slice? rest stop rest.length) then
      let length ← add? stop 2
      match rest[← sub? length 1]? with
      | none => return (.error (.unterminated, ← add? offset rest.length), offset)
      | some b =>
        if b.isControl then
          return (.error (.controlByte b, ← add? (← add? offset stop) 2), offset)
        else next (← skip? source offset length)
    else return (.ok (← add? offset stop), ← skip? source offset (← add? stop 1))

/-- Reads the content of a quoted scalar and its closing quote, a stretch in each turn. -/
def content? (source : List Byte) (q : Quote) :
    Nat → Nat → Option (Except (ScalarFault × Nat) Nat × Nat)
  | 0, _ => none
  | fuel + 1, offset => do
    let rest ← rest? source offset
    let stop := rest.findIdx q.isStop
    let stretch ← slice? rest 0 stop
    match stretch.findIdx? Byte.isControl with
    | some i => do
      let b ← rest[i]?
      return (.error (.controlByte b, ← add? (← add? offset i) 1), offset)
    | none => behind? source q offset stop rest (content? source q fuel)

/-- Reads a quoted scalar behind its opening quote, and what stands behind it. -/
def quoted? (source : List Byte) (q : Quote) (p : Place) (offset : Nat) : Option Found := do
  let opening ← sub? offset 1
  match ← content? source q (source.length + 1) offset with
  | (.ok stop, behind) => scalar? source .text ⟨offset, stop⟩ behind
  | (.error (fault, stop), behind) =>
    return ⟨.error (.malformedScalar ⟨opening, stop⟩ (← mark? { p with offset := opening }) fault),
      behind, ⟨opening, opening⟩⟩

variable {source : List Byte} {q : Quote} {offset : Nat} {p : Place}

theorem answerAt_shift (n : Nat) (outcome : Quoted.Outcome) :
    answerAt offset (outcome.shift n) = answerAt (offset + n) outcome := by
  rcases outcome with size | ⟨fault, extent, settled⟩
  · simp only [Quoted.Outcome.shift, answerAt, Nat.add_assoc]
  · simp only [Quoted.Outcome.shift, answerAt, Nat.add_assoc]

/-- The first control byte of a stretch is found in what the stretch begins. -/
theorem control?_of_findIdx? {s : List Byte} {i stop : Nat}
    (h : (s.take stop).findIdx? Byte.isControl = some i) :
    i < stop ∧ ∃ b, s[i]? = some b ∧ Quoted.control? (s.take stop) = some (i, b) := by
  obtain ⟨hlt, -, -⟩ := List.findIdx?_eq_some_iff_getElem.mp h
  have hstop : i < stop := by
    rw [List.length_take] at hlt
    omega
  have hget : s[i]? = some (s.take stop)[i] := by
    rw [← List.getElem?_take_of_lt hstop, List.getElem?_eq_getElem hlt]
  refine ⟨hstop, _, hget, ?_⟩
  rw [Quoted.control?, h, Option.bind_some, List.getElem?_eq_getElem hlt]
  rfl

theorem behind?_eq (h : Short source) {stop : Nat}
    {next : Nat → Option (Except (ScalarFault × Nat) Nat × Nat)}
    (hle : offset + stop ≤ source.length)
    (hnext : ∀ behind, offset < behind → behind ≤ source.length →
      next behind = some (answerAt behind (Quoted.read q (source.drop behind)))) :
    behind? source q offset stop (source.drop offset) next =
      some (answerAt offset (Quoted.readBehind q stop (source.drop (offset + stop)))) := by
  have hlength : (source.drop offset).length = source.length - offset := List.length_drop
  rw [behind?, Quoted.readBehind]
  rcases hb : source[offset + stop]? with _ | b
  · -- The input ends with the stretch.
    have hnil := drop_eq_nil_of_getElem? hb
    have hend : stop = (source.drop offset).length := by
      have hdrop := congrArg List.length hnil
      rw [List.length_drop, List.length_nil] at hdrop
      omega
    rw [if_pos hend, hnil, ← hend, Quoted.isEscape_nil, bind_eq (h.add?_eq (by omega) (by omega))]
    rfl
  · have hlt := succ_le_of_getElem? hb
    have hcons := drop_eq_cons_of_getElem? hb
    rw [if_neg (by omega), bind_eq (slice?_eq (by omega) (Nat.le_refl _)), List.take_length,
      List.drop_drop, hcons]
    by_cases hescape : q.isEscape (b :: source.drop (offset + stop + 1)) = true
    · have hadd : add? stop 2 = some (stop + 2) := add?_eq (by rw [Short] at h; omega)
      have hsub : sub? (stop + 2) 1 = some (stop + 1) := sub?_eq (by omega)
      rw [if_pos hescape, if_pos hescape, List.tail_cons, bind_eq hadd, bind_eq hsub,
        List.getElem?_drop, ← Nat.add_assoc]
      rcases hc : source[offset + stop + 1]? with _ | c
      · -- The byte to be escaped is missing.
        have hnil := drop_eq_nil_of_getElem? hc
        have hend : (source.drop offset).length = stop + 1 := by
          have hdrop := congrArg List.length hnil
          rw [List.length_drop, List.length_nil] at hdrop
          omega
        rw [hnil, hend]
        dsimp only
        rw [bind_eq (h.add?_eq (by omega) (by omega))]
        rfl
      · -- The reader goes on behind the escape, where `hnext` says what it answers.
        have hlt' := succ_le_of_getElem? hc
        rw [drop_eq_cons_of_getElem? hc]
        dsimp only
        rw [bind_eq (h.add?_eq (by omega) (by omega)), bind_eq (h.add?_eq (by omega) (by omega)),
          bind_eq (h.skip?_eq (by omega)), hnext _ (by omega) (by omega)]
        split
        · rfl
        · rw [answerAt_shift]
          rfl
    · -- What ends a stretch and starts no escape is the closing quote.
      rw [if_neg hescape, if_neg hescape, if_neg (List.cons_ne_nil b _),
        bind_eq (h.add?_eq (by omega) (by omega)), bind_eq (add?_eq (by rw [Short] at h; omega)),
        bind_eq (h.skip?_eq (by omega))]
      rfl

theorem content?_eq (h : Short source) (q : Quote) {fuel : Nat} (hle : offset ≤ source.length)
    (hfuel : source.length < offset + fuel) :
    content? source q fuel offset =
      some (answerAt offset (Quoted.read q (source.drop offset))) := by
  induction fuel generalizing offset with
  | zero => omega
  | succ fuel ih =>
    have hdrop := drop_add_length_takeWhile source offset (!q.isStop ·)
    have hbehind := length_takeWhile_le_of_drop (!q.isStop ·) hle
    have hstretch := List.prefix_iff_eq_take.mp
      (List.takeWhile_prefix (!q.isStop ·) (l := source.drop offset))
    rw [content?, bind_eq (h.rest?_eq hle), Quoted.read_eq, ← hdrop]
    dsimp only
    rw [findIdx_eq_length_takeWhile]
    generalize ((source.drop offset).takeWhile (!q.isStop ·)).length = stop at *
    rw [hstretch, bind_eq (slice?_eq (Nat.zero_le stop) (by rw [List.length_drop]; omega)),
      List.drop_zero]
    rcases hfind : ((source.drop offset).take stop).findIdx? Byte.isControl with _ | i
    · have hcontrol : Quoted.control? ((source.drop offset).take stop) = none := by
        rw [Quoted.control?, hfind]
        rfl
      rw [hcontrol]
      refine behind?_eq h hbehind ?_
      intro behind hlt hle'
      exact ih hle' (by omega)
    · obtain ⟨hi, b, hb, hcontrol⟩ := control?_of_findIdx? hfind
      rw [hcontrol]
      dsimp only
      rw [bind_eq hb, bind_eq (h.add?_eq hle (by omega)), bind_eq (h.add?_eq (by omega) (by omega))]
      rfl

theorem quoted?_eq (h : Short source) (q : Quote) (hline : p.lineStart ≤ p.offset)
    (hquote : source[p.offset]? = some q.byte) :
    quoted? source q p (p.offset + 1) =
      some (.ofReading (Reading.quoted q (source.drop (p.offset + 1))) p) := by
  have hlt := succ_le_of_getElem? hquote
  have hopening : sub? (p.offset + 1) 1 = some p.offset := sub?_eq (by omega)
  rw [quoted?, bind_eq hopening, bind_eq (content?_eq h q hlt (by omega)), Reading.quoted]
  rcases hread : Quoted.read q (source.drop (p.offset + 1)) with size | ⟨fault, extent, settled⟩
  · obtain ⟨content, rest, hs, hsize, -⟩ := (Quoted.read_sound hread).exists_append
    have hlength := congrArg List.length hs
    rw [List.length_drop, List.length_append, List.length_cons, hsize] at hlength
    have hbehind : p.offset + 1 + size + 1 = p.offset + (size + 2) := by omega
    rw [← drop_eq_cons_of_getElem? hquote]
    dsimp only [answerAt]
    rw [hbehind]
    exact scalar?_eq h .text 1 size (by omega)
  · dsimp only [answerAt]
    rw [bind_eq (mark?_eq hline)]
    simp only [Nat.add_assoc, Nat.add_comm 1]
    rfl

end YamlLexer.Words
