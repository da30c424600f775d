import YamlLexer.Nesting.Cost
import YamlLexer.Proofs.Regular

/-!
# Draining takes linear time

A stream can be drained because every token leaves less to come. `Lexer.potential` shows that
whatever a client has done to the stack, and therefore has to pay for a document that ends without
being a structure. A client that only pulls never sees that, and six tokens for each byte are enough
(`exists_end_le`).

Six are also needed: a colon alone is a key without a text. It starts a document and a mapping, and
announces itself and an empty scalar, and the mapping and the document have to be closed.

## The account

Unread bytes count for six, open structures and tokens in line for one each. What a construct
becomes, and what will close the structures that it opens, is paid for by its first byte
(`Stack.length_apply_add_depth`), so readings have to take at least one. The end of the input takes
none, and does not have to: it only closes what is open.
-/

namespace YamlLexer

theorem Stack.Sound.length_endStream_add_depth {s s' : Stack} {tokens : List Token} (h : s.Sound)
    (heffect : s.endStream = ⟨s', .ok tokens⟩) : tokens.length + s'.depth ≤ s.depth := by
  rw [h.endStream, Nesting.mk.injEq, Except.ok.injEq] at heffect
  obtain ⟨rfl, rfl⟩ := heffect
  exact List.length_filterMap_le _ _

namespace Lexer

variable {l l' : Lexer} {token : Token}

/-! ## What a scan takes -/

theorem cursor_scan (l : Lexer) : l.scan.2.cursor = l.moved.cursor := by
  rw [scan]
  dsimp only
  split
  · rfl
  · rfl

theorem offset_le_nextPlace (l : Lexer) : l.cursor.offset ≤ l.nextPlace.offset := by
  rw [offset_nextPlace]
  exact Nat.le_add_right _ _

theorem nextPlace_lt_moved (h : l.nextPlace.offset < l.cursor.source.length) :
    l.nextPlace.offset < l.moved.cursor.offset := by
  rcases l.nextReading_cases with ⟨hend, -⟩ | ⟨-, hwidth⟩
  · omega
  · change _ < min (l.nextPlace.offset + l.nextReading.width) l.cursor.source.length
    omega

/-!
## The account

A token in line is paid for when it is lined up, so delivering it makes the account smaller by one.
A scan moves past a byte at least, and what that was worth covers all that the construct becomes.
-/

/-- A bound on the number of tokens that are still to come for a client that only pulls. -/
def outstanding (l : Lexer) : Nat := 6 * l.cursor.remaining + l.depth + l.pending.length

/-- A construct is paid for by its first byte, and the end of the input by what it closes. -/
theorem Regular.payment {c : Construct} {stack : Stack} {tokens : List Token} (h : l.Regular)
    (found : l.nextReading.found = .ok c)
    (effect : l.stack.apply l.nextPlace.column c = ⟨stack, .ok tokens⟩) :
    6 * l.moved.cursor.remaining + (tokens.length + stack.depth) ≤
      6 * l.cursor.remaining + l.depth := by
  have hmoved := l.moved.cursor.offset_add_remaining
  have hoffset := l.cursor.offset_add_remaining
  have hsource : l.moved.cursor.source.length = l.cursor.source.length := rfl
  have hgap := l.offset_le_nextPlace
  rcases l.nextReading_cases with ⟨hend, hreading⟩ | ⟨hlt, -⟩
  · obtain rfl : c = .streamEnd := by
      rw [hreading] at found
      cases found
      rfl
    have hcost : tokens.length + stack.depth ≤ l.depth := h.sound.length_endStream_add_depth effect
    have hstays : l.moved.cursor.offset = l.cursor.source.length := by
      change min (l.nextPlace.offset + l.nextReading.width) l.cursor.source.length = _
      omega
    omega
  · have hcost : tokens.length + stack.depth ≤ l.depth + 6 := Stack.length_apply_add_depth effect
    have htaken := nextPlace_lt_moved hlt
    omega

theorem Regular.outstanding_lt (h : l.Regular) (hpull : l.Pull (.ok token) l')
    (htoken : token ≠ .nothing) : l'.outstanding < l.outstanding := by
  rcases hpull with _ | ⟨-, queue⟩ | _ | _ | ⟨-, queue, found, effect⟩
  · simp only [outstanding, queue, List.length_cons]
    exact Nat.lt_succ_self _
  · rename_i c stack tokens
    rcases tokens with _ | ⟨first, tokens⟩
    · exact absurd rfl htoken
    · have hpayment := h.payment found effect
      rw [List.length_cons] at hpayment
      simp only [outstanding, queue, List.tail_cons, List.length_nil]
      change 6 * l.moved.cursor.remaining + stack.depth + tokens.length < _
      omega

/-- Pulling comes to the end of the stream, or to an error. The induction is on the account: a token
that is delivered leaves a smaller one for the rest of the run. -/
theorem Regular.exists_end_le (h : l.Regular) : ∃ k ≤ l.outstanding,
    (∀ i < k, ∃ token, token ≠ .nothing ∧ (l.pulled i).next.1 = .ok token) ∧
      ((l.pulled k).next.1 = .ok .nothing ∨ ∃ e, (l.pulled k).next.1 = .error e) := by
  induction hn : l.outstanding using Nat.strongRecOn generalizing l with
  | ind n ih =>
    have hpull := l.pull_next
    rcases hanswer : l.next.1 with e | token
    · exact ⟨0, Nat.zero_le n, by simp, .inr ⟨e, hanswer⟩⟩
    · by_cases htoken : token = .nothing
      · rw [htoken] at hanswer
        exact ⟨0, Nat.zero_le n, by simp, .inl hanswer⟩
      · rw [hanswer] at hpull
        have hlt := h.outstanding_lt hpull htoken
        rw [hn] at hlt
        obtain ⟨k, hk, htokens, hend⟩ := ih _ hlt h.next rfl
        refine ⟨k + 1, by omega, ?_, ?_⟩
        · intro i hi
          rcases i with _ | i
          · exact ⟨token, htoken, hanswer⟩
          · rw [pulled_succ']
            exact htokens i (by omega)
        · rw [pulled_succ']
          exact hend

/-- On every input, pulling comes to the end of the stream or to an error after at most six tokens
for each byte. And every scan that does not begin at the end of the input leaves the lexer behind
the offset at which it began. -/
theorem exists_end_le_length (bytes : List Byte) :
    (∃ k ≤ 6 * bytes.length,
      (∀ i < k, ∃ token, token ≠ .nothing ∧ ((ofBytes bytes).pulled i).next.1 = .ok token) ∧
        (((ofBytes bytes).pulled k).next.1 = .ok .nothing ∨
          ∃ e, ((ofBytes bytes).pulled k).next.1 = .error e)) ∧
      ∀ i, ((ofBytes bytes).pulled i).nextPlace.offset < bytes.length →
        ((ofBytes bytes).pulled i).cursor.offset ≤ ((ofBytes bytes).pulled i).nextPlace.offset ∧
          ((ofBytes bytes).pulled i).nextPlace.offset <
            ((ofBytes bytes).pulled i).scan.2.cursor.offset := by
  refine ⟨?_, ?_⟩
  · have houtstanding : (ofBytes bytes).outstanding = 6 * bytes.length := rfl
    rw [← houtstanding]
    exact (regular_ofBytes bytes).exists_end_le
  · intro i hi
    have hsource : ((ofBytes bytes).pulled i).cursor.source = bytes :=
      pulled_induction (fun h hpull ↦ hpull.source_eq.trans h) rfl i
    refine ⟨offset_le_nextPlace _, ?_⟩
    rw [cursor_scan]
    refine nextPlace_lt_moved ?_
    rwa [hsource]

/-- A colon alone, which is six tokens, the last of them the end of the document. -/
theorem exists_end_le_length_colon :
    let l := ofBytes [0x3A]
    (l.pulled 5).next.1 = .ok .documentEnd ∧
    (∃ k ≤ 6, (∀ i < k, ∃ token, token ≠ .nothing ∧ (l.pulled i).next.1 = .ok token) ∧
      ((l.pulled k).next.1 = .ok .nothing ∨ ∃ e, (l.pulled k).next.1 = .error e)) ∧
    l.cursor.offset < l.scan.2.cursor.offset := by
  intro l
  obtain ⟨hend, hscan⟩ := exists_end_le_length [0x3A]
  obtain ⟨hgap, hbyte⟩ := hscan 0 (by decide)
  exact ⟨by decide, hend, Nat.lt_of_le_of_lt hgap hbyte⟩

end Lexer

end YamlLexer
