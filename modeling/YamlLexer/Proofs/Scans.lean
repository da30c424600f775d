import YamlLexer.Proofs.Cursor
import YamlLexer.Proofs.Nesting.Faults
import YamlLexer.Proofs.Regular

/-!
# What a scan starts from, and what it lines up

Between two scans a lexer has nothing in line. Where the next one starts is a matter of the input
alone, and `Lexer.Meets` says it without any reading: at the first byte that belongs to no gap.
Which tokens the scan becomes is then seen by pulling as often as there are tokens. Until the last
of them is delivered, which is the construct's own if it has one, nothing is read, and so the
lexeme and the position are still those of the scan.

That a construct is met does not mean that it is allowed. It may be refused, or the open structures
may not permit it; even then the lexer has moved past it (`next_moved`). Behind a construct and in
front of it lines may end, and within it none does (`isBreak_of_lt_moved`).
-/

namespace YamlLexer

namespace Lexer

variable {l : Lexer} {b : Byte} {p : Nat}

/-! ## Where a scan starts -/

/-- The first byte from here on that belongs to no gap is `b`, at the offset `p`. -/
structure Meets (l : Lexer) (p : Nat) (b : Byte) : Prop where
  le : l.cursor.offset ≤ p
  byte : l.cursor.source[p]? = some b
  gap : b.isGap = false
  before : ∀ i, l.cursor.offset ≤ i → i < p → ∀ d ∈ l.cursor.source[i]?, d.isGap = true

theorem isGap_of_lt_nextPlace {i : Nat} (hle : l.cursor.offset ≤ i)
    (hlt : i < l.nextPlace.offset) : ∀ d ∈ l.cursor.source[i]?, d.isGap = true := by
  intro d hd
  obtain ⟨j, rfl⟩ := Nat.exists_eq_add_of_le hle
  rw [offset_nextPlace] at hlt
  rw [← List.getElem?_drop, ← Cursor.rest] at hd
  exact of_lt_takeWhile (Nat.lt_of_add_lt_add_left hlt) d hd

/-- What a lexer meets is the first byte of the next construct. -/
theorem meets_iff : l.Meets p b ↔ l.nextPlace.offset = p ∧ l.upcoming.head? = some b := by
  constructor
  · intro h
    have heq : l.nextPlace.offset = p := by
      rcases Nat.lt_trichotomy l.nextPlace.offset p with hlt | heq | hlt
      · -- The byte there belongs to no gap either.
        have hle : l.cursor.offset ≤ l.nextPlace.offset := by
          rw [offset_nextPlace]
          exact Nat.le_add_right _ _
        obtain ⟨d, hd⟩ : ∃ d, l.cursor.source[l.nextPlace.offset]? = some d := by
          obtain ⟨hp, -⟩ := List.getElem?_eq_some_iff.mp h.byte
          exact ⟨_, List.getElem?_eq_getElem (hlt.trans hp)⟩
        have hgap := h.before _ hle hlt d hd
        rw [l.starts_upcoming d (l.head?_upcoming.trans hd)] at hgap
        cases hgap
      · exact heq
      · have hgap := isGap_of_lt_nextPlace h.le hlt b h.byte
        rw [h.gap] at hgap
        cases hgap
    refine ⟨heq, ?_⟩
    rw [head?_upcoming, heq, h.byte]
  · rintro ⟨rfl, hbyte⟩
    refine ⟨?_, ?_, l.starts_upcoming b hbyte, fun i ↦ isGap_of_lt_nextPlace⟩
    · rw [offset_nextPlace]
      exact Nat.le_add_right _ _
    · rw [← head?_upcoming, hbyte]

theorem Meets.drop (h : l.Meets p b) : l.cursor.source.drop p = l.upcoming := by
  obtain ⟨rfl, -⟩ := meets_iff.mp h
  rw [upcoming, drop_nextPlace]

theorem Meets.upcoming (h : l.Meets p b) :
    l.upcoming = b :: l.cursor.source.drop (p + 1) := by
  rw [← h.drop]
  obtain ⟨hp, hb⟩ := List.getElem?_eq_some_iff.mp h.byte
  rw [List.drop_eq_getElem_cons hp, hb]

theorem Meets.reading_of_closer {shape : Shape} (h : l.Meets p shape.closer.toNat.toUInt8) :
    l.nextReading = { found := .ok (.flowEnd shape) } := by
  rw [nextReading_eq, h.upcoming]
  cases shape <;> rfl

variable {c : Construct} {stack : Stack} {tokens : List Token} {token : Token}

theorem deliveries_pending (running : l.failure = none) (queue : l.pending = tokens) :
    (l.deliveries tokens.length).map Delivery.token = tokens ∧
      l.pulled tokens.length = { l with last := tokens.getLastD l.last, pending := [] } := by
  induction tokens generalizing l with
  | nil =>
    refine ⟨rfl, ?_⟩
    change l = { l with pending := [] }
    rw [← queue]
  | cons token tokens ih =>
    have hnext := next_of_pending running queue
    have hrunning : l.next.2.failure = none := by
      rw [hnext]
      exact running
    have hqueue : l.next.2.pending = tokens := by
      rw [hnext]
      rfl
    obtain ⟨hdeliveries, hpulled⟩ := ih hrunning hqueue
    rw [List.length_cons, deliveries_succ', pulled_succ', delivery?_of_ok hnext, hpulled,
      List.getLastD_cons, hnext]
    exact ⟨congrArg (token :: ·) (by simpa [hnext] using hdeliveries), rfl⟩

/-- The tokens of a scan are what the pulls from there on deliver, and the last of them leaves the
lexer where the scan has moved it. -/
theorem deliveries_scanned (running : l.failure = none) (queue : l.pending = [])
    (found : l.nextReading.found = .ok c)
    (effect : l.stack.apply l.nextPlace.column c = ⟨stack, .ok tokens⟩) (proper : tokens ≠ []) :
    (l.deliveries tokens.length).map Delivery.token = tokens ∧
      l.pulled tokens.length =
        { l.moved with stack := stack, last := tokens.getLast proper, pending := [] } := by
  have hnext := next_of_scanned running queue found effect
  obtain ⟨token, rest, rfl⟩ := List.exists_cons_of_ne_nil proper
  have hrunning : l.next.2.failure = none := by
    rw [hnext]
    exact running
  have hqueue : l.next.2.pending = rest := by
    rw [hnext]
    rfl
  obtain ⟨hdeliveries, hpulled⟩ := deliveries_pending hrunning hqueue
  rw [List.length_cons, deliveries_succ', pulled_succ', delivery?_of_ok hnext, hpulled, hnext,
    List.getLast_eq_getLastD]
  exact ⟨congrArg (token :: ·) (by simpa [hnext] using hdeliveries), rfl⟩

theorem next_moved (running : l.failure = none) (queue : l.pending = []) :
    l.next.2.cursor = l.moved.cursor ∧ l.next.2.lexeme = l.moved.lexeme := by
  have hpull := l.pull_next
  generalize l.next.1 = answer at hpull
  generalize l.next.2 = l' at hpull ⊢
  cases hpull with
  | repeated failure => cases running.symm.trans failure
  | queued failure pending => cases queue.symm.trans pending
  | refused | faulted | scanned => exact ⟨rfl, rfl⟩

/-- A scalar comes last of all that its scan lines up. Only a structure of a kind that nothing
closes can be in its way. -/
theorem effect_scalar {kind : Token} {isKey : Bool} (running : l.failure = none)
    (queue : l.pending = []) (found : l.nextReading.found = .ok (.scalar kind isKey)) :
    (∃ kind m, l.next.1 = .error (.invalidContext kind m)) ∨
      ∃ stack marks, l.stack.apply l.nextPlace.column (.scalar kind isKey) =
        ⟨stack, .ok (marks ++ [kind])⟩ := by
  rcases effect : l.stack.apply l.nextPlace.column (.scalar kind isKey) with ⟨stack, fault | tokens⟩
  · left
    rw [next_of_faulted running queue found effect]
    rcases fault with kind | shape
    · exact ⟨kind, _, rfl⟩
    · cases Stack.eq_flowEnd_of_unopened (congrArg Nesting.tokens effect)
  · right
    obtain ⟨marks, -, rfl⟩ := scanned_tokens effect
    exact ⟨stack, marks, rfl⟩

end Lexer

end YamlLexer
