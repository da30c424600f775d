import YamlLexer.Proofs.Nesting.Document

/-!
# Shifting columns

Indentation is compared, never measured. If all columns grow by the same number, those of the open
structures and that of the next construct, then the construct does the same as before and becomes
the same tokens (`Sound.apply_shift`).

The frame of the document is the exception that has to be harmless. It stays at column zero while
the others move, but its rank is below theirs at any column.

A rank is twice the column and a little more, so it grows by twice the number, and no comparison of
two ranks notices. This is shown for each operation by its equation on `Stack.document`: where the
block collections are cut is the same, and so are the shapes, which are all that the tokens depend
on.
-/

namespace YamlLexer

namespace Collection

def shift (k : Nat) (c : Collection) : Collection := { c with column := c.column + k }

end Collection

theorem rank_shift (k : Nat) (shape : Shape) (column : Nat) :
    (Opener.block shape).rank (column + k) = (Opener.block shape).rank column + 2 * k := by
  cases shape with
  | mapping => change 2 * (column + k) + 1 = 2 * column + 1 + 2 * k; omega
  | sequence => change 2 * (column + k) + 2 = 2 * column + 2 + 2 * k; omega

theorem Collection.rank_shift (k : Nat) (c : Collection) : (c.shift k).rank = c.rank + 2 * k :=
  YamlLexer.rank_shift k c.shape c.column

/-- The frame, some columns further to the right. That of a document does not move. -/
def Frame.shift (k : Nat) (f : Frame) : Frame :=
  match f.opener with
  | .document => f
  | _ => { f with column := f.column + k }

namespace Stack

def shift (k : Nat) (s : Stack) : Stack := { s with frames := s.frames.map (Frame.shift k) }

variable {k : Nat} {flows blocks inner outer : List Collection} {rank : Nat}

@[simp] theorem shift_closed (k : Nat) : ({} : Stack).shift k = {} := rfl

@[simp] theorem inFlow_shift (k : Nat) (s : Stack) : (s.shift k).inFlow = s.inFlow := rfl

theorem shift_document (k : Nat) (flows blocks : List Collection) :
    (document flows blocks).shift k =
      document (flows.map (·.shift k)) (blocks.map (·.shift k)) := by
  have hflow : Frame.shift k ∘ Collection.flow = Collection.flow ∘ (·.shift k) := rfl
  have hblock : Frame.shift k ∘ Collection.block = Collection.block ∘ (·.shift k) := rfl
  have hdocument : Frame.shift k .document = .document := rfl
  simp [shift, document, hflow, hblock, hdocument]

theorem shift_zero {s : Stack} (h : s.Sound) : s.shift 0 = s := by
  cases h with
  | closed => rfl
  | document flows blocks =>
    have hzero : Collection.shift 0 = id := rfl
    rw [shift_document, hzero, List.map_id, List.map_id]

theorem endTokens_shift (k : Nat) (cs : List Collection) :
    endTokens (cs.map (·.shift k)) = endTokens cs := by
  rw [endTokens, endTokens, List.map_map]
  rfl

theorem Cut.shift (h : Cut rank inner outer) (k : Nat) :
    Cut (rank + 2 * k) (inner.map (·.shift k)) (outer.map (·.shift k)) := by
  constructor
  · intro c hc
    obtain ⟨d, hd, rfl⟩ := List.mem_map.mp hc
    rw [Collection.rank_shift]
    exact Nat.add_lt_add_right (h.lt_inner d hd) _
  · intro c hc
    rw [List.head?_map] at hc
    obtain ⟨d, hd, rfl⟩ := Option.map_eq_some_iff.mp hc
    rw [Collection.rank_shift]
    exact Nat.add_le_add_right (h.head_outer_le d hd) _

theorem head_rank_shift (k : Nat) (cs : List Collection) :
    (cs.map (·.shift k)).head?.map Collection.rank = some (rank + 2 * k) ↔
      cs.head?.map Collection.rank = some rank := by
  rcases cs with _ | ⟨c, cs⟩
  · simp
  · simp [Collection.rank_shift]

theorem pairwise_rank_shift (k : Nat) {cs : List Collection}
    (h : cs.Pairwise fun inner outer ↦ outer.rank < inner.rank) :
    (cs.map (·.shift k)).Pairwise fun inner outer ↦ outer.rank < inner.rank := by
  refine List.pairwise_map.mpr (h.imp ?_)
  intro inner outer hlt
  rw [Collection.rank_shift, Collection.rank_shift]
  exact Nat.add_lt_add_right hlt _

theorem Sound.shift {s : Stack} (h : s.Sound) (k : Nat) : (s.shift k).Sound := by
  cases h with
  | closed => exact .closed
  | document flows blocks ranked =>
    rw [shift_document]
    exact .document _ _ (pairwise_rank_shift k ranked)

theorem closing_shift {s : Stack} (h : s.Sound) (k : Nat) :
    (s.shift k).closing = s.closing := by
  cases h with
  | closed => rfl
  | document flows blocks =>
    rw [shift_document, closing_document, closing_document, ← List.map_append, endTokens_shift]

theorem Entered.shift {s s' : Stack} {shape : Shape} {column : Nat} {tokens : List Token}
    (h : Entered shape column s s' tokens) (k : Nat) :
    Entered shape (column + k) (s.shift k) (s'.shift k) tokens := by
  cases h with
  | first =>
    rw [shift_closed, shift_document]
    exact .first
  | flow c flows blocks =>
    rw [shift_document]
    exact .flow (c.shift k) _ _
  | @sibling inner outer ranked cut head =>
    have hranked := pairwise_rank_shift k ranked
    rw [List.map_append] at hranked
    rw [shift_document, shift_document, List.map_append, ← endTokens_shift k inner]
    refine .sibling hranked ?_ ?_
    · rw [rank_shift]
      exact cut.shift k
    · rw [rank_shift]
      exact (head_rank_shift k outer).mpr head
  | @nested inner outer ranked cut head =>
    have hranked := pairwise_rank_shift k ranked
    rw [List.map_append] at hranked
    rw [shift_document, shift_document, List.map_append, ← endTokens_shift k inner]
    refine .nested hranked ?_ ?_
    · rw [rank_shift]
      exact cut.shift k
    · rw [rank_shift]
      exact mt (head_rank_shift k outer).mp head

theorem enter_shift {s : Stack} (h : s.Sound) (k : Nat) (shape : Shape) (column : Nat) :
    (s.shift k).enter shape (column + k) =
      ⟨(s.enter shape column).stack.shift k, (s.enter shape column).tokens⟩ := by
  obtain ⟨s', tokens, hentered⟩ := h.exists_entered shape column
  rw [hentered.enter_eq, (hentered.shift k).enter_eq]

theorem openFlow_shift {s : Stack} (h : s.Sound) (k : Nat) (shape : Shape) (column : Nat) :
    (s.shift k).openFlow shape (column + k) =
      ⟨(s.openFlow shape column).stack.shift k, (s.openFlow shape column).tokens⟩ := by
  cases h with
  | closed =>
    rw [shift_closed, openFlow_closed, openFlow_closed, shift_document]
    rfl
  | document flows blocks =>
    have hkind : (document (flows.map (·.shift k)) (blocks.map (·.shift k))).kind =
        (document flows blocks).kind := by
      rw [kind_document, kind_document, ← List.map_append, List.head?_map, Option.map_map]
      rfl
    rw [shift_document, openFlow_document, openFlow_document, shift_document, hkind]
    rfl

theorem closeFlow_shift {s : Stack} (h : s.Sound) (k : Nat) (shape : Shape) :
    (s.shift k).closeFlow shape =
      ⟨(s.closeFlow shape).stack.shift k, (s.closeFlow shape).tokens⟩ := by
  cases h with
  | closed => rfl
  | document flows blocks =>
    have hfind : ((flows ++ blocks).map (·.shift k)).findIdx? (·.shape = shape) =
        (flows ++ blocks).findIdx? (·.shape = shape) := by
      rw [List.findIdx?_map]
      rfl
    rw [shift_document, closeFlow_document, closeFlow_document, ← List.map_append, hfind]
    cases hi : (flows ++ blocks).findIdx? (·.shape = shape) with
    | none => simp only [shift_document]
    | some i =>
      dsimp only
      rw [shift_document, List.map_drop, List.map_drop, List.length_map, ← List.map_take,
        endTokens_shift]

/-- A construct does the same wherever all stands further to the right. -/
theorem Sound.apply_shift {s : Stack} (h : s.Sound) (k column : Nat) (c : Construct) :
    (s.shift k).apply (column + k) c =
      ⟨(s.apply column c).stack.shift k, (s.apply column c).tokens⟩ := by
  cases c with
  | single token => rfl
  | scalar kind isKey =>
    cases isKey with
    | false => rfl
    | true =>
      rw [Stack.apply, Stack.apply, enter_shift h]
      rcases s.enter .mapping column with ⟨inner, fault | tokens⟩
      · rfl
      · rfl
  | entry => exact enter_shift h k .sequence column
  | flowStart shape => exact openFlow_shift h k shape column
  | flowEnd shape => exact closeFlow_shift h k shape
  | documentStart =>
    rw [Stack.apply, Stack.apply, (h.shift k).startDocument, h.startDocument, closing_shift h]
    rfl
  | documentEnd =>
    cases h with
    | closed => rfl
    | document flows blocks ranked =>
      have hclosing := closing_shift (.document flows blocks ranked) k
      rw [shift_document] at hclosing ⊢
      rw [Stack.apply, Stack.apply, endDocument_document, endDocument_document, hclosing]
      rfl
  | streamEnd =>
    rw [Stack.apply, Stack.apply, (h.shift k).endStream, h.endStream, closing_shift h]
    rfl

end Stack

end YamlLexer
