import Mathlib.Data.List.Basic
import YamlLexer.Proofs.Nesting.Document

/-!
# The ranks that last

An entry closes the block collections of higher rank, and opens one of its own rank unless there is
one. So which collections are open is known from the ranks of the entries alone: a rank is still
there if no entry behind it had a lower one. `Lasting` says so of a list of ranks, and makes no
mention of a stack. `Stack.Lasts` says that a stack has just these ranks.

An entry keeps that, with its own rank behind the others (`Stack.Lasts.enter`). `Stack.announced` is
the other half of the same statement: which tokens an entry becomes, again from the ranks that are
open and its own.
-/

namespace YamlLexer

/-- A rank lasts if it occurs, and none behind it is lower. -/
def Lasting (ranks : List Nat) (r : Nat) : Prop :=
  ∃ before after, ranks = before ++ r :: after ∧ ∀ x ∈ after, r ≤ x

theorem not_lasting_nil (r : Nat) : ¬ Lasting [] r := by
  rintro ⟨before, after, hnil, -⟩
  exact List.append_ne_nil_of_right_ne_nil before (List.cons_ne_nil r after) hnil.symm

/-- One rank more is one that lasts, and ends those that are higher. -/
theorem lasting_concat {ranks : List Nat} {r x : Nat} :
    Lasting (ranks ++ [x]) r ↔ r = x ∨ r ≤ x ∧ Lasting ranks r := by
  constructor
  · rintro ⟨before, after, heq, hle⟩
    rcases List.eq_nil_or_concat after with rfl | ⟨after, y, rfl⟩
    · obtain ⟨-, hx⟩ := List.append_inj' heq rfl
      exact .inl (List.singleton_inj.mp hx).symm
    · have hconcat : ranks ++ [x] = (before ++ r :: after) ++ [y] := by simpa using heq
      obtain ⟨hranks, hx⟩ := List.append_inj' hconcat rfl
      obtain rfl := List.singleton_inj.mp hx
      refine .inr ⟨hle x (by simp), before, after, hranks, ?_⟩
      intro y hy
      exact hle y (by simp [hy])
  · rintro (rfl | ⟨hrx, before, after, rfl, hle⟩)
    · exact ⟨ranks, [], rfl, fun y hy ↦ absurd hy List.not_mem_nil⟩
    · refine ⟨before, after ++ [x], by simp, ?_⟩
      intro y hy
      rcases List.mem_append.mp hy with hy | hy
      · exact hle y hy
      · rw [List.mem_singleton.mp hy]
        exact hrx

theorem lasting_singleton {r x : Nat} : Lasting [x] r ↔ r = x := by
  rw [← List.nil_append [x], lasting_concat]
  constructor
  · rintro (h | ⟨-, h⟩)
    · exact h
    · exact absurd h (not_lasting_nil r)
  · exact .inl

namespace Stack

/-- The stacks without flow collections whose block collections have the ranks that last. -/
inductive Lasts : List Nat → Stack → Prop
  | closed : Lasts [] {}
  | document {ranks : List Nat} {blocks : List Collection}
      (ranked : blocks.Pairwise fun inner outer ↦ outer.rank < inner.rank)
      (lasting : ∀ r, r ∈ blocks.map Collection.rank ↔ Lasting ranks r) :
      Lasts ranks (document [] blocks)

/-- The ranks of the open collections, from the outside in. -/
def ranks (s : Stack) : List Nat := (s.frames.reverse.drop 1).map Frame.indent

variable {s s' : Stack} {shape : Shape} {column : Nat} {tokens : List Token} {ranks : List Nat}
  {blocks : List Collection}

theorem frames_document :
    (document [] blocks).frames = blocks.map Collection.block ++ [.document] := rfl

theorem ranks_document : (document [] blocks).ranks = (blocks.map Collection.rank).reverse := by
  simp [Stack.ranks, document, Function.comp_def]

theorem Lasts.pairwise (h : Lasts ranks s) : s.ranks.Pairwise (· < ·) := by
  rcases h with _ | ⟨ranked, -⟩
  · exact List.Pairwise.nil
  · rw [ranks_document, List.pairwise_reverse, List.pairwise_map]
    exact ranked

theorem Lasts.mem_iff (h : Lasts ranks s) (r : Nat) : r ∈ s.ranks ↔ Lasting ranks r := by
  rcases h with _ | ⟨-, lasting⟩
  · exact ⟨fun h ↦ absurd h List.not_mem_nil, fun h ↦ absurd h (not_lasting_nil r)⟩
  · rw [ranks_document, List.mem_reverse]
    exact lasting r

theorem Lasts.inFlow (h : Lasts ranks s) : s.inFlow = false := by
  rcases h with _ | _
  · rfl
  · rw [inFlow_document]
    rfl

theorem Lasts.getLast? (h : Lasts ranks s) : ∀ f ∈ s.frames.getLast?, f = .document := by
  intro f hf
  rcases h with _ | _
  · cases hf
  · rw [frames_document, List.getLast?_concat] at hf
    exact (Option.some_inj.mp hf).symm

theorem Lasts.isSome_closing? (h : Lasts ranks s) :
    ∀ f ∈ s.frames, f.kind.closing?.isSome = true := by
  intro f hf
  rcases h with _ | _
  · cases hf
  · rcases List.mem_append.mp hf with hf | hf
    · cases hf
    · rcases List.mem_append.mp hf with hf | hf
      · obtain ⟨c, -, rfl⟩ := List.mem_map.mp hf
        rw [Collection.kind_block, Shape.closing?_startToken]
        rfl
      · rw [List.mem_singleton.mp hf]
        rfl

theorem Lasts.sound (h : Lasts ranks s) : s.Sound := by
  rcases h with _ | ⟨ranked, -⟩
  · exact .closed
  · exact .document [] _ ranked

theorem lasts_empty : Lasts [] (document [] []) :=
  .document List.Pairwise.nil fun r ↦
    ⟨fun h ↦ absurd h List.not_mem_nil, fun h ↦ absurd h (not_lasting_nil r)⟩

/-!
## An entry

The collections are cut where the ranks fall to that of the entry (`Stack.Cut`). Those above the cut
are closed, and their ranks do not last. Those below stay; and whether the innermost of them has the
rank of the entry decides if a collection is started, in the stack and in the list of tokens alike.
-/

section

variable {rank r : Nat} {inner outer : List Collection}

theorem Cut.le_outer (h : Cut rank inner outer)
    (ranked : outer.Pairwise fun inner outer ↦ outer.rank < inner.rank) :
    ∀ c ∈ outer, c.rank ≤ rank := by
  intro c hc
  rcases outer with _ | ⟨d, outer⟩
  · exact absurd hc List.not_mem_nil
  · have hd : d.rank ≤ rank := h.head_outer_le d rfl
    rcases List.mem_cons.mp hc with rfl | hc
    · exact hd
    · exact ((List.pairwise_cons.mp ranked).1 c hc).le.trans hd

theorem Cut.mem_outer_iff (h : Cut rank inner outer)
    (ranked : outer.Pairwise fun inner outer ↦ outer.rank < inner.rank) :
    r ∈ outer.map Collection.rank ↔ r ≤ rank ∧ r ∈ (inner ++ outer).map Collection.rank := by
  rw [List.map_append, List.mem_append]
  constructor
  · intro hr
    obtain ⟨c, hc, rfl⟩ := List.mem_map.mp hr
    exact ⟨h.le_outer ranked c hc, .inr hr⟩
  · rintro ⟨hle, hr | hr⟩
    · obtain ⟨c, hc, rfl⟩ := List.mem_map.mp hr
      exact absurd hle (Nat.not_le.mpr (h.lt_inner c hc))
    · exact hr

/-- If what is left has the rank of the entry at all, its innermost collection has. -/
theorem Cut.mem_outer_rank_iff (h : Cut rank inner outer)
    (ranked : outer.Pairwise fun inner outer ↦ outer.rank < inner.rank) :
    rank ∈ outer.map Collection.rank ↔ outer.head?.map Collection.rank = some rank := by
  rcases outer with _ | ⟨d, outer⟩
  · simp
  · rw [List.map_cons, List.mem_cons, List.head?_cons, Option.map_some, Option.some_inj]
    constructor
    · rintro (rfl | hmem)
      · rfl
      · obtain ⟨c, hc, rfl⟩ := List.mem_map.mp hmem
        have hlt : c.rank < d.rank := (List.pairwise_cons.mp ranked).1 c hc
        exact absurd (h.head_outer_le d rfl) (Nat.not_le.mpr hlt)
    · exact fun h ↦ .inl h.symm

end

variable {rank : Nat} {inner outer : List Collection}

/-- The tokens of an entry: those that close what ranks higher, then those that start a collection
unless one of its rank is open, and last its own. -/
def announced (s : Stack) (shape : Shape) (rank : Nat) : List Token :=
  (s.frames.filter (rank < ·.indent)).filterMap (·.kind.closing?) ++
    (if ∃ f ∈ s.frames, f.indent = rank then []
      else (if s.depth = 0 then [.directivesEnd] else []) ++ [shape.startToken]) ++
    [shape.entryToken]

theorem Cut.filterMap_closing? (h : Cut rank inner outer)
    (ranked : outer.Pairwise fun inner outer ↦ outer.rank < inner.rank) :
    ((document [] (inner ++ outer)).frames.filter (rank < ·.indent)).filterMap (·.kind.closing?) =
      endTokens inner := by
  have hinner : (inner.map Collection.block).filter (rank < ·.indent) =
      inner.map Collection.block := by
    rw [List.filter_eq_self]
    simpa using h.lt_inner
  have houter : (outer.map Collection.block ++ [Frame.document]).filter (rank < ·.indent) = [] := by
    rw [List.filter_eq_nil_iff]
    intro f hf
    rcases List.mem_append.mp hf with hf | hf
    · obtain ⟨c, hc, rfl⟩ := List.mem_map.mp hf
      exact mt of_decide_eq_true (Nat.not_lt.mpr (h.le_outer ranked c hc))
    · rw [List.mem_singleton.mp hf]
      simp [Frame.document, Frame.indent, Opener.rank]
  have hclosing (c : Collection) :
      Token.closing? c.shape.startToken = some c.shape.endToken := c.shape.closing?_startToken
  rw [frames_document, List.map_append, List.append_assoc, List.filter_append, hinner, houter,
    List.append_nil, List.filterMap_map, endTokens]
  simp [Function.comp_def, hclosing]

/-- The collection that an entry continues is the innermost of those that it leaves. The document
is never taken for it, as it has no rank that an entry could have. -/
theorem Cut.exists_indent_iff (h : Cut rank inner outer)
    (ranked : outer.Pairwise fun inner outer ↦ outer.rank < inner.rank) (hrank : 0 < rank) :
    (∃ f ∈ (document [] (inner ++ outer)).frames, f.indent = rank) ↔
      outer.head?.map Collection.rank = some rank := by
  have hdocument : ¬ Frame.document.indent = rank := hrank.ne
  have hframes : (∃ f ∈ (document [] (inner ++ outer)).frames, f.indent = rank) ↔
      rank ∈ (inner ++ outer).map Collection.rank := by
    rw [frames_document, List.mem_map]
    constructor
    · rintro ⟨f, hf, hindent⟩
      rcases List.mem_append.mp hf with hf | hf
      · obtain ⟨c, hc, rfl⟩ := List.mem_map.mp hf
        exact ⟨c, hc, hindent⟩
      · rw [List.mem_singleton.mp hf] at hindent
        exact absurd hindent hdocument
    · rintro ⟨c, hc, hc'⟩
      exact ⟨c.block, List.mem_append_left _ (List.mem_map_of_mem hc), hc'⟩
  rw [hframes, ← h.mem_outer_rank_iff ranked, h.mem_outer_iff ranked]
  exact (and_iff_right le_rfl).symm

/-- An entry adds its rank to those that there have been, and its tokens are told by the ranks that
are open. -/
theorem Lasts.enter (h : Lasts ranks s) (shape : Shape) (column : Nat) :
    ∃ s', s.enter shape column =
        ⟨s', .ok (s.announced shape ((Opener.block shape).rank column))⟩ ∧
      Lasts (ranks ++ [(Opener.block shape).rank column]) s' := by
  have hpos : 0 < (Opener.block shape).rank column := Collection.rank_pos ⟨shape, column⟩
  rcases h with _ | @⟨_, blocks, ranked, lasting⟩
  · rw [enter_closed]
    refine ⟨_, rfl, .document (List.pairwise_singleton _ _) ?_⟩
    intro r
    rw [List.map_singleton, List.mem_singleton]
    exact lasting_singleton.symm
  · obtain ⟨inner, outer, rfl, hcut⟩ := exists_cut ((Opener.block shape).rank column) blocks
    have houter := (List.pairwise_append.mp ranked).2.1
    have hhead := hcut.exists_indent_iff houter hpos
    have hlasting (r : Nat) : r ∈ outer.map Collection.rank ↔
        r ≤ (Opener.block shape).rank column ∧ Lasting ranks r := by
      rw [hcut.mem_outer_iff houter, lasting]
    rw [announced, hcut.filterMap_closing? houter, depth_document]
    -- Either the innermost of the collections that stay is continued, or one is started.
    by_cases hrank : outer.head?.map Collection.rank = some ((Opener.block shape).rank column)
    · rw [enter_sibling hcut hrank, if_pos (hhead.mpr hrank), List.append_nil]
      refine ⟨_, rfl, .document houter ?_⟩
      intro r
      rw [lasting_concat, ← hlasting]
      refine ⟨.inr, ?_⟩
      rintro (rfl | hmem)
      · exact (hcut.mem_outer_rank_iff houter).mpr hrank
      · exact hmem
    · rw [enter_nested hcut hrank, if_neg (mt hhead.mp hrank), if_neg (Nat.succ_ne_zero _),
        List.nil_append, List.append_assoc]
      refine ⟨_, rfl, .document (hcut.pairwise_cons hrank houter) ?_⟩
      intro r
      rw [lasting_concat, ← hlasting, List.map_cons, List.mem_cons]
      rfl

end Stack

end YamlLexer
