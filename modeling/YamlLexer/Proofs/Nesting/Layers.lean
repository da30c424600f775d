import YamlLexer.Proofs.Nesting.Announce
import YamlLexer.Proofs.Nesting.Document

/-!
# The layers of a stack

Indentation is compared by ranks alone, and never by what opened a structure. That this does no harm
is owed to the layers in which structures lie on each other: the document, then the collections that
indentation opened, then those that brackets opened. Ranks grow within the middle layer, and there
the parity of a rank tells the shape of its collection.

`Stack.Layered` says so depth by depth, from the outside in, which is how a reader of the source
would check it. Proofs use `Stack.Sound` instead, and `Sound.exists_layered` is the bridge.
-/

namespace YamlLexer

namespace Frame

def isBlock (f : Frame) : Bool :=
  match f.opener with
  | .block _ => true
  | _ => false

def isFlow (f : Frame) : Bool :=
  match f.opener with
  | .flow _ => true
  | _ => false

/-- A mapping whose rank is odd, or a sequence whose rank is even, as the column calls for. -/
def RankedByShape (f : Frame) : Prop :=
  f.kind = .mappingStart ∧ f.indent = 2 * f.column + 1 ∨
    f.kind = .sequenceStart ∧ f.indent = 2 * f.column + 2

end Frame

namespace Stack

/-- The structure at a depth, counted from the outside. There is none at depth zero, where the
stream itself is. -/
def frameAt? (s : Stack) : Nat → Option Frame
  | 0 => none
  | d + 1 => s.frames.reverse[d]?

/-- The layers of a stack. Block collections reach up to the depth `split`, and flow collections
are above it. -/
structure Layered (s : Stack) (split : Nat) : Prop where
  /-- With all structures taken off, the stack has no kind, and rank zero. -/
  root : kind { s with frames := [] } = .nothing ∧ indent { s with frames := [] } = 0
  /-- The outermost structure is a document, of rank zero. -/
  document : ∀ f, s.frameAt? 1 = some f → f.kind = .directivesEnd ∧ f.indent = 0
  /-- All others are collections. -/
  collection : ∀ d f, 2 ≤ d → s.frameAt? d = some f →
    f.kind = .mappingStart ∨ f.kind = .sequenceStart
  block_iff : ∀ d f, 2 ≤ d → s.frameAt? d = some f → (f.isBlock = true ↔ d ≤ split)
  flow_iff : ∀ d f, 2 ≤ d → s.frameAt? d = some f → (f.isFlow = true ↔ split < d)
  /-- Ranks grow with the depth of block collections. -/
  increasing : ∀ d e f g, 2 ≤ d → d < e → e ≤ split → s.frameAt? d = some f →
    s.frameAt? e = some g → f.indent < g.indent
  ranked : ∀ d f, s.frameAt? d = some f → f.isBlock = true → f.RankedByShape
  inFlow_iff : s.inFlow = true ↔ ∃ d f, s.frameAt? d = some f ∧ f.isFlow = true
  /-- The depth that is stored is that of the outermost flow collection. -/
  flowDepth : ∀ d, s.flowDepth = some d →
    (∃ f, s.frameAt? d = some f ∧ f.isFlow = true) ∧
      ∀ e f, e < d → s.frameAt? e = some f → f.isFlow = false

variable {flows blocks : List Collection}

/-!
## Depth by depth

Depth one is that of the document, and the collections follow, those of indentation first.
-/

theorem frameAt?_closed_ne (d : Nat) (f : Frame) : ({} : Stack).frameAt? d ≠ some f := by
  intro h
  rcases d with _ | d
  · cases h
  · cases h

theorem frameAt?_document (d : Nat) : (document flows blocks).frameAt? (d + 1) =
    (Frame.document ::
      (blocks.reverse.map Collection.block ++ flows.reverse.map Collection.flow))[d]? := by
  simp [frameAt?, document]

theorem frameAt?_document_cases {d : Nat} {f : Frame}
    (h : (document flows blocks).frameAt? d = some f) :
    d = 1 ∧ f = .document ∨
      (∃ c i, d = i + 2 ∧ blocks.reverse[i]? = some c ∧ f = c.block) ∨
      ∃ c i, d = i + blocks.length + 2 ∧ flows.reverse[i]? = some c ∧ f = c.flow := by
  rcases d with _ | _ | d
  · exact absurd h (by simp [frameAt?])
  · rw [frameAt?_document, List.getElem?_cons_zero, Option.some.injEq] at h
    exact .inl ⟨rfl, h.symm⟩
  · rw [frameAt?_document, List.getElem?_cons_succ] at h
    rcases Nat.lt_or_ge d blocks.length with hlt | hle
    · rw [List.getElem?_append_left (by simpa using hlt), List.getElem?_map,
        Option.map_eq_some_iff] at h
      obtain ⟨c, hc, rfl⟩ := h
      exact .inr (.inl ⟨c, d, rfl, hc, rfl⟩)
    · rw [List.getElem?_append_right (by simpa using hle), List.getElem?_map,
        Option.map_eq_some_iff, List.length_map, List.length_reverse] at h
      obtain ⟨c, hc, rfl⟩ := h
      exact .inr (.inr ⟨c, d - blocks.length, by omega, hc, rfl⟩)

theorem lt_length_of_getElem?_reverse {cs : List Collection} {i : Nat} {c : Collection}
    (h : cs.reverse[i]? = some c) : i < cs.length := by
  obtain ⟨hlt, -⟩ := List.getElem?_eq_some_iff.mp h
  rwa [List.length_reverse] at hlt

theorem exists_frameAt?_flow (h : flows ≠ []) :
    ∃ f, (document flows blocks).frameAt? (blocks.length + 2) = some f ∧ f.isFlow = true := by
  obtain ⟨c, cs, hcons⟩ := List.exists_cons_of_ne_nil (List.reverse_ne_nil_iff.mpr h)
  refine ⟨c.flow, ?_, rfl⟩
  rw [frameAt?_document, List.getElem?_cons_succ, List.getElem?_append_right (by simp), hcons]
  simp

theorem startToken_eq (shape : Shape) :
    shape.startToken = .mappingStart ∨ shape.startToken = .sequenceStart := by
  rcases shape with _ | _
  · exact .inl rfl
  · exact .inr rfl

theorem rankedByShape_block (c : Collection) : c.block.RankedByShape := by
  obtain ⟨_ | _, column⟩ := c
  · exact .inl ⟨rfl, rfl⟩
  · exact .inr ⟨rfl, rfl⟩

theorem rank_lt_of_getElem?_reverse {i j : Nat} {c d : Collection}
    (ranked : blocks.Pairwise fun inner outer ↦ outer.rank < inner.rank) (hlt : i < j)
    (hc : blocks.reverse[i]? = some c) (hd : blocks.reverse[j]? = some d) : c.rank < d.rank := by
  obtain ⟨hi, rfl⟩ := List.getElem?_eq_some_iff.mp hc
  obtain ⟨hj, rfl⟩ := List.getElem?_eq_some_iff.mp hd
  exact List.pairwise_iff_getElem.mp (List.pairwise_reverse.mpr ranked) i j hi hj hlt

/-! ## The two sorts of stacks -/

theorem layered_closed : Layered {} 1 where
  root := ⟨rfl, rfl⟩
  document f hf := absurd hf (frameAt?_closed_ne 1 f)
  collection d f _ hf := absurd hf (frameAt?_closed_ne d f)
  block_iff d f _ hf := absurd hf (frameAt?_closed_ne d f)
  flow_iff d f _ hf := absurd hf (frameAt?_closed_ne d f)
  increasing d _ f _ _ _ _ hf := absurd hf (frameAt?_closed_ne d f)
  ranked d f hf := absurd hf (frameAt?_closed_ne d f)
  inFlow_iff := by
    constructor
    · intro hflow
      cases hflow
    · rintro ⟨d, f, hf, -⟩
      exact absurd hf (frameAt?_closed_ne d f)
  flowDepth d hd := by cases hd

theorem layered_document
    (ranked : blocks.Pairwise fun inner outer ↦ outer.rank < inner.rank) :
    (document flows blocks).Layered (blocks.length + 1) where
  root := ⟨rfl, rfl⟩
  document f hf := by
    rw [frameAt?_document, List.getElem?_cons_zero, Option.some.injEq] at hf
    rw [← hf]
    exact ⟨rfl, rfl⟩
  collection d f hd hf := by
    rcases frameAt?_document_cases hf with ⟨rfl, -⟩ | ⟨c, i, -, -, rfl⟩ | ⟨c, i, -, -, rfl⟩
    · omega
    · exact startToken_eq c.shape
    · exact startToken_eq c.shape
  block_iff d f hd hf := by
    rcases frameAt?_document_cases hf with ⟨rfl, -⟩ | ⟨c, i, rfl, hi, rfl⟩ | ⟨c, i, rfl, -, rfl⟩
    · omega
    · have hlt := lt_length_of_getElem?_reverse hi
      exact iff_of_true rfl (by omega)
    · exact iff_of_false Bool.noConfusion (by omega)
  flow_iff d f hd hf := by
    rcases frameAt?_document_cases hf with ⟨rfl, -⟩ | ⟨c, i, rfl, hi, rfl⟩ | ⟨c, i, rfl, -, rfl⟩
    · omega
    · have hlt := lt_length_of_getElem?_reverse hi
      exact iff_of_false Bool.noConfusion (by omega)
    · exact iff_of_true rfl (by omega)
  increasing d e f g hd hlt he hf hg := by
    rcases frameAt?_document_cases hf with ⟨rfl, -⟩ | ⟨c, i, rfl, hi, rfl⟩ | ⟨c, i, rfl, -, -⟩
    · omega
    · rcases frameAt?_document_cases hg with ⟨rfl, -⟩ | ⟨c', j, rfl, hj, rfl⟩ | ⟨_, j, rfl, -, -⟩
      · omega
      · exact rank_lt_of_getElem?_reverse ranked (by omega) hi hj
      · omega
    · omega
  ranked d f hf hblock := by
    rcases frameAt?_document_cases hf with ⟨-, rfl⟩ | ⟨c, i, -, -, rfl⟩ | ⟨c, i, -, -, rfl⟩
    · cases hblock
    · exact rankedByShape_block c
    · cases hblock
  inFlow_iff := by
    rw [inFlow_document, Bool.not_eq_true', List.isEmpty_eq_false_iff]
    constructor
    · intro hne
      obtain ⟨f, hf, hflow⟩ := exists_frameAt?_flow hne
      exact ⟨_, f, hf, hflow⟩
    · rintro ⟨d, f, hf, hflow⟩ rfl
      rcases frameAt?_document_cases hf with ⟨-, rfl⟩ | ⟨c, i, -, -, rfl⟩ | ⟨c, i, -, hi, -⟩
      · cases hflow
      · cases hflow
      · cases hi
  flowDepth d hd := by
    by_cases hflows : flows = []
    · rw [Stack.document, if_pos hflows] at hd
      cases hd
    · rw [Stack.document, if_neg hflows, Option.some.injEq] at hd
      subst hd
      -- Below that depth there are only the document and the block collections.
      refine ⟨exists_frameAt?_flow hflows, ?_⟩
      intro e f he hf
      rcases frameAt?_document_cases hf with ⟨-, rfl⟩ | ⟨c, i, -, -, rfl⟩ | ⟨c, i, rfl, -, -⟩
      · rfl
      · rfl
      · omega

theorem Sound.exists_layered {s : Stack} (h : s.Sound) : ∃ split, s.Layered split := by
  rcases h with _ | ⟨flows, blocks, ranked⟩
  · exact ⟨1, layered_closed⟩
  · exact ⟨blocks.length + 1, layered_document ranked⟩

/-!
## Entries

An entry that is made room for finds the collection it belongs to innermost, and of its own shape.
In the block layer this is a matter of parity: where the ranks are equal, so are the shapes
(`shape_eq_of_rank_eq`). That is all that keeps a dash from being taken for an entry of a mapping.
-/

/-- Ranks tell shapes apart. -/
theorem shape_eq_of_rank_eq {shape shape' : Shape} {column column' : Nat}
    (h : (Opener.block shape).rank column = (Opener.block shape').rank column') :
    shape = shape' := by
  rcases shape with _ | _ <;> rcases shape' with _ | _
  · rfl
  · change 2 * column + 1 = 2 * column' + 2 at h
    omega
  · change 2 * column + 2 = 2 * column' + 1 at h
    omega
  · rfl

/-- Outside flow collections, an entry leaves a collection of its own shape innermost. Its token
comes last, behind tokens of other sorts. -/
theorem Entered.kinds {s s' : Stack} {shape : Shape} {column : Nat} {tokens : List Token}
    (h : Entered shape column s s' tokens) (hflow : s.inFlow = false) :
    ∃ outer marks, s'.frames.map Frame.kind = shape.startToken :: outer ∧
      tokens = marks ++ [shape.entryToken] ∧ shape.entryToken ∉ marks := by
  have hends (cs : List Collection) : shape.entryToken ∉ endTokens cs := by
    intro hmem
    obtain ⟨c, -, hc⟩ := List.mem_map.mp hmem
    rcases shape with _ | _ <;> rcases hshape : c.shape with _ | _ <;>
      · rw [hshape] at hc
        cases hc
  rcases h with _ | _ | ⟨ranked, cut, head⟩ | ⟨ranked, cut, head⟩
  · refine ⟨[.directivesEnd], [.directivesEnd, shape.startToken], rfl, rfl, ?_⟩
    rcases shape with _ | _ <;> decide
  · cases hflow
  · rename_i inner outer
    -- The innermost of the collections that stay has the rank of the entry, and so its shape.
    rcases outer with _ | ⟨c, outer⟩
    · cases head
    · have hrank : c.rank = (Opener.block shape).rank column := by simpa using head
      obtain rfl : c.shape = shape := shape_eq_of_rank_eq hrank
      exact ⟨_, endTokens inner, rfl, rfl, hends inner⟩
  · rename_i inner outer
    refine ⟨_, endTokens inner ++ [shape.startToken], rfl, ?_, ?_⟩
    · rw [List.append_assoc]
      rfl
    · rw [List.mem_append, not_or]
      refine ⟨hends inner, ?_⟩
      rcases shape with _ | _ <;> decide

end Stack

/-- The collection that a construct is an entry of, wherever it stands: a key of a mapping, or an
entry of a sequence. -/
def Construct.entryOf? : Construct → Option Shape
  | .scalar _ true => some .mapping
  | .entry => some .sequence
  | _ => none

namespace Stack

theorem apply_of_entryOf? {s s' : Stack} {c : Construct} {shape : Shape} {column : Nat}
    {tokens : List Token} (hc : c.entryOf? = some shape)
    (henter : s.enter shape column = ⟨s', .ok tokens⟩) :
    s.apply column c = ⟨s', .ok (tokens ++ c.own?.toList)⟩ := by
  rcases c with _ | ⟨kind, _ | _⟩ | _ | _ | _ | _ | _ | _
  case scalar.true =>
    cases hc
    rw [Stack.apply, henter]
    rfl
  case entry =>
    cases hc
    rw [Stack.apply, henter]
    exact congrArg (fun tokens ↦ (⟨s', .ok tokens⟩ : Nesting)) (List.append_nil tokens).symm
  all_goals cases hc

/-- The same for a construct that is an entry. Behind the token of the entry there is only its
own. -/
theorem Sound.apply_entry {s : Stack} (h : s.Sound) (hflow : s.inFlow = false) {c : Construct}
    {shape : Shape} (hc : c.entryOf? = some shape) (column : Nat) :
    ∃ s' outer marks, s.apply column c = ⟨s', .ok (marks ++ shape.entryToken :: c.own?.toList)⟩ ∧
      s'.frames.map Frame.kind = shape.startToken :: outer ∧ shape.entryToken ∉ marks := by
  obtain ⟨s', tokens, hentered⟩ := h.exists_entered shape column
  obtain ⟨outer, marks, hkinds, rfl, hmarks⟩ := hentered.kinds hflow
  refine ⟨s', outer, marks, ?_, hkinds, hmarks⟩
  rw [apply_of_entryOf? hc hentered.enter_eq, List.append_assoc, List.singleton_append]

end Stack

end YamlLexer
