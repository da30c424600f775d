import Mathlib.Data.List.Basic
import YamlLexer.Proofs.Nesting.FlowRules
import YamlLexer.Proofs.Nesting.Levels
import YamlLexer.Proofs.Refusals

/-!
# What a closing bracket ends

A closing bracket looks for a collection of its shape, from the inside out, and does not ask what
opened it. It ends the first one that it finds and everything in that, be it collections in brackets
or collections that indentation opened. So a stack is cut in two: what is above the cut is closed,
each structure with the token of its own kind, and what is below stays as it is
(`Stack.exists_close_append`). The document is never above the cut, as it is no collection and all
others lie on it (`Stack.Sound.exists_closeFlow`).

The depth at which flow rules were switched on is that of the outermost flow collection, so they hold
afterwards just when there is one below the cut. The closing tokens are delivered one at a time, and
`deliveries_of_closer` is what a client gets to see.
-/

namespace YamlLexer

namespace Frame

variable {f : Frame}

/-- The structure is a mapping or a sequence, whatever opened it. -/
def IsCollection (f : Frame) : Prop := ∃ shape : Shape, f.kind = shape.startToken

theorem not_isCollection_document : ¬Frame.document.IsCollection := by
  rintro ⟨_ | _, hkind⟩
  · cases hkind
  · cases hkind

theorem IsCollection.exists_closing? (h : f.IsCollection) :
    ∃ token, f.kind.closing? = some token ∧ token ≠ .documentEnd := by
  obtain ⟨shape, hkind⟩ := h
  refine ⟨shape.endToken, hkind ▸ shape.closing?_startToken, ?_⟩
  cases shape with
  | mapping => decide
  | sequence => decide

end Frame

namespace Stack

variable {s : Stack} {f : Frame} {inner below : List Frame} {shape : Shape}

/-!
## The cut

Closing stops at nothing if each structure has a closing token, so the tokens can be read off the
structures (`exists_close_append`). Where to stop is found by a search from the inside out, and of
the collections of the shape the innermost is the first to be found, hence the last to be closed.
-/

/-- Structures that a token closes are closed with it, one after the other. -/
theorem exists_close_append (frames : s.frames = inner ++ below)
    (closing : ∀ g ∈ inner, ∃ token, g.kind.closing? = some token) :
    ∃ s' tokens, s.close inner.length = ⟨s', .ok tokens⟩ ∧
      tokens.map some = inner.map (·.kind.closing?) := by
  induction inner generalizing s with
  | nil => exact ⟨s, [], rfl, rfl⟩
  | cons g inner ih =>
    obtain ⟨⟨token, htoken⟩, hinner⟩ := List.forall_mem_cons.mp closing
    have houter : s.leaving (s.leaving (inner ++ below)).frames = s.leaving (inner ++ below) := rfl
    obtain ⟨s', tokens, hclose, htokens⟩ := ih (s := s.leaving (inner ++ below)) rfl hinner
    refine ⟨s', token :: tokens, ?_, ?_⟩
    · rw [List.length_cons, close_succ frames houter (Frame.closers_of_closing? htoken), hclose]
      rfl
    · rw [List.map_cons, List.map_cons, htokens, htoken]

/-- The innermost collection of the shape is the last one to be closed. -/
theorem closeFlow_of_frames (frames : s.frames = inner ++ f :: below)
    (found : f.kind = shape.startToken) (innermost : ∀ g ∈ inner, g.kind ≠ shape.startToken) :
    s.closeFlow shape = s.close (inner.length + 1) := by
  have hinner : inner.findIdx? (·.kind = shape.startToken) = none := by
    simpa using innermost
  have hindex : s.frames.findIdx? (·.kind = shape.startToken) = some inner.length := by
    rw [frames, List.findIdx?_append, hinner, List.findIdx?_cons, found]
    simp
  rw [closeFlow, hindex]

/-!
## What lies above it

A sound stack ends with a document, if it is not empty, and has only collections above. So a
collection has the document below it and none above it.
-/

theorem Sound.frames_cases (h : s.Sound) :
    s.frames = [] ∨ ∃ collections, s.frames = collections ++ [.document] ∧
      ∀ g ∈ collections, g.IsCollection := by
  cases h with
  | closed => exact .inl rfl
  | document flows blocks =>
    refine .inr ⟨_, (List.append_assoc _ _ _).symm, ?_⟩
    intro g hg
    rw [List.mem_append, List.mem_map, List.mem_map] at hg
    obtain ⟨c, -, rfl⟩ | ⟨c, -, rfl⟩ := hg
    · exact ⟨c.shape, rfl⟩
    · exact ⟨c.shape, rfl⟩

/-- Below every collection is the document, and above it are collections only. -/
theorem Sound.exists_outer (h : s.Sound) (frames : s.frames = inner ++ f :: below)
    (found : f.kind = shape.startToken) :
    ∃ outer, below = outer ++ [.document] ∧ ∀ g ∈ inner ++ f :: outer, g.IsCollection := by
  obtain hnil | ⟨collections, hframes, hcollections⟩ := h.frames_cases
  · rw [frames] at hnil
    exact absurd hnil (by simp)
  rw [frames] at hframes
  obtain rfl | ⟨outer, g, rfl⟩ := below.eq_nil_or_concat
  · -- The document is no collection, so there is something below `f`.
    obtain ⟨-, hdocument⟩ := List.append_inj' hframes rfl
    obtain rfl : f = .document := (List.cons.inj hdocument).1
    exact absurd ⟨shape, found⟩ Frame.not_isCollection_document
  · rw [List.concat_eq_append, ← List.cons_append, ← List.append_assoc] at hframes
    obtain ⟨rfl, hdocument⟩ := List.append_inj' hframes rfl
    exact ⟨outer, by rw [List.concat_eq_append, hdocument], hcollections⟩

theorem Sound.exists_closeFlow (h : s.Sound) (frames : s.frames = inner ++ f :: below)
    (found : f.kind = shape.startToken) (innermost : ∀ g ∈ inner, g.kind ≠ shape.startToken) :
    ∃ s' tokens, s.closeFlow shape = ⟨s', .ok tokens⟩ ∧
      tokens.map some = (inner ++ [f]).map (·.kind.closing?) ∧ .documentEnd ∉ tokens ∧
      s'.rootKind = s.rootKind ∧ s'.frames = below ∧ below.getLast? = some .document := by
  obtain ⟨outer, hbelow, hcollections⟩ := h.exists_outer frames found
  have hcut : s.frames = (inner ++ [f]) ++ below := by
    rw [frames, List.append_assoc, List.singleton_append]
  have habove : ∀ g ∈ inner ++ [f], ∃ token, g.kind.closing? = some token ∧ token ≠ .documentEnd := by
    intro g hg
    have hmem : g ∈ (inner ++ [f]) ++ outer := List.mem_append_left outer hg
    rw [List.append_assoc, List.singleton_append] at hmem
    exact (hcollections g hmem).exists_closing?
  -- Everything above the cut is a collection, so closing does not stop on the way.
  obtain ⟨s', tokens, hclose, htokens⟩ := exists_close_append hcut fun g hg ↦
    (habove g hg).imp fun _ ↦ And.left
  refine ⟨s', tokens, ?_, htokens, ?_, ?_, ?_, ?_⟩
  · rw [List.length_append, List.length_singleton] at hclose
    rw [Stack.closeFlow_of_frames frames found innermost, hclose]
  · intro hmem
    have hsome : some Token.documentEnd ∈ (inner ++ [f]).map (·.kind.closing?) :=
      htokens ▸ List.mem_map_of_mem hmem
    obtain ⟨g, hg, hgend⟩ := List.mem_map.mp hsome
    obtain ⟨token, htoken, hne⟩ := habove g hg
    exact hne (Option.some.inj (htoken.symm.trans hgend))
  · rw [← s.rootKind_close (inner ++ [f]).length, hclose]
  · rw [frames_close hclose, hcut, List.drop_left]
  · rw [hbelow, List.getLast?_concat]

end Stack

namespace Lexer

/-! ## The scan -/

/-- A client that overrides nothing meets a closing bracket, and some collection of its shape is open.
Let `f` be the innermost one. The pulls from here on deliver the closing tokens of the structures in
it and then its own, and nothing else. They leave the structures that `f` lies on, the last of which
is the document, and flow rules hold just if one of them was opened by a bracket. -/
theorem deliveries_of_closer (c : Cursor) {cs : List Call}
    (plain : ∀ kind, Call.setContext kind ∉ cs) {p : Nat} {shape : Shape} {inner below : List Frame}
    {f : Frame} :
    let l := (ofCursor c).calls cs
    let tokens := (l.deliveries (inner.length + 1)).map Delivery.token
    let m := l.pulled (inner.length + 1)
    l.failure = none → l.pending = [] → l.Meets p shape.closer.toNat.toUInt8 →
      l.stack.frames = inner ++ f :: below → f.kind = shape.startToken →
      (∀ g ∈ inner, g.kind ≠ shape.startToken) →
      tokens.map some = (inner ++ [f]).map (·.kind.closing?) ∧ .documentEnd ∉ tokens ∧
      m.failure = none ∧ m.pending = [] ∧
      l.next.2.stack = m.stack ∧ m.stack.rootKind = l.stack.rootKind ∧ m.stack.frames = below ∧
      below.getLast? = some .document ∧ (m.inFlow = true ↔ ∃ g ∈ below, g.isFlow = true) := by
  intro l tokens m running queue hmeets frames found innermost
  have hsound : l.stack.Sound := sound_calls .closed plain
  obtain ⟨stack, closers, hclose, hclosers, hend, hroot, hframes, hdocument⟩ :=
    hsound.exists_closeFlow frames found innermost
  have hfound : l.nextReading.found = .ok (.flowEnd shape) :=
    congrArg Reading.found hmeets.reading_of_closer
  have heffect : l.stack.apply l.nextPlace.column (.flowEnd shape) = ⟨stack, .ok closers⟩ := hclose
  have hmarked : stack.FlowMarked := by
    have happly := (flowMarked_calls c cs).apply l.nextPlace.column (.flowEnd shape)
    rwa [heffect] at happly
  -- The scan lines the tokens up, and they are delivered one by one.
  have hlength : closers.length = inner.length + 1 := by
    simpa using congrArg List.length hclosers
  have hproper : closers ≠ [] := List.ne_nil_of_length_eq_add_one hlength
  obtain ⟨hdeliveries, hpulled⟩ := deliveries_scanned running queue hfound heffect hproper
  rw [hlength] at hdeliveries hpulled
  have htokens : tokens = closers := hdeliveries
  have hstack : m.stack = stack := congrArg Lexer.stack hpulled
  rw [htokens, hstack, inFlow, hstack, hmarked.inFlow_iff, hframes]
  refine ⟨hclosers, hend, ?_, ?_, ?_, hroot, rfl, hdocument, Iff.rfl⟩
  · exact (congrArg Lexer.failure hpulled).trans running
  · exact congrArg Lexer.pending hpulled
  · rw [next_of_scanned running queue hfound heffect]

/-- A closing brace in a flow sequence that is the value of a key. The mapping that it ends is the one
that indentation opened for the key, so the sequence is closed with it, and flow rules end. -/
theorem deliveries_of_closer_key :
    let c := Cursor.ofBytes [0x6B, 0x3A, 0x20, 0x5B, 0x61, 0x7D]
    let cs : List Call := List.replicate 6 .next
    let l := (ofCursor c).calls cs
    let inner : List Frame := [{ opener := .flow .sequence, column := 3 }]
    let mapping : Frame := { opener := .block .mapping, column := 0 }
    let m := l.pulled (inner.length + 1)
    l.stack.frames = inner ++ mapping :: [.document] ∧ l.inFlow = true ∧
      (l.deliveries (inner.length + 1)).map Delivery.token = [.sequenceEnd, .mappingEnd] ∧
      m.stack.frames = [.document] ∧ ¬m.inFlow = true := by
  intro c cs l inner mapping m
  have hplain : ∀ kind, Call.setContext kind ∉ cs := by simp [cs]
  have hmeets : l.Meets 5 (Shape.closer .mapping).toNat.toUInt8 := meets_iff.mpr (by decide)
  have hmain := @deliveries_of_closer c cs hplain 5 .mapping inner [.document] mapping (by decide)
    (by decide) hmeets (by decide) rfl (by decide)
  obtain ⟨htokens, -, -, -, -, -, -, -, hflow⟩ := hmain
  have hdeliveries : (l.deliveries (inner.length + 1)).map Delivery.token =
      [.sequenceEnd, .mappingEnd] :=
    List.map_injective_iff.mpr (Option.some_injective Token) htokens
  have hended : ¬m.inFlow = true := fun hm ↦ absurd (hflow.mp hm) (by decide)
  exact ⟨by decide, by decide, hdeliveries, by decide, hended⟩

end Lexer

end YamlLexer
