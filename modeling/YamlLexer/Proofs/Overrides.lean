import YamlLexer.Proofs.Nesting.Changes
import YamlLexer.Proofs.Nesting.Levels
import YamlLexer.Proofs.Position

/-!
# Overrides that do no harm

A client may override the kind of the innermost structure, and this can bring disorder: a document
in the middle of the stack, a collection without a kind, or a second document inside that. Scans
then open documents at unusual depths, and close across them. But the one error that is about the
stack itself cannot come of it, as long as each kind that the client sets is one that something
closes, or `nothing`, which takes no closing.

The reason is that no operation looks at a structure below the innermost one but to close it, and
that the structures which the lexer opens by itself have such kinds too. So `Stack.Closable`, which
says that all kinds are of this sort, is kept by every operation in whatever order they come
(`Stack.Closable.apply`), and a stack of which this holds is closed without an error.

The stream itself is never closed. Its level stays the outermost one and of rank zero, whatever has
been overridden, be it its own kind (`levels_calls`). A stack has no frame for the stream that could
be lost; where the stream is a level in memory like any other, the same is
`Words.Nest.root_changes`.
-/

namespace YamlLexer

/-- The kinds that a structure can be closed with: those that a token closes, and `nothing`. -/
def Token.closable : List Token := [.nothing, .mappingStart, .sequenceStart, .directivesEnd]

theorem Shape.startToken_mem_closable (shape : Shape) : shape.startToken ∈ Token.closable := by
  rcases shape with _ | _
  · decide
  · decide

theorem Opener.token_mem_closable (opener : Opener) : opener.token ∈ Token.closable := by
  rcases opener with _ | shape | shape
  · decide
  · exact shape.startToken_mem_closable
  · exact shape.startToken_mem_closable

theorem Frame.exists_closers {f : Frame} (h : f.kind ∈ Token.closable) :
    ∃ tokens, f.closers = .ok tokens := by
  obtain ⟨opener, column, kind⟩ := f
  obtain rfl | rfl | rfl | rfl : kind = .nothing ∨ kind = .mappingStart ∨
      kind = .sequenceStart ∨ kind = .directivesEnd := by
    simpa [Token.closable] using h
  · exact ⟨[], rfl⟩
  · exact ⟨[.mappingEnd], rfl⟩
  · exact ⟨[.sequenceEnd], rfl⟩
  · exact ⟨[.documentEnd], rfl⟩

/-! ## Stacks that can be closed -/

/-- All structures of a stack can be closed, and the stack has one of these kinds also when nothing
is open. -/
structure Stack.Closable (s : Stack) : Prop where
  root : s.rootKind ∈ Token.closable
  frames : ∀ f ∈ s.frames, f.kind ∈ Token.closable

/-- The fault is not that a structure cannot be closed. -/
def NestingFault.SparesContext (fault : NestingFault) : Prop := ∀ kind, fault ≠ .unclosable kind

namespace Stack.Closable

variable {s : Stack}

theorem level (h : s.Closable) {level : Level} (hmem : level ∈ s.levels) :
    level.kind ∈ Token.closable := by
  rcases List.mem_cons.mp hmem with rfl | hmem
  · exact h.root
  · obtain ⟨f, hf, rfl⟩ := List.mem_map.mp hmem
    exact h.frames f (List.mem_reverse.mp hf)

theorem setKind (h : s.Closable) {kind : Token} (hkind : kind ∈ Token.closable) :
    (s.setKind kind).Closable := by
  rw [Stack.setKind]
  split
  · exact ⟨hkind, h.frames⟩
  · rename_i f below hframes
    have hbelow := h.frames
    rw [hframes] at hbelow
    exact ⟨h.root, List.forall_mem_cons.mpr ⟨hkind, (List.forall_mem_cons.mp hbelow).2⟩⟩

theorem push (h : s.Closable) (opener : Opener) (column : Nat) :
    (s.push opener column).Closable :=
  ⟨h.root, List.forall_mem_cons.mpr ⟨opener.token_mem_closable, h.frames⟩⟩

theorem leaving (h : s.Closable) {f : Frame} {below : List Frame}
    (hframes : s.frames = f :: below) : (s.leaving below).Closable := by
  have hmem := h.frames
  rw [hframes] at hmem
  exact ⟨h.root, (List.forall_mem_cons.mp hmem).2⟩

theorem closers_ne_error (h : s.Closable) {f : Frame} {below : List Frame}
    (hframes : s.frames = f :: below) (fault : NestingFault) : f.closers ≠ .error fault := by
  have hmem := h.frames
  rw [hframes] at hmem
  obtain ⟨tokens, hclosers⟩ := Frame.exists_closers (List.forall_mem_cons.mp hmem).1
  rw [hclosers]
  rintro ⟨⟩

theorem exists_close (h : s.Closable) (n : Nat) : ∃ s' tokens, s.close n = ⟨s', .ok tokens⟩ := by
  have hclose : (s.close n).Keeps Stack.Closable fun _ ↦ False :=
    keeps_close (fun s f below hframes h ↦ h.leaving hframes)
      (fun s f below fault hframes hfault h ↦ h.closers_ne_error hframes fault hfault) h n
  rcases hnesting : s.close n with ⟨s', fault | tokens⟩
  · rw [hnesting] at hclose
    exact (hclose.fault fault rfl).elim
  · exact ⟨s', tokens, rfl⟩

/-- No construct gets at a structure that cannot be closed, and none makes one. -/
theorem apply (h : s.Closable) (column : Nat) (c : Construct) :
    (s.apply column c).Keeps Stack.Closable NestingFault.SparesContext := by
  refine keeps_apply ?push ?switch ?leave ?reset ?unclosable ?unopened h column c
  case push => exact fun s opener column _ h ↦ h.push opener column
  case switch =>
    intro s shape column h
    have hpush := h.push (.flow shape) column
    exact ⟨hpush.root, hpush.frames⟩
  case leave => exact fun s f below hframes h ↦ h.leaving hframes
  case reset => exact fun s h ↦ ⟨List.mem_cons_self, h.frames⟩
  case unclosable =>
    exact fun s f below fault hframes hfault h ↦ absurd hfault (h.closers_ne_error hframes fault)
  case unopened => exact fun shape kind hkind ↦ nomatch hkind

end Stack.Closable

/-!
## Clients

An error is kept by the lexer, so the invariant also says of it that it is not about a structure
which cannot be closed.
-/

namespace LexError

def SparesContext (e : LexError) : Prop := ∀ kind m, e ≠ .invalidContext kind m

end LexError

theorem Refusal.sparesContext_error (r : Refusal) (p : Place) : (r.error p).SparesContext := by
  intro kind m herror
  rcases r with _ | _
  · cases herror
  · cases herror

theorem NestingFault.SparesContext.error {fault : NestingFault} (h : fault.SparesContext)
    (m : Mark) : (fault.error m).SparesContext := by
  intro kind m' herror
  rcases fault with kind' | shape
  · exact h kind' rfl
  · cases herror

namespace Lexer

/-- Nothing is open that cannot be closed, and there has been no error about that. -/
structure Closable (l : Lexer) : Prop where
  stack : l.stack.Closable
  failure : ∀ e, l.failure = some e → e.SparesContext

variable {l l' : Lexer}

theorem closable_ofCursor (c : Cursor) : (ofCursor c).Closable :=
  ⟨⟨List.mem_cons_self, fun _ hmem ↦ absurd hmem List.not_mem_nil⟩, fun _ herror ↦ nomatch herror⟩

theorem Closable.pull {answer : Except LexError Token} (h : l.Closable)
    (hpull : l.Pull answer l') : l'.Closable := by
  rcases hpull with _ | _ | @⟨refusal⟩ | @⟨c, stack, fault, _, _, _, effect⟩ |
    @⟨c, stack, tokens, failure, _, _, effect⟩
  · exact h
  · exact ⟨h.stack, h.failure⟩
  · refine ⟨h.stack, ?_⟩
    rintro e ⟨rfl⟩
    exact refusal.sparesContext_error _
  · have happly := h.stack.apply l.nextPlace.column c
    rw [effect] at happly
    refine ⟨happly.stack, ?_⟩
    rintro e ⟨rfl⟩
    exact (happly.fault fault rfl).error _
  · have happly := h.stack.apply l.nextPlace.column c
    rw [effect] at happly
    exact ⟨happly.stack, h.failure⟩

theorem closable_calls (c : Cursor) {cs : List Call}
    (closable : ∀ kind, Call.setContext kind ∈ cs → kind ∈ Token.closable) :
    ((ofCursor c).calls cs).Closable := by
  refine calls_induction_of_mem Closable.pull ?_ ?_ (closable_ofCursor c)
  · intro l token _ h
    exact ⟨h.stack, h.failure⟩
  · intro l kind hmem h
    exact ⟨h.stack.setKind (closable kind hmem), h.failure⟩

/-- A client that overrides with closable kinds only, and whatever else it does: it never gets the
error that a structure cannot be closed. Every level of the stack has a closable kind. The stream is
the outermost one and has rank zero, and if levels are taken off, it is the one that remains. -/
theorem levels_calls (c : Cursor) (cs : List Call)
    (closable : ∀ kind, Call.setContext kind ∈ cs → kind ∈ Token.closable) :
    let l := (ofCursor c).calls cs
    (∀ e, l.next.1 = .error e ∨ l.next?.1 = some (.error e) ∨ l.current.1 = .error e →
      ∀ kind m, e ≠ .invalidContext kind m) ∧
    (∀ level ∈ l.stack.levels, level.kind ∈ Token.closable) ∧
    l.stack.levels.head? = some ⟨l.stack.rootKind, 0⟩ ∧
    l.stack.levels.getLast? = some ⟨l.context, l.indent⟩ ∧
    l.stack.levels.length = l.depth + 1 ∧
    ∀ n, ∃ s tokens, l.stack.close n = ⟨s, .ok tokens⟩ ∧
      s.levels = l.stack.levels.take (max 1 (l.stack.levels.length - n)) := by
  intro l
  have h : l.Closable := closable_calls c closable
  refine ⟨?_, fun level hmem ↦ h.stack.level hmem, rfl, l.stack.getLast?_levels,
    l.stack.length_levels, ?_⟩
  · intro e he
    have hpull := l.pull_next
    have hclosable := h.pull hpull
    rw [fst_next_of_error he] at hpull
    exact hclosable.failure e hpull.failure_eq
  · intro n
    obtain ⟨s, tokens, hclose⟩ := h.stack.exists_close n
    exact ⟨s, tokens, hclose, Stack.levels_close hclose⟩

/-- A mapping in a sequence that is made to have no kind. So the mapping gets a document of its own,
at depth three. Closing more than there is leaves the stream. -/
theorem levels_calls_second_document :
    let cs : List Call := [.next, .setContext .nothing, .next, .next]
    let l := (ofCursor (Cursor.ofBytes [0x5B, 0x7B])).calls cs
    (∀ kind, Call.setContext kind ∈ cs → kind ∈ Token.closable) ∧
      l.stack.levels.map Level.kind =
        [.nothing, .directivesEnd, .nothing, .directivesEnd, .mappingStart] ∧
      ∃ s tokens, l.stack.close 9 = ⟨s, .ok tokens⟩ ∧ s.levels = [⟨.nothing, 0⟩] := by
  intro cs l
  have hclosable : ∀ kind, Call.setContext kind ∈ cs → kind ∈ Token.closable := by
    intro kind hmem
    obtain rfl : kind = .nothing := by simpa [cs] using hmem
    exact List.mem_cons_self
  obtain ⟨-, -, -, -, -, hclose⟩ := levels_calls (Cursor.ofBytes [0x5B, 0x7B]) cs hclosable
  obtain ⟨s, tokens, hs, hlevels⟩ := hclose 9
  exact ⟨hclosable, by decide, s, tokens, hs, hlevels.trans (by decide)⟩

end Lexer

end YamlLexer
