import YamlLexer.Proofs.Regular

/-!
# Balance

A client that builds a tree from the tokens relies on their nesting: whatever starts is ended, by
the token of its own shape, and collections stand in documents. `Balance.run` is that client with
everything but the nesting left out, a pushdown automaton over the tokens. The main result is
`exists_run_deliveries`: on no input does the automaton get stuck, not even on the way to an error.

## The invariant

Tokens are lined up when a construct is scanned and delivered later, so the structures that are
open to a client lag behind the stack. They differ by the tokens in line: run over the tokens
delivered, and then over those in line, the automaton reaches the stack.

## The automaton

All that `Balance.step` knows is which structures are open, each by the token that started it. A
document stands in nothing, and a collection in a document or in another collection. Keys, entries
and scalars open and close nothing, and are passed over.

There is one exception, and it is part of the specification: where no document is open, an end
marker is announced all the same, as the end of a document that has no start. The automaton takes
such a token only from a pull that has itself scanned a marker with nothing open
(`Delivery.isStray`).
-/

namespace YamlLexer

namespace Balance

/-- One token more. The open structures are listed innermost first, each as the token that started
it. The end of a document without its start is passed over if it is marked as `stray`. -/
def step (opened : List Token) (token : Token) (stray : Bool) : Option (List Token) :=
  match token, opened with
  | .directivesEnd, [] => some [.directivesEnd]
  | .directivesEnd, _ :: _ => none
  | .mappingStart, [] | .sequenceStart, [] => none
  | .mappingStart, _ :: _ | .sequenceStart, _ :: _ => some (token :: opened)
  | .mappingEnd, .mappingStart :: outer => some outer
  | .mappingEnd, _ => none
  | .sequenceEnd, .sequenceStart :: outer => some outer
  | .sequenceEnd, _ => none
  | .documentEnd, [.directivesEnd] => some []
  | .documentEnd, [] => if stray then some [] else none
  | .documentEnd, _ => none
  | _, _ => some opened

def run (opened : List Token) : List (Token × Bool) → Option (List Token)
  | [] => some opened
  | (token, stray) :: tokens => (step opened token stray).bind (run · tokens)

/-- Tokens of which none is stray. -/
def plain (tokens : List Token) : List (Token × Bool) := tokens.map (·, false)

variable {opened outer : List Token}

@[simp] theorem run_nil : run opened [] = some opened := rfl

theorem run_append (xs ys : List (Token × Bool)) :
    run opened (xs ++ ys) = (run opened xs).bind (run · ys) := by
  induction xs generalizing opened with
  | nil => rfl
  | cons x xs ih =>
    rw [List.cons_append, run, run, Option.bind_assoc]
    exact Option.bind_congr fun opened _ ↦ ih

theorem run_plain_append (xs ys : List Token) :
    run opened (plain (xs ++ ys)) = (run opened (plain xs)).bind (run · (plain ys)) := by
  rw [plain, List.map_append, run_append]
  rfl

theorem run_plain_singleton (token : Token) :
    run opened (plain [token]) = step opened token false := by
  rw [plain, List.map_singleton, run]
  exact Option.bind_fun_some _

theorem step_stray {token : Token} {stray : Bool} (h : step opened token false = some outer) :
    step opened token stray = some outer := by
  cases stray with
  | false => exact h
  | true =>
    revert h
    cases token <;> rcases opened with _ | ⟨_ | _, _ | _⟩ <;> simp [step]

theorem step_of_hasLexeme {token : Token} (h : token.hasLexeme = true ∨ token = .mappingKey ∨
    token = .sequenceEntry ∨ token = .nothing) (stray : Bool) :
    step opened token stray = some opened := by
  cases token <;> simp [Token.hasLexeme] at h <;> rfl

theorem step_startToken (h : opened ≠ []) (shape : Shape) :
    step opened shape.startToken false = some (shape.startToken :: opened) := by
  cases opened with
  | nil => exact absurd rfl h
  | cons token opened => cases shape <;> rfl

theorem step_endToken (shape : Shape) :
    step (shape.startToken :: opened) shape.endToken false = some opened := by
  cases shape <;> rfl

theorem run_endTokens (cs : List Collection) :
    run (cs.map (·.shape.startToken) ++ opened) (plain (endTokens cs)) = some opened := by
  induction cs with
  | nil => rfl
  | cons c cs ih =>
    change (step _ c.shape.endToken false).bind (run · (plain (endTokens cs))) = _
    rw [List.map_cons, List.cons_append, step_endToken, Option.bind_some, ih]

/-!
## Constructs

One lemma for each sort of change of the stack. The equations for `Stack.document` name the tokens,
and the automaton goes through them from the structures that were open to those that will be.
-/

/-- The open structures of a stack, as a client knows them. -/
def openedBy (s : Stack) : List Token := s.frames.map Frame.kind

variable {s s' : Stack} {tokens : List Token} {flows blocks : List Collection}

theorem openedBy_document : openedBy (.document flows blocks) =
    (flows ++ blocks).map (·.shape.startToken) ++ [.directivesEnd] := Stack.kinds_document

theorem openedBy_document_ne_nil : openedBy (.document flows blocks) ≠ [] := by
  simp [openedBy_document]

theorem run_entry (shape : Shape) : run opened (plain [shape.entryToken]) = some opened := by
  rw [run_plain_singleton]
  cases shape <;> rfl

theorem run_start_entry (h : opened ≠ []) (shape : Shape) :
    run opened (plain [shape.startToken, shape.entryToken]) =
      some (shape.startToken :: opened) := by
  change (step opened shape.startToken false).bind (run · (plain [shape.entryToken])) = _
  rw [step_startToken h, Option.bind_some, run_entry]

theorem run_enter {shape : Shape} {column : Nat} (h : s.Sound)
    (heffect : s.enter shape column = ⟨s', .ok tokens⟩) :
    run (openedBy s) (plain tokens) = some (openedBy s') := by
  obtain ⟨_, _, hentered⟩ := h.exists_entered shape column
  rw [hentered.enter_eq] at heffect
  cases heffect
  cases hentered with
  | first =>
    change run [.directivesEnd] (plain [shape.startToken, shape.entryToken]) = _
    rw [run_start_entry (by simp)]
    rfl
  | flow c flows blocks => exact run_entry shape
  | sibling =>
    rw [run_plain_append, openedBy_document, List.nil_append, List.map_append, List.append_assoc,
      run_endTokens, Option.bind_some, run_entry, openedBy_document, List.nil_append]
  | nested =>
    rw [run_plain_append, openedBy_document, List.nil_append, List.map_append, List.append_assoc,
      run_endTokens, Option.bind_some, run_start_entry (by simp), openedBy_document]
    rfl

theorem run_openFlow {shape : Shape} {column : Nat} (h : s.Sound)
    (heffect : s.openFlow shape column = ⟨s', .ok tokens⟩) :
    run (openedBy s) (plain tokens) = some (openedBy s') := by
  cases h with
  | closed =>
    rw [Stack.openFlow_closed] at heffect
    cases heffect
    cases shape <;> rfl
  | document flows blocks =>
    rw [Stack.openFlow_document] at heffect
    cases heffect
    have hentry : run (openedBy (.document flows blocks))
        (plain (if (Stack.document flows blocks).kind = .sequenceStart then [.sequenceEntry]
          else [])) = some (openedBy (.document flows blocks)) := by
      split
      · exact run_entry .sequence
      · rfl
    rw [run_plain_append, hentry, Option.bind_some, run_plain_singleton,
      step_startToken openedBy_document_ne_nil, openedBy_document, openedBy_document]
    rfl

theorem run_closeFlow {shape : Shape} (h : s.Sound)
    (heffect : s.closeFlow shape = ⟨s', .ok tokens⟩) :
    run (openedBy s) (plain tokens) = some (openedBy s') := by
  cases h with
  | closed =>
    rw [Stack.closeFlow_closed] at heffect
    cases heffect
  | document flows blocks =>
    rw [Stack.closeFlow_document] at heffect
    split at heffect
    · cases heffect
    · rename_i i _
      cases heffect
      have hopened : openedBy (.document flows blocks) =
          ((flows ++ blocks).take (i + 1)).map (·.shape.startToken) ++
            openedBy (.document (flows.drop (i + 1)) (blocks.drop (i + 1 - flows.length))) := by
        rw [openedBy_document, openedBy_document, ← List.drop_append, ← List.append_assoc,
          ← List.map_append, List.take_append_drop]
      rw [hopened, run_endTokens]

theorem run_closing (h : s.Sound) : run (openedBy s) (plain s.closing) = some [] := by
  cases h with
  | closed => rfl
  | document flows blocks =>
    rw [Stack.closing_document, run_plain_append, openedBy_document, run_endTokens,
      Option.bind_some]
    rfl

/-- A construct takes the automaton from the stack before it to the stack behind it, unless it
ends a document where none is open. -/
theorem run_apply {column : Nat} {c : Construct} (h : s.Sound)
    (hown : ∀ token, c.own? = some token → token.hasLexeme = true ∨ token = .mappingKey)
    (hend : c = .documentEnd → s ≠ {})
    (heffect : s.apply column c = ⟨s', .ok tokens⟩) :
    run (openedBy s) (plain tokens) = some (openedBy s') := by
  cases c with
  | single token =>
    cases heffect
    rw [run_plain_singleton]
    exact step_of_hasLexeme ((hown token rfl).imp_right .inl) false
  | scalar kind isKey =>
    have hkind : step (openedBy s') kind false = some (openedBy s') :=
      step_of_hasLexeme ((hown kind rfl).imp_right .inl) false
    cases isKey with
    | false =>
      cases heffect
      rw [run_plain_singleton, hkind]
    | true =>
      rw [Stack.apply] at heffect
      rcases henter : s.enter .mapping column with ⟨inner, fault | first⟩
      · rw [henter] at heffect
        cases heffect
      · rw [henter] at heffect
        cases heffect
        -- The key is announced first, and the token of the scalar changes nothing after that.
        rw [run_plain_append, run_enter h henter, Option.bind_some, run_plain_singleton, hkind]
  | entry => exact run_enter h heffect
  | flowStart shape => exact run_openFlow h heffect
  | flowEnd shape => exact run_closeFlow h heffect
  | documentStart =>
    rw [Stack.apply, h.startDocument] at heffect
    cases heffect
    rw [run_plain_append, run_closing h]
    rfl
  | documentEnd =>
    cases h with
    | closed => exact absurd rfl (hend rfl)
    | document flows blocks =>
      rw [Stack.apply, Stack.endDocument_document] at heffect
      cases heffect
      exact run_closing (.document flows blocks ‹_›)
  | streamEnd =>
    rw [Stack.apply, h.endStream] at heffect
    cases heffect
    exact run_closing h

/-!
## Runs

The first token of a scan is delivered by the pull that scans, and the others by pulls that read
nothing. So only the first can be a stray one, and it is kept apart from the rest (`run_headD`).
-/

end Balance

/-- Whether the token is the end of a document that was never started: it was scanned by this very
pull, no document was open, and there is an end marker in the input. -/
def Delivery.isStray (d : Delivery) : Bool :=
  d.before.pending.isEmpty && d.before.depth == 0 && Reading.isMarker 0x2E d.before.upcoming

/-- The token of a delivery, as the automaton takes it. -/
def Delivery.event (d : Delivery) : Token × Bool := (d.token, d.isStray)

namespace Balance

/-- Where no document is open, an end marker yields a stray token. -/
theorem isStray_of_documentEnd {d : Delivery} (hqueue : d.before.pending = [])
    (hstack : d.before.stack = {}) (hfound : d.before.nextReading.found = .ok .documentEnd) :
    d.isStray = true := by
  rw [Lexer.nextReading_eq] at hfound
  have hmarker := (Reading.reads_of _ _).isMarker hfound
  rw [Delivery.isStray, hqueue, hmarker, Lexer.depth, hstack]
  rfl

theorem run_headD {stray : Bool} {tokens : List Token}
    (h : run opened (plain tokens) = some outer) :
    run opened ((tokens.headD .nothing, stray) :: plain tokens.tail) = some outer := by
  cases tokens with
  | nil =>
    obtain rfl : opened = outer := by simpa [plain] using h
    rw [run, List.headD_nil, step_of_hasLexeme (by simp) stray]
    rfl
  | cons token tokens =>
    obtain ⟨next, hstep, hrest⟩ := Option.bind_eq_some_iff.mp h
    rw [run, List.headD_cons, step_stray hstep]
    exact hrest

theorem run_scanned {l l' : Lexer} {c : Construct} {stack : Stack} {tokens : List Token}
    (h : l.stack.Sound) (hqueue : l.pending = []) (hfound : l.nextReading.found = .ok c)
    (heffect : l.stack.apply l.nextPlace.column c = ⟨stack, .ok tokens⟩) :
    run (openedBy l.stack) ((⟨l, tokens.headD .nothing, l'⟩ : Delivery).event ::
      plain tokens.tail) = some (openedBy stack) := by
  by_cases hend : c = .documentEnd ∧ l.stack = {}
  · -- The one token that the automaton takes only because it is stray.
    obtain ⟨rfl, hstack⟩ := hend
    have hstray : (⟨l, tokens.headD .nothing, l'⟩ : Delivery).isStray = true :=
      isStray_of_documentEnd hqueue hstack hfound
    rw [hstack, Stack.apply, Stack.endDocument_closed] at heffect
    cases heffect
    rw [Delivery.event, hstray, hstack]
    rfl
  · have hown : ∀ token, c.own? = some token → token.hasLexeme = true ∨ token = .mappingKey :=
      fun token htoken ↦ (l.reads_upcoming.hasLexeme hfound htoken).imp_right And.left
    exact run_headD (run_apply h hown (fun hc hstack ↦ hend ⟨hc, hstack⟩) heffect)

/-- The automaton and the lexer agree. -/
structure Agree (ds : List Delivery) (l : Lexer) : Prop where
  regular : l.Regular
  run : run [] (ds.map Delivery.event ++ plain l.pending) = some (openedBy l.stack)

theorem agree_ofBytes (bytes : List Byte) : Agree [] (Lexer.ofBytes bytes) :=
  ⟨Lexer.regular_ofBytes bytes, rfl⟩

theorem agree_ok {ds : List Delivery} {l l' : Lexer} {token : Token} (h : Agree ds l)
    (hpull : l.Pull (.ok token) l') : Agree (ds ++ [⟨l, token, l'⟩]) l' := by
  refine ⟨h.regular.pull hpull, ?_⟩
  have hrun := h.run
  cases hpull with
  | @queued _ pending failure queue =>
    -- The token moves from the line to the history, and nothing else happens.
    have hevent : (⟨l, token, { l with last := token, pending := pending }⟩ : Delivery).event =
        (token, false) := by
      simp [Delivery.event, Delivery.isStray, queue]
    rw [queue] at hrun
    rw [List.map_append, List.map_singleton, hevent, List.append_assoc]
    exact hrun
  | @scanned c stack tokens failure queue found effect =>
    rw [queue, plain, List.map_nil, List.append_nil] at hrun
    rw [List.map_append, List.append_assoc, run_append, hrun, Option.bind_some]
    exact run_scanned h.regular.sound queue found effect

theorem agree_error {ds : List Delivery} {l l' : Lexer} {e : LexError} (h : Agree ds l)
    (hpull : l.Pull (.error e) l') : Agree ds l' := by
  refine ⟨h.regular.pull hpull, ?_⟩
  cases hpull with
  | repeated => exact h.run
  | refused => exact h.run
  | faulted _ _ _ effect =>
    -- A faulty bracket leaves the stack as it was.
    obtain rfl := h.regular.sound.apply_error effect
    exact h.run

theorem agree_deliveries (bytes : List Byte) (n : Nat) :
    Agree ((Lexer.ofBytes bytes).deliveries n) ((Lexer.ofBytes bytes).pulled n) :=
  Lexer.deliveries_induction (P := Agree) agree_ok agree_error (agree_ofBytes bytes) n

/-- On every input, and after any number of pulls: the automaton takes the tokens delivered so far.
The tokens in line take it on to the open structures of the lexer. And when the stream is at its
end, the automaton has nothing open. -/
theorem exists_run_deliveries (bytes : List Byte) (n : Nat) :
    ∃ opened,
      run [] (((Lexer.ofBytes bytes).deliveries n).map Delivery.event) = some opened ∧
      run opened (plain ((Lexer.ofBytes bytes).pulled n).pending) =
        some (((Lexer.ofBytes bytes).pulled n).stack.frames.map Frame.kind) ∧
      (((Lexer.ofBytes bytes).pulled n).next.1 = .ok .nothing → opened = []) := by
  have h := agree_deliveries bytes n
  have hrun := h.run
  rw [run_append] at hrun
  obtain ⟨opened, hdelivered, hpending⟩ := Option.bind_eq_some_iff.mp hrun
  refine ⟨opened, hdelivered, hpending, ?_⟩
  intro hend
  have hpull := ((Lexer.ofBytes bytes).pulled n).pull_next
  rw [hend] at hpull
  obtain ⟨-, hqueue, hstack, -⟩ := h.regular.of_nothing hpull
  rw [hqueue, hstack] at hpending
  simpa [plain, openedBy] using hpending

/-- The automaton over all tokens of a sequence with one entry. -/
theorem exists_run_deliveries_entry :
    ((Lexer.ofBytes [0x2D, 0x20, 0x61]).pulled 6).next.1 = .ok .nothing ∧
      run [] (((Lexer.ofBytes [0x2D, 0x20, 0x61]).deliveries 6).map Delivery.event) = some [] := by
  have hend : ((Lexer.ofBytes [0x2D, 0x20, 0x61]).pulled 6).next.1 = .ok .nothing := rfl
  obtain ⟨opened, hrun, -, hopened⟩ := exists_run_deliveries [0x2D, 0x20, 0x61] 6
  rw [hopened hend] at hrun
  exact ⟨hend, hrun⟩

end Balance

end YamlLexer
