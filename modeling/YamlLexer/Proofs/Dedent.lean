import YamlLexer.Proofs.Calls
import YamlLexer.Proofs.Documents
import YamlLexer.Proofs.Nesting.Lasting
import YamlLexer.Proofs.Nesting.Layers
import YamlLexer.Proofs.Scans

/-!
# Dedents

A lexer compares the rank of an entry with that of the innermost collection, closes it, and compares
again. What this comes to can be said without a stack. Take the ranks of the entries of a document
so far, in the order in which they were scanned. Then the collections that are open have the ranks
that last: those with no lower one behind them (`ranks_calls`). It does not matter by how much, or
how unevenly, the entries in between were indented.

## The history

`Lexer.content` is what has been scanned since the document was opened. It is empty where no
document is open, and an entry that opens one by itself is the first of it. Brackets end all this,
as indentation has no meaning between them; so the statement is for a history without any. Nothing
is assumed of the text, nor of where in it a client stops.

## The invariant

As long as the history has no bracket, the stack has just the ranks that last in it
(`Scan.Recorded`). A scan that stays in its document adds its rank to the history, if it has one,
and `Stack.Lasts.enter` says that this is what it does to the stack as well. A closed stack is that
of no ranks, which is how documents begin.
-/

namespace YamlLexer

/-- A construct that was scanned, and the column where it stands. -/
structure Scan where
  construct : Construct
  column : Nat
deriving DecidableEq, Repr

namespace Scan

def rank? (scan : Scan) : Option Nat :=
  match scan.construct.entryOf? with
  | none => none
  | some .mapping => some (2 * scan.column + 1)
  | some .sequence => some (2 * scan.column + 2)

def isBracket (scan : Scan) : Bool :=
  match scan.construct with
  | .flowStart _ | .flowEnd _ => true
  | _ => false

/-- What has been scanned in a document, now that the stack is as given and one scan more has been
made, or none. -/
def record (scans : List Scan) (stack : Stack) (scan : Option Scan) : List Scan :=
  if stack.depth = 0 ∨ scan.map construct = some .documentStart then [] else scans ++ scan.toList

end Scan

namespace Lexer

/-- What the next pull scans, if it scans something that is allowed. -/
def scanned? (l : Lexer) : Option Scan :=
  if l.failure.isSome || l.hasPending then none
  else
    match l.scan.1, l.nextReading.found with
    | .ok _, .ok construct => some ⟨construct, l.nextPlace.column⟩
    | _, _ => none

/-- What has been scanned since the document was opened, after some calls. -/
def contentFrom (l : Lexer) (scans : List Scan) : List Call → List Scan
  | [] => scans
  | c :: cs =>
    (l.call c).contentFrom
      (Scan.record scans (l.call c).stack (if l.pulls c then l.scanned? else none)) cs

/-- What has been scanned since the document was opened, after calls to a new lexer. -/
def content (l : Lexer) (cs : List Call) : List Scan := l.contentFrom [] cs

end Lexer

namespace Scan

/-- What is kept: while there is no bracket, the stack is the one of the ranks that last. -/
structure Recorded (scans : List Scan) (s : Stack) : Prop where
  sound : s.Sound
  lasts : (∀ scan ∈ scans, scan.isBracket = false) → s.Lasts (scans.filterMap rank?)

variable {scans : List Scan} {s s' : Stack} {c : Construct} {column : Nat} {tokens : List Token}

theorem rank?_of_entryOf? {shape : Shape} (hc : c.entryOf? = some shape) (column : Nat) :
    rank? ⟨c, column⟩ = some ((Opener.block shape).rank column) := by
  rw [rank?, hc]
  rcases shape with _ | _
  · rfl
  · rfl

theorem recorded_closed (h : s.Sound) (hdepth : s.depth = 0) : Recorded [] s := by
  refine ⟨h, fun _ ↦ ?_⟩
  rw [h.eq_closed hdepth]
  exact .closed

theorem Recorded.unchanged (h : Recorded scans s) : Recorded (record scans s none) s := by
  rw [record, Option.map_none, Option.toList_none, List.append_nil]
  split
  · rename_i hdepth
    exact recorded_closed h.sound (hdepth.resolve_right (by simp))
  · exact h

/-- A scan without brackets that stays in its document adds its rank, if it has one. -/
theorem lasts_apply {ranks : List Nat} (h : s.Lasts ranks)
    (effect : s.apply column c = ⟨s', .ok tokens⟩) (hbracket : isBracket ⟨c, column⟩ = false)
    (hopen : s'.depth ≠ 0) (hstart : c ≠ .documentStart) :
    s'.Lasts (ranks ++ (rank? ⟨c, column⟩).toList) := by
  rcases hc : c.entryOf? with _ | shape
  · rw [rank?, hc, Option.toList_none, List.append_nil]
    rcases c with _ | ⟨kind, _ | _⟩ | _ | _ | _ | _ | _ | _
    case single | scalar.false =>
      cases effect
      exact h
    case scalar.true | entry => cases hc
    case flowStart | flowEnd => cases hbracket
    case documentStart => exact absurd rfl hstart
    -- The other two close everything.
    case documentEnd =>
      rcases h with _ | _
      · rw [Stack.apply, Stack.endDocument_closed] at effect
        cases effect
        exact absurd rfl hopen
      · rw [Stack.apply, Stack.endDocument_document] at effect
        cases effect
        exact absurd rfl hopen
    case streamEnd =>
      rw [Stack.apply, h.sound.endStream] at effect
      cases effect
      exact absurd rfl hopen
  · obtain ⟨s'', henter, hlasts⟩ := h.enter shape column
    rw [Stack.apply_of_entryOf? hc henter] at effect
    cases effect
    rw [rank?_of_entryOf? hc]
    exact hlasts

theorem Recorded.apply (h : Recorded scans s) (effect : s.apply column c = ⟨s', .ok tokens⟩) :
    Recorded (record scans s' (some ⟨c, column⟩)) s' := by
  have hsound : s'.Sound := by
    have happly := h.sound.apply column c
    rwa [effect] at happly
  rw [record]
  by_cases hdepth : s'.depth = 0
  · rw [if_pos (.inl hdepth)]
    exact recorded_closed hsound hdepth
  · by_cases hstart : c = .documentStart
    · subst hstart
      rw [if_pos (.inr rfl)]
      rw [Stack.apply, h.sound.startDocument] at effect
      cases effect
      exact ⟨hsound, fun _ ↦ Stack.lasts_empty⟩
    · rw [if_neg (by simp [hdepth, hstart])]
      refine ⟨hsound, ?_⟩
      intro hbracket
      rw [List.filterMap_append]
      refine lasts_apply (h.lasts fun scan hscan ↦ hbracket scan (by simp [hscan])) effect
        (hbracket _ (by simp)) hdepth hstart

end Scan

namespace Lexer

variable {l l' : Lexer} {scans : List Scan} {c : Construct} {stack : Stack} {tokens : List Token}

theorem scanned?_of_ok (running : l.failure = none) (queue : l.pending = [])
    (found : l.nextReading.found = .ok c)
    (effect : l.stack.apply l.nextPlace.column c = ⟨stack, .ok tokens⟩) :
    l.scanned? = some ⟨c, l.nextPlace.column⟩ := by
  simp [scanned?, hasPending, scan, running, queue, found, effect, Except.mapError]

theorem Pull.recorded {answer : Except LexError Token} (hpull : l.Pull answer l')
    (h : Scan.Recorded scans l.stack) :
    Scan.Recorded (Scan.record scans l'.stack l.scanned?) l'.stack := by
  cases hpull with
  | repeated failure =>
    rw [scanned?, failure]
    exact h.unchanged
  | queued failure queue =>
    rw [scanned?, hasPending, failure, queue]
    exact h.unchanged
  | refused failure queue found =>
    have hscanned : l.scanned? = none := by simp [scanned?, found]
    rw [hscanned]
    exact h.unchanged
  | faulted failure queue found effect =>
    have hscanned : l.scanned? = none := by
      simp [scanned?, scan, found, effect, Except.mapError]
    obtain rfl := h.sound.apply_error effect
    rw [hscanned]
    exact h.unchanged
  | scanned failure queue found effect =>
    rw [scanned?_of_ok failure queue found effect]
    exact h.apply effect

theorem recorded_contentFrom {cs : List Call} (plain : ∀ kind, Call.setContext kind ∉ cs)
    (h : Scan.Recorded scans l.stack) :
    Scan.Recorded (l.contentFrom scans cs) (l.calls cs).stack := by
  induction cs generalizing l scans with
  | nil => exact h
  | cons c cs ih =>
    obtain ⟨hc, hcs⟩ := plain_of_cons plain
    refine ih hcs ?_
    by_cases hpulls : l.pulls c = true
    · rw [if_pos hpulls, call_of_pulls hpulls]
      exact l.pull_next.recorded h
    · rw [if_neg hpulls]
      have hstack : (l.call c).stack = l.stack := by
        rcases call_of_not_pulls (by simpa using hpulls) hc with hcall | ⟨token, hcall⟩
        · rw [hcall]
        · rw [hcall]
          rfl
      rw [hstack]
      exact h.unchanged

/-!
## The tokens of an entry

The second half of the statement is about the entry that comes next. Its tokens are known from the
ranks alone (`Stack.announced`), and pulling so many times delivers them and leaves nothing in line.
-/

/-- An entry is announced by the ranks that are open. -/
theorem deliveries_entry {ranks : List Nat} (h : l.stack.Lasts ranks) (running : l.failure = none)
    (queue : l.pending = []) (found : l.nextReading.found = .ok c) {shape : Shape}
    (hc : c.entryOf? = some shape) {r : Nat}
    (hr : Scan.rank? ⟨c, l.nextPlace.column⟩ = some r) :
    let tokens := l.stack.announced shape r ++ c.own?.toList
    (l.deliveries tokens.length).map Delivery.token = tokens ∧
      (l.pulled tokens.length).pending = [] := by
  intro tokens
  obtain ⟨s', henter, -⟩ := h.enter shape l.nextPlace.column
  rw [Scan.rank?_of_entryOf? hc] at hr
  obtain rfl := Option.some_inj.mp hr
  have heffect : l.stack.apply l.nextPlace.column c = ⟨s', .ok tokens⟩ :=
    Stack.apply_of_entryOf? hc henter
  have hproper : tokens ≠ [] := by simp [tokens, Stack.announced]
  obtain ⟨hdeliveries, hpulled⟩ := deliveries_scanned running queue found heffect hproper
  exact ⟨hdeliveries, congrArg Lexer.pending hpulled⟩

/-- In block context, whatever the entries of a document were and in whatever order: the block
collections that are open have the ranks that last, in increasing order from the outside in. The
next entry closes those of higher rank, from the inside out, and starts one unless there is one of
its own rank; where no document is open, it starts that as well. -/
theorem ranks_calls (c : Cursor) {cs : List Call} (plain : ∀ kind, Call.setContext kind ∉ cs)
    (block : ∀ scan ∈ (ofCursor c).content cs, scan.isBracket = false) :
    let l := (ofCursor c).calls cs
    let ranks := ((ofCursor c).content cs).filterMap Scan.rank?
    (l.stack.ranks.Pairwise (· < ·) ∧ ∀ r, r ∈ l.stack.ranks ↔ Lasting ranks r) ∧
    (l.inFlow = false ∧ (∀ f ∈ l.stack.frames.getLast?, f = .document) ∧
      ∀ f ∈ l.stack.frames, f.kind.closing?.isSome = true) ∧
    ∀ construct shape r, l.failure = none → l.pending = [] →
      l.nextReading.found = .ok construct → construct.entryOf? = some shape →
      Scan.rank? ⟨construct, l.nextPlace.column⟩ = some r →
      let tokens := l.stack.announced shape r ++ construct.own?.toList
      (l.deliveries tokens.length).map Delivery.token = tokens ∧
        (l.pulled tokens.length).pending = [] := by
  intro l ranks
  have hclosed : Scan.Recorded [] (ofCursor c).stack := Scan.recorded_closed .closed rfl
  have h : l.stack.Lasts ranks := (recorded_contentFrom plain hclosed).lasts block
  refine ⟨⟨h.pairwise, h.mem_iff⟩, ⟨h.inFlow, h.getLast?, h.isSome_closing?⟩, ?_⟩
  intro construct shape r running queue found hc hr
  exact deliveries_entry h running queue found hc hr

/-- Four entries, of which the second is a sequence at the column of its key, and a dedent to a
column where none of them stands. Two collections are closed, and a third one starts. -/
theorem ranks_calls_uneven :
    let c := Cursor.ofBytes [0x61, 0x3A, 0x0A, 0x2D, 0x20, 0x62, 0x3A, 0x0A, 0x20, 0x20, 0x20,
      0x63, 0x3A, 0x0A, 0x20, 0x64, 0x3A]
    let cs : List Call := List.replicate 12 .next
    let l := (ofCursor c).calls cs
    (∀ kind, Call.setContext kind ∉ cs) ∧
      (∀ scan ∈ (ofCursor c).content cs, scan.isBracket = false) ∧
      ((ofCursor c).content cs).filterMap Scan.rank? = [1, 2, 5, 7] ∧
      (Lasting [1, 2, 5, 7] 5 ∧ 5 ∈ l.stack.ranks) ∧
      (l.deliveries 5).map Delivery.token =
        [.mappingEnd, .mappingEnd, .mappingStart, .mappingKey, .text] := by
  intro c cs l
  have hplain : ∀ kind, Call.setContext kind ∉ cs := by simp [cs]
  have hcontent : (ofCursor c).content cs = [⟨.scalar .text true, 0⟩, ⟨.entry, 0⟩,
      ⟨.scalar .text true, 2⟩, ⟨.scalar .text true, 3⟩] := by
    decide
  have hblock : ∀ scan ∈ (ofCursor c).content cs, scan.isBracket = false := by
    rw [hcontent]
    decide
  have hranks : ((ofCursor c).content cs).filterMap Scan.rank? = [1, 2, 5, 7] := by
    rw [hcontent]
    rfl
  obtain ⟨⟨-, hmem⟩, -, htokens⟩ := ranks_calls c hplain hblock
  have hlasting : Lasting [1, 2, 5, 7] 5 := ⟨[1, 2], [7], rfl, by decide⟩
  refine ⟨hplain, hblock, hranks, ⟨hlasting, ?_⟩, ?_⟩
  · refine (hmem 5).mpr ?_
    rw [← hranks] at hlasting
    exact hlasting
  · obtain ⟨hdeliveries, -⟩ := htokens (.scalar .text true) .mapping 3 (by decide) (by decide)
      (by decide) rfl (by decide)
    have hannounced : ((ofCursor c).calls cs).stack.announced .mapping 3 =
        [.mappingEnd, .mappingEnd, .mappingStart, .mappingKey] := by
      decide
    rw [hannounced] at hdeliveries
    exact hdeliveries

end Lexer

end YamlLexer
