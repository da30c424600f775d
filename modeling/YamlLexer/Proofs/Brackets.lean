import YamlLexer.Proofs.Calls

/-!
# Bracketed collections leave no trace

A flow collection begins and ends with a bracket. As long as the brackets match, whatever is written
between the two is a matter between them: the structures around the collection stay as they were,
and behind the closing bracket they are again all there is, with the rules that applied before.

Only one thing remains: where no document is open, the opening bracket opens one, and that stays
open. `Stack.inDocument` is the stack with it.

What is followed here is not the tokens but what the lexer reads. A client reads on by some of its
pulls, and `Lexer.readings` lists what is found by them. Whether brackets match can be told from
that list alone (`openBrackets?`), without a look at the stack.

## The invariant

The stack is that of a document, and the brackets that are open have put their collections on top of
what there was (`Stack.Within`). A closing bracket looks for the innermost collection of its shape.
If it matches, that is the innermost one of all, so the search ends at once and never gets to the
collections below. Keys and dashes never get there either, as the flow rules apply above the first
bracket. That they end with it, and not before, is `Stack.closeFlow_document`.
-/

namespace YamlLexer

/-! ## Brackets -/

/-- The brackets that are open behind a construct, the innermost first. There is no answer where a
closing bracket does not match, where a document begins or ends, and outside all brackets unless one
is opened there. -/
def Construct.brackets? (opened : List Shape) : Construct → Option (List Shape)
  | .flowStart shape => some (shape :: opened)
  | .flowEnd shape => if opened.head? = some shape then some opened.tail else none
  | .single _ | .scalar _ _ | .entry => if opened = [] then none else some opened
  | .documentStart | .documentEnd | .streamEnd => none

/-- The brackets that are open behind all that has been read. What is refused has no answer. -/
def openBrackets? (opened : List Shape) : List (Except Refusal Construct) → Option (List Shape)
  | [] => some opened
  | .error _ :: _ => none
  | .ok c :: readings => (c.brackets? opened).bind (openBrackets? · readings)

theorem openBrackets?_cons {opened opened' : List Shape} {r : Except Refusal Construct}
    {rs : List (Except Refusal Construct)} (h : openBrackets? opened (r :: rs) = some opened') :
    ∃ construct between, r = .ok construct ∧ construct.brackets? opened = some between ∧
      openBrackets? between rs = some opened' := by
  rcases r with refusal | construct
  · cases h
  · obtain ⟨between, hfirst, hrest⟩ := Option.bind_eq_some_iff.mp h
    exact ⟨construct, between, rfl, hfirst, hrest⟩

namespace Stack

/-- The stack with a document, which is opened if none is. -/
def inDocument (s : Stack) : Stack :=
  if s.depth = 0 then { s with frames := [.document] } else s

/-- A stack with nothing but collections in brackets on top of a base. -/
inductive Within : Stack → List Shape → Stack → Prop
  | intro (inner flows blocks : List Collection) :
      Within (document flows blocks) (inner.map Collection.shape) (document (inner ++ flows) blocks)

variable {base s : Stack} {opened opened' : List Shape} {c : Construct}

theorem inDocument_closed : ({} : Stack).inDocument = document [] [] := rfl

theorem inDocument_document (flows blocks : List Collection) :
    (document flows blocks).inDocument = document flows blocks :=
  if_neg (by rw [depth_document]; exact Nat.succ_ne_zero _)

namespace Within

theorem exists_frames (h : Within base opened s) :
    ∃ inner : List Collection, s.frames = inner.map Collection.flow ++ base.frames ∧
      inner.map Collection.shape = opened := by
  obtain ⟨inner, flows, blocks⟩ := h
  refine ⟨inner, ?_, rfl⟩
  simp only [document, List.map_append, List.append_assoc]

theorem rootKind (h : Within base opened s) : s.rootKind = base.rootKind := by
  obtain ⟨inner, flows, blocks⟩ := h
  rfl

theorem inFlow (h : Within base opened s) (hopened : opened ≠ []) : s.inFlow = true := by
  obtain ⟨_ | ⟨d, inner⟩, flows, blocks⟩ := h
  · exact absurd rfl hopened
  · rfl

theorem eq_base (h : Within base opened s) (hopened : opened = []) : s = base := by
  obtain ⟨inner, flows, blocks⟩ := h
  obtain rfl := List.map_eq_nil_iff.mp hopened
  rfl

theorem enter (h : Within base opened s) (hopened : opened ≠ []) (shape : Shape) (column : Nat) :
    s.enter shape column = ⟨s, .ok [shape.entryToken]⟩ := by
  rw [Stack.enter, if_pos (h.inFlow hopened)]

theorem openFlow (h : Within base opened s) (shape : Shape) (column : Nat) :
    ∃ s' tokens, s.openFlow shape column = ⟨s', .ok tokens⟩ ∧ Within base (shape :: opened) s' := by
  obtain ⟨inner, flows, blocks⟩ := h
  exact ⟨_, _, openFlow_document shape column, .intro (⟨shape, column⟩ :: inner) flows blocks⟩

theorem closeFlow {shape : Shape} (h : Within base (shape :: opened) s) :
    ∃ s' tokens, s.closeFlow shape = ⟨s', .ok tokens⟩ ∧ Within base opened s' := by
  generalize hshapes : shape :: opened = shapes at h
  obtain ⟨_ | ⟨d, inner⟩, flows, blocks⟩ := h
  · cases hshapes
  · obtain ⟨rfl, rfl⟩ := List.cons.inj hshapes
    have hfind : (d :: inner ++ flows ++ blocks).findIdx? (·.shape = d.shape) = some 0 := by
      simp only [List.cons_append, List.findIdx?_cons, decide_true, if_true]
    have hclose : (document (d :: inner ++ flows) blocks).closeFlow d.shape = _ :=
      closeFlow_document d.shape
    rw [hfind] at hclose
    refine ⟨_, _, hclose, ?_⟩
    have hblocks : 0 + 1 - (d :: inner ++ flows).length = 0 :=
      Nat.sub_eq_zero_of_le (Nat.succ_le_succ (Nat.zero_le _))
    rw [hblocks]
    exact .intro inner flows blocks

/-- No construct between brackets that match gets at what is below. -/
theorem apply (h : Within base opened s) (column : Nat) (hc : c.brackets? opened = some opened') :
    ∃ s' tokens, s.apply column c = ⟨s', .ok tokens⟩ ∧ Within base opened' s' := by
  -- Everything but brackets must be inside some, and leaves them open.
  have hinside (h : (if opened = [] then none else some opened) = some opened') :
      opened ≠ [] ∧ opened = opened' := by
    obtain ⟨hne, hsame⟩ := Option.ite_none_left_eq_some.mp h
    exact ⟨hne, Option.some.inj hsame⟩
  cases c with
  | single token =>
    obtain ⟨-, rfl⟩ := hinside hc
    exact ⟨s, [token], rfl, h⟩
  | scalar kind isKey =>
    obtain ⟨hne, rfl⟩ := hinside hc
    cases isKey with
    | false => exact ⟨s, [kind], rfl, h⟩
    | true =>
      rw [Stack.apply, h.enter hne]
      exact ⟨s, [.mappingKey, kind], rfl, h⟩
  | entry =>
    obtain ⟨hne, rfl⟩ := hinside hc
    exact ⟨s, [.sequenceEntry], h.enter hne .sequence column, h⟩
  | flowStart shape =>
    obtain rfl := Option.some.inj hc
    exact h.openFlow shape column
  | flowEnd shape =>
    obtain ⟨hhead, htail⟩ := Option.ite_none_right_eq_some.mp hc
    obtain ⟨outer, rfl⟩ := List.head?_eq_some_iff.mp hhead
    obtain rfl := Option.some.inj htail
    exact h.closeFlow
  | documentStart => cases hc
  | documentEnd => cases hc
  | streamEnd => cases hc

end Within

/-- Outside all brackets, the first thing to come is an opening bracket. -/
theorem Sound.apply_first (h : s.Sound) (column : Nat) (hc : c.brackets? [] = some opened) :
    ∃ s' tokens, s.apply column c = ⟨s', .ok tokens⟩ ∧ Within s.inDocument opened s' := by
  cases h with
  | closed =>
    cases c with
    | flowStart shape =>
      obtain rfl := Option.some.inj hc
      rw [inDocument_closed]
      exact ⟨_, _, openFlow_closed shape column, .intro [⟨shape, column⟩] [] []⟩
    | _ => cases hc
  | document flows blocks =>
    rw [inDocument_document]
    exact (Within.intro [] flows blocks).apply column hc

end Stack

/-!
## What a client reads

A call reads on only if nothing is in line. What it finds has its effect on the stack at once
(`call_of_reading?_ok`), while the tokens may take many more calls to be delivered; and only what is
read can change the stack, if nothing is overridden.
-/

namespace Lexer

/-- What is read by a call, if it reads on: it has to pull, when there is no error and nothing is in
line. -/
def reading? (l : Lexer) (c : Call) : Option (Except Refusal Construct) :=
  if l.pulls c = true ∧ l.failure = none ∧ l.pending = [] then some l.nextReading.found else none

/-- What is read by some calls, in order. -/
def readings (l : Lexer) : List Call → List (Except Refusal Construct)
  | [] => []
  | c :: cs => (l.reading? c).toList ++ (l.call c).readings cs

variable {l : Lexer} {c : Call} {cs : List Call} {base : Stack} {opened opened' : List Shape}

/-- Only what is read can change the stack, or be at fault. -/
theorem call_of_reading?_none (h : l.reading? c = none) (plain : ∀ kind, c ≠ .setContext kind) :
    (l.call c).stack = l.stack ∧ (l.call c).failure = l.failure := by
  rcases hpulls : l.pulls c with _ | _
  · rcases call_of_not_pulls hpulls plain with hcall | ⟨token, hcall⟩
    · rw [hcall]
      exact ⟨rfl, rfl⟩
    · rw [hcall]
      exact ⟨rfl, rfl⟩
  · rw [call_of_pulls hpulls]
    rcases hfailure : l.failure with _ | e
    · rcases hqueue : l.pending with _ | ⟨token, pending⟩
      · rw [reading?, if_pos ⟨hpulls, hfailure, hqueue⟩] at h
        cases h
      · rw [next_of_pending hfailure hqueue]
        exact ⟨rfl, hfailure⟩
    · rw [next_of_failure hfailure]
      exact ⟨rfl, hfailure⟩

theorem call_of_reading?_ok {construct : Construct} {stack : Stack} {tokens : List Token}
    (h : l.reading? c = some (.ok construct))
    (effect : l.stack.apply l.nextPlace.column construct = ⟨stack, .ok tokens⟩) :
    (l.call c).stack = stack ∧ (l.call c).failure = none := by
  obtain ⟨⟨hpulls, hfailure, hqueue⟩, hfound⟩ := Option.ite_none_right_eq_some.mp h
  rw [call_of_pulls hpulls, next_of_scanned hfailure hqueue (Option.some.inj hfound) effect]
  exact ⟨rfl, hfailure⟩

/-! ## Clients among brackets -/

/-- A lexer among brackets that has met no error. -/
structure Inside (base : Stack) (opened : List Shape) (l : Lexer) : Prop where
  running : l.failure = none
  within : Stack.Within base opened l.stack

theorem inside_of_apply {construct : Construct} (h : l.reading? c = some (.ok construct))
    (effect : ∃ stack tokens, l.stack.apply l.nextPlace.column construct = ⟨stack, .ok tokens⟩ ∧
      Stack.Within base opened stack) : Inside base opened (l.call c) := by
  obtain ⟨stack, tokens, happly, hwithin⟩ := effect
  obtain ⟨hstack, hfailure⟩ := call_of_reading?_ok h happly
  exact ⟨hfailure, hstack ▸ hwithin⟩

theorem Inside.calls (h : Inside base opened l) (plain : ∀ kind, Call.setContext kind ∉ cs)
    (matching : openBrackets? opened (l.readings cs) = some opened') :
    Inside base opened' (l.calls cs) := by
  induction cs generalizing l opened with
  | nil =>
    obtain rfl := Option.some.inj matching
    exact h
  | cons c cs ih =>
    obtain ⟨hc, hcs⟩ := plain_of_cons plain
    rw [readings] at matching
    rcases hreading : l.reading? c with _ | r
    · rw [hreading] at matching
      obtain ⟨hstack, hfailure⟩ := call_of_reading?_none hreading hc
      exact ih ⟨hfailure.trans h.running, hstack ▸ h.within⟩ hcs matching
    · rw [hreading] at matching
      obtain ⟨construct, between, rfl, hfirst, hrest⟩ := openBrackets?_cons matching
      exact ih (inside_of_apply hreading (h.within.apply _ hfirst)) hcs hrest

theorem inside_calls (h : l.stack.Sound) (plain : ∀ kind, Call.setContext kind ∉ cs)
    (read : l.readings cs ≠ []) (matching : openBrackets? [] (l.readings cs) = some opened) :
    Inside l.stack.inDocument opened (l.calls cs) := by
  induction cs generalizing l with
  | nil => exact absurd rfl read
  | cons c cs ih =>
    obtain ⟨hc, hcs⟩ := plain_of_cons plain
    rw [readings] at read matching
    rcases hreading : l.reading? c with _ | r
    · rw [hreading] at read matching
      obtain ⟨hstack, -⟩ := call_of_reading?_none hreading hc
      rw [← hstack]
      exact ih (sound_call h hc) hcs read matching
    · rw [hreading] at matching
      obtain ⟨construct, between, rfl, hfirst, hrest⟩ := openBrackets?_cons matching
      exact (inside_of_apply hreading (h.apply_first _ hfirst)).calls hcs hrest

/-- On every input, and in every state that clients without overrides get to: if what is read from
there on is brackets that match so far, and what is between them, then there has been no error, and
the structures that were open before are all still there, with the collections of the open brackets
on top and nothing else. As long as a bracket is open, the flow rules apply. When none is, the stack
is what it was, but for a document where there was none. -/
theorem stack_of_brackets (c : Cursor) (before during : List Call)
    (plain : ∀ kind, Call.setContext kind ∉ before ++ during) (opened : List Shape)
    (read : ((ofCursor c).calls before).readings during ≠ [])
    (matching : openBrackets? [] (((ofCursor c).calls before).readings during) = some opened) :
    let l := (ofCursor c).calls before
    let m := l.calls during
    m.failure = none ∧
      m.stack.rootKind = l.stack.inDocument.rootKind ∧
      (∃ inner : List Collection,
        m.stack.frames = inner.map Collection.flow ++ l.stack.inDocument.frames ∧
          inner.map Collection.shape = opened) ∧
      (opened ≠ [] → m.inFlow = true) ∧
      (opened = [] → m.stack = l.stack.inDocument) := by
  intro l m
  have hbefore (kind : Token) : Call.setContext kind ∉ before :=
    fun hmem ↦ plain kind (List.mem_append_left during hmem)
  have hduring (kind : Token) : Call.setContext kind ∉ during :=
    fun hmem ↦ plain kind (List.mem_append_right before hmem)
  have hsound : l.stack.Sound := sound_calls .closed hbefore
  have hinside : Inside l.stack.inDocument opened m := inside_calls hsound hduring read matching
  exact ⟨hinside.running, hinside.within.rootKind, hinside.within.exists_frames,
    hinside.within.inFlow, hinside.within.eq_base⟩

/-- A sequence in brackets, which is the value of a key. It goes over two lines, and its only entry
is a mapping that is written behind a dash. -/
theorem stack_of_brackets_nested :
    let c := Cursor.ofBytes
      [0x61, 0x3A, 0x20, 0x5B, 0x0A, 0x2D, 0x20, 0x7B, 0x62, 0x3A, 0x20, 0x63, 0x7D, 0x5D]
    let l := (ofCursor c).calls (List.replicate 4 .next)
    openBrackets? [] (l.readings (List.replicate 4 .next)) = some [.mapping, .sequence] ∧
      (l.calls (List.replicate 4 .next)).inFlow = true ∧
      openBrackets? [] (l.readings (List.replicate 9 .next)) = some [] ∧
      (l.calls (List.replicate 9 .next)).stack = l.stack.inDocument := by
  intro c l
  have hplain (m n : Nat) (kind : Token) :
      Call.setContext kind ∉ List.replicate m Call.next ++ List.replicate n Call.next := by
    simp [List.mem_replicate]
  have hopen : openBrackets? [] (l.readings (List.replicate 4 .next)) =
      some [.mapping, .sequence] := by decide +kernel
  have hclosed : openBrackets? [] (l.readings (List.replicate 9 .next)) = some [] := by
    decide +kernel
  obtain ⟨-, -, -, hflow, -⟩ := stack_of_brackets c (List.replicate 4 .next)
    (List.replicate 4 .next) (hplain 4 4) _ (by decide +kernel) hopen
  obtain ⟨-, -, -, -, hbase⟩ := stack_of_brackets c (List.replicate 4 .next)
    (List.replicate 9 .next) (hplain 4 9) _ (by decide +kernel) hclosed
  exact ⟨hopen, hflow (List.cons_ne_nil _ _), hclosed, hbase rfl⟩

end Lexer

end YamlLexer
