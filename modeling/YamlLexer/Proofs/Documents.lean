import YamlLexer.Proofs.Lockstep

/-!
# Documents are independent

A line that marks the start or the end of a document leaves nothing of what came before it. After
`---` the text goes on as if the marker were the first line of an input, and after `...` as if the
input started behind it, provided that the marker had something to close (`ofBytes_append_marker`).

## The three runs

Up to the end of the first text, the lexer of that text alone and the one of both are in lockstep.
No look-ahead tells the line break in front of the marker from the end of the input. At that point
the one meets the end and the other the marker, which close the same structures with the same
tokens. From there on the second lexer is in lockstep with one that has never seen the first text:
both are `Before` the second text, with the same stack and at the start of a line.
-/

namespace YamlLexer

/-- A line with the marker of a document start, in front of the bytes. -/
def startLine (bytes : List Byte) : List Byte := 0x2D :: 0x2D :: 0x2D :: 0x0A :: bytes

/-- A line with the marker of a document end, in front of the bytes. -/
def endLine (bytes : List Byte) : List Byte := 0x2E :: 0x2E :: 0x2E :: 0x0A :: bytes

theorem Stack.all_closing (s : Stack) : s.closing.all Token.isStructural = true := by
  rw [List.all_eq_true]
  intro token htoken
  obtain ⟨f, -, hclosing⟩ := List.mem_filterMap.mp htoken
  exact Token.isStructural_closing? hclosing

theorem Stack.Sound.eq_closed {s : Stack} (h : s.Sound) (hdepth : s.depth = 0) : s = {} := by
  cases h with
  | closed => rfl
  | document flows blocks =>
    rw [depth_document] at hdepth
    omega

theorem Stack.Sound.endDocument {s : Stack} (h : s.Sound) (hopen : s ≠ {}) :
    s.endDocument = ⟨{}, .ok s.closing⟩ := by
  cases h with
  | closed => exact absurd rfl hopen
  | document flows blocks => exact endDocument_document

theorem Stack.Sound.closing_eq_nil_iff {s : Stack} (h : s.Sound) : s.closing = [] ↔ s = {} := by
  constructor
  · intro hclosing
    cases h with
    | closed => rfl
    | document flows blocks =>
      rw [closing_document] at hclosing
      simp at hclosing
  · rintro rfl
    rfl

namespace Lexer

variable {k : Nat} {l l' m : Lexer} {stack : Stack} {bytes : List Byte}

/-!
## In front of a text

A lexer with a text ahead may have read anything before. If it has nothing in line and is at the
start of a line, all that matters about what it has read is the stack (`Before.transcript`).
-/

/-- The lexer has the bytes ahead and is at the start of a line. It has nothing in line. -/
structure Before (stack : Stack) (bytes : List Byte) (l : Lexer) : Prop where
  regular : l.Regular
  running : l.failure = none
  queue : l.pending = []
  stack : l.stack = stack
  lexeme : l.cursor.slice l.lexeme = []
  column : l.nextPlace.column = columnBehind 0 bytes
  ahead : l.upcoming = bytes.dropWhile Byte.isGap

theorem before_ofBytes (bytes : List Byte) : Before {} bytes (ofBytes bytes) :=
  ⟨regular_ofBytes bytes, rfl, rfl, rfl, rfl, column_nextPlace (Nat.le_refl _), rfl⟩

theorem agrees_eq {s s' : List Byte} (h : s = s') : Agrees 0 Eq s s' := by
  subst h
  exact ⟨rfl, fun _ _ ↦ rfl, fun _ _ _ _ ↦ rfl⟩

/-- What a lexer has read before makes no difference to what it will answer. -/
theorem Before.transcript (h : Before stack bytes l) (h' : Before stack bytes l') :
    l'.transcript.1.items = l.transcript.1.items ∧
      l'.transcript.1.failure.isSome = l.transcript.1.failure.isSome := by
  have hstack : l'.stack = l.stack.shift 0 := by
    rw [Stack.shift_zero h.regular.sound, h.stack, h'.stack]
  have haligned : Aligned 0 Eq l l' :=
    ⟨h.regular, h'.regular, h.running, h'.running, h'.queue.trans h.queue.symm, hstack,
      h'.lexeme.trans h.lexeme.symm, fun _ ↦ h'.column.trans h.column.symm,
      h.ahead.trans h'.ahead.symm⟩
  exact haligned.transcript agrees_eq

/-- A marker line is behind the lexer once its tokens are delivered. -/
theorem exists_delivers_marker {b : Byte} {c : Construct} {tokens : List Token}
    (regular : l.Regular) (running : l.failure = none) (queue : l.pending = [])
    (ahead : l.upcoming = b :: b :: b :: 0x0A :: bytes)
    (reading : l.nextReading = { found := .ok c, width := 3 })
    (effect : l.stack.apply l.nextPlace.column c = ⟨stack, .ok tokens⟩)
    (structural : tokens.all Token.isStructural = true) (nonempty : tokens ≠ []) :
    ∃ m, l.Delivers (bare tokens) m ∧ Before stack bytes m := by
  have found : l.nextReading.found = .ok c := by rw [reading]
  have hwidth : l.nextReading.width = 3 := by rw [reading]
  obtain ⟨last, hdelivers⟩ :=
    exists_delivers_scanned running queue found effect structural nonempty
  refine ⟨_, hdelivers, hdelivers.regular regular, running, rfl, rfl, ?_, ?_, ?_⟩
  · change l.moved.cursor.slice l.moved.lexeme = []
    rw [slice_moved, reading]
    rfl
  · change l.moved.nextPlace.column = _
    rw [column_moved regular.line (by rw [hwidth, ahead]; simp), hwidth, ahead]
    rfl
  · change l.moved.upcoming = _
    rw [upcoming_moved, hwidth, ahead]
    rfl

theorem transcript_startLine (bytes : List Byte) :
    ∃ m, Before (.document [] []) bytes m ∧ (ofBytes (startLine bytes)).transcript.1 =
      ⟨bare [.directivesEnd] ++ m.transcript.1.items, m.transcript.1.failure⟩ := by
  have hbefore := before_ofBytes (startLine bytes)
  have heffect : (ofBytes (startLine bytes)).stack.apply
      (ofBytes (startLine bytes)).nextPlace.column .documentStart =
        ⟨.document [] [], .ok [.directivesEnd]⟩ := rfl
  obtain ⟨m, hdelivers, hm⟩ := exists_delivers_marker hbefore.regular rfl rfl hbefore.ahead rfl
    heffect rfl (by simp)
  exact ⟨m, hm, hdelivers.transcript_eq⟩

/-!
## At the end of a text

The end of the input closes what is open, which is read off the stack, and nothing else follows.
-/

/-- Nothing is left but the end of the input. -/
structure AtEnd (l : Lexer) : Prop where
  running : l.failure = none
  queue : l.pending = []
  ahead : l.upcoming = []

theorem AtEnd.reading (h : l.AtEnd) : l.nextReading = { found := .ok .streamEnd, width := 0 } := by
  rw [nextReading_eq, h.ahead]
  rfl

theorem AtEnd.found (h : l.AtEnd) : l.nextReading.found = .ok .streamEnd := by
  rw [h.reading]

theorem AtEnd.upcoming_moved (h : l.AtEnd) : l.moved.upcoming = [] := by
  rw [Lexer.upcoming_moved, h.ahead, List.drop_nil, List.dropWhile_nil]

theorem AtEnd.next_closed (h : l.AtEnd) (hstack : l.stack = {}) :
    l.next.1 = .ok .nothing ∧ l.next.2.AtEnd ∧ l.next.2.stack = {} := by
  have heffect : l.stack.apply l.nextPlace.column .streamEnd = ⟨{}, .ok []⟩ := by
    rw [hstack]
    rfl
  rw [next_of_scanned h.running h.queue h.found heffect]
  exact ⟨rfl, ⟨h.running, rfl, h.upcoming_moved⟩, rfl⟩

theorem AtEnd.transcript_closed (h : l.AtEnd) (hstack : l.stack = {}) :
    l.transcript.1 = ⟨[], none⟩ := by
  have hnext : l.next = (.ok .nothing, l.next.2) := Prod.ext (h.next_closed hstack).1 rfl
  exact transcript_of_nothing hnext

/-- At the end, the lexer closes what is open, and that is all. -/
theorem AtEnd.transcript_eq (h : l.AtEnd) (hregular : l.Regular) :
    l.transcript.1 = ⟨bare l.stack.closing, none⟩ := by
  by_cases hstack : l.stack = {}
  · rw [h.transcript_closed hstack, hstack]
    rfl
  · have heffect : l.stack.apply l.nextPlace.column .streamEnd = ⟨{}, .ok l.stack.closing⟩ :=
      hregular.sound.endStream
    have hclosing : l.stack.closing ≠ [] := mt hregular.sound.closing_eq_nil_iff.mp hstack
    obtain ⟨last, hdelivers⟩ := exists_delivers_scanned h.running h.queue h.found heffect
      l.stack.all_closing hclosing
    have hend : AtEnd { l.moved with stack := {}, last := last, pending := [] } :=
      ⟨h.running, rfl, h.upcoming_moved⟩
    rw [hdelivers.transcript_eq, hend.transcript_closed rfl, List.append_nil]

/-- Some structure is open where the end of the input is met. -/
def LeavesOpen (bytes : List Byte) : Prop :=
  ∃ n, ((ofBytes bytes).pulled n).AtEnd ∧ ((ofBytes bytes).pulled n).depth ≠ 0

/-!
## A text with more behind it

What is appended starts with a line break, so a scan that begins in the text sees the same first
line as without it. That is all that `Agrees` asks for, besides the gap behind the construct, which
either ends in the text or is followed by nothing that the first lexer would still read.
-/

/-- The bytes ahead, with more behind them that start with a line break. -/
def Appended (more : List Byte) : Ahead := fun s s' ↦ s' = (s ++ 0x0A :: more).dropWhile Byte.isGap

variable {s s' more : List Byte}

theorem dropWhile_append_dropWhile (s t : List Byte) :
    (s.dropWhile Byte.isGap ++ t).dropWhile Byte.isGap = (s ++ t).dropWhile Byte.isGap := by
  induction s with
  | nil => rfl
  | cons b s ih =>
    by_cases hb : b.isGap = true
    · rw [List.dropWhile_cons_of_pos hb, ih, List.cons_append, List.dropWhile_cons_of_pos hb]
    · rw [List.dropWhile_cons_of_neg hb]

theorem columnBehind_append {column : Nat} (h : s.dropWhile Byte.isGap ≠ []) (t : List Byte) :
    columnBehind column (s ++ t) = columnBehind column s := by
  induction s generalizing column with
  | nil => exact absurd rfl h
  | cons b s ih =>
    rw [List.cons_append, columnBehind, columnBehind]
    by_cases hb : b.isGap = true
    · rw [List.dropWhile_cons_of_pos hb] at h
      rw [if_pos hb, if_pos hb, ih h]
    · rw [if_neg hb, if_neg hb]

theorem firstLine_append_break (s more : List Byte) :
    firstLine (s ++ 0x0A :: more) = firstLine s := by
  induction s with
  | nil => rfl
  | cons b s ih =>
    by_cases hb : b.isBreak = true
    · rw [List.cons_append, firstLine_cons_of_isBreak hb, firstLine_cons_of_isBreak hb]
    · rw [Bool.not_eq_true] at hb
      rw [List.cons_append, firstLine_cons hb, firstLine_cons hb, ih]

theorem agrees_appended (hs : Reading.Starts s) (hne : s ≠ []) (h : Appended more s s') :
    Agrees 0 (Appended more) s s' := by
  obtain rfl : s' = s ++ 0x0A :: more := by
    rcases s with _ | ⟨b, s⟩
    · exact absurd rfl hne
    · -- Bytes that do not start with a gap are not affected by skipping one.
      have hb : ¬ b.isGap = true := by simp [hs b rfl]
      rw [h, List.cons_append, List.dropWhile_cons_of_neg hb]
  have hle {n : Nat} (hn : n ≤ (firstLine s).length) : n ≤ s.length :=
    hn.trans (List.takeWhile_sublist _).length_le
  refine ⟨(firstLine_append_break s more).symm, ?_, ?_⟩
  · intro n hn
    rw [Appended, List.drop_append_of_le_length (hle hn), dropWhile_append_dropWhile]
  · intro n hn hmore column
    rw [List.drop_append_of_le_length (hle hn)]
    exact columnBehind_append hmore _

theorem aligned_append (bytes more : List Byte) :
    Aligned 0 (Appended more) (ofBytes bytes) (ofBytes (bytes ++ 0x0A :: more)) := by
  refine ⟨regular_ofBytes _, regular_ofBytes _, rfl, rfl, rfl, rfl, rfl, ?_, ?_⟩
  · intro hne
    rw [column_nextPlace (Nat.le_refl _), column_nextPlace (Nat.le_refl _)]
    exact columnBehind_append hne _
  · exact (dropWhile_append_dropWhile bytes _).symm

/-! ## The first text -/

theorem AtEnd.closed_pulled (h : l.AtEnd) (hstack : l.stack = {}) (n : Nat) :
    (l.pulled n).AtEnd ∧ (l.pulled n).stack = {} := by
  induction n with
  | zero => exact ⟨h, hstack⟩
  | succ n ih => exact (ih.1.next_closed ih.2).2

/-- Two lexers, of which the second has more to read, arrive together at the end of the text that
the first one has. -/
structure Arrival (more : List Byte) (l l' : Lexer) (items : List (Token × String))
    (m m' : Lexer) : Prop where
  delivers : l.Delivers items m
  delivers' : l'.Delivers items m'
  atEnd : m.AtEnd
  aligned : Aligned 0 (Appended more) m m'
  /-- If anything is open when the first lexer is at its end, it is so on arrival. -/
  leavesOpen : (∃ n, (l.pulled n).AtEnd ∧ (l.pulled n).depth ≠ 0) → m.depth ≠ 0

theorem AtEnd.arrival (hend : l.AtEnd) (h : Aligned 0 (Appended more) l l') :
    Arrival more l l' [] l l' := by
  refine ⟨.refl l, .refl l', hend, h, ?_⟩
  rintro ⟨n, -, hopen⟩ hdepth
  rw [depth, (hend.closed_pulled (h.regular.sound.eq_closed hdepth) n).2] at hopen
  exact hopen rfl

/-- If the first lexer does not fail, both arrive at its end. -/
theorem Aligned.exists_arrival (h : Aligned 0 (Appended more) l l') {t : Transcript}
    (hdrains : l.Drains t) (hok : t.failure = none) :
    ∃ items m m', Arrival more l l' items m m' := by
  induction hdrains generalizing l' with
  | @ended l m next =>
    obtain ⟨hrunning, hqueue, -, hahead⟩ := h.regular.of_nothing (pull_of_next next)
    exact ⟨[], l, l', AtEnd.arrival ⟨hrunning, hqueue, hahead⟩ h⟩
  | failed => cases hok
  | undecodable => cases hok
  | @item l m token text t next proper decoded _ ih =>
    by_cases hend : l.AtEnd
    · exact ⟨[], l, l', hend.arrival h⟩
    · -- Not yet at the end, so whatever is scanned is on a line of the first text.
      have hscan : l.pending = [] → Agrees 0 (Appended more) l.upcoming l'.upcoming := by
        intro hqueue
        refine agrees_appended l.starts_upcoming ?_ h.ahead
        intro hnil
        exact hend ⟨h.running, hqueue, hnil⟩
      obtain ⟨m', hnext', htext, haligned⟩ := h.next_ok hscan next
      obtain ⟨items, o, o', harrival⟩ := ih haligned hok
      refine ⟨(token, text) :: items, o, o', .item next proper decoded harrival.delivers,
        .item hnext' proper (text_eq_ok htext decoded) harrival.delivers', harrival.atEnd,
        harrival.aligned, ?_⟩
      -- The end is met one pull later than by the lexer that this pull leaves.
      rintro ⟨n, hn, hdepth⟩
      rcases n with _ | n
      · exact absurd hn hend
      · rw [pulled_succ', next] at hn hdepth
        exact harrival.leavesOpen ⟨n, hn, hdepth⟩

/-!
## The boundary

`exists_arrival_ofBytes` is the common part of both halves: it splits the run over the two texts at
the marker. What is left is to put the pieces of event text together.
-/

variable {first : List Byte}

/-- Where a marker follows a text that does not fail: the items of the text come first, but for the
tokens that close what it leaves open; then the marker is read. -/
theorem exists_arrival_ofBytes (h : (ofBytes first).transcript.1.failure = none) (more : List Byte) :
    ∃ items m', (ofBytes (first ++ 0x0A :: more)).Delivers items m' ∧ m'.Regular ∧
      m'.failure = none ∧ m'.pending = [] ∧ m'.upcoming = more.dropWhile Byte.isGap ∧
      (ofBytes first).transcript.1.items = items ++ bare m'.stack.closing ∧
      (LeavesOpen first → m'.stack ≠ {}) := by
  obtain ⟨items, m, m', harrival⟩ :=
    (aligned_append first more).exists_arrival (drains_transcript _) h
  have haligned := harrival.aligned
  have hstack : m'.stack = m.stack := by
    rw [haligned.stack, Stack.shift_zero haligned.regular.sound]
  refine ⟨items, m', harrival.delivers', haligned.regular', haligned.running',
    haligned.pending.trans harrival.atEnd.queue, ?_, ?_, ?_⟩
  · have hahead := haligned.ahead
    rw [harrival.atEnd.ahead] at hahead
    exact hahead
  · rw [harrival.delivers.transcript_eq, harrival.atEnd.transcript_eq haligned.regular, hstack]
  · intro hopen hclosed
    refine harrival.leavesOpen hopen ?_
    rw [depth, ← hstack, hclosed]
    rfl

theorem transcript_append_startLine (h : (ofBytes first).transcript.1.failure = none)
    (second : List Byte) :
    ∃ m, Before (.document [] []) second m ∧
      (ofBytes (first ++ 0x0A :: startLine second)).transcript.1 =
        ⟨(ofBytes first).transcript.1.items ++ (bare [.directivesEnd] ++ m.transcript.1.items),
          m.transcript.1.failure⟩ := by
  obtain ⟨items, m, hdelivers, hregular, hrunning, hqueue, hahead, hitems, -⟩ :=
    exists_arrival_ofBytes h (startLine second)
  have hreading : m.nextReading = { found := .ok .documentStart, width := 3 } := by
    rw [nextReading_eq, hahead]
    rfl
  have heffect : m.stack.apply m.nextPlace.column .documentStart =
      ⟨.document [] [], .ok (m.stack.closing ++ [.directivesEnd])⟩ :=
    hregular.sound.startDocument
  have hstructural : (m.stack.closing ++ [Token.directivesEnd]).all Token.isStructural = true := by
    rw [List.all_append, m.stack.all_closing]
    rfl
  obtain ⟨o, hmarker, ho⟩ := exists_delivers_marker hregular hrunning hqueue hahead hreading
    heffect hstructural (by simp)
  refine ⟨o, ho, ?_⟩
  rw [(hdelivers.trans hmarker).transcript_eq, hitems, bare, List.map_append]
  simp only [List.append_assoc]
  rfl

theorem transcript_append_endLine (h : (ofBytes first).transcript.1.failure = none)
    (hopen : LeavesOpen first) (second : List Byte) :
    ∃ m, Before {} second m ∧ (ofBytes (first ++ 0x0A :: endLine second)).transcript.1 =
      ⟨(ofBytes first).transcript.1.items ++ m.transcript.1.items, m.transcript.1.failure⟩ := by
  obtain ⟨items, m, hdelivers, hregular, hrunning, hqueue, hahead, hitems, hstack⟩ :=
    exists_arrival_ofBytes h (endLine second)
  have hreading : m.nextReading = { found := .ok .documentEnd, width := 3 } := by
    rw [nextReading_eq, hahead]
    rfl
  have heffect : m.stack.apply m.nextPlace.column .documentEnd = ⟨{}, .ok m.stack.closing⟩ :=
    hregular.sound.endDocument (hstack hopen)
  obtain ⟨o, hmarker, ho⟩ := exists_delivers_marker hregular hrunning hqueue hahead hreading
    heffect m.stack.all_closing (mt hregular.sound.closing_eq_nil_iff.mp (hstack hopen))
  refine ⟨o, ho, ?_⟩
  rw [(hdelivers.trans hmarker).transcript_eq, hitems]

end Lexer

theorem EventText.ofTranscript_eq {t : Transcript} (h : t.failure = none) :
    ofTranscript t = String.join (t.items.map line) ++ "\n-STR" := by
  rw [ofTranscript, lastLine, h]
  rfl

namespace Lexer

variable {first second : List Byte}

/-- Behind a start marker, the rest is rendered as if the marker were the start of the input. -/
theorem ofBytes_append_startLine (h : (ofBytes first).transcript.1.failure = none) :
    EventText.ofBytes (first ++ 0x0A :: startLine second) =
        String.join ((ofBytes first).transcript.1.items.map EventText.line) ++
          EventText.ofBytes (startLine second) ∧
      (ofBytes (first ++ 0x0A :: startLine second)).transcript.1.failure.isSome =
        (ofBytes (startLine second)).transcript.1.failure.isSome := by
  obtain ⟨m, hm, hboth⟩ := transcript_append_startLine h second
  obtain ⟨m', hm', hsecond⟩ := transcript_startLine second
  obtain ⟨hitems, hfailure⟩ := hm'.transcript hm
  have hrest : EventText.ofTranscript
      ⟨bare [.directivesEnd] ++ m.transcript.1.items, m.transcript.1.failure⟩ =
        EventText.ofTranscript (ofBytes (startLine second)).transcript.1 := by
    refine EventText.ofTranscript_congr ?_ ?_
    · rw [hsecond, hitems]
    · rw [hsecond, hfailure]
  constructor
  · rw [EventText.ofBytes, EventText.ofLexer, hboth]
    exact (EventText.ofTranscript_append _ ⟨_, _⟩).trans (congrArg _ hrest)
  · rw [hboth, hsecond, hfailure]

/-- Behind an end marker that has something to close, the rest is rendered as if the input started
there. -/
theorem ofBytes_append_endLine (h : (ofBytes first).transcript.1.failure = none)
    (hopen : LeavesOpen first) :
    EventText.ofBytes (first ++ 0x0A :: endLine second) =
        String.join ((ofBytes first).transcript.1.items.map EventText.line) ++
          EventText.ofBytes second ∧
      (ofBytes (first ++ 0x0A :: endLine second)).transcript.1.failure.isSome =
        (ofBytes second).transcript.1.failure.isSome := by
  obtain ⟨m, hm, hboth⟩ := transcript_append_endLine h hopen second
  obtain ⟨hitems, hfailure⟩ := (before_ofBytes second).transcript hm
  constructor
  · rw [EventText.ofBytes, EventText.ofLexer, hboth]
    exact (EventText.ofTranscript_append _ _).trans
      (congrArg _ (EventText.ofTranscript_congr hitems hfailure))
  · rw [hboth, hfailure]

end Lexer

/-- A text that does not fail is rendered by itself, whatever follows it behind a marker. Behind a
start marker, the rest is rendered as if the marker were the start of the input; behind an end
marker that had something to close, as if the input started there. -/
theorem ofBytes_append_marker (first second : List Byte)
    (h : (Lexer.ofBytes first).transcript.1.failure = none) :
    ∃ text, EventText.ofBytes first = text ++ "\n-STR" ∧
      (EventText.ofBytes (first ++ 0x0A :: startLine second) =
          text ++ EventText.ofBytes (startLine second) ∧
        (Lexer.ofBytes (first ++ 0x0A :: startLine second)).transcript.1.failure.isSome =
          (Lexer.ofBytes (startLine second)).transcript.1.failure.isSome) ∧
      (Lexer.LeavesOpen first →
        EventText.ofBytes (first ++ 0x0A :: endLine second) = text ++ EventText.ofBytes second ∧
        (Lexer.ofBytes (first ++ 0x0A :: endLine second)).transcript.1.failure.isSome =
          (Lexer.ofBytes second).transcript.1.failure.isSome) :=
  ⟨_, EventText.ofTranscript_eq h, Lexer.ofBytes_append_startLine h,
    Lexer.ofBytes_append_endLine h⟩

/-- Two sequences of one entry each, with an end marker between them. -/
theorem ofBytes_append_marker_entries :
    (Lexer.ofBytes [0x2D, 0x20, 0x61]).transcript.1.failure = none ∧
      Lexer.LeavesOpen [0x2D, 0x20, 0x61] ∧
      ∃ text, EventText.ofBytes [0x2D, 0x20, 0x61] = text ++ "\n-STR" ∧
        EventText.ofBytes ([0x2D, 0x20, 0x61] ++ 0x0A :: endLine [0x2D, 0x20, 0x62]) =
          text ++ EventText.ofBytes [0x2D, 0x20, 0x62] := by
  have hdrains : (Lexer.ofBytes [0x2D, 0x20, 0x61]).Drains
      ⟨[(.directivesEnd, ""), (.sequenceStart, ""), (.sequenceEntry, ""), (.text, "a"),
        (.sequenceEnd, ""), (.documentEnd, "")], none⟩ :=
    .item rfl (by decide) rfl <| .item rfl (by decide) rfl <| .item rfl (by decide) rfl <|
      .item rfl (by decide) rfl <| .item rfl (by decide) rfl <| .item rfl (by decide) rfl <|
        .ended rfl
  have hfailure : (Lexer.ofBytes [0x2D, 0x20, 0x61]).transcript.1.failure = none := by
    rw [hdrains.transcript_eq]
  have hopen : Lexer.LeavesOpen [0x2D, 0x20, 0x61] := ⟨4, ⟨rfl, rfl, rfl⟩, by decide⟩
  obtain ⟨text, htext, -, hend⟩ :=
    ofBytes_append_marker [0x2D, 0x20, 0x61] [0x2D, 0x20, 0x62] hfailure
  exact ⟨hfailure, hopen, text, htext, (hend hopen).1⟩

end YamlLexer
