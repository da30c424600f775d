import YamlLexer.Proofs.Calls
import YamlLexer.Proofs.Encoding
import YamlLexer.Proofs.Transcript

/-!
# Event text can be read back

Texts are written into event text as they are. Nothing in them is escaped, so it is up to the lexer
that no text looks like the start of another line. It is: a construct does not leave its line, hence
no lexeme has a line break in it, and no text has one either, because a character other than a line
feed has no byte that is one.

So event text is read back line by line (`EventText.read`). Two inputs have the same event text only
if they have the same tokens with the same texts, and if both streams end by themselves or both with
an error (`ofBytes_unambiguous`). Which error it was, the text does not tell.

The reader below is there for the statement: it shows which line stands for which item, and no part
of the lexer needs it. That a token with no lexeme has an empty text is what makes a code without a
space readable, and the codes of tokens are told apart by `Token.ofCode?`.
-/

namespace YamlLexer

namespace EventText

/-! ## Reading -/

/-- Reads a line. Its first four characters are a code, and what follows the next space is text. -/
def readLine (line : List Char) : Option (Token × String) :=
  (Token.ofCode? (String.ofList (line.take 4))).map fun token ↦
    (token, String.ofList ((line.drop 4).dropWhile (· != ' ')).tail)

/-- Reads the last line, and tells whether it stands for an error. -/
def readLast (line : List Char) : Option Bool :=
  if line = "ERR".toList then some true
  else if line = Token.nothing.code.toList then some false
  else none

/-- Reads event text: the items, and whether they end with an error. Nothing stands in front of the
first line feed. -/
def read (text : String) : Option (List (Token × String) × Bool) := do
  let lines := (text.toList.splitOn '\n').tail
  let items ← lines.dropLast.mapM readLine
  let failed ← lines.getLast?.bind readLast
  return (items, failed)

/-! ## Lines -/

/-- The line of an item, without the line break in front of it. -/
def body (item : Token × String) : List Char :=
  item.1.code.toList ++ if item.1.hasLexeme then ' ' :: item.2.toList else []

/-- The last line, without the line break in front of it. -/
def lastBody (t : Transcript) : List Char :=
  if t.failure.isSome then "ERR".toList else Token.nothing.code.toList

theorem toList_line (item : Token × String) : (line item).toList = '\n' :: body item := by
  rw [line, body]
  split
  · simp [String.toList_append]
  · simp [String.toList_append]

theorem toList_lastLine (t : Transcript) : (lastLine t).toList = '\n' :: lastBody t := by
  rw [lastLine, lastBody]
  split
  · rfl
  · rfl

/-- A line that can be read back. -/
structure Readable (item : Token × String) : Prop where
  text : '\n' ∉ item.2.toList
  bare : item.1.hasLexeme = false → item.2 = ""

variable {item : Token × String} {t : Transcript}

theorem length_code (token : Token) : token.code.toList.length = 4 := by
  cases token <;> rfl

theorem feed_not_mem_code (token : Token) : '\n' ∉ token.code.toList := by
  cases token <;> decide

theorem Readable.feed_not_mem (h : Readable item) : '\n' ∉ body item := by
  have hcode := feed_not_mem_code item.1
  have htext := h.text
  rw [body]
  split
  · simpa [hcode] using htext
  · simpa using hcode

theorem Readable.readLine (h : Readable item) : readLine (body item) = some item := by
  have hlength := length_code item.1
  rw [EventText.readLine, body, List.take_left' hlength, List.drop_left' hlength,
    String.ofList_toList, Token.ofCode?_code]
  rcases hlexeme : item.1.hasLexeme with _ | _
  · have hbare := h.bare hlexeme
    simp [← hbare]
  · simp

/-! ## Texts -/

theorem intercalate_cons (x : Char) (s : List Char) (lines : List (List Char)) :
    [x].intercalate (s :: lines) = s ++ lines.flatMap (x :: ·) := by
  induction lines generalizing s with
  | nil => simp
  | cons line lines ih => simp [List.intercalate_cons_cons, ih]

theorem toList_ofTranscript (t : Transcript) : (ofTranscript t).toList =
    ['\n'].intercalate ([] :: (t.items.map body ++ [lastBody t])) := by
  rw [ofTranscript, String.toList_append, String.toList_join, toList_lastLine, intercalate_cons]
  simp [List.flatMap_map, toList_line]

theorem splitOn_ofTranscript (h : ∀ item ∈ t.items, Readable item) :
    (ofTranscript t).toList.splitOn '\n' = [] :: (t.items.map body ++ [lastBody t]) := by
  rw [toList_ofTranscript]
  refine List.splitOn_intercalate '\n' ?_ (List.cons_ne_nil _ _)
  rw [List.forall_mem_cons, List.forall_mem_append, List.forall_mem_map, List.forall_mem_singleton]
  refine ⟨List.not_mem_nil, fun item hitem ↦ (h item hitem).feed_not_mem, ?_⟩
  rw [lastBody]
  split
  · decide
  · exact feed_not_mem_code .nothing

theorem mapM_readLine {items : List (Token × String)} (h : ∀ item ∈ items, Readable item) :
    (items.map body).mapM EventText.readLine = some items := by
  induction items with
  | nil => rfl
  | cons item items ih =>
    rw [List.forall_mem_cons] at h
    rw [List.map_cons, List.mapM_cons, h.1.readLine, ih h.2]
    rfl

theorem readLast_lastBody (t : Transcript) : readLast (lastBody t) = some t.failure.isSome := by
  rw [lastBody]
  cases t.failure <;> rfl

/-- A transcript whose lines can be read back is read back from its text. -/
theorem read_ofTranscript (h : ∀ item ∈ t.items, Readable item) :
    read (ofTranscript t) = some (t.items, t.failure.isSome) := by
  rw [read, splitOn_ofTranscript h, List.tail_cons, List.dropLast_concat, mapM_readLine h,
    List.getLast?_concat, Option.bind_some, readLast_lastBody]
  rfl

end EventText

namespace Lexer

variable {l l' : Lexer}

/-!
## Lexemes

The lexeme is that of the last scan, whatever has been injected since. So the invariant of all
clients is about the lexeme and not about the token that was delivered last.
-/

/-- There is no line break in the lexeme. -/
def OneLine (l : Lexer) : Prop := ∀ b ∈ l.cursor.slice l.lexeme, b.isBreak = false

theorem oneLine_ofCursor (c : Cursor) : (ofCursor c).OneLine := by
  have hnil : c.slice ⟨c.offset, c.offset⟩ = [] :=
    List.drop_eq_nil_of_le (by rw [List.length_take]; exact Nat.min_le_left _ _)
  intro b hb
  change b ∈ c.slice ⟨c.offset, c.offset⟩ at hb
  rw [hnil] at hb
  exact absurd hb List.not_mem_nil

theorem oneLine_moved (l : Lexer) : l.moved.OneLine := by
  intro b hb
  rw [slice_moved] at hb
  rcases hfound : l.nextReading.found with refusal | c
  · -- What is refused may go on behind a line break, but has no lexeme.
    rw [l.reads_upcoming.size_of_refused hfound, List.take_zero] at hb
    exact absurd hb List.not_mem_nil
  · obtain ⟨hsize, hwidth⟩ := width_le_upcoming hfound
    change b ∈ l.nextReading.lexemeIn l.upcoming at hb
    rw [← Reading.lexemeIn_firstLine (hsize.trans hwidth)] at hb
    simpa using List.mem_takeWhile_imp (List.mem_of_mem_drop (List.mem_of_mem_take hb))

theorem OneLine.pull {answer : Except LexError Token} (h : l.OneLine) (hpull : l.Pull answer l') :
    l'.OneLine := by
  cases hpull with
  | repeated | queued => exact h
  | refused | faulted | scanned => exact l.oneLine_moved

theorem oneLine_calls (c : Cursor) (cs : List Call) : ((ofCursor c).calls cs).OneLine :=
  calls_induction OneLine.pull (fun _ h ↦ h) (fun _ h ↦ h) (oneLine_ofCursor c) cs

theorem OneLine.not_mem_text {text : String} (h : l.OneLine) (htext : l.text = .ok text) :
    '\n' ∉ text.toList ∧ '\r' ∉ text.toList := by
  rw [Lexer.text] at htext
  split at htext
  · rw [Cursor.sliceText] at htext
    split at htext
    · rename_i hdecoded
      cases htext
      rw [OneLine, eq_encode_of_fromUTF8? hdecoded] at h
      refine ⟨fun hfeed ↦ ?_, fun hreturn ↦ ?_⟩
      · exact absurd (h 0x0A (mem_encode hfeed (by decide))) (by decide)
      · exact absurd (h 0x0D (mem_encode hreturn (by decide))) (by decide)
    · cases htext
  · cases htext
    exact ⟨List.not_mem_nil, List.not_mem_nil⟩

/-! ## Items -/

theorem Pull.readable {token : Token} {text : String} (h : l.OneLine)
    (hpull : l.Pull (.ok token) l') (htext : l'.text = .ok text) :
    EventText.Readable (token, text) := by
  refine ⟨((h.pull hpull).not_mem_text htext).1, fun hlexeme ↦ ?_⟩
  rw [Lexer.text, hpull.last_of_ok, hlexeme, Bool.false_and] at htext
  cases htext
  rfl

theorem OneLine.readable {t : Transcript} (h : l.OneLine) (hdrains : l.Drains t) :
    ∀ item ∈ t.items, EventText.Readable item := by
  induction hdrains with
  | ended | failed | undecodable => exact fun item hitem ↦ absurd hitem List.not_mem_nil
  | item next _ decoded _ ih =>
    have hpull := pull_of_next next
    exact List.forall_mem_cons.mpr ⟨hpull.readable h decoded, ih (h.pull hpull)⟩

end Lexer

namespace EventText

theorem read_ofBytes (bytes : List Byte) :
    let t := (Lexer.ofBytes bytes).transcript.1
    read (ofBytes bytes) = some (t.items, t.failure.isSome) := by
  have hline := Lexer.oneLine_ofCursor (Cursor.ofBytes bytes)
  exact read_ofTranscript (hline.readable (Lexer.ofBytes bytes).drains_transcript)

/-- Event text is unambiguous. It is the same for two inputs only if the streams deliver the same
tokens with the same texts, and both end by themselves or both with an error. The text of a token,
whatever a client does, has no line break in it, and what is read back from event text, line by
line, is what has been delivered. -/
theorem ofBytes_unambiguous (x y : List Byte) :
    let t := (Lexer.ofBytes x).transcript.1
    let u := (Lexer.ofBytes y).transcript.1
    (ofBytes x = ofBytes y ↔ t.items = u.items ∧ t.failure.isSome = u.failure.isSome) ∧
      (∀ (cs : List Call) (text : String), ((Lexer.ofBytes x).calls cs).text = .ok text →
        '\n' ∉ text.toList ∧ '\r' ∉ text.toList) ∧
      read (ofBytes x) = some (t.items, t.failure.isSome) := by
  intro t u
  refine ⟨⟨fun heq ↦ ?_, fun ⟨hitems, hfailure⟩ ↦ ofTranscript_congr hitems hfailure⟩, ?_,
    read_ofBytes x⟩
  · have hread := congrArg read heq
    rw [read_ofBytes, read_ofBytes] at hread
    simpa using hread
  · intro cs text
    exact (Lexer.oneLine_calls (Cursor.ofBytes x) cs).not_mem_text

end EventText

end YamlLexer
