import YamlLexer.Proofs.Reading.QuotedScalar
import YamlLexer.Reading

/-!
# Quoted scalars, a byte at a time

The reader of quoted scalars jumps from one byte that matters to the next, looks for control bytes
in the stretch between, and looks behind an escape. What it is meant to find can be said without any
of this, by a walk that meets one byte after the other and has to remember only what the last one
was. `Quoted.walk` is that automaton, on offsets of the input.

The reader answers what the walk comes to (`answers_read`). There is more in this than that both
accept the same scalars: where a control byte and the missing of a quote compete for the blame, both
blame the same, and they do it at the same offset.
-/

namespace YamlLexer

namespace Quoted

/-- What a walk has to remember of the byte that it has met last. -/
inductive Phase where
  /-- Nothing about it. The next byte may be content, or a quote, or start an escape. -/
  | content
  /-- It is a single quote, at the offset. Unless the next byte is one too, it closes the scalar. -/
  | quote (offset : Nat)
  /-- It is a backslash. The next byte is content, whatever it is. -/
  | backslash
deriving DecidableEq, Repr

/-- What a walk comes to. -/
inductive Verdict where
  /-- The closing quote is at the offset. -/
  | closed (offset : Nat)
  /-- The byte at the offset is content and a control byte. It is the first one. -/
  | control (byte : Byte) (offset : Nat)
  /-- The input ends before the scalar does. -/
  | exhausted
deriving DecidableEq, Repr

/-- A byte of content: it ends the walk if it is a control byte. -/
def visit (b : Byte) (offset : Nat) : Except Verdict Phase :=
  if b.isControl then .error (.control b offset) else .ok .content

/-- One byte more: the walk comes to its end, or goes on. -/
def Phase.step (q : Quote) (b : Byte) (offset : Nat) : Phase → Except Verdict Phase
  | content =>
    match q with
    | .single => if b = 0x27 then .ok (.quote offset) else visit b offset
    | .double =>
      if b = 0x22 then .error (.closed offset)
      else if b = 0x5C then .ok .backslash
      else visit b offset
  | quote first => if b = 0x27 then .ok .content else .error (.closed first)
  | backslash => visit b offset

/-- What the end of the input makes of a walk. A single quote closes the scalar there as well. -/
def Phase.atEnd : Phase → Verdict
  | quote offset => .closed offset
  | content | backslash => .exhausted

/-- Walks over the bytes, the first of which is at the given offset. -/
def walk (q : Quote) : Phase → Nat → List Byte → Verdict
  | phase, _, [] => phase.atEnd
  | phase, offset, b :: s =>
    match phase.step q b offset with
    | .error verdict => verdict
    | .ok next => walk q next (offset + 1) s

/-- An escaped quote, a doubled one, and an escaped control byte. -/
example : walk .double .content 1 [0x5C, 0x22, 0x22] = .closed 3 ∧
    walk .single .content 1 [0x27, 0x27, 0x27] = .closed 3 ∧
    walk .double .content 1 [0x61, 0x5C, 0x0A, 0x22] = .control 0x0A 3 := by decide

variable {q : Quote} {b c : Byte} {s t : List Byte} {n offset : Nat}

/-!
## Walks over the parts of a scalar

What the reader takes in one step is a walk of many. Here each part that it knows is walked through:
a stretch, an escape, and a quote that starts none.
-/

theorem walk_of_visit {phase : Phase} (h : phase.step q b offset = visit b offset)
    (s : List Byte) : walk q phase offset (b :: s) =
      if b.isControl then .control b offset else walk q .content (offset + 1) s := by
  rw [walk, h, visit]
  rcases b.isControl with _ | _
  · rfl
  · rfl

theorem walk_content (h : q.isStop b = false) (s : List Byte) :
    walk q .content offset (b :: s) =
      if b.isControl then .control b offset else walk q .content (offset + 1) s := by
  refine walk_of_visit ?_ s
  cases q with
  | single =>
    have hb : b ≠ 0x27 := by simpa [Quote.isStop] using h
    rw [Phase.step, if_neg hb]
  | double =>
    obtain ⟨hquote, hbackslash⟩ : b ≠ 0x22 ∧ b ≠ 0x5C := by simpa [Quote.isStop] using h
    rw [Phase.step, if_neg hquote, if_neg hbackslash]

theorem walk_append (h : ∀ b ∈ t, q.isStop b = false) (s : List Byte) :
    walk q .content offset (t ++ s) =
      match control? t with
      | some (i, b) => .control b (offset + i)
      | none => walk q .content (offset + t.length) s := by
  induction t generalizing offset with
  | nil => rfl
  | cons b t ih =>
    rw [List.forall_mem_cons] at h
    rw [List.cons_append, walk_content h.1, control?_cons, ih h.2]
    split
    · rfl
    · rcases control? t with _ | ⟨i, c⟩
      · rw [List.length_cons, Nat.add_assoc offset, Nat.add_comm 1]
        rfl
      · rw [Option.map_some]
        dsimp only
        rw [Nat.add_assoc offset, Nat.add_comm 1]

/-- An escape. Behind a single quote this is a second one, which is no control byte. -/
theorem walk_escape (h : q.isEscape (b :: c :: s) = true) :
    walk q .content offset (b :: c :: s) =
      if c.isControl then .control c (offset + 1) else walk q .content (offset + 2) s := by
  cases q with
  | single =>
    obtain ⟨rfl, rfl⟩ : b = 0x27 ∧ c = 0x27 := by simpa [Quote.isEscape] using h
    rfl
  | double =>
    obtain rfl : b = 0x5C := by simpa [Quote.isEscape] using h
    exact walk_of_visit rfl s

theorem walk_escape_nil (h : q.isEscape [b] = true) : walk q .content offset [b] = .exhausted := by
  cases q with
  | single => simp [Quote.isEscape] at h
  | double =>
    obtain rfl : b = 0x5C := by simpa [Quote.isEscape] using h
    rfl

theorem walk_byte (h : q.isEscape (q.byte :: s) = false) :
    walk q .content offset (q.byte :: s) = .closed offset := by
  cases q with
  | single =>
    rcases s with _ | ⟨c, s⟩
    · rfl
    · have hc : c ≠ 0x27 := by simpa [Quote.isEscape, Quote.byte] using h
      change walk .single (.quote offset) (offset + 1) (c :: s) = _
      rw [walk, Phase.step, if_neg hc]
  | double => rfl

/-! ## The reader -/

/-- An answer about so many bytes, the first of which is at the offset, says what the verdict
does. -/
inductive Answers (offset length : Nat) : Outcome → Verdict → Prop
  | closed (size : Nat) : Answers offset length (.closed size) (.closed (offset + size))
  | control (b : Byte) (i settled : Nat) :
      Answers offset length (.faulty (.controlByte b) (i + 1) settled) (.control b (offset + i))
  | exhausted (settled : Nat) :
      Answers offset length (.faulty .unterminated length settled) .exhausted

theorem Answers.shift {length : Nat} {o : Outcome} {v : Verdict}
    (h : Answers (offset + n) length o v) : Answers offset (n + length) (o.shift n) v := by
  cases h with
  | closed size =>
    rw [Nat.add_assoc]
    exact .closed (n + size)
  | control b i settled =>
    rw [Nat.add_assoc]
    exact .control b (n + i) (n + settled)
  | exhausted settled => exact .exhausted (n + settled)

/-- Behind a stretch there is the end of the input, an escape, or the closing quote. -/
theorem answers_readBehind (n : Nat) (hstop : ∀ b ∈ s.head?, q.isStop b = true)
    (ih : ∀ (rest : List Byte) (offset : Nat), rest.length < s.length →
      Answers offset rest.length (read q rest) (walk q .content offset rest)) :
    Answers offset (n + s.length) (readBehind q n s) (walk q .content (offset + n) s) := by
  rw [readBehind]
  by_cases hescape : q.isEscape s = true
  · -- The reader starts anew behind an escape, and the walk is back at content there.
    rw [if_pos hescape]
    rcases s with _ | ⟨b, _ | ⟨c, rest⟩⟩
    · rw [isEscape_nil] at hescape
      cases hescape
    · rw [walk_escape_nil hescape]
      exact .exhausted 0
    · rw [walk_escape hescape]
      dsimp only [List.tail_cons]
      split
      · exact .control c (n + 1) 0
      · have hrest := ih rest (offset + (n + 2)) (by simp only [List.length_cons]; omega)
        have hlength : n + (b :: c :: rest).length = n + 2 + rest.length := by
          rw [List.length_cons, List.length_cons]
          omega
        rw [hlength, Nat.add_assoc offset]
        exact hrest.shift
  · rw [if_neg hescape]
    rcases s with _ | ⟨b, s⟩
    · exact .exhausted 0
    · -- A byte that ends a stretch and starts no escape can only be the closing quote.
      rw [Bool.not_eq_true] at hescape
      obtain rfl := eq_byte_of_isStop (hstop b rfl) hescape
      rw [if_neg (List.cons_ne_nil _ _), walk_byte hescape]
      exact .closed n

/-- The reader answers what the walk comes to. The induction is on the length of the bytes, as the
reader goes on behind an escape, and a walk does so one byte at a time. -/
theorem answers_read (q : Quote) (s : List Byte) (offset : Nat) :
    Answers offset s.length (read q s) (walk q .content offset s) := by
  have hstretch : ∀ b ∈ s.takeWhile (!q.isStop ·), q.isStop b = false := by
    intro b hb
    simpa using List.mem_takeWhile_imp hb
  have happend := List.takeWhile_append_dropWhile (p := (!q.isStop ·)) (l := s)
  have hlength := congrArg List.length happend
  rw [List.length_append] at hlength
  rw [read_eq, ← happend, walk_append hstretch, happend]
  rcases control? (s.takeWhile (!q.isStop ·)) with _ | ⟨i, b⟩
  · have hstop : ∀ b ∈ (s.dropWhile (!q.isStop ·)).head?, q.isStop b = true := by
      intro b hb
      simpa [Option.mem_def.mp hb] using List.head?_dropWhile_not (!q.isStop ·) s
    rw [← hlength]
    refine answers_readBehind _ hstop fun rest offset hbehind ↦ ?_
    have hlt : rest.length < s.length := by omega
    exact answers_read q rest offset
  · exact .control b i 0
termination_by s.length

end Quoted

/-! ## Readings -/

namespace Reading

variable {q : Quote} {b : Byte} {s : List Byte} {offset x : Nat}

theorem quoted_of_closed (h : Quoted.walk q .content offset s = .closed x) :
    ∃ size, x = offset + size ∧ quoted q s = scalar .text 1 size (size + 2) (q.byte :: s) := by
  have hanswers := Quoted.answers_read q s offset
  rw [h] at hanswers
  rw [quoted]
  generalize Quoted.read q s = o at hanswers ⊢
  obtain ⟨size⟩ := hanswers
  exact ⟨size, rfl, rfl⟩

theorem quoted_of_control (h : Quoted.walk q .content offset s = .control b x) :
    ∃ i, x = offset + i ∧ (quoted q s).found = .error (.malformed (.controlByte b) (i + 2)) := by
  have hanswers := Quoted.answers_read q s offset
  rw [h] at hanswers
  rw [quoted]
  generalize Quoted.read q s = o at hanswers ⊢
  obtain _ | ⟨_, i, settled⟩ := hanswers
  exact ⟨i, rfl, rfl⟩

theorem quoted_of_exhausted (h : Quoted.walk q .content offset s = .exhausted) :
    (quoted q s).found = .error (.malformed .unterminated (s.length + 1)) := by
  have hanswers := Quoted.answers_read q s offset
  rw [h] at hanswers
  rw [quoted]
  generalize Quoted.read q s = o at hanswers ⊢
  cases hanswers
  rfl

end Reading

end YamlLexer
