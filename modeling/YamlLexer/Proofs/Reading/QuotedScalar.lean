import Mathlib.Data.List.TakeWhile
import YamlLexer.Lexeme.Quoted

/-!
# Which quoted scalars are closed

The reader of quoted scalars goes a stretch at a time, which suits its answers about malformed
scalars, and no proof. `Quoted.Closes` is the grammar of well-formed ones, a byte or an escape at a
time: a scalar ends at the first quote that starts no escape. The two agree (`read_eq_closed_iff`),
so a fact about closed scalars is proved by induction on the grammar.

The grammar has three rules: the closing quote, a byte of content, and an escape with the byte that
it stands for. It says nothing about scalars that are malformed, which have an answer of their own
(`Quoted.read`). `Quoted.walk` does, and is compared with the reader elsewhere.
-/

namespace YamlLexer.Quoted

/-- Behind the opening quote there are `n` bytes of content, and then the closing quote. -/
inductive Closes (q : Quote) : List Byte → Nat → Prop
  | close (s : List Byte) (escape : q.isEscape (q.byte :: s) = false) : Closes q (q.byte :: s) 0
  | content {b : Byte} {s : List Byte} {n : Nat} (stop : q.isStop b = false)
      (control : b.isControl = false) (rest : Closes q s n) : Closes q (b :: s) (n + 1)
  | escape {b c : Byte} {s : List Byte} {n : Nat} (escape : q.isEscape (b :: c :: s) = true)
      (control : c.isControl = false) (rest : Closes q s n) : Closes q (b :: c :: s) (n + 2)

variable {q : Quote} {b c : Byte} {s t : List Byte} {n : Nat}

theorem isStop_byte (q : Quote) : q.isStop q.byte = true := by
  cases q <;> rfl

theorem isStop_of_isEscape (h : q.isEscape (b :: s) = true) : q.isStop b = true := by
  cases q with
  | single =>
    obtain ⟨rfl, -⟩ : b = 0x27 ∧ _ := by simpa [Quote.isEscape] using h
    rfl
  | double =>
    obtain rfl : b = 0x5C := by simpa [Quote.isEscape] using h
    rfl

theorem eq_byte_of_isStop (hstop : q.isStop b = true) (hescape : q.isEscape (b :: s) = false) :
    b = q.byte := by
  cases q with
  | single =>
    obtain rfl : b = 0x27 := by simpa [Quote.isStop] using hstop
    rfl
  | double =>
    have hne : b ≠ 0x5C := by simpa [Quote.isEscape] using hescape
    obtain rfl : b = 0x22 := by simpa [Quote.isStop, hne] using hstop
    rfl

theorem isEscape_nil (q : Quote) : q.isEscape [] = false := by
  cases q <;> rfl

theorem isStop_of_dropWhile (h : s.dropWhile (!q.isStop ·) = b :: t) : q.isStop b = true := by
  have hhead := List.head?_dropWhile_not (!q.isStop ·) s
  rw [h] at hhead
  simpa using hhead

theorem control?_eq_none_iff : control? s = none ↔ ∀ b ∈ s, b.isControl = false := by
  rw [control?]
  cases hfind : s.findIdx? Byte.isControl with
  | none => simpa [List.findIdx?_eq_none_iff] using hfind
  | some i =>
    obtain ⟨hlt, hcontrol, -⟩ := List.findIdx?_eq_some_iff_getElem.mp hfind
    simp only [Option.bind_some, List.getElem?_eq_getElem hlt, Option.map_some, reduceCtorEq,
      false_iff]
    exact fun h ↦ by simp [h _ (List.getElem_mem hlt)] at hcontrol

theorem control?_cons (b : Byte) (s : List Byte) : control? (b :: s) =
    if b.isControl then some (0, b) else (control? s).map fun found ↦ (found.1 + 1, found.2) := by
  rw [control?, control?, List.findIdx?_cons]
  split
  · rfl
  · rcases s.findIdx? Byte.isControl with _ | i
    · rfl
    · rcases h : s[i]? with _ | c <;> simp [h]

/-! ## The reader, a stretch at a time -/

/-- The answer behind a stretch of `n` bytes that are in order. -/
def readBehind (q : Quote) (n : Nat) (after : List Byte) : Outcome :=
  if q.isEscape after then
    match after.tail with
    | [] => .faulty .unterminated (n + after.length) 0
    | b :: rest =>
      if b.isControl then .faulty (.controlByte b) (n + 2) 0
      else (read q rest).shift (n + 2)
  else if after = [] then .faulty .unterminated n 0
  else .closed n

/-- The reader in terms of a first stretch and of what follows it. -/
theorem read_eq (q : Quote) (s : List Byte) : read q s =
    match control? (s.takeWhile (!q.isStop ·)) with
    | some (i, b) => .faulty (.controlByte b) (i + 1) 0
    | none => readBehind q (s.takeWhile (!q.isStop ·)).length (s.dropWhile (!q.isStop ·)) := by
  have hdrop : s.drop ((s.takeWhile (!q.isStop ·)).length + 1) =
      (s.dropWhile (!q.isStop ·)).tail := by
    rw [← List.drop_drop, drop_length_takeWhile, List.drop_one]
  have hlength : s.length =
      (s.takeWhile (!q.isStop ·)).length + (s.dropWhile (!q.isStop ·)).length := by
    rw [← List.length_append, List.takeWhile_append_dropWhile]
  rw [read, readBehind, ← hdrop, ← hlength]
  simp only [drop_length_takeWhile]
  rcases control? (s.takeWhile (!q.isStop ·)) with _ | ⟨i, b⟩
  · dsimp only
    split
    · split
      · rename_i hnil
        rw [hnil]
      · rename_i hcons
        rw [hcons]
    · rw [hlength]
      rcases s.dropWhile (!q.isStop ·) with _ | ⟨b, after⟩
      · simp
      · simp
  · rfl

/-!
## The grammar, a stretch at a time

A stretch without control bytes is content byte by byte, so it may be put in front of a closed
scalar, and taken off again. Behind it comes the closing quote or an escape.
-/

theorem Closes.append (hstop : ∀ b ∈ t, q.isStop b = false)
    (hcontrol : ∀ b ∈ t, b.isControl = false) (h : Closes q s n) :
    Closes q (t ++ s) (t.length + n) := by
  induction t with
  | nil => simpa using h
  | cons b t ih =>
    rw [List.forall_mem_cons] at hstop hcontrol
    rw [List.cons_append, List.length_cons, Nat.add_right_comm]
    exact .content hstop.1 hcontrol.1 (ih hstop.2 hcontrol.2)

/-- The first stretch of a closed scalar is content, and the scalar closes behind it. -/
theorem Closes.stretch (h : Closes q s n) :
    (∀ b ∈ s.takeWhile (!q.isStop ·), b.isControl = false) ∧
      ∃ m, n = (s.takeWhile (!q.isStop ·)).length + m ∧
        Closes q (s.dropWhile (!q.isStop ·)) m := by
  induction h with
  | close s escape =>
    have hstop := isStop_byte q
    simpa [hstop] using Closes.close s escape
  | @content b s n stop control rest ih =>
    obtain ⟨hcontrol, m, rfl, hrest⟩ := ih
    rw [List.takeWhile_cons_of_pos (by simpa), List.dropWhile_cons_of_pos (by simpa)]
    refine ⟨List.forall_mem_cons.mpr ⟨control, hcontrol⟩, m, ?_, hrest⟩
    rw [List.length_cons, Nat.add_right_comm]
  | @escape b c s n escape control rest ih =>
    have hstop := isStop_of_isEscape escape
    simpa [hstop] using Closes.escape escape control rest

theorem Closes.of_dropWhile (hcontrol : control? (s.takeWhile (!q.isStop ·)) = none)
    (h : Closes q (s.dropWhile (!q.isStop ·)) n) :
    Closes q s ((s.takeWhile (!q.isStop ·)).length + n) := by
  have hstop : ∀ b ∈ s.takeWhile (!q.isStop ·), q.isStop b = false := by
    intro b hb
    simpa using List.mem_takeWhile_imp hb
  have happend := h.append hstop (control?_eq_none_iff.mp hcontrol)
  rwa [List.takeWhile_append_dropWhile] at happend

theorem Closes.of_isEscape (h : Closes q s n) (hescape : q.isEscape s = true) :
    ∃ b c t m, s = b :: c :: t ∧ n = m + 2 ∧ c.isControl = false ∧ Closes q t m := by
  cases h with
  | close s escape => exact absurd hescape (by simp [escape])
  | content stop => exact absurd (isStop_of_isEscape hescape) (by simp [stop])
  | escape _ control rest => exact ⟨_, _, _, _, rfl, rfl, control, rest⟩

theorem Closes.eq_zero (h : Closes q (b :: s) n) (hstop : q.isStop b = true)
    (hescape : q.isEscape (b :: s) = false) : n = 0 := by
  cases h with
  | close => rfl
  | content stop => exact absurd hstop (by simp [stop])
  | escape escape => exact absurd escape (by simp [hescape])

/-!
## The reader follows the grammar

Both directions are by induction on the reader itself, which goes on behind an escape. The cases are
its own, and most of them are answers that the scalar is malformed.
-/

theorem read_sound (h : read q s = .closed n) : Closes q s n := by
  fun_induction read q s generalizing n with
  | case1 => cases h
  | case2 => cases h
  | case3 => cases h
  | case4 s stretch hnone hescape c rest hdrop hcontrol =>
    rename_i ih
    rw [← List.drop_drop, drop_length_takeWhile] at hdrop
    rw [drop_length_takeWhile] at hescape
    cases hread : read q rest with
    | faulty => simp [hread, Outcome.shift] at h
    | closed m =>
      obtain rfl : stretch.length + 2 + m = n := by simpa [hread, Outcome.shift] using h
      rw [Nat.add_assoc, Nat.add_comm 2]
      refine .of_dropWhile hnone ?_
      cases hstop : s.dropWhile (!q.isStop ·) with
      | nil => simp [hstop] at hdrop
      | cons b t =>
        obtain rfl : t = c :: rest := by simpa [hstop] using hdrop
        rw [hstop] at hescape
        exact .escape hescape (by simpa using hcontrol) (ih hread)
  | case5 s stretch hnone hescape =>
    rename_i hlt
    obtain rfl : stretch.length = n := by simpa using h
    rw [drop_length_takeWhile, Bool.not_eq_true] at hescape
    refine .of_dropWhile (n := 0) hnone ?_
    cases hstop : s.dropWhile (!q.isStop ·) with
    | nil =>
      have hle : s.length ≤ stretch.length := by
        rw [← List.drop_eq_nil_iff, drop_length_takeWhile, hstop]
      omega
    | cons b t =>
      rw [hstop] at hescape
      obtain rfl := eq_byte_of_isStop (isStop_of_dropWhile hstop) hescape
      exact .close t hescape
  | case6 => cases h

theorem read_complete (h : Closes q s n) : read q s = .closed n := by
  obtain ⟨hcontrol, m, rfl, hrest⟩ := h.stretch
  clear h
  -- The cases are those of the reader. Where it finds a fault, the stretch or the escape would not
  -- be content.
  fun_induction read q s generalizing m with
  | case1 s stretch i b hsome =>
    rw [control?_eq_none_iff.mpr hcontrol] at hsome
    cases hsome
  | case2 s stretch hnone hescape hdrop =>
    rw [← List.drop_drop, drop_length_takeWhile] at hdrop
    rw [drop_length_takeWhile] at hescape
    obtain ⟨b, c, t, m, hs, -⟩ := hrest.of_isEscape hescape
    simp [hs] at hdrop
  | case3 s stretch hnone hescape c rest hdrop hc =>
    rw [← List.drop_drop, drop_length_takeWhile] at hdrop
    rw [drop_length_takeWhile] at hescape
    obtain ⟨b, d, t, m, hs, -, hd, -⟩ := hrest.of_isEscape hescape
    obtain ⟨rfl, -⟩ : d = c ∧ t = rest := by simpa [hs] using hdrop
    simp [hd] at hc
  | case4 s stretch hnone hescape c rest hdrop hc =>
    rename_i ih
    rw [← List.drop_drop, drop_length_takeWhile] at hdrop
    rw [drop_length_takeWhile] at hescape
    obtain ⟨b, d, t, m, hs, rfl, -, ht⟩ := hrest.of_isEscape hescape
    obtain ⟨rfl, rfl⟩ : d = c ∧ t = rest := by simpa [hs] using hdrop
    obtain ⟨hcontrol, k, rfl, hclosed⟩ := ht.stretch
    rw [ih hcontrol k hclosed, Outcome.shift, Nat.add_assoc, Nat.add_comm 2]
  | case5 s stretch hnone hescape hlt =>
    rw [drop_length_takeWhile, Bool.not_eq_true] at hescape
    cases hstop : s.dropWhile (!q.isStop ·) with
    | nil =>
      rw [hstop] at hrest
      cases hrest
    | cons b t =>
      rw [hstop] at hrest hescape
      rw [hrest.eq_zero (isStop_of_dropWhile hstop) hescape]
      rfl
  | case6 s stretch hnone hescape hle =>
    have hnil : s.dropWhile (!q.isStop ·) = [] := by
      rw [← drop_length_takeWhile]
      exact List.drop_eq_nil_of_le (Nat.not_lt.mp hle)
    rw [hnil] at hrest
    cases hrest

/-- The reader finds the closing quote of the grammar. -/
theorem read_eq_closed_iff : read q s = .closed n ↔ Closes q s n :=
  ⟨read_sound, read_complete⟩

/-! ## How far a malformed scalar is read -/

/-- A fault is found somewhere in the input, and so are the stretches in front of it. -/
theorem settled_le {fault : ScalarFault} {extent settled : Nat}
    (h : read q s = .faulty fault extent settled) : settled ≤ s.length := by
  fun_induction read q s generalizing extent settled with
  | case1 =>
    cases h
    exact Nat.zero_le _
  | case2 =>
    cases h
    exact Nat.zero_le _
  | case3 =>
    cases h
    exact Nat.zero_le _
  | case4 s stretch hnone hescape b rest hdrop hb =>
    rename_i ih
    have hlength := congrArg List.length hdrop
    rw [List.length_drop, List.length_cons] at hlength
    rcases hread : read q rest with size | ⟨fault', extent', settled'⟩
    · rw [hread] at h
      cases h
    · rw [hread] at h
      cases h
      have hle := ih hread
      omega
  | case5 => cases h
  | case6 =>
    cases h
    exact Nat.zero_le _

/-! ## What a closed scalar looks like -/

/-- A closed scalar ends with its quote, and there is no control byte in it. -/
theorem Closes.exists_append (h : Closes q s n) :
    ∃ content rest, s = content ++ q.byte :: rest ∧ content.length = n ∧
      ∀ b ∈ content, b.isControl = false := by
  induction h with
  | close s => exact ⟨[], s, rfl, rfl, by simp⟩
  | content stop control _ ih =>
    obtain ⟨content, rest, rfl, rfl, hcontent⟩ := ih
    exact ⟨_ :: content, rest, rfl, rfl, List.forall_mem_cons.mpr ⟨control, hcontent⟩⟩
  | @escape b c s n escape control _ ih =>
    obtain ⟨content, rest, rfl, rfl, hcontent⟩ := ih
    have hb : b.isControl = false := by
      have hstop := isStop_of_isEscape escape
      cases q with
      | single =>
        obtain rfl : b = 0x27 := by simpa [Quote.isStop] using hstop
        rfl
      | double =>
        obtain rfl | rfl : b = 0x22 ∨ b = 0x5C := by simpa [Quote.isStop] using hstop
        · rfl
        · rfl
    refine ⟨b :: c :: content, rest, rfl, rfl, ?_⟩
    exact List.forall_mem_cons.mpr ⟨hb, List.forall_mem_cons.mpr ⟨control, hcontent⟩⟩

end YamlLexer.Quoted
