import YamlLexer.Nesting.Closing

/-!
# The levels of a stack

A stack has no frame for the stream itself, and what is said of it when nothing is open comes from
elsewhere: its kind is a field of the stack, and its rank is zero. Here the stream is a level like
the others, and the outermost one, so that there is always a level. What a client is told about the
stack is told of the innermost level, and the depth is its index.

Closing takes levels off from the inside, and never the first one, however many are to be closed
(`levels_close`).

This is also how a machine keeps the stack, as one block of levels that is never empty. The two
views agree in what a client can ask for (`length_levels`, `getLast?_levels`), so that it does not
matter to statements about clients which of them is used.
-/

namespace YamlLexer

/-- What indentation and nesting depend on: the token that a structure is known by, and its rank. -/
structure Level where
  kind : Token
  indent : Nat
deriving DecidableEq, Repr

def Frame.level (f : Frame) : Level := ⟨f.kind, f.indent⟩

namespace Stack

/-- The levels of a stack, from the outside in. -/
def levels (s : Stack) : List Level := ⟨s.rootKind, 0⟩ :: s.frames.reverse.map Frame.level

variable {s s' : Stack} {tokens : List Token} {n : Nat}

@[simp] theorem length_levels (s : Stack) : s.levels.length = s.depth + 1 := by
  simp [levels, depth]

theorem getLast?_levels (s : Stack) : s.levels.getLast? = some ⟨s.kind, s.indent⟩ := by
  rw [levels, kind, indent]
  rcases s.frames with _ | ⟨f, below⟩
  · rfl
  · rw [List.reverse_cons, List.map_append, ← List.cons_append]
    exact List.getLast?_concat

theorem levels_of_frames {f : Frame} {below : List Frame} (h : s.frames = f :: below) :
    s.levels = (s.leaving below).levels ++ [f.level] := by
  simp [levels, leaving, h]

theorem rootKind_close (s : Stack) (n : Nat) : (s.close n).stack.rootKind = s.rootKind := by
  induction n generalizing s with
  | zero => rfl
  | succ n ih =>
    rw [close]
    split
    · rfl
    · split
      · rfl
      · exact ih _

/-- So many levels are taken off, but never the first one. -/
theorem levels_close (h : s.close n = ⟨s', .ok tokens⟩) :
    s'.levels = s.levels.take (max 1 (s.levels.length - n)) := by
  have hroot : s'.rootKind = s.rootKind := by
    rw [← s.rootKind_close n, h]
  have htake : max 1 (s.levels.length - n) = s.depth - n + 1 := by
    rw [length_levels]
    omega
  rw [htake, levels, levels, List.take_succ_cons, hroot, frames_close h, List.reverse_drop,
    List.map_take, depth]

end Stack

end YamlLexer
