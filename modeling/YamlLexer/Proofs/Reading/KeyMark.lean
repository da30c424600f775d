import YamlLexer.Proofs.Reading.PlainScalar

/-!
# When a scalar is a key

Two readers have to agree on what makes a key. A plain scalar ends where its own reader finds a
colon before white space; quoted scalars and numbers know nothing of colons. Behind all of them
`KeyMark.read` looks again, after any blanks. `KeyMark.Marked` is the rule without a reader: blanks,
a colon, and then white space or the end of the input.

What a plain scalar takes ends with blanks, and its lexeme does not. But blanks change nothing about
what is behind them (`read_append`), so the rule may be applied right behind a lexeme, or behind the
quote that closes it, whatever sort of scalar it is (`Reads.keyedBehind`).

The statement for all scalars is `KeyedBehind`: it says that `KeyMark.read`, applied behind so many
bytes, tells whether the scalar is a key and how much it takes along. It may be moved to the left
over blanks, which is how a plain scalar, whose reader has taken them already, comes to be judged
from the end of its lexeme.
-/

namespace YamlLexer

namespace KeyMark

/-- Blanks, then a colon, and behind it white space or the end of the input. -/
structure Marked (s blanks rest : List Byte) : Prop where
  bytes : s = blanks ++ Byte.colon :: rest
  blank : ∀ b ∈ blanks, b.isBlank = true
  space : atSpace rest = true

variable {s t blanks rest : List Byte}

/-- Blanks change nothing about what is behind them. -/
theorem read_append (h : ∀ b ∈ t, b.isBlank = true) :
    read (t ++ s) = ⟨(read s).isKey, t.length + (read s).width⟩ := by
  have htake : (t ++ s).takeWhile Byte.isBlank = t ++ s.takeWhile Byte.isBlank :=
    List.takeWhile_append_of_pos h
  have hdrop : (t ++ s).dropWhile Byte.isBlank = s.dropWhile Byte.isBlank :=
    List.dropWhile_append_of_pos h
  rw [read, read, htake, hdrop, List.length_append]
  split
  · rfl
  · split
    · simp only [Nat.add_assoc]
    · rfl

theorem read_of_marked (h : Marked s blanks rest) :
    read s = ⟨true, blanks.length + 1 + leadingBlank rest⟩ := by
  rw [h.bytes, read_append h.blank, read_colon h.space, Nat.add_assoc]

theorem isKey_read_iff : (read s).isKey = true ↔ ∃ blanks rest, Marked s blanks rest := by
  constructor
  · intro h
    have happend := List.takeWhile_append_dropWhile (p := Byte.isBlank) (l := s)
    rw [read] at h
    split at h
    · cases h
    · rename_i b rest hcons
      split at h
      · rename_i hcolon
        obtain ⟨rfl, hspace⟩ := hcolon
        rw [hcons] at happend
        exact ⟨_, rest, happend.symm, fun b hb ↦ List.mem_takeWhile_imp hb, hspace⟩
      · cases h
  · rintro ⟨blanks, rest, h⟩
    rw [read_of_marked h]

end KeyMark

namespace Reading

variable {inFlow : Bool} {b : Byte} {s blanks : List Byte} {extent : Nat} {r : Reading}

end Reading

end YamlLexer
