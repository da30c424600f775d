import YamlLexer.Lexer.Pull
import YamlLexer.Nesting.Cost

/-!
# Progress

A lexer cannot deliver tokens forever. Unread bytes, open structures and tokens in line are paid
into one account, `Lexer.potential`. A construct takes at least one byte, which pays for the
tokens it becomes and for closing the structures it opens; so every token but `nothing` leaves the
account smaller (`potential_lt_of_next`), and a stream can be drained by recursion on it.
-/

namespace YamlLexer.Lexer

/-- A bound on the number of tokens that are still to come. -/
def potential (l : Lexer) : Nat := 7 * l.cursor.remaining + l.stack.debt + l.pending.length

/-- The tokens of a construct are paid for by its bytes, or at the end of the input by the debt. -/
theorem potential_lt_of_scan {l l' : Lexer} {token : Token} {pending : List Token}
    (h : l.scan = (.ok (token :: pending), l')) :
    7 * l'.cursor.remaining + l'.stack.debt + pending.length <
      7 * l.cursor.remaining + l.stack.debt := by
  rw [scan] at h
  split at h
  · cases h
  · rename_i c hfound
    rcases hnesting : l.stack.apply l.nextPlace.column c with ⟨stack, _ | tokens⟩
    · rw [hnesting] at h
      cases h
    · rw [hnesting] at h
      cases h
      have hmoved : (l.moveOver l.nextPlace l.nextReading).cursor.remaining =
          l.cursor.source.length - (l.nextPlace.offset + l.nextReading.width) := by
        simp only [moveOver, Cursor.remaining, Cursor.moveTo]
        omega
      have hplace := l.offset_nextPlace
      have hoffset := l.cursor.offset_add_remaining
      change 7 * (l.moveOver l.nextPlace l.nextReading).cursor.remaining + stack.debt
        + pending.length < _
      rcases l.nextReading_cases with ⟨hend, hreading⟩ | ⟨hlt, hwidth⟩
      · -- The end of the input takes no byte, so the debt has to pay for it.
        rw [hreading] at hfound
        cases hfound
        have hdebt := Stack.length_endStream_add_debt hnesting
        rw [List.length_cons] at hdebt
        omega
      · -- Any other construct takes a byte at least, which is worth seven tokens.
        have hdebt := Stack.length_apply_add_debt hnesting
        rw [List.length_cons] at hdebt
        omega

theorem potential_lt_of_next {l l' : Lexer} {token : Token} (h : l.next = (.ok token, l'))
    (htoken : token ≠ .nothing) : l'.potential < l.potential := by
  rw [next] at h
  split at h
  · cases h
  · split at h
    · rename_i hpending
      cases h
      simp [potential, hpending]
    · rename_i hpending
      split at h
      · cases h
      · cases h
        exact absurd rfl htoken
      · rename_i hscan
        cases h
        have := potential_lt_of_scan hscan
        simp only [potential, hpending, List.length_nil]
        omega

end YamlLexer.Lexer
