import YamlLexer.Proofs.Run

/-!
# Where a token comes from

A construct becomes its tokens all at once, but each takes a pull of its own to be delivered. So
what is known about a scan has to be carried to the pulls behind it. `Lexer.origin` is the lexer
whose scan the next pull delivers from, and `exists_supplies` says that the token, with those in
line behind it, is the end of what that scan has lined up. The stack has not changed in between.

Where something is in line, the origin is not the lexer that is asked but an earlier one of the same
run (`exists_origin_eq_pulled`). The tokens that come between have been delivered in the meantime,
so a statement about the run may speak of all of them at once, and of the stack that the scan has
left.
-/

namespace YamlLexer.Lexer

/-- The lexer that has scanned what is delivered after so many pulls: the one at that point if
nothing is in line, and otherwise the one that lined it up. -/
def origin (l : Lexer) : Nat → Lexer
  | 0 => l
  | n + 1 => if (l.pulled (n + 1)).pending = [] then l.pulled (n + 1) else l.origin n

variable {l l' o : Lexer} {n : Nat} {token : Token} {answer : Except LexError Token}

theorem exists_origin_eq_pulled (l : Lexer) (n : Nat) : ∃ m, l.origin n = l.pulled m := by
  induction n with
  | zero => exact ⟨0, rfl⟩
  | succ n ih =>
    rw [origin]
    split
    · exact ⟨n + 1, rfl⟩
    · exact ih

theorem origin_of_pending_eq_nil (h : (l.pulled n).pending = []) : l.origin n = l.pulled n := by
  rcases n with _ | n
  · rfl
  · rw [origin, if_pos h]

theorem origin_of_pending_ne_nil (h : (l.pulled (n + 1)).pending ≠ []) :
    l.origin (n + 1) = l.origin n := by
  rw [origin, if_neg h]

/-! ## What a scan supplies -/

/-- The tokens of a construct that `o` has scanned are the earlier ones and the given ones, and `l`
has the stack that the construct has left. -/
structure Supplies (o : Lexer) (c : Construct) (earlier tokens : List Token) (l : Lexer) :
    Prop where
  found : o.nextReading.found = .ok c
  effect : o.stack.apply o.nextPlace.column c = ⟨l.stack, .ok (earlier ++ tokens)⟩

theorem Supplies.tail {c : Construct} {earlier tokens : List Token}
    (h : Supplies o c earlier (token :: tokens) l) (hstack : l'.stack = l.stack) :
    Supplies o c (earlier ++ [token]) tokens l' := by
  refine ⟨h.found, ?_⟩
  rw [h.effect, hstack, List.append_assoc]
  rfl

/-- A pull that delivers a token takes it from those in line, or scans it, or finds that there are
no more. -/
theorem Pull.supplies (hpull : l.Pull (.ok token) l') :
    (l.pending = token :: l'.pending ∧ l'.stack = l.stack) ∨
      (l.pending = [] ∧ ∃ c, Supplies l c [] (token :: l'.pending) l') ∨
      token = .nothing ∧ l'.pending = [] := by
  rcases hpull with _ | ⟨-, queue⟩ | _ | _ | ⟨-, queue, found, effect⟩
  · exact .inl ⟨queue, rfl⟩
  · rename_i c stack tokens
    rcases tokens with _ | ⟨first, tokens⟩
    · exact .inr (.inr ⟨rfl, rfl⟩)
    · exact .inr (.inl ⟨queue, c, found, effect⟩)

/-- A delivered token and those in line behind it are the last ones that its origin has lined up.
The induction is on the number of pulls: each takes one token more off the line, or scans. Where the
stream has ended there is nothing to speak of, so either the token is a proper one, or something is
left in line. -/
theorem exists_supplies (hl : l.pending = []) (hnext : (l.pulled n).next.1 = .ok token)
    (hproper : token ≠ .nothing ∨ (l.pulled (n + 1)).pending ≠ []) :
    ∃ c earlier, Supplies (l.origin n) c earlier (token :: (l.pulled (n + 1)).pending)
      (l.pulled (n + 1)) := by
  induction n generalizing token with
  | zero =>
    have hpull := (l.pulled 0).pull_next
    rw [hnext] at hpull
    rcases hpull.supplies with ⟨hqueue, -⟩ | ⟨-, c, hsupplies⟩ | ⟨hnothing, hnil⟩
    · rw [pulled, hl] at hqueue
      cases hqueue
    · exact ⟨c, [], hsupplies⟩
    · rcases hproper with hproper | hproper
      · exact absurd hnothing hproper
      · exact absurd hnil hproper
  | succ n ih =>
    have hpull := (l.pulled (n + 1)).pull_next
    rw [hnext] at hpull
    rcases hpull.supplies with ⟨hqueue, hstack⟩ | ⟨hnil, c, hsupplies⟩ | ⟨hnothing, hnil⟩
    · have hne : (l.pulled (n + 1)).pending ≠ [] := by
        rw [hqueue]
        exact List.cons_ne_nil _ _
      -- The pull before this one has not failed, or this one would have repeated the error.
      obtain ⟨first, hfirst⟩ : ∃ first, (l.pulled n).next.1 = .ok first := by
        rcases hanswer : (l.pulled n).next.1 with e | first
        · have hbefore := (l.pulled n).pull_next
          rw [hanswer] at hbefore
          cases hbefore.failure_eq.symm.trans hpull.failure_of_ok
        · exact ⟨first, rfl⟩
      obtain ⟨c, earlier, hsupplies⟩ := ih hfirst (.inr hne)
      rw [hqueue] at hsupplies
      rw [origin_of_pending_ne_nil hne]
      exact ⟨c, earlier ++ [first], hsupplies.tail hstack⟩
    · rw [origin_of_pending_eq_nil hnil]
      exact ⟨c, [], hsupplies⟩
    · rcases hproper with hproper | hproper
      · exact absurd hnothing hproper
      · exact absurd hnil hproper

end YamlLexer.Lexer
