import YamlLexer.Nesting.Stack

/-!
# Closing structures

Structures are closed from the inside out, each with the token that closes its kind. A kind that
nothing closes stops this: the structures closed so far stay closed, their tokens are lost, and
the one that could not be closed stays open. Only an override of a kind leads there.
-/

namespace YamlLexer

/-- Why the open structures do not allow a construct. -/
inductive NestingFault where
  /-- A structure has a kind that nothing closes. -/
  | unclosable (kind : Token)
  /-- No collection of the shape is open. -/
  | unopened (shape : Shape)
deriving DecidableEq, Repr

/-- What became of the stack, and the tokens that this takes. -/
structure Nesting where
  /-- The stack reached, also when there is a fault. -/
  stack : Stack
  /-- The tokens, in the order in which they are delivered. -/
  tokens : Except NestingFault (List Token)

/-- Follows a change of the stack by another one that does not fail. Its tokens come last. -/
def Nesting.andThen (n : Nesting) (step : Stack → Stack × List Token) : Nesting :=
  match n.tokens with
  | .error _ => n
  | .ok tokens =>
    let (stack, more) := step n.stack
    ⟨stack, .ok (tokens ++ more)⟩

theorem Nesting.andThen_eq_ok_iff {n : Nesting} {step : Stack → Stack × List Token} {s : Stack}
    {tokens : List Token} :
    n.andThen step = ⟨s, .ok tokens⟩ ↔
      ∃ first, n.tokens = .ok first ∧ (step n.stack).1 = s ∧ first ++ (step n.stack).2 = tokens := by
  obtain ⟨stack, _ | first⟩ := n <;> simp [andThen]

/-- The tokens that close a structure. One without a kind is closed silently. -/
def Frame.closers (f : Frame) : Except NestingFault (List Token) :=
  if f.kind = .nothing then .ok []
  else
    match f.kind.closing? with
    | some token => .ok [token]
    | none => .error (.unclosable f.kind)

theorem Frame.closers_of_closing? {f : Frame} {token : Token} (h : f.kind.closing? = some token) :
    f.closers = .ok [token] := by
  have hkind : f.kind ≠ .nothing := by
    intro hnothing
    rw [hnothing] at h
    cases h
  rw [closers, if_neg hkind, h]

theorem Frame.length_closers {f : Frame} {tokens : List Token} (h : f.closers = .ok tokens) :
    tokens.length ≤ 1 := by
  rw [closers] at h
  split at h
  · cases h
    simp
  · split at h <;> cases h
    simp

namespace Stack

/-- Closes so many of the structures, or all if there are fewer. -/
def close (s : Stack) : Nat → Nesting
  | 0 => ⟨s, .ok []⟩
  | n + 1 =>
    match s.frames with
    | [] => ⟨s, .ok []⟩
    | f :: below =>
      match f.closers with
      | .error fault => ⟨s, .error fault⟩
      | .ok tokens =>
        let rest := (s.leaving below).close n
        ⟨rest.stack, rest.tokens.map (tokens ++ ·)⟩

theorem close_succ_eq_ok {s s' : Stack} {n : Nat} {tokens : List Token} {f : Frame}
    {below : List Frame} (hframes : s.frames = f :: below)
    (h : s.close (n + 1) = ⟨s', .ok tokens⟩) :
    ∃ first rest, f.closers = .ok first ∧ (s.leaving below).close n = ⟨s', .ok rest⟩ ∧
      first ++ rest = tokens := by
  simp only [close, hframes] at h
  split at h
  · cases h
  · rename_i first hfirst
    rcases hrest : (s.leaving below).close n with ⟨stack, _ | rest⟩
    · rw [hrest] at h
      cases h
    · rw [hrest] at h
      cases h
      exact ⟨first, rest, hfirst, rfl, rfl⟩

theorem frames_close {s s' : Stack} {n : Nat} {tokens : List Token}
    (h : s.close n = ⟨s', .ok tokens⟩) : s'.frames = s.frames.drop n := by
  induction n generalizing s s' tokens with
  | zero =>
    cases h
    rfl
  | succ n ih =>
    cases hframes : s.frames with
    | nil =>
      simp only [close, hframes] at h
      cases h
      simp [hframes]
    | cons f below =>
      obtain ⟨first, rest, -, hrest, -⟩ := close_succ_eq_ok hframes h
      exact ih hrest

theorem length_close_le {s s' : Stack} {n : Nat} {tokens : List Token}
    (h : s.close n = ⟨s', .ok tokens⟩) : tokens.length ≤ min n s.depth := by
  induction n generalizing s s' tokens with
  | zero =>
    cases h
    simp
  | succ n ih =>
    cases hframes : s.frames with
    | nil =>
      simp only [close, hframes] at h
      cases h
      simp
    | cons f below =>
      obtain ⟨first, rest, hfirst, hrest, rfl⟩ := close_succ_eq_ok hframes h
      have hlength := Frame.length_closers hfirst
      have hbelow : rest.length ≤ min n below.length := ih hrest
      rw [depth, hframes, List.length_append, List.length_cons]
      omega

/-- Closes everything, and drops an override of the kind of the empty stack. -/
def closeAll (s : Stack) : Nesting :=
  (s.close s.depth).andThen fun empty ↦ ({ empty with rootKind := .nothing }, [])

end Stack

end YamlLexer
