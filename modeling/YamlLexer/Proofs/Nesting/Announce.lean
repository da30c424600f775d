import YamlLexer.Nesting.Effect

/-!
# The tokens of a construct

A construct becomes tokens. All but the last say what becomes of the open structures, and have no
text behind them; the last is the construct's own, if it has one. So the order in which tokens wait
in line is no danger to the lexeme, which is held for one token at a time: that token comes last
(`apply_tokens`). A scalar has the token of a key right before it, or nothing at all
(`scalar_tokens`).

This holds of every stack, also where a client has overridden kinds.

The tokens are followed operation by operation, from the closing of one structure up to a whole
construct. None of this depends on which structures there are, so nothing is said about them here,
and the stack of a document does not occur.
-/

namespace YamlLexer

/-- Whether the token says what becomes of the open structures. -/
def Token.isStructural (t : Token) : Bool := !t.hasLexeme && t != .nothing

/-- The token that a construct stands for, besides those that its place calls for. -/
def Construct.own? : Construct → Option Token
  | .single token => some token
  | .scalar kind _ => some kind
  | _ => none

theorem Token.isStructural_closing? {t closer : Token} (h : t.closing? = some closer) :
    closer.isStructural = true := by
  cases t <;> cases h <;> rfl

theorem Token.isStructural_startToken (s : Shape) : s.startToken.isStructural = true := by
  cases s <;> rfl

theorem Token.isStructural_entryToken (s : Shape) : s.entryToken.isStructural = true := by
  cases s <;> rfl

theorem Frame.all_closers {f : Frame} {tokens : List Token} (h : f.closers = .ok tokens) :
    tokens.all Token.isStructural = true := by
  rw [closers] at h
  split at h
  · cases h
    rfl
  · split at h
    · rename_i closer hcloser
      cases h
      rw [List.all_cons, Token.isStructural_closing? hcloser, List.all_nil, Bool.and_self]
    · cases h

namespace Stack

variable {s s' : Stack} {tokens : List Token}

theorem all_close {n : Nat} (h : s.close n = ⟨s', .ok tokens⟩) :
    tokens.all Token.isStructural = true := by
  induction n generalizing s tokens with
  | zero =>
    cases h
    rfl
  | succ n ih =>
    cases hframes : s.frames with
    | nil =>
      simp only [close, hframes] at h
      cases h
      rfl
    | cons f below =>
      obtain ⟨first, rest, hfirst, hrest, rfl⟩ := close_succ_eq_ok hframes h
      rw [List.all_append, Frame.all_closers hfirst, ih hrest, Bool.and_self]

theorem all_closeAll (h : s.closeAll = ⟨s', .ok tokens⟩) :
    tokens.all Token.isStructural = true := by
  obtain ⟨first, hfirst, -, rfl⟩ := Nesting.andThen_eq_ok_iff.mp h
  rw [List.append_nil]
  exact all_close (congrArg (Nesting.mk _) hfirst)

theorem all_start (s : Stack) (opener : Opener) (column : Nat) :
    (s.start opener column).2.all Token.isStructural = true := by
  rw [start]
  split
  · rfl
  · rfl

theorem all_enter {shape : Shape} {column : Nat} (h : s.enter shape column = ⟨s', .ok tokens⟩) :
    tokens.all Token.isStructural = true := by
  have hentry := Token.isStructural_entryToken shape
  have hstart := Token.isStructural_startToken shape
  rw [enter] at h
  split at h
  · cases h
    simp [hentry]
  · obtain ⟨first, hfirst, -, rfl⟩ := Nesting.andThen_eq_ok_iff.mp h
    have hclose := all_close (s := s) (congrArg (Nesting.mk _) hfirst)
    rw [List.all_append, hclose, Bool.true_and]
    split
    · simp [hentry]
    · rw [List.all_append, all_start, Bool.true_and]
      simp [hentry, hstart]

theorem all_openFlow {shape : Shape} {column : Nat}
    (h : s.openFlow shape column = ⟨s', .ok tokens⟩) : tokens.all Token.isStructural = true := by
  have hstart : (s.startFlow shape column).2.all Token.isStructural = true := s.all_start _ column
  have hshape := Token.isStructural_startToken shape
  have hentry : (if s.kind = .sequenceStart then [Token.sequenceEntry] else []).all
      Token.isStructural = true := by
    split
    · rfl
    · rfl
  simp only [openFlow, Nesting.mk.injEq, Except.ok.injEq] at h
  obtain ⟨-, rfl⟩ := h
  rw [List.all_append, List.all_append, hstart, hentry]
  simp [hshape]

theorem all_closeFlow {shape : Shape} (h : s.closeFlow shape = ⟨s', .ok tokens⟩) :
    tokens.all Token.isStructural = true := by
  rw [closeFlow] at h
  split at h
  · cases h
  · exact all_close h

theorem all_startDocument (h : s.startDocument = ⟨s', .ok tokens⟩) :
    tokens.all Token.isStructural = true := by
  obtain ⟨first, hfirst, -, rfl⟩ := Nesting.andThen_eq_ok_iff.mp h
  rw [List.all_append, all_closeAll (congrArg (Nesting.mk _) hfirst)]
  rfl

theorem all_endDocument (h : s.endDocument = ⟨s', .ok tokens⟩) :
    tokens.all Token.isStructural = true := by
  rw [endDocument] at h
  split at h
  · rename_i first hfirst
    have hclose := all_closeAll hfirst
    cases h
    split
    · exact hclose
    · rw [List.all_append, hclose]
      rfl
  · rename_i hfaulty
    exact absurd h (hfaulty _ _)

theorem all_endStream (h : s.endStream = ⟨s', .ok tokens⟩) :
    tokens.all Token.isStructural = true := by
  rw [endStream] at h
  split at h
  · cases h
    rfl
  · exact all_endDocument h

/-- What a construct does to the structures is announced first, and its own token comes last. -/
theorem apply_tokens {column : Nat} {c : Construct} (h : s.apply column c = ⟨s', .ok tokens⟩) :
    ∃ marks, marks.all Token.isStructural = true ∧ tokens = marks ++ c.own?.toList := by
  cases c with
  | single token =>
    cases h
    exact ⟨[], rfl, rfl⟩
  | scalar kind isKey =>
    cases isKey with
    | false =>
      cases h
      exact ⟨[], rfl, rfl⟩
    | true =>
      rw [apply] at h
      obtain ⟨marks, hmarks, -, rfl⟩ := Nesting.andThen_eq_ok_iff.mp h
      exact ⟨marks, all_enter (congrArg (Nesting.mk _) hmarks), rfl⟩
  | entry => exact ⟨tokens, all_enter h, (List.append_nil _).symm⟩
  | flowStart shape => exact ⟨tokens, all_openFlow h, (List.append_nil _).symm⟩
  | flowEnd shape => exact ⟨tokens, all_closeFlow h, (List.append_nil _).symm⟩
  | documentStart => exact ⟨tokens, all_startDocument h, (List.append_nil _).symm⟩
  | documentEnd => exact ⟨tokens, all_endDocument h, (List.append_nil _).symm⟩
  | streamEnd => exact ⟨tokens, all_endStream h, (List.append_nil _).symm⟩

theorem enter_tokens {shape : Shape} {column : Nat}
    (h : s.enter shape column = ⟨s', .ok tokens⟩) :
    ∃ room, tokens = room ++ [shape.entryToken] := by
  rw [enter] at h
  split at h
  · cases h
    exact ⟨[], rfl⟩
  · obtain ⟨closers, -, -, rfl⟩ := Nesting.andThen_eq_ok_iff.mp h
    split
    · exact ⟨closers, rfl⟩
    · have hlast (document : List Token) :
          closers ++ (document ++ [shape.startToken, shape.entryToken]) =
            closers ++ (document ++ [shape.startToken]) ++ [shape.entryToken] := by simp
      exact ⟨_, hlast _⟩

/-- A scalar that is a key comes right behind the token that says so, and any other comes alone. -/
theorem scalar_tokens {column : Nat} {kind : Token} {isKey : Bool} {marks : List Token}
    (h : s.apply column (.scalar kind isKey) = ⟨s', .ok (marks ++ [kind])⟩) :
    marks.all Token.isStructural = true ∧
      (isKey = true → ∃ room, marks = room ++ [.mappingKey]) ∧ (isKey = false → marks = []) := by
  cases isKey with
  | false =>
    have htokens : [] ++ [kind] = marks ++ [kind] := Except.ok.inj (congrArg Nesting.tokens h)
    obtain rfl : [] = marks := List.append_cancel_right htokens
    exact ⟨rfl, nofun, fun _ ↦ rfl⟩
  | true =>
    rw [apply] at h
    obtain ⟨first, hfirst, -, htokens⟩ := Nesting.andThen_eq_ok_iff.mp h
    obtain rfl : first = marks := List.append_cancel_right htokens
    have henter : s.enter .mapping column = ⟨_, .ok first⟩ := congrArg (Nesting.mk _) hfirst
    exact ⟨all_enter henter, fun _ ↦ enter_tokens henter, nofun⟩

end Stack

end YamlLexer
