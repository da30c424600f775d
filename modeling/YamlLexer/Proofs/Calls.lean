import YamlLexer.Proofs.Regular

/-!
# What a client can do

A client pulls, in one of three ways, injects tokens, and overrides kinds. `Lexer.calls` is a lexer
after any sequence of this. Only pulls read, and there is one way to pull: an invariant of pulls is
one of clients too, if injections and overrides keep it (`calls_induction`). Clients that override
nothing never get at a stack that is not sound (`sound_calls`).

What is answered is left out here. The ways to pull differ in that, and `current` may not pull at
all, but a call that pulls leaves the lexer that `next` leaves (`call_of_pulls`), and one that does
not injects a token, overrides a kind, or has no effect (`call_of_not_pulls`). So it is enough to
know of a call whether it pulls. `calls_induction_of_mem` is for statements that hold of some
clients only: it asks for the injections and overrides that occur among the calls, and for no
others.
-/

namespace YamlLexer

/-- The ways to change a lexer. -/
inductive Call where
  | next
  | next?
  | current
  | push (token : Token)
  | setContext (kind : Token)
deriving DecidableEq, Repr

namespace Lexer

def call (l : Lexer) : Call → Lexer
  | .next => l.next.2
  | .next? => l.next?.2
  | .current => l.current.2
  | .push token => l.push token
  | .setContext kind => l.setContext kind

def calls (l : Lexer) (cs : List Call) : Lexer := cs.foldl call l

theorem snd_next? (l : Lexer) : l.next?.2 = l.next.2 := by
  rw [next?]
  rcases hfailure : l.failure with _ | e
  · rcases l.next with ⟨_ | token, l'⟩
    · rfl
    · rcases token with _ | _ <;> rfl
  · rw [next_of_failure hfailure]
    rfl

/-- What pulls keep, and the injections and overrides that a client makes, the client keeps. -/
theorem calls_induction_of_mem {P : Lexer → Prop} {cs : List Call}
    (hpull : ∀ {l answer l'}, P l → l.Pull answer l' → P l')
    (hpush : ∀ {l} (token : Token), Call.push token ∈ cs → P l → P (l.push token))
    (hset : ∀ {l} (kind : Token), Call.setContext kind ∈ cs → P l → P (l.setContext kind))
    {l : Lexer} (h : P l) : P (l.calls cs) := by
  induction cs generalizing l with
  | nil => exact h
  | cons c cs ih =>
    refine ih (fun token hmem ↦ hpush token (List.mem_cons_of_mem c hmem))
      (fun kind hmem ↦ hset kind (List.mem_cons_of_mem c hmem)) ?_
    rcases c with _ | _ | _ | token | kind
    · exact hpull h l.pull_next
    · change P l.next?.2
      rw [snd_next?]
      exact hpull h l.pull_next
    · change P l.current.2
      rw [current]
      split
      · exact hpull h l.pull_next
      · exact h
    · exact hpush token List.mem_cons_self h
    · exact hset kind List.mem_cons_self h

theorem calls_induction {P : Lexer → Prop}
    (hpull : ∀ {l answer l'}, P l → l.Pull answer l' → P l')
    (hpush : ∀ {l} (token : Token), P l → P (l.push token))
    (hset : ∀ {l} (kind : Token), P l → P (l.setContext kind)) {l : Lexer} (h : P l)
    (cs : List Call) : P (l.calls cs) :=
  calls_induction_of_mem hpull (fun token _ ↦ hpush token) (fun kind _ ↦ hset kind) h

/-! ## Clients that override nothing -/

/-- Whether a call pulls, by which it may read on. -/
def pulls (l : Lexer) : Call → Bool
  | .next | .next? => true
  | .current => l.last = .nothing
  | .push _ | .setContext _ => false

theorem call_of_pulls {l : Lexer} {c : Call} (h : l.pulls c = true) : l.call c = l.next.2 := by
  rcases c with _ | _ | _ | token | kind
  · rfl
  · exact l.snd_next?
  · change l.current.2 = l.next.2
    rw [current, if_pos (of_decide_eq_true h)]
  · cases h
  · cases h

theorem call_of_not_pulls {l : Lexer} {c : Call} (h : l.pulls c = false)
    (plain : ∀ kind, c ≠ .setContext kind) :
    l.call c = l ∨ ∃ token, l.call c = l.push token := by
  rcases c with _ | _ | _ | token | kind
  · cases h
  · cases h
  · left
    change l.current.2 = l
    rw [current, if_neg (of_decide_eq_false h)]
  · exact .inr ⟨token, rfl⟩
  · exact absurd rfl (plain kind)

theorem sound_calls {l : Lexer} (h : l.stack.Sound) {cs : List Call}
    (plain : ∀ kind, Call.setContext kind ∉ cs) : (l.calls cs).stack.Sound :=
  calls_induction_of_mem (P := fun l ↦ l.stack.Sound) (fun h hpull ↦ hpull.sound h)
    (fun _ _ h ↦ h) (fun kind hmem _ ↦ absurd hmem (plain kind)) h

theorem sound_call {l : Lexer} (h : l.stack.Sound) {c : Call}
    (plain : ∀ kind, c ≠ .setContext kind) : (l.call c).stack.Sound := by
  have hcalls : (l.calls [c]).stack.Sound :=
    sound_calls h fun kind hmem ↦ plain kind (List.mem_singleton.mp hmem).symm
  exact hcalls

theorem plain_of_cons {c : Call} {cs : List Call}
    (plain : ∀ kind, Call.setContext kind ∉ c :: cs) :
    (∀ kind, c ≠ .setContext kind) ∧ ∀ kind, Call.setContext kind ∉ cs := by
  refine ⟨?_, ?_⟩
  · rintro kind rfl
    exact plain kind List.mem_cons_self
  · intro kind hmem
    exact plain kind (List.mem_cons_of_mem c hmem)

end Lexer

end YamlLexer
