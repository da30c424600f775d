import Mathlib.Data.List.Basic
import YamlLexer.Proofs.Balance
import YamlLexer.Proofs.Nesting.Layers
import YamlLexer.Proofs.Origin

/-!
# Entries are announced in collections of their own shape

Which collection an entry belongs to is decided by rank, but a client knows collections by the
tokens that started them. The two agree: a key that is delivered outside flow collections finds a
mapping innermost, and a dash a sequence (`layered_pulled`). This is where the layers of the stack
pay off.

The stack is ahead of the client while tokens are in line, so it is not the stack at the time of the
delivery that is looked at, but the one that the scan of the entry has left. Behind the token of an
entry there is at most a scalar in line, so at that moment the client has caught up.

The statement has two halves, and they are about different times. One is about the stack after any
number of pulls: it is `Layered`, depth by depth. The other is about an entry at the time when its
token is delivered, and it is stated of the tokens delivered up to there, which is all that a client
has. `Balance.run` turns these into the structures that are open to it.
-/

namespace YamlLexer.Lexer

variable {l : Lexer} {n : Nat} {token : Token} {c : Construct}

theorem hasLexeme_own_of_entryOf? (found : l.nextReading.found = .ok c) {shape : Shape}
    (hc : c.entryOf? = some shape) : ∀ token ∈ c.own?, token.hasLexeme = true := by
  intro token htoken
  rcases c with _ | ⟨kind, _ | _⟩ | _ | _ | _ | _ | _ | _
  case scalar.true =>
    cases htoken
    exact l.reads_upcoming.hasLexeme_scalar found
  case entry => cases htoken
  all_goals cases hc

theorem run_own {opened : List Token} (h : ∀ token ∈ c.own?, token.hasLexeme = true) :
    Balance.run opened (Balance.plain c.own?.toList) = some opened := by
  rcases hown : c.own? with _ | token
  · rfl
  · rw [Option.toList_some, Balance.run_plain_singleton]
    exact Balance.step_of_hasLexeme (.inl (h token hown)) false

/-- An entry outside flow collections is announced where a collection of its shape is innermost. -/
theorem exists_run_entry (bytes : List Byte) {shape : Shape}
    (hflow : ((ofBytes bytes).origin n).inFlow = false)
    (found : ((ofBytes bytes).origin n).nextReading.found = .ok c)
    (hc : c.entryOf? = some shape)
    (hnext : ((ofBytes bytes).pulled n).next.1 = .ok shape.entryToken) :
    ∃ outer, Balance.run [] (((ofBytes bytes).deliveries n).map Delivery.event) =
      some (shape.startToken :: outer) := by
  have hproper : shape.entryToken ≠ .nothing := by
    rcases shape with _ | _ <;> decide
  have hbare : shape.entryToken.hasLexeme = false := by
    rcases shape with _ | _ <;> rfl
  have hentry : shape.entryToken.hasLexeme = true ∨ shape.entryToken = .mappingKey ∨
      shape.entryToken = .sequenceEntry ∨ shape.entryToken = .nothing := by
    rcases shape with _ | _
    · exact .inr (.inl rfl)
    · exact .inr (.inr (.inl rfl))
  have hown := hasLexeme_own_of_entryOf? found hc
  -- What is in line behind the entry is what the scan has lined up behind it.
  obtain ⟨c', earlier, hsupplies⟩ := exists_supplies rfl hnext (.inl hproper)
  obtain rfl : c = c' := Except.ok.inj (found.symm.trans hsupplies.found)
  obtain ⟨m, hm⟩ := (ofBytes bytes).exists_origin_eq_pulled n
  have hsound : ((ofBytes bytes).origin n).stack.Sound := by
    rw [hm]
    exact ((regular_ofBytes bytes).pulled m).sound
  obtain ⟨s', outer, marks, heffect, hkinds, hmarks⟩ := hsound.apply_entry hflow hc
    ((ofBytes bytes).origin n).nextPlace.column
  rw [hsupplies.effect, Nesting.mk.injEq, Except.ok.injEq] at heffect
  obtain ⟨hstack, htokens⟩ := heffect
  have hnot : shape.entryToken ∉ c.own?.toList := by
    intro hmem
    rw [hown _ (Option.mem_toList.mp hmem)] at hbare
    cases hbare
  obtain ⟨-, -, hpending⟩ := (List.append_cons_inj_of_notMem hmarks hnot).mp htokens.symm
  -- Nothing of that is part of the nesting, so the client has caught up with the stack.
  have hrun := (Balance.agree_deliveries bytes (n + 1)).run
  rw [← hpending, hstack, deliveries_succ_of_ok hnext, List.map_append, List.append_assoc,
    Balance.run_append] at hrun
  obtain ⟨opened, hopened, hrest⟩ := Option.bind_eq_some_iff.mp hrun
  rw [List.map_singleton, List.singleton_append, Delivery.event, Balance.run,
    Balance.step_of_hasLexeme hentry, Option.bind_some, run_own hown, Option.some.injEq] at hrest
  refine ⟨outer, ?_⟩
  rw [hopened, hrest, Balance.openedBy, hkinds]

/-- On every input, and after any number of pulls: the stack is layered. And if what is delivered
next announces an entry that was scanned outside flow collections, a collection of its shape is the
innermost of those that the tokens so far have opened. -/
theorem layered_pulled (bytes : List Byte) (n : Nat) :
    (∃ split, ((ofBytes bytes).pulled n).stack.Layered split) ∧
      ∀ (c : Construct) (shape : Shape), ((ofBytes bytes).origin n).inFlow = false →
        ((ofBytes bytes).origin n).nextReading.found = .ok c → c.entryOf? = some shape →
        ((ofBytes bytes).pulled n).next.1 = .ok shape.entryToken →
        ∃ outer, Balance.run [] (((ofBytes bytes).deliveries n).map Delivery.event) =
          some (shape.startToken :: outer) := by
  refine ⟨((regular_ofBytes bytes).pulled n).sound.exists_layered, ?_⟩
  intro c shape hflow found hc hnext
  exact exists_run_entry bytes hflow found hc hnext

/-- The key and the first entry of a mapping with a sequence below it. The entry waits in line
behind the start of its sequence. -/
theorem layered_pulled_sequence :
    let l := ofBytes [0x61, 0x3A, 0x0A, 0x2D, 0x20, 0x62]
    ((l.pulled 2).next.1 = .ok .mappingKey ∧
      ∃ outer, Balance.run [] ((l.deliveries 2).map Delivery.event) =
        some (.mappingStart :: outer)) ∧
    (l.pulled 5).next.1 = .ok .sequenceEntry ∧ (l.pulled 5).pending ≠ [] ∧
      ∃ outer, Balance.run [] ((l.deliveries 5).map Delivery.event) =
        some (.sequenceStart :: outer) := by
  obtain ⟨-, hkey⟩ := layered_pulled [0x61, 0x3A, 0x0A, 0x2D, 0x20, 0x62] 2
  obtain ⟨-, hentry⟩ := layered_pulled [0x61, 0x3A, 0x0A, 0x2D, 0x20, 0x62] 5
  refine ⟨⟨rfl, hkey (.scalar .text true) .mapping rfl rfl rfl rfl⟩, rfl, ?_, ?_⟩
  · exact List.cons_ne_nil _ _
  · exact hentry .entry .sequence rfl rfl rfl rfl

end YamlLexer.Lexer
