import YamlLexer.Proofs.Reading.Number
import YamlLexer.Proofs.Scalars

/-!
# Numbers as clients see them

A number may have to wait. If it is a key, the tokens that close structures, and the one that
announces the key, are delivered before it. A client can do a good deal in the meantime, and some of
it puts other tokens in line, or changes the kinds of what is open. None of this gets at the number:
what comes last in line is not reached before all that is in front of it, and the lexeme does not
change before something is read. So the token stays in line and has its lexeme (`Lexer.Awaits`),
until a pull takes it (`Lexer.Handed`). One call more keeps this (`Awaits.call`), and hence any
number of them do (`awaits_or_handed`).

What kind of number it is, and how far it reaches, has been settled by the bytes before that
(`Number.Delimited`).
-/

namespace YamlLexer

namespace Lexer

variable {l : Lexer} {token : Token} {lexeme : Span} {d : Call} {b : Byte} {p : Nat}

/-!
## Waiting in line

A token that is last in line is reached when all that was in front of it has been delivered, and not
before. Nothing is scanned until then, so its lexeme is held as long as it waits.
-/

/-- A token is last in line, and its lexeme is held for it. -/
structure Awaits (l : Lexer) (token : Token) (lexeme : Span) : Prop where
  running : l.failure = none
  held : l.lexeme = lexeme
  last : ∃ front, l.pending = front ++ [token]

/-- A call pulls the token, with its lexeme. Nothing was in line behind it. -/
structure Hands (l : Lexer) (d : Call) (token : Token) (lexeme : Span) : Prop where
  pulls : l.pulls d = true
  answer : l.next.1 = .ok token
  held : (l.call d).lexeme = lexeme
  empty : (l.call d).pending = []

/-- One of the calls pulls the token, with its lexeme. -/
inductive Handed (token : Token) (lexeme : Span) : Lexer → List Call → Prop
  | now {l : Lexer} {d : Call} (ds : List Call) (hands : l.Hands d token lexeme) :
      Handed token lexeme l (d :: ds)
  | later {l : Lexer} {d : Call} {ds : List Call} (handed : Handed token lexeme (l.call d) ds) :
      Handed token lexeme l (d :: ds)

/-- A call that does not pull can put tokens in front of those in line, and that is all that it can
do to them. -/
theorem Awaits.call (h : l.Awaits token lexeme) (d : Call) :
    (l.call d).Awaits token lexeme ∨ l.Hands d token lexeme := by
  obtain ⟨front, hfront⟩ := h.last
  cases hpulls : l.pulls d with
  | true =>
    have hcall := call_of_pulls hpulls
    rcases front with _ | ⟨first, front⟩
    · have hnext := next_of_pending h.running hfront
      right
      refine ⟨hpulls, congrArg Prod.fst hnext, ?_, ?_⟩
      · rw [hcall, hnext]
        exact h.held
      · rw [hcall, hnext]
        rfl
    · have hnext := next_of_pending h.running hfront
      left
      rw [hcall, hnext]
      exact ⟨h.running, h.held, front, rfl⟩
  | false =>
    left
    rcases d with _ | _ | _ | pushed | kind
    · cases hpulls
    · cases hpulls
    · change l.current.2.Awaits token lexeme
      rw [current, if_neg (of_decide_eq_false hpulls)]
      exact h
    · exact ⟨h.running, h.held, pushed :: front, congrArg (pushed :: ·) hfront⟩
    · exact ⟨h.running, h.held, front, hfront⟩

theorem awaits_or_handed (h : (l.call d).Awaits token lexeme ∨ l.Hands d token lexeme)
    (ds : List Call) :
    (l.calls (d :: ds)).Awaits token lexeme ∨ Handed token lexeme l (d :: ds) := by
  induction ds generalizing l d with
  | nil => exact h.imp_right (.now [])
  | cons d' ds ih =>
    rcases h with hawaits | hhands
    · exact (ih (hawaits.call d')).imp_right .later
    · exact .inr (.now (d' :: ds) hhands)

theorem awaits_or_hands_of_scanned {construct : Construct} {stack : Stack} {marks : List Token}
    (running : l.failure = none) (queue : l.pending = [])
    (found : l.nextReading.found = .ok construct)
    (effect : l.stack.apply l.nextPlace.column construct = ⟨stack, .ok (marks ++ [token])⟩)
    (hpulls : l.pulls d = true) :
    (l.call d).Awaits token l.moved.lexeme ∨ l.Hands d token l.moved.lexeme := by
  have hnext := next_of_scanned running queue found effect
  have hcall := call_of_pulls hpulls
  rcases marks with _ | ⟨mark, marks⟩
  · right
    refine ⟨hpulls, congrArg Prod.fst hnext, ?_, ?_⟩
    · rw [hcall, hnext]
    · rw [hcall, hnext]
      rfl
  · left
    rw [hcall, hnext]
    exact ⟨running, rfl, marks, rfl⟩

/-! ## Numbers -/

theorem Meets.moved_of_number (h : l.Meets p b)
    (begins : Number.Begins (l.cursor.source.drop p)) :
    ∃ kind stop, Number.Delimited l.cursor.source p stop kind ∧ l.moved.lexeme = ⟨p, stop⟩ ∧
      l.nextReading.found =
        .ok (.scalar kind (KeyMark.read (l.cursor.source.drop stop)).isKey) := by
  obtain ⟨hoffset, -⟩ := meets_iff.mp h
  obtain ⟨hlt, -⟩ := List.getElem?_eq_some_iff.mp h.byte
  have hreading : l.nextReading = Reading.number (l.cursor.source.drop p) := by
    rw [nextReading, hoffset, begins.of_eq]
  refine ⟨_, _, Number.delimited_number hlt, ?_, ?_⟩
  · rw [moved, moveOver, hreading, hoffset]
    rfl
  · rw [hreading, ← List.drop_drop]
    rfl

/-- Any client that meets a number. Its end and its kind are what the bytes say, and it can only be
refused as a key. Otherwise it comes last of what the scan lines up: behind closing tokens and that
of a key if it is one, and else alone. Whatever the client does from the scan on, the number is in
line with its lexeme, or has been delivered with it. -/
theorem number_delivered (c : Cursor) (cs : List Call) (p : Nat) (b : Byte) :
    let l := (ofCursor c).calls cs
    l.failure = none → l.pending = [] → l.Meets p b → Number.Begins (c.source.drop p) →
      ∃ kind stop, Number.Delimited c.source p stop kind ∧ l.next.2.lexeme = ⟨p, stop⟩ ∧
        let keyed := ∃ blanks rest, KeyMark.Marked (c.source.drop stop) blanks rest
        (keyed ∧ Obstructed c cs) ∨
          ∃ marks : List Token, marks.all Token.isStructural = true ∧
            (keyed → ∃ room, marks = room ++ [.mappingKey]) ∧ (¬keyed → marks = []) ∧
            (l.deliveries (marks.length + 1)).map Delivery.token = marks ++ [kind] ∧
            (l.pulled (marks.length + 1)).lexeme = ⟨p, stop⟩ ∧
            ∀ d ds, l.pulls d = true →
              (l.calls (d :: ds)).Awaits kind ⟨p, stop⟩ ∨ Handed kind ⟨p, stop⟩ l (d :: ds) := by
  intro l running queue hmeets hbegins
  have hsource : l.cursor.source = c.source := (tracked_calls c cs).placed.source
  rw [← hsource] at hbegins ⊢
  obtain ⟨kind, stop, hdelimited, hlexeme, hfound⟩ := hmeets.moved_of_number hbegins
  refine ⟨kind, stop, hdelimited, (next_moved running queue).2.trans hlexeme, ?_⟩
  intro keyed
  have hkeyed : (KeyMark.read (l.cursor.source.drop stop)).isKey = true ↔ keyed :=
    KeyMark.isKey_read_iff
  rcases effect_scalar running queue hfound with ⟨other, m, herror⟩ | ⟨stack, marks, effect⟩
  · left
    refine ⟨?_, obstructed_of_error herror⟩
    -- Without a key, the stack is not even looked at.
    by_contra hnot
    rw [← hkeyed, Bool.not_eq_true] at hnot
    rw [hnot] at hfound
    rw [next_of_scanned running queue hfound rfl] at herror
    cases herror
  · right
    obtain ⟨hmarks, hkey, halone⟩ := Stack.scalar_tokens effect
    obtain ⟨hdeliveries, hpulled⟩ :=
      deliveries_scanned running queue hfound effect (List.concat_ne_nil _ _)
    rw [List.length_append, List.length_singleton] at hdeliveries hpulled
    refine ⟨marks, hmarks, ?_, ?_, hdeliveries, ?_, ?_⟩
    · intro h
      exact hkey (hkeyed.mpr h)
    · intro h
      exact halone (Bool.eq_false_iff.mpr (mt hkeyed.mp h))
    · rw [hpulled, ← hlexeme]
    · intro d ds hpulls
      rw [← hlexeme]
      exact awaits_or_handed (awaits_or_hands_of_scanned running queue hfound effect hpulls) ds

/-- A key that ends a mapping, so that two tokens come before it. In the meantime the client puts
another one in line, and overrides a kind. -/
theorem number_delivered_key :
    let c := Cursor.ofBytes
      [0x61, 0x3A, 0x0A, 0x20, 0x62, 0x3A, 0x0A, 0x2E, 0x35, 0x65, 0x2D, 0x31, 0x3A]
    let cs : List Call := [.next, .next, .next, .next, .next, .next, .next]
    let ds : List Call := [.push .comment, .next, .setContext .text, .next, .current, .next]
    let l := (ofCursor c).calls cs
    l.failure = none ∧ l.pending = [] ∧ l.Meets 7 0x2E ∧ Number.Begins (c.source.drop 7) ∧
      Number.Delimited c.source 7 12 .decimal ∧
      (∃ marks : List Token, (l.deliveries (marks.length + 1)).map Delivery.token =
        marks ++ [.decimal] ∧ (l.pulled (marks.length + 1)).lexeme = ⟨7, 12⟩) ∧
      Handed .decimal ⟨7, 12⟩ l (.next? :: ds) := by
  intro c cs ds l
  have hrunning : l.failure = none := by decide +kernel
  have hqueue : l.pending = [] := by decide +kernel
  have hmeets : l.Meets 7 0x2E := meets_iff.mpr (by decide +kernel)
  have hbegins : Number.Begins (c.source.drop 7) := .sign 0x2E 0x35 _ (.inr rfl) rfl
  obtain ⟨kind, stop, hdelimited, hlexeme, hdeliveries⟩ :=
    number_delivered c cs 7 0x2E hrunning hqueue hmeets hbegins
  have hspan : ((ofCursor c).calls cs).next.2.lexeme = ⟨7, 12⟩ := by decide +kernel
  obtain rfl : stop = 12 := congrArg Span.stop (hlexeme.symm.trans hspan)
  obtain rfl : kind = .decimal :=
    hdelimited.decimal.mpr ⟨0x2E, List.mem_cons_self, 7, Nat.le_refl 7, by decide, rfl⟩
  obtain ⟨-, -, other, -, hmem⟩ | ⟨marks, -, -, -, htokens, hheld, hwaits⟩ := hdeliveries
  · simp [cs] at hmem
  · have hempty : (l.calls (.next? :: ds)).pending = [] := by decide +kernel
    have hhanded : Handed .decimal ⟨7, 12⟩ l (.next? :: ds) := by
      refine (hwaits .next? ds rfl).resolve_left fun hawaits ↦ ?_
      obtain ⟨front, hfront⟩ := hawaits.last
      exact List.concat_ne_nil _ _ (hfront.symm.trans hempty)
    exact ⟨hrunning, hqueue, hmeets, hbegins, hdelimited, ⟨marks, htokens, hheld⟩, hhanded⟩

end Lexer

end YamlLexer
