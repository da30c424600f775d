import YamlLexer.Lexer.Pull
import YamlLexer.Proofs.Gap

/-!
# Runs of a lexer

What a client sees of a lexer is a run: one pull after another, each of which delivers a token or
fails. This file fixes the words for that. `Lexer.Pull` says once everything that a pull can do, so
that an invariant of a run is proved by five short cases and never by unfolding `Lexer.next`.

A run is indexed by the number of pulls, and grows at its end. A statement about the history of a
run, such as "the tokens so far, followed by those in line", is then kept by the last pull alone.

## Tokens and errors

A token is delivered only by a lexer without an error, and leaves one without. An error stays, and a
lexer without one has never had one. So a run delivers tokens, one with each pull, and if it ever
fails it does nothing else from then on. This is why `deliveries_induction` has two cases, and why
the history does not grow in the second.
-/

namespace YamlLexer

namespace Lexer

/-- The lexer behind the next construct, before that construct has had any effect. -/
def moved (l : Lexer) : Lexer := l.moveOver l.nextPlace l.nextReading

/-- The bytes from the next construct on. -/
def upcoming (l : Lexer) : List Byte := l.cursor.rest.dropWhile Byte.isGap

theorem nextReading_eq (l : Lexer) : l.nextReading = Reading.of l.inFlow l.upcoming := by
  rw [nextReading, drop_nextPlace, upcoming]

theorem head?_upcoming (l : Lexer) :
    l.upcoming.head? = l.cursor.source[l.nextPlace.offset]? := by
  rw [upcoming, ← drop_nextPlace, List.head?_drop]

/-!
## Behind a construct

What a scan reads is a reading of `Lexer.upcoming`. All that it leaves can be told from the two: the
bytes that are left, those of the lexeme, and the column at which the next construct will stand. So
runs over different inputs can be compared without a look at offsets.
-/

theorem offset_nextPlace_le (l : Lexer) : l.nextPlace.offset ≤ l.cursor.source.length := by
  rcases l.nextReading_cases with ⟨hend, -⟩ | ⟨hlt, -⟩
  · exact Nat.le_of_eq hend
  · exact Nat.le_of_lt hlt

theorem rest_moved (l : Lexer) : l.moved.cursor.rest = l.upcoming.drop l.nextReading.width := by
  change l.cursor.source.drop (min (l.nextPlace.offset + l.nextReading.width)
    l.cursor.source.length) = _
  rw [upcoming, ← drop_nextPlace, List.drop_drop]
  rcases Nat.le_total (l.nextPlace.offset + l.nextReading.width) l.cursor.source.length with h | h
  · rw [Nat.min_eq_left h]
  · rw [Nat.min_eq_right h, List.drop_length, List.drop_eq_nil_of_le h]

theorem upcoming_moved (l : Lexer) :
    l.moved.upcoming = (l.upcoming.drop l.nextReading.width).dropWhile Byte.isGap := by
  rw [upcoming, rest_moved]

theorem slice_moved (l : Lexer) : l.moved.cursor.slice l.moved.lexeme =
    (l.upcoming.drop l.nextReading.before).take l.nextReading.size := by
  change (l.cursor.source.take _).drop (l.nextPlace.offset + l.nextReading.before) = _
  rw [List.drop_take, ← List.drop_drop, drop_nextPlace, upcoming]
  congr 1
  exact Nat.add_sub_cancel_left _ _

theorem column_nextPlace {l : Lexer} (h : l.lineStart ≤ l.cursor.offset) :
    l.nextPlace.column = columnBehind l.place.column l.cursor.rest :=
  Place.column_skipGap h l.cursor.rest

theorem column_moved {l : Lexer} (h : l.lineStart ≤ l.cursor.offset)
    (hwidth : l.nextReading.width ≤ l.upcoming.length) :
    l.moved.nextPlace.column = columnBehind (l.nextPlace.column + l.nextReading.width)
      (l.upcoming.drop l.nextReading.width) := by
  have hline : l.nextPlace.lineStart ≤ l.nextPlace.offset :=
    Place.lineStart_skipGap_le h l.cursor.rest
  have hle : l.nextPlace.offset + l.nextReading.width ≤ l.cursor.source.length := by
    have hlength := congrArg List.length l.drop_nextPlace
    rw [List.length_drop, ← upcoming] at hlength
    have hoffset := l.offset_nextPlace_le
    omega
  have hmoved : l.moved.cursor.offset = l.nextPlace.offset + l.nextReading.width :=
    Nat.min_eq_left hle
  have hcolumn : l.moved.place.column = l.nextPlace.column + l.nextReading.width := by
    change l.moved.cursor.offset - l.nextPlace.lineStart =
      l.nextPlace.offset - l.nextPlace.lineStart + l.nextReading.width
    omega
  rw [column_nextPlace, hcolumn, rest_moved]
  change l.nextPlace.lineStart ≤ l.moved.cursor.offset
  omega

/-! ## Pulls that scan -/

section

variable {l : Lexer} {construct : Construct} {stack : Stack}

theorem next_of_refused {refusal : Refusal} (failure : l.failure = none) (queue : l.pending = [])
    (found : l.nextReading.found = .error refusal) :
    l.next = (.error (refusal.error l.nextPlace),
      { l.moved with failure := some (refusal.error l.nextPlace) }) := by
  simp only [next, failure, queue, scan, found]
  rfl

theorem next_of_faulted {fault : NestingFault} (failure : l.failure = none)
    (queue : l.pending = []) (found : l.nextReading.found = .ok construct)
    (effect : l.stack.apply l.nextPlace.column construct = ⟨stack, .error fault⟩) :
    l.next = (.error (fault.error l.moved.mark),
      { l.moved with stack := stack, failure := some (fault.error l.moved.mark) }) := by
  simp only [next, failure, queue, scan, found, effect]
  rfl

theorem next_of_scanned {tokens : List Token} (failure : l.failure = none)
    (queue : l.pending = []) (found : l.nextReading.found = .ok construct)
    (effect : l.stack.apply l.nextPlace.column construct = ⟨stack, .ok tokens⟩) :
    l.next = (.ok (tokens.headD .nothing),
      { l.moved with
        stack := stack
        last := tokens.headD .nothing
        pending := tokens.tail }) := by
  simp only [next, failure, queue, scan, found, effect]
  rcases tokens with _ | ⟨token, tokens⟩
  · rfl
  · rfl

end

/-! ## What a pull can do -/

/-- The pulls of a lexer, with their answers and the lexers they leave. -/
inductive Pull (l : Lexer) : Except LexError Token → Lexer → Prop
  /-- An error is repeated. -/
  | repeated {e : LexError} (failure : l.failure = some e) : Pull l (.error e) l
  /-- A token is taken from those in line. -/
  | queued {token : Token} {pending : List Token} (failure : l.failure = none)
      (queue : l.pending = token :: pending) :
      Pull l (.ok token) { l with last := token, pending := pending }
  /-- The next construct is refused on its own account. -/
  | refused {refusal : Refusal} (failure : l.failure = none) (queue : l.pending = [])
      (found : l.nextReading.found = .error refusal) :
      Pull l (.error (refusal.error l.nextPlace))
        { l.moved with failure := some (refusal.error l.nextPlace) }
  /-- The open structures do not allow the next construct. -/
  | faulted {construct : Construct} {stack : Stack} {fault : NestingFault}
      (failure : l.failure = none) (queue : l.pending = [])
      (found : l.nextReading.found = .ok construct)
      (effect : l.stack.apply l.nextPlace.column construct = ⟨stack, .error fault⟩) :
      Pull l (.error (fault.error l.moved.mark))
        { l.moved with stack := stack, failure := some (fault.error l.moved.mark) }
  /-- The next construct becomes tokens, the first of which is delivered. If there are none, that
  is `nothing`. -/
  | scanned {construct : Construct} {stack : Stack} {tokens : List Token}
      (failure : l.failure = none) (queue : l.pending = [])
      (found : l.nextReading.found = .ok construct)
      (effect : l.stack.apply l.nextPlace.column construct = ⟨stack, .ok tokens⟩) :
      Pull l (.ok (tokens.headD .nothing))
        { l.moved with
          stack := stack
          last := tokens.headD .nothing
          pending := tokens.tail }

theorem pull_next (l : Lexer) : l.Pull l.next.1 l.next.2 := by
  rcases hfailure : l.failure with _ | e
  · rcases hqueue : l.pending with _ | ⟨token, pending⟩
    · rcases hfound : l.nextReading.found with refusal | construct
      · rw [next_of_refused hfailure hqueue hfound]
        exact .refused hfailure hqueue hfound
      · rcases heffect : l.stack.apply l.nextPlace.column construct with ⟨stack, fault | tokens⟩
        · rw [next_of_faulted hfailure hqueue hfound heffect]
          exact .faulted hfailure hqueue hfound heffect
        · rw [next_of_scanned hfailure hqueue hfound heffect]
          exact .scanned hfailure hqueue hfound heffect
    · rw [next_of_pending hfailure hqueue]
      exact .queued hfailure hqueue
  · rw [next_of_failure hfailure]
    exact .repeated hfailure

theorem pull_of_next {l l' : Lexer} {answer : Except LexError Token}
    (h : l.next = (answer, l')) : l.Pull answer l' := by
  have hpull := l.pull_next
  rwa [h] at hpull

/-- A pull that fails for the first time finds nothing in line, and leaves it so. -/
theorem Pull.of_error {l l' : Lexer} {e : LexError} (h : l.Pull (.error e) l') :
    l' = l ∨ l.pending = [] ∧ l'.pending = [] ∧ l'.failure = some e := by
  rcases h with failure | _ | ⟨failure, queue, _⟩ | ⟨failure, queue, _, _⟩
  · exact .inl rfl
  · exact .inr ⟨queue, queue, rfl⟩
  · exact .inr ⟨queue, queue, rfl⟩

theorem Pull.failure_eq {l l' : Lexer} {e : LexError} (h : l.Pull (.error e) l') :
    l'.failure = some e := by
  rcases h with failure | _ | _ | _
  · exact failure
  · rfl
  · rfl

theorem Pull.failure_of_ok {l l' : Lexer} {token : Token} (h : l.Pull (.ok token) l') :
    l.failure = none := by
  rcases h with _ | failure | _ | _ | failure
  · exact failure
  · exact failure

theorem Pull.running_of_ok {l l' : Lexer} {token : Token} (h : l.Pull (.ok token) l') :
    l'.failure = none := by
  rcases h with _ | failure | _ | _ | failure
  · exact failure
  · exact failure

theorem Pull.last_of_ok {l l' : Lexer} {token : Token} (h : l.Pull (.ok token) l') :
    l'.last = token := by
  cases h <;> rfl

theorem failure_of_next {l : Lexer} (h : l.next.2.failure = none) : l.failure = none := by
  rcases hfailure : l.failure with _ | e
  · rfl
  · rw [next_of_failure hfailure, hfailure] at h
    cases h

theorem Pull.source_eq {l l' : Lexer} {answer : Except LexError Token} (h : l.Pull answer l') :
    l'.cursor.source = l.cursor.source := by
  cases h <;> rfl

end Lexer

/-!
## Runs

A run grows at its end by definition. `pulled_succ'` and `deliveries_succ'` let it grow at its
start, for comparing it with a run that begins a pull later.
-/

/-- A pull that delivered a token. -/
structure Delivery where
  /-- The lexer that was asked. -/
  before : Lexer
  /-- The token that it delivered. -/
  token : Token
  /-- The lexer that the pull left. -/
  after : Lexer

namespace Lexer

def pulled (l : Lexer) : Nat → Lexer
  | 0 => l
  | n + 1 => (l.pulled n).next.2

/-- What the next pull delivers, if it does not fail. -/
def delivery? (l : Lexer) : Option Delivery :=
  match l.next with
  | (.ok token, l') => some ⟨l, token, l'⟩
  | (.error _, _) => none

/-- What so many pulls deliver, in order. -/
def deliveries (l : Lexer) : Nat → List Delivery
  | 0 => []
  | n + 1 => l.deliveries n ++ (l.pulled n).delivery?.toList

theorem delivery?_of_ok {l l' : Lexer} {token : Token} (h : l.next = (.ok token, l')) :
    l.delivery? = some ⟨l, token, l'⟩ := by
  rw [delivery?, h]

theorem delivery?_of_error {l l' : Lexer} {e : LexError} (h : l.next = (.error e, l')) :
    l.delivery? = none := by
  rw [delivery?, h]

@[simp] theorem pulled_succ (l : Lexer) (n : Nat) : l.pulled (n + 1) = (l.pulled n).next.2 := rfl

theorem deliveries_succ_of_ok {l : Lexer} {n : Nat} {token : Token}
    (h : (l.pulled n).next.1 = .ok token) :
    l.deliveries (n + 1) = l.deliveries n ++ [⟨l.pulled n, token, l.pulled (n + 1)⟩] := by
  have hnext : (l.pulled n).next = (.ok token, l.pulled (n + 1)) := Prod.ext h rfl
  rw [deliveries, delivery?_of_ok hnext]
  rfl

theorem pulled_succ' (l : Lexer) (n : Nat) : l.pulled (n + 1) = l.next.2.pulled n := by
  induction n with
  | zero => rfl
  | succ n ih => rw [pulled_succ, ih, pulled_succ]

theorem deliveries_succ' (l : Lexer) (n : Nat) :
    l.deliveries (n + 1) = l.delivery?.toList ++ l.next.2.deliveries n := by
  induction n with
  | zero => exact (List.append_nil _).symm
  | succ n ih => rw [deliveries, ih, pulled_succ', List.append_assoc, deliveries]

theorem pulled_induction {P : Lexer → Prop}
    (hpull : ∀ {l answer l'}, P l → l.Pull answer l' → P l') {l : Lexer} (h : P l) (n : Nat) :
    P (l.pulled n) := by
  induction n with
  | zero => exact h
  | succ n ih => exact hpull ih (l.pulled n).pull_next

/-- What every pull keeps of a lexer and its history, every run keeps. A pull that fails is not
part of the history. -/
theorem deliveries_induction {P : List Delivery → Lexer → Prop}
    (hok : ∀ {ds l token l'}, P ds l → l.Pull (.ok token) l' → P (ds ++ [⟨l, token, l'⟩]) l')
    (herror : ∀ {ds l e l'}, P ds l → l.Pull (.error e) l' → P ds l')
    {l : Lexer} (h : P [] l) (n : Nat) : P (l.deliveries n) (l.pulled n) := by
  induction n with
  | zero => exact h
  | succ n ih =>
    rw [deliveries, delivery?, pulled_succ]
    rcases hnext : (l.pulled n).next with ⟨e | token, l'⟩
    · simpa using herror ih (pull_of_next hnext)
    · simpa using hok ih (pull_of_next hnext)

end Lexer

end YamlLexer
