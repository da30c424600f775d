import YamlLexer.Proofs.Reading.Layout
import YamlLexer.Proofs.Regular

/-!
# Coverage

The lexemes of a text are its content, and what stands between them is markup. Here that is made
precise: a lexer that reaches the end of its input has delivered lexemes that lie in the input one
behind the other, and every byte outside them is markup (`lexemes_cover`). So no content is lost, or
delivered twice, or in another order.

## Scans and deliveries

The lexer holds a single lexeme, that of the construct scanned last, and delivers tokens which were
lined up before. That this is the lexeme of the delivered token is not a matter of course. It holds
because a scan lines up its own token last and nothing is scanned while something is in line, and
is part of the statement: the lexemes delivered are those that the scans found.

## Tilings

`Tiling` says that bytes are cut into lexemes and markup. It grows at its end, as the input is read,
and the three things that matter about lexemes follow from it by induction.
-/

namespace YamlLexer

/-! ## Tilings -/

/-- Bytes that are cut into the lexemes with the given spans, and markup between them. -/
inductive Tiling : List Byte → List Span → Prop
  | nil : Tiling [] []
  | markup {bytes : List Byte} {spans : List Span} (front : Tiling bytes spans)
      {more : List Byte} (markup : more.all Byte.isMarkup = true) : Tiling (bytes ++ more) spans
  | lexeme {bytes : List Byte} {spans : List Span} (front : Tiling bytes spans)
      (text : List Byte) :
      Tiling (bytes ++ text) (spans ++ [⟨bytes.length, bytes.length + text.length⟩])

namespace Tiling

variable {bytes : List Byte} {spans : List Span}

theorem inside (h : Tiling bytes spans) :
    ∀ span ∈ spans, span.start ≤ span.stop ∧ span.stop ≤ bytes.length := by
  induction h with
  | nil => simp
  | markup _ _ ih =>
    intro span hspan
    have hinside := ih span hspan
    rw [List.length_append]
    omega
  | lexeme _ text ih =>
    intro span hspan
    rw [List.length_append]
    rcases List.mem_append.mp hspan with hspan | hspan
    · have hinside := ih span hspan
      omega
    · obtain rfl := List.mem_singleton.mp hspan
      simp

theorem ordered (h : Tiling bytes spans) :
    spans.Pairwise fun first second ↦ first.stop ≤ second.start := by
  induction h with
  | nil => exact List.Pairwise.nil
  | markup _ _ ih => exact ih
  | lexeme front text ih =>
    refine List.pairwise_append.mpr ⟨ih, List.pairwise_singleton _ _, ?_⟩
    intro first hfirst second hsecond
    obtain rfl := List.mem_singleton.mp hsecond
    exact (front.inside first hfirst).2

theorem covered (h : Tiling bytes spans) (i : Nat) (hi : i < bytes.length) :
    (∃ span ∈ spans, span.start ≤ i ∧ i < span.stop) ∨ bytes[i].isMarkup = true := by
  induction h with
  | nil => exact absurd hi (Nat.not_lt_zero i)
  | @markup bytes spans front more markup ih =>
    by_cases hlt : i < bytes.length
    · rw [List.getElem_append_left hlt]
      exact ih hlt
    · rw [List.getElem_append_right (Nat.not_lt.mp hlt)]
      exact .inr (List.all_eq_true.mp markup _ (List.getElem_mem _))
  | @lexeme bytes spans front text ih =>
    by_cases hlt : i < bytes.length
    · rw [List.getElem_append_left hlt]
      refine (ih hlt).imp_left ?_
      rintro ⟨span, hspan, hi⟩
      exact ⟨span, List.mem_append_left _ hspan, hi⟩
    · rw [List.length_append] at hi
      exact .inl ⟨_, List.mem_append_right _ List.mem_cons_self, Nat.not_lt.mp hlt, hi⟩

end Tiling

/-! ## Lexemes -/

/-- The lexeme that is delivered, as the lexer holds it at that time. -/
def Delivery.lexeme? (d : Delivery) : Option (Token × Span) :=
  if d.token.hasLexeme then some (d.token, d.after.lexeme) else none

/-- The lexeme that is found, if the pull is one that scans. -/
def Delivery.found? (d : Delivery) : Option (Token × Span) :=
  match d.before.pending, d.before.nextReading.found with
  | [], .ok c => (c.own?.filter Token.hasLexeme).map (·, d.before.moved.lexeme)
  | _, _ => none

namespace Lexer

/-- The lexemes that so many pulls deliver. -/
def delivered (l : Lexer) (n : Nat) : List (Token × Span) :=
  (l.deliveries n).filterMap Delivery.lexeme?

/-- The lexemes that the scans among so many pulls find. -/
def scanned (l : Lexer) (n : Nat) : List (Token × Span) :=
  (l.deliveries n).filterMap Delivery.found?

/-- The lexeme that is in line. -/
def queued (l : Lexer) : List (Token × Span) :=
  (l.pending.filter Token.hasLexeme).map (·, l.lexeme)

end Lexer

/-!
## A scan

A scan reads the gap, which is markup, and then the construct, which is markup around a lexeme at
most (`Reading.exists_layout`). So it adds one lexeme to a tiling or none, and which of the two is
told by the tokens that it lines up (`filter_scanned`).
-/

namespace Lexer

variable {l l' : Lexer} {c : Construct}

def gap (l : Lexer) : List Byte := l.cursor.rest.takeWhile Byte.isGap

/-- The bytes that have been read. -/
def consumed (l : Lexer) : List Byte := l.cursor.source.take l.cursor.offset

theorem length_consumed (l : Lexer) : l.consumed.length = l.cursor.offset := by
  rw [consumed, List.length_take]
  exact Nat.min_eq_left l.cursor.offset_le

theorem source_eq (l : Lexer) : l.cursor.source = l.consumed ++ (l.gap ++ l.upcoming) := by
  rw [consumed, gap, upcoming, List.takeWhile_append_dropWhile, Cursor.rest,
    List.take_append_drop]

variable {front lexeme back rest : List Byte}

theorem consumed_moved (h : l.nextReading.Layout l.upcoming front lexeme back rest) :
    l.moved.consumed = l.consumed ++ (l.gap ++ front) ++ lexeme ++ back := by
  have hsource : l.cursor.source =
      (l.consumed ++ (l.gap ++ front) ++ lexeme ++ back) ++ rest := by
    rw [source_eq, h.bytes]
    simp only [List.append_assoc]
  have hoffset : l.nextPlace.offset + l.nextReading.width =
      (l.consumed ++ (l.gap ++ front) ++ lexeme ++ back).length := by
    rw [offset_nextPlace, h.width]
    simp only [List.length_append, length_consumed, gap]
    omega
  change l.cursor.source.take
    (min (l.nextPlace.offset + l.nextReading.width) l.cursor.source.length) = _
  rw [← List.take_take, List.take_length, hoffset, hsource, List.take_left]

theorem lexeme_moved (h : l.nextReading.Layout l.upcoming front lexeme back rest) :
    l.moved.lexeme = ⟨(l.consumed ++ (l.gap ++ front)).length,
      (l.consumed ++ (l.gap ++ front)).length + lexeme.length⟩ := by
  have hstart : l.nextPlace.offset + l.nextReading.before =
      (l.consumed ++ (l.gap ++ front)).length := by
    rw [offset_nextPlace, h.before]
    simp only [List.length_append, length_consumed, gap]
    omega
  rw [moved, moveOver, hstart, h.size]

/-- A scan continues a tiling, by its lexeme if it finds one. -/
theorem tiling_moved {spans : List Span} (found : l.nextReading.found = .ok c)
    (h : Tiling l.consumed spans) :
    Tiling l.moved.consumed
      (spans ++ (c.own?.filter Token.hasLexeme).toList.map fun _ ↦ l.moved.lexeme) := by
  obtain ⟨front, lexeme, back, rest, hlayout⟩ := Reading.exists_layout l.reads_upcoming found
  have hgap : (l.gap ++ front).all Byte.isMarkup = true := by
    rw [List.all_append, gap, all_takeWhile Byte.isMarkup_of_isGap, hlayout.front_markup]
    rfl
  rw [consumed_moved hlayout]
  refine .markup ?_ hlayout.back_markup
  rcases hown : c.own?.filter Token.hasLexeme with _ | token
  · -- Without a lexeme, the construct is markup all over.
    have hsize : l.nextReading.size = 0 := by
      rcases hc : c.own? with _ | token
      · exact l.reads_upcoming.size_eq_zero found hc
      · rcases l.reads_upcoming.hasLexeme found hc with htoken | ⟨-, hsize⟩
        · simp [hc, htoken] at hown
        · exact hsize
    obtain rfl : lexeme = [] := List.length_eq_zero_iff.mp (hlayout.size ▸ hsize)
    rw [List.append_nil, Option.toList_none, List.map_nil, List.append_nil]
    exact .markup h hgap
  · rw [lexeme_moved hlayout]
    exact .lexeme (.markup h hgap) lexeme

/-- The lexemes among the tokens of a scan: that of its own token, or none. -/
theorem filter_scanned {stack : Stack} {tokens : List Token}
    (effect : l.stack.apply l.nextPlace.column c = ⟨stack, .ok tokens⟩) :
    tokens.filter Token.hasLexeme = (c.own?.filter Token.hasLexeme).toList := by
  obtain ⟨marks, hmarks, rfl⟩ := scanned_tokens effect
  have hnil : marks.filter Token.hasLexeme = [] := by
    rw [List.filter_eq_nil_iff]
    intro token htoken
    have hstructural := List.all_eq_true.mp hmarks token htoken
    rw [Token.isStructural, Bool.and_eq_true, Bool.not_eq_true'] at hstructural
    rw [hstructural.1]
    exact Bool.false_ne_true
  rw [List.filter_append, hnil, List.nil_append]
  rcases c.own? with _ | token
  · rfl
  · by_cases htoken : token.hasLexeme = true
    · simp [Option.filter, htoken]
    · simp [Option.filter, htoken]

/-!
## Runs

Behind an error there is no tiling to keep: what was refused has been passed, and is not content.
-/

/-- What a run keeps: the lexemes delivered, and that in line, are those found; and as long as
there is no error, they tile what has been read. -/
structure Kept (bytes : List Byte) (ds : List Delivery) (l : Lexer) : Prop where
  regular : l.Regular
  source : l.cursor.source = bytes
  lexemes : ds.filterMap Delivery.lexeme? ++ l.queued = ds.filterMap Delivery.found?
  tiling : l.failure = none →
    Tiling l.consumed ((ds.filterMap Delivery.found?).map Prod.snd)

theorem kept_ofBytes (bytes : List Byte) : Kept bytes [] (ofBytes bytes) :=
  ⟨regular_ofBytes bytes, rfl, rfl, fun _ ↦ .nil⟩

theorem queued_eq_nil (h : l.pending = []) : l.queued = [] := by
  rw [queued, h]
  rfl

theorem filterMap_concat {α : Type} (f : Delivery → Option α) (ds : List Delivery) (d : Delivery) :
    (ds ++ [d]).filterMap f = ds.filterMap f ++ (f d).toList := by
  rw [List.filterMap_append]
  rcases hd : f d with _ | x <;> simp [hd]

theorem lexemes_scanned {d : Delivery} {tokens : List Token}
    (htoken : d.token = tokens.headD .nothing) (hpending : d.after.pending = tokens.tail) :
    d.lexeme?.toList ++ d.after.queued =
      (tokens.filter Token.hasLexeme).map (·, d.after.lexeme) := by
  rw [Delivery.lexeme?, queued, htoken, hpending]
  rcases tokens with _ | ⟨token, tokens⟩
  · rfl
  · by_cases hlexeme : token.hasLexeme = true
    · simp [hlexeme]
    · simp [hlexeme]

variable {bytes : List Byte} {ds : List Delivery}

theorem kept_ok {token : Token} (h : Kept bytes ds l) (hpull : l.Pull (.ok token) l') :
    Kept bytes (ds ++ [⟨l, token, l'⟩]) l' := by
  have hlexemes := h.lexemes
  have hregular := h.regular.pull hpull
  cases hpull with
  | @queued _ pending failure queue =>
    -- Nothing is found, and the lexeme in line becomes the one delivered.
    have hfound : Delivery.found? ⟨l, token, { l with last := token, pending := pending }⟩ =
        none := by
      rw [Delivery.found?, queue]
    rw [queued, queue] at hlexemes
    refine ⟨hregular, h.source, ?_, ?_⟩
    · rw [List.filterMap_append, List.filterMap_append, ← hlexemes]
      by_cases htoken : token.hasLexeme = true
      · simp [Delivery.lexeme?, queued, hfound, htoken]
      · simp [Delivery.lexeme?, queued, hfound, htoken]
    · intro _
      change Tiling l.consumed _
      rw [List.filterMap_append]
      simpa [hfound] using h.tiling failure
  | @scanned c stack tokens failure queue found effect =>
    have hfound (d : Delivery) (hd : d.before = l) :
        d.found?.toList = (tokens.filter Token.hasLexeme).map (·, l.moved.lexeme) := by
      rw [Delivery.found?, hd, queue, found, filter_scanned effect]
      exact Option.toList_map
    refine ⟨hregular, h.source, ?_, ?_⟩
    · rw [queued_eq_nil queue, List.append_nil] at hlexemes
      rw [filterMap_concat, filterMap_concat, hlexemes, List.append_assoc, hfound _ rfl,
        lexemes_scanned rfl rfl]
    · intro _
      change Tiling l.moved.consumed _
      rw [filterMap_concat, List.map_append, hfound _ rfl, filter_scanned effect, List.map_map]
      exact tiling_moved found (h.tiling failure)

theorem kept_error {e : LexError} (h : Kept bytes ds l) (hpull : l.Pull (.error e) l') :
    Kept bytes ds l' := by
  rcases hpull.of_error with rfl | ⟨hqueue, hqueue', hfailure⟩
  · exact h
  · -- The scan has moved the lexeme, but nothing is in line that this could affect.
    have hlexemes := h.lexemes
    rw [queued_eq_nil hqueue, ← queued_eq_nil hqueue'] at hlexemes
    refine ⟨h.regular.pull hpull, hpull.source_eq.trans h.source, hlexemes, ?_⟩
    intro hnone
    rw [hfailure] at hnone
    cases hnone

theorem kept_deliveries (bytes : List Byte) (n : Nat) :
    Kept bytes ((ofBytes bytes).deliveries n) ((ofBytes bytes).pulled n) :=
  deliveries_induction (P := Kept bytes) kept_ok kept_error (kept_ofBytes bytes) n

/-- On every input that is read to its end: the lexemes delivered are those that the scans found,
one for each scan that found one. They lie in the input, they follow each other, and every byte
outside them is markup. -/
theorem lexemes_cover (bytes : List Byte) (n : Nat)
    (h : ((ofBytes bytes).pulled n).next.1 = .ok .nothing) :
    (ofBytes bytes).delivered n = (ofBytes bytes).scanned n ∧
      (∀ lexeme ∈ (ofBytes bytes).delivered n,
        lexeme.2.start ≤ lexeme.2.stop ∧ lexeme.2.stop ≤ bytes.length) ∧
      ((ofBytes bytes).delivered n).Pairwise
        (fun first second ↦ first.2.stop ≤ second.2.start) ∧
      ∀ (i : Nat) (hi : i < bytes.length),
        (∃ lexeme ∈ (ofBytes bytes).delivered n, lexeme.2.start ≤ i ∧ i < lexeme.2.stop) ∨
          bytes[i].isMarkup = true := by
  have hkept := kept_deliveries bytes n
  have hpull := ((ofBytes bytes).pulled n).pull_next
  rw [h] at hpull
  obtain ⟨hfailure, hqueue, -, hupcoming⟩ := hkept.regular.of_nothing hpull
  have hdelivered : (ofBytes bytes).delivered n = (ofBytes bytes).scanned n := by
    have hlexemes := hkept.lexemes
    rwa [queued_eq_nil hqueue, List.append_nil] at hlexemes
  -- What is left of the input at its end is a gap.
  have htiling : Tiling bytes (((ofBytes bytes).delivered n).map Prod.snd) := by
    have hsource := ((ofBytes bytes).pulled n).source_eq
    rw [hupcoming, List.append_nil, hkept.source] at hsource
    have hgap := Tiling.markup (hkept.tiling hfailure)
      (all_takeWhile Byte.isMarkup_of_isGap ((ofBytes bytes).pulled n).cursor.rest)
    change Tiling (consumed _ ++ gap _) _ at hgap
    rwa [← hsource, ← scanned, ← hdelivered] at hgap
  refine ⟨hdelivered, ?_, ?_, ?_⟩
  · intro lexeme hlexeme
    exact htiling.inside lexeme.2 (List.mem_map_of_mem hlexeme)
  · exact List.pairwise_map.mp htiling.ordered
  · intro i hi
    refine (htiling.covered i hi).imp_left ?_
    rintro ⟨span, hspan, hcovers⟩
    obtain ⟨lexeme, hlexeme, rfl⟩ := List.mem_map.mp hspan
    exact ⟨lexeme, hlexeme, hcovers⟩

/-- A key and its value. -/
theorem lexemes_cover_key :
    ((ofBytes [0x61, 0x3A, 0x20, 0x62]).pulled 7).next.1 = .ok .nothing ∧
      (ofBytes [0x61, 0x3A, 0x20, 0x62]).delivered 7 =
        [(.text, ⟨0, 1⟩), (.text, ⟨3, 4⟩)] ∧
      (ofBytes [0x61, 0x3A, 0x20, 0x62]).scanned 7 =
        [(.text, ⟨0, 1⟩), (.text, ⟨3, 4⟩)] := by
  have hend : ((ofBytes [0x61, 0x3A, 0x20, 0x62]).pulled 7).next.1 = .ok .nothing := rfl
  have hdelivered : (ofBytes [0x61, 0x3A, 0x20, 0x62]).delivered 7 =
      [(.text, ⟨0, 1⟩), (.text, ⟨3, 4⟩)] := rfl
  obtain ⟨hscanned, -⟩ := lexemes_cover [0x61, 0x3A, 0x20, 0x62] 7 hend
  exact ⟨hend, hdelivered, hscanned ▸ hdelivered⟩

end Lexer

end YamlLexer
