import Mathlib.Data.List.TakeWhile
import YamlLexer.Proofs.Overrides
import YamlLexer.Proofs.Words.Arithmetic

/-!
# The stack, by index

A machine keeps the levels of the stack in one block of memory, the level of the stream first. The
innermost one is found by counting back from the end, and that takes a level to be there. Closing
structures is a loop, which takes off one level in each turn for as long as some condition on what
is left holds. There are three such loops, for the three reasons to close anything; each is
`popWhile?` with its own condition, and each amounts to `Stack.close` of a number that is known
beforehand (`popWhile?_eq`). Everything is closed, or a collection with all in it, by going down to a
level (`popWhile?_depth`), and room for an entry is made by going down to a rank
(`popWhile?_rank`).

`effect?_nest` says that a construct has the effect here that `Stack.apply` gives it. The kinds on
the stack do not matter for that, so a client may have changed them. What matters is that flow rules
were switched on at a depth at which there is a level, as the flag for them is the depth itself.

The stream is a level among the others here, and nothing but a check in `pop?` keeps it from being
closed. That it stays the first one, and of rank zero, is said of any constructs at any columns with
any overrides between them (`root_changes`).
-/

namespace YamlLexer

namespace Words

/-- The levels of a stack from the outside in, and the depth of the outermost flow collection. -/
structure Nest where
  levels : List Level
  flowDepth : Option Nat
deriving DecidableEq, Repr

/-- The tokens that close a structure of a kind. -/
def closers (kind : Token) : Except NestingFault (List Token) :=
  if kind = .nothing then .ok []
  else
    match kind.closing? with
    | some token => .ok [token]
    | none => .error (.unclosable kind)

/-- The rank of an entry. -/
def rank? (column : Nat) : Shape → Option Nat
  | .mapping => do add? (← add? column column) 1
  | .sequence => do add? (← add? column column) 2

namespace Nest

def depth? (n : Nest) : Option Nat := sub? n.levels.length 1

def top? (n : Nest) : Option Level := do n.levels[← n.depth?]?

def inFlow? (n : Nest) : Option Bool :=
  match n.flowDepth with
  | none => some false
  | some flow => do return flow ≤ (← n.depth?)

def setKind? (n : Nest) (kind : Token) : Option Nest := do
  let depth ← n.depth?
  let level ← n.levels[depth]?
  return { n with levels := n.levels.set depth { level with kind } }

def push (n : Nest) (level : Level) : Nest := { n with levels := n.levels ++ [level] }

/-- Opens a structure, and a document for it if there is none. -/
def start? (n : Nest) (level : Level) : Option (Nest × List Token) := do
  if (← n.top?).kind = .nothing then
    return ((n.push ⟨.directivesEnd, 0⟩).push level, [.directivesEnd])
  else return (n.push level, [])

def startFlow? (n : Nest) (level : Level) : Option (Nest × List Token) := do
  let (opened, tokens) ← n.start? level
  match n.flowDepth with
  | none => return ({ opened with flowDepth := some (← opened.depth?) }, tokens)
  | some _ => return (opened, tokens)

/-- Closes the innermost structure, if there is one. -/
def pop? (n : Nest) : Option (Nest × Except NestingFault (List Token)) := do
  let depth ← n.depth?
  if depth = 0 then return (n, .ok [])
  else
    match closers (← n.top?).kind with
    | .error fault => return (n, .error fault)
    | .ok tokens =>
      let below ← depth? { n with levels := n.levels.dropLast }
      return (⟨n.levels.dropLast, n.flowDepth.filter (· ≤ below)⟩, .ok tokens)

/-- Closes structures while a condition holds. -/
def popWhile? (more : Nest → Option Bool) :
    Nat → Nest → Option (Nest × Except NestingFault (List Token))
  | 0, _ => none
  | fuel + 1, n => do
    if ← more n then
      match ← n.pop? with
      | (outer, .error fault) => return (outer, .error fault)
      | (outer, .ok tokens) =>
        let (outermost, rest) ← popWhile? more fuel outer
        return (outermost, rest.map (tokens ++ ·))
    else return (n, .ok [])

/-- Follows a change by another one, unless it was at fault. -/
def andThen? (step : Nest → Option (Nest × List Token)) :
    Nest × Except NestingFault (List Token) → Option (Nest × Except NestingFault (List Token))
  | (outer, .error fault) => some (outer, .error fault)
  | (outer, .ok tokens) => do
    let (changed, more) ← step outer
    return (changed, .ok (tokens ++ more))

/-- Closes everything, and drops an override of the kind of the stream. -/
def unwind? (n : Nest) : Option (Nest × Except NestingFault (List Token)) := do
  let closed ← popWhile? (fun n ↦ do return 0 < (← n.depth?)) n.levels.length n
  andThen? (fun empty ↦ do return (← empty.setKind? .nothing, [])) closed

/-- The index of the innermost structure of a kind. -/
def find? (n : Nest) (kind : Token) : Option Nat :=
  ((n.levels.zipIdx.drop 1).reverse.find? (·.1.kind = kind)).map Prod.snd

/-- Whether an entry of a rank closes the innermost structure. -/
def isAbove? (rank : Nat) (n : Nest) : Option Bool := do
  return 0 < (← n.depth?) && rank < (← n.top?).indent

/-- Announces an entry, after it has been made room for, and opens a collection if it needs one. -/
def announce? (shape : Shape) (rank : Nat) (outer : Nest) : Option (Nest × List Token) := do
  if (← outer.top?).indent = rank then return (outer, [shape.entryToken])
  else
    let (opened, tokens) ← outer.start? ⟨shape.startToken, rank⟩
    return (opened, tokens ++ [shape.startToken, shape.entryToken])

def enter? (n : Nest) (shape : Shape) (column : Nat) :
    Option (Nest × Except NestingFault (List Token)) := do
  if ← n.inFlow? then return (n, .ok [shape.entryToken])
  else
    let rank ← rank? column shape
    andThen? (announce? shape rank) (← popWhile? (isAbove? rank) n.levels.length n)

def openFlow? (n : Nest) (shape : Shape) (column : Nat) :
    Option (Nest × Except NestingFault (List Token)) := do
  let kind := (← n.top?).kind
  let (opened, tokens) ← n.startFlow? ⟨shape.startToken, column⟩
  return (opened, .ok (tokens ++ (if kind = .sequenceStart then [.sequenceEntry] else []) ++
    [shape.startToken]))

def closeFlow? (n : Nest) (shape : Shape) :
    Option (Nest × Except NestingFault (List Token)) :=
  match n.find? shape.startToken with
  | none => some (n, .error (.unopened shape))
  | some index => popWhile? (fun n ↦ do return index ≤ (← n.depth?)) n.levels.length n

def startDocument? (n : Nest) : Option (Nest × Except NestingFault (List Token)) := do
  andThen? (fun empty ↦ some (empty.push ⟨.directivesEnd, 0⟩, [.directivesEnd])) (← n.unwind?)

def endDocument? (n : Nest) : Option (Nest × Except NestingFault (List Token)) := do
  match ← n.unwind? with
  | (outer, .error fault) => return (outer, .error fault)
  | (outer, .ok tokens) =>
    return (outer,
      .ok (if tokens.contains .documentEnd then tokens else tokens ++ [.documentEnd]))

def endStream? (n : Nest) : Option (Nest × Except NestingFault (List Token)) := do
  if (← n.top?).kind = .nothing then return (n, .ok []) else n.endDocument?

/-- What a construct at a column does. -/
def effect? (n : Nest) (column : Nat) :
    Construct → Option (Nest × Except NestingFault (List Token))
  | .single token => some (n, .ok [token])
  | .scalar kind false => some (n, .ok [kind])
  | .scalar kind true => do
    andThen? (fun inner ↦ some (inner, [kind])) (← n.enter? .mapping column)
  | .entry => n.enter? .sequence column
  | .flowStart shape => n.openFlow? shape column
  | .flowEnd shape => n.closeFlow? shape
  | .documentStart => n.startDocument?
  | .documentEnd => n.endDocument?
  | .streamEnd => n.endStream?

/-- What may happen to the levels. -/
inductive Change where
  | construct (column : UInt32) (c : Construct)
  | override (kind : Token)
deriving DecidableEq, Repr

/-- The levels after a change, also if it was at fault. -/
def change? (n : Nest) : Change → Option Nest
  | .construct column c => do return (← n.effect? column.toNat c).1
  | .override kind => n.setKind? kind

def changes? (n : Nest) (ds : List Change) : Option Nest := ds.foldlM change? n

/-- The levels when nothing is open. -/
def stream : Nest := ⟨[⟨.nothing, 0⟩], none⟩

end Nest

end Words

open Words

/-- A stack, in memory. -/
def Stack.nest (s : Stack) : Nest := ⟨s.levels, s.flowDepth⟩

def Nesting.nest (n : Nesting) : Nest × Except NestingFault (List Token) := (n.stack.nest, n.tokens)

namespace Words.Nest

variable {s : Stack}

/-! ## The innermost level -/

theorem depth?_nest (s : Stack) : s.nest.depth? = some s.depth := by
  rw [depth?, Stack.nest, Stack.length_levels, sub?_eq (Nat.le_add_left _ _), Nat.add_sub_cancel]

theorem top?_nest (s : Stack) : s.nest.top? = some ⟨s.kind, s.indent⟩ := by
  rw [top?, bind_eq (depth?_nest s), ← s.getLast?_levels, List.getLast?_eq_getElem?,
    Stack.length_levels]
  rfl

theorem setKind?_nest (s : Stack) (kind : Token) :
    s.nest.setKind? kind = some (s.setKind kind).nest := by
  have hget : s.nest.levels[s.depth]? = some ⟨s.kind, s.indent⟩ := by
    rw [← top?_nest, top?, bind_eq (depth?_nest s)]
  rw [setKind?, bind_eq (depth?_nest s), bind_eq hget, Stack.setKind]
  rcases hframes : s.frames with _ | ⟨f, below⟩
  · simp [Stack.nest, Stack.levels, Stack.depth, Stack.indent, hframes]
  · simp [Stack.nest, Stack.levels, Stack.depth, Stack.indent, hframes, Frame.level, Frame.indent]

theorem inFlow?_nest (h : s.FlowWithin) :
    s.nest.inFlow? = some s.inFlow := by
  rw [inFlow?, depth?_nest, Stack.inFlow, Stack.nest]
  rcases hflow : s.flowDepth with _ | flow
  · rfl
  · simp [h flow hflow]

/-! ## Opening -/

theorem push_nest (s : Stack) (opener : Opener) (column : Nat) :
    s.nest.push ⟨opener.token, opener.rank column⟩ = (s.push opener column).nest := by
  simp [push, Stack.nest, Stack.levels, Stack.push, Frame.level, Frame.indent]

theorem start?_nest (s : Stack) (opener : Opener) (column : Nat) :
    s.nest.start? ⟨opener.token, opener.rank column⟩ =
      some ((s.start opener column).1.nest, (s.start opener column).2) := by
  rw [start?, bind_eq (top?_nest s), Stack.start]
  split
  · have hdocument := push_nest s .document 0
    have hpush := push_nest (s.push .document 0) opener column
    rw [← hpush, ← hdocument]
    rfl
  · rw [← push_nest]
    rfl

/-- In a flow collection, the structure is pushed and nothing else. -/
theorem startFlow?_nest (s : Stack) (shape : Shape) (column : Nat) :
    s.nest.startFlow? ⟨shape.startToken, column⟩ =
      some ((s.startFlow shape column).1.nest, (s.startFlow shape column).2) := by
  have hstart : s.nest.start? ⟨shape.startToken, column⟩ = _ := start?_nest s (.flow shape) column
  have hflow := s.flowDepth_start (.flow shape) column
  rw [startFlow?, bind_eq hstart, Stack.startFlow]
  generalize s.start (.flow shape) column = opened at *
  obtain ⟨opened, tokens⟩ := opened
  dsimp only at hflow ⊢
  rw [bind_eq (depth?_nest opened), Stack.nest, Stack.nest, Stack.nest, hflow]
  rcases s.flowDepth with _ | flow
  · rfl
  · rfl

/-! ## Closing -/

theorem pop?_nest (s : Stack) : s.nest.pop? = some (s.close 1).nest := by
  rw [pop?, bind_eq (depth?_nest s), bind_eq (top?_nest s), Stack.close]
  rcases hframes : s.frames with _ | ⟨f, below⟩
  · rw [Stack.depth, hframes, if_pos List.length_nil]
    rfl
  · have hlevels : s.nest.levels.dropLast = (s.leaving below).levels := by
      rw [Stack.nest, Stack.levels_of_frames hframes, List.dropLast_concat]
    have hdepth : depth? ⟨(s.leaving below).levels, s.nest.flowDepth⟩ = some below.length :=
      depth?_nest (s.leaving below)
    have hkind : closers s.kind = f.closers := by
      rw [Stack.kind, hframes]
      rfl
    rw [Stack.depth, hframes, if_neg (by simp), hkind, hlevels]
    dsimp only
    rcases f.closers with fault | tokens
    · rfl
    · simp only [Stack.close, Nesting.nest, Except.map, List.append_nil]
      rw [bind_eq hdepth]
      rfl

/-- A loop that closes structures does so as often as its condition holds. -/
theorem popWhile?_eq {more : Nest → Option Bool} {k fuel : Nat} (hfuel : k < fuel)
    (hdepth : k ≤ s.depth)
    (hmore : ∀ t : Stack, ∀ i < k, t.frames = s.frames.drop i → more t.nest = some true)
    (hstop : ∀ t : Stack, t.frames = s.frames.drop k → more t.nest = some false) :
    popWhile? more fuel s.nest = some (s.close k).nest := by
  -- The induction is on the number of turns. The first closes the innermost structure, and the
  -- others are a loop over what lies below.
  induction k generalizing s fuel with
  | zero =>
    obtain ⟨fuel, rfl⟩ := Nat.exists_eq_succ_of_ne_zero (Nat.ne_of_gt hfuel)
    rw [popWhile?, bind_eq (hstop s rfl)]
    rfl
  | succ k ih =>
    obtain ⟨fuel, rfl⟩ := Nat.exists_eq_succ_of_ne_zero (Nat.ne_of_gt (Nat.zero_lt_of_lt hfuel))
    rw [popWhile?, bind_eq (hmore s 0 (Nat.succ_pos k) rfl), bind_eq (pop?_nest s)]
    rcases hframes : s.frames with _ | ⟨f, below⟩
    · rw [Stack.depth, hframes, List.length_nil] at hdepth
      omega
    · have hrest : popWhile? more fuel (s.leaving below).nest =
          some ((s.leaving below).close k).nest := by
        refine ih (by omega) ?_ ?_ ?_
        · rw [Stack.depth, hframes, List.length_cons] at hdepth
          exact Nat.le_of_succ_le_succ hdepth
        · intro t i hi ht
          refine hmore t (i + 1) (by omega) ?_
          rw [hframes]
          exact ht
        · intro t ht
          refine hstop t ?_
          rw [hframes]
          exact ht
      simp only [Stack.close, hframes]
      rcases f.closers with fault | tokens
      · rfl
      · simp only [Nesting.nest, Except.map, List.append_nil]
        rw [bind_eq hrest]
        rfl

theorem andThen?_nest {n : Nesting} {step : Stack → Stack × List Token}
    {step? : Nest → Option (Nest × List Token)}
    (h : ∀ tokens, n.tokens = .ok tokens →
      step? n.stack.nest = some ((step n.stack).1.nest, (step n.stack).2)) :
    andThen? step? n.nest = some (n.andThen step).nest := by
  obtain ⟨stack, fault | tokens⟩ := n
  · rfl
  · rw [Nesting.nest, andThen?, bind_eq (h tokens rfl)]
    rfl

/-- Two of the loops go down to a level, and take that off too. It is not the first one. -/
theorem popWhile?_depth (s : Stack) {index : Nat} (hindex : 0 < index) :
    popWhile? (fun n ↦ do return index ≤ (← n.depth?)) s.nest.levels.length s.nest =
      some (s.close (s.depth + 1 - index)).nest := by
  refine popWhile?_eq ?_ (by omega) ?_ ?_
  · rw [Stack.nest, Stack.length_levels]
    omega
  · intro t i hi ht
    have hopen : index ≤ t.depth := by
      rw [Stack.depth, ht, List.length_drop, ← Stack.depth]
      omega
    rw [bind_eq (depth?_nest t), decide_eq_true hopen]
    rfl
  · intro t ht
    have hclosed : ¬ index ≤ t.depth := by
      rw [Stack.depth, ht, List.length_drop, ← Stack.depth]
      omega
    rw [bind_eq (depth?_nest t), decide_eq_false hclosed]
    rfl

theorem unwind?_nest (s : Stack) : s.nest.unwind? = some s.closeAll.nest := by
  have hclose : popWhile? (fun n ↦ do return 0 < (← n.depth?)) s.nest.levels.length s.nest =
      some (s.close s.depth).nest := popWhile?_depth s Nat.one_pos
  rw [unwind?, bind_eq hclose, Stack.closeAll]
  refine andThen?_nest fun tokens htokens ↦ ?_
  -- An override is dropped from the stream, which is the innermost level now.
  have hframes : (s.close s.depth).stack.frames = [] := by
    rw [Stack.frames_close (congrArg (Nesting.mk _) htokens), Stack.depth, List.drop_length]
  rw [bind_eq (setKind?_nest _ _), Stack.setKind, hframes]
  rfl

/-- The indices count from the outside, and the structures are looked through from the inside. -/
theorem find?_nest (s : Stack) (kind : Token) :
    s.nest.find? kind = (s.frames.findIdx? (·.kind = kind)).map (s.depth - ·) := by
  have hfind (frames : List Frame) :
      (((frames.reverse.map Frame.level).zipIdx 1).reverse.find? (·.1.kind = kind)).map Prod.snd =
        (frames.findIdx? (·.kind = kind)).map (frames.length - ·) := by
    induction frames with
    | nil => rfl
    | cons f below ih =>
      rw [List.reverse_cons, List.map_append, List.zipIdx_append, List.reverse_append,
        List.map_singleton, List.zipIdx_singleton, List.reverse_singleton, List.singleton_append,
        List.find?_cons, List.findIdx?_cons, List.length_cons]
      by_cases hkind : f.kind = kind
      · simp [Frame.level, hkind, Nat.add_comm]
      · simp only [Frame.level, hkind, decide_false, Bool.false_eq_true, if_false]
        rw [ih, Option.map_map]
        congr 1
        funext i
        exact (Nat.add_sub_add_right below.length 1 i).symm
  exact hfind s.frames

/-! ## Constructs -/

theorem rank?_eq {column : Nat} (h : column < 2 ^ 32) (shape : Shape) :
    rank? column shape = some ((Opener.block shape).rank column) := by
  have hdouble : add? column column = some (column + column) := add?_eq (by omega)
  rcases shape with _ | _
  · rw [rank?, bind_eq hdouble, add?_eq (by omega), Opener.rank, Nat.two_mul]
  · rw [rank?, bind_eq hdouble, add?_eq (by omega), Opener.rank, Nat.two_mul]

theorem lt_indent_of_drop {t : Stack} {rank i : Nat}
    (hi : i < (s.frames.takeWhile (rank < ·.indent)).length) (ht : t.frames = s.frames.drop i) :
    rank < t.indent := by
  rw [← List.takeWhile_append_dropWhile (p := (rank < ·.indent)) (l := s.frames),
    List.drop_append_of_le_length (Nat.le_of_lt hi), List.drop_eq_getElem_cons hi] at ht
  have habove := List.mem_takeWhile_imp (List.getElem_mem hi)
  rw [Stack.indent, ht]
  exact of_decide_eq_true habove

theorem indent_le_of_drop {t : Stack} {rank : Nat}
    (ht : t.frames = s.frames.drop (s.frames.takeWhile (rank < ·.indent)).length) :
    t.indent ≤ rank := by
  rw [drop_length_takeWhile] at ht
  rw [Stack.indent, ht]
  cases hdrop : s.frames.dropWhile (rank < ·.indent) with
  | nil => exact Nat.zero_le rank
  | cons f below =>
    have hhead := List.head?_dropWhile_not (rank < ·.indent) s.frames
    rw [hdrop] at hhead
    simpa using hhead

theorem isAbove?_nest (rank : Nat) (s : Stack) :
    isAbove? rank s.nest = some (decide (rank < s.indent)) := by
  rw [isAbove?, bind_eq (depth?_nest s), bind_eq (top?_nest s)]
  rcases hframes : s.frames with _ | ⟨f, below⟩
  · rw [Stack.depth, Stack.indent, hframes]
    rfl
  · rw [Stack.depth, hframes]
    simp

/-- The third loop goes down to a rank. -/
theorem popWhile?_rank (s : Stack) (rank : Nat) :
    popWhile? (isAbove? rank) s.nest.levels.length s.nest =
      some (s.close (s.frames.takeWhile (rank < ·.indent)).length).nest := by
  have hle := (List.takeWhile_sublist (l := s.frames) (rank < ·.indent)).length_le
  refine popWhile?_eq ?_ hle ?_ ?_
  · exact Nat.lt_of_lt_of_eq (Nat.lt_succ_of_le hle) s.length_levels.symm
  · intro t i hi ht
    rw [isAbove?_nest, decide_eq_true (lt_indent_of_drop hi ht)]
  · intro t ht
    rw [isAbove?_nest, decide_eq_false (Nat.not_lt.mpr (indent_le_of_drop ht))]

theorem announce?_nest (shape : Shape) (column : Nat) (outer : Stack) :
    announce? shape ((Opener.block shape).rank column) outer.nest =
      let after :=
        if outer.indent = (Opener.block shape).rank column then (outer, [shape.entryToken])
        else
          let (opened, tokens) := outer.start (.block shape) column
          (opened, tokens ++ [shape.startToken, shape.entryToken])
      some (after.1.nest, after.2) := by
  rw [announce?, bind_eq (top?_nest outer)]
  dsimp only
  split
  · rfl
  · have hstart : outer.nest.start? ⟨shape.startToken, (Opener.block shape).rank column⟩ = _ :=
      start?_nest outer (.block shape) column
    rw [bind_eq hstart]
    rfl

theorem enter?_nest (h : s.FlowWithin) {column : Nat} (hcolumn : column < 2 ^ 32) (shape : Shape) :
    s.nest.enter? shape column = some (s.enter shape column).nest := by
  rw [enter?, bind_eq (inFlow?_nest h), Stack.enter]
  dsimp only
  split
  · rfl
  · rw [bind_eq (rank?_eq hcolumn shape), bind_eq (popWhile?_rank s _)]
    exact andThen?_nest fun tokens _ ↦ announce?_nest shape column _

theorem openFlow?_nest (s : Stack) (shape : Shape) (column : Nat) :
    s.nest.openFlow? shape column = some (s.openFlow shape column).nest := by
  rw [openFlow?, bind_eq (top?_nest s), bind_eq (startFlow?_nest s shape column)]
  rfl

theorem closeFlow?_nest (s : Stack) (shape : Shape) :
    s.nest.closeFlow? shape = some (s.closeFlow shape).nest := by
  rw [closeFlow?, find?_nest, Stack.closeFlow]
  cases hfind : s.frames.findIdx? (·.kind = shape.startToken) with
  | none => rfl
  | some i =>
    have hlt : i < s.depth := (List.findIdx?_eq_some_iff_getElem.mp hfind).1
    have hcount : s.depth + 1 - (s.depth - i) = i + 1 := by omega
    have hclose := popWhile?_depth s (Nat.sub_pos_of_lt hlt)
    rwa [hcount] at hclose

theorem startDocument?_nest (s : Stack) : s.nest.startDocument? = some s.startDocument.nest := by
  rw [startDocument?, bind_eq (unwind?_nest s), Stack.startDocument]
  refine andThen?_nest fun tokens _ ↦ ?_
  rw [← push_nest]
  rfl

theorem endDocument?_nest (s : Stack) : s.nest.endDocument? = some s.endDocument.nest := by
  rw [endDocument?, bind_eq (unwind?_nest s), Stack.endDocument]
  rcases s.closeAll with ⟨empty, fault | tokens⟩
  · rfl
  · rfl

theorem endStream?_nest (s : Stack) : s.nest.endStream? = some s.endStream.nest := by
  rw [endStream?, bind_eq (top?_nest s), Stack.endStream]
  dsimp only
  split
  · rfl
  · exact endDocument?_nest s

/-- No construct makes the levels run out, on whatever stack. -/
theorem effect?_nest (h : s.FlowWithin) {column : Nat} (hcolumn : column < 2 ^ 32)
    (c : Construct) : s.nest.effect? column c = some (s.apply column c).nest := by
  rcases c with token | ⟨kind, _ | _⟩ | _ | shape | shape | _ | _ | _
  · rfl
  · rfl
  · rw [effect?, bind_eq (enter?_nest h hcolumn .mapping), Stack.apply]
    exact andThen?_nest fun _ _ ↦ rfl
  · exact enter?_nest h hcolumn .sequence
  · exact openFlow?_nest s shape column
  · exact closeFlow?_nest s shape
  · exact startDocument?_nest s
  · exact endDocument?_nest s
  · exact endStream?_nest s

/-! ## The level of the stream -/

theorem change?_nest (h : s.FlowWithin) (d : Change) :
    ∃ s' : Stack, s.nest.change? d = some s'.nest ∧ s'.FlowWithin ∧
      (s.Closable → (∀ kind, d = .override kind → kind ∈ Token.closable) → s'.Closable) := by
  cases d with
  | construct column c =>
    have heffect := effect?_nest h column.toNat_lt c
    refine ⟨(s.apply column.toNat c).stack, bind_eq heffect _, h.apply column.toNat c, ?_⟩
    intro hclosable _
    exact (hclosable.apply column.toNat c).stack
  | override kind =>
    refine ⟨s.setKind kind, setKind?_nest s kind, h.setKind kind, ?_⟩
    intro hclosable hkind
    exact hclosable.setKind (hkind kind rfl)

theorem changes?_nest (h : s.FlowWithin) (ds : List Change) :
    ∃ s' : Stack, s.nest.changes? ds = some s'.nest ∧
      (s.Closable → (∀ kind, .override kind ∈ ds → kind ∈ Token.closable) → s'.Closable) := by
  induction ds generalizing s with
  | nil => exact ⟨s, rfl, fun hclosable _ ↦ hclosable⟩
  | cons d ds ih =>
    obtain ⟨middle, hchange, hmiddle, hone⟩ := change?_nest h d
    obtain ⟨s', hchanges, hmore⟩ := ih hmiddle
    refine ⟨s', ?_, ?_⟩
    · rw [changes?, List.foldlM_cons, bind_eq hchange]
      exact hchanges
    · intro hclosable hkinds
      refine hmore (hone hclosable ?_) fun kind hmem ↦ hkinds kind (List.mem_cons_of_mem d hmem)
      rintro kind rfl
      exact hkinds kind List.mem_cons_self

/-- Any constructs at any columns, and any overrides between them. The level of the stream is still
the first one and of rank zero, and it stays so if the innermost level is closed, though that be the
stream itself. Closing is at fault only where a kind has been set that nothing closes. -/
theorem root_changes (ds : List Change) :
    ∃ n kind, stream.changes? ds = some n ∧ n.levels.head? = some ⟨kind, 0⟩ ∧
      ∃ outer answer, n.pop? = some (outer, answer) ∧ outer.levels.head? = some ⟨kind, 0⟩ ∧
        ((∀ kind, .override kind ∈ ds → kind ∈ Token.closable) →
          ∃ tokens, answer = .ok tokens) := by
  obtain ⟨s, hchanges, hclosable⟩ := changes?_nest Stack.flowWithin_empty ds
  refine ⟨s.nest, s.rootKind, hchanges, rfl, (s.close 1).stack.nest, (s.close 1).tokens,
    pop?_nest s, ?_, ?_⟩
  · rw [← s.rootKind_close 1]
    rfl
  · intro hkinds
    have hempty : ({} : Stack).Closable := ⟨List.mem_cons_self, nofun⟩
    obtain ⟨outer, tokens, hclose⟩ := (hclosable hempty hkinds).exists_close 1
    rw [hclose]
    exact ⟨tokens, rfl⟩

-- An override of the stream, then one of a sequence, which is closed. The stream is not.
example : (stream.changes? [.override .mappingStart, .construct 3 .entry,
    .override .directivesEnd]).bind pop? =
      some (⟨[⟨.mappingStart, 0⟩], none⟩, .ok [.documentEnd]) := by
  decide

end Words.Nest

end YamlLexer
