import TableLexer.Proofs.Machine.Words
import TableLexer.Proofs.Recognition.Progress

/-! Calls in machine arithmetic. Every index is checked against its array and every sum against its
word, and a call that meets neither fault makes the same turns and gives the same answer as the
automaton. -/

set_option autoImplicit false

namespace TableLexer.Machine

variable {μ : Type}

/-- What a call hands back. A suspended call is told by its code. -/
inductive Answer where
  | action (action : ActionId)
  | refill (code : Int32)
  | failed (error : LexError)
  deriving DecidableEq, Repr

def Answer.Means (answer : Answer) (outcome : Except LexError Step) : Prop :=
  match answer, outcome with
  | .action given, .ok (.action wanted) => given = wanted
  | .refill code, .ok (.refill state) => code.toInt = (Entry.resume state).code
  | .failed given, .error wanted => given = wanted
  | _, _ => False

structure Running (μ : Type) where
  state : Nat
  window : Window
  memory : μ

inductive Turned (μ : Type) where
  | onward (running : Running μ)
  | answered (answer : Answer) (window : Window) (memory : μ)

def read (window : Window) : Except Fault (Option (Nat × Window)) :=
  if window.limit ≤ window.curr then
    .ok (if window.ended then some (endColumn, window) else none)
  else do
    let byte ← fetch window.bytes window.curr
    return some (byte.toNat, { window with curr := ← addWord window.curr 1 })

def next (tables : Tables) (state : Nat) (base : Int16) (column : Nat) : Except Fault Int16 := do
  lookupSlot tables.parts.check tables.parts.trans tables.parts.fallback (← slot base column) state

def deadEnd (window : Window) (memory : μ) : Turned μ :=
  let window := window.backUp
  match window.lastAction with
  | some action => .answered (.action action) window memory
  | none => .answered (.failed (.emptyToken window.curr)) window memory

def follow (tables : Tables) (observer : Observer μ) (state : Nat) (base : Int16) (column : Nat)
    (window : Window) (memory : μ) : Except Fault (Turned μ) := do
  let target ← next tables state base column
  if target < 0 then return deadEnd window memory
  let memory ← observer.move state column window.curr memory
  let window := if column = endColumn then { window with ended := false } else window
  return .onward { state := offset target, window, memory }

def turn (tables : Tables) (observer : Observer μ) (running : Running μ) :
    Except Fault (Turned μ) := do
  let { state, window, memory } := running
  let base ← tables.base state
  if base < 0 then
    let memory ← observer.tag .accept state memory
    return .answered (.action (← finalAction base).toNat) window memory
  let backtrack ← tables.backtrack state
  let memory ← if 0 ≤ backtrack then observer.tag .backtrack state memory else .ok memory
  let window := if 0 ≤ backtrack then window.bookmark backtrack.toUInt16.toNat else window
  match ← read window with
  | none => return .answered (.refill (← suspend state)) window memory
  | some (column, window) => follow tables observer state base column window memory

def turns (tables : Tables) (observer : Observer μ) :
    Nat → Running μ → Except Fault (Turned μ)
  | 0, running => .ok (.onward running)
  | count + 1, running => do
    match ← turn tables observer running with
    | .onward running => turns tables observer count running
    | .answered answer window memory => return .answered answer window memory

def call (tables : Tables) (observer : Observer μ) (count : Nat) (code : Int32) (window : Window)
    (memory : μ) : Except Fault (Turned μ) := do
  let number ← decode code
  if 0 ≤ number ∧ number.toInt.toNat < tables.states then
    let window := if 0 ≤ code then window.beginAttempt else window
    turns tables observer count
      { state := number.toInt.toNat, window, memory := observer.prepare memory }
  else return .answered (.failed (.invalidState (.ofCode code.toInt))) window memory

def recordAddress (captures : CaptureTables) (state column : Nat) : Except Fault Int16 := do
  let base ← fetch captures.parts.baseCode state
  lookupSlot captures.parts.checkCode captures.parts.transCode captures.parts.fallbackCode
    (← slot base column) state

/-- The capture programs, with the slot of a transition found in machine arithmetic. -/
def observer (captures : CaptureTables) : Observer (Array Cell) where
  prepare := captures.observer.prepare
  tag := captures.observer.tag
  move state column position cells := do
    if endColumn < column then throw .outOfRange
    runProgram (captures.program? (← recordAddress captures state column)) (some position) cells

section

variable {tables : Tables} {state : Nat}

theorem next_eq (inside : state < tables.states)
    (unfinished : tables.final? state = none) (symbol : Symbol) :
    next tables state (tables.parts.base.getD state 0) symbol.column =
      tables.next state (tables.parts.base.getD state 0) symbol.column := by
  have row := Tables.Valid.row_of_open inside unfinished
  rw [next, slot_eq row symbol.column_lt, ok_bind]
  rfl

theorem recordAddress_eq {captures : CaptureTables} {parts : PlainParts}
    (valid : captures.Valid parts) (inside : state < parts.base.size)
    (row : 0 ≤ parts.base.getD state 0) (symbol : Symbol) :
    recordAddress captures state symbol.column =
      captures.recordAddress state symbol.column := by
  obtain ⟨nonneg, _⟩ := valid.met _ (CaptureParts.row_demanded inside row).1
  have base : fetch captures.parts.baseCode state =
      .ok (captures.parts.baseCode.getD state 0) := fetch_getD (valid.baseCode_size ▸ inside) 0
  rw [recordAddress, CaptureTables.recordAddress, base, ok_bind, ok_bind,
    slot_eq nonneg symbol.column_lt, ok_bind, if_neg (Int16.not_lt.mpr nonneg)]

theorem observer_follows (valid : tables.Valid) {captures : CaptureTables}
    (carried : tables.captures = some captures) :
    (observer captures).Follows tables captures.reaction fun cells =>
      captures.cells ≤ cells.size where
  prepared := (CaptureTables.observer_follows valid carried).prepared
  unchanged := (CaptureTables.observer_follows valid carried).unchanged
  tag := (CaptureTables.observer_follows valid carried).tag
  move state symbol position cells inside unfinished enough := by
    have same : (observer captures).move state symbol.column position cells =
        captures.observer.move state symbol.column position cells := by
      have address := recordAddress_eq (valid.captures captures carried) inside
        (Tables.Valid.row_of_open inside unfinished) symbol
      simp only [observer, CaptureTables.observer, CaptureTables.recordProgram, address,
        bind_assoc, pure_bind]
    rw [same]
    exact (CaptureTables.observer_follows valid carried).move state symbol position cells inside
      unfinished enough

theorem read_dry {window : Window} (nothing : window.unread = []) : read window = .ok none := by
  rcases Nat.lt_or_ge window.curr window.limit with inside | outside
  · obtain ⟨byte, _, shape⟩ := Window.unread_byte inside
    rw [shape] at nothing
    cases nothing
  · have shape := (Window.unread_of_limit_le outside).2
    rw [nothing] at shape
    rw [read, if_pos outside]
    cases flag : window.ended with
    | false => rfl
    | true =>
      rw [flag] at shape
      cases shape

theorem read_symbol {window : Window} (fits : window.bytes.size < wordLimit) {symbol : Symbol}
    {rest : List Symbol} (ahead : window.unread = symbol :: rest) :
    read window = .ok (some (symbol.column, window.advance symbol)) := by
  obtain ⟨found, _, _⟩ := Window.unread_cons ahead
  rcases Nat.lt_or_ge window.curr window.limit with inside | outside
  · have within : window.limit ≤ window.bytes.size := Nat.min_le_right _ _
    have readable : window.curr < window.bytes.size := Nat.lt_of_lt_of_le inside within
    have fetched : fetch window.bytes window.curr = .ok window.bytes[window.curr] :=
      fetch_eq_ok_iff.mpr ⟨readable, rfl⟩
    -- The cursor is below the size of an array, so there is an offset after it.
    have small : window.curr + 1 < wordLimit := Nat.lt_of_le_of_lt readable fits
    rw [Window.next, dif_pos inside] at found
    subst found
    rw [read, if_neg (Nat.not_le.mpr inside), fetched, ok_bind, addWord_of_lt small, ok_bind]
    rfl
  · obtain ⟨ending, shape⟩ := Window.unread_of_limit_le outside
    rw [shape] at ahead
    rw [read, if_pos outside]
    cases flag : window.ended with
    | false =>
      rw [flag] at ahead
      cases ahead
    | true =>
      rw [flag] at ahead
      cases ahead
      rfl

end

section

variable {tables : Tables} {observer : Observer μ} {reaction : Reaction μ} {ready : μ → Prop}
  {state : Nat} {window : Window} {memory : μ}

theorem turn_final (follows : observer.Follows tables reaction ready)
    (inside : state < tables.states) (holds : ready memory) {action : ActionId}
    (final : tables.final? state = some action) :
    turn tables observer { state, window, memory } =
      .ok (.answered (.action action) window (reaction.tag .accept state memory)) := by
  rw [Tables.Valid.final?_eq inside, finalAction?] at final
  split at final
  · rename_i negative
    obtain ⟨word, computed, value⟩ := finalAction_eq negative
    cases final
    simp only [turn, Tables.Valid.base_eq inside, ok_bind, if_pos negative, computed, value,
      (follows.tag .accept state memory inside holds).1, pure_eq_ok]
  · cases final

theorem turn_open (valid : tables.Valid) (follows : observer.Follows tables reaction ready)
    (inside : state < tables.states) (unfinished : tables.final? state = none)
    (holds : ready memory) :
    turn tables observer { state, window, memory } =
      read (window.withTrail (window.trail.note (tables.bookmark? state))) >>= fun found =>
        match found with
        | none => suspend state >>= fun code =>
          .ok (.answered (.refill code) (window.withTrail (window.trail.note
            (tables.bookmark? state))) (tables.tagged reaction state memory))
        | some (column, window) =>
          follow tables observer state (tables.parts.base.getD state 0) column window
            (tables.tagged reaction state memory) := by
  have row := Tables.Valid.row_of_open inside unfinished
  have noted : (if 0 ≤ tables.parts.backtrack.getD state 0 then
      window.bookmark (tables.parts.backtrack.getD state 0).toUInt16.toNat else window) =
        window.withTrail (window.trail.note (tables.bookmark? state)) := by
    rw [valid.bookmark?_eq inside]
    by_cases marked : 0 ≤ tables.parts.backtrack.getD state 0
    · rw [if_pos marked, entryValue?_of_nonneg marked, toUInt16_of_nonneg marked]
      rfl
    · rw [if_neg marked, entryValue?_eq_none_iff.mpr (Int16.not_le.mp marked)]
      rfl
  unfold turn
  simp only [Tables.Valid.base_eq inside, ok_bind, if_neg (Int16.not_lt.mpr row),
    valid.backtrack_eq inside]
  refine (Tables.tag_bind valid follows inside holds _).trans ?_
  rw [noted]
  rfl

theorem follow_symbol (valid : tables.Valid) (follows : observer.Follows tables reaction ready)
    (inside : state < tables.states) (unfinished : tables.final? state = none)
    (holds : ready memory) (symbol : Symbol) :
    follow tables observer state (tables.parts.base.getD state 0) symbol.column window memory =
      match tables.successor? state symbol with
      | none => .ok (deadEnd window memory)
      | some target =>
        .ok (.onward
          { state := target
            window := window.reopen symbol
            memory := reaction.move state symbol window.curr memory }) := by
  obtain ⟨target, found, value⟩ := valid.next_eq inside unfinished symbol
  have moved := (follows.move state symbol window.curr memory inside unfinished holds).1
  have reopened : (if symbol.column = endColumn then { window with ended := false } else window) =
      window.reopen symbol := by
    cases symbol with
    | byte byte => exact if_neg (Nat.ne_of_lt byte.toNat_lt)
    | endOfInput => rfl
  rw [follow, next_eq inside unfinished, found, ok_bind, ← value]
  cases read : entryValue? target with
  | none =>
    rw [if_pos (entryValue?_eq_none_iff.mp read)]
    rfl
  | some number =>
    -- A target that is a number is its own offset, for its sign does not fill the word.
    have nonneg : ¬ target < 0 := by
      rw [← entryValue?_eq_none_iff, read]
      exact Option.some_ne_none number
    rw [entryValue?_eq_some_iff] at read
    have same : offset target = number := by
      rw [offset_of_nonneg (Int16.not_lt.mp nonneg), read, Int.toNat_natCast]
    simp only [if_neg nonneg, moved, ok_bind, reopened, same, pure_eq_ok]

theorem deadEnd_eq (window : Window) (trail : Trail) (memory : μ) :
    ∃ answer, deadEnd (window.withTrail trail) memory =
        .answered answer (window.withTrail (trail.deadEnd memory).trail) memory ∧
      answer.Means (trail.deadEnd memory).outcome := by
  obtain ⟨curr, last, lastAction, ended⟩ := trail
  cases lastAction with
  | none => exact ⟨.failed (.emptyToken last), rfl, rfl⟩
  | some action => exact ⟨.action action, rfl, rfl⟩

/-- A call makes one turn for every symbol that it reads and one to answer, none of them meets a
fault, and its answer is that of the attempt on the unread symbols. -/
theorem turns_proceed (valid : tables.Valid) (follows : observer.Follows tables reaction ready)
    (symbols : List Symbol) (inside : state < tables.states) (holds : ready memory)
    (fits : window.bytes.size < wordLimit) (ahead : window.unread = symbols)
    {progress : Progress μ}
    (made : tables.proceed reaction (symbols.map .symbol) state window.trail memory = progress) :
    ∃ answer, turns tables observer (symbols.length + 1) { state, window, memory } =
        .ok (.answered answer (window.withTrail progress.trail) progress.memory) ∧
      answer.Means progress.outcome := by
  -- The unread symbols bound the turns: each turn that goes on has read one of them.
  induction symbols generalizing state window memory with
  | nil =>
    cases final : tables.final? state with
    | some action =>
      rw [List.map_nil, Tables.proceed_final final] at made
      rw [turns, turn_final follows inside holds final, ← made]
      exact ⟨.action action, rfl, rfl⟩
    | none =>
      rw [List.map_nil, Tables.proceed_nil final] at made
      obtain ⟨code, stopped, value⟩ := suspend_eq (Nat.lt_of_lt_of_le inside valid.states_le)
      rw [turns, turn_open valid follows inside final holds,
        read_dry ((window.unread_note _).trans ahead), ok_bind, ← made]
      simp only [stopped, ok_bind]
      exact ⟨.refill code, rfl, value⟩
  | cons symbol rest ih =>
    cases final : tables.final? state with
    | some action =>
      rw [Tables.proceed_final final] at made
      rw [turns, turn_final follows inside holds final, ← made]
      exact ⟨.action action, rfl, rfl⟩
    | none =>
      have prepared := Tables.tagged_ready follows inside holds
      let noted := window.withTrail (window.trail.note (tables.bookmark? state))
      have ahead' : noted.unread = symbol :: rest := (window.unread_note _).trans ahead
      have fits' : noted.bytes.size < wordLimit := fits
      obtain ⟨_, moved, left⟩ := Window.unread_cons ahead'
      rw [List.map_cons] at made
      rw [turns, turn_open valid follows inside final holds, read_symbol fits' ahead', ok_bind]
      simp only [follow_symbol valid follows inside final prepared symbol, moved]
      cases leads : tables.successor? state symbol with
      | none =>
        rw [Tables.proceed_stuck final leads] at made
        obtain ⟨answer, dead, means⟩ := deadEnd_eq window
          ((window.trail.note (tables.bookmark? state)).read symbol)
          (tables.tagged reaction state memory)
        refine ⟨answer, ?_, made ▸ means⟩
        change (match deadEnd (window.withTrail ((window.trail.note _).read symbol)) _ with
          | .onward running => turns tables observer _ running
          | .answered answer window memory => .ok (.answered answer window memory)) = _
        rw [dead, ← made]
        rfl
      | some target =>
        rw [Tables.proceed_move final leads] at made
        have known := valid.successor?_lt inside final leads
        obtain ⟨_, kept⟩ := follows.move state symbol (window.curr + symbol.width) _ inside
          final prepared
        have cursor : ((window.trail.note (tables.bookmark? state)).read symbol).curr =
            window.curr + symbol.width := by
          rw [Trail.read_curr, Trail.note_curr]
          rfl
        have fits'' : (noted.withTrail (noted.trail.pass symbol)).bytes.size < wordLimit := fits
        obtain ⟨answer, onward, means⟩ := ih known kept fits'' left made
        refine ⟨answer, ?_, means⟩
        rw [← cursor] at onward
        simp only [Window.reopen_withTrail]
        exact onward

theorem begun_ofCode (code : Int32) (window : Window) :
    (if 0 ≤ code then window.beginAttempt else window) =
      (Entry.ofCode code.toInt).begun window := by
  have zero : (0 : Int32).toInt = 0 := rfl
  simp only [Int32.le_iff_toInt_le, zero]
  cases code.toInt with
  | ofNat state => exact if_pos (Int.natCast_nonneg state)
  | negSucc state => exact if_neg (Int.not_le.mpr (Int.negSucc_lt_zero state))

/-- A call by any code, on any window and any memory, meets no fault and answers as the automaton
does. -/
theorem call_run (valid : tables.Valid) (follows : observer.Follows tables reaction ready)
    {plainObserver : Observer μ} (follows' : plainObserver.Follows tables reaction ready)
    (prepare : observer.prepare = plainObserver.prepare) (code : Int32)
    (fits : window.bytes.size < wordLimit) :
    ∃ answer result, tables.run plainObserver (.ofCode code.toInt) window memory = .ok result ∧
      call tables observer (window.pending + 1) code window memory =
        .ok (.answered answer result.window result.memory) ∧
      answer.Means result.outcome := by
  obtain ⟨number, decoded, value⟩ := decode_eq code
  have nonneg : 0 ≤ number := by
    rw [Int32.le_iff_toInt_le, value]
    exact Int.natCast_nonneg _
  have state : number.toInt.toNat = (Entry.ofCode code.toInt).state := by
    rw [value, Int.toNat_natCast]
  -- Of a code that names no state nothing is run, and both engines report the code.
  by_cases inside : (Entry.ofCode code.toInt).state < tables.states
  · have sized : ((Entry.ofCode code.toInt).begun window).bytes.size < wordLimit := by
      cases Entry.ofCode code.toInt <;> exact fits
    have same : ((Entry.ofCode code.toInt).begun window).unread = window.unread := by
      cases Entry.ofCode code.toInt <;> rfl
    have ready' := follows.prepared memory
    obtain ⟨answer, answered, means⟩ := turns_proceed valid follows window.unread inside ready'
      sized same rfl
    have prepared : tables.run plainObserver (.ofCode code.toInt) window memory =
        tables.run plainObserver (.ofCode code.toInt) window (observer.prepare memory) := by
      rw [prepare]
      exact Tables.run_prepare follows' _ inside window memory
    obtain ⟨ran, _⟩ := Tables.run_eq valid follows' (.ofCode code.toInt) inside ready' rfl
    refine ⟨answer, _, prepared.trans ran, ?_, means⟩
    rw [call, decoded, ok_bind, if_pos ⟨nonneg, state ▸ inside⟩, state, begun_ofCode]
    rw [Window.length_unread] at answered
    exact answered
  · refine ⟨.failed (.invalidState (.ofCode code.toInt)), _, if_neg inside, ?_, rfl⟩
    rw [call, decoded, ok_bind, if_neg (fun known => inside (state ▸ known.2))]
    rfl

end

end TableLexer.Machine
