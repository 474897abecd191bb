import TableLexer.Proofs.Recognition.Progress

/-! A call turn by turn. The loop of a call counts nothing: a turn looks for input where the cursor
is, and either ends the call or takes a transition. Every transition reads the first of the unread
symbols, so a call ends after at most one transition for each byte that its window has left and one
for the end of the input, and nothing follows that one. -/

set_option autoImplicit false

namespace TableLexer

variable {μ : Type}

namespace Window

variable {window : Window} {symbol : Symbol} {read rest moves : List Symbol}

def Dry (window : Window) : Prop :=
  window.limit ≤ window.curr ∧ window.ended = false

instance : DecidablePred Dry := fun window =>
  inferInstanceAs (Decidable (window.limit ≤ window.curr ∧ window.ended = false))

theorem unread_of_dry (dry : window.Dry) : window.unread = [] := by
  rw [(unread_of_limit_le dry.1).2, dry.2]
  rfl

theorem unread_of_not_dry (more : ¬ window.Dry) :
    window.unread = window.next :: ((window.advance window.next).reopen window.next).unread := by
  have something : window.unread ≠ [] := by
    rcases Nat.lt_or_ge window.curr window.limit with inside | outside
    · obtain ⟨byte, _, shape⟩ := unread_byte inside
      exact shape ▸ List.cons_ne_nil _ _
    · cases flag : window.ended with
      | false => exact absurd ⟨outside, flag⟩ more
      | true =>
        rw [(unread_of_limit_le outside).2, flag]
        exact List.cons_ne_nil _ _
  obtain ⟨symbol, rest, ahead⟩ := List.exists_cons_of_ne_nil something
  obtain ⟨found, moved, left⟩ := unread_cons ahead
  rw [found, moved, reopen_withTrail, ahead]
  exact congrArg _ left.symm

theorem countP_unread (window : Window) :
    window.unread.countP (· != .endOfInput) = window.limit - window.curr := by
  have within : window.limit ≤ window.bytes.size := Nat.min_le_right _ _
  have flag : (if window.ended then [Symbol.endOfInput] else []).countP (· != .endOfInput) = 0 := by
    cases window.ended <;> rfl
  rw [unread, List.countP_append, flag, List.countP_map, List.countP_eq_length.mpr]
  · simp [within]
  · intro byte _
    rfl

theorem count_unread_le (window : Window) : window.unread.count .endOfInput ≤ 1 := by
  have plain : (((window.bytes.toList.take window.limit).drop window.curr).map Symbol.byte).count
      .endOfInput = 0 := List.count_eq_zero.mpr (Symbol.endOfInput_notMem _)
  rw [unread, List.count_append, plain]
  cases window.ended <;> decide

theorem unread_last (ahead : window.unread = read ++ .endOfInput :: rest) : rest = [] := by
  have plain := Symbol.endOfInput_notMem ((window.bytes.toList.take window.limit).drop window.curr)
  rw [unread, (unread_endOfInput ahead).1, if_pos rfl] at ahead
  rcases List.append_eq_append_iff.mp ahead with ⟨more, _, tail⟩ | ⟨more, shape, tail⟩
  · have lengths := congrArg List.length tail
    simp only [List.length_append, List.length_cons, List.length_nil] at lengths
    exact List.eq_nil_of_length_eq_zero (by omega)
  · cases more with
    | nil => exact List.tail_eq_of_cons_eq tail
    | cons symbol more =>
      rw [List.cons_append, List.cons.injEq] at tail
      rw [shape, ← tail.1] at plain
      exact absurd (List.mem_append_right read List.mem_cons_self) plain

end Window

inductive Turning (μ : Type) where
  | ends (result : Result μ)
  | moves (symbol : Symbol) (target : Nat) (window : Window) (memory : μ)

/-- The hooks return on ready memories, at every event that a call on these tables can report, and
leave them ready. -/
structure Observer.Returns (observer : Observer μ) (tables : Tables) (ready : μ → Prop) : Prop where
  prepared : ∀ memory, ready (observer.prepare memory)
  tag : ∀ point state memory, state < tables.states → ready memory →
    ∃ after, observer.tag point state memory = .ok after ∧ ready after
  move : ∀ state (symbol : Symbol) position memory, state < tables.states →
    tables.final? state = none → ready memory →
      ∃ after, observer.move state symbol.column position memory = .ok after ∧ ready after

theorem Observer.Follows.returns {observer : Observer μ} {tables : Tables} {reaction : Reaction μ}
    {ready : μ → Prop} (follows : observer.Follows tables reaction ready) :
    observer.Returns tables ready where
  prepared := follows.prepared
  tag point state memory inside holds := ⟨_, follows.tag point state memory inside holds⟩
  move state symbol position memory inside unfinished holds :=
    ⟨_, follows.move state symbol position memory inside unfinished holds⟩

theorem Observer.Returns.logged {observer : Observer μ} {tables : Tables} {ready : μ → Prop}
    (returns : observer.Returns tables ready) :
    observer.logged.Returns tables fun memory => ready memory.1 where
  prepared memory := returns.prepared memory.1
  tag point state memory inside holds := by
    obtain ⟨after, tagged, kept⟩ := returns.tag point state memory.1 inside holds
    refine ⟨(after, memory.2.push (.tag point state, after)), ?_, kept⟩
    simp only [Observer.logged, tagged, ok_bind, pure_eq_ok]
  move state symbol position memory inside unfinished holds := by
    obtain ⟨after, moved, kept⟩ :=
      returns.move state symbol position memory.1 inside unfinished holds
    refine ⟨(after, memory.2.push (.move state symbol.column position, after)), ?_, kept⟩
    simp only [Observer.logged, moved, ok_bind, pure_eq_ok]

namespace Tables

/-- The part of a turn that looks for input, in an open state that has taken its bookmark. -/
def readOn (tables : Tables) (observer : Observer μ) (state : Nat) (base : Int16)
    (window : Window) (memory : μ) : Except Fault (Turning μ) := do
  if window.Dry then return .ends { outcome := .ok (.refill state), window, memory }
  let symbol := window.next
  let window := window.advance symbol
  let target ← tables.next state base symbol.column
  if target < 0 then return .ends (window.deadEnd memory)
  let memory ← observer.move state symbol.column window.curr memory
  return .moves symbol target.toInt.toNat (window.reopen symbol) memory

def turn (tables : Tables) (observer : Observer μ) (state : Nat) (window : Window) (memory : μ) :
    Except Fault (Turning μ) := do
  let base ← tables.base state
  if base < 0 then
    let memory ← observer.tag .accept state memory
    return .ends { outcome := .ok (.action (actionOfBase base)), window, memory }
  let backtrack ← tables.backtrack state
  let memory ← if 0 ≤ backtrack then observer.tag .backtrack state memory else .ok memory
  let window := if 0 ≤ backtrack then window.bookmark backtrack.toInt.toNat else window
  tables.readOn observer state base window memory

/-- The turns of a call from a state on: the symbols of its transitions, in order, and what it
returns in the end. -/
inductive Course (tables : Tables) (observer : Observer μ) :
    Nat → Window → μ → List Symbol → Except Fault (Result μ) → Prop where
  | ends {state : Nat} {window : Window} {memory : μ} {result : Result μ} :
      tables.turn observer state window memory = .ok (.ends result) →
      Course tables observer state window memory [] (.ok result)
  | faults {state : Nat} {window : Window} {memory : μ} {fault : Fault} :
      tables.turn observer state window memory = .error fault →
      Course tables observer state window memory [] (.error fault)
  | moves {state target : Nat} {window after : Window} {memory memory' : μ} {symbol : Symbol}
      {rest : List Symbol} {returned : Except Fault (Result μ)} :
      tables.turn observer state window memory = .ok (.moves symbol target after memory') →
      Course tables observer target after memory' rest returned →
      Course tables observer state window memory (symbol :: rest) returned

def goOn (tables : Tables) (observer : Observer μ) : Turning μ → Except Fault (Result μ)
  | .ends result => .ok result
  | .moves _ target window memory => tables.enter observer window.pending target window memory

variable {tables : Tables} {observer : Observer μ} {ready : μ → Prop} {state target : Nat}
  {base : Int16} {window after : Window} {memory memory' : μ} {symbol : Symbol}

theorem enter_turn (tables : Tables) (observer : Observer μ) (state : Nat) (window : Window)
    (memory : μ) :
    tables.enter observer window.pending state window memory =
      tables.turn observer state window memory >>= tables.goOn observer := by
  unfold turn
  rw [enter.eq_def]
  cases tables.base state with
  | error fault => rfl
  | ok base =>
    rw [ok_bind, ok_bind]
    by_cases final : base < 0
    · rw [if_pos final, if_pos final, bind_assoc]
      rfl
    · rw [if_neg final, if_neg final]
      cases tables.backtrack state with
      | error fault => rfl
      | ok backtrack =>
        rw [ok_bind, ok_bind]
        -- A bookmark leaves what can be read alone.
        have same : window.pending = (if 0 ≤ backtrack then
            window.bookmark backtrack.toInt.toNat else window).pending := by
          split <;> rfl
        simp only [same]
        generalize (if 0 ≤ backtrack then window.bookmark backtrack.toInt.toNat else window) = marked
        refine (apply_ite (· >>= _) _ _ _).symm.trans ?_
        refine Eq.trans ?_ (congrArg (· >>= _) (apply_ite (· >>= _) _ _ _))
        refine Eq.trans ?_ (bind_assoc _ _ _).symm
        congr 1
        funext memory
        rw [← Window.length_unread, readOn]
        by_cases dry : marked.Dry
        · rw [if_pos dry, Window.unread_of_dry dry]
          rfl
        · rw [if_neg dry, Window.unread_of_not_dry dry, List.length_cons, Window.length_unread]
          simp only
          rw [bind_assoc]
          congr 1
          funext target
          split
          · rfl
          · rw [bind_assoc]
            rfl

theorem readOn_moves (moved : tables.readOn observer state base window memory =
    .ok (.moves symbol target after memory')) : window.unread = symbol :: after.unread := by
  unfold readOn at moved
  by_cases dry : window.Dry
  · rw [if_pos dry] at moved
    cases moved
  · rw [if_neg dry, bind_eq_ok_iff] at moved
    obtain ⟨entry, _, moved⟩ := moved
    split at moved
    · cases moved
    · obtain ⟨memory, _, ⟨⟩⟩ := bind_eq_ok_iff.mp moved
      exact Window.unread_of_not_dry dry

theorem turn_moves (moved : tables.turn observer state window memory =
    .ok (.moves symbol target after memory')) : window.unread = symbol :: after.unread := by
  unfold turn at moved
  obtain ⟨base, _, moved⟩ := bind_eq_ok_iff.mp moved
  split at moved
  · obtain ⟨memory, _, ⟨⟩⟩ := bind_eq_ok_iff.mp moved
  · obtain ⟨backtrack, _, moved⟩ := bind_eq_ok_iff.mp moved
    -- A bookmark leaves the unread symbols alone.
    split at moved
    · obtain ⟨memory, _, moved⟩ := bind_eq_ok_iff.mp moved
      exact (readOn_moves moved :)
    · exact readOn_moves moved

theorem course_exists (tables : Tables) (observer : Observer μ) (state : Nat) (window : Window)
    (memory : μ) :
    ∃ moves, tables.Course observer state window memory moves
        (tables.enter observer window.pending state window memory) ∧
      moves <+: window.unread := by
  induction size : window.unread.length using Nat.strongRecOn
    generalizing state window memory with
  | ind length ih =>
    rw [enter_turn]
    cases turned : tables.turn observer state window memory with
    | error fault => exact ⟨[], .faults turned, List.nil_prefix⟩
    | ok turning =>
      cases turning with
      | ends result => exact ⟨[], .ends turned, List.nil_prefix⟩
      | moves symbol target after memory' =>
        have ahead := turn_moves turned
        have fewer : after.unread.length < length := by
          rw [← size, ahead]
          exact Nat.lt_succ_self _
        obtain ⟨rest, course, reads⟩ := ih _ fewer target after memory' rfl
        refine ⟨symbol :: rest, .moves turned course, ?_⟩
        rw [ahead]
        exact List.cons_prefix_cons.mpr ⟨rfl, reads⟩

theorem readOn_returns (valid : tables.Valid) (returns : observer.Returns tables ready)
    (inside : state < tables.states) (unfinished : tables.final? state = none)
    (holds : ready memory) :
    ∃ turning, tables.readOn observer state (tables.parts.base.getD state 0) window memory =
        .ok turning ∧
      ∀ symbol target after memory', turning = .moves symbol target after memory' →
        target < tables.states ∧ ready memory' := by
  unfold readOn
  by_cases dry : window.Dry
  · exact ⟨_, if_pos dry, nofun⟩
  · rw [if_neg dry]
    obtain ⟨entry, found, known⟩ := valid.next_known inside
      (Valid.row_of_open inside unfinished) window.next.column_lt
    simp only [found, ok_bind]
    by_cases stuck : entry < 0
    · exact ⟨_, if_pos stuck, nofun⟩
    · obtain ⟨memory', moved, kept⟩ := returns.move state window.next
        (window.advance window.next).curr memory inside unfinished holds
      rw [if_neg stuck, moved, ok_bind]
      refine ⟨_, rfl, ?_⟩
      rintro _ _ _ _ ⟨⟩
      exact ⟨known _ (entryValue?_of_nonneg (Int16.not_lt.mp stuck)), kept⟩

theorem turn_returns (valid : tables.Valid) (returns : observer.Returns tables ready)
    (inside : state < tables.states) (holds : ready memory) (window : Window) :
    ∃ turning, tables.turn observer state window memory = .ok turning ∧
      ∀ symbol target after memory', turning = .moves symbol target after memory' →
        target < tables.states ∧ ready memory' := by
  unfold turn
  rw [Valid.base_eq inside, ok_bind]
  by_cases final : tables.parts.base.getD state 0 < 0
  · obtain ⟨memory', tagged, _⟩ := returns.tag .accept state memory inside holds
    rw [if_pos final, tagged]
    exact ⟨_, rfl, nofun⟩
  · have unfinished : tables.final? state = none := by
      rw [Valid.final?_eq inside, finalAction?_eq_none_iff]
      exact Int16.not_lt.mp final
    rw [if_neg final, valid.backtrack_eq inside, ok_bind]
    by_cases marked : 0 ≤ tables.parts.backtrack.getD state 0
    · obtain ⟨memory', tagged, kept⟩ := returns.tag .backtrack state memory inside holds
      rw [if_pos marked, tagged]
      exact readOn_returns valid returns inside unfinished kept
    · rw [if_neg marked]
      exact readOn_returns valid returns inside unfinished holds

theorem Course.returns (valid : tables.Valid) (returns : observer.Returns tables ready)
    {moves : List Symbol} {returned : Except Fault (Result μ)}
    (course : tables.Course observer state window memory moves returned)
    (inside : state < tables.states) (holds : ready memory) :
    ∃ result, returned = .ok result := by
  induction course with
  | ends => exact ⟨_, rfl⟩
  | faults faulted =>
    obtain ⟨_, turned, _⟩ := turn_returns valid returns inside holds _
    rw [turned] at faulted
    cases faulted
  | moves moved _ ih =>
    obtain ⟨_, turned, onward⟩ := turn_returns valid returns inside holds _
    rw [turned] at moved
    cases moved
    obtain ⟨inside', holds'⟩ := onward _ _ _ _ rfl
    exact ih inside' holds'

/-- A call always ends. An entry that names no state is refused at once. Any other call takes its
turns until one of them ends it, whatever observes it and wherever its cursor and its length point:
at most one transition for each byte between the cursor and the limit and at most one for the end
of the input, which is the last. It returns when the hooks do. -/
theorem run_turns {parts : PlainParts} {capture : Option CaptureParts} {tables : Tables}
    (accepted : Tables.ofParts parts capture = .ok tables) (observer : Observer μ) (entry : Entry)
    (window : Window) (memory : μ) :
    (tables.states ≤ entry.state →
      tables.run observer entry window memory =
        .ok { outcome := .error (.invalidState entry), window, memory }) ∧
    (entry.state < tables.states → ∃ moves returned,
      tables.Course observer entry.state (entry.begun window) (observer.prepare memory) moves
        returned ∧
      tables.run observer entry window memory = returned ∧
      moves.countP (· != .endOfInput) ≤ window.limit - window.curr ∧
      moves.count .endOfInput ≤ 1 ∧
      (∀ before after, moves = before ++ .endOfInput :: after → after = []) ∧
      ∀ ready, observer.Returns tables ready → ∃ result, returned = .ok result) := by
  have valid := Tables.valid_of_ofParts accepted
  refine ⟨fun unknown => if_neg (Nat.not_lt.mpr unknown), fun inside => ?_⟩
  have begins : tables.run observer entry window memory =
      tables.enter observer (entry.begun window).pending entry.state (entry.begun window)
        (observer.prepare memory) := by
    unfold run
    rw [if_pos inside]
    cases entry <;> rfl
  have same : (entry.begun window).unread = window.unread := by
    cases entry <;> rfl
  obtain ⟨moves, course, left, ahead⟩ := course_exists tables observer entry.state
    (entry.begun window) (observer.prepare memory)
  rw [same] at ahead
  refine ⟨moves, _, course, begins, ?_, ?_, ?_, ?_⟩
  -- The moves are a first part of the unread symbols, and these are counted by the window.
  · rw [← window.countP_unread, ← ahead]
    exact (List.sublist_append_left moves left).countP_le
  · refine Nat.le_trans ?_ window.count_unread_le
    rw [← ahead]
    exact (List.sublist_append_left moves left).count_le _
  · rintro before after rfl
    rw [List.append_assoc, List.cons_append] at ahead
    exact List.append_eq_nil_iff.mp (Window.unread_last ahead.symm) |>.1
  · intro ready returns
    exact course.returns valid returns inside (returns.prepared memory)

/-- A window that claims more bytes than it has. -/
def overlong : Window :=
  { Window.ofBytes [97] with len := 9 }

theorem chainTables_turns :
    Tables.ofParts chainParts none = .ok chainTables ∧
      chainTables.run (Observer.silent : Observer Unit).logged (.resume 3) overlong ((), #[]) =
        .ok { outcome := .error (.invalidState (.resume 3)), window := overlong,
              memory := ((), #[]) } ∧
      ∃ moves result,
        chainTables.Course (Observer.silent : Observer Unit).logged 0 overlong ((), #[]) moves
          (.ok result) ∧
        chainTables.run (Observer.silent : Observer Unit).logged (.resume 0) overlong ((), #[]) =
          .ok result ∧
        moves.countP (· != .endOfInput) ≤ 1 ∧ moves.count .endOfInput ≤ 1 := by
  let observer := (Observer.silent : Observer Unit).logged
  have quiet : observer.Returns chainTables _ :=
    (Observer.silent_follows chainTables).returns.logged
  have three : chainTables.states = 3 := rfl
  have unknown := (run_turns chainTables_accepted observer (.resume 3) overlong ((), #[])).1
    (Nat.le_of_eq three)
  obtain ⟨moves, returned, course, ran, bytes, ends, _, returns⟩ :=
    (run_turns chainTables_accepted observer (.resume 0) overlong ((), #[])).2 (by decide)
  obtain ⟨result, rfl⟩ := returns _ quiet
  exact ⟨chainTables_accepted, unknown, moves, result, course, ran, bytes, ends⟩

end Tables

end TableLexer
