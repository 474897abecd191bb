import TableLexer.Proofs.Program.Execution
import TableLexer.Proofs.Recognition.Answer

/-! Capture programs run where they lie. Recognition names a program by its address in the code, and
loading decodes every program that recognition can name. So it makes no difference whether a program
is looked up among the decoded ones or executed from the code, and no address that is asked for is
without a program. -/

set_option autoImplicit false

namespace TableLexer

variable {μ : Type}

/-- Observers that react alike to every event that an attempt over these tables can raise: the
accept tag of a state that accepts, the backtrack tag of a backtrack point, and moves out of open
states. -/
structure Observer.AgreeOn (tables : Tables) (observer observer' : Observer μ) : Prop where
  prepare : observer.prepare = observer'.prepare
  accept : ∀ {state action}, state < tables.states → tables.final? state = some action →
    observer.tag .accept state = observer'.tag .accept state
  backtrack : ∀ {state}, state < tables.states → (tables.bookmark? state).isSome →
    observer.tag .backtrack state = observer'.tag .backtrack state
  move : ∀ {state} {symbol : Symbol}, state < tables.states → tables.final? state = none →
    observer.move state symbol.column = observer'.move state symbol.column

theorem Observer.AgreeOn.tag_point {tables : Tables} {observer observer' : Observer μ}
    (agree : AgreeOn tables observer observer') {state : Nat} (inside : state < tables.states)
    (memory : μ) :
    (if (tables.bookmark? state).isSome then observer.tag .backtrack state memory
        else .ok memory) =
      if (tables.bookmark? state).isSome then observer'.tag .backtrack state memory
        else .ok memory := by
  split
  · rename_i point
    rw [agree.backtrack inside point]
  · rfl

namespace Tables

variable {tables : Tables} {observer observer' : Observer μ}

theorem enter_congr (valid : tables.Valid) (agree : Observer.AgreeOn tables observer observer')
    (pending : Nat) {state : Nat} (inside : state < tables.states) (window : Window)
    (memory : μ) :
    tables.enter observer pending state window memory =
      tables.enter observer' pending state window memory := by
  induction pending generalizing state window memory with
  | zero =>
    cases final : tables.final? state with
    | some action => rw [enter_final final, enter_final final, agree.accept inside final]
    | none =>
      rw [enter_unfinished valid inside final, enter_unfinished valid inside final,
        agree.tag_point inside]
  | succ pending ih =>
    cases final : tables.final? state with
    | some action => rw [enter_final final, enter_final final, agree.accept inside final]
    | none =>
      rw [enter_unfinished valid inside final, enter_unfinished valid inside final,
        agree.tag_point inside]
      congr 1
      funext memory
      let marked := window.withTrail (window.trail.note (tables.bookmark? state))
      cases leads : tables.successor? state marked.next with
      | none => simp only [marked, leads]
      | some target =>
        have known := valid.successor?_lt inside final leads
        simp only [marked, leads, agree.move inside final]
        congr 1
        funext memory
        exact ih known _ memory

theorem run_congr (valid : tables.Valid) (agree : Observer.AgreeOn tables observer observer')
    (entry : Entry) (window : Window) (memory : μ) :
    tables.run observer entry window memory = tables.run observer' entry window memory := by
  unfold run
  split
  · rename_i inside
    rw [agree.prepare]
    exact enter_congr valid agree _ inside _ _
  · rfl

end Tables

namespace CaptureParts

def tagAddress (captures : CaptureParts) : TagPoint → Nat → Except Fault Int16
  | .accept, state => fetch captures.baseCode state
  | .backtrack, state => fetch captures.backtrackCode state

def transitionAddress (captures : CaptureParts) (state column : Nat) : Except Fault Int16 := do
  let base ← fetch captures.baseCode state
  if base < 0 then throw .outOfRange
  let slot := base.toInt.toNat + column
  if (← fetch captures.checkCode slot).toInt = state then fetch captures.transCode slot
  else fetch captures.fallbackCode state

/-- Resolves the addresses that the entries hold. Nothing is run at those up to zero, and `run`
says what it is to run any other. -/
def observer (captures : CaptureParts) (count : Nat)
    (run : Nat → Cell → Array Cell → Except Fault (Array Cell)) : Observer (Array Cell) where
  prepare := growCells count
  tag point state cells := do
    let address ← captures.tagAddress point state
    if address ≤ 0 then return cells
    run address.toInt.toNat none cells
  move state column position cells := do
    let address ← captures.transitionAddress state column
    if address ≤ 0 then return cells
    run address.toInt.toNat (some position) cells

def inPlace (captures : CaptureParts) (count : Nat) : Observer (Array Cell) :=
  captures.observer count (executeAt captures.code)

end CaptureParts

namespace CaptureTables

def runDecoded (captures : CaptureTables) (place : Nat) (mark : Cell) (cells : Array Cell) :
    Except Fault (Array Cell) :=
  match captures.programs[place]?.join with
  | some program => program.run mark cells
  | none => .error .outOfRange

variable {captures : CaptureTables} {parts : PlainParts} {state : Nat}

theorem runDecoded_known {place : Nat} {program : Program}
    (known : captures.programs[place]? = some (some program)) (mark : Cell) (cells : Array Cell) :
    captures.runDecoded place mark cells = program.run mark cells := by
  rw [runDecoded, known]
  rfl

theorem Valid.executeAt_known (valid : captures.Valid parts) {place : Nat} {program : Program}
    (known : captures.programs[place]? = some (some program)) (mark : Cell) (cells : Array Cell) :
    executeAt captures.parts.code place mark cells = program.run mark cells :=
  Program.executeAt_eq_run (valid.decoded.decode_eq place program known) mark cells

theorem Valid.runProgram_demanded (valid : captures.Valid parts)
    {run : Nat → Cell → Array Cell → Except Fault (Array Cell)}
    (serves : ∀ (place : Nat) program, captures.programs[place]? = some (some program) →
      ∀ mark cells, run place mark cells = program.run mark cells)
    {address : Int16} (demanded : .program address ∈ captures.parts.demands parts) (mark : Cell)
    (cells : Array Cell) :
    runProgram (captures.program? address) mark cells =
      if address ≤ 0 then .ok cells else run address.toInt.toNat mark cells := by
  by_cases positive : 0 < address
  · obtain ⟨program, known⟩ := valid.met _ demanded positive
    have found : captures.program? address = some program := by
      rw [program?, if_pos positive, known]
      rfl
    rw [found, if_neg (Int16.not_le.mpr positive), serves _ _ known]
    rfl
  · rw [program?, if_neg positive, if_pos (Int16.not_lt.mp positive)]
    rfl

theorem Valid.transitionAddress_eq (valid : captures.Valid parts)
    (few : parts.base.size ≤ maxStates) (inside : state < parts.base.size)
    (row : 0 ≤ parts.base.getD state 0) {column : Nat} (within : column < columns) :
    captures.parts.transitionAddress state column = captures.recordAddress state column := by
  obtain ⟨nonneg, fits⟩ := valid.met _ (CaptureParts.row_demanded inside row).1
  have sized := valid.checkCode_size
  have slot : (captures.parts.baseCode.getD state 0).toInt.toNat + column <
      captures.parts.checkCode.size := by
    omega
  have owner : ∀ entry : Int16, entry.toInt = state ↔ entry = Int16.ofNat state := by
    intro entry
    rw [← Int16.toInt_inj, toInt_ofNat_small (Nat.lt_of_lt_of_le inside few)]
  simp only [CaptureParts.transitionAddress, recordAddress, lookupSlot,
    fetch_getD (valid.baseCode_size ▸ inside) 0, fetch_getD slot 0, ok_bind,
    if_neg (Int16.not_lt.mpr nonneg), owner]

section

variable {run : Nat → Cell → Array Cell → Except Fault (Array Cell)}
  (serves : ∀ (place : Nat) program, captures.programs[place]? = some (some program) →
    ∀ mark cells, run place mark cells = program.run mark cells)

include serves

theorem Valid.tag_demanded (valid : captures.Valid parts) {point : TagPoint} {address : Int16}
    (found : captures.parts.tagAddress point state = .ok address)
    (demanded : .program address ∈ captures.parts.demands parts) :
    captures.observer.tag point state =
      (captures.parts.observer captures.cells run).tag point state := by
  funext cells
  have found' : captures.tagAddress point state = .ok address := by
    cases point <;> exact found
  simp only [observer, CaptureParts.observer, tagProgram, found, found', ok_bind, pure_eq_ok]
  exact valid.runProgram_demanded serves demanded none cells

theorem observer_agree {tables : Tables} (valid : tables.Valid)
    (carried : tables.captures = some captures) :
    Observer.AgreeOn tables captures.observer (captures.parts.observer captures.cells run) where
  prepare := rfl
  accept {state action} inside final := by
    have served := valid.captures captures carried
    have accepts : tables.parts.base.getD state 0 < 0 := by
      rw [Tables.Valid.final?_eq inside, finalAction?] at final
      split at final
      · assumption
      · cases final
    exact served.tag_demanded serves (served.tagAddress_accept inside)
      (CaptureParts.accept_demanded inside accepts)
  backtrack {state} inside point := by
    have served := valid.captures captures carried
    exact served.tag_demanded serves (served.tagAddress_backtrack inside)
      (CaptureParts.backtrack_demanded inside ((valid.bookmark?_isSome_iff inside).mp point))
  move {state symbol} inside unfinished := by
    have served := valid.captures captures carried
    have row := Tables.Valid.row_of_open inside unfinished
    obtain ⟨address, found, demanded⟩ :=
      served.recordAddress_demanded valid.states_le inside row symbol.column_lt
    have known : ¬ endColumn < symbol.column := Nat.not_lt.mpr (Nat.le_of_lt_succ symbol.column_lt)
    funext position cells
    simp only [observer, CaptureParts.observer, recordProgram, if_neg known, found,
      served.transitionAddress_eq valid.states_le inside row symbol.column_lt, ok_bind, pure_eq_ok]
    exact served.runProgram_demanded serves demanded (some position) cells

end

end CaptureTables

namespace Tables

/-- Decoding programs once, when the tables are loaded, cannot be told from executing them where
they lie in the code. Every call ends, with the same result, when the observer executes the code
that the entries name, and when it insists that every address above zero has a decoded program. -/
theorem runCapturing_in_place {parts : PlainParts} {capture : CaptureParts} {tables : Tables}
    (accepted : Tables.ofParts parts (some capture) = .ok tables) :
    ∃ captures, tables.captures = some captures ∧
      ∀ (entry : Entry) (window : Window) (cells : Array Cell), ∃ result,
        tables.runCapturing entry window cells = .ok result ∧
        tables.run (capture.inPlace captures.cells) entry window cells = .ok result ∧
        tables.run (capture.observer captures.cells captures.runDecoded) entry window cells =
          .ok result := by
  obtain ⟨_, kept, valid⟩ := ofParts_eq_ok accepted
  obtain ⟨captures, carried, rfl⟩ := Option.map_eq_some_iff.mp kept
  have served := valid.captures captures carried
  have executed := CaptureTables.observer_agree (fun _ _ => served.executeAt_known) valid carried
  have looked := CaptureTables.observer_agree (fun _ _ => captures.runDecoded_known) valid carried
  refine ⟨captures, carried, ?_⟩
  intro entry window cells
  obtain ⟨result, ran, _⟩ := runCapturing_answers valid carried entry window cells
  have observed : tables.run captures.observer entry window cells = .ok result := by
    rw [← ran, runCapturing, carried]
  exact ⟨result, ran, (run_congr valid executed entry window cells).symm.trans observed,
    (run_congr valid looked entry window cells).symm.trans observed⟩

theorem rerunTables_in_place :
    Tables.ofParts rerunParts (some rerunCapture) = .ok rerunTables ∧
    ∃ captures, rerunTables.captures = some captures ∧ ∃ result,
      rerunTables.runCapturing (.fresh 0) (.ofBytes [97, 98]) #[] = .ok result ∧
      rerunTables.run (rerunCapture.inPlace captures.cells) (.fresh 0) (.ofBytes [97, 98]) #[] =
        .ok result ∧
      result.memory = #[none, some 1] := by
  obtain ⟨captures, carried, same⟩ := runCapturing_in_place rerunTables_accepted
  obtain ⟨result, ran, executed, _⟩ := same (.fresh 0) (.ofBytes [97, 98]) #[]
  have recorded : (rerunTables.runCapturing (.fresh 0) (.ofBytes [97, 98])
      #[]).toOption.map Result.memory = some #[none, some 1] := by decide +kernel
  rw [ran] at recorded
  exact ⟨rerunTables_accepted, captures, carried, result, ran, executed,
    Option.some.inj recorded⟩

end Tables

end TableLexer
