import TableLexer.Proofs.Tables.Uniform

/-! Tables seen as an automaton. A state is final, with an action, or it may be a backtrack point
and has successors; it may carry tag and record programs. Valid tables answer every one of these
questions, and a successor is again a state. -/

set_option autoImplicit false

namespace TableLexer

theorem fetch_getD {α : Type} {items : Array α} {i : Nat} (inside : i < items.size) (other : α) :
    fetch items i = .ok (items.getD i other) := by
  simp [fetch, inside, Array.getD]

theorem lookupSlot_eq {check entries fallbacks : Array Int16} {slot state : Nat}
    (taken : slot < check.size) (sized : check.size = entries.size)
    (inside : state < fallbacks.size) :
    lookupSlot check entries fallbacks slot state =
      .ok (if check.getD slot 0 = Int16.ofNat state then entries.getD slot 0
        else fallbacks.getD state 0) := by
  unfold lookupSlot
  rw [fetch_getD taken 0, ok_bind]
  by_cases owner : check.getD slot 0 = Int16.ofNat state
  · rw [if_pos owner, if_pos owner]
    exact fetch_getD (sized ▸ taken) 0
  · rw [if_neg owner, if_neg owner]
    exact fetch_getD inside 0

namespace Tables

def final? (tables : Tables) (state : Nat) : Option ActionId := do
  finalAction? (← (tables.base state).toOption)

def bookmark? (tables : Tables) (state : Nat) : Option ActionId := do
  entryValue? (← (tables.backtrack state).toOption)

/-- The state that a symbol leads to. -/
def successor? (tables : Tables) (state : Nat) (symbol : Symbol) : Option Nat := do
  let base ← (tables.base state).toOption
  entryValue? (← (tables.next state base symbol.column).toOption)

variable {tables : Tables} {state : Nat}

namespace Valid

theorem states_pos (valid : tables.Valid) : 0 < tables.states := valid.plain.states_pos

theorem states_le (valid : tables.Valid) : tables.states ≤ maxStates := valid.plain.states_le

theorem base_eq (inside : state < tables.states) :
    tables.base state = .ok (tables.parts.base.getD state 0) :=
  fetch_getD inside 0

theorem backtrack_eq (valid : tables.Valid) (inside : state < tables.states) :
    tables.backtrack state = .ok (tables.parts.backtrack.getD state 0) :=
  fetch_getD (valid.plain.backtrack_size ▸ inside) 0

theorem next_known (valid : tables.Valid) (inside : state < tables.states)
    (row : 0 ≤ tables.parts.base.getD state 0) {column : Nat} (within : column < columns) :
    ∃ target, tables.next state (tables.parts.base.getD state 0) column = .ok target ∧
      ∀ value, entryValue? target = some value → value < tables.states := by
  have fits := valid.plain.row_fits state inside row
  have sized := valid.plain.check_size
  have slot : (tables.parts.base.getD state 0).toInt.toNat + column < tables.parts.check.size := by
    omega
  refine ⟨_, lookupSlot_eq slot sized (valid.plain.fallback_size ▸ inside), ?_⟩
  intro value read
  by_cases owner : tables.parts.check.getD
      ((tables.parts.base.getD state 0).toInt.toNat + column) 0 = Int16.ofNat state
  · rw [if_pos owner] at read
    exact valid.plain.slot_known _ slot (owner ▸ owned_ofNat inside valid.states_le) value read
  · rw [if_neg owner] at read
    exact valid.plain.fallback_known state inside value read

theorem final?_eq (inside : state < tables.states) :
    tables.final? state = finalAction? (tables.parts.base.getD state 0) := by
  simp only [final?, base_eq inside]
  rfl

theorem bookmark?_eq (valid : tables.Valid) (inside : state < tables.states) :
    tables.bookmark? state = entryValue? (tables.parts.backtrack.getD state 0) := by
  simp only [bookmark?, backtrack_eq valid inside]
  rfl

theorem bookmark?_isSome_iff (valid : tables.Valid) (inside : state < tables.states) :
    (tables.bookmark? state).isSome ↔ 0 ≤ tables.parts.backtrack.getD state 0 := by
  rw [valid.bookmark?_eq inside, entryValue?_isSome_iff]

theorem row_of_open (inside : state < tables.states) (unfinished : tables.final? state = none) :
    0 ≤ tables.parts.base.getD state 0 := by
  rw [final?_eq inside, finalAction?_eq_none_iff] at unfinished
  exact unfinished

theorem next_eq (valid : tables.Valid) (inside : state < tables.states)
    (unfinished : tables.final? state = none) (symbol : Symbol) :
    ∃ target, tables.next state (tables.parts.base.getD state 0) symbol.column = .ok target ∧
      entryValue? target = tables.successor? state symbol := by
  obtain ⟨target, found, _⟩ :=
    valid.next_known inside (row_of_open inside unfinished) symbol.column_lt
  refine ⟨target, found, ?_⟩
  have step : tables.successor? state symbol = entryValue? target := by
    simp only [successor?, base_eq inside]
    change (tables.next state _ symbol.column).toOption.bind entryValue? = _
    rw [found]
    rfl
  exact step.symm

theorem successor?_lt (valid : tables.Valid) (inside : state < tables.states)
    (unfinished : tables.final? state = none) {symbol : Symbol} {target : Nat}
    (leads : tables.successor? state symbol = some target) : target < tables.states := by
  obtain ⟨entry, found, known⟩ :=
    valid.next_known inside (row_of_open inside unfinished) symbol.column_lt
  obtain ⟨entry', found', value⟩ := valid.next_eq inside unfinished symbol
  rw [found] at found'
  cases found'
  exact known target (value.trans leads)

end Valid

end Tables

namespace CaptureTables

/-- The tag program of a state, when there is one to run. -/
def tag? (captures : CaptureTables) (point : TagPoint) (state : Nat) : Option Program :=
  (captures.tagProgram point state).toOption.join

def record? (captures : CaptureTables) (state : Nat) (symbol : Symbol) : Option Program :=
  (captures.recordProgram state symbol.column).toOption.join

variable {captures : CaptureTables} {parts : PlainParts} {state : Nat}

theorem program?_enough (valid : captures.Valid parts) {address : Int16} {program : Program}
    (found : captures.program? address = some program) :
    program.cellsNeeded ≤ captures.cells := by
  unfold program? at found
  split at found
  · rw [Option.join_eq_some_iff] at found
    rw [valid.cells_eq]
    exact le_cellsNeeded found
  · cases found

namespace Valid

theorem tagAddress_accept (valid : captures.Valid parts) (inside : state < parts.base.size) :
    captures.tagAddress .accept state = .ok (captures.parts.baseCode.getD state 0) :=
  fetch_getD (valid.baseCode_size ▸ inside) 0

theorem tagAddress_backtrack (valid : captures.Valid parts) (inside : state < parts.base.size) :
    captures.tagAddress .backtrack state = .ok (captures.parts.backtrackCode.getD state 0) :=
  fetch_getD (valid.backtrackCode_size ▸ inside) 0

theorem tagProgram_eq (valid : captures.Valid parts) (point : TagPoint)
    (inside : state < parts.base.size) :
    captures.tagProgram point state = .ok (captures.tag? point state) := by
  have address : ∃ address, captures.tagAddress point state = .ok address := by
    cases point with
    | accept => exact ⟨_, valid.tagAddress_accept inside⟩
    | backtrack => exact ⟨_, valid.tagAddress_backtrack inside⟩
  obtain ⟨address, found⟩ := address
  have looked : captures.tagProgram point state = .ok (captures.program? address) := by
    rw [tagProgram, found]
    rfl
  rw [tag?, looked]
  rfl

theorem recordAddress_eq (valid : captures.Valid parts) (inside : state < parts.base.size)
    (row : 0 ≤ parts.base.getD state 0) {column : Nat} (within : column < columns) :
    ∃ slot < captures.parts.checkCode.size, captures.recordAddress state column =
      .ok (if captures.parts.checkCode.getD slot 0 = Int16.ofNat state
        then captures.parts.transCode.getD slot 0
        else captures.parts.fallbackCode.getD state 0) := by
  obtain ⟨nonneg, fits⟩ := valid.met _ (CaptureParts.row_demanded inside row).1
  have sized := valid.checkCode_size
  have slot : (captures.parts.baseCode.getD state 0).toInt.toNat + column <
      captures.parts.checkCode.size := by
    omega
  refine ⟨_, slot, ?_⟩
  rw [recordAddress, fetch_getD (valid.baseCode_size ▸ inside) 0, ok_bind,
    if_neg (Int16.not_lt.mpr nonneg),
    ← lookupSlot_eq slot sized (valid.fallbackCode_size ▸ inside)]

theorem recordProgram_eq (valid : captures.Valid parts) (inside : state < parts.base.size)
    (row : 0 ≤ parts.base.getD state 0) (symbol : Symbol) :
    captures.recordProgram state symbol.column = .ok (captures.record? state symbol) := by
  obtain ⟨slot, _, address⟩ := valid.recordAddress_eq inside row symbol.column_lt
  rw [record?, recordProgram, address]
  rfl

theorem recordAddress_demanded (valid : captures.Valid parts) (few : parts.base.size ≤ maxStates)
    (inside : state < parts.base.size) (row : 0 ≤ parts.base.getD state 0) {column : Nat}
    (within : column < columns) : ∃ address, captures.recordAddress state column = .ok address ∧
      .program address ∈ captures.parts.demands parts := by
  obtain ⟨slot, known, address⟩ := valid.recordAddress_eq inside row within
  refine ⟨_, address, ?_⟩
  by_cases owner : captures.parts.checkCode.getD slot 0 = Int16.ofNat state
  · rw [if_pos owner]
    refine CaptureParts.slot_demanded known ?_
    exact owner ▸ owned_ofNat inside few
  · rw [if_neg owner]
    exact (CaptureParts.row_demanded inside row).2

theorem tag?_enough (valid : captures.Valid parts) {point : TagPoint} {program : Program}
    (found : captures.tag? point state = some program) :
    program.cellsNeeded ≤ captures.cells := by
  unfold tag? tagProgram at found
  cases address : captures.tagAddress point state with
  | error fault =>
    rw [address] at found
    cases found
  | ok address' =>
    rw [address] at found
    exact program?_enough valid found

theorem record?_enough (valid : captures.Valid parts) {symbol : Symbol} {program : Program}
    (found : captures.record? state symbol = some program) :
    program.cellsNeeded ≤ captures.cells := by
  unfold record? recordProgram at found
  cases address : captures.recordAddress state symbol.column with
  | error fault =>
    rw [address] at found
    cases found
  | ok address' =>
    rw [address] at found
    exact program?_enough valid found

end Valid

end CaptureTables

end TableLexer
