import Mathlib.Order.Bounds.Basic
import TableLexer.Proofs.Program.Terminated
import TableLexer.Proofs.Tables.Uniform

/-! Which tables are accepted. The demands on capture entries are said here without the order in
which validation raises them and without the programs it has decoded before: every address that a
lookup can meet is none, or the start of a program that the code terminates. Validation accepts
exactly the parts of this form, and it asks for as many cells as their programs name. -/

set_option autoImplicit false

namespace TableLexer

variable {captures : CaptureParts} {parts : PlainParts}

/-- An address that a lookup can meet. An accepting state has its program under its base, any
other state has one under its fallback; backtrack points and taken slots have theirs besides. -/
inductive CaptureParts.Addressed (captures : CaptureParts) (parts : PlainParts) : Int16 → Prop
  | accept (state : Nat) : state < parts.base.size → parts.base.getD state 0 < 0 →
      Addressed captures parts (captures.baseCode.getD state 0)
  | fallback (state : Nat) : state < parts.base.size → 0 ≤ parts.base.getD state 0 →
      Addressed captures parts (captures.fallbackCode.getD state 0)
  | backtrack (state : Nat) : state < parts.base.size → 0 ≤ parts.backtrack.getD state 0 →
      Addressed captures parts (captures.backtrackCode.getD state 0)
  | slot (slot : Nat) : slot < captures.checkCode.size →
      owned (captures.checkCode.getD slot 0) parts.base.size →
      Addressed captures parts (captures.transCode.getD slot 0)

structure CaptureParts.WellFormed (captures : CaptureParts) (parts : PlainParts) : Prop where
  baseCode_size : captures.baseCode.size = parts.base.size
  backtrackCode_size : captures.backtrackCode.size = parts.base.size
  fallbackCode_size : captures.fallbackCode.size = parts.base.size
  checkCode_size : captures.checkCode.size = captures.transCode.size
  row_fits : ∀ state < parts.base.size, 0 ≤ parts.base.getD state 0 →
    0 ≤ captures.baseCode.getD state 0 ∧
      (captures.baseCode.getD state 0).toInt.toNat + columns ≤ captures.transCode.size
  terminated : ∀ address, captures.Addressed parts address →
    address ≤ 0 ∨ Program.Terminated captures.code address.toInt.toNat

def CaptureParts.CellNamed (captures : CaptureParts) (parts : PlainParts) (cell : Nat) : Prop :=
  ∃ address program, captures.Addressed parts address ∧ 0 < address ∧
    Program.decode captures.code address.toInt.toNat = .ok program ∧ program.Names cell

/-- One more than the highest cell that the programs name, or zero when they name none. -/
def CaptureParts.CellCount (captures : CaptureParts) (parts : PlainParts) (cells : Nat) : Prop :=
  (cells = 0 ∧ ∀ cell, ¬ captures.CellNamed parts cell) ∨
    ∃ highest, IsGreatest {cell | captures.CellNamed parts cell} highest ∧ cells = highest + 1

namespace CaptureParts

theorem addressed_iff_demanded {address : Int16} :
    captures.Addressed parts address ↔ .program address ∈ captures.demands parts := by
  constructor
  · rintro (⟨state, inside, final⟩ | ⟨state, inside, row⟩ | ⟨state, inside, marked⟩ |
      ⟨slot, inside, taken⟩)
    · exact accept_demanded inside final
    · exact (row_demanded inside row).2
    · exact backtrack_demanded inside marked
    · exact slot_demanded inside taken
  · intro member
    rcases List.mem_append.mp member with ofState | ofSlot
    · obtain ⟨state, inside, raised⟩ := List.mem_flatMap.mp ofState
      rw [List.mem_range] at inside
      rcases stateDemands_cases raised with ⟨final, same⟩ | ⟨row, same | same⟩ | ⟨marked, same⟩
      · cases same
        exact .accept state inside final
      · cases same
      · cases same
        exact .fallback state inside row
      · cases same
        exact .backtrack state inside marked
    · obtain ⟨slot, inside, raised⟩ := List.mem_flatMap.mp ofSlot
      rw [List.mem_range] at inside
      obtain ⟨taken, same⟩ := slotDemands_cases raised
      cases same
      exact .slot slot inside taken

theorem row_of_demanded {state : Nat} {offset : Int16}
    (member : .row state offset ∈ captures.demands parts) :
    state < parts.base.size ∧ 0 ≤ parts.base.getD state 0 ∧
      offset = captures.baseCode.getD state 0 := by
  rcases List.mem_append.mp member with ofState | ofSlot
  · obtain ⟨other, inside, raised⟩ := List.mem_flatMap.mp ofState
    rw [List.mem_range] at inside
    rcases stateDemands_cases raised with ⟨_, same⟩ | ⟨row, same | same⟩ | ⟨_, same⟩
    · cases same
    · cases same
      exact ⟨inside, row, rfl⟩
    · cases same
    · cases same
  · obtain ⟨slot, _, raised⟩ := List.mem_flatMap.mp ofSlot
    cases (slotDemands_cases raised).2

theorem cellCount_of_le_iff {cells : Nat}
    (least : ∀ bound, cells ≤ bound ↔ ∀ cell, captures.CellNamed parts cell → cell < bound) :
    captures.CellCount parts cells := by
  cases cells with
  | zero => exact .inl ⟨rfl, fun cell named => absurd ((least 0).mp (Nat.le_refl 0) cell named)
      (Nat.not_lt_zero cell)⟩
  | succ highest =>
    have below := (least (highest + 1)).mp (Nat.le_refl _)
    have exceeded : ¬ ∀ cell, captures.CellNamed parts cell → cell < highest := fun lower =>
      absurd ((least highest).mpr lower) (Nat.not_succ_le_self highest)
    push Not at exceeded
    obtain ⟨cell, named, reaches⟩ := exceeded
    have same : cell = highest := by
      have bound := below cell named
      omega
    exact .inr ⟨highest, ⟨same ▸ named, fun _ other => Nat.le_of_lt_succ (below _ other)⟩, rfl⟩

end CaptureParts

theorem CaptureTables.Valid.wellFormed {captures : CaptureTables} (valid : captures.Valid parts) :
    captures.parts.WellFormed parts where
  baseCode_size := valid.baseCode_size
  backtrackCode_size := valid.backtrackCode_size
  fallbackCode_size := valid.fallbackCode_size
  checkCode_size := valid.checkCode_size
  row_fits _ inside row := valid.met _ (CaptureParts.row_demanded inside row).1
  terminated address named := by
    rcases Int16.le_or_lt address 0 with none | positive
    · exact .inl none
    · obtain ⟨program, known⟩ :=
        valid.met _ (CaptureParts.addressed_iff_demanded.mp named) positive
      exact .inr (Program.decode_succeeds_iff.mp ⟨program, valid.decoded.decode_eq _ _ known⟩)

theorem CaptureParts.WellFormed.accepted (formed : captures.WellFormed parts) :
    ∃ tables, CaptureTables.ofParts parts captures = .ok tables := by
  refine CaptureTables.ofParts_succeeds formed.baseCode_size formed.backtrackCode_size
    formed.fallbackCode_size formed.checkCode_size ?_ ?_
  · intro state offset member
    obtain ⟨inside, row, rfl⟩ := row_of_demanded member
    exact formed.row_fits state inside row
  · intro address member positive
    rcases formed.terminated address (addressed_iff_demanded.mpr member) with none | terminated
    · exact absurd positive (Int16.not_lt.mpr none)
    · exact Program.decode_succeeds_iff.mpr terminated

theorem Tables.cells_le_iff {tables : Tables}
    (made : Tables.ofParts parts (some captures) = .ok tables) {compiled : CaptureTables}
    (carried : tables.captures = some compiled) (bound : Nat) :
    compiled.cells ≤ bound ↔ ∀ cell, captures.CellNamed parts cell → cell < bound := by
  obtain ⟨valid, rfl, demanded⟩ := Tables.captures_of_ofParts made carried
  rw [valid.cells_eq, cellsNeeded_le_iff]
  constructor
  · rintro most cell ⟨address, program, named, positive, decoded, names⟩
    obtain ⟨known, present⟩ :=
      valid.met _ (CaptureParts.addressed_iff_demanded.mp named) positive
    have same : known = program :=
      Except.ok.inj ((valid.decoded.decode_eq _ _ present).symm.trans decoded)
    subst same
    rw [← Array.getElem?_toList] at present
    exact Program.cellsNeeded_le_iff_names.mp (most _ (List.mem_of_getElem? present)) cell names
  · intro below entry member
    cases entry with
    | none => exact Nat.zero_le bound
    | some program =>
      obtain ⟨offset, place, present⟩ := List.mem_iff_getElem.mp member
      have known : compiled.programs[offset]? = some (some program) := by
        rw [← Array.getElem?_toList, List.getElem?_eq_getElem place, present]
      obtain ⟨address, demand, positive, rfl⟩ := demanded offset program known
      refine Program.cellsNeeded_le_iff_names.mpr fun cell names => below cell ?_
      exact ⟨address, program, CaptureParts.addressed_iff_demanded.mpr demand, positive,
        valid.decoded.decode_eq _ _ known, names⟩

/-- Parts are accepted exactly when they are well formed. Accepted tables hold these parts, and
ask for one cell more than the highest that an addressed program names. -/
theorem Tables.accepted_iff_wellFormed (parts : PlainParts) (capture : Option CaptureParts) :
    ((∃ tables, Tables.ofParts parts capture = .ok tables) ↔
      parts.Valid ∧ ∀ captures, capture = some captures → captures.WellFormed parts) ∧
    ∀ tables, Tables.ofParts parts capture = .ok tables →
      tables.parts = parts ∧ tables.captures.map CaptureTables.parts = capture ∧
        ∀ captures, tables.captures = some captures →
          captures.parts.CellCount parts captures.cells := by
  refine ⟨⟨?_, ?_⟩, ?_⟩
  · rintro ⟨tables, made⟩
    obtain ⟨rfl, rfl, valid⟩ := Tables.ofParts_eq_ok made
    refine ⟨valid.plain, ?_⟩
    intro captures given
    obtain ⟨compiled, carried, rfl⟩ := Option.map_eq_some_iff.mp given
    exact (valid.captures compiled carried).wellFormed
  · rintro ⟨valid, formed⟩
    cases capture with
    | none => exact ⟨_, Tables.ofParts_plain valid⟩
    | some captures =>
      obtain ⟨compiled, made⟩ := (formed captures rfl).accepted
      exact ⟨_, Tables.ofParts_captured valid made⟩
  · intro tables made
    obtain ⟨kept, given, _⟩ := Tables.ofParts_eq_ok made
    refine ⟨kept, given, ?_⟩
    intro compiled carried
    have asked : capture = some compiled.parts := by rw [← given, carried]; rfl
    subst asked
    exact CaptureParts.cellCount_of_le_iff (Tables.cells_le_iff made carried)

theorem Tables.rerunParts_wellFormed :
    rerunCapture.WellFormed rerunParts ∧ rerunCapture.CellCount rerunParts 2 := by
  obtain ⟨accepted, kept⟩ :=
    Tables.accepted_iff_wellFormed rerunParts (some rerunCapture)
  exact ⟨(accepted.mp ⟨rerunTables, rerunTables_accepted⟩).2 _ rfl,
    (kept rerunTables rerunTables_accepted).2.2 rerunCaptures rfl⟩

end TableLexer
