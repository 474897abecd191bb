import TableLexer.Proofs.Tables.Views
import TableLexer.Recognition.Observer

/-! Observers that never fail. A reaction is an observer's effect on its memory as plain functions;
an observer of valid tables follows its reaction as long as its memory is ready. Silence always
does, and the capture programs do once there are cells enough. -/

set_option autoImplicit false

namespace TableLexer

structure Reaction (μ : Type) where
  tag : TagPoint → Nat → μ → μ
  move : Nat → Symbol → Nat → μ → μ

def Reaction.silent {μ : Type} : Reaction μ where
  tag _ _ memory := memory
  move _ _ _ memory := memory

/-- On ready memories the observer does what the reaction says, at every event that an attempt
over these tables can report. -/
structure Observer.Follows {μ : Type} (observer : Observer μ) (tables : Tables)
    (reaction : Reaction μ) (ready : μ → Prop) : Prop where
  prepared : ∀ memory, ready (observer.prepare memory)
  unchanged : ∀ memory, ready memory → observer.prepare memory = memory
  tag : ∀ point state memory, state < tables.states → ready memory →
    observer.tag point state memory = .ok (reaction.tag point state memory) ∧
      ready (reaction.tag point state memory)
  move : ∀ state symbol position memory, state < tables.states → tables.final? state = none →
    ready memory →
      observer.move state symbol.column position memory =
        .ok (reaction.move state symbol position memory) ∧
      ready (reaction.move state symbol position memory)

theorem Observer.silent_follows {μ : Type} (tables : Tables) :
    (Observer.silent : Observer μ).Follows tables .silent fun _ => True where
  prepared _ := trivial
  unchanged _ _ := rfl
  tag _ _ _ _ _ := ⟨rfl, trivial⟩
  move _ _ _ _ _ _ _ := ⟨rfl, trivial⟩

def applyProgram (program : Option Program) (mark : Cell) (cells : Array Cell) : Array Cell :=
  program.elim cells fun program => program.apply mark cells

@[simp] theorem size_applyProgram (program : Option Program) (mark : Cell) (cells : Array Cell) :
    (applyProgram program mark cells).size = cells.size := by
  cases program with
  | none => rfl
  | some program => exact program.size_apply mark cells

theorem mem_applyProgram {program : Option Program} {mark : Cell} {cells : Array Cell}
    {position : Nat} (found : some position ∈ applyProgram program mark cells) :
    some position ∈ cells ∨ mark = some position := by
  cases program with
  | none => exact .inl found
  | some program => exact Program.mem_apply found

theorem runProgram_eq {program : Option Program} {mark : Cell} {cells : Array Cell}
    (enough : ∀ found, program = some found → found.cellsNeeded ≤ cells.size) :
    runProgram program mark cells = .ok (applyProgram program mark cells) := by
  cases program with
  | none => rfl
  | some program => exact Program.run_eq_apply (enough program rfl)

theorem applyProgram_shift (program : Option Program) (distance : Nat) (mark : Cell)
    (cells : Array Cell) :
    applyProgram program (mark.map (· + distance)) (shiftCells distance cells) =
      shiftCells distance (applyProgram program mark cells) := by
  cases program with
  | none => rfl
  | some program => exact program.apply_shift distance mark cells

/-- Tag programs unset the cells they mark and record programs write the cursor to them. -/
def CaptureTables.reaction (captures : CaptureTables) : Reaction (Array Cell) where
  tag point state cells := applyProgram (captures.tag? point state) none cells
  move state symbol position cells :=
    applyProgram (captures.record? state symbol) (some position) cells

theorem growCells_of_le {count : Nat} {cells : Array Cell} (enough : count ≤ cells.size) :
    growCells count cells = cells := by
  rw [growCells, Nat.sub_eq_zero_of_le enough]
  simp

theorem CaptureTables.observer_follows {tables : Tables} (valid : tables.Valid)
    {captures : CaptureTables} (carried : tables.captures = some captures) :
    captures.observer.Follows tables captures.reaction fun cells =>
      captures.cells ≤ cells.size where
  prepared cells := by
    change captures.cells ≤ (growCells captures.cells cells).size
    rw [growCells_size]
    omega
  unchanged cells enough := growCells_of_le enough
  tag point state cells inside enough := by
    have served := valid.captures captures carried
    have ran : runProgram (captures.tag? point state) none cells =
        .ok (applyProgram (captures.tag? point state) none cells) :=
      runProgram_eq fun _ found => Nat.le_trans (served.tag?_enough found) enough
    constructor
    · change (captures.tagProgram point state >>= fun program => runProgram program none cells) = _
      rw [served.tagProgram_eq point inside]
      exact ran
    · simpa [CaptureTables.reaction] using enough
  move state symbol position cells inside unfinished enough := by
    have served := valid.captures captures carried
    have ran : runProgram (captures.record? state symbol) (some position) cells =
        .ok (applyProgram (captures.record? state symbol) (some position) cells) :=
      runProgram_eq fun _ found => Nat.le_trans (served.record?_enough found) enough
    -- The observer looks up a column, and every symbol has one.
    have known : ¬ endColumn < symbol.column := by
      have within := symbol.column_lt
      simp only [columns] at within
      simp only [endColumn]
      omega
    constructor
    · simp only [CaptureTables.observer, if_neg known, ok_bind,
        served.recordProgram_eq inside (Tables.Valid.row_of_open inside unfinished) symbol]
      exact ran
    · simpa [CaptureTables.reaction] using enough

end TableLexer
