import TableLexer.Program.Basic
import TableLexer.Proofs.Fallible

/-! The effect of a program on cells. Where there are cells enough, running a program never fails
and its result is a function of the cells and of the value that marks write. A program that reads no
cell it writes does the same however often it is run. -/

set_option autoImplicit false

namespace TableLexer

theorem foldl_max_le_iff {α : Type} {measure : α → Nat} {items : List α} {most bound : Nat} :
    items.foldl (fun most item => max most (measure item)) most ≤ bound ↔
      most ≤ bound ∧ ∀ item ∈ items, measure item ≤ bound := by
  induction items generalizing most with
  | nil => simp
  | cons item rest ih =>
    simp only [List.foldl_cons, ih, List.mem_cons, forall_eq_or_imp, Nat.max_le, and_assoc]

theorem Program.cellsNeeded_le_iff {program : Program} {bound : Nat} :
    program.cellsNeeded ≤ bound ↔ ∀ instr ∈ program, instr.reach ≤ bound := by
  simp [cellsNeeded, foldl_max_le_iff]

/-- The effect of an instruction; cells that are not there are left out. -/
def Instr.apply (mark : Cell) (cells : Array Cell) : Instr CellId → Array Cell
  | .copy dest src => cells.setIfInBounds dest.val (cells.getD src.val none)
  | .mark dest => cells.setIfInBounds dest.val mark

def Program.apply (program : Program) (mark : Cell) (cells : Array Cell) : Array Cell :=
  program.foldl (Instr.apply mark) cells

theorem Instr.size_apply (instr : Instr CellId) (mark : Cell) (cells : Array Cell) :
    (instr.apply mark cells).size = cells.size := by
  cases instr <;> simp [apply]

@[simp] theorem Program.size_apply (program : Program) (mark : Cell) (cells : Array Cell) :
    (program.apply mark cells).size = cells.size := by
  induction program generalizing cells with
  | nil => rfl
  | cons instr rest ih => exact (ih (instr.apply mark cells)).trans (instr.size_apply mark cells)

theorem Instr.mem_apply {instr : Instr CellId} {mark : Cell} {cells : Array Cell} {position : Nat}
    (found : some position ∈ instr.apply mark cells) :
    some position ∈ cells ∨ mark = some position := by
  cases instr with
  | copy dest src =>
    rcases Array.mem_or_eq_of_mem_setIfInBounds found with kept | copied
    · exact .inl kept
    · rw [Array.getD_eq_getD_getElem?] at copied
      cases read : cells[src.val]? with
      | none =>
        rw [read] at copied
        cases copied
      | some cell =>
        rw [read, Option.getD_some] at copied
        exact .inl (copied ▸ Array.mem_of_getElem? read)
  | mark dest =>
    rcases Array.mem_or_eq_of_mem_setIfInBounds found with kept | marked
    · exact .inl kept
    · exact .inr marked.symm

/-- A program makes up no positions: each one was in a cell before or is what marks write. -/
theorem Program.mem_apply {program : Program} {mark : Cell} {cells : Array Cell} {position : Nat}
    (found : some position ∈ program.apply mark cells) :
    some position ∈ cells ∨ mark = some position := by
  induction program generalizing cells with
  | nil => exact .inl found
  | cons instr rest ih =>
    rcases ih found with earlier | marked
    · exact Instr.mem_apply earlier
    · exact .inr marked

theorem Instr.run_eq_apply {instr : Instr CellId} {mark : Cell} {cells : Array Cell}
    (enough : instr.reach ≤ cells.size) : instr.run mark cells = .ok (instr.apply mark cells) := by
  cases instr with
  | copy dest src =>
    simp only [reach] at enough
    have readable : src.val < cells.size := by omega
    have writable : dest.val < cells.size := by omega
    simp [run, apply, fetch, store, readable, writable, Array.setIfInBounds]
  | mark dest =>
    have writable : dest.val < cells.size := enough
    simp [run, apply, store, writable, Array.setIfInBounds]

theorem Program.run_eq_apply {program : Program} {mark : Cell} {cells : Array Cell}
    (enough : program.cellsNeeded ≤ cells.size) :
    program.run mark cells = .ok (program.apply mark cells) := by
  rw [cellsNeeded_le_iff] at enough
  induction program generalizing cells with
  | nil => rfl
  | cons instr rest ih =>
    have first : instr.run mark cells = .ok (instr.apply mark cells) :=
      Instr.run_eq_apply (enough instr List.mem_cons_self)
    have others : ∀ other ∈ rest, other.reach ≤ (instr.apply mark cells).size := by
      intro other member
      rw [instr.size_apply]
      exact enough other (List.mem_cons_of_mem instr member)
    calc Program.run (instr :: rest) mark cells
        = (instr.run mark cells >>= Program.run rest mark) := rfl
      _ = Program.run rest mark (instr.apply mark cells) := by rw [first]; rfl
      _ = .ok (Program.apply (instr :: rest) mark cells) := ih others

theorem Program.cellsNeeded_le (program : Program) : program.cellsNeeded ≤ 255 := by
  rw [cellsNeeded_le_iff]
  intro instr _
  cases instr <;> simp only [Instr.reach] <;> omega

def shiftCells (distance : Nat) (cells : Array Cell) : Array Cell :=
  cells.map (Option.map (· + distance))

theorem Instr.apply_shift (instr : Instr CellId) (distance : Nat) (mark : Cell)
    (cells : Array Cell) :
    instr.apply (mark.map (· + distance)) (shiftCells distance cells) =
      shiftCells distance (instr.apply mark cells) := by
  cases instr with
  | copy dest src =>
    have read : (shiftCells distance cells).getD src.val none =
        (cells.getD src.val none).map (· + distance) := by
      simp only [shiftCells, Array.getD_eq_getD_getElem?, Array.getElem?_map]
      cases cells[src.val]? <;> rfl
    simp only [apply, read]
    simp [shiftCells, Array.map_setIfInBounds]
  | mark dest => simp [apply, shiftCells, Array.map_setIfInBounds]

theorem Program.apply_shift (program : Program) (distance : Nat) (mark : Cell)
    (cells : Array Cell) :
    program.apply (mark.map (· + distance)) (shiftCells distance cells) =
      shiftCells distance (program.apply mark cells) := by
  induction program generalizing cells with
  | nil => rfl
  | cons instr rest ih =>
    change Program.apply rest _ (instr.apply _ (shiftCells distance cells)) = _
    rw [instr.apply_shift]
    exact ih (instr.apply mark cells)

def Instr.dest : Instr CellId → CellId
  | .copy dest _ => dest
  | .mark dest => dest

def Instr.src? : Instr CellId → Option CellId
  | .copy _ src => some src
  | .mark _ => none

def Program.Apart (program : Program) : Prop :=
  ∀ instr ∈ program, ∀ other ∈ program, instr.src? ≠ some other.dest

instance : DecidablePred Program.Apart := fun program =>
  inferInstanceAs
    (Decidable (∀ instr ∈ program, ∀ other ∈ program, instr.src? ≠ some other.dest))

theorem Instr.getElem?_apply_of_ne {instr : Instr CellId} {i : Nat} (missed : instr.dest.val ≠ i)
    (mark : Cell) (cells : Array Cell) : (instr.apply mark cells)[i]? = cells[i]? := by
  cases instr with
  | copy dest src => exact Array.getElem?_setIfInBounds_ne missed
  | mark dest => exact Array.getElem?_setIfInBounds_ne missed

theorem Program.getElem?_apply_of_ne {program : Program} {i : Nat}
    (missed : ∀ instr ∈ program, instr.dest.val ≠ i) (mark : Cell) (cells : Array Cell) :
    (program.apply mark cells)[i]? = cells[i]? := by
  induction program generalizing cells with
  | nil => rfl
  | cons instr rest ih =>
    have later : (Program.apply rest mark (instr.apply mark cells))[i]? =
        (instr.apply mark cells)[i]? :=
      ih (fun other member => missed other (List.mem_cons_of_mem instr member)) _
    exact later.trans (Instr.getElem?_apply_of_ne (missed instr List.mem_cons_self) mark cells)

theorem Instr.getElem?_apply_dest {instr : Instr CellId} {cells cells' : Array Cell} (mark : Cell)
    (sizes : cells.size = cells'.size)
    (same : ∀ src, instr.src? = some src → cells[src.val]? = cells'[src.val]?) :
    (instr.apply mark cells)[instr.dest.val]? = (instr.apply mark cells')[instr.dest.val]? := by
  cases instr with
  | copy dest src =>
    simp only [apply, Instr.dest, Array.getElem?_setIfInBounds_self, Array.getD_eq_getD_getElem?,
      same src rfl, sizes]
  | mark dest => simp only [apply, Instr.dest, Array.getElem?_setIfInBounds_self, sizes]

/-- A program that reads no cell it writes does not see what these cells held before. -/
theorem Program.apply_eq_of_apart {program : Program} (apart : program.Apart) (mark : Cell)
    {cells cells' : Array Cell} (sizes : cells.size = cells'.size)
    (same : ∀ i, (∀ instr ∈ program, instr.dest.val ≠ i) → cells[i]? = cells'[i]?) :
    program.apply mark cells = program.apply mark cells' := by
  induction program generalizing cells cells' with
  | nil => exact Array.ext_getElem? fun i => same i nofun
  | cons instr rest ih =>
    have apart' : Program.Apart rest := fun first member other member' =>
      apart first (List.mem_cons_of_mem instr member) other (List.mem_cons_of_mem instr member')
    have sizes' : (instr.apply mark cells).size = (instr.apply mark cells').size := by
      rw [instr.size_apply, instr.size_apply, sizes]
    -- After the first instruction the cells also agree where it writes.
    refine ih apart' sizes' ?_
    intro i missed
    by_cases written : instr.dest.val = i
    · subst written
      refine Instr.getElem?_apply_dest mark sizes fun src read => same src.val ?_
      intro other member hit
      have target : instr.src? = some other.dest := read.trans (congrArg some (Fin.ext hit.symm))
      exact apart instr List.mem_cons_self other member target
    · rw [Instr.getElem?_apply_of_ne written, Instr.getElem?_apply_of_ne written]
      exact same i (List.forall_mem_cons.mpr ⟨written, missed⟩)

theorem Program.apply_apply {program : Program} (apart : program.Apart) (mark : Cell)
    (cells : Array Cell) :
    program.apply mark (program.apply mark cells) = program.apply mark cells :=
  apply_eq_of_apart apart mark (program.size_apply mark cells)
    fun _ missed => Program.getElem?_apply_of_ne missed mark cells

end TableLexer
