import TableLexer.Proofs.Program.Effect

/-! A program as one assignment. Its instructions run in order, and later ones read what earlier
ones wrote; yet a whole run gives every cell the old value of one cell or the mark, and the program
alone tells which. It runs on exactly those arrays that have all the cells it names. -/

set_option autoImplicit false

namespace TableLexer

/-- Where the value of a cell comes from: from a cell as it was before the run, or from the mark. -/
inductive Origin where
  | old (cell : Nat)
  | mark
  deriving DecidableEq, Repr

def Origin.value (mark : Cell) (cells : Array Cell) : Origin → Cell
  | .old cell => cells.getD cell none
  | .mark => mark

def Instr.origin : Instr CellId → Nat → Origin
  | .copy dest src, cell => if dest.val = cell then .old src.val else .old cell
  | .mark dest, cell => if dest.val = cell then .mark else .old cell

/-- The origin of a cell after all instructions, traced back from the last one. -/
def Program.origin : Program → Nat → Origin
  | [], cell => .old cell
  | instr :: rest, cell =>
    match origin rest cell with
    | .old earlier => instr.origin earlier
    | .mark => .mark

structure Assigns (origin : Nat → Origin) (mark : Cell) (before after : Array Cell) : Prop where
  size_eq : after.size = before.size
  marked : ∀ cell < before.size, origin cell = .mark → after[cell]? = some mark
  copied : ∀ cell < before.size, ∀ source, origin cell = .old source →
    source < before.size ∧ after[cell]? = before[source]?

theorem Instr.origin_of_ne {instr : Instr CellId} {cell : Nat} (missed : instr.dest.val ≠ cell) :
    instr.origin cell = .old cell := by
  cases instr with
  | copy dest src => exact if_neg missed
  | mark dest => exact if_neg missed

theorem Instr.origin_lt {instr : Instr CellId} {bound cell source : Nat}
    (enough : instr.reach ≤ bound) (inside : cell < bound)
    (comes : instr.origin cell = .old source) : source < bound := by
  cases instr with
  | copy dest src =>
    simp only [reach] at enough
    simp only [origin] at comes
    split at comes
    · cases comes
      omega
    · cases comes
      exact inside
  | mark dest =>
    simp only [origin] at comes
    split at comes
    · cases comes
    · cases comes
      exact inside

theorem Instr.getD_apply {instr : Instr CellId} {cells : Array Cell}
    (enough : instr.reach ≤ cells.size) (mark : Cell) (cell : Nat) :
    (instr.apply mark cells).getD cell none = (instr.origin cell).value mark cells := by
  by_cases written : instr.dest.val = cell
  · subst written
    cases instr with
    | copy dest src =>
      have writable : dest.val < cells.size := by
        simp only [reach] at enough
        omega
      simp [apply, origin, Origin.value, Instr.dest, Array.getD_eq_getD_getElem?, writable]
    | mark dest =>
      have writable : dest.val < cells.size := enough
      simp [apply, origin, Origin.value, Instr.dest, Array.getD_eq_getD_getElem?, writable]
  · rw [origin_of_ne written, Array.getD_eq_getD_getElem?, getElem?_apply_of_ne written,
      ← Array.getD_eq_getD_getElem?]
    rfl

namespace Program

theorem origin_of_missed {program : Program} {cell : Nat}
    (missed : ∀ instr ∈ program, instr.dest.val ≠ cell) : program.origin cell = .old cell := by
  induction program with
  | nil => rfl
  | cons instr rest ih =>
    rw [List.forall_mem_cons] at missed
    rw [origin, ih missed.2]
    exact Instr.origin_of_ne missed.1

theorem origin_lt {program : Program} {bound cell source : Nat}
    (enough : program.cellsNeeded ≤ bound) (inside : cell < bound)
    (comes : program.origin cell = .old source) : source < bound := by
  rw [cellsNeeded_le_iff] at enough
  induction program generalizing source with
  | nil =>
    cases comes
    exact inside
  | cons instr rest ih =>
    rw [List.forall_mem_cons] at enough
    rw [origin] at comes
    cases earlier : origin rest cell with
    | old middle =>
      rw [earlier] at comes
      exact Instr.origin_lt enough.1 (ih enough.2 earlier) comes
    | mark =>
      rw [earlier] at comes
      cases comes

theorem getD_apply {program : Program} {cells : Array Cell}
    (enough : program.cellsNeeded ≤ cells.size) (mark : Cell) (cell : Nat) :
    (program.apply mark cells).getD cell none = (program.origin cell).value mark cells := by
  rw [cellsNeeded_le_iff] at enough
  -- What the rest reads is what the first instruction left, so its origins are traced once more.
  induction program generalizing cells with
  | nil => rfl
  | cons instr rest ih =>
    rw [List.forall_mem_cons, ← instr.size_apply mark cells] at enough
    have first := enough.1
    rw [instr.size_apply] at first
    calc (apply (instr :: rest) mark cells).getD cell none
        = (apply rest mark (instr.apply mark cells)).getD cell none := rfl
      _ = (origin rest cell).value mark (instr.apply mark cells) := ih enough.2
      _ = (origin (instr :: rest) cell).value mark cells := by
        rw [origin]
        cases origin rest cell with
        | old middle => exact Instr.getD_apply first mark middle
        | mark => rfl

theorem apply_assigns {program : Program} {cells : Array Cell}
    (enough : program.cellsNeeded ≤ cells.size) (mark : Cell) :
    Assigns program.origin mark cells (program.apply mark cells) := by
  have value {cell : Nat} (inside : cell < cells.size) :
      (program.apply mark cells)[cell]? = some ((program.origin cell).value mark cells) := by
    rw [← getD_apply enough, Array.getD_eq_getD_getElem?,
      Array.getElem?_eq_getElem (by rwa [size_apply]), Option.getD_some]
  refine ⟨program.size_apply mark cells, ?_, ?_⟩
  · intro cell inside marks
    rw [value inside, marks]
    rfl
  · intro cell inside source comes
    have known := origin_lt enough inside comes
    refine ⟨known, ?_⟩
    rw [value inside, comes, Array.getElem?_eq_getElem known]
    simp [Origin.value, known]

end Program

theorem Instr.run_short {instr : Instr CellId} {cells : Array Cell}
    (short : cells.size < instr.reach) (mark : Cell) :
    instr.run mark cells = .error .outOfRange := by
  cases instr with
  | copy dest src =>
    simp only [reach] at short
    by_cases readable : src.val < cells.size
    · have unwritable : ¬ dest.val < cells.size := by omega
      simp [run, fetch, store, readable, unwritable]
    · simp [run, fetch, readable]
  | mark dest =>
    have unwritable : ¬ dest.val < cells.size := Nat.not_lt.mpr (Nat.le_of_lt_succ short)
    simp [run, store, unwritable]

namespace Program

theorem run_short {program : Program} {cells : Array Cell}
    (short : cells.size < program.cellsNeeded) (mark : Cell) :
    program.run mark cells = .error .outOfRange := by
  rw [← Nat.not_le, cellsNeeded_le_iff] at short
  simp only [Classical.not_forall, Nat.not_le, exists_prop] at short
  induction program generalizing cells with
  | nil =>
    obtain ⟨_, ⟨⟩, _⟩ := short
  | cons instr rest ih =>
    change (instr.run mark cells >>= Program.run rest mark) = _
    rcases Nat.lt_or_ge cells.size instr.reach with here | enough
    · rw [Instr.run_short here mark]
      rfl
    · rw [Instr.run_eq_apply enough]
      refine ih ?_
      obtain ⟨other, member, beyond⟩ := short
      rcases List.mem_cons.mp member with rfl | later
      · exact absurd enough (Nat.not_le.mpr beyond)
      · exact ⟨other, later, by rwa [instr.size_apply]⟩

/-- A program is a simultaneous assignment that leaves alone every cell it does not write. On arrays
with the cells it needs, a run of either kind succeeds, and the two differ in what marks write; on
shorter arrays both fail. -/
theorem runs_assign (program : Program) :
    (∀ cell, (∀ instr ∈ program, instr.dest.val ≠ cell) → program.origin cell = .old cell) ∧
    ∀ (cells : Array Cell) (position : Nat),
      (program.cellsNeeded ≤ cells.size →
        (∃ after, program.runTag cells = .ok after ∧
          Assigns program.origin none cells after) ∧
        ∃ after, program.runRecord position cells = .ok after ∧
          Assigns program.origin (some position) cells after) ∧
      (cells.size < program.cellsNeeded →
        program.runTag cells = .error .outOfRange ∧
        program.runRecord position cells = .error .outOfRange) := by
  refine ⟨fun cell => origin_of_missed, fun cells position => ⟨?_, ?_⟩⟩
  · intro enough
    exact ⟨⟨_, run_eq_apply enough, apply_assigns enough none⟩,
      ⟨_, run_eq_apply enough, apply_assigns enough (some position)⟩⟩
  · intro short
    exact ⟨run_short short none, run_short short (some position)⟩

/-- Two copies in a row: the first one reads its source before the second one writes there. -/
theorem copies_assign :
    (∃ after, Program.runTag [.copy 1 0, .copy 0 2] #[some 7, none, some 9] = .ok after ∧
      Assigns (Program.origin [.copy 1 0, .copy 0 2]) none #[some 7, none, some 9] after) ∧
    Program.origin [.copy 1 0, .copy 0 2] 1 = .old 0 ∧
    Program.runRecord [.copy 1 0, .copy 0 2] 5 #[some 7, none] = .error .outOfRange := by
  obtain ⟨_, runs⟩ := runs_assign [.copy 1 0, .copy 0 2]
  have enough : Program.cellsNeeded [.copy 1 0, .copy 0 2] ≤ 3 := by decide
  have short : 2 < Program.cellsNeeded [.copy 1 0, .copy 0 2] := by decide
  exact ⟨((runs #[some 7, none, some 9] 5).1 enough).1, rfl,
    ((runs #[some 7, none] 5).2 short).2⟩

end Program

end TableLexer
