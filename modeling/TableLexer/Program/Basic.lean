import TableLexer.Fault

/-! Capture programs: straight-line code over position cells. A program copies cells and marks
cells; what a mark writes is chosen when the program runs, so one program can unset cells on a
tag and record the current position on a transition. -/

set_option autoImplicit false

namespace TableLexer

/-- A recorded position; none when the sub-pattern took no part in the match. -/
abbrev Cell := Option Nat

/-- A cell a program can name. Byte 255 is left over for the end of a program and for marks. -/
abbrev CellId := Fin 255

inductive Instr (ι : Type) where
  | copy (dest src : ι)
  | mark (dest : ι)
  deriving DecidableEq, Repr

abbrev Program := List (Instr CellId)

inductive Program.Flaw where
  | reservedCell
  | missingTerminator
  | missingSource
  deriving DecidableEq, Repr

def Program.Flaw.message : Program.Flaw → String
  | .reservedCell => "cell 255 is reserved"
  | .missingTerminator => "missing terminator"
  | .missingSource => "instruction without source"

def CellId.ofByte? (byte : UInt8) : Option CellId :=
  if h : byte.toNat < 255 then some ⟨byte.toNat, h⟩ else none

def CellId.toByte (cell : CellId) : UInt8 := UInt8.ofNat cell.val

theorem CellId.ofByte?_toByte (cell : CellId) : CellId.ofByte? cell.toByte = some cell := by
  have small : cell.val % 256 = cell.val := Nat.mod_eq_of_lt (by omega)
  simp [CellId.ofByte?, CellId.toByte, small]

theorem CellId.toByte_of_ofByte? {byte : UInt8} {cell : CellId}
    (read : CellId.ofByte? byte = some cell) : cell.toByte = byte := by
  unfold CellId.ofByte? at read
  split at read
  · cases read
    simp [CellId.toByte]
  · cases read

theorem CellId.ofByte?_eq_none_iff {byte : UInt8} : CellId.ofByte? byte = none ↔ byte = 255 := by
  have bound := byte.toNat_lt
  unfold CellId.ofByte?
  split
  · rename_i small
    simp only [reduceCtorEq, false_iff]
    rintro rfl
    exact absurd small (by decide)
  · simp only [true_iff]
    exact UInt8.toNat_inj.mp (by simp; omega)

def Instr.checked? : Instr UInt8 → Option (Instr CellId)
  | .copy dest src => do return .copy (← CellId.ofByte? dest) (← CellId.ofByte? src)
  | .mark dest => do return .mark (← CellId.ofByte? dest)

def Program.ofInstrs? (instrs : List (Instr UInt8)) : Except Program.Flaw Program :=
  match instrs.mapM Instr.checked? with
  | some program => .ok program
  | none => .error .reservedCell

def Instr.reach : Instr CellId → Nat
  | .copy dest src => max dest.val src.val + 1
  | .mark dest => dest.val + 1

/-- The least number of cells on which a program runs without a fault. -/
def Program.cellsNeeded (program : Program) : Nat :=
  program.foldl (fun most instr => max most instr.reach) 0

def Instr.run (mark : Cell) (cells : Array Cell) : Instr CellId → Except Fault (Array Cell)
  | .copy dest src => do store cells dest.val (← fetch cells src.val)
  | .mark dest => store cells dest.val mark

/-- Runs the instructions in order; a mark writes `mark`. -/
def Program.run (program : Program) (mark : Cell) (cells : Array Cell) :
    Except Fault (Array Cell) :=
  program.foldlM (Instr.run mark) cells

def Program.runTag (program : Program) (cells : Array Cell) : Except Fault (Array Cell) :=
  program.run none cells

def Program.runRecord (program : Program) (position : Nat) (cells : Array Cell) :
    Except Fault (Array Cell) :=
  program.run (some position) cells

end TableLexer
