import TableLexer.Program.Codec
import TableLexer.Proofs.Fallible

/-! Execution of program bytes where they lie. An instruction is carried out as soon as its two
bytes are read, so code that ends too early is noticed only after the instructions before its end.
Where the code decodes to a program, executing it is running that program. -/

set_option autoImplicit false

namespace TableLexer

def sourceValue (mark : Cell) (cells : Array Cell) (src : UInt8) : Except Fault Cell :=
  if src = 255 then .ok mark else fetch cells src.toNat

/-- Carries out the byte pairs of `code` from `place` up to the first destination 255; source 255
writes `mark`. Reading past the code is a fault. -/
def executeAt (code : List UInt8) (place : Nat) (mark : Cell) (cells : Array Cell) :
    Except Fault (Array Cell) :=
  if inside : place < code.length then
    if code[place] = 255 then .ok cells
    else if paired : place + 1 < code.length then do
      let value ← sourceValue mark cells code[place + 1]
      let cells ← store cells code[place].toNat value
      executeAt code (place + 2) mark cells
    else .error .outOfRange
  else .error .outOfRange
termination_by code.length - place

theorem CellId.ofByte?_of_ne {byte : UInt8} (named : byte ≠ 255) :
    ∃ cell : CellId, CellId.ofByte? byte = some cell ∧ cell.val = byte.toNat := by
  cases read : CellId.ofByte? byte with
  | none => exact absurd (CellId.ofByte?_eq_none_iff.mp read) named
  | some cell =>
    unfold CellId.ofByte? at read
    split at read
    · cases read
      exact ⟨_, rfl, rfl⟩
    · cases read

theorem Instr.ofBytes_run (dest : CellId) (src : UInt8) (mark : Cell) (cells : Array Cell) :
    (Instr.ofBytes dest src).run mark cells =
      (sourceValue mark cells src >>= store cells dest.val) := by
  by_cases marks : src = 255
  · rw [sourceValue, if_pos marks, ofBytes, CellId.ofByte?_eq_none_iff.mpr marks]
    rfl
  · obtain ⟨cell, read, number⟩ := CellId.ofByte?_of_ne marks
    rw [sourceValue, if_neg marks, ofBytes, read, ← number]
    rfl

namespace Program

theorem decode_past {code : List UInt8} {place : Nat} (outside : code.length ≤ place) :
    decode code place = .error .missingTerminator := by
  rw [decode_eq_read, List.drop_eq_nil_of_le outside, read]

theorem decode_end {code : List UInt8} {place : Nat} (inside : place < code.length)
    (ends : code[place] = 255) : decode code place = .ok [] := by
  rw [decode_eq_read, List.drop_eq_getElem_cons inside, ends]
  cases code.drop (place + 1) <;> rfl

theorem decode_unpaired {code : List UInt8} {place : Nat} (inside : place < code.length)
    (named : code[place] ≠ 255) (single : code.length ≤ place + 1) :
    decode code place = .error .missingSource := by
  obtain ⟨cell, read, _⟩ := CellId.ofByte?_of_ne named
  rw [decode_eq_read, List.drop_eq_getElem_cons inside, List.drop_eq_nil_of_le single,
    Program.read, read]

theorem decode_instr {code : List UInt8} {place : Nat} (paired : place + 1 < code.length)
    {cell : CellId} (named : CellId.ofByte? code[place] = some cell) :
    decode code place =
      (decode code (place + 2)).map (Instr.ofBytes cell code[place + 1] :: ·) := by
  rw [decode_eq_read, decode_eq_read, List.drop_eq_getElem_cons (Nat.lt_of_succ_lt paired),
    List.drop_eq_getElem_cons paired, read, named]

/-- Executing code in place is running the program that it decodes to, on any cells. -/
theorem executeAt_eq_run {code : List UInt8} {place : Nat} {program : Program}
    (decoded : decode code place = .ok program) (mark : Cell) (cells : Array Cell) :
    executeAt code place mark cells = program.run mark cells := by
  fun_induction executeAt code place mark cells generalizing program with
  | case1 place cells inside ends =>
    rw [decode_end inside ends] at decoded
    cases decoded
    rfl
  | case2 place cells inside named paired ih =>
    obtain ⟨cell, read, number⟩ := CellId.ofByte?_of_ne named
    rw [decode_instr paired read] at decoded
    cases others : decode code (place + 2) with
    | error flaw =>
      rw [others] at decoded
      cases decoded
    | ok rest =>
      rw [others] at decoded
      cases decoded
      -- The first instruction is carried out alike; the induction is on the bytes behind it.
      calc (do
            let value ← sourceValue mark cells code[place + 1]
            let cells ← store cells code[place].toNat value
            executeAt code (place + 2) mark cells)
          = (do
            let value ← sourceValue mark cells code[place + 1]
            let cells ← store cells code[place].toNat value
            rest.run mark cells) := by simp only [fun cells => ih cells others]
        _ = ((Instr.ofBytes cell code[place + 1]).run mark cells >>= rest.run mark) := by
          rw [Instr.ofBytes_run, number]
          simp only [bind_assoc]
  | case3 place cells inside named single =>
    rw [decode_unpaired inside named (Nat.le_of_not_lt single)] at decoded
    cases decoded
  | case4 place cells outside =>
    rw [decode_past (Nat.le_of_not_lt outside)] at decoded
    cases decoded

end Program

end TableLexer
