import TableLexer.Proofs.Program.Effect
import TableLexer.Proofs.Program.Encoding

/-! Where code holds a program, and which cells a program names. A program stands at an offset
exactly when one of the bytes at even distances from it is 255: every byte in between is a
destination or follows one. -/

set_option autoImplicit false

namespace TableLexer

/-- Two bytes at a time from `offset`, the end of a program is met inside the code. -/
def Program.Terminated (code : List UInt8) (offset : Nat) : Prop :=
  ∃ instrs, code[offset + 2 * instrs]? = some 255

namespace Program

theorem read_succeeds_iff {bytes : List UInt8} :
    (∃ program, read bytes = .ok program) ↔ ∃ instrs, bytes[2 * instrs]? = some 255 := by
  fun_induction read bytes with
  | case1 => simp
  | case2 last reserved =>
    rw [CellId.ofByte?_eq_none_iff] at reserved
    subst reserved
    exact iff_of_true ⟨[], rfl⟩ ⟨0, rfl⟩
  | case3 last cell named =>
    refine iff_of_false (by simp) ?_
    rintro ⟨instrs, met⟩
    cases instrs with
    | zero =>
      have reserved : last = 255 := by simpa using met
      subst reserved
      cases CellId.ofByte?_reserved.symm.trans named
    | succ instrs => simp [Nat.mul_succ] at met
  | case4 dest src rest reserved =>
    rw [CellId.ofByte?_eq_none_iff] at reserved
    subst reserved
    exact iff_of_true ⟨[], rfl⟩ ⟨0, rfl⟩
  | case5 dest src rest cell named ih =>
    -- The destination is no end, so an end is met here exactly when it is met in the rest.
    have later : (∃ instrs, (dest :: src :: rest)[2 * instrs]? = some 255) ↔
        ∃ instrs, rest[2 * instrs]? = some 255 := by
      constructor
      · rintro ⟨instrs, met⟩
        cases instrs with
        | zero =>
          have reserved : dest = 255 := by simpa using met
          subst reserved
          cases CellId.ofByte?_reserved.symm.trans named
        | succ instrs => exact ⟨instrs, met⟩
      · rintro ⟨instrs, met⟩
        exact ⟨instrs + 1, met⟩
    rw [later, ← ih]
    cases read rest with
    | error flaw => simp [Except.map]
    | ok others => simp [Except.map]

theorem decode_succeeds_iff {code : List UInt8} {offset : Nat} :
    (∃ program, decode code offset = .ok program) ↔ Terminated code offset := by
  simp only [decode_eq_read, read_succeeds_iff, Terminated, List.getElem?_drop]

end Program

def Instr.Names (instr : Instr CellId) (cell : Nat) : Prop :=
  instr.dest.val = cell ∨ ∃ src, instr.src? = some src ∧ src.val = cell

def Program.Names (program : Program) (cell : Nat) : Prop :=
  ∃ instr ∈ program, instr.Names cell

theorem Instr.reach_le_iff {instr : Instr CellId} {bound : Nat} :
    instr.reach ≤ bound ↔ ∀ cell, instr.Names cell → cell < bound := by
  cases instr with
  | copy dest src =>
    simp only [reach, Names, Instr.dest, src?, Option.some.injEq, exists_eq_left', or_imp,
      forall_and, forall_eq', Nat.add_one_le_iff, Nat.max_lt]
  | mark dest =>
    simp only [reach, Names, Instr.dest, src?, reduceCtorEq, false_and, exists_false, or_false,
      forall_eq', Nat.add_one_le_iff]

theorem Program.cellsNeeded_le_iff_names {program : Program} {bound : Nat} :
    program.cellsNeeded ≤ bound ↔ ∀ cell, program.Names cell → cell < bound := by
  simp only [cellsNeeded_le_iff, Instr.reach_le_iff, Names]
  constructor
  · rintro below cell ⟨instr, member, named⟩
    exact below instr member cell named
  · intro below instr member cell named
    exact below cell ⟨instr, member, named⟩

end TableLexer
