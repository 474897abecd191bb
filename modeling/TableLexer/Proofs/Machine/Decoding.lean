import TableLexer.Proofs.Program.Execution
import TableLexer.Proofs.Program.Terminated
import TableLexer.Tables.Error

/-! Programs and bytes correspond exactly. A program is found wherever its bytes stand, the bytes it
was found in are its own, and there is none only where no end is met. Decoding in machine arithmetic
finds the same and meets no fault, whatever the offset. -/

set_option autoImplicit false

namespace TableLexer

namespace Machine

def decodeFrom (code : List UInt8) (offset : Nat) (done : List (Instr CellId)) (place : Nat) :
    Except Fault (Except TableError Program) :=
  if inside : place < code.length then
    match CellId.ofByte? code[place] with
    | none => .ok (.ok done.reverse)
    | some dest => do
      let next ← addWord place 1
      match code[next]? with
      | none => return .error (.badProgram offset .missingSource)
      | some src =>
        if place + 2 < wordLimit then
          decodeFrom code offset (Instr.ofBytes dest src :: done) (place + 2)
        else .error .overflow
  else .ok (.error (.badProgram offset .missingTerminator))
termination_by code.length - place

/-- The program at `offset`, found by places that are checked against the machine word. -/
def decodeProgram (code : List UInt8) (offset : Nat) : Except Fault (Except TableError Program) :=
  decodeFrom code offset [] offset

theorem decodeFrom_eq {code : List UInt8} (small : code.length + 1 < wordLimit) (offset : Nat)
    (done : List (Instr CellId)) (place : Nat) :
    decodeFrom code offset done place =
      .ok (((Program.decode code place).map (done.reverse ++ ·)).mapError
        (.badProgram offset)) := by
  fun_induction decodeFrom code offset done place with
  | case1 done place inside reserved =>
    rw [Program.decode_end inside (CellId.ofByte?_eq_none_iff.mp reserved)]
    change _ = Except.ok (Except.ok (done.reverse ++ []))
    rw [List.append_nil]
  | case2 done place inside dest named ih =>
    -- A place inside the code has both of the next ones within the word.
    rw [addWord_of_lt (by omega), ok_bind]
    by_cases paired : place + 1 < code.length
    · rw [List.getElem?_eq_getElem paired, Program.decode_instr paired named]
      simp only
      rw [if_pos (by omega), ih]
      cases Program.decode code (place + 2) <;> simp [Except.map]
    · have unreserved : code[place] ≠ 255 := by
        rw [Ne, ← CellId.ofByte?_eq_none_iff, named]
        exact Option.some_ne_none dest
      rw [List.getElem?_eq_none (Nat.le_of_not_lt paired),
        Program.decode_unpaired inside unreserved (Nat.le_of_not_lt paired)]
      rfl
  | case3 done place outside =>
    rw [Program.decode_past (Nat.le_of_not_lt outside)]
    rfl

theorem decodeProgram_eq {code : List UInt8} (small : code.length + 1 < wordLimit)
    (offset : Nat) :
    decodeProgram code offset =
      .ok ((Program.decode code offset).mapError (.badProgram offset)) := by
  rw [decodeProgram, decodeFrom_eq small]
  cases Program.decode code offset <;> simp [Except.map]

end Machine

namespace Program

theorem decode_fails_iff {code : List UInt8} {offset : Nat} :
    (∃ flaw, decode code offset = .error flaw) ↔ ¬ Terminated code offset := by
  rw [← decode_succeeds_iff]
  cases decode code offset with
  | error flaw => simp
  | ok program => simp

/-- Programs are what their instructions and their bytes say. A program is accepted for its own
instructions only and decoded from its own bytes only, wherever these stand; decoding fails exactly
where no end is met. As long as the places in the code are machine words no offset makes it fault,
and a failure names the offset. -/
theorem bytes_correspond :
    (∀ (instrs : List (Instr UInt8)) (program : Program),
      ofInstrs? instrs = .ok program ↔ program.map Instr.unchecked = instrs) ∧
    (∀ (program : Program) (before after : List UInt8),
      decode (before ++ program.encode ++ after) before.length = .ok program) ∧
    ∀ (code : List UInt8) (offset : Nat),
      (∀ program, decode code offset = .ok program → program.encode <+: code.drop offset) ∧
      ((∃ flaw, decode code offset = .error flaw) ↔ ¬ Terminated code offset) ∧
      (code.length + 1 < wordLimit →
        Machine.decodeProgram code offset =
          .ok ((decode code offset).mapError (.badProgram offset))) := by
  refine ⟨fun _ _ => ofInstrs?_eq_ok_iff, decode_encode, fun code offset => ?_⟩
  exact ⟨fun _ => encode_of_decode, decode_fails_iff, fun small =>
    Machine.decodeProgram_eq small offset⟩

theorem bytes_embedded :
    decode [7, 255, 2, 0, 1, 255, 255, 9] 2 = .ok [.copy 2 0, .mark 1] ∧
      encode [.copy 2 0, .mark 1] <+: [2, 0, 1, 255, 255, 9] ∧
      (∃ flaw, decode [0, 255, 1] 0 = .error flaw) ∧
      Machine.decodeProgram [0, 255, 1] (wordLimit - 1) =
        .ok (.error (.badProgram (wordLimit - 1) .missingTerminator)) := by
  obtain ⟨_, embedded, inside⟩ := bytes_correspond
  have found := embedded [.copy 2 0, .mark 1] [7, 255] [9]
  have unended : ¬ Terminated [0, 255, 1] 0 := by
    rintro ⟨instrs, met⟩
    match instrs with
    | 0 | 1 => cases met
    | _ + 2 => cases met
  have past := (inside [0, 255, 1] (wordLimit - 1)).2.2 (by decide)
  rw [decode_past (by decide)] at past
  exact ⟨found, (inside _ 2).1 _ found, (inside [0, 255, 1] 0).2.1.mpr unended, past⟩

end Program

end TableLexer
