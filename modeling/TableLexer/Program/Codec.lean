import TableLexer.Program.Basic

/-! The byte form of capture programs. An instruction is a destination byte and a source byte;
source 255 is a mark and destination 255 ends the program. The byte 255 is therefore read by its
place, and a program is delimited on its own inside any surrounding bytes. -/

set_option autoImplicit false

namespace TableLexer

def Instr.bytes : Instr CellId → List UInt8
  | .copy dest src => [dest.toByte, src.toByte]
  | .mark dest => [dest.toByte, 255]

def Program.encode (program : Program) : List UInt8 :=
  program.flatMap Instr.bytes ++ [255]

def Instr.ofBytes (dest : CellId) (src : UInt8) : Instr CellId :=
  match CellId.ofByte? src with
  | some cell => .copy dest cell
  | none => .mark dest

def Program.read : List UInt8 → Except Program.Flaw Program
  | [] => .error .missingTerminator
  | [last] =>
    match CellId.ofByte? last with
    | none => .ok []
    | some _ => .error .missingSource
  | dest :: src :: rest =>
    match CellId.ofByte? dest with
    | none => .ok []
    | some cell => (Program.read rest).map (Instr.ofBytes cell src :: ·)

/-- `Program.read` without a stack frame per instruction; `done` holds the ones already read,
latest first. -/
def Program.readAfter (done : List (Instr CellId)) : List UInt8 → Except Program.Flaw Program
  | [] => .error .missingTerminator
  | [last] =>
    match CellId.ofByte? last with
    | none => .ok done.reverse
    | some _ => .error .missingSource
  | dest :: src :: rest =>
    match CellId.ofByte? dest with
    | none => .ok done.reverse
    | some cell => Program.readAfter (Instr.ofBytes cell src :: done) rest

theorem Program.readAfter_eq (done : List (Instr CellId)) (bytes : List UInt8) :
    Program.readAfter done bytes = (Program.read bytes).map (done.reverse ++ ·) := by
  fun_induction Program.readAfter done bytes with
  | case1 => rfl
  | case2 done last h => simp [Program.read, h, Except.map]
  | case3 done last cell h => simp [Program.read, h, Except.map]
  | case4 done dest src rest h => simp [Program.read, h, Except.map]
  | case5 done dest src rest cell h ih =>
    rw [ih]
    simp only [Program.read, h]
    cases Program.read rest <;> simp [Except.map]

def Program.decode (code : List UInt8) (offset : Nat) : Except Program.Flaw Program :=
  Program.readAfter [] (code.drop offset)

theorem Program.decode_eq_read (code : List UInt8) (offset : Nat) :
    Program.decode code offset = Program.read (code.drop offset) := by
  unfold Program.decode
  rw [Program.readAfter_eq]
  cases Program.read (code.drop offset) <;> simp [Except.map]

end TableLexer
