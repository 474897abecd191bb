import TableLexer.Program.Codec
import TableLexer.Tables.Error

/-! Interning of capture programs. Distinct programs are laid out once, in the order of their
first use, in one blob whose byte zero is an empty program; an address once given out stays. -/

set_option autoImplicit false

namespace TableLexer

def tableEntry (field : Field) (value : Nat) : Except TableError Int16 :=
  if value < 32768 then .ok (Int16.ofNat value) else .error (.overflow field)

structure Interner where
  code : Array UInt8
  /-- The address of every program in the blob, latest first. -/
  known : List (Program × Int16)

namespace Interner

def empty : Interner :=
  { code := #[255], known := [] }

/-- The address of a program: zero for the empty one, and the place of its first use for any
other. -/
def intern (interner : Interner) (program : Program) : Except TableError (Int16 × Interner) :=
  if program.isEmpty then .ok (0, interner)
  else
    match interner.known.lookup program with
    | some address => .ok (address, interner)
    | none => do
      let address ← tableEntry .code interner.code.size
      return (address,
        { code := interner.code ++ program.encode
          known := (program, address) :: interner.known })

end Interner

end TableLexer
