import TableLexer.Recognition.Run

/-! A scanning session: the window of input together with the capture cells. -/

set_option autoImplicit false

namespace TableLexer

structure Session where
  window : Window
  cells : Array Cell
  deriving DecidableEq, Repr

namespace Session

def empty : Session :=
  { window := .empty, cells := #[] }

def ofBytes (data : List UInt8) : Session :=
  { window := .ofBytes data, cells := #[] }

/-- The most cells an array can hold: sixteen bytes each, in half of the address space. -/
def maxCells : Nat := 576460752303423487

def resetCells (session : Session) (count : Nat) : Except Fault Session :=
  if count ≤ maxCells then .ok { session with cells := Array.replicate count none }
  else .error .capacity

def flush (session : Session) : Session :=
  { window := session.window.flush, cells := #[] }

end Session

end TableLexer
