import TableLexer.Fault
import TableLexer.Symbol

/-! The window of input that a scan can read. Its cursors are offsets into the window, and
`origin` is the absolute offset of its first byte. Input arrives at the end of the window; bytes
past `len` are no part of it. -/

set_option autoImplicit false

namespace TableLexer

/-- What an automaton reports for a match; only its user knows the meaning. -/
abbrev ActionId := Nat

/-- A place in a named input. Scanning carries it along and never looks at it. -/
structure Location where
  file : String
  line : Nat
  lineStart : Nat
  offset : Nat
  deriving DecidableEq, Repr

def Location.start (file : String) : Location :=
  { file, line := 1, lineStart := 0, offset := 0 }

def Location.unknown : Location :=
  { file := "", line := 0, lineStart := 0, offset := 0 }

structure Window where
  bytes : Array UInt8
  len : Nat
  origin : Nat
  start : Nat
  curr : Nat
  last : Nat
  lastAction : Option ActionId
  ended : Bool
  startsAt : Location
  currAt : Location
  deriving DecidableEq, Repr

namespace Window

def emptyAt (location : Location) : Window :=
  { bytes := #[], len := 0, origin := 0, start := 0, curr := 0, last := 0, lastAction := none,
    ended := false, startsAt := location, currAt := location }

def empty : Window :=
  emptyAt (Location.start "")

def refill (window : Window) (data : List UInt8) : Window :=
  -- Bytes past the length are dropped, not moved behind the new ones.
  let bytes := window.bytes.shrink window.len ++ data
  { window with bytes, len := bytes.size }

def finish (window : Window) : Window :=
  { window with ended := true }

def ofBytes (data : List UInt8) : Window :=
  (empty.refill data).finish

def named (window : Window) (file : String) : Window :=
  { window with
    startsAt := { window.startsAt with file }
    currAt := { window.currAt with file } }

def atEnd (window : Window) : Bool :=
  window.ended && decide (window.len ≤ window.curr)

def limit (window : Window) : Nat :=
  min window.len window.bytes.size

def pending (window : Window) : Nat :=
  (window.limit - window.curr) + if window.ended then 1 else 0

/-- The symbol at the cursor, when one is pending: the end of the input follows the last byte. -/
def next (window : Window) : Symbol :=
  if h : window.curr < window.limit then
    have : window.curr < window.bytes.size := Nat.lt_of_lt_of_le h (Nat.min_le_right _ _)
    .byte window.bytes[window.curr]
  else .endOfInput

def advance (window : Window) : Symbol → Window
  | .byte _ => { window with curr := window.curr + 1 }
  | .endOfInput => window

/-- After a transition on the end of the input, a later resume asks for input again. -/
def reopen (window : Window) : Symbol → Window
  | .byte _ => window
  | .endOfInput => { window with ended := false }

def beginAttempt (window : Window) : Window :=
  { window with start := window.curr, last := window.curr, lastAction := none }

def bookmark (window : Window) (action : ActionId) : Window :=
  { window with last := window.curr, lastAction := some action }

def backUp (window : Window) : Window :=
  { window with curr := window.last }

/-- Moves the locations past the token between `start` and the cursor. -/
def commit (window : Window) : Except Fault Window := do
  let startsAt := { window.currAt with offset := ← addWord window.origin window.start }
  let currAt := { window.currAt with offset := ← addWord window.origin window.curr }
  return { window with startsAt, currAt }

def newLine (window : Window) : Except Fault Window := do
  let line ← addWord window.currAt.line 1
  return { window with currAt := { window.currAt with line, lineStart := window.currAt.offset } }

def flush (window : Window) : Window :=
  emptyAt (Location.start window.currAt.file)

def lexeme (window : Window) : Except Fault (List UInt8) :=
  if window.start ≤ window.curr ∧ window.curr ≤ window.bytes.size then
    .ok (window.bytes.extract window.start window.curr).toList
  else .error .outOfRange

def lexemeStart (window : Window) : Except Fault Nat :=
  addWord window.origin window.start

def lexemeEnd (window : Window) : Except Fault Nat :=
  addWord window.origin window.curr

def lexemeByte (window : Window) (i : Nat) : Except Fault (Option UInt8) := do
  return (← window.lexeme)[i]?

def slice (window : Window) (start stop : Nat) : Option (List UInt8) :=
  if start ≤ stop ∧ stop ≤ window.limit then some (window.bytes.extract start stop).toList
  else none

def sliceCells (window : Window) (start stop : Option Nat) : Option (List UInt8) := do
  window.slice (← start) (← stop)

end Window

end TableLexer
