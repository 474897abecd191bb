import TableLexer.Recognition.Entry
import TableLexer.Recognition.Observer

/-! The automaton. An attempt reads symbols until it enters an accepting state, finds no
successor, or needs more input. Without a successor it falls back to the last backtrack point. -/

set_option autoImplicit false

namespace TableLexer

variable {μ : Type}

structure Result (μ : Type) where
  outcome : Except LexError Step
  window : Window
  memory : μ

/-- The action that an accepting state holds in place of a row. -/
def actionOfBase (base : Int16) : ActionId :=
  (-base.toInt - 1).toNat

def Window.deadEnd (window : Window) (memory : μ) : Result μ :=
  let window := window.backUp
  let outcome := match window.lastAction with
    | some action => .ok (.action action)
    | none => .error (.emptyToken window.curr)
  { outcome, window, memory }

/-- Enters `state` with `pending` symbols to read. A backtrack point takes its tag and its
bookmark before the first of them is read, also when there is none. -/
def Tables.enter (tables : Tables) (observer : Observer μ) (pending state : Nat)
    (window : Window) (memory : μ) : Except Fault (Result μ) := do
  let base ← tables.base state
  if base < 0 then
    let memory ← observer.tag .accept state memory
    return { outcome := .ok (.action (actionOfBase base)), window, memory }
  -- Before the check for input, so that a suspended call has its bookmark already.
  let backtrack ← tables.backtrack state
  let memory ← if 0 ≤ backtrack then observer.tag .backtrack state memory else .ok memory
  let window := if 0 ≤ backtrack then window.bookmark backtrack.toInt.toNat else window
  match pending with
  | 0 => return { outcome := .ok (.refill state), window, memory }
  | pending + 1 =>
    let symbol := window.next
    let window := window.advance symbol
    let target ← tables.next state base symbol.column
    if target < 0 then return window.deadEnd memory
    let memory ← observer.move state symbol.column window.curr memory
    tables.enter observer pending target.toInt.toNat (window.reopen symbol) memory

def Tables.run (tables : Tables) (observer : Observer μ) (entry : Entry) (window : Window)
    (memory : μ) : Except Fault (Result μ) :=
  if entry.state < tables.states then
    let window := match entry with
      | .fresh _ => window.beginAttempt
      -- A resumed attempt keeps its start and its bookmark and enters the state once more.
      | .resume _ => window
    tables.enter observer window.pending entry.state window (observer.prepare memory)
  else .ok { outcome := .error (.invalidState entry), window, memory }

def Tables.runPlain (tables : Tables) (entry : Entry) (window : Window) (cells : Array Cell) :
    Except Fault (Result (Array Cell)) :=
  tables.run .silent entry window cells

def Tables.runCapturing (tables : Tables) (entry : Entry) (window : Window)
    (cells : Array Cell) : Except Fault (Result (Array Cell)) :=
  match tables.captures with
  | some captures => tables.run captures.observer entry window cells
  | none => .ok { outcome := .error .missingCaptures, window, memory := cells }

end TableLexer
