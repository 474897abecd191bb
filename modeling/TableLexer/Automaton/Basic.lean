import TableLexer.Program.Basic
import TableLexer.Symbol
import TableLexer.Window

/-! Automata described state by state, with a full row of moves each. This is the form in which
an automaton is drawn up; packed tables are made from it. -/

set_option autoImplicit false

namespace TableLexer

structure Move where
  target : Nat
  record : Program
  deriving DecidableEq, Repr

structure Tagged where
  action : ActionId
  tag : Program
  deriving DecidableEq, Repr

/-- A state that accepts is final: it reports its action on entry, and its moves are ignored. -/
structure State where
  accept : Option Tagged
  backtrack : Option Tagged
  moves : Vector (Option Move) columns
  deriving DecidableEq

def State.empty : State :=
  { accept := none, backtrack := none, moves := Vector.replicate columns none }

structure Automaton where
  states : Array State
  deriving DecidableEq

namespace Automaton

def empty : Automaton :=
  { states := #[] }

def size (automaton : Automaton) : Nat :=
  automaton.states.size

def addState (automaton : Automaton) : Automaton :=
  { states := automaton.states.push .empty }

def addStates (automaton : Automaton) (count : Nat) : Automaton :=
  { states := automaton.states ++ Array.replicate count .empty }

def edit (automaton : Automaton) (state : Nat) (change : State → State) :
    Except Fault Automaton :=
  if state < automaton.size then .ok { states := automaton.states.modify state change }
  else .error .outOfRange

def accept (automaton : Automaton) (state : Nat) (action : ActionId) (tag : Program) :
    Except Fault Automaton :=
  automaton.edit state fun spec => { spec with accept := some { action, tag } }

def backtrack (automaton : Automaton) (state : Nat) (action : ActionId) (tag : Program) :
    Except Fault Automaton :=
  automaton.edit state fun spec => { spec with backtrack := some { action, tag } }

/-- Adds the transition on one column. The target is not looked at before packing. -/
def edge (automaton : Automaton) (source column target : Nat) (record : Program) :
    Except Fault Automaton :=
  if h : column < columns then
    automaton.edit source fun spec =>
      { spec with moves := spec.moves.set column (some { target, record }) h }
  else .error .outOfRange

def edges (automaton : Automaton) (source : Nat) (sources : List Nat) (target : Nat)
    (record : Program) : Except Fault Automaton :=
  sources.foldlM (fun automaton column => automaton.edge source column target record) automaton

end Automaton

end TableLexer
