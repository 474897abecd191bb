import TableLexer.Tables.Lookup

/-! Observers of a recognition attempt. Recognition reports its events to an observer, which
keeps a memory of its own and has no say in what is recognized. -/

set_option autoImplicit false

namespace TableLexer

/-- Reactions to the events of an attempt, over a memory of type `μ`. A move names the state it
leaves, the column it reads and the cursor after reading. -/
structure Observer (μ : Type) where
  prepare : μ → μ
  tag : TagPoint → Nat → μ → Except Fault μ
  move : Nat → Nat → Nat → μ → Except Fault μ

def Observer.silent {μ : Type} : Observer μ where
  prepare := id
  tag _ _ memory := .ok memory
  move _ _ _ memory := .ok memory

def growCells (count : Nat) (cells : Array Cell) : Array Cell :=
  cells ++ Array.replicate (count - cells.size) none

theorem growCells_size (count : Nat) (cells : Array Cell) :
    (growCells count cells).size = max count cells.size := by
  simp only [growCells, Array.size_append, Array.size_replicate]
  omega

def runProgram (program : Option Program) (mark : Cell) (cells : Array Cell) :
    Except Fault (Array Cell) :=
  match program with
  | some program => program.run mark cells
  | none => .ok cells

def CaptureTables.observer (captures : CaptureTables) : Observer (Array Cell) where
  prepare := growCells captures.cells
  tag point state cells := do
    runProgram (← captures.tagProgram point state) none cells
  move state column position cells := do
    if endColumn < column then throw .outOfRange
    runProgram (← captures.recordProgram state column) (some position) cells

inductive Event where
  | tag (point : TagPoint) (state : Nat)
  | move (state column position : Nat)
  deriving DecidableEq, Repr

def Observer.logged {μ : Type} (observer : Observer μ) :
    Observer (μ × Array (Event × μ)) where
  prepare memory := (observer.prepare memory.1, memory.2)
  tag point state memory := do
    let after ← observer.tag point state memory.1
    return (after, memory.2.push (.tag point state, after))
  move state column position memory := do
    let after ← observer.move state column position memory.1
    return (after, memory.2.push (.move state column position, after))

def Tables.observer (tables : Tables) : Observer (Array Cell) :=
  match tables.captures with
  | some captures => captures.observer
  | none => .silent

end TableLexer
