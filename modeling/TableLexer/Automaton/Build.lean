import TableLexer.Automaton.Basic
import TableLexer.Automaton.Packing
import TableLexer.Tables.Validation

/-! Packed tables of an automaton. Each state becomes one line of entries and, unless it accepts,
two sparse rows: its targets and the addresses of its record programs. The rows are packed, and
the outcome goes through the same validation as tables from anywhere else. -/

set_option autoImplicit false

namespace TableLexer

/-- The entries of one state; its rows are still to be placed. -/
structure Line where
  base : Int16
  backtrack : Int16
  fallback : Int16
  baseCode : Int16
  backtrackCode : Int16
  fallbackCode : Int16
  /-- The row of targets and the row of addresses; none for an accepting state. -/
  rows : Option (Row × Row)

def Tagged.compile (field : Field) (tagged : Tagged) (interner : Interner) :
    Except TableError ((Int16 × Int16) × Interner) := do
  let action ← tableEntry field tagged.action
  let (address, interner) ← interner.intern tagged.tag
  return ((action, address), interner)

def Move.compile (move : Move) (interner : Interner) :
    Except TableError ((Int16 × Int16) × Interner) := do
  let target ← tableEntry .trans move.target
  let (address, interner) ← interner.intern move.record
  return ((target, address), interner)

def compileOptional {α : Type} (item : Option α)
    (compile : α → Interner → Except TableError ((Int16 × Int16) × Interner))
    (interner : Interner) : Except TableError (Option (Int16 × Int16) × Interner) :=
  match item with
  | none => .ok (none, interner)
  | some item => do
    let (entry, interner) ← compile item interner
    return (some entry, interner)

def compileMoves : List (Option Move) → Interner →
    Except TableError (List (Option (Int16 × Int16)) × Interner)
  | [], interner => .ok ([], interner)
  | move :: rest, interner => do
    let (entry, interner) ← compileOptional move Move.compile interner
    let (entries, interner) ← compileMoves rest interner
    return (entry :: entries, interner)

/-- The line of a state that does not accept. Columns without a move have target -1 and no
address, because they never run a program. -/
def Line.ofMoves (backtrack backtrackCode : Int16) (moves : List (Option (Int16 × Int16))) :
    Line :=
  let targets := moves.map fun move => move.elim (-1) Prod.fst
  let addresses := moves.map (Option.map Prod.snd)
  let fallback := (mostCommon targets).getD (-1)
  let fallbackCode := (mostCommon (addresses.filterMap id)).getD 0
  { base := 0, backtrack, fallback, baseCode := 0, backtrackCode, fallbackCode,
    rows := some (exceptions (targets.map some) fallback, exceptions addresses fallbackCode) }

def State.compile (state : State) (interner : Interner) :
    Except TableError (Line × Interner) := do
  let (backtrack, interner) ←
    compileOptional state.backtrack (Tagged.compile .backtrack) interner
  let (accept, interner) ← compileOptional state.accept (Tagged.compile .base) interner
  let backtrackAction := backtrack.elim (-1) Prod.fst
  let backtrackCode := backtrack.elim 0 Prod.snd
  match accept with
  | some (action, address) =>
    let line : Line :=
      { base := -action - 1, backtrack := backtrackAction, fallback := -1,
        baseCode := address, backtrackCode, fallbackCode := 0, rows := none }
    return (line, interner)
  -- Moves of a state that accepts are not compiled, for a scan never takes them.
  | none =>
    let (moves, interner) ← compileMoves state.moves.toList interner
    return (.ofMoves backtrackAction backtrackCode moves, interner)

def compileStates (states : List State) : Except TableError (Array Line × Interner) :=
  states.foldlM (fun (lines, interner) state => do
    let (line, interner) ← state.compile interner
    return (lines.push line, interner)) (#[], Interner.empty)

def rowsOf (part : Row × Row → Row) (lines : Array Line) : List (Nat × Row) :=
  lines.toList.zipIdx.filterMap fun (line, state) => line.rows.map fun rows => (state, part rows)

def withBases (entries : Array Int16) (bases : Array (Nat × Int16)) : Array Int16 :=
  bases.foldl (fun entries (state, base) => entries.setIfInBounds state base) entries

/-- The packed tables. They carry captures when some program that can run is not empty. -/
def Automaton.tables (automaton : Automaton) : Except TableError Tables := do
  if maxStates < automaton.size then throw (.tooManyStates automaton.size)
  let (lines, interner) ← compileStates automaton.states.toList
  let packed ← pack (rowsOf Prod.fst lines)
  let parts : PlainParts :=
    { base := withBases (lines.map Line.base) packed.bases
      backtrack := lines.map Line.backtrack
      fallback := lines.map Line.fallback
      trans := packed.trans
      check := packed.check }
  -- Without a program there are no captures at all, not captures that do nothing.
  if interner.known.isEmpty then Tables.ofParts parts none
  else
    let packedCode ← pack (rowsOf Prod.snd lines)
    let captures : CaptureParts :=
      { baseCode := withBases (lines.map Line.baseCode) packedCode.bases
        backtrackCode := lines.map Line.backtrackCode
        fallbackCode := lines.map Line.fallbackCode
        transCode := packedCode.trans
        checkCode := packedCode.check
        code := interner.code.toList }
    Tables.ofParts parts (some captures)

end TableLexer
