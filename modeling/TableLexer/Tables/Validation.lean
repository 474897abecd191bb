import TableLexer.Symbol
import TableLexer.Program.Codec
import TableLexer.Tables.Error

/-! Validated tables. Validation visits exactly the entries a scan can reach: the row and the
fallback of every state, the transition slots that some state owns, and the programs these name.
Every program is decoded once, here, under the address by which the entries name it. -/

set_option autoImplicit false

namespace TableLexer

def maxStates : Nat := 32768

structure CaptureTables where
  parts : CaptureParts
  programs : Array (Option Program)
  cells : Nat
  deriving DecidableEq, Repr

structure Tables where
  parts : PlainParts
  captures : Option CaptureTables
  deriving DecidableEq, Repr

def Tables.states (tables : Tables) : Nat :=
  tables.parts.base.size

def expectLength (field : Field) (found expected : Nat) : Except TableError Unit :=
  if found = expected then .ok () else .error (.lengthMismatch field found expected)

def checkRow (field : Field) (state : Nat) (offset : Int16) (room : Nat) :
    Except TableError Unit :=
  if 0 ≤ offset ∧ offset.toInt.toNat + columns ≤ room then .ok ()
  else .error (.rowOutOfRange field state offset room)

def checkTarget (field : Field) (index : Nat) (target : Int16) (states : Nat) :
    Except TableError Unit :=
  if 0 ≤ target ∧ states ≤ target.toInt.toNat then
    .error (.targetOutOfRange field index target states)
  else .ok ()

def owned (owner : Int16) (states : Nat) : Bool :=
  decide (0 ≤ owner ∧ owner.toInt.toNat < states)

def PlainParts.checkState (parts : PlainParts) (state : Nat) : Except TableError Unit := do
  let base := parts.base.getD state 0
  if 0 ≤ base then checkRow .base state base parts.trans.size
  checkTarget .fallback state (parts.fallback.getD state 0) parts.base.size

def PlainParts.checkSlot (parts : PlainParts) (slot : Nat) : Except TableError Unit :=
  if owned (parts.check.getD slot 0) parts.base.size then
    checkTarget .trans slot (parts.trans.getD slot 0) parts.base.size
  else .ok ()

def PlainParts.validate (parts : PlainParts) : Except TableError Unit := do
  let states := parts.base.size
  if states = 0 then throw .noStates
  if maxStates < states then throw (.tooManyStates states)
  expectLength .backtrack parts.backtrack.size states
  expectLength .fallback parts.fallback.size states
  expectLength .check parts.check.size parts.trans.size
  (List.range states).forM parts.checkState
  (List.range parts.check.size).forM parts.checkSlot

inductive CaptureDemand where
  | row (state : Nat) (offset : Int16)
  | program (address : Int16)
  deriving DecidableEq, Repr

/-- What one state demands of the capture entries. An accepting state names its tag program
where any other state names its row. -/
def CaptureParts.stateDemands (captures : CaptureParts) (parts : PlainParts) (state : Nat) :
    List CaptureDemand :=
  let base := captures.baseCode.getD state 0
  let entry :=
    if parts.base.getD state 0 < 0 then [.program base]
    else [.row state base, .program (captures.fallbackCode.getD state 0)]
  if 0 ≤ parts.backtrack.getD state 0 then
    entry ++ [.program (captures.backtrackCode.getD state 0)]
  else entry

def CaptureParts.slotDemands (captures : CaptureParts) (states slot : Nat) :
    List CaptureDemand :=
  if owned (captures.checkCode.getD slot 0) states then
    [.program (captures.transCode.getD slot 0)]
  else []

/-- All demands, in the order in which they are checked. -/
def CaptureParts.demands (captures : CaptureParts) (parts : PlainParts) : List CaptureDemand :=
  (List.range parts.base.size).flatMap (captures.stateDemands parts) ++
    (List.range captures.checkCode.size).flatMap (captures.slotDemands parts.base.size)

/-- Decodes the program at a positive address unless it is known already. Other addresses name
no program. -/
def learnProgram (code : List UInt8) (known : Array (Option Program)) (address : Int16) :
    Except TableError (Array (Option Program)) :=
  if 0 < address then
    let offset := address.toInt.toNat
    match known[offset]? with
    | some (some _) => .ok known
    | _ =>
      match Program.decode code offset with
      | .ok program => .ok (known.setIfInBounds offset (some program))
      | .error flaw => .error (.badProgram offset flaw)
  else .ok known

def CaptureParts.meet (captures : CaptureParts) (known : Array (Option Program)) :
    CaptureDemand → Except TableError (Array (Option Program))
  | .row state offset => do
    checkRow .baseCode state offset captures.transCode.size
    return known
  | .program address => learnProgram captures.code known address

def cellsNeeded (programs : Array (Option Program)) : Nat :=
  programs.foldl (fun most program => max most (program.elim 0 Program.cellsNeeded)) 0

def CaptureTables.ofParts (parts : PlainParts) (captures : CaptureParts) :
    Except TableError CaptureTables := do
  let states := parts.base.size
  expectLength .baseCode captures.baseCode.size states
  expectLength .backtrackCode captures.backtrackCode.size states
  expectLength .fallbackCode captures.fallbackCode.size states
  expectLength .checkCode captures.checkCode.size captures.transCode.size
  let programs ← (captures.demands parts).foldlM captures.meet
    (Array.replicate captures.code.length none)
  return { parts := captures, programs, cells := cellsNeeded programs }

/-- Validates the recognition entries first, then the capture entries against them. -/
def Tables.ofParts (parts : PlainParts) (captures : Option CaptureParts) :
    Except TableError Tables := do
  parts.validate
  let captures ← captures.mapM (CaptureTables.ofParts parts)
  return { parts, captures }

end TableLexer
