import TableLexer.Tables.Validation

/-! Lookups in packed tables. A state's row is laid over a shared array of slots; a slot belongs
to the state its check entry names, and every other column takes the state's fallback. -/

set_option autoImplicit false

namespace TableLexer

inductive TagPoint where
  | accept
  | backtrack
  deriving DecidableEq, Repr

/-- Non-negative for a row; negative for an accepting state, whose action it holds. -/
def Tables.base (tables : Tables) (state : Nat) : Except Fault Int16 :=
  fetch tables.parts.base state

/-- The action of a backtrack point; negative when the state is none. -/
def Tables.backtrack (tables : Tables) (state : Nat) : Except Fault Int16 :=
  fetch tables.parts.backtrack state

def lookupSlot (check entries fallbacks : Array Int16) (slot state : Nat) : Except Fault Int16 := do
  if (← fetch check slot) = Int16.ofNat state then fetch entries slot
  else fetch fallbacks state

/-- The successor of a state whose row starts at `base`; negative when there is none. -/
def Tables.next (tables : Tables) (state : Nat) (base : Int16) (column : Nat) :
    Except Fault Int16 :=
  lookupSlot tables.parts.check tables.parts.trans tables.parts.fallback
    (base.toInt.toNat + column) state

/-- The decoded program at an address; none at zero, at negative addresses and where no program
was decoded. -/
def CaptureTables.program? (captures : CaptureTables) (address : Int16) : Option Program :=
  if 0 < address then captures.programs[address.toInt.toNat]?.join else none

def CaptureTables.tagAddress (captures : CaptureTables) (point : TagPoint) (state : Nat) :
    Except Fault Int16 :=
  match point with
  | .accept => fetch captures.parts.baseCode state
  | .backtrack => fetch captures.parts.backtrackCode state

def CaptureTables.recordAddress (captures : CaptureTables) (state column : Nat) :
    Except Fault Int16 := do
  let base ← fetch captures.parts.baseCode state
  if base < 0 then throw .outOfRange
  lookupSlot captures.parts.checkCode captures.parts.transCode captures.parts.fallbackCode
    (base.toInt.toNat + column) state

def CaptureTables.tagProgram (captures : CaptureTables) (point : TagPoint) (state : Nat) :
    Except Fault (Option Program) := do
  return captures.program? (← captures.tagAddress point state)

def CaptureTables.recordProgram (captures : CaptureTables) (state column : Nat) :
    Except Fault (Option Program) := do
  return captures.program? (← captures.recordAddress state column)

end TableLexer
