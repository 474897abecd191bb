import TableLexer.Automaton.Interning
import TableLexer.Symbol

/-! Packing of sparse rows into one shared array of slots. The most frequent value of a row is its
fallback and takes no slot; the columns that differ are placed at the least offset where all
their slots are free. A check entry names the owner of a slot, and a negative one means free. -/

set_option autoImplicit false

namespace TableLexer

abbrev Row := List (Nat × Int16)

def countOne (value : Int16) : List (Int16 × Nat) → List (Int16 × Nat)
  | [] => [(value, 1)]
  | (seen, count) :: rest =>
    if seen = value then (seen, count + 1) :: rest else (seen, count) :: countOne value rest

def tally (values : List Int16) : List (Int16 × Nat) :=
  values.foldl (fun counts value => countOne value counts) []

/-- Whether one count goes before another: more occurrences, then the smaller value. -/
def moreCommon (first second : Int16 × Nat) : Bool :=
  decide (second.2 < first.2 ∨ second.2 = first.2 ∧ first.1 < second.1)

def leader (counts : List (Int16 × Nat)) : Option Int16 :=
  let best := counts.foldl (fun best count =>
    match best with
    | none => some count
    | some held => if moreCommon count held then some count else some held) none
  best.map Prod.fst

def mostCommon (values : List Int16) : Option Int16 :=
  leader (tally values)

/-- The columns whose value differs from `fallback`. A column without a value takes any. -/
def exceptions (values : List (Option Int16)) (fallback : Int16) : Row :=
  values.zipIdx.filterMap fun (value, column) =>
    match value with
    | some value => if value = fallback then none else some (column, value)
    | none => none

/-- Rows laid out: the offset of each, by state, and the slots with their owners. -/
structure Packed where
  bases : Array (Nat × Int16)
  trans : Array Int16
  check : Array Int16
  deriving DecidableEq, Repr

def fits (check : Array Int16) (row : Row) (offset : Nat) : Bool :=
  row.all fun (column, _) =>
    match check[offset + column]? with
    | some owner => decide (owner < 0)
    -- Past the slots everything is free; the arrays grow when the row is placed.
    | none => true

/-- The least offset from `offset` on that fits, looking at `bound` of them; after these the row
lies beyond all slots. -/
def firstFitFrom (check : Array Int16) (row : Row) : (bound offset : Nat) → Nat
  | 0, offset => offset
  | bound + 1, offset =>
    if fits check row offset then offset else firstFitFrom check row bound (offset + 1)

def firstFit (check : Array Int16) (row : Row) : Nat :=
  firstFitFrom check row check.size 0

def extendSlots (slots : Array Int16) (size : Nat) : Array Int16 :=
  slots ++ Array.replicate (size - slots.size) (-1)

def Packed.place (packed : Packed) (state : Nat) (row : Row) : Except TableError Packed :=
  let { bases, trans, check } := packed
  let offset := firstFit check row
  let check := extendSlots check (offset + columns)
  let trans := extendSlots trans (offset + columns)
  let check := row.foldl (fun check (column, _) =>
    check.setIfInBounds (offset + column) (Int16.ofNat state)) check
  let trans := row.foldl (fun trans (column, value) =>
    trans.setIfInBounds (offset + column) value) trans
  match tableEntry .base offset with
  | .ok base => .ok { bases := bases.push (state, base), trans, check }
  | .error error => .error error

def Packed.empty : Packed :=
  { bases := #[], trans := Array.replicate columns (-1), check := Array.replicate columns (-1) }

def pack (rows : List (Nat × Row)) : Except TableError Packed :=
  rows.foldlM (fun packed (state, row) => packed.place state row) .empty

end TableLexer
