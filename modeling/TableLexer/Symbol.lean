/-! The alphabet of an automaton: every byte, and one symbol for the end of the input. Each symbol
has a column of its own in a transition row. -/

set_option autoImplicit false

namespace TableLexer

inductive Symbol where
  | byte (value : UInt8)
  | endOfInput
  deriving DecidableEq, Repr

def columns : Nat := 257

/-- The column of the end of the input, after those of the bytes. -/
def endColumn : Nat := 256

def Symbol.column : Symbol → Nat
  | .byte value => value.toNat
  | .endOfInput => endColumn

theorem Symbol.column_lt (symbol : Symbol) : symbol.column < columns := by
  cases symbol with
  | byte value => exact Nat.lt_succ_of_lt value.toNat_lt
  | endOfInput => decide

end TableLexer
