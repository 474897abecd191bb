import TableLexer.Numeric.Rounding

/-! Numbers in text: reading unsigned settings and setting numbers in columns. -/

set_option autoImplicit false

namespace TableLexer

/-- An unsigned number below `bound`: decimal digits after an optional plus sign, and nothing
else. -/
def readUnsigned? (bound : Nat) (text : String) : Option Nat :=
  let digits := match text.toList with
    | '+' :: rest => rest
    | all => all
  if digits.isEmpty || !digits.all Char.isDigit then none
  else
    let value := digits.foldl (fun value digit => value * 10 + (digit.toNat - '0'.toNat)) 0
    if value < bound then some value else none

def padLeft (width : Nat) (text : String) : String :=
  String.ofList (List.replicate (width - text.length) ' ') ++ text

def tenths (numerator denominator : Nat) : String :=
  let rounded := roundDiv (10 * numerator) denominator
  toString (rounded / 10) ++ "." ++ toString (rounded % 10)

end TableLexer
