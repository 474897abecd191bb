import TableLexer.Numeric.Double

/-! Double-precision numbers in decimal: the fewest digits that read back as the same number. The
numbers that round to a double form an interval, whose ends belong to it when the mantissa is even.
Grids of powers of ten are tried from the coarsest on, on each the two neighbours of the value. -/

set_option autoImplicit false

namespace TableLexer

structure Decimal where
  digits : Nat
  exponent : Int
  deriving DecidableEq, Repr

namespace Double

/-- The number below a power of two is only half as far away as the one above it. -/
def narrowBelow (value : Double) : Bool :=
  decide (value.mantissa = hiddenBit ∧ minExponent < value.exponent)

def readsBack (value : Double) (unit denominator digits : Nat) : Bool :=
  let point := 4 * digits * denominator
  let low := (if value.narrowBelow then 4 * value.mantissa - 1 else 4 * value.mantissa - 2) * unit
  let high := (4 * value.mantissa + 2) * unit
  if value.mantissa % 2 = 0 then decide (low ≤ point ∧ point ≤ high)
  else decide (low < point ∧ point < high)

def onGrid? (value : Double) (grid : Int) : Option Nat :=
  let unit := Nat.pow 2 value.exponent.toNat * Nat.pow 10 (-grid).toNat
  let denominator := Nat.pow 2 (-value.exponent).toNat * Nat.pow 10 grid.toNat
  let below := value.mantissa * unit / denominator
  let reads := value.readsBack unit denominator
  match reads below, reads (below + 1) with
  | true, true => some (roundDiv (value.mantissa * unit) denominator)
  | true, false => some below
  | false, true => some (below + 1)
  | false, false => none

def ceilingTen (value : Double) : Int :=
  let bits := (value.mantissa.log2 : Int) + 1 + value.exponent
  (bits * 30103).fdiv 100000 + 1

/-- As many grids as have a chance: a double needs at most seventeen digits. -/
def grids : Nat := 20

def Decimal.strip (digits : Nat) (exponent : Int) : Decimal :=
  if digits = 0 then { digits, exponent }
  else if digits % 10 = 0 then strip (digits / 10) (exponent + 1)
  else { digits, exponent }
termination_by digits
decreasing_by omega

def shortest (value : Double) : Decimal :=
  let ceiling := value.ceilingTen
  let found := (List.range grids).findSome? fun (count : Nat) =>
    let grid := ceiling - count
    (value.onGrid? grid).map fun digits => Decimal.strip digits grid
  found.getD { digits := 0, exponent := 0 }

def pointed (digits : List Char) (point : Nat) : List Char :=
  digits.take point ++ '.' :: digits.drop point

/-- Written with a point where the leading digit stands for at least a hundred-thousandth and less
than ten to the sixteenth, and otherwise with a signed exponent. -/
def text (value : Double) : String :=
  if value.mantissa = 0 then "0.0"
  else
    let decimal := value.shortest
    let digits := (toString decimal.digits).toList
    let point := (digits.length : Int) + decimal.exponent
    if 0 ≤ decimal.exponent ∧ point ≤ 16 then
      String.ofList (digits ++ List.replicate decimal.exponent.toNat '0') ++ ".0"
    else if 0 < point ∧ point ≤ 16 then String.ofList (pointed digits point.toNat)
    else if -5 < point ∧ point ≤ 0 then
      "0." ++ String.ofList (List.replicate (-point).toNat '0' ++ digits)
    else
      let leading := if digits.length = 1 then digits else pointed digits 1
      String.ofList leading ++ (if point < 0 then "e" else "e+") ++ toString (point - 1)

end Double

end TableLexer
