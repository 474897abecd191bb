import TableLexer.Numeric.Rounding

/-! Non-negative double-precision numbers as exact values: a mantissa below `2 ^ 53` times a power
of two. Each operation takes the exact result and rounds it once. Powers have no upper bound here,
so a result too large for the format is a number that is not finite. -/

set_option autoImplicit false

namespace TableLexer

/-- The number `mantissa * 2 ^ exponent`. -/
structure Double where
  mantissa : Nat
  exponent : Int
  deriving DecidableEq, Repr

namespace Double

/-- The mantissa of powers of two, which is the least but for the smallest exponent. -/
def hiddenBit : Nat := 4503599627370496

def minExponent : Int := -1074

def maxExponent : Int := 971

def finite (value : Double) : Bool :=
  decide (value.exponent ≤ maxExponent)

def zero : Double :=
  { mantissa := 0, exponent := minExponent }

def log2Quotient (numerator denominator : Nat) : Int :=
  let guess := (numerator.log2 : Int) - denominator.log2
  if denominator <<< numerator.log2 ≤ numerator <<< denominator.log2 then guess
  else guess - 1

/-- The number nearest to `numerator / denominator * 2 ^ scale`; of two, the one with an even
mantissa. -/
def nearest (numerator denominator : Nat) (scale : Int) : Double :=
  if numerator = 0 then zero
  else
    let exponent := max minExponent (log2Quotient numerator denominator + scale - 52)
    let mantissa := roundDiv (numerator <<< (scale - exponent).toNat)
      (denominator <<< (exponent - scale).toNat)
    if mantissa = 2 * hiddenBit then { mantissa := hiddenBit, exponent := exponent + 1 }
    else { mantissa, exponent }

def ofNat (n : Nat) : Double :=
  nearest n 1 0

def mul (first second : Double) : Double :=
  nearest (first.mantissa * second.mantissa) 1 (first.exponent + second.exponent)

def div (first second : Double) : Double :=
  nearest first.mantissa second.mantissa (first.exponent - second.exponent)

def tenTo (power : Nat) : Double :=
  ofNat (Nat.pow 10 power)

def maxTen : Nat := 308

def divTen (value : Double) (power : Nat) : Double :=
  if value.mantissa = 0 then zero
  else if power ≤ maxTen then value.div (tenTo power)
  else (value.div (tenTo maxTen)).divTen (power - maxTen)
termination_by power
decreasing_by simp only [maxTen] at *; omega

def mulTen? (value : Double) (power : Nat) : Option Double :=
  if value.mantissa = 0 then some zero
  else if maxTen < power then none
  else
    let product := value.mul (tenTo power)
    if product.finite then some product else none

end Double

end TableLexer
