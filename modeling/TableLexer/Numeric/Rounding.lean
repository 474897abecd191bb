/-! Quotients of natural numbers, rounded to the nearest one. -/

set_option autoImplicit false

namespace TableLexer

/-- The natural number nearest to a quotient; a tie goes to the even neighbour. -/
def roundDiv (numerator denominator : Nat) : Nat :=
  let quotient := numerator / denominator
  let twice := 2 * (numerator % denominator)
  if denominator < twice ∨ denominator = twice ∧ quotient % 2 = 1 then quotient + 1
  else quotient

theorem roundDiv_near (numerator denominator : Nat) (positive : 0 < denominator) :
    2 * (denominator * roundDiv numerator denominator) ≤ 2 * numerator + denominator ∧
      2 * numerator ≤ 2 * (denominator * roundDiv numerator denominator) + denominator := by
  have parts := Nat.div_add_mod numerator denominator
  have below := Nat.mod_lt numerator positive
  simp only [roundDiv]
  split
  · rw [Nat.mul_succ]
    omega
  · omega

end TableLexer
