import TableLexer.Json.Reader

/-! Reading numbers. A number that is spelled without fraction and exponent and fits 64 bits is an
integer. Any other is a significand of at most 64 bits times a power of ten: digits of the integer
part that do not fit raise the power, and such digits of the fraction are dropped. -/

set_option autoImplicit false

namespace TableLexer.Json.Reader

def isDigit (byte : UInt8) : Bool :=
  (Char.ofUInt8 byte).isDigit

def digitValue (byte : UInt8) : Nat :=
  byte.toNat - '0'.toNat

/-- Takes digits into the significand until one would carry it past 64 bits, and counts those that
are left. -/
def absorb (significand : Nat) : List UInt8 → Nat × Nat
  | [] => (significand, 0)
  | digit :: rest =>
    let next := significand * 10 + digitValue digit
    if next < UInt64.size then absorb next rest else (significand, rest.length + 1)

def exponentBound : Nat := 2147483648

def exponentOrCount (value count : Nat) : List UInt8 → Nat ⊕ Nat
  | [] => .inl value
  | digit :: rest =>
    let next := value * 10 + digitValue digit
    if next < exponentBound then exponentOrCount next (count + 1) rest else .inr (count + 1)

/-- Reads an exponent after its mark. One that is out of bounds is no flaw when the number is zero
or next to zero. -/
def exponent (significand : Nat) : Reader Int := do
  let negative ← do
    match ← peek? with
    | some '+' => do skip; pure false
    | some '-' => do skip; pure true
    | _ => pure false
  match (← get).rest.head? with
  | none => fail .endInValue
  | some first =>
    if !isDigit first then failAhead .badNumber
    else
      match exponentOrCount 0 0 ((← get).rest.takeWhile isDigit) with
      | .inl value =>
        let _ ← takeWhile isDigit
        return if negative then -value else value
      | .inr count =>
        if significand = 0 ∨ negative then
          let _ ← takeWhile isDigit
          return -exponentBound
        else failAfter count .numberTooLarge

def scaled (negative : Bool) (significand : Nat) (exponent : Int) : Reader Number := do
  let size := Double.ofNat significand
  if exponent < 0 then return .double negative (size.divTen exponent.natAbs)
  else match size.mulTen? exponent.toNat with
    | some size => return .double negative size
    | none => fail .numberTooLarge

def exponentPart (negative : Bool) (significand : Nat) (power : Int) : Reader Number := do
  match ← peek? with
  | some 'e' | some 'E' => do
    skip
    scaled negative significand (power + (← exponent significand))
  | _ => scaled negative significand power

def signedLimit : Nat := 9223372036854775808

/-- The number of an integer spelling. Zero with a sign is a double, and so is what lies below the
signed integers of 64 bits. -/
def whole (negative : Bool) (significand : Nat) : Number :=
  if !negative then .integer significand
  else if significand = 0 ∨ signedLimit < significand then .double true (.ofNat significand)
  else .integer (-significand)

/-- Reads what follows the digits of the integer part, of which `above` did not fit. -/
def afterInteger (negative : Bool) (significand above : Nat) : Reader Number := do
  match ← peek? with
  | some '.' => do
    skip
    let digits ← takeWhile isDigit
    if digits.isEmpty then
      failAhead (if (← peek?).isSome then .badNumber else .endInValue)
    else
      let (significand, dropped) := absorb significand digits
      exponentPart negative significand ((above : Int) - (digits.length - dropped : Nat))
  | some 'e' | some 'E' => exponentPart negative significand above
  | _ => if above = 0 then return whole negative significand
         else scaled negative significand above

def number (negative : Bool) : Reader Number := do
  match ← next? with
  | none => fail .endInValue
  | some first =>
    if !isDigit first then fail .badNumber
    else if digitValue first = 0 then
      if (← peek?).any Char.isDigit then failAhead .badNumber else afterInteger negative 0 0
    else
      let (significand, above) := absorb 0 (first :: (← takeWhile isDigit))
      afterInteger negative significand above

end TableLexer.Json.Reader
