/-! Random draws. A generator draws numbers below a bound and decides by chance, and all else is
drawn with these two. The generator that takes its draws from a stream of 64-bit words uses one
word for a draw or, rarely, two, so what it draws is a function of the stream and the number of
words used before. -/

set_option autoImplicit false

namespace TableLexer

abbrev Draw (σ : Type) := StateM σ

structure Generator (σ : Type) where
  below : Nat → Draw σ Nat
  /-- True with a chance of so many in 2^64. -/
  chance : UInt64 → Draw σ Bool

section

variable {σ : Type}

namespace Generator

variable (generator : Generator σ)

def range (low high : Nat) : Draw σ Nat := do
  return low + (← generator.below (high - low + 1))

def oneOf (choices : List Char) : Draw σ Char := do
  return choices.getD (← generator.below choices.length) ' '

end Generator

def Draw.times {α : Type} (count : Nat) (draw : Draw σ α) : Draw σ (List α) :=
  match count with
  | 0 => return []
  | count + 1 => do
    let first ← draw
    let rest ← Draw.times count draw
    return first :: rest

end

structure RandomWords where
  word : Nat → UInt64
  used : Nat

namespace RandomWords

def word64 : Draw RandomWords UInt64 := do
  let words ← get
  set { words with used := words.used + 1 }
  return words.word words.used

def word32 : Draw RandomWords Nat := do
  return (← word64).toNat % UInt32.size

/-- A number below `size`, which is at most 2^32. The high half of a product with one word is the
draw; a second word decides only when the low half could carry. -/
def below (size : Nat) : Draw RandomWords Nat := do
  let product := (← word32) * size
  let high := product / UInt32.size
  let low := product % UInt32.size
  if UInt32.size - size < low then
    let carry := (← word32) * size / UInt32.size
    return if UInt32.size ≤ low + carry then high + 1 else high
  else return high

def chance (threshold : UInt64) : Draw RandomWords Bool := do
  return (← word64) < threshold

def generator : Generator RandomWords :=
  { below, chance }

/-- A stream that is the same for the same seed: a counter in steps of the golden ratio, mixed. -/
def seeded (seed : UInt64) : RandomWords where
  word index :=
    let z := seed + (UInt64.ofNat index + 1) * 0x9E3779B97F4A7C15
    let z := (z ^^^ (z >>> 30)) * 0xBF58476D1CE4E5B9
    let z := (z ^^^ (z >>> 27)) * 0x94D049BB133111EB
    z ^^^ (z >>> 31)
  used := 0

end RandomWords

end TableLexer
