/-! UTF-8 decoding, one byte at a time. The well-formed bytes become characters, and each maximal
ill-formed prefix of a sequence becomes one gap. -/

set_option autoImplicit false

namespace TableLexer.Utf8

/-- A sequence under way: how many bytes it still owes, the bounds of the next one, and the bits
read so far. -/
structure Partial where
  owed : Nat
  low : Nat
  high : Nat
  value : Nat

structure State where
  units : Array (Option Char)
  open? : Option Partial

def begin (units : Array (Option Char)) (byte : Nat) : State :=
  if byte < 0x80 then ⟨units.push (some (Char.ofNat byte)), none⟩
  else if byte < 0xC2 then ⟨units.push none, none⟩
  else if byte < 0xE0 then ⟨units, some ⟨1, 0x80, 0xBF, byte - 0xC0⟩⟩
  else if byte = 0xE0 then ⟨units, some ⟨2, 0xA0, 0xBF, 0⟩⟩
  else if byte = 0xED then ⟨units, some ⟨2, 0x80, 0x9F, 0xD⟩⟩
  else if byte < 0xF0 then ⟨units, some ⟨2, 0x80, 0xBF, byte - 0xE0⟩⟩
  else if byte = 0xF0 then ⟨units, some ⟨3, 0x90, 0xBF, 0⟩⟩
  else if byte < 0xF4 then ⟨units, some ⟨3, 0x80, 0xBF, byte - 0xF0⟩⟩
  else if byte = 0xF4 then ⟨units, some ⟨3, 0x80, 0x8F, 4⟩⟩
  else ⟨units.push none, none⟩

/-- A byte that does not continue the sequence under way leaves a gap and begins anew. -/
def step (state : State) (byte : UInt8) : State :=
  match state.open? with
  | none => begin state.units byte.toNat
  | some { owed, low, high, value } =>
    if low ≤ byte.toNat ∧ byte.toNat ≤ high then
      let value := value * 64 + (byte.toNat - 0x80)
      if owed = 1 then ⟨state.units.push (some (Char.ofNat value)), none⟩
      else ⟨state.units, some ⟨owed - 1, 0x80, 0xBF, value⟩⟩
    else begin (state.units.push none) byte.toNat

def State.close (state : State) : Array (Option Char) :=
  match state.open? with
  | none => state.units
  | some _ => state.units.push none

def units (bytes : List UInt8) : Array (Option Char) :=
  (bytes.foldl step ⟨#[], none⟩).close

def decode? (bytes : List UInt8) : Option (List Char) :=
  (units bytes).toList.mapM id

def validLength (bytes : List UInt8) : Nat :=
  ((units bytes).toList.takeWhile Option.isSome).foldl
    (fun length unit => length + unit.elim 0 Char.utf8Size) 0

def replacement : Char :=
  Char.ofNat 0xFFFD

def decodeLossy (bytes : List UInt8) : List Char :=
  (units bytes).toList.map fun unit => unit.getD replacement

def encode (text : String) : List UInt8 :=
  text.toUTF8.toList

end TableLexer.Utf8
