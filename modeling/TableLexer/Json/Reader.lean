import TableLexer.Json.Flaw

/-! Readers of JSON text take bytes from the front of what is left. A flaw is reported behind the
bytes read so far, or behind one byte more where that byte is what does not fit. -/

set_option autoImplicit false

namespace TableLexer.Json

structure Cursor where
  rest : List UInt8
  left : Nat

/-- A flaw and how many bytes were left behind it. -/
structure Stop where
  flaw : Flaw
  left : Nat

abbrev Reader := StateT Cursor (Except Stop)

namespace Reader

variable {α σ : Type}

def run (reader : Reader α) (bytes : List UInt8) : Except Error α :=
  match reader { rest := bytes, left := bytes.length } with
  | .ok (value, _) => .ok value
  | .error stop => .error (Error.behind stop.flaw (bytes.take (bytes.length - stop.left)))

def fail (flaw : Flaw) : Reader α := fun cursor =>
  .error { flaw, left := cursor.left }

def failAhead (flaw : Flaw) : Reader α := fun cursor =>
  .error { flaw, left := cursor.left - 1 }

def failAfter (count : Nat) (flaw : Flaw) : Reader α := fun cursor =>
  .error { flaw, left := cursor.left - count }

def failBack (count : Nat) (flaw : Flaw) : Reader α := fun cursor =>
  .error { flaw, left := cursor.left + count }

def orStop (result : Except Flaw α) : Reader α :=
  match result with
  | .ok value => return value
  | .error flaw => fail flaw

/-- The next byte, which stays; a byte is matched as the character that it is in ASCII. -/
def peek? : Reader (Option Char) := do
  return (← get).rest.head?.map Char.ofUInt8

def skip : Reader Unit :=
  modify fun cursor => { rest := cursor.rest.tail, left := cursor.left - 1 }

def next? : Reader (Option UInt8) := do
  let cursor ← get
  skip
  return cursor.rest.head?

def takeWhile (belongs : UInt8 → Bool) : Reader (List UInt8) := do
  let cursor ← get
  let bytes := cursor.rest.takeWhile belongs
  set { rest := cursor.rest.dropWhile belongs, left := cursor.left - bytes.length : Cursor }
  return bytes

def isBlank (byte : UInt8) : Bool :=
  (Char.ofUInt8 byte).isWhitespace

def skipBlanks : Reader Unit := do
  let _ ← takeWhile isBlank

def peekToken? : Reader (Option Char) := do
  skipBlanks
  peek?

/-- Repeats a step until it has a result. Each step but the last takes a byte, so there are at most
`steps` of them. -/
def repeatWithin (step : σ → Reader (σ ⊕ α)) : (steps : Nat) → σ → Reader α
  | 0, _ => fail .noValue
  | steps + 1, state => do
    match ← step state with
    | .inl state => repeatWithin step steps state
    | .inr value => return value

def repeatUntil (step : σ → Reader (σ ⊕ α)) (state : σ) : Reader α := do
  repeatWithin step ((← get).left + 1) state

end Reader

end TableLexer.Json
