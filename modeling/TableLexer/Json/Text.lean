import TableLexer.Json.Number

/-! Reading strings. Escapes name UTF-16 units, so a character beyond the first plane takes a pair
of them; half a pair is a flaw, and so are bytes that are not UTF-8. -/

set_option autoImplicit false

namespace TableLexer.Json.Reader

def hexValue? (byte : UInt8) : Option Nat :=
  let char := Char.ofUInt8 byte
  if char.isDigit then some (digitValue byte)
  else if 'a' ≤ char ∧ char ≤ 'f' then some (10 + (char.toNat - 'a'.toNat))
  else if 'A' ≤ char ∧ char ≤ 'F' then some (10 + (char.toNat - 'A'.toNat))
  else none

def hexNumber? (digits : List UInt8) : Option Nat :=
  digits.foldlM (fun value digit => return value * 16 + (← hexValue? digit)) 0

def unit : Reader Nat := do
  let cursor ← get
  set { rest := cursor.rest.drop 4, left := cursor.left - 4 : Cursor }
  if cursor.left < 4 then fail .endInText
  else match hexNumber? (cursor.rest.take 4) with
    | some unit => return unit
    | none => fail .badEscape

def isHighSurrogate (unit : Nat) : Bool :=
  decide (0xD800 ≤ unit ∧ unit < 0xDC00)

def isLowSurrogate (unit : Nat) : Bool :=
  decide (0xDC00 ≤ unit ∧ unit < 0xE000)

def pairMark (mark : Char) : Reader Unit := do
  match ← next? with
  | none => fail .endInText
  | some byte => if Char.ofUInt8 byte = mark then return () else fail .unpairedSurrogate

/-- Reads the character of one or two units. -/
def escapedChar : Reader Char := do
  let high ← unit
  if isLowSurrogate high then fail .loneSurrogate
  else if isHighSurrogate high then do
    pairMark '\\'
    pairMark 'u'
    let low ← unit
    if isLowSurrogate low then
      return Char.ofNat (0x10000 + (high - 0xD800) * 0x400 + (low - 0xDC00))
    else fail .loneSurrogate
  else return Char.ofNat high

def escaped? (byte : UInt8) : Option UInt8 :=
  match Char.ofUInt8 byte with
  | '"' | '\\' | '/' => some byte
  | 'b' => some 8
  | 'f' => some 12
  | 'n' => some 10
  | 'r' => some 13
  | 't' => some 9
  | _ => none

def escapeSequence : Reader (List UInt8) := do
  match ← next? with
  | none => fail .endInText
  | some byte =>
    if Char.ofUInt8 byte = 'u' then return String.utf8EncodeChar (← escapedChar)
    else match escaped? byte with
      | some byte => return [byte]
      | none => fail .badEscape

def textStep (done : Array UInt8) : Reader (Array UInt8 ⊕ Array UInt8) := do
  match ← next? with
  | none => fail .endInText
  | some byte =>
    match Char.ofUInt8 byte with
    | '"' => return .inr done
    | '\\' => return .inl (done ++ (← escapeSequence))
    | _ => if byte < 32 then fail .controlCharacter else return .inl (done.push byte)

/-- Reads a string after its opening quote. A flaw in its UTF-8 is placed as many bytes back as the
decoded string goes on from there. -/
def text : Reader String := do
  let bytes := (← repeatUntil textStep #[]).toList
  match Utf8.decode? bytes with
  | some chars => return String.ofList chars
  | none => failBack (bytes.length - Utf8.validLength bytes) .notUtf8

end TableLexer.Json.Reader
