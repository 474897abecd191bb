import TableLexer.Tables.Raw

/-! The binary file format of tables: eight magic bytes, five 32-bit lengths and flags, then the
fields one after another in declaration order. Bit 0 of the flags says that capture fields follow;
other bits, and bytes after the last field, mean nothing. -/

set_option autoImplicit false

namespace TableLexer.Binary

/-- The letters LXAUTO01. -/
def magic : List UInt8 := [76, 88, 65, 85, 84, 79, 48, 49]

structure Header where
  states : UInt32
  flags : UInt32
  transLength : UInt32
  codeTransLength : UInt32
  codeLength : UInt32
  deriving DecidableEq, Repr

def Header.hasCaptures (header : Header) : Bool :=
  header.flags &&& 1 != 0

def Header.bytes (header : Header) : List UInt8 :=
  Words.ofUInt32 header.states ++ Words.ofUInt32 header.flags ++
    Words.ofUInt32 header.transLength ++ Words.ofUInt32 header.codeTransLength ++
    Words.ofUInt32 header.codeLength

def lengthWord (field : Field) (length : Nat) : Except TableError UInt32 :=
  if length < UInt32.size then .ok (UInt32.ofNat length) else .error (.overflow field)

def Header.ofTables (tables : Tables) : Except TableError Header := do
  let captures := tables.captures.map CaptureTables.parts
  let states ← lengthWord .base tables.parts.base.size
  let transLength ← lengthWord .trans tables.parts.trans.size
  let codeTransLength ← lengthWord .transCode (captures.elim 0 fun parts => parts.transCode.size)
  let codeLength ← lengthWord .code (captures.elim 0 fun parts => parts.code.length)
  let flags := if captures.isSome then 1 else 0
  return { states, flags, transLength, codeTransLength, codeLength }

def plainBytes (parts : PlainParts) : List UInt8 :=
  parts.toList.flatMap fun (_, entries) => Words.encode entries

def captureBytes (parts : CaptureParts) : List UInt8 :=
  parts.toCaptureFields.toList.flatMap (fun (_, entries) => Words.encode entries) ++ parts.code

def write (tables : Tables) : Except TableError (List UInt8) := do
  let header ← Header.ofTables tables
  let captures := tables.captures.elim [] fun captures => captureBytes captures.parts
  return magic ++ header.bytes ++ plainBytes tables.parts ++ captures

/-- Readers take bytes from the front of what is left. -/
abbrev Reader := StateT (List UInt8) (Except TableError)

def take (count : Nat) (expected : Section) : Reader (List UInt8) := fun bytes =>
  if bytes.length < count then .error (.truncated expected)
  else .ok (bytes.take count, bytes.drop count)

def takeWord : Reader UInt32 := do
  match ← take 4 .headerWord with
  | [a, b, c, d] => return Words.toUInt32 a b c d
  | _ => throw (.truncated .headerWord)

def takeHeader : Reader Header := do
  let states ← takeWord
  let flags ← takeWord
  let transLength ← takeWord
  let codeTransLength ← takeWord
  let codeLength ← takeWord
  return { states, flags, transLength, codeTransLength, codeLength }

def takeEntries (field : Field) (count : UInt32) : Reader (Array Int16) := do
  let bytes ← take (2 * count.toNat) (.field field)
  field.decode bytes

def Header.plainLengths (header : Header) : PlainFields UInt32 where
  base := header.states
  backtrack := header.states
  fallback := header.states
  trans := header.transLength
  check := header.transLength

def Header.captureLengths (header : Header) : CaptureFields UInt32 where
  baseCode := header.states
  backtrackCode := header.states
  fallbackCode := header.states
  transCode := header.codeTransLength
  checkCode := header.codeTransLength

def takeCaptures (header : Header) : Reader CaptureParts := do
  let fields ← header.captureLengths.traverse takeEntries
  let code ← take header.codeLength.toNat (.field .code)
  return { toCaptureFields := fields, code }

def takeParts : Reader (PlainParts × Option CaptureParts) := do
  if (← take 8 .magic) ≠ magic then throw .badMagic
  let header ← takeHeader
  let parts ← header.plainLengths.traverse takeEntries
  if header.hasCaptures then return (parts, some (← takeCaptures header))
  else return (parts, none)

def read (bytes : List UInt8) : Except TableError Tables := do
  let ((parts, captures), _) ← takeParts bytes
  Tables.ofParts parts captures

end TableLexer.Binary
