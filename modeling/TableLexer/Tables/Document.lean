import TableLexer.Json.Skip
import TableLexer.Tables.Validation

/-! The JSON form of tables: one object with an array of integers for each recognition field and,
when there are captures, an object of the capture fields. Readers compare keys by the text they
stand for, take no known key twice, and pass over unknown keys. The recognition fields are looked
at when the whole object has been read, the captures as they are read. -/

set_option autoImplicit false

namespace TableLexer.Document

open Json Json.Reader

def capturesKey : String := "captures"

def ofEntries (entries : Array Int16) : Json :=
  .array (entries.toList.map fun entry => .ofInt entry.toInt)

def ofBytes (bytes : List UInt8) : Json :=
  .array (bytes.map fun byte => .ofInt byte.toNat)

def member (entry : Field × Array Int16) : String × Json :=
  (entry.1.name, ofEntries entry.2)

def ofCaptures (parts : CaptureParts) : Json :=
  .object (parts.toCaptureFields.toList.map member ++ [(Field.code.name, ofBytes parts.code)])

def ofTables (tables : Tables) : Json :=
  .object (tables.parts.toList.map member
    ++ match tables.captures with
      | some captures => [(capturesKey, ofCaptures captures.parts)]
      | none => [])

def write (tables : Tables) : List UInt8 :=
  (ofTables tables).write

structure IntegerType where
  low : Int
  high : Int
  name : String

def entryType : IntegerType :=
  { low := -32768, high := 32767, name := "i16" }

def byteType : IntegerType :=
  { low := 0, high := 255, name := "u8" }

def integerType : Field → IntegerType
  | .code => byteType
  | _ => entryType

def integerOf (type : IntegerType) : Head → Except Flaw Int
  | .number (.integer value) =>
    if type.low ≤ value ∧ value ≤ type.high then .ok value
    else .error (.wrongValue value type.name)
  | other => .error (.wrongType other type.name)

def arrayName : String := "a sequence"

def integersOf (type : IntegerType) : Json → Except Flaw (Array Int)
  | .array items => do return (← items.mapM fun item => integerOf type item.head).toArray
  | other => .error (.wrongType other.head arrayName)

def readIntegers (type : IntegerType) : Reader (Array Int) := do
  match ← head with
  | .array => array do orStop (integerOf type (← head))
  | other => fail (.wrongType other arrayName)

/-- The fields of an object that were found, latest first. -/
abbrev Found := List (Field × Array Int)

/-- The field of a key, and the flaw of finding it again. -/
def Found.field? (found : Found) (fields : List Field) (key : String) :
    Except Flaw (Option Field) :=
  match fields.find? fun field => field.name = key with
  | none => .ok none
  | some field =>
    if (found.lookup field).isSome then .error (.repeatedKey key) else .ok (some field)

def Found.entries (found : Found) (field : Field) : Except Flaw (Array Int16) :=
  match found.lookup field with
  | some integers => .ok (integers.map Int16.ofInt)
  | none => .error (.missingKey field.name)

def Found.bytes (found : Found) (field : Field) : Except Flaw (List UInt8) :=
  match found.lookup field with
  | some integers => .ok (integers.toList.map fun n => UInt8.ofNat n.toNat)
  | none => .error (.missingKey field.name)

def plainFields : PlainFields Unit := ⟨(), (), (), (), ()⟩

def captureFields : CaptureFields Unit := ⟨(), (), (), (), ()⟩

def plainFieldList : List Field :=
  plainFields.toList.map Prod.fst

def captureFieldList : List Field :=
  captureFields.toList.map Prod.fst ++ [.code]

def Found.plainParts (found : Found) : Except Flaw PlainParts :=
  plainFields.traverse fun field _ => found.entries field

def Found.captureParts (found : Found) : Except Flaw CaptureParts := do
  let fields ← captureFields.traverse fun field _ => found.entries field
  return { toCaptureFields := fields, code := ← found.bytes .code }

def plainParts (members : List (String × Json)) : Except Flaw PlainParts := do
  let found ← members.foldlM (fun (found : Found) (key, value) => do
    match ← found.field? plainFieldList key with
    | none => return found
    | some field => return (field, ← integersOf (integerType field) value) :: found) []
  found.plainParts

/-- Refuses an object behind one of its keys. Its end, if it comes next, is taken. -/
def refuseKey {α : Type} (flaw : Flaw) : Reader α := do
  if (← peekToken?) = some '}' then skip
  fail flaw

def capturesName : String := "struct CaptureParts"

def readCaptureArray (count : Nat) (found : Found) : List Field → Reader CaptureParts
  | [] => do
    match ← peekToken? with
    | none => failAhead .endInArray
    | some ']' => do skip; orStop found.captureParts
    | some ',' => do
      skip
      match ← peekToken? with
      | some ']' => failAhead .trailingComma
      | _ => failAhead .trailingText
    | some _ => failAhead .trailingText
  | field :: fields => do
    if ← anotherItem (count = 0) then
      let integers ← readIntegers (integerType field)
      readCaptureArray (count + 1) ((field, integers) :: found) fields
    else do
      skip
      fail (.wrongLength count (capturesName ++ " with 6 elements"))

def captureStep (isFirst : Bool) (found : Found) : Reader ((Bool × Found) ⊕ CaptureParts) := do
  if ← anotherKey isFirst then
    skip
    let key ← text
    match found.field? captureFieldList key with
    | .error flaw => refuseKey flaw
    | .ok none => do
      colon
      pass
      return .inl (false, found)
    | .ok (some field) => do
      colon
      let integers ← readIntegers (integerType field)
      return .inl (false, (field, integers) :: found)
  else
    skip
    return .inr (← orStop found.captureParts)

/-- Reads capture parts, as an object or as an array of its fields; null stands for none. -/
def readCaptures : Reader (Option CaptureParts) := do
  match ← head with
  | .null => return none
  | .array => do
    skip
    return some (← readCaptureArray 0 [] captureFieldList)
  | .object => do
    skip
    return some (← repeatUntil (fun (isFirst, found) => captureStep isFirst found) (true, []))
  | other => fail (.wrongType other capturesName)

/-- How deep containers may nest inside the value of an unknown key. -/
def maxDepth : Nat := 126

/-- The members of a document that were read: those but the captures in order, and the captures. -/
structure Members where
  isFirst : Bool
  others : Array (String × Json)
  captures : Option (Option CaptureParts)

def Members.none : Members :=
  { isFirst := true, others := #[], captures := Option.none }

def documentStep (members : Members) :
    Reader (Members ⊕ (PlainParts × Option CaptureParts)) := do
  if ← anotherKey members.isFirst then
    skip
    let key ← text
    if key ≠ capturesKey then
      colon
      let held ← value maxDepth
      return .inl { members with isFirst := false, others := members.others.push (key, held) }
    else if members.captures.isSome then refuseKey (.repeatedKey key)
    else
      colon
      return .inl { members with isFirst := false, captures := some (← readCaptures) }
  else
    skip
    let parts ← orStop (plainParts members.others.toList)
    return .inr (parts, members.captures.join)

def readDocument : Reader (PlainParts × Option CaptureParts) := do
  match ← head with
  | .object => do
    skip
    repeatUntil documentStep Members.none
  | other => fail (.wrongType other "struct TablesDisk")

def read (bytes : List UInt8) : Except Json.Error (PlainParts × Option CaptureParts) :=
  Reader.run (do
    let parts ← readDocument
    finish
    return parts) bytes

end TableLexer.Document
