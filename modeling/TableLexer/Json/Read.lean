import TableLexer.Json.Text

/-! Reading values. A container is read by a reader for its items, so that a caller who knows what
they are needs no document in between. -/

set_option autoImplicit false

namespace TableLexer.Json.Reader

variable {α : Type}

def word : List Char → Reader Unit
  | [] => return ()
  | char :: rest => do
    match ← next? with
    | none => fail .endInValue
    | some byte => if Char.ofUInt8 byte = char then word rest else fail .badWord

/-- Reads all of a scalar; of a container nothing is taken. -/
def head : Reader Head := do
  match ← peekToken? with
  | none => failAhead .endInValue
  | some 'n' => do skip; word ['u', 'l', 'l']; return .null
  | some 't' => do skip; word ['r', 'u', 'e']; return .bool true
  | some 'f' => do skip; word ['a', 'l', 's', 'e']; return .bool false
  | some '-' => do skip; return .number (← number true)
  | some '"' => do skip; return .text (← text)
  | some '[' => return .array
  | some '{' => return .object
  | some char => if char.isDigit then return .number (← number false) else failAhead .noValue

/-- Whether an array goes on. The comma before an item that is not its first is taken. -/
def anotherItem (isFirst : Bool) : Reader Bool := do
  match ← peekToken?, isFirst with
  | none, _ => failAhead .endInArray
  | some ']', _ => return false
  | some _, true => return true
  | some ',', false => do
    skip
    match ← peekToken? with
    | none => failAhead .endInValue
    | some ']' => failAhead .trailingComma
    | some _ => return true
  | some _, false => failAhead (.noComma ']')

def array (item : Reader α) : Reader (Array α) := do
  skip
  let items ← repeatUntil (fun (items : Array α) => do
    if ← anotherItem items.isEmpty then return .inl (items.push (← item))
    else return .inr items) #[]
  skip
  return items

def anotherKey (isFirst : Bool) : Reader Bool := do
  match ← peekToken?, isFirst with
  | none, _ => failAhead .endInObject
  | some '}', _ => return false
  | some '"', true => return true
  | some _, true => failAhead .keyNotText
  | some ',', false => do
    skip
    match ← peekToken? with
    | none => failAhead .endInValue
    | some '"' => return true
    | some '}' => failAhead .trailingComma
    | some _ => failAhead .keyNotText
  | some _, false => failAhead (.noComma '}')

def colon : Reader Unit := do
  match ← peekToken? with
  | none => failAhead .endInObject
  | some ':' => skip
  | some _ => failAhead .noColon

def object (value : Reader α) : Reader (Array (String × α)) := do
  skip
  let members ← repeatUntil (fun (members : Array (String × α)) => do
    if ← anotherKey members.isEmpty then
      skip
      let key ← text
      colon
      return .inl (members.push (key, ← value))
    else return .inr members) #[]
  skip
  return members

/-- Reads a value with a reader for the values inside it. Without one it may not be a container. -/
def valueWith (inner? : Option (Reader Json)) : Reader Json := do
  match ← head, inner? with
  | .null, _ => return .null
  | .bool value, _ => return .bool value
  | .number value, _ => return .number value
  | .text value, _ => return .text value
  | .array, none => failAhead .tooDeep
  | .object, none => failAhead .tooDeep
  | .array, some inner => return .array (← array inner).toList
  | .object, some inner => return .object (← object inner).toList

def value : (depth : Nat) → Reader Json
  | 0 => valueWith none
  | depth + 1 => valueWith (some (value depth))

def finish : Reader Unit := do
  if (← peekToken?).isSome then failAhead .trailingText else return ()

end TableLexer.Json.Reader
