import TableLexer.Json.Read

/-! Passing over a value. Its text has to have the right form, but containers may nest to any depth,
numbers may have any size, and strings need not be text. -/

set_option autoImplicit false

namespace TableLexer.Json.Reader

inductive Container where
  | array
  | object
  deriving DecidableEq, Repr

def Container.closing : Container → Char
  | .array => ']'
  | .object => '}'

def Container.cutOff : Container → Flaw
  | .array => .endInArray
  | .object => .endInObject

/-- How far passing over a value has come, with the containers around, innermost first. -/
inductive Passing where
  | value (around : List Container)
  /-- Behind a value inside a container. -/
  | behind (inner : Container) (around : List Container)

def Passing.done : List Container → Passing ⊕ Unit
  | [] => .inr ()
  | inner :: around => .inl (.behind inner around)

def passExponent : Reader Unit := do
  match ← peek? with
  | some '+' | some '-' => skip
  | _ => pure ()
  match ← next? with
  | none => fail .badNumber
  | some first => if isDigit first then let _ ← takeWhile isDigit else fail .badNumber

def passExponentPart : Reader Unit := do
  match ← peek? with
  | some 'e' | some 'E' => do skip; passExponent
  | _ => return ()

/-- Passes over the integer part of a number; after a leading zero nothing may follow. -/
def passInteger : Reader Unit := do
  match ← next? with
  | none => fail .badNumber
  | some first =>
    if !isDigit first then fail .badNumber
    else if digitValue first ≠ 0 then let _ ← takeWhile isDigit
    else if (← peek?).any Char.isDigit then failAhead .badNumber
    else return ()

def passNumber : Reader Unit := do
  passInteger
  if (← peek?) = some '.' then
    skip
    if (← takeWhile isDigit).isEmpty then failAhead .badNumber
  passExponentPart

def passEscape : Reader Unit := do
  match ← next? with
  | none => fail .endInText
  | some byte =>
    if Char.ofUInt8 byte = 'u' then let _ ← unit
    else if (escaped? byte).isSome then return ()
    else fail .badEscape

def passText : Reader Unit :=
  repeatUntil (fun () => do
    match ← peek? with
    | none => fail .endInText
    | some '"' => do skip; return .inr ()
    | some '\\' => do skip; passEscape; return .inl ()
    | some char => if char.toNat < 32 then fail .controlCharacter else do skip; return .inl ()) ()

def passScalar : Option Char → Reader Unit
  | none => failAhead .endInValue
  | some 'n' => do skip; word ['u', 'l', 'l']
  | some 't' => do skip; word ['r', 'u', 'e']
  | some 'f' => do skip; word ['a', 'l', 's', 'e']
  | some '-' => do skip; passNumber
  | some '"' => do skip; passText
  | some char => if char.isDigit then passNumber else failAhead .noValue

def passKey : Container → Reader Unit
  | .array => return ()
  | .object => do
    match ← peekToken? with
    | none => failAhead .endInObject
    | some '"' => do skip; passText; colon
    | some _ => failAhead .keyNotText

def enter (inner : Container) (around : List Container) : Reader (Passing ⊕ Unit) := do
  skip
  match ← peekToken? with
  | none => failAhead inner.cutOff
  | some char =>
    if char = inner.closing then do skip; return Passing.done around
    else do passKey inner; return .inl (.value (inner :: around))

def passStep : Passing → Reader (Passing ⊕ Unit)
  | .value around => do
    match ← peekToken? with
    | some '[' => enter .array around
    | some '{' => enter .object around
    | char => do passScalar char; return Passing.done around
  | .behind inner around => do
    match ← peekToken? with
    | none => failAhead inner.cutOff
    | some char =>
      if char = ',' then do skip; passKey inner; return .inl (.value (inner :: around))
      else if char = inner.closing then do skip; return Passing.done around
      else failAhead (.noComma inner.closing)

def pass : Reader Unit :=
  repeatUntil passStep (.value [])

end TableLexer.Json.Reader
