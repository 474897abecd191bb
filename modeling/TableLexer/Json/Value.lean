import TableLexer.Numeric.Shortest
import TableLexer.Text.Utf8

/-! JSON documents and their compact spelling. Integers of 64 bits are exact, and all other numbers
are double-precision numbers. -/

set_option autoImplicit false

namespace TableLexer

inductive Number where
  | integer (value : Int)
  | double (negative : Bool) (size : Double)
  deriving DecidableEq, Repr

def Number.text : Number → String
  | .integer value => toString value
  | .double negative size => (if negative then "-" else "") ++ size.text

inductive Json where
  | null
  | bool (value : Bool)
  | number (value : Number)
  | text (value : String)
  | array (items : List Json)
  | object (members : List (String × Json))

namespace Json

def ofInt (value : Int) : Json :=
  .number (.integer value)

def escape (char : Char) : List Char :=
  match char with
  | '"' => ['\\', '"']
  | '\\' => ['\\', '\\']
  | '\n' => ['\\', 'n']
  | '\r' => ['\\', 'r']
  | '\t' => ['\\', 't']
  | char =>
    if char.toNat = 8 then ['\\', 'b']
    else if char.toNat = 12 then ['\\', 'f']
    else if char.toNat < 16 then ['\\', 'u', '0', '0', '0'] ++ Nat.toDigits 16 char.toNat
    else if char.toNat < 32 then ['\\', 'u', '0', '0'] ++ Nat.toDigits 16 char.toNat
    else [char]

def spellText (text : String) : String :=
  String.ofList ('"' :: text.toList.flatMap escape ++ ['"'])

mutual

def writeAfter (out : String) : Json → String
  | .null => out ++ "null"
  | .bool true => out ++ "true"
  | .bool false => out ++ "false"
  | .number value => out ++ value.text
  | .text value => out ++ spellText value
  | .array [] => out ++ "[]"
  | .array (item :: items) => writeItemsAfter (writeAfter (out ++ "[") item) items ++ "]"
  | .object [] => out ++ "\x7b\x7d"
  | .object ((key, value) :: members) =>
    writeMembersAfter (writeAfter (out ++ "\x7b" ++ spellText key ++ ":") value) members ++ "\x7d"

def writeItemsAfter (out : String) : List Json → String
  | [] => out
  | item :: items => writeItemsAfter (writeAfter (out ++ ",") item) items

def writeMembersAfter (out : String) : List (String × Json) → String
  | [] => out
  | (key, value) :: members =>
    writeMembersAfter (writeAfter (out ++ "," ++ spellText key ++ ":") value) members

end

def write (json : Json) : List UInt8 :=
  Utf8.encode (writeAfter "" json)

end Json

end TableLexer
