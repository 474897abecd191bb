import TableLexer.Json.Value
import TableLexer.Text.Quoted

/-! What can be wrong with JSON text, where, and the one wording of each flaw. Besides flaws of the
text there are those of a document that is not what its reader asked for. -/

set_option autoImplicit false

namespace TableLexer.Json

/-- What a value begins with: all of a scalar, and of a container only its kind. -/
inductive Head where
  | null
  | bool (value : Bool)
  | number (value : Number)
  | text (value : String)
  | array
  | object
  deriving DecidableEq, Repr

def head : Json → Head
  | .null => .null
  | .bool value => .bool value
  | .number value => .number value
  | .text value => .text value
  | .array _ => .array
  | .object _ => .object

def Head.description : Head → String
  | .null => "null"
  | .bool true => "boolean `true`"
  | .bool false => "boolean `false`"
  | .number (.integer value) => "integer `" ++ toString value ++ "`"
  | .number value => "floating point `" ++ value.text ++ "`"
  | .text value => "string " ++ Quoted.quote value.toList
  | .array => "sequence"
  | .object => "map"

inductive Flaw where
  | endInValue
  | endInText
  | endInArray
  | endInObject
  | noValue
  | badWord
  | badNumber
  | numberTooLarge
  | badEscape
  | loneSurrogate
  | unpairedSurrogate
  | controlCharacter
  | notUtf8
  | noColon
  | noComma (closing : Char)
  | trailingComma
  | keyNotText
  | tooDeep
  | trailingText
  | wrongType (found : Head) (expected : String)
  | wrongValue (found : Int) (expected : String)
  | wrongLength (found : Nat) (expected : String)
  | missingKey (key : String)
  | repeatedKey (key : String)
  deriving DecidableEq, Repr

def Flaw.message : Flaw → String
  | .endInValue => "EOF while parsing a value"
  | .endInText => "EOF while parsing a string"
  | .endInArray => "EOF while parsing a list"
  | .endInObject => "EOF while parsing an object"
  | .noValue => "expected value"
  | .badWord => "expected ident"
  | .badNumber => "invalid number"
  | .numberTooLarge => "number out of range"
  | .badEscape => "invalid escape"
  | .loneSurrogate => "lone leading surrogate in hex escape"
  | .unpairedSurrogate => "unexpected end of hex escape"
  | .controlCharacter =>
    "control character (\\u0000-\\u001F) found while parsing a string"
  | .notUtf8 => "invalid unicode code point"
  | .noColon => "expected `:`"
  | .noComma closing => "expected `,` or `" ++ closing.toString ++ "`"
  | .trailingComma => "trailing comma"
  | .keyNotText => "key must be a string"
  | .tooDeep => "recursion limit exceeded"
  | .trailingText => "trailing characters"
  | .wrongType found expected =>
    "invalid type: " ++ found.description ++ ", expected " ++ expected
  | .wrongValue found expected =>
    "invalid value: integer `" ++ toString found ++ "`, expected " ++ expected
  | .wrongLength found expected =>
    "invalid length " ++ toString found ++ ", expected " ++ expected
  | .missingKey key => "missing field `" ++ key ++ "`"
  | .repeatedKey key => "duplicate field `" ++ key ++ "`"

/-- A flaw and how much of the text leads up to it: full lines, and bytes on the line after. -/
structure Error where
  flaw : Flaw
  lines : Nat
  column : Nat
  deriving DecidableEq, Repr

def Error.behind (flaw : Flaw) (bytes : List UInt8) : Error :=
  let isLineEnd (byte : UInt8) : Bool := Char.ofUInt8 byte = '\n'
  { flaw, lines := bytes.countP isLineEnd,
    column := (bytes.reverse.takeWhile fun byte => !isLineEnd byte).length }

def Error.message (error : Error) : String :=
  error.flaw.message ++ " at line " ++ toString (error.lines + 1) ++ " column " ++
    toString error.column

end TableLexer.Json
