import TableLexer.Files.Tree
import TableLexer.Tables.Binary
import TableLexer.Tables.Document

/-! Tables in files. A file named with the extension `json` is read as JSON and any other as the
binary format. -/

set_option autoImplicit false

namespace TableLexer

inductive LoadError where
  | unreadable (error : FileError)
  | notJson (error : Json.Error)
  | refused (error : TableError)
  deriving DecidableEq, Repr

def LoadError.message : LoadError → String
  | .unreadable error => error.message
  | .notJson error => "failed to parse tables JSON: " ++ error.message
  | .refused error => error.message

/-- What lies behind the error, for errors that are not their own cause. -/
def LoadError.cause? : LoadError → Option String
  | .notJson error => some error.message
  | .unreadable _ | .refused _ => none

def Tables.ofBinary (bytes : List UInt8) : Except LoadError Tables :=
  (Binary.read bytes).mapError .refused

/-- Tables in JSON text; they are validated only after all of it is read. -/
def Tables.ofJson (bytes : List UInt8) : Except LoadError Tables :=
  match Document.read bytes with
  | .ok (parts, captures) => (Tables.ofParts parts captures).mapError .refused
  | .error error => .error (.notJson error)

def Tables.ofFile (path : String) (content : Except FileError (List UInt8)) :
    Except LoadError Tables := do
  let bytes ← content.mapError .unreadable
  if Path.extension? path = some "json" then Tables.ofJson bytes else Tables.ofBinary bytes

end TableLexer
