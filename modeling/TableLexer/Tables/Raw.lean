import TableLexer.Bytes.Words
import TableLexer.Tables.Validation

/-! Tables whose fields are raw bytes, as a table compiler emits them. -/

set_option autoImplicit false

namespace TableLexer

structure RawCaptures extends CaptureFields (List UInt8) where
  code : List UInt8
  deriving DecidableEq, Repr

def Field.decode (field : Field) (bytes : List UInt8) : Except TableError (Array Int16) :=
  match Words.decode? bytes with
  | some entries => .ok entries
  | none => .error (.oddLength field bytes.length)

theorem Field.decode_eq_ok_iff {field : Field} {bytes : List UInt8} {entries : Array Int16} :
    field.decode bytes = .ok entries ↔ bytes = Words.encode entries := by
  rw [← Words.decode?_eq_some_iff, decode]
  cases Words.decode? bytes <;> simp

/-- Decodes every field before any validation, recognition fields first. -/
def Tables.ofRaw (raw : PlainFields (List UInt8)) (captures : Option RawCaptures) :
    Except TableError Tables := do
  let parts ← raw.traverse Field.decode
  let captures ← captures.mapM fun raw => do
    let fields ← raw.toCaptureFields.traverse Field.decode
    return { toCaptureFields := fields, code := raw.code : CaptureParts }
  Tables.ofParts parts captures

def PlainParts.toRaw (parts : PlainParts) : PlainFields (List UInt8) where
  base := Words.encode parts.base
  backtrack := Words.encode parts.backtrack
  fallback := Words.encode parts.fallback
  trans := Words.encode parts.trans
  check := Words.encode parts.check

def CaptureParts.toRaw (parts : CaptureParts) : RawCaptures where
  baseCode := Words.encode parts.baseCode
  backtrackCode := Words.encode parts.backtrackCode
  fallbackCode := Words.encode parts.fallbackCode
  transCode := Words.encode parts.transCode
  checkCode := Words.encode parts.checkCode
  code := parts.code

end TableLexer
