/-! The fields of packed tables, in the order in which every format lists them: five for
recognition and five, with a blob of program bytes, for captures. The field type is a parameter,
so one traversal serves entries, raw bytes and lengths alike. -/

set_option autoImplicit false

namespace TableLexer

inductive Field where
  | base
  | backtrack
  | fallback
  | trans
  | check
  | baseCode
  | backtrackCode
  | fallbackCode
  | transCode
  | checkCode
  | code
  deriving DecidableEq, Repr

def Field.name : Field → String
  | .base => "base"
  | .backtrack => "backtrk"
  | .fallback => "default"
  | .trans => "trans"
  | .check => "check"
  | .baseCode => "base_code"
  | .backtrackCode => "backtrk_code"
  | .fallbackCode => "default_code"
  | .transCode => "trans_code"
  | .checkCode => "check_code"
  | .code => "code"

structure PlainFields (α : Type) where
  base : α
  backtrack : α
  fallback : α
  trans : α
  check : α
  deriving DecidableEq, Repr

structure CaptureFields (α : Type) where
  baseCode : α
  backtrackCode : α
  fallbackCode : α
  transCode : α
  checkCode : α
  deriving DecidableEq, Repr

/-- Visits the fields in order; the first failure wins. -/
def PlainFields.traverse {m : Type → Type} [Monad m] {α β : Type} (visit : Field → α → m β)
    (fields : PlainFields α) : m (PlainFields β) := do
  let base ← visit .base fields.base
  let backtrack ← visit .backtrack fields.backtrack
  let fallback ← visit .fallback fields.fallback
  let trans ← visit .trans fields.trans
  let check ← visit .check fields.check
  return { base, backtrack, fallback, trans, check }

def CaptureFields.traverse {m : Type → Type} [Monad m] {α β : Type} (visit : Field → α → m β)
    (fields : CaptureFields α) : m (CaptureFields β) := do
  let baseCode ← visit .baseCode fields.baseCode
  let backtrackCode ← visit .backtrackCode fields.backtrackCode
  let fallbackCode ← visit .fallbackCode fields.fallbackCode
  let transCode ← visit .transCode fields.transCode
  let checkCode ← visit .checkCode fields.checkCode
  return { baseCode, backtrackCode, fallbackCode, transCode, checkCode }

def PlainFields.toList {α : Type} (fields : PlainFields α) : List (Field × α) :=
  [(.base, fields.base), (.backtrack, fields.backtrack), (.fallback, fields.fallback),
   (.trans, fields.trans), (.check, fields.check)]

def CaptureFields.toList {α : Type} (fields : CaptureFields α) : List (Field × α) :=
  [(.baseCode, fields.baseCode), (.backtrackCode, fields.backtrackCode),
   (.fallbackCode, fields.fallbackCode), (.transCode, fields.transCode),
   (.checkCode, fields.checkCode)]

/-- Recognition entries, not yet validated. -/
abbrev PlainParts := PlainFields (Array Int16)

structure CaptureParts extends CaptureFields (Array Int16) where
  code : List UInt8
  deriving DecidableEq, Repr

end TableLexer
