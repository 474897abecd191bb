import TableLexer.Program.Basic
import TableLexer.Tables.Fields

/-! Why tables are refused, with the one wording of each cause. -/

set_option autoImplicit false

namespace TableLexer

inductive Section where
  | magic
  | headerWord
  | field (field : Field)
  deriving DecidableEq, Repr

def Section.name : Section → String
  | .magic => "magic"
  | .headerWord => "u32 header field"
  | .field inner => inner.name

inductive TableError where
  | truncated (expected : Section)
  | badMagic
  | oddLength (field : Field) (length : Nat)
  | noStates
  | tooManyStates (states : Nat)
  | overflow (field : Field)
  | lengthMismatch (field : Field) (found expected : Nat)
  | rowOutOfRange (field : Field) (state : Nat) (offset : Int16) (room : Nat)
  | targetOutOfRange (field : Field) (index : Nat) (target : Int16) (states : Nat)
  | badProgram (offset : Nat) (flaw : Program.Flaw)
  deriving DecidableEq, Repr

def TableError.oddLengthMessage (name : String) (length : Nat) : String :=
  "field `" ++ name ++ "` has odd byte length " ++ toString length

def TableError.message : TableError → String
  | .truncated expected => "truncated tables: expected " ++ expected.name
  | .badMagic => "bad magic in tables .bin"
  | .oddLength field length => oddLengthMessage field.name length
  | .noStates => "tables have no states"
  | .tooManyStates states => toString states ++ " states do not fit in 16-bit state numbers"
  | .overflow field => "`" ++ field.name ++ "` does not fit in a 16-bit table entry"
  | .lengthMismatch field found expected =>
    "field `" ++ field.name ++ "` has length " ++ toString found ++
      ", expected " ++ toString expected
  | .rowOutOfRange field state offset room =>
    "state " ++ toString state ++ ": `" ++ field.name ++ "` offset " ++ toString offset.toInt ++
      " leaves no room for 257 columns (len " ++ toString room ++ ")"
  | .targetOutOfRange field index target states =>
    "`" ++ field.name ++ "`[" ++ toString index ++ "] targets state " ++ toString target.toInt ++
      ", only " ++ toString states ++ " states exist"
  | .badProgram offset flaw =>
    "capture program at offset " ++ toString offset ++ ": " ++ flaw.message

end TableLexer
