import TableLexer.Window

/-! How a recognition attempt is entered and left. An attempt starts fresh in a state or resumes
in the state where an earlier call ran out of input. Both are carried by one integer: a state
number for a fresh attempt, and a negative code for a suspended one. -/

set_option autoImplicit false

namespace TableLexer

inductive Entry where
  | fresh (state : Nat)
  | resume (state : Nat)
  deriving DecidableEq, Repr

namespace Entry

def state : Entry → Nat
  | fresh state => state
  | resume state => state

def code : Entry → Int
  | fresh state => state
  | resume state => -state - 1

def ofCode (code : Int) : Entry :=
  match code with
  | .ofNat state => fresh state
  | .negSucc state => resume state

theorem ofCode_code (entry : Entry) : ofCode entry.code = entry := by
  cases entry with
  | fresh state => rfl
  | resume state =>
    have negative : (-(state : Int) - 1) = Int.negSucc state := by omega
    simp [code, ofCode, negative]

theorem code_ofCode (code : Int) : (ofCode code).code = code := by
  cases code with
  | ofNat state => rfl
  | negSucc state => simp only [ofCode, Entry.code]; omega

end Entry

inductive LexError where
  | emptyToken (offset : Nat)
  | invalidState (entry : Entry)
  | missingCaptures
  deriving DecidableEq, Repr

def LexError.message : LexError → String
  | .emptyToken offset => "lexing: empty token at offset " ++ toString offset
  | .invalidState entry =>
    "start state " ++ toString entry.code ++ " is not a state of these tables"
  | .missingCaptures => "tables carry no capture programs"

/-- How a call ends that does not fail: with a match, or suspended for more input. -/
inductive Step where
  | action (action : ActionId)
  | refill (state : Nat)
  deriving DecidableEq, Repr

end TableLexer
