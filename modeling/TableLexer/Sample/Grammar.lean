import TableLexer.Automaton.Build
import TableLexer.Sample.Kind

/-! The automaton of the sample grammar: identifiers, numbers with an optional fraction,
whitespace, line comments, and operators. A number takes its point only when a digit follows, so
the automaton looks one symbol past the point and backs up otherwise. -/

set_option autoImplicit false

namespace TableLexer.Sample

inductive StateName where
  | start
  | ident
  | int
  /-- Digits and a point, waiting for the first digit of the fraction. -/
  | intDot
  | frac
  | white
  | maybeSlash
  | lineComment
  | maybeEq
  | afterLParen
  | afterRParen
  | afterPlus
  | afterMinus
  | afterStar
  | afterDot
  | eqEqDone
  deriving DecidableEq, Repr

namespace StateName

def all : List StateName :=
  [start, ident, int, intDot, frac, white, maybeSlash, lineComment, maybeEq, afterLParen,
   afterRParen, afterPlus, afterMinus, afterStar, afterDot, eqEqDone]

def index : StateName → Nat
  | start => 0
  | ident => 1
  | int => 2
  | intDot => 3
  | frac => 4
  | white => 5
  | maybeSlash => 6
  | lineComment => 7
  | maybeEq => 8
  | afterLParen => 9
  | afterRParen => 10
  | afterPlus => 11
  | afterMinus => 12
  | afterStar => 13
  | afterDot => 14
  | eqEqDone => 15

def name : StateName → String
  | start => "Start"
  | ident => "Ident"
  | int => "Int"
  | intDot => "IntDot"
  | frac => "Frac"
  | white => "White"
  | maybeSlash => "MaybeSlash"
  | lineComment => "LineComment"
  | maybeEq => "MaybeEq"
  | afterLParen => "AfterLParen"
  | afterRParen => "AfterRParen"
  | afterPlus => "AfterPlus"
  | afterMinus => "AfterMinus"
  | afterStar => "AfterStar"
  | afterDot => "AfterDot"
  | eqEqDone => "EqEqDone"

end StateName

def isDigit (column : Nat) : Bool :=
  decide (48 ≤ column ∧ column ≤ 57)

def isAlpha (column : Nat) : Bool :=
  decide (97 ≤ column ∧ column ≤ 122 ∨ 65 ≤ column ∧ column ≤ 90 ∨ column = 95)

def isAlnum (column : Nat) : Bool :=
  isAlpha column || isDigit column

def isWhite (column : Nat) : Bool :=
  decide (column = 32 ∨ column = 9 ∨ column = 13 ∨ column = 10)

def inComment (column : Nat) : Bool :=
  decide (column ≠ 10 ∧ column < endColumn)

def firstState (column : Nat) : Option StateName :=
  if isAlpha column then some .ident
  else if isDigit column then some .int
  else if isWhite column then some .white
  else match column with
    | 40 => some .afterLParen
    | 41 => some .afterRParen
    | 42 => some .afterStar
    | 43 => some .afterPlus
    | 45 => some .afterMinus
    | 46 => some .afterDot
    | 47 => some .maybeSlash
    | 61 => some .maybeEq
    | _ => none

def StateName.next (state : StateName) (column : Nat) : Option StateName :=
  match state with
  | start => firstState column
  | ident => if isAlnum column then some ident else none
  | int => if isDigit column then some int else if column = 46 then some intDot else none
  | intDot => if isDigit column then some frac else none
  | frac => if isDigit column then some frac else none
  | white => if isWhite column then some white else none
  | maybeSlash => if column = 47 then some lineComment else none
  | lineComment => if inComment column then some lineComment else none
  | maybeEq => if column = 61 then some eqEqDone else none
  | afterLParen | afterRParen | afterPlus | afterMinus | afterStar | afterDot | eqEqDone => none

/-- The program run on entering a state: the point of a number is remembered. -/
def StateName.record : StateName → Program
  | intDot => [.mark dotCell]
  | _ => []

def StateName.accepts : StateName → Option Kind
  | afterLParen => some .lParen
  | afterRParen => some .rParen
  | afterPlus => some .plus
  | afterMinus => some .minus
  | afterStar => some .star
  | afterDot => some .dot
  | eqEqDone => some .eqEq
  | _ => none

def StateName.backtracks : StateName → Option Kind
  | ident => some .ident
  | int | frac => some .number
  | white => some .white
  | maybeSlash => some .slash
  | lineComment => some .lineComment
  | maybeEq => some .assign
  | _ => none

/-- The tag program of a backtrack point. A number unsets its fraction after the digits, and
takes it from the cell of the point once a digit follows. -/
def StateName.tag : StateName → Program
  | int => [.mark fractionCell]
  | frac => [.copy fractionCell dotCell]
  | _ => []

def StateName.toState (state : StateName) : State where
  accept := state.accepts.map fun kind => { action := kind.action, tag := [] }
  backtrack := state.backtracks.map fun kind => { action := kind.action, tag := state.tag }
  moves := Vector.ofFn fun column =>
    (state.next column.val).map fun target => { target := target.index, record := target.record }

def automaton : Automaton where
  states := (StateName.all.map StateName.toState).toArray

def tables : Except TableError Tables :=
  automaton.tables

end TableLexer.Sample
