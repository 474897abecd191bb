import TableLexer.Program.Basic
import TableLexer.Window

/-! Token kinds of the sample grammar, numbered as the actions of its tables. -/

set_option autoImplicit false

namespace TableLexer.Sample

inductive Kind where
  | ident
  | number
  | white
  | lParen
  | rParen
  | plus
  | minus
  | star
  | slash
  | dot
  | assign
  | eqEq
  | lineComment
  deriving DecidableEq, Repr

namespace Kind

def all : List Kind :=
  [ident, number, white, lParen, rParen, plus, minus, star, slash, dot, assign, eqEq, lineComment]

def action : Kind → ActionId
  | ident => 0
  | number => 1
  | white => 2
  | lParen => 3
  | rParen => 4
  | plus => 5
  | minus => 6
  | star => 7
  | slash => 8
  | dot => 9
  | assign => 10
  | eqEq => 11
  | lineComment => 12

def ofAction? (action : ActionId) : Option Kind :=
  all[action]?

theorem ofAction?_action (kind : Kind) : ofAction? kind.action = some kind := by
  cases kind <;> rfl

def name : Kind → String
  | ident => "Ident"
  | number => "Number"
  | white => "White"
  | lParen => "LParen"
  | rParen => "RParen"
  | plus => "Plus"
  | minus => "Minus"
  | star => "Star"
  | slash => "Slash"
  | dot => "Dot"
  | assign => "Assign"
  | eqEq => "EqEq"
  | lineComment => "LineComment"

def isTrivia : Kind → Bool
  | white | lineComment => true
  | _ => false

end Kind

/-- The cell of the first fraction digit of a number. -/
def fractionCell : CellId := ⟨0, by decide⟩

/-- The cell written when the point of a number is read. -/
def dotCell : CellId := ⟨1, by decide⟩

end TableLexer.Sample
