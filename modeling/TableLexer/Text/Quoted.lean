import TableLexer.Text.Printable

/-! Text in double quotes. Quotes and backslashes are escaped, the common control characters have
short escapes, and every other character that is not printable is named by its code. -/

set_option autoImplicit false

namespace TableLexer.Quoted

def hexDigits (n : Nat) : List Char :=
  Nat.toDigits 16 n

def escape (char : Char) : List Char :=
  match char with
  | '"' => ['\\', '"']
  | '\\' => ['\\', '\\']
  | '\n' => ['\\', 'n']
  | '\r' => ['\\', 'r']
  | '\t' => ['\\', 't']
  | char =>
    if char.toNat = 0 then ['\\', '0']
    else if isPrintable char then [char]
    else ['\\', 'u', '{'] ++ hexDigits char.toNat ++ ['}']

def quote (text : List Char) : String :=
  String.ofList ('"' :: text.flatMap escape ++ ['"'])

end TableLexer.Quoted
