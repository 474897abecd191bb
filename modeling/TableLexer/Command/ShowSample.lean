import TableLexer.Command.Host
import TableLexer.Sample.Grammar
import TableLexer.Scanner
import TableLexer.Text.Quoted
import TableLexer.Text.Utf8

/-! The command that scans a small text with the sample grammar and lists its tokens. -/

set_option autoImplicit false

namespace TableLexer.ShowSample

variable {m : Type → Type} [Monad m] [Host m]

def sampleText : String :=
  "\n        foo = 12 + bar*(7.25) // hello\n        baz==3.x-qux\n    "

/-- Small pieces, so that every token crosses several of them. -/
def pieceSize : Nat := 5

def quoted (bytes : List UInt8) : String :=
  Quoted.quote (Utf8.decodeLossy bytes)

def tokenLine? (text : List UInt8) (kind : Sample.Kind) (token : Token) : Option String :=
  if kind.isTrivia then none
  else
    let lexeme := (text.drop token.start).take token.len
    let line := kind.name ++ "  " ++ quoted lexeme
    match (token.captures[Sample.fractionCell.val]?).join with
    | none => some line
    | some fraction =>
      some (line ++ "  fraction=" ++ quoted (lexeme.drop (fraction - token.start)))

def showToken (text : List UInt8) (token : Token) : Command m Unit :=
  match Sample.Kind.ofAction? token.action with
  | none =>
    throw (.plain ("action " ++ toString token.action ++ " is not a demo token"))
  | some kind =>
    match tokenLine? text kind token with
    | none => pure ()
    | some line => printLine line

def command : Command m Unit := do
  let text := Utf8.encode sampleText
  let tables ← orFail (fun error => .plain error.message) Sample.tables
  let scan := tables.scanPieces text pieceSize
  match scan.ending with
  | .failed error _ => throw (.plain error.message)
  | _ => pure ()
  printLine "TOKENS:"
  scan.reports.forM (showToken text)

end TableLexer.ShowSample
