import TableLexer.Command.Host
import TableLexer.Fault
import TableLexer.Files.Tables
import TableLexer.Sample.Grammar
import TableLexer.Scanner
import TableLexer.Text.Quoted
import TableLexer.Text.Utf8

/-! The command that scans a file and prints a line for each token. The file is read in pieces of
a set size at most, which has no influence on what is printed. -/

set_option autoImplicit false

namespace TableLexer.LexFile

variable {m : Type → Type} [Monad m] [Host m]

def tokenText (window : Window) (token : Token) : Except Fault (List Char) :=
  let stop := token.start + token.len
  if stop ≤ window.bytes.size then
    .ok (Utf8.decodeLossy (window.bytes.extract token.start stop).toList)
  else .error .outOfRange

def actionName (named : Bool) (action : ActionId) : String :=
  match named, Sample.Kind.ofAction? action with
  | true, some kind => kind.name
  | _, _ => "#" ++ toString action

def tokenLine (named : Bool) (window : Window) (token : Token) : Except Fault String := do
  let text ← tokenText window token
  return padLeft 8 (toString token.start) ++ " " ++ actionName named token.action ++ " " ++
    Quoted.quote text

def scanFile (tables : Tables) (named : Bool) (path : String) (pieces : List (List UInt8)) :
    Scan String :=
  let session := { Session.empty with window := Window.empty.named path }
  (Scanner.ofTables tables).scanWith (tokenLine named) session pieces

def standardPiece : Nat := 4096

def loadFailure (path : String) (error : LoadError) : Failure :=
  Failure.within ("load tables " ++ path)
    { message := error.message, causes := error.cause?.toList }

/-- The tables to scan with, and whether their actions have names. -/
def chooseTables : Command m (Tables × Bool) := do
  match ← liftM (Host.setting? "LEX_TABLES" : m (Option String)) with
  | some path =>
    let content ← liftM (Host.readFile path : m (Except FileError (List UInt8)))
    return (← orFail (loadFailure path) (Tables.ofFile path content), false)
  | none => return (← orFail (fun error => .plain error.message) Sample.tables, true)

def result (path : String) : Ending → Except Failure Unit
  | .complete => .ok ()
  | .failed error location =>
    .error (.during (path ++ ":" ++ toString location.offset) LexError.message error)
  | .fault _ => .error (.plain "the scan left its window")
  | .endless => .error (.plain "the scan does not end")

/-- Prints the lines of a scan and ends as the scan did. That the file could not be read comes
last. -/
def conclude (path : String) (pieces : Except FileError (List (List UInt8))) (started : Nat)
    (scan : Scan String) : Command m Unit := do
  scan.reports.forM printLine
  orFail id (result path scan.ending)
  let _ ← orFail (.during ("read " ++ path) FileError.message) pieces
  let ended ← liftM (Host.milliseconds : m Nat)
  printNote ("[lex_file] " ++ toString scan.reports.size ++ " tokens in " ++
    toString (ended - started) ++ " ms")

def command : Command m Unit := do
  let arguments ← liftM (Host.arguments : m (List String))
  let some path := arguments.head?
    | throw (.plain "usage: lex_file <path>")
  let size ← numericSetting "LEX_CHUNK" wordLimit standardPiece
  let (tables, named) ← chooseTables
  orFail (.during ("open " ++ path) FileError.message)
    (← liftM (Host.openFile path : m (Except FileError Unit)))
  let started ← liftM (Host.milliseconds : m Nat)
  let pieces ← liftM (Host.readPieces path size : m (Except FileError (List (List UInt8))))
  conclude path pieces started (scanFile tables named path (pieces.toOption.getD []))

end TableLexer.LexFile
