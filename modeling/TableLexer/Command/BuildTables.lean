import TableLexer.Command.Host
import TableLexer.Files.Tables
import TableLexer.Sample.Grammar

/-! The command that writes the tables of the sample grammar in both file formats. -/

set_option autoImplicit false

namespace TableLexer.BuildTables

variable {m : Type → Type} [Monad m] [Host m]

def standardBinary : String := "tables/lexer_tables.bin"

def standardDocument : String := "tables/lexer_tables.json"

def makeParent (path : String) : Command m Unit := do
  match Path.parent? path with
  | none => pure ()
  | some directory =>
    orFail (.during ("create " ++ directory) FileError.message)
      (← liftM (Host.makeDirectories directory : m (Except FileError Unit)))

def save (path : String) (content : List UInt8) : Command m Unit := do
  orFail (.during ("write " ++ path) FileError.message)
    (← liftM (Host.writeFile path content : m (Except FileError Unit)))

def summary (tables : Tables) : String :=
  let code := tables.captures.elim 0 fun captures => captures.parts.code.length
  let cells := tables.captures.elim 0 CaptureTables.cells
  "[gen_tables] states = " ++ toString tables.states ++ ", transition slots = " ++
    toString tables.parts.trans.size ++ ", code = " ++ toString code ++ " bytes, cells = " ++
    toString cells

def command : Command m Unit := do
  let arguments ← liftM (Host.arguments : m (List String))
  let binaryPath := arguments.headD standardBinary
  let documentPath := (arguments.drop 1).headD standardDocument
  printLine "[gen_tables] building demo grammar tables..."
  let tables ← orFail (.during "demo grammar failed to pack" TableError.message) Sample.tables
  printLine (summary tables)
  makeParent binaryPath
  makeParent documentPath
  let binary ← orFail (.during ("write " ++ binaryPath) TableError.message) (Binary.write tables)
  save binaryPath binary
  printLine ("[gen_tables] wrote " ++ toString binary.length ++ " bytes (~" ++
    tenths binary.length 1024 ++ " KiB) → " ++ binaryPath)
  save documentPath (Document.write tables)
  printLine ("[gen_tables] wrote " ++ documentPath)

end TableLexer.BuildTables
