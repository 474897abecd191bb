import TableLexer.Files.Reading
import TableLexer.Files.Tree
import TableLexer.Text.Numeral

/-! What a command may ask of its surroundings: its arguments and settings, files, a clock, and two
streams of text. The surroundings are an interface, so a command runs on real files and on a
working directory held as a value alike. -/

set_option autoImplicit false

namespace TableLexer

class Host (m : Type → Type) where
  arguments : m (List String)
  setting? : String → m (Option String)
  readFile : String → m (Except FileError (List UInt8))
  /-- The pieces in which successive reads of so many bytes deliver a file. -/
  readPieces : String → Nat → m (Except FileError (List (List UInt8)))
  openFile : String → m (Except FileError Unit)
  writeFile : String → List UInt8 → m (Except FileError Unit)
  /-- Makes a directory with all that lead to it. -/
  makeDirectories : String → m (Except FileError Unit)
  printOut : String → m Unit
  printErr : String → m Unit
  milliseconds : m Nat

structure World where
  arguments : List String
  settings : List (String × String)
  files : FileTree
  out : String
  err : String
  reading : Reading := .full

namespace World

def change (edit : FileTree → Except FileError FileTree) :
    StateM World (Except FileError Unit) := do
  let world ← get
  match edit world.files with
  | .ok files =>
    set { world with files }
    return .ok ()
  | .error error => return .error error

instance : Host (StateM World) where
  arguments := do return (← get).arguments
  setting? name := do return (← get).settings.lookup name
  readFile path := do return (← get).files.read path
  readPieces path size := do
    let world ← get
    return (world.files.read path).map (world.reading.pieces size)
  openFile path := do return (← get).files.canOpen path
  writeFile path content := change fun files => files.write path content
  makeDirectories path := change fun files => files.makeDirectories path
  printOut text := modify fun world => { world with out := world.out ++ text }
  printErr text := modify fun world => { world with err := world.err ++ text }
  milliseconds := return 0

end World

/-- Why a command stops: a message, and its causes, each the cause of the one before. -/
structure Failure where
  message : String
  causes : List String
  deriving DecidableEq, Repr

namespace Failure

def plain (message : String) : Failure :=
  { message, causes := [] }

def within (context : String) (failure : Failure) : Failure :=
  { message := context, causes := failure.message :: failure.causes }

def during {ε : Type} (context : String) (message : ε → String) (error : ε) : Failure :=
  (plain (message error)).within context

/-- A line for each cause, numbered when there are several. -/
def causeLines : List String → List String
  | [] => []
  | [cause] => ["    " ++ cause]
  | causes => causes.zipIdx.map fun (cause, i) => padLeft 5 (toString i) ++ ": " ++ cause

def report (failure : Failure) : String :=
  let lines := match causeLines failure.causes with
    | [] => []
    | lines => "" :: "Caused by:" :: lines
  String.join ((("Error: " ++ failure.message) :: lines).map (· ++ "\n"))

end Failure

variable {m : Type → Type} [Monad m]

abbrev Command (m : Type → Type) := ExceptT Failure m

def orFail {α ε : Type} (failure : ε → Failure) (result : Except ε α) : Command m α :=
  match result with
  | .ok value => return value
  | .error error => throw (failure error)

def Command.run [Host m] (command : Command m Unit) : m UInt32 := do
  match ← ExceptT.run command with
  | .ok () => return 0
  | .error failure =>
    Host.printErr failure.report
    return 1

def printLine [Host m] (text : String) : Command m Unit :=
  liftM (Host.printOut (text ++ "\n") : m Unit)

def printNote [Host m] (text : String) : Command m Unit :=
  liftM (Host.printErr (text ++ "\n") : m Unit)

/-- A numeric setting below `bound`, or the default when it is missing or no such number. -/
def numericSetting [Host m] (name : String) (bound standard : Nat) : Command m Nat := do
  let text ← liftM (Host.setting? name : m (Option String))
  return (text.bind (readUnsigned? bound)).getD standard

end TableLexer
