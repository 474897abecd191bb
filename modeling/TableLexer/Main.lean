import TableLexer.Command.BuildTables
import TableLexer.Command.Fuzz
import TableLexer.Command.LexFile
import TableLexer.Command.ShowSample

/-! The command line. The first argument chooses a command, and the others are passed on to it. -/

set_option autoImplicit false

namespace TableLexer

def FileError.ofError (error : IO.Error) : FileError :=
  match error with
  | .noFileOrDirectory _ _ _ => .notFound
  | .alreadyExists _ _ _ => .alreadyExists
  | .inappropriateType _ 21 _ => .isDirectory
  | .inappropriateType _ _ _ => .notDirectory
  | error => .other (toString error) 5

/-- A command's real surroundings, given its arguments. -/
abbrev Terminal := ReaderT (List String) IO

def attempt {α : Type} (action : IO α) : Terminal (Except FileError α) := fun _ => do
  match ← action.toBaseIO with
  | .ok value => return .ok value
  | .error error => return .error (FileError.ofError error)

instance : Host Terminal where
  arguments := read
  setting? name := liftM (IO.getEnv name : IO (Option String))
  readFile path := attempt do return (← IO.FS.readBinFile path).toList
  readPieces path size := attempt do
    return cut size (← IO.FS.readBinFile path).toList
  openFile path := attempt do
    let _ ← IO.FS.Handle.mk path .read
    return ()
  writeFile path content := attempt (IO.FS.writeBinFile path ⟨content.toArray⟩)
  makeDirectories path := attempt do
    if path = "" then return () else IO.FS.createDirAll path
  printOut text := liftM (IO.print text : IO Unit)
  printErr text := liftM (IO.eprint text : IO Unit)
  milliseconds := liftM (IO.monoMsNow : IO Nat)

end TableLexer

open TableLexer in
def main (arguments : List String) : IO UInt32 := do
  match arguments with
  | "show" :: rest => (Command.run (m := Terminal) ShowSample.command).run rest
  | "lex" :: rest => (Command.run (m := Terminal) LexFile.command).run rest
  | "tables" :: rest => (Command.run (m := Terminal) BuildTables.command).run rest
  | "fuzz" :: rest => (Command.run (m := Terminal) Fuzz.command).run rest
  | _ =>
    IO.eprintln "usage: show | lex <path> | tables [<binary> [<document>]] | fuzz"
    return 2
