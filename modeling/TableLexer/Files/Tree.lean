import TableLexer.Files.Path

/-! A working directory as a value, with the rules by which a file system finds, opens, writes
and makes what a path names. Outside of it there are only directories that lead back in. -/

set_option autoImplicit false

namespace TableLexer

inductive FileError where
  | notFound
  | alreadyExists
  | notDirectory
  | isDirectory
  | nameTooLong
  | other (description : String) (code : Nat)
  deriving DecidableEq, Repr

def FileError.message : FileError → String
  | .notFound => "No such file or directory (os error 2)"
  | .alreadyExists => "File exists (os error 17)"
  | .notDirectory => "Not a directory (os error 20)"
  | .isDirectory => "Is a directory (os error 21)"
  | .nameTooLong => "File name too long (os error 36)"
  | .other description code => description ++ " (os error " ++ toString code ++ ")"

inductive Node where
  | file (content : List UInt8)
  /-- A directory, by its number. -/
  | directory (number : Nat)
  deriving DecidableEq, Repr

/-- What a working directory holds. Directories are numbered, the working directory first; each
lists its entries by name, and of one name the latest entry counts. -/
structure FileTree where
  directories : Array (List (String × Node))

inductive Place where
  /-- The numbers of the directories entered, the last one first; none for the working
  directory. -/
  | inside (trail : List Nat)
  | outside
  deriving DecidableEq, Repr

inductive Target where
  | directory (place : Place)
  | file (directory : Nat) (name : String) (content : List UInt8)
  | vacant (directory : Nat) (name : String)
  deriving DecidableEq, Repr

namespace FileTree

def empty : FileTree :=
  { directories := #[[]] }

def find? (tree : FileTree) (directory : Nat) (name : String) : Option Node :=
  (tree.directories.getD directory []).lookup name

def put (tree : FileTree) (directory : Nat) (name : String) (node : Node) : FileTree :=
  { directories := tree.directories.modify directory ((name, node) :: ·) }

def putDirectory (tree : FileTree) (directory : Nat) (name : String) : FileTree :=
  { directories := tree.directories.push [] : FileTree }.put directory name
    (.directory tree.directories.size)

def maxName : Nat := 255
def maxPath : Nat := 4095

/-- Goes up one directory; the working directory lies in others. -/
def up : Place → Place
  | .inside (_ :: trail) => .inside trail
  | .inside [] => .outside
  | .outside => .outside

def follow (tree : FileTree) (place : Place) (name : String) : Except FileError Target :=
  if name = "" || name = "." then .ok (.directory place)
  else if name = ".." then .ok (.directory (up place))
  else if maxName < name.utf8ByteSize then .error .nameTooLong
  else match place with
    | .outside => .error .notFound
    | .inside trail =>
      let directory := trail.headD 0
      match tree.find? directory name with
      | some (.directory number) => .ok (.directory (.inside (number :: trail)))
      | some (.file content) => .ok (.file directory name content)
      | none => .ok (.vacant directory name)

def enter (tree : FileTree) (place : Place) (name : String) : Except FileError Place := do
  match ← tree.follow place name with
  | .directory place => return place
  | .file .. => throw .notDirectory
  | .vacant .. => throw .notFound

def approach (tree : FileTree) (path : String) : Except FileError Place := do
  if path = "" then throw .notFound
  if maxPath < path.utf8ByteSize then throw .nameTooLong
  let start := if path.startsWith "/" then .outside else .inside []
  (Path.names path).dropLast.foldlM tree.enter start

def resolve (tree : FileTree) (path : String) : Except FileError Target := do
  let place ← tree.approach path
  tree.follow place (Path.fileName path)

def withoutEndSlashes (path : String) : String :=
  String.ofList (path.toList.reverse.dropWhile (· == '/')).reverse

def isDirectory (tree : FileTree) (path : String) : Bool :=
  match tree.resolve path with
  | .ok (.directory _) => true
  | _ => false

/-- Opens for reading, which a directory allows. -/
def canOpen (tree : FileTree) (path : String) : Except FileError Unit := do
  match ← tree.resolve path with
  | .vacant .. => throw .notFound
  | .directory _ | .file .. => return ()

def read (tree : FileTree) (path : String) : Except FileError (List UInt8) := do
  match ← tree.resolve path with
  | .vacant .. => throw .notFound
  | .directory _ => throw .isDirectory
  | .file _ _ content => return content

/-- Writes a whole file, in place of what it held. A path that ends in a slash is refused before
its last name is looked up. -/
def write (tree : FileTree) (path : String) (content : List UInt8) :
    Except FileError FileTree := do
  if maxPath < path.utf8ByteSize then throw .nameTooLong
  if path.endsWith "/" && withoutEndSlashes path != "" then
    let _ ← tree.approach (withoutEndSlashes path)
    throw .isDirectory
  match ← tree.resolve path with
  | .directory _ => throw .isDirectory
  | .vacant directory name | .file directory name _ =>
    return tree.put directory name (.file content)

/-- Makes one directory. Slashes at the end count for the length of the path only. -/
def makeDirectory (tree : FileTree) (path : String) : Except FileError FileTree := do
  if maxPath < path.utf8ByteSize then throw .nameTooLong
  let path := if withoutEndSlashes path = "" then path else withoutEndSlashes path
  match ← tree.resolve path with
  | .directory _ | .file .. => throw .alreadyExists
  | .vacant directory name => return tree.putDirectory directory name

def ensureDirectory (tree : FileTree) (path : String) : Except FileError FileTree :=
  match tree.makeDirectory path with
  | .error .alreadyExists => if tree.isDirectory path then .ok tree else .error .alreadyExists
  | outcome => outcome

/-- Makes a directory with all that lead to it, looking at most `depth` directories up. The root
and the working directory are there, whatever the length of the path that names them. -/
def makeDirectoriesWithin (tree : FileTree) : (depth : Nat) → (path : String) →
    Except FileError FileTree
  | 0, _ => .error .notFound
  | depth + 1, path =>
    match Path.parent? path with
    | none => .ok tree
    | some parent =>
      match tree.ensureDirectory path with
      | .error .notFound => do
        let tree ← tree.makeDirectoriesWithin depth parent
        tree.ensureDirectory path
      | outcome => outcome

def makeDirectories (tree : FileTree) (path : String) : Except FileError FileTree :=
  tree.makeDirectoriesWithin (path.length + 1) path

def within (tree : FileTree) (directory : Nat) (name : String) : FileTree × Nat :=
  match tree.find? directory name with
  | some (.directory number) => (tree, number)
  | _ => (tree.putDirectory directory name, tree.directories.size)

def plant (tree : FileTree) (path : String) (content : List UInt8) : FileTree :=
  let (tree, directory) := (Path.names path).dropLast.foldl
    (fun (tree, directory) name => tree.within directory name) (tree, 0)
  tree.put directory (Path.fileName path) (.file content)

end FileTree

end TableLexer
