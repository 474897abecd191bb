/-! Paths: names joined by slashes. A leading slash starts at the root, empty names and single dots
mean nothing, and a double dot goes up. -/

set_option autoImplicit false

namespace TableLexer.Path

def names (path : String) : List String :=
  path.splitOn "/"

def fileName (path : String) : String :=
  (names path).getLastD ""

/-- What follows the last dot of the file name; a dot in front starts no extension. -/
def extension? (path : String) : Option String :=
  match (fileName path).splitOn "." with
  | [] | [_] | ["", _] => none
  | parts => parts.getLast?

/-- Drops names at the end that mean nothing; names are given last first, and the first name of a
path stays. -/
def dropIdle : List String → List String
  | name :: before :: rest =>
    if name = "" || name = "." then dropIdle (before :: rest) else name :: before :: rest
  | short => short

def parent? (path : String) : Option String :=
  match dropIdle (names path).reverse with
  | [] | [""] => none
  | [_] => some ""
  | _ :: before =>
    match dropIdle before with
    | [""] => some "/"
    | before => some ("/".intercalate before.reverse)

def join (directory name : String) : String :=
  if directory = "" || directory.endsWith "/" then directory ++ name
  else directory ++ "/" ++ name

end TableLexer.Path
