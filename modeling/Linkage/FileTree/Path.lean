import Linkage.Text.Basic

/-!
Paths as they are written. A path is cut at its slashes; empty pieces and points say nothing,
except for a point in front, which counts as a piece. A path with a slash in front is absolute.
-/
namespace Linkage.Path

def saysNothing (piece : String) : Bool := piece == "" || piece == "."

/-- Drops trailing pieces that say nothing; the first piece always stays. -/
def trimPieces : List String → List String
  | [] => []
  | first :: rest => first :: (rest.reverse.dropWhile saysNothing).reverse

def pieces (path : String) : List String := trimPieces (Text.splitAll '/' path)

/-- Drops the slashes at the end, unless there is nothing else. -/
def trimSlashes (path : String) : String :=
  match path.toList.reverse.dropWhile (· == '/') with
  | [] => path
  | kept => String.ofList kept.reverse

/-- What two ways of writing one path have in common. -/
def components (path : String) : List String :=
  match pieces path with
  | [] => []
  | first :: rest =>
    let rest := rest.filter (!saysNothing ·)
    if first = "" then (if Text.startsWith "/" path then "/" :: rest else rest) else first :: rest

def isAbsolute (path : String) : Bool := Text.startsWith "/" path

/-- The path of the directory that holds a path; a single piece lies in the empty path. -/
def parent? (path : String) : Option String :=
  match pieces path with
  | [] => none
  | [only] => if only = "" then none else some ""
  | parts =>
    match trimPieces parts.dropLast with
    | [""] => some "/"
    | rest => some (String.intercalate "/" rest)

/-- All the paths above a path, the nearest first. Every step drops a character. -/
def ancestors (path : String) : List String :=
  go path.length path
where
  go : Nat → String → List String
    | 0, _ => []
    | fuel + 1, p =>
      match parent? p with
      | some up => up :: go fuel up
      | none => []

def fileName? (path : String) : Option String :=
  match (pieces path).getLast? with
  | some name => if saysNothing name || name == ".." then none else some name
  | none => none

/-- What follows the last point of the file name, unless that point starts the name. -/
def extension? (path : String) : Option String :=
  (fileName? path).bind fun name =>
    match Text.splitLast? '.' name with
    | some (before, after) => if before.isEmpty then none else some after
    | none => none

def join (base path : String) : String :=
  if isAbsolute path || base.isEmpty then path
  else if Text.endsWith "/" base then base ++ path
  else base ++ "/" ++ path

end Linkage.Path
