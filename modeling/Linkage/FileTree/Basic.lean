import Linkage.FileTree.Path
import Linkage.Text.Utf8

/-!
A file tree as a value: the files and directories below a working directory. Looking a path up
follows the written path piece by piece, so that a missing directory in front of `..` is missed,
and it fails with the cause that an operating system would give.
-/
namespace Linkage

open Text (Bytes)

inductive OsError where
  | notFound
  | alreadyExists
  | notDirectory
  | isDirectory
  | notEmpty
  | nameTooLong
  | nulInName
  | notText
  deriving Repr, DecidableEq, Inhabited

def OsError.message : OsError → String
  | .notFound => "No such file or directory (os error 2)"
  | .alreadyExists => "File exists (os error 17)"
  | .notDirectory => "Not a directory (os error 20)"
  | .isDirectory => "Is a directory (os error 21)"
  | .notEmpty => "Directory not empty (os error 39)"
  | .nameTooLong => "File name too long (os error 36)"
  | .nulInName => "file name contained an unexpected NUL byte"
  | .notText => "stream did not contain valid UTF-8"

/-- A file or a directory, with the second in which it was last changed, counted from the start of
1970; what was changed before that has a negative one. -/
inductive FileNode where
  | file (bytes : Bytes) (modified : Int)
  | directory (modified : Int)
  deriving Repr, DecidableEq, Inhabited

def FileNode.modified : FileNode → Int
  | .file _ m => m
  | .directory m => m

/-- The place of a file: the names on the way to it from the working directory. -/
abbrev FileKey := List String

/-- The clock gives the second that is written down with a change. -/
structure FileTree where
  clock : Int := 0
  nodes : List (FileKey × FileNode) := []
  deriving Repr, DecidableEq, Inhabited

namespace FileTree

/-- The working directory, the directories above it and the root are always there. -/
def isAnchor (key : FileKey) : Bool := key == ["/"] || key.all (· == "..")

def node? (t : FileTree) (key : FileKey) : Option FileNode :=
  if isAnchor key then some (.directory 0)
  else (t.nodes.find? (·.1 == key)).map (·.2)

/-- The directory that a key names, as the starting point of a further step. -/
def enter (t : FileTree) (key : FileKey) : Except OsError Unit :=
  match t.node? key with
  | some (.directory _) => .ok ()
  | some (.file ..) => .error .notDirectory
  | none => .error .notFound

/-- The directory above one. -/
def above (key : FileKey) : FileKey :=
  if key == ["/"] then key else if isAnchor key then key ++ [".."] else key.dropLast

/-- The most bytes that the name of a file may have. -/
def longestName : Nat := 255

/-- The most bytes that a path may have. -/
def longestPath : Nat := 4095

/-- Follows the pieces of a path; what is entered on the way has to be a directory. -/
def follow (t : FileTree) : FileKey → List String → Except OsError FileKey
  | here, [] => .ok here
  | here, piece :: rest =>
    match t.enter here with
    | .error e => .error e
    | .ok () =>
      if Path.saysNothing piece then t.follow here rest
      else if piece = ".." then t.follow (above here) rest
      else if longestName < piece.utf8ByteSize then .error .nameTooLong
      else t.follow (here ++ [piece]) rest

/-- Follows some pieces of a path from where the path starts, if it can be the path of a file. -/
def followFrom (t : FileTree) (path : String) (pieces : List String) : Except OsError FileKey :=
  if path.toList.any (·.toNat == 0) then .error .nulInName
  else if path.isEmpty then .error .notFound
  else if longestPath < path.utf8ByteSize then .error .nameTooLong
  else t.follow (if Path.isAbsolute path then ["/"] else []) pieces

/-- The key that a path leads to; it need not exist, but the way to it has to. -/
def locate (t : FileTree) (path : String) : Except OsError FileKey :=
  t.followFrom path (Text.splitAll '/' path)

/-- The directory in which the last piece of a path stands, slashes at its end apart. -/
def locateHolder (t : FileTree) (path : String) : Except OsError FileKey := do
  let key ← t.followFrom path (Text.splitAll '/' (Path.trimSlashes path)).dropLast
  t.enter key
  pure key

def stat (t : FileTree) (path : String) : Except OsError FileNode :=
  match t.locate path with
  | .error e => .error e
  | .ok key =>
    match t.node? key with
    | some node => .ok node
    | none => .error .notFound

def exists? (t : FileTree) (path : String) : Bool := (t.stat path).isOk

def isDirectory (t : FileTree) (path : String) : Bool :=
  match t.stat path with
  | .ok (.directory _) => true
  | _ => false

def isFile (t : FileTree) (path : String) : Bool :=
  match t.stat path with
  | .ok (.file ..) => true
  | _ => false

def readAt (t : FileTree) (key : FileKey) : Except OsError Bytes :=
  match t.node? key with
  | some (.file bytes _) => .ok bytes
  | some (.directory _) => .error .isDirectory
  | none => .error .notFound

def read (t : FileTree) (path : String) : Except OsError Bytes :=
  match t.locate path with
  | .ok key => t.readAt key
  | .error e => .error e

def readText (t : FileTree) (path : String) : Except OsError String :=
  match t.read path with
  | .ok bytes =>
    match Text.decodeUtf8 bytes with
    | .ok s => .ok s
    | .error _ => .error .notText
  | .error e => .error e

/-- What lies below a key, at any depth, with the way to it from there. -/
def below (t : FileTree) (key : FileKey) : List (FileKey × FileNode) :=
  t.nodes.filterMap fun (k, node) =>
    match key.isPrefixOf? k with
    | some (x :: rest) => some (x :: rest, node)
    | _ => none

def hasChildren (t : FileTree) (key : FileKey) : Bool := !(t.below key).isEmpty

def place (t : FileTree) (key : FileKey) (node : FileNode) : FileTree :=
  if t.nodes.any (·.1 == key) then
    { t with nodes := t.nodes.map fun n => if n.1 == key then (key, node) else n }
  else { t with nodes := t.nodes ++ [(key, node)] }

/-- Writes down that the entries of a directory changed. -/
def touch (t : FileTree) (key : FileKey) : FileTree :=
  { t with nodes := t.nodes.map fun n =>
      if n.1 == key then
        (match n.2 with
          | .directory _ => (key, .directory t.clock)
          | .file .. => n)
      else n }

def erase (t : FileTree) (key : FileKey) : FileTree :=
  touch { t with nodes := t.nodes.filter (·.1 != key) } (above key)

end FileTree

end Linkage
