import Linkage.FileTree.Basic
import Linkage.Json.Basic
import Linkage.Text.Blank

/-!
Entries of a class path. An element of the path is a directory, an archive or a module of the
runtime image; its ordinal is its place in the path and never changes.
-/
namespace Linkage.Classpath

inductive Owner where
  | program
  | library
  deriving Repr, DecidableEq, Inhabited

def Owner.text : Owner → String
  | .program => "program"
  | .library => "library"

inductive EntryKind where
  | directory
  | archive
  | runtimeModule (name : String)
  deriving Repr, DecidableEq, Inhabited

/-- The kind without the name of the module. -/
def EntryKind.source : EntryKind → String
  | .directory => "directory"
  | .archive => "archive"
  | .runtimeModule _ => "runtime-module"

def EntryKind.toJson : EntryKind → Json
  | .runtimeModule name => .object [("runtime-module", .object [("module", .string name)])]
  | kind => .string kind.source

/-- What a reference to a module of the runtime image starts with. -/
def moduleScheme : String := "jrt:/"

structure Entry where
  ordinal : Nat
  kind : EntryKind
  path : String
  owner : Owner
  deriving Repr, DecidableEq, Inhabited

namespace Entry

def module? (e : Entry) : Option String :=
  match e.kind with
  | .runtimeModule name => some name
  | _ => none

/-- The entry as origins and diagnostics name it. -/
def location (e : Entry) : String :=
  match e.kind with
  | .runtimeModule name => moduleScheme ++ name
  | _ => e.path

def text (e : Entry) : String := "#" ++ toString e.ordinal ++ " " ++ e.location

def toJson (e : Entry) : Json :=
  .object [("ordinal", .ofNat e.ordinal), ("kind", e.kind.toJson), ("path", .string e.path),
    ("owner", .string e.owner.text)]

def runtimeModule (ordinal : Nat) (name : String) (owner : Owner) : Entry :=
  ⟨ordinal, .runtimeModule name, moduleScheme ++ name, owner⟩

end Entry

/-- An element may hold several paths with colons between them; a reference to a module is one
element whatever it holds. Blank parts are dropped and all others are trimmed. -/
def expandElement (element : String) : List String :=
  if (Text.trim element).isEmpty then []
  else if Text.startsWith moduleScheme element then [Text.trim element]
  else ((Text.splitAll ':' element).map Text.trim).filter (!·.isEmpty)

def expand (elements : List String) : List String := elements.flatMap expandElement

/-- Whether the file name is that of an archive. -/
def isArchiveName (path : String) : Bool :=
  match Path.extension? path with
  | some ext => ["jar", "zip", "jmod"].any (Text.sameIgnoringCase ext)
  | none => false

/-- The entry for one path: what is a directory, or has no extension, counts as a directory. -/
def classify (tree : FileTree) (owner : Owner) (ordinal : Nat) (element : String) : Entry :=
  match Text.stripStart? moduleScheme element with
  | some name => .runtimeModule ordinal (Text.trimWhere (· == '/') name) owner
  | none =>
    let isDirectory := tree.isDirectory element ||
      (!isArchiveName element && (Path.extension? element).isNone)
    ⟨ordinal, if isDirectory then .directory else .archive, element, owner⟩

/-- The entries of a class path, numbered from `first` on. -/
def discover (tree : FileTree) (elements : List String) (owner : Owner) (first : Nat) : List Entry :=
  (expand elements).zipIdx.map fun (element, i) => classify tree owner (first + i) element

end Linkage.Classpath
