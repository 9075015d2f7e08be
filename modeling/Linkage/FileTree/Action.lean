import Linkage.FileTree.Basic

/-!
Changes to a file tree. An action may fail, and what it did before it failed stays done: making a
chain of directories can stop half way.
-/
namespace Linkage.FileTree

open Text (Bytes)

abbrev Action := ExceptT OsError (StateM FileTree)

namespace Action

def fail {α : Type} (e : OsError) : Action α := throw e

def lift {α : Type} (f : FileTree → Except OsError α) : Action α := do
  match f (← get) with
  | .ok a => pure a
  | .error e => throw e

def locate (path : String) : Action FileKey := lift fun t => t.locate path

/-- Makes or replaces the content of a file. -/
def putAt (key : FileKey) (content : Bytes → Bytes) : Action Unit := do
  let t ← get
  match t.node? key with
  | some (.directory _) => fail .isDirectory
  | some (.file old _) => set (t.place key (.file (content old) t.clock))
  | none => set ((t.place key (.file (content []) t.clock)).touch (above key))

/-- Makes or replaces the content of a file. A path with a slash at its end can only be that of a
directory. -/
def put (path : String) (content : Bytes → Bytes) : Action Unit := do
  if Text.endsWith "/" path then
    let _ ← lift fun t => t.locateHolder path
    fail .isDirectory
  putAt (← locate path) content

def write (path : String) (bytes : Bytes) : Action Unit := put path fun _ => bytes

def append (path : String) (bytes : Bytes) : Action Unit := put path (· ++ bytes)

def writeText (path text : String) : Action Unit := write path (Text.encodeUtf8 text)

def createDirectory (path : String) : Action Unit := do
  let key ← locate (Path.trimSlashes path)
  let t ← get
  match t.node? key with
  | some _ => fail .alreadyExists
  | none => set ((t.place key (.directory t.clock)).touch (above key))

/-- Makes a directory that may be there already. -/
def ensureDirectory (path : String) : Action Unit := do
  try createDirectory path
  catch e => if (← get).isDirectory path then pure () else throw e

/-- Makes a directory and those above it that are missing, from the outermost inwards. -/
def createDirectories : Nat → String → Action Unit
  | 0, _ => pure ()
  | fuel + 1, path => do
    if path.isEmpty then return ()
    try createDirectory path
    catch e =>
      if e != .notFound then
        if (← get).isDirectory path then pure () else throw e
      else match Path.parent? path with
        | none => throw .notFound
        | some up => do
          createDirectories fuel up
          ensureDirectory path

def createAll (path : String) : Action Unit := createDirectories (path.length + 1) path

def removeFile (path : String) : Action Unit := do
  let key ← locate path
  let t ← get
  match t.node? key with
  | some (.file ..) => set (t.erase key)
  | some (.directory _) => fail .isDirectory
  | none => fail .notFound

/-- Removes a directory that holds nothing. -/
def removeDirectory (path : String) : Action Unit := do
  let key ← locate path
  let t ← get
  match t.node? key with
  | some (.directory _) => if t.hasChildren key then fail .notEmpty else set (t.erase key)
  | some (.file ..) => fail .notDirectory
  | none => fail .notFound

/-- Removes a directory with all that it holds. -/
def removeTree (path : String) : Action Unit := do
  let key ← locate path
  let t ← get
  match t.node? key with
  | some (.directory _) =>
    set (({ t with nodes := t.nodes.filter fun n => !key.isPrefixOf n.1 }).touch (above key))
  | some (.file ..) => fail .notDirectory
  | none => fail .notFound

/-- Moves a file, in place of a file that is already there. -/
def moveFile (source target : String) : Action Unit := do
  let fromKey ← locate source
  let toKey ← locate target
  let t ← get
  lift fun t => t.enter (above toKey)
  match t.node? fromKey, t.node? toKey with
  | none, _ => fail .notFound
  | some (.directory _), _ => fail .isDirectory
  | some (.file ..), some (.directory _) => fail .isDirectory
  | some (.file bytes modified), _ =>
    set (((t.erase fromKey).place toKey (.file bytes modified)).touch (above toKey))

end Action

/-- Runs an action, keeping what it changed whether or not it fails. -/
def perform {α : Type} (a : Action α) (t : FileTree) : Except OsError α × FileTree :=
  a.run.run t

end Linkage.FileTree
