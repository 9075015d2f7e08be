import Linkage.FileTree.Action

/-!
Putting the files of a run into its output directory. All of them are written into a staging
directory first and then moved one after another. When a move fails, the files that were moved are
removed again, with the directories that this leaves empty.
-/
namespace Linkage.Run

inductive OutputKind where
  | classIndex
  | forwardingClass
  | artifact
  deriving Repr, DecidableEq, Inhabited

/-- A file with its path below the output directory. -/
structure Output where
  kind : OutputKind
  path : String
  text : String
  deriving Repr, DecidableEq, Inhabited

/-- The step that a file did not get past. -/
inductive OutputStep where
  | write (kind : OutputKind)
  | publish
  deriving Repr, DecidableEq, Inhabited

structure OutputFault where
  step : OutputStep
  path : String
  error : OsError
  deriving Repr, DecidableEq, Inhabited

def OutputFault.message (f : OutputFault) : String :=
  let what := match f.step with
    | .write .classIndex => "failed to persist interop outputs: failed to write class index "
    | .write .forwardingClass => "failed to write bridge source "
    | .write .artifact => "failed to write run artifact "
    | .publish => "failed to publish interop output "
  what ++ f.path ++ ": " ++ f.error.message

namespace Output

open FileTree (Action perform)

/-- The staging directory of a run; only letters, digits and hyphens of its name are kept. -/
def stagingName (runId : String) : String :=
  let safe := runId.toList.map fun c => if c.isAlphanum || c == '-' then c else '_'
  "." ++ String.ofList safe ++ ".staging"

/-- The path that is reported when the directory for a file cannot be made. -/
def directoryReport (kind : OutputKind) (path up : String) : String :=
  if kind = .artifact then path else up

/-- Makes the directory that holds a path. -/
def makeRoom (path : String) : Action Unit :=
  match Path.parent? path with
  | some up => Action.createAll up
  | none => pure ()

/-- Writes one file below a directory. -/
def write (root : String) (o : Output) (t : FileTree) : Except OutputFault Unit × FileTree :=
  let path := Path.join root o.path
  match perform (makeRoom path) t with
  | (.error e, t) =>
    (.error ⟨.write o.kind, directoryReport o.kind path ((Path.parent? path).getD path), e⟩, t)
  | (.ok (), t) =>
    match perform (Action.writeText path o.text) t with
    | (.error e, t) => (.error ⟨.write o.kind, path, e⟩, t)
    | (.ok (), t) => (.ok (), t)

/-- Writes files until one fails. -/
def writeAll (root : String) : List Output → FileTree → Except OutputFault Unit × FileTree
  | [], t => (.ok (), t)
  | o :: rest, t =>
    match o.write root t with
    | (.ok (), t) => writeAll root rest t
    | (.error f, t) => (.error f, t)

/-- Removes directories, the innermost first, up to one that stays or is not empty. -/
def removeEmpty (stop : String) : List String → FileTree → FileTree
  | [], t => t
  | up :: rest, t =>
    if Path.components up == Path.components stop then t
    else match perform (Action.removeDirectory up) t with
      | (.ok (), t) => removeEmpty stop rest t
      | (.error _, t) => t

/-- Removes a file that was moved into the output directory. -/
def takeBack (outputDir : String) (t : FileTree) (path : String) : FileTree :=
  removeEmpty outputDir (Path.ancestors path) (perform (Action.removeFile path) t).2

/-- Moves one file from the staging directory to its place. -/
def move (staging target path : String) : Action Unit := do
  makeRoom target
  Action.moveFile (Path.join staging path) target

/-- Moves files into the output directory; `moved` holds the places of those that are there. -/
def publish (staging outputDir : String) (moved : List String) :
    List String → FileTree → Except OutputFault Unit × FileTree
  | [], t => (.ok (), t)
  | path :: rest, t =>
    let target := Path.join outputDir path
    match perform (move staging target path) t with
    | (.ok (), t) => publish staging outputDir (moved ++ [target]) rest t
    | (.error e, t) => (.error ⟨.publish, target, e⟩, moved.foldl (takeBack outputDir) t)

def discard (staging : String) (t : FileTree) : FileTree := (perform (Action.removeTree staging) t).2

/-- Stages and publishes files; the staging directory is gone afterwards in any case. -/
def deliver (outputDir runId : String) (outputs : List Output) (t : FileTree) :
    Except OutputFault Unit × FileTree :=
  let staging := Path.join outputDir (stagingName runId)
  match writeAll staging outputs t with
  | (.error f, t) => (.error f, discard staging t)
  | (.ok (), t) =>
    let (result, t) := publish staging outputDir [] (outputs.map (·.path)) t
    (result, discard staging t)

end Output

end Linkage.Run
