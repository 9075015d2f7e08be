import Linkage.FileTree.Action
import Linkage.Policy.Ruling

/-!
The audit journal of a run: one line of JSON for every ruling, and a copy of it in a shared journal
if there is one. A shared journal that cannot be written is noted in the run's own journal, and the
ruling stands; a line that the run's own journal does not take makes the ruling void.
-/
namespace Linkage.Policy

/-- Where lines go to; a state of type `σ` is what writing changes. -/
structure Sinks (σ : Type) where
  own : String → σ → Except OsError Unit × σ
  shared : String → σ → Except OsError Unit × σ

structure Journal where
  run : String
  path : String
  sharedPath : Option String := none
  fallbacks : List Diagnostic := []
  deriving Repr, DecidableEq, Inhabited

/-- A line that the run's own journal did not take. -/
structure JournalFault where
  path : String
  error : OsError
  deriving Repr, DecidableEq, Inhabited

namespace JournalFault

def message (f : JournalFault) : String :=
  "failed to write interop audit log " ++ f.path ++ ": " ++ f.error.message

def diagnostic (f : JournalFault) : Diagnostic :=
  (Diagnostic.error Diagnostic.Code.auditUnwritable f.message).withContext "auditLog" f.path

end JournalFault

namespace Journal

/-- The fields of a line about a ruling. -/
def fields (run : String) (r : Ruling) (stamp verdict code message : String) :
    List (String × Json) :=
  [("ts", .string stamp), ("run", .string run), ("target", .string r.target),
    ("decision", .string verdict), ("code", .string code), ("message", .string message),
    ("scope", .string r.scope.text), ("actorRoles", .strings r.actorRoles)]

def line (fields : List (String × Json)) : String := (Json.object fields).compact ++ "\n"

def rulingFields (j : Journal) (r : Ruling) : List (String × Json) :=
  fields j.run r r.stamp r.verdict (r.reason?.getD "") r.message

def ownLine (j : Journal) (r : Ruling) : String := line (j.rulingFields r)

def sharedLine (j : Journal) (r : Ruling) : String :=
  line ([("schema", .string "jv.interop.audit.v1")] ++ j.rulingFields r ++
    [("outcome", .string (if r.isAllowed then "success" else "failure"))])

def fallbackMessage (e : OsError) : String :=
  "centralized audit sink unavailable: " ++ e.message ++ " (fallback=local)"

/-- The line that notes a failure of the shared journal. -/
def warningLine (j : Journal) (r : Ruling) (e : OsError) : String :=
  line (fields j.run r r.stamp "warn" Diagnostic.Code.auditAggregateFallback (fallbackMessage e))

def warning (j : Journal) (sharedPath : String) (r : Ruling) (e : OsError) : Diagnostic :=
  (Diagnostic.warning Diagnostic.Code.auditAggregateFallback (fallbackMessage e))
    |>.withContext "aggregateAudit" sharedPath
    |>.withContext "auditLog" j.path
    |>.withContext "target" r.target

/-- Writes a ruling down. -/
def record {σ : Type} (sinks : Sinks σ) (j : Journal) (r : Ruling) (s : σ) :
    Except JournalFault Journal × σ :=
  match sinks.own (j.ownLine r) s with
  | (.error e, s) => (.error ⟨j.path, e⟩, s)
  | (.ok (), s) =>
    match j.sharedPath with
    | none => (.ok j, s)
    | some sharedPath =>
      match sinks.shared (j.sharedLine r) s with
      | (.ok (), s) => (.ok j, s)
      | (.error e, s) =>
        match sinks.own (j.warningLine r e) s with
        | (.error e', s) => (.error ⟨j.path, e'⟩, s)
        | (.ok (), s) =>
          (.ok { j with fallbacks := j.fallbacks ++ [j.warning sharedPath r e] }, s)

/-- Makes sure that a journal file is there, and the directories above it. -/
def openFile (path : String) : FileTree.Action Unit := do
  match (Path.parent? path).filter (!·.isEmpty) with
  | some up => FileTree.Action.createAll up
  | none => pure ()
  FileTree.Action.append path []

/-- The files of a journal: its own is open already, the shared one is opened when it is needed. -/
def files (j : Journal) : Sinks FileTree where
  own text tree := FileTree.perform (FileTree.Action.append j.path (Text.encodeUtf8 text)) tree
  shared text tree :=
    match j.sharedPath with
    | none => (.ok (), tree)
    | some path =>
      FileTree.perform (do openFile path; FileTree.Action.append path (Text.encodeUtf8 text)) tree

def start (run path : String) (sharedPath : Option String) (tree : FileTree) :
    Except JournalFault Journal × FileTree :=
  match FileTree.perform (openFile path) tree with
  | (.ok (), tree) => (.ok { run, path, sharedPath }, tree)
  | (.error e, tree) => (.error ⟨path, e⟩, tree)

end Journal

end Linkage.Policy
