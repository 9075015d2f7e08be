import Linkage.Call.Overload
import Linkage.Mediation.Outcome
import Linkage.Text.Properties
import Linkage.View.Basic

/-!
The artifact of a run: what was decided, as records in the order in which they were put in. It is
written as properties text, one record a line. A list is recorded as its length and its items under
numbers from zero.
-/
namespace Linkage.Run

structure Artifact where
  records : List (String × String) := []
  deriving Repr, DecidableEq, Inhabited

namespace Artifact

def fileName : String := "interop-run.properties"

def formatVersion : String := "0.1"

/-- Puts a value under a key; a key that is there keeps its place. -/
def insert (a : Artifact) (key value : String) : Artifact :=
  ⟨Text.putProperty key value a.records⟩

def insertAll (a : Artifact) (records : List (String × String)) : Artifact :=
  records.foldl (fun a (key, value) => a.insert key value) a

def get? (a : Artifact) (key : String) : Option String :=
  (a.records.find? (·.1 == key)).map (·.2)

def size (a : Artifact) : Nat := a.records.length

/-- The artifact that every run starts with. -/
def start (stamp : String) : Artifact :=
  insertAll {} [("formatVersion", formatVersion), ("generatedAt", stamp)]

/-- The length of a list, and then the records of its items. -/
def listRecords {α : Type} (count lead : String) (item : String → α → List (String × String))
    (xs : List α) : List (String × String) :=
  (count, toString xs.length) :: xs.zipIdx.flatMap fun (x, i) => item (lead ++ toString i) x

def allowedScopes (u : Usage) : List Scope :=
  [.compile, .runtime, .provided, .test].filter u.allows

def decisionRecords (key : String) (d : Mediation.Decision) : List (String × String) :=
  [(key ++ ".artifact", d.coordinate.text), (key ++ ".selectedVersion", d.selectedVersion),
    (key ++ ".selectedPath", d.selectedLocation), (key ++ ".rejectedVersion", d.rejectedVersion),
    (key ++ ".rejectedPath", d.rejectedLocation), (key ++ ".rule", d.rule.text)]

def exclusionRecords (key : String) (x : Mediation.Exclusion) : List (String × String) :=
  [(key ++ ".ownerArtifact", x.ownerCoordinate.text), (key ++ ".ownerVersion", x.ownerVersion),
    (key ++ ".dependencyArtifact", x.coordinate.text), (key ++ ".dependencyVersion", x.version),
    (key ++ ".scope", x.scope.text), (key ++ ".usage", x.usage.text),
    (key ++ ".excludedPath", x.location)]

/-- The class path of the run and how it was chosen. -/
def classpathRecords (o : Mediation.Outcome) (mode : Isolation) : List (String × String) :=
  listRecords "interopClasspath.count" "interopClasspath." (fun key e => [(key, e.location)])
      o.mediated ++
    [("interopClasspath.scope.usage", o.usage.text),
      ("interopClasspath.scope.allowed",
        String.intercalate "," ((allowedScopes o.usage).map Scope.text)),
      ("interopClasspath.classloaderIsolation", mode.text)] ++
    listRecords "interopClasspath.mediation.count" "interopClasspath.mediation." decisionRecords
      o.decisions ++
    listRecords "interopClasspath.scopeExclusion.count" "interopClasspath.scopeExclusion."
      exclusionRecords o.exclusions

def classIndexRecords (path : String) (v : ClassView) : List (String × String) :=
  let stats := v.releaseStats
  let key := "interopClasspath.classIndex."
  [(key ++ "path", path), (key ++ "targetRelease", toString v.release),
    (key ++ "symbolCount", toString v.symbols.length),
    (key ++ "duplicateCount", toString v.duplicates.length),
    (key ++ "mrJarWinnerCount", toString stats.winners),
    (key ++ "mrJarBaseWinnerCount", toString stats.baseWinners),
    (key ++ "mrJarVersionedWinnerCount", toString stats.versionedWinners)]

/-- Two resolutions that stand for one member. -/
def sameMember (a b : Call.Resolution) : Bool :=
  a.target == b.target && a.descriptor == b.descriptor

/-- The first resolution of every member among those that follow the ones already chosen. -/
def selected (chosen : List Call.Resolution) : List Call.Resolution → List Call.Resolution
  | [] => chosen
  | r :: rest =>
    if chosen.any (sameMember · r) then selected chosen rest else selected (chosen ++ [r]) rest

def bindingRecords (key : String) (r : Call.Resolution) : List (String × String) :=
  [(key ++ ".target", r.target.text), (key ++ ".owner", r.owner), (key ++ ".name", r.name),
    (key ++ ".descriptor", r.descriptor), (key ++ ".invokeKind", r.instruction.text)]

/-- The members that were bound in the run, out of the targets that it may call. -/
def resolutionRecords (targetCount : Nat) (rs : List Call.Resolution) : List (String × String) :=
  ("interopBridges.targetCount", toString targetCount) ::
    listRecords "interopBridges.selectedTargetCount" "interopBridges.selectedTarget." bindingRecords
      (selected [] rs)

/-- A character of a key or a value; a separator is escaped in a key only. -/
def escapeChar (isKey : Bool) (c : Char) : List Char :=
  if c = '\\' then ['\\', '\\']
  else if c = '\n' then ['\\', 'n']
  else if c = '\r' then ['\\', 'r']
  else if c = '\t' then ['\\', 't']
  else if isKey && (c = '=' || c = ':' || c = ' ') then ['\\', c]
  else [c]

def escape (isKey : Bool) (s : String) : String :=
  String.ofList (s.toList.flatMap (escapeChar isKey))

def header : String := "#jv interop run\n"

def recordLine (key value : String) : String := escape true key ++ "=" ++ escape false value ++ "\n"

def text (a : Artifact) : String :=
  header ++ String.join (a.records.map fun (key, value) => recordLine key value)

end Artifact

end Linkage.Run
