import Linkage.Call.Forwarding
import Linkage.Run.Artifact
import Linkage.Run.Session

/-!
The end of a run: its class index, the forwarding classes if a package for them is configured, and
the artifact are delivered together, the artifact last.
-/
namespace Linkage.Run

structure Summary where
  runId : String
  artifactPath : String
  classIndexPath : String
  forwardingPaths : List String
  artifact : Artifact
  warnings : List Diagnostic
  rulings : List Policy.Ruling
  deriving Repr, DecidableEq, Inhabited

namespace Session

/-- The directory of forwarding classes below the output directory. -/
def sourceDir : String := "bridge-src"

def forwardingClasses (s : Session) : List Call.ForwardingClass :=
  match s.config.bridgePackage with
  | some package => Call.ForwardingClass.generate package s.manifest.targets
  | none => []

/-- Where the forwarding classes are after the run. -/
def forwardingPaths (s : Session) : List String :=
  let root := Path.join s.config.outputDir sourceDir
  s.forwardingClasses.map fun f => Path.join root f.path

def forwardingRecords (s : Session) : List (String × String) :=
  match s.config.bridgePackage with
  | some package =>
    ("interopBridges.package", package) ::
      Artifact.listRecords "interopBridges.sourceCount" "interopBridges.source."
        (fun key path => [(key, path)]) s.forwardingPaths
  | none => []

def fallbacks (s : Session) : List Diagnostic := (s.gate.journal.map (·.fallbacks)).getD []

def auditRecords (s : Session) : List (String × String) :=
  match s.gate.journal with
  | some j => [("interopAudit.log", j.path),
      ("interopAudit.fallbackCount", toString j.fallbacks.length)]
  | none => []

def classIndexPath (s : Session) : String :=
  Path.join s.config.outputDir ClassView.indexFileName

def artifact (s : Session) (stamp : String) : Artifact :=
  (Artifact.start stamp).insertAll
    ([("runId", s.runId), ("interopPolicy", s.gate.policy.mode.text)] ++
      Artifact.classpathRecords s.mediation s.bridge.view.mode ++
      Artifact.classIndexRecords s.classIndexPath s.bridge.view ++
      Artifact.resolutionRecords s.manifest.targets.length s.bridge.resolved ++
      s.forwardingRecords ++ s.auditRecords)

/-- The files of a run in the order in which they are delivered. -/
def outputs (s : Session) (stamp : String) : List Output :=
  [⟨.classIndex, ClassView.indexFileName, s.bridge.view.toJson.pretty⟩] ++
    s.forwardingClasses.map (fun f => ⟨.forwardingClass, Path.join sourceDir f.path, f.source⟩) ++
    [⟨.artifact, Artifact.fileName, (s.artifact stamp).text⟩]

def summary (s : Session) (stamp : String) : Summary where
  runId := s.runId
  artifactPath := Path.join s.config.outputDir Artifact.fileName
  classIndexPath := s.classIndexPath
  forwardingPaths := s.forwardingPaths
  artifact := s.artifact stamp
  warnings := s.warnings ++ s.fallbacks
  rulings := s.gate.rulings

def finish (s : Session) (stamp : String) (tree : FileTree) : Except Fault Summary × FileTree :=
  match Output.deliver s.config.outputDir s.runId (s.outputs stamp) tree with
  | (.error f, tree) => (.error (.output f), tree)
  | (.ok (), tree) => (.ok (s.summary stamp), tree)

end Session

end Linkage.Run
