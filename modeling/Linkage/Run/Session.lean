import Linkage.Call.Bridge
import Linkage.Classpath.Scan
import Linkage.Classpath.Store
import Linkage.Policy.Gate
import Linkage.Run.Config
import Linkage.Run.Manifest
import Linkage.Run.Output
import Linkage.View.Assemble

/-!
A session: the class path of a run, its view of classes, and the bridge that calls go through after
the gate has ruled on them. Preparing a session does all that may fail at the start and rules on
every target of the manifest. A target that was allowed once is not ruled on again; one that was
denied is ruled on at every attempt.
-/
namespace Linkage.Run

open Policy (GateFault Journal Sinks)

/-- What a run finds outside its configuration. -/
structure Surroundings where
  globalPolicy : Option String := none
  home : Option String := none
  javaHome : Option String := none
  /-- The time that is noted with rulings and outputs. -/
  stamp : String := ""
  /-- The name of a run that is given none. -/
  freshRunId : String := ""
  deriving Repr, DecidableEq, Inhabited

/-- What is asked of a run. -/
structure Request where
  programDirs : List String := []
  classpath : List String := []
  manifest : Manifest := {}
  overrides : Policy.Overrides := {}
  deriving Repr, DecidableEq, Inhabited

inductive Fault where
  | config (fault : ConfigFault)
  | policy (fault : Policy.SourceFault)
  | conflict (conflict : Policy.Conflict)
  | scope (violation : Mediation.ScopeViolation)
  | isolation (conflict : IsolationConflict)
  | gate (fault : GateFault)
  | call (failure : Call.Failure)
  | output (fault : OutputFault)
  deriving Repr, DecidableEq, Inhabited

namespace Fault

def message : Fault → String
  | .config f => f.message
  | .policy f => f.message
  | .conflict c => c.message
  | .scope v => v.message
  | .isolation c => c.message
  | .gate f => f.message
  | .call f => f.message
  | .output f => f.message

def diagnostic : Fault → Diagnostic
  | .config f => Diagnostic.error Diagnostic.Code.invalidConfig f.message
  | .policy f => f.diagnostic
  | .conflict c => c.diagnostic
  | .scope v => v.diagnostic
  | .isolation c => c.diagnostic
  | .gate f => f.diagnostic
  | .call f => f.diagnostic
  | .output f =>
    (Diagnostic.error Diagnostic.Code.outputUnwritable f.message).withContext "output" f.path

def code (f : Fault) : String := f.diagnostic.code

end Fault

structure Session where
  config : Config
  runId : String
  manifest : Manifest
  index : Classpath.Index
  mediation : Mediation.Outcome
  bridge : Call.Bridge
  gate : Policy.Gate
  actor : Policy.Actor
  /-- The targets that were allowed, as text. -/
  authorized : List String := []
  warnings : List Diagnostic := []

namespace Session

/-- Rules on a target unless it was allowed before. -/
def authorize {σ : Type} (sinks : Journal → Sinks σ) (stamp : String) (s : Session)
    (target : Call.Target) (w : σ) : Except GateFault Unit × Session × σ :=
  let key := target.text
  if s.authorized.contains key then (.ok (), s, w)
  else match s.gate.authorize sinks stamp key s.actor w with
    | (.ok _, gate, w) => (.ok (), { s with gate, authorized := s.authorized ++ [key] }, w)
    | (.error f, gate, w) => (.error f, { s with gate }, w)

/-- Resolves a target that the gate allows. -/
def resolve {σ : Type} (sinks : Journal → Sinks σ) (stamp : String) (s : Session)
    (target : Call.Target) (receiver : Option String) (shapes : List Shape) (w : σ) :
    Except Fault Call.Resolution × Session × σ :=
  match s.authorize sinks stamp target w with
  | (.error f, s, w) => (.error (.gate f), s, w)
  | (.ok (), s, w) =>
    let (outcome, bridge) := s.bridge.ask (.make target receiver shapes)
    (outcome.mapError Fault.call, { s with bridge }, w)

/-- Resolves a call that the gate allows and adapts its arguments. -/
def dispatch {σ : Type} (sinks : Journal → Sinks σ) (stamp : String) (s : Session)
    (target : Call.Target) (receiver : Option Value) (arguments : List Value) (w : σ) :
    Except Fault Call.Dispatch × Session × σ :=
  match s.authorize sinks stamp target w with
  | (.error f, s, w) => (.error (.gate f), s, w)
  | (.ok (), s, w) =>
    let (outcome, bridge) := s.bridge.prepare target receiver arguments
    (outcome.mapError Fault.call, { s with bridge }, w)

/-- Carries a call out, if the gate allows it. -/
def invoke {σ : Type} (sinks : Journal → Sinks σ) (stamp : String) (s : Session)
    (host : Call.Invoker σ) (target : Call.Target) (receiver : Option Value)
    (arguments : List Value) (w : σ) : Except Fault Value × Session × σ :=
  match s.dispatch sinks stamp target receiver arguments w with
  | (.error f, s, w) => (.error f, s, w)
  | (.ok d, s, w) =>
    let (answer, w) := host d w
    ((d.answer answer).mapError Fault.call, s, w)

/-- Rules on targets one after another until one may not be called. -/
def authorizeAll {σ : Type} (sinks : Journal → Sinks σ) (stamp : String) :
    List Call.Target → Session → σ → Except GateFault Session × σ
  | [], s, w => (.ok s, w)
  | target :: rest, s, w =>
    match s.authorize sinks stamp target w with
    | (.error f, _, w) => (.error f, w)
    | (.ok (), s, w) => authorizeAll sinks stamp rest s w

end Session

namespace Preparation

/-- The policy file of the project: the one that is named, else the nearest one. -/
def projectPolicy (tree : FileTree) (c : Config) :
    Except Policy.SourceFault (Option Policy.Source) :=
  match c.projectPolicy, c.projectRoot with
  | some path, _ => (Policy.Source.load tree path).map some
  | none, some root => Policy.Source.discoverProject tree root
  | none, none => .ok none

/-- The policy file for all projects, where one is named or looked for. -/
def globalPolicy (tree : FileTree) (c : Config) (around : Surroundings) :
    Except Policy.SourceFault (Option Policy.Source) :=
  match c.globalPolicy with
  | some path => (Policy.Source.load tree path).map some
  | none =>
    if c.discoverGlobalPolicy then
      Policy.Source.discoverGlobal tree around.globalPolicy around.home
    else .ok none

def policy (tree : FileTree) (c : Config) (around : Surroundings) (overrides : Policy.Overrides) :
    Except Fault Policy.Effective := do
  let project ← (projectPolicy tree c).mapError Fault.policy
  let global ← (globalPolicy tree c around).mapError Fault.policy
  (Policy.Sources.merge { project, global, overrides }).mapError Fault.conflict

/-- The program's own directories come first, then the libraries. -/
def entries (tree : FileTree) (r : Request) : List Classpath.Entry :=
  let own := r.programDirs.zipIdx.map fun (path, ordinal) =>
    (⟨ordinal, .directory, path, .program⟩ : Classpath.Entry)
  own ++ Classpath.discover tree r.classpath .library own.length

/-- The runtime image that is configured, else the one of the surroundings if it is there. -/
def runtimeImage (tree : FileTree) (c : Config) (around : Surroundings) : Option String :=
  c.runtimeImage <|> around.javaHome.filter tree.exists?

/-- The index of a class path. A store saves building it again; one that fails costs only that. -/
def index (c : Config) (image : Option String) (entries : List Classpath.Entry)
    (tree : FileTree) : Classpath.Index × FileTree :=
  match c.cacheDir with
  | none => (.build tree image entries, tree)
  | some root =>
    let print := Classpath.Fingerprint.capture tree image entries
    match Classpath.Store.load tree root print with
    | .ok (some ix) => (ix, tree)
    | _ =>
      let ix := Classpath.Index.build tree image entries
      (ix, (FileTree.perform (Classpath.Store.save root print ix) tree).2)

/-- What the index has to say, and the releases that do not fit among the chosen entries. -/
def warnings (c : Config) (ix : Classpath.Index) (o : Mediation.Outcome) : List Diagnostic :=
  let mismatches := (ix.select c.targetRelease).mismatches.filter fun m => o.isMediated m.entry
  ix.diagnostics ++ mismatches.map (·.diagnostic)

/-- The journal that is configured, if any. -/
def journal (c : Config) (runId : String) (tree : FileTree) :
    Except Policy.JournalFault (Option Journal) × FileTree :=
  match c.audit.log with
  | none => (.ok none, tree)
  | some path =>
    let (journal, tree) := Journal.start runId path c.audit.aggregate tree
    (journal.map some, tree)

/-- The session before any target of its manifest is ruled on, without its journal. -/
def assemble (c : Config) (around : Surroundings) (r : Request) (p : Policy.Effective)
    (ix : Classpath.Index) : Except Fault Session := do
  let o := Mediation.mediate ix (p.scope.getD c.usage)
  (o.checkScope ix r.manifest.owners).mapError Fault.scope
  let names := (View.Namespace.ofIndex ix).extend
    (View.Namespace.ofNames r.manifest.programClasses r.manifest.location)
  let view ← (ClassView.assemble (p.isolation.getD c.isolation) c.targetRelease names ix o).mapError
    Fault.isolation
  pure {
    config := c
    runId := c.audit.runId.getD around.freshRunId
    manifest := r.manifest
    index := ix
    mediation := o
    bridge := { view }
    gate := { policy := p }
    actor := Policy.Actor.ofPolicy p
    warnings := warnings c ix o }

end Preparation

/-- Prepares a session. What was written on the way stays written when a later step fails. -/
def Session.prepare (c : Config) (around : Surroundings) (r : Request) (tree : FileTree) :
    Except Fault Session × FileTree :=
  let checked : Except Fault Policy.Effective := do
    c.validate.mapError Fault.config
    Preparation.policy tree c around r.overrides
  match checked with
  | .error f => (.error f, tree)
  | .ok p =>
    let image := Preparation.runtimeImage tree c around
    let (ix, tree) := Preparation.index c image (Preparation.entries tree r) tree
    match Preparation.assemble c around r p ix with
    | .error f => (.error f, tree)
    | .ok s =>
      match Preparation.journal c s.runId tree with
      | (.error f, tree) => (.error (.gate (.unwritten f)), tree)
      | (.ok journal, tree) =>
        let s := { s with gate := { s.gate with journal } }
        match Session.authorizeAll Journal.files around.stamp s.manifest.targets s tree with
        | (.error f, tree) => (.error (.gate f), tree)
        | (.ok s, tree) => (.ok s, tree)

end Linkage.Run
