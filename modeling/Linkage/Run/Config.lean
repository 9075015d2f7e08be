import Linkage.FileTree.Basic
import Linkage.Mediation.Scope
import Linkage.Toml.Document
import Linkage.View.Mode

/-!
The configuration of a run, read from TOML. Every key may be missing; unknown keys say nothing.
-/
namespace Linkage.Run

/-- Where rulings are written, and under which name of the run. -/
structure AuditConfig where
  log : Option String := none
  aggregate : Option String := none
  runId : Option String := none
  deriving Repr, DecidableEq, Inhabited

/-- Usage and isolation only count where the policy leaves them open. -/
structure Config where
  targetRelease : Nat := 21
  usage : Usage := .compile
  isolation : Isolation := .shared
  projectRoot : Option String := none
  projectPolicy : Option String := none
  globalPolicy : Option String := none
  discoverGlobalPolicy : Bool := true
  audit : AuditConfig := {}
  outputDir : String := "./out"
  cacheDir : Option String := none
  runtimeImage : Option String := none
  isParallel : Bool := true
  logLevel : String := "info"
  bridgePackage : Option String := none
  deriving Repr, DecidableEq, Inhabited

inductive ConfigFault where
  | io (path : String) (e : OsError)
  | malformed (path : String)
  | unsupportedRelease (release : Nat)
  | aggregateWithoutLog
  deriving Repr, DecidableEq, Inhabited

/-- Releases below this one are not supported. -/
def leastTargetRelease : Nat := 8

/-- The place of a fault inside malformed text is not told. -/
def ConfigFault.message : ConfigFault → String
  | .io path e => "failed to read interop config " ++ path ++ ": " ++ e.message
  | .malformed path => "failed to parse interop config " ++ path ++ ": <toml>"
  | .unsupportedRelease release =>
    "target release " ++ toString release ++ " is below the supported minimum of " ++
      toString leastTargetRelease
  | .aggregateWithoutLog =>
    "centralized interop audit aggregation requires a local fallback log; set `audit.log` " ++
      "together with `audit.aggregate`"

def AuditConfig.toJson (a : AuditConfig) : Json :=
  .object [("log", .ofString? a.log), ("aggregate", .ofString? a.aggregate),
    ("run-id", .ofString? a.runId)]

namespace Config

def toJson (c : Config) : Json :=
  .object [("target-release", .ofNat c.targetRelease), ("usage", .string c.usage.text),
    ("isolation", .string c.isolation.text), ("project-root", .ofString? c.projectRoot),
    ("project-policy", .ofString? c.projectPolicy), ("global-policy", .ofString? c.globalPolicy),
    ("discover-global-policy", .bool c.discoverGlobalPolicy), ("audit", c.audit.toJson),
    ("output-dir", .string c.outputDir), ("cache-dir", .ofString? c.cacheDir),
    ("runtime-image", .ofString? c.runtimeImage), ("parallel", .bool c.isParallel),
    ("log-level", .string c.logLevel), ("bridge-package", .ofString? c.bridgePackage)]

/-- A configuration that writes into one directory and looks for no policy. -/
def isolated (outputDir : String) : Config := { outputDir, discoverGlobalPolicy := false }

/-- A value of one kind, or nothing when it is of another kind. -/
abbrev Decoder (α : Type) := Toml → Option α

def text : Decoder String
  | .string s => some s
  | _ => none

def flag : Decoder Bool
  | .boolean b => some b
  | _ => none

/-- A release is a number of sixteen bits. -/
def release : Decoder Nat
  | .integer n => if 0 ≤ n ∧ n < 65536 then some n.toNat else none
  | _ => none

/-- A choice is a word, or a table whose only key is the word and holds nothing. -/
def choice : Decoder String
  | .string s => some s
  | .table [(word, .table [])] => some word
  | .table [(word, .array [])] => some word
  | _ => none

/-- Choices are told apart by their exact words. -/
def word {α : Type} (read : α → String) (all : List α) : Decoder α := fun t =>
  (choice t).bind fun w => all.find? (read · == w)

/-- The value under a key, or the default when the key is missing. -/
def field {α : Type} (t : Toml) (key : String) (decode : Decoder α) (default : α) : Option α :=
  match t.get? key with
  | none => some default
  | some value => decode value

def optional {α : Type} (t : Toml) (key : String) (decode : Decoder α) : Option (Option α) :=
  field t key (fun value => (decode value).map some) none

/-- Named fields, or the same fields one after another in an array. A date counts as a table with
a key of its own, so that it has none of the fields. -/
def named (keys : List String) : Toml → Option Toml
  | .table entries => some (.table entries)
  | .array items => some (.table (keys.zip items))
  | .datetime _ => some (.table [])
  | _ => none

def auditOf (t : Toml) : Option AuditConfig := do
  let t ← named ["log", "aggregate", "run-id"] t
  pure {
    log := ← optional t "log" text
    aggregate := ← optional t "aggregate" text
    runId := ← optional t "run-id" text }

def ofToml (t : Toml) : Option Config := do
  pure {
    targetRelease := ← field t "target-release" release 21
    usage := ← field t "usage" (word Usage.text [.compile, .runtime]) .compile
    isolation := ← field t "isolation" (word Isolation.text [.shared, .appIsolated]) .shared
    projectRoot := ← optional t "project-root" text
    projectPolicy := ← optional t "project-policy" text
    globalPolicy := ← optional t "global-policy" text
    discoverGlobalPolicy := ← field t "discover-global-policy" flag true
    audit := ← field t "audit" auditOf {}
    outputDir := ← field t "output-dir" text "./out"
    cacheDir := ← optional t "cache-dir" text
    runtimeImage := ← optional t "runtime-image" text
    isParallel := ← field t "parallel" flag true
    logLevel := ← field t "log-level" text "info"
    bridgePackage := ← optional t "bridge-package" text }

def validate (c : Config) : Except ConfigFault Unit :=
  if c.targetRelease < leastTargetRelease then .error (.unsupportedRelease c.targetRelease)
  else if c.audit.aggregate.isSome && c.audit.log.isNone then .error .aggregateWithoutLog
  else .ok ()

def load (tree : FileTree) (path : String) : Except ConfigFault Config := do
  let source ← (tree.readText path).mapError (ConfigFault.io path)
  match (Toml.read? source).bind ofToml with
  | none => throw (.malformed path)
  | some c => do
    c.validate
    pure c

end Config

end Linkage.Run
