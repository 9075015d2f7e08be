import Linkage.Policy.Source

/-!
The effective policy of a run. Every setting is decided on its own: a value stated for the run
comes first, then that of the project, then that of all projects. Where project and all projects
state different values, nothing is chosen and the conflict is reported.
-/
namespace Linkage.Policy

inductive Origin where
  | default
  | global
  | project
  | override
  deriving Repr, DecidableEq, Inhabited

def Origin.text : Origin → String
  | .default => "default"
  | .global => "global"
  | .project => "project"
  | .override => "override"

/-- What is stated for one run; the approval is what the caller shows, not a setting. -/
structure Overrides where
  settings : Settings := {}
  approval : Option String := none
  deriving Repr, DecidableEq, Inhabited

structure Sources where
  project : Option Source := none
  global : Option Source := none
  overrides : Overrides := {}
  deriving Repr, DecidableEq, Inhabited

/-- A setting to which project and all projects give different values. -/
structure Conflict where
  setting : Setting
  projectValue : String
  projectPath : String
  globalValue : String
  globalPath : String
  deriving Repr, DecidableEq, Inhabited

namespace Conflict

def message (c : Conflict) : String :=
  "conflicting interop policy setting `" ++ c.setting.key ++ "`: project `" ++ c.projectValue ++
    "` (" ++ c.projectPath ++ ") vs global `" ++ c.globalValue ++ "` (" ++ c.globalPath ++ ")"

def diagnostic (c : Conflict) : Diagnostic :=
  (Diagnostic.error Diagnostic.Code.policyConflict c.message)
    |>.withContext "setting" c.setting.key
    |>.withContext "projectValue" c.projectValue
    |>.withContext "projectPolicyPath" c.projectPath
    |>.withContext "globalValue" c.globalValue
    |>.withContext "globalPolicyPath" c.globalPath
    |>.withContext "flag" c.setting.flag
    |>.withRemedy ("Align the policy files or pass `" ++ c.setting.flag ++
      "` to select one value explicitly.")

end Conflict

structure Effective where
  mode : Mode
  ackRisk : Bool
  actorRoles : List String
  requiredRoles : List String
  sensitiveTargets : List String
  sensitiveRequiredRoles : List String
  approvalRequired : Bool
  approvalTargets : List String
  approvalToken : Option String
  providedApproval : Option String
  isolation : Option Isolation
  scope : Option Usage
  denylist : List String
  allowlist : List String
  origins : List (Setting × Origin)
  deriving Repr, DecidableEq, Inhabited

def Effective.toJson (p : Effective) : Json :=
  .object [("mode", .string p.mode.text), ("ackRisk", .bool p.ackRisk),
    ("actorRoles", .strings p.actorRoles), ("requiredRoles", .strings p.requiredRoles),
    ("sensitiveTargets", .strings p.sensitiveTargets),
    ("sensitiveRequiredRoles", .strings p.sensitiveRequiredRoles),
    ("approvalRequired", .bool p.approvalRequired), ("approvalTargets", .strings p.approvalTargets),
    ("approvalToken", .ofString? p.approvalToken),
    ("providedApproval", .ofString? p.providedApproval),
    ("classloaderIsolation", .ofString? (p.isolation.map Isolation.text)),
    ("classpathScope", .ofString? (p.scope.map Usage.text)),
    ("denylist", .strings p.denylist), ("allowlist", .strings p.allowlist)]

namespace Sources

/-- The first of the three values that is stated. -/
def pick {α : Type} (s : Sources) (read : Settings → Option α) : Option α :=
  read s.overrides.settings <|> s.project.bind (read ·.settings) <|>
    s.global.bind (read ·.settings)

/-- Which of the three values that is. -/
def originOf (s : Sources) (k : Setting) : Origin :=
  if (s.overrides.settings.get? k).isSome then .override
  else if (s.project.bind (·.settings.get? k)).isSome then .project
  else if (s.global.bind (·.settings.get? k)).isSome then .global
  else .default

/-- The conflict over one setting, unless the run states the setting itself. -/
def conflictOver? (s : Sources) (k : Setting) : Option Conflict :=
  if (s.overrides.settings.get? k).isSome then none
  else do
    let project ← s.project
    let global ← s.global
    let a ← project.settings.get? k
    let b ← global.settings.get? k
    if a.agrees b then none
    else some ⟨k, a.text, project.path, b.text, global.path⟩

/-- A shown approval counts trimmed, and not at all when it is blank. -/
def shownApproval (o : Overrides) : Option String :=
  (o.approval.map Text.trim).filter (!·.isEmpty)

/-- The effective policy, or the first conflict in the order of the settings. -/
def merge (s : Sources) : Except Conflict Effective :=
  match Setting.all.findSome? s.conflictOver? with
  | some c => .error c
  | none => .ok {
      mode := (s.pick (·.mode)).getD .strict
      ackRisk := (s.pick (·.ackRisk)).getD false
      actorRoles := (s.pick (·.actorRoles)).getD []
      requiredRoles := (s.pick (·.requiredRoles)).getD []
      sensitiveTargets := (s.pick (·.sensitiveTargets)).getD []
      sensitiveRequiredRoles := (s.pick (·.sensitiveRequiredRoles)).getD []
      approvalRequired := (s.pick (·.approvalRequired)).getD false
      approvalTargets := (s.pick (·.approvalTargets)).getD []
      approvalToken := s.pick (·.approvalToken)
      providedApproval := shownApproval s.overrides
      isolation := s.pick (·.isolation)
      scope := s.pick (·.scope)
      denylist := (s.pick (·.denylist)).getD []
      allowlist := (s.pick (·.allowlist)).getD []
      origins := Setting.all.map fun k => (k, s.originOf k) }

end Sources

end Linkage.Policy
