import Linkage.Mediation.Scope
import Linkage.View.Mode

/-!
Policy settings. There are thirteen, each under a key of its own with values of its own kind, and
a source states some of them. A setting that is not stated is kept apart from every value.
-/
namespace Linkage.Policy

/-- Whether targets have to be declared, or only the risk acknowledged. -/
inductive Mode where
  | strict
  | broad
  deriving Repr, DecidableEq, Inhabited

namespace Mode

def text : Mode → String
  | .strict => "strict"
  | .broad => "broad"

/-- Reads a mode; the error is the text that was compared. -/
def read (s : String) : Except String Mode :=
  let word := Text.trim s
  if word = "strict" then .ok .strict
  else if word = "broad" then .ok .broad
  else .error word

def unknown (word : String) : String :=
  "unknown interop policy `" ++ word ++ "` (expected `strict` or `broad`)"

end Mode

inductive Setting where
  | mode
  | ackRisk
  | actorRoles
  | requiredRoles
  | sensitiveTargets
  | sensitiveRequiredRoles
  | approvalRequired
  | approvalTargets
  | approvalToken
  | isolation
  | scope
  | denylist
  | allowlist
  deriving Repr, DecidableEq, Inhabited

namespace Setting

def all : List Setting :=
  [.mode, .ackRisk, .actorRoles, .requiredRoles, .sensitiveTargets, .sensitiveRequiredRoles,
    .approvalRequired, .approvalTargets, .approvalToken, .isolation, .scope, .denylist, .allowlist]

def name : Setting → String
  | .mode => "policy"
  | .ackRisk => "ackRisk"
  | .actorRoles => "rbac.roles"
  | .requiredRoles => "rbac.requiredRoles"
  | .sensitiveTargets => "rbac.sensitiveTargets"
  | .sensitiveRequiredRoles => "rbac.sensitiveRequiredRoles"
  | .approvalRequired => "approval.required"
  | .approvalTargets => "approval.targets"
  | .approvalToken => "approval.token"
  | .isolation => "classloaderIsolation"
  | .scope => "classpathScope"
  | .denylist => "denylist"
  | .allowlist => "allowlist"

/-- What every key of a policy file starts with. -/
def lead : String := "interop."

def key (k : Setting) : String := lead ++ k.name

/-- The command-line flag that states the setting. -/
def flag : Setting → String
  | .mode => "--interop-policy"
  | .ackRisk => "--ack-interop-risk"
  | .actorRoles => "--interop-role"
  | .requiredRoles => "--interop-required-role"
  | .sensitiveTargets => "--interop-sensitive-target"
  | .sensitiveRequiredRoles => "--interop-sensitive-role"
  | .approvalRequired => "--interop-approval-required"
  | .approvalTargets => "--interop-approval-target"
  | .approvalToken => "--interop-approval-token"
  | .isolation => "--classloader-isolation"
  | .scope => "--classpath-usage"
  | .denylist => "--interop-denylist"
  | .allowlist => "--interop-allow"

def ofName? (name : String) : Option Setting := all.find? (·.name == name)

end Setting

/-- The value of one setting. -/
inductive SettingValue where
  | mode (m : Mode)
  | flag (b : Bool)
  | names (xs : List String)
  | token (s : String)
  | isolation (i : Isolation)
  | usage (u : Usage)
  deriving Repr, DecidableEq, Inhabited

namespace SettingValue

/-- The value as it is written in a policy file. -/
def text : SettingValue → String
  | .mode m => m.text
  | .flag b => toString b
  | .names xs => String.intercalate "," xs
  | .token s => s
  | .isolation i => i.text
  | .usage u => u.text

/-- Whether two values say the same; lists are compared as sets. -/
def agrees : SettingValue → SettingValue → Bool
  | .names xs, .names ys => xs.all ys.contains && ys.all xs.contains
  | a, b => a == b

end SettingValue

/-- A list with commas between its elements. Blank elements are dropped and repeated ones are kept
once, where they stand first. -/
def readList (raw : String) : List String :=
  Text.distinct (((Text.splitAll ',' raw).map Text.trim).filter (!·.isEmpty))

def readFlag? (raw : String) : Option Bool :=
  let word := Text.trim raw
  if Text.sameIgnoringCase word "true" then some true
  else if Text.sameIgnoringCase word "false" then some false
  else none

/-- Provided scope sees what compile scope sees. -/
def readScope? (raw : String) : Option Usage :=
  let word := asciiLower (Text.trim raw)
  if word = "compile" ∨ word = "provided" then some .compile
  else if word = "runtime" then some .runtime
  else none

/-- Reads the value of a setting; the error says what was expected. A blank token states nothing. -/
def Setting.read (k : Setting) (raw : String) : Except String (Option SettingValue) :=
  match k with
  | .mode =>
    match Mode.read raw with
    | .ok m => .ok (some (.mode m))
    | .error _ => .error "`strict` or `broad`"
  | .ackRisk | .approvalRequired =>
    match readFlag? raw with
    | some b => .ok (some (.flag b))
    | none => .error "`true` or `false`"
  | .isolation =>
    match Isolation.read raw with
    | .ok i => .ok (some (.isolation i))
    | .error _ => .error "`shared` or `app-isolated`"
  | .scope =>
    match readScope? raw with
    | some u => .ok (some (.usage u))
    | none => .error "`compile`, `runtime` or `provided`"
  | .approvalToken =>
    let token := Text.trim raw
    .ok (if token.isEmpty then none else some (.token token))
  | _ => .ok (some (.names (readList raw)))

/-- What one source states. -/
structure Settings where
  mode : Option Mode := none
  ackRisk : Option Bool := none
  actorRoles : Option (List String) := none
  requiredRoles : Option (List String) := none
  sensitiveTargets : Option (List String) := none
  sensitiveRequiredRoles : Option (List String) := none
  approvalRequired : Option Bool := none
  approvalTargets : Option (List String) := none
  approvalToken : Option String := none
  isolation : Option Isolation := none
  scope : Option Usage := none
  denylist : Option (List String) := none
  allowlist : Option (List String) := none
  deriving Repr, DecidableEq, Inhabited

namespace Settings

def get? (s : Settings) : Setting → Option SettingValue
  | .mode => s.mode.map .mode
  | .ackRisk => s.ackRisk.map .flag
  | .actorRoles => s.actorRoles.map .names
  | .requiredRoles => s.requiredRoles.map .names
  | .sensitiveTargets => s.sensitiveTargets.map .names
  | .sensitiveRequiredRoles => s.sensitiveRequiredRoles.map .names
  | .approvalRequired => s.approvalRequired.map .flag
  | .approvalTargets => s.approvalTargets.map .names
  | .approvalToken => s.approvalToken.map .token
  | .isolation => s.isolation.map .isolation
  | .scope => s.scope.map .usage
  | .denylist => s.denylist.map .names
  | .allowlist => s.allowlist.map .names

/-- States a setting, or withdraws it; a value of another kind changes nothing. -/
def put (s : Settings) : Setting → Option SettingValue → Settings
  | .mode, some (.mode m) => { s with mode := some m }
  | .ackRisk, some (.flag b) => { s with ackRisk := some b }
  | .actorRoles, some (.names xs) => { s with actorRoles := some xs }
  | .requiredRoles, some (.names xs) => { s with requiredRoles := some xs }
  | .sensitiveTargets, some (.names xs) => { s with sensitiveTargets := some xs }
  | .sensitiveRequiredRoles, some (.names xs) => { s with sensitiveRequiredRoles := some xs }
  | .approvalRequired, some (.flag b) => { s with approvalRequired := some b }
  | .approvalTargets, some (.names xs) => { s with approvalTargets := some xs }
  | .approvalToken, some (.token t) => { s with approvalToken := some t }
  | .approvalToken, none => { s with approvalToken := none }
  | .isolation, some (.isolation i) => { s with isolation := some i }
  | .scope, some (.usage u) => { s with scope := some u }
  | .denylist, some (.names xs) => { s with denylist := some xs }
  | .allowlist, some (.names xs) => { s with allowlist := some xs }
  | _, _ => s

def isEmpty (s : Settings) : Bool := s == {}

def toJson (s : Settings) : Json :=
  .object [("mode", .ofString? (s.mode.map Mode.text)), ("ackRisk", .ofOption .bool s.ackRisk),
    ("actorRoles", .ofOption .strings s.actorRoles),
    ("requiredRoles", .ofOption .strings s.requiredRoles),
    ("sensitiveTargets", .ofOption .strings s.sensitiveTargets),
    ("sensitiveRequiredRoles", .ofOption .strings s.sensitiveRequiredRoles),
    ("approvalRequired", .ofOption .bool s.approvalRequired),
    ("approvalTargets", .ofOption .strings s.approvalTargets),
    ("approvalToken", .ofString? s.approvalToken),
    ("classloaderIsolation", .ofString? (s.isolation.map Isolation.text)),
    ("classpathScope", .ofString? (s.scope.map Usage.text)),
    ("denylist", .ofOption .strings s.denylist), ("allowlist", .ofOption .strings s.allowlist)]

/-- A value that a setting does not have. -/
structure BadValue where
  setting : Setting
  value : String
  expected : String
  deriving Repr, DecidableEq, Inhabited

/-- States what a key and a value say; keys that are no settings say nothing. -/
def putPair (s : Settings) (pair : String × String) : Except BadValue Settings :=
  match (Text.stripStart? Setting.lead pair.1).bind Setting.ofName? with
  | none => .ok s
  | some k =>
    match k.read pair.2 with
    | .ok value => .ok (s.put k value)
    | .error expected => .error ⟨k, pair.2, expected⟩

/-- The settings that pairs of keys and values state, a later pair in place of an earlier one. -/
def ofPairs (pairs : List (String × String)) : Except BadValue Settings := pairs.foldlM putPair {}

end Settings

end Linkage.Policy
