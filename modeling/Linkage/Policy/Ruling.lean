import Linkage.Policy.Effective
import Linkage.Policy.Pattern

/-!
Ruling on a target. The steps are taken in order and the first that fails denies: the denylist,
the mode, the roles that every target needs, the roles that sensitive targets need, the approval.
-/
namespace Linkage.Policy

/-- Who calls, and which approval is shown. -/
structure Actor where
  roles : List String
  approval : Option String := none
  deriving Repr, DecidableEq, Inhabited

namespace Actor

def ofPolicy (p : Effective) : Actor := ⟨p.actorRoles, p.providedApproval⟩

/-- Whether the actor has one of the roles; the case of letters does not count. -/
def hasAny (a : Actor) (required : List String) : Bool :=
  required.any fun role => a.roles.any (Text.sameIgnoringCase role)

end Actor

inductive RoleScope where
  | general
  | sensitive
  deriving Repr, DecidableEq, Inhabited

def RoleScope.text : RoleScope → String
  | .general => "general"
  | .sensitive => "sensitive"

/-- Why a target is denied. -/
inductive Denial where
  | denylisted (pattern : String)
  | undeclared
  | riskNotAcknowledged
  | roleMissing (scope : RoleScope) (required actorRoles : List String)
  | approvalRequired (expected provided : Option String)
  deriving Repr, DecidableEq, Inhabited

namespace Denial

def code : Denial → String
  | .denylisted _ => Diagnostic.Code.denylisted
  | .undeclared => Diagnostic.Code.strictUndeclared
  | .riskNotAcknowledged => Diagnostic.Code.riskNotAcknowledged
  | .roleMissing .. => Diagnostic.Code.rbacDenied
  | .approvalRequired .. => Diagnostic.Code.approvalRequired

def commas (xs : List String) : String := String.intercalate "," xs

def message (target : String) : Denial → String
  | .denylisted pattern =>
    "interop target `" ++ target ++ "` is blocked by denylist pattern `" ++ pattern ++ "`"
  | .undeclared =>
    "strict interop policy: `" ++ target ++ "` is not declared in the interop allowlist"
  | .riskNotAcknowledged =>
    "broad interop policy requires risk acknowledgement before calling `" ++ target ++ "`"
  | .roleMissing scope required _ =>
    "interop authorization failed for `" ++ target ++ "`: missing role for `" ++ scope.text ++
      "` scope (required: " ++ commas required ++ ")"
  | .approvalRequired .. => "sensitive interop target `" ++ target ++ "` requires approval"

/-- The context of the diagnostic, in its order. -/
def context (target : String) : Denial → List (String × String)
  | .denylisted pattern => [("target", target), ("pattern", pattern)]
  | .undeclared => [("target", target), ("interopPolicy", Mode.text .strict)]
  | .riskNotAcknowledged => [("target", target), ("interopPolicy", Mode.text .broad)]
  | .roleMissing scope required actorRoles =>
    [("scope", scope.text), ("requiredRoles", commas required), ("actorRoles", commas actorRoles),
      ("target", target)]
  | .approvalRequired expected provided =>
    [("target", target), ("expectedApproval", expected.getD ""),
      ("providedApproval", provided.getD "")]

def diagnostic (target : String) (d : Denial) : Diagnostic :=
  let base := Diagnostic.error d.code (d.message target)
  let full := (d.context target).foldl (fun acc (k, x) => acc.withContext k x) base
  full.withRemedy (((Diagnostic.describe? d.code).map (·.help)).getD "")

end Denial

namespace Effective

def isSensitive (p : Effective) (target : String) : Bool :=
  Pattern.anyCovers p.sensitiveTargets target

/-- Only sensitive targets need an approval, and of these only the listed ones if any are. -/
def needsApproval (p : Effective) (target : String) : Bool :=
  p.approvalRequired && p.isSensitive target &&
    ((Pattern.readAll p.approvalTargets).isEmpty || Pattern.anyCovers p.approvalTargets target)

/-- Whether the shown approval is the expected one; where none is expected, any will do. -/
def approves (p : Effective) (a : Actor) : Bool :=
  match a.approval.filter (fun t => !(Text.trim t).isEmpty) with
  | none => false
  | some shown =>
    match p.approvalToken.filter (fun t => !(Text.trim t).isEmpty) with
    | some expected => expected == shown
    | none => true

/-- Why a target is denied to an actor, if it is. -/
def denial? (p : Effective) (target : String) (a : Actor) : Option Denial :=
  match Pattern.firstCovering? (Pattern.readAll p.denylist) target with
  | some pattern => some (.denylisted pattern.text)
  | none =>
    if p.mode = .strict ∧ !Pattern.anyCovers p.allowlist target then some .undeclared
    else if p.mode = .broad ∧ !p.ackRisk then some .riskNotAcknowledged
    else if !p.requiredRoles.isEmpty && !a.hasAny p.requiredRoles then
      some (.roleMissing .general p.requiredRoles a.roles)
    else if p.isSensitive target && !p.sensitiveRequiredRoles.isEmpty &&
        !a.hasAny p.sensitiveRequiredRoles then
      some (.roleMissing .sensitive p.sensitiveRequiredRoles a.roles)
    else if p.needsApproval target && !p.approves a then
      some (.approvalRequired p.approvalToken a.approval)
    else none

/-- The roles that stand in a ruling: those for every target, then those for sensitive ones. -/
def rolesFor (p : Effective) (target : String) : List String :=
  if p.isSensitive target then
    p.sensitiveRequiredRoles.foldl (fun roles r => if roles.contains r then roles else roles ++ [r])
      p.requiredRoles
  else p.requiredRoles

end Effective

/-- What was decided about a target, for whom and when. -/
structure Ruling where
  target : String
  denial : Option Denial
  scope : RoleScope
  actorRoles : List String
  requiredRoles : List String
  stamp : String
  deriving Repr, DecidableEq, Inhabited

namespace Ruling

def isAllowed (r : Ruling) : Bool := r.denial.isNone

def verdict (r : Ruling) : String := if r.isAllowed then "allow" else "deny"

def reason? (r : Ruling) : Option String := r.denial.map Denial.code

def message (r : Ruling) : String := (r.denial.map (Denial.message r.target)).getD ""

/-- A ruling as it is reported; the stamp is for the journal only. -/
def toJson (r : Ruling) : Json :=
  .object [("target", .string r.target), ("decision", .string r.verdict),
    ("allowed", .bool r.isAllowed), ("reasonCode", .ofString? r.reason?),
    ("message", .string r.message), ("scope", .string r.scope.text),
    ("actorRoles", .strings r.actorRoles), ("requiredRoles", .strings r.requiredRoles)]

end Ruling

def Effective.rule (p : Effective) (stamp target : String) (a : Actor) : Ruling where
  target := target
  denial := p.denial? target a
  scope := if p.isSensitive target then .sensitive else .general
  actorRoles := a.roles
  requiredRoles := p.rolesFor target
  stamp := stamp

end Linkage.Policy
