/-!
The diagnostic codes with their titles and the advice that goes with each. Codes are part of the
public contract: tools match on them, so they never change.
-/
namespace Linkage.Diagnostic

namespace Code

def entryUnreadable : String := "JV5100"

def memberSkipped : String := "JV5101"

def unreadableSymbol : String := "JV5102"

def releaseMismatch : String := "JV5103"

def scopeViolation : String := "JV5110"

def isolationConflict : String := "JV5200"

def symbolNotFound : String := "JV5300"

def invalidTarget : String := "JV5301"

def numericConversion : String := "JV5302"

def genericConversion : String := "JV5303"

def ambiguousOverload : String := "JV5304"

def noApplicableOverload : String := "JV5305"

def invocationFailed : String := "JV5306"

def policyConflict : String := "JV5400"

def strictUndeclared : String := "JV5401"

def riskNotAcknowledged : String := "JV5402"

def denylisted : String := "JV5403"

def rbacDenied : String := "JV5404"

def approvalRequired : String := "JV5405"

def auditAggregateFallback : String := "JV5406"

def auditUnwritable : String := "JV5407"

def invalidPolicy : String := "JV5408"

def invalidConfig : String := "JV5500"

def outputUnwritable : String := "JV5501"

end Code

/-- What is said about a code wherever it arises. -/
structure Entry where
  code : String
  title : String
  help : String
  deriving Repr, DecidableEq

/-- Every known code, in the order of the codes. -/
def catalog : List Entry := [
  ⟨Code.entryUnreadable, "classpath entry could not be read",
    "Check that the entry exists and is a readable directory, jar, jmod or jrt module reference."⟩,
  ⟨Code.memberSkipped, "class member skipped while indexing",
    "The member is malformed. It only becomes fatal when a call target needs it."⟩,
  ⟨Code.unreadableSymbol, "call target requires an unreadable class",
    "Rebuild or replace the archive that carries the malformed class file."⟩,
  ⟨Code.releaseMismatch, "multi-release archive has no variant for the target release",
    "Raise the target release or supply an archive with a base entry."⟩,
  ⟨Code.scopeViolation, "class is only reachable through an excluded dependency scope",
    "Move the dependency to compile/runtime scope or run with a compatible classpath scope."⟩,
  ⟨Code.isolationConflict, "program class collides with a library class",
    "Rename the program class or switch classloader isolation to `shared`."⟩,
  ⟨Code.symbolNotFound, "interop target class was not found",
    "Add the archive that defines the class to the classpath."⟩,
  ⟨Code.invalidTarget, "interop target is not callable with the requested binding",
    "Only public members are bridged, and static bindings require static members."⟩,
  ⟨Code.numericConversion, "numeric argument requires narrowing",
    "Pass a value that widens to the parameter type or convert it explicitly."⟩,
  ⟨Code.genericConversion, "generic interop conversion failed",
    "Check element types and enum constant names of structured arguments."⟩,
  ⟨Code.ambiguousOverload, "ambiguous overload",
    "Several overloads are equally applicable. Make the argument types explicit."⟩,
  ⟨Code.noApplicableOverload, "no applicable overload",
    "No overload accepts the supplied arguments."⟩,
  ⟨Code.invocationFailed, "interop invocation failed",
    "The host runtime rejected the call."⟩,
  ⟨Code.policyConflict, "project and global interop policies conflict",
    "Pass the setting explicitly on the command line to disambiguate."⟩,
  ⟨Code.strictUndeclared, "strict interop policy requires a declared target",
    "Declare the target in the interop allowlist or switch to the broad policy."⟩,
  ⟨Code.riskNotAcknowledged, "broad interop policy requires risk acknowledgement",
    "Set `interop.ackRisk=true` or pass `--ack-interop-risk`."⟩,
  ⟨Code.denylisted, "interop target is denylisted",
    "Remove the target from the call manifest or from the denylist."⟩,
  ⟨Code.rbacDenied, "interop call denied by RBAC",
    "Run with one of the required roles."⟩,
  ⟨Code.approvalRequired, "interop call requires approval",
    "Provide the approval token configured for the sensitive target."⟩,
  ⟨Code.auditAggregateFallback, "centralized audit sink unavailable",
    "The decision was recorded in the local audit log only."⟩,
  ⟨Code.auditUnwritable, "interop audit log could not be written",
    "Check permissions of the audit log path."⟩,
  ⟨Code.invalidPolicy, "interop policy file is invalid",
    "Fix the reported key or value in the policy file."⟩,
  ⟨Code.invalidConfig, "interop run configuration is invalid",
    "Fix the reported setting in the interop configuration."⟩,
  ⟨Code.outputUnwritable, "interop run outputs could not be written",
    "Check that the output directory is writable."⟩]

/-- The catalogue entry of a code. -/
def describe? (code : String) : Option Entry := catalog.find? (·.code == code)

end Linkage.Diagnostic
