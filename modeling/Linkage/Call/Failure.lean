import Linkage.Call.Arguments
import Linkage.Call.Target

/-!
Failures of calls: the target that was called, as text, and the cause.
-/
namespace Linkage.Call

inductive Cause where
  | unreadable (fault : TargetFault)
  | invalid (reason : String)
  | classNotFound (className : String)
  | memberNotFound (className member : String)
  | unavailable (reason : Unavailable)
  | narrowing (source target : String) (candidates : List String)
  | ambiguous (arguments : String) (candidates : List String)
  | notApplicable (arguments : String) (failures : List String)
  | conversion (fault : AdaptFault)
  | invocation (message : String)
  deriving Repr, DecidableEq, Inhabited

structure Failure where
  target : String
  cause : Cause
  deriving Repr, DecidableEq, Inhabited

def joined (parts : List String) : String := String.intercalate "; " parts

def Cause.code : Cause → String
  | .unreadable _ => Diagnostic.Code.invalidTarget
  | .invalid _ => Diagnostic.Code.invalidTarget
  | .classNotFound _ => Diagnostic.Code.symbolNotFound
  | .memberNotFound .. => Diagnostic.Code.symbolNotFound
  | .unavailable (.scopeExcluded _) => Diagnostic.Code.scopeViolation
  | .unavailable (.skipped _) => Diagnostic.Code.unreadableSymbol
  | .unavailable (.releaseMismatch _) => Diagnostic.Code.releaseMismatch
  | .narrowing .. => Diagnostic.Code.numericConversion
  | .ambiguous .. => Diagnostic.Code.ambiguousOverload
  | .notApplicable .. => Diagnostic.Code.noApplicableOverload
  | .conversion fault =>
    if fault.isNumeric then Diagnostic.Code.numericConversion else Diagnostic.Code.genericConversion
  | .invocation _ => Diagnostic.Code.invocationFailed

/-- The context of a diagnostic after the target. -/
def Cause.context : Cause → List (String × String)
  | .classNotFound className => [("class", className)]
  | .memberNotFound className member => [("class", className), ("member", member)]
  | .narrowing source target candidates =>
    [("from", source), ("to", target), ("candidates", joined candidates)]
  | .ambiguous arguments candidates =>
    [("argumentTypes", arguments), ("candidates", joined candidates)]
  | .notApplicable arguments failures =>
    [("argumentTypes", arguments), ("failures", joined failures)]
  | .conversion (.enumConstant _ expected value) => [("expectedEnum", expected), ("value", value)]
  | .conversion (.narrowing path source target) =>
    [("argument", path), ("from", source), ("to", target)]
  | .conversion (.outOfRange path value target) =>
    [("argument", path), ("value", value), ("to", target)]
  | .conversion (.incompatible path expected value) =>
    [("argument", path), ("expected", expected), ("value", value)]
  | _ => []

namespace Failure

def unreadable (fault : TargetFault) : Failure := ⟨fault.target, .unreadable fault⟩

def code (f : Failure) : String := f.cause.code

def message (f : Failure) : String :=
  let named := "interop target `" ++ f.target ++ "`"
  match f.cause with
  | .unreadable fault => fault.message
  | .invalid reason => "invalid " ++ named ++ ": " ++ reason
  | .classNotFound className =>
    named ++ ": class `" ++ className ++ "` was not found on the mediated classpath"
  | .memberNotFound className member =>
    named ++ ": class `" ++ className ++ "` has no member `" ++ member ++ "`"
  | .unavailable reason => named ++ ": " ++ reason.diagnostic.message
  | .narrowing source target _ =>
    named ++ ": numeric conversion from " ++ source ++ " to " ++ target ++ " requires narrowing"
  | .ambiguous arguments candidates =>
    named ++ ": ambiguous overload for argument types " ++ arguments ++ ": " ++ joined candidates
  | .notApplicable arguments failures =>
    named ++ ": no applicable overload for argument types " ++ arguments ++ ": " ++ joined failures
  | .conversion fault => named ++ " argument conversion failed: " ++ fault.message
  | .invocation message => named ++ " failed during invocation: " ++ message

/-- A class that cannot be used speaks for itself; every other diagnostic has the help that
belongs to its code. -/
def diagnostic (f : Failure) : Diagnostic :=
  match f.cause with
  | .unavailable reason => reason.diagnostic.withContext "target" f.target
  | _ =>
    let base := (Diagnostic.error f.code f.message).withContext "target" f.target
    let full := f.cause.context.foldl (fun d (k, x) => d.withContext k x) base
    match Diagnostic.describe? f.code with
    | some entry => full.withRemedy entry.help
    | none => full

end Failure

end Linkage.Call
