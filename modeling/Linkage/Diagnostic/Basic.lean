import Linkage.Diagnostic.Catalog
import Linkage.Json.Basic

/-!
Diagnostics: a stable code, a sentence for people, and named context values in the order in which
they were added. Setting a context key a second time replaces its value and keeps its place.
-/
namespace Linkage

inductive Severity where
  | error
  | warning
  deriving Repr, DecidableEq, Inhabited

def Severity.text : Severity → String
  | .error => "error"
  | .warning => "warning"

structure Diagnostic where
  code : String
  severity : Severity
  message : String
  context : List (String × String) := []
  remedy : Option String := none
  deriving Repr, DecidableEq, Inhabited

namespace Diagnostic

def error (code message : String) : Diagnostic := ⟨code, .error, message, [], none⟩

def warning (code message : String) : Diagnostic := ⟨code, .warning, message, [], none⟩

/-- Puts a value under a key, in the key's old place if it has one. -/
def putContext (key value : String) : List (String × String) → List (String × String)
  | [] => [(key, value)]
  | (k, v) :: rest => if k = key then (key, value) :: rest else (k, v) :: putContext key value rest

def withContext (d : Diagnostic) (key value : String) : Diagnostic :=
  { d with context := putContext key value d.context }

def withRemedy (d : Diagnostic) (remedy : String) : Diagnostic :=
  { d with remedy := some remedy }

def contextValue? (d : Diagnostic) (key : String) : Option String :=
  (d.context.find? (·.1 == key)).map (·.2)

def isFatal (d : Diagnostic) : Bool := d.severity == .error

def title? (d : Diagnostic) : Option String := (describe? d.code).map (·.title)

/-- The form of one line: code and message, then context in brackets, then the remedy. -/
def line (d : Diagnostic) : String :=
  let head := d.code ++ ": " ++ d.message
  let context :=
    if d.context.isEmpty then ""
    else " [" ++ String.intercalate ", " (d.context.map fun (k, v) => k ++ "=" ++ v) ++ "]"
  let remedy := match d.remedy with
    | some r => " (" ++ r ++ ")"
    | none => ""
  head ++ context ++ remedy

/-- The JSON form; context and remedy stand in it only when there is something to say. -/
def toJson (d : Diagnostic) : Json :=
  let base := [("code", Json.string d.code), ("severity", .string d.severity.text),
    ("message", .string d.message)]
  let context :=
    if d.context.isEmpty then []
    else [("context", Json.object (d.context.map fun (k, v) => (k, .string v)))]
  let remedy := match d.remedy with
    | some r => [("remedy", Json.string r)]
    | none => []
  .object (base ++ context ++ remedy)

end Diagnostic

end Linkage
