import Linkage.Json.Basic
import Linkage.Text.Basic
import Linkage.Text.Blank

/-!
What a class path is used for, and the scopes in which dependencies are declared. Test scope is
never visible; provided scope is visible while compiling only; scopes of other names always are.
-/
namespace Linkage

def asciiLower (s : String) : String := String.ofList (s.toList.map Char.toLower)

inductive Usage where
  | compile
  | runtime
  deriving Repr, DecidableEq, Inhabited

namespace Usage

def text : Usage → String
  | .compile => "compile"
  | .runtime => "runtime"

/-- Reads a usage in any case; the error is the text that was compared. -/
def read (s : String) : Except String Usage :=
  let word := asciiLower (Text.trim s)
  if word = "compile" then .ok .compile
  else if word = "runtime" then .ok .runtime
  else .error word

def unknown (word : String) : String :=
  "unknown classpath usage `" ++ word ++ "` (expected `compile` or `runtime`)"

end Usage

inductive Scope where
  | compile
  | runtime
  | provided
  | test
  | other (name : String)
  deriving Repr, DecidableEq, Inhabited

namespace Scope

/-- A scope that is not given is compile scope. -/
def ofText? (raw : Option String) : Scope :=
  let word := asciiLower (Text.trim (raw.getD ""))
  if word = "" ∨ word = "compile" then .compile
  else if word = "runtime" then .runtime
  else if word = "provided" then .provided
  else if word = "test" then .test
  else .other word

def text : Scope → String
  | .compile => "compile"
  | .runtime => "runtime"
  | .provided => "provided"
  | .test => "test"
  | .other name => name

def toJson : Scope → Json
  | .compile => .string "Compile"
  | .runtime => .string "Runtime"
  | .provided => .string "Provided"
  | .test => .string "Test"
  | .other name => .object [("Other", .string name)]

end Scope

/-- Whether dependencies of a scope are visible for a usage. -/
def Usage.allows (u : Usage) : Scope → Bool
  | .compile => true
  | .runtime => true
  | .provided => u == .compile
  | .test => false
  | .other _ => true

end Linkage
