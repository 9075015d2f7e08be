import Linkage.Diagnostic.Basic
import Linkage.FileTree.Basic
import Linkage.Policy.Setting
import Linkage.Text.Properties
import Linkage.Toml.Document

/-!
Policy files: how they are read and where they are looked for. A file is TOML or properties text,
as its extension says.
-/
namespace Linkage.Policy

/-- A policy file that was read. -/
structure Source where
  path : String
  settings : Settings
  deriving Repr, DecidableEq, Inhabited

def Source.toJson (s : Source) : Json :=
  .object [("path", .string s.path), ("settings", s.settings.toJson),
    ("empty", .bool s.settings.isEmpty)]

inductive SourceFault where
  | io (path : String) (e : OsError)
  | malformed (path : String)
  | badValue (path : String) (bad : Settings.BadValue)
  deriving Repr, DecidableEq, Inhabited

namespace SourceFault

def path : SourceFault → String
  | .io p _ => p
  | .malformed p => p
  | .badValue p _ => p

/-- The place of a fault inside malformed text is not told. -/
def message : SourceFault → String
  | .io p e => "failed to read interop policy " ++ p ++ ": " ++ e.message
  | .malformed p => "failed to parse interop policy " ++ p ++ ": <toml>"
  | .badValue p bad =>
    "invalid value `" ++ bad.value ++ "` for `" ++ bad.setting.key ++ "` in " ++ p ++
      " (expected " ++ bad.expected ++ ")"

def diagnostic (f : SourceFault) : Diagnostic :=
  let base := (Diagnostic.error Diagnostic.Code.invalidPolicy f.message).withContext "policyPath" f.path
  let full := match f with
    | .badValue _ bad => base
        |>.withContext "setting" bad.setting.key
        |>.withContext "value" bad.value
        |>.withContext "expected" bad.expected
    | _ => base
  full.withRemedy (((Diagnostic.describe? Diagnostic.Code.invalidPolicy).map (·.help)).getD "")

end SourceFault

/-- A TOML value as the text of a setting: a string stands for itself. -/
def scalarText : Toml → String
  | .string s => s
  | t => t.text

mutual

/-- The settings below a key: tables are opened, and arrays become lists with commas. -/
def flatten (key : String) : Toml → List (String × String)
  | .table entries => flattenEntries (key ++ ".") entries
  | .array items => [(key, String.intercalate "," (items.map scalarText))]
  | t => [(key, scalarText t)]

def flattenEntries (lead : String) : List (String × Toml) → List (String × String)
  | [] => []
  | (k, t) :: rest => flatten (lead ++ k) t ++ flattenEntries lead rest

end

/-- The keys and values of a document, in the order of the keys. The document itself is never a
date, whatever its first key is. -/
def pairsOf? : Toml → Option (List (String × String))
  | .table entries => (Toml.settleEntries? entries).map fun settled =>
      flattenEntries "" (settled.mergeSort fun a b => decide (a.1 ≤ b.1))
  | _ => none

namespace Source

def load (tree : FileTree) (path : String) : Except SourceFault Source := do
  let text ← (tree.readText path).mapError (SourceFault.io path)
  let pairs ←
    if Path.extension? path = some "toml" then
      match (Toml.read? text).bind pairsOf? with
      | some pairs => pure pairs
      | none => throw (.malformed path)
    else pure (Text.properties text)
  let settings ← (Settings.ofPairs pairs).mapError (SourceFault.badValue path)
  pure ⟨path, settings⟩

/-- The directory with policy files, below a project or a home directory. -/
def folder : String := ".jv"

/-- The names of policy files; the first that is there counts. -/
def fileNames : List String := ["interop-policy.properties", "interop-policy.toml"]

def fileIn? (tree : FileTree) (directory : String) : Option String :=
  (fileNames.map fun name => Path.join (Path.join directory folder) name).find? tree.isFile

/-- The policy of the nearest directory at or above a starting point. -/
def discoverProject (tree : FileTree) (start : String) : Except SourceFault (Option Source) :=
  let first := if tree.isFile start then (Path.parent? start).getD start else start
  match (first :: Path.ancestors first).findSome? (fileIn? tree) with
  | some path => (load tree path).map some
  | none => .ok none

/-- Where the policy for all projects is: at an explicit path, else in the home directory. -/
def globalPath? (tree : FileTree) (explicit home : Option String) : Option String :=
  match explicit.filter (!·.isEmpty), home with
  | some path, _ => some path
  | none, none => none
  | none, some directory =>
    (fileIn? tree directory) <|>
      (fileNames.head?.map fun name => Path.join (Path.join directory folder) name)

def discoverGlobal (tree : FileTree) (explicit home : Option String) :
    Except SourceFault (Option Source) :=
  match globalPath? tree explicit home with
  | some path => if tree.isFile path then (load tree path).map some else .ok none
  | none => .ok none

end Source

end Linkage.Policy
