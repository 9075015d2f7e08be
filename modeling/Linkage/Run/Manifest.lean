import Linkage.Call.Target
import Linkage.Diagnostic.Basic
import Linkage.FileTree.Basic
import Linkage.Json.Reader
import Linkage.Policy.Setting
import Linkage.Text.Properties

/-!
The call manifest of a program: the targets that it calls and the classes that it is made of. A
manifest is JSON or properties text, as its extension says. JSON names the fields or gives them one
after another in an array; a field may be missing, and what the manifest does not know is passed
over.
-/
namespace Linkage.Run

/-- Where generated classes come from when the manifest does not say. -/
def programLocation : String := "<program>"

structure Manifest where
  targets : List Call.Target := []
  programClasses : List String := []
  location : String := programLocation
  deriving Repr, DecidableEq, Inhabited

inductive ManifestFault where
  | io (path : String) (e : OsError)
  | malformed (path : String)
  | targetIn (path : String) (fault : Call.TargetFault)
  | target (fault : Call.TargetFault)
  deriving Repr, DecidableEq, Inhabited

namespace ManifestFault

/-- The place of a fault inside malformed text is not told. -/
def message : ManifestFault → String
  | .io path e => "failed to read call manifest " ++ path ++ ": " ++ e.message
  | .malformed path => "failed to parse call manifest " ++ path ++ ": <json>"
  | .targetIn path fault => "failed to parse call manifest " ++ path ++ ": " ++ fault.message
  | .target fault => fault.message

def diagnostic (f : ManifestFault) : Diagnostic :=
  let invalid := Diagnostic.error Diagnostic.Code.invalidConfig f.message
  match f with
  | .io path _ => invalid.withContext "manifest" path
  | .malformed path => invalid.withContext "manifest" path
  | .targetIn path _ => invalid.withContext "manifest" path
  | .target fault =>
    (Diagnostic.error Diagnostic.Code.invalidTarget fault.message).withContext "target" fault.target

end ManifestFault

namespace Manifest

/-- A manifest as it is written, with targets that are still text. -/
structure Draft where
  targets : List String := []
  programClasses : List String := []
  location : Option String := none
  deriving Repr, DecidableEq, Inhabited

/-- Reads the targets of a draft; a repeated target counts once, in its first place. -/
def Draft.complete (d : Draft) : Except Call.TargetFault Manifest := do
  let targets ← d.targets.mapM Call.Target.read
  pure {
    targets := Text.distinct targets
    programClasses := d.programClasses
    location := d.location.getD programLocation }

def ofTargets (targets : List String) : Except Call.TargetFault Manifest :=
  Draft.complete { targets }

def withProgramClasses (m : Manifest) (names : List String) : Manifest :=
  { m with programClasses := m.programClasses ++ names }

/-- The classes that are called, each once, in the order of the targets. -/
def owners (m : Manifest) : List String := Text.distinct (m.targets.map (·.owner))

def toJson (m : Manifest) : Json :=
  .object [("targets", .strings (m.targets.map (·.text))),
    ("programClasses", .strings m.programClasses), ("location", .string m.location),
    ("owners", .strings m.owners)]

/-- The fields in the order in which an array gives them. -/
def fieldNames : List String := ["targets", "programClasses", "location"]

/-- Reads the value of a member. A known key may come only once; the value of another is skipped. -/
def member (fuel : Nat) (key : String) (cs : List Char) (known : List (String × Json)) :
    Option (List (String × Json) × List Char) :=
  if fieldNames.contains key then
    if known.any (·.1 == key) then none
    else (Json.Reader.value fuel cs).map fun (value, rest) => (known ++ [(key, value)], rest)
  else (Json.Reader.skip fuel cs).map fun rest => (known, rest)

/-- The known members of an object after its opening brace. -/
def members : Nat → List Char → List (String × Json) → Option (List (String × Json) × List Char)
  | 0, _, _ => none
  | fuel + 1, cs, known =>
    match Json.Reader.string (Json.Reader.skipSpace cs) with
    | none => none
    | some (key, rest) =>
      match Json.Reader.skipSpace rest with
      | ':' :: rest =>
        match member fuel key rest known with
        | none => none
        | some (known, rest) =>
          match Json.Reader.skipSpace rest with
          | '\x7d' :: rest => some (known, rest)
          | ',' :: rest => members fuel rest known
          | _ => none
      | _ => none

/-- The fields that JSON text gives. -/
def fields? (text : String) : Option (List (String × Json)) :=
  let cs := Json.Reader.skipSpace text.toList
  match cs with
  | '\x7b' :: rest =>
    let read := match Json.Reader.skipSpace rest with
      | '\x7d' :: rest => some ([], rest)
      | rest => members (Json.Reader.fuelFor cs) rest []
    read.bind fun (known, rest) =>
      if (Json.Reader.skipSpace rest).isEmpty then some known else none
  | _ =>
    match Json.read? text with
    | some (.array items) =>
      if items.length ≤ fieldNames.length then some (fieldNames.zip items) else none
    | _ => none

def listOf? : Json → Option (List String)
  | .array items => items.mapM Json.asString?
  | _ => none

def textOrNull? : Json → Option (Option String)
  | .null => some none
  | .string s => some (some s)
  | _ => none

def field {α : Type} (fields : List (String × Json)) (key : String) (decode : Json → Option α)
    (default : α) : Option α :=
  match fields.find? (·.1 == key) with
  | none => some default
  | some (_, value) => decode value

def Draft.ofJson? (text : String) : Option Draft := do
  let fields ← fields? text
  pure {
    targets := ← field fields "targets" listOf? []
    programClasses := ← field fields "programClasses" listOf? []
    location := ← field fields "location" textOrNull? none }

/-- Properties text gives lists with commas. -/
def Draft.ofProperties (text : String) : Draft :=
  let pairs := Text.properties text
  let value (key : String) : Option String := (pairs.find? (·.1 == key)).map (·.2)
  { targets := ((value "targets").map Policy.readList).getD []
    programClasses := ((value "programClasses").map Policy.readList).getD []
    location := value "location" }

def load (tree : FileTree) (path : String) : Except ManifestFault Manifest := do
  let text ← (tree.readText path).mapError (ManifestFault.io path)
  if Path.extension? path = some "json" then
    match Draft.ofJson? text with
    | none => throw (.malformed path)
    | some draft => draft.complete.mapError (ManifestFault.targetIn path)
  else (Draft.ofProperties text).complete.mapError ManifestFault.target

end Manifest

end Linkage.Run
