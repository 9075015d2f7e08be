import Linkage.Library.Coordinate
import Linkage.Text.Properties
import Linkage.Text.Utf8
import Linkage.Xml.Reader

/-!
The two files by which an archive describes its library: properties with its coordinate, and a
project file with its dependencies. Nothing is interpolated: a version or a scope that still has a
placeholder in it counts as absent.
-/
namespace Linkage.Project

inductive Fault where
  | missingProperty (key : String)
  | malformed
  | noProject
  deriving Repr, DecidableEq

/-- The place of a fault inside malformed text is not told. -/
def Fault.message : Fault → String
  | .missingProperty key => "pom.properties is missing `" ++ key ++ "`"
  | .malformed => "failed to parse pom.xml: <xml>"
  | .noProject => "pom.xml has no <project> element"

/-- A property that is there and not empty. -/
def require (entries : List (String × String)) (key : String) : Except Fault String :=
  match entries.find? (·.1 == key) with
  | some (_, value) => if value.isEmpty then .error (.missingProperty key) else .ok value
  | none => .error (.missingProperty key)

/-- The coordinate and the version that properties text gives. -/
def coordinate (text : String) : Except Fault (Coordinate × String) := do
  let entries := Text.properties text
  let group ← require entries "groupId"
  let artifact ← require entries "artifactId"
  let version ← require entries "version"
  pure (⟨group, artifact⟩, version)

/-- An entity name is given up after this many bytes. -/
def maxEntityBytes : Nat := 32

/-- The characters of a reference after its ampersand, up to and with a semicolon or up to the
limit, and the characters after them. -/
def entityRun : Nat → List Char → List Char × List Char
  | _, [] => ([], [])
  | taken, c :: rest =>
    let taken := taken + (Text.charBytes c).length
    if c = ';' ∨ maxEntityBytes < taken then ([c], rest)
    else
      let (run, after) := entityRun taken rest
      (c :: run, after)

/-- Whether a reference that ends in a semicolon needs no declaration. -/
def isKnownEntity (name : List Char) : Bool :=
  ["lt", "gt", "amp", "quot", "apos"].any (fun k => name.map Char.toLower == k.toList) ||
    name.head? == some '#'

/-- Puts a space for every reference to an entity that would have to be declared. -/
def withoutDeclaredEntities : Nat → List Char → List Char
  | _, [] => []
  | 0, cs => cs
  | fuel + 1, c :: rest =>
    if c = '&' then
      let (run, after) := entityRun 0 rest
      if run.getLast? = some ';' ∧ isKnownEntity run.dropLast = false then
        ' ' :: withoutDeclaredEntities fuel after
      else '&' :: run ++ withoutDeclaredEntities fuel after
    else c :: withoutDeclaredEntities fuel rest

def normalizeEntities (text : String) : String :=
  String.ofList (withoutDeclaredEntities text.toList.length text.toList)

/-- The trimmed text of a child, if it is not blank. -/
def childText? (n : Xml.Node) (name : String) : Option String :=
  ((n.child? name).bind Xml.Node.text?).map Text.trim |>.filter (!·.isEmpty)

def isPlaceholder (value : String) : Bool := Text.holds "$\x7b" value

/-- A dependency element; one without a group or an artifact is passed over. -/
def dependencyOf? (n : Xml.Node) : Option Dependency := do
  let group ← childText? n "groupId"
  let artifact ← childText? n "artifactId"
  pure {
    coordinate := ⟨group, artifact⟩
    version := (childText? n "version").filter (!isPlaceholder ·)
    scope := (childText? n "scope").filter (!isPlaceholder ·)
    isOptional := ((childText? n "optional").map (Text.sameIgnoringCase "true")).getD false }

/-- The direct dependencies that project text declares. -/
def dependencies (text : String) : Except Fault (List Dependency) :=
  match Xml.Reader.document (normalizeEntities text) with
  | none => .error .malformed
  | some root =>
    match root.find? "project" with
    | none => .error .noProject
    | some project =>
      match project.child? "dependencies" with
      | none => .ok []
      | some list => .ok ((list.childrenNamed "dependency").filterMap dependencyOf?)

end Linkage.Project
