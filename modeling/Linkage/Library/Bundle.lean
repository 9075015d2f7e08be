import Linkage.Archive.Writer
import Linkage.ClassFile.Writer

/-!
Putting a library archive together from its parts: the two files that describe the library, the
mark that it holds forms for several releases, classes, and plain files.
-/
namespace Linkage.Library

open Archive (MemberFile)
open Text (Bytes)

/-- A dependency as it is written into a project file. -/
structure DeclaredDependency where
  group : String
  artifact : String
  version : Option String
  scope : Option String
  deriving Repr, DecidableEq, Inhabited

inductive Part where
  | coordinate (group artifact version : String)
  | project (group artifact : String) (dependencies : List DeclaredDependency)
  | multiRelease
  | file (name : String) (content : Bytes)
  | classFile (spec : ClassFile.ClassSpec) (release : Option Nat)

def tag (name value : String) : String := "<" ++ name ++ ">" ++ value ++ "</" ++ name ++ ">"

/-- A line of a dependency element, indented. -/
def field (name value : String) : String := "      " ++ tag name value ++ "\n"

def DeclaredDependency.text (d : DeclaredDependency) : String :=
  "    <dependency>\n" ++ field "groupId" d.group ++ field "artifactId" d.artifact ++
    (d.version.map (field "version")).getD "" ++ (d.scope.map (field "scope")).getD "" ++
    "    </dependency>\n"

def projectText (dependencies : List DeclaredDependency) : String :=
  "<?xml version=\"1.0\"?>\n<project>\n  <dependencies>\n" ++
    String.join (dependencies.map DeclaredDependency.text) ++ "  </dependencies>\n</project>\n"

/-- The folder with the description of a library. -/
def folder (group artifact : String) : String := "META-INF/maven/" ++ group ++ "/" ++ artifact ++ "/"

def Part.member : Part → MemberFile
  | .coordinate group artifact version =>
    ⟨folder group artifact ++ "pom.properties", Text.encodeUtf8
      ("groupId=" ++ group ++ "\nartifactId=" ++ artifact ++ "\nversion=" ++ version ++ "\n")⟩
  | .project group artifact dependencies =>
    ⟨folder group artifact ++ "pom.xml", Text.encodeUtf8 (projectText dependencies)⟩
  | .multiRelease =>
    ⟨"META-INF/MANIFEST.MF",
      Text.encodeUtf8 "Manifest-Version: 1.0\r\nMulti-Release: true\r\n\r\n"⟩
  | .file name content => ⟨name, content⟩
  | .classFile spec none => ⟨spec.memberPath, spec.encode⟩
  | .classFile spec (some release) =>
    ⟨"META-INF/versions/" ++ toString release ++ "/" ++ spec.memberPath, spec.encode⟩

def bundle (parts : List Part) : Bytes := Archive.write (parts.map Part.member)

end Linkage.Library
