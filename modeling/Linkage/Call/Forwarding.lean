import Linkage.Call.Target
import Linkage.FileTree.Path
import Linkage.Text.Case
import Linkage.Text.Letter

/-!
Generated forwarding classes: one for every class that is called, with one static method for every
binding, which hands its arguments on to the dispatcher. Classes stand in the order of their
owners and methods in the order of their bindings, each once; a name that is taken already gets a
number.
-/
namespace Linkage.Call

structure ForwardingClass where
  owner : String
  className : String
  path : String
  source : String
  deriving Repr, DecidableEq, Inhabited

namespace ForwardingClass

def defaultPackage : String := "dev.jv.generated.interop"

def dispatcher : String := "dev.jv.runtime.JvInterop.invokeBinding"

/-- An identifier that looks like a text: what is neither a letter nor a digit becomes an
underscore, and no digit of ASCII stands in front. -/
def identifier (raw : String) : String :=
  let cs := raw.toList.map fun c => if Text.isWordChar c || c == '_' then c else '_'
  match cs with
  | [] => "value"
  | c :: rest => String.ofList (if c.isDigit then '_' :: c :: rest else c :: rest)

/-- A text with its first character in upper case. -/
def capitalized (s : String) : String :=
  match s.toList with
  | [] => ""
  | c :: rest => String.ofList (Text.upper c ++ rest)

/-- The parts of a class name, cut at points and dollar signs. -/
def nameParts (owner : String) : List String :=
  (Text.splitAll '.' (Text.replaceChar '$' '.' owner)).filter (!·.isEmpty)

def baseName (owner : String) : String :=
  let name := String.join ((nameParts owner).map fun part => capitalized (identifier part))
  (if name.isEmpty then "Interop" else name) ++ "Bridge"

/-- Numbers the second and later occurrences of a name among those that were seen. -/
def numbered (separator : String) : List String → List String → List String
  | _, [] => []
  | seen, name :: rest =>
    let count := seen.count name + 1
    (if count = 1 then name else name ++ separator ++ toString count) ::
      numbered separator (name :: seen) rest

/-- A text inside quotes of the generated source. -/
def quoted (s : String) : String :=
  "\"" ++ String.ofList (s.toList.flatMap fun c =>
    if c = '\\' ∨ c = '"' then ['\\', c] else [c]) ++ "\""

def methodText (owner binding name : String) : String :=
  "\n    public static Object " ++ name ++ "(final Object... args) \x7b\n        return " ++
    dispatcher ++ "(" ++ quoted owner ++ ", " ++ quoted binding ++ ", args);\n    \x7d\n"

/-- The names of the methods for bindings. -/
def methodNames (bindings : List String) : List String :=
  numbered "_" [] (bindings.map identifier)

def sourceText (package className owner : String) (bindings : List String) : String :=
  "package " ++ package ++ ";\n\npublic final class " ++ className ++ " \x7b\n    private " ++
    className ++ "() \x7b\n    \x7d\n" ++
    String.join (List.zipWith (methodText owner) bindings (methodNames bindings)) ++ "\x7d\n"

/-- Where a class of a package stands below the source directory. -/
def pathOf (package className : String) : String :=
  let folders := (Text.splitAll '.' package).filter (!·.isEmpty)
  Path.join (folders.foldl Path.join "") (className ++ ".java")

/-- The bindings of one owner, each once, in ascending order. -/
def bindingsOf (targets : List Target) (owner : String) : List String :=
  Text.sortedStrings (Text.distinct ((targets.filter (·.owner == owner)).map Target.binding))

def ownersOf (targets : List Target) : List String :=
  Text.sortedStrings (Text.distinct (targets.map (·.owner)))

def generate (package : String) (targets : List Target) : List ForwardingClass :=
  let owners := ownersOf targets
  List.zipWith (fun owner className =>
    { owner, className
      path := pathOf package className
      source := sourceText package className owner (bindingsOf targets owner) })
    owners (numbered "" [] (owners.map baseName))

end ForwardingClass

end Linkage.Call
