import Linkage.Json.Basic
import Linkage.Text.Basic
import Linkage.Text.Blank

/-!
Call targets: a class and the binding of one of its members, written `owner#binding`. The binding
of a static method is its name; all others start with a dollar sign.
-/
namespace Linkage.Call

/-- How a target is bound to its class. -/
inductive Binding where
  | staticMethod
  | constructor
  | instanceMethod
  | staticGet
  | staticSet
  | instanceGet
  | instanceSet
  deriving Repr, DecidableEq, Inhabited

namespace Binding

def all : List Binding :=
  [.staticMethod, .constructor, .instanceMethod, .staticGet, .staticSet, .instanceGet, .instanceSet]

def text : Binding → String
  | .staticMethod => "static"
  | .constructor => "constructor"
  | .instanceMethod => "instance"
  | .staticGet => "static-get"
  | .staticSet => "static-set"
  | .instanceGet => "instance-get"
  | .instanceSet => "instance-set"

def ofText? (s : String) : Option Binding := all.find? (·.text == s)

def isStatic : Binding → Bool
  | .staticMethod | .staticGet | .staticSet => true
  | _ => false

def needsReceiver : Binding → Bool
  | .instanceMethod | .instanceGet | .instanceSet => true
  | _ => false

/-- The number of arguments of a field binding: none to read, one to write. -/
def fieldArity? : Binding → Option Nat
  | .staticGet | .instanceGet => some 0
  | .staticSet | .instanceSet => some 1
  | _ => none

def isField (b : Binding) : Bool := b.fieldArity?.isSome

/-- What stands in front of the member's name. -/
def lead : Binding → String
  | .staticMethod => ""
  | .constructor => "$new"
  | .instanceMethod => "$instance$"
  | .staticGet => "$static$get$"
  | .staticSet => "$static$set$"
  | .instanceGet => "$instance$get$"
  | .instanceSet => "$instance$set$"

/-- The bindings with a lead of their own, a longer lead before one that it starts with. -/
def marked : List Binding := [.instanceGet, .instanceSet, .staticGet, .staticSet, .instanceMethod]

end Binding

def constructorName : String := "<init>"

structure Target where
  owner : String
  member : String
  kind : Binding
  deriving Repr, DecidableEq, Inhabited

namespace Target

/-- A target; the member of a constructor has one fixed name. -/
def make (owner member : String) (kind : Binding) : Target :=
  ⟨owner, if kind = .constructor then constructorName else member, kind⟩

/-- The half of the text after the number sign. -/
def binding (t : Target) : String :=
  match t.kind with
  | .constructor => Binding.lead .constructor
  | kind => kind.lead ++ t.member

def text (t : Target) : String := t.owner ++ "#" ++ t.binding

def toJson (t : Target) : Json :=
  .object [("owner", .string t.owner), ("member", .string t.member), ("kind", .string t.kind.text)]

end Target

/-- Why a text is no target; each cause carries the trimmed text. -/
inductive TargetFault where
  | missingSeparator (target : String)
  | emptyOwner (target : String)
  | emptyMember (target : String)
  | unsupportedBinding (target binding : String)
  deriving Repr, DecidableEq, Inhabited

namespace TargetFault

def target : TargetFault → String
  | .missingSeparator t => t
  | .emptyOwner t => t
  | .emptyMember t => t
  | .unsupportedBinding t _ => t

def message : TargetFault → String
  | .missingSeparator t => "interop target `" ++ t ++ "` must have the form `owner#binding`"
  | .emptyOwner t => "interop target `" ++ t ++ "` has an empty owner class"
  | .emptyMember t => "interop target `" ++ t ++ "` has an empty member name"
  | .unsupportedBinding t b =>
    "interop target `" ++ t ++ "` uses unsupported binding `" ++ b ++ "`"

end TargetFault

/-- The member and the kind that a binding other than a constructor's names. -/
def splitBinding (binding : String) : String × Binding :=
  let found := Binding.marked.findSome? fun kind =>
    (Text.stripStart? kind.lead binding).map fun rest => (rest, kind)
  found.getD (binding, .staticMethod)

/-- Reads a target. Blanks around both halves are dropped, slashes in the owner become points. -/
def Target.read (raw : String) : Except TargetFault Target :=
  let text := Text.trim raw
  match Text.splitFirst? '#' text with
  | none => .error (.missingSeparator text)
  | some (owner, binding) =>
    let owner := Text.replaceChar '/' '.' (Text.trim owner)
    let binding := Text.trim binding
    if owner.isEmpty then .error (.emptyOwner text)
    else if binding = Binding.lead .constructor then .ok (make owner "" .constructor)
    else
      let (member, kind) := splitBinding binding
      if member.isEmpty then .error (.emptyMember text)
      else if (kind = .staticMethod ∧ Text.startsWith "$" member) ∨ Text.holdsChar '#' member then
        .error (.unsupportedBinding text binding)
      else .ok (make owner member kind)

end Linkage.Call
