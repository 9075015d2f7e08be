import Linkage.Type.Basic

/-!
What is kept of a class file: names, access flags and member signatures. Members that are not
public are kept too, so that a refused call can say why it is refused.
-/
namespace Linkage

/-- Access flags, one bit each. -/
structure Access where
  bits : Nat
  deriving Repr, DecidableEq, Inhabited

namespace Access

def isPublic (a : Access) : Bool := a.bits.testBit 0

def isPrivate (a : Access) : Bool := a.bits.testBit 1

def isProtected (a : Access) : Bool := a.bits.testBit 2

def isStatic (a : Access) : Bool := a.bits.testBit 3

def isFinal (a : Access) : Bool := a.bits.testBit 4

def isBridge (a : Access) : Bool := a.bits.testBit 6

def isVarargs (a : Access) : Bool := a.bits.testBit 7

def isInterface (a : Access) : Bool := a.bits.testBit 9

def isAbstract (a : Access) : Bool := a.bits.testBit 10

def isSynthetic (a : Access) : Bool := a.bits.testBit 12

def isEnum (a : Access) : Bool := a.bits.testBit 14

/-- The flags of an enum constant: public, static, final and enum. -/
def enumConstant : Access := ⟨0x4019⟩

def visibility (a : Access) : String :=
  if a.isPublic then "public"
  else if a.isProtected then "protected"
  else if a.isPrivate then "private"
  else "package-private"

end Access

inductive MemberKind where
  | method
  | constructor
  | field
  deriving Repr, DecidableEq, Inhabited

def MemberKind.text : MemberKind → String
  | .method => "method"
  | .constructor => "constructor"
  | .field => "field"

/-- Types from a generic signature; a field has no parameters and its type as the result. -/
structure GenericSignature where
  parameters : List Ty
  result : Ty
  deriving Repr, DecidableEq, Inhabited

structure Member where
  name : String
  kind : MemberKind
  access : Access
  descriptor : String
  parameters : List Ty
  result : Ty
  generic : Option GenericSignature
  deriving Repr, DecidableEq, Inhabited

namespace Member

def isPublic (m : Member) : Bool := m.access.isPublic

def isStatic (m : Member) : Bool := m.access.isStatic

def isVarargs (m : Member) : Bool := m.kind != .field && m.access.isVarargs

def isBridgeOrSynthetic (m : Member) : Bool :=
  m.kind != .field && (m.access.isBridge || m.access.isSynthetic)

/-- Parameter types with generic detail, when there is a signature of the same length. -/
def genericParameters (m : Member) : List Ty :=
  match m.generic with
  | some g => if g.parameters.length = m.parameters.length then g.parameters else m.parameters
  | none => m.parameters

/-- The type of a field with generic detail, when there is a signature. -/
def genericFieldType (m : Member) : Ty :=
  match m.generic with
  | some g => g.result
  | none => m.result

/-- Two methods with one key override each other: the name with the erased parameters. -/
def erasedKey (m : Member) : String :=
  match m.kind with
  | .field => m.name
  | _ => m.name ++ String.ofList ('(' :: m.parameters.flatMap Ty.descriptorChars ++ [')'])

def signature (m : Member) : String := m.name ++ m.descriptor

def toJson (m : Member) : Json :=
  .object [("name", .string m.name), ("kind", .string m.kind.text),
    ("access", .ofNat m.access.bits), ("descriptor", .string m.descriptor),
    ("parameters", .list Ty.toJson m.parameters), ("returnType", m.result.toJson),
    ("generic", .ofOption (fun g => .object [("parameters", .list Ty.toJson g.parameters),
      ("returnType", g.result.toJson)]) m.generic)]

end Member

structure ClassStub where
  name : String
  access : Access
  superClass : Option String
  interfaces : List String
  members : List Member
  enumConstants : List String
  deriving Repr, DecidableEq, Inhabited

namespace ClassStub

def isPublic (c : ClassStub) : Bool := c.access.isPublic

def isInterface (c : ClassStub) : Bool := c.access.isInterface

def isEnum (c : ClassStub) : Bool := c.access.isEnum

def package (c : ClassStub) : String := Text.beforeLastPoint c.name

def membersNamed (c : ClassStub) (name : String) : List Member :=
  c.members.filter (·.name == name)

def constructors (c : ClassStub) : List Member := c.members.filter (·.kind == .constructor)

def toJson (c : ClassStub) : Json :=
  .object [("name", .string c.name), ("access", .ofNat c.access.bits),
    ("superClass", .ofString? c.superClass), ("interfaces", .strings c.interfaces),
    ("members", .list Member.toJson c.members), ("enumConstants", .strings c.enumConstants)]

end ClassStub

end Linkage
