import Linkage.Value.Basic
import Linkage.View.Ancestry

/-!
How an argument reaches a parameter. Every conversion follows one rule, and rules fall into three
phases: a conversion of an earlier phase is always better than one of a later phase, and within a
phase the cost decides. A whole argument list has the latest phase and the summed cost.
-/
namespace Linkage.Call

def listClass : String := "java.util.List"

def setClass : String := "java.util.Set"

def mapClass : String := "java.util.Map"

def optionalClass : String := "java.util.Optional"

def collectionClass : String := "java.util.Collection"

def iterableClass : String := "java.lang.Iterable"

inductive Rule where
  | identity
  | primitiveWidening
  | referenceWidening
  | nullReference
  | stringReference
  | boxing
  | unboxing
  | enumConstant
  | sequence
  | mapping
  | optionalWrap
  | varargs
  deriving Repr, DecidableEq, Inhabited

namespace Rule

def text : Rule → String
  | .identity => "identity"
  | .primitiveWidening => "primitive-widening"
  | .referenceWidening => "reference-widening"
  | .nullReference => "null-reference"
  | .stringReference => "string-reference"
  | .boxing => "boxing"
  | .unboxing => "unboxing"
  | .enumConstant => "enum-constant"
  | .sequence => "sequence"
  | .mapping => "mapping"
  | .optionalWrap => "optional-wrap"
  | .varargs => "varargs"

def phase : Rule → Nat
  | .identity | .primitiveWidening | .referenceWidening | .nullReference | .stringReference => 0
  | .boxing | .unboxing => 1
  | .enumConstant | .sequence | .mapping | .optionalWrap | .varargs => 2

/-- The fixed part of the cost; distances come on top. -/
def baseCost : Rule → Nat
  | .identity | .stringReference => 0
  | .optionalWrap => 2
  | _ => 1

end Rule

structure Cost where
  phase : Nat := 0
  amount : Nat := 0
  deriving Repr, DecidableEq, Inhabited

namespace Cost

/-- Phases combine by maximum, amounts by sum. -/
def combine (a b : Cost) : Cost := ⟨max a.phase b.phase, a.amount + b.amount⟩

def before (a b : Cost) : Bool :=
  a.phase < b.phase || (a.phase == b.phase && a.amount < b.amount)

def toJson (c : Cost) : Json := .object [("phase", .ofNat c.phase), ("cost", .ofNat c.amount)]

end Cost

structure Conversion where
  rule : Rule
  cost : Cost
  deriving Repr, DecidableEq, Inhabited

namespace Conversion

/-- The conversion by a rule over some distance. -/
def via (rule : Rule) (extra : Nat) : Conversion := ⟨rule, ⟨rule.phase, rule.baseCost + extra⟩⟩

def toJson (c : Conversion) : Json :=
  .object [("rule", .string c.rule.text), ("cost", c.cost.toJson)]

end Conversion

/-- Why a shape cannot reach a type. -/
inductive Mismatch where
  | narrowing (source target : Primitive)
  | incompatible (reason : String)
  deriving Repr, DecidableEq, Inhabited

namespace Mismatch

def isNarrowing : Mismatch → Bool
  | .narrowing .. => true
  | .incompatible _ => false

def message : Mismatch → String
  | .narrowing source target =>
    "numeric conversion from " ++ source.name ++ " to " ++ target.name ++ " requires narrowing"
  | .incompatible reason => reason

def notAssignable (shape : Shape) (target : Ty) : Mismatch :=
  .incompatible (shape.text ++ " is not assignable to " ++ target.text)

end Mismatch

/-- The distance of a widening between two different primitive types. Nothing widens into `char`,
and `boolean` stands apart. -/
def wideningDistance (source target : Primitive) : Except Mismatch Nat :=
  match source.rank?, target.rank? with
  | some low, some high =>
    if high ≤ low ∨ (source.isFloating ∧ target.isIntegral) ∨ target = .char then
      .error (.narrowing source target)
    else .ok (high - low)
  | _, _ => .error (.incompatible (source.name ++ " is not convertible to " ++ target.name))

def classifyPrimitive (shape : Shape) (target : Primitive) : Except Mismatch Conversion :=
  match shape, shape.primitive? with
  | .null, _ => .error (.incompatible ("null cannot be passed as primitive " ++ target.name))
  | .object _, some source => do
    let distance ← if source = target then pure 0 else wideningDistance source target
    pure (.via .unboxing distance)
  | _, some source =>
    if source = target then pure (.via .identity 0)
    else return .via .primitiveWidening (← wideningDistance source target)
  | _, none => .error (.notAssignable shape (.primitive target))

/-- How far a class stands above the own class of a list or a set. -/
def sequenceDistance? (own className : String) : Option Nat :=
  if className = own then some 0
  else if className = listClass ∨ className = setClass ∨ className = collectionClass then some 1
  else if className = iterableClass then some 2
  else if className = objectClass then some 3
  else none

/-- The conversion to a class that is no optional. -/
def classifyClass (v : ClassView) (shape : Shape) (className : String) (declared : Ty) :
    Except Mismatch Conversion :=
  let refused : Except Mismatch Conversion := .error (.notAssignable shape declared)
  match shape with
  | .null => .ok (.via .nullReference 0)
  | .string =>
    match v.distance stringClass className with
    | some d => .ok (.via .stringReference d)
    | none => if v.isEnum className then .ok (.via .enumConstant 0) else refused
  | .list | .set =>
    match sequenceDistance? (if shape = .list then listClass else setClass) className with
    | some extra => .ok (.via .sequence extra)
    | none => refused
  | .map =>
    if className = mapClass then .ok (.via .mapping 0)
    else if className = objectClass then .ok (.via .mapping 2)
    else refused
  | .object actual =>
    match v.distance actual className with
    | some 0 => .ok (.via .identity 0)
    | some (d + 1) => .ok (.via .referenceWidening d)
    | none =>
      match Primitive.ofWrapper? actual, Primitive.ofWrapper? className with
      | some source, some target => return .via .unboxing ((← wideningDistance source target) + 1)
      | _, _ => refused
  | .bool | .int | .long | .double | .char =>
    match shape.primitive?, Primitive.ofWrapper? className with
    | some source, some target => do
      let distance ← if target = source then pure 0 else wideningDistance source target
      pure (.via .boxing distance)
    | some source, none =>
      match v.acceptsBoxed className source with
      | some d => .ok (.via .boxing d)
      | none => refused
    | none, _ => refused

mutual

/-- How a value of a shape reaches a declared type. -/
def classify (v : ClassView) (shape : Shape) : Ty → Except Mismatch Conversion
  | .primitive p => classifyPrimitive shape p
  | .reference name args =>
    if name = optionalClass ∧ shape ≠ .object optionalClass then
      if shape = .null then .ok (.via .optionalWrap 0)
      else match classifyContent v shape args with
        | .ok inner => .ok (.via .optionalWrap inner)
        | .error m => .error m
    else classifyClass v shape name (.reference name args)
  | .array element dimensions =>
    match shape with
    | .null => .ok (.via .nullReference 0)
    | .list | .set => .ok (.via .sequence 1)
    | _ => .error (.notAssignable shape (.array element dimensions))
  | .variable name => classifyClass v shape objectClass (.variable name)
  | .void => .error (.notAssignable shape .void)

/-- The cost of reaching what an optional holds; a type variable stands for the root class. -/
def classifyContent (v : ClassView) (shape : Shape) : List Ty → Except Mismatch Nat
  | [] => .ok 0
  | .variable _ :: _ => (classifyClass v shape objectClass .object).map (·.cost.amount)
  | t :: _ => (classify v shape t).map (·.cost.amount)

end

/-- Whether one type is strictly more specific than another: a primitive before what takes it
boxed, a narrower primitive before a wider one, a subtype before its supertype. -/
def moreSpecificType (v : ClassView) : Ty → Ty → Bool
  | .primitive p, .primitive q =>
    match p.rank?, q.rank? with
    | some a, some b => a < b
    | _, _ => false
  | .primitive p, .reference name _ => (v.acceptsBoxed name p).isSome
  | .reference a _, .reference b _ => a != b && v.isSubtype a b && !v.isSubtype b a
  | .array .., .reference name _ => name == objectClass
  | _, _ => false

end Linkage.Call
