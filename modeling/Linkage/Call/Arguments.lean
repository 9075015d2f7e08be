import Linkage.Call.Conversion
import Linkage.Value.Host

/-!
Turning program values into host values of declared types. A value is followed into its parts, and
a failure says by its path which part it is about. Numbers are converted exactly or refused, only
`float` and `double` round.
-/
namespace Linkage.Call

inductive AdaptFault where
  | narrowing (path source target : String)
  | outOfRange (path value target : String)
  | enumConstant (path expected value : String)
  | incompatible (path expected value : String)
  deriving Repr, DecidableEq, Inhabited

namespace AdaptFault

def path : AdaptFault → String
  | .narrowing p _ _ => p
  | .outOfRange p _ _ => p
  | .enumConstant p _ _ => p
  | .incompatible p _ _ => p

def isNumeric : AdaptFault → Bool
  | .narrowing .. => true
  | .outOfRange .. => true
  | _ => false

def message : AdaptFault → String
  | .narrowing p source target =>
    p ++ ": numeric conversion from " ++ source ++ " to " ++ target ++ " requires narrowing"
  | .outOfRange p value target =>
    p ++ ": numeric value " ++ value ++ " is out of range for " ++ target
  | .enumConstant p expected value =>
    p ++ ": `" ++ value ++ "` is not a constant of enum `" ++ expected ++ "`"
  | .incompatible p expected value => p ++ ": cannot convert " ++ value ++ " to " ++ expected

def refuse (path : String) (expected : Ty) (value : Value) : AdaptFault :=
  .incompatible path expected.text value.describe

end AdaptFault

/-- An integer as a host value of an integral type, if it is in the range of that type. -/
def integral? (target : Primitive) (n : Int) : Option HostValue :=
  match target with
  | .byte => if fitsBits 8 n then some (.byte (.ofInt n)) else none
  | .short => if fitsBits 16 n then some (.short (.ofInt n)) else none
  | .int => if fitsBits 32 n then some (.int (.ofInt n)) else none
  | .long => if fitsBits 64 n then some (.long (.ofInt n)) else none
  | _ => none

/-- A number as a primitive. What is not finite is only taken as a `double`. -/
def convertNumber (x : Binary) (target : Primitive) (path : String) :
    Except AdaptFault HostValue :=
  let outOfRange : AdaptFault := .outOfRange path (x.text .double) target.name
  let narrowing : AdaptFault := .narrowing path "double" target.name
  match target with
  | .double => .ok (.double x)
  | _ =>
    if !x.isFinite then .error outOfRange
    else match target with
      | .float =>
        if x.magnitudeAbove (Binary.greatest .single) then .error outOfRange
        else .ok (.float (x.convert .single))
      | .boolean | .char => .error narrowing
      | _ =>
        match x.toInt? with
        | none => .error narrowing
        | some n =>
          match integral? target n with
          | some value => .ok value
          | none => .error outOfRange

def convertLong (n : Int64) (target : Primitive) (path : String) : Except AdaptFault HostValue :=
  match target with
  | .double => .ok (.double (.ofInt .double n.toInt))
  | .float => .ok (.float (.ofInt .single n.toInt))
  | .boolean | .char => .error (.narrowing path "long" target.name)
  | _ =>
    match integral? target n.toInt with
    | some value => .ok value
    | none => .error (.outOfRange path (toString n.toInt) target.name)

/-- A character as a primitive; its code is taken for the numeric types that are wide enough. -/
def convertChar (c : Char) (target : Primitive) (path : String) : Except AdaptFault HostValue :=
  match target with
  | .char => .ok (.char c)
  | .int => .ok (.int (.ofInt c.toNat))
  | .long => .ok (.long (.ofInt c.toNat))
  | .float => .ok (.float (.ofInt .single c.toNat))
  | .double => .ok (.double (.ofInt .double c.toNat))
  | _ => .error (.narrowing path "char" target.name)

/-- A value as a primitive; the host itself takes a wrapper object out of its box. -/
def adaptPrimitive (value : Value) (target : Primitive) (path : String) :
    Except AdaptFault HostValue :=
  let refused : Except AdaptFault HostValue := .error (.refuse path (.primitive target) value)
  match value with
  | .bool b => if target = .boolean then .ok (.boolean b) else refused
  | .char c => convertChar c target path
  | .number x => convertNumber x target path
  | .long n => convertLong n target path
  | .object className handle =>
    if (Primitive.ofWrapper? className).isSome then .ok (.object className handle) else refused
  | _ => refused

def adaptEnum (v : ClassView) (className constant path : String) : Except AdaptFault HostValue :=
  if (v.enumConstants className).contains constant then .ok (.enum className constant)
  else .error (.enumConstant path className constant)

/-- A number in its own box: that of its shape. -/
def boxNumber (x : Binary) : HostValue :=
  match x.shape, x.toInt? with
  | .int, some n => .boxed (.int (.ofInt n))
  | .long, some n => .boxed (.long (.ofInt n))
  | _, _ => .boxed (.double x)

/-- A value without parts where a class that is no wrapper is expected. -/
def adaptReference (v : ClassView) (value : Value) (className path : String) :
    Except AdaptFault HostValue :=
  match value with
  | .null => .ok .null
  | .string s => if v.isEnum className then adaptEnum v className s path else .ok (.string s)
  | .bool b => .ok (.boxed (.boolean b))
  | .char c => .ok (.boxed (.char c))
  | .long n => .ok (.boxed (.long n))
  | .number x => .ok (boxNumber x)
  | .object actual handle => .ok (.object actual handle)
  | _ => .error (.refuse path (.named className) value)

/-- A value where a wrapper is expected. -/
def adaptWrapper (value : Value) (target : Primitive) (path : String) :
    Except AdaptFault HostValue :=
  match value with
  | .null => .ok .null
  | .object className handle => .ok (.object className handle)
  | _ => (adaptPrimitive value target path).map .boxed

/-- A value without parts where the type is expected. -/
def adaptSimple (v : ClassView) (value : Value) (target : Ty) (path : String) :
    Except AdaptFault HostValue :=
  match target with
  | .primitive p => adaptPrimitive value p path
  | .reference name _ =>
    match Primitive.ofWrapper? name with
    | some p => adaptWrapper value p path
    | none => adaptReference v value name path
  | .array .. =>
    match value with
    | .null => .ok .null
    | _ => .error (.refuse path target value)
  | .variable _ => adaptReference v value objectClass path
  | .void => .error (.refuse path target value)

/-- A type argument as the type of an element; a type variable stands for the root class. -/
def bounded : Ty → Ty
  | .variable _ => .object
  | t => t

/-- The type of the elements that the type argument at a place gives. -/
def elementType (args : List Ty) (place : Nat) : Ty := ((args[place]?).map bounded).getD .object

/-- The type of the items of an array. -/
def componentType : Ty → Ty
  | .array element dimensions => if 1 < dimensions then .array element (dimensions - 1) else element
  | _ => .object

mutual

/-- How many optionals a type wraps around another, and that other type. -/
def layers : Ty → Nat × Ty
  | .reference name args =>
    if name = optionalClass then ((layersWithin args).1 + 1, (layersWithin args).2)
    else (0, .reference name args)
  | .variable _ => (0, .object)
  | t => (0, t)

def layersWithin : List Ty → Nat × Ty
  | [] => (0, .object)
  | t :: _ => layers t

end

def wrapped : Nat → HostValue → HostValue
  | 0, x => x
  | n + 1, x => .present (wrapped n x)

/-- What a list or a set becomes where a type is expected: the type of its elements and what they
are put into, or the type that refuses it. -/
def sequenceGoal (isSet : Bool) (target : Ty) : Except Ty (Ty × (List HostValue → HostValue)) :=
  match target with
  | .array .. => .ok (componentType target, .array (componentType target))
  | .reference name args =>
    match Primitive.ofWrapper? name with
    | some p => .error (.primitive p)
    | none =>
      let toSet := name = setClass ∨ (isSet ∧ name ≠ listClass)
      .ok (elementType args 0, fun items => if toSet then .set (HostValue.dedup items) else .list items)
  | _ => .error target

/-- The types of the keys and the values of a map where a type is expected. -/
def mapGoal (target : Ty) : Except Ty (Ty × Ty) :=
  match target with
  | .reference name args =>
    match Primitive.ofWrapper? name with
    | some p => .error (.primitive p)
    | none =>
      if name = mapClass ∨ name = objectClass then .ok (elementType args 0, elementType args 1)
      else .error target
  | _ => .error target

mutual

/-- A value where a type is expected. Nothing becomes the empty optional, and whatever is no
optional itself is put into as many optionals as the type has. -/
def adapt (v : ClassView) : Value → Ty → String → Except AdaptFault HostValue
  | .list items, target, path =>
    match sequenceGoal false (layers target).2 with
    | .error refusing => .error (.refuse path refusing (.list items))
    | .ok (element, gather) =>
      (adaptItems v items element path 0).map fun xs => wrapped (layers target).1 (gather xs)
  | .set items, target, path =>
    match sequenceGoal true (layers target).2 with
    | .error refusing => .error (.refuse path refusing (.set items))
    | .ok (element, gather) =>
      (adaptItems v items element path 0).map fun xs => wrapped (layers target).1 (gather xs)
  | .map entries, target, path =>
    match mapGoal (layers target).2 with
    | .error refusing => .error (.refuse path refusing (.map entries))
    | .ok (key, value) =>
      (adaptEntries v entries key value path).map fun xs => wrapped (layers target).1 (.map xs)
  | .null, target, path =>
    if 0 < (layers target).1 then .ok .absent else adaptSimple v .null (layers target).2 path
  | .object className handle, target, path =>
    if 0 < (layers target).1 ∧ className = optionalClass then .ok (.object className handle)
    else (adaptSimple v (.object className handle) (layers target).2 path).map
      (wrapped (layers target).1)
  | value, target, path =>
    (adaptSimple v value (layers target).2 path).map (wrapped (layers target).1)

/-- The items of a list, numbered from `index` on. -/
def adaptItems (v : ClassView) : List Value → Ty → String → Nat → Except AdaptFault (List HostValue)
  | [], _, _, _ => .ok []
  | item :: rest, element, path, index => do
    let x ← adapt v item element (path ++ "[" ++ toString index ++ "]")
    let xs ← adaptItems v rest element path (index + 1)
    pure (x :: xs)

def adaptEntries (v : ClassView) :
    List (Value × Value) → Ty → Ty → String → Except AdaptFault (List (HostValue × HostValue))
  | [], _, _, _ => .ok []
  | (k, item) :: rest, key, value, path => do
    let place := path ++ "\x7b" ++ k.describe ++ "\x7d"
    let k' ← adapt v k key place
    let x ← adapt v item value place
    let xs ← adaptEntries v rest key value path
    pure ((k', x) :: xs)

end

/-- A receiver is passed on as the reference that it is. -/
def adaptReceiver : Value → HostValue
  | .object className handle => .object className handle
  | _ => .null

def argumentPath (index : Nat) : String := "argument " ++ toString index

/-- The arguments, each where its type is expected, numbered from `index` on. -/
def adaptEach (v : ClassView) : List Value → List Ty → Nat → Except AdaptFault (List HostValue)
  | value :: values, t :: types, index => do
    let x ← adapt v value t (argumentPath index)
    let xs ← adaptEach v values types (index + 1)
    pure (x :: xs)
  | _, _, _ => .ok []

/-- The arguments of a call; a spread call gathers the last ones in an array. -/
def adaptArguments (v : ClassView) (parameters : List Ty) (spread : Bool) (arguments : List Value) :
    Except AdaptFault (List HostValue) := do
  if !spread then adaptEach v arguments parameters 0
  else
    let fixed := parameters.length - 1
    let leading ← adaptEach v arguments (parameters.take fixed) 0
    let component := ((parameters.getLast?).map componentType).getD .object
    let rest := arguments.drop fixed
    let gathered ← adaptEach v rest (List.replicate rest.length component) fixed
    pure (leading ++ [.array component gathered])

end Linkage.Call
