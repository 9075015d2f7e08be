import Linkage.Call.Overload

/-!
Resolving a target against a class view: finding its class, the class where the search for the
member starts, the members of that name, and one of them that takes the arguments.
-/
namespace Linkage.Call

open Classpath (Record)

/-- The class of a name, or why there is none. -/
def classOf (v : ClassView) (name : String) : Except Cause Record :=
  match v.lookup name, v.explainMissing name with
  | some r, _ => .ok r
  | none, some reason => .error (.unavailable reason)
  | none, none => .error (.classNotFound name)

/-- Where the search for a member starts: at the receiver's own class, if the view holds it. -/
def startOf (v : ClassView) (owner : Record) (receiver : Option String) : Except Cause Record :=
  match receiver with
  | none => .ok owner
  | some name =>
    if name = owner.name then .ok owner
    else match v.lookup name with
      | none => .ok owner
      | some r =>
        if v.isSubtype name owner.name then .ok r
        else .error (.invalid ("receiver of type `" ++ name ++ "` is not an instance of `" ++
          owner.name ++ "`"))

/-- Keeps the first candidate of every erased signature. -/
def withoutOverridden : List Candidate → List Candidate
  | [] => []
  | c :: rest =>
    c :: (withoutOverridden rest).filter fun d => d.member.erasedKey != c.member.erasedKey

/-- The methods of a name that are seen from a class. A member hides inherited ones with the same
erased signature, and synthetic members only count where there are no others. -/
def methodsOf (v : ClassView) (className name : String) : List Candidate :=
  let declared := (v.lookupOrder className).flatMap fun ancestor =>
    match v.stubOf? ancestor with
    | some c => ((c.membersNamed name).filter (·.kind == .method)).map fun m => ⟨c, m⟩
    | none => []
  let visible := withoutOverridden declared
  let regular := visible.filter (!·.member.isBridgeOrSynthetic)
  if regular.isEmpty then visible else regular

def resolveMethod (v : ClassView) (t : Target) (start : Record) (shapes : List Shape) :
    Except Cause Resolution := do
  let candidates := methodsOf v start.name t.member
  if candidates.isEmpty then throw (.memberNotFound start.name t.member)
  pure (bind t (← select v t.kind candidates shapes))

def resolveConstructor (v : ClassView) (t : Target) (owner : Record) (shapes : List Shape) :
    Except Cause Resolution := do
  let c := owner.stub
  if c.isInterface || c.access.isAbstract then
    throw (.invalid ("`" ++ c.name ++ "` is abstract and cannot be instantiated"))
  let candidates := c.constructors.map fun m => (⟨c, m⟩ : Candidate)
  if candidates.isEmpty then throw (.memberNotFound c.name constructorName)
  pure (bind t (← select v t.kind candidates shapes))

/-- The field of a name that is seen from a class. -/
def fieldOf? (v : ClassView) (className name : String) : Option Candidate :=
  (v.lookupOrder className).findSome? fun ancestor =>
    (v.stubOf? ancestor).bind fun c =>
      ((c.membersNamed name).find? (·.kind == .field)).map fun m => ⟨c, m⟩

def fieldInstruction : Binding → Instruction
  | .staticGet => .getStatic
  | .staticSet => .putStatic
  | .instanceGet => .getField
  | _ => .putField

def resolveField (v : ClassView) (t : Target) (start : Record) (shapes : List Shape) :
    Except Cause Resolution := do
  let some ⟨declaring, m⟩ := fieldOf? v start.name t.member
    | throw (.memberNotFound start.name t.member)
  let signature := declaring.name ++ "#" ++ m.name ++ ":" ++ m.descriptor
  let arity := t.kind.fieldArity?.getD 0
  let defect := defect? t.kind m <|>
    (if arity = 1 ∧ m.access.isFinal then some "is final" else none)
  if let some d := defect then throw (.invalid ("`" ++ signature ++ "` " ++ d))
  if shapes.length ≠ arity then
    throw (.notApplicable (Shape.listText shapes) [signature ++ ": expects " ++ toString arity ++
      " argument(s), got " ++ toString shapes.length])
  let type := Candidate.parameterType m.genericFieldType m.result
  let passings ← match passAll v [type] shapes with
    | .ok passings => pure passings
    | .error ((_, .narrowing source target) :: _) =>
      throw (.narrowing source.name target.name [signature])
    | .error mismatches =>
      throw (.notApplicable (Shape.listText shapes) [Rejection.describe ⟨signature, mismatches⟩])
  pure {
    target := t
    owner := declaring.name
    name := m.name
    descriptor := m.descriptor
    parameters := if arity = 1 then [type] else []
    result := if arity = 1 then .void else type
    passings
    instruction := fieldInstruction t.kind
    spread := false
    cost := totalCost passings }

/-- Resolves a target for a receiver's class and the shapes of the arguments. The receiver counts
only where the binding needs one. -/
def resolve (v : ClassView) (t : Target) (receiver : Option String) (shapes : List Shape) :
    Except Failure Resolution :=
  let outcome : Except Cause Resolution := do
    let owner ← classOf v t.owner
    let start ← startOf v owner (if t.kind.needsReceiver then receiver else none)
    if t.kind.isField then resolveField v t start shapes
    else if t.kind = .constructor then resolveConstructor v t owner shapes
    else resolveMethod v t start shapes
  outcome.mapError fun cause => ⟨t.text, cause⟩

end Linkage.Call
