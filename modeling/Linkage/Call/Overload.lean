import Linkage.Call.Failure

/-!
Choosing an overload. Of the members with a fitting number of parameters, those that may be called
are tried one by one; the cheapest conversion of all arguments wins, a call without a spread before
one with, and a tie goes to the one candidate that is more specific than all others.
-/
namespace Linkage.Call

/-- The instruction that a binding compiles to. -/
inductive Instruction where
  | invokeStatic
  | invokeSpecial
  | invokeVirtual
  | invokeInterface
  | getStatic
  | putStatic
  | getField
  | putField
  deriving Repr, DecidableEq, Inhabited

def Instruction.text : Instruction → String
  | .invokeStatic => "invokestatic"
  | .invokeSpecial => "invokespecial"
  | .invokeVirtual => "invokevirtual"
  | .invokeInterface => "invokeinterface"
  | .getStatic => "getstatic"
  | .putStatic => "putstatic"
  | .getField => "getfield"
  | .putField => "putfield"

/-- How one argument reaches its parameter. -/
structure Passing where
  index : Nat
  parameter : Ty
  shape : Shape
  conversion : Conversion
  deriving Repr, DecidableEq, Inhabited

def Passing.toJson (p : Passing) : Json :=
  .object [("index", .ofNat p.index), ("parameter", p.parameter.toJson), ("shape", p.shape.toJson),
    ("rule", .string p.conversion.rule.text), ("cost", p.conversion.cost.toJson)]

def totalCost (passings : List Passing) : Cost :=
  passings.foldl (fun total p => total.combine p.conversion.cost) {}

/-- A target bound to one member. -/
structure Resolution where
  target : Target
  owner : String
  name : String
  descriptor : String
  parameters : List Ty
  result : Ty
  passings : List Passing
  instruction : Instruction
  /-- The last arguments are gathered in an array. -/
  spread : Bool
  cost : Cost
  deriving Repr, DecidableEq, Inhabited

namespace Resolution

def signature (r : Resolution) : String := r.owner ++ "#" ++ r.name ++ r.descriptor

def toJson (r : Resolution) : Json :=
  .object [("target", r.target.toJson), ("owner", .string r.owner), ("name", .string r.name),
    ("descriptor", .string r.descriptor), ("parameters", .list Ty.toJson r.parameters),
    ("returnType", r.result.toJson), ("conversions", .list Passing.toJson r.passings),
    ("invokeKind", .string r.instruction.text), ("varargs", .bool r.spread),
    ("cost", r.cost.toJson)]

end Resolution

/-- A member and the class that declares it. -/
structure Candidate where
  declaring : ClassStub
  member : Member
  deriving Repr, DecidableEq, Inhabited

namespace Candidate

def signature (c : Candidate) : String := c.declaring.name ++ "#" ++ c.member.name ++ c.member.descriptor

/-- A generic parameter type; a bare type variable gives way to the erased type. -/
def parameterType (generic erased : Ty) : Ty :=
  match generic with
  | .variable _ => erased
  | _ => generic

def parameters (c : Candidate) : List Ty :=
  List.zipWith parameterType c.member.genericParameters c.member.parameters

def arity (c : Candidate) : Nat := c.member.parameters.length

/-- Whether the arguments can be spread over the last parameter. -/
def spreads (c : Candidate) (count : Nat) : Bool := c.member.isVarargs && c.arity ≤ count + 1

def fitsArity (c : Candidate) (count : Nat) : Bool := c.arity == count || c.spreads count

/-- The type of every argument when the last parameter is spread. -/
def spreadParameters (c : Candidate) (count : Nat) : List Ty :=
  let fixed := c.parameters.dropLast
  let component := ((c.parameters.getLast?).map componentType).getD .object
  fixed ++ List.replicate (count - fixed.length) component

end Candidate

/-- Why a member cannot be bound in a certain way, if it cannot. -/
def defect? (kind : Binding) (m : Member) : Option String :=
  if !m.isPublic then some "is not public"
  else match kind with
    | .constructor => none
    | _ =>
      if kind.isStatic && !m.isStatic then some "is not static"
      else if !kind.isStatic && m.isStatic then some "is static"
      else none

/-- Passes every argument, or lists the arguments that do not fit. -/
def passAll (v : ClassView) (parameters : List Ty) (shapes : List Shape) :
    Except (List (Nat × Mismatch)) (List Passing) :=
  let outcomes := (parameters.zip shapes).zipIdx.map fun ((t, s), i) => (i, t, s, classify v s t)
  let mismatches := outcomes.filterMap fun (i, _, _, outcome) =>
    match outcome with
    | .error m => some (i, m)
    | .ok _ => none
  let passings := outcomes.filterMap fun (i, t, s, outcome) =>
    match outcome with
    | .ok c => some ⟨i, t, s, c⟩
    | .error _ => none
  if mismatches.isEmpty then .ok passings else .error mismatches

/-- A candidate that takes the arguments. -/
structure Applied where
  candidate : Candidate
  passings : List Passing
  spread : Bool
  deriving Repr, DecidableEq, Inhabited

namespace Applied

def cost (a : Applied) : Cost := totalCost a.passings

/-- The type that every argument is passed as. -/
def argumentTypes (a : Applied) (count : Nat) : List Ty :=
  if a.spread then a.candidate.spreadParameters count else a.candidate.parameters

/-- Cheaper, then without a spread, then by descriptor and by declaring class. -/
def le (a b : Applied) : Bool :=
  if a.cost.before b.cost then true
  else if b.cost.before a.cost then false
  else if a.spread != b.spread then b.spread
  else if a.candidate.member.descriptor ≠ b.candidate.member.descriptor then
    decide (a.candidate.member.descriptor < b.candidate.member.descriptor)
  else decide (a.candidate.declaring.name ≤ b.candidate.declaring.name)

end Applied

/-- A candidate that does not take the arguments. -/
structure Rejection where
  signature : String
  mismatches : List (Nat × Mismatch)
  deriving Repr, DecidableEq, Inhabited

namespace Rejection

/-- Whether nothing but narrowing stands in the way. -/
def isNarrowing (r : Rejection) : Bool :=
  !r.mismatches.isEmpty && r.mismatches.all (·.2.isNarrowing)

def describe (r : Rejection) : String :=
  r.signature ++ ": " ++ String.intercalate ", " (r.mismatches.map fun (i, m) =>
    argumentPath i ++ ": " ++ m.message)

end Rejection

/-- The gathering of a spread's arguments as the last step. -/
def gathering (c : Candidate) : Passing :=
  ⟨c.arity - 1, (c.parameters.getLast?).getD .object, .list, .via .varargs 0⟩

/-- Passes the last arguments in an array; without a parameter there is nothing to spread over. -/
def spreadOut (v : ClassView) (c : Candidate) (shapes : List Shape) :
    Except (List (Nat × Mismatch)) Applied :=
  if c.arity = 0 then .error []
  else (passAll v (c.spreadParameters shapes.length) shapes).map fun passings =>
    ⟨c, passings ++ [gathering c], true⟩

/-- Tries a candidate with the arguments one to one, then spread. A candidate that takes them
neither way is rejected for what the first attempt met. -/
def apply (v : ClassView) (shapes : List Shape) (c : Candidate) : Except Rejection Applied :=
  let spreads := c.spreads shapes.length
  if c.arity = shapes.length then
    match passAll v c.parameters shapes with
    | .ok passings => .ok ⟨c, passings, false⟩
    | .error mismatches =>
      match spreads, spreadOut v c shapes with
      | true, .ok applied => .ok applied
      | _, _ => .error ⟨c.signature, mismatches⟩
  else if spreads then
    match spreadOut v c shapes with
    | .ok applied => .ok applied
    | .error mismatches => .error ⟨c.signature, mismatches⟩
  else .error ⟨c.signature, []⟩

/-- One parameter list is more specific than another: nowhere less, and somewhere more. -/
def moreSpecific (v : ClassView) (left right : List Ty) : Bool :=
  left.length == right.length &&
    ((left.zip right).all fun (l, r) => l.erasure == r.erasure || moreSpecificType v l r) &&
    ((left.zip right).any fun (l, r) => l.erasure != r.erasure && moreSpecificType v l r)

/-- The one candidate that is more specific than every other. -/
def dominant? (v : ClassView) (count : Nat) (tied : List Applied) : Option Applied :=
  let all := tied.zipIdx
  let dominating := all.filter fun (a, i) => all.all fun (b, j) =>
    i == j || moreSpecific v (a.argumentTypes count) (b.argumentTypes count)
  match dominating with
  | [(a, _)] => some a
  | _ => none

/-- The binding of a target to the candidate that was chosen. -/
def bind (target : Target) (a : Applied) : Resolution :=
  let c := a.candidate
  { target
    owner := c.declaring.name
    name := c.member.name
    descriptor := c.member.descriptor
    parameters := c.parameters
    result :=
      if target.kind = .constructor then .named c.declaring.name
      else match c.member.generic with
        | some g => g.result
        | none => c.member.result
    passings := a.passings
    instruction := match target.kind with
      | .staticMethod => .invokeStatic
      | .constructor => .invokeSpecial
      | _ => if c.declaring.isInterface then .invokeInterface else .invokeVirtual
    spread := a.spread
    cost := a.cost }

/-- Why none of the candidates with a fitting number of parameters takes the arguments. -/
def refusal (shapes : List Shape) (rejections : List Rejection) : Cause :=
  let sorted := rejections.mergeSort fun a b => decide (a.signature ≤ b.signature)
  let described := sorted.map Rejection.describe
  if sorted.all Rejection.isNarrowing then
    match sorted.head?.bind (·.mismatches.head?) with
    | some (_, .narrowing source target) => .narrowing source.name target.name described
    | _ => .narrowing "" "" described
  else .notApplicable (Shape.listText shapes) described

def wrongArity (c : Candidate) (count : Nat) : String :=
  c.signature ++ ": expects " ++ toString c.arity ++ " argument(s), got " ++ toString count

def tieText (a : Applied) : String :=
  a.candidate.signature ++ " (phase " ++ toString a.cost.phase ++ ", cost " ++
    toString a.cost.amount ++ ")"

/-- The cheapest of the candidates that take the arguments. -/
def tied (applied : List Applied) : List Applied :=
  let sorted := applied.mergeSort Applied.le
  match sorted with
  | [] => []
  | best :: _ => sorted.filter fun a => a.cost == best.cost && a.spread == best.spread

/-- Chooses among candidates of one name. -/
def select (v : ClassView) (kind : Binding) (candidates : List Candidate) (shapes : List Shape) :
    Except Cause Applied :=
  let count := shapes.length
  let fitting := candidates.filter (·.fitsArity count)
  let sound := fitting.filter fun c => (defect? kind c.member).isNone
  let outcomes := sound.map (apply v shapes)
  let applied := outcomes.filterMap Except.toOption
  if fitting.isEmpty then
    .error (.notApplicable (Shape.listText shapes)
      (Text.sortedStrings (candidates.map fun c => wrongArity c count)))
  else if sound.isEmpty then
    .error (.invalid (joined (Text.sortedStrings (fitting.filterMap fun c =>
      (defect? kind c.member).map fun d => "`" ++ c.signature ++ "` " ++ d))))
  else match tied applied with
    | [] => .error (refusal shapes (outcomes.filterMap fun o =>
        match o with
        | .error r => some r
        | .ok _ => none))
    | [only] => .ok only
    | several =>
      match dominant? v count several with
      | some winner => .ok winner
      | none => .error (.ambiguous (Shape.listText shapes) (several.map tieText))

end Linkage.Call
