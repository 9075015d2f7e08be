import Linkage.Call.Resolution

/-!
The bridge over a class view. Every request is resolved once, whatever comes of it, and later
requests that are the same get the same answer. A call hands the adapted arguments to a host.
-/
namespace Linkage.Call

/-- What the outcome of a resolution depends on. -/
structure Request where
  target : Target
  receiver : Option String
  shapes : List Shape
  deriving Repr, DecidableEq, Inhabited

/-- A request; a receiver is left out where the binding needs none. -/
def Request.make (target : Target) (receiver : Option String) (shapes : List Shape) : Request :=
  ⟨target, if target.kind.needsReceiver then receiver else none, shapes⟩

/-- Requests and their outcomes in the order of the first requests. -/
structure Bridge where
  view : ClassView
  answered : List (Request × Except Failure Resolution) := []

/-- What a host is handed to carry out a call. -/
structure Dispatch where
  resolution : Resolution
  receiver : Option HostValue
  arguments : List HostValue

/-- A host carries a call out, or fails with a message. -/
abbrev Host := Dispatch → Except String HostValue

/-- A host that changes a state of its own. -/
abbrev Invoker (σ : Type) := Dispatch → σ → Except String HostValue × σ

namespace Dispatch

/-- What is made of a host's answer. -/
def answer (d : Dispatch) : Except String HostValue → Except Failure Value
  | .ok x => .ok x.toValue
  | .error message => .error ⟨d.resolution.target.text, .invocation message⟩

def run (d : Dispatch) (host : Host) : Except Failure Value := d.answer (host d)

end Dispatch

/-- Resolves requests, and may change a state of its own. -/
abbrev Resolver (σ : Type) := Request → σ → Except Failure Resolution × σ

/-- What resolving a request on a view gives. -/
def Request.outcome (v : ClassView) (r : Request) : Except Failure Resolution :=
  resolve v r.target r.receiver r.shapes

namespace Bridge

def answer? (b : Bridge) (r : Request) : Option (Except Failure Resolution) :=
  (b.answered.find? (·.1 == r)).map (·.2)

/-- The resolutions that succeeded. -/
def resolved (b : Bridge) : List Resolution := b.answered.filterMap (·.2.toOption)

/-- The resolver of a view, which has no state. -/
def resolver (b : Bridge) : Resolver Unit := fun r _ => (r.outcome b.view, ())

/-- Answers a request from memory, or has it resolved and remembers the outcome. -/
def askBy {σ : Type} (resolver : Resolver σ) (b : Bridge) (r : Request) (w : σ) :
    Except Failure Resolution × Bridge × σ :=
  match b.answer? r with
  | some outcome => (outcome, b, w)
  | none =>
    let (outcome, w) := resolver r w
    (outcome, { b with answered := b.answered ++ [(r, outcome)] }, w)

def ask (b : Bridge) (r : Request) : Except Failure Resolution × Bridge :=
  let (outcome, b, _) := b.askBy b.resolver r ()
  (outcome, b)

/-- The class of the receiver, where the binding needs one. -/
def receiverClass (t : Target) (receiver : Option Value) : Except Failure (Option String) :=
  if !t.kind.needsReceiver then .ok none
  else match receiver with
    | some (.object className _) => .ok (some className)
    | some other => .error ⟨t.text, .invalid ("receiver must be an object reference, got " ++
        other.describe)⟩
    | none => .error ⟨t.text, .invalid "instance binding requires a receiver"⟩

/-- Has a call resolved and adapts its arguments. -/
def prepareBy {σ : Type} (resolver : Resolver σ) (b : Bridge) (t : Target)
    (receiver : Option Value) (arguments : List Value) (w : σ) :
    Except Failure Dispatch × Bridge × σ :=
  match receiverClass t receiver with
  | .error e => (.error e, b, w)
  | .ok className =>
    let (outcome, b, w) := b.askBy resolver (.make t className (arguments.map Value.shape)) w
    let dispatch := do
      let r ← outcome
      let adapted ← (adaptArguments b.view r.parameters r.spread arguments).mapError fun fault =>
        (⟨t.text, .conversion fault⟩ : Failure)
      pure ⟨r, if t.kind.needsReceiver then receiver.map adaptReceiver else none, adapted⟩
    (dispatch, b, w)

def prepare (b : Bridge) (t : Target) (receiver : Option Value) (arguments : List Value) :
    Except Failure Dispatch × Bridge :=
  let (dispatch, b, _) := b.prepareBy b.resolver t receiver arguments ()
  (dispatch, b)

def callBy {σ : Type} (resolver : Resolver σ) (b : Bridge) (host : Host) (t : Target)
    (receiver : Option Value) (arguments : List Value) (w : σ) :
    Except Failure Value × Bridge × σ :=
  match b.prepareBy resolver t receiver arguments w with
  | (.ok d, b, w) => (d.run host, b, w)
  | (.error e, b, w) => (.error e, b, w)

def call (b : Bridge) (host : Host) (t : Target) (receiver : Option Value)
    (arguments : List Value) : Except Failure Value × Bridge :=
  let (outcome, b, _) := b.callBy b.resolver host t receiver arguments ()
  (outcome, b)

end Bridge

end Linkage.Call
