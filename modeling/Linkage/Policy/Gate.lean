import Linkage.Policy.Journal

/-!
The gate that calls go through: it rules on a target, writes the ruling into the journal if it has
one, and remembers it. A ruling that could not be written down is not remembered either.
-/
namespace Linkage.Policy

structure Gate where
  policy : Effective
  journal : Option Journal := none
  rulings : List Ruling := []
  deriving Repr, DecidableEq, Inhabited

/-- Why a target may not be called. -/
inductive GateFault where
  | denied (target : String) (denial : Denial)
  | unwritten (fault : JournalFault)
  deriving Repr, DecidableEq, Inhabited

namespace GateFault

def message : GateFault → String
  | .denied target denial => denial.message target
  | .unwritten fault => fault.message

def diagnostic : GateFault → Diagnostic
  | .denied target denial => denial.diagnostic target
  | .unwritten fault => fault.diagnostic

end GateFault

namespace Gate

/-- The answer that a remembered ruling gives. -/
def answer (r : Ruling) : Except GateFault Ruling :=
  match r.denial with
  | none => .ok r
  | some denial => .error (.denied r.target denial)

def remember (g : Gate) (r : Ruling) : Gate := { g with rulings := g.rulings ++ [r] }

/-- Rules on a target. The sinks are those of the journal. -/
def authorize {σ : Type} (sinks : Journal → Sinks σ) (stamp : String) (g : Gate) (target : String)
    (a : Actor) (s : σ) : Except GateFault Ruling × Gate × σ :=
  let r := g.policy.rule stamp target a
  match g.journal with
  | none => (answer r, g.remember r, s)
  | some j =>
    match j.record (sinks j) r s with
    | (.error fault, s) => (.error (.unwritten fault), g, s)
    | (.ok j, s) => (answer r, { g with journal := some j }.remember r, s)

end Gate

end Linkage.Policy
