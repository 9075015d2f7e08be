import Linkage.Call.Resolution
import Linkage.Proofs.Outcome

/-!
The stages of a resolution. The target names a class, the search starts there or at the class of the
receiver, and one of the candidates is bound that are found from the start. Constructors are
candidates of the named class itself.
-/
namespace Linkage.Call
variable (v : ClassView) (t : Target) (shapes : List Shape)

theorem classOf_eq_ok_iff {name : String} {r : Classpath.Record} :
    classOf v name = .ok r ↔ v.lookup name = some r := by
  rw [classOf]
  cases v.lookup name with
  | some found => simp
  | none => cases v.explainMissing name <;> simp

/-- Where the search for the member of a target starts. -/
def searchStart (receiver : Option String) : Except Cause Classpath.Record :=
  classOf v t.owner >>= fun owner =>
    startOf v owner (if t.kind.needsReceiver then receiver else none)

/-- Binds a target to one of the candidates, if there are any. -/
def bindOne (candidates : List Candidate) (missing : Cause) : Except Cause Resolution :=
  if candidates.isEmpty then .error missing
  else (select v t.kind candidates shapes).map (bind t)

/-- The constructors of a class as candidates. -/
def constructorsOf (c : ClassStub) : List Candidate := c.constructors.map fun m => ⟨c, m⟩

theorem resolveMethod_eq (start : Classpath.Record) : resolveMethod v t start shapes =
    bindOne v t shapes (methodsOf v start.name t.member) (.memberNotFound start.name t.member) := by
  unfold resolveMethod bindOne
  dsimp only
  generalize methodsOf v start.name t.member = candidates
  cases candidates.isEmpty with
  | true => rfl
  | false => cases select v t.kind candidates shapes <;> rfl

theorem resolveConstructor_eq (owner : Classpath.Record) : resolveConstructor v t owner shapes =
    if owner.stub.isInterface || owner.stub.access.isAbstract then
      .error (.invalid ("`" ++ owner.stub.name ++ "` is abstract and cannot be instantiated"))
    else bindOne v t shapes (constructorsOf owner.stub)
      (.memberNotFound owner.stub.name constructorName) := by
  unfold resolveConstructor bindOne constructorsOf
  dsimp only
  cases owner.stub.isInterface || owner.stub.access.isAbstract with
  | true => rfl
  | false =>
    generalize (owner.stub.constructors.map fun m => (⟨owner.stub, m⟩ : Candidate)) = candidates
    cases candidates.isEmpty with
    | true => rfl
    | false => cases select v t.kind candidates shapes <;> rfl

variable {t}

theorem resolve_method_eq (callable : t.kind.isField = false) (method : t.kind ≠ .constructor)
    (receiver : Option String) : resolve v t receiver shapes =
      (searchStart v t receiver >>= fun start => resolveMethod v t start shapes).mapError
        fun cause => ⟨t.text, cause⟩ := by
  simp only [resolve, searchStart, callable, Bool.false_eq_true, if_false, if_neg method]
  cases classOf v t.owner <;> rfl

theorem resolve_constructor_eq (constructor : t.kind = .constructor) (receiver : Option String) :
    resolve v t receiver shapes =
      (classOf v t.owner >>= fun owner => resolveConstructor v t owner shapes).mapError
        fun cause => ⟨t.text, cause⟩ := by
  simp only [resolve, constructor, Binding.isField, Binding.fieldArity?, Option.isSome_none,
    Bool.false_eq_true, if_false, if_true]
  cases classOf v t.owner <;> rfl

end Linkage.Call
