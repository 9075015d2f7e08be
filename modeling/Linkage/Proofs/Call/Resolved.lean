import Linkage.Proofs.Call.Selection
import Linkage.Proofs.Call.Stages

/-!
What a resolved call promises about its arguments: each of them reaches the type it is passed as,
and a call that gathers its last arguments has a parameter to gather them for.
-/
namespace Linkage.Call

open Outcome

/-- The type that every argument is passed as, out of the parameters of the member. -/
def passedTypes (parameters : List Ty) (spread : Bool) (count : Nat) : List Ty :=
  if spread then
    parameters.dropLast ++ List.replicate (count - parameters.dropLast.length)
      (((parameters.getLast?).map componentType).getD .object)
  else parameters

/-- Where the last arguments are gathered, there is a parameter for them and an argument for each
parameter before it. -/
def Gathers (parameters : List Ty) (spread : Bool) (count : Nat) : Prop :=
  spread = true → 0 < parameters.length ∧ parameters.length ≤ count + 1

/-- The member takes arguments of these shapes. -/
def Resolution.Takes (v : ClassView) (r : Resolution) (shapes : List Shape) : Prop :=
  Gathers r.parameters r.spread shapes.length ∧
    ∃ passings, Passes v 0 (passedTypes r.parameters r.spread shapes.length) shapes passings

section Resolve
variable {v : ClassView} {t : Target} {shapes : List Shape} {r : Resolution}

theorem Applies.takes {c : Candidate} {a : Applied} (applies : Applies v shapes c a) :
    (bind t a).Takes v shapes := by
  cases applies with
  | fixed passes => exact ⟨nofun, _, passes⟩
  | spread _ positive enough _ passes =>
    rw [← Candidate.length_parameters] at positive enough
    exact ⟨fun _ => ⟨positive, enough⟩, _, passes⟩

/-- What is bound is one of the candidates, as it takes the arguments. -/
theorem exists_of_bindOne {candidates : List Candidate} {missing : Cause}
    (answer : bindOne v t shapes candidates missing = .ok r) :
    ∃ c ∈ candidates, ∃ a, Applies v shapes c a ∧ r = bind t a := by
  rw [bindOne] at answer
  split at answer
  · cases answer
  · obtain ⟨a, chosen, rfl⟩ := map_eq_ok_iff.mp answer
    obtain ⟨c, taken, foremost⟩ := select_eq_ok_iff.mp chosen
    exact ⟨c, foremost.mem, a, taken.2, rfl⟩

theorem bindOne_takes {candidates : List Candidate} {missing : Cause}
    (answer : bindOne v t shapes candidates missing = .ok r) : r.Takes v shapes := by
  obtain ⟨_, _, a, applies, rfl⟩ := exists_of_bindOne answer
  exact applies.takes

theorem resolveMethod_takes {start : Classpath.Record}
    (answer : resolveMethod v t start shapes = .ok r) : r.Takes v shapes := by
  rw [resolveMethod_eq] at answer
  exact bindOne_takes answer

theorem resolveConstructor_takes {owner : Classpath.Record}
    (answer : resolveConstructor v t owner shapes = .ok r) : r.Takes v shapes := by
  rw [resolveConstructor_eq] at answer
  split at answer
  · cases answer
  · exact bindOne_takes answer

theorem Binding.fieldArity_le (kind : Binding) : kind.fieldArity?.getD 0 ≤ 1 := by
  cases kind <;> decide

theorem resolveField_takes {start : Classpath.Record}
    (answer : resolveField v t start shapes = .ok r) : r.Takes v shapes := by
  simp only [resolveField] at answer
  split at answer
  · rename_i m _
    split at answer
    · cases answer
    split at answer
    · cases answer
    rename_i lengths
    rw [not_not] at lengths
    split at answer
    · rename_i passings passed
      obtain rfl := Except.ok.inj answer
      refine ⟨nofun, ?_⟩
      by_cases written : t.kind.fieldArity?.getD 0 = 1
      · rw [written] at lengths
        refine ⟨passings, ?_⟩
        simp only [passedTypes, if_pos written]
        exact (passAll_eq_ok_iff (by simp [lengths]) passings).mp passed
      · have read : shapes = [] := by
          have := t.kind.fieldArity_le
          exact List.length_eq_zero_iff.mp (by omega)
        simp only [passedTypes, if_neg written, read]
        exact ⟨[], .nil⟩
    · cases answer
    · cases answer
  · cases answer

theorem resolve_takes {receiver : Option String} (answer : resolve v t receiver shapes = .ok r) :
    r.Takes v shapes := by
  simp only [resolve, mapError_eq_ok_iff] at answer
  obtain ⟨owner, _, answer⟩ := bind_eq_ok_iff.mp answer
  obtain ⟨start, _, answer⟩ := bind_eq_ok_iff.mp answer
  split at answer
  · exact resolveField_takes answer
  split at answer
  · exact resolveConstructor_takes answer
  · exact resolveMethod_takes answer

end Resolve

end Linkage.Call
