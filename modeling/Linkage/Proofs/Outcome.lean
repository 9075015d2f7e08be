import Mathlib.Data.List.Forall2

/-!
Computations that end with a result or with a failure, read backwards: what a step made of two
parts says about its parts, once it is known how it ended.
-/
namespace Linkage.Outcome
universe u
variable {ε ε' α β : Type u} {x : Except ε α}

theorem bind_eq_ok_iff {f : α → Except ε β} {b : β} :
    x >>= f = .ok b ↔ ∃ a, x = .ok a ∧ f a = .ok b := by
  cases x with
  | error e => simp [bind, Except.bind]
  | ok a => simp [bind, Except.bind]

theorem bind_eq_error_iff {f : α → Except ε β} {e : ε} :
    x >>= f = .error e ↔ x = .error e ∨ ∃ a, x = .ok a ∧ f a = .error e := by
  cases x with
  | error e => simp [bind, Except.bind]
  | ok a => simp [bind, Except.bind]

theorem map_eq_ok_iff {f : α → β} {b : β} : x.map f = .ok b ↔ ∃ a, x = .ok a ∧ f a = b := by
  cases x with
  | error e => simp [Except.map]
  | ok a => simp [Except.map]

theorem map_eq_error_iff {f : α → β} {e : ε} : x.map f = .error e ↔ x = .error e := by
  cases x with
  | error e => simp [Except.map]
  | ok a => simp [Except.map]

theorem mapError_eq_ok_iff {f : ε → ε'} {a : α} : x.mapError f = .ok a ↔ x = .ok a := by
  cases x with
  | error e => simp [Except.mapError]
  | ok a => simp [Except.mapError]

/-- A list is worked off with a result exactly when each of its members is. -/
theorem mapM_eq_ok_iff {f : α → Except ε β} {as : List α} {bs : List β} :
    as.mapM f = .ok bs ↔ List.Forall₂ (fun a b => f a = .ok b) as bs := by
  induction as generalizing bs with
  | nil => simp [pure, Except.pure, eq_comm]
  | cons a as ih =>
    rw [List.mapM_cons, bind_eq_ok_iff, List.forall₂_cons_left_iff]
    simp only [bind_eq_ok_iff, ih]
    constructor
    · rintro ⟨b, first, others, each, same⟩
      exact ⟨b, others, first, each, (Except.ok.inj same).symm⟩
    · rintro ⟨b, others, first, each, rfl⟩
      exact ⟨b, first, others, each, rfl⟩

/-- Two computations that go on alike from what they agree on. -/
theorem bind_eq_of_map_eq {γ : Type u} {y : Except ε α} {f g : α → Except ε β} {h : α → γ}
    (same : x.map h = y.map h) (onward : ∀ a b, x = .ok a → y = .ok b → h a = h b → f a = g b) :
    x >>= f = y >>= g := by
  cases x with
  | error e =>
    cases y with
    | error e' =>
      obtain rfl := Except.error.inj same
      rfl
    | ok b => cases same
  | ok a =>
    cases y with
    | error e' => cases same
    | ok b => exact onward a b rfl rfl (Except.ok.inj same)

end Linkage.Outcome
