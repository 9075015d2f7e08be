import Linkage.Number.Binary
import Mathlib.Data.Rat.Cast.Order
import Mathlib.Tactic.NormNum

/-!
The exact value of a binary number, a rational, and what the operations on binary numbers say
about it. Being an integer, numerical equality, the order and the cut towards zero are computed on
mantissas and exponents; each is shown here to be what it is for the values.
-/
namespace Linkage.Binary

def signed (negative : Bool) (magnitude : Nat) : Int :=
  if negative then -(magnitude : Int) else magnitude

/-- The rational number that a finite binary number stands for. -/
def value? : Binary → Option ℚ
  | .finite s m e => some (signed s m * 2 ^ e)
  | _ => none

/-- The magnitude of a number without what stands behind the point. -/
def wholePart (m : Nat) (e : Int) : Nat :=
  if 0 ≤ e then m * twoTo e.toNat else m / twoTo (-e).toNat

def truncated : Binary → Binary
  | .finite s m e => .finite s (wholePart m e) 0
  | x => x

/-- Whether nothing stands behind the point. -/
def isWhole (x : Binary) : Bool := x.isFinite && x.same x.truncated

/-- The order of numbers; a NaN compares with nothing. -/
def atMost : Binary → Binary → Bool
  | .nan, _ | _, .nan => false
  | .infinite s, .infinite t => s || !t
  | .infinite s, .finite .. => s
  | .finite .., .infinite t => !t
  | .finite s m e, .finite t n f =>
    let low := min e f
    signed s (m * twoTo (e - low).toNat) ≤ signed t (n * twoTo (f - low).toNat)

def less (x y : Binary) : Bool := x.atMost y && !y.atMost x

/-- The nearest 64-bit integer towards zero; what is beyond the range becomes its nearest end. -/
def saturated : Binary → Int64
  | .nan => 0
  | .infinite s => if s then .minValue else .maxValue
  | .finite s m e =>
    .ofInt (max Int64.minValue.toInt (min Int64.maxValue.toInt (signed s (wholePart m e))))

section Signs
variable {s t : Bool} {m n : Nat}

theorem signed_mul (s : Bool) (m n : Nat) : signed s (m * n) = signed s m * n := by
  cases s <;> simp [signed]

theorem signed_eq_signed_iff : signed s m = signed t n ↔ m = n ∧ (s = t ∨ m = 0) := by
  cases s <;> cases t <;> simp [signed] <;> omega

/-- A signed mantissa is a multiple exactly where the mantissa is. -/
theorem signed_eq_mul_iff {unit : Nat} (positive : 0 < unit) {n : Int} :
    signed s m = n * unit ↔ m % unit = 0 ∧ signed s (m / unit) = n := by
  constructor
  · intro multiple
    have divides : unit ∣ m := by
      have signedDivides : (unit : Int) ∣ signed s m := ⟨n, by rw [multiple, mul_comm]⟩
      cases s with
      | false => exact Int.natCast_dvd_natCast.mp signedDivides
      | true => exact Int.natCast_dvd_natCast.mp (Int.dvd_neg.mp signedDivides)
    obtain ⟨quotient, rfl⟩ := divides
    rw [Nat.mul_comm, signed_mul] at multiple
    rw [Nat.mul_mod_right, Nat.mul_div_cancel_left _ positive]
    exact ⟨rfl, Int.eq_of_mul_eq_mul_right (by omega) multiple⟩
  · rintro ⟨divides, rfl⟩
    rw [← signed_mul, Nat.div_mul_cancel (Nat.dvd_of_mod_eq_zero divides)]

end Signs

theorem twoTo_pos (n : Nat) : 0 < twoTo n := Nat.two_pow_pos n

section Values
variable {x y : Binary} {p q : ℚ} {n : Int}

theorem two_zpow_eq {low e : Int} (le : low ≤ e) :
    (2 : ℚ) ^ e = (twoTo (e - low).toNat : Nat) * 2 ^ low := by
  have split : e = (e - low).toNat + low := by omega
  conv_lhs => rw [split, zpow_add₀ two_ne_zero, zpow_natCast]
  norm_num [twoTo]

/-- A value is not changed by moving part of its power of two into the mantissa. -/
theorem value_aligned {low e : Int} (le : low ≤ e) (s : Bool) (m : Nat) :
    (signed s m * 2 ^ e : ℚ) = signed s (m * twoTo (e - low).toNat) * 2 ^ low := by
  rw [signed_mul, two_zpow_eq le, Int.cast_mul, Int.cast_natCast, mul_assoc]

theorem exists_finite (held : x.value? = some p) :
    ∃ s m e, x = .finite s m e ∧ p = signed s m * 2 ^ e := by
  cases x with
  | finite s m e => exact ⟨s, m, e, rfl, (Option.some.inj held).symm⟩
  | nan | infinite => cases held

/-- The integer found in a number is its value. -/
theorem toInt?_eq_some_iff : x.toInt? = some n ↔ x.value? = some (n : ℚ) := by
  cases x with
  | nan | infinite => simp [toInt?, value?]
  | finite s m e =>
    have sign (k : Nat) : (if s then -1 else 1) * (k : Int) = signed s k := by
      cases s <;> simp [signed]
    simp only [toInt?, value?, sign, Option.some.injEq]
    by_cases outside : 0 ≤ e
    · rw [if_pos outside, value_aligned outside, zpow_zero, mul_one, Int.sub_zero,
        Int.cast_inj, Option.some.injEq]
    · -- The unit of the exponent is a fraction of one: the integer is counted in that unit.
      have one := two_zpow_eq (show e ≤ 0 by omega)
      rw [zpow_zero, Int.zero_sub] at one
      have unit : (2 : ℚ) ^ e ≠ 0 := zpow_ne_zero e two_ne_zero
      have counted : (signed s m * 2 ^ e : ℚ) = n ↔ signed s m = n * (twoTo (-e).toNat : Nat) := by
        rw [← mul_one (n : ℚ), one, ← mul_assoc, mul_left_inj' unit]
        exact_mod_cast Iff.rfl
      rw [counted, signed_eq_mul_iff (twoTo_pos _), if_neg outside]
      simp

/-- Numerical equality is equality of the values. -/
theorem same_iff (left : x.value? = some p) (right : y.value? = some q) :
    x.same y = true ↔ p = q := by
  obtain ⟨s, m, e, rfl, rfl⟩ := exists_finite left
  obtain ⟨t, n, f, rfl, rfl⟩ := exists_finite right
  have unit : (2 : ℚ) ^ min e f ≠ 0 := zpow_ne_zero _ two_ne_zero
  have power : twoTo (e - min e f).toNat ≠ 0 := (twoTo_pos _).ne'
  rw [value_aligned (min_le_left e f), value_aligned (min_le_right e f), mul_left_inj' unit,
    Int.cast_inj, signed_eq_signed_iff]
  simp [same, power]

/-- Numbers are in the order of their values. -/
theorem atMost_iff (left : x.value? = some p) (right : y.value? = some q) :
    x.atMost y = true ↔ p ≤ q := by
  obtain ⟨s, m, e, rfl, rfl⟩ := exists_finite left
  obtain ⟨t, n, f, rfl, rfl⟩ := exists_finite right
  have unit : (0 : ℚ) < 2 ^ min e f := zpow_pos two_pos _
  rw [value_aligned (min_le_left e f), value_aligned (min_le_right e f),
    mul_le_mul_iff_left₀ unit, Int.cast_le]
  simp [atMost]

theorem less_iff (left : x.value? = some p) (right : y.value? = some q) :
    x.less y = true ↔ p < q := by
  rw [less, Bool.and_eq_true, Bool.not_eq_true', ← Bool.not_eq_true, atMost_iff left right,
    atMost_iff right left, lt_iff_le_not_ge]

theorem atMost_eq_decide {k : Int} (left : x.toInt? = some k) (right : y.toInt? = some n) :
    x.atMost y = decide (k ≤ n) := by
  rw [Bool.eq_iff_iff, decide_eq_true_eq, ← Int.cast_le (R := ℚ)]
  exact atMost_iff (toInt?_eq_some_iff.mp left) (toInt?_eq_some_iff.mp right)

theorem less_eq_decide {k : Int} (left : x.toInt? = some k) (right : y.toInt? = some n) :
    x.less y = decide (k < n) := by
  rw [Bool.eq_iff_iff, decide_eq_true_eq, ← Int.cast_lt (R := ℚ)]
  exact less_iff (toInt?_eq_some_iff.mp left) (toInt?_eq_some_iff.mp right)

/-- A number that is an integer is cut at nothing. -/
theorem signed_wholePart {s : Bool} {m : Nat} {e : Int} (whole : toInt? (.finite s m e) = some n) :
    signed s (wholePart m e) = n := by
  cases s <;> grind [toInt?, wholePart, signed]

/-- Nothing stands behind the point of the integers only. -/
theorem isWhole_eq (x : Binary) : x.isWhole = x.toInt?.isSome := by
  cases x with
  | nan | infinite => rfl
  | finite s m e =>
    have cut : value? (truncated (.finite s m e)) = some (signed s (wholePart m e) : ℚ) := by
      simp [truncated, value?]
    have equal : isWhole (.finite s m e) = true ↔
        (signed s m * 2 ^ e : ℚ) = signed s (wholePart m e) := by
      rw [← same_iff (x := .finite s m e) rfl cut]
      simp [isWhole, isFinite]
    rw [Bool.eq_iff_iff, equal, Option.isSome_iff_exists]
    constructor
    · intro whole
      exact ⟨_, toInt?_eq_some_iff.mpr (congrArg some whole)⟩
    · rintro ⟨n, whole⟩
      rw [signed_wholePart whole]
      exact Option.some.inj (toInt?_eq_some_iff.mp whole)

/-- An integer is cast to itself as far as the range goes, then to the end of the range. -/
theorem saturated_toInt (whole : x.toInt? = some n) :
    x.saturated.toInt = max (-2 ^ 63) (min (2 ^ 63 - 1) n) := by
  obtain ⟨s, m, e, rfl, -⟩ := exists_finite (toInt?_eq_some_iff.mp whole)
  have least : Int64.minValue.toInt = -2 ^ 63 := rfl
  have most : Int64.maxValue.toInt = 2 ^ 63 - 1 := rfl
  rw [saturated, signed_wholePart whole, least, most]
  exact Int64.toInt_ofInt_of_le (by omega) (by omega)

end Values

end Linkage.Binary
