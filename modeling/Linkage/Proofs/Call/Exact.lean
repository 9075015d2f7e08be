import Mathlib.Data.Int.ConditionallyCompleteOrder
import Linkage.Proofs.Call.Agreement
import Linkage.Proofs.Number.Value

/-!
Integers are passed exactly or refused. A number is taken for an integer type where its value is an
integer in the two's complement range of that type, and what is passed is that integer. The shape
of a number names the integer types that take it. The ranges may as well be drawn by comparing with
bounds that are numbers themselves, although the upper bound of `long` is none and rounds up, and
by casts that end at the bounds.
-/
namespace Linkage

/-- How many bits of two's complement an integer type has. -/
def Primitive.bits? : Primitive → Option Nat
  | .byte => some 8
  | .short => some 16
  | .int => some 32
  | .long => some 64
  | _ => none

/-- The integer in a host value of an integer type, with that type. -/
def HostValue.integer? : HostValue → Option (Primitive × Int)
  | .byte n => some (.byte, n.toInt)
  | .short n => some (.short, n.toInt)
  | .int n => some (.int, n.toInt)
  | .long n => some (.long, n.toInt)
  | _ => none

/-- The integers of a width. -/
def twosComplement (bits : Nat) : Set Int := Set.Ico (-2 ^ (bits - 1)) (2 ^ (bits - 1))

theorem fitsBits_iff_mem {bits : Nat} {n : Int} :
    fitsBits bits n = true ↔ n ∈ twosComplement bits := by
  rw [fitsBits_iff, twosComplement, Set.mem_Ico]
  push_cast
  rfl

namespace Binary

def leastInt : Binary := ofInt .double Int32.minValue.toInt

def greatestInt : Binary := ofInt .double Int32.maxValue.toInt

def leastLong : Binary := ofInt .double Int64.minValue.toInt

/-- The greatest `long` is no number of the format: it rounds to the first integer beyond. -/
def greatestLong : Binary := ofInt .double Int64.maxValue.toInt

/-- The shape by comparison with the bounds of `int` and `long`. -/
def comparedShape (x : Binary) : Shape :=
  if x.isWhole then
    if leastInt.atMost x && x.atMost greatestInt then .int
    else if leastLong.atMost x && x.less greatestLong then .long
    else .double
  else .double

theorem leastInt_toInt? : leastInt.toInt? = some (-2 ^ 31) := by decide

theorem greatestInt_toInt? : greatestInt.toInt? = some (2 ^ 31 - 1) := by decide

theorem leastLong_toInt? : leastLong.toInt? = some (-2 ^ 63) := by decide

theorem greatestLong_toInt? : greatestLong.toInt? = some (2 ^ 63) := by decide

section Bounds
variable {x : Binary} {n : Int}

theorem between_int_bounds (whole : x.toInt? = some n) :
    (leastInt.atMost x && x.atMost greatestInt) = fitsBits 32 n := by
  rw [atMost_eq_decide leastInt_toInt? whole, atMost_eq_decide whole greatestInt_toInt?,
    Bool.eq_iff_iff, Bool.and_eq_true, decide_eq_true_eq, decide_eq_true_eq, fitsBits_iff]
  omega

theorem between_long_bounds (whole : x.toInt? = some n) :
    (leastLong.atMost x && x.less greatestLong) = fitsBits 64 n := by
  rw [atMost_eq_decide leastLong_toInt? whole, less_eq_decide whole greatestLong_toInt?,
    Bool.eq_iff_iff, Bool.and_eq_true, decide_eq_true_eq, decide_eq_true_eq, fitsBits_iff]
  omega

theorem outside_long_bounds (whole : x.toInt? = some n) :
    (x.less leastLong || greatestLong.atMost x) = !fitsBits 64 n := by
  rw [less_eq_decide whole leastLong_toInt?, atMost_eq_decide greatestLong_toInt? whole,
    Bool.eq_iff_iff, Bool.or_eq_true, decide_eq_true_eq, decide_eq_true_eq, Bool.not_eq_true',
    ← Bool.not_eq_true, fitsBits_iff]
  omega

theorem saturated_eq (whole : x.toInt? = some n) (fits : fitsBits 64 n = true) :
    x.saturated = .ofInt n := by
  rw [fitsBits_iff] at fits
  rw [← Int64.ofInt_toInt x.saturated, saturated_toInt whole]
  congr 1
  omega

theorem comparedShape_eq (x : Binary) : x.comparedShape = x.shape := by
  rw [comparedShape, shape, isWhole_eq]
  cases whole : x.toInt? with
  | none => rfl
  | some n =>
    simp only [Option.isSome_some, if_true, between_int_bounds whole, between_long_bounds whole]

theorem shape_eq_int_iff : x.shape = .int ↔ ∃ n, x.toInt? = some n ∧ fitsBits 32 n = true := by
  cases whole : x.toInt? with
  | none => simp [shape, whole]
  | some n => grind [shape]

theorem shape_integral_iff :
    x.shape = .int ∨ x.shape = .long ↔ ∃ n, x.toInt? = some n ∧ fitsBits 64 n = true := by
  cases whole : x.toInt? with
  | none => simp [shape, whole]
  | some k =>
    have widens : fitsBits 32 k = true → fitsBits 64 k = true := fitsBits_mono (by decide)
    grind [shape]

end Bounds

end Binary

namespace Call

/-- A number as an integer of a type, the range drawn by comparisons for `long` and by a cast to 64
bits that ends at the bounds for the narrower types. -/
def castNumber (x : Binary) (target : Primitive) (path : String) : Except AdaptFault HostValue :=
  let outOfRange : AdaptFault := .outOfRange path (x.text .double) target.name
  if !x.isFinite then .error outOfRange
  else if !x.isWhole then .error (.narrowing path "double" target.name)
  else match target with
    | .long =>
      if x.less .leastLong || Binary.greatestLong.atMost x then .error outOfRange
      else .ok (.long x.saturated)
    | _ =>
      match integral? target x.saturated.toInt with
      | some value => .ok value
      | none => .error outOfRange

/-- An answer for a value is exact or a refusal: an integer in the range of the type is answered by
that integer, and there is no other answer. -/
structure ExactOrRefused (target : Primitive) (bits : Nat) (value : Option ℚ)
    (answer : Except AdaptFault HostValue) : Prop where
  taken : ∀ n : Int, value = some (n : ℚ) → n ∈ twosComplement bits →
    ∃ y, answer = .ok y ∧ y.integer? = some (target, n)
  answered : ∀ y, answer = .ok y →
    ∃ n : Int, value = some (n : ℚ) ∧ n ∈ twosComplement bits ∧ y.integer? = some (target, n)

section Integers
variable {target : Primitive} {bits : Nat} {x : Binary} {y : HostValue} {n : Int} {path : String}

/-- No bit of an integer in range is lost in its host value. -/
theorem integer?_of_integral? (held : integral? target n = some y) :
    y.integer? = some (target, n) := by
  cases target <;> simp only [integral?, Option.ite_none_right_eq_some, reduceCtorEq] at held
  all_goals
    obtain ⟨fits, made⟩ := held
    obtain rfl := Option.some.inj made
    rw [fitsBits_iff] at fits
    simp only [HostValue.integer?, Option.some.injEq, Prod.mk.injEq, true_and]
  · exact Int8.toInt_ofInt_of_le (by omega) (by omega)
  · exact Int16.toInt_ofInt_of_le (by omega) (by omega)
  · exact Int32.toInt_ofInt_of_le (by omega) (by omega)
  · exact Int64.toInt_ofInt_of_le (by omega) (by omega)

theorem integral?_isSome (width : target.bits? = some bits) (n : Int) :
    (integral? target n).isSome = fitsBits bits n := by
  cases target <;> cases width <;> grind [integral?]

theorem convertNumber_of_toInt? (width : target.bits? = some bits) (whole : x.toInt? = some n) :
    convertNumber x target path = match integral? target n with
      | some value => .ok value
      | none => .error (.outOfRange path (x.text .double) target.name) := by
  have finite := Binary.isFinite_of_toInt? whole
  cases target <;> cases width <;> simp only [convertNumber, finite, whole] <;> rfl

/-- What is no integer is refused by every integer type. -/
theorem convertNumber_of_not_integer (width : target.bits? = some bits)
    (broken : x.toInt? = none) : convertNumber x target path =
      .error (if x.isFinite then .narrowing path "double" target.name
        else .outOfRange path (x.text .double) target.name) := by
  cases finite : x.isFinite <;> cases target <;> cases width <;>
    simp [convertNumber, finite, broken]

theorem convertNumber_eq_ok_iff (width : target.bits? = some bits) :
    convertNumber x target path = .ok y ↔
      ∃ n, x.toInt? = some n ∧ integral? target n = some y := by
  cases whole : x.toInt? with
  | none => simp [convertNumber_of_not_integer width whole]
  | some n =>
    rw [convertNumber_of_toInt? width whole]
    cases made : integral? target n <;> simp [made]

theorem convertLong_eq_ok_iff (width : target.bits? = some bits) (n : Int64) :
    convertLong n target path = .ok y ↔ integral? target n.toInt = some y := by
  cases target <;> cases width <;> simp only [convertLong] <;> grind

/-- A cast that ends at the bounds of 64 bits decides every narrower range. -/
theorem integral?_saturated (width : target.bits? = some bits) (narrow : bits < 64)
    (whole : x.toInt? = some n) : integral? target x.saturated.toInt = integral? target n := by
  by_cases wide : fitsBits 64 n = true
  · have range := fitsBits_iff.mp wide
    rw [Binary.saturated_eq whole wide, Int64.toInt_ofInt_of_le (by omega) (by omega)]
  · have unfit {k : Int} (no : ¬ fitsBits bits k = true) : integral? target k = none := by
      rwa [← integral?_isSome width, Option.not_isSome_iff_eq_none] at no
    rw [Binary.saturated_toInt whole, unfit fun fits => wide (fitsBits_mono narrow.le fits), unfit]
    -- The bounds of 64 bits fit into no narrower width.
    intro fits
    have inner := fitsBits_mono (show bits ≤ 63 by omega) fits
    rw [fitsBits_iff] at inner wide
    omega

theorem castNumber_eq (width : target.bits? = some bits) (x : Binary) (path : String) :
    castNumber x target path = convertNumber x target path := by
  have whole := x.isWhole_eq
  cases integer : x.toInt? with
  | none =>
    rw [integer] at whole
    rw [convertNumber_of_not_integer width integer]
    cases finite : x.isFinite <;> simp [castNumber, finite, whole]
  | some n =>
    rw [integer] at whole
    rw [convertNumber_of_toInt? width integer]
    have finite := Binary.isFinite_of_toInt? integer
    by_cases widest : target = .long
    · subst widest
      have outside := Binary.outside_long_bounds integer
      have cast := Binary.saturated_eq integer
      by_cases fits : fitsBits 64 n = true
      · simp [castNumber, integral?, finite, whole, outside, fits, cast]
      · simp [castNumber, integral?, finite, whole, outside, fits]
    · have narrow : bits < 64 := by
        cases target <;> cases width <;> simp at widest ⊢
      have narrower := integral?_saturated width narrow integer
      cases made : integral? target n <;> simp [castNumber, finite, whole, narrower, made]

/-- An answer that is the host value of the integer is exact. -/
theorem ExactOrRefused.of_integral? {value : Option ℚ} {answer : Except AdaptFault HostValue}
    (width : target.bits? = some bits)
    (answers : ∀ y, answer = .ok y ↔
      ∃ n : Int, value = some (n : ℚ) ∧ integral? target n = some y) :
    ExactOrRefused target bits value answer where
  taken n held range := by
    rw [← fitsBits_iff_mem, ← integral?_isSome width, Option.isSome_iff_exists] at range
    obtain ⟨y, made⟩ := range
    exact ⟨y, (answers y).mpr ⟨n, held, made⟩, integer?_of_integral? made⟩
  answered y gives := by
    obtain ⟨n, held, made⟩ := (answers y).mp gives
    refine ⟨n, held, ?_, integer?_of_integral? made⟩
    rw [← fitsBits_iff_mem, ← integral?_isSome width, made]
    rfl

theorem exists_convertNumber_iff (width : target.bits? = some bits) :
    (∃ y, convertNumber x target path = .ok y) ↔
      ∃ n, x.toInt? = some n ∧ fitsBits bits n = true := by
  simp only [convertNumber_eq_ok_iff width, ← integral?_isSome width, Option.isSome_iff_exists]
  constructor
  · rintro ⟨y, n, whole, made⟩
    exact ⟨n, whole, y, made⟩
  · rintro ⟨n, whole, y, made⟩
    exact ⟨y, n, whole, made⟩

end Integers

/-- Integers are converted exactly or refused, and the shape of a number tells which of `int` and
`long` take it. -/
theorem integers_exact_or_refused (path : String) :
    (∀ (target : Primitive) (bits : Nat), target.bits? = some bits →
      (∀ x : Binary, ExactOrRefused target bits x.value? (convertNumber x target path) ∧
        castNumber x target path = convertNumber x target path) ∧
      ∀ n : Int64, ExactOrRefused target bits (some n.toInt) (convertLong n target path)) ∧
    ∀ x : Binary, x.comparedShape = x.shape ∧
      (x.shape = .int ↔ ∃ y, convertNumber x .int path = .ok y) ∧
      (x.shape = .int ∨ x.shape = .long ↔ ∃ y, convertNumber x .long path = .ok y) := by
  refine ⟨fun target bits width => ⟨fun x => ⟨?_, castNumber_eq width x path⟩, fun n => ?_⟩,
    fun x => ⟨x.comparedShape_eq, ?_, ?_⟩⟩
  · refine .of_integral? width fun y => ?_
    simp only [convertNumber_eq_ok_iff width, Binary.toInt?_eq_some_iff]
  · refine .of_integral? width fun y => ?_
    rw [convertLong_eq_ok_iff width]
    constructor
    · intro made
      exact ⟨n.toInt, rfl, made⟩
    · rintro ⟨k, held, made⟩
      rwa [Int.cast_injective (Option.some.inj held)]
  · rw [Binary.shape_eq_int_iff, exists_convertNumber_iff rfl]
  · rw [Binary.shape_integral_iff, exists_convertNumber_iff rfl]

/-- The least `long` is passed as it is; the integer next to the greatest is refused. -/
theorem integers_exact_at_long_bounds :
    Primitive.long.bits? = some 64 ∧
      (∃ y, convertNumber (.finite true 1 63) .long "argument 0" = .ok y ∧
        y.integer? = some (.long, -2 ^ 63)) ∧
      ∀ y, convertNumber (.finite false 1 63) .long "argument 0" ≠ .ok y := by
  have exact := ((integers_exact_or_refused "argument 0").1 .long 64 rfl).1
  have least : Binary.value? (.finite true 1 63) = some ((-2 ^ 63 : Int) : ℚ) := by decide +kernel
  have beyond : Binary.value? (.finite false 1 63) = some ((2 ^ 63 : Int) : ℚ) := by
    decide +kernel
  refine ⟨rfl, (exact _).1.taken _ least (by norm_num [twosComplement]), ?_⟩
  intro y taken
  obtain ⟨n, value, range, -⟩ := (exact _).1.answered y taken
  rw [beyond, Option.some.injEq, Int.cast_inj] at value
  subst value
  norm_num [twosComplement] at range

end Call

end Linkage
