import Linkage.Proofs.Call.Faults
import Linkage.Proofs.Call.Reaching
import Linkage.Proofs.Call.Resolved

/-!
Classification and adaptation agree. Where the shape of a value reaches a type, adapting the value
to that type fails for two reasons only: a string names no constant of an enum, or a part of the
value does not fit. The arguments of a resolved call therefore fail in no other way.
-/
namespace Linkage

theorem fitsBits_iff {bits : Nat} {n : Int} : fitsBits bits n = true ↔
    -((2 ^ (bits - 1) : Nat) : Int) ≤ n ∧ n < (2 ^ (bits - 1) : Nat) := by
  simp only [fitsBits, Bool.and_eq_true, decide_eq_true_eq]
  rfl

theorem fitsBits_mono {low high : Nat} (le : low ≤ high) {n : Int} (fits : fitsBits low n = true) :
    fitsBits high n = true := by
  have power : 2 ^ (low - 1) ≤ 2 ^ (high - 1) := Nat.pow_le_pow_right (by omega) (by omega)
  rw [fitsBits_iff] at fits ⊢
  omega

theorem fitsBits_toInt (n : Int64) : fitsBits 64 n.toInt = true := by
  have least := n.le_toInt
  have most := n.toInt_lt
  rw [fitsBits_iff]
  omega

namespace Binary
variable {x : Binary} {n : Int}

theorem isFinite_of_toInt? (whole : x.toInt? = some n) : x.isFinite = true := by
  cases x with
  | finite => rfl
  | nan | infinite => cases whole

/-- A number that is an integer has the magnitude of that integer. -/
theorem magnitudeAbove_of_toInt? (whole : x.toInt? = some n) (limit : Nat) :
    x.magnitudeAbove limit = decide (limit < n.natAbs) := by
  cases x with
  | nan | infinite => cases whole
  | finite negative mantissa exponent =>
    have unsigned : ∀ k : Nat, ((if negative then -1 else 1) * (k : Int)).natAbs = k := by
      intro k
      cases negative <;> simp
    simp only [toInt?] at whole
    simp only [magnitudeAbove]
    split at whole
    · rename_i positive
      obtain rfl := Option.some.inj whole
      rw [if_pos positive, unsigned]
    · rename_i negated
      rw [if_neg negated]
      split at whole
      · rename_i divides
        obtain rfl := Option.some.inj whole
        rw [unsigned]
        have quotient := Nat.div_add_mod mantissa (twoTo (-exponent).toNat)
        rw [divides, Nat.add_zero, Nat.mul_comm] at quotient
        have positive : 0 < twoTo (-exponent).toNat := Nat.two_pow_pos _
        congr 1
        conv_lhs => rw [← quotient]
        rw [Nat.mul_lt_mul_right positive]
      · cases whole

/-- The three shapes of a number. -/
theorem shape_cases (x : Binary) :
    (∃ n, x.toInt? = some n ∧ fitsBits 32 n = true ∧ x.shape = .int) ∨
      (∃ n, x.toInt? = some n ∧ fitsBits 64 n = true ∧ x.shape = .long) ∨ x.shape = .double := by
  simp only [shape]
  cases whole : x.toInt? with
  | none => simp
  | some n =>
    by_cases narrow : fitsBits 32 n = true
    · simp [narrow]
    · by_cases wide : fitsBits 64 n = true
      · simp [narrow, wide]
      · simp [narrow, wide]

theorem shape_starts (x : Binary) :
    ∃ source, x.shape.primitive? = some source ∧ ∀ actual, x.shape ≠ .object actual := by
  rcases x.shape_cases with ⟨n, _, _, shape⟩ | ⟨n, _, _, shape⟩ | shape <;>
    simp [shape, Shape.primitive?]

end Binary

/-- A value without parts. -/
def Value.Simple : Value → Prop
  | .list _ | .set _ | .map _ => False
  | _ => True

namespace Call

open Outcome

/-- The primitives that one primitive can stand for. -/
def wider : Primitive → List Primitive
  | .boolean => [.boolean]
  | .byte => [.byte, .short, .int, .long, .float, .double]
  | .short => [.short, .int, .long, .float, .double]
  | .char => [.char, .int, .long, .float, .double]
  | .int => [.int, .long, .float, .double]
  | .long => [.long, .float, .double]
  | .float => [.float, .double]
  | .double => [.double]

theorem widens_iff_mem {source target : Primitive} :
    Widens source target ↔ target ∈ wider source := by
  cases source <;> cases target <;>
    simp [Widens, wider, wideningDistance, Primitive.rank?, Primitive.isFloating,
      Primitive.isIntegral]

section Scalars
variable {target source : Primitive} {path : String}

theorem integral?_ok {n : Int} {bits : Nat} (fits : fitsBits bits n = true)
    (wide : target = .int ∧ bits ≤ 32 ∨ target = .long ∧ bits ≤ 64) :
    ∃ y, integral? target n = some y := by
  rcases wide with ⟨rfl, le⟩ | ⟨rfl, le⟩
  · exact ⟨_, if_pos (fitsBits_mono le fits)⟩
  · exact ⟨_, if_pos (fitsBits_mono le fits)⟩

/-- An integer of 64 bits is in the range of `float`. -/
theorem not_magnitudeAbove_of_fitsBits {x : Binary} {n : Int} (whole : x.toInt? = some n)
    (fits : fitsBits 64 n = true) : x.magnitudeAbove (Binary.greatest .single) = false := by
  have greatest : 2 ^ 63 ≤ Binary.greatest .single := by decide
  rw [fitsBits_iff] at fits
  rw [Binary.magnitudeAbove_of_toInt? whole, decide_eq_false_iff_not]
  omega

theorem convertNumber_whole_ok {x : Binary} {n : Int} {bits : Nat} (whole : x.toInt? = some n)
    (fits : fitsBits bits n = true) (bound : bits ≤ 64)
    (wide : target = .int ∧ bits ≤ 32 ∨ target ∈ wider .long) :
    ∃ y, convertNumber x target path = .ok y := by
  have finite := Binary.isFinite_of_toInt? whole
  have small := not_magnitudeAbove_of_fitsBits whole (fitsBits_mono bound fits)
  have integral : target = .int ∧ bits ≤ 32 ∨ target = .long ∧ bits ≤ 64 →
      ∃ y, convertNumber x target path = .ok y := by
    intro whole_target
    obtain ⟨y, held⟩ := integral?_ok fits whole_target
    refine ⟨y, ?_⟩
    rcases whole_target with ⟨rfl, _⟩ | ⟨rfl, _⟩ <;> simp [convertNumber, finite, whole, held]
  simp only [wider, List.mem_cons, List.not_mem_nil, or_false] at wide
  rcases wide with narrow | rfl | rfl | rfl
  · exact integral (Or.inl narrow)
  · exact integral (Or.inr ⟨rfl, bound⟩)
  · simp [convertNumber, finite, small]
  · exact ⟨_, rfl⟩

theorem convertNumber_ok {x : Binary} (starts : x.shape.primitive? = some source)
    (widens : Widens source target) : ∃ y, convertNumber x target path = .ok y := by
  rw [widens_iff_mem] at widens
  rcases x.shape_cases with ⟨n, whole, narrow, shape⟩ | ⟨n, whole, wide, shape⟩ | shape
  · rw [shape] at starts
    obtain rfl := Option.some.inj starts
    have wide : target = .int ∧ 32 ≤ 32 ∨ target ∈ wider .long := by
      simpa [wider] using widens
    exact convertNumber_whole_ok whole narrow (by omega) wide
  · rw [shape] at starts
    obtain rfl := Option.some.inj starts
    exact convertNumber_whole_ok whole wide (by omega) (Or.inr widens)
  · rw [shape] at starts
    obtain rfl := Option.some.inj starts
    obtain rfl := List.mem_singleton.mp widens
    exact ⟨_, rfl⟩

theorem convertLong_ok (n : Int64) (widens : Widens .long target) :
    ∃ y, convertLong n target path = .ok y := by
  rw [widens_iff_mem] at widens
  simp only [wider, List.mem_cons, List.not_mem_nil, or_false] at widens
  rcases widens with rfl | rfl | rfl
  · obtain ⟨y, held⟩ := integral?_ok (fitsBits_toInt n) (Or.inr ⟨rfl, le_rfl⟩)
    exact ⟨y, by simp [convertLong, held]⟩
  · exact ⟨_, rfl⟩
  · exact ⟨_, rfl⟩

theorem convertChar_ok (c : Char) (widens : Widens .char target) :
    ∃ y, convertChar c target path = .ok y := by
  rw [widens_iff_mem] at widens
  simp only [wider, List.mem_cons, List.not_mem_nil, or_false] at widens
  rcases widens with rfl | rfl | rfl | rfl | rfl <;> exact ⟨_, rfl⟩

theorem adaptPrimitive_ok {value : Value} (starts : value.shape.primitive? = some source)
    (widens : Widens source target) : ∃ y, adaptPrimitive value target path = .ok y := by
  cases value with
  | null | string | list | set | map => cases starts
  | bool b =>
    obtain rfl := Option.some.inj starts
    obtain rfl := List.mem_singleton.mp (widens_iff_mem.mp widens)
    exact ⟨_, rfl⟩
  | number x => exact convertNumber_ok starts widens
  | long n =>
    obtain rfl := Option.some.inj starts
    exact convertLong_ok n widens
  | char c =>
    obtain rfl := Option.some.inj starts
    exact convertChar_ok c widens
  | object className handle =>
    have boxed : Primitive.ofWrapper? className = some source := starts
    simp [adaptPrimitive, boxed]

end Scalars

/-- What a class view has to grant: a string is no wrapper object, and no wrapper is an enum. -/
structure Separate (v : ClassView) : Prop where
  string : ∀ p : Primitive, v.isSubtype stringClass p.wrapper = false
  enum : ∀ p : Primitive, v.isEnum p.wrapper = false

section Simple
variable {v : ClassView} {value : Value} {path : String} {fault : AdaptFault}

theorem adaptWrapper_ok (separate : Separate v) (simple : value.Simple)
    {target : Primitive} (assignable : Assignable v target.wrapper value.shape) :
    ∃ y, adaptWrapper value target path = .ok y := by
  have boxed {source : Primitive} (starts : value.shape.primitive? = some source)
      (plain : ∀ actual, value.shape ≠ .object actual) :
      ∃ y, (adaptPrimitive value target path).map HostValue.boxed = .ok y := by
    rcases (assignable_boxed_iff starts plain).mp assignable with ⟨p, same, widens⟩ | ⟨others, _⟩
    · obtain rfl := Primitive.wrapper_inj.mp same
      obtain ⟨y, adapted⟩ := @adaptPrimitive_ok target source path value starts widens
      exact ⟨_, map_eq_ok_iff.mpr ⟨y, adapted, rfl⟩⟩
    · exact absurd rfl (others target)
  cases value with
  | null | object => exact ⟨_, rfl⟩
  | list | set | map => exact simple.elim
  | string s =>
    rcases assignable with subtype | enum
    · rw [separate.string] at subtype
      cases subtype
    · rw [separate.enum] at enum
      cases enum
  | bool | long | char => exact boxed rfl (by simp [Value.shape])
  | number x =>
    obtain ⟨source, starts, plain⟩ := x.shape_starts
    exact boxed starts plain

theorem adaptReference_deferred (simple : value.Simple) {name : String}
    (failed : adaptReference v value name path = .error fault) : fault.Deferred path := by
  cases value with
  | null | bool | number | long | char | object => cases failed
  | list | set | map => exact simple.elim
  | string s =>
    simp only [adaptReference] at failed
    split at failed
    · simp only [adaptEnum] at failed
      split at failed
      · cases failed
      · obtain rfl := Except.error.inj failed
        exact Or.inl ⟨_, _, _, rfl⟩
    · cases failed

/-- A value without parts fails to be adapted to what it reaches as a string alone, where it names
no constant of an enum. -/
theorem adaptSimple_deferred (separate : Separate v) {t : Ty} (core : Core t)
    (reaches : Reaches v value.shape t) (failed : adaptSimple v value t path = .error fault)
    (simple : value.Simple) : fault.Deferred path := by
  match t with
  | .primitive p =>
    obtain ⟨source, starts, widens⟩ := reaches_primitive_iff.mp reaches
    obtain ⟨y, adapted⟩ := @adaptPrimitive_ok p source path value starts widens
    cases failed.symm.trans adapted
  | .reference name args =>
    rw [reaches_reference_iff core] at reaches
    simp only [adaptSimple] at failed
    split at failed
    · rename_i p boxes
      obtain rfl := Primitive.ofWrapper?_eq_some_iff.mp boxes
      obtain ⟨y, adapted⟩ := @adaptWrapper_ok v value path separate simple p reaches
      cases failed.symm.trans adapted
    · exact adaptReference_deferred simple failed
  | .array element dimensions =>
    rw [reaches_array_iff] at reaches
    cases value with
    | null => cases failed
    | list | set | map => exact simple.elim
    | bool | long | char | string | object => simp [Value.shape] at reaches
    | number x =>
      obtain ⟨source, starts, _⟩ := x.shape_starts
      rcases reaches with shape | shape | shape <;>
        simp only [Value.shape] at shape <;> rw [shape] at starts <;> cases starts
  | .variable _ => exact core.elim
  | .void => exact absurd reaches not_reaches_void

end Simple

section Goals
variable {v : ClassView} {t : Ty}

theorem sequenceGoal_ok {shape : Shape} (core : Core t) (reaches : Reaches v shape t)
    (sequence : shape = .list ∨ shape = .set) (isSet : Bool) :
    ∃ goal, sequenceGoal isSet t = .ok goal := by
  have none_starts : shape.primitive? = none := by
    rcases sequence with rfl | rfl <;> rfl
  match t with
  | .primitive p =>
    obtain ⟨source, starts, _⟩ := reaches_primitive_iff.mp reaches
    rw [none_starts] at starts
    cases starts
  | .reference name args =>
    have member : name ∈ sequenceClasses := by
      rw [reaches_reference_iff core] at reaches
      rcases sequence with rfl | rfl <;> exact reaches
    have unboxed : ∀ other ∈ sequenceClasses, Primitive.ofWrapper? other = none := by decide
    simp [sequenceGoal, unboxed name member]
  | .array _ _ => exact ⟨_, rfl⟩
  | .variable _ => exact core.elim
  | .void => exact absurd reaches not_reaches_void

theorem mapGoal_ok (core : Core t) (reaches : Reaches v .map t) :
    ∃ goal, mapGoal t = .ok goal := by
  match t with
  | .primitive p =>
    obtain ⟨source, starts, _⟩ := reaches_primitive_iff.mp reaches
    cases starts
  | .reference name args =>
    have member : name = mapClass ∨ name = objectClass := (reaches_reference_iff core).mp reaches
    have unboxed : Primitive.ofWrapper? name = none := by
      rcases member with rfl | rfl <;> decide
    simp [mapGoal, unboxed, member]
  | .array _ _ => simp [reaches_array_iff] at reaches
  | .variable _ => exact core.elim
  | .void => exact absurd reaches not_reaches_void

end Goals

section Values
variable {v : ClassView} {value : Value} {t : Ty} {path : String} {fault : AdaptFault}

theorem Reaches.core_of_plain (reaches : Reaches v value.shape t) (given : value ≠ .null)
    (plain : ∀ className handle, value ≠ .object className handle) :
    Reaches v value.shape (layers t).2 := by
  apply reaches.core
  right
  cases value with
  | null => exact absurd rfl given
  | object className handle => exact absurd rfl (plain className handle)
  | bool | long | char | string | list | set | map => simp [Value.shape]
  | number x =>
    obtain ⟨source, starts, plain⟩ := x.shape_starts
    refine ⟨fun null => ?_, plain optionalClass⟩
    rw [show x.shape = .null from null] at starts
    cases starts

/-- An object other than an optional has to reach what is inside the optionals. -/
theorem Reaches.core_of_object {className : String} (reaches : Reaches v (.object className) t)
    (other : ¬ (0 < (layers t).1 ∧ className = optionalClass)) :
    Reaches v (.object className) (layers t).2 := by
  apply reaches.core
  by_cases unwrapped : (layers t).1 = 0
  · exact Or.inl unwrapped
  · refine Or.inr ⟨by simp, fun same => ?_⟩
    exact other ⟨by omega, Shape.object.inj same⟩

/-- Where the shape of a value reaches a type, only constants of enums and parts of the value are
left to fail. -/
theorem Reaches.adapt_deferred (separate : Separate v) (reaches : Reaches v value.shape t)
    (failed : adapt v value t path = .error fault) : fault.Deferred path := by
  have core := layers_core t
  match value with
  | .list items =>
    obtain ⟨goal, known⟩ :=
      sequenceGoal_ok core (reaches.core_of_plain (by simp) (by simp)) (Or.inl rfl) false
    simp only [adapt, known, map_eq_error_iff] at failed
    exact Or.inr (adaptItems_error_path failed)
  | .set items =>
    obtain ⟨goal, known⟩ :=
      sequenceGoal_ok core (reaches.core_of_plain (by simp) (by simp)) (Or.inr rfl) true
    simp only [adapt, known, map_eq_error_iff] at failed
    exact Or.inr (adaptItems_error_path failed)
  | .map entries =>
    obtain ⟨goal, known⟩ := mapGoal_ok core (reaches.core_of_plain (by simp) (by simp))
    simp only [adapt, known, map_eq_error_iff] at failed
    exact Or.inr (adaptEntries_error_path failed)
  | .null =>
    simp only [adapt] at failed
    split at failed
    · cases failed
    · rename_i unwrapped
      have inner := reaches.core (Or.inl (by omega))
      exact adaptSimple_deferred separate core inner failed trivial
  | .object className handle =>
    simp only [adapt] at failed
    split at failed
    · cases failed
    · rename_i other
      have inner : Reaches v (Value.object className handle).shape (layers t).2 :=
        reaches.core_of_object other
      exact adaptSimple_deferred separate core inner (map_eq_error_iff.mp failed) trivial
  | .bool _ | .number _ | .long _ | .char _ | .string _ =>
    simp only [adapt, map_eq_error_iff] at failed
    have inner := reaches.core_of_plain (by simp) (by simp)
    exact adaptSimple_deferred separate core inner failed trivial

end Values

section Arguments
variable {v : ClassView} {fault : AdaptFault}

theorem adaptEach_error {values : List Value} {types : List Ty} {first : Nat}
    (failed : adaptEach v values types first = .error fault) :
    ∃ i value t, values[i]? = some value ∧ types[i]? = some t ∧
      adapt v value t (argumentPath (first + i)) = .error fault := by
  induction values generalizing types first with
  | nil => cases failed
  | cons value values ih =>
    cases types with
    | nil => cases failed
    | cons t types =>
      simp only [adaptEach, bind_eq_error_iff] at failed
      rcases failed with failed | ⟨_, _, failed | ⟨_, _, failed⟩⟩
      · exact ⟨0, value, t, rfl, rfl, failed⟩
      · obtain ⟨i, value, t, argument, expected, failed⟩ := ih failed
        refine ⟨i + 1, value, t, argument, expected, ?_⟩
        rwa [show first + (i + 1) = first + 1 + i by omega]
      · cases failed

theorem adaptEach_length {values : List Value} {types : List Ty} {first : Nat}
    {xs : List HostValue} (adapted : adaptEach v values types first = .ok xs) :
    xs.length = min values.length types.length := by
  induction values generalizing types first xs with
  | nil =>
    cases adapted
    simp
  | cons value values ih =>
    cases types with
    | nil =>
      cases adapted
      simp
    | cons t types =>
      simp only [adaptEach, bind_eq_ok_iff] at adapted
      obtain ⟨x, _, rest, others, adapted⟩ := adapted
      cases adapted
      simp [ih others, Nat.add_min_add_right]

/-- A failure comes from one argument and the type that it is passed as. -/
theorem adaptArguments_error {parameters : List Ty} {spread : Bool} {arguments : List Value}
    (gathers : Gathers parameters spread arguments.length)
    (failed : adaptArguments v parameters spread arguments = .error fault) :
    ∃ i value t, arguments[i]? = some value ∧
      (passedTypes parameters spread arguments.length)[i]? = some t ∧
      adapt v value t (argumentPath i) = .error fault := by
  cases spread with
  | false =>
    obtain ⟨i, value, t, argument, expected, failed⟩ := adaptEach_error failed
    rw [Nat.zero_add] at failed
    exact ⟨i, value, t, argument, expected, failed⟩
  | true =>
    obtain ⟨positive, enough⟩ := gathers rfl
    simp only [adaptArguments, Bool.not_true, Bool.false_eq_true, if_false, bind_eq_error_iff,
      ← List.dropLast_eq_take] at failed
    simp only [passedTypes, if_true]
    rcases failed with failed | ⟨_, _, failed | ⟨_, _, failed⟩⟩
    · obtain ⟨i, value, t, argument, expected, failed⟩ := adaptEach_error failed
      rw [Nat.zero_add] at failed
      have inside := (List.getElem?_eq_some_iff.mp expected).1
      exact ⟨i, value, t, argument, by rw [List.getElem?_append_left inside, expected], failed⟩
    · obtain ⟨i, value, t, argument, expected, failed⟩ := adaptEach_error failed
      refine ⟨parameters.length - 1 + i, value, t, by rwa [← List.getElem?_drop], ?_, failed⟩
      rw [List.getElem?_append_right (by simp)]
      simpa using expected
    · cases failed

theorem adaptArguments_ok {parameters : List Ty} {spread : Bool} {arguments : List Value}
    {xs : List HostValue} (gathers : Gathers parameters spread arguments.length)
    (lengths : (passedTypes parameters spread arguments.length).length = arguments.length)
    (adapted : adaptArguments v parameters spread arguments = .ok xs) :
    xs.length = parameters.length ∧
      (spread = true → ∃ component items, xs.getLast? = some (.array component items)) := by
  cases spread with
  | false =>
    refine ⟨?_, nofun⟩
    rw [adaptEach_length adapted, ← lengths]
    exact Nat.min_self _
  | true =>
    obtain ⟨positive, enough⟩ := gathers rfl
    simp only [adaptArguments, Bool.not_true, Bool.false_eq_true, if_false, bind_eq_ok_iff]
      at adapted
    obtain ⟨leading, first, gathered, rest, adapted⟩ := adapted
    cases adapted
    have count := adaptEach_length first
    rw [List.length_take] at count
    refine ⟨?_, fun _ => ⟨_, _, List.getLast?_concat⟩⟩
    rw [List.length_append, List.length_singleton]
    omega

theorem Resolution.Takes.reaches {r : Resolution} {arguments : List Value}
    (takes : r.Takes v (arguments.map Value.shape)) {i : Nat} {value : Value} {t : Ty}
    (argument : arguments[i]? = some value)
    (expected : (passedTypes r.parameters r.spread arguments.length)[i]? = some t) :
    Reaches v value.shape t := by
  obtain ⟨_, passings, passes⟩ := takes
  apply passes.classify_ok
  rw [List.length_map]
  apply List.mem_of_getElem? (i := i)
  simp [List.getElem?_zip_eq_some, argument, expected]

end Arguments

/-- A value whose shape reaches a type is adapted to that type, unless it names no constant of an
enum or a part of it does not fit. The arguments of a resolved call fail in no other way, each at
its own place and by itself; adapted, they are as many as the parameters, and a call that gathers
its last arguments passes an array in the last place. -/
theorem adaptation_agrees (v : ClassView) (separate : Separate v) :
    (∀ value t path, (∃ c, classify v value.shape t = .ok c) →
      (∃ x, adapt v value t path = .ok x) ∨
        ∃ fault, adapt v value t path = .error fault ∧ fault.Deferred path) ∧
    (∀ target receiver arguments r,
      resolve v target receiver (arguments.map Value.shape) = .ok r →
      (∃ xs, adaptArguments v r.parameters r.spread arguments = .ok xs ∧
        xs.length = r.parameters.length ∧
        (r.spread = true → ∃ component items, xs.getLast? = some (.array component items))) ∨
      ∃ fault, adaptArguments v r.parameters r.spread arguments = .error fault ∧
        ∃ i value t, arguments[i]? = some value ∧
          (passedTypes r.parameters r.spread arguments.length)[i]? = some t ∧
          adapt v value t (argumentPath i) = .error fault ∧ fault.Deferred (argumentPath i)) := by
  constructor
  · intro value t path reaches
    cases outcome : adapt v value t path with
    | ok x => exact Or.inl ⟨x, rfl⟩
    | error fault => exact Or.inr ⟨fault, rfl, Reaches.adapt_deferred separate reaches outcome⟩
  · intro target receiver arguments r resolved
    have takes := resolve_takes resolved
    have gathers := takes.1
    rw [List.length_map] at gathers
    cases outcome : adaptArguments v r.parameters r.spread arguments with
    | ok xs =>
      obtain ⟨_, passings, passes⟩ := takes
      have lengths := passes.length_types
      rw [List.length_map] at lengths
      exact Or.inl ⟨xs, rfl, adaptArguments_ok gathers lengths outcome⟩
    | error fault =>
      obtain ⟨i, value, t, argument, expected, failed⟩ := adaptArguments_error gathers outcome
      have reaches := takes.reaches argument expected
      exact Or.inr ⟨fault, rfl, i, value, t, argument, expected, failed,
        reaches.adapt_deferred separate failed⟩

private def level : ClassStub :=
  ⟨"app.Level", ⟨0x4011⟩, some "java.lang.Enum", [], [], ["LOW", "HIGH"]⟩

private def logAt : Member :=
  ⟨"at", .method, ⟨0x89⟩, "(Lapp/Level;[Ljava/lang/String;)V",
    [.named "app.Level", .array (.named stringClass) 1], .void, none⟩

private def log : ClassStub := ⟨"app.Log", ⟨1⟩, some objectClass, [], [logAt], []⟩

private def logView : ClassView :=
  ⟨.shared, 21, [level, log].map fun c => (c.name, ⟨c.name, default, .base, false, c⟩), [], [], []⟩

private def logCall : Resolution :=
  bind ⟨"app.Log", "at", .staticMethod⟩ ⟨⟨log, logAt⟩,
    [⟨0, .named "app.Level", .string, .via .enumConstant 0⟩,
      ⟨1, .named stringClass, .string, .via .stringReference 0⟩,
      ⟨2, .named stringClass, .string, .via .stringReference 0⟩, gathering ⟨log, logAt⟩], true⟩

private def logArguments : List Value := [.string "MID", .string "a", .string "b"]

/-- The call is resolved by shapes, so that a level that does not exist is left to adaptation. -/
theorem adaptation_agrees_level :
    Separate logView ∧
      resolve logView ⟨"app.Log", "at", .staticMethod⟩ none (logArguments.map Value.shape) =
        .ok logCall ∧
      ∃ fault, adaptArguments logView logCall.parameters logCall.spread logArguments =
          .error fault ∧
        ∃ i value t, logArguments[i]? = some value ∧
          (passedTypes logCall.parameters logCall.spread logArguments.length)[i]? = some t ∧
          adapt logView value t (argumentPath i) = .error fault ∧
          fault.Deferred (argumentPath i) := by
  have separate : Separate logView := by
    constructor
    · intro p
      cases p <;> decide +kernel
    · intro p
      cases p <;> decide +kernel
  have resolved : resolve logView ⟨"app.Log", "at", .staticMethod⟩ none
      (logArguments.map Value.shape) = .ok logCall := by
    decide +kernel
  have refused : (adaptArguments logView logCall.parameters logCall.spread
      logArguments).toOption.isNone = true := by
    decide +kernel
  refine ⟨separate, resolved, ?_⟩
  rcases (adaptation_agrees logView separate).2 _ _ _ _ resolved with ⟨xs, adapted, _⟩ | failed
  · rw [adapted] at refused
    cases refused
  · exact failed

end Call

end Linkage
