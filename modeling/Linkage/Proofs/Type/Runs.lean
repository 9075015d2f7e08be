import Mathlib.Data.List.TakeDrop
import Linkage.Proofs.Type.Bytewise

/-!
Runs of the readers of types. A run is a derivation by the rules below, one for every turn that a
reader can take, and so it is finite; nothing in it bounds the number of its steps. Whatever is read
uses up bytes, and this alone lets every run end: there is one for any bytes, and the readers, which
take their fuel from the number of bytes, answer as it does.
-/
namespace Linkage.Descriptor

open Text (Bytes)

/-- What was read, with the bytes that are left, or a fault. -/
abbrev Answer (α : Type) := Except Fault (α × Bytes)

/-- A bounded wildcard is read as its bound. -/
def unsigned (b : UInt8) (rest : Bytes) : Bytes :=
  if b = code '+' ∨ b = code '-' then rest else b :: rest

/-- An array with as many dimensions as there are brackets in front, as far as they are counted. -/
def arrayOf (bytes : Bytes) (element : Ty) : Ty :=
  .array element (min (bytes.takeWhile (· == code '[')).length maxDimensions)

mutual

/-- A type at the front of the bytes. -/
inductive TypeRun : Bytes → Answer Ty → Prop where
  | ended : TypeRun [] (.error .malformed)
  | primitive {b : UInt8} {rest : Bytes} {p : Primitive}
      (known : Primitive.ofTag? b.toNat = some p) : TypeRun (b :: rest) (.ok (.primitive p, rest))
  | reference {b : UInt8} {rest : Bytes} {answer : Answer Ty} (mark : b = code 'L')
      (run : ReferenceRun (b :: rest) answer) : TypeRun (b :: rest) answer
  | array {b : UInt8} {rest : Bytes} {answer : Answer Ty} (mark : b = code '[')
      (run : ArrayRun (b :: rest) answer) : TypeRun (b :: rest) answer
  | generic {b : UInt8} {rest : Bytes} (mark : b = code 'T') :
      TypeRun (b :: rest)
        ((readUntil (code ';') rest).map fun (name, left) => (.variable name, left))
  | unknown {b : UInt8} {rest : Bytes} (noPrimitive : Primitive.ofTag? b.toNat = none)
      (unmarked : b ∉ [code 'L', code '[', code 'T']) : TypeRun (b :: rest) (.error .malformed)

/-- A class reference with its leading `L`. -/
inductive ReferenceRun : Bytes → Answer Ty → Prop where
  | misplaced {bytes : Bytes} (unmarked : bytes.head? ≠ some (code 'L')) :
      ReferenceRun bytes (.error .malformed)
  | named {b : UInt8} {rest : Bytes} {answer : Answer Ty} (mark : b = code 'L')
      (run : NameRun [] [] rest answer) : ReferenceRun (b :: rest) answer

/-- The name of a class, of which something was gathered before. -/
inductive NameRun : List Char → List Ty → Bytes → Answer Ty → Prop where
  | ended {name : List Char} {args : List Ty} : NameRun name args [] (.error .malformed)
  | unnamed {args : List Ty} {b : UInt8} {rest : Bytes} (mark : b = code ';') :
      NameRun [] args (b :: rest) (.error .malformed)
  | finished {name : List Char} {args : List Ty} {b : UInt8} {rest : Bytes} (mark : b = code ';')
      (named : name ≠ []) :
      NameRun name args (b :: rest) (.ok (.reference (String.ofList name.reverse) args, rest))
  | arguments {name : List Char} {args inner : List Ty} {b : UInt8} {rest left : Bytes}
      {answer : Answer Ty} (mark : b = code '<') (run : ArgumentsRun [] rest (.ok (inner, left)))
      (onward : NameRun name inner left answer) : NameRun name args (b :: rest) answer
  | argumentsFault {name : List Char} {args : List Ty} {b : UInt8} {rest : Bytes} {f : Fault}
      (mark : b = code '<') (run : ArgumentsRun [] rest (.error f)) :
      NameRun name args (b :: rest) (.error f)
  | inner {name : List Char} {args : List Ty} {b : UInt8} {rest : Bytes} {answer : Answer Ty}
      (mark : b = code '.') (onward : NameRun ('$' :: name) [] rest answer) :
      NameRun name args (b :: rest) answer
  | package {name : List Char} {args : List Ty} {b : UInt8} {rest : Bytes} {answer : Answer Ty}
      (mark : b = code '/') (onward : NameRun ('.' :: name) args rest answer) :
      NameRun name args (b :: rest) answer
  | byte {name : List Char} {args : List Ty} {b : UInt8} {rest : Bytes} {answer : Answer Ty}
      (unmarked : b ∉ [code ';', code '<', code '.', code '/'])
      (onward : NameRun (byteChar b :: name) args rest answer) :
      NameRun name args (b :: rest) answer

/-- Type arguments, of which some were read before. -/
inductive ArgumentsRun : List Ty → Bytes → Answer (List Ty) → Prop where
  | ended {args : List Ty} : ArgumentsRun args [] (.error .malformed)
  | finished {args : List Ty} {b : UInt8} {rest : Bytes} (mark : b = code '>') :
      ArgumentsRun args (b :: rest) (.ok (args.reverse, rest))
  | wildcard {args : List Ty} {b : UInt8} {rest : Bytes} {answer : Answer (List Ty)}
      (mark : b = code '*') (onward : ArgumentsRun (.object :: args) rest answer) :
      ArgumentsRun args (b :: rest) answer
  | argument {args : List Ty} {b : UInt8} {rest left : Bytes} {t : Ty} {answer : Answer (List Ty)}
      (unmarked : b ∉ [code '>', code '*']) (run : TypeRun (unsigned b rest) (.ok (t, left)))
      (onward : ArgumentsRun (t :: args) left answer) : ArgumentsRun args (b :: rest) answer
  | argumentFault {args : List Ty} {b : UInt8} {rest : Bytes} {f : Fault}
      (unmarked : b ∉ [code '>', code '*']) (run : TypeRun (unsigned b rest) (.error f)) :
      ArgumentsRun args (b :: rest) (.error f)

/-- All brackets at the front, and a type after them. -/
inductive ArrayRun : Bytes → Answer Ty → Prop where
  | element {bytes : Bytes} {answer : Answer Ty}
      (run : TypeRun (bytes.dropWhile (· == code '[')) answer) :
      ArrayRun bytes (answer.map fun (t, left) => (arrayOf bytes t, left))

end

/-- The parameters of a method, of which some were read before. -/
inductive ParametersRun : List Ty → Bytes → Answer (List Ty) → Prop where
  | ended {params : List Ty} : ParametersRun params [] (.error .malformed)
  | finished {params : List Ty} {b : UInt8} {rest : Bytes} (mark : b = code ')') :
      ParametersRun params (b :: rest) (.ok (params.reverse, rest))
  | parameter {params : List Ty} {b : UInt8} {rest left : Bytes} {t : Ty}
      {answer : Answer (List Ty)} (unmarked : b ≠ code ')')
      (run : TypeRun (b :: rest) (.ok (t, left)))
      (onward : ParametersRun (t :: params) left answer) : ParametersRun params (b :: rest) answer
  | parameterFault {params : List Ty} {b : UInt8} {rest : Bytes} {f : Fault}
      (unmarked : b ≠ code ')') (run : TypeRun (b :: rest) (.error f)) :
      ParametersRun params (b :: rest) (.error f)

/-- The result of a method, which may be void. -/
inductive ResultRun : Bytes → Answer Ty → Prop where
  | void {b : UInt8} {rest : Bytes} (mark : b = code 'V') :
      ResultRun (b :: rest) (.ok (.void, rest))
  | type {bytes : Bytes} {answer : Answer Ty} (unmarked : bytes.head? ≠ some (code 'V'))
      (run : TypeRun bytes answer) : ResultRun bytes answer

/-- Parameters and result of a method; thrown types are passed over. -/
inductive MethodRun : Bytes → Except Fault (List Ty × Ty × Bytes) → Prop where
  | misplaced {bytes : Bytes} (unmarked : bytes.head? ≠ some (code '(')) :
      MethodRun bytes (.error .malformed)
  | parametersFault {b : UInt8} {rest : Bytes} {f : Fault} (mark : b = code '(')
      (run : ParametersRun [] rest (.error f)) : MethodRun (b :: rest) (.error f)
  | resultFault {b : UInt8} {rest left : Bytes} {params : List Ty} {f : Fault}
      (mark : b = code '(') (run : ParametersRun [] rest (.ok (params, left)))
      (last : ResultRun left (.error f)) : MethodRun (b :: rest) (.error f)
  | complete {b : UInt8} {rest left behind : Bytes} {params : List Ty} {result : Ty}
      (mark : b = code '(') (run : ParametersRun [] rest (.ok (params, left)))
      (last : ResultRun left (.ok (result, behind))) :
      MethodRun (b :: rest)
        (.ok (params, result, if behind.head? = some (code '^') then [] else behind))

/-! What is read uses up bytes. -/

/-- A successful answer leaves an end of the bytes and uses up what stands before it. -/
def Advances {α : Type} (bytes : Bytes) : Answer α → Prop
  | .ok (_, left) => left <:+ bytes ∧ left.length < bytes.length
  | .error _ => True

section Advances
variable {α β : Type} {bytes more : Bytes} {answer : Answer α}

theorem advances_cons (b : UInt8) (rest : Bytes) (x : α) : Advances (b :: rest) (.ok (x, rest)) :=
  ⟨List.suffix_cons b rest, Nat.lt_succ_self _⟩

theorem Advances.of_suffix (advances : Advances bytes answer) (suffix : bytes <:+ more) :
    Advances more answer := by
  cases answer with
  | error f => trivial
  | ok read => exact ⟨advances.1.trans suffix, Nat.lt_of_lt_of_le advances.2 suffix.length_le⟩

theorem Advances.cons (advances : Advances bytes answer) (b : UInt8) :
    Advances (b :: bytes) answer :=
  advances.of_suffix (List.suffix_cons b bytes)

theorem Advances.map (advances : Advances bytes answer) (f : α → β) :
    Advances bytes (answer.map fun (x, left) => (f x, left)) := by
  cases answer with
  | error f => trivial
  | ok read => exact advances

/-- What begins where a successful answer ends advances from where that began. -/
theorem Advances.then {x : β} {left : Bytes} (first : Advances bytes (.ok (x, left)))
    (onward : Advances left answer) : Advances bytes answer :=
  onward.of_suffix first.1

theorem unsigned_suffix (b : UInt8) (rest : Bytes) : unsigned b rest <:+ b :: rest := by
  unfold unsigned
  split
  · exact List.suffix_cons b rest
  · exact List.suffix_refl _

theorem readUntil_advances (stop : UInt8) (bytes : Bytes) :
    Advances bytes (readUntil stop bytes) := by
  have whole := List.takeWhile_append_dropWhile (p := (· != stop)) (l := bytes)
  rw [readUntil, List.span_eq_takeWhile_dropWhile]
  split
  · trivial
  · rename_i before b after shape
    obtain ⟨rfl, rest⟩ := Prod.mk.inj shape
    split
    · rw [rest] at whole
      refine ⟨⟨bytes.takeWhile (· != stop) ++ [b], by simpa using whole⟩, ?_⟩
      rw [← whole, List.length_append, List.length_cons]
      omega
    · trivial

end Advances

mutual

theorem TypeRun.advances : ∀ {bytes : Bytes} {answer : Answer Ty},
    TypeRun bytes answer → Advances bytes answer
  | _, _, .ended => trivial
  | _, _, .primitive _ => advances_cons ..
  | _, _, .reference _ run => run.advances
  | _, _, .array _ run => run.advances
  | _, _, .generic _ => ((readUntil_advances ..).map Ty.variable).cons _
  | _, _, .unknown _ _ => trivial

theorem ReferenceRun.advances : ∀ {bytes : Bytes} {answer : Answer Ty},
    ReferenceRun bytes answer → Advances bytes answer
  | _, _, .misplaced _ => trivial
  | _, _, .named _ run => run.advances.cons _

theorem NameRun.advances : ∀ {name : List Char} {args : List Ty} {bytes : Bytes}
    {answer : Answer Ty}, NameRun name args bytes answer → Advances bytes answer
  | _, _, _, _, .ended => trivial
  | _, _, _, _, .unnamed _ => trivial
  | _, _, _, _, .finished _ _ => advances_cons ..
  | _, _, _, _, .arguments _ run onward => (run.advances.then onward.advances).cons _
  | _, _, _, _, .argumentsFault _ _ => trivial
  | _, _, _, _, .inner _ onward => onward.advances.cons _
  | _, _, _, _, .package _ onward => onward.advances.cons _
  | _, _, _, _, .byte _ onward => onward.advances.cons _

theorem ArgumentsRun.advances : ∀ {args : List Ty} {bytes : Bytes} {answer : Answer (List Ty)},
    ArgumentsRun args bytes answer → Advances bytes answer
  | _, _, _, .ended => trivial
  | _, _, _, .finished _ => advances_cons ..
  | _, _, _, .wildcard _ onward => onward.advances.cons _
  | _, _, _, .argument _ run onward =>
    (run.advances.then onward.advances).of_suffix (unsigned_suffix ..)
  | _, _, _, .argumentFault _ _ => trivial

theorem ArrayRun.advances : ∀ {bytes : Bytes} {answer : Answer Ty},
    ArrayRun bytes answer → Advances bytes answer
  | bytes, _, .element run =>
    (run.advances.of_suffix (List.dropWhile_suffix _)).map (arrayOf bytes)

end

theorem ParametersRun.advances {params : List Ty} {bytes : Bytes} {answer : Answer (List Ty)}
    (run : ParametersRun params bytes answer) : Advances bytes answer := by
  induction run with
  | ended => trivial
  | finished => exact advances_cons ..
  | parameter _ run _ ih => exact run.advances.then ih
  | parameterFault => trivial

/-! Every run ends. -/

/-- There is a run of every reader on these bytes. -/
structure Ends (bytes : Bytes) : Prop where
  type : ∃ answer, TypeRun bytes answer
  name : ∀ name args, ∃ answer, NameRun name args bytes answer
  arguments : ∀ args, ∃ answer, ArgumentsRun args bytes answer

section Ends
variable {bytes : Bytes} (shorter : ∀ less : Bytes, less.length < bytes.length → Ends less)
include shorter

theorem exists_typeRun : ∃ answer, TypeRun bytes answer := by
  cases bytes with
  | nil => exact ⟨_, .ended⟩
  | cons b rest =>
    cases known : Primitive.ofTag? b.toNat with
    | some p => exact ⟨_, .primitive known⟩
    | none =>
      by_cases isClass : b = code 'L'
      · obtain ⟨answer, run⟩ := (shorter rest (Nat.lt_succ_self _)).name [] []
        exact ⟨answer, .reference isClass (.named isClass run)⟩
      by_cases isArray : b = code '['
      · have fewer : ((b :: rest).dropWhile (· == code '[')).length < (b :: rest).length := by
          rw [List.dropWhile_cons_of_pos (by simpa using isArray)]
          exact Nat.lt_succ_of_le (List.dropWhile_suffix _).length_le
        obtain ⟨answer, run⟩ := (shorter _ fewer).type
        exact ⟨_, .array isArray (.element run)⟩
      by_cases isVariable : b = code 'T'
      · exact ⟨_, .generic isVariable⟩
      · exact ⟨_, .unknown known (by simp [isClass, isArray, isVariable])⟩

theorem exists_nameRun (name : List Char) (args : List Ty) :
    ∃ answer, NameRun name args bytes answer := by
  cases bytes with
  | nil => exact ⟨_, .ended⟩
  | cons b rest =>
    have behind := shorter rest (Nat.lt_succ_self _)
    by_cases isEnd : b = code ';'
    · by_cases named : name = []
      · subst named
        exact ⟨_, .unnamed isEnd⟩
      · exact ⟨_, .finished isEnd named⟩
    by_cases opens : b = code '<'
    · obtain ⟨answer, run⟩ := behind.arguments []
      cases answer with
      | error f => exact ⟨_, .argumentsFault opens run⟩
      | ok read =>
        obtain ⟨answer, onward⟩ := (shorter read.2 (run.advances.cons b).2).name name read.1
        exact ⟨answer, .arguments opens run onward⟩
    by_cases isPoint : b = code '.'
    · obtain ⟨answer, onward⟩ := behind.name ('$' :: name) []
      exact ⟨answer, .inner isPoint onward⟩
    by_cases isSlash : b = code '/'
    · obtain ⟨answer, onward⟩ := behind.name ('.' :: name) args
      exact ⟨answer, .package isSlash onward⟩
    · obtain ⟨answer, onward⟩ := behind.name (byteChar b :: name) args
      exact ⟨answer, .byte (by simp [isEnd, opens, isPoint, isSlash]) onward⟩

/-- The type that is read for an argument may begin where the argument does, and it has a run since
it has one on these same bytes. -/
theorem exists_argumentsRun (type : ∃ answer, TypeRun bytes answer) (args : List Ty) :
    ∃ answer, ArgumentsRun args bytes answer := by
  cases bytes with
  | nil => exact ⟨_, .ended⟩
  | cons b rest =>
    have behind := shorter rest (Nat.lt_succ_self _)
    by_cases isEnd : b = code '>'
    · exact ⟨_, .finished isEnd⟩
    by_cases isWildcard : b = code '*'
    · obtain ⟨answer, onward⟩ := behind.arguments (.object :: args)
      exact ⟨answer, .wildcard isWildcard onward⟩
    have unmarked : b ∉ [code '>', code '*'] := by simp [isEnd, isWildcard]
    obtain ⟨answer, run⟩ : ∃ answer, TypeRun (unsigned b rest) answer := by
      unfold unsigned
      split
      · exact behind.type
      · exact type
    cases answer with
    | error f => exact ⟨_, .argumentFault unmarked run⟩
    | ok read =>
      have fewer := (run.advances.of_suffix (unsigned_suffix b rest)).2
      obtain ⟨answer, onward⟩ := (shorter read.2 fewer).arguments (read.1 :: args)
      exact ⟨answer, .argument unmarked run onward⟩

end Ends

theorem ends (bytes : Bytes) : Ends bytes := by
  induction known : bytes.length using Nat.strongRecOn generalizing bytes with
  | _ length ih =>
    subst known
    have shorter : ∀ less : Bytes, less.length < bytes.length → Ends less :=
      fun less fewer => ih less.length fewer less rfl
    have type := exists_typeRun shorter
    exact ⟨type, exists_nameRun shorter, exists_argumentsRun shorter type⟩

/-! A reader with enough fuel answers as its run does. -/

section Fuel
variable {b : UInt8} {rest : Bytes} {fuel : Nat}

theorem readType_of_unknown (noPrimitive : Primitive.ofTag? b.toNat = none)
    (unmarked : b ∉ [code 'L', code '[', code 'T']) (fuel : Nat) (rest : Bytes) :
    readType (fuel + 1) (b :: rest) = .error .malformed := by
  simp only [List.mem_cons, List.not_mem_nil, or_false, not_or] at unmarked
  simp only [readType, noPrimitive, if_neg unmarked.1, if_neg unmarked.2.1, if_neg unmarked.2.2]

theorem readType_generic (fuel : Nat) (rest : Bytes) :
    readType (fuel + 1) (code 'T' :: rest) =
      (readUntil (code ';') rest).map fun (name, left) => (.variable name, left) := by
  have none : Primitive.ofTag? (code 'T').toNat = none := by decide
  simp only [readType, none, if_neg (show code 'T' ≠ code 'L' by decide),
    if_neg (show code 'T' ≠ code '[' by decide), if_true]
  cases readUntil (code ';') rest with
  | error f => rfl
  | ok read => rfl

/-- The brackets are counted from the first one on. -/
theorem readType_array (fuel : Nat) (rest : Bytes) :
    readType (fuel + 1) (code '[' :: rest) =
      (readType fuel ((code '[' :: rest).dropWhile (· == code '['))).map fun (t, left) =>
        (arrayOf (code '[' :: rest) t, left) := by
  rw [readType_bracket, List.dropWhile_cons_of_pos (by simp)]
  simp only [arrayOf]
  rw [List.takeWhile_cons_of_pos (by simp), List.length_cons, Nat.add_comm]

theorem exists_fuel (enough : 2 * (b :: rest).length ≤ fuel) :
    ∃ less, fuel = less + 1 ∧ 2 * rest.length + 1 ≤ less := by
  rw [List.length_cons] at enough
  exact ⟨fuel - 1, by omega, by omega⟩

end Fuel

mutual

theorem TypeRun.read : ∀ {bytes : Bytes} {answer : Answer Ty}, TypeRun bytes answer →
    ∀ fuel, 2 * bytes.length ≤ fuel → readType fuel bytes = answer
  | _, _, .ended, fuel, _ => by cases fuel <;> rfl
  | _, _, .primitive known, fuel, enough => by
    obtain ⟨fuel, rfl, _⟩ := exists_fuel enough
    simp only [readType, known]
  | _, _, .reference mark run, fuel, enough => run.read fuel enough (congrArg some mark)
  | _, _, .array mark run, fuel, enough => run.read fuel enough (congrArg some mark)
  | _, _, .generic mark, fuel, enough => by
    obtain ⟨fuel, rfl, _⟩ := exists_fuel enough
    rw [mark, readType_generic]
  | _, _, .unknown noPrimitive unmarked, fuel, enough => by
    obtain ⟨fuel, rfl, _⟩ := exists_fuel enough
    exact readType_of_unknown noPrimitive unmarked fuel _

theorem ReferenceRun.read : ∀ {bytes : Bytes} {answer : Answer Ty}, ReferenceRun bytes answer →
    ∀ fuel, 2 * bytes.length ≤ fuel → bytes.head? = some (code 'L') → readType fuel bytes = answer
  | _, _, .misplaced unmarked, _, _, starts => absurd starts unmarked
  | _, _, .named mark run, fuel, enough, _ => by
    obtain ⟨fuel, rfl, left⟩ := exists_fuel enough
    rw [mark, readType_class]
    exact run.read fuel (Nat.le_of_succ_le left)

theorem NameRun.read : ∀ {name : List Char} {args : List Ty} {bytes : Bytes} {answer : Answer Ty},
    NameRun name args bytes answer →
    ∀ fuel, 2 * bytes.length ≤ fuel → readReference fuel name args bytes = answer
  | _, _, _, _, .ended, fuel, _ => by cases fuel <;> rfl
  | _, _, _, _, .unnamed mark, fuel, enough => by
    obtain ⟨fuel, rfl, _⟩ := exists_fuel enough
    rw [readReference, if_pos mark]
    rfl
  | _, _, _, _, .finished mark named, fuel, enough => by
    obtain ⟨fuel, rfl, _⟩ := exists_fuel enough
    rw [readReference, if_pos mark, if_neg (by simpa using named)]
  | _, _, _, _, .arguments mark run onward, fuel, enough => by
    obtain ⟨fuel, rfl, left⟩ := exists_fuel enough
    have less := run.advances.2
    rw [mark, readReference, if_neg (by decide), if_pos rfl, run.read fuel left]
    exact onward.read fuel (by omega)
  | _, _, _, _, .argumentsFault mark run, fuel, enough => by
    obtain ⟨fuel, rfl, left⟩ := exists_fuel enough
    rw [mark, readReference, if_neg (by decide), if_pos rfl, run.read fuel left]
  | _, _, _, _, .inner mark onward, fuel, enough => by
    obtain ⟨fuel, rfl, left⟩ := exists_fuel enough
    rw [mark, readReference, if_neg (by decide), if_neg (by decide), if_pos rfl]
    exact onward.read fuel (Nat.le_of_succ_le left)
  | _, _, _, _, .package mark onward, fuel, enough => by
    obtain ⟨fuel, rfl, left⟩ := exists_fuel enough
    rw [mark, readReference, if_neg (by decide), if_neg (by decide), if_neg (by decide), if_pos rfl]
    exact onward.read fuel (Nat.le_of_succ_le left)
  | _, _, _, _, .byte unmarked onward, fuel, enough => by
    obtain ⟨fuel, rfl, left⟩ := exists_fuel enough
    simp only [List.mem_cons, List.not_mem_nil, or_false, not_or] at unmarked
    obtain ⟨noEnd, noArguments, noPoint, noSlash⟩ := unmarked
    rw [readReference, if_neg noEnd, if_neg noArguments, if_neg noPoint, if_neg noSlash]
    exact onward.read fuel (Nat.le_of_succ_le left)

/-- A type that is read for an argument may begin with the same byte, for which it takes fuel of its
own. -/
theorem ArgumentsRun.read : ∀ {args : List Ty} {bytes : Bytes} {answer : Answer (List Ty)},
    ArgumentsRun args bytes answer →
    ∀ fuel, 2 * bytes.length + 1 ≤ fuel → readArguments fuel args bytes = answer
  | _, _, _, .ended, fuel, _ => by cases fuel <;> rfl
  | _, _, _, .finished mark, fuel + 1, _ => by rw [readArguments, if_pos mark]
  | _, _, _, .wildcard mark onward, fuel + 1, enough => by
    obtain ⟨_, rfl, left⟩ := exists_fuel (Nat.le_of_succ_le_succ enough)
    rw [mark, readArguments, if_neg (by decide), if_pos rfl]
    exact onward.read _ (Nat.le_succ_of_le left)
  | _, b :: rest, _, .argument unmarked run onward, fuel + 1, enough => by
    have suffix := (unsigned_suffix b rest).length_le
    have less := run.advances.2
    simp only [List.mem_cons, List.not_mem_nil, or_false, not_or] at unmarked
    have first := run.read fuel (by omega)
    unfold unsigned at first
    rw [readArguments, if_neg unmarked.1, if_neg unmarked.2, first]
    exact onward.read fuel (by omega)
  | _, b :: rest, _, .argumentFault unmarked run, fuel + 1, enough => by
    have suffix := (unsigned_suffix b rest).length_le
    simp only [List.mem_cons, List.not_mem_nil, or_false, not_or] at unmarked
    have first := run.read fuel (by omega)
    unfold unsigned at first
    rw [readArguments, if_neg unmarked.1, if_neg unmarked.2, first]

theorem ArrayRun.read : ∀ {bytes : Bytes} {answer : Answer Ty}, ArrayRun bytes answer →
    ∀ fuel, 2 * bytes.length ≤ fuel → bytes.head? = some (code '[') → readType fuel bytes = answer
  | b :: rest, _, .element run, fuel, enough, starts => by
    obtain ⟨fuel, rfl, left⟩ := exists_fuel enough
    have inner := run.read fuel
    obtain rfl : b = code '[' := Option.some.inj starts
    rw [readType_array, inner]
    rw [List.dropWhile_cons_of_pos (by simp)]
    have less := (List.dropWhile_suffix (l := rest) (· == code '[')).length_le
    omega

end

section Agreement
variable {bytes : Bytes}

/-- Rules that have an answer for the bytes, and only the one that a function gives, tell what the
function does. -/
theorem iff_of_exists {α : Type} {Run : α → Prop} {value : α} (some : ∃ answer, Run answer)
    (same : ∀ answer, Run answer → value = answer) (answer : α) : Run answer ↔ value = answer := by
  obtain ⟨other, run⟩ := some
  refine ⟨same answer, ?_⟩
  rintro rfl
  rwa [same other run]

theorem typeRun_iff (answer : Answer Ty) :
    TypeRun bytes answer ↔ readType (fuelFor bytes) bytes = answer :=
  iff_of_exists (ends bytes).type (fun _ run => run.read _ (Nat.le_add_right _ 2)) answer

theorem nameRun_iff (name : List Char) (args : List Ty) (answer : Answer Ty) :
    NameRun name args bytes answer ↔ readReference (fuelFor bytes) name args bytes = answer :=
  iff_of_exists ((ends bytes).name name args) (fun _ run => run.read _ (Nat.le_add_right _ 2))
    answer

theorem argumentsRun_iff (args : List Ty) (answer : Answer (List Ty)) :
    ArgumentsRun args bytes answer ↔ readArguments (fuelFor bytes) args bytes = answer :=
  iff_of_exists ((ends bytes).arguments args) (fun _ run => run.read _ (Nat.le_succ _)) answer

theorem referenceRun_iff (starts : bytes.head? = some (code 'L')) (answer : Answer Ty) :
    ReferenceRun bytes answer ↔ readType (fuelFor bytes) bytes = answer := by
  refine iff_of_exists ?_ (fun _ run => run.read _ (Nat.le_add_right _ 2) starts) answer
  obtain ⟨rest, rfl⟩ := List.head?_eq_some_iff.mp starts
  obtain ⟨answer, run⟩ := (ends rest).name [] []
  exact ⟨answer, .named rfl run⟩

theorem arrayRun_iff (starts : bytes.head? = some (code '[')) (answer : Answer Ty) :
    ArrayRun bytes answer ↔ readType (fuelFor bytes) bytes = answer := by
  refine iff_of_exists ?_ (fun _ run => run.read _ (Nat.le_add_right _ 2) starts) answer
  obtain ⟨answer, run⟩ := (ends (bytes.dropWhile (· == code '['))).type
  exact ⟨_, .element run⟩

theorem resultRun_iff (answer : Answer Ty) :
    ResultRun bytes answer ↔ readResult bytes = answer := by
  cases bytes with
  | nil =>
    constructor
    · rintro (_ | ⟨_, run⟩)
      cases run
      rfl
    · rintro rfl
      exact .type (by simp) .ended
  | cons b rest =>
    by_cases mark : b = code 'V'
    · rw [readResult, if_pos mark]
      constructor
      · rintro (_ | ⟨unmarked, _⟩)
        · rfl
        · exact absurd (congrArg some mark) unmarked
      · rintro rfl
        exact .void mark
    · rw [readResult, if_neg mark, ← typeRun_iff]
      constructor
      · rintro (mark' | ⟨_, run⟩)
        · exact absurd mark' mark
        · exact run
      · exact .type (by simpa using mark)

theorem ParametersRun.exists_run (params : List Ty) (bytes : Bytes) :
    ∃ answer, ParametersRun params bytes answer := by
  induction known : bytes.length using Nat.strongRecOn generalizing params bytes with
  | _ length ih =>
    subst known
    cases bytes with
    | nil => exact ⟨_, .ended⟩
    | cons b rest =>
      by_cases isEnd : b = code ')'
      · exact ⟨_, .finished isEnd⟩
      obtain ⟨answer, run⟩ := (ends (b :: rest)).type
      cases answer with
      | error f => exact ⟨_, .parameterFault isEnd run⟩
      | ok read =>
        obtain ⟨answer, onward⟩ := ih _ run.advances.2 (read.1 :: params) read.2 rfl
        exact ⟨answer, .parameter isEnd run onward⟩

theorem ParametersRun.read {params : List Ty} {answer : Answer (List Ty)}
    (run : ParametersRun params bytes answer) (fuel : Nat) (enough : bytes.length < fuel) :
    readParameters fuel params bytes = answer := by
  induction run generalizing fuel with
  | ended => cases fuel <;> rfl
  | finished mark =>
    obtain ⟨fuel, rfl⟩ := Nat.exists_eq_succ_of_ne_zero (Nat.ne_zero_of_lt enough)
    rw [readParameters, if_pos mark]
  | parameter unmarked run onward ih =>
    obtain ⟨fuel, rfl⟩ := Nat.exists_eq_succ_of_ne_zero (Nat.ne_zero_of_lt enough)
    rw [readParameters, if_neg unmarked, (typeRun_iff _).mp run]
    exact ih fuel (Nat.lt_of_lt_of_le run.advances.2 (Nat.le_of_lt_succ enough))
  | parameterFault unmarked run =>
    obtain ⟨fuel, rfl⟩ := Nat.exists_eq_succ_of_ne_zero (Nat.ne_zero_of_lt enough)
    rw [readParameters, if_neg unmarked, (typeRun_iff _).mp run]

theorem parametersRun_iff (params : List Ty) (answer : Answer (List Ty)) :
    ParametersRun params bytes answer ↔ readParameters (bytes.length + 1) params bytes = answer :=
  iff_of_exists (ParametersRun.exists_run params bytes)
    (fun _ run => run.read _ (Nat.lt_succ_self _)) answer

theorem MethodRun.exists_run (bytes : Bytes) : ∃ answer, MethodRun bytes answer := by
  by_cases opens : bytes.head? = some (code '(')
  · obtain ⟨rest, rfl⟩ : ∃ rest, bytes = code '(' :: rest := List.head?_eq_some_iff.mp opens
    obtain ⟨answer, run⟩ := ParametersRun.exists_run [] rest
    cases answer with
    | error f => exact ⟨_, .parametersFault rfl run⟩
    | ok read =>
      cases last : readResult read.2 with
      | error f => exact ⟨_, .resultFault rfl run ((resultRun_iff _).mpr last)⟩
      | ok result => exact ⟨_, .complete rfl run ((resultRun_iff _).mpr last)⟩
  · exact ⟨_, .misplaced opens⟩

theorem methodRun_iff (answer : Except Fault (List Ty × Ty × Bytes)) :
    MethodRun bytes answer ↔ readMethod bytes = answer := by
  refine iff_of_exists (MethodRun.exists_run bytes) (fun answer run => ?_) answer
  cases run with
  | misplaced unmarked =>
    cases bytes with
    | nil => rfl
    | cons b rest => rw [readMethod, if_neg (by simpa using unmarked)]
  | parametersFault mark run => simp only [readMethod, if_pos mark, (parametersRun_iff _ _).mp run]
  | resultFault mark run last =>
    simp only [readMethod, if_pos mark, (parametersRun_iff _ _).mp run, (resultRun_iff _).mp last]
  | complete mark run last =>
    simp only [readMethod, if_pos mark, (parametersRun_iff _ _).mp run, (resultRun_iff _).mp last]

end Agreement

end Linkage.Descriptor
