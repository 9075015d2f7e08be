import Linkage.Call.Arguments
import Linkage.Proofs.Outcome

/-!
Where the failures of an adaptation are. The path of a failure starts with the path of the value
that is adapted; it goes on where the failure is about a part of that value.
-/
namespace Linkage.Call

open Outcome

namespace AdaptFault

/-- The failure is about a part of what stands at the path: an item of a list, a set or an array, or
an entry of a map. -/
def Within (path : String) (fault : AdaptFault) : Prop :=
  ∃ place rest, fault.path = path ++ "[" ++ place ++ "]" ++ rest ∨
    fault.path = path ++ "\x7b" ++ place ++ "\x7d" ++ rest

/-- What classification leaves to adaptation: constants of enums, and parts. -/
def Deferred (path : String) (fault : AdaptFault) : Prop :=
  (∃ place expected value, fault = .enumConstant place expected value) ∨ fault.Within path

theorem Within.extends {path : String} {fault : AdaptFault} (within : fault.Within path) :
    ∃ rest, fault.path = path ++ rest := by
  obtain ⟨place, rest, same | same⟩ := within
  · exact ⟨"[" ++ place ++ "]" ++ rest, by rw [same]; simp only [String.append_assoc]⟩
  · exact ⟨"\x7b" ++ place ++ "\x7d" ++ rest, by rw [same]; simp only [String.append_assoc]⟩

end AdaptFault

section Paths
variable {v : ClassView} {value : Value} {path : String} {fault : AdaptFault}

theorem convertNumber_error_path {x : Binary} {target : Primitive}
    (failed : convertNumber x target path = .error fault) : fault.path = path := by
  cases target <;> grind [convertNumber, AdaptFault.path]

theorem convertLong_error_path {n : Int64} {target : Primitive}
    (failed : convertLong n target path = .error fault) : fault.path = path := by
  cases target <;> grind [convertLong, AdaptFault.path]

theorem convertChar_error_path {c : Char} {target : Primitive}
    (failed : convertChar c target path = .error fault) : fault.path = path := by
  cases target <;> grind [convertChar, AdaptFault.path]

theorem refused_path {α : Type} {t : Ty}
    (failed : (.error (.refuse path t value) : Except AdaptFault α) = .error fault) :
    fault.path = path := by
  obtain rfl := Except.error.inj failed
  rfl

theorem adaptPrimitive_error_path {target : Primitive}
    (failed : adaptPrimitive value target path = .error fault) : fault.path = path := by
  cases value with
  | number x => exact convertNumber_error_path failed
  | long n => exact convertLong_error_path failed
  | char c => exact convertChar_error_path failed
  | null | string | list | set | map => exact refused_path failed
  | bool | object =>
    simp only [adaptPrimitive] at failed
    split at failed
    · cases failed
    · exact refused_path failed

theorem adaptReference_error_path {name : String}
    (failed : adaptReference v value name path = .error fault) : fault.path = path := by
  cases value <;> grind [adaptReference, adaptEnum, AdaptFault.refuse, AdaptFault.path]

theorem adaptSimple_error_path {t : Ty}
    (failed : adaptSimple v value t path = .error fault) : fault.path = path := by
  match t with
  | .primitive _ => exact adaptPrimitive_error_path failed
  | .variable _ => exact adaptReference_error_path failed
  | .void => exact refused_path failed
  | .array _ _ =>
    cases value with
    | null => cases failed
    | bool | number | long | char | string | list | set | map | object => exact refused_path failed
  | .reference name args =>
    simp only [adaptSimple] at failed
    split at failed
    · cases value with
      | null | object => cases failed
      | bool | number | long | char | string | list | set | map =>
        simp only [adaptWrapper, map_eq_error_iff] at failed
        exact adaptPrimitive_error_path failed
    · exact adaptReference_error_path failed

end Paths

mutual

/-- A failure is about the value itself or about a part of it. -/
theorem adapt_error_path {v : ClassView} {value : Value} {t : Ty} {path : String}
    {fault : AdaptFault} (failed : adapt v value t path = .error fault) :
    ∃ rest, fault.path = path ++ rest := by
  have whole (same : fault.path = path) : ∃ rest, fault.path = path ++ rest :=
    ⟨"", by rw [same, String.append_empty]⟩
  match value with
  | .list items | .set items =>
    simp only [adapt] at failed
    split at failed
    · exact whole (refused_path failed)
    · exact (adaptItems_error_path (map_eq_error_iff.mp failed)).extends
  | .map entries =>
    simp only [adapt] at failed
    split at failed
    · exact whole (refused_path failed)
    · exact (adaptEntries_error_path (map_eq_error_iff.mp failed)).extends
  | .null =>
    simp only [adapt] at failed
    split at failed
    · cases failed
    · exact whole (adaptSimple_error_path failed)
  | .object className handle =>
    simp only [adapt] at failed
    split at failed
    · cases failed
    · exact whole (adaptSimple_error_path (map_eq_error_iff.mp failed))
  | .bool _ | .number _ | .long _ | .char _ | .string _ =>
    simp only [adapt] at failed
    exact whole (adaptSimple_error_path (map_eq_error_iff.mp failed))

theorem adaptItems_error_path {v : ClassView} {items : List Value} {element : Ty} {path : String}
    {index : Nat} {fault : AdaptFault}
    (failed : adaptItems v items element path index = .error fault) :
    fault.Within path := by
  match items with
  | [] => cases failed
  | item :: items =>
    simp only [adaptItems, bind_eq_error_iff] at failed
    rcases failed with failed | ⟨_, _, failed | ⟨_, _, failed⟩⟩
    · obtain ⟨rest, same⟩ := adapt_error_path failed
      exact ⟨toString index, rest, .inl same⟩
    · exact adaptItems_error_path failed
    · cases failed

theorem adaptEntries_error_path {v : ClassView} {entries : List (Value × Value)} {key item : Ty}
    {path : String} {fault : AdaptFault}
    (failed : adaptEntries v entries key item path = .error fault) :
    fault.Within path := by
  match entries with
  | [] => cases failed
  | (k, x) :: entries =>
    simp only [adaptEntries, bind_eq_error_iff] at failed
    rcases failed with failed | ⟨_, _, failed | ⟨_, _, failed | ⟨_, _, failed⟩⟩⟩
    · obtain ⟨rest, same⟩ := adapt_error_path failed
      exact ⟨k.describe, rest, .inr same⟩
    · obtain ⟨rest, same⟩ := adapt_error_path failed
      exact ⟨k.describe, rest, .inr same⟩
    · exact adaptEntries_error_path failed
    · cases failed

end

end Linkage.Call
