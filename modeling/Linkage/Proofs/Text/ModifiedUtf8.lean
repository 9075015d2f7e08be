import Mathlib.Data.List.Basic
import Linkage.Proofs.Text.Utf8

/-!
The encoding of texts in class files. A text is a list of UTF-16 units, each of which is encoded for
itself: the unit zero has two bytes, so that no byte of a text is zero, and the two surrogates of a
supplementary character have three bytes each.

Any other unit is a character with the bytes that it has in UTF-8. A strict decoder of UTF-8
therefore reads a text up to its first zero or surrogate, and refuses it there.
-/
namespace Linkage.Text

/-- The bytes of one unit. -/
def unitBytes (unit : UInt16) : Bytes :=
  let n := unit.toNat
  if 0 < n ∧ n < 0x80 then [n.toUInt8]
  else if n < 0x800 then [(0xC0 + n / 64).toUInt8, (0x80 + n % 64).toUInt8]
  else [(0xE0 + n / 4096).toUInt8, (0x80 + n / 64 % 64).toUInt8, (0x80 + n % 64).toUInt8]

def modifiedUtf8 (units : List UInt16) : Bytes := units.flatMap unitBytes

/-- Neither zero nor a surrogate. -/
def IsPlainUnit (unit : UInt16) : Prop :=
  unit.toNat ≠ 0 ∧ (unit.toNat < 0xD800 ∨ 0xDFFF < unit.toNat)

instance (unit : UInt16) : Decidable (IsPlainUnit unit) :=
  inferInstanceAs (Decidable (_ ∧ _))

/-- The character that a plain unit stands for. -/
def unitChar (unit : UInt16) : Char := Char.ofNat unit.toNat

variable {unit : UInt16}

theorem unitBytes_eq (plain : IsPlainUnit unit) : unitBytes unit = charBytes (unitChar unit) := by
  have small : unit.toNat < 65536 := unit.toNat_lt
  have positive := plain.1
  have valid : unit.toNat.isValidChar := plain.2.imp_right fun high => ⟨high, by omega⟩
  have code : (unitChar unit).toNat = unit.toNat := by
    rw [unitChar, Char.ofNat, dif_pos valid]
    rfl
  simp only [unitBytes, charBytes, code]
  by_cases one : unit.toNat < 0x80
  · rw [if_pos ⟨by omega, one⟩, if_pos one]
  · rw [if_neg (fun both => one both.2), if_neg one, if_pos small]

theorem modifiedUtf8_eq {units : List UInt16} (plain : ∀ u ∈ units, IsPlainUnit u) :
    modifiedUtf8 units = (units.map unitChar).flatMap charBytes := by
  rw [modifiedUtf8, List.flatMap_map]
  exact List.flatMap_congr fun u member => unitBytes_eq (plain u member)

/-- A second byte that does not fit leaves the first one alone. -/
theorem scalar_unfit {a : Nat} {b : UInt8} (rest : Bytes) (low : 0xE0 ≤ a) (high : a ≤ 0xF4)
    (unfit : secondFits a b = false) : scalar (a.toUInt8 :: b :: rest) = .faulty 1 := by
  simp only [scalar, toNat_toUInt8 (show a < 256 by omega), unfit]
  rw [if_neg (by omega), if_neg (by simp; omega), if_neg (by omega), if_pos (by simp)]

/-- The bytes of zero and of a surrogate are refused at the first of them. -/
theorem scalar_unitBytes (special : ¬ IsPlainUnit unit) (rest : Bytes) :
    scalar (unitBytes unit ++ rest) = .faulty 1 := by
  have small : unit.toNat < 65536 := unit.toNat_lt
  by_cases zero : unit.toNat = 0
  · have bytes : unitBytes unit = [0xC0, 0x80] := by simp [unitBytes, zero]
    rw [bytes]
    rfl
  · have surrogate : 0xD800 ≤ unit.toNat ∧ unit.toNat ≤ 0xDFFF := by
      unfold IsPlainUnit at special
      omega
    have lead : 0xE0 + unit.toNat / 4096 = 0xED := by omega
    have second : (0x80 + unit.toNat / 64 % 64).toUInt8.toNat = 0x80 + unit.toNat / 64 % 64 :=
      toNat_toUInt8 (by omega)
    have unfit : secondFits 0xED (0x80 + unit.toNat / 64 % 64).toUInt8 = false := by
      simp only [secondFits, second, Bool.and_eq_false_iff, decide_eq_false_iff_not]
      right
      change ¬ _ ≤ 0x9F
      omega
    simp only [unitBytes]
    rw [if_neg (by omega), if_neg (by omega), lead]
    exact scalar_unfit _ (by decide) (by decide) unfit

theorem length_unitBytes_pos (unit : UInt16) : 0 < (unitBytes unit).length := by
  simp only [unitBytes]
  split
  · exact Nat.succ_pos 0
  split
  · exact Nat.succ_pos 1
  · exact Nat.succ_pos 2

/-- A text without a zero or a surrogate is decoded as its characters. -/
theorem decodeUtf8_plain {units : List UInt16} (plain : ∀ u ∈ units, IsPlainUnit u) :
    decodeUtf8 (modifiedUtf8 units) = .ok (String.ofList (units.map unitChar)) := by
  have encoded : modifiedUtf8 units = encodeUtf8 (String.ofList (units.map unitChar)) := by
    rw [encodeUtf8, String.toList_ofList, modifiedUtf8_eq plain]
  rw [encoded, decodeUtf8_encodeUtf8]

/-- The first zero or surrogate is a fault of one byte, at the place of its first. -/
theorem decodeUtf8_special {front back : List UInt16} (plain : ∀ u ∈ front, IsPlainUnit u)
    (special : ¬ IsPlainUnit unit) :
    decodeUtf8 (modifiedUtf8 (front ++ unit :: back)) =
      .error (.invalid 1 (modifiedUtf8 front).length) := by
  have split : modifiedUtf8 (front ++ unit :: back) =
      (front.map unitChar).flatMap charBytes ++ (unitBytes unit ++ modifiedUtf8 back) := by
    rw [← modifiedUtf8_eq plain, modifiedUtf8, modifiedUtf8, modifiedUtf8, List.flatMap_append,
      List.flatMap_cons]
  have positive := length_unitBytes_pos unit
  have short := length_le_flatMap_charBytes (front.map unitChar)
  rw [modifiedUtf8_eq plain, split, decodeUtf8]
  generalize whole : ((front.map unitChar).flatMap charBytes ++
    (unitBytes unit ++ modifiedUtf8 back)).length = fuel
  rw [List.length_append, List.length_append] at whole
  obtain ⟨left, enough⟩ := Nat.exists_eq_succ_of_ne_zero
    (show fuel - (front.map unitChar).length ≠ 0 by omega)
  have run := decodeFrom_append (front.map unitChar) [] (unitBytes unit ++ modifiedUtf8 back) 0
    (show (front.map unitChar).length ≤ fuel by omega)
  rw [List.reverse_nil, enough, decodeFrom_faulty (scalar_unitBytes special _), Nat.zero_add] at run
  rw [run]
  rfl

/-- A text that is not plain has a first unit that is not. -/
theorem exists_special {units : List UInt16} (special : ¬ ∀ u ∈ units, IsPlainUnit u) :
    ∃ front u back, units = front ++ u :: back ∧ (∀ v ∈ front, IsPlainUnit v) ∧
      ¬ IsPlainUnit u := by
  cases found : units.find? (fun u => ¬ IsPlainUnit u) with
  | none =>
    rw [List.find?_eq_none] at found
    exact absurd (fun u member => by simpa using found u member) special
  | some u =>
    obtain ⟨first, front, back, split, before⟩ := List.find?_eq_some_iff_append.mp found
    exact ⟨front, u, back, split, fun v member => by simpa using before v member,
      by simpa using first⟩

end Linkage.Text
