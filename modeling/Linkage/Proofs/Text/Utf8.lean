import Linkage.Text.Utf8

/-!
Strict decoding undoes encoding. The character at the front of a text is read whole from its own
bytes, whatever follows them, and decoding goes on behind it.
-/
namespace Linkage.Text
variable {a b c d : Nat}

theorem toNat_toUInt8 (small : a < 256) : a.toUInt8.toNat = a := by
  rw [Nat.toUInt8, UInt8.toNat_ofNat']
  omega

theorem isContinuation_toUInt8 (low : 0x80 ≤ a) (high : a ≤ 0xBF) :
    isContinuation a.toUInt8 = true := by
  rw [isContinuation, toNat_toUInt8 (by omega)]
  simp [low, high]

/-- The bounds of a second byte rule out surrogates, codes that fewer bytes can hold and codes that
are too great. -/
theorem secondBounds_fits (threeLow : a = 0xE0 → 0xA0 ≤ b) (surrogate : a = 0xED → b ≤ 0x9F)
    (fourLow : a = 0xF0 → 0x90 ≤ b) (great : a = 0xF4 → b ≤ 0x8F) (low : 0x80 ≤ b)
    (high : b ≤ 0xBF) : (secondBounds a).1 ≤ b ∧ b ≤ (secondBounds a).2 := by
  unfold secondBounds
  split
  · omega
  split
  · omega
  split
  · omega
  split <;> omega

theorem scalar_one (rest : Bytes) (small : a < 0x80) :
    scalar (a.toUInt8 :: rest) = .char (Char.ofNat a) 1 := by
  simp only [scalar, toNat_toUInt8 (show a < 256 by omega), if_pos small]

theorem scalar_two (rest : Bytes) (low : 0xC2 ≤ a) (high : a < 0xE0) (low' : 0x80 ≤ b)
    (high' : b ≤ 0xBF) :
    scalar (a.toUInt8 :: b.toUInt8 :: rest) =
      .char (Char.ofNat (a % 32 * 64 + b % 64)) 2 := by
  simp only [scalar, toNat_toUInt8 (show a < 256 by omega), toNat_toUInt8 (show b < 256 by omega),
    isContinuation_toUInt8 low' high']
  rw [if_neg (by omega), if_neg (by simp; omega), if_pos high, if_pos trivial]

theorem scalar_three (rest : Bytes) (low : 0xE0 ≤ a) (high : a < 0xF0)
    (low' : (secondBounds a).1 ≤ b) (high' : b ≤ (secondBounds a).2) (small : b < 256)
    (low'' : 0x80 ≤ c) (high'' : c ≤ 0xBF) :
    scalar (a.toUInt8 :: b.toUInt8 :: c.toUInt8 :: rest) =
      .char (Char.ofNat ((a % 16 * 64 + b % 64) * 64 + c % 64)) 3 := by
  have fits : secondFits a b.toUInt8 = true := by
    simp [secondFits, toNat_toUInt8 small, low', high']
  simp only [scalar, scalarTail, toNat_toUInt8 (show a < 256 by omega), toNat_toUInt8 small,
    toNat_toUInt8 (show c < 256 by omega), isContinuation_toUInt8 low'' high'', fits]
  rw [if_neg (by omega), if_neg (by simp; omega), if_neg (by omega), if_neg (by simp),
    if_pos high, if_pos trivial]

theorem scalar_four (rest : Bytes) (low : 0xF0 ≤ a) (high : a ≤ 0xF4)
    (low' : (secondBounds a).1 ≤ b) (high' : b ≤ (secondBounds a).2) (small : b < 256)
    (low'' : 0x80 ≤ c) (high'' : c ≤ 0xBF) (last : 0x80 ≤ d) (last' : d ≤ 0xBF) :
    scalar (a.toUInt8 :: b.toUInt8 :: c.toUInt8 :: d.toUInt8 :: rest) =
      .char (Char.ofNat (((a % 8 * 64 + b % 64) * 64 + c % 64) * 64 + d % 64)) 4 := by
  have fits : secondFits a b.toUInt8 = true := by
    simp [secondFits, toNat_toUInt8 small, low', high']
  simp only [scalar, scalarTail, toNat_toUInt8 (show a < 256 by omega), toNat_toUInt8 small,
    toNat_toUInt8 (show c < 256 by omega), toNat_toUInt8 (show d < 256 by omega),
    isContinuation_toUInt8 low'' high'', isContinuation_toUInt8 last last', fits]
  rw [if_neg (by omega), if_neg (by simp; omega), if_neg (by omega), if_neg (by simp),
    if_neg (by omega), if_pos trivial, if_pos trivial]

/-- The code of a character is no surrogate. -/
theorem toNat_valid (c : Char) : c.toNat < 0xD800 ∨ (0xDFFF < c.toNat ∧ c.toNat < 0x110000) :=
  c.valid

/-- A character is read whole from its own bytes. -/
theorem scalar_charBytes (c : Char) (rest : Bytes) :
    scalar (charBytes c ++ rest) = .char c (charBytes c).length := by
  have valid := toNat_valid c
  have whole : ∀ {n : Nat}, n = c.toNat → Char.ofNat n = c := by
    rintro n rfl
    exact Char.ofNat_toNat c
  simp only [charBytes]
  split
  · rename_i small
    rw [List.singleton_append, scalar_one rest small, Char.ofNat_toNat]
    rfl
  split
  · rw [List.cons_append, List.singleton_append,
      scalar_two rest (by omega) (by omega) (by omega) (by omega), whole (by omega)]
    rfl
  split
  · have bounds : (secondBounds (0xE0 + c.toNat / 4096)).1 ≤ 0x80 + c.toNat / 64 % 64 ∧
        0x80 + c.toNat / 64 % 64 ≤ (secondBounds (0xE0 + c.toNat / 4096)).2 :=
      secondBounds_fits (by omega) (by omega) (by omega) (by omega) (by omega) (by omega)
    rw [List.cons_append, List.cons_append, List.singleton_append,
      scalar_three rest (by omega) (by omega) bounds.1 bounds.2 (by omega) (by omega) (by omega),
      whole (by omega)]
    rfl
  · have bounds : (secondBounds (0xF0 + c.toNat / 262144)).1 ≤ 0x80 + c.toNat / 4096 % 64 ∧
        0x80 + c.toNat / 4096 % 64 ≤ (secondBounds (0xF0 + c.toNat / 262144)).2 :=
      secondBounds_fits (by omega) (by omega) (by omega) (by omega) (by omega) (by omega)
    rw [List.cons_append, List.cons_append, List.cons_append, List.singleton_append,
      scalar_four rest (by omega) (by omega) bounds.1 bounds.2 (by omega) (by omega) (by omega)
        (by omega) (by omega), whole (by omega)]
    rfl

theorem length_charBytes_pos (c : Char) : 0 < (charBytes c).length := by
  simp only [charBytes]
  split
  · exact Nat.succ_pos 0
  split
  · exact Nat.succ_pos 1
  split
  · exact Nat.succ_pos 2
  · exact Nat.succ_pos 3

theorem length_le_flatMap_charBytes (cs : List Char) :
    cs.length ≤ (cs.flatMap charBytes).length := by
  induction cs with
  | nil => exact Nat.le_refl 0
  | cons c cs ih =>
    have positive := length_charBytes_pos c
    rw [List.flatMap_cons, List.length_append, List.length_cons]
    omega

/-- Characters are decoded from their own bytes, each for a unit of fuel, and decoding goes on
behind them. -/
theorem decodeFrom_append (cs before : List Char) (tail : Bytes) {fuel : Nat} (index : Nat)
    (enough : cs.length ≤ fuel) :
    decodeFrom fuel index (cs.flatMap charBytes ++ tail) before.reverse =
      decodeFrom (fuel - cs.length) (index + (cs.flatMap charBytes).length) tail
        (before ++ cs).reverse := by
  induction cs generalizing before fuel index with
  | nil => simp
  | cons c cs ih =>
    rw [List.length_cons] at enough
    obtain ⟨fuel, rfl⟩ := Nat.exists_eq_succ_of_ne_zero (show fuel ≠ 0 by omega)
    have onward := ih (before ++ [c]) (index + (charBytes c).length) (Nat.le_of_succ_le_succ enough)
    rw [List.reverse_append, List.reverse_singleton, List.singleton_append, List.append_assoc,
      List.singleton_append] at onward
    obtain ⟨first, others, bytes⟩ : ∃ first others, charBytes c = first :: others :=
      List.exists_cons_of_length_pos (length_charBytes_pos c)
    have front := scalar_charBytes c (cs.flatMap charBytes ++ tail)
    rw [List.flatMap_cons, List.append_assoc, List.length_append, List.length_cons,
      Nat.succ_sub_succ, ← Nat.add_assoc]
    rw [bytes, List.cons_append] at front ⊢
    rw [decodeFrom, front, ← List.cons_append, ← bytes]
    · simpa only [List.drop_left] using onward
    · simp

/-- A fault at the front ends decoding there. -/
theorem decodeFrom_faulty {bytes : Bytes} {size : Nat} (refused : scalar bytes = .faulty size)
    (fuel index : Nat) (acc : List Char) :
    decodeFrom (fuel + 1) index bytes acc = .error (.invalid size index) := by
  cases bytes with
  | nil => cases refused
  | cons b others =>
    rw [decodeFrom, refused]
    simp

/-- Decoding undoes encoding. -/
theorem decodeUtf8_encodeUtf8 (s : String) : decodeUtf8 (encodeUtf8 s) = .ok s := by
  have decoded := decodeFrom_append s.toList [] [] 0 (length_le_flatMap_charBytes s.toList)
  rw [List.append_nil, List.nil_append, List.reverse_nil] at decoded
  rw [decodeUtf8, encodeUtf8, decoded, decodeFrom, List.reverse_reverse, Except.map,
    String.ofList_toList]

end Linkage.Text
