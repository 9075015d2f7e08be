import Mathlib.Data.List.Basic

/-!
Runs of characters of one kind. A run ends where a character of another kind follows, so it can be
told from what stands behind it or before it. Numbers are runs of digits, and they are known by
their digits.
-/
namespace Linkage.Text

/-- Where a run ends can be seen. -/
theorem run_append_inj {p : Char → Bool} {xs ys as bs : List Char} (left : ∀ c ∈ xs, p c = true)
    (right : ∀ c ∈ ys, p c = true) (ends : ∀ c ∈ as.head?, p c = false)
    (ends' : ∀ c ∈ bs.head?, p c = false) (same : xs ++ as = ys ++ bs) : xs = ys ∧ as = bs := by
  have front {xs as : List Char} (run : ∀ c ∈ xs, p c = true) (ends : ∀ c ∈ as.head?, p c = false) :
      (xs ++ as).takeWhile p = xs := by
    rw [List.takeWhile_append_of_pos run]
    cases as with
    | nil => rw [List.takeWhile_nil, List.append_nil]
    | cons c as => rw [List.takeWhile_cons, ends c rfl, if_neg Bool.false_ne_true, List.append_nil]
  have runs : xs = ys := by rw [← front left ends, same, front right ends']
  subst runs
  exact ⟨rfl, List.append_cancel_left same⟩

section Numbers
variable {s t : String} {m n : Nat}

theorem isDigit_of_mem_toString {c : Char} (inside : c ∈ (toString n).toList) :
    c.isDigit = true := by
  rw [Nat.toString_eq_repr, Nat.toList_repr] at inside
  exact Nat.isDigit_of_mem_toDigits (by decide) (by decide) inside

theorem not_mem_toString {c : Char} (other : c.isDigit = false) : c ∉ (toString n).toList := by
  intro inside
  rw [isDigit_of_mem_toString inside] at other
  cases other

/-- A number is known by its digits. -/
theorem eq_of_toList_toString (same : (toString m).toList = (toString n).toList) : m = n := by
  rw [Nat.toString_eq_repr, Nat.toList_repr, Nat.toString_eq_repr, Nat.toList_repr] at same
  have read := congrArg (Nat.ofDigitChars 10 · 0) same
  rwa [Nat.ofDigitChars_ten_toDigits, Nat.ofDigitChars_ten_toDigits] at read

/-- A text that does not go on with a digit. -/
def Undigited (s : String) : Prop := ∀ c ∈ s.toList.head?, c.isDigit = false

/-- A text that no number ends. -/
def Unnumbered (s : String) : Prop := ∀ c ∈ s.toList.getLast?, c.isDigit = false

theorem unnumbered_append (written : t ≠ "") (plain : Unnumbered t) : Unnumbered (s ++ t) := by
  rw [Unnumbered, String.toList_append,
    List.getLast?_append_of_ne_nil _ (mt String.toList_eq_nil_iff.mp written)]
  exact plain

theorem not_unnumbered_append_toString (s : String) (n : Nat) :
    ¬ Unnumbered (s ++ toString n) := by
  have written : (toString n).toList ≠ [] := by
    rw [Nat.toString_eq_repr, Nat.toList_repr]
    exact Nat.toDigits_ne_nil
  intro plain
  rw [Unnumbered, String.toList_append, List.getLast?_append_of_ne_nil _ written,
    List.getLast?_eq_getLast_of_ne_nil written] at plain
  have digit := isDigit_of_mem_toString (List.getLast_mem written)
  rw [plain _ rfl] at digit
  cases digit

/-- Where a number ends can be seen. -/
theorem toString_append_inj (left : Undigited s) (right : Undigited t)
    (same : toString m ++ s = toString n ++ t) : m = n ∧ s = t := by
  have chars := congrArg String.toList same
  rw [String.toList_append, String.toList_append] at chars
  obtain ⟨number, rest⟩ := run_append_inj (fun _ => isDigit_of_mem_toString)
    (fun _ => isDigit_of_mem_toString) left right chars
  exact ⟨eq_of_toList_toString number, String.toList_inj.mp rest⟩

/-- And where it begins, read from its end. -/
theorem append_toString_inj (left : Unnumbered s) (right : Unnumbered t)
    (same : s ++ toString m = t ++ toString n) : s = t ∧ m = n := by
  have digit {n : Nat} {c : Char} (inside : c ∈ (toString n).toList.reverse) : c.isDigit = true :=
    isDigit_of_mem_toString (List.mem_reverse.mp inside)
  have chars := congrArg (·.toList.reverse) same
  simp only [String.toList_append, List.reverse_append] at chars
  obtain ⟨number, rest⟩ := run_append_inj (fun _ => digit) (fun _ => digit)
    (List.head?_reverse ▸ left) (List.head?_reverse ▸ right) chars
  exact ⟨String.toList_inj.mp (List.reverse_injective rest),
    eq_of_toList_toString (List.reverse_injective number)⟩

end Numbers

end Linkage.Text
