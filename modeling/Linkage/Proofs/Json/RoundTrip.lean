import Linkage.Json.Reader

/-!
Compact JSON is read back as it was written. A string ends where its own closing quote stands,
whatever it holds, and so does everything that is made of strings; numbers are left out, since a
number goes on as long as digits follow.
-/
namespace Linkage.Json

/-- A value without numbers. -/
inductive Textual : Json → Prop
  | null : Textual .null
  | bool (b : Bool) : Textual (.bool b)
  | string (s : String) : Textual (.string s)
  | array {xs : List Json} (all : ∀ x ∈ xs, Textual x) : Textual (.array xs)
  | object {fs : List (String × Json)} (all : ∀ f ∈ fs, Textual f.2) : Textual (.object fs)

theorem Textual.strings (xs : List String) : Textual (.strings xs) := by
  refine .array ?_
  intro x member
  obtain ⟨s, _, rfl⟩ := List.mem_map.mp member
  exact .string s

theorem toList_quote (s : String) :
    (quote s).toList = '"' :: (s.toList.flatMap escapeChar ++ ['"']) := by
  simp [quote]

theorem toList_compact_array (xs : List Json) :
    (compact (.array xs)).toList = '[' :: ((compactItems xs).toList ++ [']']) := by
  simp [compact]

theorem toList_compact_object (fs : List (String × Json)) :
    (compact (.object fs)).toList = '\x7b' :: ((compactFields fs).toList ++ ['\x7d']) := by
  simp [compact]

theorem compactItems_singleton (x : Json) : compactItems [x] = compact x := by
  simp [compactItems]

theorem compactItems_cons (x y : Json) (xs : List Json) :
    (compactItems (x :: y :: xs)).toList =
      (compact x).toList ++ ',' :: (compactItems (y :: xs)).toList := by
  simp [compactItems]

theorem compactFields_singleton (f : String × Json) :
    (compactFields [f]).toList = (quote f.1).toList ++ ':' :: (compact f.2).toList := by
  simp [compactFields]

theorem compactFields_cons (f g : String × Json) (fs : List (String × Json)) :
    (compactFields (f :: g :: fs)).toList =
      (quote f.1).toList ++
        ':' :: ((compact f.2).toList ++ ',' :: (compactFields (g :: fs)).toList) := by
  simp [compactFields]

namespace Reader

theorem hexValue?_hexDigit : ∀ n < 16, hexValue? (hexDigit n) = some n := by decide

theorem hex4?_hexDigit {n : Nat} (small : n < 32) :
    hex4? '0' '0' (hexDigit (n / 16)) (hexDigit (n % 16)) = some n := by
  have zero : hexValue? '0' = some 0 := by decide
  have high := hexValue?_hexDigit (n / 16) (by omega)
  have low := hexValue?_hexDigit (n % 16) (by omega)
  simp only [hex4?, zero, high, low]
  show some _ = some n
  congr 1
  omega

/-- Any character is read back from its escaped form, and reading goes on behind it. -/
theorem stringBody_escapeChar (c : Char) (rest acc : List Char) :
    stringBody (escapeChar c ++ rest) none acc = stringBody rest none (c :: acc) := by
  unfold escapeChar
  split
  · subst c; simp [stringBody, escaped?]
  split
  · subst c; simp [stringBody, escaped?]
  split
  · subst c; simp [stringBody, escaped?]
  split
  · subst c; simp [stringBody, escaped?]
  split
  · subst c; simp [stringBody, escaped?]
  split
  · rename_i code
    have same : Char.ofNat 8 = c := code ▸ Char.ofNat_toNat c
    simp only [List.cons_append, List.nil_append]
    rw [stringBody.eq_def, ← same]
    simp [escaped?]
  split
  · rename_i code
    have same : Char.ofNat 12 = c := code ▸ Char.ofNat_toNat c
    simp only [List.cons_append, List.nil_append]
    rw [stringBody.eq_def, ← same]
    simp [escaped?]
  split
  · rename_i small
    simp only [List.cons_append, List.nil_append]
    rw [stringBody.eq_def]
    simp only [hex4?_hexDigit small]
    rw [if_neg (by omega), if_neg (by omega), Char.ofNat_toNat]
  · rename_i quote slash _ _ _ _ _ large
    simp only [List.cons_append, List.nil_append]
    simp [stringBody, slash, large]

theorem stringBody_flatMap (cs rest acc : List Char) :
    stringBody (cs.flatMap escapeChar ++ '"' :: rest) none acc =
      some (String.ofList (acc.reverse ++ cs), rest) := by
  induction cs generalizing acc with
  | nil => simp [stringBody]
  | cons c cs ih =>
    rw [List.flatMap_cons, List.append_assoc, stringBody_escapeChar, ih]
    simp

theorem string_quote (s : String) (rest : List Char) :
    string ((quote s).toList ++ rest) = some (s, rest) := by
  rw [toList_quote, List.cons_append, List.append_assoc]
  show stringBody _ none [] = _
  rw [List.singleton_append, stringBody_flatMap]
  simp

theorem skipSpace_cons {c : Char} (cs : List Char) (solid : isSpace c = false) :
    skipSpace (c :: cs) = c :: cs := by
  simp [skipSpace, solid]

theorem skipSpace_quote (s : String) (rest : List Char) :
    skipSpace ((quote s).toList ++ rest) = (quote s).toList ++ rest := by
  rw [toList_quote, List.cons_append]
  exact skipSpace_cons _ rfl

/-- A value without numbers starts neither with space nor with the end of an array. -/
theorem starts_of_textual {v : Json} (textual : Textual v) :
    ∃ c cs, (compact v).toList = c :: cs ∧ isSpace c = false ∧ c ≠ ']' := by
  cases textual with
  | null => exact ⟨'n', "ull".toList, by simp [compact], by decide, by decide⟩
  | bool b =>
    cases b with
    | true => exact ⟨'t', "rue".toList, by simp [compact], by decide, by decide⟩
    | false => exact ⟨'f', "alse".toList, by simp [compact], by decide, by decide⟩
  | string s =>
    exact ⟨'"', _, by rw [compact, toList_quote], by decide, by decide⟩
  | array => exact ⟨'[', _, toList_compact_array _, by decide, by decide⟩
  | object => exact ⟨'\x7b', _, toList_compact_object _, by decide, by decide⟩

theorem items_start {x : Json} {xs : List Json} (all : ∀ y ∈ x :: xs, Textual y) :
    ∃ c cs, (compactItems (x :: xs)).toList = c :: cs ∧ isSpace c = false ∧ c ≠ ']' := by
  obtain ⟨c, cs, starts, solid, other⟩ := starts_of_textual (all x List.mem_cons_self)
  cases xs with
  | nil => exact ⟨c, cs, by rw [compactItems_singleton, starts], solid, other⟩
  | cons y ys => exact ⟨c, _, by rw [compactItems_cons, starts, List.cons_append], solid, other⟩

theorem fields_start (f : String × Json) (fs : List (String × Json)) :
    ∃ cs, (compactFields (f :: fs)).toList = '"' :: cs := by
  cases fs with
  | nil => exact ⟨_, by rw [compactFields_singleton, toList_quote, List.cons_append]⟩
  | cons g gs => exact ⟨_, by rw [compactFields_cons, toList_quote, List.cons_append]⟩

/-- A value is read back from its compact form, whatever follows, if the fuel exceeds its length. -/
def ReadsBack (v : Json) : Prop :=
  ∀ rest fuel, (compact v).toList.length < fuel →
    value fuel ((compact v).toList ++ rest) = some (v, rest)

theorem items_compactItems {x : Json} {xs : List Json} (all : ∀ y ∈ x :: xs, ReadsBack y)
    (rest : List Char) (fuel : Nat) (enough : (compactItems (x :: xs)).toList.length + 1 < fuel) :
    items fuel ((compactItems (x :: xs)).toList ++ ']' :: rest) = some (x :: xs, rest) := by
  induction xs generalizing x fuel with
  | nil =>
    obtain ⟨fuel, rfl⟩ : ∃ n, fuel = n + 1 := ⟨fuel - 1, by omega⟩
    rw [compactItems_singleton] at enough ⊢
    have first := all x List.mem_cons_self (']' :: rest) fuel (by omega)
    rw [items, first]
    simp [skipSpace, isSpace]
  | cons y ys ih =>
    obtain ⟨fuel, rfl⟩ : ∃ n, fuel = n + 1 := ⟨fuel - 1, by omega⟩
    rw [compactItems_cons] at enough ⊢
    simp only [List.length_append, List.length_cons] at enough
    have first := all x List.mem_cons_self
      (',' :: ((compactItems (y :: ys)).toList ++ ']' :: rest)) fuel (by omega)
    have others := ih (fun z member => all z (List.mem_cons_of_mem _ member)) fuel (by omega)
    rw [List.append_assoc, List.cons_append, items, first]
    simp [skipSpace, isSpace, others]

theorem members_compactFields {f : String × Json} {fs : List (String × Json)}
    (all : ∀ g ∈ f :: fs, ReadsBack g.2) (rest : List Char) (fuel : Nat)
    (enough : (compactFields (f :: fs)).toList.length + 1 < fuel) :
    members fuel ((compactFields (f :: fs)).toList ++ '\x7d' :: rest) = some (f :: fs, rest) := by
  induction fs generalizing f fuel with
  | nil =>
    obtain ⟨fuel, rfl⟩ : ∃ n, fuel = n + 1 := ⟨fuel - 1, by omega⟩
    rw [compactFields_singleton] at enough ⊢
    simp only [List.length_append, List.length_cons] at enough
    have first := all f List.mem_cons_self ('\x7d' :: rest) fuel (by omega)
    rw [List.append_assoc, members, skipSpace_quote, string_quote]
    simp [skipSpace, isSpace, first]
  | cons g gs ih =>
    obtain ⟨fuel, rfl⟩ : ∃ n, fuel = n + 1 := ⟨fuel - 1, by omega⟩
    rw [compactFields_cons] at enough ⊢
    simp only [List.length_append, List.length_cons] at enough
    have first := all f List.mem_cons_self
      (',' :: ((compactFields (g :: gs)).toList ++ '\x7d' :: rest)) fuel (by omega)
    have others := ih (fun z member => all z (List.mem_cons_of_mem _ member)) fuel (by omega)
    rw [List.append_assoc, members, skipSpace_quote, string_quote]
    simp [skipSpace, isSpace, first, others]

theorem word_append (w : String) (v : Json) (rest : List Char) :
    word w v (w.toList ++ rest) = some (v, rest) := by
  have strip (cs : List Char) : cs.isPrefixOf? (cs ++ rest) = some rest := by
    induction cs with
    | nil => rfl
    | cons c cs ih =>
      show (if c == c then cs.isPrefixOf? (cs ++ rest) else none) = some rest
      rw [if_pos (beq_self_eq_true c), ih]
  rw [word, strip]
  rfl

theorem readsBack_of_textual {v : Json} (textual : Textual v) : ReadsBack v := by
  induction textual with
  | null =>
    intro rest fuel enough
    obtain ⟨fuel, rfl⟩ : ∃ n, fuel = n + 1 := ⟨fuel - 1, by omega⟩
    simpa [compact, value, skipSpace, isSpace] using word_append "ull" .null rest
  | bool b =>
    intro rest fuel enough
    obtain ⟨fuel, rfl⟩ : ∃ n, fuel = n + 1 := ⟨fuel - 1, by omega⟩
    cases b with
    | true =>
      simpa [compact, value, skipSpace, isSpace] using word_append "rue" (.bool true) rest
    | false =>
      simpa [compact, value, skipSpace, isSpace] using word_append "alse" (.bool false) rest
  | string s =>
    intro rest fuel enough
    obtain ⟨fuel, rfl⟩ : ∃ n, fuel = n + 1 := ⟨fuel - 1, by omega⟩
    have body := stringBody_flatMap s.toList rest []
    rw [compact, value, skipSpace_quote, toList_quote]
    simp [body]
  | @array xs all ih =>
    intro rest fuel enough
    obtain ⟨fuel, rfl⟩ : ∃ n, fuel = n + 1 := ⟨fuel - 1, by omega⟩
    rw [toList_compact_array] at enough ⊢
    rw [List.cons_append, value, skipSpace_cons _ (by decide)]
    cases xs with
    | nil => simp [compactItems, skipSpace, isSpace]
    | cons x xs =>
      obtain ⟨c, cs, starts, solid, other⟩ := items_start (fun y member => all y member)
      have read := items_compactItems ih rest fuel (by
        simp only [List.length_cons, List.length_append, List.length_nil] at enough
        omega)
      rw [List.append_assoc, List.singleton_append]
      rw [starts, List.cons_append] at read ⊢
      simp [skipSpace_cons _ solid, other, read]
  | @object fs all ih =>
    intro rest fuel enough
    obtain ⟨fuel, rfl⟩ : ∃ n, fuel = n + 1 := ⟨fuel - 1, by omega⟩
    rw [toList_compact_object] at enough ⊢
    rw [List.cons_append, value, skipSpace_cons _ (by decide)]
    cases fs with
    | nil => simp [compactFields, skipSpace, isSpace]
    | cons f fs =>
      obtain ⟨cs, starts⟩ := fields_start f fs
      have read := members_compactFields ih rest fuel (by
        simp only [List.length_cons, List.length_append, List.length_nil] at enough
        omega)
      rw [List.append_assoc, List.singleton_append]
      rw [starts, List.cons_append] at read ⊢
      simp [skipSpace_cons, isSpace, read]

/-- A line that holds a value without numbers is read as that value. -/
theorem read?_line {v : Json} (textual : Textual v) : Json.read? (compact v ++ "\n") = some v := by
  have enough : (compact v).toList.length < fuelFor (compact v ++ "\n").toList := by
    simp only [fuelFor, String.toList_append, List.length_append]
    omega
  have whole := readsBack_of_textual textual ['\n'] _ enough
  have line : (compact v).toList ++ ['\n'] = (compact v ++ "\n").toList := by simp
  rw [line] at whole
  simp only [Json.read?, whole]
  rfl

end Reader

end Linkage.Json
