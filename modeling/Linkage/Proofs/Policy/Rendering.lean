import Linkage.Policy.Effective
import Linkage.Proofs.Text.Distinct
import Linkage.Proofs.Text.Parts

/-!
The text of a setting's value. It is read as the value under the same setting, and so it can stand
in a policy file in place of whatever the value was read from, in another case, with blanks around
it, under another name or with elements that count for nothing.
-/
namespace Linkage.Policy

open Text (parts IsPart)

section Lists
variable {raw : String} {xs : List String}

/-- The elements of a list: the parts of the text, each one once and where it stands first. -/
structure Lists (raw : String) (xs : List String) : Prop where
  mem_iff : ∀ x, x ∈ xs ↔ x ∈ parts ',' raw
  nonempty : ∀ x ∈ xs, x ≠ ""
  clear : ∀ x ∈ xs, Text.Clear x
  once : xs.Nodup
  ordered : xs.Pairwise fun x y => (parts ',' raw).idxOf x < (parts ',' raw).idxOf y

theorem readList_eq (raw : String) : readList raw = Text.distinct (parts ',' raw) := rfl

theorem isPart_of_mem_readList {x : String} (inside : x ∈ readList raw) : IsPart ',' x :=
  Text.isPart_of_mem (Text.mem_distinct.mp inside)

theorem lists_readList (raw : String) : Lists raw (readList raw) where
  mem_iff _ := Text.mem_distinct
  nonempty _ inside := (isPart_of_mem_readList inside).nonempty
  clear _ inside := (isPart_of_mem_readList inside).clear
  once := Text.nodup_distinct _
  ordered := Text.pairwise_distinct _

theorem readList_intercalate (raw : String) :
    readList (String.intercalate "," (readList raw)) = readList raw := by
  have whole : parts ',' (String.intercalate "," (readList raw)) = readList raw :=
    Text.parts_intercalate fun x => isPart_of_mem_readList
  rw [readList_eq, whole, Text.distinct_eq_self (lists_readList raw).once]

end Lists

namespace Setting
variable {k : Setting} {raw : String} {value : SettingValue}

/-- The text of a value is read as the value. -/
theorem read_text (read : k.read raw = .ok (some value)) :
    k.read value.text = .ok (some value) := by
  cases k with
  | mode | isolation | scope | ackRisk | approvalRequired =>
    -- There are finitely many values, and each has a text of its own.
    simp only [Setting.read] at read
    split at read
    · rename_i word _
      obtain rfl := Option.some.inj (Except.ok.inj read)
      cases word <;> decide +kernel
    · cases read
  | approvalToken =>
    simp only [Setting.read] at read
    split at read
    · cases read
    · rename_i written
      obtain rfl := Option.some.inj (Except.ok.inj read)
      simp only [Setting.read, SettingValue.text, Text.trim_eq_self (Text.clear_trim raw),
        if_neg written]
  | _ =>
    obtain rfl := Option.some.inj (Except.ok.inj read)
    simp only [Setting.read, SettingValue.text, readList_intercalate]

theorem lists_of_read {xs : List String} (read : k.read raw = .ok (some (.names xs))) :
    Lists raw xs := by
  cases k with
  | mode | isolation | scope | ackRisk | approvalRequired | approvalToken =>
    simp only [Setting.read] at read
    split at read <;> cases read
  | _ =>
    cases read
    exact lists_readList raw

theorem ofName?_name (k : Setting) : ofName? k.name = some k := by
  cases k <;> decide +kernel

theorem eq_of_ofName? {name : String} (found : ofName? name = some k) : k.name = name := by
  simpa using List.find?_some found

/-- What is read is of the kind that the setting has. -/
theorem get?_put {s : Settings} {value : Option SettingValue} (read : k.read raw = .ok value) :
    (s.put k value).get? k = value := by
  cases k with
  | approvalToken =>
    simp only [Setting.read] at read
    split at read <;> obtain rfl := Except.ok.inj read <;> rfl
  | mode | isolation | scope | ackRisk | approvalRequired =>
    simp only [Setting.read] at read
    split at read
    · obtain rfl := Except.ok.inj read
      rfl
    · cases read
  | _ =>
    obtain rfl := Except.ok.inj read
    rfl

theorem get?_put_of_ne {s : Settings} {other : Setting} (different : other ≠ k)
    (value : Option SettingValue) : (s.put other value).get? k = s.get? k := by
  unfold Settings.put
  split <;> cases k <;> first | rfl | exact absurd rfl different

end Setting

namespace Settings
variable {k : Setting} {raw : String} {s t : Settings} {pair : String × String}

theorem putPair_key (s : Settings) (k : Setting) (raw : String) : s.putPair (k.key, raw) =
    match k.read raw with
    | .ok value => .ok (s.put k value)
    | .error expected => .error ⟨k, raw, expected⟩ := by
  have named : Text.stripStart? Setting.lead k.key = some k.name :=
    Text.stripStart?_eq_some_iff.mpr rfl
  cases outcome : k.read raw <;>
    simp only [putPair, named, Option.bind_some, Setting.ofName?_name, outcome]

theorem get?_putPair_of_ne (accepted : s.putPair pair = .ok t) (other : pair.1 ≠ k.key) :
    t.get? k = s.get? k := by
  rw [putPair] at accepted
  split at accepted
  · rw [Except.ok.inj accepted]
  · rename_i found named
    obtain ⟨name, stripped, known⟩ := Option.bind_eq_some_iff.mp named
    have different : found ≠ k := by
      rintro rfl
      rw [Text.stripStart?_eq_some_iff] at stripped
      exact other (by rw [stripped, Setting.key, Setting.eq_of_ofName? known])
    split at accepted
    · rw [← Except.ok.inj accepted]
      exact Setting.get?_put_of_ne different _
    · cases accepted

theorem get?_foldlM_of_ne {pairs : List (String × String)}
    (accepted : pairs.foldlM putPair s = .ok t) (others : ∀ pair ∈ pairs, pair.1 ≠ k.key) :
    t.get? k = s.get? k := by
  induction pairs generalizing s with
  | nil => rw [Except.ok.inj accepted]
  | cons pair pairs ih =>
    obtain ⟨other, others⟩ := List.forall_mem_cons.mp others
    rw [List.foldlM_cons] at accepted
    cases first : s.putPair pair with
    | error fault =>
      rw [first] at accepted
      cases accepted
    | ok u =>
      rw [first] at accepted
      rw [ih accepted others, get?_putPair_of_ne first other]

/-- The last value under a key is the one that is stored. -/
theorem read_of_stored {before after : List (String × String)}
    (accepted : ofPairs (before ++ (k.key, raw) :: after) = .ok s)
    (last : ∀ pair ∈ after, pair.1 ≠ k.key) : k.read raw = .ok (s.get? k) := by
  rw [ofPairs, List.foldlM_append] at accepted
  cases first : before.foldlM putPair {} with
  | error fault =>
    rw [first] at accepted
    cases accepted
  | ok t =>
    rw [first] at accepted
    change ((k.key, raw) :: after).foldlM putPair t = .ok s at accepted
    rw [List.foldlM_cons, putPair_key] at accepted
    cases read : k.read raw with
    | error expected =>
      rw [read] at accepted
      cases accepted
    | ok value =>
      rw [read] at accepted
      rw [get?_foldlM_of_ne accepted last, Setting.get?_put read]

end Settings

/-- The text of a stored value does in place of what the value was read from: it is accepted there
and leaves all settings as they are, and by itself it states the value again. A stored list holds
the parts of what it was read from, none of them blank, untrimmed or twice, in the order in which
they first occur. -/
theorem text_reread {before after : List (String × String)} {k : Setting} {raw : String}
    {s : Settings} {value : SettingValue}
    (accepted : Settings.ofPairs (before ++ (k.key, raw) :: after) = .ok s)
    (last : ∀ pair ∈ after, pair.1 ≠ k.key) (stored : s.get? k = some value) :
    Settings.ofPairs (before ++ (k.key, value.text) :: after) = .ok s ∧
    (∃ t, Settings.ofPairs [(k.key, value.text)] = .ok t ∧ t.get? k = some value) ∧
    ∀ xs, value = .names xs → Lists raw xs := by
  have read : k.read raw = .ok (some value) := stored ▸ Settings.read_of_stored accepted last
  have reread := Setting.read_text read
  have same : ∀ t : Settings, t.putPair (k.key, value.text) = t.putPair (k.key, raw) := by
    intro t
    rw [Settings.putPair_key, Settings.putPair_key, read, reread]
  refine ⟨?_, ⟨({} : Settings).put k (some value), ?_, Setting.get?_put reread⟩, ?_⟩
  · rw [← accepted, Settings.ofPairs, Settings.ofPairs, List.foldlM_append, List.foldlM_append]
    simp only [List.foldlM_cons, same]
  · rw [Settings.ofPairs, List.foldlM_cons, Settings.putPair_key, reread]
    rfl
  · rintro xs rfl
    exact Setting.lists_of_read read

/-- Two roles, one of them written twice. -/
private def staff : Settings :=
  { mode := some .broad, actorRoles := some ["admin", "ops"], ackRisk := some true }

theorem text_reread_staff :
    Settings.ofPairs ([("interop.policy", "broad")] ++
        (Setting.actorRoles.key, " admin, ops ,,admin,") :: [("interop.ackRisk", " TRUE ")]) =
      .ok staff ∧
    staff.get? .actorRoles = some (.names ["admin", "ops"]) ∧
    Settings.ofPairs ([("interop.policy", "broad")] ++
        (Setting.actorRoles.key, "admin,ops") :: [("interop.ackRisk", " TRUE ")]) = .ok staff ∧
    Lists " admin, ops ,,admin," ["admin", "ops"] := by
  have accepted : Settings.ofPairs ([("interop.policy", "broad")] ++
      (Setting.actorRoles.key, " admin, ops ,,admin,") :: [("interop.ackRisk", " TRUE ")]) =
        .ok staff := by
    decide +kernel
  have reread := text_reread accepted (by decide +kernel)
    (rfl : staff.get? .actorRoles = some (.names ["admin", "ops"]))
  exact ⟨accepted, rfl, reread.1, reread.2.2 _ rfl⟩

end Linkage.Policy
