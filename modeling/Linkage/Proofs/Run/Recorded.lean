import Linkage.Proofs.Call.Answered
import Linkage.Proofs.Text.Runs
import Linkage.Proofs.Text.Properties
import Linkage.Run.Artifact

/-!
What the artifact of a run records of the members that were bound. Each has an entry of five values
under a number of its own. Resolutions count as one member that agree in their target and their
descriptor, and only the first of them is recorded: a later one is found in the artifact just when
it has all five values in common with the first.
-/
namespace Linkage.Run.Artifact

open Call (Resolution)

section Get
variable {a : Artifact} {key value : String} {records : List (String × String)}

theorem get?_insert (a : Artifact) (key value asked : String) :
    (a.insert key value).get? asked = if key = asked then some value else a.get? asked :=
  Text.find?_putProperty key value a.records asked

theorem insertAll_cons (a : Artifact) (r : String × String) (rest : List (String × String)) :
    a.insertAll (r :: rest) = (a.insert r.1 r.2).insertAll rest := rfl

theorem get?_insertAll_of_absent (absent : ∀ r ∈ records, r.1 ≠ key) :
    (a.insertAll records).get? key = a.get? key := by
  induction records generalizing a with
  | nil => rfl
  | cons r rest ih =>
    obtain ⟨first, others⟩ := List.forall_mem_cons.mp absent
    rw [insertAll_cons, ih others, get?_insert, if_neg first]

/-- A value is found that no other record has the key of. -/
theorem get?_insertAll_of_mem (listed : (key, value) ∈ records)
    (only : ∀ other, (key, other) ∈ records → other = value) :
    (a.insertAll records).get? key = some value := by
  induction records generalizing a with
  | nil => cases listed
  | cons r rest ih =>
    rw [insertAll_cons]
    by_cases later : ∃ other, (key, other) ∈ rest
    · obtain ⟨other, inside⟩ := later
      have equal : other = value := only other (List.mem_cons_of_mem _ inside)
      exact ih (equal ▸ inside) fun other inside => only other (List.mem_cons_of_mem _ inside)
    · have absent : ∀ r ∈ rest, r.1 ≠ key := by
        rintro ⟨_, other⟩ inside rfl
        exact later ⟨other, inside⟩
      have own : (key, value) = r :=
        (List.mem_cons.mp listed).resolve_right fun inside => later ⟨value, inside⟩
      rw [get?_insertAll_of_absent absent, get?_insert, ← own, if_pos rfl]

theorem mem_listRecords {α : Type} {count lead : String}
    {item : String → α → List (String × String)} {xs : List α} {r : String × String} :
    r ∈ listRecords count lead item xs ↔
      r = (count, toString xs.length) ∨
        ∃ (i : Nat) (x : α), xs[i]? = some x ∧ r ∈ item (lead ++ toString i) x := by
  rw [listRecords, List.mem_cons, List.mem_flatMap]
  refine or_congr_right ⟨?_, ?_⟩
  · rintro ⟨⟨x, i⟩, place, inside⟩
    exact ⟨i, x, List.mem_zipIdx_iff_getElem?.mp place, inside⟩
  · rintro ⟨i, x, place, inside⟩
    exact ⟨(x, i), List.mem_zipIdx_iff_getElem?.mpr place, inside⟩

end Get

/-- What is recorded of a member that was bound. -/
structure Entry where
  target : String
  owner : String
  name : String
  descriptor : String
  instruction : String
  deriving DecidableEq

def entryOf (r : Resolution) : Entry :=
  ⟨r.target.text, r.owner, r.name, r.descriptor, r.instruction.text⟩

def countKey : String := "interopBridges.selectedTargetCount"

def entryLead : String := "interopBridges.selectedTarget."

def entryKey (i : Nat) : String := entryLead ++ toString i

/-- The entry under a number, if all five values are there. -/
def entryAt (a : Artifact) (i : Nat) : Option Entry := do
  let target ← a.get? (entryKey i ++ ".target")
  let owner ← a.get? (entryKey i ++ ".owner")
  let name ← a.get? (entryKey i ++ ".name")
  let descriptor ← a.get? (entryKey i ++ ".descriptor")
  let instruction ← a.get? (entryKey i ++ ".invokeKind")
  return ⟨target, owner, name, descriptor, instruction⟩

namespace Entry

/-- The values, each with the last part of its key. -/
def fields (e : Entry) : List (String × String) :=
  [(".target", e.target), (".owner", e.owner), (".name", e.name), (".descriptor", e.descriptor),
    (".invokeKind", e.instruction)]

def tails : List String := [".target", ".owner", ".name", ".descriptor", ".invokeKind"]

theorem map_fields (e : Entry) : e.fields.map (·.1) = tails := rfl

theorem field_unique {e : Entry} {tail left right : String} (one : (tail, left) ∈ e.fields)
    (other : (tail, right) ∈ e.fields) : left = right := by
  have distinct : (e.fields.map (·.1)).Nodup := by
    rw [map_fields]
    decide
  exact congrArg Prod.snd (List.inj_on_of_nodup_map distinct one other rfl)

theorem undigited_of_mem {tail : String} (known : tail ∈ tails) : Text.Undigited tail := by
  have dotted : ∀ tail ∈ tails, tail.toList.head? = some '.' := by decide
  intro c first
  rw [dotted tail known] at first
  cases first
  rfl

theorem undigited_tail {e : Entry} {f : String × String} (field : f ∈ e.fields) :
    Text.Undigited f.1 :=
  undigited_of_mem (map_fields e ▸ List.mem_map_of_mem field)

end Entry

section Keys
variable {a b : Artifact} {e : Entry} {i j : Nat}

theorem bindingRecords_eq (key : String) (r : Resolution) :
    bindingRecords key r = (entryOf r).fields.map fun f => (key ++ f.1, f.2) := rfl

theorem entryKey_append_inj {s t : String} (left : Text.Undigited s) (right : Text.Undigited t)
    (same : entryKey i ++ s = entryKey j ++ t) : i = j ∧ s = t := by
  rw [entryKey, entryKey, String.append_assoc, String.append_assoc, String.append_right_inj] at same
  exact Text.toString_append_inj left right same

/-- A key that does not begin as those of the entries do is none of them. -/
theorem entryKey_append_ne {key : String} (apart : ¬ entryLead.toList <+: key.toList) (i : Nat)
    (tail : String) : entryKey i ++ tail ≠ key := by
  rintro rfl
  rw [entryKey, String.append_assoc, String.toList_append] at apart
  exact apart (List.prefix_append _ _)

theorem entryAt_of_fields (held : ∀ f ∈ e.fields, a.get? (entryKey i ++ f.1) = some f.2) :
    a.entryAt i = some e := by
  simp only [Entry.fields, List.forall_mem_cons] at held
  obtain ⟨target, owner, name, descriptor, instruction, _⟩ := held
  rw [entryAt, target, owner, name, descriptor, instruction]
  rfl

theorem entryAt_congr (same : ∀ tail ∈ Entry.tails,
    a.get? (entryKey i ++ tail) = b.get? (entryKey i ++ tail)) : a.entryAt i = b.entryAt i := by
  simp only [Entry.tails, List.forall_mem_cons] at same
  obtain ⟨target, owner, name, descriptor, instruction, _⟩ := same
  rw [entryAt, entryAt, target, owner, name, descriptor, instruction]

theorem entryAt_start (stamp : String) (i : Nat) : (start stamp).entryAt i = none := by
  have unchanged : (start stamp).entryAt i = ({} : Artifact).entryAt i := by
    refine entryAt_congr fun tail _ => get?_insertAll_of_absent ?_
    simp only [List.forall_mem_cons, List.not_mem_nil, false_imp_iff, implies_true, and_true]
    have version : entryKey i ++ tail ≠ "formatVersion" := entryKey_append_ne (by decide) i tail
    have time : entryKey i ++ tail ≠ "generatedAt" := entryKey_append_ne (by decide) i tail
    exact ⟨version.symm, time.symm⟩
  exact unchanged

end Keys

section Selected
variable {chosen rs : List Resolution} {r s : Resolution}

theorem sameMember_iff : sameMember r s = true ↔
    r.target = s.target ∧ r.descriptor = s.descriptor := by
  rw [sameMember, Bool.and_eq_true, beq_iff_eq, beq_iff_eq]

theorem sameMember_self (r : Resolution) : sameMember r r = true := sameMember_iff.mpr ⟨rfl, rfl⟩

/-- What is selected is found as in the whole list. -/
theorem find?_selected (chosen rs : List Resolution) (r : Resolution) :
    (selected chosen rs).find? (sameMember · r) = (chosen ++ rs).find? (sameMember · r) := by
  induction rs generalizing chosen with
  | nil => rw [selected, List.append_nil]
  | cons first rest ih =>
    rw [selected]
    split
    · rename_i seen
      obtain ⟨earlier, inside, same⟩ := List.any_eq_true.mp seen
      rw [ih, List.find?_append, List.find?_append]
      cases found : chosen.find? (sameMember · r) with
      | some _ => rfl
      | none =>
        have other : ¬ sameMember first r = true := by
          intro stands
          refine List.find?_eq_none.mp found earlier inside ?_
          rw [sameMember_iff] at same stands ⊢
          exact ⟨same.1.trans stands.1, same.2.trans stands.2⟩
        rw [List.find?_cons_of_neg (p := (sameMember · r)) other]
    · rw [ih, List.append_assoc, List.singleton_append]

theorem pairwise_selected (distinct : chosen.Pairwise fun r s => sameMember r s = false) :
    (selected chosen rs).Pairwise fun r s => sameMember r s = false := by
  induction rs generalizing chosen with
  | nil => exact distinct
  | cons first rest ih =>
    rw [selected]
    split
    · exact ih distinct
    · rename_i unseen
      refine ih (List.pairwise_append.mpr ⟨distinct, List.pairwise_singleton _ _, ?_⟩)
      intro earlier inside last own
      rw [List.mem_singleton.mp own]
      exact Bool.eq_false_of_not_eq_true fun same =>
        unseen (List.any_eq_true.mpr ⟨earlier, inside, same⟩)

/-- The first resolution in a list that counts as the same member. -/
def first? (rs : List Resolution) (r : Resolution) : Option Resolution :=
  rs.find? fun s => s.target = r.target ∧ s.descriptor = r.descriptor

theorem first?_eq (rs : List Resolution) (r : Resolution) :
    first? rs r = (selected [] rs).find? (sameMember · r) := by
  rw [find?_selected, List.nil_append, first?]
  congr 1
  funext s
  exact Bool.eq_iff_iff.mpr (decide_eq_true_iff.trans sameMember_iff.symm)

theorem mem_selected_of_first? (first : first? rs r = some s) : s ∈ selected [] rs :=
  List.mem_of_find?_eq_some (first?_eq rs r ▸ first)

/-- No two that are selected count as one member. -/
theorem eq_of_sameMember (left : r ∈ selected [] rs) (right : s ∈ selected [] rs)
    (same : sameMember r s = true) : r = s := by
  have symmetric : Std.Symm fun r s => sameMember r s = false := by
    constructor
    intro r s apart
    rw [← Bool.not_eq_true, sameMember_iff] at apart ⊢
    rwa [eq_comm, eq_comm (a := s.descriptor)]
  by_contra differ
  rw [(pairwise_selected List.Pairwise.nil).forall left right differ] at same
  cases same

theorem sameMember_of_first? (first : first? rs r = some s) : sameMember s r = true :=
  List.find?_some (p := (sameMember · r)) (first?_eq rs r ▸ first)

theorem first?_of_mem_selected (among : r ∈ selected [] rs) : first? rs r = some r := by
  have found : ((selected [] rs).find? (sameMember · r)).isSome = true :=
    List.find?_isSome.mpr ⟨r, among, sameMember_self r⟩
  obtain ⟨s, first⟩ := Option.isSome_iff_exists.mp found
  rw [← first?_eq] at first
  rw [first, eq_of_sameMember (mem_selected_of_first? first) among (sameMember_of_first? first)]

theorem first?_congr (rs : List Resolution) (same : sameMember r s = true) :
    first? rs r = first? rs s := by
  obtain ⟨target, descriptor⟩ := sameMember_iff.mp same
  rw [first?, first?, target, descriptor]

theorem nodup_selected (rs : List Resolution) : (selected [] rs).Nodup := by
  refine (pairwise_selected List.Pairwise.nil).imp ?_
  rintro r _ apart rfl
  rw [sameMember_self] at apart
  cases apart

theorem exists_first? (among : r ∈ rs) : ∃ s, first? rs r = some s := by
  rw [← Option.isSome_iff_exists, first?, List.find?_isSome]
  exact ⟨r, among, by simp⟩

theorem mem_of_mem_selected (among : r ∈ selected [] rs) : r ∈ rs :=
  List.mem_of_find?_eq_some (first?_of_mem_selected among)

end Selected

section Recording
variable {a : Artifact} {n i j : Nat} {rs : List Resolution} {r s : Resolution}

/-- The artifact with the records of resolutions. -/
def recording (a : Artifact) (n : Nat) (rs : List Resolution) : Artifact :=
  a.insertAll (resolutionRecords n rs)

theorem mem_resolutionRecords {x : String × String} : x ∈ resolutionRecords n rs ↔
    x = ("interopBridges.targetCount", toString n) ∨
      x = (countKey, toString (selected [] rs).length) ∨
        ∃ (i : Nat) (r : Resolution), (selected [] rs)[i]? = some r ∧
          ∃ f ∈ (entryOf r).fields, x = (entryKey i ++ f.1, f.2) := by
  rw [resolutionRecords, List.mem_cons, mem_listRecords]
  simp only [bindingRecords_eq, List.mem_map, eq_comm (a := x)]
  rfl

theorem get?_countKey : (a.recording n rs).get? countKey =
    some (toString (selected [] rs).length) := by
  refine get?_insertAll_of_mem (mem_resolutionRecords.mpr (.inr (.inl rfl))) fun other inside => ?_
  rcases mem_resolutionRecords.mp inside with targets | count | ⟨i, r, _, f, _, entry⟩
  · have apart : countKey ≠ "interopBridges.targetCount" := by decide
    exact absurd (congrArg Prod.fst targets) apart
  · exact congrArg Prod.snd count
  · have apart : entryKey i ++ f.1 ≠ countKey := entryKey_append_ne (by decide) i f.1
    exact absurd (congrArg Prod.fst entry).symm apart

/-- The entries are those of the selected resolutions, in their order. -/
theorem entryAt_recording (a : Artifact) (n : Nat) (rs : List Resolution) (i : Nat) :
    (a.recording n rs).entryAt i =
      (((selected [] rs)[i]?).map entryOf).or (a.entryAt i) := by
  have key {tail value : String} (plain : Text.Undigited tail)
      (inside : (entryKey i ++ tail, value) ∈ resolutionRecords n rs) :
      ∃ r, (selected [] rs)[i]? = some r ∧ (tail, value) ∈ (entryOf r).fields := by
    rcases mem_resolutionRecords.mp inside with targets | count | ⟨j, r, place, f, field, entry⟩
    · have apart : entryKey i ++ tail ≠ "interopBridges.targetCount" :=
        entryKey_append_ne (by decide) i tail
      exact absurd (congrArg Prod.fst targets) apart
    · have apart : entryKey i ++ tail ≠ countKey := entryKey_append_ne (by decide) i tail
      exact absurd (congrArg Prod.fst count) apart
    · obtain ⟨rfl, rfl⟩ :=
        entryKey_append_inj plain (Entry.undigited_tail field) (congrArg Prod.fst entry)
      obtain rfl : value = f.2 := congrArg Prod.snd entry
      exact ⟨r, place, field⟩
  cases place : (selected [] rs)[i]? with
  | some r =>
    refine entryAt_of_fields fun f field => get?_insertAll_of_mem ?_ fun other inside => ?_
    · exact mem_resolutionRecords.mpr (.inr (.inr ⟨i, r, place, f, field, rfl⟩))
    · obtain ⟨s, own, field'⟩ := key (Entry.undigited_tail field) inside
      obtain rfl := Option.some.inj (place.symm.trans own)
      exact Entry.field_unique field' field
  | none =>
    refine entryAt_congr fun tail known => get?_insertAll_of_absent ?_
    rintro ⟨_, value⟩ inside rfl
    obtain ⟨_, own, _⟩ := key (Entry.undigited_of_mem known) inside
    rw [place] at own
    cases own

theorem exists_place (inside : i < (selected [] rs).length) :
    ∃ r ∈ rs, (selected [] rs)[i]? = some r :=
  ⟨_, mem_of_mem_selected (List.getElem_mem inside), List.getElem?_eq_getElem inside⟩

theorem entryAt_of_place (place : (selected [] rs)[i]? = some r) :
    (a.recording n rs).entryAt i = some (entryOf r) := by
  rw [entryAt_recording, place]
  rfl

theorem exists_entryAt (first : first? rs r = some s) :
    ∃ i < (selected [] rs).length, (a.recording n rs).entryAt i = some (entryOf s) := by
  obtain ⟨i, place⟩ := List.mem_iff_getElem?.mp (mem_selected_of_first? first)
  exact ⟨i, (List.getElem?_eq_some_iff.mp place).1, entryAt_of_place place⟩

/-- Resolutions that are recorded alike count as one member. -/
theorem sameMember_of_entryOf_eq (given : r.Given) (other : s.Given)
    (same : entryOf r = entryOf s) : sameMember r s = true := by
  obtain ⟨text, _, name, descriptor, instruction⟩ := Entry.mk.inj same
  refine sameMember_iff.mpr ⟨?_, descriptor⟩
  exact given.target_eq other text name (Call.Instruction.text_inj.mp instruction)

theorem entryAt_inj (given : ∀ r ∈ rs, r.Given) (inside : i < (selected [] rs).length)
    (inside' : j < (selected [] rs).length)
    (same : (a.recording n rs).entryAt i = (a.recording n rs).entryAt j) : i = j := by
  obtain ⟨r, among, place⟩ := exists_place inside
  obtain ⟨s, among', place'⟩ := exists_place inside'
  rw [entryAt_of_place place, entryAt_of_place place'] at same
  have one := sameMember_of_entryOf_eq (given r among) (given s among') (Option.some.inj same)
  obtain rfl := eq_of_sameMember (List.mem_of_getElem? place) (List.mem_of_getElem? place') one
  exact (List.getElem?_inj inside (nodup_selected rs)).mp (place.trans place'.symm)

/-- An entry that shows a resolution is that of the first which counts as the same member. -/
theorem exists_first?_of_entryAt (given : ∀ r ∈ rs, r.Given) (among : r ∈ rs)
    (inside : i < (selected [] rs).length)
    (entry : (a.recording n rs).entryAt i = some (entryOf r)) :
    ∃ s, first? rs r = some s ∧ entryOf s = entryOf r := by
  obtain ⟨s, among', place⟩ := exists_place inside
  have alike : entryOf s = entryOf r := Option.some.inj ((entryAt_of_place place).symm.trans entry)
  have one := sameMember_of_entryOf_eq (given s among') (given r among) alike
  refine ⟨s, ?_, alike⟩
  rw [← first?_congr rs one]
  exact first?_of_mem_selected (List.mem_of_getElem? place)

end Recording

/-- What an artifact holds once resolutions are recorded in it. The count is that of the entries
that are made. Each of these is the entry of a resolution, no two are alike, and every target has
one for each descriptor that it was bound to. But a resolution has its own entry exactly when it has
the same values as the first that has its target and its descriptor. -/
theorem recorded_iff_as_first (a : Artifact) (n : Nat) (rs : List Resolution)
    (given : ∀ r ∈ rs, r.Given) : ∃ m : Nat,
      (a.recording n rs).get? "interopBridges.selectedTargetCount" = some (toString m) ∧
      (∀ i, ((a.recording n rs).entryAt i).isSome ↔ i < m ∨ (a.entryAt i).isSome) ∧
      (∀ i < m, ∃ r ∈ rs, (a.recording n rs).entryAt i = some (entryOf r)) ∧
      (∀ i < m, ∀ j < m, (a.recording n rs).entryAt i = (a.recording n rs).entryAt j → i = j) ∧
      (∀ r ∈ rs, ∃ i < m, ∃ e, (a.recording n rs).entryAt i = some e ∧
        e.target = r.target.text ∧ e.descriptor = r.descriptor) ∧
      ∀ r ∈ rs, (∃ i < m, (a.recording n rs).entryAt i = some (entryOf r)) ↔
        ∃ s, first? rs r = some s ∧ entryOf s = entryOf r := by
  refine ⟨(selected [] rs).length, get?_countKey, fun i => ?_, fun i inside => ?_,
    fun i inside j inside' same => entryAt_inj given inside inside' same, fun r among => ?_,
    fun r among => ⟨?_, ?_⟩⟩
  · rw [entryAt_recording, Option.isSome_or, Bool.or_eq_true, Option.isSome_map, isSome_getElem?]
  · obtain ⟨r, among, place⟩ := exists_place inside
    exact ⟨r, among, entryAt_of_place place⟩
  · obtain ⟨s, first⟩ := exists_first? among
    obtain ⟨i, inside, entry⟩ := exists_entryAt first
    obtain ⟨target, descriptor⟩ := sameMember_iff.mp (sameMember_of_first? first)
    exact ⟨i, inside, entryOf s, entry, congrArg Call.Target.text target, descriptor⟩
  · rintro ⟨i, inside, entry⟩
    exact exists_first?_of_entryAt given among inside entry
  · rintro ⟨s, first, alike⟩
    exact alike ▸ exists_entryAt first

private def withArea (name : String) (access : Nat) (superClass : String) (declared : Nat) :
    ClassStub :=
  ⟨name, ⟨access⟩, some superClass, [],
    [⟨"area", .method, ⟨declared⟩, "()I", [], .primitive .int, none⟩], []⟩

/-- Two classes with a method that they have from their superclass. -/
private def figures : ClassView :=
  ⟨.shared, 21, [withArea "demo.Shape" 0x401 objectClass 0x401,
    withArea "demo.Square" 1 "demo.Shape" 1, withArea "demo.Disc" 1 "demo.Shape" 1].map
      fun c => (c.name, ⟨c.name, default, .base, false, c⟩), [], [], []⟩

/-- The method as it is bound for a receiver of one of the classes. -/
private def areaOf (className : String) : Resolution :=
  ⟨.make "demo.Shape" "area" .instanceMethod, className, "area", "()I", [], .primitive .int, [],
    .invokeVirtual, false, {}⟩

private def areas : List Resolution := [areaOf "demo.Square", areaOf "demo.Disc"]

private theorem areas_given : ∀ r ∈ areas, r.Given := by
  have answer : ∀ className ∈ ["demo.Square", "demo.Disc"],
      Call.resolve figures (.make "demo.Shape" "area" .instanceMethod) (some className) [] =
        .ok (areaOf className) := by decide +kernel
  intro r among
  obtain ⟨className, known, rfl⟩ : ∃ className ∈ ["demo.Square", "demo.Disc"],
      areaOf className = r := List.mem_map.mp among
  exact ⟨figures, _, _, _, _, _, answer className known⟩

theorem recorded_iff_as_first_areas : (∀ r ∈ areas, r.Given) ∧ ∃ m : Nat,
    ((Artifact.start "now").recording 1 areas).get? "interopBridges.selectedTargetCount" =
      some (toString m) ∧
    ∀ r ∈ areas, (∃ i < m,
        ((Artifact.start "now").recording 1 areas).entryAt i = some (entryOf r)) ↔
      ∃ s, first? areas r = some s ∧ entryOf s = entryOf r := by
  obtain ⟨m, count, _, _, _, _, shown⟩ :=
    recorded_iff_as_first (.start "now") 1 areas areas_given
  exact ⟨areas_given, m, count, shown⟩

/-- A method of one class goes unrecorded behind that of another. -/
theorem area_unrecorded : (∀ r ∈ areas, r.Given) ∧ areaOf "demo.Disc" ∈ areas ∧
    ∀ i, ((Artifact.start "now").recording 1 areas).entryAt i ≠
      some (entryOf (areaOf "demo.Disc")) := by
  refine ⟨areas_given, by decide, fun i => ?_⟩
  have one : selected [] areas = [areaOf "demo.Square"] := by decide +kernel
  rw [entryAt_recording, one, entryAt_start, Option.or_none]
  cases i with
  | zero => decide
  | succ i => nofun

end Linkage.Run.Artifact
