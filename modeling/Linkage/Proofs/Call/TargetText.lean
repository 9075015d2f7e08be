import Linkage.Call.Target
import Linkage.Proofs.Text.Trimming

/-!
The text of a target. Reading gives well-formed targets only, and every well-formed target is what
its own text reads as. So a target is known by its text: two targets that were read and are written
alike are the same.
-/
namespace Linkage.Call

open Text (Clear ClearAhead ClearBehind stripStart? startsWith)

/-- A name that a member may have in a text. -/
structure MemberName (name : String) : Prop where
  nonempty : name ≠ ""
  unmarked : '#' ∉ name.toList
  clear : ClearBehind name

/-- The members that a kind of binding may have. What would be read as another kind is left out. -/
def Binding.Admits : Binding → String → Prop
  | .constructor, name => name = constructorName
  | .staticMethod, name => MemberName name ∧ startsWith "$" name = false ∧ ClearAhead name
  | .instanceMethod, name =>
    MemberName name ∧ startsWith "get$" name = false ∧ startsWith "set$" name = false
  | _, name => MemberName name

structure Target.WellFormed (t : Target) : Prop where
  owner_nonempty : t.owner ≠ ""
  owner_unmarked : '#' ∉ t.owner.toList
  owner_unslashed : '/' ∉ t.owner.toList
  owner_clear : Clear t.owner
  member : t.kind.Admits t.member

theorem Binding.Admits.memberName {kind : Binding} {name : String} (other : kind ≠ .constructor)
    (admitted : kind.Admits name) : MemberName name := by
  cases kind with
  | constructor => exact absurd rfl other
  | staticMethod => exact admitted.1
  | instanceMethod => exact admitted.1
  | staticGet => exact admitted
  | staticSet => exact admitted
  | instanceGet => exact admitted
  | instanceSet => exact admitted

section Split
variable {kind : Binding} {binding name : String}

/-- The first kind whose lead the binding starts with is found. -/
theorem splitBinding_of_first (front : List Binding) {back : List Binding}
    (order : Binding.marked = front ++ kind :: back)
    (others : ∀ other ∈ front, stripStart? other.lead (kind.lead ++ name) = none) :
    splitBinding (kind.lead ++ name) = (name, kind) := by
  have own : stripStart? kind.lead (kind.lead ++ name) = some name :=
    Text.stripStart?_eq_some_iff.mpr rfl
  have found : Binding.marked.findSome? (fun kind' =>
      (stripStart? kind'.lead (kind.lead ++ name)).map fun rest => (rest, kind')) =
      some (name, kind) := by
    refine List.findSome?_eq_some_iff.mpr ⟨front, kind, back, order, by simp [own], ?_⟩
    intro other earlier
    simp [others other earlier]
  simp only [splitBinding, found, Option.getD_some]

theorem splitBinding_of_parted (front : List Binding) {back : List Binding}
    (order : Binding.marked = front ++ kind :: back)
    (parted : ∀ other ∈ front,
      startsWith other.lead kind.lead = false ∧ startsWith kind.lead other.lead = false)
    (name : String) : splitBinding (kind.lead ++ name) = (name, kind) := by
  apply splitBinding_of_first front order
  intro other earlier
  obtain ⟨one, two⟩ := parted other earlier
  exact Text.stripStart?_of_parted one two name

theorem splitBinding_plain (plain : startsWith "$" name = false) :
    splitBinding name = (name, .staticMethod) := by
  have dollar : ∀ kind ∈ Binding.marked, startsWith "$" kind.lead = true := by decide
  have none : ∀ kind ∈ Binding.marked, stripStart? kind.lead name = none := by
    intro kind marked
    obtain ⟨tail, shape⟩ := Text.startsWith_iff.mp (dollar kind marked)
    rw [Text.stripStart?_eq_none_iff]
    intro rest whole
    rw [shape, String.append_assoc] at whole
    rw [Text.startsWith_iff.mpr ⟨_, whole⟩] at plain
    cases plain
  have unfound : Binding.marked.findSome? (fun kind =>
      (stripStart? kind.lead name).map fun rest => (rest, kind)) = Option.none := by
    rw [List.findSome?_eq_none_iff]
    intro kind marked
    rw [none kind marked, Option.map_none]
  simp only [splitBinding, unfound, Option.getD_none]

theorem instanceGet_lead :
    Binding.lead .instanceGet = Binding.lead .instanceMethod ++ "get$" := by decide

theorem instanceSet_lead :
    Binding.lead .instanceSet = Binding.lead .instanceMethod ++ "set$" := by decide

/-- An instance method is found once its name does not go on like the lead of a field. -/
theorem splitBinding_instanceMethod (get : startsWith "get$" name = false)
    (set : startsWith "set$" name = false) :
    splitBinding (Binding.lead .instanceMethod ++ name) = (name, .instanceMethod) := by
  have parted (other : Binding) (one : startsWith other.lead (Binding.lead .instanceMethod) = false)
      (two : startsWith (Binding.lead .instanceMethod) other.lead = false) :=
    Text.stripStart?_of_parted one two name
  apply splitBinding_of_first [.instanceGet, .instanceSet, .staticGet, .staticSet] rfl
  simp only [List.forall_mem_cons, List.not_mem_nil, false_implies, implies_true, and_true]
  refine ⟨?_, ?_, parted .staticGet (by decide) (by decide),
    parted .staticSet (by decide) (by decide)⟩
  · rw [instanceGet_lead, Text.stripStart?_append_append, Text.startsWith_eq_false_iff.mp get]
  · rw [instanceSet_lead, Text.stripStart?_append_append, Text.startsWith_eq_false_iff.mp set]

/-- A binding is written so that its kind and its member are found again. -/
theorem splitBinding_lead (named : kind ≠ .constructor) (admitted : kind.Admits name) :
    splitBinding (kind.lead ++ name) = (name, kind) := by
  cases kind with
  | constructor => exact absurd rfl named
  | staticMethod =>
    have bare : Binding.lead .staticMethod ++ name = name := String.empty_append
    rw [bare, splitBinding_plain admitted.2.1]
  | instanceMethod => exact splitBinding_instanceMethod admitted.2.1 admitted.2.2
  | staticGet => exact splitBinding_of_parted [.instanceGet, .instanceSet] rfl (by decide) name
  | staticSet =>
    exact splitBinding_of_parted [.instanceGet, .instanceSet, .staticGet] rfl (by decide) name
  | instanceGet => exact splitBinding_of_parted [] rfl (by decide) name
  | instanceSet => exact splitBinding_of_parted [.instanceGet] rfl (by decide) name

theorem of_splitBinding (found : splitBinding binding = (name, kind)) :
    kind ≠ .constructor ∧ binding = kind.lead ++ name := by
  have marked : ∀ kind ∈ Binding.marked, kind ≠ .constructor := by decide
  unfold splitBinding at found
  simp only at found
  cases tried : Binding.marked.findSome? (fun kind =>
      (stripStart? kind.lead binding).map fun rest => (rest, kind)) with
  | none =>
    rw [tried] at found
    obtain ⟨rfl, rfl⟩ := Prod.mk.inj found
    exact ⟨by decide, String.empty_append.symm⟩
  | some pair =>
    rw [tried] at found
    obtain rfl : pair = (name, kind) := found
    obtain ⟨other, listed, cut⟩ := List.exists_of_findSome?_eq_some tried
    obtain ⟨rest, stripped, same⟩ := Option.map_eq_some_iff.mp cut
    obtain ⟨rfl, rfl⟩ := Prod.mk.inj same
    exact ⟨marked _ listed, Text.stripStart?_eq_some_iff.mp stripped⟩

/-- A name that goes on like the lead of a field is not found as an instance method. -/
theorem startsWith_of_splitBinding (found : splitBinding binding = (name, .instanceMethod)) :
    startsWith "get$" name = false ∧ startsWith "set$" name = false := by
  obtain ⟨_, rfl⟩ := of_splitBinding found
  simp only [← Bool.not_eq_true, Text.startsWith_iff]
  constructor
  · rintro ⟨rest, rfl⟩
    rw [← String.append_assoc, ← instanceGet_lead,
      splitBinding_of_parted [] rfl (by decide) rest] at found
    cases congrArg Prod.snd found
  · rintro ⟨rest, rfl⟩
    rw [← String.append_assoc, ← instanceSet_lead,
      splitBinding_of_parted [.instanceGet] rfl (by decide) rest] at found
    cases congrArg Prod.snd found

end Split

namespace Target
variable {raw : String} {t : Target}

theorem binding_of_constructor (constructs : t.kind = .constructor) :
    t.binding = Binding.lead .constructor := by
  rw [binding, constructs]

theorem binding_of_ne (other : t.kind ≠ .constructor) : t.binding = t.kind.lead ++ t.member := by
  unfold binding
  split
  · contradiction
  · rfl

/-- What reading a target goes through. -/
theorem of_read (read : Target.read raw = .ok t) : ∃ owner binding,
    Text.splitFirst? '#' (Text.trim raw) = some (owner, binding) ∧
    t.owner = Text.replaceChar '/' '.' (Text.trim owner) ∧ t.owner ≠ "" ∧
    (t.kind = .constructor ∧ t.member = constructorName ∨
      splitBinding (Text.trim binding) = (t.member, t.kind) ∧ t.member ≠ "" ∧
        '#' ∉ t.member.toList ∧ (t.kind = .staticMethod → startsWith "$" t.member = false)) := by
  unfold Target.read at read
  simp only at read
  split at read
  · cases read
  rename_i owner binding cut
  refine ⟨owner, binding, cut, ?_⟩
  split at read
  · cases read
  rename_i named
  rw [String.isEmpty_iff] at named
  split at read
  · obtain rfl := Except.ok.inj read
    exact ⟨rfl, named, .inl ⟨rfl, rfl⟩⟩
  rcases pair : splitBinding (Text.trim binding) with ⟨member, kind⟩
  simp only [pair] at read
  split at read
  · cases read
  rename_i nonempty
  rw [String.isEmpty_iff] at nonempty
  split at read
  · cases read
  rename_i supported
  rw [not_or, not_and] at supported
  have other : kind ≠ .constructor := (of_splitBinding pair).1
  obtain rfl := Except.ok.inj read
  refine ⟨rfl, named, .inr ?_⟩
  rw [make, if_neg other]
  refine ⟨rfl, nonempty, ?_, ?_⟩
  · simpa [Text.holdsChar] using supported.2
  · simpa using supported.1

theorem wellFormed_of_read (read : Target.read raw = .ok t) : t.WellFormed := by
  obtain ⟨owner, binding, cut, owned, named, member⟩ := of_read read
  have uncut := (Text.of_splitFirstWhere? cut).2
  refine ⟨named, ?_, ?_, ?_, ?_⟩
  · rw [owned, Text.replaceChar, String.toList_ofList]
    intro mark
    obtain ⟨c, inside, same⟩ := List.mem_map.mp mark
    have other := uncut c (Text.mem_of_mem_trim inside)
    split at same
    · cases same
    · simp [same] at other
  · rw [owned, Text.replaceChar, String.toList_ofList]
    intro slash
    obtain ⟨c, inside, same⟩ := List.mem_map.mp slash
    split at same
    · cases same
    · rename_i other
      exact other same
  · rw [owned]
    exact Text.clear_replaceChar (by decide) (Text.clear_trim owner)
  rcases member with ⟨constructs, fixed⟩ | ⟨split, nonempty, unmarked, plain⟩
  · rw [constructs]
    exact fixed
  obtain ⟨other, whole⟩ := of_splitBinding split
  obtain ⟨ahead, behind⟩ := Text.clear_trim binding
  rw [whole] at ahead behind
  have name : MemberName t.member :=
    ⟨nonempty, unmarked, (Text.clearBehind_append_iff nonempty).mp behind⟩
  cases kind : t.kind with
  | constructor => exact absurd kind other
  | staticMethod =>
    rw [kind] at ahead
    exact ⟨name, plain kind, by simpa [Binding.lead] using ahead⟩
  | instanceMethod =>
    rw [kind] at split
    exact ⟨name, startsWith_of_splitBinding split⟩
  | staticGet => exact name
  | staticSet => exact name
  | instanceGet => exact name
  | instanceSet => exact name

theorem WellFormed.binding_clear (formed : t.WellFormed) : t.binding ≠ "" ∧ Clear t.binding := by
  by_cases constructs : t.kind = .constructor
  · rw [binding_of_constructor constructs]
    decide
  obtain ⟨nonempty, _, behind⟩ := formed.member.memberName constructs
  rw [binding_of_ne constructs]
  have some : t.kind.lead ++ t.member ≠ "" := by simp [nonempty]
  refine ⟨some, ?_, (Text.clearBehind_append_iff nonempty).mpr behind⟩
  -- Every lead but the empty one of a static method starts with a dollar sign.
  by_cases static : t.kind = .staticMethod
  · have admitted := formed.member
    rw [static] at admitted ⊢
    simpa [Binding.lead] using admitted.2.2
  · have leads : ∀ kind : Binding, kind ≠ .staticMethod → kind.lead ≠ "" ∧
        ClearAhead kind.lead := by
      intro kind
      cases kind <;> decide
    obtain ⟨front, ahead⟩ := leads t.kind static
    exact (Text.clearAhead_append_iff front).mpr ahead

theorem WellFormed.clear_text (formed : t.WellFormed) : Clear t.text := by
  obtain ⟨some, _, behind⟩ := formed.binding_clear
  constructor
  · rw [text, String.append_assoc]
    exact (Text.clearAhead_append_iff formed.owner_nonempty).mpr formed.owner_clear.1
  · exact (Text.clearBehind_append_iff some).mpr behind

theorem WellFormed.splitFirst?_text (formed : t.WellFormed) :
    Text.splitFirst? '#' t.text = some (t.owner, t.binding) := by
  have mark : "#" = String.singleton '#' := by decide
  rw [Text.splitFirst?, text, mark]
  refine Text.splitFirstWhere?_append ?_ (by simp) t.binding
  intro c inside
  rw [beq_eq_false_iff_ne]
  rintro rfl
  exact formed.owner_unmarked inside

theorem WellFormed.owner_kept (formed : t.WellFormed) :
    Text.replaceChar '/' '.' (Text.trim t.owner) = t.owner := by
  have kept : t.owner.toList.map (fun c => if c = '/' then '.' else c) = t.owner.toList := by
    rw [List.map_congr_left, List.map_id]
    intro c inside
    rw [if_neg, id]
    rintro rfl
    exact formed.owner_unslashed inside
  rw [Text.trim_eq_self formed.owner_clear, Text.replaceChar, kept, String.ofList_toList]

/-- No other binding is written like that of a constructor. -/
theorem WellFormed.binding_ne (formed : t.WellFormed) (other : t.kind ≠ .constructor) :
    t.binding ≠ Binding.lead .constructor := by
  intro same
  rw [binding_of_ne other] at same
  have found := splitBinding_lead other formed.member
  have read : splitBinding (Binding.lead .constructor) = ("$new", .staticMethod) := by decide
  rw [same, read] at found
  obtain ⟨member, static⟩ := Prod.mk.inj found
  have plain := formed.member
  rw [← static, ← member] at plain
  exact absurd plain.2.1 (by decide)

theorem read_text (formed : t.WellFormed) : Target.read t.text = .ok t := by
  obtain ⟨_, clear⟩ := formed.binding_clear
  simp only [Target.read, Text.trim_eq_self formed.clear_text, formed.splitFirst?_text,
    formed.owner_kept, Text.trim_eq_self clear]
  rw [if_neg (mt String.isEmpty_iff.mp formed.owner_nonempty)]
  by_cases constructs : t.kind = .constructor
  · have fixed := formed.member
    rw [constructs] at fixed
    rw [if_pos (binding_of_constructor constructs), make, if_pos rfl, ← fixed, ← constructs]
  · have found := splitBinding_lead constructs formed.member
    rw [← binding_of_ne constructs] at found
    have name := formed.member.memberName constructs
    have supported : ¬ ((t.kind = .staticMethod ∧ startsWith "$" t.member = true) ∨
        Text.holdsChar '#' t.member = true) := by
      rintro (⟨static, dollar⟩ | mark)
      · have plain := formed.member
        rw [static] at plain
        rw [plain.2.1] at dollar
        cases dollar
      · exact name.unmarked (List.contains_iff_mem.mp mark)
    rw [if_neg (formed.binding_ne constructs), found]
    simp only
    rw [if_neg (mt String.isEmpty_iff.mp name.nonempty), if_neg supported, make,
      if_neg constructs]

/-- Reading gives well-formed targets, each of these is read from its own text, and so no two
targets that were read share a text. -/
theorem read_inverts_text :
    (∀ raw t, Target.read raw = .ok t → t.WellFormed) ∧
    (∀ t : Target, t.WellFormed → Target.read t.text = .ok t) ∧
    ∀ raw raw' t t', Target.read raw = .ok t → Target.read raw' = .ok t' → t.text = t'.text →
      t = t' := by
  refine ⟨fun _ _ => wellFormed_of_read, fun _ => read_text, ?_⟩
  intro raw raw' t t' read read' same
  have again := read_text (wellFormed_of_read read)
  rw [same, read_text (wellFormed_of_read read')] at again
  exact (Except.ok.inj again).symm

/-- A blank in front of an instance method's name is part of the name, and slashes are gone for
good. -/
theorem read_inverts_text_spaced :
    Target.read " java/util/Map # $instance$ size\t" =
      .ok ⟨"java.util.Map", " size", .instanceMethod⟩ ∧
    (⟨"java.util.Map", " size", .instanceMethod⟩ : Target).WellFormed ∧
    Target.read "java.util.Map#$instance$ size" =
      .ok ⟨"java.util.Map", " size", .instanceMethod⟩ := by
  have read : Target.read " java/util/Map # $instance$ size\t" =
      .ok ⟨"java.util.Map", " size", .instanceMethod⟩ := by decide
  have written : Target.text ⟨"java.util.Map", " size", .instanceMethod⟩ =
      "java.util.Map#$instance$ size" := by decide
  have formed := read_inverts_text.1 _ _ read
  have again := read_inverts_text.2.1 _ formed
  rw [written] at again
  exact ⟨read, formed, again⟩

end Target

end Linkage.Call
