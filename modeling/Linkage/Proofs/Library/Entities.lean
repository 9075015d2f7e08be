import Linkage.Library.Project
import Linkage.Proofs.Text.Runs

/-!
References to entities in project text. A reference is an ampersand, a name and a semicolon, and
where one stands can be seen, since no name holds an ampersand or a semicolon. So there is just one
way to put a space for some references and to leave all else as it is.

Replacing references by looking ahead from each ampersand comes to that, as long as nothing else is
taken for a reference and none is overlooked in what was looked at.
-/
namespace Linkage.Project

open Xml.Reader (isNameStart isNameChar)

section References
variable {stays : List Char → Prop} {cs rest rest' out out' name : List Char}

/-- A name as XML has them. -/
structure IsName (name : List Char) : Prop where
  start : ∃ c ∈ name.head?, isNameStart c = true
  inside : ∀ c ∈ name, isNameChar c = true

/-- The text begins with a reference to a name that does not stay, in front of the rest. -/
def Refers (stays : List Char → Prop) (cs rest : List Char) : Prop :=
  ∃ name, IsName name ∧ ¬ stays name ∧ cs = '&' :: (name ++ ';' :: rest)

/-- A text with a space for each reference, save to names that stay, and nothing else changed. -/
inductive Replaces (stays : List Char → Prop) : List Char → List Char → Prop
  | nil : Replaces stays [] []
  | reference {cs rest out : List Char} (refers : Refers stays cs rest)
    (more : Replaces stays rest out) : Replaces stays cs (' ' :: out)
  | other {c : Char} {cs out : List Char} (none : ∀ rest, ¬ Refers stays (c :: cs) rest)
    (more : Replaces stays cs out) : Replaces stays (c :: cs) (c :: out)

theorem IsName.semicolon (isName : IsName name) : ';' ∉ name := by
  intro inside
  exact absurd (isName.inside ';' inside) (by decide)

theorem not_refers_nil (rest : List Char) : ¬ Refers stays [] rest := by
  rintro ⟨name, _, _, same⟩
  cases same

theorem not_refers_of_ne {c : Char} (other : c ≠ '&') (rest : List Char) :
    ¬ Refers stays (c :: cs) rest := by
  rintro ⟨name, _, _, same⟩
  exact other (List.cons.inj same).1

theorem Refers.cons (refers : Refers stays cs rest) : ∃ tail, cs = '&' :: tail := by
  obtain ⟨name, _, _, rfl⟩ := refers
  exact ⟨_, rfl⟩

theorem Refers.length_lt (refers : Refers stays cs rest) : rest.length < cs.length := by
  obtain ⟨name, _, _, rfl⟩ := refers
  simp only [List.length_cons, List.length_append]
  omega

/-- The name of a reference ends at the first semicolon. -/
theorem Refers.unique (one : Refers stays cs rest) (two : Refers stays cs rest') :
    rest = rest' := by
  obtain ⟨name, isName, _, rfl⟩ := one
  obtain ⟨name', isName', _, same⟩ := two
  have ends (more : List Char) : ∀ c ∈ (';' :: more).head?, isNameChar c = false := by
    rintro c ⟨⟩
    decide
  have found := Text.run_append_inj isName.inside isName'.inside (ends rest) (ends rest')
    (List.cons.inj same).2
  exact (List.cons.inj found.2).2

theorem Replaces.unique (one : Replaces stays cs out) (two : Replaces stays cs out') :
    out = out' := by
  induction one generalizing out' with
  | nil =>
    cases two with
    | nil => rfl
    | reference refers => exact absurd refers (not_refers_nil _)
  | reference refers more ih =>
    cases two with
    | nil => exact absurd refers (not_refers_nil _)
    | reference refers' more' =>
      obtain rfl := refers.unique refers'
      rw [ih more']
    | other none => exact absurd refers (none _)
  | other none more ih =>
    cases two with
    | reference refers => exact absurd refers (none _)
    | other _ more' => rw [ih more']

theorem Refers.starts {c : Char} (refers : Refers stays ('&' :: c :: cs) rest) :
    isNameStart c = true := by
  obtain ⟨name, isName, _, same⟩ := refers
  obtain ⟨d, first, starts⟩ := isName.start
  obtain ⟨name, rfl⟩ := List.head?_eq_some_iff.mp first
  obtain ⟨rfl, _⟩ := List.cons.inj (List.cons.inj same).2
  exact starts

theorem Replaces.head_space (replaced : Replaces stays cs out) (refers : Refers stays cs rest) :
    out.head? = some ' ' := by
  cases replaced with
  | nil => exact absurd refers (not_refers_nil _)
  | reference => rfl
  | other none => exact absurd refers (none _)

theorem Replaces.head_kept {c : Char} (replaced : Replaces stays (c :: cs) out)
    (none : ∀ rest, ¬ Refers stays (c :: cs) rest) : out.head? = some c := by
  cases replaced with
  | reference refers => exact absurd refers (none _)
  | other => rfl

/-- A stretch in which no reference begins is left as it is. -/
theorem Replaces.append {front : List Char}
    (none : ∀ before after, front = before ++ '&' :: after →
      ∀ rest, ¬ Refers stays ('&' :: (after ++ cs)) rest)
    (more : Replaces stays cs out) : Replaces stays (front ++ cs) (front ++ out) := by
  induction front with
  | nil => exact more
  | cons c front ih =>
    have further := ih fun before after split => none (c :: before) after (by rw [split]; rfl)
    refine .other (fun rest refers => ?_) further
    by_cases ampersand : c = '&'
    · subst ampersand
      exact none [] front rfl rest refers
    · exact not_refers_of_ne ampersand rest refers

end References

section LookAhead
variable {name rest run after : List Char} {taken : Nat}

/-- The number of bytes that characters take. -/
def byteCount (cs : List Char) : Nat := (cs.flatMap Text.charBytes).length

theorem byteCount_cons (c : Char) (cs : List Char) :
    byteCount (c :: cs) = (Text.charBytes c).length + byteCount cs := by
  rw [byteCount, List.flatMap_cons, List.length_append, byteCount]

/-- What is looked at behind an ampersand: the characters up to and with the first semicolon or the
first that takes them over the limit, or all there are. -/
structure LookAhead (rest run after : List Char) : Prop where
  parted : rest = run ++ after
  ongoing : ';' ∉ run.dropLast
  within : byteCount run.dropLast ≤ maxEntityBytes
  ends : run.getLast? = some ';' ∨ maxEntityBytes < byteCount run ∨ after = []

theorem entityRun_append (ongoing : ';' ∉ run.dropLast)
    (within : taken + byteCount run.dropLast ≤ maxEntityBytes)
    (ends : run.getLast? = some ';' ∨ maxEntityBytes < taken + byteCount run ∨ after = []) :
    entityRun taken (run ++ after) = (run, after) := by
  induction run generalizing taken with
  | nil =>
    have short : ¬ maxEntityBytes < taken + byteCount [] := Nat.not_lt.mpr within
    obtain rfl : after = [] := by simpa [short] using ends
    rfl
  | cons c run ih =>
    cases run with
    | nil =>
      rw [List.singleton_append, entityRun]
      split
      · rfl
      · next further =>
        rw [not_or] at further
        have short : ¬ maxEntityBytes < taken + byteCount [c] := by
          simpa [byteCount] using further.2
        obtain rfl : after = [] := by simpa [short, further.1] using ends
        rfl
    | cons d run =>
      rw [List.dropLast_cons_cons, List.mem_cons, not_or] at ongoing
      rw [List.dropLast_cons_cons, byteCount_cons, ← Nat.add_assoc] at within
      rw [List.getLast?_cons_cons, byteCount_cons, ← Nat.add_assoc] at ends
      have further : ¬ (c = ';' ∨ maxEntityBytes < taken + (Text.charBytes c).length) := by
        rintro (semicolon | long)
        · exact ongoing.1 semicolon.symm
        · omega
      rw [List.cons_append, entityRun, if_neg further, ih ongoing.2 within ends]

theorem LookAhead.entityRun (ahead : LookAhead rest run after) :
    entityRun 0 rest = (run, after) := by
  rw [ahead.parted]
  exact entityRun_append ahead.ongoing (by simpa using ahead.within) (by simpa using ahead.ends)

/-- A short name is looked at with the semicolon behind it, and no further. -/
theorem lookAhead_name (isName : IsName name) (short : byteCount name ≤ maxEntityBytes)
    (rest : List Char) : LookAhead (name ++ ';' :: rest) (name ++ [';']) rest where
  parted := by rw [List.append_assoc, List.singleton_append]
  ongoing := by
    rw [List.dropLast_concat]
    exact isName.semicolon
  within := by rwa [List.dropLast_concat]
  ends := .inl List.getLast?_concat

/-- The names of the entities that need no declaration. -/
def Predefined (name : List Char) : Prop :=
  name ∈ ["lt", "gt", "amp", "quot", "apos"].map String.toList

instance : DecidablePred Predefined := fun _ => inferInstanceAs (Decidable (_ ∈ _))

/-- The names to which references stay: the predefined ones in any case of their letters, and those
that are too long to be looked at. -/
def Stays (name : List Char) : Prop :=
  Predefined (name.map Char.toLower) ∨ maxEntityBytes < byteCount name

instance : DecidablePred Stays := fun _ => inferInstanceAs (Decidable (_ ∨ _))

theorem isKnownEntity_iff : isKnownEntity name = true ↔
    Predefined (name.map Char.toLower) ∨ name.head? = some '#' := by
  simp only [isKnownEntity, Predefined, Bool.or_eq_true, List.any_eq_true, beq_iff_eq,
    List.mem_map, @eq_comm _ (name.map Char.toLower)]

theorem isKnownEntity_of_goes (isName : IsName name) (goes : ¬ Stays name) :
    isKnownEntity name = false := by
  rw [← Bool.not_eq_true, isKnownEntity_iff]
  rintro (predefined | hash)
  · exact goes (.inl predefined)
  · obtain ⟨c, first, starts⟩ := isName.start
    obtain rfl := Option.some.inj (first.symm.trans hash)
    exact absurd starts (by decide)

end LookAhead

/-- A text whose ampersands do not get into the way of each other or of what stands around them. In
what is looked at behind an ampersand that begins no reference, none begins either, and if it ends
in a semicolon, it was a predefined or a numeric one. -/
inductive Undisturbed : List Char → Prop
  | nil : Undisturbed []
  | plain {c : Char} {rest : List Char} (other : c ≠ '&') (more : Undisturbed rest) :
    Undisturbed (c :: rest)
  | reference {cs rest : List Char} (refers : Refers Stays cs rest) (more : Undisturbed rest) :
    Undisturbed cs
  | kept {rest run after : List Char} (ahead : LookAhead rest run after)
    (known : ∀ name, run = name ++ [';'] →
      Predefined (name.map Char.toLower) ∨ name.head? = some '#')
    (none : ∀ before behind, run = before ++ '&' :: behind →
      ∀ more, ¬ Refers Stays ('&' :: (behind ++ after)) more)
    (more : Undisturbed after) : Undisturbed ('&' :: rest)

section Normalize
variable {cs rest run after : List Char}

theorem entityRun_of_refers (refers : Refers Stays ('&' :: cs) rest) :
    ∃ name, entityRun 0 cs = (name ++ [';'], rest) ∧ isKnownEntity name = false := by
  obtain ⟨name, isName, goes, same⟩ := refers
  obtain ⟨_, rfl⟩ := List.cons.inj same
  have short : byteCount name ≤ maxEntityBytes := Nat.not_lt.mp (mt Or.inr goes)
  exact ⟨name, (lookAhead_name isName short rest).entityRun, isKnownEntity_of_goes isName goes⟩

/-- Where what is looked at ends in a name that stays, or does not end, no reference begins. -/
theorem not_refers_of_looked (looked : entityRun 0 cs = (run, after))
    (known : ∀ name, run = name ++ [';'] → isKnownEntity name = true) (rest : List Char) :
    ¬ Refers Stays ('&' :: cs) rest := by
  intro refers
  obtain ⟨name, looked', unknown⟩ := entityRun_of_refers refers
  obtain ⟨same, _⟩ := Prod.mk.inj (looked.symm.trans looked')
  rw [known name same] at unknown
  cases unknown

theorem withoutDeclaredEntities_reference (refers : Refers Stays ('&' :: cs) rest) (fuel : Nat) :
    withoutDeclaredEntities (fuel + 1) ('&' :: cs) = ' ' :: withoutDeclaredEntities fuel rest := by
  obtain ⟨name, looked, unknown⟩ := entityRun_of_refers refers
  have goes : (name ++ [';']).getLast? = some ';' ∧
      isKnownEntity (name ++ [';']).dropLast = false :=
    ⟨List.getLast?_concat, by rwa [List.dropLast_concat]⟩
  simp only [withoutDeclaredEntities, if_true, looked, if_pos goes]

theorem withoutDeclaredEntities_kept (looked : entityRun 0 cs = (run, after))
    (known : ∀ name, run = name ++ [';'] → isKnownEntity name = true) (fuel : Nat) :
    withoutDeclaredEntities (fuel + 1) ('&' :: cs) =
      '&' :: (run ++ withoutDeclaredEntities fuel after) := by
  have stays : ¬ (run.getLast? = some ';' ∧ isKnownEntity run.dropLast = false) := by
    rintro ⟨ends, unknown⟩
    obtain ⟨name, rfl⟩ := List.getLast?_eq_some_iff.mp ends
    rw [List.dropLast_concat, known name rfl] at unknown
    cases unknown
  simp only [withoutDeclaredEntities, if_true, looked, if_neg stays, List.cons_append]

theorem replaces_withoutDeclaredEntities (undisturbed : Undisturbed cs) {fuel : Nat}
    (enough : cs.length ≤ fuel) : Replaces Stays cs (withoutDeclaredEntities fuel cs) := by
  induction undisturbed generalizing fuel with
  | nil =>
    rw [withoutDeclaredEntities]
    exact .nil
  | plain other more ih =>
    obtain ⟨fuel, rfl⟩ := Nat.exists_eq_add_of_le' (Nat.le_trans (Nat.le_add_left 1 _) enough)
    rw [withoutDeclaredEntities, if_neg other]
    exact .other (not_refers_of_ne other) (ih (Nat.le_of_succ_le_succ enough))
  | reference refers more ih =>
    have shorter := Nat.lt_of_lt_of_le refers.length_lt enough
    obtain ⟨fuel, rfl⟩ := Nat.exists_eq_add_of_le' (Nat.zero_lt_of_lt shorter)
    obtain ⟨tail, rfl⟩ := refers.cons
    rw [withoutDeclaredEntities_reference refers]
    exact .reference refers (ih (Nat.le_of_lt_succ shorter))
  | @kept cs run after ahead known none more ih =>
    obtain ⟨fuel, rfl⟩ := Nat.exists_eq_add_of_le' (Nat.le_trans (Nat.le_add_left 1 _) enough)
    have known' (name : List Char) (whole : run = name ++ [';']) : isKnownEntity name = true :=
      isKnownEntity_iff.mpr (known name whole)
    have shorter : after.length ≤ fuel := by
      have within := Nat.le_of_succ_le_succ enough
      rw [ahead.parted, List.length_append] at within
      exact Nat.le_of_add_left_le within
    have same := Replaces.append none (ih shorter)
    rw [← ahead.parted] at same
    rw [withoutDeclaredEntities_kept ahead.entityRun known']
    exact .other (not_refers_of_looked ahead.entityRun known') same

end Normalize

section Undisturbed
variable {cs run after : List Char}

theorem Undisturbed.append (front : List Char) (plain : '&' ∉ front) (more : Undisturbed cs) :
    Undisturbed (front ++ cs) := by
  induction front with
  | nil => exact more
  | cons c front ih =>
    rw [List.mem_cons, not_or] at plain
    exact .plain (Ne.symm plain.1) (ih plain.2)

/-- An ampersand is in nobody's way if no other stands in what is looked at behind it. -/
theorem Undisturbed.alone (single : '&' ∉ run) (ahead : LookAhead cs run after)
    (known : ∀ name, run = name ++ [';'] →
      Predefined (name.map Char.toLower) ∨ name.head? = some '#')
    (more : Undisturbed after) : Undisturbed ('&' :: cs) := by
  refine .kept ahead known (fun before behind split => ?_) more
  rw [split] at single
  exact absurd (List.mem_append_right before List.mem_cons_self) single

end Undisturbed

/-- In place of each reference comes one space, and nothing else changes. -/
theorem replaces_iff_normalizeEntities {text : String} (undisturbed : Undisturbed text.toList)
    (out : List Char) : Replaces Stays text.toList out ↔ out = (normalizeEntities text).toList := by
  have replaced : Replaces Stays text.toList (normalizeEntities text).toList := by
    rw [normalizeEntities, String.toList_ofList]
    exact replaces_withoutDeclaredEntities undisturbed (Nat.le_refl _)
  constructor
  · intro replaced'
    exact replaced'.unique replaced
  · intro same
    rwa [same]

/-- A reference goes, while a numeric one stays and so does an ampersand in a comment. -/
theorem replaces_iff_normalizeEntities_comment :
    Undisturbed "<a>&eacute;&#38;<!-- & --></a>".toList ∧
      Replaces Stays "<a>&eacute;&#38;<!-- & --></a>".toList "<a> &#38;<!-- & --></a>".toList := by
  have bare : LookAhead " --></a>".toList " --></a>".toList [] :=
    ⟨rfl, by decide, by decide, by decide⟩
  have numbered : LookAhead "#38;<!-- & --></a>".toList "#38;".toList "<!-- & --></a>".toList :=
    ⟨rfl, by decide, by decide, by decide⟩
  have comment : Undisturbed ('&' :: " --></a>".toList) := by
    refine .alone (by decide) bare (fun name whole => ?_) .nil
    have ends := congrArg List.getLast? whole
    rw [List.getLast?_concat] at ends
    exact absurd ends (by decide)
  have numeric : Undisturbed ('&' :: "#38;<!-- & --></a>".toList) := by
    refine .alone (by decide) numbered (fun name whole => .inr ?_)
      (.append "<!-- ".toList (by decide) comment)
    have name_eq := congrArg List.dropLast whole
    rw [List.dropLast_concat] at name_eq
    rw [← name_eq]
    rfl
  have named : Refers Stays "&eacute;&#38;<!-- & --></a>".toList "&#38;<!-- & --></a>".toList :=
    ⟨"eacute".toList, ⟨⟨'e', rfl, by decide⟩, List.all_eq_true.mp rfl⟩, by decide, rfl⟩
  have undisturbed : Undisturbed "<a>&eacute;&#38;<!-- & --></a>".toList :=
    .append "<a>".toList (by decide) (.reference named numeric)
  exact ⟨undisturbed, (replaces_iff_normalizeEntities undisturbed _).mpr (by decide)⟩

/-- A predefined name in capital letters stays too, and so does one that is too long, while a
semicolon makes a reference of any ampersand before it. -/
theorem not_replaces_predefined :
    ¬ Replaces Predefined "&LT;".toList (normalizeEntities "&LT;").toList ∧
      ¬ Replaces Predefined "&an-entity-with-a-name-of-many-bytes;".toList
        (normalizeEntities "&an-entity-with-a-name-of-many-bytes;").toList ∧
      ¬ Replaces Predefined "& D;".toList (normalizeEntities "& D;").toList := by
  refine ⟨fun replaced => ?capitals, fun replaced => ?long, fun replaced => ?bare⟩
  case capitals =>
    have refers : Refers Predefined "&LT;".toList [] :=
      ⟨"LT".toList, ⟨⟨'L', rfl, by decide⟩, List.all_eq_true.mp rfl⟩, by decide, rfl⟩
    exact absurd (replaced.head_space refers) (by decide)
  case long =>
    have refers : Refers Predefined "&an-entity-with-a-name-of-many-bytes;".toList [] :=
      ⟨"an-entity-with-a-name-of-many-bytes".toList,
        ⟨⟨'a', rfl, by decide⟩, List.all_eq_true.mp rfl⟩, by decide, rfl⟩
    exact absurd (replaced.head_space refers) (by decide)
  case bare =>
    have unnamed (rest : List Char) : ¬ Refers Predefined ('&' :: " D;".toList) rest := by
      intro refers
      exact absurd refers.starts (by decide)
    exact absurd (replaced.head_kept unnamed) (by decide)

end Linkage.Project
