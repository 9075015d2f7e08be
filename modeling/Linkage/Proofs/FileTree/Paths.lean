import Mathlib.Data.List.DropRight
import Mathlib.Data.List.Induction
import Linkage.FileTree.Basic
import Linkage.Proofs.Text.Pieces

/-!
Where a written path leads, without a look at a tree: the key at its end and the keys that are
entered on the way. Joining a relative path goes on from where the first one ends. The paths above
one that descends from a directory stay strictly below that directory, until the directory itself
is written once more.
-/
namespace Linkage

namespace FileTree

open Text (splitAll)

/-- Where one piece of a path leads. -/
def stepTo (here : FileKey) (piece : String) : FileKey :=
  if Path.saysNothing piece then here else if piece = ".." then above here else here ++ [piece]

def walk (here : FileKey) (pieces : List String) : FileKey := pieces.foldl stepTo here

/-- The keys from which a step is made. -/
def way : FileKey → List String → List FileKey
  | _, [] => []
  | here, piece :: rest => here :: way (stepTo here piece) rest

def startOf (path : String) : FileKey := if Path.isAbsolute path then ["/"] else []

/-- The key that a path leads to. -/
def keyOf (path : String) : FileKey := walk (startOf path) (splitAll '/' path)

/-- The keys that are entered on the way of a path. -/
def wayOf (path : String) : List FileKey := way (startOf path) (splitAll '/' path)

theorem walk_cons (here : FileKey) (p : String) (ps : List String) :
    walk here (p :: ps) = walk (stepTo here p) ps := rfl

theorem walk_append (here : FileKey) (ps qs : List String) :
    walk here (ps ++ qs) = walk (walk here ps) qs := List.foldl_append

theorem way_append (here : FileKey) (ps qs : List String) :
    way here (ps ++ qs) = way here ps ++ way (walk here ps) qs := by
  induction ps generalizing here with
  | nil => rfl
  | cons p ps ih =>
    rw [List.cons_append, way, way, ih]
    rfl

theorem walk_of_not_mem {here : FileKey} {ps : List String} (down : ".." ∉ ps) :
    walk here ps = here ++ ps.filter (!Path.saysNothing ·) := by
  induction ps generalizing here with
  | nil => simp [walk]
  | cons p ps ih =>
    rw [List.mem_cons, not_or] at down
    rw [walk_cons, ih down.2, stepTo, if_neg (Ne.symm down.1)]
    cases said : Path.saysNothing p <;> simp [said]

theorem exists_append_of_mem_way {here d : FileKey} {ps : List String}
    (entered : d ∈ way here ps) : ∃ front back, ps = front ++ back ∧ d = walk here front := by
  induction ps generalizing here with
  | nil => cases entered
  | cons p ps ih =>
    rcases List.mem_cons.mp entered with rfl | entered
    · exact ⟨[], p :: ps, rfl, rfl⟩
    · obtain ⟨front, back, rfl, rfl⟩ := ih entered
      exact ⟨p :: front, back, rfl, rfl⟩

/-- A way that never goes up stays between its start and its end. -/
theorem isPrefix_of_mem_way {here d : FileKey} {ps : List String} (down : ".." ∉ ps)
    (entered : d ∈ way here ps) : here <+: d ∧ d <+: walk here ps := by
  obtain ⟨front, back, rfl, rfl⟩ := exists_append_of_mem_way entered
  rw [List.mem_append, not_or] at down
  rw [walk_append, walk_of_not_mem down.1, walk_of_not_mem down.2]
  exact ⟨List.prefix_append .., List.prefix_append ..⟩

end FileTree

namespace Path

open Text (splitAll)
open FileTree

/-- The pieces of a path to which those of another are joined. -/
def lead (base : String) : List String :=
  if base.isEmpty then []
  else if Text.endsWith "/" base then (splitAll '/' base).dropLast
  else splitAll '/' base

/-- An absolute path starts with an empty piece, which is not its only one. -/
theorem isAbsolute_iff {path : String} :
    isAbsolute path = true ↔ ∃ piece rest, splitAll '/' path = "" :: piece :: rest := by
  rw [isAbsolute, Text.startsWith, splitAll]
  cases chars : path.toList with
  | nil => simp [Text.pieces]
  | cons c cs =>
    by_cases slash : c = '/'
    · subst slash
      obtain ⟨p, ps, cut⟩ := List.exists_cons_of_ne_nil (Text.pieces_ne_nil (c := '/') cs)
      simp [Text.pieces_cons_cut, cut]
    · obtain ⟨p, ps, cut⟩ := List.exists_cons_of_ne_nil (Text.pieces_ne_nil (c := '/') cs)
      simp [Text.pieces, slash, cut, Ne.symm slash]

/-- A path that is written down is a text with or without a slash after it, and what is joined to
it follows that text and a slash. -/
theorem exists_front {base : String} (written : base ≠ "") :
    ∃ front, (base = front ∨ base = front ++ "/") ∧ lead base = splitAll '/' front ∧
      ∀ path, isAbsolute path = false → join base path = front ++ "/" ++ path := by
  have filled : base.isEmpty = false := by simpa using written
  cases slash : Text.endsWith "/" base with
  | false =>
    refine ⟨base, .inl rfl, by simp [lead, filled, slash], fun path relative => ?_⟩
    simp [join, relative, filled, slash]
  | true =>
    obtain ⟨cs, cut⟩ : ∃ cs, cs ++ ['/'] = base.toList := by
      simpa [Text.endsWith, List.IsSuffix] using slash
    have whole : base = String.ofList cs ++ "/" := by
      rw [← String.toList_inj, ← cut]
      simp
    have last : splitAll '/' base = splitAll '/' (String.ofList cs) ++ [""] := by
      rw [whole]
      exact Text.splitAll_concat_cut (String.ofList cs)
    refine ⟨String.ofList cs, .inr whole, by simp [lead, filled, slash, last], ?_⟩
    intro path relative
    simp [join, relative, filled, slash, ← whole]

theorem lead_ne_nil {base : String} (written : base ≠ "") : lead base ≠ [] := by
  obtain ⟨front, _, cut, _⟩ := exists_front written
  rw [cut]
  exact Text.splitAll_ne_nil front

/-- The pieces of a path are its lead, except for an empty piece at the end. -/
theorem splitAll_eq_lead {base : String} (written : base ≠ "") :
    splitAll '/' base = lead base ∨ splitAll '/' base = lead base ++ [""] := by
  obtain ⟨front, rfl | whole, cut, _⟩ := exists_front written
  · exact .inl cut.symm
  · right
    rw [cut, whole]
    exact Text.splitAll_concat_cut front

theorem mem_splitAll_of_mem_lead {base piece : String} (among : piece ∈ lead base) :
    piece ∈ splitAll '/' base := by
  by_cases written : base = ""
  · subst written
    cases among
  · rcases splitAll_eq_lead written with same | more
    · rwa [same]
    · rw [more]
      exact List.mem_append_left _ among

theorem walk_lead (base : String) : walk (startOf base) (lead base) = keyOf base := by
  by_cases written : base = ""
  · subst written
    decide
  · rw [keyOf]
    rcases splitAll_eq_lead written with same | more
    · rw [same]
    · rw [more, walk_append]
      rfl

/-- What is entered on the way of a path is entered on the way of its lead, or it is the end. -/
theorem mem_wayOf_of_mem_way_lead {base : String} {d : FileKey}
    (entered : d ∈ way (startOf base) (lead base)) : d ∈ wayOf base := by
  by_cases written : base = ""
  · subst written
    cases entered
  · rw [wayOf]
    rcases splitAll_eq_lead written with same | more
    · rwa [same]
    · rw [more, way_append]
      exact List.mem_append_left _ entered

theorem mem_way_lead_of_mem_wayOf {base : String} {d : FileKey} (entered : d ∈ wayOf base) :
    d ∈ way (startOf base) (lead base) ∨ d = keyOf base := by
  by_cases written : base = ""
  · subst written
    have first : wayOf "" = [keyOf ""] := by decide
    exact .inr (by simpa [first] using entered)
  · rw [wayOf] at entered
    rcases splitAll_eq_lead written with same | more
    · exact .inl (same ▸ entered)
    · rw [more, way_append, walk_lead, List.mem_append] at entered
      exact entered.imp_right fun last => by simpa [way] using last

section Join
variable {base path : String}

theorem isAbsolute_join (relative : isAbsolute path = false) :
    isAbsolute (join base path) = isAbsolute base := by
  by_cases written : base.isEmpty
  · have nothing : base = "" := by simpa using written
    simp only [join, relative, written, Bool.or_true, if_true]
    rw [nothing]
    rfl
  · obtain ⟨c, cs, chars⟩ : ∃ c cs, base.toList = c :: cs :=
      List.exists_cons_of_ne_nil (by simpa using written)
    simp only [join, relative, written, Bool.or_false, Bool.false_eq_true, if_false]
    split <;> simp [isAbsolute, Text.startsWith, chars, List.isPrefixOf]

theorem splitAll_join (relative : isAbsolute path = false) :
    splitAll '/' (join base path) = lead base ++ splitAll '/' path := by
  by_cases written : base = ""
  · simp [written, join, lead]
  · obtain ⟨front, _, cut, joined⟩ := exists_front written
    rw [joined path relative, cut]
    exact Text.splitAll_append_cut front path

theorem startOf_join (relative : isAbsolute path = false) :
    startOf (join base path) = startOf base := by
  rw [startOf, isAbsolute_join relative, startOf]

theorem keyOf_join (relative : isAbsolute path = false) :
    keyOf (join base path) = walk (keyOf base) (splitAll '/' path) := by
  rw [keyOf, startOf_join relative, splitAll_join relative, walk_append, walk_lead]

theorem wayOf_join (relative : isAbsolute path = false) :
    wayOf (join base path) =
      way (startOf base) (lead base) ++ way (keyOf base) (splitAll '/' path) := by
  rw [wayOf, startOf_join relative, splitAll_join relative, way_append, walk_lead]

end Join

section Trim
variable {ps : List String} {first : String}

theorem trimPieces_cons (first : String) (rest : List String) :
    trimPieces (first :: rest) = first :: rest.rdropWhile saysNothing := rfl

theorem trimPieces_trimPieces (ps : List String) : trimPieces (trimPieces ps) = trimPieces ps := by
  cases ps with
  | nil => rfl
  | cons first rest => rw [trimPieces_cons, trimPieces_cons, List.rdropWhile_idempotent]

theorem rdropWhile_append_cons (named : saysNothing first = false) (front rest : List String) :
    (front ++ first :: rest).rdropWhile saysNothing =
      front ++ first :: rest.rdropWhile saysNothing := by
  induction rest using List.reverseRecOn with
  | nil => simp [named]
  | append_singleton rest last ih =>
    rw [← List.cons_append, ← List.append_assoc, List.rdropWhile_concat, List.rdropWhile_concat]
    cases said : saysNothing last with
    | true => simpa using ih
    | false => simp

/-- What stands up to a name is not trimmed. -/
theorem trimPieces_append_cons (named : saysNothing first = false) (front rest : List String) :
    trimPieces (front ++ first :: rest) = front ++ first :: rest.rdropWhile saysNothing := by
  cases front with
  | nil => rfl
  | cons p front =>
    rw [List.cons_append, trimPieces_cons, rdropWhile_append_cons named, List.cons_append]

theorem trimPieces_concat_of_saysNothing {last : String} (named : saysNothing last = true)
    (nonempty : ps ≠ []) : trimPieces (ps ++ [last]) = trimPieces ps := by
  cases ps with
  | nil => exact absurd rfl nonempty
  | cons p ps =>
    rw [List.cons_append, trimPieces_cons, List.rdropWhile_concat_pos _ _ _ named, trimPieces_cons]

theorem walk_rdropWhile (here : FileKey) (ps : List String) :
    walk here (ps.rdropWhile saysNothing) = walk here ps := by
  induction ps using List.reverseRecOn with
  | nil => rfl
  | append_singleton ps last ih =>
    cases said : saysNothing last with
    | true =>
      rw [List.rdropWhile_concat_pos _ _ _ said, ih, walk_append]
      simp [walk, stepTo, said]
    | false => rw [List.rdropWhile_concat_neg _ _ _ (by simp [said])]

/-- Pieces at the end that say nothing lead nowhere else. -/
theorem keyOf_eq_walk_pieces (path : String) : keyOf path = walk (startOf path) (pieces path) := by
  rw [keyOf, pieces]
  cases splitAll '/' path with
  | nil => rfl
  | cons first rest => rw [trimPieces_cons, walk_cons, walk_cons, walk_rdropWhile]

end Trim

theorem components_congr {p q : String} (same : pieces p = pieces q)
    (start : isAbsolute p = isAbsolute q) : components p = components q := by
  rw [components, components, same]
  rw [isAbsolute, isAbsolute] at start
  rw [start]

/-- The last component of a path is the name that was joined to it last. -/
theorem components_join_getLast? {base name : String} (plain : '/' ∉ name.toList)
    (named : saysNothing name = false) : (components (join base name)).getLast? = some name := by
  have relative : isAbsolute name = false := by
    rw [← Bool.not_eq_true, isAbsolute_iff, Text.splitAll_of_not_mem plain]
    simp
  have cut : pieces (join base name) = lead base ++ [name] := by
    rw [pieces, splitAll_join relative, Text.splitAll_of_not_mem plain,
      trimPieces_append_cons named]
    rfl
  rw [components, cut]
  cases lead base with
  | nil =>
    have written : name ≠ "" := by
      rintro rfl
      cases named
    simp [written]
  | cons first rest =>
    have kept : (rest ++ [name]).filter (!saysNothing ·) =
        rest.filter (!saysNothing ·) ++ [name] := by simp [named]
    have last (front : List String) : (front ++ [name]).getLast? = some name := by simp
    simp only [List.cons_append, kept]
    split
    · split
      · exact last ("/" :: rest.filter (!saysNothing ·))
      · exact last (rest.filter (!saysNothing ·))
    · exact last (first :: rest.filter (!saysNothing ·))

section Parent
variable {path last : String} {front : List String}

theorem isAbsolute_iff_head? (cut : pieces path = front ++ [last]) (nonempty : front ≠ []) :
    isAbsolute path = true ↔ front.head? = some "" := by
  obtain ⟨p, front, rfl⟩ := List.exists_cons_of_ne_nil nonempty
  rw [isAbsolute_iff, pieces] at *
  cases split : splitAll '/' path with
  | nil => exact absurd split (Text.splitAll_ne_nil path)
  | cons first rest =>
    rw [split, trimPieces_cons, List.cons_append, List.cons.injEq] at cut
    cases rest with
    | nil => simp [List.rdropWhile] at cut
    | cons piece rest => simp [cut.1]

theorem mem_of_mem_trimPieces {ps : List String} {piece : String}
    (among : piece ∈ trimPieces ps) : piece ∈ ps := by
  cases ps with
  | nil => cases among
  | cons first rest =>
    rcases List.mem_cons.mp among with rfl | among
    · exact List.mem_cons_self
    · exact List.mem_cons_of_mem _ ((List.rdropWhile_prefix _ _).subset among)

theorem parent?_of_pieces (cut : pieces path = front ++ [last]) (nonempty : front ≠ []) :
    parent? path = some
      (if trimPieces front = [""] then "/" else String.intercalate "/" (trimPieces front)) := by
  obtain ⟨first, rest, rfl⟩ := List.exists_cons_of_ne_nil nonempty
  obtain ⟨second, others, two⟩ : ∃ second others, rest ++ [last] = second :: others :=
    List.exists_cons_of_ne_nil (by simp)
  have shape : pieces path = first :: second :: others := by rw [cut, List.cons_append, two]
  have inner : (first :: second :: others).dropLast = first :: rest := by
    rw [← two, ← List.cons_append, List.dropLast_concat]
  simp only [parent?, shape, inner]
  by_cases only : trimPieces (first :: rest) = [""]
  · simp [only]
  · simp [only]

/-- The path above a path is written with all pieces but the last. -/
theorem exists_parent (cut : pieces path = front ++ [last]) (nonempty : front ≠ []) :
    ∃ up, parent? path = some up ∧ pieces up = trimPieces front ∧
      isAbsolute up = isAbsolute path := by
  refine ⟨_, parent?_of_pieces cut nonempty, ?_⟩
  have start := isAbsolute_iff_head? cut nonempty
  by_cases only : trimPieces front = [""]
  · obtain ⟨first, rest, rfl⟩ := List.exists_cons_of_ne_nil nonempty
    have root : first = "" := (List.cons.inj only).1
    rw [if_pos only, only, start.mpr (by rw [root]; rfl)]
    decide
  · have uncut : ∀ p ∈ trimPieces front, '/' ∉ p.toList := by
      intro p among slash
      have there : p ∈ pieces path := cut ▸ List.mem_append_left _ (mem_of_mem_trimPieces among)
      exact (Text.mem_of_mem_splitAll (mem_of_mem_trimPieces there) slash).2 rfl
    obtain ⟨first, rest, rfl⟩ := List.exists_cons_of_ne_nil nonempty
    have split : splitAll '/' (String.intercalate "/" (trimPieces (first :: rest))) =
        first :: rest.rdropWhile saysNothing :=
      Text.splitAll_intercalate (by simp [trimPieces_cons]) uncut
    rw [if_neg only]
    refine ⟨by rw [pieces, split, ← trimPieces_cons, trimPieces_trimPieces], ?_⟩
    rw [Bool.eq_iff_iff, start, isAbsolute_iff, split]
    cases trimmed : rest.rdropWhile saysNothing with
    | nil =>
      rw [trimPieces_cons, trimmed] at only
      simpa using only
    | cons piece more => simp

end Parent

/-- Pieces that go down from where they start: the first is a name and none leads up. -/
def Descends (ps : List String) : Prop :=
  (∃ first rest, ps = first :: rest ∧ saysNothing first = false) ∧ ".." ∉ ps

theorem Descends.below {ps : List String} (down : Descends ps) (here : FileKey) :
    here <+: walk here ps ∧ walk here ps ≠ here := by
  obtain ⟨⟨first, rest, rfl, named⟩, low⟩ := down
  rw [walk_of_not_mem low]
  exact ⟨List.prefix_append .., by simp [named]⟩

theorem Descends.of_isPrefix {first : String} {kept rest : List String}
    (down : Descends (first :: rest)) (front : kept <+: rest) : Descends (first :: kept) := by
  obtain ⟨⟨_, _, same, named⟩, low⟩ := down
  obtain ⟨rfl, rfl⟩ := List.cons.inj same
  refine ⟨⟨first, kept, rfl, named⟩, fun up => low ?_⟩
  exact (List.cons_prefix_cons.mpr ⟨rfl, front⟩).subset up

/-- A path that is written as the path of a directory with pieces after it that go down. -/
def Under (top path : String) : Prop :=
  isAbsolute path = isAbsolute top ∧ ∃ ps, pieces path = lead top ++ ps ∧ Descends ps

/-- A relative path that nowhere leads up. -/
structure Inner (path : String) : Prop where
  relative : isAbsolute path = false
  low : ".." ∉ splitAll '/' path

/-- One that starts with a name. -/
structure Lower (path : String) : Prop extends Inner path where
  named : ∃ first rest, splitAll '/' path = first :: rest ∧ saysNothing first = false

theorem Inner.isPrefix_keyOf_join {path : String} (inner : Inner path) (base : String) :
    keyOf base <+: keyOf (join base path) := by
  rw [keyOf_join inner.relative, walk_of_not_mem inner.low]
  exact List.prefix_append ..

section Under
variable {top path : String}

theorem Lower.under_join (lower : Lower path) (top : String) : Under top (join top path) := by
  have down : Descends (splitAll '/' path) := ⟨lower.named, lower.low⟩
  obtain ⟨first, rest, cut, named⟩ := lower.named
  rw [cut] at down
  refine ⟨isAbsolute_join lower.relative, first :: rest.rdropWhile saysNothing, ?_, ?_⟩
  · rw [pieces, splitAll_join lower.relative, cut, trimPieces_append_cons named]
  · exact down.of_isPrefix (List.rdropWhile_prefix _ _)

theorem Under.below (under : Under top path) :
    keyOf top <+: keyOf path ∧ keyOf path ≠ keyOf top := by
  obtain ⟨start, ps, cut, down⟩ := under
  have key : keyOf path = walk (keyOf top) ps := by
    rw [keyOf_eq_walk_pieces, cut, walk_append, startOf, start, ← startOf, walk_lead]
  rw [key]
  exact down.below _

theorem pieces_eq_trimPieces_lead (written : top ≠ "") : pieces top = trimPieces (lead top) := by
  rw [pieces]
  rcases splitAll_eq_lead written with same | more
  · rw [same]
  · rw [more, trimPieces_concat_of_saysNothing rfl (lead_ne_nil written)]

/-- Above a path below a directory is another one, or the directory in some writing. -/
theorem Under.parent (under : Under top path) :
    ∃ up, parent? path = some up ∧ (Under top up ∨ components up = components top) := by
  obtain ⟨start, ps, cut, down⟩ := under
  obtain ⟨first, rest, rfl, named⟩ := down.1
  rcases List.eq_nil_or_concat rest with rfl | ⟨rest, last, rfl⟩
  · by_cases written : top = ""
    · subst written
      have alone : pieces path = [first] := cut
      have name : first ≠ "" := fun nothing => by simp [nothing, saysNothing] at named
      exact ⟨"", by simp [parent?, alone, name], .inr rfl⟩
    · obtain ⟨up, above, same, absolute⟩ := exists_parent cut (lead_ne_nil written)
      refine ⟨up, above, .inr (components_congr ?_ (absolute.trans start))⟩
      rw [same, pieces_eq_trimPieces_lead written]
  · rw [List.concat_eq_append] at cut down
    rw [← List.cons_append, ← List.append_assoc] at cut
    obtain ⟨up, above, same, absolute⟩ := exists_parent cut (by simp)
    refine ⟨up, above, .inl ⟨absolute.trans start, first :: rest.rdropWhile saysNothing, ?_, ?_⟩⟩
    · rw [same, trimPieces_append_cons named]
    · exact down.of_isPrefix ((List.rdropWhile_prefix _ _).trans (List.prefix_append ..))

/-- Going up from a path below a directory, all paths lie below it until it is reached. -/
theorem Under.of_mem_ancestors (under : Under top path) {up : String}
    (before : up ∈ (ancestors path).takeWhile fun up => !(components up == components top)) :
    Under top up := by
  rw [ancestors] at before
  generalize path.length = fuel at before
  induction fuel generalizing path with
  | zero => cases before
  | succ fuel ih =>
    obtain ⟨next, above, low⟩ := under.parent
    rw [ancestors.go, above] at before
    rcases low with low | same
    · rw [List.takeWhile_cons] at before
      split at before
      · rcases List.mem_cons.mp before with rfl | before
        · exact low
        · exact ih low before
      · cases before
    · simp [same] at before

end Under

/-- The way of the path of a directory does not lead through what lies below the directory. -/
def Direct (top : String) : Prop := ∀ d ∈ wayOf top, keyOf top <+: d → d = keyOf top

theorem direct_of_not_mem {top : String} (low : ".." ∉ splitAll '/' top) : Direct top := by
  intro d entered below
  have above := (isPrefix_of_mem_way low entered).2
  exact (below.eq_of_length_le above.length_le).symm

/-- Below a directory with a direct path, the way to a path below it only goes down. -/
theorem Direct.isPrefix_of_mem_wayOf {top path : String} (direct : Direct top)
    (inner : Inner path) {d : FileKey} (entered : d ∈ wayOf (join top path))
    (below : keyOf top <+: d) (other : d ≠ keyOf top) : d <+: keyOf (join top path) := by
  rw [wayOf_join inner.relative, List.mem_append] at entered
  rcases entered with before | after
  · exact absurd (direct d (mem_wayOf_of_mem_way_lead before) below) other
  · rw [keyOf_join inner.relative]
    exact (isPrefix_of_mem_way inner.low after).2

end Path

end Linkage
