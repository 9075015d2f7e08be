import Mathlib.Logic.Function.Basic
import Linkage.FileTree.Action
import Linkage.Proofs.FileTree.Paths

/-!
What changes to a file tree do to what stands at its keys. A path reaches its key when the system
takes its name and every key on its way is a directory. Each action then changes what stands at the
key that its path leads to, or it fails and changes nothing; only making a chain of directories can
stop half way, and all it ever does is to add directories.
-/
namespace Linkage

open Text (Bytes splitAll)

/-- What stands at a key, without the time of its last change. -/
inductive Occupant where
  | file (bytes : Bytes)
  | directory
  deriving DecidableEq

def FileNode.occupant : FileNode → Occupant
  | .file bytes _ => .file bytes
  | .directory _ => .directory

namespace FileTree

def occupant? (t : FileTree) (key : FileKey) : Option Occupant :=
  (t.node? key).map FileNode.occupant

/-- The bytes of the file at a key, if there is one. -/
def content? (t : FileTree) (key : FileKey) : Option Bytes :=
  match t.occupant? key with
  | some (.file bytes) => some bytes
  | _ => none

def IsDir (t : FileTree) (key : FileKey) : Prop := t.occupant? key = some .directory

theorem content?_congr {t t' : FileTree} {key : FileKey}
    (same : t'.occupant? key = t.occupant? key) : t'.content? key = t.content? key := by
  rw [content?, content?, same]

theorem content?_of_isDir {t : FileTree} {key : FileKey} (dir : t.IsDir key) :
    t.content? key = none := by
  rw [content?, show t.occupant? key = some .directory from dir]

theorem content?_of_occupant? {t : FileTree} {key : FileKey} (nothing : t.occupant? key = none) :
    t.content? key = none := by
  rw [content?, nothing]

section Occupants
variable (t : FileTree) {key k : FileKey}

theorem occupant?_of_anchor (anchor : isAnchor key = true) : t.occupant? key = some .directory := by
  simp [occupant?, node?, anchor, FileNode.occupant]

theorem occupant?_of_not_anchor (free : isAnchor key = false) :
    t.occupant? key = (t.nodes.find? (·.1 == key)).map (·.2.occupant) := by
  simp [occupant?, node?, free, Function.comp_def]

/-- A change that leaves every key in its place is made to the node that is found. -/
theorem find?_map_of_key {f : FileKey × FileNode → FileKey × FileNode} (kept : ∀ n, (f n).1 = n.1)
    (nodes : List (FileKey × FileNode)) (k : FileKey) :
    (nodes.map f).find? (·.1 == k) = (nodes.find? (·.1 == k)).map f := by
  rw [List.find?_map]
  congr 2
  funext n
  rw [Function.comp_apply, kept]

@[simp] theorem occupant?_touch (key : FileKey) : (t.touch key).occupant? = t.occupant? := by
  funext k
  cases anchor : isAnchor k with
  | true => rw [occupant?_of_anchor _ anchor, occupant?_of_anchor _ anchor]
  | false =>
    rw [occupant?_of_not_anchor _ anchor, occupant?_of_not_anchor _ anchor, touch, find?_map_of_key,
      Option.map_map]
    · congr 1
      funext ⟨place, node⟩
      cases node <;> simp only [Function.comp_apply] <;> split <;> rfl
    · rintro ⟨place, node⟩
      cases node <;> simp only <;> split <;> simp_all

theorem occupant?_place (free : isAnchor key = false) (node : FileNode) :
    (t.place key node).occupant? = Function.update t.occupant? key (some node.occupant) := by
  funext k
  cases anchor : isAnchor k with
  | true =>
    have other : k ≠ key := fun same => by simp [same, free] at anchor
    rw [Function.update_of_ne other, occupant?_of_anchor _ anchor, occupant?_of_anchor _ anchor]
  | false =>
    rw [occupant?_of_not_anchor _ anchor, place]
    split
    next there =>
      rw [find?_map_of_key (fun n => by split <;> simp_all), Option.map_map]
      by_cases same : k = key
      · subst same
        have found : (t.nodes.find? (·.1 == k)).isSome := by
          rw [List.find?_isSome]
          exact List.any_eq_true.mp there
        obtain ⟨n, found⟩ := Option.isSome_iff_exists.mp found
        have here : n.1 = k := by simpa using List.find?_some found
        simp [found, here]
      · rw [Function.update_of_ne same, occupant?_of_not_anchor _ anchor]
        cases found : t.nodes.find? (·.1 == k) with
        | none => rfl
        | some n =>
          have here : n.1 = k := by simpa using List.find?_some found
          simp [here, same]
    next missing =>
      rw [List.find?_append]
      by_cases same : k = key
      · subst same
        have none : t.nodes.find? (·.1 == k) = none :=
          List.find?_eq_none.mpr fun n among here => missing (List.any_eq_true.mpr ⟨n, among, here⟩)
        simp [none]
      · rw [Function.update_of_ne same, occupant?_of_not_anchor _ anchor]
        simp [Ne.symm same]

/-- What a filter on keys leaves; an anchor needs no node. -/
theorem occupant?_filter (p : FileKey → Bool) (k : FileKey) :
    ({ t with nodes := t.nodes.filter fun n => p n.1 } : FileTree).occupant? k =
      if p k = true ∨ isAnchor k = true then t.occupant? k else none := by
  cases anchor : isAnchor k with
  | true => simp [occupant?_of_anchor _ anchor]
  | false =>
    rw [occupant?_of_not_anchor _ anchor, occupant?_of_not_anchor _ anchor, List.find?_filter]
    cases kept : p k with
    | true =>
      simp only [true_or, if_true]
      congr 2
      funext n
      by_cases same : n.1 = k
      · simp [same, kept]
      · simp [same]
    | false =>
      simp only [Bool.false_eq_true, or_self, if_false, Option.map_eq_none_iff, List.find?_eq_none]
      rintro n - found
      simp only [decide_eq_true_eq] at found
      obtain ⟨left, here⟩ := found
      simp_all

theorem occupant?_erase (key k : FileKey) :
    (t.erase key).occupant? k = if k = key ∧ isAnchor k = false then none else t.occupant? k := by
  have left := t.occupant?_filter (fun n => n != key) k
  rw [erase, occupant?_touch, left]
  by_cases same : k = key
  · cases anchor : isAnchor k <;> simp [same]
  · simp [same]

end Occupants

section Perform
variable {α β : Type}

theorem perform_bind (a : Action α) (f : α → Action β) (t : FileTree) :
    perform (a >>= f) t = match perform a t with
      | (.ok x, t) => perform (f x) t
      | (.error e, t) => (.error e, t) := by
  simp only [perform, ExceptT.run_bind, StateT.run_bind]
  rcases a.run.run t with ⟨e | x, t'⟩
  · rfl
  · rfl

theorem perform_tryCatch (a : Action α) (h : OsError → Action α) (t : FileTree) :
    perform (tryCatch a h) t = match perform a t with
      | (.ok x, t) => (.ok x, t)
      | (.error e, t) => perform (h e) t := by
  simp only [perform, ExceptT.run, tryCatch, tryCatchThe, MonadExceptOf.tryCatch, ExceptT.tryCatch,
    ExceptT.mk, StateT.run_bind]
  rcases StateT.run a t with ⟨e | x, t'⟩
  · rfl
  · rfl

@[simp] theorem perform_get (t : FileTree) : perform get t = (.ok t, t) := rfl

@[simp] theorem perform_set (next t : FileTree) : perform (set next) t = (.ok (), next) := rfl

@[simp] theorem perform_lift (f : FileTree → Except OsError α) (t : FileTree) :
    perform (Action.lift f) t = (f t, t) := by
  simp only [Action.lift, perform_bind, perform_get]
  cases f t with
  | error e => rfl
  | ok x => rfl

end Perform

/-- A path that the system takes as a name, whatever there is. -/
structure Named (path : String) : Prop where
  clean : path.toList.any (·.toNat == 0) = false
  written : path.isEmpty = false
  short : path.utf8ByteSize ≤ longestPath
  pieces : ∀ piece ∈ splitAll '/' path, piece.utf8ByteSize ≤ longestName

/-- Whether following a path comes to its end. -/
def Reaches (t : FileTree) (path : String) : Prop := Named path ∧ ∀ d ∈ wayOf path, t.IsDir d

/-- Whether a path leads to a directory. -/
def Finds (t : FileTree) (path : String) : Prop := t.Reaches path ∧ t.IsDir (keyOf path)

section Locate
variable {t t' : FileTree} {path : String}

theorem Reaches.mono (reaches : t.Reaches path) (kept : ∀ d, t.IsDir d → t'.IsDir d) :
    t'.Reaches path :=
  ⟨reaches.1, fun d entered => kept d (reaches.2 d entered)⟩

theorem Finds.mono (finds : t.Finds path) (kept : ∀ d, t.IsDir d → t'.IsDir d) : t'.Finds path :=
  ⟨finds.1.mono kept, kept _ finds.2⟩

theorem Named.of_join {base : String} (relative : Path.isAbsolute path = false)
    (named : Named (Path.join base path)) (written : base ≠ "") : Named base := by
  have filled : base.isEmpty = false := by simpa using written
  obtain ⟨middle, joined⟩ : ∃ middle, Path.join base path = base ++ middle ++ path := by
    rw [Path.join, relative, filled]
    split
    next => contradiction
    next =>
      split
      next => exact ⟨"", by simp⟩
      next => exact ⟨"/", rfl⟩
  have short := named.short
  have clean := named.clean
  have pieces := named.pieces
  rw [joined, String.utf8ByteSize_append, String.utf8ByteSize_append] at short
  rw [joined] at clean
  rw [Path.splitAll_join relative] at pieces
  refine ⟨?_, filled, by omega, fun piece among => ?_⟩
  · simp_all
  · rcases Path.splitAll_eq_lead written with same | more
    · exact pieces piece (List.mem_append_left _ (same ▸ among))
    · rw [more, List.mem_append] at among
      rcases among with among | among
      · exact pieces piece (List.mem_append_left _ among)
      · rw [List.mem_singleton.mp among]
        decide

/-- What reaches a path below a directory reaches the directory, which is one. -/
theorem Reaches.of_join {base : String} (relative : Path.isAbsolute path = false)
    (reaches : t.Reaches (Path.join base path)) (written : base ≠ "") : t.Finds base := by
  have along := reaches.2
  rw [Path.wayOf_join relative] at along
  have dir : t.IsDir (keyOf base) := by
    obtain ⟨first, rest, cut⟩ := List.exists_cons_of_ne_nil (Text.splitAll_ne_nil (c := '/') path)
    rw [cut] at along
    exact along _ (List.mem_append_right _ List.mem_cons_self)
  refine ⟨⟨reaches.1.of_join relative written, fun d entered => ?_⟩, dir⟩
  rcases Path.mem_way_lead_of_mem_wayOf entered with before | rfl
  · exact along d (List.mem_append_left _ before)
  · exact dir

theorem enter_eq_ok_iff {key : FileKey} : t.enter key = .ok () ↔ t.IsDir key := by
  rw [enter, IsDir, occupant?]
  split <;> simp_all [FileNode.occupant]

theorem follow_eq_ok_iff {here key : FileKey} {ps : List String} :
    t.follow here ps = .ok key ↔
      (∀ piece ∈ ps, piece.utf8ByteSize ≤ longestName) ∧ (∀ d ∈ way here ps, t.IsDir d) ∧
        key = walk here ps := by
  induction ps generalizing here with
  | nil => simp [follow, way, walk, eq_comm]
  | cons piece ps ih =>
    rw [follow]
    cases entered : t.enter here with
    | error e =>
      have outside : ¬ t.IsDir here := fun dir => by
        rw [enter_eq_ok_iff.mpr dir] at entered
        cases entered
      simp [way, outside]
    | ok _ =>
      have dir : t.IsDir here := enter_eq_ok_iff.mp entered
      simp only [List.forall_mem_cons, way, walk_cons, dir, true_and, stepTo]
      split
      next said =>
        have short : piece.utf8ByteSize ≤ longestName := by
          rcases (by simpa [Path.saysNothing] using said : piece = "" ∨ piece = ".") with rfl | rfl
          all_goals decide
        rw [ih]
        simp [short]
      next =>
        split
        next up =>
          have short : piece.utf8ByteSize ≤ longestName := by
            rw [up]
            decide
          rw [ih]
          simp [short]
        next =>
          split
          next long => simp [Nat.not_le.mpr long]
          next short =>
            rw [ih]
            simp [Nat.not_lt.mp short]

theorem locate_eq_ok_iff {key : FileKey} :
    t.locate path = .ok key ↔ t.Reaches path ∧ key = keyOf path := by
  rw [locate, followFrom, Reaches]
  split
  next nul => simp [show ¬ Named path from fun named => by simp [named.clean] at nul]
  next clean =>
    split
    next empty => simp [show ¬ Named path from fun named => by simp [named.written] at empty]
    next written =>
      split
      next long => simp [show ¬ Named path from fun named => Nat.not_lt.mpr named.short long]
      next short =>
        rw [follow_eq_ok_iff, ← and_assoc]
        refine and_congr (and_congr ⟨fun fits => ?_, fun named => named.pieces⟩ Iff.rfl) Iff.rfl
        exact ⟨by simpa using clean, by simpa using written, Nat.not_lt.mp short, fits⟩

theorem perform_of_reaches {α : Type} (reaches : t.Reaches path) (f : FileKey → Action α) :
    perform (Action.locate path >>= f) t = perform (f (keyOf path)) t := by
  rw [perform_bind, Action.locate, perform_lift, locate_eq_ok_iff.mpr ⟨reaches, rfl⟩]

theorem exists_error_of_not_reaches {α : Type} (missed : ¬ t.Reaches path)
    (f : FileKey → Action α) : ∃ e, perform (Action.locate path >>= f) t = (.error e, t) := by
  rw [perform_bind, Action.locate, perform_lift]
  cases found : t.locate path with
  | error e => exact ⟨e, rfl⟩
  | ok key => exact absurd (locate_eq_ok_iff.mp found).1 missed

end Locate

section Nodes
variable {t : FileTree} {key : FileKey}

theorem isAnchor_of_not_isDir (other : ¬ t.IsDir key) : isAnchor key = false := by
  cases anchor : isAnchor key with
  | false => rfl
  | true => exact absurd (occupant?_of_anchor t anchor) other

theorem occupant?_erase_of_not_anchor (free : isAnchor key = false) :
    (t.erase key).occupant? = Function.update t.occupant? key none := by
  funext k
  rw [occupant?_erase, Function.update_apply]
  by_cases same : k = key
  · simp [same, free]
  · simp [same]

theorem isDir_of_node? {m : Int} (found : t.node? key = some (.directory m)) : t.IsDir key := by
  rw [IsDir, occupant?, found]
  rfl

theorem not_isDir_of_node? (other : ∀ m, t.node? key ≠ some (.directory m)) : ¬ t.IsDir key := by
  intro dir
  rw [IsDir, occupant?] at dir
  cases found : t.node? key with
  | none => simp [found] at dir
  | some node =>
    cases node with
    | file bytes m => simp [found, FileNode.occupant] at dir
    | directory m => exact other m found

end Nodes

/-- A file is written at the key that its path reaches, unless a directory stands there. -/
theorem writeText_cases (t : FileTree) (path text : String) :
    (∃ e, perform (Action.writeText path text) t = (.error e, t)) ∨
      ∃ t', perform (Action.writeText path text) t = (.ok (), t') ∧ t.Reaches path ∧
        ¬ t.IsDir (keyOf path) ∧
        t'.occupant? =
          Function.update t.occupant? (keyOf path) (some (.file (Text.encodeUtf8 text))) := by
  simp only [Action.writeText, Action.write, Action.put]
  split
  next =>
    left
    simp only [perform_bind, perform_lift]
    cases t.locateHolder path with
    | error e => exact ⟨e, rfl⟩
    | ok key => exact ⟨_, rfl⟩
  next =>
    by_cases reaches : t.Reaches path
    · rw [perform_of_reaches reaches]
      simp only [Action.putAt, perform_bind, perform_get]
      cases found : t.node? (keyOf path) with
      | none =>
        have other : ¬ t.IsDir (keyOf path) := not_isDir_of_node? (by simp [found])
        refine .inr ⟨_, rfl, reaches, other, ?_⟩
        rw [occupant?_touch, occupant?_place _ (isAnchor_of_not_isDir other)]
        rfl
      | some node =>
        cases node with
        | directory m => exact .inl ⟨_, rfl⟩
        | file old m =>
          have other : ¬ t.IsDir (keyOf path) := not_isDir_of_node? (by simp [found])
          refine .inr ⟨_, rfl, reaches, other, ?_⟩
          rw [occupant?_place _ (isAnchor_of_not_isDir other)]
          rfl
    · exact .inl (exists_error_of_not_reaches reaches _)

/-- A file is moved between the keys that two paths reach, unless a directory stands at one. -/
theorem moveFile_cases (t : FileTree) (source target : String) :
    (∃ e, perform (Action.moveFile source target) t = (.error e, t)) ∨
      ∃ t' bytes, perform (Action.moveFile source target) t = (.ok (), t') ∧ t.Reaches target ∧
        t.occupant? (keyOf source) = some (.file bytes) ∧ ¬ t.IsDir (keyOf target) ∧
        t'.occupant? =
          Function.update (Function.update t.occupant? (keyOf source) none) (keyOf target)
            (some (.file bytes)) := by
  rw [Action.moveFile]
  by_cases leaves : t.Reaches source
  case neg => exact .inl (exists_error_of_not_reaches leaves _)
  rw [perform_of_reaches leaves]
  by_cases reaches : t.Reaches target
  case neg => exact .inl (exists_error_of_not_reaches reaches _)
  rw [perform_of_reaches reaches]
  simp only [perform_bind, perform_get, perform_lift]
  cases t.enter (above (keyOf target)) with
  | error e => exact .inl ⟨e, rfl⟩
  | ok _ =>
    simp only
    split
    next => exact .inl ⟨_, rfl⟩
    next => exact .inl ⟨_, rfl⟩
    next => exact .inl ⟨_, rfl⟩
    next bytes m found other =>
      have away : ¬ t.IsDir (keyOf source) := not_isDir_of_node? (by simp [found])
      have free : ¬ t.IsDir (keyOf target) := not_isDir_of_node? other
      refine .inr ⟨_, bytes, rfl, reaches, by simp [occupant?, found, FileNode.occupant], free, ?_⟩
      rw [occupant?_touch, occupant?_place _ (isAnchor_of_not_isDir free),
        occupant?_erase_of_not_anchor (isAnchor_of_not_isDir away)]
      rfl

/-- Removing a file leaves no file at the key that its path reaches. -/
theorem removeFile_cases (t : FileTree) (path : String) :
    ((perform (Action.removeFile path) t).2 = t ∧
        (t.Reaches path → t.content? (keyOf path) = none)) ∨
      (¬ t.IsDir (keyOf path) ∧
        (perform (Action.removeFile path) t).2.occupant? =
          Function.update t.occupant? (keyOf path) none) := by
  rw [Action.removeFile]
  by_cases reaches : t.Reaches path
  case neg =>
    obtain ⟨e, failed⟩ := exists_error_of_not_reaches reaches _
    exact .inl ⟨by rw [failed], fun there => absurd there reaches⟩
  rw [perform_of_reaches reaches]
  simp only [perform_bind, perform_get]
  cases found : t.node? (keyOf path) with
  | none => exact .inl ⟨rfl, fun _ => content?_of_occupant? (by rw [occupant?, found]; rfl)⟩
  | some node =>
    cases node with
    | directory m => exact .inl ⟨rfl, fun _ => content?_of_isDir (isDir_of_node? found)⟩
    | file bytes m =>
      have other : ¬ t.IsDir (keyOf path) := not_isDir_of_node? (by simp [found])
      exact .inr ⟨other, occupant?_erase_of_not_anchor (isAnchor_of_not_isDir other)⟩

/-- Below a directory that holds nothing there is no node. -/
theorem occupant?_of_not_hasChildren {t : FileTree} {key k : FileKey}
    (empty : t.hasChildren key = false) (below : key <+: k) (other : k ≠ key)
    (free : isAnchor k = false) : t.occupant? k = none := by
  rw [occupant?_of_not_anchor t free, Option.map_eq_none_iff, List.find?_eq_none]
  rintro ⟨place, node⟩ among here
  obtain rfl : place = k := by simpa using here
  obtain ⟨rest, rfl⟩ := below
  obtain ⟨first, rest, rfl⟩ := List.exists_cons_of_ne_nil (l := rest) (by simpa using other)
  have tail : key.isPrefixOf? (key ++ first :: rest) = some (first :: rest) :=
    List.isPrefixOf?_eq_some_iff_append_eq.mpr rfl
  have child : (first :: rest, node) ∈ t.below key :=
    List.mem_filterMap.mpr ⟨_, among, by simp only [tail]⟩
  rw [hasChildren, Bool.not_eq_false', List.isEmpty_iff] at empty
  rw [empty] at child
  cases child

theorem removeDirectory_cases (t : FileTree) (path : String) :
    (∃ e, perform (Action.removeDirectory path) t = (.error e, t)) ∨
      ∃ t', perform (Action.removeDirectory path) t = (.ok (), t') ∧
        (∀ key, t'.content? key = t.content? key) ∧
        (∀ d, t.IsDir d → d ≠ keyOf path → t'.IsDir d) ∧
        ∀ key, keyOf path <+: key → t'.content? key = none := by
  rw [Action.removeDirectory]
  by_cases reaches : t.Reaches path
  case neg => exact .inl (exists_error_of_not_reaches reaches _)
  rw [perform_of_reaches reaches]
  simp only [perform_bind, perform_get]
  cases found : t.node? (keyOf path) with
  | none => exact .inl ⟨_, rfl⟩
  | some node =>
    cases node with
    | file bytes m => exact .inl ⟨_, rfl⟩
    | directory m =>
      simp only
      split
      next => exact .inl ⟨_, rfl⟩
      next empty =>
        have dir := isDir_of_node? found
        have same (key : FileKey) : (t.erase (keyOf path)).content? key = t.content? key := by
          have left := t.occupant?_erase (keyOf path) key
          split at left
          next both => rw [content?_of_occupant? left, both.1, content?_of_isDir dir]
          next => exact content?_congr left
        refine .inr ⟨_, rfl, same, fun d there other => ?_, fun key below => ?_⟩
        · rw [IsDir, occupant?_erase, if_neg (fun both => other both.1)]
          exact there
        · rw [same key]
          cases anchor : isAnchor key with
          | true => exact content?_of_isDir (occupant?_of_anchor t anchor)
          | false =>
            by_cases here : key = keyOf path
            · exact content?_of_isDir (here ▸ dir)
            · exact content?_of_occupant?
                (occupant?_of_not_hasChildren (by simpa using empty) below here anchor)

/-- Removing a directory with all that it holds leaves no file below it. -/
theorem removeTree_cases (t : FileTree) (path : String) :
    ((perform (Action.removeTree path) t).2 = t ∧ ¬ t.Finds path) ∨
      ∀ key, (perform (Action.removeTree path) t).2.content? key =
        if keyOf path <+: key then none else t.content? key := by
  rw [Action.removeTree]
  by_cases reaches : t.Reaches path
  case neg =>
    obtain ⟨e, failed⟩ := exists_error_of_not_reaches reaches _
    exact .inl ⟨by rw [failed], fun there => reaches there.1⟩
  rw [perform_of_reaches reaches]
  simp only [perform_bind, perform_get]
  cases found : t.node? (keyOf path) with
  | none =>
    have other : ¬ t.IsDir (keyOf path) := not_isDir_of_node? (by simp [found])
    exact .inl ⟨rfl, fun there => other there.2⟩
  | some node =>
    cases node with
    | file bytes m =>
      have other : ¬ t.IsDir (keyOf path) := not_isDir_of_node? (by simp [found])
      exact .inl ⟨rfl, fun there => other there.2⟩
    | directory m =>
      right
      intro key
      have left := t.occupant?_filter (fun k => !(keyOf path).isPrefixOf k) key
      simp only [perform_set, content?, occupant?_touch, left]
      by_cases below : keyOf path <+: key
      · have inside : (keyOf path).isPrefixOf key = true := List.isPrefixOf_iff_prefix.mpr below
        cases anchor : isAnchor key with
        | true => simp [below, occupant?_of_anchor t anchor]
        | false => simp [below, inside]
      · have outside : (keyOf path).isPrefixOf key = false :=
          Bool.eq_false_iff.mpr fun inside => below (List.isPrefixOf_iff_prefix.mp inside)
        simp [below, outside]

/-- Nothing but directories was added. -/
def Grows (t t' : FileTree) : Prop :=
  ∀ key, t'.occupant? key = t.occupant? key ∨ (t.occupant? key = none ∧ t'.IsDir key)

section Grows
variable {t u v : FileTree}

theorem Grows.refl (t : FileTree) : Grows t t := fun _ => .inl rfl

theorem Grows.trans (first : Grows t u) (second : Grows u v) : Grows t v := by
  intro key
  rcases second key with same | ⟨missing, dir⟩
  · rcases first key with before | ⟨missing, dir⟩
    · exact .inl (same.trans before)
    · exact .inr ⟨missing, same.trans dir⟩
  · rcases first key with before | ⟨_, earlier⟩
    · exact .inr ⟨before ▸ missing, dir⟩
    · rw [IsDir, missing] at earlier
      cases earlier

theorem Grows.content? (grows : Grows t u) (key : FileKey) : u.content? key = t.content? key := by
  rcases grows key with same | ⟨missing, dir⟩
  · exact content?_congr same
  · rw [content?_of_isDir dir, content?_of_occupant? missing]

theorem Grows.isDir (grows : Grows t u) {key : FileKey} (dir : t.IsDir key) : u.IsDir key := by
  rcases grows key with same | ⟨_, made⟩
  · exact same.trans dir
  · exact made

end Grows

/-- An action that only adds directories, whether it fails or not. -/
def Builds {α : Type} (a : Action α) : Prop := ∀ t, Grows t (perform a t).2

section Builds
variable {α β : Type}

theorem Builds.pure (x : α) : Builds (Pure.pure x : Action α) := Grows.refl

theorem Builds.throw (e : OsError) : Builds (MonadExcept.throw e : Action α) := Grows.refl

theorem Builds.bind {a : Action α} {f : α → Action β} (first : Builds a)
    (next : ∀ x, Builds (f x)) : Builds (a >>= f) := by
  intro t
  have grown := first t
  rw [perform_bind]
  rcases came : perform a t with ⟨e | x, t'⟩
  · rwa [came] at grown
  · rw [came] at grown
    exact grown.trans (next x t')

theorem Builds.tryCatch {a : Action α} {h : OsError → Action α} (first : Builds a)
    (next : ∀ e, Builds (h e)) : Builds (MonadExcept.tryCatch a h) := by
  intro t
  have grown := first t
  rw [perform_tryCatch]
  rcases came : perform a t with ⟨e | x, t'⟩
  · rw [came] at grown
    exact grown.trans (next e t')
  · rwa [came] at grown

theorem Builds.get : Builds (MonadState.get : Action FileTree) := Grows.refl

theorem createDirectory_builds (path : String) : Builds (Action.createDirectory path) := by
  intro t
  rw [Action.createDirectory]
  by_cases reaches : t.Reaches (Path.trimSlashes path)
  · rw [perform_of_reaches reaches]
    simp only [perform_bind, perform_get]
    cases found : t.node? (keyOf (Path.trimSlashes path)) with
    | some node => exact Grows.refl t
    | none =>
      have other : ¬ t.IsDir (keyOf (Path.trimSlashes path)) := not_isDir_of_node? (by simp [found])
      intro key
      simp only [perform_set]
      rw [IsDir, occupant?_touch, occupant?_place _ (isAnchor_of_not_isDir other),
        Function.update_apply]
      by_cases same : key = keyOf (Path.trimSlashes path)
      · subst same
        exact .inr ⟨by rw [occupant?, found]; rfl, if_pos rfl⟩
      · exact .inl (if_neg same)
  · obtain ⟨e, failed⟩ := exists_error_of_not_reaches reaches _
    rw [failed]
    exact Grows.refl t

theorem ensureDirectory_builds (path : String) : Builds (Action.ensureDirectory path) := by
  refine .tryCatch (createDirectory_builds path) fun e => .bind .get fun t => ?_
  split
  · exact .pure ()
  · exact .throw e

theorem createDirectories_builds (fuel : Nat) (path : String) :
    Builds (Action.createDirectories fuel path) := by
  induction fuel generalizing path with
  | zero => exact .pure ()
  | succ fuel ih =>
    rw [Action.createDirectories]
    split
    · exact .pure ()
    · refine .tryCatch (createDirectory_builds path) fun e => ?_
      split
      · refine .bind .get fun t => ?_
        split
        · exact .pure ()
        · exact .throw e
      · split
        · exact .throw _
        · exact .bind (ih _) fun _ => ensureDirectory_builds path

end Builds

end FileTree

end Linkage
