import Linkage.Proofs.FileTree.Changes
import Linkage.Run.Output

/-!
What a delivery that fails leaves of the files that were there. Writing into the staging directory
changes no file outside of it, moving a file changes the file at its place, and taking back what
was moved removes these files and nothing else. So the files that a delivery replaced before it
failed are lost, all the others are as they were, and no file is new.
-/
namespace Linkage.Run.Output

open FileTree
open Text (splitAll)

/-- A path of a file below the output directory that does not start with a given name. -/
structure Proper (staged path : String) : Prop extends Path.Lower path where
  apart : (splitAll '/' path).head? ≠ some staged

section Staging
variable {staging : String} {t u v : FileTree}

/-- How writing below a staging directory changes a tree. -/
structure Stages (staging : String) (t u : FileTree) : Prop where
  outside : ∀ key, ¬ keyOf staging <+: key → u.content? key = t.content? key
  dirs : ∀ d, t.IsDir d → u.IsDir d
  held : (∀ key, u.content? key = t.content? key) ∨ u.Finds staging

theorem Stages.of_grows (grows : Grows t u) : Stages staging t u where
  outside key _ := grows.content? key
  dirs _ dir := grows.isDir dir
  held := .inl grows.content?

theorem Stages.trans (first : Stages staging t u) (second : Stages staging u v) :
    Stages staging t v where
  outside key free := (second.outside key free).trans (first.outside key free)
  dirs d dir := second.dirs d (first.dirs d dir)
  held := by
    rcases second.held with same | held
    · rcases first.held with before | held
      · exact .inl fun key => (same key).trans (before key)
      · exact .inr (held.mono second.dirs)
    · exact .inr held

-- A file tree as an action leaves it is never computed here, only described.
attribute [local irreducible] perform write

theorem writeAll_cons (root : String) (o : Output) (rest : List Output) (t : FileTree) :
    writeAll root (o :: rest) t = match o.write root t with
      | (.ok (), t) => writeAll root rest t
      | (.error f, t) => (.error f, t) := by rfl

theorem makeRoom_builds (path : String) : Builds (makeRoom path) := by
  rw [makeRoom]
  split
  · exact createDirectories_builds _ _
  · exact .pure ()

/-- Writing one file; when it was written, the staging directory is there. -/
theorem write_stages (written : staging ≠ "") {o : Output} (inner : Path.Inner o.path)
    (t : FileTree) :
    Stages staging t (o.write staging t).2 ∧
      ((o.write staging t).1 = .ok () → (o.write staging t).2.Finds staging) := by
  have room := makeRoom_builds (Path.join staging o.path) t
  unfold write
  simp only
  rcases made : perform (makeRoom (Path.join staging o.path)) t with ⟨e | x, u⟩
  · rw [made] at room
    exact ⟨.of_grows room, fun done => by cases done⟩
  · rw [made] at room
    simp only
    rcases writeText_cases u (Path.join staging o.path) o.text with
      ⟨e, failed⟩ | ⟨v, done, reaches, other, changed⟩
    · rw [failed]
      exact ⟨.of_grows room, fun done => by cases done⟩
    · rw [done]
      have dirs (d : FileKey) (dir : u.IsDir d) : v.IsDir d := by
        have away : d ≠ keyOf (Path.join staging o.path) := fun same => other (same ▸ dir)
        rw [IsDir, changed, Function.update_of_ne away]
        exact dir
      have held : v.Finds staging := (reaches.of_join inner.relative written).mono dirs
      refine ⟨(Stages.of_grows room).trans ⟨fun key free => ?_, dirs, .inr held⟩, fun _ => held⟩
      have away : key ≠ keyOf (Path.join staging o.path) := by
        rintro rfl
        exact free (inner.isPrefix_keyOf_join staging)
      exact content?_congr (by rw [changed, Function.update_of_ne away])

theorem writeAll_stages (written : staging ≠ "") {outputs : List Output}
    (inner : ∀ o ∈ outputs, Path.Inner o.path) (t : FileTree) :
    Stages staging t (writeAll staging outputs t).2 ∧
      ((writeAll staging outputs t).1 = .ok () → outputs ≠ [] →
        (writeAll staging outputs t).2.Finds staging) := by
  induction outputs generalizing t with
  | nil => exact ⟨.of_grows (.refl t), fun _ some => absurd rfl some⟩
  | cons o outputs ih =>
    have first := write_stages written (inner o List.mem_cons_self) t
    rw [writeAll_cons]
    rcases step : o.write staging t with ⟨f | x, u⟩
    · rw [step] at first
      exact ⟨first.1, fun done => by cases done⟩
    · rw [step] at first
      have rest := ih (fun p among => inner p (List.mem_cons_of_mem _ among)) u
      exact ⟨first.1.trans rest.1, fun _ _ => (first.2 rfl).mono rest.1.dirs⟩

end Staging

section Moving
variable {staging top : String} {t u v : FileTree}

/-- How moving files to their places changes a tree. -/
structure Moves (staging top : String) (paths : List String) (t u : FileTree) : Prop where
  outside : ∀ key, ¬ keyOf staging <+: key → (∀ path ∈ paths, key ≠ keyOf (Path.join top path)) →
    u.content? key = t.content? key
  dirs : ∀ d, t.IsDir d → u.IsDir d
  reaches : ∀ path ∈ paths, u.Reaches (Path.join top path)

theorem Moves.of_grows (grows : Grows t u) : Moves staging top [] t u where
  outside key _ _ := grows.content? key
  dirs _ dir := grows.isDir dir
  reaches _ among := by cases among

theorem Moves.append {front back : List String} (first : Moves staging top front t u)
    (second : Moves staging top back u v) : Moves staging top (front ++ back) t v where
  outside key free other := by
    rw [second.outside key free fun path among => other path (List.mem_append_right _ among),
      first.outside key free fun path among => other path (List.mem_append_left _ among)]
  dirs d dir := second.dirs d (first.dirs d dir)
  reaches path among := by
    rcases List.mem_append.mp among with among | among
    · exact (first.reaches path among).mono second.dirs
    · exact second.reaches path among

/-- Moving one file either gets it to its place or has made some directories. -/
theorem move_cases (staging top : String) {path : String} (inner : Path.Inner path)
    (t : FileTree) :
    (∃ e u, perform (move staging (Path.join top path) path) t = (.error e, u) ∧
        Moves staging top [] t u) ∨
      ∃ u, perform (move staging (Path.join top path) path) t = (.ok (), u) ∧
        Moves staging top [path] t u := by
  have room := makeRoom_builds (Path.join top path) t
  rw [move, perform_bind]
  rcases made : perform (makeRoom (Path.join top path)) t with ⟨e | x, u⟩
  · rw [made] at room
    exact .inl ⟨e, u, rfl, .of_grows room⟩
  · rw [made] at room
    simp only
    rcases moveFile_cases u (Path.join staging path) (Path.join top path) with
      ⟨e, failed⟩ | ⟨v, bytes, done, reaches, file, other, changed⟩
    · exact .inl ⟨e, u, failed, .of_grows room⟩
    · have kept (key : FileKey) (source : key ≠ keyOf (Path.join staging path))
          (target : key ≠ keyOf (Path.join top path)) : v.occupant? key = u.occupant? key := by
        rw [changed, Function.update_of_ne target, Function.update_of_ne source]
      have dirs (d : FileKey) (dir : u.IsDir d) : v.IsDir d := by
        have source : d ≠ keyOf (Path.join staging path) := by
          rintro rfl
          rw [IsDir, file] at dir
          cases dir
        have target : d ≠ keyOf (Path.join top path) := fun same => other (same ▸ dir)
        exact (kept d source target).trans dir
      refine .inr ⟨v, done, (Moves.of_grows room).append ⟨?_, dirs, ?_⟩⟩
      · intro key free away
        have source : key ≠ keyOf (Path.join staging path) := by
          rintro rfl
          exact free (inner.isPrefix_keyOf_join staging)
        exact content?_congr (kept key source (away path List.mem_cons_self))
      · intro other among
        rw [List.mem_singleton.mp among]
        exact reaches.mono dirs

theorem publish_cons (staging top path : String) (moved rest : List String) (t : FileTree) :
    publish staging top moved (path :: rest) t =
      match perform (move staging (Path.join top path) path) t with
      | (.ok (), t) => publish staging top (moved ++ [Path.join top path]) rest t
      | (.error e, t) =>
        (.error ⟨.publish, Path.join top path, e⟩, moved.foldl (takeBack top) t) := by rfl

/-- When a move fails, the files that were moved before are taken back. -/
theorem publish_error {moved paths : List String} {f : OutputFault}
    (inner : ∀ path ∈ paths, Path.Inner path)
    (failed : publish staging top moved paths t = (.error f, v)) :
    ∃ before path after e u, paths = before ++ path :: after ∧
      f = ⟨.publish, Path.join top path, e⟩ ∧ Moves staging top before t u ∧
      v = (moved ++ before.map (Path.join top)).foldl (takeBack top) u := by
  induction paths generalizing moved t with
  | nil => cases failed
  | cons path paths ih =>
    rw [publish_cons] at failed
    rcases move_cases staging top (inner path List.mem_cons_self) t with
      ⟨e, u, missed, moves⟩ | ⟨u, done, moves⟩
    · rw [missed] at failed
      cases failed
      exact ⟨[], path, paths, e, u, rfl, rfl, moves, by simp⟩
    · rw [done] at failed
      obtain ⟨before, last, after, e, w, rfl, rfl, later, rfl⟩ :=
        ih (fun p among => inner p (List.mem_cons_of_mem _ among)) failed
      exact ⟨path :: before, last, after, e, w, rfl, rfl, moves.append later, by simp⟩

end Moving

section TakingBack
variable {top path : String} {t u v : FileTree}

/-- How taking back changes a tree: files vanish, and with them directories strictly below the
output directory that hold no file any more. -/
structure Recedes (top : String) (t u : FileTree) : Prop where
  files : ∀ key, t.content? key = none → u.content? key = none
  dirs : ∀ d, t.IsDir d → u.IsDir d ∨
    (keyOf top <+: d ∧ d ≠ keyOf top ∧ ∀ key, d <+: key → u.content? key = none)

theorem Recedes.refl (top : String) (t : FileTree) : Recedes top t t :=
  ⟨fun _ missing => missing, fun _ dir => .inl dir⟩

theorem Recedes.trans (first : Recedes top t u) (second : Recedes top u v) : Recedes top t v where
  files key missing := second.files key (first.files key missing)
  dirs d dir := by
    rcases first.dirs d dir with kept | ⟨below, other, empty⟩
    · exact second.dirs d kept
    · exact .inr ⟨below, other, fun key inside => second.files key (empty key inside)⟩

/-- Removing directories up to the output directory removes no file. -/
theorem removeEmpty_recedes {ups : List String}
    (under : ∀ up ∈ ups.takeWhile fun up => !(Path.components up == Path.components top),
      Path.Under top up) (t : FileTree) :
    Recedes top t (removeEmpty top ups t) ∧
      ∀ key, (removeEmpty top ups t).content? key = t.content? key := by
  induction ups generalizing t with
  | nil => exact ⟨.refl top t, fun _ => rfl⟩
  | cons up ups ih =>
    rw [removeEmpty]
    split
    next => exact ⟨.refl top t, fun _ => rfl⟩
    next further =>
      rw [List.takeWhile_cons_of_pos (by simpa using further)] at under
      rcases removeDirectory_cases t up with ⟨e, failed⟩ | ⟨u, done, files, dirs, empty⟩
      · rw [failed]
        exact ⟨.refl top t, fun _ => rfl⟩
      · rw [done]
        have step : Recedes top t u := by
          refine ⟨fun key missing => (files key).trans missing, fun d dir => ?_⟩
          by_cases same : d = keyOf up
          · subst same
            have below := (under up List.mem_cons_self).below
            exact .inr ⟨below.1, below.2, empty⟩
          · exact .inl (dirs d dir same)
        have rest := ih (fun up among => under up (List.mem_cons_of_mem _ among)) u
        exact ⟨step.trans rest.1, fun key => (rest.2 key).trans (files key)⟩

/-- Taking back one file. -/
theorem takeBack_recedes (under : Path.Under top path) (t : FileTree) :
    Recedes top t (takeBack top t path) ∧
      (∀ key, key ≠ keyOf path → (takeBack top t path).content? key = t.content? key) ∧
      (t.Reaches path → (takeBack top t path).content? (keyOf path) = none) := by
  have after := removeEmpty_recedes (fun _ => under.of_mem_ancestors)
    (perform (Action.removeFile path) t).2
  rw [takeBack]
  rcases removeFile_cases t path with ⟨same, missing⟩ | ⟨other, changed⟩
  · rw [same] at after ⊢
    exact ⟨after.1, fun key _ => after.2 key,
      fun reaches => (after.2 _).trans (missing reaches)⟩
  · have away (key : FileKey) (apart : key ≠ keyOf path) :
        (perform (Action.removeFile path) t).2.occupant? key = t.occupant? key := by
      rw [changed, Function.update_of_ne apart]
    have gone : (perform (Action.removeFile path) t).2.content? (keyOf path) = none :=
      content?_of_occupant? (by rw [changed, Function.update_self])
    refine ⟨Recedes.trans ⟨fun key missing => ?_, fun d dir => ?_⟩ after.1, fun key apart => ?_,
      fun _ => (after.2 _).trans gone⟩
    · by_cases here : key = keyOf path
      · exact here ▸ gone
      · exact (content?_congr (away key here)).trans missing
    · have apart : d ≠ keyOf path := fun here => other (here ▸ dir)
      exact .inl ((away d apart).trans dir)
    · exact (after.2 key).trans (content?_congr (away key apart))

/-- A path to a file that can be removed, unless there is none any more. -/
def Clearable (t : FileTree) (path : String) : Prop :=
  t.Reaches path ∨ t.content? (keyOf path) = none

/-- A directory is only removed from a way when there is no file left at its end. -/
theorem Recedes.reaches_or_empty (recedes : Recedes top t u) (direct : Path.Direct top)
    (inner : Path.Inner path) (reaches : t.Reaches (Path.join top path)) :
    u.Reaches (Path.join top path) ∨
      ∀ key, keyOf (Path.join top path) <+: key → u.content? key = none := by
  by_cases still : ∀ d ∈ wayOf (Path.join top path), u.IsDir d
  · exact .inl ⟨reaches.1, still⟩
  · rw [not_forall] at still
    obtain ⟨d, entered⟩ := still
    obtain ⟨entered, lost⟩ := Classical.not_imp.mp entered
    rcases recedes.dirs d (reaches.2 d entered) with kept | ⟨below, other, empty⟩
    · exact absurd kept lost
    · have front := direct.isPrefix_of_mem_wayOf inner entered below other
      exact .inr fun key inside => empty key (front.trans inside)

theorem Recedes.finds_or_empty (recedes : Recedes top t u) (direct : Path.Direct top)
    (inner : Path.Inner path) (finds : t.Finds (Path.join top path)) :
    u.Finds (Path.join top path) ∨
      ∀ key, keyOf (Path.join top path) <+: key → u.content? key = none := by
  rcases recedes.reaches_or_empty direct inner finds.1 with reaches | empty
  · rcases recedes.dirs _ finds.2 with kept | ⟨_, _, empty⟩
    · exact .inl ⟨reaches, kept⟩
    · exact .inr empty
  · exact .inr empty

theorem Recedes.clearable (recedes : Recedes top t u) (direct : Path.Direct top)
    (inner : Path.Inner path) (clearable : Clearable t (Path.join top path)) :
    Clearable u (Path.join top path) := by
  rcases clearable with reaches | missing
  · rcases recedes.reaches_or_empty direct inner reaches with still | empty
    · exact .inl still
    · exact .inr (empty _ List.prefix_rfl)
  · exact .inr (recedes.files _ missing)

/-- Taking back files that were moved leaves none at their places, and all the others. -/
theorem foldl_takeBack (direct : Path.Direct top) {paths : List String}
    (lower : ∀ path ∈ paths, Path.Lower path)
    (clearable : ∀ path ∈ paths, Clearable t (Path.join top path)) :
    Recedes top t ((paths.map (Path.join top)).foldl (takeBack top) t) ∧
      ∀ key, ((paths.map (Path.join top)).foldl (takeBack top) t).content? key =
        if key ∈ paths.map fun path => keyOf (Path.join top path) then none
        else t.content? key := by
  induction paths generalizing t with
  | nil => exact ⟨.refl top t, fun _ => by simp⟩
  | cons path paths ih =>
    have under := (lower path List.mem_cons_self).under_join top
    obtain ⟨step, apart, gone⟩ := takeBack_recedes under t
    have others (p : String) (among : p ∈ paths) :
        Clearable (takeBack top t (Path.join top path)) (Path.join top p) :=
      step.clearable direct (lower p (List.mem_cons_of_mem _ among)).toInner
        (clearable p (List.mem_cons_of_mem _ among))
    have rest := ih (fun p among => lower p (List.mem_cons_of_mem _ among)) others
    refine ⟨step.trans rest.1, fun key => ?_⟩
    rw [List.map_cons, List.foldl_cons, rest.2 key]
    by_cases here : key = keyOf (Path.join top path)
    · subst here
      have now :
          (takeBack top t (Path.join top path)).content? (keyOf (Path.join top path)) = none := by
        rcases clearable path List.mem_cons_self with reaches | missing
        · exact gone reaches
        · exact step.files _ missing
      simp [now]
    · simp [here, apart key here]

end TakingBack

section Discarding
variable {staging : String} {t u : FileTree} {key : FileKey}

theorem discard_outside (t : FileTree) (free : ¬ keyOf staging <+: key) :
    (discard staging t).content? key = t.content? key := by
  rw [discard]
  rcases removeTree_cases t staging with ⟨same, _⟩ | changed
  · rw [same]
  · rw [changed key, if_neg free]

theorem discard_files (missing : t.content? key = none) :
    (discard staging t).content? key = none := by
  rw [discard]
  rcases removeTree_cases t staging with ⟨same, _⟩ | changed
  · rw [same, missing]
  · rw [changed key, missing, ite_self]

/-- Nothing is left below a staging directory that is found. -/
theorem discard_inside (finds : t.Finds staging) (inside : keyOf staging <+: key) :
    (discard staging t).content? key = none := by
  rw [discard]
  rcases removeTree_cases t staging with ⟨_, missing⟩ | changed
  · exact absurd finds missing
  · rw [changed key, if_pos inside]

/-- Whatever was staged is discarded, since it could only be written where it is found. -/
theorem Stages.discarded (stages : Stages staging t u) (missing : t.content? key = none) :
    (discard staging u).content? key = none := by
  by_cases inside : keyOf staging <+: key
  · rcases stages.held with same | finds
    · exact discard_files ((same key).trans missing)
    · exact discard_inside finds inside
  · rw [discard_outside u inside, stages.outside key inside, missing]

end Discarding

section StagingName
variable {runId path top : String}

theorem toList_stagingName (runId : String) : (stagingName runId).toList =
    '.' :: (runId.toList.map fun c => if c.isAlphanum || c == '-' then c else '_') ++
      ".staging".toList := by
  simp [stagingName]

/-- The name of a staging directory is a single piece. -/
theorem splitAll_stagingName (runId : String) :
    splitAll '/' (stagingName runId) = [stagingName runId] := by
  apply Text.splitAll_of_not_mem
  rw [toList_stagingName]
  simp only [List.cons_append, List.mem_cons, List.mem_append, List.mem_map, not_or, not_exists]
  refine ⟨by decide, fun c => ?_, by decide⟩
  rintro ⟨-, slash⟩
  split at slash
  next kept =>
    subst slash
    exact absurd kept (by decide)
  next => exact absurd slash (by decide)

theorem stagingName_ne_of_length {runId other : String} (short : other.length < 9) :
    stagingName runId ≠ other := by
  rintro rfl
  rw [← String.length_toList, toList_stagingName] at short
  simp at short
  omega

theorem inner_stagingName (runId : String) : Path.Inner (stagingName runId) where
  relative := by
    rw [Path.isAbsolute, Text.startsWith, toList_stagingName]
    rfl
  low := by
    rw [splitAll_stagingName, List.mem_singleton]
    exact (stagingName_ne_of_length (by decide)).symm

theorem join_stagingName_ne (top runId : String) : Path.join top (stagingName runId) ≠ "" := by
  intro nothing
  have cut : splitAll '/' (Path.join top (stagingName runId)) = _ :=
    Path.splitAll_join (inner_stagingName runId).relative
  rw [nothing, splitAll_stagingName] at cut
  have last := congrArg List.getLast? cut
  rw [List.getLast?_concat] at last
  exact stagingName_ne_of_length (by decide) (Option.some.inj last).symm

theorem keyOf_staging (top runId : String) :
    keyOf (Path.join top (stagingName runId)) = keyOf top ++ [stagingName runId] := by
  have inner := inner_stagingName runId
  have named : Path.saysNothing (stagingName runId) = false := by
    have blank : stagingName runId ≠ "" := stagingName_ne_of_length (by decide)
    have point : stagingName runId ≠ "." := stagingName_ne_of_length (by decide)
    simp [Path.saysNothing, blank, point]
  rw [Path.keyOf_join inner.relative, walk_of_not_mem inner.low, splitAll_stagingName]
  simp [named]

/-- The places of files are not in the staging directory. -/
theorem Proper.not_isPrefix (proper : Proper (stagingName runId) path) :
    ¬ keyOf (Path.join top (stagingName runId)) <+: keyOf (Path.join top path) := by
  obtain ⟨first, rest, cut, named⟩ := proper.named
  rw [keyOf_staging, Path.keyOf_join proper.relative, walk_of_not_mem proper.low, cut,
    List.filter_cons_of_pos (by simp [named]), List.prefix_append_right_inj, List.cons_prefix_cons]
  intro same
  exact proper.apart (by rw [cut, same.1]; rfl)

end StagingName

theorem write_error {root : String} {o : Output} {t u : FileTree} {f : OutputFault}
    (failed : o.write root t = (.error f, u)) : f.step = .write o.kind := by
  unfold write at failed
  simp only at failed
  split at failed
  · cases failed
    rfl
  · split at failed
    · cases failed
      rfl
    · cases failed

theorem writeAll_error {root : String} {outputs : List Output} {t u : FileTree} {f : OutputFault}
    (failed : writeAll root outputs t = (.error f, u)) : ∃ o ∈ outputs, f.step = .write o.kind := by
  induction outputs generalizing t with
  | nil => cases failed
  | cons o outputs ih =>
    rw [writeAll_cons] at failed
    rcases step : o.write root t with ⟨e | x, v⟩
    · rw [step] at failed
      cases failed
      exact ⟨o, List.mem_cons_self, write_error step⟩
    · rw [step] at failed
      obtain ⟨p, among, same⟩ := ih failed
      exact ⟨p, List.mem_cons_of_mem _ among, same⟩

section Delivery
variable {top runId : String} {t u v : FileTree} {f : OutputFault}

/-- When a move fails, the places of the files that were moved before are empty, the other files
outside of the staging directory are as they were, and what was staged can be discarded. -/
theorem publish_error_files (direct : Path.Direct top) {staged : String}
    (inner : Path.Inner staged) {paths : List String} (lower : ∀ path ∈ paths, Path.Lower path)
    (finds : t.Finds (Path.join top staged))
    (failed : publish (Path.join top staged) top [] paths t = (.error f, v)) :
    ∃ before path after, paths = before ++ path :: after ∧
      f.step = .publish ∧ f.path = Path.join top path ∧
      (∀ key, ¬ keyOf (Path.join top staged) <+: key →
        v.content? key =
          if key ∈ before.map fun path => keyOf (Path.join top path) then none
          else t.content? key) ∧
      ∀ key, keyOf (Path.join top staged) <+: key →
        (discard (Path.join top staged) v).content? key = none := by
  obtain ⟨before, path, after, e, u, rfl, rfl, moves, back⟩ :=
    publish_error (fun path among => (lower path among).toInner) failed
  obtain ⟨recedes, files⟩ := foldl_takeBack direct
    (fun path among => lower path (List.mem_append_left _ among))
    (fun path among => .inl (moves.reaches path among))
  rw [List.nil_append] at back
  rw [← back] at recedes files
  refine ⟨before, path, after, rfl, rfl, rfl, fun key free => ?_, fun key inside => ?_⟩
  · rw [files key]
    split
    next => rfl
    next apart =>
      refine moves.outside key free fun path among same => apart ?_
      exact List.mem_map.mpr ⟨path, among, same.symm⟩
  · -- Taking back leaves the staging directory where it is, or has removed it as empty.
    rcases recedes.finds_or_empty direct inner (finds.mono moves.dirs) with finds | empty
    · exact discard_inside finds inside
    · exact discard_files (empty key inside)

/-- The place of a file below an output directory. -/
def place (top : String) (o : Output) : FileKey := keyOf (Path.join top o.path)

/-- What a delivery that failed left: `published` are the files that were moved before. -/
theorem deliver_error {outputs : List Output} (direct : Path.Direct top)
    (proper : ∀ o ∈ outputs, Proper (stagingName runId) o.path)
    (failed : deliver top runId outputs t = (.error f, v)) :
    ∃ published rest, outputs = published ++ rest ∧
      ((published = [] ∧ ∃ o ∈ outputs, f.step = .write o.kind) ∨
        ∃ o more, rest = o :: more ∧ f.step = .publish ∧ f.path = Path.join top o.path) ∧
      (∀ key, ¬ keyOf (Path.join top (stagingName runId)) <+: key →
        v.content? key = if key ∈ published.map (place top) then none else t.content? key) ∧
      ∀ key, t.content? key = none → v.content? key = none := by
  have staged := writeAll_stages (join_stagingName_ne top runId)
    (fun o among => (proper o among).toInner) t
  unfold deliver at failed
  simp only at failed
  rcases wrote : writeAll (Path.join top (stagingName runId)) outputs t with ⟨e | x, u⟩
  · rw [wrote] at failed staged
    cases failed
    refine ⟨[], outputs, rfl, .inl ⟨rfl, writeAll_error wrote⟩, fun key free => ?_,
      fun key => staged.1.discarded⟩
    rw [discard_outside u free, staged.1.outside key free]
    simp
  · rw [wrote] at failed staged
    rcases published : publish (Path.join top (stagingName runId)) top [] (outputs.map (·.path)) u
      with ⟨e | x, w⟩
    · simp only [published] at failed
      cases failed
      have nonempty : outputs ≠ [] := by
        rintro rfl
        cases published
      have lower : ∀ path ∈ outputs.map (·.path), Path.Lower path :=
        List.forall_mem_map.mpr fun o among => (proper o among).toLower
      obtain ⟨before, path, after, cut, step, place, outside, inside⟩ := publish_error_files direct
        (inner_stagingName runId) lower (staged.2 rfl nonempty) published
      obtain ⟨front, back, rfl, rfl, rest⟩ := List.map_eq_append_iff.mp cut
      obtain ⟨o, more, rfl, rfl, rfl⟩ := List.map_eq_cons_iff.mp rest
      have places : (front.map (·.path)).map (fun path => keyOf (Path.join top path)) =
          front.map (Output.place top) := List.map_map
      rw [places] at outside
      refine ⟨front, o :: more, rfl, .inr ⟨o, more, rfl, step, place⟩, fun key free => ?_,
        fun key missing => ?_⟩
      · rw [discard_outside w free, outside key free, staged.1.outside key free]
      · by_cases within : keyOf (Path.join top (stagingName runId)) <+: key
        · exact inside key within
        · rw [discard_outside w within, outside key within, staged.1.outside key within, missing,
            ite_self]
    · simp only [published] at failed
      cases failed

-- The way to the output directory leads through a directory that taking back removes as empty;
-- the staging directory is then not found any more.
example :
    ((deliver "o/b/.." "r" [⟨.forwardingClass, "b/A", ""⟩, ⟨.artifact, "p", ""⟩]
      { nodes := [(["o"], .directory 0), (["o", "b"], .directory 0),
          (["o", "p"], .directory 0)] }).2.content? ["o", ".r.staging", "p"]).isSome = true := by
  decide +kernel

-- A file with an absolute path is staged at its place.
example :
    ((deliver "o" "r" [⟨.forwardingClass, "/A", ""⟩, ⟨.artifact, "p", ""⟩]
      { nodes := [(["o"], .directory 0), (["o", ".r.staging"], .directory 0),
          (["o", ".r.staging", "p"], .directory 0)] }).2.content? ["/", "A"]).isSome = true := by
  decide +kernel

end Delivery

end Linkage.Run.Output
