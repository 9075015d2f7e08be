import Linkage.Classpath.Scan
import Linkage.Proofs.Text.Distinct
import Linkage.Proofs.Text.Pieces

/-!
Opening an entry: whether it is a directory, an archive or a module of the runtime image, no name
stands twice among its members. For an archive that is how its names are listed; for a directory it
comes from the tree, in which a file has one place.
-/
namespace Linkage

/-- A tree of files below its working directory: each has one place, and no name in it has a
slash. -/
structure FileTree.Proper (t : FileTree) : Prop where
  keys : (t.nodes.map (·.1)).Nodup
  pieces : ∀ n ∈ t.nodes, ∀ piece ∈ n.1, '/' ∉ piece.toList

namespace FileTree
variable {t : FileTree} {key k : FileKey} {node : FileNode}

theorem mem_below : (k, node) ∈ t.below key ↔ k ≠ [] ∧ (key ++ k, node) ∈ t.nodes := by
  simp only [below, List.mem_filterMap, Prod.exists]
  constructor
  · rintro ⟨whole, other, listed, shape⟩
    split at shape
    · rename_i x rest cut
      obtain ⟨rfl, rfl⟩ := Prod.mk.inj (Option.some.inj shape)
      rw [List.isPrefixOf?_eq_some_iff_append_eq.mp cut]
      exact ⟨List.cons_ne_nil _ _, listed⟩
    · cases shape
  · rintro ⟨some, listed⟩
    obtain ⟨x, rest, rfl⟩ := List.exists_cons_of_ne_nil some
    refine ⟨_, node, listed, ?_⟩
    rw [List.isPrefixOf?_eq_some_iff_append_eq.mpr rfl]

/-- Different files below a directory have different names there. -/
theorem Proper.pairwise_below (proper : t.Proper) (key : FileKey) :
    (t.below key).Pairwise fun a b => String.intercalate "/" a.1 ≠ String.intercalate "/" b.1 := by
  have apart : (t.below key).Pairwise fun a b => a.1 ≠ b.1 := by
    have keys := List.pairwise_map.mp proper.keys
    refine List.pairwise_filterMap.mpr (keys.imp ?_)
    rintro ⟨one, _⟩ ⟨two, _⟩ differ ⟨k, _⟩ first ⟨k', _⟩ second rfl
    simp only at first second
    split at first
    · split at second
      · rename_i cut _ _ _ cut'
        obtain ⟨rfl, rfl⟩ := Prod.mk.inj (Option.some.inj first)
        obtain ⟨same, rfl⟩ := Prod.mk.inj (Option.some.inj second)
        rw [same] at cut'
        rw [List.isPrefixOf?_eq_some_iff_append_eq] at cut cut'
        exact differ (cut.symm.trans cut')
      · cases second
    · cases first
  refine apart.imp_of_mem ?_
  rintro ⟨k, _⟩ ⟨k', _⟩ inside inside' differ same
  obtain ⟨some, listed⟩ := mem_below.mp inside
  obtain ⟨some', listed'⟩ := mem_below.mp inside'
  have back (ps : FileKey) (some : ps ≠ []) (node : FileNode)
      (listed : (key ++ ps, node) ∈ t.nodes) :
      Text.splitAll '/' (String.intercalate "/" ps) = ps :=
    Text.splitAll_intercalate some fun piece among =>
      proper.pieces _ listed piece (List.mem_append_right _ among)
  exact differ (by rw [← back k some _ listed, ← back k' some' _ listed', same])

end FileTree

namespace Classpath
variable {tree : FileTree}

theorem nodup_archiveMembers (zip : Archive.Zip) : (archiveMembers zip).names.Nodup :=
  (Text.nodup_eraseDups _).filter _

theorem nodup_directoryMembers (proper : tree.Proper) {root : String} {m : Members}
    (listed : directoryMembers tree root = .ok m) : m.names.Nodup := by
  unfold directoryMembers at listed
  split at listed
  · cases listed
  rename_i key _
  obtain rfl := Except.ok.inj listed
  refine (List.mergeSort_perm _ _).nodup_iff.mpr ?_
  refine List.pairwise_map.mpr (List.pairwise_filterMap.mpr ((proper.pairwise_below key).imp ?_))
  rintro ⟨k, node⟩ ⟨k', node'⟩ differ file first file' second
  cases node <;> cases node' <;> simp at first second
  rw [← first, ← second]
  exact differ

/-- Whatever an entry is, once it is open it lists each of its members once. -/
theorem nodup_of_openEntry (proper : tree.Proper) {image : Option String} {e : Entry} {h : Holding}
    (opened : openEntry tree image e = .ok h) : h.members.names.Nodup := by
  have directories {root : String} (opened : openDirectory tree root = .ok h) :
      h.members.names.Nodup := by
    unfold openDirectory at opened
    split at opened
    · split at opened
      · rename_i m listed
        obtain rfl := Except.ok.inj opened
        exact nodup_directoryMembers proper listed
      · cases opened
    · cases opened
  have archives {path : String} (opened : openArchive tree path = .ok h) :
      h.members.names.Nodup := by
    unfold openArchive at opened
    split at opened
    · cases opened
    · cases opened
    · split at opened
      · cases opened
      · obtain rfl := Except.ok.inj opened
        exact nodup_archiveMembers _
  unfold openEntry at opened
  split at opened
  · exact directories opened
  · exact archives opened
  · unfold openModule at opened
    split at opened
    · cases opened
    · simp only at opened
      split at opened
      · exact archives opened
      · split at opened
        · exact directories opened
        · cases opened

end Classpath

end Linkage
