import Linkage.Proofs.ClassFile.RoundTrip
import Linkage.Proofs.Text.Ascending

/-!
A module declaration that is written reads back with its name and its packages. The attribute that
names both is cut out by its length and read by itself, and whatever it refers to is looked up in
the pool of the whole file, where a text stands once however often it is used.
-/
namespace Linkage.ClassFile

open Text (Bytes)

/-- A module that can be written: the packages are dotted, and texts and the number that is written
for the constants, which is one more than there are, fit in two bytes. -/
structure WritableModule (name : String) (exports : List String) : Prop where
  packages : ∀ package ∈ exports, '/' ∉ package.toList
  nameLength : (Text.encodeUtf8 name).length < 65536
  packageLengths : ∀ package ∈ exports, (Text.encodeUtf8 package).length < 65536
  constantCount : ((moduleBody name exports).run []).2.length + 1 < 65536

namespace Reads
variable {α : Type} {bytes : Bytes} {a : α}

theorem skip (text : Bytes) : Reads (Reader.skip text.length) text () :=
  (Reads.bytes text).map fun _ => ()

theorem skip_none {f : Unit → Reader α} (onward : Reads (f ()) bytes a) :
    Reads (Reader.skip 0 >>= f) bytes a :=
  (skip []).bind onward

theorem skip_three {f : Unit → Reader α} (i j k : Nat) (onward : Reads (f ()) bytes a) :
    Reads (Reader.skip 6 >>= f) (bytes2 i ++ (bytes2 j ++ (bytes2 k ++ bytes))) a := by
  have six : Reads (Reader.skip 6) (bytes2 i ++ (bytes2 j ++ bytes2 k)) () :=
    skip (bytes2 i ++ (bytes2 j ++ bytes2 k))
  have whole := six.bind onward
  simpa only [List.append_assoc] using whole

/-- What a reader makes of a slice that begins with what it takes. -/
theorem of_slice {r : Reader α} (reads : Reads r bytes a) (rest : Bytes) :
    (r.run (bytes ++ rest)).map (·.1) = .ok a := by
  have run : r.run (bytes ++ rest) = .ok (a, rest) := reads rest
  rw [run]
  rfl

end Reads

section References
variable {name : String}

theorem moduleRef_builds (short : (Text.encodeUtf8 name).length < 65536) :
    Builds (Build.moduleRef name) fun final index => final.length + 1 < 65536 →
      index < 65536 ∧ (poolOf final).moduleName index = .ok name := by
  refine (reference_builds short .moduleRef id).imp fun final index => ?_
  rintro ⟨at', held, named⟩ small
  exact ⟨index_lt held small, by simp only [Pool.moduleName, held, utf8_eq named]⟩

theorem packageRef_builds (short : (Text.encodeUtf8 name).length < 65536) :
    Builds (Build.packageRef name) fun final index => final.length + 1 < 65536 →
      index < 65536 ∧ (poolOf final).packageName index = .ok (slashed name) := by
  have fits : (Text.encodeUtf8 (slashed name)).length < 65536 := by rwa [length_slashed]
  refine (reference_builds fits .packageRef id).imp fun final index => ?_
  rintro ⟨at', held, named⟩ small
  exact ⟨index_lt held small, by simp only [Pool.packageName, held, utf8_eq named]⟩

theorem length_lt_packageRef (package : String) (constants : List Constant) :
    constants.length < ((Build.packageRef package).run constants).2.length := by
  have kept : constants.length ≤ ((Build.utf8 (slashed package)).run constants).2.length := by
    rw [utf8_run]
    split
    · exact Nat.le_refl _
    · simp
  change _ < (((Build.utf8 (slashed package)).run constants).2 ++ [_]).length
  rw [List.length_append, List.length_singleton]
  exact Nat.lt_succ_of_le kept

/-- Each package has a constant of its own, so there are no more packages than constants. -/
theorem length_packageRefs (exports : List String) (constants : List Constant) :
    constants.length + exports.length ≤
      ((exports.mapM Build.packageRef).run constants).2.length := by
  induction exports generalizing constants with
  | nil => exact Nat.le_refl _
  | cons package exports ih =>
    have own := length_lt_packageRef package constants
    have others := ih ((Build.packageRef package).run constants).2
    rw [List.mapM_cons]
    change _ ≤ ((exports.mapM Build.packageRef).run
      ((Build.packageRef package).run constants).2).2.length
    rw [List.length_cons]
    omega

end References

section Parts
variable {final : List Constant}

theorem readExport_reads {index : Nat} {package : String} (small : index < 65536)
    (noSlash : '/' ∉ package.toList)
    (held : (poolOf final).packageName index = .ok (slashed package)) :
    Reads (readExport (poolOf final)) (bytes2 index ++ bytes2 0 ++ bytes2 0) package := by
  rw [List.append_assoc]
  refine (Reads.u2 small).bind ((Reads.u2 (by decide)).bind ((Reads.u2 (by decide)).bind_nil ?_))
  refine Reads.skip_none (Reads.then_lift held ?_)
  rw [dotted_slashed noSlash]
  exact Reads.pure package

/-- The packages read back one by one, and their number fits where the constants do. -/
theorem exports_builds {exports : List String}
    (dotted : ∀ package ∈ exports, '/' ∉ package.toList)
    (short : ∀ package ∈ exports, (Text.encodeUtf8 package).length < 65536) :
    Builds (exports.mapM Build.packageRef) fun final indices => final.length + 1 < 65536 →
      exports.length < 65536 ∧ indices.length = exports.length ∧
        Reads (Reader.times (readExport (poolOf final)) exports.length)
          (indices.flatMap fun index => bytes2 index ++ bytes2 0 ++ bytes2 0) exports := by
  have built := Builds.mapM exports fun package member =>
    (packageRef_builds (short package member)).imp
      (Q := fun final index => final.length + 1 < 65536 →
        Reads (readExport (poolOf final)) (bytes2 index ++ bytes2 0 ++ bytes2 0) package) (by
      intro final index held small
      obtain ⟨fits, named⟩ := held small
      exact readExport_reads fits (dotted package member) named)
  intro constants
  refine ⟨(built constants).1, fun final later small => ?_⟩
  have each := (built constants).2 final later
  have room := (length_packageRefs exports constants).trans later.length_le
  refine ⟨by omega, each.length_eq.symm, ?_⟩
  generalize ((exports.mapM Build.packageRef).run constants).1 = indices at each
  have texts : List.Forall₂ (fun package text => ∃ a, package = a ∧
      Reads (readExport (poolOf final)) text a) exports
      (indices.map fun index => bytes2 index ++ bytes2 0 ++ bytes2 0) := by
    rw [List.forall₂_map_right_iff]
    exact each.imp fun package index reads => ⟨package, rfl, reads small⟩
  obtain ⟨read, same, reads⟩ := Reads.times texts
  rw [List.forall₂_eq_eq_eq] at same
  rw [List.flatMap_def]
  rwa [← same] at reads

/-- What the content of the attribute begins with: all but the lists of other kinds. -/
def moduleExports (module : Nat) (packages : List Nat) : Bytes :=
  bytes2 module ++ (bytes2 0 ++ (bytes2 0 ++ (bytes2 0 ++ (bytes2 packages.length ++
    packages.flatMap fun index => bytes2 index ++ bytes2 0 ++ bytes2 0))))

theorem length_bytes2 (n : Nat) : (bytes2 n).length = 2 := rfl

theorem length_moduleExports (module : Nat) (packages : List Nat) :
    (moduleExports module packages).length = 10 + 6 * packages.length := by
  have each : (packages.flatMap fun index => bytes2 index ++ bytes2 0 ++ bytes2 0).length =
      6 * packages.length := by
    simp [List.length_flatMap, length_bytes2, Nat.mul_comm]
  simp only [moduleExports, List.length_append, each, length_bytes2]
  omega

theorem readModuleBody_reads {module : Nat} {packages : List Nat} {name : String}
    {exports : List String} (fits : module < 65536)
    (named : (poolOf final).moduleName module = .ok name)
    (count : packages.length = exports.length) (few : exports.length < 65536)
    (reads : Reads (Reader.times (readExport (poolOf final)) exports.length)
      (packages.flatMap fun index => bytes2 index ++ bytes2 0 ++ bytes2 0) exports) :
    Reads (readModuleBody (poolOf final)) (moduleExports module packages)
      ⟨name, Text.sortedStrings (Text.distinct exports)⟩ := by
  rw [moduleExports, count]
  refine (Reads.u2 fits).bind ((Reads.u2 (by decide)).bind ((Reads.u2 (by decide)).bind ?_))
  refine (Reads.u2 (by decide)).bind (Reads.skip_none ?_)
  exact (Reads.u2 few).bind (reads.bind_nil (Reads.then_lift named (Reads.pure _)))

/-- The attribute is found by its label, and its content is read by itself. -/
theorem readModuleAttribute_reads {label : Nat} {content : Bytes} {info : ModuleInfo}
    (small : final.length + 1 < 65536)
    (labelled : (poolOf final).slots[label]? = some (.utf8 "Module"))
    (short : content.length < 4294967296)
    (found : ((readModuleBody (poolOf final)).run content).map (·.1) = .ok info) :
    Reads (readModuleAttribute (poolOf final) 1)
      (bytes2 label ++ (bytes4 content.length ++ content)) info := by
  refine (Reads.u2 (index_lt labelled small)).bind ((Reads.u4 short).bind ?_)
  refine Reads.then_lift (utf8_eq labelled) ?_
  exact (Reads.bytes content).bind_nil (Reads.lift found)

end Parts

/-- Behind a header for the pool that was built, the body reads back as the module. -/
theorem moduleBody_builds {name : String} {exports : List String}
    (writable : WritableModule name exports) :
    Builds (moduleBody name exports) fun final body => final.length + 1 < 65536 →
      ∀ head, Reads readHeader head (poolOf final) →
        Reads readModule (head ++ body) ⟨name, Text.sortedStrings (Text.distinct exports)⟩ := by
  refine (classRef_builds (by decide +kernel)).bind fun thisClass => ?_
  refine (utf8_builds (by decide +kernel)).bind fun label => ?_
  refine (moduleRef_builds writable.nameLength).bind fun module => ?_
  refine (exports_builds writable.packages writable.packageLengths).bind fun packages => ?_
  refine Builds.pure fun final exported named labelled _ small head header => ?_
  obtain ⟨few, count, reads⟩ := exported small
  obtain ⟨fits, named⟩ := named small
  have length := length_moduleExports module packages
  have found := (readModuleBody_reads fits named count few reads).of_slice
    (bytes2 0 ++ (bytes2 0 ++ bytes2 0))
  have short : (moduleExports module packages ++
      (bytes2 0 ++ (bytes2 0 ++ bytes2 0))).length < 4294967296 := by
    simp only [List.length_append, length, length_bytes2]
    omega
  have tagged := readModuleAttribute_reads small labelled short found
  simp only [moduleExports, List.append_assoc] at tagged
  simp only [List.append_assoc]
  have none : Reads (Reader.times skipMember 0) [] [] := Reads.pure []
  refine header.bind (Reads.skip_three _ thisClass _ ?_)
  refine (Reads.u2 (by decide)).bind (Reads.skip_none ?_)
  refine (Reads.u2 (by decide)).bind (none.bind ?_)
  refine (Reads.u2 (by decide)).bind (none.bind ?_)
  exact (Reads.u2 (by decide)).bind tagged

/-- A module that can be written reads back with its name and the set of its packages: each that it
exports, once, in ascending order. -/
theorem parseModule_encodeModule {name : String} {exports : List String}
    (writable : WritableModule name exports) :
    ∃ info, parseModule (encodeModule name exports) = .ok info ∧ info.name = name ∧
      (∀ package, package ∈ info.exports ↔ package ∈ exports) ∧
      info.exports.Pairwise (· < ·) := by
  obtain ⟨grows, right⟩ := moduleBody_builds writable []
  have fits := grows.fits (by simp)
  have read := right _ List.prefix_rfl writable.constantCount _
    (readHeader_reads fits writable.constantCount) []
  rw [List.append_nil] at read
  have run : readModule.run (encodeModule name exports) = .ok (_, []) := read
  refine ⟨⟨name, Text.sortedStrings (Text.distinct exports)⟩, ?_, rfl, ?_, ?_⟩
  · rw [parseModule, run]
    rfl
  · exact fun package => Text.mem_ascending
  · exact Text.pairwise_ascending exports

/-- A module whose packages share their names with each other and with the file itself. -/
theorem parseModule_encodeModule_repeated :
    WritableModule "Module" ["Module", "demo.api", "module-info", "demo.api"] ∧
    ∃ info, parseModule (encodeModule "Module" ["Module", "demo.api", "module-info", "demo.api"]) =
      .ok info ∧ info.name = "Module" ∧
      (∀ package, package ∈ info.exports ↔
        package ∈ ["Module", "demo.api", "module-info", "demo.api"]) ∧
      info.exports.Pairwise (· < ·) := by
  have writable : WritableModule "Module" ["Module", "demo.api", "module-info", "demo.api"] := {
    packages := by decide +kernel
    nameLength := by decide +kernel
    packageLengths := by decide +kernel
    constantCount := by decide +kernel }
  exact ⟨writable, parseModule_encodeModule writable⟩

end Linkage.ClassFile
