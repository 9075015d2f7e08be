import Linkage.Proofs.Call.Places
import Linkage.Proofs.Run.Delivery
import Linkage.Run.Summary

/-!
What a run that fails at its end leaves of the files in its output directory. All files of a run
have their places below the output directory and outside of the staging directory, so a failed end
is a failed delivery: the files that were replaced before the failure are lost, all the others are
as they were, and no file is new. The files of an earlier run are therefore kept exactly when
nothing was moved over one of them.
-/
namespace Linkage.Run

open FileTree
open Text (splitAll)

namespace Output

/-- A name that does not start with a point is not that of a staging directory. -/
theorem ne_stagingName {name : String} (plain : name.toList.head? ≠ some '.') (runId : String) :
    name ≠ stagingName runId := by
  rintro rfl
  exact plain (by rw [toList_stagingName]; rfl)

theorem proper_of_splitAll {path first : String} {rest : List String} (runId : String)
    (cut : splitAll '/' path = first :: rest) (relative : Path.isAbsolute path = false)
    (named : Path.saysNothing first = false) (plain : first.toList.head? ≠ some '.')
    (low : ".." ∉ rest) : Proper (stagingName runId) path where
  relative := relative
  low := by
    rw [cut, List.mem_cons, not_or]
    refine ⟨?_, low⟩
    rintro rfl
    exact plain rfl
  named := ⟨first, rest, cut, named⟩
  apart := by
    rw [cut]
    intro same
    exact ne_stagingName plain runId (Option.some.inj same)

end Output

namespace Session

/-- The key of the directory that takes the files of a run. -/
def outputKey (s : Session) : FileKey := keyOf s.config.outputDir

def stagingKey (s : Session) : FileKey :=
  keyOf (Path.join s.config.outputDir (Output.stagingName s.runId))

/-- Below the output directory every file that was there, the staging directory apart, is as it
was, and no file is new. -/
def KeepsFiles (s : Session) (before after : FileTree) : Prop :=
  (∀ key bytes, s.outputKey <+: key → ¬ s.stagingKey <+: key →
    before.content? key = some bytes → after.content? key = some bytes) ∧
  ∀ key, s.outputKey <+: key → before.content? key = none → after.content? key = none

variable {s : Session}

theorem outputs_proper (relative : ∀ c ∈ s.forwardingClasses, Path.isAbsolute c.path = false)
    (stamp : String) :
    ∀ o ∈ s.outputs stamp, Output.Proper (Output.stagingName s.runId) o.path := by
  intro o among
  simp only [outputs, List.mem_append, List.mem_singleton, List.mem_map] at among
  rcases among with (rfl | ⟨c, among, rfl⟩) | rfl
  · have cut : splitAll '/' ClassView.indexFileName = [ClassView.indexFileName] := by decide
    have plain : Path.isAbsolute ClassView.indexFileName = false := by decide
    exact Output.proper_of_splitAll s.runId cut plain (by decide) (by decide) (by simp)
  · have cut : splitAll '/' (Path.join sourceDir c.path) = sourceDir :: splitAll '/' c.path :=
      Path.splitAll_join (relative c among)
    have start : Path.isAbsolute (Path.join sourceDir c.path) = Path.isAbsolute sourceDir :=
      Path.isAbsolute_join (relative c among)
    refine Output.proper_of_splitAll s.runId cut start rfl (by decide) ?_
    rw [forwardingClasses] at among
    split at among
    · exact Call.ForwardingClass.not_mem_splitAll_path among
    · cases among
  · have cut : splitAll '/' Artifact.fileName = [Artifact.fileName] := by decide
    have plain : Path.isAbsolute Artifact.fileName = false := by decide
    exact Output.proper_of_splitAll s.runId cut plain (by decide) (by decide) (by simp)

theorem finish_error {stamp : String} {before after : FileTree} {fault : Fault}
    (failed : s.finish stamp before = (.error fault, after)) :
    ∃ f, fault = .output f ∧
      Output.deliver s.config.outputDir s.runId (s.outputs stamp) before = (.error f, after) := by
  unfold finish at failed
  split at failed
  next f u same =>
    cases failed
    exact ⟨f, rfl, same⟩
  next => cases failed

end Session

/-- A run whose end fails leaves the files as they were exactly when none of the files that it had
moved into the output directory by then took the place of another. -/
theorem failed_finish {s : Session} {stamp : String} {before after : FileTree} {fault : Fault}
    (direct : Path.Direct s.config.outputDir)
    (relative : ∀ c ∈ s.forwardingClasses, Path.isAbsolute c.path = false)
    (failed : s.finish stamp before = (.error fault, after)) :
    ∃ f published rest, fault = .output f ∧ s.outputs stamp = published ++ rest ∧
      ((published = [] ∧ ∃ o ∈ s.outputs stamp, f.step = .write o.kind) ∨
        ∃ o more, rest = o :: more ∧ f.step = .publish ∧
          f.path = Path.join s.config.outputDir o.path) ∧
      (∀ key, ¬ s.stagingKey <+: key →
        after.content? key =
          if key ∈ published.map (Output.place s.config.outputDir) then none
          else before.content? key) ∧
      (∀ key, before.content? key = none → after.content? key = none) ∧
      (s.KeepsFiles before after ↔
        ∀ o ∈ published, before.content? (Output.place s.config.outputDir o) = none) := by
  have proper := s.outputs_proper relative stamp
  obtain ⟨f, rfl, delivered⟩ := Session.finish_error failed
  obtain ⟨published, rest, cut, point, outside, new⟩ := Output.deliver_error direct proper delivered
  refine ⟨f, published, rest, rfl, cut, point, outside, new, ?_, ?_⟩
  · intro keeps o among
    have sound := proper o (cut ▸ List.mem_append_left _ among)
    have free : ¬ s.stagingKey <+: Output.place s.config.outputDir o := sound.not_isPrefix
    have below : s.outputKey <+: Output.place s.config.outputDir o :=
      sound.isPrefix_keyOf_join s.config.outputDir
    have gone := outside _ free
    rw [if_pos (List.mem_map_of_mem among)] at gone
    cases there : before.content? (Output.place s.config.outputDir o) with
    | none => rfl
    | some bytes =>
      rw [keeps.1 _ bytes below free there] at gone
      cases gone
  · intro vacant
    refine ⟨fun key bytes _ free there => ?_, fun key _ missing => new key missing⟩
    have apart : key ∉ published.map (Output.place s.config.outputDir) := by
      intro replaced
      obtain ⟨o, among, rfl⟩ := List.mem_map.mp replaced
      rw [vacant o among] at there
      cases there
    rw [outside key free, if_neg apart, there]

def rerunConfig : Config where
  discoverGlobalPolicy := false
  audit := { runId := some "r1" }
  outputDir := "out"

/-- An output directory with a file and, where the artifact belongs, a directory. -/
def rerunTree (name : String) : FileTree where
  nodes := [(["out"], .directory 0), (["out", name], .file (Text.encodeUtf8 "earlier") 0),
    (["out", "interop-run.properties"], .directory 0)]

/-- The configuration and the request of a run with a forwarding class. -/
def forwardedConfig : Config := { rerunConfig with bridgePackage := some "demo" }

def forwarded : Request where
  manifest := { targets := [⟨"demo.Main", "run", .staticMethod⟩] }
  overrides := { settings := { allowlist := some ["demo.Main"] } }

theorem forwarded_outcome :
    (let (session, t) := Session.prepare forwardedConfig {} forwarded (rerunTree "notes.txt")
     session.toOption.map fun s =>
        (s.config.outputDir, s.forwardingClasses.map (·.path),
          (s.outputs "").all (fun o => t.content? (Output.place "out" o) = none),
          (s.finish "" t).1.toOption.isNone)) =
      some ("out", ["demo/DemoMainBridge.java"], true, true) := by
  decide +kernel

theorem failed_finish_forwarded :
    ∃ s t, Session.prepare forwardedConfig {} forwarded (rerunTree "notes.txt") = (.ok s, t) ∧
      s.forwardingClasses.map (·.path) = ["demo/DemoMainBridge.java"] ∧
      ∃ fault after, s.finish "" t = (.error fault, after) ∧ s.KeepsFiles t after := by
  have outcome := forwarded_outcome
  rcases prepared : Session.prepare forwardedConfig {} forwarded (rerunTree "notes.txt") with
    ⟨fault | s, t⟩
  · simp [prepared, Except.toOption] at outcome
  · simp only [prepared, Except.toOption, Option.map_some, Option.some.injEq, Prod.mk.injEq]
      at outcome
    obtain ⟨top, classes, vacant, fails⟩ := outcome
    refine ⟨s, t, rfl, classes, ?_⟩
    rcases failed : s.finish "" t with ⟨fault | summary, after⟩
    · refine ⟨fault, after, rfl, ?_⟩
      have relative : ∀ c ∈ s.forwardingClasses, Path.isAbsolute c.path = false := by
        intro c among
        have named : c.path ∈ s.forwardingClasses.map (·.path) := List.mem_map_of_mem among
        rw [classes, List.mem_singleton] at named
        rw [named]
        decide
      have direct : Path.Direct s.config.outputDir := by
        rw [top]
        exact Path.direct_of_not_mem (by decide)
      obtain ⟨f, published, rest, _, cut, _, _, _, keeps⟩ := failed_finish direct relative failed
      refine keeps.mpr fun o among => ?_
      rw [cut, List.all_append, Bool.and_eq_true, List.all_eq_true] at vacant
      rw [top]
      simpa using vacant.1 o among
    · simp [failed] at fails

theorem rerun_outcome :
    (let (session, t) := Session.prepare rerunConfig {} {} (rerunTree "class-index.json")
     session.toOption.map fun s =>
        (s.config.outputDir, s.runId, (t.content? ["out", "class-index.json"]).isSome,
          (s.finish "" t).1.toOption.isNone,
          ((s.finish "" t).2.content? ["out", "class-index.json"]).isNone)) =
      some ("out", "r1", true, true, true) := by
  decide +kernel

/-- A run that fails after it replaced the class index of an earlier run loses that index. -/
theorem finish_loses_class_index :
    ∃ s t, Session.prepare rerunConfig {} {} (rerunTree "class-index.json") = (.ok s, t) ∧
      ∃ fault after, s.finish "" t = (.error fault, after) ∧ ¬ s.KeepsFiles t after := by
  have outcome := rerun_outcome
  rcases prepared : Session.prepare rerunConfig {} {} (rerunTree "class-index.json") with
    ⟨fault | s, t⟩
  · simp [prepared, Except.toOption] at outcome
  · simp only [prepared, Except.toOption, Option.map_some, Option.some.injEq, Prod.mk.injEq]
      at outcome
    obtain ⟨top, run, there, fails, gone⟩ := outcome
    refine ⟨s, t, rfl, ?_⟩
    rcases failed : s.finish "" t with ⟨fault | summary, after⟩
    · rw [failed] at gone
      refine ⟨fault, after, rfl, fun keeps => ?_⟩
      have below : s.outputKey <+: ["out", "class-index.json"] := by
        rw [Session.outputKey, top]
        decide
      have free : ¬ s.stagingKey <+: ["out", "class-index.json"] := by
        rw [Session.stagingKey, top, run]
        decide
      obtain ⟨bytes, there⟩ := Option.isSome_iff_exists.mp there
      rw [keeps.1 _ bytes below free there] at gone
      cases gone
    · simp [failed] at fails

end Linkage.Run
