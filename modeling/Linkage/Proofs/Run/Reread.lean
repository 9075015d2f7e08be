import Linkage.Proofs.Run.Written
import Linkage.Proofs.Text.Runs
import Linkage.Run.Summary

/-!
Reading the artifact of a run back. The keys of a run stand for themselves in the text, but a value
is read as it is written: without the blanks around it, and with the characters that stand for a
backslash or for the end of a line. So an artifact is read back just when no value of it has any.
-/
namespace Linkage.Run

open Text (Clear IsKey)

namespace Artifact

/-- A letter, a digit or a dot. -/
def plainChar (c : Char) : Bool := c.isAlphanum || c == '.'

/-- A key of the kind that runs use. -/
def PlainKey (key : String) : Prop := key ≠ "" ∧ key.toList.all plainChar = true

instance (key : String) : Decidable (PlainKey key) := inferInstanceAs (Decidable (_ ∧ _))

theorem PlainKey.plainChar {key : String} (plain : PlainKey key) {c : Char}
    (inside : c ∈ key.toList) : plainChar c = true :=
  List.all_eq_true.mp plain.2 c inside

theorem plainChar_ne {c d : Char} (plain : plainChar c = true) (other : plainChar d = false) :
    c ≠ d := by
  rintro rfl
  rw [plain] at other
  cases other

theorem isBlank_of_plainChar {c : Char} (plain : plainChar c = true) : Text.isBlank c = false := by
  have range : 46 ≤ c.toNat ∧ c.toNat ≤ 122 := by
    delta plainChar Char.isAlphanum Char.isAlpha Char.isUpper Char.isLower Char.isDigit at plain
    simp only [Bool.or_eq_true, Bool.and_eq_true, decide_eq_true_eq, beq_iff_eq, ge_iff_le,
      UInt32.le_iff_toNat_le] at plain
    rcases plain with range | rfl
    · change (65 ≤ c.toNat ∧ c.toNat ≤ 90 ∨ 97 ≤ c.toNat ∧ c.toNat ≤ 122) ∨
        48 ≤ c.toNat ∧ c.toNat ≤ 57 at range
      omega
    · decide
  simp only [Text.isBlank, Bool.or_eq_false_iff, Bool.and_eq_false_iff, decide_eq_false_iff_not,
    beq_eq_false_iff_ne]
  omega

section Escape
variable {s : String}

/-- A character is written as itself or as a backslash and a letter or another backslash. -/
theorem escapeChar_cases (c : Char) :
    (special c = false ∧ escapeChar false c = [c]) ∨
    (special c = true ∧ ∃ d, escapeChar false c = ['\\', d] ∧ Text.isBlank d = false) := by
  cases marked : special c with
  | false =>
    simp only [special, Bool.or_eq_false_iff, beq_eq_false_iff_ne] at marked
    exact .inl ⟨rfl, by simp [escapeChar, marked]⟩
  | true =>
    simp only [special, Bool.or_eq_true, beq_iff_eq] at marked
    refine .inr ⟨rfl, ?_⟩
    rcases marked with ((rfl | rfl) | rfl) | rfl
    · exact ⟨'\\', rfl, by decide⟩
    · exact ⟨'n', rfl, by decide⟩
    · exact ⟨'r', rfl, by decide⟩
    · exact ⟨'t', rfl, by decide⟩

theorem escape_of_single {isKey : Bool} (single : ∀ c ∈ s.toList, escapeChar isKey c = [c]) :
    escape isKey s = s := by
  rw [escape, List.flatMap_congr single, List.flatMap_singleton', String.ofList_toList]

/-- Keys of runs are written as they are. -/
theorem escape_plainKey (plain : PlainKey s) : escape true s = s := by
  apply escape_of_single
  intro c inside
  have other {d : Char} (odd : plainChar d = false) : c ≠ d :=
    plainChar_ne (plain.plainChar inside) odd
  simp [escapeChar, other (d := '\\') rfl, other (d := '\n') rfl, other (d := '\r') rfl,
    other (d := '\t') rfl, other (d := '=') rfl, other (d := ':') rfl, other (d := ' ') rfl]

theorem length_le_flatMap_escapeChar (cs : List Char) :
    cs.length ≤ (cs.flatMap (escapeChar false)).length := by
  induction cs with
  | nil => exact Nat.le_refl _
  | cons c cs ih =>
    rw [List.flatMap_cons, List.length_append, List.length_cons]
    rcases escapeChar_cases c with ⟨_, one⟩ | ⟨_, d, two, _⟩
    · rw [one, List.length_singleton]
      omega
    · rw [two, List.length_cons, List.length_singleton]
      omega

theorem escape_eq_self_iff : escape false s = s ↔ s.toList.all (!special ·) = true := by
  simp only [List.all_eq_true, Bool.not_eq_true']
  constructor
  · intro same
    rw [← String.toList_inj, escape, String.toList_ofList] at same
    generalize s.toList = cs at same
    induction cs with
    | nil => simp
    | cons c cs ih =>
      rw [List.flatMap_cons] at same
      rcases escapeChar_cases c with ⟨plain, one⟩ | ⟨_, d, two, _⟩
      · rw [one, List.singleton_append] at same
        exact List.forall_mem_cons.mpr ⟨plain, ih (List.cons.inj same).2⟩
      · -- The text would be longer than it is.
        have longer := congrArg List.length same
        rw [two, List.length_append, List.length_cons, List.length_cons] at longer
        have least := length_le_flatMap_escapeChar cs
        simp only [List.length_cons, List.length_nil] at longer
        omega
  · intro plain
    apply escape_of_single
    intro c inside
    rcases escapeChar_cases c with ⟨_, one⟩ | ⟨marked, _⟩
    · exact one
    · rw [plain c inside] at marked
      cases marked

/-- What is written for a clear text is clear. -/
theorem clear_escape (clear : Clear s) : Clear (escape false s) := by
  constructor
  · intro c first
    rw [escape, String.toList_ofList] at first
    cases chars : s.toList with
    | nil => simp [chars] at first
    | cons d cs =>
      have shown := clear.1 d (by simp [chars])
      rw [chars, List.flatMap_cons] at first
      rcases escapeChar_cases d with ⟨_, one⟩ | ⟨_, e, two, _⟩
      · obtain rfl : d = c := by simpa [one] using first
        exact shown
      · obtain rfl : '\\' = c := by simpa [two] using first
        decide
  · intro c last
    rw [escape, String.toList_ofList] at last
    rcases List.eq_nil_or_concat s.toList with chars | ⟨cs, d, chars⟩
    · simp [chars] at last
    · have shown := clear.2 d (by simp [chars])
      rw [chars, List.concat_eq_append, List.flatMap_append, List.flatMap_singleton] at last
      rcases escapeChar_cases d with ⟨_, one⟩ | ⟨_, e, two, blank⟩
      · obtain rfl : d = c := by simpa [one] using last
        exact shown
      · obtain rfl : e = c := by simpa [two] using last
        exact blank

/-- A value that is clear and has no special character. -/
def Safe (s : String) : Prop := Clear s ∧ s.toList.all (!special ·) = true

instance (s : String) : Decidable (Safe s) := inferInstanceAs (Decidable (_ ∧ _))

/-- The safe values are those that are read back as they were. -/
theorem trim_escape_eq_self_iff : Text.trim (escape false s) = s ↔ Safe s := by
  constructor
  · intro same
    have clear : Clear s := same ▸ Text.clear_trim _
    rw [Text.trim_eq_self (clear_escape clear)] at same
    exact ⟨clear, escape_eq_self_iff.mp same⟩
  · rintro ⟨clear, plain⟩
    rw [escape_eq_self_iff.mpr plain, Text.trim_eq_self clear]

end Escape

section Keys
variable {key : String}

theorem PlainKey.isKey (plain : PlainKey key) : IsKey key where
  written := plain.1
  clear := by
    constructor <;> intro c inside <;> apply isBlank_of_plainChar
    · exact plain.plainChar (List.mem_of_mem_head? inside)
    · exact plain.plainChar (List.mem_of_mem_getLast? inside)
  uncut := by
    intro c inside
    simp [plainChar_ne (plain.plainChar inside) (d := '=') rfl,
      plainChar_ne (plain.plainChar inside) (d := ':') rfl]
  counts := by
    intro c first
    have known := plain.plainChar (List.mem_of_mem_head? first)
    exact ⟨plainChar_ne known rfl, plainChar_ne known rfl⟩

end Keys

theorem headline_says_nothing : Text.propertyOf? headline = none := by decide

theorem propertyOf?_recordText {r : String × String} (plain : PlainKey r.1) :
    Text.propertyOf? (recordText r) = some (r.1, Text.trim (escape false r.2)) := by
  rw [recordText, escape_plainKey plain, Text.propertyOf?_line plain.isKey]

/-- The keys of an artifact are plain, and none stands twice. -/
structure Keyed (a : Artifact) : Prop where
  distinct : (a.records.map (·.1)).Nodup
  plain : ∀ key ∈ a.records.map (·.1), PlainKey key

namespace Keyed
variable {a : Artifact}

theorem insert (keyed : Keyed a) {key : String} (plain : PlainKey key) (value : String) :
    Keyed (a.insert key value) := by
  constructor <;> rw [Artifact.insert, Text.map_putProperty] <;> split
  · exact keyed.distinct
  · rename_i new
    rw [← List.concat_eq_append]
    exact keyed.distinct.concat new
  · exact keyed.plain
  · intro k inside
    rcases List.mem_append.mp inside with old | last
    · exact keyed.plain k old
    · rw [List.mem_singleton.mp last]
      exact plain

theorem insertAll (keyed : Keyed a) {records : List (String × String)}
    (plain : ∀ r ∈ records, PlainKey r.1) : Keyed (a.insertAll records) := by
  induction records generalizing a with
  | nil => exact keyed
  | cons r rest ih =>
    obtain ⟨first, others⟩ := List.forall_mem_cons.mp plain
    exact ih (keyed.insert first r.2) others

theorem start (stamp : String) : Keyed (.start stamp) := by
  have empty : Keyed {} := ⟨List.nodup_nil, by simp⟩
  apply empty.insertAll
  simp only [List.forall_mem_cons, List.not_mem_nil, false_imp_iff, implies_true, and_true]
  decide

/-- What is read back of an artifact: its keys in their order, each with what its value is written
as, less the blanks around it. -/
theorem properties_text (keyed : Keyed a) :
    Text.properties a.text = a.records.map fun r => (r.1, Text.trim (escape false r.2)) := by
  have plain : ∀ r ∈ a.records, PlainKey r.1 := by
    intro r inside
    exact keyed.plain r.1 (List.mem_map_of_mem inside)
  have read : (Text.lines a.text).filterMap Text.propertyOf? =
      a.records.map fun r => (r.1, Text.trim (escape false r.2)) := by
    rw [lines_text, List.filterMap_cons_none headline_says_nothing, List.filterMap_map,
      ← List.filterMap_eq_map]
    apply List.filterMap_congr
    intro r inside
    rw [Function.comp_apply, Function.comp_apply, propertyOf?_recordText (plain r inside)]
  rw [Text.properties_eq, read]
  rw [read, List.map_map]
  exact keyed.distinct

end Keyed

section Groups
variable {key : String}

theorem PlainKey.append {tail : String} (plain : PlainKey key)
    (more : tail.toList.all Artifact.plainChar = true) : PlainKey (key ++ tail) := by
  refine ⟨?_, ?_⟩
  · intro empty
    exact plain.1 (String.append_eq_empty_iff.mp empty).1
  · rw [String.toList_append, List.all_append, plain.2, more, Bool.and_self]

theorem all_plainChar_toString (n : Nat) : (toString n).toList.all plainChar = true := by
  rw [List.all_eq_true]
  intro c inside
  simp [plainChar, Char.isAlphanum, Text.isDigit_of_mem_toString inside]

theorem plain_of_keys {records : List (String × String)} (keys : List String)
    (shape : records.map (·.1) = keys) (plain : ∀ key ∈ keys, PlainKey key) :
    ∀ r ∈ records, PlainKey r.1 := by
  intro r inside
  exact plain r.1 (shape ▸ List.mem_map_of_mem inside)

theorem plain_single {α : Type} {value : α → String} (key : String) (x : α)
    (plain : PlainKey key) : ∀ r ∈ [(key, value x)], PlainKey r.1 := by
  intro r inside
  rw [List.mem_singleton.mp inside]
  exact plain

/-- Records under keys of their own, given by how these go on from a common one. -/
theorem PlainKey.tails (plain : PlainKey key) {records : List (String × String)}
    (tails : List String) (shape : records.map (·.1) = tails.map (key ++ ·))
    (more : ∀ tail ∈ tails, tail.toList.all Artifact.plainChar = true) :
    ∀ r ∈ records, PlainKey r.1 := by
  refine plain_of_keys _ shape ?_
  intro k listed
  obtain ⟨tail, inside, rfl⟩ := List.mem_map.mp listed
  exact plain.append (more tail inside)

theorem plain_listRecords {α : Type} {count lead : String} (counted : PlainKey count)
    (led : PlainKey lead) {item : String → α → List (String × String)}
    (items : ∀ key x, PlainKey key → ∀ r ∈ item key x, PlainKey r.1) (xs : List α) :
    ∀ r ∈ listRecords count lead item xs, PlainKey r.1 := by
  rw [listRecords, List.forall_mem_cons]
  refine ⟨counted, ?_⟩
  intro r inside
  obtain ⟨⟨x, i⟩, _, inside⟩ := List.mem_flatMap.mp inside
  exact items _ x (led.append (all_plainChar_toString i)) r inside

end Groups

/-- The records that a run notes down at once. -/
inductive Noted : List (String × String) → Prop
  | run (runId mode : String) : Noted [("runId", runId), ("interopPolicy", mode)]
  | classpath (o : Mediation.Outcome) (mode : Isolation) : Noted (classpathRecords o mode)
  | classIndex (path : String) (v : ClassView) : Noted (classIndexRecords path v)
  | resolutions (targetCount : Nat) (rs : List Call.Resolution) :
    Noted (resolutionRecords targetCount rs)
  | forwarding (package : String) (paths : List String) :
    Noted (("interopBridges.package", package) ::
      listRecords "interopBridges.sourceCount" "interopBridges.source."
        (fun key path => [(key, path)]) paths)
  | audit (path : String) (fallbackCount : Nat) :
    Noted [("interopAudit.log", path), ("interopAudit.fallbackCount", toString fallbackCount)]

theorem plain_classpathRecords (o : Mediation.Outcome) (mode : Isolation) :
    ∀ r ∈ classpathRecords o mode, PlainKey r.1 := by
  rw [classpathRecords]
  simp only [List.forall_mem_append]
  refine ⟨⟨⟨?_, ?_⟩, ?_⟩, ?_⟩
  · exact plain_listRecords (by decide) (by decide) plain_single o.mediated
  · exact plain_of_keys ["interopClasspath.scope.usage", "interopClasspath.scope.allowed",
      "interopClasspath.classloaderIsolation"] rfl (by decide)
  · refine plain_listRecords (by decide) (by decide) ?_ o.decisions
    intro key d plain
    exact plain.tails [".artifact", ".selectedVersion", ".selectedPath", ".rejectedVersion",
      ".rejectedPath", ".rule"] rfl (by decide)
  · refine plain_listRecords (by decide) (by decide) ?_ o.exclusions
    intro key x plain
    exact plain.tails [".ownerArtifact", ".ownerVersion", ".dependencyArtifact",
      ".dependencyVersion", ".scope", ".usage", ".excludedPath"] rfl (by decide)

theorem plain_resolutionRecords (targetCount : Nat) (rs : List Call.Resolution) :
    ∀ r ∈ resolutionRecords targetCount rs, PlainKey r.1 := by
  rw [resolutionRecords, List.forall_mem_cons]
  refine ⟨(by decide : PlainKey "interopBridges.targetCount"),
    plain_listRecords (by decide) (by decide) ?_ _⟩
  intro key b plain
  exact plain.tails [".target", ".owner", ".name", ".descriptor", ".invokeKind"] rfl (by decide)

theorem Noted.plain {records : List (String × String)} (noted : Noted records) :
    ∀ r ∈ records, PlainKey r.1 := by
  cases noted with
  | run runId mode => exact plain_of_keys ["runId", "interopPolicy"] rfl (by decide)
  | classpath o mode => exact plain_classpathRecords o mode
  | classIndex path v =>
    have plain : PlainKey "interopClasspath.classIndex." := by decide
    exact plain.tails ["path", "targetRelease", "symbolCount", "duplicateCount",
      "mrJarWinnerCount", "mrJarBaseWinnerCount", "mrJarVersionedWinnerCount"] rfl (by decide)
  | resolutions targetCount rs => exact plain_resolutionRecords targetCount rs
  | forwarding package paths =>
    rw [List.forall_mem_cons]
    exact ⟨(by decide : PlainKey "interopBridges.package"),
      plain_listRecords (by decide) (by decide) plain_single paths⟩
  | audit path fallbackCount =>
    exact plain_of_keys ["interopAudit.log", "interopAudit.fallbackCount"] rfl (by decide)

/-- An artifact that a run has started and put its records into. -/
inductive Built : Artifact → Prop
  | start (stamp : String) : Built (.start stamp)
  | add {a : Artifact} {records : List (String × String)} (built : Built a)
    (noted : Noted records) : Built (a.insertAll records)

theorem Built.keyed {a : Artifact} (built : Built a) : Keyed a := by
  induction built with
  | start stamp => exact Keyed.start stamp
  | add _ noted keyed => exact keyed.insertAll noted.plain

theorem insertAll_append (a : Artifact) (first second : List (String × String)) :
    a.insertAll (first ++ second) = (a.insertAll first).insertAll second :=
  List.foldl_append

theorem Built.forwarding {a : Artifact} (built : Built a) (s : Session) :
    Built (a.insertAll s.forwardingRecords) := by
  unfold Session.forwardingRecords
  split
  · exact built.add (.forwarding _ _)
  · exact built

theorem Built.audit {a : Artifact} (built : Built a) (s : Session) :
    Built (a.insertAll s.auditRecords) := by
  unfold Session.auditRecords
  split
  · exact built.add (.audit _ _)
  · exact built

/-- A session builds its artifact this way. -/
theorem Built.ofSession (s : Session) (stamp : String) : Built (s.artifact stamp) := by
  have built := (Built.start stamp).add (.run s.runId s.gate.policy.mode.text)
    |>.add (.classpath s.mediation s.bridge.view.mode)
    |>.add (.classIndex s.classIndexPath s.bridge.view)
    |>.add (.resolutions s.manifest.targets.length s.bridge.resolved)
    |>.forwarding s |>.audit s
  rw [Session.artifact]
  simpa only [insertAll_append] using built

/-- An artifact is read back as it is just when all of its values are. -/
theorem Keyed.properties_text_iff {a : Artifact} (keyed : Keyed a) :
    Text.properties a.text = a.records ↔
      ∀ r ∈ a.records, Safe r.2 := by
  have each : (a.records.map fun r => (r.1, Text.trim (escape false r.2))) = a.records.map id ↔
      ∀ r ∈ a.records, (r.1, Text.trim (escape false r.2)) = id r :=
    List.map_inj_left
  rw [List.map_id] at each
  rw [keyed.properties_text, each]
  refine forall₂_congr fun r _ => ?_
  rw [id, Prod.ext_iff, ← trim_escape_eq_self_iff]
  exact and_iff_right rfl

/-- What is read back of the artifact of a run, and when that is what was put in. -/
theorem artifact_reread (a : Artifact) (built : Built a) :
    Text.properties a.text = (a.records.map fun r => (r.1, Text.trim (escape false r.2))) ∧
    (Text.properties a.text = a.records ↔ ∀ r ∈ a.records, Safe r.2) :=
  ⟨built.keyed.properties_text, built.keyed.properties_text_iff⟩

/-- An artifact with the class path of a run of one archive. -/
def onePath (location : String) : Artifact :=
  (Artifact.start "2026-01-01T00:00:00.000Z").insertAll
    (classpathRecords ⟨.runtime, [⟨0, .archive, location, .library⟩], [], [], []⟩ .shared)

theorem built_onePath (location : String) : Built (onePath location) :=
  (Built.start _).add (.classpath _ _)

theorem artifact_reread_plain : Built (onePath "libs/a.jar") ∧
    Text.properties (onePath "libs/a.jar").text = (onePath "libs/a.jar").records := by
  have built := built_onePath "libs/a.jar"
  exact ⟨built, (artifact_reread _ built).2.mpr (by decide +kernel)⟩

/-- A path with a backslash comes back with two. -/
theorem backslash_not_reread : Built (onePath "libs\\a.jar") ∧
    Text.properties (onePath "libs\\a.jar").text ≠ (onePath "libs\\a.jar").records := by
  have built := built_onePath "libs\\a.jar"
  refine ⟨built, ?_⟩
  rw [Ne, built.keyed.properties_text_iff]
  decide +kernel

end Artifact

end Linkage.Run
