import Linkage.Policy.Gate
import Linkage.Proofs.Json.RoundTrip

/-!
Nothing is allowed that is not written down. The sinks of a journal may refuse any line at any time;
they are watched, so that every line that the gate tried to write is seen with what came of it. An
answer of the gate then stands beside the lines that it left, and these are told apart by what a
reader of the journal finds in them.
-/
namespace Linkage.Policy
variable {σ : Type}

/-- The places that lines go to: the run's own journal and the shared one. -/
inductive Sink where
  | own
  | shared
  deriving DecidableEq

/-- A line that was to be written, and the error that it met if it was not. -/
structure Attempt where
  sink : Sink
  text : String
  fault : Option OsError
  deriving DecidableEq

def Attempt.ofOutcome (sink : Sink) (text : String) : Except OsError Unit → Attempt
  | .ok () => ⟨sink, text, none⟩
  | .error e => ⟨sink, text, some e⟩

/-- The same sinks, which note every attempt beside their state. -/
def Sinks.watched (sinks : Sinks σ) : Sinks (σ × List Attempt) where
  own text s :=
    let (outcome, t) := sinks.own text s.1
    (outcome, t, s.2 ++ [.ofOutcome .own text outcome])
  shared text s :=
    let (outcome, t) := sinks.shared text s.1
    (outcome, t, s.2 ++ [.ofOutcome .shared text outcome])

/-- The lines that the run's own journal took, in their order. -/
def ownLines (attempts : List Attempt) : List String :=
  attempts.filterMap fun a => if a.sink = .own ∧ a.fault = none then some a.text else none

/-- One of the lines that a sink was given was refused. -/
def Refuses (sink : Sink) (attempts : List Attempt) : Prop :=
  ∃ a ∈ attempts, a.sink = sink ∧ a.fault ≠ none

namespace Journal

/-- The decision that a reader finds in a line. -/
def decisionOf? (line : String) : Option String :=
  (Json.read? line).bind fun v => (v.get "decision").asString?

/-- The target that a reader finds in a line. -/
def targetOf? (line : String) : Option String :=
  (Json.read? line).bind fun v => (v.get "target").asString?

theorem read?_line_fields (run stamp verdict code message : String) (r : Ruling) :
    Json.read? (line (fields run r stamp verdict code message)) =
      some (.object (fields run r stamp verdict code message)) := by
  refine Json.Reader.read?_line (.object ?_)
  simp only [fields, List.forall_mem_cons]
  exact ⟨.string _, .string _, .string _, .string _, .string _, .string _, .string _,
    .strings _, List.forall_mem_nil _⟩

theorem decisionOf?_line (run stamp verdict code message : String) (r : Ruling) :
    decisionOf? (line (fields run r stamp verdict code message)) = some verdict := by
  rw [decisionOf?, read?_line_fields]
  rfl

/-- A line that notes a failure of the shared journal, as a reader sees it. -/
def isWarning (line : String) : Bool := decisionOf? line == some "warn"

theorem targetOf?_line (run stamp verdict code message : String) (r : Ruling) :
    targetOf? (line (fields run r stamp verdict code message)) = some r.target := by
  rw [targetOf?, read?_line_fields]
  rfl

/-- What may become of a ruling that is to be written down: the lines that were tried, and the
journal afterwards or the fault. -/
inductive Records (j : Journal) (r : Ruling) :
    List Attempt → Except JournalFault Journal → Prop
  | refused (e : OsError) :
    Records j r [⟨.own, j.ownLine r, some e⟩] (.error ⟨j.path, e⟩)
  | alone (none : j.sharedPath = none) : Records j r [⟨.own, j.ownLine r, .none⟩] (.ok j)
  | copied {path : String} (shared : j.sharedPath = some path) :
    Records j r [⟨.own, j.ownLine r, none⟩, ⟨.shared, j.sharedLine r, none⟩] (.ok j)
  | warned {path : String} (shared : j.sharedPath = some path) (e : OsError) :
    Records j r
      [⟨.own, j.ownLine r, none⟩, ⟨.shared, j.sharedLine r, some e⟩,
        ⟨.own, j.warningLine r e, none⟩]
      (.ok { j with fallbacks := j.fallbacks ++ [j.warning path r e] })
  | lost {path : String} (shared : j.sharedPath = some path) (e e' : OsError) :
    Records j r
      [⟨.own, j.ownLine r, none⟩, ⟨.shared, j.sharedLine r, some e⟩,
        ⟨.own, j.warningLine r e, some e'⟩]
      (.error ⟨j.path, e'⟩)

/-- Watching the sinks changes nothing, and what they see is one of the five ways. -/
theorem record_watched (sinks : Sinks σ) (j : Journal) (r : Ruling) (s : σ) (seen : List Attempt) :
    ∃ attempts,
      j.record sinks.watched r (s, seen) =
        ((j.record sinks r s).1, (j.record sinks r s).2, seen ++ attempts) ∧
      Records j r attempts (j.record sinks r s).1 := by
  rcases first : sinks.own (j.ownLine r) s with ⟨e | _, s₁⟩
  · refine ⟨[⟨.own, j.ownLine r, some e⟩], ?_, ?_⟩
    · simp [record, Sinks.watched, Attempt.ofOutcome, first]
    · simp only [record, first]
      exact .refused e
  rcases path : j.sharedPath with _ | path
  · refine ⟨[⟨.own, j.ownLine r, none⟩], ?_, ?_⟩
    · simp [record, Sinks.watched, Attempt.ofOutcome, first, path]
    · simp only [record, first, path]
      exact .alone path
  rcases second : sinks.shared (j.sharedLine r) s₁ with ⟨e | _, s₂⟩
  · rcases third : sinks.own (j.warningLine r e) s₂ with ⟨e' | _, s₃⟩
    · refine ⟨[⟨.own, j.ownLine r, none⟩, ⟨.shared, j.sharedLine r, some e⟩,
        ⟨.own, j.warningLine r e, some e'⟩], ?_, ?_⟩
      · simp [record, Sinks.watched, Attempt.ofOutcome, first, path, second, third]
      · simp only [record, first, path, second, third]
        exact .lost path e e'
    · refine ⟨[⟨.own, j.ownLine r, none⟩, ⟨.shared, j.sharedLine r, some e⟩,
        ⟨.own, j.warningLine r e, none⟩], ?_, ?_⟩
      · simp [record, Sinks.watched, Attempt.ofOutcome, first, path, second, third]
      · simp only [record, first, path, second, third]
        simpa only [path] using Records.warned (r := r) path e
  · refine ⟨[⟨.own, j.ownLine r, none⟩, ⟨.shared, j.sharedLine r, none⟩], ?_, ?_⟩
    · simp [record, Sinks.watched, Attempt.ofOutcome, first, path, second]
    · simp only [record, first, path, second]
      exact .copied path

/-- A ruling is only lost to a line that the run's own journal refused. -/
theorem exists_refused_of_error {sinks : Sinks σ} (j : Journal) {r : Ruling} {s t : σ}
    {fault : JournalFault} (failed : j.record sinks r s = (.error fault, t)) :
    ∃ text u e, (sinks.own text u).1 = .error e := by
  unfold record at failed
  split at failed
  · rename_i e _ first
    exact ⟨_, s, e, by rw [first]⟩
  split at failed
  · cases failed
  split at failed
  · cases failed
  split at failed
  · rename_i e _ third
    exact ⟨_, _, e, by rw [third]⟩
  · cases failed

section Lines
variable (j : Journal) (r : Ruling) (e : OsError)

theorem decisionOf?_ownLine : decisionOf? (j.ownLine r) = some r.verdict := decisionOf?_line ..

theorem targetOf?_ownLine : targetOf? (j.ownLine r) = some r.target := targetOf?_line ..

theorem decisionOf?_warningLine : decisionOf? (j.warningLine r e) = some "warn" :=
  decisionOf?_line ..

theorem targetOf?_warningLine : targetOf? (j.warningLine r e) = some r.target := targetOf?_line ..

theorem isWarning_ownLine : isWarning (j.ownLine r) = false := by
  rw [isWarning, decisionOf?_ownLine, Ruling.verdict]
  cases r.isAllowed with
  | true => decide
  | false => decide

theorem isWarning_warningLine : isWarning (j.warningLine r e) = true := by
  rw [isWarning, decisionOf?_warningLine]
  decide

end Lines

namespace Records
variable {j next : Journal} {r : Ruling} {attempts : List Attempt}

theorem refuses_iff {result : Except JournalFault Journal} (records : j.Records r attempts result) :
    Refuses .own attempts ↔ ∃ fault, result = .error fault := by
  cases records with
  | refused e => simp [Refuses]
  | alone => simp [Refuses]
  | copied => simp [Refuses]
  | warned => simp [Refuses]
  | lost => simp [Refuses]

/-- A ruling that is written down leaves its line, and a warning behind it just when the shared
journal refused its copy. -/
theorem ownLines_ok (records : j.Records r attempts (.ok next)) :
    (¬ Refuses .shared attempts ∧ ownLines attempts = [j.ownLine r]) ∨
      (Refuses .shared attempts ∧ ∃ e, ownLines attempts = [j.ownLine r, j.warningLine r e]) := by
  cases records with
  | alone => exact .inl ⟨by simp [Refuses], by simp [ownLines]⟩
  | copied => exact .inl ⟨by simp [Refuses], by simp [ownLines]⟩
  | warned _ e => exact .inr ⟨by simp [Refuses], e, by simp [ownLines]⟩

theorem fallbacks_ok (records : j.Records r attempts (.ok next)) :
    next.fallbacks.length = j.fallbacks.length + (ownLines attempts).countP isWarning := by
  cases records with
  | alone => simp [ownLines, isWarning_ownLine]
  | copied => simp [ownLines, isWarning_ownLine]
  | warned => simp [ownLines, isWarning_ownLine, isWarning_warningLine]

theorem no_warning_of_error {fault : JournalFault} (records : j.Records r attempts (.error fault)) :
    (ownLines attempts).countP isWarning = 0 := by
  cases records with
  | refused => simp [ownLines]
  | lost => simp [ownLines, isWarning_ownLine]

end Records

end Journal

/-- Someone asks the gate for a target. -/
structure Petition where
  stamp : String
  target : String
  actor : Actor

/-- A petition, the answer that the gate gave, and the lines that it tried to write before. -/
structure Hearing where
  petition : Petition
  answer : Except GateFault Ruling
  attempts : List Attempt

namespace Hearing

/-- What was decided, unless the decision could not be written down. -/
def decision? (h : Hearing) : Option String :=
  match h.answer with
  | .ok _ => some "allow"
  | .error (.denied ..) => some "deny"
  | .error (.unwritten _) => none

end Hearing

/-- The ruling that a petition gets under a policy. -/
def Effective.rulingOn (policy : Effective) (p : Petition) : Ruling :=
  policy.rule p.stamp p.target p.actor

namespace Gate

/-- The two ways in which a call of the gate can end, with or without a journal: the ruling could
not be written down and the gate stays as it was, or the gate answers by it and remembers it. -/
theorem authorize_cases (sinks : Journal → Sinks σ) (stamp target : String) (g : Gate) (a : Actor)
    (s : σ) :
    (∃ fault t, g.authorize sinks stamp target a s = (.error (.unwritten fault), g, t) ∧
      ∃ j text u e, ((sinks j).own text u).1 = .error e) ∨
    ∃ journal t, g.authorize sinks stamp target a s =
      (answer (g.policy.rule stamp target a),
        { g with journal, rulings := g.rulings ++ [g.policy.rule stamp target a] }, t) := by
  cases kept : g.journal with
  | none => exact .inr ⟨none, s, by simp [authorize, kept, remember]⟩
  | some j =>
    rcases result : j.record (sinks j) (g.policy.rule stamp target a) s with ⟨fault | next, t⟩
    · obtain ⟨text, u, e, refused⟩ := j.exists_refused_of_error result
      exact .inl ⟨fault, t, by simp [authorize, kept, result], j, text, u, e, refused⟩
    · exact .inr ⟨some next, t, by simp [authorize, kept, result, remember]⟩

/-- Watching the sinks of the journal changes neither the answer nor the gate nor the sinks. -/
theorem authorize_watched (sinks : Journal → Sinks σ) (policy : Effective) (j : Journal)
    (rulings : List Ruling) (p : Petition) (s : σ) :
    let g : Gate := ⟨policy, some j, rulings⟩
    let (answer, next, t) := g.authorize sinks p.stamp p.target p.actor s
    ∃ attempts,
      g.authorize (fun j => (sinks j).watched) p.stamp p.target p.actor (s, []) =
        (answer, next, t, attempts) ∧
      j.Records (policy.rulingOn p) attempts (j.record (sinks j) (policy.rulingOn p) s).1 := by
  obtain ⟨attempts, same, records⟩ := j.record_watched (sinks j) (policy.rulingOn p) s []
  refine ⟨attempts, ?_, records⟩
  rw [Effective.rulingOn] at same
  rcases result : j.record (sinks j) (policy.rule p.stamp p.target p.actor) s with ⟨fault | next, u⟩
  · simp only [authorize, result] at same ⊢
    simp only [same, List.nil_append]
  · simp only [authorize, result] at same ⊢
    simp only [same, List.nil_append]

/-- One call of the gate. The attempts are those that the same call makes of watched sinks. -/
def hear (sinks : Journal → Sinks σ) (p : Petition) (g : Gate) (s : σ) : Hearing × Gate × σ :=
  let (answer, next, t) := g.authorize sinks p.stamp p.target p.actor s
  let (_, _, _, attempts) :=
    g.authorize (fun j => (sinks j).watched) p.stamp p.target p.actor (s, [])
  (⟨p, answer, attempts⟩, next, t)

/-- Calls of the gate one after another. -/
def hearAll (sinks : Journal → Sinks σ) : List Petition → Gate → σ → List Hearing × Gate × σ
  | [], g, s => ([], g, s)
  | p :: rest, g, s =>
    let (h, g, s) := g.hear sinks p s
    let (others, g, s) := hearAll sinks rest g s
    (h :: others, g, s)

end Gate

namespace Hearing

/-- How the answer that a petition gets goes with the lines that were tried: either the ruling was
not written down and the gate stays as it was, or it was and the gate remembers it. -/
inductive Ends (policy : Effective) (j : Journal) (rulings : List Ruling) (p : Petition) :
    Hearing → Gate → Prop
  | unwritten {attempts : List Attempt} {fault : JournalFault}
    (records : j.Records (policy.rulingOn p) attempts (.error fault)) :
    Ends policy j rulings p ⟨p, .error (.unwritten fault), attempts⟩ ⟨policy, some j, rulings⟩
  | remembered {attempts : List Attempt} {next : Journal}
    (records : j.Records (policy.rulingOn p) attempts (.ok next)) :
    Ends policy j rulings p ⟨p, Gate.answer (policy.rulingOn p), attempts⟩
      ⟨policy, some next, rulings ++ [policy.rulingOn p]⟩

variable {policy : Effective} {j : Journal} {rulings : List Ruling} {p : Petition} {h : Hearing}
  {g : Gate}

theorem hear_ends {sinks : Journal → Sinks σ} {s t : σ}
    (heard : Gate.hear sinks p ⟨policy, some j, rulings⟩ s = (h, g, t)) :
    Ends policy j rulings p h g := by
  obtain ⟨attempts, same, records⟩ := Gate.authorize_watched sinks policy j rulings p s
  simp only [Gate.hear, same, Prod.mk.injEq] at heard
  obtain ⟨rfl, rfl, _⟩ := heard
  rcases result : j.record (sinks j) (policy.rulingOn p) s with ⟨fault | next, u⟩
  · rw [result] at records
    rw [Effective.rulingOn] at result
    simp only [Gate.authorize, result]
    exact .unwritten records
  · rw [result] at records
    rw [Effective.rulingOn] at result
    simp only [Gate.authorize, result]
    exact .remembered records

/-- An answer that goes back to a ruling tells its verdict. -/
theorem decision?_answer (r : Ruling) (attempts : List Attempt) :
    decision? ⟨p, Gate.answer r, attempts⟩ = some r.verdict := by
  rw [decision?, Gate.answer, Ruling.verdict, Ruling.isAllowed]
  cases r.denial with
  | none => rfl
  | some denial => rfl

theorem Ends.petition (ends : Ends policy j rulings p h g) : h.petition = p := by
  cases ends with
  | unwritten => rfl
  | remembered => rfl

/-- The answer is void just when the run's own journal refused a line. -/
theorem Ends.refuses_iff (ends : Ends policy j rulings p h g) :
    Refuses .own h.attempts ↔ ∃ fault, h.answer = .error (.unwritten fault) := by
  cases ends with
  | unwritten records => simp [records.refuses_iff]
  | remembered records =>
    rw [records.refuses_iff, Gate.answer]
    split <;> simp

theorem Ends.audited (ends : Ends policy j rulings p h g) {decision : String}
    (decided : h.decision? = some decision) :
    (policy.rulingOn h.petition).verdict = decision ∧
      h.answer = Gate.answer (policy.rulingOn h.petition) ∧
      ∃ line, Journal.targetOf? line = some h.petition.target ∧
        Journal.decisionOf? line = some decision ∧
        ((¬ Refuses .shared h.attempts ∧ ownLines h.attempts = [line]) ∨
          (Refuses .shared h.attempts ∧ ∃ warning, ownLines h.attempts = [line, warning] ∧
            Journal.targetOf? warning = some h.petition.target ∧
            Journal.decisionOf? warning = some "warn")) := by
  cases ends with
  | unwritten => cases decided
  | remembered records =>
    rw [decision?_answer] at decided
    have verdict : (policy.rulingOn p).verdict = decision := Option.some.inj decided
    refine ⟨verdict, rfl, j.ownLine (policy.rulingOn p), j.targetOf?_ownLine _, ?_, ?_⟩
    · rw [j.decisionOf?_ownLine, verdict]
    · rcases records.ownLines_ok with ⟨shared, lines⟩ | ⟨unshared, e, lines⟩
      · exact .inl ⟨shared, lines⟩
      · exact .inr ⟨unshared, _, lines, j.targetOf?_warningLine _ e, j.decisionOf?_warningLine _ e⟩

/-- The rulings that stand after hearings: those of the hearings that were written down. -/
def kept (policy : Effective) (hearings : List Hearing) : List Ruling :=
  (hearings.filter (·.decision?.isSome)).map fun h => policy.rulingOn h.petition

/-- The warnings that hearings left in the run's own journal. -/
def warnings (hearings : List Hearing) : Nat :=
  (hearings.flatMap fun h => ownLines h.attempts).countP Journal.isWarning

theorem Ends.gate (ends : Ends policy j rulings p h g) :
    ∃ next : Journal, g = ⟨policy, some next, rulings ++ kept policy [h]⟩ ∧
      next.fallbacks.length = j.fallbacks.length + warnings [h] := by
  cases ends with
  | unwritten records =>
    refine ⟨j, by simp [kept, decision?], ?_⟩
    simp [warnings, records.no_warning_of_error]
  | remembered records =>
    rename_i next
    refine ⟨next, by simp [kept, decision?_answer], ?_⟩
    simp [warnings, records.fallbacks_ok]

theorem kept_cons (policy : Effective) (h : Hearing) (others : List Hearing) :
    kept policy (h :: others) = kept policy [h] ++ kept policy others := by
  simp only [kept, ← List.map_append, ← List.filter_append, List.singleton_append]

theorem warnings_cons (h : Hearing) (others : List Hearing) :
    warnings (h :: others) = warnings [h] + warnings others := by
  simp [warnings, List.countP_append]

/-- What one hearing does to the gate, carried along a row of them. -/
theorem hearAll_gate (sinks : Journal → Sinks σ) (petitions : List Petition) (policy : Effective)
    (j : Journal) (rulings : List Ruling) (s : σ) :
    ∃ next : Journal,
      (Gate.hearAll sinks petitions ⟨policy, some j, rulings⟩ s).2.1 =
        ⟨policy, some next,
          rulings ++ kept policy (Gate.hearAll sinks petitions ⟨policy, some j, rulings⟩ s).1⟩ ∧
      next.fallbacks.length = j.fallbacks.length +
        warnings (Gate.hearAll sinks petitions ⟨policy, some j, rulings⟩ s).1 := by
  induction petitions generalizing j rulings s with
  | nil => exact ⟨j, by simp [Gate.hearAll, kept], by simp [Gate.hearAll, warnings]⟩
  | cons p rest ih =>
    rcases heard : Gate.hear sinks p ⟨policy, some j, rulings⟩ s with ⟨h, g, t⟩
    obtain ⟨middle, rfl, fallbacks⟩ := (hear_ends heard).gate
    obtain ⟨next, gate, fallbacks'⟩ := ih middle (rulings ++ kept policy [h]) t
    simp only [Gate.hearAll, heard]
    refine ⟨next, ?_, ?_⟩
    · rw [gate, List.append_assoc, ← kept_cons]
    · rw [fallbacks', fallbacks, Nat.add_assoc, ← warnings_cons]

/-- Every hearing of a row ends in one of the two ways, from some journal of the same run. -/
theorem hearAll_ends (sinks : Journal → Sinks σ) (petitions : List Petition) (policy : Effective)
    (j : Journal) (rulings : List Ruling) (s : σ) :
    ∀ h ∈ (Gate.hearAll sinks petitions ⟨policy, some j, rulings⟩ s).1,
      ∃ j' rulings' g', Ends policy j' rulings' h.petition h g' := by
  induction petitions generalizing j rulings s with
  | nil => simp [Gate.hearAll]
  | cons p rest ih =>
    rcases heard : Gate.hear sinks p ⟨policy, some j, rulings⟩ s with ⟨first, g, t⟩
    have ends := hear_ends heard
    obtain ⟨middle, rfl, _⟩ := ends.gate
    simp only [Gate.hearAll, heard, List.forall_mem_cons]
    exact ⟨⟨j, rulings, _, ends.petition ▸ ends⟩, ih middle _ t⟩

theorem map_petition_hearAll (sinks : Journal → Sinks σ) (petitions : List Petition) (g : Gate)
    (s : σ) : (Gate.hearAll sinks petitions g s).1.map petition = petitions := by
  induction petitions generalizing g s with
  | nil => rfl
  | cons p rest ih => simp only [Gate.hearAll, List.map_cons, ih, Gate.hear]

end Hearing

/-- Nothing is allowed unaudited, whatever the sinks of the journal take or refuse. An answer that
allows or denies has left one line about that target and that decision in the run's own journal, and
one warning behind it just when the shared journal refused its copy. The answer is void just when
the run's own journal refused a line. The gate remembers, in the order of the calls, the rulings of
those that were not void, and as many failures of the shared journal as there are warnings
written. -/
theorem nothing_unaudited (sinks : Journal → Sinks σ) (policy : Effective) (j : Journal)
    (rulings : List Ruling) (petitions : List Petition) (s : σ) :
    let (hearings, gate, _) := Gate.hearAll sinks petitions ⟨policy, some j, rulings⟩ s
    hearings.map (·.petition) = petitions ∧
    (∀ h ∈ hearings, ∀ decision, h.decision? = some decision →
      (policy.rulingOn h.petition).verdict = decision ∧
      h.answer = Gate.answer (policy.rulingOn h.petition) ∧
      ∃ line, Journal.targetOf? line = some h.petition.target ∧
        Journal.decisionOf? line = some decision ∧
        ((¬ Refuses .shared h.attempts ∧ ownLines h.attempts = [line]) ∨
          (Refuses .shared h.attempts ∧ ∃ warning, ownLines h.attempts = [line, warning] ∧
            Journal.targetOf? warning = some h.petition.target ∧
            Journal.decisionOf? warning = some "warn"))) ∧
    (∀ h ∈ hearings, Refuses .own h.attempts ↔ ∃ fault, h.answer = .error (.unwritten fault)) ∧
    gate.rulings = rulings ++ (hearings.filter (·.decision?.isSome)).map
      (fun h => policy.rulingOn h.petition) ∧
    ∃ next, gate.journal = some next ∧
      next.fallbacks.length = j.fallbacks.length +
        (hearings.flatMap fun h => ownLines h.attempts).countP Journal.isWarning := by
  obtain ⟨next, gate, fallbacks⟩ := Hearing.hearAll_gate sinks petitions policy j rulings s
  have ends := Hearing.hearAll_ends sinks petitions policy j rulings s
  refine ⟨Hearing.map_petition_hearAll sinks petitions _ s, ?_, ?_, ?_, next, ?_, fallbacks⟩
  · intro h member decision decided
    obtain ⟨_, _, _, ends⟩ := ends h member
    exact ends.audited decided
  · intro h member
    obtain ⟨_, _, _, ends⟩ := ends h member
    exact ends.refuses_iff
  · rw [gate]
    rfl
  · rw [gate]

end Linkage.Policy
