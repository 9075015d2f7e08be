import Mathlib.Data.List.Nodup
import Linkage.Proofs.Outcome
import Linkage.Proofs.Policy.Audit
import Linkage.Run.Session

/-!
Governance over a whole run. Whatever is asked of a session goes to the gate first, unless its
target was allowed before; what the gate said is remembered by the gate, and what it allowed by the
session too. The two memories stay in step through every failure behind the gate, and neither the
bridge nor a host is reached by what the gate did not let through.
-/
namespace Linkage.Run

open Policy (Gate GateFault Journal JournalFault Sinks)
open Call (Invoker Target)

variable {σ : Type}

/-- What may be asked of a session. -/
inductive Operation (σ : Type) where
  | authorize (target : Target)
  | resolve (target : Target) (receiver : Option String) (shapes : List Shape)
  | invoke (host : Invoker σ) (target : Target) (receiver : Option Value) (arguments : List Value)

namespace Operation

def target : Operation σ → Target
  | .authorize t => t
  | .resolve t _ _ => t
  | .invoke _ t _ _ => t

/-- The same operation with another host, where it has one. -/
def withHost (host : Invoker σ) : Operation σ → Operation σ
  | .invoke _ t receiver arguments => .invoke host t receiver arguments
  | op => op

end Operation

inductive Reply where
  | authorized (outcome : Except GateFault Unit)
  | resolved (outcome : Except Fault Call.Resolution)
  | invoked (outcome : Except Fault Value)

/-- The fault of the journal that an operation ended in, if it did. -/
def Reply.unwritten? : Reply → Option JournalFault
  | .authorized (.error (.unwritten fault)) => some fault
  | .resolved (.error (.gate (.unwritten fault))) => some fault
  | .invoked (.error (.gate (.unwritten fault))) => some fault
  | _ => none

/-- What an operation replies when the gate did not let it through. -/
def Operation.refusal (f : GateFault) : Operation σ → Reply
  | .authorize _ => .authorized (.error f)
  | .resolve .. => .resolved (.error (.gate f))
  | .invoke .. => .invoked (.error (.gate f))

namespace Session

def perform (sinks : Journal → Sinks σ) (stamp : String) (s : Session) (w : σ) :
    Operation σ → Reply × Session × σ
  | .authorize t =>
    let (outcome, s, w) := s.authorize sinks stamp t w
    (.authorized outcome, s, w)
  | .resolve t receiver shapes =>
    let (outcome, s, w) := s.resolve sinks stamp t receiver shapes w
    (.resolved outcome, s, w)
  | .invoke host t receiver arguments =>
    let (outcome, s, w) := s.invoke sinks stamp host t receiver arguments w
    (.invoked outcome, s, w)

/-- Operations one after another, each at its own time. -/
def performAll (sinks : Journal → Sinks σ) :
    List (String × Operation σ) → Session → σ → Session × σ
  | [], s, w => (s, w)
  | (stamp, op) :: rest, s, w =>
    let (_, s, w) := s.perform sinks stamp w op
    performAll sinks rest s w

/-- What asking the gate can do to a session. -/
inductive Asks (stamp key : String) (s : Session) : Except GateFault Unit → Session → Prop
  | known (known : key ∈ s.authorized) : Asks stamp key s (.ok ()) s
  | allowed (unknown : key ∉ s.authorized) (journal : Option Journal)
    (allowed : s.gate.policy.denial? key s.actor = none) :
    Asks stamp key s (.ok ())
      { s with
        gate := { s.gate with
          journal, rulings := s.gate.rulings ++ [s.gate.policy.rule stamp key s.actor] }
        authorized := s.authorized ++ [key] }
  | denied (unknown : key ∉ s.authorized) (journal : Option Journal) {denial : Policy.Denial}
    (denied : s.gate.policy.denial? key s.actor = some denial) :
    Asks stamp key s (.error (.denied key denial))
      { s with
        gate := { s.gate with
          journal, rulings := s.gate.rulings ++ [s.gate.policy.rule stamp key s.actor] } }
  | unwritten (unknown : key ∉ s.authorized) (fault : JournalFault) :
    Asks stamp key s (.error (.unwritten fault)) s

theorem authorize_asks {sinks : Journal → Sinks σ} {stamp : String} {s next : Session} {t : Target}
    {w v : σ} {outcome : Except GateFault Unit}
    (asked : s.authorize sinks stamp t w = (outcome, next, v)) :
    Asks stamp t.text s outcome next := by
  unfold authorize at asked
  by_cases known : t.text ∈ s.authorized
  · simp only [List.contains_iff_mem, known, if_true, Prod.mk.injEq] at asked
    obtain ⟨rfl, rfl, _⟩ := asked
    exact .known known
  · simp only [List.contains_iff_mem, known, if_false] at asked
    rcases s.gate.authorize_cases sinks stamp t.text s.actor w with
      ⟨fault, v', result, _⟩ | ⟨journal, v', result⟩
    · simp only [result, Prod.mk.injEq] at asked
      obtain ⟨rfl, rfl, _⟩ := asked
      exact .unwritten known fault
    · rw [result] at asked
      cases ruled : s.gate.policy.denial? t.text s.actor with
      | none =>
        simp only [Gate.answer, Policy.Effective.rule, ruled, Prod.mk.injEq] at asked
        obtain ⟨rfl, rfl, _⟩ := asked
        have allowed : Asks stamp t.text s _ _ := .allowed known journal ruled
        simpa only [Policy.Effective.rule, ruled] using allowed
      | some denial =>
        simp only [Gate.answer, Policy.Effective.rule, ruled, Prod.mk.injEq] at asked
        obtain ⟨rfl, rfl, _⟩ := asked
        have denied : Asks stamp t.text s _ _ := .denied known journal ruled
        simpa only [Policy.Effective.rule, ruled] using denied

/-- A ruling that is not written down goes back to a line that the run's own journal refused. -/
theorem exists_refused_of_unwritten {sinks : Journal → Sinks σ} {stamp : String} {s next : Session}
    {t : Target} {w v : σ} {fault : JournalFault}
    (asked : s.authorize sinks stamp t w = (.error (.unwritten fault), next, v)) :
    ∃ j text u e, ((sinks j).own text u).1 = .error e := by
  unfold authorize at asked
  simp only at asked
  split at asked
  · cases asked
  rcases s.gate.authorize_cases sinks stamp t.text s.actor w with
    ⟨_, _, _, refused⟩ | ⟨journal, u, result⟩
  · exact refused
  · rw [result, Gate.answer] at asked
    cases ruled : (s.gate.policy.rule stamp t.text s.actor).denial with
    | none => simp [ruled] at asked
    | some denial => simp [ruled] at asked

section Asks
variable {stamp key : String} {s next : Session} {outcome : Except GateFault Unit}

theorem Asks.mem_authorized (asks : Asks stamp key s (.ok ()) next) : key ∈ next.authorized := by
  cases asks with
  | known known => exact known
  | allowed => exact List.mem_append_right _ List.mem_cons_self

/-- How many rulings asking the gate adds to those that are there. -/
theorem Asks.rulings (asks : Asks stamp key s outcome next) :
    ∃ new, next.gate.rulings = s.gate.rulings ++ new ∧ (∀ r ∈ new, r.target = key) ∧
      ((∀ fault, outcome ≠ .error (.unwritten fault)) →
        new.length = if key ∈ s.authorized then 0 else 1) := by
  cases asks with
  | known known => exact ⟨[], by simp, by simp, by simp [known]⟩
  | allowed unknown => exact ⟨[_], rfl, by simp [Policy.Effective.rule], by simp [unknown]⟩
  | denied unknown => exact ⟨[_], rfl, by simp [Policy.Effective.rule], by simp [unknown]⟩
  | unwritten unknown fault =>
    exact ⟨[], by simp, by simp, fun written => absurd rfl (written fault)⟩

/-- The session remembers what the gate allowed, in the order of the rulings and once, and the gate
has ruled on every target as its policy does for the one actor of the run. -/
structure Governed (s : Session) : Prop where
  remembered : (s.gate.rulings.filter (·.isAllowed)).map (·.target) = s.authorized
  once : s.authorized.Nodup
  ruled : ∀ r ∈ s.gate.rulings, r.denial = s.gate.policy.denial? r.target s.actor

namespace Governed

theorem mem_authorized_iff (governed : s.Governed) (key : String) :
    key ∈ s.authorized ↔ ∃ r ∈ s.gate.rulings, r.target = key ∧ r.isAllowed = true := by
  rw [← governed.remembered, List.mem_map]
  constructor
  · rintro ⟨r, member, same⟩
    obtain ⟨member, allowed⟩ := List.mem_filter.mp member
    exact ⟨r, member, same, allowed⟩
  · rintro ⟨r, member, same, allowed⟩
    exact ⟨r, List.mem_filter.mpr ⟨member, allowed⟩, same⟩

theorem allowed_once (governed : s.Governed) (key : String) :
    (s.gate.rulings.filter fun r => r.target == key && r.isAllowed).length ≤ 1 := by
  have once := List.nodup_iff_count_le_one.mp governed.once key
  rwa [← governed.remembered, List.count, List.countP_map, List.countP_filter,
    List.countP_eq_length_filter] at once

theorem agree (governed : s.Governed) {a b : Policy.Ruling} (one : a ∈ s.gate.rulings)
    (other : b ∈ s.gate.rulings) (same : a.target = b.target) : a.isAllowed = b.isAllowed := by
  rw [Policy.Ruling.isAllowed, Policy.Ruling.isAllowed, governed.ruled a one,
    governed.ruled b other, same]

end Governed

theorem Asks.governed (asks : Asks stamp key s outcome next) (governed : s.Governed) :
    next.Governed := by
  have ruled (rulings : List Policy.Ruling)
      (more : rulings = s.gate.rulings ++ [s.gate.policy.rule stamp key s.actor]) :
      ∀ r ∈ rulings, r.denial = s.gate.policy.denial? r.target s.actor := by
    subst more
    intro r member
    rcases List.mem_append.mp member with old | new
    · exact governed.ruled r old
    · rw [List.mem_singleton.mp new]
      rfl
  cases asks with
  | known => exact governed
  | allowed unknown journal allowed =>
    have isAllowed : (s.gate.policy.rule stamp key s.actor).isAllowed = true := by
      simp [Policy.Effective.rule, Policy.Ruling.isAllowed, allowed]
    refine ⟨?_, ?_, ruled _ rfl⟩
    · rw [List.filter_append, List.map_append, governed.remembered,
        List.filter_cons_of_pos isAllowed]
      rfl
    · exact List.nodup_append.mpr ⟨governed.once, List.nodup_singleton key, by
        rintro a old b new rfl
        exact unknown (List.mem_singleton.mp new ▸ old)⟩
  | denied unknown journal denied =>
    have isDenied : (s.gate.policy.rule stamp key s.actor).isAllowed = false := by
      simp [Policy.Effective.rule, Policy.Ruling.isAllowed, denied]
    refine ⟨?_, governed.once, ruled _ rfl⟩
    rw [List.filter_append, List.map_append, governed.remembered,
      List.filter_cons_of_neg (by simp [isDenied])]
    exact List.append_nil _
  | unwritten => exact governed

end Asks

section Perform
variable {sinks : Journal → Sinks σ} {stamp : String} {s next : Session} {w v : σ}
  {op : Operation σ}

/-- Where the gate does not let an operation through, that is its reply. -/
theorem perform_of_error {f : GateFault}
    (asked : s.authorize sinks stamp op.target w = (.error f, next, v)) :
    s.perform sinks stamp w op = (op.refusal f, next, v) := by
  cases op with
  | authorize t =>
    simp only [Operation.target] at asked
    simp only [perform, asked, Operation.refusal]
  | resolve t receiver shapes =>
    simp only [Operation.target] at asked
    simp only [perform, resolve, asked, Operation.refusal]
  | invoke host t receiver arguments =>
    simp only [Operation.target] at asked
    simp only [perform, invoke, dispatch, asked, Operation.refusal]

/-- Where it does, only the bridge changes behind the gate, and the state where a host is run,
whatever comes of the operation. -/
theorem perform_of_ok (asked : s.authorize sinks stamp op.target w = (.ok (), next, v)) :
    ∃ reply bridge u, s.perform sinks stamp w op = (reply, { next with bridge }, u) ∧
      reply.unwritten? = none := by
  cases op with
  | authorize t =>
    simp only [Operation.target] at asked
    exact ⟨.authorized (.ok ()), next.bridge, v, by simp only [perform, asked], rfl⟩
  | resolve t receiver shapes =>
    simp only [Operation.target] at asked
    rcases answered : next.bridge.ask (.make t receiver shapes) with ⟨failure | found, bridge⟩
    · exact ⟨.resolved (.error (.call failure)), bridge, v,
        by simp [perform, resolve, asked, answered, Except.mapError], rfl⟩
    · exact ⟨.resolved (.ok found), bridge, v,
        by simp [perform, resolve, asked, answered, Except.mapError], rfl⟩
  | invoke host t receiver arguments =>
    simp only [Operation.target] at asked
    rcases ready : next.bridge.prepare t receiver arguments with ⟨failure | handed, bridge⟩
    · exact ⟨.invoked (.error (.call failure)), bridge, v,
        by simp [perform, invoke, dispatch, asked, ready, Except.mapError], rfl⟩
    · rcases carried : host handed v with ⟨came, u⟩
      rcases made : handed.answer came with failure | result
      · exact ⟨.invoked (.error (.call failure)), bridge, u,
          by simp [perform, invoke, dispatch, asked, ready, carried, made, Except.mapError], rfl⟩
      · exact ⟨.invoked (.ok result), bridge, u,
          by simp [perform, invoke, dispatch, asked, ready, carried, made, Except.mapError], rfl⟩

/-- The gate does not look at the bridge. -/
theorem authorize_withBridge {outcome : Except GateFault Unit} {t : Target}
    (asked : s.authorize sinks stamp t w = (outcome, next, v)) (bridge : Call.Bridge) :
    { s with bridge }.authorize sinks stamp t w = (outcome, { next with bridge }, v) := by
  by_cases known : s.authorized.contains t.text = true
  · simp only [authorize, known, if_true] at asked ⊢
    obtain ⟨rfl, rfl, rfl⟩ := asked
    rfl
  · simp only [authorize, known] at asked ⊢
    rcases ruled : s.gate.authorize sinks stamp t.text s.actor w with ⟨f | r, gate, u⟩
    · simp only [ruled, Bool.false_eq_true, if_false] at asked ⊢
      obtain ⟨rfl, rfl, rfl⟩ := asked
      rfl
    · simp only [ruled, Bool.false_eq_true, if_false] at asked ⊢
      obtain ⟨rfl, rfl, rfl⟩ := asked
      rfl

/-- What an operation does to rulings, memory and bridge is said by what asking the gate does. -/
theorem perform_step (governed : s.Governed) {reply : Reply}
    (performed : s.perform sinks stamp w op = (reply, next, v)) :
    next.Governed ∧
    (∃ new, next.gate.rulings = s.gate.rulings ++ new ∧
      (∀ r ∈ new, r.target = op.target.text) ∧
      (reply.unwritten? = none →
        new.length = if op.target.text ∈ s.authorized then 0 else 1)) ∧
    (reply.unwritten?.isSome → ∃ j text u e, ((sinks j).own text u).1 = .error e) ∧
    (op.target.text ∉ next.authorized → ∀ host bridge,
      { s with bridge }.perform sinks stamp w (op.withHost host) =
        (reply, { next with bridge }, v)) := by
  rcases asked : s.authorize sinks stamp op.target w with ⟨f | _, after, u⟩
  · have asks := authorize_asks asked
    rw [perform_of_error asked] at performed
    obtain ⟨rfl, rfl, rfl⟩ := performed
    obtain ⟨new, grown, own, count⟩ := asks.rulings
    refine ⟨asks.governed governed, ⟨new, grown, own, ?_⟩, ?_, ?_⟩
    · intro written
      refine count ?_
      rintro fault ⟨⟩
      cases op <;> cases written
    · intro unwritten
      cases f with
      | denied => cases op <;> cases unwritten
      | unwritten fault => exact exists_refused_of_unwritten asked
    · intro _ host bridge
      have same : (op.withHost host).target = op.target := by cases op <;> rfl
      have reply : (op.withHost host).refusal f = op.refusal f := by cases op <;> rfl
      have again := authorize_withBridge asked bridge
      rw [← same] at again
      rw [perform_of_error again, reply]
  · -- Behind the gate only the bridge changes, of which neither memory is a part.
    have asks := authorize_asks asked
    obtain ⟨_, bridge, _, result, written⟩ := perform_of_ok asked
    rw [result] at performed
    obtain ⟨rfl, rfl, rfl⟩ := performed
    obtain ⟨new, grown, own, count⟩ := asks.rulings
    have kept := asks.governed governed
    refine ⟨⟨kept.remembered, kept.once, kept.ruled⟩, ⟨new, grown, own, fun _ => ?_⟩, ?_, ?_⟩
    · exact count (by simp)
    · intro unwritten
      rw [written] at unwritten
      cases unwritten
    · intro outside
      exact absurd asks.mem_authorized outside

theorem performAll_governed (governed : s.Governed) (sinks : Journal → Sinks σ)
    (ops : List (String × Operation σ)) (w : σ) :
    (performAll sinks ops s w).1.Governed := by
  induction ops generalizing s w with
  | nil => exact governed
  | cons first rest ih =>
    rcases performed : s.perform sinks first.1 w first.2 with ⟨reply, next, v⟩
    simp only [performAll, performed]
    exact ih (perform_step governed performed).1 v

end Perform

theorem authorizeAll_governed {sinks : Journal → Sinks σ} {stamp : String} {targets : List Target}
    {s next : Session} {w v : σ} (governed : s.Governed)
    (asked : authorizeAll sinks stamp targets s w = (.ok next, v)) : next.Governed := by
  induction targets generalizing s w with
  | nil =>
    obtain ⟨rfl, rfl⟩ := asked
    exact governed
  | cons t rest ih =>
    rcases first : s.authorize sinks stamp t w with ⟨f | _, middle, u⟩
    · simp [authorizeAll, first] at asked
    · simp only [authorizeAll, first] at asked
      exact ih ((authorize_asks first).governed governed) asked

/-- A session starts without rulings and without a memory of any. -/
theorem assemble_blank {c : Config} {around : Surroundings} {r : Request} {p : Policy.Effective}
    {ix : Classpath.Index} {s : Session}
    (assembled : Preparation.assemble c around r p ix = .ok s) :
    s.gate.rulings = [] ∧ s.authorized = [] := by
  unfold Preparation.assemble at assembled
  obtain ⟨_, _, assembled⟩ := Outcome.bind_eq_ok_iff.mp assembled
  obtain ⟨view, _, assembled⟩ := Outcome.bind_eq_ok_iff.mp assembled
  obtain rfl := Except.ok.inj assembled
  exact ⟨rfl, rfl⟩

theorem prepare_governed {c : Config} {around : Surroundings} {r : Request} {tree tree' : FileTree}
    {s : Session} (prepared : prepare c around r tree = (.ok s, tree')) : s.Governed := by
  unfold prepare at prepared
  simp only at prepared
  split at prepared
  · cases prepared
  split at prepared
  · cases prepared
  rename_i blank assembled
  split at prepared
  · cases prepared
  split at prepared
  · cases prepared
  rename_i asked
  obtain ⟨rfl, rfl⟩ := prepared
  obtain ⟨rulings, authorized⟩ := assemble_blank assembled
  refine authorizeAll_governed ⟨?_, ?_, ?_⟩ asked
  · simp [rulings, authorized]
  · simp [authorized]
  · simp [rulings]

end Session

open Session in
/-- Governance over a whole run. After any operations on a prepared session, what the session holds
as authorized is what the gate has allowed; a target is allowed at most once and never both allowed
and denied. One operation more adds one ruling if its target was not authorized yet, unless its
ruling could not be written down, and none otherwise; it leaves the earlier rulings as they are. An
operation whose target is not authorized even then neither looks at the bridge nor changes it, and
does not run the host, whatever a host would do to the state: with others in their place it does the
same. -/
theorem run_governed {c : Config} {around : Surroundings} {r : Request} {tree tree' : FileTree}
    {start : Session} (prepared : Session.prepare c around r tree = (.ok start, tree'))
    (sinks : Journal → Sinks σ) (ops : List (String × Operation σ)) (w : σ) :
    let (s, w) := Session.performAll sinks ops start w
    (∀ key, key ∈ s.authorized ↔
      ∃ ruling ∈ s.gate.rulings, ruling.target = key ∧ ruling.isAllowed = true) ∧
    (∀ key, (s.gate.rulings.filter fun ruling =>
      ruling.target == key && ruling.isAllowed).length ≤ 1) ∧
    (∀ a ∈ s.gate.rulings, ∀ b ∈ s.gate.rulings, a.target = b.target →
      a.isAllowed = b.isAllowed) ∧
    ∀ stamp op,
      let (reply, next, v) := s.perform sinks stamp w op
      (∃ new, next.gate.rulings = s.gate.rulings ++ new ∧
        (∀ ruling ∈ new, ruling.target = op.target.text) ∧
        (reply.unwritten? = none →
          new.length = if op.target.text ∈ s.authorized then 0 else 1)) ∧
      (reply.unwritten?.isSome → ∃ j text u e, ((sinks j).own text u).1 = .error e) ∧
      (op.target.text ∉ next.authorized → ∀ host bridge,
        { s with bridge }.perform sinks stamp w (op.withHost host) =
          (reply, { next with bridge }, v)) := by
  have governed := performAll_governed (prepare_governed prepared) sinks ops w
  rcases performed : performAll sinks ops start w with ⟨s, u⟩
  rw [performed] at governed
  refine ⟨governed.mem_authorized_iff, governed.allowed_once, ?_, ?_⟩
  · intro a one b other same
    exact governed.agree one other same
  · intro stamp op
    rcases step : s.perform sinks stamp u op with ⟨reply, next, v⟩
    exact (perform_step governed step).2

/-- A run that keeps a journal and may call one class. -/
def errandConfig : Config where
  discoverGlobalPolicy := false
  audit := { log := some "audit.log" }

def errand : Request where
  manifest := { targets := [⟨"demo.Main", "run", .staticMethod⟩] }
  overrides := { settings := { allowlist := some ["demo.Main"] } }

/-- Sinks that take every line. -/
def willing : Journal → Sinks Unit := fun _ => ⟨fun _ s => (.ok (), s), fun _ s => (.ok (), s)⟩

/-- The target of the manifest again, then one that is not allowed, twice. -/
def errands : List (String × Operation Unit) :=
  [("1", .resolve ⟨"demo.Main", "run", .staticMethod⟩ none []),
    ("2", .authorize ⟨"demo.Vault", "open", .staticMethod⟩),
    ("3", .invoke (fun _ w => (.error "", w)) ⟨"demo.Vault", "open", .staticMethod⟩ none [])]

theorem errand_outcome :
    ((Session.prepare errandConfig {} errand {}).1.toOption.map fun s =>
      (Session.performAll willing errands s ()).1.gate.rulings.map fun r =>
        (r.target, r.isAllowed)) =
      some [("demo.Main#run", true), ("demo.Vault#open", false), ("demo.Vault#open", false)] := by
  decide +kernel

theorem run_governed_errand :
    ∃ start tree, Session.prepare errandConfig {} errand {} = (.ok start, tree) ∧
      let (s, _) := Session.performAll willing errands start ()
      "demo.Main#run" ∈ s.authorized ∧ "demo.Vault#open" ∉ s.authorized := by
  have outcome := errand_outcome
  rcases prepared : Session.prepare errandConfig {} errand {} with ⟨fault | start, tree⟩
  · simp [prepared, Except.toOption] at outcome
  · refine ⟨start, tree, rfl, ?_⟩
    have governed := run_governed prepared willing errands ()
    simp only [prepared, Except.toOption, Option.map_some, Option.some.injEq] at outcome
    rcases performed : Session.performAll willing errands start () with ⟨s, u⟩
    rw [performed] at governed outcome
    have shown (key : String) : key ∈ s.authorized ↔
        (key, true) ∈ [("demo.Main#run", true), ("demo.Vault#open", false),
          ("demo.Vault#open", false)] := by
      rw [← outcome, List.mem_map, governed.1 key]
      simp only [Prod.mk.injEq]
    exact ⟨(shown _).mpr (by decide), fun inside => absurd ((shown _).mp inside) (by decide)⟩

end Linkage.Run
