import Linkage.Call.Bridge
import Linkage.Proofs.Outcome
import Linkage.Proofs.Text.Distinct

/-!
A bridge remembers the outcome of every request, failures included, and that cannot be told from a
bridge that resolves every request anew. What it holds is fixed by the requests that were made: one
answer for each of them, in the order in which they were made first, and the answer is what
resolving the request on the view of the bridge gives. The resolver is run for the requests alone
that the bridge does not hold yet, as every resolver that keeps a state can tell by it.
-/
namespace Linkage.Call

/-- What may be asked of a bridge. -/
inductive Use where
  | resolve (target : Target) (receiver : Option String) (shapes : List Shape)
  | call (host : Host) (target : Target) (receiver : Option Value) (arguments : List Value)

inductive Reply where
  | resolved (outcome : Except Failure Resolution)
  | called (outcome : Except Failure Value)

namespace Use

/-- The reply, once it is known what came of resolving the call. -/
def reply (v : ClassView) (outcome : Except Failure Resolution) : Use → Reply
  | .resolve .. => .resolved outcome
  | .call host t receiver arguments => .called (do
      let r ← outcome
      let adapted ← (adaptArguments v r.parameters r.spread arguments).mapError fun fault =>
        (⟨t.text, .conversion fault⟩ : Failure)
      Dispatch.run ⟨r, if t.kind.needsReceiver then receiver.map adaptReceiver else none, adapted⟩
        host)

/-- The reply when there is nothing to resolve. -/
def refused (e : Failure) : Use → Reply
  | .resolve .. => .resolved (.error e)
  | .call .. => .called (.error e)

/-- The reply without a memory: what the caller asks for is resolved on the view. -/
def afresh (v : ClassView) (u : Use) : Reply :=
  match u with
  | .resolve t receiver shapes => u.reply v (Call.resolve v t receiver shapes)
  | .call _ t receiver arguments =>
    match Bridge.receiverClass t receiver with
    | .error e => u.refused e
    | .ok className => u.reply v (Call.resolve v t className (arguments.map Value.shape))

/-- The request that is made, unless it comes to none. -/
def request : Use → Except Failure Request
  | .resolve t receiver shapes => .ok (.make t receiver shapes)
  | .call _ t receiver arguments =>
    (Bridge.receiverClass t receiver).map fun className =>
      .make t className (arguments.map Value.shape)

def request? (u : Use) : Option Request := u.request.toOption

end Use

/-- The resolver answers as resolving on a view does. -/
def Resolver.Faithful {σ : Type} (v : ClassView) (resolver : Resolver σ) : Prop :=
  ∀ r w, (resolver r w).1 = r.outcome v

/-- The resolver of a view that notes the requests for which it is run. -/
def noting (v : ClassView) : Resolver (List Request) :=
  fun r runs => (r.outcome v, runs ++ [r])

namespace Bridge

section Resolving
variable {σ : Type} (resolver : Resolver σ)

def useBy (b : Bridge) (w : σ) : Use → Reply × Bridge × σ
  | .resolve t receiver shapes =>
    let (outcome, b, w) := b.askBy resolver (.make t receiver shapes) w
    (.resolved outcome, b, w)
  | .call host t receiver arguments =>
    let (outcome, b, w) := b.callBy resolver host t receiver arguments w
    (.called outcome, b, w)

/-- One use after another, with the state in which the resolver is left. -/
def useAllBy : List Use → Bridge → σ → List Reply × Bridge × σ
  | [], b, w => ([], b, w)
  | u :: rest, b, w =>
    let (reply, b, w) := b.useBy resolver w u
    let (replies, b, w) := useAllBy rest b w
    (reply :: replies, b, w)

theorem askBy_view (b : Bridge) (r : Request) (w : σ) :
    (b.askBy resolver r w).2.1.view = b.view := by
  unfold askBy
  split
  · rfl
  · rfl

theorem callBy_eq (b : Bridge) (host : Host) (t : Target) (receiver : Option Value)
    (arguments : List Value) (w : σ) :
    b.callBy resolver host t receiver arguments w =
      ((b.prepareBy resolver t receiver arguments w).1 >>= (·.run host),
        (b.prepareBy resolver t receiver arguments w).2) := by
  unfold callBy
  rcases b.prepareBy resolver t receiver arguments w with ⟨e | d, next⟩
  · rfl
  · rfl

/-- Every use makes its request, if it comes to one, and replies by what comes of it. -/
theorem useBy_eq (b : Bridge) (u : Use) (w : σ) :
    b.useBy resolver w u = match u.request with
      | .error e => (u.refused e, b, w)
      | .ok r => (u.reply b.view (b.askBy resolver r w).1, (b.askBy resolver r w).2) := by
  cases u with
  | resolve t receiver shapes => rfl
  | call host t receiver arguments =>
    simp only [useBy, callBy_eq, prepareBy, Use.request, Use.refused, Use.reply]
    cases receiverClass t receiver with
    | error e => rfl
    | ok className => simp only [Except.map, askBy_view, bind_assoc, pure_bind]

end Resolving

/-- A bridge has seen some requests: it holds one answer for each, in the order in which they were
made first. -/
structure Remembers (b : Bridge) (v : ClassView) (asked : List Request) : Prop where
  view : b.view = v
  answers : b.answered = (Text.distinct asked).map fun r => (r, r.outcome v)

namespace Remembers
variable {b : Bridge} {v : ClassView} {asked : List Request}

theorem start (v : ClassView) : Remembers { view := v } v [] := ⟨rfl, rfl⟩

theorem answer?_eq_some (remembers : b.Remembers v asked) {r : Request} (known : r ∈ asked) :
    b.answer? r = some (r.outcome v) := by
  have found : (Text.distinct asked).find? (· == r) = some r := by
    have some : ((Text.distinct asked).find? (· == r)).isSome :=
      List.find?_isSome.mpr ⟨r, Text.mem_distinct.mpr known, beq_self_eq_true r⟩
    obtain ⟨q, hit⟩ := Option.isSome_iff_exists.mp some
    have same : (q == r) = true := List.find?_some (p := (· == r)) hit
    rw [hit, eq_of_beq same]
  rw [answer?, remembers.answers, List.find?_map]
  simp only [Function.comp_def, found, Option.map_some]

theorem answer?_eq_none (remembers : b.Remembers v asked) {r : Request} (new : r ∉ asked) :
    b.answer? r = none := by
  rw [answer?, remembers.answers, Option.map_eq_none_iff, List.find?_eq_none]
  intro e member same
  obtain ⟨q, kept, rfl⟩ := List.mem_map.mp member
  exact new (eq_of_beq same ▸ Text.mem_distinct.mp kept)

/-- A request is answered as if it was resolved now, and its answer is remembered. -/
theorem askBy (remembers : b.Remembers v asked) {σ : Type} {resolver : Resolver σ}
    (faithful : resolver.Faithful v) (r : Request) (w : σ) :
    (b.askBy resolver r w).1 = r.outcome v ∧
      (b.askBy resolver r w).2.1.Remembers v (asked ++ [r]) := by
  by_cases known : r ∈ asked
  · have same := remembers.answer?_eq_some known
    simp only [Bridge.askBy, same, true_and]
    exact ⟨remembers.view, by rw [remembers.answers, Text.distinct_concat_of_mem known]⟩
  · have none := remembers.answer?_eq_none known
    simp only [Bridge.askBy, none, faithful r w]
    refine ⟨trivial, remembers.view, ?_⟩
    rw [remembers.answers, Text.distinct_concat_of_not_mem known, List.map_append]
    rfl

end Remembers

end Bridge

/-- A receiver counts for a request just where it counts for resolving. -/
theorem Request.outcome_make (v : ClassView) (t : Target) (receiver : Option String)
    (shapes : List Shape) : (make t receiver shapes).outcome v = resolve v t receiver shapes := by
  simp only [outcome, make, resolve]
  by_cases needed : t.kind.needsReceiver = true
  · simp only [if_pos needed]
    rfl
  · simp only [if_neg needed]
    rfl

/-- The reply without a memory, by way of the request. -/
theorem Use.afresh_eq (v : ClassView) (u : Use) :
    u.afresh v = match u.request with
      | .error e => u.refused e
      | .ok r => u.reply v (r.outcome v) := by
  cases u with
  | resolve t receiver shapes => simp only [afresh, request, Request.outcome_make]
  | call host t receiver arguments =>
    simp only [afresh, request]
    cases Bridge.receiverClass t receiver with
    | error e => rfl
    | ok className => simp only [Except.map, Request.outcome_make]

namespace Bridge

section Uses
variable {b : Bridge} {v : ClassView} {asked : List Request} {σ : Type} {resolver : Resolver σ}
  {start w : σ}

theorem requests_cons (u : Use) (rest : List Use) : (u :: rest).filterMap Use.request? =
    u.request?.toList ++ rest.filterMap Use.request? := by
  cases found : u.request? with
  | none => simp [found]
  | some r => simp [found]

/-- One use: the reply is that of a bridge without a memory, and its request counts as seen. -/
theorem Remembers.useBy (remembers : b.Remembers v asked) (faithful : resolver.Faithful v)
    (u : Use) (w : σ) :
    (b.useBy resolver w u).1 = u.afresh v ∧
      (b.useBy resolver w u).2.1.Remembers v (asked ++ u.request?.toList) := by
  rw [useBy_eq, u.afresh_eq, Use.request?]
  cases u.request with
  | error e => exact ⟨rfl, by simpa [Except.toOption] using remembers⟩
  | ok r =>
    obtain ⟨same, next⟩ := remembers.askBy faithful r w
    exact ⟨by simp only [same, remembers.view], next⟩

theorem Remembers.useAllBy (remembers : b.Remembers v asked) (faithful : resolver.Faithful v)
    (uses : List Use) (w : σ) :
    (useAllBy resolver uses b w).1 = uses.map (Use.afresh v) ∧
      (useAllBy resolver uses b w).2.1.Remembers v (asked ++ uses.filterMap Use.request?) := by
  induction uses generalizing b asked w with
  | nil => exact ⟨rfl, by simpa [Bridge.useAllBy] using remembers⟩
  | cons u rest ih =>
    obtain ⟨same, next⟩ := remembers.useBy faithful u w
    obtain ⟨replies, last⟩ := ih next (b.useBy resolver w u).2.2
    refine ⟨by simp only [Bridge.useAllBy, List.map_cons, same, replies], ?_⟩
    rw [requests_cons, ← List.append_assoc]
    exact last

theorem Remembers.resolved (remembers : b.Remembers v asked) :
    b.resolved = (Text.distinct asked).filterMap fun r => (r.outcome v).toOption := by
  rw [Bridge.resolved, remembers.answers, List.filterMap_map]
  rfl

/-- What was asked on a view fixes the bridge. -/
theorem Remembers.unique {other : Bridge} (remembers : b.Remembers v asked)
    (also : other.Remembers v asked) : b = other := by
  have views : b.view = other.view := remembers.view.trans also.view.symm
  have answers : b.answered = other.answered := remembers.answers.trans also.answers.symm
  cases b
  cases other
  exact (mk.injEq ..).mpr ⟨views, answers⟩

/-- A resolver was run once for each request, when it was made first: its state is what these runs
have made of the state it had. -/
structure Runs (resolver : Resolver σ) (start : σ) (asked : List Request) (b : Bridge) (w : σ) :
    Prop where
  held : b.answered.map Prod.fst = Text.distinct asked
  state : w = (Text.distinct asked).foldl (fun w r => (resolver r w).2) start

theorem answer?_isSome_iff (b : Bridge) (r : Request) :
    (b.answer? r).isSome = true ↔ r ∈ b.answered.map Prod.fst := by
  simp [answer?, List.find?_isSome, beq_iff_eq]

/-- The resolver is not run for a request that was made before. -/
theorem Runs.askBy (runs : Runs resolver start asked b w) (r : Request) :
    Runs resolver start (asked ++ [r]) (b.askBy resolver r w).2.1 (b.askBy resolver r w).2.2 := by
  have isKnown := b.answer?_isSome_iff r
  rw [runs.held, Text.mem_distinct] at isKnown
  by_cases known : r ∈ asked
  · obtain ⟨outcome, answer⟩ := Option.isSome_iff_exists.mp (isKnown.mpr known)
    simp only [Bridge.askBy, answer]
    constructor
    · rw [Text.distinct_concat_of_mem known, runs.held]
    · rw [Text.distinct_concat_of_mem known, runs.state]
  · have answer : b.answer? r = none := by simpa using mt isKnown.mp known
    simp only [Bridge.askBy, answer]
    constructor
    · rw [Text.distinct_concat_of_not_mem known, List.map_append, runs.held]
      rfl
    · rw [Text.distinct_concat_of_not_mem known, List.foldl_append, ← runs.state]
      rfl

theorem Runs.useBy (runs : Runs resolver start asked b w) (u : Use) :
    Runs resolver start (asked ++ u.request?.toList) (b.useBy resolver w u).2.1
      (b.useBy resolver w u).2.2 := by
  rw [useBy_eq, Use.request?]
  cases u.request with
  | error e => simpa [Except.toOption] using runs
  | ok r => exact runs.askBy r

theorem Runs.useAllBy (runs : Runs resolver start asked b w) (uses : List Use) :
    Runs resolver start (asked ++ uses.filterMap Use.request?) (useAllBy resolver uses b w).2.1
      (useAllBy resolver uses b w).2.2 := by
  induction uses generalizing b asked w with
  | nil => simpa [Bridge.useAllBy] using runs
  | cons u rest ih =>
    have last := ih (runs.useBy u)
    rw [requests_cons, ← List.append_assoc]
    exact last

end Uses

end Bridge

end Linkage.Call
