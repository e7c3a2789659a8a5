import Devlegate.OwnerLoop

namespace Devlegate

open Transition

/-!
# The barrier of a forced stop

`devlegate stop --force` is to leave a manual-retry barrier for the execution it aborts.  A first
lifecycle request and a repeated one are handled by different branches of `request_lifecycle`.

* `StopService.requestLifecycle`: the whole method, with the payload it returns.
* `StopService.Accepts`: the requests return, and the owner keeps the execution active.
* `forcedStop_barrier_iff`: once a forced stop was accepted, the durable state holds the barrier
  exactly when it was there before or the first accepted request is the forced stop.

Each request and each save of the owner is one step here; saves that overlap are the subject of
`Devlegate.SaveRace`.
-/

/-! ### The service -/

/-- `_lifecycle_phase`. -/
inductive LifecyclePhase where
  | running
  | draining
  deriving DecidableEq, Repr

/-- `ShutdownIntent`. -/
structure ShutdownIntent where
  kind : Option String := none
  source : Option String := none
  isSet : Bool := false
  deriving DecidableEq, Repr

/-- `ShutdownIntent.request("operator_abort", source=source)`. -/
def ShutdownIntent.requestAbort (source : String) (intent : ShutdownIntent) : ShutdownIntent :=
  { intent with kind := some "operator_abort", source := some source, isSet := true }

/-- The engine's lifecycle attributes and the durable state.  `accepted` are the requests that have
    returned, in their order. -/
structure StopService where
  state : RuntimeState
  intent : Option LifecycleIntent := none
  phase : LifecyclePhase := .running
  requestId : Option String := none
  force : Bool := false
  ready : Bool := true
  activeWorkers : Nat := 0
  draining : Bool := false
  stopEvent : Option ShutdownIntent := none
  accepted : List LifecycleRequest := []

/-- What `lifecycle_status_payload` returns. -/
structure LifecycleStatus where
  intent : Option LifecycleIntent
  phase : LifecyclePhase
  ready : Bool
  requestId : Option String
  workersActive : Nat
  force : Bool
  deriving DecidableEq, Repr

/-- How `request_lifecycle` raises. -/
inductive LifecycleError where
  | alreadyAccepted (intent : LifecycleIntent)
  | saveFailed
  deriving DecidableEq, Repr

/-- `stop --force`. -/
def LifecycleRequest.isForcedStop (r : LifecycleRequest) : Bool := r.intent == .stop && r.force

namespace StopService

/-- `lifecycle_status_payload`. -/
def statusPayload (s : StopService) : LifecycleStatus :=
  ⟨s.intent, s.phase, s.ready, s.requestId, s.activeWorkers, s.force⟩

/-- The abort of a forced request. -/
def abort (s : StopService) : StopService :=
  { s with stopEvent := s.stopEvent.map (ShutdownIntent.requestAbort "operator_abort") }

variable [Sha256]

/-- The durable state after the save of a forced stop; `none` when the save raises. -/
def barrierSave (r : LifecycleRequest) (storeFails : Bool) (state : RuntimeState) :
    Option RuntimeState :=
  if r.isForcedStop then
    match forcedStopMarker r.requestId state with
    | none => some state
    | some marker => commitSave storeFails (forcedStopCall state.phase marker) state
  else some state

/-- `request_lifecycle`. -/
def requestLifecycle (r : LifecycleRequest) (storeFails : Bool) (s : StopService) :
    Except LifecycleError LifecycleStatus × StopService :=
  match s.intent with
  | some intent =>
    if intent ≠ r.intent then (.error (.alreadyAccepted intent), s)
    else
      let s := if r.force then { s.abort with force := true } else s
      (.ok s.statusPayload, s)
  | none =>
    let s := { s with
      draining := true, intent := some r.intent, phase := .draining
      requestId := some r.requestId, force := r.force }
    match barrierSave r storeFails s.state with
    | none => (.error .saveFailed, s)
    | some state =>
      let s := { s with state := state }
      let s := if r.force then s.abort else s
      (.ok s.statusPayload, s)

/-! ### Runs -/

/-- A request of a client, or what the owner makes of the durable state. -/
inductive Action where
  | request (r : LifecycleRequest) (storeFails : Bool)
  | ownerSave (update : RuntimeState → RuntimeState)

/-- One step. -/
def step (s : StopService) : Action → Option StopService
  | .request r storeFails =>
    match s.requestLifecycle r storeFails with
    | (.ok _, s') => some { s' with accepted := s'.accepted ++ [r] }
    | (.error _, s') => some s'
  | .ownerSave update => some { s with state := update s.state }

end StopService

/-- An execution with complete identity. -/
structure ActiveExecution where
  ticketId : String
  executionId : String
  baseHead : String
  ticketId_ne : ticketId ≠ ""
  executionId_ne : executionId ≠ ""
  baseHead_ne : baseHead ≠ ""

/-- The execution is active in the durable state. -/
structure ActiveExecution.Active (x : ActiveExecution) (s : RuntimeState) : Prop where
  phase : s.phase = .agentPending ∨ s.phase = .agentRunning
  ticketId : s.executionTicketId = some x.ticketId
  executionId : s.executionId = some x.executionId
  baseHead : s.executionBaseHead = some x.baseHead

/-- The durable state requires a manual retry of the execution. -/
def ActiveExecution.Barred (x : ActiveExecution) (s : RuntimeState) : Prop :=
  ∃ marker, s.manualRetryRequired = some marker ∧ marker.ticketId = x.ticketId
    ∧ marker.executionId = x.executionId ∧ marker.generation = x.baseHead

/-- Requests return, and the owner keeps the execution active and the barrier as it is. -/
def StopService.Accepts [Sha256] (x : ActiveExecution) (s : StopService) :
    StopService.Action → Prop
  | .request r storeFails => ∃ payload s', s.requestLifecycle r storeFails = (.ok payload, s')
  | .ownerSave update => x.Active (update s.state)
      ∧ (update s.state).manualRetryRequired = s.state.manualRetryRequired

/-! ### The barrier -/

section Barrier

variable [Sha256] {x : ActiveExecution} {s t u : StopService}

omit [Sha256] in
/-- The barrier of a forced stop names the active execution. -/
theorem forcedStopMarker_of_active {state : RuntimeState} (h : x.Active state)
    (requestId : String) : forcedStopMarker requestId state
      = some ⟨x.ticketId, x.executionId, x.baseHead, requestId⟩ := by
  unfold forcedStopMarker
  rw [if_pos h.phase, h.ticketId, h.executionId, h.baseHead]
  exact if_pos ⟨x.ticketId_ne, x.executionId_ne, x.baseHead_ne⟩

/-- What an accepted first request makes of the durable state. -/
theorem barrierSave_eq_some {r : LifecycleRequest} {storeFails : Bool}
    {state state' : RuntimeState} (hactive : x.Active state)
    (h : StopService.barrierSave r storeFails state = some state') :
    state' = if r.isForcedStop then
        { state with
          manualRetryRequired := some ⟨x.ticketId, x.executionId, x.baseHead, r.requestId⟩ }
      else state := by
  unfold StopService.barrierSave at h
  split
  · rename_i hforced
    have hmarker := forcedStopMarker_of_active hactive r.requestId
    rw [if_pos hforced, hmarker] at h
    have hcommit : commitSave storeFails (forcedStopCall state.phase
        ⟨x.ticketId, x.executionId, x.baseHead, r.requestId⟩) state = some state' := h
    rw [← forcedStopCall_payload hmarker]
    unfold commitSave at hcommit
    split at hcommit
    · cases hcommit
    · cases hsave : saveState (forcedStopCall state.phase
          ⟨x.ticketId, x.executionId, x.baseHead, r.requestId⟩) state with
      | error message =>
        rw [hsave] at hcommit
        cases hcommit
      | ok saved =>
        rw [hsave] at hcommit
        cases hcommit
        exact (saveState_eq_ok.mp hsave).1
  · rename_i hplain
    rw [if_neg hplain] at h
    exact (Option.some.inj h).symm

/-- An accepted request: the first one opens the lifecycle, a later one leaves the durable state
    alone. -/
theorem requestLifecycle_accepted {r : LifecycleRequest} {storeFails : Bool}
    {payload : LifecycleStatus} (hactive : x.Active s.state)
    (h : s.requestLifecycle r storeFails = (.ok payload, t)) :
    t.accepted = s.accepted ∧ t.intent.isSome = true
      ∧ t.state = if s.intent = none ∧ r.isForcedStop = true then
          { s.state with
            manualRetryRequired := some ⟨x.ticketId, x.executionId, x.baseHead, r.requestId⟩ }
        else s.state := by
  unfold StopService.requestLifecycle at h
  cases hintent : s.intent with
  | some intent =>
    rw [hintent] at h
    simp only at h
    split at h
    · cases h
    · -- the repeated request, which saves nothing
      rw [if_neg (by simp)]
      split at h
      · cases h
        exact ⟨rfl, by simp [StopService.abort, hintent], rfl⟩
      · cases h
        exact ⟨rfl, by simp [hintent], rfl⟩
  | none =>
    rw [hintent] at h
    simp only at h
    split at h
    · cases h
    · rename_i state hsave
      have hstate := barrierSave_eq_some hactive hsave
      simp only [true_and]
      rw [← hstate]
      split at h
      · cases h
        exact ⟨rfl, rfl, rfl⟩
      · cases h
        exact ⟨rfl, rfl, rfl⟩

/-- What a run from `s` remembers: the barrier is there if it was or if the request that opened the
    lifecycle was the forced stop. -/
structure Remembered (x : ActiveExecution) (s t : StopService) : Prop where
  active : x.Active t.state
  unopened : t.accepted = [] → t.intent = s.intent ∧ (x.Barred t.state ↔ x.Barred s.state)
  opened : ∀ r rest, t.accepted = r :: rest → t.intent.isSome = true
    ∧ (x.Barred t.state ↔ x.Barred s.state ∨ s.intent = none ∧ r.isForcedStop = true)

omit [Sha256] in
/-- A forced stop that opens the lifecycle leaves the barrier. -/
theorem barred_forced (state : RuntimeState) (requestId : String) :
    x.Barred { state with
      manualRetryRequired := some ⟨x.ticketId, x.executionId, x.baseHead, requestId⟩ } :=
  ⟨_, rfl, rfl, rfl, rfl⟩

theorem Remembered.step {a : StopService.Action} (h : Remembered x s t)
    (haccepts : t.Accepts x a) (hstep : t.step a = some u) : Remembered x s u := by
  cases a with
  | ownerSave update =>
    obtain ⟨hactive, hbarrier⟩ := haccepts
    cases hstep
    have hsame : x.Barred (update t.state) ↔ x.Barred t.state := by
      unfold ActiveExecution.Barred
      rw [hbarrier]
    refine ⟨hactive, fun hnone => ?_, fun r rest hsome => ?_⟩
    · exact ⟨(h.unopened hnone).1, hsame.trans (h.unopened hnone).2⟩
    · exact ⟨(h.opened r rest hsome).1, hsame.trans (h.opened r rest hsome).2⟩
  | request r storeFails =>
    obtain ⟨payload, t', hrequest⟩ := haccepts
    obtain ⟨haccepted, hintent, hstate⟩ := requestLifecycle_accepted h.active hrequest
    have hu : u = { t' with accepted := t.accepted ++ [r] } := by
      simp only [StopService.step, hrequest, Option.some.injEq] at hstep
      rw [← hstep, haccepted]
    subst hu
    have hactive : x.Active t'.state := by
      rw [hstate]
      split
      · exact ⟨h.active.phase, h.active.ticketId, h.active.executionId, h.active.baseHead⟩
      · exact h.active
    refine ⟨hactive, fun hnone => absurd hnone (by simp), fun first rest hfirst => ⟨hintent, ?_⟩⟩
    show x.Barred t'.state ↔ _
    cases hbefore : t.accepted with
    | nil =>
      -- the request that opens the lifecycle
      obtain ⟨hsameIntent, hsameBarrier⟩ := h.unopened hbefore
      have hr : first = r := by
        rw [hbefore] at hfirst
        exact (List.cons.inj hfirst).1.symm
      rw [hstate, hr, ← hsameIntent]
      split
      · rename_i hopens
        exact ⟨fun _ => .inr hopens, fun _ => barred_forced _ _⟩
      · rename_i hkeeps
        rw [hsameBarrier]
        exact ⟨.inl, fun hor => hor.elim id fun hopens => absurd hopens hkeeps⟩
    | cons r₀ rest₀ =>
      -- a repeated request
      obtain ⟨hopen, hbarrier⟩ := h.opened r₀ rest₀ hbefore
      have hfirst' : first = r₀ := by
        rw [hbefore] at hfirst
        exact (List.cons.inj hfirst).1.symm
      have hsome : t.intent ≠ none := by
        intro hnone
        rw [hnone] at hopen
        cases hopen
      rw [hstate, if_neg fun hopens => hsome hopens.1, hfirst']
      exact hbarrier

/-- **Forced stops.** After any requests that were accepted while the execution stayed active, one
    of them a forced stop, the durable state holds the barrier exactly when it was there before or
    the first accepted request is the forced stop. -/
theorem forcedStop_barrier_iff (hactive : x.Active s.state) (hstart : s.accepted = [])
    (hrun : Run StopService.step (StopService.Accepts x) s t)
    (hforced : ∃ r ∈ t.accepted, r.isForcedStop = true) :
    x.Barred t.state ↔
      x.Barred s.state ∨ s.intent = none
        ∧ ∃ r rest, t.accepted = r :: rest ∧ r.isForcedStop = true := by
  have hinitial : Remembered x s s :=
    ⟨hactive, fun _ => ⟨rfl, Iff.rfl⟩, fun r rest h => absurd (hstart.symm.trans h) (by simp)⟩
  have hend : Remembered x s t :=
    hrun.invariant (Remembered x s) hinitial fun _ _ _ h hok hs => h.step hok hs
  obtain ⟨forced, hmem, -⟩ := hforced
  cases haccepted : t.accepted with
  | nil =>
    rw [haccepted] at hmem
    exact (List.not_mem_nil hmem).elim
  | cons first rest =>
    rw [(hend.opened first rest haccepted).2]
    simp only [List.cons.injEq, exists_and_right, and_true, existsAndEq, true_and]

end Barrier

/-! ### A graceful stop that is escalated -/

/-- The execution of the running worker. -/
def runningExecution : ActiveExecution :=
  ⟨"t1", "e1", sampleHead 'a', by decide, by decide, by decide⟩

/-- A service that runs a worker. -/
def stopService : StopService where
  state := workerRunningState
  activeWorkers := 1
  stopEvent := some {}

/-- `stop` and `stop --force`. -/
def stopRequest (requestId : String) (force : Bool) : StopService.Action :=
  .request { intent := .stop, requestId := requestId, force := force } false

/-- A request that returns. -/
def StopService.returns [Sha256] (s : StopService) : StopService.Action → Bool
  | .request r storeFails => (s.requestLifecycle r storeFails).1.isOk
  | .ownerSave _ => false

theorem accepts_of_returns [Sha256] (x : ActiveExecution) (s : StopService)
    (a : StopService.Action) (h : s.returns a = true) : s.Accepts x a := by
  cases a with
  | ownerSave update => cases h
  | request r storeFails =>
    have hok : (s.requestLifecycle r storeFails).1.isOk = true := h
    cases hrequest : s.requestLifecycle r storeFails with
    | mk result t =>
      rw [hrequest] at hok
      cases result with
      | error e => cases hok
      | ok payload => exact ⟨payload, t, hrequest⟩

/-- Requests that return, evaluated. -/
theorem run_of_returns [Sha256] (x : ActiveExecution) {s t : StopService}
    {actions : List StopService.Action} (hexec : exec StopService.step s actions = some t)
    (hreturn : Along StopService.step (fun s a => s.returns a = true) s actions) :
    Run StopService.step (StopService.Accepts x) s t :=
  (run_of_exec hexec hreturn).mono (accepts_of_returns x)

/-- A forced stop, and another one after it. -/
theorem forcedStop_barrier_repeated :
    letI : Sha256 := ⟨fun _ => ""⟩
    ∃ t, Run StopService.step (StopService.Accepts runningExecution) stopService t
      ∧ t.accepted.length = 2 ∧ runningExecution.Barred t.state := by
  let _ : Sha256 := ⟨fun _ => ""⟩
  have hend : (exec StopService.step stopService
      [stopRequest "r1" true, stopRequest "r2" true]).any (fun t => decide
        (t.accepted = [⟨.stop, "r1", true, false⟩, ⟨.stop, "r2", true, false⟩])) = true := by
    decide
  obtain ⟨t, hexec, ht⟩ := exists_exec_of_any hend
  have hrun : Run StopService.step (StopService.Accepts runningExecution) stopService t :=
    run_of_returns runningExecution hexec (by decide)
  refine ⟨t, hrun, by rw [ht]; rfl, ?_⟩
  have hactive : runningExecution.Active stopService.state := ⟨.inr rfl, rfl, rfl, rfl⟩
  have hforced : ∃ r ∈ t.accepted, r.isForcedStop = true := by
    rw [ht]
    exact ⟨_, List.mem_cons_self, rfl⟩
  exact (forcedStop_barrier_iff hactive rfl hrun hforced).mpr (.inr ⟨rfl, _, _, ht, rfl⟩)
/-- A graceful stop that is escalated: both requests are accepted, and the durable state holds no
    barrier. -/
theorem escalatedStop_unbarred :
    letI : Sha256 := ⟨fun _ => ""⟩
    ∃ t, Run StopService.step (StopService.Accepts runningExecution) stopService t
      ∧ runningExecution.Active t.state ∧ (∃ r ∈ t.accepted, r.isForcedStop = true)
      ∧ ¬ runningExecution.Barred t.state := by
  let _ : Sha256 := ⟨fun _ => ""⟩
  have hend : (exec StopService.step stopService
      [stopRequest "r1" false, stopRequest "r2" true]).any (fun t => decide
        (t.state = workerRunningState
          ∧ t.accepted = [⟨.stop, "r1", false, false⟩, ⟨.stop, "r2", true, false⟩])) = true := by
    decide
  obtain ⟨t, hexec, hstate, haccepted⟩ := exists_exec_of_any hend
  refine ⟨t, run_of_returns runningExecution hexec (by decide), ?_, ?_, ?_⟩
  · rw [hstate]
    exact ⟨.inr rfl, rfl, rfl, rfl⟩
  · rw [haccepted]
    exact ⟨_, List.mem_cons_of_mem _ List.mem_cons_self, rfl⟩
  · rw [hstate]
    rintro ⟨marker, hmarker, -⟩
    cases hmarker

end Devlegate
