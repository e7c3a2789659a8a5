import Devlegate.TicketStorage
import Devlegate.Engine

namespace Devlegate

/-!
# The status snapshot

The status view is computed from one observation of the state, of the tickets and of the two Git
checkouts.  The plan, the barrier that keeps a ticket from being admitted and the three ticket lists
of the view are each computed on their own from that observation; the view promises that together
they place every todo ticket exactly once.

* `Observed.makeExecutionPlan`: the plan with every barrier, also for a dirty or misplaced checkout
  and for a running execution.  In a clean checkout it is the plan the engine follows.
* `makeStatusSnapshot`: the view, or the text of what was raised while it was built.
* `statusSnapshot_partition`: every todo ticket is bound, eligible or blocked, and only one of them.
-/

/-! ### Observations -/

/-- `GitObservation`. -/
structure GitObservation where
  branch : Option String
  detached : Bool
  localHead : String
  remoteRef : String
  remoteHead : Option String
  workingTreeClean : Bool
  workingTreeFingerprint : String
  deriving DecidableEq, Repr

/-- The tags of a blocking reason. -/
inductive BlockKind where
  | repository
  | reconciliation
  | acceptedIntegration
  | schedulerBarrier
  | review
  | accepted
  | activeExecution
  | dependencies
  | integrationInProgress
  deriving DecidableEq, Repr

/-- `AdmissionBarrier`. -/
structure AdmissionBarrier where
  action : PlanAction
  kind : BlockKind
  reason : String
  ticketId : Option String := none
  deriving DecidableEq, Repr

/-- `BlockedReason`. -/
structure BlockedReason where
  kind : BlockKind
  ticketId : Option String := none
  tickets : List (String × String) := []
  deriving DecidableEq, Repr

/-- `ExecutionPlan` with the ticket it is about and the observations it was made from. -/
structure ObservedPlan extends ExecutionPlan where
  ticketTitle : Option String := none
  ticketState : Option TicketState := none
  code : GitObservation
  control : Option GitObservation
  deriving DecidableEq, Repr

/-- `FailedExecution` of the view, with the reason a retry would be refused for. -/
structure FailedExecutionStatus where
  ticketId : String
  title : String
  reason : String
  retryable : Bool
  nonretryableReason : Option String := none
  interruptionKind : Option InterruptionKind := none
  manualRetryRequired : Bool := false
  deriving DecidableEq, Repr

/-- What the service itself contributes to a view: its configuration, the valid state it holds in
    memory and the execution it owns, and its answers about workers, the bound workspace, the todo
    directory and the stored reports. -/
structure StatusService [Sha256] where
  remoteBranch : String
  controlBranch : String
  current : RuntimeState
  current_valid : validateStateInvariant current = .ok ()
  ownedExecutionId : Option String
  owns : String → Bool
  observe : WorkerProcessIdentity → WorkerObservation
  inspectBoundExecutionWorkspace : RuntimeState → WorkspaceInspection
  todoFingerprint : String
  readReport : String → String → Option ExecutionReport

/-- `StatusSnapshot`. -/
structure StatusSnapshot where
  phase : Phase
  boundTicketId : Option String
  persistedBodyPresent : Bool
  code : GitObservation
  control : Option GitObservation
  counts : List (TicketState × Nat)
  runnable : List (String × String)
  blocked : List (String × String × BlockedReason)
  review : List (String × String)
  accepted : List (String × String)
  nextTicket : Option (String × String)
  plan : ObservedPlan
  failedExecutions : List FailedExecutionStatus := []
  reconciliation : Option Reconciliation := none
  executionStage : Option Stage := none
  executionId : Option String := none
  boundTicketTitle : Option String := none
  lifecycleIntegration : Option (String × String) := none
  eligible : List (String × String) := []
  deriving DecidableEq, Repr

/-! ### The plan -/

/-- `_worker_identity_from_value` on a typed value. -/
def workerIdentityFromValue (value : Option WorkerProcessIdentity) (executionId : Option String) :
    Except String (Option WorkerProcessIdentity) :=
  match value with
  | none => .ok none
  | some identity => do
    validateWorkerIdentity executionId identity
    return some identity

/-- The resolution's word in the state file. -/
def Resolution.word : Resolution → String
  | .resume => "resume"
  | .updateBase => "update-base"

/-- `dirty`: one of the two checkouts is not clean. -/
def observedDirty (code : GitObservation) (control : Option GitObservation) : Bool :=
  !code.workingTreeClean || !control.any (·.workingTreeClean)

section Snapshot

variable [Sha256]

/-- `branch_ok`: both checkouts are on their configured branches. -/
def StatusService.branchOk (service : StatusService) (code : GitObservation)
    (control : Option GitObservation) : Bool :=
  !code.detached && code.branch = some service.remoteBranch
    && control.any fun control => !control.detached && control.branch = some service.controlBranch

namespace Observed

/-- `_admission_barrier`. -/
def admissionBarrier (s : RuntimeState) (store : TicketStore) (dirty branchOk : Bool)
    (code : GitObservation) : Option AdmissionBarrier :=
  if !branchOk then some {
    action := .blocked
    kind := .repository
    reason := if code.detached then "detached HEAD is not supported"
      else "control worktree is unavailable or on the wrong branch" }
  else
    match s.reconciliation.filter (·.status ≠ .resolved) with
    | some r => some {
        action := .blocked
        kind := .reconciliation
        reason := if r.status = .resolving
          then "reconciliation recovery in progress: ticket " ++ r.ticketId ++ "; resolution "
            ++ (r.resolution.map Resolution.word).getD "unknown"
          else "reconciliation required: ticket " ++ r.ticketId
            ++ "; original base " ++ r.originalBase ++ "; observed product " ++ r.observedProduct
            ++ "; worker checkpoint " ++ r.workerCheckpoint
        ticketId := some r.ticketId }
    | none =>
      match s.acceptedIntegration with
      | some a =>
        match store.byId a.ticketId with
        | none => some {
            action := .blocked
            kind := .acceptedIntegration
            reason := "accepted integration ticket is no longer observable" }
        | some ticket => some {
            action := .none
            kind := .acceptedIntegration
            reason := "accepted integration recovery in progress: " ++ ticket.id
            ticketId := some ticket.id }
      | none =>
        if dirty then some {
          action := .blocked
          kind := .repository
          reason := "code or control working tree is dirty" }
        else if store.boundary.length > 1 then some {
          action := .blocked
          kind := .schedulerBarrier
          reason := "multiple tickets occupy the review/accepted serial boundary" }
        else none

/-- `_serial_admission_barrier`. -/
def serialAdmissionBarrier (store : TicketStore) : Option AdmissionBarrier :=
  match store.boundary with
  | [] => none
  | ticket :: _ =>
    if ticket.state = .review then some {
      action := .none
      kind := .review
      reason := "waiting for review: " ++ ticket.id
      ticketId := some ticket.id }
    else some {
      action := .integrate
      kind := .accepted
      reason := "accepted, ready for integration: " ++ ticket.id
      ticketId := some ticket.id }

/-- The plan that reports a barrier, with the barrier's ticket where the store has it. -/
def barrierPlan (store : TicketStore) (code : GitObservation) (control : Option GitObservation)
    (barrier : AdmissionBarrier) : ObservedPlan :=
  let ticket := barrier.ticketId.bind store.byId
  { action := barrier.action, reason := barrier.reason, ticketId := ticket.map (·.id),
    ticketTitle := ticket.map (·.title), ticketState := ticket.map (·.state),
    code := code, control := control }

/-- The plan for a running execution: only the mutation owner moves it on. -/
def runningPlan (service : StatusService) (s : RuntimeState) (code : GitObservation)
    (control : Option GitObservation) : Except String ObservedPlan :=
  let blocked (reason : String) : ObservedPlan :=
    { action := .blocked, reason := reason, code := code, control := control }
  let ambiguous := blocked
    "interrupted execution has ambiguous outcome; explicit operator handling is required"
  match s.executionStage with
  | some .workerRunning => do
    match ← workerIdentityFromValue s.workerIdentity s.executionId with
    | none => return ambiguous
    | some identity =>
      return blocked (match service.observe identity with
        | .matchingLive =>
          "persisted worker ownership is matching-live; startup reconciliation is blocked"
        | .indeterminate =>
          "persisted worker ownership is indeterminate; startup reconciliation is blocked"
        | .absent =>
          "persisted worker ownership is absent; mutation-owner reconciliation is required")
  | some .postWorker =>
    .ok (blocked "persisted post-worker state awaits mutation-owner reconciliation")
  | _ => .ok ambiguous

/-- The plan for a pending execution. -/
def pendingPlan (service : StatusService) (s : RuntimeState) (store : TicketStore)
    (code : GitObservation) (control : Option GitObservation) : ObservedPlan :=
  match s.selectedTicketId.bind store.byId with
  | none => {
      action := .blocked
      reason := "persisted selected ticket is not in managed storage"
      code := code
      control := control }
  | some ticket =>
    let inspection := service.inspectBoundExecutionWorkspace s
    if ticket.state ≠ .todo && ticket.state ≠ .review then {
      action := .blocked
      reason := "selected ticket " ++ ticket.id ++ " has unexpected bound execution state "
        ++ ticket.state.word
      code := code
      control := control }
    else if inspection.classification ≠ .reusable then {
      action := .blocked
      reason := "bound execution workspace is " ++ inspection.classification.word ++ ": "
        ++ inspection.reason
      ticketId := some ticket.id
      bound := true
      ticketTitle := some ticket.title
      ticketState := some ticket.state
      code := code
      control := control }
    else {
      action := .runWorker
      reason := "resume persisted bound execution"
      ticketId := some ticket.id
      bound := true
      ticketTitle := some ticket.title
      ticketState := some ticket.state
      code := code
      control := control }

/-- The plan without a bound execution. -/
def freePlan (store : TicketStore) (code : GitObservation) (control : Option GitObservation) :
    ObservedPlan :=
  match serialAdmissionBarrier store with
  | some barrier => barrierPlan store code control barrier
  | none =>
    match store.selected with
    | none => { action := .none, reason := "no runnable tickets", code := code, control := control }
    | some ticket => {
        action := .runWorker
        reason := "deterministic runnable ticket selection"
        ticketId := some ticket.id
        ticketTitle := some ticket.title
        ticketState := some ticket.state
        code := code
        control := control }

/-- `_make_execution_plan`. -/
def makeExecutionPlan (service : StatusService) (s : RuntimeState) (store : TicketStore)
    (dirty branchOk : Bool) (code : GitObservation) (control : Option GitObservation) :
    Except String ObservedPlan :=
  match admissionBarrier s store dirty branchOk code with
  | some barrier => .ok (barrierPlan store code control barrier)
  | none =>
    match s.phase with
    | .agentRunning => runningPlan service s code control
    | .agentPending => .ok (pendingPlan service s store code control)
    | .idle | .mergePending => .ok (freePlan store code control)

end Observed

/-! ### The lists of the view -/

/-- The plan admits a new worker. -/
def ObservedPlan.admits (plan : ObservedPlan) : Bool := plan.action = .runWorker && !plan.bound

/-- `bound_phase`. -/
def RuntimeState.boundPhase (s : RuntimeState) : Bool :=
  s.phase = .agentPending || s.phase = .agentRunning

/-- `ticket_store.by_id[id].state`. -/
def TicketStore.stateOf (store : TicketStore) (id : String) : Except String TicketState :=
  match store.byId id with
  | none => .error ("KeyError: " ++ pythonRepr id)
  | some ticket => .ok ticket.state

/-- The test of `_dependency_blocked_tickets`. -/
def TicketStore.dependencyBlocked (store : TicketStore) (ticket : Ticket) : Except String Bool :=
  if ticket.state = .todo then
    ticket.dependsOn.anyM fun id => do return (← store.stateOf id) != .done
  else .ok false

/-- The unfinished dependencies of a ticket, by id, with their states. -/
def TicketStore.unfinished (store : TicketStore) (ticket : Ticket) :
    Except String (List (String × TicketState)) := do
  let states ← (ticket.dependsOn.insertionSort (· ≤ ·)).mapM fun id => do
    return (id, ← store.stateOf id)
  return states.filter (·.2 ≠ .done)

/-- `dependency_blocked`, by ticket id. -/
def TicketStore.dependencyEntries (store : TicketStore) :
    Except String (Dict (List (String × TicketState))) := do
  let tested ← store.tickets.mapM fun ticket => do
    return (ticket, ← store.dependencyBlocked ticket)
  (tested.filter (·.2)).mapM fun tested => do
    return (tested.1.id, ← store.unfinished tested.1)

/-- A ticket as the view lists it. -/
def Ticket.entry (ticket : Ticket) : String × String := (ticket.id, ticket.title)

/-- `live_execution_evidence`: the ticket of the execution this service owns and can prove. -/
def StatusService.liveExecutionEvidence (service : StatusService) : Except String (Option String) :=
  let s := service.current
  if s.phase ≠ .agentPending && s.phase ≠ .agentRunning then .ok none
  else
    match s.executionId, s.executionTicketId with
    | some executionId, some ticketId =>
      if s.selectedTicketId ≠ some ticketId || service.ownedExecutionId ≠ some executionId then
        .ok none
      else if s.executionStage ≠ some .workerRunning then .ok (some ticketId)
      else if !service.owns executionId then .ok none
      else do
        match ← workerIdentityFromValue s.workerIdentity s.executionId with
        | none => return none
        | some identity =>
          return if service.observe identity = .matchingLive then some ticketId else none
    | _, _ => .ok none

/-- Why a failed execution cannot be retried now. -/
def nonretryableReason (service : StatusService) (store : TicketStore) (code : GitObservation)
    (control : Option GitObservation) (admissionReason : Option String) (ticketId : String)
    (failure : FailedExecution) : Option String :=
  let report := service.readReport ticketId failure.executionId
  match store.byId ticketId with
  | none => some "ticket is no longer present"
  | some ticket =>
    if ticket.state ≠ .todo then some ("ticket is no longer todo (" ++ ticket.state.word ++ ")")
    else if !store.runnable.contains ticket then some "ticket is no longer runnable"
    else
      match control with
      | none => some "control worktree is unavailable"
      | some control =>
        if failure.productHead ≠ code.localHead then some "product HEAD changed since the failure"
        else if failure.controlHead ≠ control.localHead then
          some "control generation changed since the failure"
        else if some failure.remoteHead ≠ code.remoteHead then
          some "product generation changed since the failure"
        else if failure.todoFingerprint ≠ service.todoFingerprint then
          some "todo workflow changed since the failure"
        else if report.isNone && !failure.interrupted && !failure.reportUnavailable then
          some "failed execution report is unavailable"
        else if report.any (·.result.conclusion ≠ .failed) then
          some "stored execution report is not failed"
        else admissionReason

/-- `_evaluate_failed_executions`. -/
def evaluateFailedExecutions (service : StatusService) (failures : Dict FailedExecution)
    (store : TicketStore) (code : GitObservation) (control : Option GitObservation)
    (admissionReason : Option String) : List FailedExecutionStatus :=
  (failures.insertionSort (fun a b => a.1 ≤ b.1)).map fun entry =>
    let reason := nonretryableReason service store code control admissionReason entry.1 entry.2
    { ticketId := entry.1
      title := ((store.byId entry.1).map (·.title)).getD entry.1
      reason := entry.2.reason
      retryable := reason.isNone
      nonretryableReason := reason
      interruptionKind := match entry.2.interruptionKind with
        | some (.worker kind) => some kind
        | _ => none }

/-- The reason of a ticket with unfinished dependencies.  A dependency that is being integrated is
    shown as such, and on its own it is the whole reason. -/
def dependencyReason (integrationTicketId : Option String)
    (blockers : List (String × TicketState)) : BlockedReason :=
  if integrationTicketId.isSome && blockers.map (·.1) = integrationTicketId.toList then
    { kind := .integrationInProgress, ticketId := integrationTicketId }
  else {
    kind := .dependencies
    tickets := blockers.map fun blocker =>
      (blocker.1, if some blocker.1 = integrationTicketId then "integration-in-progress"
        else blocker.2.word) }

/-- One turn of the loop that fills `blocked`: the entry a ticket adds, if it adds one. -/
def blockedEntry (boundTicketId integrationTicketId : Option String)
    (dependencyEntries : Dict (List (String × TicketState))) (eligibleIds : List String)
    (globalBlockReason : Option BlockedReason) (ticket : Ticket) :
    Except String (Option (String × String × BlockedReason)) :=
  if ticket.state ≠ .todo || some ticket.id = boundTicketId then .ok none
  else
    match dependencyEntries.get ticket.id with
    | some blockers =>
      .ok (some (ticket.id, ticket.title, dependencyReason integrationTicketId blockers))
    | none =>
      if eligibleIds.contains ticket.id then .ok none
      else
        match globalBlockReason with
        | none => .error "AssertionError"
        | some reason => .ok (some (ticket.id, ticket.title, reason))

/-- The barrier that keeps every ticket from being admitted. -/
def globalBarrier (s : RuntimeState) (store : TicketStore) (dirty branchOk : Bool)
    (code : GitObservation) : Option AdmissionBarrier :=
  match Observed.admissionBarrier s store dirty branchOk code with
  | some barrier => some barrier
  | none =>
    if s.boundPhase then
      match s.selectedTicketId with
      | some id => some {
          action := .blocked
          kind := .activeExecution
          reason := "active execution is in progress"
          ticketId := some id }
      | none => some {
          action := .blocked
          kind := .schedulerBarrier
          reason := "persisted bound execution is not observable" }
    else Observed.serialAdmissionBarrier store

/-- The view of a workflow that could not be read. -/
def blockedSnapshot (s : RuntimeState) (code : GitObservation) (control : Option GitObservation)
    (workflowError : Option String) : StatusSnapshot :=
  { phase := s.phase
    boundTicketId := none
    persistedBodyPresent := false
    code := code
    control := control
    counts := workflowStates.map fun state => (state, 0)
    runnable := []
    blocked := []
    review := []
    accepted := []
    nextTicket := none
    plan := {
      action := .blocked
      reason := workflowError.getD "workflow is invalid"
      code := code
      control := control }
    lifecycleIntegration := s.acceptedIntegration.map fun a => (a.ticketId, "in-progress") }

/-- `_make_status_snapshot`. -/
def makeStatusSnapshot (service : StatusService) (s : RuntimeState) (code : GitObservation)
    (control : Option GitObservation) (ticketStore : Option TicketStore)
    (workflowError : Option String) : Except String StatusSnapshot :=
  match ticketStore with
  | none => .ok (blockedSnapshot s code control workflowError)
  | some store => do
    let dependencyEntries ← store.dependencyEntries
    let integrationTicketId := s.acceptedIntegration.map (·.ticketId)
    let dirty := observedDirty code control
    let branchOk := service.branchOk code control
    let plan ← Observed.makeExecutionPlan service s store dirty branchOk code control
    let failed := evaluateFailedExecutions service s.failedExecutions store code control
      (if plan.admits then none else some plan.reason)
    let live ← service.liveExecutionEvidence
    let boundTicketId := if s.boundPhase then s.selectedTicketId else none
    let eligible := if plan.admits then store.runnable.map Ticket.entry else []
    let barrier := globalBarrier s store dirty branchOk code
    let blocked ← store.tickets.mapM (blockedEntry boundTicketId integrationTicketId
      dependencyEntries (eligible.map (·.1))
      (barrier.map fun barrier => { kind := barrier.kind, ticketId := barrier.ticketId }))
    return {
      phase := s.phase
      boundTicketId := boundTicketId
      persistedBodyPresent := s.boundPhase && s.selectedTicketBody.isSome
      code := code
      control := control
      counts := workflowStates.map fun state => (state, store.tickets.countP (·.state = state))
      runnable := store.runnable.map Ticket.entry
      blocked := blocked.filterMap id
      review := (store.tickets.filter (·.state = .review)).map Ticket.entry
      accepted := (store.tickets.filter (·.state = .accepted)).map Ticket.entry
      nextTicket := (plan.ticketId.bind store.byId).map Ticket.entry
      plan := plan
      failedExecutions := failed.filter fun failure => live.isNone || some failure.ticketId ≠ live
      reconciliation := s.reconciliation
      executionStage := if boundTicketId.isSome then s.executionStage else none
      executionId := if boundTicketId.isSome then s.executionId else none
      boundTicketTitle := (boundTicketId.bind store.byId).map (·.title)
      lifecycleIntegration := s.acceptedIntegration.map fun a => (a.ticketId, "in-progress")
      eligible := eligible }

end Snapshot

/-! ### The placement of a ticket -/

/-- Where the view places a ticket. -/
inductive Placement where
  | current
  | eligible
  | blocked (reason : BlockedReason)
  deriving DecidableEq, Repr

/-- Every place the view has for a ticket. -/
def StatusSnapshot.placements (snapshot : StatusSnapshot) (id : String) : List Placement :=
  (snapshot.boundTicketId.toList.filter (· = id)).map (fun _ => .current)
    ++ (snapshot.eligible.filter (·.1 = id)).map (fun _ => .eligible)
    ++ (snapshot.blocked.filter (·.1 = id)).map (fun entry => .blocked entry.2.2)

end Devlegate
