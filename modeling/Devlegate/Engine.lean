import Devlegate.Tickets
import Devlegate.SaveRace

namespace Devlegate

/-!
# One iteration of the engine

`run_iteration` reads the world, changes it through Git and the worker, and records its progress
with `_save_state`.  Between two saves nothing durable happens, so an iteration is cut at its saves:
`Pc` names the points right after a save, with the local variables that are still read there, and
`advance` is the code from such a point to the next save, a return or an exception.

* `Observation`: what Git, the tickets, the worker and the stop flags answer in one iteration.
* `Call`: the `_save_state` calls of the engine.
* `enter` / `advance`: the code from the start of an iteration, and from a point, to the next save.
-/

/-! ### Authorizations -/

inductive AuthorizationKind where
  | automaticResume
  | explicitRetry
  | zeroDeltaProductDrift
  | forcedRetry
  deriving DecidableEq, Repr

/-- `ExecutionAuthorization`. -/
structure ExecutionAuthorization where
  ticketId : String
  kind : AuthorizationKind
  deriving DecidableEq, Repr

/-- `IterationIntent`. -/
structure IterationIntent where
  retryTicketId : Option String := none
  forceRetry : Bool := false
  deriving DecidableEq, Repr

/-- The authorization an intent brings. -/
def IterationIntent.authorization (intent : IterationIntent) : Option ExecutionAuthorization :=
  intent.retryTicketId.map fun ticketId =>
    ⟨ticketId, if intent.forceRetry then .forcedRetry else .explicitRetry⟩

/-! ### Observations -/

/-- The places where an iteration asks whether it has to stop. -/
inductive Gate where
  | start
  | running
  | stranded
  | beforeControl
  | afterControl
  | beforeMerge
  | beforeTickets
  | beforeAuthorization
  | afterAdmission
  | beforeLaunch
  | drain
  deriving DecidableEq, Repr

/-- The gates that ask for an accepted lifecycle intent, not only for the stop event. -/
def Gate.drains : Gate → Bool
  | .start | .running | .stranded => false
  | _ => true

/-- The product checkout and its remote; an empty head could not be observed.  `executionRemote` is
    the execution branch on the remote at that time. -/
structure ProductCheckout where
  branchOk : Bool
  localHead : String
  dirty : Bool
  remoteHead : String
  executionRemote : Option (Option String)
  deriving DecidableEq, Repr

inductive ProductClass where
  | unsafeLocal
  | unobservable
  | stable
  | changed
  deriving DecidableEq, Repr

namespace ProductCheckout

def targetEligible (p : ProductCheckout) : Bool :=
  p.branchOk && !p.dirty && p.localHead != "" && p.remoteHead != ""

def isStable (p : ProductCheckout) (admitted : String) : Bool :=
  p.targetEligible && p.localHead == admitted && p.remoteHead == admitted

/-- The classification of `_observe_product_generation`. -/
def classification (p : ProductCheckout) (admitted : String) : ProductClass :=
  if !p.branchOk || p.dirty || (p.localHead != "" && p.localHead != admitted) then .unsafeLocal
  else if p.localHead == "" || p.remoteHead == "" then .unobservable
  else if p.isStable admitted then .stable
  else .changed

/-- The reason of `_observe_product_generation`. -/
def reason (p : ProductCheckout) (admitted : String) : String :=
  let observation :=
    (if p.branchOk then [] else ["wrong product branch or detached checkout"])
      ++ (if p.dirty then ["product checkout is dirty"] else [])
      ++ (if p.remoteHead == "" then ["product remote could not be observed"] else [])
      ++ (if p.localHead != "" && p.localHead != admitted then ["local product HEAD advanced"]
        else [])
      ++ (if p.remoteHead != "" && p.remoteHead != admitted then ["remote product HEAD advanced"]
        else [])
  if observation.isEmpty then "stable" else "; ".intercalate observation

end ProductCheckout

/-- The observed ownership of a recorded worker. -/
inductive WorkerObservation where
  | matchingLive
  | indeterminate
  | absent
  deriving DecidableEq, Repr

/-- What `WorkerSupervisor.run` does: it finds its admission closed, it raises, or it runs a worker
    whose identity it may have reported. -/
inductive WorkerOutcome where
  | admissionClosed
  | raises
  | ran (identity : Option WorkerProcessIdentity) (result : WorkerRunResult)
  deriving DecidableEq, Repr

/-- An execution workspace: its HEAD and whether it is dirty. -/
structure WorkspaceView where
  head : String
  dirty : Bool
  deriving DecidableEq, Repr

/-- The answers one iteration gets.  An optional answer is `none` where the code raises instead; what
    is observed more than once is numbered in the order of the code. -/
structure Observation where
  stop : Gate → Bool
  branchOk : Bool
  dirty : Bool
  controlHead : Option String
  localHead : String
  remoteHead : Option String
  isAncestor : String → String → Bool
  changedPaths : String → String → String
  mergedHead : Option String
  projectOk : Bool
  inspection : WorkspaceInspection
  repaired : Option WorkspaceInspection
  newExecutionId : Nat → String
  executionRemote : Nat → Option (Option String)
  workspace : Option String
  worker : WorkerOutcome
  submodules : Except String Unit
  checkpoint : Option String
  product : Nat → ProductCheckout
  evidenceOk : Bool
  published : Bool
  lifecycle : Option String
  -- recovery
  recovered : Option (Option String)
  workerObservation : WorkerObservation
  normalised : Option String
  dropped : Option Bool
  recoveryWorkspace : Nat → Option WorkspaceView
  checkpointExact : Bool
  productProven : Bool
  storedReport : Option ExecutionReport
  historical : Option String
  retired : Bool
  -- integration and reconciliation
  acceptedCheckpoint : Option String
  integrated : Option String
  resumable : Bool

/-- From now on a lifecycle intent is accepted. -/
def Observation.draining (o : Observation) : Observation :=
  { o with stop := fun gate => o.stop gate || gate.drains }

/-- `_is_zero_delta_stale_product_drift`. -/
def isZeroDeltaStaleProductDrift (o : Observation) (s : RuntimeState) (admittedBase : String)
    (checkpoint : Option String) (product : ProductCheckout) : Bool :=
  checkpoint == some admittedBase && product.targetEligible
    && product.remoteHead != admittedBase
    && (product.localHead == admittedBase || product.localHead == product.remoteHead)
    && s.executionRemoteHead.join.isNone && nonEmpty s.executionBranch
    && product.executionRemote == some none
    && o.isAncestor admittedBase product.remoteHead

/-! ### The locals of an iteration -/

/-- After the synchronisation: what `_run_iteration_body` knows when it starts to schedule. -/
structure Synced where
  authorization : Option ExecutionAuthorization
  pendingAgentExecution : Bool
  localHead : String
  remoteHead : String
  controlHead : String
  changedPaths : String
  deriving DecidableEq, Repr

/-- An admitted execution. -/
structure Execution where
  synced : Synced
  authorization : Option ExecutionAuthorization
  ticket : Ticket
  executionId : String
  deriving DecidableEq, Repr

/-- Whom the recovery of a checkpoint reports to: an iteration, or the resumption of a
    reconciliation. -/
inductive RecoveryCaller where
  | iteration
  | reconciliation (r : Reconciliation)
  deriving DecidableEq, Repr

/-- The points of the engine right after a save.  `ready` is between two iterations. -/
inductive Pc where
  | ready
  | strandedNoted (o : Observation) (authorization : Option ExecutionAuthorization)
      (kind : InterruptionKind)
  | strandedNormalised (o : Observation) (authorization : Option ExecutionAuthorization)
      (ticketId : String)
  | merging (o : Observation) (synced : Synced) (resumed : Bool)
  | synchronized (o : Observation) (synced : Synced)
  | discarded (o : Observation) (synced : Synced)
  | retrySkipped (o : Observation) (synced : Synced) (plan : ExecutionPlan)
  | retryMoved (o : Observation) (synced : Synced) (plan : ExecutionPlan) (ticketId : String)
  | integrating (o : Observation) (remoteHead : String)
  | unmarked (o : Observation) (synced : Synced) (plan : ExecutionPlan)
      (authorization : Option ExecutionAuthorization) (ticket : Ticket)
  | admitted (o : Observation) (x : Execution)
  | launched (o : Observation) (x : Execution)
  | running (o : Observation) (x : Execution) (result : WorkerRunResult) (noted : Bool)
  | postWorker (o : Observation) (x : Execution) (result : WorkerRunResult)
  | checkpointing (o : Observation) (x : Execution) (result : WorkerRunResult)
      (report : ExecutionReport)
  | postCheckpoint (o : Observation) (x : Execution) (result : WorkerRunResult)
      (report : ExecutionReport)
  | publishing (o : Observation) (x : Execution) (result : WorkerRunResult)
      (report : ExecutionReport)
  | postPublication (o : Observation) (x : Execution) (result : WorkerRunResult)
      (report : ExecutionReport)
  | applying (o : Observation) (x : Execution) (report : ExecutionReport)
  | zeroDelta (o : Observation) (report : ExecutionReport)
  | recoveredCheckpoint (o : Observation) (caller : RecoveryCaller) (report : ExecutionReport)
      (workspace : WorkspaceView)
  | recoveredPublication (o : Observation) (caller : RecoveryCaller) (report : ExecutionReport)
      (workspace : WorkspaceView)
  | recoveredLifecycle (o : Observation) (caller : RecoveryCaller)
  | resolving (o : Observation) (r : Reconciliation) (ticket : Ticket)
  | resumed (o : Observation) (r : Reconciliation)
  | resumeFinalized (o : Observation) (r : Reconciliation)

/-- The same point with a lifecycle intent accepted. -/
def Pc.draining : Pc → Pc
  | .ready => .ready
  | .strandedNoted o a kind => .strandedNoted o.draining a kind
  | .strandedNormalised o a ticketId => .strandedNormalised o.draining a ticketId
  | .merging o y again => .merging o.draining y again
  | .synchronized o y => .synchronized o.draining y
  | .discarded o y => .discarded o.draining y
  | .retrySkipped o y plan => .retrySkipped o.draining y plan
  | .retryMoved o y plan ticketId => .retryMoved o.draining y plan ticketId
  | .integrating o remoteHead => .integrating o.draining remoteHead
  | .unmarked o y plan a ticket => .unmarked o.draining y plan a ticket
  | .admitted o x => .admitted o.draining x
  | .launched o x => .launched o.draining x
  | .running o x result noted => .running o.draining x result noted
  | .postWorker o x result => .postWorker o.draining x result
  | .checkpointing o x result report => .checkpointing o.draining x result report
  | .postCheckpoint o x result report => .postCheckpoint o.draining x result report
  | .publishing o x result report => .publishing o.draining x result report
  | .postPublication o x result report => .postPublication o.draining x result report
  | .applying o x report => .applying o.draining x report
  | .zeroDelta o report => .zeroDelta o.draining report
  | .recoveredCheckpoint o caller report w => .recoveredCheckpoint o.draining caller report w
  | .recoveredPublication o caller report w => .recoveredPublication o.draining caller report w
  | .recoveredLifecycle o caller => .recoveredLifecycle o.draining caller
  | .resolving o r ticket => .resolving o.draining r ticket
  | .resumed o r => .resumed o.draining r
  | .resumeFinalized o r => .resumeFinalized o.draining r

/-- How a stretch of code between two saves ends. -/
inductive Stretch where
  | returned
  | raised (message : String)
  | save (call : SaveCall) (next : Pc)

/-! ### The saves -/

namespace Call

variable [Project]

/-- A synchronisation record: `merge_pending` before the merge, the phase to go on with after it. -/
def sync (phase : Phase) (y : Synced) : SaveCall where
  phase := phase
  fields s := { s with
    localHead := some y.localHead, remoteHead := some y.remoteHead
    changedPaths := some y.changedPaths, controlHead := some y.controlHead }

/-- After the merge of an iteration that was idle: the control head was recorded before. -/
def merged (y : Synced) : SaveCall where
  phase := .idle
  fields s := { s with
    localHead := some y.localHead, remoteHead := some y.remoteHead
    changedPaths := some y.changedPaths }

/-- The automatic retry is given up. -/
def retryNotAdmitted (r : AutomaticRetry) : SaveCall where
  phase := .idle
  fields s := { s with
    automaticRetry := none, lastAutomaticRetry := some { r with status := .notAdmitted } }

/-- The automatic retry moves to the current product head. -/
def retryMoved (r : AutomaticRetry) (productHead : String) : SaveCall where
  phase := .idle
  fields s := { s with automaticRetry := some { r with productHead } }

/-- The current generation is handled. -/
def handled (remoteHead controlHead : String) : SaveCall where
  phase := .idle
  fields s := { s with
    handledRemoteHead := some remoteHead, handledControlHead := some controlHead
    handledTodoFingerprint := some (Project.todoFingerprint controlHead) }

/-- The intent to integrate an accepted ticket. -/
def integrate (a : AcceptedIntegration) : SaveCall where
  phase := .idle
  fields s := { s with acceptedIntegration := some a }

/-- The accepted ticket is integrated; the fingerprint is taken from the control worktree. -/
def integrated (remoteHead controlHead worktreeHead : String) : SaveCall where
  phase := .idle
  fields s := { s with
    handledRemoteHead := some remoteHead, handledControlHead := some controlHead
    handledTodoFingerprint := some (Project.todoFingerprint worktreeHead)
    acceptedIntegration := none }

/-- The manual-retry marker does not fit the selected ticket. -/
def unmark : SaveCall where
  phase := .idle
  fields s := { s with manualRetryRequired := none }

/-- The admission of an execution. -/
def admission (x : Execution) (baseHead controlHead : Option String)
    (remoteHead : Option String) (retry : Option AutomaticRetry) : SaveCall where
  phase := .agentPending
  fields s := { s with
    localHead := some x.synced.localHead, remoteHead := some x.synced.remoteHead
    changedPaths := some x.synced.changedPaths
    handledRemoteHead := some x.synced.remoteHead
    handledControlHead := some x.synced.controlHead, controlHead := some x.synced.controlHead
    handledTodoFingerprint := some (Project.todoFingerprint x.synced.controlHead)
    selectedTicketId := some x.ticket.id, selectedTicketBody := some x.ticket.body
    selectedTicketTitle := some x.ticket.title, executionTicketId := some x.ticket.id
    executionBaseHead := baseHead, executionControlHead := controlHead
    executionBranch := some (executionBranchOf x.ticket.id)
    executionPath := some (executionPathOf x.ticket.id)
    executionId := some x.executionId, executionRemoteHead := some remoteHead
    workerIdentity := none, resumeRequired := none, forceRetryAuthorization := none
    automaticRetry := retry }

/-- The launch of the worker. -/
def launch (x : Execution) (startHead baseHead : String) (controlHead : Option String)
    (remoteHead : Option (Option String)) : SaveCall where
  phase := .agentRunning
  fields s := { s with
    executionStage := some .workerLaunch, executionStartHead := some startHead
    executionTicketId := some x.ticket.id, executionBaseHead := some baseHead
    executionControlHead := controlHead
    executionBranch := some (executionBranchOf x.ticket.id)
    executionPath := some (executionPathOf x.ticket.id)
    executionId := some x.executionId, executionRemoteHead := remoteHead
    workerIdentity := none }

/-- The worker was not admitted. -/
def admissionClosed : SaveCall where
  phase := .idle
  fields s := { s with
    executionStage := none, pendingExecutionReport := none, workerIdentity := none }

/-- `_record_worker_identity`. -/
def workerRunning (identity : WorkerProcessIdentity) : SaveCall where
  phase := .agentRunning
  fields s := { s with
    executionStage := some .workerRunning, workerIdentity := some identity }

/-- An interruption of the running execution. -/
def interruption (kind : InterruptionKind) : SaveCall where
  phase := .agentRunning
  fields s := { s with executionInterruptionKind := some kind }

/-- The worker is gone. -/
def postWorker : SaveCall where
  phase := .agentRunning
  fields s := { s with executionStage := some .postWorker, workerIdentity := none }

/-- A stage of the running execution, with its report. -/
def stage (stage : Stage) (report : ExecutionReport) : SaveCall where
  phase := .agentRunning
  fields s := { s with executionStage := some stage, pendingExecutionReport := some report }

/-- A stage of the running execution that leaves its report alone. -/
def bareStage (stage : Stage) : SaveCall where
  phase := .agentRunning
  fields s := { s with executionStage := some stage }

/-- The lifecycle stage of a worker that returned. -/
def lifecycle (report : ExecutionReport) (kind : Option InterruptionKind) : SaveCall where
  phase := .agentRunning
  fields s := { s with
    executionStage := some .lifecycle, pendingExecutionReport := some report
    executionInterruptionKind := kind }

/-- The lifecycle stage of an execution that a zero-delta retry replaces. -/
def zeroDelta (report : ExecutionReport) (retry : AutomaticRetry) : SaveCall where
  phase := .agentRunning
  fields s := { s with
    executionStage := some .lifecycle, pendingExecutionReport := some report
    automaticRetry := some retry }

/-- The product moved under the execution: it waits for a reconciliation. -/
def reconcile (remoteHead : String) (controlHead : Option String) (r : Reconciliation) :
    SaveCall where
  phase := .idle
  fields s := { s with
    handledRemoteHead := some remoteHead, handledControlHead := controlHead
    reconciliation := some r }

/-- The end of an execution that leaves a failure behind, or not. -/
def failure (remoteHead controlHead fingerprint : String) (executionControlHead : Option String)
    (failed : Dict FailedExecution) : SaveCall where
  phase := .idle
  fields s := { s with
    handledRemoteHead := some remoteHead, handledControlHead := some controlHead
    handledTodoFingerprint := some fingerprint
    executionControlHead := executionControlHead, failedExecutions := failed }

/-- The end of an interrupted execution. -/
def interrupted (remoteHead controlHead fingerprint : String)
    (executionControlHead interruptedExecutionId : Option String)
    (failed : Dict FailedExecution) : SaveCall where
  phase := .idle
  fields s := { s with
    handledRemoteHead := some remoteHead, handledControlHead := some controlHead
    handledTodoFingerprint := some fingerprint
    executionControlHead := executionControlHead, interruptedExecutionId := interruptedExecutionId
    failedExecutions := failed }

/-- An explicitly recovered pending execution. -/
def recovered (remoteHead : Option String) : SaveCall where
  phase := .agentPending
  fields s := { s with executionRemoteHead := some remoteHead, workerIdentity := none }
  clearPreWorkerGeneration := true
  clearOperatorRecovery := true

/-- A dropped execution. -/
def drop : SaveCall where
  phase := .idle
  clearExecution := true

/-- A reconciliation moves on. -/
def reconciliation (r : Reconciliation) : SaveCall where
  phase := .idle
  fields s := { s with reconciliation := some r }

/-- A reconciliation resumes the execution whose report it holds. -/
def resume (r : Reconciliation) (ticket : Ticket) (report : ExecutionReport) : SaveCall where
  phase := .agentRunning
  fields s := { s with
    localHead := some r.originalBase, remoteHead := some r.originalBase, changedPaths := some ""
    controlHead := some r.controlHead, selectedTicketId := some ticket.id
    selectedTicketBody := some ticket.body, executionTicketId := some ticket.id
    executionBaseHead := some r.originalBase, executionControlHead := some r.controlHead
    executionBranch := some (executionBranchOf ticket.id)
    executionPath := some (executionPathOf ticket.id), executionId := some report.executionId
    executionRemoteHead := some r.executionRemoteHead, executionStartHead := some r.originalBase
    executionStage := some .postCheckpoint, pendingExecutionReport := some report
    workerIdentity := none }

/-- A reconciliation that resumed its execution is resolved. -/
def resumeResolved (r : Reconciliation) : SaveCall where
  phase := .idle
  fields s := { s with
    reconciliation := some { r with status := .resolved }
    executionRemoteHead := some (some r.workerCheckpoint) }

/-- A reconciliation is resolved; the ticket has to be resumed. -/
def resumeRequired (r : Reconciliation) (ticketId : String) : SaveCall where
  phase := .idle
  fields s := { s with
    executionBaseHead := some r.originalBase
    executionRemoteHead := some (some r.workerCheckpoint)
    reconciliation := some { r with status := .resolved }
    resumeRequired := some { ticketId } }

end Call

/-! ### The end of an execution -/

/-- The interruption in words. -/
def InterruptionKind.words : InterruptionKind → String
  | .operatorAbort => "operator abort"
  | .serviceShutdown => "service shutdown"
  | .processLoss => "process loss"

section Iteration

variable [Project] [Sha256]

/-- `{ticket_id: metadata ... if ticket_id != report.ticket_id}` or the new failure. -/
def failedAfter (report : ExecutionReport) (controlHead productHead remoteHead : String)
    (applyConclusion : Bool) (s : RuntimeState) : Dict FailedExecution :=
  if applyConclusion && report.result.conclusion = .failed then
    let kind := s.executionInterruptionKind.filter fun kind =>
      kind = .operatorAbort || kind = .serviceShutdown
    let prior := (s.failedExecutions.get report.ticketId).filter (·.interrupted)
    s.failedExecutions.set report.ticketId {
      executionId := report.executionId
      generation := s.executionBaseHead
      productHead := productHead
      remoteHead := remoteHead
      controlHead := controlHead
      todoFingerprint := Project.todoFingerprint controlHead
      reason := match kind with
        | some kind => "interrupted: " ++ kind.words
        | none => report.result.reason
      interrupted := kind.isSome
      interruptionKind := kind.map .worker
      manualRetryRequired := s.manualRetryRequired.any (·.executionId = report.executionId)
      interruptedExecutionId := prior.map (·.executionId) }
  else if applyConclusion then s.failedExecutions.erase report.ticketId
  else s.failedExecutions

/-- How the end of an execution treats the automatic retry. -/
inductive RetryUpdate where
  | keep
  | next (retry : AutomaticRetry)
  | giveUp (retry : AutomaticRetry)
  deriving DecidableEq, Repr

/-- The automatic retry after the end of an execution. -/
def RetryUpdate.current (update : RetryUpdate) (report : ExecutionReport)
    (retry : Option AutomaticRetry) : Option AutomaticRetry :=
  match update with
  | .keep => retry.filter (·.freshExecutionId ≠ some report.executionId)
  | .next retry => some retry
  | .giveUp _ => none

/-- The automatic retry to remember after the end of an execution. -/
def RetryUpdate.last (update : RetryUpdate) (report : ExecutionReport)
    (retry last : Option AutomaticRetry) : Option AutomaticRetry :=
  match update with
  | .keep =>
    match retry.filter (·.freshExecutionId = some report.executionId) with
    | some retry => some { retry with
        status := .completed, completedConclusion := some report.result.conclusion }
    | none => last
  | .next _ => last
  | .giveUp retry => some retry

/-- `_finalize_execution_lifecycle`; a replaced execution (`update` is not `keep`) is cleared and its
    conclusion not applied. -/
def finalizeExecutionLifecycle (report : ExecutionReport) (controlHead : String)
    (productHead productRemoteHead : Option String) (update : RetryUpdate) (s : RuntimeState) :
    SaveCall :=
  let productHead := textOr productHead (s.localHead.getD "")
  let productRemoteHead := textOr productRemoteHead (s.remoteHead.getD "")
  let failed := failedAfter report controlHead productHead productRemoteHead
    (decide (update = .keep)) s
  let barred := s.manualRetryRequired.any (·.executionId = report.executionId)
  { phase := .idle
    clearExecution := decide (update ≠ .keep)
    fields := fun t => { t with
      handledRemoteHead := some productRemoteHead
      handledControlHead := some controlHead
      handledTodoFingerprint := some (Project.todoFingerprint controlHead)
      executionControlHead := some controlHead
      failedExecutions := failed
      manualRetryRequired := if barred then none else t.manualRetryRequired
      automaticRetry := update.current report t.automaticRetry
      lastAutomaticRetry := update.last report t.automaticRetry t.lastAutomaticRetry } }

/-- `_zero_delta_retry_payload`. -/
def zeroDeltaRetryPayload (report : ExecutionReport) (product : ProductCheckout) :
    AutomaticRetry where
  status := .pending
  reason := "automatic retry after zero-delta product drift"
  ticketId := report.ticketId
  staleExecutionId := report.executionId
  originalBase := report.codeBaseHead
  workerCheckpoint := report.workspaceHead
  productHead := product.remoteHead
  controlHead := report.controlHead

/-- `_resolve_zero_delta_retry`. -/
def resolveZeroDeltaRetry (o : Observation) (report : ExecutionReport) (product : ProductCheckout)
    (s : RuntimeState) : Stretch :=
  match s.automaticRetry.filter (·.status = .pending) with
  | none => .raised "zero-delta retry state is missing"
  | some retry =>
    if retry.ticketId ≠ report.ticketId ∨ retry.staleExecutionId ≠ report.executionId
        ∨ retry.originalBase ≠ report.codeBaseHead
        ∨ retry.workerCheckpoint ≠ report.workspaceHead then
      .raised "zero-delta retry identity is inconsistent"
    else if !isZeroDeltaStaleProductDrift o s report.codeBaseHead report.workspaceHead product then
      .raised "zero-delta product drift is no longer safely provable"
    else match o.historical with
      | none => .raised "historical execution report cannot be persisted"
      | some controlHead =>
        if !o.retired then .raised "cannot retire zero-delta execution"
        else
          let productHead := some product.remoteHead
          if ((Project.tickets controlHead).executable report.ticketId).isSome then
            .save (finalizeExecutionLifecycle report controlHead productHead productHead
              (.next { retry with
                status := .pendingAdmission
                freshExecutionId := some (textOr retry.freshExecutionId (o.newExecutionId 1))
                productHead := product.remoteHead }) s) .ready
          else
            .save (finalizeExecutionLifecycle report controlHead productHead productHead
              (.giveUp { retry with
                status := .notAdmitted, productHead := product.remoteHead }) s) .ready

/-- `_complete_execution_lifecycle`. -/
def completeExecutionLifecycle (o : Observation) (report : ExecutionReport) (s : RuntimeState) :
    Stretch :=
  if s.automaticRetry.any (·.status = .pending) then resolveZeroDeltaRetry o report (o.product 3) s
  else if isZeroDeltaStaleProductDrift o s report.codeBaseHead report.workspaceHead
      (o.product 2) then
    .save (Call.zeroDelta report (zeroDeltaRetryPayload report (o.product 2))) (.zeroDelta o report)
  else match o.lifecycle with
    | none => .raised "control-plane lifecycle failed"
    | some controlHead =>
      .save (finalizeExecutionLifecycle report controlHead none none .keep s) .ready

/-! ### Recovery of a running execution -/

/-- `_report_matches_execution_binding`. -/
def reportMatchesExecutionBinding (report : ExecutionReport) (s : RuntimeState) : Bool :=
  [s.executionId, s.executionTicketId, s.executionControlHead, s.executionBranch,
      s.executionPath, s.executionBaseHead].all nonEmpty
    && s.executionId == some report.executionId
    && s.executionTicketId == some report.ticketId
    && s.executionControlHead == some report.controlHead
    && s.executionBranch == some report.executionBranch
    && s.executionPath == some report.executionPath
    && s.executionBaseHead == some report.codeBaseHead

/-- `_recover_lifecycle_report`. -/
def recoverLifecycleReport (o : Observation) (s : RuntimeState) : Option ExecutionReport := do
  guard (s.executionTicketId.isSome && s.executionId.isSome)
  let report ← s.pendingExecutionReport.or o.storedReport
  guard (s.localHead.isSome && s.remoteHead.isSome)
  guard (reportMatchesExecutionBinding report s)
  if s.automaticRetry.any (·.status = .pending)
      && report.workspaceHead == some report.codeBaseHead then
    guard (o.executionRemote 2 == some none)
  else
    guard (o.productProven && nonEmpty report.workspaceHead
      && o.executionRemote 2 == some report.workspaceHead)
  return report

/-- What follows the recovery of a running execution's lifecycle report. -/
def finishRecovery (o : Observation) (caller : RecoveryCaller) (s : RuntimeState) : Stretch :=
  match recoverLifecycleReport o s with
  | none => .raised "lifecycle recovery is ambiguous"
  | some report =>
    match caller with
    | .iteration => completeExecutionLifecycle o report s
    | .reconciliation r =>
      match o.lifecycle with
      | none => .raised "control-plane lifecycle failed"
      | some controlHead =>
        .save (finalizeExecutionLifecycle report controlHead none none .keep s)
          (.resumeFinalized o r)

/-- `_persist_product_reconciliation`, and the same record in `_run_iteration_body`. -/
def productReconciliation (report : ExecutionReport) (product : ProductCheckout)
    (s : RuntimeState) : Reconciliation where
  status := .pending
  reason := product.reason report.codeBaseHead
  resolution := none
  ticketId := report.ticketId
  executionId := report.executionId
  originalBase := report.codeBaseHead
  observedProduct :=
    textOr (some (if product.localHead = report.codeBaseHead then product.remoteHead
      else product.localHead)) report.codeBaseHead
  workerCheckpoint := report.workspaceHead.getD ""
  executionRemoteHead := s.executionRemoteHead.join
  productRemoteHead := product.remoteHead
  controlHead := s.executionControlHead.getD ""
  executionBranch := report.executionBranch
  executionPath := report.executionPath
  evidenceRef := "refs/devlegate/reconciliation/" ++ report.ticketId ++ "/" ++ report.executionId
  executionReport := some report

/-- The last part of `_recover_checkpoint_publication`: the checkpoint is published. -/
def recoverPostPublication (o : Observation) (caller : RecoveryCaller) (report : ExecutionReport)
    (workspace : WorkspaceView) : Stretch :=
  if report.workspaceHead ≠ some workspace.head then
    .raised "execution worktree HEAD changed after publication"
  else if o.executionRemote 1 ≠ some report.workspaceHead then
    .raised "published execution checkpoint is no longer exact"
  else .save (Call.stage .lifecycle report) (.recoveredLifecycle o caller)

/-- `_recover_checkpoint_publication` once the checkpoint exists. -/
def recoverPublication (o : Observation) (caller : RecoveryCaller) (published : Bool)
    (report : ExecutionReport) (workspace : WorkspaceView) (s : RuntimeState) : Stretch :=
  let base := report.codeBaseHead
  let product := o.product 1
  if product.classification base = .unobservable then
    .raised "product remote could not be observed; retrying when connectivity returns"
  else if product.classification base = .unsafeLocal ∧ product.remoteHead = "" then
    .raised ("product generation is unsafe-local; " ++ product.reason base)
  else if isZeroDeltaStaleProductDrift o s base report.workspaceHead product then
    .save (Call.zeroDelta report (zeroDeltaRetryPayload report product))
      (.recoveredLifecycle o caller)
  else if product.classification base ≠ .stable then
    if product.remoteHead = "" ∨ product.localHead = "" ∨ !o.evidenceOk then
      .raised "changed product lacks an observed identity"
    else
      .save (Call.reconcile product.remoteHead s.controlHead
        (productReconciliation report product s)) .ready
  else if published then recoverPostPublication o caller report workspace
  else if report.workspaceHead ≠ some workspace.head then
    .raised "execution worktree HEAD does not match the proven checkpoint"
  else if workspace.dirty then .raised "execution worktree is dirty after the proven checkpoint"
  else if !o.published then .raised "execution remote does not match the proven checkpoint"
  else .save (Call.stage .postPublication report) (.recoveredPublication o caller report workspace)

/-- The recovered checkpoint is recorded if the worktree is clean and at it. -/
def recordCheckpoint (o : Observation) (caller : RecoveryCaller) (report : ExecutionReport)
    (head : String) : Stretch :=
  match o.recoveryWorkspace 1 with
  | none => .raised "cannot validate execution workspace recovery"
  | some workspace =>
    if workspace.head ≠ head ∨ workspace.dirty then
      .raised "execution worktree changed or is dirty after checkpoint"
    else
      .save (Call.stage .postCheckpoint { report with workspaceHead := some head })
        (.recoveredCheckpoint o caller { report with workspaceHead := some head } workspace)

/-- `_recover_checkpoint_publication`. -/
def recoverCheckpointPublication (o : Observation) (caller : RecoveryCaller) (s : RuntimeState) :
    Stretch :=
  match s.pendingExecutionReport, o.recoveryWorkspace 0, s.executionStartHead with
  | some report, some workspace, some startHead =>
    if !reportMatchesExecutionBinding report s || startHead == "" then
      .raised "recovered execution report does not match its durable execution binding"
    else if s.executionStage = some .checkpointing then
      if workspace.head = startHead ∧ !workspace.dirty ∧
          isZeroDeltaStaleProductDrift o s report.codeBaseHead (some startHead) (o.product 0) then
        let report := { report with workspaceHead := some startHead }
        .save (Call.zeroDelta report (zeroDeltaRetryPayload report (o.product 0)))
          (.recoveredLifecycle o caller)
      else if !o.productProven then
        .raised "product checkout or remote changed before execution recovery"
      else if workspace.head = startHead then
        match o.checkpoint with
        | none => .raised "cannot recover execution checkpoint"
        | some head => recordCheckpoint o caller report head
      else if !o.checkpointExact then
        .raised "execution worktree contains ambiguous checkpoint history"
      else recordCheckpoint o caller report workspace.head
    else
      recoverPublication o caller (decide (s.executionStage = some .postPublication)) report
        workspace s
  | _, _, _ => .raised "pending execution report is invalid; recovery is ambiguous"

/-! ### Stranded executions -/

/-- `_normalize_stranded_execution`. -/
def normalizeStrandedExecution (o : Observation) (authorization : Option ExecutionAuthorization)
    (kind : InterruptionKind) (s : RuntimeState) : Stretch :=
  match o.normalised, s.executionTicketId, s.executionId with
  | some controlHead, some ticketId, some executionId =>
    if !([s.localHead, s.remoteHead, s.selectedTicketId, s.selectedTicketBody, s.executionBaseHead,
        s.executionControlHead, s.executionBranch, s.executionPath, s.executionId,
        s.executionStartHead].all nonEmpty) then
      .raised "persisted interrupted execution binding is incomplete"
    else match (Project.tickets controlHead).executable ticketId with
      | none => .raised "persisted execution ticket is not safely recoverable"
      | some ticket =>
        if s.selectedTicketBody ≠ some ticket.body then
          .raised "persisted execution ticket is not safely recoverable"
        else
          let failed := s.failedExecutions.set ticketId {
            executionId := executionId
            generation := s.executionBaseHead
            productHead := s.localHead.getD ""
            remoteHead := s.remoteHead.getD ""
            controlHead := controlHead
            todoFingerprint := Project.todoFingerprint controlHead
            reason := "interrupted: " ++ kind.words
            interrupted := true
            interruptionKind := some (.worker kind)
            manualRetryRequired := s.manualRetryRequired.any (·.executionId = executionId) }
          .save (Call.interrupted (s.remoteHead.getD "") controlHead
            (Project.todoFingerprint controlHead) s.executionControlHead s.executionId failed)
            (.strandedNormalised o authorization ticketId)
  | _, _, _ => .raised "cannot safely normalize interrupted execution"

/-- `_reconcile_stranded_execution`, once the interruption kind is recorded. -/
def reconcileStrandedExecution (o : Observation) (authorization : Option ExecutionAuthorization)
    (kind : InterruptionKind) (s : RuntimeState) : Stretch :=
  match s.executionStage with
  | some .workerRunning =>
    match o.workerObservation with
    | .matchingLive => .raised ("previous Devlegate owner was lost; "
        ++ "execution worker is still alive; automatic reconciliation is blocked")
    | .indeterminate => .raised ("previous Devlegate owner was lost; "
        ++ "worker ownership is indeterminate; reconciliation is blocked")
    | .absent => normalizeStrandedExecution o authorization kind s
  | some .postWorker => normalizeStrandedExecution o authorization kind s
  | _ => .raised "previous Devlegate owner was lost during unsafe execution stage"

/-! ### Scheduling -/

/-- The manual-retry marker does not fit the selected ticket and its failure. -/
def markerMisfits (s : RuntimeState) (ticketId : String) : Bool :=
  match s.manualRetryRequired with
  | none => false
  | some marker =>
    marker.ticketId != ticketId
      || match s.failedExecutions.get ticketId with
        | none => true
        | some failed =>
          failed.executionId != marker.executionId || failed.generation != some marker.generation

/-- The handled markers are those of the current generation. -/
def generationIsSame (s : RuntimeState) (y : Synced) : Bool :=
  s.handledRemoteHead.getD "" == y.remoteHead && s.handledControlHead.getD "" == y.controlHead
    && s.handledTodoFingerprint.getD "" == Project.todoFingerprint y.controlHead

/-- The kinds of interruption that are resumed without being asked. -/
def FailedExecution.isResumable (failed : FailedExecution) : Bool :=
  match failed.interruptionKind with
  | some (.worker _) => true
  | _ => false

/-- The failure was recorded in the current generation. -/
def FailedExecution.isCurrent (failed : FailedExecution) (y : Synced) : Bool :=
  failed.productHead == y.localHead && failed.remoteHead == y.remoteHead
    && failed.controlHead == y.controlHead
    && failed.todoFingerprint == Project.todoFingerprint y.controlHead

/-- The authorization an interrupted failure gives to an iteration without one; `none` when the
    ticket has to be retried explicitly. -/
def interruptionAuthorization (y : Synced) (plan : ExecutionPlan)
    (authorization : Option ExecutionAuthorization) (ticket : Ticket)
    (manualRetry : Option ManualRetry) (s : RuntimeState) :
    Option (Option ExecutionAuthorization) :=
  match authorization, (s.failedExecutions.get ticket.id).filter (·.interrupted) with
  | none, some failed =>
    if plan.action = .runWorker ∧ plan.bound = false then
      if failed.isResumable && generationIsSame s y && manualRetry.isNone then
        some (some ⟨ticket.id, .automaticResume⟩)
      else none
    else some none
  | authorization, _ => some authorization

/-- The checks on an authorization, against the ticket's failure and the selected ticket. -/
def checkAuthorization (y : Synced) (ticket : Ticket) (s : RuntimeState) :
    Option ExecutionAuthorization → Except String Unit
  | none => .ok ()
  | some a => do
    if a.kind = .explicitRetry ∨ a.kind = .automaticResume then
      require ((s.failedExecutions.get ticket.id).any (·.isCurrent y))
        ("ticket " ++ a.ticketId ++ " failed execution is stale; "
          ++ "current project state must be reviewed before retry")
    if a.kind = .automaticResume then
      require ((s.failedExecutions.get ticket.id).any fun failed =>
          failed.interrupted && failed.isResumable)
        "automatic resume requires a safely interrupted execution"
    if a.kind = .explicitRetry then
      require (ticket.id == a.ticketId)
        ("ticket " ++ a.ticketId ++ " is no longer the current runnable ticket")
    if a.kind = .automaticResume then
      require (ticket.id == a.ticketId)
        "automatic resume ticket is no longer the current runnable ticket"

/-- The remote head an execution starts from; `none` when it cannot be observed. -/
def executionRemoteHeadOf (o : Observation) (y : Synced)
    (authorization : Option ExecutionAuthorization) (s : RuntimeState) : Option (Option String) :=
  if y.pendingAgentExecution then some s.executionRemoteHead.join
  else if authorization.any (·.kind = .forcedRetry) then
    some (s.forceRetryAuthorization.bind (·.executionRemoteHead))
  else o.executionRemote 0

/-- The admission of the selected ticket: the last checks and the `agent_pending` save. -/
def decideAdmission (o : Observation) (y : Synced) (plan : ExecutionPlan)
    (authorization : Option ExecutionAuthorization) (ticket : Ticket)
    (manualRetry : Option ManualRetry) (s : RuntimeState) : Stretch :=
  match interruptionAuthorization y plan authorization ticket manualRetry s with
  | none => .returned
  | some authorization =>
    match checkAuthorization y ticket s authorization with
    | .error message => .raised message
    | .ok () =>
      let failed := s.failedExecutions.get ticket.id
      if authorization.isNone && !y.pendingAgentExecution && generationIsSame s y
          && failed.any (·.executionId != "") then .returned
      else if generationIsSame s y && !y.pendingAgentExecution && authorization.isNone
          && !(s.resumeRequired.any (·.ticketId = ticket.id))
          && s.executionTicketId == some ticket.id then .returned
      else
        let existingLineage := s.executionTicketId == some ticket.id
          && s.executionBaseHead.isSome && s.executionControlHead.isSome
        let controlHead := if y.pendingAgentExecution && existingLineage
          then s.executionControlHead else some y.controlHead
        let baseHead := if existingLineage then s.executionBaseHead
          else if authorization.any (·.kind = .forcedRetry) then
            (s.forceRetryAuthorization.bind (·.executionBaseHead)).or (some y.localHead)
          else some y.localHead
        match executionRemoteHeadOf o y authorization s with
        | none => .raised "cannot observe execution branch remote"
        | some remoteHead =>
          let isZeroDelta := authorization.any (·.kind = .zeroDeltaProductDrift)
          let freshId := if isZeroDelta then s.automaticRetry.bind (·.freshExecutionId) else none
          let executionId := if y.pendingAgentExecution then s.executionId
            else some (textOr freshId (o.newExecutionId 0))
          match executionId.filter (· != "") with
          | none => .raised "invalid persisted execution identity"
          | some executionId =>
            let x : Execution := ⟨y, authorization, ticket, executionId⟩
            let retry := if isZeroDelta
              then s.automaticRetry.map fun r =>
                { r with status := .admitted, freshExecutionId := some executionId }
              else s.automaticRetry
            .save (Call.admission x baseHead controlHead remoteHead retry) (.admitted o x)

/-- The selected ticket of a plan, with the persisted body for a bound execution. -/
def selectTicket (y : Synced) (plan : ExecutionPlan) (s : RuntimeState) :
    Except String (Option Ticket) :=
  if plan.action = .none then .ok none
  else match plan.ticketId.bind (Project.tickets y.controlHead).byId with
    | none => .error "no ticket"
    | some ticket =>
      if y.pendingAgentExecution then
        match s.selectedTicketBody with
        | none => .error "invalid execution state: selected ticket binding is incomplete"
        | some body => .ok (some { ticket with body })
      else .ok (some ticket)

/-- From the authorized plan to the next save. -/
def scheduleTicket (o : Observation) (y : Synced) (plan : ExecutionPlan)
    (authorization : Option ExecutionAuthorization) (s : RuntimeState) : Stretch :=
  match selectTicket y plan s with
  | .error message => .raised message
  | .ok none =>
    if y.pendingAgentExecution then .raised "'NoneType' object has no attribute 'id'"
    else .save (Call.handled y.remoteHead y.controlHead) .ready
  | .ok (some ticket) =>
    if markerMisfits s ticket.id then
      .save Call.unmark (.unmarked o y plan authorization ticket)
    else decideAdmission o y plan authorization ticket s.manualRetryRequired s

/-- The plan that an authorization turns the iteration's plan into. -/
def authorizedPlan (y : Synced) (plan : ExecutionPlan) :
    Option ExecutionAuthorization → Except String ExecutionPlan
  | none => .ok plan
  | some a =>
    if plan.action ≠ .runWorker ∨ plan.bound = true then .error plan.reason
    else match (Project.tickets y.controlHead).executable a.ticketId with
      | none => .error ("ticket " ++ a.ticketId ++ " is no longer eligible for retry")
      | some ticket => .ok {
          action := .runWorker
          reason := match a.kind with
            | .automaticResume => "automatic resume of safely interrupted execution"
            | .zeroDeltaProductDrift => "automatic retry after zero-delta product drift"
            | .explicitRetry | .forcedRetry => "explicit retry of current failed execution"
          ticketId := some ticket.id }

/-- From the authorization to the next save. -/
def authorize (o : Observation) (y : Synced) (plan : ExecutionPlan)
    (authorization : Option ExecutionAuthorization) (s : RuntimeState) : Stretch :=
  if o.stop .beforeAuthorization then .returned
  else match authorizedPlan y plan authorization with
    | .error message => .raised message
    | .ok plan =>
      if plan.action = .blocked then .raised plan.reason
      else match s.acceptedIntegration with
        | some accepted =>
          if ((Project.tickets y.controlHead).byId accepted.ticketId).isNone then
            .raised "accepted integration ticket is no longer observable"
          else if o.acceptedCheckpoint ≠ some accepted.checkpoint then
            .raised "accepted integration checkpoint changed during recovery"
          else match o.integrated with
            | none => .raised "accepted integration failed"
            | some controlHead =>
              .save (Call.integrated y.remoteHead controlHead controlHead) .ready
        | none =>
          if plan.action = .integrate then
            match plan.ticketId, o.acceptedCheckpoint with
            | some ticketId, some checkpoint =>
              .save (Call.integrate ⟨ticketId, checkpoint, y.controlHead⟩)
                (.integrating o y.remoteHead)
            | _, _ => .raised "accepted ticket has no durable execution evidence"
          else scheduleTicket o y plan authorization s

/-- The automatic retry waits for its admission, or has been admitted. -/
def AutomaticRetry.isLive (r : AutomaticRetry) : Bool :=
  r.status = .pendingAdmission || r.status = .admitted

/-- `_automatic_zero_delta_authorization`, and on to the next save. -/
def automaticZeroDeltaAuthorization (o : Observation) (y : Synced) (plan : ExecutionPlan)
    (s : RuntimeState) : Stretch :=
  match s.automaticRetry.filter (·.isLive) with
  | none => authorize o y plan y.authorization s
  | some retry =>
    if ((Project.tickets y.controlHead).executable retry.ticketId).isNone then
      .save (Call.retryNotAdmitted retry) (.retrySkipped o y plan)
    else if plan.ticketId ≠ some retry.ticketId then authorize o y plan y.authorization s
    else if plan.action ≠ .runWorker ∨ plan.bound = true then authorize o y plan y.authorization s
    else if y.localHead ≠ y.remoteHead ∨ y.localHead = retry.originalBase then
      .raised "automatic zero-delta retry requires one current product generation"
    else if !o.isAncestor retry.originalBase y.localHead then
      .raised "automatic zero-delta retry product history is not a descendant"
    else if retry.productHead ≠ y.localHead then
      .save (Call.retryMoved retry y.localHead) (.retryMoved o y plan retry.ticketId)
    else authorize o y plan (some ⟨retry.ticketId, .zeroDeltaProductDrift⟩) s

/-- The execution plan, after a repair of the bound workspace where it helps. -/
def planIteration (o : Observation) (y : Synced) (s : RuntimeState) : Option ExecutionPlan :=
  let store := Project.tickets y.controlHead
  let plan := makeExecutionPlan s store o.inspection
  if y.pendingAgentExecution && decide (plan.action = .blocked)
      && plan.reason.startsWith "bound execution workspace is recoverable:" then
    o.repaired.map (makeExecutionPlan s store)
  else some plan

/-- From the plan to the next save. -/
def schedule (o : Observation) (y : Synced) (s : RuntimeState) : Stretch :=
  match planIteration o y s with
  | none => .raised "bound execution workspace cannot be repaired"
  | some plan => automaticZeroDeltaAuthorization o y plan s

/-- From the synchronised checkout to the next save, with `_discard_ineligible_zero_delta_retry`. -/
def afterSynchronization (o : Observation) (y : Synced) (s : RuntimeState) : Stretch :=
  if o.stop .beforeTickets then .returned
  else if !o.projectOk then .raised "project context is invalid"
  else match s.automaticRetry.filter (·.status = .pendingAdmission) with
    | some retry =>
      if ((Project.tickets y.controlHead).executable retry.ticketId).isNone then
        .save (Call.retryNotAdmitted retry) (.discarded o y)
      else schedule o y s
    | none => schedule o y s

/-! ### Synchronisation -/

/-- The target of a pending synchronisation: the persisted head or a descendant of it. -/
def pendingTarget (o : Observation) (remoteHead : String) (s : RuntimeState) :
    Except String String :=
  let persisted := s.remoteHead.getD ""
  let persistedLocal := s.localHead.getD ""
  if s.phase = .mergePending ∧ o.localHead ≠ persistedLocal ∧ o.localHead ≠ persisted then
    .error "persisted merge revision does not match the local HEAD"
  else if s.phase = .agentPending ∧ o.localHead ≠ persistedLocal
      ∧ o.isAncestor o.localHead persistedLocal then
    .error "current local HEAD is behind the persisted execution HEAD; refusing rollback"
  else if s.phase = .agentPending ∧ o.localHead ≠ persistedLocal
      ∧ !o.isAncestor persistedLocal o.localHead then
    .error "current local HEAD diverged from the persisted execution history"
  else if persisted ≠ remoteHead ∧ !o.isAncestor persisted remoteHead then
    .error "new remote revision is not a descendant of the pending revision"
  else .ok (if o.isAncestor persisted remoteHead then remoteHead else persisted)

/-- The synchronisation of a `merge_pending` or `agent_pending` state. -/
def synchronizePending (o : Observation) (authorization : Option ExecutionAuthorization)
    (controlHead remoteHead : String) (s : RuntimeState) : Stretch :=
  match pendingTarget o remoteHead s with
  | .error message => .raised message
  | .ok target =>
    let pending := decide (s.phase = .agentPending)
    let ahead := pending && o.localHead != target
    if ahead && !o.isAncestor o.localHead target && !o.isAncestor target o.localHead then
      .returned
    else if o.localHead ≠ target ∧ !(ahead && o.isAncestor target o.localHead) then
      if o.stop .beforeMerge && s.phase != .mergePending then .returned
      else
        let changed := o.changedPaths o.localHead target
        .save (Call.sync .mergePending ⟨authorization, pending, o.localHead, target, controlHead,
          changed⟩) (.merging o ⟨authorization, pending, target, target, controlHead, changed⟩ true)
    else
      let y : Synced := ⟨authorization, pending, o.localHead, target, controlHead,
        s.changedPaths.getD ""⟩
      .save (Call.sync (if pending then .agentPending else .idle) y) (.synchronized o y)

/-- The synchronisation of an idle state. -/
def synchronizeIdle (o : Observation) (authorization : Option ExecutionAuthorization)
    (controlHead remoteHead : String) (s : RuntimeState) : Stretch :=
  if o.localHead = remoteHead then
    afterSynchronization o ⟨authorization, false, o.localHead, remoteHead, controlHead, ""⟩ s
  else if o.isAncestor o.localHead remoteHead then
    if o.stop .beforeMerge then .returned
    else
      let changed := o.changedPaths o.localHead remoteHead
      .save (Call.sync .mergePending ⟨authorization, false, o.localHead, remoteHead, controlHead,
        changed⟩) (.merging o ⟨authorization, false, remoteHead, remoteHead, controlHead, changed⟩
          false)
  else if o.isAncestor remoteHead o.localHead then
    afterSynchronization o ⟨authorization, false, o.localHead, remoteHead, controlHead,
      o.changedPaths remoteHead o.localHead⟩ s
  else .returned

/-- From the recovered state to the next save: clean checkout, control and product. -/
def synchronize (o : Observation) (authorization : Option ExecutionAuthorization)
    (s : RuntimeState) : Stretch :=
  if o.dirty then .returned
  else if o.stop .beforeControl && s.phase != .mergePending then .returned
  else match o.controlHead with
    | none => .raised "control branch cannot be synchronised"
    | some controlHead =>
      if o.stop .afterControl && s.phase != .mergePending then .returned
      else match o.remoteHead with
        | none => .returned
        | some remoteHead =>
          if s.phase = .agentPending ∨ s.phase = .mergePending then
            synchronizePending o authorization controlHead remoteHead s
          else synchronizeIdle o authorization controlHead remoteHead s

/-! ### The start of an iteration -/

/-- `_recover_accepted_integration`. -/
def recoverAcceptedIntegration (o : Observation) (a : AcceptedIntegration) : Stretch :=
  if a.ticketId = "" then .raised "invalid accepted integration ticket identity"
  else match o.controlHead, o.remoteHead, o.integrated with
    | some controlHead, some remoteHead, some worktreeHead =>
      .save (Call.integrated remoteHead controlHead worktreeHead) .ready
    | _, _, _ => .raised "cannot freshly observe product remote for accepted integration"

/-- `_reconcile_resume_owned` up to its write-ahead record. -/
def reconcileResume (o : Observation) (r : Reconciliation) : Stretch :=
  if r.status = .resolved ∨ !o.resumable then .raised "ticket has no resumable reconciliation"
  else match (Project.tickets r.controlHead).byId r.ticketId with
    | none => .raised "reconciliation ticket is no longer compatible"
    | some ticket =>
      if ticket.state ≠ .todo ∧ ticket.state ≠ .review then
        .raised "reconciliation ticket is no longer compatible"
      else
        .save (Call.reconciliation { r with status := .resolving, resolution := some .resume })
          (.resolving o { r with status := .resolving, resolution := some .resume } ticket)

/-- `_reconcile_resume_owned` after its write-ahead record. -/
def resumeReconciliation (o : Observation) (r : Reconciliation) (ticket : Ticket) : Stretch :=
  if !(o.product 0).isStable r.originalBase then
    .raised "product generation changed before publication"
  else match r.executionReport with
    | some report => .save (Call.resume r ticket report) (.resumed o r)
    | none =>
      if !o.published then .raised "execution checkpoint publication could not be proven"
      else .save (Call.resumeRequired r ticket.id) .ready

/-- The stages whose progress is recovered from the checkpoint. -/
def Stage.isCheckpointed : Stage → Bool
  | .checkpointing | .postCheckpoint | .publishing | .postPublication => true
  | _ => false

/-- The recovery of a running execution. -/
def recoverRunning (o : Observation) (authorization : Option ExecutionAuthorization)
    (s : RuntimeState) : Stretch :=
  if o.stop .running then .returned
  else if s.executionStage.any (·.isCheckpointed) then recoverCheckpointPublication o .iteration s
  else if s.executionStage = some .lifecycle ∧ s.workerIdentity.isNone then
    if s.executionTicketId.isSome && s.executionId.isSome && o.dropped.isSome then
      if o.dropped = some true then .save Call.drop .ready
      else .raised "drop evidence cannot be proven"
    else finishRecovery o .iteration s
  else match s.executionInterruptionKind with
    | none => .save (Call.interruption .processLoss) (.strandedNoted o authorization .processLoss)
    | some kind => reconcileStrandedExecution o authorization kind s

/-- The authorization of an iteration: the intent's, or that of a persisted forced retry. -/
def initialAuthorization (intent : IterationIntent) (s : RuntimeState) :
    Option ExecutionAuthorization :=
  intent.authorization.or (s.forceRetryAuthorization.map fun f => ⟨f.ticketId, .forcedRetry⟩)

/-- `_run_iteration_body` from its start to the first save. -/
def enter (o : Observation) (intent : IterationIntent) (s : RuntimeState) : Stretch :=
  let authorization := initialAuthorization intent s
  if o.stop .start && s.phase != .mergePending then .returned
  else match s.phase with
    | .agentPending =>
      match s.operatorRecovery with
      | some recovery =>
        if recovery.ticketId = "" ∨ !nonEmpty recovery.executionId
            ∨ !nonEmpty recovery.observedHead then
          .raised "persisted operator recovery identity is incomplete"
        else match o.recovered with
          | none => .raised "execution branch changed before explicit recovery"
          | some remoteHead => .save (Call.recovered remoteHead) .ready
      | none =>
        if !o.branchOk then .raised "current checkout does not match the expected branch"
        else synchronize o authorization s
    | .mergePending =>
      if !o.branchOk then .raised "current checkout does not match the expected branch"
      else synchronize o authorization s
    | .idle =>
      if !o.branchOk then .raised "current checkout does not match the expected branch"
      else match s.acceptedIntegration, s.reconciliation.filter (·.status = .resolving) with
        | some a, _ => recoverAcceptedIntegration o a
        | none, some r => reconcileResume o r
        | none, none => synchronize o authorization s
    | .agentRunning =>
      if !o.branchOk then .raised "current checkout does not match the expected branch"
      else recoverRunning o authorization s

/-! ### The worker and its result -/

/-- From the admission to the launch. -/
def launchWorker (o : Observation) (x : Execution) (s : RuntimeState) : Stretch :=
  if o.stop .afterAdmission then .returned
  else if s.executionControlHead ≠ some x.synced.controlHead then
    .raised "control revision changed after execution was planned; refusing stale execution"
  else match o.workspace, s.executionBaseHead with
    | some startHead, some baseHead =>
      if o.stop .beforeLaunch then .returned
      else .save (Call.launch x startHead baseHead s.controlHead s.executionRemoteHead)
        (.launched o x)
    | _, _ => .raised "execution workspace cannot be prepared"

/-- From the end of the worker run to its record. -/
def retireWorker (o : Observation) (x : Execution) (result : WorkerRunResult) : Stretch :=
  if result.workerGroupRetired then .save Call.postWorker (.postWorker o x result)
  else .raised "execution cgroup remains populated; worker retirement is unproven"

/-- `_record_post_worker_failure`. -/
def recordPostWorkerFailure (x : Execution) (reason : String) (s : RuntimeState) : SaveCall :=
  let controlHead := textOr s.executionControlHead (s.controlHead.getD "")
  let fingerprint := Project.todoFingerprint x.synced.controlHead
  Call.failure x.synced.remoteHead controlHead fingerprint (some controlHead)
    (s.failedExecutions.set x.ticket.id {
      executionId := x.executionId
      productHead := x.synced.localHead
      remoteHead := x.synced.remoteHead
      controlHead := controlHead
      todoFingerprint := fingerprint
      reason := "post-worker dependency integrity failure: " ++ reason
      reportUnavailable := true })

/-- From the retired worker to its report. -/
def reportWorker (o : Observation) (x : Execution) (result : WorkerRunResult) (s : RuntimeState) :
    Stretch :=
  match o.submodules with
  | .error reason => .save (recordPostWorkerFailure x reason s) .ready
  | .ok () =>
    match buildExecutionReport {
        executionId := x.executionId
        ticketId := x.ticket.id
        codeBaseHead := s.executionBaseHead.getD ""
        controlHead := s.executionControlHead.getD ""
        executionBranch := executionBranchOf x.ticket.id
        executionPath := executionPathOf x.ticket.id
        workspaceHead := none } result with
    | .error _ => .raised "execution report cannot be built"
    | .ok report => .save (Call.stage .checkpointing report) (.checkpointing o x result report)

/-- From the checkpoint to the publication, a reconciliation or a zero-delta retry. -/
def publishCheckpoint (o : Observation) (x : Execution) (result : WorkerRunResult)
    (report : ExecutionReport) (s : RuntimeState) : Stretch :=
  let base := report.codeBaseHead
  let product := o.product 0
  if o.stop .drain then .returned
  else if product.classification base = .unobservable then .returned
  else if product.classification base = .unsafeLocal ∧ product.remoteHead = "" then .returned
  else if !product.isStable base then
    if isZeroDeltaStaleProductDrift o s base report.workspaceHead product then
      .save (Call.zeroDelta report (zeroDeltaRetryPayload report product)) (.zeroDelta o report)
    else if !o.evidenceOk then .raised "cannot pin reconciliation worker checkpoint evidence"
    else .save (Call.reconcile product.remoteHead s.controlHead
      (productReconciliation report product s)) .ready
  else .save (Call.bareStage .publishing) (.publishing o x result report)

/-- **One stretch of code**: from a point to the next save, a return or an exception. -/
def advance (pc : Pc) (s : RuntimeState) : Stretch :=
  match pc with
  | .ready => .returned
  | .strandedNoted o authorization kind => reconcileStrandedExecution o authorization kind s
  | .strandedNormalised o authorization ticketId =>
    if o.stop .stranded then .returned
    else if authorization.isSome then
      .raised "explicit retry cannot also authorize automatic resume"
    else synchronize o (some ⟨ticketId, .automaticResume⟩) s
  | .merging o y resumed =>
    match o.mergedHead with
    | none => .returned
    | some head =>
      if head ≠ y.remoteHead then
        .raised "fast-forward completed without reaching the target revision"
      else if resumed then
        .save (Call.sync (if y.pendingAgentExecution then .agentPending else .idle) y)
          (.synchronized o y)
      else .save (Call.merged y) (.synchronized o y)
  | .synchronized o y => afterSynchronization o y s
  | .discarded o y => schedule o y s
  | .retrySkipped o y plan => authorize o y plan y.authorization s
  | .retryMoved o y plan ticketId =>
    authorize o y plan (some ⟨ticketId, .zeroDeltaProductDrift⟩) s
  | .integrating o remoteHead =>
    match o.integrated with
    | none => .raised "accepted integration failed"
    | some controlHead => .save (Call.integrated remoteHead controlHead controlHead) .ready
  | .unmarked o y plan authorization ticket =>
    decideAdmission o y plan authorization ticket none s
  | .admitted o x => launchWorker o x s
  | .launched o x =>
    match o.worker with
    | .admissionClosed => .save Call.admissionClosed .ready
    | .raises => .raised "worker supervision failed"
    | .ran (some identity) result => .save (Call.workerRunning identity) (.running o x result false)
    | .ran none result => retireWorker o x result
  | .running o x result noted =>
    match result.interruptionKind, noted with
    | some kind, false => .save (Call.interruption kind) (.running o x result true)
    | _, _ => retireWorker o x result
  | .postWorker o x result => reportWorker o x result s
  | .checkpointing o x result report =>
    match o.checkpoint with
    | none => .raised "execution checkpoint failed"
    | some head =>
      let report := { report with workspaceHead := some head }
      .save (Call.stage .postCheckpoint report) (.postCheckpoint o x result report)
  | .postCheckpoint o x result report => publishCheckpoint o x result report s
  | .publishing o x result report =>
    if !o.published then .raised "execution branch publication failed"
    else .save (Call.bareStage .postPublication) (.postPublication o x result report)
  | .postPublication o x result report =>
    .save (Call.lifecycle report result.interruptionKind) (.applying o x report)
  | .applying o x report =>
    match o.lifecycle with
    | none => .raised "control-plane lifecycle failed"
    | some controlHead =>
      .save (finalizeExecutionLifecycle report controlHead (some x.synced.localHead)
        (some x.synced.remoteHead) .keep s) .ready
  | .zeroDelta o report => resolveZeroDeltaRetry o report (o.product 3) s
  | .recoveredCheckpoint o caller report workspace =>
    recoverPublication o caller false report workspace s
  | .recoveredPublication o caller report workspace =>
    recoverPostPublication o caller report workspace
  | .recoveredLifecycle o caller => finishRecovery o caller s
  | .resolving o r ticket => resumeReconciliation o r ticket
  | .resumed o r => recoverCheckpointPublication o (.reconciliation r) s
  | .resumeFinalized _ r => .save (Call.resumeResolved r) .ready

end Iteration

end Devlegate
