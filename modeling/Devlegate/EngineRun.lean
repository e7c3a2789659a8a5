import Devlegate.Engine
import Devlegate.Lib.Transition

namespace Devlegate

open Transition

/-!
# Runs of the engine

The engine is its durable state and the point its owner thread has reached.  Iterations begin and
advance save by save, the process may be lost between any two saves, a forced stop may land at any
point, and the operator's commands are admitted between iterations.

* `LaunchRecord`: a worker launch, with what allowed it.
* `Engine.step`: the steps; `launches`, `issued`, `retry`, `barred` and `started` are their history.
-/

/-! ### The system -/

/-- A worker launch that was persisted: `retry` is the ticket the iteration was asked to retry, and
    `barred` says that the ticket was under the manual-retry barrier when the iteration began, and
    still is. -/
structure LaunchRecord where
  ticketId : String
  executionId : String
  authorization : Option AuthorizationKind
  bound : Bool
  retry : Option String
  barred : Bool
  deriving DecidableEq, Repr

/-- The engine.  `issued` are the values `new_execution_id` has returned, `retry` the ticket the
    current iteration was asked to retry, `barred` the tickets whose execution was stopped by force
    and that no retry was admitted for, `started` those among them when the current iteration
    began. -/
structure Engine where
  state : RuntimeState := {}
  pc : Pc := .ready
  issued : List String := []
  launches : List LaunchRecord := []
  retry : Option String := none
  barred : List String := []
  started : List String := []

/-- The saves of a product-base update of a reconciliation. -/
inductive RewriteSave where
  | noted
  | aborted
  | resolved (target : String) (checkpoint : String) (remoteHead : Option String)
      (worktreeHead : String)
  deriving DecidableEq, Repr

/-- The steps of the engine and of what surrounds it. -/
inductive EngineAction where
  | begin (o : Observation) (intent : IterationIntent)
  | advance
  | crash
  | forceStop (requestId : String)
  | admitRetry (ticketId requestId fingerprint : String)
  | forceRetry (ticketId requestId fingerprint controlHead checkpoint : String)
  | admitRecover (requestId fingerprint observedHead : String)
  | admitDrop (ticketId executionId : String)
  | admitOther (requestId : String) (receipt : Receipt)
  | admitResume (requestId fingerprint : String)
  | resume (o : Observation)
  | rewrite (save : RewriteSave)
  | reconcileStranded (o : Observation)
  | recoverInterrupted (worktreeHead : String)

/-- The ticket whose retry the action admits. -/
def EngineAction.lifted : EngineAction → Option String
  | .admitRetry ticketId _ _ | .forceRetry ticketId _ _ _ _ => some ticketId
  | _ => none

section System

variable [Project] [Sha256]

namespace Call

/-- An admission receipt; a retry also lifts the barrier of its ticket. -/
def receipt (phase : Phase) (requestId : String) (receipt : Receipt) (lift : Bool)
    (recovery : Option OperatorRecovery) (resolving : Option Reconciliation) : SaveCall where
  phase := phase
  fields s := { s with
    mutableReceipts := s.mutableReceipts.set requestId receipt
    manualRetryRequired := if lift then none else s.manualRetryRequired
    operatorRecovery := recovery.or s.operatorRecovery
    reconciliation := resolving.or s.reconciliation }

/-- `_force_retry_transition`. -/
def forceRetry (ticketId requestId fingerprint executionId controlHead checkpoint : String)
    (s : RuntimeState) : SaveCall where
  phase := .idle
  clearExecution := true
  preserveResumeRequired := true
  fields t := { t with
    executionStage := none
    failedExecutions := s.failedExecutions.set ticketId {
      executionId := executionId
      productHead := s.localHead.getD ""
      remoteHead := s.remoteHead.getD ""
      controlHead := s.executionControlHead.getD ""
      todoFingerprint := Project.todoFingerprint controlHead
      reason := "forced retry after lost worker and changed descendant ticket generation"
      interrupted := true
      interruptionKind := some .forcedRetry }
    resumeRequired := some {
      ticketId := ticketId, checkpoint := some checkpoint, executionId := some executionId
      evidenceRef := some ("refs/devlegate/recovery/force-retry/" ++ ticketId ++ "/" ++ executionId)
      forceRetry := true }
    forceRetryAuthorization := some {
      requestId := requestId, ticketId := ticketId, oldExecutionId := executionId
      controlHead := controlHead, todoFingerprint := Project.todoFingerprint controlHead
      checkpoint := checkpoint, executionBaseHead := s.executionBaseHead
      executionRemoteHead := s.executionRemoteHead.join }
    mutableReceipts := s.mutableReceipts.set requestId
      { method := .retry, fingerprint := fingerprint, ticketId := ticketId }
    handledControlHead := some controlHead
    handledTodoFingerprint := some "" }

/-- The saves of `_reconcile_update_base_owned`. -/
def rewrite (r : Reconciliation) : RewriteSave → SaveCall
  | .noted => { phase := .idle, fields := fun s => { s with reconciliation := some r } }
  | .aborted => {
      phase := .idle
      fields := fun s => { s with
        executionBaseHead := some r.originalBase, executionStartHead := some r.originalBase
        reconciliation := some r } }
  | .resolved target checkpoint remoteHead worktreeHead => {
      phase := .idle
      fields := fun s => { s with
        executionBaseHead := some target, executionStartHead := some target
        executionRemoteHead := some remoteHead
        handledRemoteHead := some target, handledControlHead := some r.controlHead
        handledTodoFingerprint := some (Project.todoFingerprint worktreeHead)
        reconciliation := some { r with
          status := .resolved, resolution := some .updateBase, workerCheckpoint := checkpoint
          executionRemoteHead := remoteHead, executionReport := none }
        resumeRequired := some { ticketId := r.ticketId } } }

end Call

/-- The barrier is lifted by the retry of its ticket, if the execution is still the one stopped. -/
def liftsBarrier (ticketId : String) (s : RuntimeState) : Bool :=
  s.manualRetryRequired.any fun marker =>
    marker.ticketId == ticketId
      && (s.executionId == some marker.executionId || !nonEmpty s.executionId)
      && (s.executionBaseHead == some marker.generation || !nonEmpty s.executionBaseHead)

/-- The state checks of `_validate_retry_admission`. -/
def retryAdmissible (ticketId : String) (s : RuntimeState) : Bool :=
  s.phase != .agentRunning
    || (s.executionTicketId == some ticketId
      && match s.executionStage with
        | none | some .preCheckpoint | some .workerRunning | some .postWorker => true
        | _ => false)

/-- `_recover_interrupted_execution`. -/
def recoverInterruptedExecution (worktreeHead ticketId executionId : String) (s : RuntimeState) :
    SaveCall :=
  let kind := s.executionInterruptionKind.getD .processLoss
  Call.interrupted (s.remoteHead.getD "") (s.controlHead.getD "")
    (Project.todoFingerprint worktreeHead) s.executionControlHead s.executionId
    (s.failedExecutions.set ticketId {
      executionId := executionId
      productHead := s.localHead.getD ""
      remoteHead := s.remoteHead.getD ""
      controlHead := s.controlHead.getD ""
      todoFingerprint := Project.todoFingerprint worktreeHead
      reason := "interrupted: " ++ kind.words
      interrupted := true
      interruptionKind := some (.worker kind) })

namespace Engine

/-- A save has succeeded and the owner is at the point after it. -/
def saved (e : Engine) (s : RuntimeState) (next : Pc) : Engine :=
  { e with
    state := s
    pc := next
    launches := match next with
      | .launched _ x => {
          ticketId := x.ticket.id
          executionId := x.executionId
          authorization := x.authorization.map (·.kind)
          bound := x.synced.pendingAgentExecution
          retry := e.retry
          barred := e.started.contains x.ticket.id && e.barred.contains x.ticket.id } :: e.launches
      | _ => e.launches }

/-- The owner runs a stretch of code: an exception or a return ends the iteration. -/
def perform (e : Engine) : Stretch → Engine
  | .returned | .raised _ => { e with pc := .ready }
  | .save call next =>
    match saveState call e.state with
    | .error _ => { e with pc := .ready }
    | .ok s => e.saved s next

/-- The answers `o` bring the next values of `new_execution_id`. -/
def observed (e : Engine) (o : Observation) : Engine :=
  { e with
    issued := o.newExecutionId 0 :: o.newExecutionId 1 :: e.issued
    retry := none
    started := e.barred }

/-- An iteration begins; one that runs an admitted retry of a ticket lifts its bar. -/
def begun (e : Engine) (o : Observation) (intent : IterationIntent) : Engine :=
  let barred := e.barred.filter fun ticketId =>
    (initialAuthorization intent e.state).map (·.ticketId) ≠ some ticketId
  { e.observed o with retry := intent.retryTicketId, barred := barred, started := barred }

/-- A save outside an iteration. -/
def record (e : Engine) (call : SaveCall) : Engine := e.perform (.save call .ready)

/-- The save that admits a retry of the ticket. -/
def recordRetry (e : Engine) (ticketId : String) (call : SaveCall) : Engine :=
  match saveState call e.state with
  | .error _ => { e with pc := .ready }
  | .ok s => { e.saved s .ready with barred := e.barred.filter (· ≠ ticketId) }

/-- One step; `none` when the action is not possible. -/
def step (e : Engine) : EngineAction → Option Engine
  | .advance =>
    match e.pc with
    | .ready => none
    | pc => some (e.perform (Devlegate.advance pc e.state))
  | .crash => some { e with pc := .ready }
  | .forceStop requestId =>
    match forcedStopMarker requestId e.state with
    | none => none
    | some marker =>
      match saveState (forcedStopCall e.state.phase marker) e.state with
      | .error _ => none
      | .ok s => some { e with
          state := s, pc := e.pc.draining, barred := marker.ticketId :: e.barred }
  | .begin o intent =>
    match e.pc with
    | .ready => some ((e.begun o intent).perform (enter o intent e.state))
    | _ => none
  | .admitRetry ticketId requestId fingerprint =>
    match e.pc with
    | .ready =>
      if retryAdmissible ticketId e.state then
        some (e.recordRetry ticketId (Call.receipt e.state.phase requestId
          { method := .retry, fingerprint := fingerprint, ticketId := ticketId }
          (liftsBarrier ticketId e.state) none none))
      else none
    | _ => none
  | .forceRetry ticketId requestId fingerprint controlHead checkpoint =>
    match e.pc, e.state.executionId with
    | .ready, some executionId =>
      if e.state.phase = .agentRunning ∧ e.state.executionTicketId = some ticketId
          ∧ (e.state.executionStage = some .workerLaunch
            ∨ e.state.executionStage = some .workerRunning) then
        some (e.recordRetry ticketId (Call.forceRetry ticketId requestId fingerprint executionId
          controlHead checkpoint e.state))
      else none
    | _, _ => none
  | .admitRecover requestId fingerprint observedHead =>
    match e.pc, e.state.phase, e.state.executionTicketId, e.state.executionId with
    | .ready, .agentPending, some ticketId, some executionId =>
      some (e.record (Call.receipt e.state.phase requestId
        { method := .recover, fingerprint := fingerprint, ticketId := ticketId,
          executionId := some executionId } false
        (some ⟨ticketId, some executionId, some observedHead⟩) none))
    | _, _, _, _ => none
  | .admitDrop ticketId executionId =>
    match e.pc with
    | .ready =>
      if e.state.phase = .agentRunning ∧ e.state.executionStage = some .lifecycle
          ∧ e.state.executionTicketId = some ticketId
          ∧ e.state.executionId = some executionId then some (e.record Call.drop)
      else none
    | _ => none
  | .admitOther requestId receipt =>
    match e.pc with
    | .ready => some (e.record (Call.receipt e.state.phase requestId receipt false none none))
    | _ => none
  | .admitResume requestId fingerprint =>
    match e.pc, e.state.reconciliation with
    | .ready, some r =>
      if r.status = .resolved then none
      else some (e.record (Call.receipt e.state.phase requestId
        { method := .reconcileResume, fingerprint := fingerprint, ticketId := r.ticketId } false none
        (some { r with status := .resolving, resolution := some .resume })))
    | _, _ => none
  | .resume o =>
    match e.pc, e.state.phase, e.state.reconciliation with
    | .ready, .idle, some r => some ((e.observed o).perform (reconcileResume o r))
    | _, _, _ => none
  | .rewrite save =>
    match e.pc, e.state.phase, e.state.reconciliation with
    | .ready, .idle, some r =>
      if r.status = .pending then some (e.record (Call.rewrite r save)) else none
    | _, _, _ => none
  | .reconcileStranded o =>
    match e.pc with
    | .ready =>
      -- `_retry_owned` normalises before it starts its iteration, and stops there
      let o := { o with stop := fun _ => true }
      if e.state.phase = .agentRunning
          ∧ (e.state.executionStage = some .workerLaunch
            ∨ e.state.executionStage = some .workerRunning
            ∨ e.state.executionStage = some .postWorker) then
        match e.state.executionInterruptionKind with
        | none => some ((e.observed o).perform (.save (Call.interruption .processLoss)
            (.strandedNoted o none .processLoss)))
        | some kind => some ((e.observed o).perform (reconcileStrandedExecution o none kind e.state))
      else none
    | _ => none
  | .recoverInterrupted worktreeHead =>
    match e.pc, e.state.executionTicketId, e.state.executionId with
    | .ready, some ticketId, some executionId =>
      if e.state.phase = .agentRunning ∧ (e.state.executionStage = none
          ∨ e.state.executionStage = some .preCheckpoint) then
        some (e.record (recoverInterruptedExecution worktreeHead ticketId executionId e.state))
      else none
    | _, _, _ => none

end Engine

end System

/-! ### A small project -/

/-- Two todo tickets in every control revision. -/
@[reducible] def sampleProject : Project where
  tickets _ := ⟨[⟨"t1", .todo, "one", [], "do one"⟩, ⟨"t2", .todo, "two", [], "do two"⟩]⟩
  todoFingerprint head := "todo " ++ head
  executionWorktreeRoot := "/work"

/-- A digest that is the same for every text. -/
@[reducible] def sampleSha256 : Sha256 where
  hexdigest _ := "digest"

/-- The engine on the sample project. -/
@[reducible] def sampleStep : Engine → EngineAction → Option Engine :=
  @Engine.step sampleProject sampleSha256

/-- Answers under which nothing stops an iteration: product head `a`, control head `c`, and a worker
    that raises. -/
def calm (newExecutionId : Nat → String) : Observation where
  stop _ := false
  branchOk := true
  dirty := false
  controlHead := some (sampleHead 'c')
  localHead := sampleHead 'a'
  remoteHead := some (sampleHead 'a')
  isAncestor _ _ := true
  changedPaths _ _ := ""
  mergedHead := none
  projectOk := true
  inspection := ⟨.reusable, ""⟩
  repaired := none
  newExecutionId := newExecutionId
  executionRemote _ := some none
  workspace := some (sampleHead 'a')
  worker := .raises
  submodules := .ok ()
  checkpoint := some (sampleHead 'a')
  product _ := ⟨true, sampleHead 'a', false, sampleHead 'a', some none⟩
  evidenceOk := true
  published := true
  lifecycle := some (sampleHead 'c')
  recovered := none
  workerObservation := .absent
  normalised := some (sampleHead 'c')
  dropped := none
  recoveryWorkspace _ := none
  checkpointExact := false
  productProven := true
  storedReport := none
  historical := none
  retired := false
  acceptedCheckpoint := none
  integrated := none
  resumable := false

/-- The report of a completed execution of `t1`. -/
def sampleReport : ExecutionReport where
  executionId := "e1"
  ticketId := "t1"
  codeBaseHead := sampleHead 'a'
  controlHead := sampleHead 'c'
  executionBranch := "devlegate/work/t1"
  executionPath := "/work/work/t1"
  workspaceHead := some (sampleHead 'd')
  result := ⟨0, none, none, some ⟨.completed, [], [], [], none⟩, .completed, [], [],
    "valid worker claim", true⟩

end Devlegate
