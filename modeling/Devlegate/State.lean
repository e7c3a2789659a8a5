import Devlegate.Lib.Dict
import Devlegate.ExecutionResult

namespace Devlegate

/-!
# The durable runtime state

One record is the whole memory of the service: it is loaded at start, and every transition of the
engine replaces it as a whole.

* `RuntimeState` and the records it holds.
* `validateStateInvariant`: what a state must satisfy to be stored or loaded.
* `SaveCall` / `saveState`: one `_save_state` call, which merges fields into the current state,
  clears what the target phase does not keep, validates and hands the result to the store.
-/

/-! ### Enumerations -/

inductive Phase where
  | idle
  | mergePending
  | agentPending
  | agentRunning
  deriving DecidableEq, Repr

/-- The phase's word in the state file. -/
def Phase.word : Phase → String
  | .idle => "idle"
  | .mergePending => "merge_pending"
  | .agentPending => "agent_pending"
  | .agentRunning => "agent_running"

inductive Stage where
  | workerLaunch
  | workerRunning
  | postWorker
  | preCheckpoint
  | checkpointing
  | postCheckpoint
  | publishing
  | postPublication
  | lifecycle
  deriving DecidableEq, Repr

/-- The stage's word in the state file. -/
def Stage.word : Stage → String
  | .workerLaunch => "worker-launch"
  | .workerRunning => "worker-running"
  | .postWorker => "post-worker"
  | .preCheckpoint => "pre-checkpoint"
  | .checkpointing => "checkpointing"
  | .postCheckpoint => "post-checkpoint"
  | .publishing => "publishing"
  | .postPublication => "post-publication"
  | .lifecycle => "lifecycle"

/-- The interruption recorded with a failed execution. -/
inductive FailureKind where
  | worker (kind : InterruptionKind)
  | forcedRetry
  deriving DecidableEq, Repr

inductive RetryStatus where
  | pending
  | pendingAdmission
  | admitted
  | completed
  | notAdmitted
  deriving DecidableEq, Repr

inductive ReconciliationStatus where
  | pending
  | resolving
  | resolved
  deriving DecidableEq, Repr

inductive Resolution where
  | resume
  | updateBase
  deriving DecidableEq, Repr

/-- How far the rewrite of an execution lineage has come. -/
inductive RewriteStage where
  | localPending
  | remotePending
  deriving DecidableEq, Repr

inductive ResolutionClass where
  | resume
  | updateBase
  | updateBaseRewrite
  deriving DecidableEq, Repr

/-- The mutating requests of the operator. -/
inductive Method where
  | retry
  | drop
  | recover
  | reconcileUpdateBase
  | reconcileAuto
  | reconcileResume
  | reconcileControl
  deriving DecidableEq, Repr

/-- The method's word on the wire. -/
def Method.word : Method → String
  | .retry => "retry"
  | .drop => "drop"
  | .recover => "recover"
  | .reconcileUpdateBase => "reconcile-update-base"
  | .reconcileAuto => "reconcile-auto"
  | .reconcileResume => "reconcile-resume"
  | .reconcileControl => "reconcile-control"

/-! ### Records -/

/-- `WorkerProcessIdentity`. -/
structure WorkerProcessIdentity where
  executionId : String
  pid : Int
  pgid : Int
  sid : Int
  bootId : String
  startTime : Int
  containmentId : Option String := none
  deriving DecidableEq, Repr

/-- An entry of `failed_executions`. -/
structure FailedExecution where
  executionId : String
  generation : Option String := none
  productHead : String
  remoteHead : String
  controlHead : String
  todoFingerprint : String
  reason : String
  interrupted : Bool := false
  interruptionKind : Option FailureKind := none
  manualRetryRequired : Bool := false
  interruptedExecutionId : Option String := none
  reportUnavailable : Bool := false
  deriving DecidableEq, Repr

/-- `automatic_retry` and `last_automatic_retry`. -/
structure AutomaticRetry where
  status : RetryStatus
  reason : String
  ticketId : String
  staleExecutionId : String
  originalBase : String
  workerCheckpoint : Option String
  productHead : String
  controlHead : String
  freshExecutionId : Option String := none
  completedConclusion : Option Conclusion := none
  deriving DecidableEq, Repr

/-- `manual_retry_required`: the barrier of a forced stop. -/
structure ManualRetry where
  ticketId : String
  executionId : String
  generation : String
  requestId : String
  deriving DecidableEq, Repr

/-- `resume_required`; its status is always `required`. -/
structure ResumeRequired where
  ticketId : String
  checkpoint : Option String := none
  executionId : Option String := none
  evidenceRef : Option String := none
  forceRetry : Bool := false
  deriving DecidableEq, Repr

/-- `force_retry_authorization`; its status is always `admitted`. -/
structure ForceRetryAuthorization where
  requestId : String
  ticketId : String
  oldExecutionId : String
  controlHead : String
  todoFingerprint : String
  checkpoint : String
  executionBaseHead : Option String
  executionRemoteHead : Option String
  deriving DecidableEq, Repr

/-- `operator_recovery`. -/
structure OperatorRecovery where
  ticketId : String
  executionId : Option String
  observedHead : Option String
  deriving DecidableEq, Repr

/-- `accepted_integration`: the intent (ticket, H, R). -/
structure AcceptedIntegration where
  ticketId : String
  checkpoint : String
  controlHead : String
  deriving DecidableEq, Repr

/-- `reconciliation`. -/
structure Reconciliation where
  status : ReconciliationStatus
  reason : String
  resolution : Option Resolution
  resolutionClass : Option ResolutionClass := none
  ticketId : String
  executionId : String
  originalBase : String
  observedProduct : String
  workerCheckpoint : String
  executionRemoteHead : Option String
  productRemoteHead : String
  controlHead : String
  executionBranch : String
  executionPath : String
  evidenceRef : String
  executionReport : Option ExecutionReport := none
  rewriteStage : Option RewriteStage := none
  rewriteTarget : Option String := none
  rewriteCount : Option Nat := none
  rewriteCheckpoint : Option String := none
  rewriteExpectedRemote : Option String := none
  rewriteAuthorized : Bool := false
  displacedEvidenceRef : Option String := none
  rewrittenEvidenceRef : Option String := none
  effectiveBase : Option String := none
  deriving DecidableEq, Repr

/-- An entry of `mutable_receipts`. -/
structure Receipt where
  method : Method
  fingerprint : String
  ticketId : String
  accepted : Bool := true
  executionId : Option String := none
  onto : Option String := none
  resolutionClass : Option ResolutionClass := none
  deriving DecidableEq, Repr

/-- The durable state.  A field that is absent from the state file, or `None` in it, is `none`;
    only for `execution_remote_head` is the difference read, so it has two levels. -/
structure RuntimeState where
  phase : Phase := .idle
  localHead : Option String := none
  remoteHead : Option String := none
  changedPaths : Option String := none
  controlHead : Option String := none
  handledRemoteHead : Option String := none
  handledControlHead : Option String := none
  handledTodoFingerprint : Option String := none
  selectedTicketId : Option String := none
  selectedTicketBody : Option String := none
  selectedTicketTitle : Option String := none
  executionTicketId : Option String := none
  executionBaseHead : Option String := none
  executionControlHead : Option String := none
  executionBranch : Option String := none
  executionPath : Option String := none
  executionId : Option String := none
  executionRemoteHead : Option (Option String) := none
  executionStartHead : Option String := none
  executionStage : Option Stage := none
  executionInterruptionKind : Option InterruptionKind := none
  interruptedExecutionId : Option String := none
  workerIdentity : Option WorkerProcessIdentity := none
  pendingExecutionReport : Option ExecutionReport := none
  failedExecutions : Dict FailedExecution := []
  resumeRequired : Option ResumeRequired := none
  forceRetryAuthorization : Option ForceRetryAuthorization := none
  automaticRetry : Option AutomaticRetry := none
  lastAutomaticRetry : Option AutomaticRetry := none
  manualRetryRequired : Option ManualRetry := none
  operatorRecovery : Option OperatorRecovery := none
  acceptedIntegration : Option AcceptedIntegration := none
  reconciliation : Option Reconciliation := none
  mutableReceipts : Dict Receipt := []
  deriving DecidableEq, Repr

/-! ### Validation -/

/-- `_is_git_identity`: forty hexadecimal digits. -/
def isGitIdentity (s : String) : Bool :=
  s.length == 40 && s.toList.all fun c => "0123456789abcdefABCDEF".toList.contains c

/-- `isinstance(value, str) and value`. -/
def nonEmpty (value : Option String) : Bool :=
  match value with
  | some s => s != ""
  | none => false

/-- Raise `message` unless the check holds. -/
def require (check : Bool) (message : String) : Except String Unit :=
  if check then .ok () else .error message

/-- A check and what follows succeed if both do. -/
theorem andThen_eq_ok {ε : Type} {check rest : Except ε Unit} :
    (do check; rest) = .ok () ↔ check = .ok () ∧ rest = .ok () := by
  cases check with
  | error e => simp [bind, Except.bind]
  | ok u => simp [bind, Except.bind]

/-- A step and what follows it succeed if both do. -/
theorem bind_eq_ok {ε α β : Type} {step : Except ε α} {rest : α → Except ε β} {b : β} :
    (step >>= rest) = .ok b ↔ ∃ a, step = .ok a ∧ rest a = .ok b := by
  cases step with
  | error e => simp [bind, Except.bind]
  | ok a => simp [bind, Except.bind]

/-- What a computation raises. -/
def RaisesOnly {ε α : Type} (p : ε → Prop) (x : Except ε α) : Prop := ∀ e, x = .error e → p e

section RaisesOnly

variable {ε α β : Type} {p : ε → Prop}

theorem RaisesOnly.ok {a : α} : RaisesOnly p (.ok a) := fun _ h => by cases h

theorem RaisesOnly.error {e : ε} (h : p e) : RaisesOnly p (.error e : Except ε α) := fun _ he => by
  cases he
  exact h

/-- What follows a step may use what the step returned. -/
theorem RaisesOnly.bind_of {x : Except ε α} {f : α → Except ε β} (hx : RaisesOnly p x)
    (hf : ∀ a, x = .ok a → RaisesOnly p (f a)) : RaisesOnly p (x >>= f) := by
  intro e h
  cases hresult : x with
  | error e' =>
    rw [hresult] at h
    cases h
    exact hx e hresult
  | ok a =>
    rw [hresult] at h
    exact hf a hresult e h

theorem RaisesOnly.bind {x : Except ε α} {f : α → Except ε β} (hx : RaisesOnly p x)
    (hf : ∀ a, RaisesOnly p (f a)) : RaisesOnly p (x >>= f) := hx.bind_of fun a _ => hf a

/-- A check in the middle. -/
theorem RaisesOnly.unless {q : Prop} [Decidable q] {e : ε} {f : Unit → Except ε β} (he : p e)
    (hf : RaisesOnly p (f ())) : RaisesOnly p (if q then (throw e >>= f) else f ()) := by
  by_cases hq : q
  · rw [if_pos hq]
    exact .error he
  · rw [if_neg hq]
    exact hf

end RaisesOnly

theorem require_eq_ok {check : Bool} {message : String} :
    require check message = .ok () ↔ check = true := by
  cases check <;> simp [require]

/-- A check and what it guards. -/
theorem require_bind_eq_ok {β : Type} {check : Bool} {message : String}
    {rest : Unit → Except String β} {b : β} :
    (require check message >>= rest) = .ok b ↔ check = true ∧ rest () = .ok b := by
  cases check with
  | true => simp [require, bind, Except.bind]
  | false => simp [require, bind, Except.bind]

section Validation

variable [Sha256]

/-- The checks on a `reconciliation` record. -/
def validateReconciliation (r : Reconciliation) : Except String Unit := do
  require ([r.ticketId, r.executionId, r.originalBase, r.observedProduct, r.workerCheckpoint,
      r.productRemoteHead, r.controlHead, r.executionBranch, r.executionPath,
      r.evidenceRef].all (· != "")) "invalid reconciliation identity"
  require (r.status != .resolving || r.resolution == some .resume)
    "resolving reconciliation must be a resume"
  require (r.executionRemoteHead.all isGitIdentity)
    "invalid reconciliation execution remote identity"
  match r.executionReport with
  | none => .ok ()
  | some report =>
    require report.valid "invalid retained reconciliation report"
    require (report.ticketId == r.ticketId && report.executionId == r.executionId
        && report.codeBaseHead == r.originalBase && report.controlHead == r.controlHead
        && report.executionBranch == r.executionBranch && report.executionPath == r.executionPath
        && report.workspaceHead == some r.workerCheckpoint)
      "retained reconciliation report binding is invalid"

/-- `validate_automatic_retry`: the fields are exactly those of the status. -/
def validateAutomaticRetry (current : Bool) (r : AutomaticRetry) : Except String Unit := do
  require (if current then [RetryStatus.pending, .pendingAdmission, .admitted].contains r.status
      else [RetryStatus.completed, .notAdmitted].contains r.status)
    "invalid automatic retry status"
  require (r.freshExecutionId.isSome
      || !([RetryStatus.pendingAdmission, .admitted, .completed].contains r.status))
    "automatic retry identity is incomplete"
  require (r.completedConclusion.isSome || r.status != .completed)
    "automatic retry identity is incomplete"
  require (r.freshExecutionId.isNone || r.status != .pending)
    "automatic retry fields are invalid"
  require (r.completedConclusion.isNone || r.status == .completed)
    "automatic retry fields are invalid"
  require (r.reason != "" && r.ticketId != "" && r.staleExecutionId != ""
      && nonEmpty r.workerCheckpoint)
    "automatic retry identity is invalid"
  require (isGitIdentity r.originalBase && isGitIdentity r.productHead
      && isGitIdentity r.controlHead)
    "automatic retry Git identity is invalid"
  require (r.freshExecutionId.all (· != "")) "automatic retry fresh execution is invalid"

/-- `_worker_identity_from_value` on a typed identity. -/
def validateWorkerIdentity (executionId : Option String) (identity : WorkerProcessIdentity) :
    Except String Unit := do
  require (executionId.all (· == identity.executionId))
    "worker identity does not match execution identity"
  require (identity.executionId != "" && 0 < identity.pid && 0 < identity.pgid
      && 0 < identity.sid && 0 ≤ identity.startTime && identity.bootId != "")
    "invalid worker identity"

/-- The stages that need a stored report. -/
def Stage.needsReport : Stage → Bool
  | .checkpointing | .postCheckpoint | .publishing | .postPublication => true
  | _ => false

/-- The checks on the report of a running execution between checkpoint and publication. -/
def validateStageReport (stage : Stage) (report : Option ExecutionReport) : Except String Unit :=
  match report with
  | none =>
    .error ("invalid " ++ stage.word ++ " state: pending execution report is invalid")
  | some report => do
    require report.valid
      ("invalid " ++ stage.word ++ " state: pending execution report is invalid")
    if stage = .checkpointing then
      require report.workspaceHead.isNone
        "invalid checkpointing state: checkpoint identity is premature"
    else
      require (nonEmpty report.workspaceHead)
        ("invalid " ++ stage.word ++ " state: checkpoint identity is missing")

/-- The checks that only a pending or running execution has to pass. -/
def validateExecution (s : RuntimeState) : Except String Unit := do
  require (s.localHead.isSome && s.remoteHead.isSome && s.changedPaths.isSome)
    ("invalid " ++ s.phase.word ++ " state: synchronization coordinates are incomplete")
  require (nonEmpty s.selectedTicketId && s.selectedTicketBody.isSome)
    ("invalid " ++ s.phase.word ++ " state: selected ticket binding is incomplete")
  require s.controlHead.isSome
    ("invalid " ++ s.phase.word ++ " state: control revision identity is incomplete")
  if s.phase = .agentRunning then
    match s.executionStage with
    | none => .ok ()
    | some stage =>
      if stage = .workerRunning then
        require s.workerIdentity.isSome "worker-running state requires worker identity"
      else
        require s.workerIdentity.isNone "later execution stage cannot retain worker identity"
      if stage.needsReport then validateStageReport stage s.pendingExecutionReport
  require ([s.executionTicketId, s.executionBaseHead, s.executionControlHead, s.executionBranch,
      s.executionPath, s.executionId].all nonEmpty
      && s.executionRemoteHead.any fun head => head.all (· != ""))
    "invalid state: execution workspace binding is incomplete"

/-- `_validate_state_invariant` on a typed state. -/
def validateStateInvariant (s : RuntimeState) : Except String Unit := do
  (s.reconciliation.map validateReconciliation).getD (.ok ())
  (s.automaticRetry.map (validateAutomaticRetry true)).getD (.ok ())
  (s.lastAutomaticRetry.map (validateAutomaticRetry false)).getD (.ok ())
  (s.workerIdentity.map (validateWorkerIdentity s.executionId)).getD (.ok ())
  require (s.manualRetryRequired.all fun m =>
      m.ticketId != "" && m.executionId != "" && m.generation != "" && m.requestId != "")
    "invalid manual retry marker"
  require (s.phase != .idle || s.workerIdentity.isNone)
    "invalid idle state: worker identity is still active"
  require (s.acceptedIntegration.isNone || s.phase == .idle)
    "accepted integration state is only valid while idle"
  require (s.acceptedIntegration.all fun a =>
      a.ticketId != "" && isGitIdentity a.checkpoint && isGitIdentity a.controlHead)
    "invalid accepted integration state"
  match s.phase with
  | .idle => .ok ()
  | .mergePending =>
    require (s.localHead.isSome && s.remoteHead.isSome && s.changedPaths.isSome
        && s.controlHead.isSome)
      "invalid merge_pending state: synchronization coordinates are incomplete"
  | .agentPending | .agentRunning => validateExecution s

/-- The binding of an execution to its workspace. -/
def RuntimeState.executionBound (s : RuntimeState) : Bool :=
  [s.executionTicketId, s.executionBaseHead, s.executionControlHead, s.executionBranch,
      s.executionPath, s.executionId].all nonEmpty
    && s.executionRemoteHead.any fun head => head.all (· != "")

/-- What the stage of a running execution asks of its worker and its report. -/
def RuntimeState.StageOk (s : RuntimeState) : Prop :=
  ∀ stage, s.executionStage = some stage → s.workerIdentity.isSome = decide (stage = .workerRunning)
    ∧ (stage.needsReport = true → validateStageReport stage s.pendingExecutionReport = .ok ())

/-- The checks of a pending or running execution, one by one. -/
theorem validateExecution_eq_ok {s : RuntimeState} : validateExecution s = .ok () ↔
    (s.localHead.isSome && s.remoteHead.isSome && s.changedPaths.isSome) = true
      ∧ (nonEmpty s.selectedTicketId && s.selectedTicketBody.isSome) = true
      ∧ s.controlHead.isSome = true ∧ (s.phase = .agentRunning → s.StageOk)
      ∧ s.executionBound = true := by
  unfold validateExecution RuntimeState.StageOk RuntimeState.executionBound
  by_cases hphase : s.phase = .agentRunning
  · cases hstage : s.executionStage with
    | none => simp [andThen_eq_ok, require_eq_ok, hphase]
    | some stage =>
      by_cases hrunning : stage = .workerRunning
      · subst hrunning
        simp [andThen_eq_ok, require_eq_ok, hphase, Stage.needsReport]
      · cases hreport : stage.needsReport with
        | true =>
          simp only [andThen_eq_ok, require_eq_ok, hphase, hrunning, hreport, if_true, if_false]
          simp [hrunning, hreport, and_assoc]
        | false => simp [andThen_eq_ok, require_eq_ok, hphase, hrunning, hreport]
  · simp [andThen_eq_ok, require_eq_ok, hphase]

end Validation

/-! ### Saving -/

/-- The arguments of one `_save_state` call.  `fields` writes the keyword fields. -/
structure SaveCall where
  phase : Phase
  fields : RuntimeState → RuntimeState := id
  clearExecution : Bool := false
  preserveResumeRequired : Bool := false
  clearPreWorkerGeneration : Bool := false
  clearOperatorRecovery : Bool := false

/-- An idle state has no selected ticket, no pending report and no worker. -/
def RuntimeState.clearForIdle (s : RuntimeState) : RuntimeState :=
  { s with
    selectedTicketId := none, selectedTicketBody := none, selectedTicketTitle := none,
    pendingExecutionReport := none, executionInterruptionKind := none, workerIdentity := none }

/-- `clear_execution`. -/
def RuntimeState.clearForExecution (preserveResumeRequired : Bool) (s : RuntimeState) :
    RuntimeState :=
  { s with
    executionTicketId := none, executionBaseHead := none, executionControlHead := none,
    executionBranch := none, executionPath := none, executionId := none,
    executionRemoteHead := none, executionStartHead := none,
    resumeRequired := if preserveResumeRequired then s.resumeRequired else none }

/-- `clear_pre_worker_generation`. -/
def RuntimeState.clearForPreWorker (s : RuntimeState) : RuntimeState :=
  { s with
    executionStage := none, executionStartHead := none, executionInterruptionKind := none,
    resumeRequired := none }

/-- The payload a save computes from the state it read. -/
def SaveCall.payload (call : SaveCall) (s : RuntimeState) : RuntimeState :=
  let s := call.fields { s with phase := call.phase }
  let s := if call.phase = .idle then s.clearForIdle else s
  let s := if call.clearExecution then s.clearForExecution call.preserveResumeRequired else s
  let s := if call.clearPreWorkerGeneration then s.clearForPreWorker else s
  if call.clearOperatorRecovery then { s with operatorRecovery := none } else s

/-- `_save_state` on one thread: the payload, or the text of the validation error. -/
def saveState [Sha256] (call : SaveCall) (s : RuntimeState) : Except String RuntimeState := do
  validateStateInvariant (call.payload s)
  return call.payload s

/-- A successful save stores its payload, which is valid. -/
theorem saveState_eq_ok [Sha256] {call : SaveCall} {s s' : RuntimeState} :
    saveState call s = .ok s' ↔
      s' = call.payload s ∧ validateStateInvariant (call.payload s) = .ok () := by
  unfold saveState
  cases h : validateStateInvariant (call.payload s) with
  | error message => simp [bind, Except.bind]
  | ok u => simp [bind, Except.bind, pure, Except.pure, eq_comm]

/-- An idle state with the retries and the integration of a valid state is valid if its record
    is. -/
theorem valid_idle_of_eq [Sha256] {s s' : RuntimeState} (h : validateStateInvariant s = .ok ())
    (hphase : s'.phase = .idle) (hworker : s'.workerIdentity = none)
    (hrecord : (s'.reconciliation.map validateReconciliation).getD (.ok ()) = .ok ())
    (hretry : s'.automaticRetry = s.automaticRetry)
    (hlast : s'.lastAutomaticRetry = s.lastAutomaticRetry)
    (hmanual : s'.manualRetryRequired = s.manualRetryRequired)
    (haccepted : s'.acceptedIntegration = s.acceptedIntegration) :
    validateStateInvariant s' = .ok () := by
  simp only [validateStateInvariant, andThen_eq_ok, hphase, hworker, hretry, hlast, hmanual,
    haccepted] at h ⊢
  obtain ⟨-, ha, hl, -, hm, -, -, hi, -⟩ := h
  refine ⟨hrecord, ha, hl, rfl, hm, rfl, ?_, hi, trivial⟩
  simp [require]

end Devlegate
