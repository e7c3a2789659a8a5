import Devlegate.EngineRun
import Devlegate.Synchronization

namespace Devlegate

open Transition

/-!
# Resuming a reconciliation

A reconciliation whose product has come back to its base is resumed: an intent is recorded, the
execution is put back to its checkpoint, published and finalised, and the record is resolved.  The
resumption enters the phase of a running execution, so a process that finds it interrupted recovers
the execution, not the reconciliation.

* `ResumeWorld`: the durable state, the process, and the refs that the resumption moves.
* `ResumeWorld.step`: iterations, their publication and lifecycle effects, and crashes.
* `resume_converges_iff`: an interrupted resumption is resolved later if and only if it was lost
  before it had put the execution back.
-/

/-! ### The system -/

/-- How far a process has come with the lifecycle mutation it is making. -/
inductive LifecycleProgress where
  | none
  | wrote
  | committed (head : String)
  deriving DecidableEq, Repr

/-- The process: not running, at the start of an iteration, or after a save of one. -/
inductive ResumeProcess where
  | down
  | entered (o : Observation)
  | point (pc : Pc)

/-- The process after a save. -/
def ResumeProcess.after : Pc → ResumeProcess
  | .ready => .down
  | pc => .point pc

/-- The durable state and the refs of one reconciliation.  `lifecycleCommits` are the commits on the
    remote control branch that are the lifecycle mutation of its report. -/
structure ResumeWorld where
  state : RuntimeState
  process : ResumeProcess := .down
  progress : LifecycleProgress := .none
  executionRemote : Option String
  controlHead : String
  controlDirty : Bool := false
  lifecycleCommits : List String := []

inductive ResumeAction where
  | begin (o : Observation)
  | advance
  | publish
  | write
  | commit (head : String)
  | push
  | crash

/-- The steps that move a ref. -/
def ResumeAction.isEffect : ResumeAction → Bool
  | .publish | .write | .commit _ | .push => true
  | _ => false

/-- The same point of a recovery with newer answers. -/
def Pc.reobserved (f : Observation → Observation) : Pc → Pc
  | .recoveredCheckpoint o caller report w => .recoveredCheckpoint (f o) caller report w
  | .recoveredPublication o caller report w => .recoveredPublication (f o) caller report w
  | .recoveredLifecycle o caller => .recoveredLifecycle (f o) caller
  | .resolving o r ticket => .resolving (f o) r ticket
  | .resumed o r => .resumed (f o) r
  | .resumeFinalized o r => .resumeFinalized (f o) r
  | pc => pc

namespace ResumeWorld

section System

variable [Project] [Sha256] (r : Reconciliation)

/-- The answers while nobody else moves the product, the control branch or the execution branch.
    `published` and `lifecycle` are what the process has got done by the time it asks. -/
def observed (w : ResumeWorld) (o : Observation) : Observation :=
  { o with
    product := fun _ => ⟨true, r.originalBase, false, r.originalBase, some w.executionRemote⟩
    resumable := w.controlHead = r.controlHead
      ∧ (w.executionRemote = r.executionRemoteHead ∨ w.executionRemote = some r.workerCheckpoint)
    recoveryWorkspace := fun _ => some ⟨r.workerCheckpoint, false⟩
    executionRemote := fun _ => some w.executionRemote
    published := w.executionRemote = some r.workerCheckpoint
    productProven := true
    evidenceOk := true
    dropped := none
    lifecycle := if w.lifecycleCommits = [] then none else some w.controlHead }

/-- The stretch of code the process is about to run. -/
def stretch (w : ResumeWorld) : Option Stretch :=
  match w.process with
  | .down => none
  | .entered o => some (enter (w.observed r o) {} w.state)
  | .point pc => some (advance (pc.reobserved (w.observed r)) w.state)

/-- A stretch with its save; anything but a save ends the iteration. -/
def perform (w : ResumeWorld) : Stretch → ResumeWorld
  | .returned | .raised _ => { w with process := .down, progress := .none }
  | .save call next =>
    match saveState call w.state with
    | .error _ => { w with process := .down, progress := .none }
    | .ok s => { w with state := s, process := .after next, progress := .none }

/-- The process is alive and the durable execution is at the given stage. -/
def works (w : ResumeWorld) (stage : Stage) : Bool :=
  (match w.process with
    | .down => false
    | _ => true)
  && w.state.phase = .agentRunning && w.state.executionStage = some stage

/-- One step.  The lifecycle mutation is made on the recorded control head, to which an unpublished
    commit of an earlier process is reset; a dirty control worktree refuses it. -/
def step (w : ResumeWorld) : ResumeAction → Option ResumeWorld
  | .begin o =>
    match w.process with
    | .down =>
      if w.state.reconciliation.any (·.status = .resolving) then some { w with process := .entered o }
      else none
    | _ => none
  | .advance => (w.stretch r).map w.perform
  | .publish =>
    if w.works .postCheckpoint
        && (w.executionRemote = r.executionRemoteHead || w.executionRemote = some r.workerCheckpoint)
    then some { w with executionRemote := some r.workerCheckpoint }
    else none
  | .write =>
    if w.works .lifecycle && !w.controlDirty && w.lifecycleCommits.isEmpty && w.progress = .none
    then some { w with controlHead := r.controlHead, controlDirty := true, progress := .wrote }
    else none
  | .commit head =>
    if w.progress = .wrote && head != r.controlHead
    then some { w with controlHead := head, controlDirty := false, progress := .committed head }
    else none
  | .push =>
    match w.progress with
    | .committed head => some { w with lifecycleCommits := head :: w.lifecycleCommits, progress := .none }
    | _ => none
  | .crash =>
    match w.process with
    | .down => none
    | _ => some { w with process := .down, progress := .none }

end System

end ResumeWorld

/-! ### The record -/

section Record

variable [Project] [Sha256]

/-- A reconciliation that is being resumed and carries the report of its execution. -/
structure Resumable (r : Reconciliation) (report : ExecutionReport) (ticket : Ticket) : Prop where
  status : r.status = .resolving
  resolution : r.resolution = some .resume
  valid : validateReconciliation r = .ok ()
  carries : r.executionReport = some report
  found : (Project.tickets r.controlHead).byId r.ticketId = some ticket
  compatible : ticket.state = .todo ∨ ticket.state = .review
  branch : r.executionBranch = executionBranchOf r.ticketId
  path : r.executionPath = executionPathOf r.ticketId

/-- The durable state before the execution is put back. -/
structure Waiting (r : Reconciliation) (s : RuntimeState) : Prop where
  valid : validateStateInvariant s = .ok ()
  phase : s.phase = .idle
  record : s.reconciliation = some r
  accepted : s.acceptedIntegration = none
  retry : s.automaticRetry.any (·.status = .pending) = false

/-- The durable state of the execution that was put back, at one of its stages. -/
structure PutBack (r : Reconciliation) (report : ExecutionReport) (stage : Stage)
    (s : RuntimeState) : Prop where
  valid : validateStateInvariant s = .ok ()
  phase : s.phase = .agentRunning
  stage : s.executionStage = some stage
  record : s.reconciliation = some r
  pending : s.pendingExecutionReport = some report
  start : s.executionStartHead = some r.originalBase
  binding : reportMatchesExecutionBinding report s = true
  heads : s.localHead.isSome ∧ s.remoteHead.isSome
  retry : s.automaticRetry.any (·.status = .pending) = false
  worker : s.workerIdentity = none

/-! ### What the record says -/

variable {r : Reconciliation} {report : ExecutionReport} {ticket : Ticket} {s : RuntimeState}
  {o : Observation} {w : ResumeWorld} {caller : RecoveryCaller} {stage : Stage}

/-- The report is valid and bound to the record. -/
theorem Resumable.bound (h : Resumable r report ticket) :
    report.valid = true ∧ report.ticketId = r.ticketId ∧ report.executionId = r.executionId
      ∧ report.codeBaseHead = r.originalBase ∧ report.controlHead = r.controlHead
      ∧ report.executionBranch = r.executionBranch ∧ report.executionPath = r.executionPath
      ∧ report.workspaceHead = some r.workerCheckpoint := by
  have hvalid := h.valid
  simp only [validateReconciliation, andThen_eq_ok, h.carries] at hvalid
  obtain ⟨-, -, -, hreport, hbinding⟩ := hvalid
  simp only [require, Bool.and_eq_true, beq_iff_eq] at hreport hbinding
  refine ⟨by simpa using hreport, ?_⟩
  split at hbinding
  · rename_i hall
    exact ⟨hall.1.1.1.1.1.1, hall.1.1.1.1.1.2, hall.1.1.1.1.2, hall.1.1.1.2, hall.1.1.2, hall.1.2,
      hall.2⟩
  · cases hbinding

/-- The identities of a valid record are not empty. -/
theorem Resumable.nonempty (h : Resumable r report ticket) :
    r.ticketId ≠ "" ∧ r.executionId ≠ "" ∧ r.originalBase ≠ "" ∧ r.workerCheckpoint ≠ ""
      ∧ r.controlHead ≠ "" ∧ r.executionBranch ≠ "" ∧ r.executionPath ≠ "" := by
  have hvalid := h.valid
  simp only [validateReconciliation, andThen_eq_ok] at hvalid
  have hidentity := hvalid.1
  simp only [require, List.all_cons, List.all_nil, Bool.and_true, Bool.and_eq_true, bne_iff_ne,
    ne_eq] at hidentity
  split at hidentity
  · rename_i hall
    exact ⟨hall.1, hall.2.1, hall.2.2.1, hall.2.2.2.2.1, hall.2.2.2.2.2.2.1,
      hall.2.2.2.2.2.2.2.1, hall.2.2.2.2.2.2.2.2.1⟩
  · cases hidentity

omit [Project] [Sha256] in
theorem ne_empty_of_isGitIdentity {head : String} (h : isGitIdentity head = true) : head ≠ "" := by
  rintro rfl
  cases h

theorem Resumable.remote_nonempty (h : Resumable r report ticket) :
    r.executionRemoteHead.all (· != "") = true := by
  have hvalid := h.valid
  simp only [validateReconciliation, andThen_eq_ok, require_eq_ok] at hvalid
  have hidentity := hvalid.2.2.1
  cases hhead : r.executionRemoteHead with
  | none => rfl
  | some head =>
    rw [hhead] at hidentity
    simpa using ne_empty_of_isGitIdentity hidentity

/-! ### The saves of a resumption -/

omit [Project] in
/-- The intent is recorded again. -/
theorem Waiting.reconciliation (h : Waiting r s) :
    Waiting r ((Call.reconciliation r).payload s) := by
  refine ⟨?_, rfl, rfl, h.accepted, h.retry⟩
  have hvalid := h.valid
  simp only [validateStateInvariant, andThen_eq_ok] at hvalid ⊢
  obtain ⟨hr, ha, hl, -, hm, -, -, hi, -⟩ := hvalid
  rw [h.record] at hr
  refine ⟨hr, ha, hl, rfl, hm, rfl, ?_, hi, rfl⟩
  simp [SaveCall.payload, Call.reconciliation, RuntimeState.clearForIdle, require]

/-- The execution is put back. -/
theorem Waiting.resume (h : Waiting r s) (hr : Resumable r report ticket) :
    PutBack r report .postCheckpoint ((Call.resume r ticket report).payload s) := by
  obtain ⟨hreport, hticket, hid, hbase, hcontrol, hbranch, hpath, hcheckpoint⟩ := hr.bound
  obtain ⟨nt, ni, nb, nk, nc, nbr, np⟩ := hr.nonempty
  have htid : ticket.id = r.ticketId := TicketStore.byId_id hr.found
  refine ⟨?_, rfl, rfl, h.record, rfl, rfl, ?_, ⟨rfl, rfl⟩, h.retry, rfl⟩
  · have hvalid := h.valid
    simp only [validateStateInvariant, andThen_eq_ok] at hvalid ⊢
    obtain ⟨hrec, ha, hl, -, hm, -, -, -, -⟩ := hvalid
    refine ⟨hrec, ha, hl, rfl, hm, rfl, ?_, ?_, ?_⟩
    · simp [SaveCall.payload, Call.resume, require, h.accepted]
    · simp [SaveCall.payload, Call.resume, require, h.accepted]
    · refine validateExecution_eq_ok.mpr ⟨rfl, ?_, rfl, ?_, ?_⟩
      · simp [SaveCall.payload, Call.resume, nonEmpty, htid, nt]
      · intro _ stage hstage
        cases hstage
        refine ⟨rfl, fun _ => ?_⟩
        show validateStageReport .postCheckpoint (some report) = .ok ()
        simp [validateStageReport, andThen_eq_ok, require_eq_ok, hreport, hcheckpoint, nonEmpty, nk]
      · have hremote := hr.remote_nonempty
        simp [RuntimeState.executionBound, SaveCall.payload, Call.resume, nonEmpty, htid, hid, nt, nb,
          nc, ni, ← hr.branch, ← hr.path, nbr, np, hremote]
  · simp [reportMatchesExecutionBinding, SaveCall.payload, Call.resume, nonEmpty, hticket, hbase,
      hcontrol, hbranch, hpath, htid, hid, ← hr.branch, ← hr.path, nt, nb, nc, ni, nbr, np]

/-- The execution that was put back moves on. -/
theorem PutBack.advance (h : PutBack r report stage s) (hr : Resumable r report ticket)
    {next : Stage} (hnext : next = .postPublication ∨ next = .lifecycle) :
    PutBack r report next ((Call.stage next report).payload s) := by
  obtain ⟨hreport, -, -, -, -, -, -, hcheckpoint⟩ := hr.bound
  obtain ⟨-, -, -, nk, -⟩ := hr.nonempty
  refine ⟨?_, rfl, rfl, h.record, rfl, h.start, h.binding, h.heads, h.retry, h.worker⟩
  have hvalid := h.valid
  simp only [validateStateInvariant, andThen_eq_ok, h.phase] at hvalid ⊢
  obtain ⟨hrec, ha, hl, hw, hm, -, hna, hi, he⟩ := hvalid
  refine ⟨hrec, ha, hl, hw, hm, rfl, hna, hi, ?_⟩
  obtain ⟨hheads, hselected, hcontrol, -, hbound⟩ := validateExecution_eq_ok.mp he
  refine validateExecution_eq_ok.mpr ⟨hheads, hselected, hcontrol, ?_, hbound⟩
  intro _ stage hstage
  cases hstage
  have hidentity : ((Call.stage next report).payload s).workerIdentity = none := h.worker
  rw [hidentity]
  rcases hnext with rfl | rfl
  · refine ⟨rfl, fun _ => ?_⟩
    show validateStageReport .postPublication (some report) = .ok ()
    simp [validateStageReport, andThen_eq_ok, require_eq_ok, hreport, hcheckpoint, nonEmpty, nk]
  · exact ⟨rfl, by simp [Stage.needsReport]⟩

omit [Project] [Sha256] in
/-- An automatic retry whose execution ends is a valid completed one. -/
theorem validateAutomaticRetry_completed {retry : AutomaticRetry} {conclusion : Conclusion}
    (h : validateAutomaticRetry true retry = .ok ()) (hfresh : retry.freshExecutionId.isSome) :
    validateAutomaticRetry false
      { retry with status := .completed, completedConclusion := some conclusion } = .ok () := by
  simp only [validateAutomaticRetry, andThen_eq_ok, require_eq_ok] at h ⊢
  obtain ⟨-, -, -, -, -, hidentity, hgit, hid⟩ := h
  refine ⟨rfl, ?_, rfl, ?_, rfl, hidentity, hgit, hid⟩
  · simp [hfresh]
  · simp

/-- The end of the execution leaves the record as it is. -/
theorem PutBack.finalize (h : PutBack r report stage s) (controlHead : String) :
    Waiting r ((finalizeExecutionLifecycle report controlHead none none .keep s).payload s) := by
  have hvalid := h.valid
  simp only [validateStateInvariant, andThen_eq_ok, h.phase, require_eq_ok] at hvalid
  obtain ⟨hrec, ha, hl, -, hm, -, hna, hi, -⟩ := hvalid
  have haccepted : s.acceptedIntegration = none := by simpa using hna
  refine ⟨?_, rfl, h.record, haccepted, ?_⟩
  · simp only [validateStateInvariant, andThen_eq_ok, require_eq_ok]
    refine ⟨hrec, ?_, ?_, rfl, ?_, rfl, ?_, hi, rfl⟩
    · show (Option.map (validateAutomaticRetry true)
        (s.automaticRetry.filter (·.freshExecutionId ≠ some report.executionId))).getD (.ok ()) = .ok ()
      cases hretry : s.automaticRetry.filter (·.freshExecutionId ≠ some report.executionId) with
      | none => rfl
      | some retry =>
        have hsome := (Option.filter_eq_some_iff.mp hretry).1
        simpa [hsome] using ha
    · show (Option.map (validateAutomaticRetry false)
        (RetryUpdate.keep.last report s.automaticRetry s.lastAutomaticRetry)).getD (.ok ()) = .ok ()
      unfold RetryUpdate.last
      cases hretry : s.automaticRetry.filter (·.freshExecutionId = some report.executionId) with
      | none => exact hl
      | some retry =>
        obtain ⟨hsome, hfresh⟩ := Option.filter_eq_some_iff.mp hretry
        have hold : validateAutomaticRetry true retry = .ok () := by simpa [hsome] using ha
        have hid : retry.freshExecutionId = some report.executionId := by simpa using hfresh
        exact validateAutomaticRetry_completed hold (by simp [hid])
    · show Option.all _ (if s.manualRetryRequired.any (·.executionId = report.executionId) then none
        else s.manualRetryRequired) = true
      split
      · rfl
      · exact hm
    · show (s.acceptedIntegration.isNone || true) = true
      simp
  · show (s.automaticRetry.filter (·.freshExecutionId ≠ some report.executionId)).any _ = false
    have hretry := h.retry
    cases hold : s.automaticRetry with
    | none => rfl
    | some retry =>
      rw [hold] at hretry
      simp only [Option.filter, Option.any_some] at hretry ⊢
      split
      · exact hretry
      · rfl

omit [Project] in
/-- The record is resolved. -/
theorem Waiting.resolved (h : Waiting r s) :
    validateStateInvariant ((Call.resumeResolved r).payload s) = .ok () := by
  have hvalid := h.valid
  simp only [validateStateInvariant, andThen_eq_ok, h.record] at hvalid ⊢
  obtain ⟨hr, ha, hl, -, hm, -, -, hi, -⟩ := hvalid
  refine ⟨?_, ha, hl, rfl, hm, rfl, ?_, hi, rfl⟩
  · show validateReconciliation { r with status := .resolved } = .ok ()
    have hrecord : validateReconciliation r = .ok () := hr
    simp only [validateReconciliation, andThen_eq_ok, require_eq_ok] at hrecord ⊢
    exact ⟨hrecord.1, rfl, hrecord.2.2⟩
  · simp [SaveCall.payload, Call.resumeResolved, RuntimeState.clearForIdle, require]

/-! ### The stretches of a resumption -/

/-- The product is at the base of the record. -/
theorem observed_product (hr : Resumable r report ticket) (n : Nat) :
    ((w.observed r o).product n).classification report.codeBaseHead = .stable
      ∧ ∀ checkpoint, isZeroDeltaStaleProductDrift (w.observed r o) s report.codeBaseHead checkpoint
          ((w.observed r o).product n) = false := by
  obtain ⟨-, -, -, hbase, -⟩ := hr.bound
  obtain ⟨-, -, nb, -⟩ := hr.nonempty
  constructor
  · simp [ResumeWorld.observed, ProductCheckout.classification, ProductCheckout.isStable,
      ProductCheckout.targetEligible, hbase, nb]
  · intro checkpoint
    simp [ResumeWorld.observed, isZeroDeltaStaleProductDrift, hbase]

/-- The execution at its checkpoint: published, it is recorded as such. -/
theorem recoverCheckpointPublication_postCheckpoint (hr : Resumable r report ticket)
    (h : PutBack r report .postCheckpoint s) :
    recoverCheckpointPublication (w.observed r o) caller s =
      if w.executionRemote = some r.workerCheckpoint then
        .save (Call.stage .postPublication report)
          (.recoveredPublication (w.observed r o) caller report ⟨r.workerCheckpoint, false⟩)
      else .raised "execution remote does not match the proven checkpoint" := by
  obtain ⟨-, -, -, -, -, -, -, hcheckpoint⟩ := hr.bound
  obtain ⟨-, -, nb, -⟩ := hr.nonempty
  obtain ⟨hstable, hdrift⟩ := observed_product (w := w) (o := o) (s := s) hr 1
  have hworkspace : (w.observed r o).recoveryWorkspace 0 = some ⟨r.workerCheckpoint, false⟩ := rfl
  have hpublished : (w.observed r o).published
      = decide (w.executionRemote = some r.workerCheckpoint) := rfl
  unfold recoverCheckpointPublication recoverPublication
  simp [h.pending, hworkspace, h.start, h.binding, nb, h.stage, hstable, hdrift, hcheckpoint,
    hpublished]

/-- The published execution: still published, it goes on to its lifecycle. -/
theorem recoverPostPublication_eq (hr : Resumable r report ticket) :
    recoverPostPublication (w.observed r o) caller report ⟨r.workerCheckpoint, false⟩ =
      if w.executionRemote = some r.workerCheckpoint then
        .save (Call.stage .lifecycle report) (.recoveredLifecycle (w.observed r o) caller)
      else .raised "published execution checkpoint is no longer exact" := by
  obtain ⟨-, -, -, -, -, -, -, hcheckpoint⟩ := hr.bound
  have hremote : (w.observed r o).executionRemote 1 = some w.executionRemote := rfl
  unfold recoverPostPublication
  simp only [hcheckpoint, hremote]
  by_cases hpublished : w.executionRemote = some r.workerCheckpoint
  · simp [hpublished]
  · simp [hpublished]

theorem recoverCheckpointPublication_postPublication (hr : Resumable r report ticket)
    (h : PutBack r report .postPublication s) :
    recoverCheckpointPublication (w.observed r o) caller s =
      recoverPostPublication (w.observed r o) caller report ⟨r.workerCheckpoint, false⟩ := by
  obtain ⟨-, -, nb, -⟩ := hr.nonempty
  obtain ⟨hstable, hdrift⟩ := observed_product (w := w) (o := o) (s := s) hr 1
  have hworkspace : (w.observed r o).recoveryWorkspace 0 = some ⟨r.workerCheckpoint, false⟩ := rfl
  unfold recoverCheckpointPublication recoverPublication
  simp [h.pending, hworkspace, h.start, h.binding, nb, h.stage, hstable, hdrift]

/-- The point after the end of an execution, by the caller of its recovery. -/
def RecoveryCaller.next (o : Observation) : RecoveryCaller → Pc
  | .iteration => .ready
  | .reconciliation r => .resumeFinalized o r

/-- The lifecycle report is recovered once the execution is published. -/
theorem recoverLifecycleReport_eq (hr : Resumable r report ticket)
    (h : PutBack r report .lifecycle s) :
    recoverLifecycleReport (w.observed r o) s =
      if w.executionRemote = some r.workerCheckpoint then some report else none := by
  obtain ⟨-, -, -, -, -, -, -, hcheckpoint⟩ := hr.bound
  obtain ⟨-, -, -, nk, -⟩ := hr.nonempty
  have hids : s.executionTicketId.isSome = true ∧ s.executionId.isSome = true := by
    have hbinding := h.binding
    simp only [reportMatchesExecutionBinding, Bool.and_eq_true, beq_iff_eq] at hbinding
    simp [hbinding.1.1.1.1.2, hbinding.1.1.1.1.1.2]
  have hremote : (w.observed r o).executionRemote 2 = some w.executionRemote := rfl
  have hproven : (w.observed r o).productProven = true := rfl
  unfold recoverLifecycleReport
  simp only [hids, h.pending, h.heads, h.retry, hremote, hproven]
  by_cases hpublished : w.executionRemote = some r.workerCheckpoint
  · simp [hpublished, nonEmpty, nk, guard, h.binding, hcheckpoint]
  · simp [hpublished, nonEmpty, nk, guard, h.binding, hcheckpoint]

/-- The execution at its lifecycle: once the mutation is on the control branch, it ends. -/
theorem finishRecovery_eq (hr : Resumable r report ticket) (h : PutBack r report .lifecycle s) :
    finishRecovery (w.observed r o) caller s =
      if w.executionRemote ≠ some r.workerCheckpoint then .raised "lifecycle recovery is ambiguous"
      else if w.lifecycleCommits = [] then .raised "control-plane lifecycle failed"
      else .save (finalizeExecutionLifecycle report w.controlHead none none .keep s)
        (caller.next (w.observed r o)) := by
  obtain ⟨-, hdrift⟩ := observed_product (w := w) (o := o) (s := s) hr 2
  have hlifecycle : (w.observed r o).lifecycle
      = if w.lifecycleCommits = [] then none else some w.controlHead := rfl
  unfold finishRecovery
  rw [recoverLifecycleReport_eq hr h]
  by_cases hpublished : w.executionRemote = some r.workerCheckpoint
  · cases caller with
    | iteration =>
      simp only [hpublished, completeExecutionLifecycle, h.retry, hlifecycle]
      by_cases hnone : w.lifecycleCommits = []
      · simp [hnone, hdrift]
      · simp [hnone, hdrift, RecoveryCaller.next]
    | reconciliation r' =>
      simp only [hpublished, hlifecycle]
      by_cases hnone : w.lifecycleCommits = []
      · simp [hnone]
      · simp [hnone, RecoveryCaller.next]
  · simp [hpublished]

theorem Resumable.again (hr : Resumable r report ticket) :
    { r with status := .resolving, resolution := some .resume } = r := by
  rw [← hr.status, ← hr.resolution]

/-- The resumption records its intent where it is possible. -/
theorem reconcileResume_eq (hr : Resumable r report ticket) :
    reconcileResume o r = if o.resumable then .save (Call.reconciliation r) (.resolving o r ticket)
      else .raised "ticket has no resumable reconciliation" := by
  have hcompatible : ¬ (ticket.state ≠ .todo ∧ ticket.state ≠ .review) := by
    rintro ⟨htodo, hreview⟩
    exact hr.compatible.elim htodo hreview
  unfold reconcileResume
  rw [hr.found]
  cases hresumable : o.resumable with
  | true => simp [hr.status, hcompatible, hr.again]
  | false => simp

/-- An iteration that ends here. -/
def Stretch.Stops : Stretch → Prop
  | .save _ _ => False
  | _ => True

/-- An iteration that finds the record resumes it, unless something stops it before. -/
theorem enter_waiting (hr : Resumable r report ticket) (h : Waiting r s) :
    (enter o {} s).Stops ∨ enter o {} s = reconcileResume o r := by
  have hrecord : s.reconciliation.filter (·.status = .resolving) = some r := by
    simp [h.record, hr.status]
  unfold enter
  simp only [h.phase, h.accepted, hrecord]
  split
  · exact .inl trivial
  · split
    · exact .inl trivial
    · exact .inr rfl

theorem enter_waiting_proceeds (ho : o.Proceeds) (hr : Resumable r report ticket)
    (h : Waiting r s) : enter o {} s = reconcileResume o r := by
  have hrecord : s.reconciliation.filter (·.status = .resolving) = some r := by
    simp [h.record, hr.status]
  unfold enter
  simp [h.phase, h.accepted, hrecord, ho.stop, ho.branchOk]

/-- An iteration that finds the execution put back recovers it, unless something stops it. -/
theorem enter_putBack (h : PutBack r report stage s) (hdropped : o.dropped = none) :
    (enter o {} s).Stops
      ∨ stage.isCheckpointed = true
        ∧ enter o {} s = recoverCheckpointPublication o .iteration s
      ∨ stage = .lifecycle ∧ enter o {} s = finishRecovery o .iteration s
      ∨ stage.isCheckpointed = false ∧ stage ≠ .lifecycle := by
  unfold enter recoverRunning
  simp only [h.phase, h.stage, h.worker, hdropped]
  cases hcheckpointed : stage.isCheckpointed with
  | true =>
    split
    · exact .inl trivial
    · split
      · exact .inl trivial
      · split
        · exact .inl trivial
        · exact .inr (.inl ⟨rfl, by simp [hcheckpointed]⟩)
  | false =>
    by_cases hlifecycle : stage = .lifecycle
    · split
      · exact .inl trivial
      · split
        · exact .inl trivial
        · split
          · exact .inl trivial
          · exact .inr (.inr (.inl ⟨hlifecycle, by simp [hlifecycle, Stage.isCheckpointed]⟩))
    · exact .inr (.inr (.inr ⟨rfl, hlifecycle⟩))

/-! ### Where a resumption can be -/

namespace ResumeWorld

/-- The control branch is as the record found it. -/
structure Untouched (r : Reconciliation) (w : ResumeWorld) : Prop where
  head : w.controlHead = r.controlHead
  clean : w.controlDirty = false
  commits : w.lifecycleCommits = []
  progress : w.progress = .none

/-- The lifecycle mutation is on the control branch, once. -/
structure Advanced (r : Reconciliation) (w : ResumeWorld) : Prop where
  commits : w.lifecycleCommits = [w.controlHead]
  head : w.controlHead ≠ r.controlHead
  progress : w.progress = .none

/-- The lifecycle mutation is being made, or is made. -/
structure Mutating (r : Reconciliation) (w : ResumeWorld) : Prop where
  commits : w.lifecycleCommits = [] ∨ w.Advanced r
  wrote : w.progress = .wrote → w.lifecycleCommits = []
  committed : ∀ head, w.progress = .committed head →
    w.lifecycleCommits = [] ∧ w.controlHead = head ∧ head ≠ r.controlHead

/-- How far one process has come with the lifecycle mutation, from an untouched control branch. -/
inductive Making (r : Reconciliation) (w : ResumeWorld) : Prop where
  | untouched (h : w.Untouched r)
  | wrote (hcommits : w.lifecycleCommits = []) (hprogress : w.progress = .wrote)
  | committed (head : String) (hcommits : w.lifecycleCommits = [])
      (hprogress : w.progress = .committed head) (hhead : w.controlHead = head)
      (hne : head ≠ r.controlHead)
  | made (h : w.Advanced r)

/-- The execution branch is at the checkpoint. -/
def Published (r : Reconciliation) (w : ResumeWorld) : Prop :=
  w.executionRemote = some r.workerCheckpoint

/-- The execution branch is where the record found it or at the checkpoint. -/
def RemoteOk (r : Reconciliation) (w : ResumeWorld) : Prop :=
  w.executionRemote = r.executionRemoteHead ∨ w.Published r

/-- The resumption has not been lost since it put the execution back. -/
inductive OnTrack (r : Reconciliation) (report : ExecutionReport) (ticket : Ticket)
    (w : ResumeWorld) : Prop where
  | waiting (hs : Waiting r w.state) (hc : w.Untouched r)
      (hp : w.process = .down ∨ (∃ o, w.process = .entered o)
        ∨ ∃ o, w.process = .point (.resolving o r ticket))
  | putBack (o : Observation) (hs : PutBack r report .postCheckpoint w.state) (hc : w.Untouched r)
      (hp : w.process = .point (.resumed o r))
  | published (o : Observation) (hs : PutBack r report .postPublication w.state)
      (hc : w.Untouched r) (hremote : w.Published r)
      (hp : w.process = .point (.recoveredPublication o (.reconciliation r) report
        ⟨r.workerCheckpoint, false⟩))
  | lifecycle (o : Observation) (hs : PutBack r report .lifecycle w.state) (hc : w.Making r)
      (hremote : w.Published r)
      (hp : w.process = .point (.recoveredLifecycle o (.reconciliation r)))
  | finalized (o : Observation) (hs : Waiting r w.state) (hc : w.Advanced r)
      (hp : w.process = .point (.resumeFinalized o r))
  | resolved (hs : w.state.reconciliation = some { r with status := .resolved })
      (hc : w.Advanced r) (hp : w.process = .down)

/-- The resumption was lost after it had put the execution back. -/
inductive Lost (r : Reconciliation) (report : ExecutionReport) (w : ResumeWorld) : Prop where
  | recovering (stage : Stage)
      (hstage : stage = .postCheckpoint ∨ stage = .postPublication ∨ stage = .lifecycle)
      (hs : PutBack r report stage w.state) (hc : w.Mutating r)
      (hp : w.process = .down ∨ (∃ o, w.process = .entered o)
        ∨ (∃ o, stage = .postPublication ∧ w.process = .point (.recoveredPublication o .iteration
            report ⟨r.workerCheckpoint, false⟩))
        ∨ ∃ o, stage = .lifecycle ∧ w.process = .point (.recoveredLifecycle o .iteration))
  | stuck (hs : Waiting r w.state) (hc : w.Advanced r)
      (hp : w.process = .down ∨ ∃ o, w.process = .entered o)

/-! ### Steps -/

variable {w' : ResumeWorld} {a : ResumeAction}

omit [Project] in
theorem perform_save {call : SaveCall} {next : Pc}
    (h : validateStateInvariant (call.payload w.state) = .ok ()) :
    w.perform (.save call next) = { w with
      state := call.payload w.state, process := .after next, progress := .none } := by
  simp [perform, saveState_eq_ok.mpr ⟨rfl, h⟩]

omit [Project] in
theorem perform_stops {stretch : Stretch} (h : stretch.Stops) :
    w.perform stretch = { w with process := .down, progress := .none } := by
  cases stretch with
  | returned => rfl
  | raised message => rfl
  | save call next => exact h.elim

/-- The execution branch moves to the checkpoint only. -/
theorem remote_frame (h : w.step r a = some w') :
    w'.executionRemote = w.executionRemote ∨ w'.Published r := by
  unfold Published
  cases a with
  | advance =>
    simp only [step, Option.map_eq_some_iff] at h
    obtain ⟨stretch, -, rfl⟩ := h
    unfold perform
    split
    · exact .inl rfl
    · exact .inl rfl
    · split
      · exact .inl rfl
      · exact .inl rfl
  | begin o | publish | write | commit head | push | crash =>
    simp only [step] at h
    grind

theorem Published.step (h : w.Published r) (hstep : w.step r a = some w') : w'.Published r := by
  rcases remote_frame hstep with heq | hpublished
  · exact heq.trans h
  · exact hpublished

theorem RemoteOk.step (h : w.RemoteOk r) (hstep : w.step r a = some w') : w'.RemoteOk r := by
  rcases remote_frame hstep with heq | hpublished
  · exact h.imp (fun hrecorded => heq.trans hrecorded) (fun hpublished => hpublished.step hstep)
  · exact .inr hpublished

/-- Moving a ref touches neither the durable state nor the process. -/
theorem effect_frame (h : w.step r a = some w') (ha : a.isEffect = true) :
    w'.state = w.state ∧ w'.process = w.process := by
  cases a with
  | begin o => cases ha
  | advance => cases ha
  | crash => cases ha
  | publish | write | commit head | push =>
    simp only [step] at h
    grind

/-- Before the lifecycle stage the control branch is left alone. -/
theorem Untouched.effect (hc : w.Untouched r) (hw : w.works .lifecycle = false)
    (h : w.step r a = some w') (ha : a.isEffect = true) : w'.Untouched r := by
  obtain ⟨hhead, hclean, hcommits, hprogress⟩ := hc
  cases a with
  | begin o => cases ha
  | advance => cases ha
  | crash => cases ha
  | publish =>
    simp only [step] at h
    split at h
    · cases h
      exact ⟨hhead, hclean, hcommits, hprogress⟩
    · cases h
  | write => simp [step, hw] at h
  | commit head => simp [step, hprogress] at h
  | push => simp [step, hprogress] at h

/-- Once it is made, the lifecycle mutation is not made again. -/
theorem Advanced.effect (hc : w.Advanced r) (h : w.step r a = some w') (ha : a.isEffect = true) :
    w'.Advanced r := by
  obtain ⟨hcommits, hhead, hprogress⟩ := hc
  cases a with
  | begin o => cases ha
  | advance => cases ha
  | crash => cases ha
  | publish =>
    simp only [step] at h
    split at h
    · cases h
      exact ⟨hcommits, hhead, hprogress⟩
    · cases h
  | write => simp [step, hcommits] at h
  | commit head => simp [step, hprogress] at h
  | push => simp [step, hprogress] at h

/-- The lifecycle mutation is made once. -/
theorem Mutating.effect (hc : w.Mutating r) (h : w.step r a = some w') (ha : a.isEffect = true) :
    w'.Mutating r := by
  cases a with
  | begin o => cases ha
  | advance => cases ha
  | crash => cases ha
  | publish =>
    simp only [step] at h
    split at h
    · cases h
      refine ⟨?_, hc.wrote, hc.committed⟩
      exact hc.commits.imp id fun hadvanced => ⟨hadvanced.commits, hadvanced.head, hadvanced.progress⟩
    · cases h
  | write =>
    simp only [step] at h
    split at h
    · rename_i hguard
      have hnone : w.lifecycleCommits = [] := by
        simp only [Bool.and_eq_true, List.isEmpty_iff] at hguard
        exact hguard.1.2
      cases h
      exact ⟨.inl hnone, fun _ => hnone, by simp⟩
    · cases h
  | commit head =>
    simp only [step] at h
    split at h
    · rename_i hguard
      simp only [Bool.and_eq_true, decide_eq_true_eq, bne_iff_ne, ne_eq] at hguard
      have hnone := hc.wrote hguard.1
      cases h
      refine ⟨.inl hnone, by simp, ?_⟩
      intro other hother
      cases hother
      exact ⟨hnone, rfl, hguard.2⟩
    · cases h
  | push =>
    simp only [step] at h
    split at h
    · rename_i head hprogress
      obtain ⟨hnone, hhead, hne⟩ := hc.committed head hprogress
      cases h
      refine ⟨.inr ⟨?_, ?_, rfl⟩, by simp, by simp⟩
      · simp [hnone, hhead]
      · simpa [hhead] using hne
    · cases h

/-- A process makes the lifecycle mutation once. -/
theorem Making.effect (hc : w.Making r) (h : w.step r a = some w') (ha : a.isEffect = true) :
    w'.Making r := by
  cases a with
  | begin o => cases ha
  | advance => cases ha
  | crash => cases ha
  | publish =>
    simp only [step] at h
    split at h
    · cases h
      cases hc with
      | untouched hu => exact .untouched ⟨hu.head, hu.clean, hu.commits, hu.progress⟩
      | wrote hcommits hprogress => exact .wrote hcommits hprogress
      | committed head hcommits hprogress hhead hne =>
        exact .committed head hcommits hprogress hhead hne
      | made hm => exact .made ⟨hm.commits, hm.head, hm.progress⟩
    · cases h
  | write =>
    simp only [step] at h
    split at h
    · rename_i hguard
      simp only [Bool.and_eq_true, List.isEmpty_iff] at hguard
      cases h
      exact .wrote hguard.1.2 rfl
    · cases h
  | commit head =>
    simp only [step] at h
    split at h
    · rename_i hguard
      simp only [Bool.and_eq_true, decide_eq_true_eq, bne_iff_ne, ne_eq] at hguard
      have hcommits : w.lifecycleCommits = [] := by
        cases hc with
        | untouched hu => exact hu.commits
        | wrote hcommits hprogress => exact hcommits
        | committed head hcommits => exact hcommits
        | made hm => simp [hm.progress] at hguard
      cases h
      exact .committed head hcommits rfl rfl hguard.2
    · cases h
  | push =>
    simp only [step] at h
    split at h
    · rename_i head hprogress
      cases h
      cases hc with
      | untouched hu => simp [hu.progress] at hprogress
      | wrote hcommits hwrote => simp [hwrote] at hprogress
      | committed other hcommits hcommitted hhead hne =>
        have hsame : other = head := by simpa [hcommitted] using hprogress
        subst hsame
        refine .made ⟨?_, ?_, rfl⟩
        · simp [hcommits, hhead]
        · simpa [hhead] using hne
      | made hm => simp [hm.progress] at hprogress
    · cases h

omit [Project] [Sha256] in
theorem Making.mutating (h : w.Making r) : w.Mutating r := by
  cases h with
  | untouched hu => exact ⟨.inl hu.commits, by simp [hu.progress], by simp [hu.progress]⟩
  | wrote hcommits hprogress => exact ⟨.inl hcommits, fun _ => hcommits, by simp [hprogress]⟩
  | committed head hcommits hprogress hhead hne =>
    refine ⟨.inl hcommits, fun _ => hcommits, ?_⟩
    intro other hother
    have hsame : head = other := by simpa [hprogress] using hother
    exact ⟨hcommits, hsame ▸ hhead, hsame ▸ hne⟩
  | made hm => exact ⟨.inr hm, by simp [hm.progress], by simp [hm.progress]⟩

omit [Project] [Sha256] in
theorem Untouched.mutating (h : w.Untouched r) : w.Mutating r :=
  ⟨.inl h.commits, by simp [h.progress], by simp [h.progress]⟩

omit [Project] [Sha256] in
/-- A process that ends leaves the control branch as it is. -/
theorem Mutating.down (h : w.Mutating r) (s : RuntimeState) (process : ResumeProcess) :
    ({ w with state := s, process := process, progress := .none } : ResumeWorld).Mutating r := by
  refine ⟨?_, by simp, by simp⟩
  exact h.commits.imp id fun hadvanced => ⟨hadvanced.commits, hadvanced.head, rfl⟩

omit [Project] [Sha256] in
/-- The process starts an iteration: nothing else changes. -/
theorem Mutating.entered (h : w.Mutating r) (process : ResumeProcess) :
    ({ w with process := process } : ResumeWorld).Mutating r := by
  refine ⟨?_, h.wrote, h.committed⟩
  exact h.commits.imp id fun hadvanced => ⟨hadvanced.commits, hadvanced.head, hadvanced.progress⟩

/-- A step that neither loses the process nor ends its iteration early. -/
structure Smooth (r : Reconciliation) (w : ResumeWorld) (a : ResumeAction) : Prop where
  alive : a ≠ .crash
  proceeds : ∀ o, a = .begin o → o.Proceeds
  advances : a = .advance → ∀ stretch, w.stretch r = some stretch → ¬ stretch.Stops

omit [Project] in
theorem works_lifecycle_of_waiting (h : Waiting r w.state) : w.works .lifecycle = false := by
  simp [works, h.phase]

omit [Project] in
theorem works_lifecycle_of_putBack (h : PutBack r report stage w.state) (hne : stage ≠ .lifecycle) :
    w.works .lifecycle = false := by
  simp [works, h.stage, hne]

/-- The resumption stays on its track while refs move. -/
theorem OnTrack.effect (h : OnTrack r report ticket w) (hstep : w.step r a = some w')
    (ha : a.isEffect = true) : OnTrack r report ticket w' := by
  obtain ⟨hstate, hprocess⟩ := effect_frame hstep ha
  cases h with
  | waiting hs hc hp =>
    exact .waiting (hstate ▸ hs) (hc.effect (works_lifecycle_of_waiting hs) hstep ha) (hprocess ▸ hp)
  | putBack o hs hc hp =>
    exact .putBack o (hstate ▸ hs)
      (hc.effect (works_lifecycle_of_putBack hs (by decide)) hstep ha) (hprocess ▸ hp)
  | published o hs hc hremote hp =>
    exact .published o (hstate ▸ hs)
      (hc.effect (works_lifecycle_of_putBack hs (by decide)) hstep ha) (hremote.step hstep)
      (hprocess ▸ hp)
  | lifecycle o hs hc hremote hp =>
    exact .lifecycle o (hstate ▸ hs) (hc.effect hstep ha) (hremote.step hstep) (hprocess ▸ hp)
  | finalized o hs hc hp =>
    exact .finalized o (hstate ▸ hs) (hc.effect hstep ha) (hprocess ▸ hp)
  | resolved hs hc hp => exact .resolved (hstate ▸ hs) (hc.effect hstep ha) (hprocess ▸ hp)

theorem Lost.effect (h : Lost r report w) (hstep : w.step r a = some w') (ha : a.isEffect = true) :
    Lost r report w' := by
  obtain ⟨hstate, hprocess⟩ := effect_frame hstep ha
  cases h with
  | recovering stage hstage hs hc hp =>
    exact .recovering stage hstage (hstate ▸ hs) (hc.effect hstep ha) (hprocess ▸ hp)
  | stuck hs hc hp => exact .stuck (hstate ▸ hs) (hc.effect hstep ha) (hprocess ▸ hp)

/-! ### The process moves on -/

/-- An iteration that stops leaves the durable state as it is. -/
theorem step_advance_stops {stretch : Stretch} (hstretch : w.stretch r = some stretch)
    (hstops : stretch.Stops) :
    w.step r .advance = some { w with process := .down, progress := .none } := by
  simp [step, hstretch, perform_stops hstops]

/-- An iteration that saves. -/
theorem step_advance_save {call : SaveCall} {next : Pc}
    (hstretch : w.stretch r = some (.save call next))
    (hvalid : validateStateInvariant (call.payload w.state) = .ok ()) :
    w.step r .advance = some { w with
      state := call.payload w.state, process := .after next, progress := .none } := by
  simp [step, hstretch, perform_save hvalid]

omit [Project] [Sha256] in
theorem Untouched.moved (h : w.Untouched r) (s : RuntimeState) (process : ResumeProcess) :
    ({ w with state := s, process := process, progress := .none } : ResumeWorld).Untouched r :=
  ⟨h.head, h.clean, h.commits, rfl⟩

omit [Project] [Sha256] in
theorem Advanced.moved (h : w.Advanced r) (s : RuntimeState) (process : ResumeProcess) :
    ({ w with state := s, process := process, progress := .none } : ResumeWorld).Advanced r :=
  ⟨h.commits, h.head, rfl⟩

/-- The stretch that puts the execution back. -/
theorem resumeReconciliation_eq (hr : Resumable r report ticket) :
    resumeReconciliation (w.observed r o) r ticket
      = .save (Call.resume r ticket report) (.resumed (w.observed r o) r) := by
  obtain ⟨-, -, nb, -⟩ := hr.nonempty
  have hstable : ((w.observed r o).product 0).isStable r.originalBase = true := by
    simp [observed, ProductCheckout.isStable, ProductCheckout.targetEligible, nb]
  simp [resumeReconciliation, hstable, hr.carries]

/-- An iteration on the track stays there, or it stops after it has put the execution back. -/
theorem OnTrack.advance (hr : Resumable r report ticket) (h : OnTrack r report ticket w)
    (hstep : w.step r .advance = some w') :
    OnTrack r report ticket w'
      ∨ Lost r report w' ∧ ∃ stretch, w.stretch r = some stretch ∧ stretch.Stops := by
  -- by how far the resumption is: until it is put back a stop loses nothing
  cases h with
  | resolved hs hc hp => simp [step, stretch, hp] at hstep
  | waiting hs hc hp =>
    rcases hp with hp | ⟨o, hp⟩ | ⟨o, hp⟩
    · simp [step, stretch, hp] at hstep
    · have hstretch : w.stretch r = some (enter (w.observed r o) {} w.state) := by
        simp [stretch, hp]
      rcases enter_waiting hr hs with hstops | henter
      · rw [step_advance_stops hstretch hstops] at hstep
        cases hstep
        exact .inl (.waiting hs (hc.moved _ _) (.inl rfl))
      · rw [henter, reconcileResume_eq hr] at hstretch
        split at hstretch
        · rw [step_advance_save hstretch hs.reconciliation.valid] at hstep
          cases hstep
          exact .inl (.waiting hs.reconciliation (hc.moved _ _) (.inr (.inr ⟨_, rfl⟩)))
        · rw [step_advance_stops hstretch trivial] at hstep
          cases hstep
          exact .inl (.waiting hs (hc.moved _ _) (.inl rfl))
    · have hstretch : w.stretch r
          = some (.save (Call.resume r ticket report) (.resumed (w.observed r o) r)) := by
        simp [stretch, hp, Pc.reobserved, Devlegate.advance, resumeReconciliation_eq hr]
      rw [step_advance_save hstretch (hs.resume hr).valid] at hstep
      cases hstep
      exact .inl (.putBack _ (hs.resume hr) (hc.moved _ _) rfl)
  | putBack o hs hc hp =>
    have hstretch : w.stretch r = some (recoverCheckpointPublication (w.observed r o)
        (.reconciliation r) w.state) := by
      simp [stretch, hp, Pc.reobserved, Devlegate.advance]
    rw [recoverCheckpointPublication_postCheckpoint hr hs] at hstretch
    split at hstretch
    · rename_i hremote
      have hnext := hs.advance hr (.inl rfl)
      rw [step_advance_save hstretch hnext.valid] at hstep
      cases hstep
      exact .inl (.published _ hnext (hc.moved _ _) hremote rfl)
    · rw [step_advance_stops hstretch trivial] at hstep
      cases hstep
      exact .inr ⟨.recovering _ (.inl rfl) hs (hc.mutating.down _ _) (.inl rfl), _, hstretch, trivial⟩
  | published o hs hc hremote hp =>
    have hstretch : w.stretch r = some (recoverPostPublication (w.observed r o)
        (.reconciliation r) report ⟨r.workerCheckpoint, false⟩) := by
      simp [stretch, hp, Pc.reobserved, Devlegate.advance]
    rw [recoverPostPublication_eq hr] at hstretch
    split at hstretch
    · have hnext := hs.advance hr (.inr rfl)
      rw [step_advance_save hstretch hnext.valid] at hstep
      cases hstep
      exact .inl (.lifecycle _ hnext (.untouched (hc.moved _ _)) hremote rfl)
    · rw [step_advance_stops hstretch trivial] at hstep
      cases hstep
      exact .inr ⟨.recovering _ (.inr (.inl rfl)) hs (hc.mutating.down _ _) (.inl rfl), _, hstretch,
        trivial⟩
  | lifecycle o hs hc hremote hp =>
    have hstretch : w.stretch r
        = some (finishRecovery (w.observed r o) (.reconciliation r) w.state) := by
      simp [stretch, hp, Pc.reobserved, Devlegate.advance]
    rw [finishRecovery_eq hr hs] at hstretch
    split at hstretch
    · rw [step_advance_stops hstretch trivial] at hstep
      cases hstep
      exact .inr ⟨.recovering _ (.inr (.inr rfl)) hs (hc.mutating.down _ _) (.inl rfl), _, hstretch,
        trivial⟩
    · split at hstretch
      · rw [step_advance_stops hstretch trivial] at hstep
        cases hstep
        exact .inr ⟨.recovering _ (.inr (.inr rfl)) hs (hc.mutating.down _ _) (.inl rfl), _, hstretch,
        trivial⟩
      · rename_i hcommits
        have hnext := hs.finalize w.controlHead
        rw [step_advance_save hstretch hnext.valid] at hstep
        cases hstep
        exact .inl (.finalized _ hnext ((hc.mutating.commits.resolve_left hcommits).moved _ _) rfl)
  | finalized o hs hc hp =>
    have hstretch : w.stretch r = some (.save (Call.resumeResolved r) .ready) := by
      simp [stretch, hp, Pc.reobserved, Devlegate.advance]
    rw [step_advance_save hstretch hs.resolved] at hstep
    cases hstep
    exact .inl (.resolved rfl (hc.moved _ _) rfl)

/-- The recovery of a published execution that was put back. -/
theorem Lost.of_postPublication (hr : Resumable r report ticket)
    (hs : PutBack r report .postPublication w.state) (hc : w.Mutating r)
    (hstretch : w.stretch r = some (recoverPostPublication (w.observed r o) .iteration report
      ⟨r.workerCheckpoint, false⟩)) (hstep : w.step r .advance = some w') : Lost r report w' := by
  rw [recoverPostPublication_eq hr] at hstretch
  split at hstretch
  · have hnext := hs.advance hr (.inr rfl)
    rw [step_advance_save hstretch hnext.valid] at hstep
    cases hstep
    exact .recovering _ (.inr (.inr rfl)) hnext (hc.down _ _) (.inr (.inr (.inr ⟨_, rfl, rfl⟩)))
  · rw [step_advance_stops hstretch trivial] at hstep
    cases hstep
    exact .recovering _ (.inr (.inl rfl)) hs (hc.down _ _) (.inl rfl)

/-- The end of an execution that was put back: the record is still being resolved. -/
theorem Lost.of_lifecycle (hr : Resumable r report ticket) (hs : PutBack r report .lifecycle w.state)
    (hc : w.Mutating r)
    (hstretch : w.stretch r = some (finishRecovery (w.observed r o) .iteration w.state))
    (hstep : w.step r .advance = some w') : Lost r report w' := by
  rw [finishRecovery_eq hr hs] at hstretch
  split at hstretch
  · rw [step_advance_stops hstretch trivial] at hstep
    cases hstep
    exact .recovering _ (.inr (.inr rfl)) hs (hc.down _ _) (.inl rfl)
  · split at hstretch
    · rw [step_advance_stops hstretch trivial] at hstep
      cases hstep
      exact .recovering _ (.inr (.inr rfl)) hs (hc.down _ _) (.inl rfl)
    · rename_i hcommits
      have hnext := hs.finalize w.controlHead
      rw [step_advance_save hstretch hnext.valid] at hstep
      cases hstep
      exact .stuck hnext ((hc.commits.resolve_left hcommits).moved _ _) (.inl rfl)

/-- No iteration brings a lost resumption back. -/
theorem Lost.advance (hr : Resumable r report ticket) (h : Lost r report w)
    (hstep : w.step r .advance = some w') : Lost r report w' := by
  cases h with
  | recovering stage hstage hs hc hp =>
    rcases hp with hp | ⟨o, hp⟩ | ⟨o, rfl, hp⟩ | ⟨o, rfl, hp⟩
    · simp [step, stretch, hp] at hstep
    · have hstretch : w.stretch r = some (enter (w.observed r o) {} w.state) := by
        simp [stretch, hp]
      have hdropped : (w.observed r o).dropped = none := rfl
      rcases enter_putBack hs hdropped with
        hstops | ⟨hcheckpointed, henter⟩ | ⟨rfl, henter⟩ | ⟨hno, hne⟩
      · rw [step_advance_stops hstretch hstops] at hstep
        cases hstep
        exact .recovering stage hstage hs (hc.down _ _) (.inl rfl)
      · rw [henter] at hstretch
        rcases hstage with rfl | rfl | rfl
        · rw [recoverCheckpointPublication_postCheckpoint hr hs] at hstretch
          split at hstretch
          · have hnext := hs.advance hr (.inl rfl)
            rw [step_advance_save hstretch hnext.valid] at hstep
            cases hstep
            exact .recovering _ (.inr (.inl rfl)) hnext (hc.down _ _) (.inr (.inr (.inl ⟨_, rfl, rfl⟩)))
          · rw [step_advance_stops hstretch trivial] at hstep
            cases hstep
            exact .recovering _ (.inl rfl) hs (hc.down _ _) (.inl rfl)
        · rw [recoverCheckpointPublication_postPublication hr hs] at hstretch
          exact .of_postPublication hr hs hc hstretch hstep
        · cases hcheckpointed
      · rw [henter] at hstretch
        exact .of_lifecycle hr hs hc hstretch hstep
      · rcases hstage with rfl | rfl | rfl
        · cases hno
        · cases hno
        · exact absurd rfl hne
    · have hstretch : w.stretch r = some (recoverPostPublication (w.observed r o) .iteration report
          ⟨r.workerCheckpoint, false⟩) := by
        simp [stretch, hp, Pc.reobserved, Devlegate.advance]
      exact .of_postPublication hr hs hc hstretch hstep
    · have hstretch : w.stretch r
          = some (finishRecovery (w.observed r o) .iteration w.state) := by
        simp [stretch, hp, Pc.reobserved, Devlegate.advance]
      exact .of_lifecycle hr hs hc hstretch hstep
  | stuck hs hc hp =>
    rcases hp with hp | ⟨o, hp⟩
    · simp [step, stretch, hp] at hstep
    · -- The control branch has moved on, so the record cannot be resumed.
      have hstretch : w.stretch r = some (enter (w.observed r o) {} w.state) := by
        simp [stretch, hp]
      have hstops : (enter (w.observed r o) {} w.state).Stops := by
        rcases enter_waiting hr hs with hstops | henter
        · exact hstops
        · have hno : (w.observed r o).resumable = false := by simp [observed, hc.head]
          rw [henter, reconcileResume_eq hr, hno]
          trivial
      rw [step_advance_stops hstretch hstops] at hstep
      cases hstep
      exact .stuck hs (hc.moved _ _) (.inl rfl)

/-- A lost resumption stays lost. -/
theorem Lost.step (hr : Resumable r report ticket) (h : Lost r report w)
    (hstep : w.step r a = some w') : Lost r report w' := by
  cases a with
  | publish => exact h.effect hstep rfl
  | write => exact h.effect hstep rfl
  | commit head => exact h.effect hstep rfl
  | push => exact h.effect hstep rfl
  | advance => exact h.advance hr hstep
  | begin o =>
    simp only [ResumeWorld.step] at hstep
    split at hstep
    · split at hstep
      · cases hstep
        cases h with
        | recovering stage hstage hs hc hp =>
          exact .recovering stage hstage hs (hc.entered _) (.inr (.inl ⟨o, rfl⟩))
        | stuck hs hc hp => exact .stuck hs ⟨hc.commits, hc.head, hc.progress⟩ (.inr ⟨o, rfl⟩)
      · cases hstep
    · cases hstep
  | crash =>
    have hlost : Lost r report { w with process := .down, progress := .none } := by
      cases h with
      | recovering stage hstage hs hc hp =>
        exact .recovering stage hstage hs (hc.down _ _) (.inl rfl)
      | stuck hs hc hp => exact .stuck hs (hc.moved _ _) (.inl rfl)
    simp only [ResumeWorld.step] at hstep
    split at hstep
    · cases hstep
    · cases hstep
      exact hlost

/-- A resumption goes on, or it is lost after it has put the execution back. -/
theorem OnTrack.step (hr : Resumable r report ticket) (h : OnTrack r report ticket w)
    (hstep : w.step r a = some w') :
    OnTrack r report ticket w' ∨ Lost r report w' ∧ ¬ Smooth r w a := by
  cases a with
  | publish => exact .inl (h.effect hstep rfl)
  | write => exact .inl (h.effect hstep rfl)
  | commit head => exact .inl (h.effect hstep rfl)
  | push => exact .inl (h.effect hstep rfl)
  | advance =>
    refine (h.advance hr hstep).imp id ?_
    rintro ⟨hlost, stretch, hstretch, hstops⟩
    exact ⟨hlost, fun hsmooth => hsmooth.advances rfl stretch hstretch hstops⟩
  | begin o =>
    simp only [ResumeWorld.step] at hstep
    split at hstep
    · rename_i hdown
      split at hstep
      · rename_i hresolving
        cases hstep
        cases h with
        | waiting hs hc hp =>
          exact .inl (.waiting hs ⟨hc.head, hc.clean, hc.commits, hc.progress⟩ (.inr (.inl ⟨o, rfl⟩)))
        | putBack o' hs hc hp => simp [hdown] at hp
        | published o' hs hc hremote hp => simp [hdown] at hp
        | lifecycle o' hs hc hremote hp => simp [hdown] at hp
        | finalized o' hs hc hp => simp [hdown] at hp
        | resolved hs hc hp => simp [hs] at hresolving
      · cases hstep
    · cases hstep
  | crash =>
    have hcrash : ¬ Smooth r w .crash := fun hsmooth => hsmooth.alive rfl
    simp only [ResumeWorld.step] at hstep
    split at hstep
    · cases hstep
    · rename_i hrunning
      cases hstep
      cases h with
      | waiting hs hc hp => exact .inl (.waiting hs (hc.moved _ _) (.inl rfl))
      | putBack o hs hc hp =>
        exact .inr ⟨.recovering _ (.inl rfl) hs (hc.mutating.down _ _) (.inl rfl), hcrash⟩
      | published o hs hc hremote hp =>
        exact .inr ⟨.recovering _ (.inr (.inl rfl)) hs (hc.mutating.down _ _) (.inl rfl), hcrash⟩
      | lifecycle o hs hc hremote hp =>
        exact .inr ⟨.recovering _ (.inr (.inr rfl)) hs (hc.mutating.down _ _) (.inl rfl), hcrash⟩
      | finalized o hs hc hp => exact .inr ⟨.stuck hs (hc.moved _ _) (.inl rfl), hcrash⟩
      | resolved hs hc hp => exact absurd hp hrunning

/-! ### The way to the end -/

/-- The record is resolved and the lifecycle mutation was made exactly once. -/
def Resolved (w : ResumeWorld) : Prop :=
  w.state.reconciliation.any (·.status = .resolved) ∧ w.lifecycleCommits.length = 1

/-- The resumption can still be resolved, with no further loss. -/
def Reaches (r : Reconciliation) (w : ResumeWorld) : Prop :=
  ∃ w', Run (ResumeWorld.step r) (Smooth r) w w' ∧ w'.Resolved

theorem Reaches.of_effect (hstep : w.step r a = some w') (ha : a.isEffect = true)
    (h : Reaches r w') : Reaches r w := by
  obtain ⟨end_, hrun, hresolved⟩ := h
  refine ⟨end_, .head ⟨?_, ?_, ?_⟩ hstep hrun, hresolved⟩
  · rintro rfl
    cases ha
  · rintro o rfl
    cases ha
  · rintro rfl
    cases ha

theorem Reaches.of_save {call : SaveCall} {next : Pc}
    (hstretch : w.stretch r = some (.save call next))
    (hvalid : validateStateInvariant (call.payload w.state) = .ok ())
    (h : Reaches r { w with
      state := call.payload w.state, process := .after next, progress := .none }) :
    Reaches r w := by
  obtain ⟨end_, hrun, hresolved⟩ := h
  refine ⟨end_, .head ⟨by simp, by simp, ?_⟩ (step_advance_save hstretch hvalid) hrun, hresolved⟩
  intro _ stretch hsame
  rw [hstretch] at hsame
  cases hsame
  exact id

theorem reaches_finalized (hs : Waiting r w.state) (hc : w.Advanced r)
    (hp : w.process = .point (.resumeFinalized o r)) : Reaches r w := by
  have hstretch : w.stretch r = some (.save (Call.resumeResolved r) .ready) := by
    simp [stretch, hp, Pc.reobserved, Devlegate.advance]
  refine .of_save hstretch hs.resolved ⟨_, .refl, rfl, ?_⟩
  simp [hc.commits]

theorem reaches_made (hr : Resumable r report ticket) (hs : PutBack r report .lifecycle w.state)
    (hc : w.Advanced r) (hremote : w.Published r)
    (hp : w.process = .point (.recoveredLifecycle o (.reconciliation r))) : Reaches r w := by
  have hstretch : w.stretch r
      = some (finishRecovery (w.observed r o) (.reconciliation r) w.state) := by
    simp [stretch, hp, Pc.reobserved, Devlegate.advance]
  have hpublished : w.executionRemote = some r.workerCheckpoint := hremote
  rw [finishRecovery_eq hr hs, if_neg (by simp [hpublished]), if_neg (by simp [hc.commits])]
    at hstretch
  have hnext := hs.finalize w.controlHead
  exact .of_save hstretch hnext.valid (reaches_finalized hnext (hc.moved _ _) rfl)

/-- From every point of the lifecycle mutation it is brought to its end. -/
theorem reaches_lifecycle (hr : Resumable r report ticket)
    (hs : PutBack r report .lifecycle w.state) (hc : w.Making r) (hremote : w.Published r)
    (hp : w.process = .point (.recoveredLifecycle o (.reconciliation r))) : Reaches r w := by
  have hmade : ∀ u : ResumeWorld, u.state = w.state → u.process = w.process → u.Published r →
      u.Advanced r → Reaches r u := by
    intro u hstate hprocess hpublished hadvanced
    exact reaches_made hr (hstate ▸ hs) hadvanced hpublished (hprocess ▸ hp)
  have hcommitted : ∀ (u : ResumeWorld) (head : String), u.state = w.state →
      u.process = w.process → u.Published r → u.lifecycleCommits = [] →
      u.progress = .committed head → u.controlHead = head → head ≠ r.controlHead →
      Reaches r u := by
    intro u head hstate hprocess hpublished hcommits hprogress hhead hne
    have hstep : u.step r .push = some { u with
        lifecycleCommits := head :: u.lifecycleCommits, progress := .none } := by
      simp [ResumeWorld.step, hprogress]
    refine .of_effect hstep rfl (hmade _ hstate hprocess hpublished ⟨?_, ?_, rfl⟩)
    · simp [hcommits, hhead]
    · simpa [hhead] using hne
  have hwrote : ∀ u : ResumeWorld, u.state = w.state → u.process = w.process → u.Published r →
      u.lifecycleCommits = [] → u.progress = .wrote → Reaches r u := by
    intro u hstate hprocess hpublished hcommits hprogress
    -- Any commit but the recorded head itself; the recorded head is not empty.
    obtain ⟨-, -, -, -, nc, -⟩ := hr.nonempty
    have hstep : u.step r (.commit "") = some { u with
        controlHead := "", controlDirty := false, progress := .committed "" } := by
      simp [ResumeWorld.step, hprogress, nc.symm]
    exact .of_effect hstep rfl (hcommitted _ "" hstate hprocess hpublished hcommits rfl rfl nc.symm)
  cases hc with
  | made hm => exact hmade w rfl rfl hremote hm
  | committed head hcommits hprogress hhead hne =>
    exact hcommitted w head rfl rfl hremote hcommits hprogress hhead hne
  | wrote hcommits hprogress => exact hwrote w rfl rfl hremote hcommits hprogress
  | untouched hu =>
    have hworks : w.works .lifecycle = true := by simp [works, hp, hs.phase, hs.stage]
    have hstep : w.step r .write = some { w with
        controlHead := r.controlHead, controlDirty := true, progress := .wrote } := by
      simp [ResumeWorld.step, hworks, hu.clean, hu.commits, hu.progress]
    exact .of_effect hstep rfl (hwrote _ rfl rfl hremote hu.commits rfl)

theorem reaches_published (hr : Resumable r report ticket)
    (hs : PutBack r report .postPublication w.state) (hc : w.Untouched r) (hremote : w.Published r)
    (hp : w.process = .point (.recoveredPublication o (.reconciliation r) report
      ⟨r.workerCheckpoint, false⟩)) : Reaches r w := by
  have hstretch : w.stretch r = some (recoverPostPublication (w.observed r o)
      (.reconciliation r) report ⟨r.workerCheckpoint, false⟩) := by
    simp [stretch, hp, Pc.reobserved, Devlegate.advance]
  have hpublished : w.executionRemote = some r.workerCheckpoint := hremote
  rw [recoverPostPublication_eq hr, if_pos hpublished] at hstretch
  have hnext := hs.advance hr (.inr rfl)
  exact .of_save hstretch hnext.valid
    (reaches_lifecycle hr hnext (.untouched (hc.moved _ _)) hremote rfl)

/-- The execution that was put back is published first where it is not yet. -/
theorem reaches_putBack (hr : Resumable r report ticket)
    (hs : PutBack r report .postCheckpoint w.state) (hc : w.Untouched r) (hremote : w.RemoteOk r)
    (hp : w.process = .point (.resumed o r)) : Reaches r w := by
  have hpublished : ∀ u : ResumeWorld, u.state = w.state → u.process = w.process →
      u.Untouched r → u.executionRemote = some r.workerCheckpoint → Reaches r u := by
    intro u hstate hprocess huntouched hpublished
    have hstretch : u.stretch r = some (recoverCheckpointPublication (u.observed r o)
        (.reconciliation r) u.state) := by
      simp [stretch, hprocess, hp, Pc.reobserved, Devlegate.advance]
    have hs' : PutBack r report .postCheckpoint u.state := hstate ▸ hs
    rw [recoverCheckpointPublication_postCheckpoint hr hs', if_pos hpublished] at hstretch
    have hnext := hs'.advance hr (.inl rfl)
    exact .of_save hstretch hnext.valid
      (reaches_published hr hnext (huntouched.moved _ _) hpublished rfl)
  have hworks : w.works .postCheckpoint = true := by simp [works, hp, hs.phase, hs.stage]
  have hstep : w.step r .publish
      = some { w with executionRemote := some r.workerCheckpoint } := by
    unfold RemoteOk Published at hremote
    simp [ResumeWorld.step, hworks, hremote]
  exact .of_effect hstep rfl
    (hpublished _ rfl rfl ⟨hc.head, hc.clean, hc.commits, hc.progress⟩ rfl)

theorem reaches_resolving (hr : Resumable r report ticket) (hs : Waiting r w.state)
    (hc : w.Untouched r) (hremote : w.RemoteOk r)
    (hp : w.process = .point (.resolving o r ticket)) : Reaches r w := by
  have hstretch : w.stretch r
      = some (.save (Call.resume r ticket report) (.resumed (w.observed r o) r)) := by
    simp [stretch, hp, Pc.reobserved, Devlegate.advance, resumeReconciliation_eq hr]
  have hnext := hs.resume hr
  exact .of_save hstretch hnext.valid (reaches_putBack hr hnext (hc.moved _ _) hremote rfl)

theorem reaches_entered (hr : Resumable r report ticket) (hs : Waiting r w.state)
    (hc : w.Untouched r) (hremote : w.RemoteOk r) (ho : o.Proceeds)
    (hp : w.process = .entered o) : Reaches r w := by
  have hproceeds : (w.observed r o).Proceeds := ⟨ho.stop, ho.branchOk, ho.clean, ho.control⟩
  have hresumable : (w.observed r o).resumable = true := by
    unfold RemoteOk Published at hremote
    simp [observed, hc.head, hremote]
  have hstretch : w.stretch r = some (.save (Call.reconciliation r)
      (.resolving (w.observed r o) r ticket)) := by
    simp [stretch, hp, enter_waiting_proceeds hproceeds hr hs, reconcileResume_eq hr, hresumable]
  exact .of_save hstretch hs.reconciliation.valid
    (reaches_resolving hr hs.reconciliation (hc.moved _ _) hremote rfl)

theorem reaches_down (hr : Resumable r report ticket) (hs : Waiting r w.state)
    (hc : w.Untouched r) (hremote : w.RemoteOk r) (hp : w.process = .down)
    (ho : o.Proceeds) : Reaches r w := by
  have hstep : w.step r (.begin o) = some { w with process := .entered o } := by
    simp [ResumeWorld.step, hp, hs.record, hr.status]
  obtain ⟨end_, hrun, hresolved⟩ := reaches_entered (o := o) hr (w := { w with process := .entered o })
    hs ⟨hc.head, hc.clean, hc.commits, hc.progress⟩ hremote ho rfl
  refine ⟨end_, .head ⟨by simp, ?_, by simp⟩ hstep hrun, hresolved⟩
  rintro other heq
  cases heq
  exact ho

/-! ### Convergence -/

/-- The intent of the resumption is durable and its refs are as the record says. -/
structure Intended (r : Reconciliation) (ticket : Ticket) (w : ResumeWorld) : Prop where
  state : Waiting r w.state
  control : w.Untouched r
  remote : w.RemoteOk r
  process : w.process = .down ∨ ∃ o, w.process = .point (.resolving o r ticket)

/-- The service is at rest and idle, and the record is still being resolved although the control
    HEAD is the lifecycle commit of its own report. -/
def Stranded (w : ResumeWorld) : Prop :=
  w.process = .down ∧ w.state.phase = .idle ∧ w.state.reconciliation.any (·.status = .resolving)
    ∧ w.controlHead ∈ w.lifecycleCommits

/-- With no further loss the resumption can be resolved from wherever it gets to, and no service at
    rest is stranded. -/
def Converges (r : Reconciliation) (w : ResumeWorld) : Prop :=
  ∀ w', Run (ResumeWorld.step r) (Smooth r) w w' → Reaches r w' ∧ ¬ w'.Stranded

/-- A process enters an iteration only by beginning one. -/
theorem entered_step (h : w.step r a = some w') (hp : w'.process = .entered o) :
    w.process = .entered o ∨ a = .begin o := by
  cases a with
  | publish => exact .inl ((effect_frame h rfl).2 ▸ hp)
  | write => exact .inl ((effect_frame h rfl).2 ▸ hp)
  | commit head => exact .inl ((effect_frame h rfl).2 ▸ hp)
  | push => exact .inl ((effect_frame h rfl).2 ▸ hp)
  | advance =>
    simp only [ResumeWorld.step, Option.map_eq_some_iff] at h
    obtain ⟨stretch, -, rfl⟩ := h
    unfold perform at hp
    split at hp
    · cases hp
    · cases hp
    · split at hp
      · cases hp
      · rename_i next _ _ _
        cases next <;> cases hp
  | begin o' =>
    simp only [ResumeWorld.step] at h
    split at h
    · split at h
      · cases h
        cases hp
        exact .inr rfl
      · cases h
    · cases h
  | crash =>
    simp only [ResumeWorld.step] at h
    split at h
    · cases h
    · cases h
      cases hp

/-- A resumption on its track, with nothing in the way of an iteration it has begun. -/
structure Tracked (r : Reconciliation) (report : ExecutionReport) (ticket : Ticket)
    (w : ResumeWorld) : Prop where
  track : OnTrack r report ticket w
  remote : w.RemoteOk r
  proceeds : ∀ o, w.process = .entered o → o.Proceeds

theorem Tracked.step (hr : Resumable r report ticket) (h : Tracked r report ticket w)
    (hsmooth : Smooth r w a) (hstep : w.step r a = some w') : Tracked r report ticket w' := by
  refine ⟨?_, h.remote.step hstep, ?_⟩
  · rcases h.track.step hr hstep with htrack | ⟨-, hrough⟩
    · exact htrack
    · exact absurd hsmooth hrough
  · intro o hentered
    rcases entered_step hstep hentered with hbefore | hbegin
    · exact h.proceeds o hbefore
    · exact hsmooth.proceeds o hbegin

theorem Tracked.reaches (hr : Resumable r report ticket) (h : Tracked r report ticket w)
    (ho : o.Proceeds) : Reaches r w := by
  cases h.track with
  | waiting hs hc hp =>
    rcases hp with hp | ⟨o', hp⟩ | ⟨o', hp⟩
    · exact reaches_down hr hs hc h.remote hp ho
    · exact reaches_entered hr hs hc h.remote (h.proceeds o' hp) hp
    · exact reaches_resolving hr hs hc h.remote hp
  | putBack o' hs hc hp => exact reaches_putBack hr hs hc h.remote hp
  | published o' hs hc hremote hp => exact reaches_published hr hs hc hremote hp
  | lifecycle o' hs hc hremote hp => exact reaches_lifecycle hr hs hc hremote hp
  | finalized o' hs hc hp => exact reaches_finalized hs hc hp
  | resolved hs hc hp =>
    refine ⟨w, .refl, ?_, ?_⟩
    · simp [hs]
    · simp [hc.commits]

omit [Project] in
theorem OnTrack.not_stranded (h : OnTrack r report ticket w) : ¬ w.Stranded := by
  rintro ⟨hdown, -, hresolving, hhead⟩
  cases h with
  | waiting hs hc hp => simp [hc.commits] at hhead
  | putBack o hs hc hp => simp [hdown] at hp
  | published o hs hc hremote hp => simp [hdown] at hp
  | lifecycle o hs hc hremote hp => simp [hdown] at hp
  | finalized o hs hc hp => simp [hdown] at hp
  | resolved hs hc hp => simp [hs] at hresolving

theorem Lost.not_resolved (hr : Resumable r report ticket) (h : Lost r report w) :
    ¬ w.Resolved := by
  rintro ⟨hresolved, -⟩
  have hrecord : w.state.reconciliation = some r := by
    cases h with
    | recovering stage hstage hs hc hp => exact hs.record
    | stuck hs hc hp => exact hs.record
  simp [hrecord, hr.status] at hresolved

/-- A lost resumption is never resolved. -/
theorem Lost.never_resolved {ok : ResumeWorld → ResumeAction → Prop}
    (hr : Resumable r report ticket) (h : Lost r report w)
    (hrun : Run (ResumeWorld.step r) ok w w') : ¬ w'.Resolved := by
  have hlost : Lost r report w' :=
    hrun.invariant (Lost r report) h fun t a u ht _ hstep => ht.step hr hstep
  exact hlost.not_resolved hr

/-- Whatever happens after the intent, the resumption is on its track or lost. -/
theorem Intended.run {start : ResumeWorld} (hr : Resumable r report ticket)
    (hstart : Intended r ticket start)
    (hrun : Run (ResumeWorld.step r) (fun _ _ => True) start w) :
    (OnTrack r report ticket w ∨ Lost r report w) ∧ w.RemoteOk r := by
  apply hrun.invariant fun u => (OnTrack r report ticket u ∨ Lost r report u) ∧ u.RemoteOk r
  · refine ⟨.inl (.waiting hstart.state hstart.control ?_), hstart.remote⟩
    exact hstart.process.imp id .inr
  · rintro t a u ⟨htrack | hlost, hremote⟩ - hstep
    · exact ⟨(htrack.step hr hstep).imp id And.left, hremote.step hstep⟩
    · exact ⟨.inr (hlost.step hr hstep), hremote.step hstep⟩

/-- **Resumptions after a loss.** Take a reconciliation that carries its report and whose intent to
    resume is durable, and any run of processes and crashes that leaves no process and the record
    still being resolved.  Later processes resolve it, with one lifecycle commit, if and only if
    the execution had not been put back: the state is idle and the control HEAD is the recorded
    one. -/
theorem resume_converges_iff {start : ResumeWorld} (hr : Resumable r report ticket)
    (hstart : Intended r ticket start)
    (hrun : Run (ResumeWorld.step r) (fun _ _ => True) start w) (hdown : w.process = .down)
    (hresolving : w.state.reconciliation.any (·.status = .resolving)) :
    Converges r w ↔ w.state.phase = .idle ∧ w.controlHead = r.controlHead := by
  obtain ⟨htrack | hlost, hremote⟩ := hstart.run hr hrun
  · have htracked : Tracked r report ticket w := ⟨htrack, hremote, by simp [hdown]⟩
    have hconverges : Converges r w := by
      intro w' hsmooth
      have h' : Tracked r report ticket w' :=
        hsmooth.invariant (Tracked r report ticket) htracked
          fun t a u ht hok hstep => ht.step hr hok hstep
      exact ⟨h'.reaches hr calmObservation_proceeds, h'.track.not_stranded⟩
    have hbefore : w.state.phase = .idle ∧ w.controlHead = r.controlHead := by
      cases htrack with
      | waiting hs hc hp => exact ⟨hs.phase, hc.head⟩
      | putBack o hs hc hp => simp [hdown] at hp
      | published o hs hc hremote hp => simp [hdown] at hp
      | lifecycle o hs hc hremote hp => simp [hdown] at hp
      | finalized o hs hc hp => simp [hdown] at hp
      | resolved hs hc hp => simp [hs] at hresolving
    exact ⟨fun _ => hbefore, fun _ => hconverges⟩
  · constructor
    · intro hconverges
      obtain ⟨w', hsmooth, hresolved⟩ := (hconverges w .refl).1
      exact absurd hresolved (hlost.never_resolved hr hsmooth)
    · rintro ⟨hphase, hhead⟩
      cases hlost with
      | recovering stage hstage hs hc hp => simp [hs.phase] at hphase
      | stuck hs hc hp => exact absurd hhead hc.head

end ResumeWorld

end Record

/-! ### A resumption that was lost -/

/-- The product had moved to `b` under the execution and has come back to `a`. -/
def resumingRecord : Reconciliation where
  status := .resolving
  reason := "product-moved"
  resolution := some .resume
  ticketId := "t1"
  executionId := "e1"
  originalBase := sampleHead 'a'
  observedProduct := sampleHead 'b'
  workerCheckpoint := sampleHead 'd'
  executionRemoteHead := none
  productRemoteHead := sampleHead 'b'
  controlHead := sampleHead 'c'
  executionBranch := "devlegate/work/t1"
  executionPath := "/work/work/t1"
  evidenceRef := "refs/devlegate/evidence/t1"
  executionReport := some sampleReport

def resumingWorld : ResumeWorld where
  state := { reconciliation := some resumingRecord }
  executionRemote := none
  controlHead := sampleHead 'c'

/-- The steps on the sample project. -/
@[reducible] def sampleResume : ResumeWorld → ResumeAction → Option ResumeWorld :=
  @ResumeWorld.step sampleProject sampleSha256 resumingRecord

theorem resumingRecord_resumable :
    @Resumable sampleProject sampleSha256 resumingRecord sampleReport
      ⟨"t1", .todo, "one", [], "do one"⟩ := by
  refine @Resumable.mk sampleProject sampleSha256 _ _ _ rfl rfl ?_ rfl rfl (.inl rfl) rfl rfl
  decide

theorem resumingWorld_intended :
    @ResumeWorld.Intended sampleSha256 resumingRecord ⟨"t1", .todo, "one", [], "do one"⟩
      resumingWorld := by
  refine @ResumeWorld.Intended.mk sampleSha256 _ _ _ ?_ ⟨rfl, rfl, rfl, rfl⟩ (.inl rfl) (.inl rfl)
  refine @Waiting.mk sampleSha256 _ _ ?_ rfl rfl rfl rfl
  decide

/-- A service that is killed before it puts the execution back resumes it later. -/
theorem resume_converges_intent :
    ∃ w, exec sampleResume resumingWorld [.begin calmObservation, .advance, .crash] = some w
      ∧ @ResumeWorld.Converges sampleProject sampleSha256 resumingRecord w := by
  obtain ⟨w, hexec, hdown, hresolving, hphase, hhead⟩ : ∃ w,
      exec sampleResume resumingWorld [.begin calmObservation, .advance, .crash] = some w
        ∧ w.process = .down ∧ w.state.reconciliation.any (·.status = .resolving)
        ∧ w.state.phase = .idle ∧ w.controlHead = sampleHead 'c' :=
    ⟨_, rfl, rfl, rfl, rfl, rfl⟩
  have hrun : Run sampleResume (fun _ _ => True) resumingWorld w :=
    run_of_exec hexec (by simp [Along])
  exact ⟨w, hexec, (@ResumeWorld.resume_converges_iff sampleProject sampleSha256 resumingRecord
    sampleReport _ w resumingWorld resumingRecord_resumable resumingWorld_intended hrun hdown
    hresolving).mpr ⟨hphase, hhead⟩⟩

/-- The service is killed after it has finalised the execution and before it resolves the record:
    it is left idle with the record still being resolved, and no later process resolves it. -/
theorem resume_stranded :
    ∃ w, exec sampleResume resumingWorld [.begin calmObservation, .advance, .advance, .publish,
        .advance, .advance, .write, .commit (sampleHead 'f'), .push, .advance, .crash] = some w
      ∧ w.Stranded
      ∧ (∀ w', Run sampleResume (fun _ _ => True) w w' → ¬ w'.Resolved)
      ∧ ¬ @ResumeWorld.Converges sampleProject sampleSha256 resumingRecord w := by
  obtain ⟨w, hexec, hstranded⟩ : ∃ w, exec sampleResume resumingWorld [.begin calmObservation,
      .advance, .advance, .publish, .advance, .advance, .write, .commit (sampleHead 'f'), .push,
      .advance, .crash] = some w ∧ w.Stranded :=
    ⟨_, rfl, rfl, rfl, rfl, .head _⟩
  have hrun : Run sampleResume (fun _ _ => True) resumingWorld w :=
    run_of_exec hexec (by simp [Along])
  obtain ⟨htrack | hlost, -⟩ := @ResumeWorld.Intended.run sampleProject sampleSha256 resumingRecord
    sampleReport _ w resumingWorld resumingRecord_resumable resumingWorld_intended hrun
  · exact absurd hstranded (@ResumeWorld.OnTrack.not_stranded sampleSha256 _ _ _ w htrack)
  · refine ⟨w, hexec, hstranded, ?_, ?_⟩
    · intro w' hlater
      exact @ResumeWorld.Lost.never_resolved sampleProject sampleSha256 _ _ _ w w' _
        resumingRecord_resumable hlost hlater
    · intro hconverges
      exact (hconverges w .refl).2 hstranded

end Devlegate
