import Devlegate.Site

namespace Devlegate

open Crash

/-!
# Dropping an execution

An execution whose lifecycle the control plane refuses can be dropped: its checkpoint is pinned, the
disposition is recorded, and its branches and worktree are retired.  The disposition says `dropped`
before anything is retired, so that a later process finishes what an earlier one began.

* `dropOwned`: `_drop_owned`, effect by effect.
* `Retiring`, `Dropped`: where a drop can be, and where it ends.
* `Restartable`: whatever was interrupted, the next run ends the drop; nothing is retired before the
  evidence is there; and a finished drop is left alone.
* `Endable`: what a drop needs and its admission does not check.
* `drop_restartable_iff`: an admitted drop is restartable if and only if it is endable.
-/

/-! ### The operation -/

namespace Site

/-- `_read_drop_disposition`. -/
def readDropDisposition (ticketId executionId : String) (w : Site) :
    Except String (Option Disposition) :=
  match w.dispositions (dropDispositionRef ticketId executionId) with
  | none => .ok none
  | some (.unreadable reason) => .error reason
  | some (.payload d) => .ok (some d)

/-- The disposition ref of a report points to a payload. -/
def recordDisposition (d : Disposition) (w : Site) : Site :=
  { w with
    dispositions := Function.update w.dispositions
      (dropDispositionRef d.report.ticketId d.report.executionId) (some (.payload d)) }

/-- `_drop_already_completed`. -/
def dropAlreadyCompleted (ticketId executionId : String) (w : Site) : Except String Bool :=
  match w.readDropDisposition ticketId executionId with
  | .error reason => .error reason
  | .ok none => .ok false
  | .ok (some payload) =>
    if payload.report.ticketId ≠ ticketId ∨ payload.report.executionId ≠ executionId then
      .error "execution disposition is invalid"
    else if payload.disposition = .dropping then .ok false
    else if w.git.refs (dropEvidenceRef ticketId executionId) ≠ some payload.checkpoint then
      .error "completed drop has inconsistent checkpoint evidence"
    else .ok !(decide (w.state.phase = .agentPending ∨ w.state.phase = .agentRunning)
      && w.state.executionId = some executionId)

/-- `_persist_drop_intent`. -/
def persistDropIntent (report : ExecutionReport) : Program Unit :=
  match report.workspaceHead with
  | none => .raise "drop execution checkpoint identity is missing"
  | some checkpoint => do
    .ensure (checkpoint ≠ "") "drop execution checkpoint identity is missing"
    match ← .observe (readDropDisposition report.ticketId report.executionId) with
    | some existing =>
      .ensure (existing.disposition = .dropped ∨ existing = ⟨report, checkpoint, .dropping⟩)
        "drop disposition intent is inconsistent"
    | none => .effect (recordDisposition ⟨report, checkpoint, .dropping⟩)

/-- The evidence ref of a drop holds the checkpoint, pinned now if it was not. -/
def pinCheckpoint (report : ExecutionReport) (checkpoint : String) : Program Unit := do
  let w ← .get
  match w.git.refs (dropEvidenceRef report.ticketId report.executionId) with
  | some observed => .ensure (observed = checkpoint) "drop execution evidence ref is inconsistent"
  | none => .effect fun w => { w with
      git := w.git.updateRef (dropEvidenceRef report.ticketId report.executionId) checkpoint }

/-- `_pin_drop_evidence`. -/
def pinDropEvidence (report : ExecutionReport) : Program Unit :=
  match report.workspaceHead with
  | none => .raise "drop execution checkpoint identity is missing"
  | some checkpoint => do
    .ensure (checkpoint ≠ "") "drop execution checkpoint identity is missing"
    pinCheckpoint report checkpoint
    let existing ← .observe (readDropDisposition report.ticketId report.executionId)
    .ensure (∀ d ∈ existing, d.disposition = .dropped → d = ⟨report, checkpoint, .dropped⟩)
      "drop disposition evidence is inconsistent"
    .effect (recordDisposition ⟨report, checkpoint, .dropped⟩)

section Operation

variable [Project]

/-- `_drop_workspace_from_state`. -/
def dropWorkspaceFromState (report : ExecutionReport) (w : Site) :
    Except String ExecutionWorkspace :=
  match w.state.executionTicketId, w.state.executionBaseHead with
  | some ticketId, some baseHead =>
    if [w.state.executionTicketId, w.state.executionBaseHead, w.state.executionBranch,
        w.state.executionPath].all nonEmpty = false then
      .error "drop execution workspace binding is incomplete"
    else if w.state.executionBranch ≠ some (executionBranchOf ticketId)
        ∨ w.state.executionPath ≠ some (executionPathOf ticketId) then
      .error "drop execution workspace binding is invalid"
    else match w.git.worktrees.get (executionPathOf ticketId) with
      | some _ => w.validateExisting ticketId baseHead
      | none =>
        if (w.git.pathOf (executionBranchOf ticketId)).isSome
            ∨ w.git.directories (executionPathOf ticketId) then
          .error "drop execution workspace topology is ambiguous"
        else .ok ⟨report.ticketId, executionBranchOf ticketId, executionPathOf ticketId,
          report.workspaceHead.getD "", baseHead, false⟩
  | _, _ => .error "drop execution workspace binding is incomplete"

/-- `_checkpoint_commit_is_exact`: one commit on top of the start, and a clean worktree. -/
def checkpointCommitIsExact (graph : Git.CommitGraph) (workspace : ExecutionWorkspace)
    (commit startHead : String) : Bool :=
  graph.lineage startHead commit = some [commit] && !workspace.dirty

/-- The pending report, as `ExecutionReport.from_dict` accepts it. -/
def pendingReport [Sha256] (w : Site) : Except String ExecutionReport :=
  match w.state.pendingExecutionReport.filter (·.valid) with
  | some report => .ok report
  | none => .error "drop requires a valid pending execution report"

/-- A worktree that is there shows its checkpoint; one that is gone has left the evidence. -/
def validateDropWorkspace (graph : Git.CommitGraph) (report : ExecutionReport)
    (workspace : ExecutionWorkspace) (checkpoint startHead : String) (allowMissingRemote : Bool)
    (w : Site) : Except String Unit :=
  if w.git.directories workspace.path then
    require (checkpointCommitIsExact graph workspace checkpoint startHead)
      "execution checkpoint evidence is ambiguous"
  else if !allowMissingRemote then .error "execution worktree is missing"
  else require (w.git.refs (dropEvidenceRef report.ticketId report.executionId) = some checkpoint)
    "retired execution checkpoint evidence is invalid"

/-- `_validate_drop_evidence`. -/
def validateDropEvidence [Sha256] (graph : Git.CommitGraph) (ticketId executionId : String)
    (allowMissingRemote : Bool) (w : Site) :
    Except String (ExecutionReport × ExecutionWorkspace) := do
  let report ← w.pendingReport
  require (report.ticketId = ticketId ∧ report.executionId = executionId)
    "pending report does not match requested execution"
  require (reportMatchesExecutionBinding report w.state)
    "recovered execution report does not match its durable execution binding"
  require report.workspaceHead.isSome "drop requires a checkpoint identity"
  let checkpoint := report.workspaceHead.getD ""
  let workspace ← w.dropWorkspaceFromState report
  require (workspace.head = checkpoint) "execution worktree does not match its checkpoint"
  require (nonEmpty w.state.executionStartHead) "drop execution start identity is incomplete"
  w.validateDropWorkspace graph report workspace checkpoint (w.state.executionStartHead.getD "")
    allowMissingRemote
  let remote := w.executionRemoteHead report.executionBranch
  require (remote = some checkpoint ∨ allowMissingRemote ∧ remote = none)
    "execution remote checkpoint is not exact"
  return (report, workspace)

/-- The remote branch is deleted where it still is at the checkpoint. -/
def retireRemote (branch expected : String) : Program Unit := do
  let w ← .get
  match w.executionRemoteHead branch with
  | none => pure ()
  | some remote =>
    .ensure (remote = expected) "execution remote changed before drop"
    .effect fun w => { w with git := w.git.deleteRemote branch }

/-- The local branch is deleted where it still is at the checkpoint. -/
def retireBranch (branch expected : String) : Program Unit := do
  let w ← .get
  match w.git.refs (Git.branchRef branch) with
  | none => pure ()
  | some head =>
    .ensure (head = expected) "local execution branch changed before drop"
    .effect fun w => { w with git := w.git.deleteBranch branch }

/-- `_retire_drop_workspace`. -/
def retireDropWorkspace (report : ExecutionReport) (workspace : ExecutionWorkspace) :
    Program Unit :=
  match report.workspaceHead with
  | none => .raise "drop execution checkpoint identity is missing"
  | some expected => do
    retireRemote report.executionBranch expected
    retire workspace expected
    retireBranch report.executionBranch expected

variable [Sha256] (graph : Git.CommitGraph)

/-- `_drop_owned`. -/
def dropOwned (ticketId executionId : String) : Program Unit := do
  .ensure (executionId ≠ "") "drop requires an exact execution identity"
  if ← .observe (dropAlreadyCompleted ticketId executionId) then pure ()
  else
    let existing ← .observe (readDropDisposition ticketId executionId)
    let (report, workspace) ← .observe
      (validateDropEvidence graph ticketId executionId existing.isSome)
    persistDropIntent report
    pinDropEvidence report
    retireDropWorkspace report workspace
    save Call.drop

/-- `_validate_drop_admission`. -/
def validateDropAdmission (ticketId executionId : String) (w : Site) : Except String Unit := do
  require (executionId ≠ "") "drop requires an exact execution identity"
  if ← w.dropAlreadyCompleted ticketId executionId then return
  require (w.state.phase = .agentRunning) "execution is not currently droppable"
  require (w.state.executionTicketId = some ticketId)
    "requested ticket does not match the active execution"
  require (w.state.executionId = some executionId) "requested execution is no longer active"
  require (w.state.executionStage = some .lifecycle)
    "drop is currently limited to blocked lifecycle executions"
  require w.state.workerIdentity.isNone "cannot drop an execution with worker ownership"
  require (w.state.reconciliation.all (·.status ≠ .pending) ∧ w.state.acceptedIntegration.isNone)
    "drop is unsafe while reconciliation or accepted integration is pending"
  let existing ← w.readDropDisposition ticketId executionId
  let _ ← w.validateDropEvidence graph ticketId executionId existing.isSome

/-- A drop that an operator submits: its admission, and the drop. -/
def submitDrop (ticketId executionId : String) : Program Unit := do
  .observe (validateDropAdmission graph ticketId executionId)
  dropOwned graph ticketId executionId

/-- The drop recovery of `_run_iteration_body`; other executions are recovered elsewhere. -/
def recoverDropped : Program Unit := do
  let w ← .get
  match w.state.phase, w.state.executionStage, w.state.workerIdentity, w.state.executionTicketId,
    w.state.executionId with
  | .agentRunning, some .lifecycle, none, some ticketId, some executionId =>
    if (← .observe (readDropDisposition ticketId executionId)).isSome then
      dropOwned graph ticketId executionId
  | _, _, _, _, _ => pure ()

end Operation

/-! ### Where a drop can be -/

/-- The checkpoint under its evidence ref. -/
def dropEvidence (report : ExecutionReport) (w : Site) : Option String :=
  w.git.refs (dropEvidenceRef report.ticketId report.executionId)

/-- The disposition of the execution is recorded as `kind`. -/
def Marked (report : ExecutionReport) (checkpoint : String) (kind : DispositionKind) (w : Site) :
    Prop :=
  w.dispositions (dropDispositionRef report.ticketId report.executionId)
    = some (.payload ⟨report, checkpoint, kind⟩)

section Where

variable [Project]

/-- The worktree of the execution is there, clean, and the only one on its branch. -/
structure Present (report : ExecutionReport) (w : Site) : Prop where
  registered : w.git.worktrees.get (executionPathOf report.ticketId)
    = some ⟨executionBranchOf report.ticketId, false⟩
  directory : w.git.directories (executionPathOf report.ticketId) = true
  exclusive : w.git.Exclusive (executionBranchOf report.ticketId) (executionPathOf report.ticketId)

/-- The worktree of the execution is gone. -/
structure Gone (report : ExecutionReport) (w : Site) : Prop where
  unregistered : w.git.worktrees.get (executionPathOf report.ticketId) = none
  directory : w.git.directories (executionPathOf report.ticketId) = false
  detached : w.git.pathOf (executionBranchOf report.ticketId) = none

variable [Sha256]

/-- An execution that can be dropped, as the durable state binds it. -/
structure DropBinding (graph : Git.CommitGraph) (report : ExecutionReport) (checkpoint : String)
    (s : RuntimeState) : Prop where
  valid : validateStateInvariant s = .ok ()
  phase : s.phase = .agentRunning
  stage : s.executionStage = some .lifecycle
  worker : s.workerIdentity = none
  reconciliation : s.reconciliation.all (·.status ≠ .pending) = true
  pending : s.pendingExecutionReport = some report
  reportValid : report.valid = true
  binding : reportMatchesExecutionBinding report s = true
  branch : report.executionBranch = executionBranchOf report.ticketId
  path : report.executionPath = executionPathOf report.ticketId
  workspaceHead : report.workspaceHead = some checkpoint
  nonempty : checkpoint ≠ ""
  start : nonEmpty s.executionStartHead = true
  exact : graph.lineage (s.executionStartHead.getD "") checkpoint = some [checkpoint]

/-- A drop under way: the evidence comes before the disposition, the disposition before the remote
    branch goes, the remote branch before the worktree, and the worktree before the branch. -/
structure Retiring (graph : Git.CommitGraph) (report : ExecutionReport) (checkpoint : String)
    (s : RuntimeState) (w : Site) : Prop where
  state : w.state = s
  bound : DropBinding graph report checkpoint w.state
  plain : w.symlinked = false
  submodules : w.submodules checkpoint = .ok ()
  disposition : w.dispositions (dropDispositionRef report.ticketId report.executionId) = none
    ∨ w.Marked report checkpoint .dropping ∨ w.Marked report checkpoint .dropped
  evidence : w.dropEvidence report = none ∨ w.dropEvidence report = some checkpoint
  pinned : w.Marked report checkpoint .dropped → w.dropEvidence report = some checkpoint
  remote : w.executionRemoteHead report.executionBranch = some checkpoint
    ∨ w.executionRemoteHead report.executionBranch = none ∧ w.Marked report checkpoint .dropped
  worktree : w.Present report
    ∨ w.Gone report ∧ w.executionRemoteHead report.executionBranch = none
  branch : w.git.refs (Git.branchRef report.executionBranch) = some checkpoint
    ∨ w.git.refs (Git.branchRef report.executionBranch) = none ∧ w.Gone report

/-- The execution is dropped. -/
structure Dropped (report : ExecutionReport) (checkpoint : String) (w : Site) : Prop where
  disposition : w.Marked report checkpoint .dropped
  evidence : w.dropEvidence report = some checkpoint
  remote : w.executionRemoteHead report.executionBranch = none
  worktree : w.Gone report
  branch : w.git.refs (Git.branchRef report.executionBranch) = none
  idle : w.state.phase = .idle
  unbound : w.state.executionTicketId = none ∧ w.state.executionId = none
    ∧ w.state.executionBranch = none ∧ w.state.executionPath = none
    ∧ w.state.executionBaseHead = none ∧ w.state.executionControlHead = none
    ∧ w.state.executionRemoteHead = none ∧ w.state.executionStartHead = none

end Where

/-! ### What a drop finds -/

section Finds

variable [Project] [Sha256] {graph : Git.CommitGraph} {report : ExecutionReport}
  {checkpoint : String} {s : RuntimeState} {w : Site}

/-- The binding of the report, field by field. -/
theorem DropBinding.fields (h : DropBinding graph report checkpoint s) :
    s.executionId = some report.executionId ∧ s.executionTicketId = some report.ticketId
      ∧ s.executionBranch = some (executionBranchOf report.ticketId)
      ∧ s.executionPath = some (executionPathOf report.ticketId)
      ∧ s.executionBaseHead = some report.codeBaseHead := by
  have hbinding := h.binding
  simp only [reportMatchesExecutionBinding, Bool.and_eq_true, beq_iff_eq] at hbinding
  obtain ⟨⟨⟨⟨⟨⟨-, hid⟩, hticket⟩, -⟩, hbranch⟩, hpath⟩, hbase⟩ := hbinding
  exact ⟨hid, hticket, h.branch ▸ hbranch, h.path ▸ hpath, hbase⟩

theorem DropBinding.bound_nonempty (h : DropBinding graph report checkpoint s) :
    [s.executionTicketId, s.executionBaseHead, s.executionBranch, s.executionPath].all nonEmpty
      = true ∧ report.executionId ≠ "" := by
  have hbinding := h.binding
  simp only [reportMatchesExecutionBinding, Bool.and_eq_true, List.all_cons, List.all_nil,
    Bool.and_true] at hbinding ⊢
  obtain ⟨⟨⟨⟨⟨⟨⟨nid, nticket, ncontrol, nbranch, npath, nbase⟩, -⟩, -⟩, -⟩, -⟩, -⟩, -⟩ := hbinding
  rw [h.fields.1] at nid
  exact ⟨⟨nticket, nbase, nbranch, npath⟩, by simpa [nonEmpty] using nid⟩

/-- The workspace that a drop works on. -/
def dropWorkspace (report : ExecutionReport) (checkpoint : String) : ExecutionWorkspace :=
  ⟨report.ticketId, executionBranchOf report.ticketId, executionPathOf report.ticketId, checkpoint,
    report.codeBaseHead, false⟩

/-- A worktree that is there is the one of the checkpoint. -/
theorem Retiring.validateExisting (h : Retiring graph report checkpoint s w)
    (hpresent : w.Present report) :
    w.validateExisting report.ticketId report.codeBaseHead
      = .ok (dropWorkspace report checkpoint) := by
  have hhead : w.git.refs (Git.branchRef (executionBranchOf report.ticketId)) = some checkpoint := by
    rcases h.branch with hbranch | ⟨-, hgone⟩
    · exact h.bound.branch ▸ hbranch
    · have habsent := hgone.unregistered
      rw [hpresent.registered] at habsent
      cases habsent
  simp [Site.validateExisting, hpresent.registered, hpresent.directory, hhead, dropWorkspace]

theorem Retiring.dropWorkspaceFromState (h : Retiring graph report checkpoint s w) :
    w.dropWorkspaceFromState report = .ok (dropWorkspace report checkpoint) := by
  obtain ⟨-, hticket, hbranch, hpath, hbase⟩ := h.bound.fields
  obtain ⟨hnonempty, -⟩ := h.bound.bound_nonempty
  unfold Site.dropWorkspaceFromState
  rcases h.worktree with hpresent | ⟨hgone, -⟩
  · simp only [hticket, hbase, hbranch, hpath] at hnonempty ⊢
    simp [hnonempty, hpresent.registered, h.validateExisting hpresent]
  · simp only [hticket, hbase, hbranch, hpath] at hnonempty ⊢
    simp [hnonempty, hgone.unregistered, hgone.directory, hgone.detached, h.bound.workspaceHead,
      dropWorkspace]

omit [Project] [Sha256] in
theorem readDropDisposition_of_marked {kind : DispositionKind}
    (h : w.Marked report checkpoint kind) :
    w.readDropDisposition report.ticketId report.executionId
      = .ok (some ⟨report, checkpoint, kind⟩) := by
  unfold Marked at h
  simp [readDropDisposition, h]

/-- What the disposition ref of a drop under way says. -/
theorem Retiring.readDropDisposition (h : Retiring graph report checkpoint s w) :
    ∃ existing, w.readDropDisposition report.ticketId report.executionId = .ok existing
      ∧ (existing = none ∧ w.Present report
          ∧ w.executionRemoteHead report.executionBranch = some checkpoint
        ∨ existing = some ⟨report, checkpoint, .dropping⟩ ∧ w.Present report
          ∧ w.executionRemoteHead report.executionBranch = some checkpoint
        ∨ existing = some ⟨report, checkpoint, .dropped⟩) := by
  have hearly : ¬ w.Marked report checkpoint .dropped →
      w.Present report ∧ w.executionRemoteHead report.executionBranch = some checkpoint := by
    intro hnot
    have hremote : w.executionRemoteHead report.executionBranch = some checkpoint :=
      h.remote.resolve_right fun hgone => hnot hgone.2
    refine ⟨h.worktree.resolve_right ?_, hremote⟩
    rintro ⟨-, hnone⟩
    rw [hremote] at hnone
    cases hnone
  by_cases hdropped : w.Marked report checkpoint .dropped
  · exact ⟨_, readDropDisposition_of_marked hdropped, .inr (.inr rfl)⟩
  · obtain ⟨hpresent, hremote⟩ := hearly hdropped
    rcases h.disposition with hnone | hdropping | hdropped'
    · exact ⟨none, by simp [Site.readDropDisposition, hnone], .inl ⟨rfl, hpresent, hremote⟩⟩
    · exact ⟨_, readDropDisposition_of_marked hdropping, .inr (.inl ⟨rfl, hpresent, hremote⟩)⟩
    · exact absurd hdropped' hdropped

/-- A drop under way is not completed. -/
theorem Retiring.dropAlreadyCompleted (h : Retiring graph report checkpoint s w) :
    w.dropAlreadyCompleted report.ticketId report.executionId = .ok false := by
  obtain ⟨existing, hread, hcases⟩ := h.readDropDisposition
  obtain ⟨hid, -⟩ := h.bound.fields
  unfold Site.dropAlreadyCompleted
  rw [hread]
  rcases hcases with ⟨rfl, -⟩ | ⟨rfl, -⟩ | rfl
  · rfl
  · simp
  · have hevidence : w.git.refs (dropEvidenceRef report.ticketId report.executionId)
        = some checkpoint := by
      rcases h.disposition with hnone | hdropping | hdropped
      · simp [Site.readDropDisposition, hnone] at hread
      · simp [readDropDisposition_of_marked hdropping] at hread
      · exact h.pinned hdropped
    simp [hevidence, h.bound.phase, hid]

/-- The evidence of a drop under way is valid. -/
theorem Retiring.validateDropEvidence (h : Retiring graph report checkpoint s w)
    {existing : Option Disposition}
    (hread : w.readDropDisposition report.ticketId report.executionId = .ok existing) :
    w.validateDropEvidence graph report.ticketId report.executionId existing.isSome
      = .ok (report, dropWorkspace report checkpoint) := by
  have hpending : w.pendingReport = .ok report := by
    simp [pendingReport, h.bound.pending, Option.filter, h.bound.reportValid]
  have hworkspace : w.validateDropWorkspace graph report (dropWorkspace report checkpoint)
      checkpoint (w.state.executionStartHead.getD "") existing.isSome = .ok () := by
    unfold validateDropWorkspace
    rcases h.worktree with hpresent | ⟨hgone, hnone⟩
    · have hdirectory : w.git.directories (dropWorkspace report checkpoint).path = true :=
        hpresent.directory
      have hexact : checkpointCommitIsExact graph (dropWorkspace report checkpoint) checkpoint
          (w.state.executionStartHead.getD "") = true := by
        simp [checkpointCommitIsExact, h.bound.exact, dropWorkspace]
      rw [if_pos hdirectory, hexact]
      rfl
    · -- The worktree is gone, so the drop is recorded and its evidence is pinned.
      have hdirectory : w.git.directories (dropWorkspace report checkpoint).path = false :=
        hgone.directory
      have hdropped : w.Marked report checkpoint .dropped := by
        rcases h.remote with hremote | ⟨-, hdropped⟩
        · rw [hnone] at hremote
          cases hremote
        · exact hdropped
      have hevidence := h.pinned hdropped
      unfold dropEvidence at hevidence
      rw [readDropDisposition_of_marked hdropped] at hread
      cases hread
      simp [hdirectory, hevidence, require]
  -- likewise for the remote branch, which is deleted only once the drop is recorded
  have hremote : (w.executionRemoteHead report.executionBranch = some checkpoint
      ∨ existing.isSome = true ∧ w.executionRemoteHead report.executionBranch = none) := by
    rcases h.remote with hremote | ⟨hnone, hdropped⟩
    · exact .inl hremote
    · rw [readDropDisposition_of_marked hdropped] at hread
      cases hread
      exact .inr ⟨rfl, hnone⟩
  unfold Site.validateDropEvidence
  simp only [hpending, h.bound.binding, h.bound.workspaceHead, h.bound.start, hworkspace,
    h.dropWorkspaceFromState, bind, Except.bind, require, Option.getD_some]
  have hhead : (dropWorkspace report checkpoint).head = checkpoint := rfl
  simp [hhead, hremote, pure, Except.pure]

/-! ### The effects of a drop -/

omit [Sha256] in
theorem Present.of_eq {w' : Site} (h : w.Present report)
    (hworktrees : w'.git.worktrees = w.git.worktrees)
    (hdirectories : w'.git.directories = w.git.directories) : w'.Present report := by
  refine ⟨?_, ?_, ?_⟩
  · rw [hworktrees]
    exact h.registered
  · rw [hdirectories]
    exact h.directory
  · intro entry hentry
    rw [hworktrees] at hentry
    exact h.exclusive entry hentry

omit [Sha256] in
theorem Gone.of_eq {w' : Site} (h : w.Gone report)
    (hworktrees : w'.git.worktrees = w.git.worktrees)
    (hdirectories : w'.git.directories = w.git.directories) : w'.Gone report := by
  refine ⟨?_, ?_, ?_⟩
  · rw [hworktrees]
    exact h.unregistered
  · rw [hdirectories]
    exact h.directory
  · have hpath := h.detached
    unfold Git.Repository.pathOf at hpath ⊢
    rw [hworktrees]
    exact hpath

omit [Project] [Sha256] in
theorem marked_recordDisposition (report : ExecutionReport) (checkpoint : String)
    (kind : DispositionKind) (w : Site) :
    (w.recordDisposition ⟨report, checkpoint, kind⟩).Marked report checkpoint kind := by
  simp [Marked, recordDisposition]

omit [Project] [Sha256] in
theorem not_marked_recordDisposition {kind other : DispositionKind} (hne : other ≠ kind) :
    ¬ (w.recordDisposition ⟨report, checkpoint, kind⟩).Marked report checkpoint other := by
  intro h
  have hsame : DispositionBlob.payload ⟨report, checkpoint, kind⟩
      = .payload ⟨report, checkpoint, other⟩ := by
    simpa [Marked, recordDisposition] using h
  simp only [DispositionBlob.payload.injEq, Disposition.mk.injEq] at hsame
  exact hne hsame.2.2.symm

/-- The intent of a drop is recorded. -/
theorem Retiring.dropping (h : Retiring graph report checkpoint s w)
    (hnot : ¬ w.Marked report checkpoint .dropped) :
    Retiring graph report checkpoint s (w.recordDisposition ⟨report, checkpoint, .dropping⟩) := by
  have hremote := h.remote.resolve_right fun hgone => hnot hgone.2
  exact {
    state := h.state
    bound := h.bound
    plain := h.plain
    submodules := h.submodules
    disposition := .inr (.inl (marked_recordDisposition _ _ _ _))
    evidence := h.evidence
    pinned := fun hdropped => absurd hdropped (not_marked_recordDisposition (by decide))
    remote := .inl hremote
    worktree := h.worktree.imp (·.of_eq rfl rfl) fun hg => ⟨hg.1.of_eq rfl rfl, hg.2⟩
    branch := h.branch.imp id fun hb => ⟨hb.1, hb.2.of_eq rfl rfl⟩ }

/-- The disposition of a pinned checkpoint is recorded. -/
theorem Retiring.dropped (h : Retiring graph report checkpoint s w)
    (hevidence : w.dropEvidence report = some checkpoint) :
    Retiring graph report checkpoint s (w.recordDisposition ⟨report, checkpoint, .dropped⟩) where
  state := h.state
  bound := h.bound
  plain := h.plain
  submodules := h.submodules
  disposition := .inr (.inr (marked_recordDisposition _ _ _ _))
  evidence := h.evidence
  pinned := fun _ => hevidence
  remote := h.remote.imp id fun hr => ⟨hr.1, marked_recordDisposition _ _ _ _⟩
  worktree := h.worktree.imp (·.of_eq rfl rfl) fun hg => ⟨hg.1.of_eq rfl rfl, hg.2⟩
  branch := h.branch.imp id fun hb => ⟨hb.1, hb.2.of_eq rfl rfl⟩

/-- The checkpoint is pinned. -/
theorem Retiring.pin (h : Retiring graph report checkpoint s w) :
    Retiring graph report checkpoint s { w with
      git := w.git.updateRef (dropEvidenceRef report.ticketId report.executionId) checkpoint } := by
  have hne := branchRef_ne_dropEvidenceRef report.executionBranch report.ticketId report.executionId
  have hpinned : dropEvidence report { w with
      git := w.git.updateRef (dropEvidenceRef report.ticketId report.executionId) checkpoint }
      = some checkpoint := by
    simp [dropEvidence, Git.Repository.updateRef]
  exact {
    state := h.state
    bound := h.bound
    plain := h.plain
    submodules := h.submodules
    disposition := h.disposition
    evidence := .inr hpinned
    pinned := fun _ => hpinned
    remote := h.remote
    worktree := h.worktree.imp (·.of_eq rfl rfl) fun hg => ⟨hg.1.of_eq rfl rfl, hg.2⟩
    branch := by
      have hsame : Function.update w.git.refs
          (dropEvidenceRef report.ticketId report.executionId) (some checkpoint)
          (Git.branchRef report.executionBranch)
          = w.git.refs (Git.branchRef report.executionBranch) := Function.update_of_ne hne _ _
      simp only [Git.Repository.updateRef, hsame]
      exact h.branch.imp id fun hb => ⟨hb.1, hb.2.of_eq rfl rfl⟩ }

/-- The remote branch is deleted. -/
theorem Retiring.deleteRemote (h : Retiring graph report checkpoint s w)
    (hdropped : w.Marked report checkpoint .dropped) :
    Retiring graph report checkpoint s { w with
      git := w.git.deleteRemote report.executionBranch } := by
  have hnone : executionRemoteHead { w with git := w.git.deleteRemote report.executionBranch }
      report.executionBranch = none := by
    simp [executionRemoteHead, Git.Repository.deleteRemote]
  exact {
    state := h.state
    bound := h.bound
    plain := h.plain
    submodules := h.submodules
    disposition := h.disposition
    evidence := h.evidence
    pinned := h.pinned
    remote := .inr ⟨hnone, hdropped⟩
    worktree := h.worktree.imp (·.of_eq rfl rfl) fun hg => ⟨hg.1.of_eq rfl rfl, hnone⟩
    branch := h.branch.imp id fun hb => ⟨hb.1, hb.2.of_eq rfl rfl⟩ }

omit [Sha256] in
theorem Present.removeWorktree (h : w.Present report) :
    ({ w with git := w.git.removeWorktree (executionPathOf report.ticketId) } : Site).Gone
      report where
  unregistered := Dict.get_erase_self _ _
  directory := by simp [Git.Repository.removeWorktree]
  detached := Git.Repository.pathOf_removeWorktree h.exclusive

/-- The worktree is removed. -/
theorem Retiring.removeWorktree (h : Retiring graph report checkpoint s w)
    (hpresent : w.Present report)
    (hnone : w.executionRemoteHead report.executionBranch = none) :
    Retiring graph report checkpoint s { w with
      git := w.git.removeWorktree (executionPathOf report.ticketId) } where
  state := h.state
  bound := h.bound
  plain := h.plain
  submodules := h.submodules
  disposition := h.disposition
  evidence := h.evidence
  pinned := h.pinned
  remote := h.remote
  worktree := .inr ⟨hpresent.removeWorktree, hnone⟩
  branch := h.branch.imp id fun hb => ⟨hb.1, hpresent.removeWorktree⟩

/-- The local branch is deleted. -/
theorem Retiring.deleteBranch (h : Retiring graph report checkpoint s w) (hgone : w.Gone report) :
    Retiring graph report checkpoint s { w with
      git := w.git.deleteBranch report.executionBranch } := by
  have hne := branchRef_ne_dropEvidenceRef report.executionBranch report.ticketId report.executionId
  have hevidence : dropEvidence report { w with git := w.git.deleteBranch report.executionBranch }
      = w.dropEvidence report := by
    simp [dropEvidence, Git.Repository.deleteBranch, Function.update_of_ne hne.symm]
  have hgone' : ({ w with git := w.git.deleteBranch report.executionBranch } : Site).Gone report :=
    hgone.of_eq rfl rfl
  have hremote : w.executionRemoteHead report.executionBranch = none := by
    rcases h.worktree with hpresent | ⟨-, hnone⟩
    · have habsent := hgone.unregistered
      rw [hpresent.registered] at habsent
      cases habsent
    · exact hnone
  exact {
    state := h.state
    bound := h.bound
    plain := h.plain
    submodules := h.submodules
    disposition := h.disposition
    evidence := hevidence ▸ h.evidence
    pinned := fun hdropped => hevidence.trans (h.pinned hdropped)
    remote := h.remote
    worktree := .inr ⟨hgone', hremote⟩
    branch := .inr ⟨by simp [Git.Repository.deleteBranch], hgone'⟩ }

/-! ### The run of a drop -/

/-- No program here raises from a drop under way. -/
def Unreached (_ : String) (_ : Site) : Prop := False

theorem sat_persistDropIntent (h : Retiring graph report checkpoint s w) :
    Sat (Retiring graph report checkpoint s) (persistDropIntent report)
      (fun _ t => Retiring graph report checkpoint s t) Unreached w := by
  obtain ⟨existing, hread, hcases⟩ := h.readDropDisposition
  unfold persistDropIntent
  simp only [h.bound.workspaceHead]
  refine .bind (.ensure (fun _ => ?_) fun hempty => absurd h.bound.nonempty hempty)
  refine .bind (.observe hread ?_)
  rcases hcases with ⟨rfl, -, hremote⟩ | ⟨rfl, -⟩ | rfl
  · have hnot : ¬ w.Marked report checkpoint .dropped := by
      intro hdropped
      rw [readDropDisposition_of_marked hdropped] at hread
      cases hread
    exact .effect (h.dropping hnot) (h.dropping hnot)
  · exact .ensure (fun _ => h) fun hne => absurd (.inr rfl) hne
  · exact .ensure (fun _ => h) fun hne => absurd (.inl rfl) hne

theorem sat_pinCheckpoint (h : Retiring graph report checkpoint s w) :
    Sat (Retiring graph report checkpoint s) (pinCheckpoint report checkpoint)
      (fun _ t => Retiring graph report checkpoint s t ∧ t.dropEvidence report = some checkpoint)
      Unreached w := by
  unfold pinCheckpoint
  refine .bind (.get ?_)
  rcases h.evidence with hnone | hpinned
  · have hrefs : w.git.refs (dropEvidenceRef report.ticketId report.executionId) = none := hnone
    rw [hrefs]
    refine .effect h.pin ⟨h.pin, ?_⟩
    simp [dropEvidence, Git.Repository.updateRef]
  · have hrefs : w.git.refs (dropEvidenceRef report.ticketId report.executionId)
        = some checkpoint := hpinned
    rw [hrefs]
    exact .ensure (fun _ => ⟨h, hpinned⟩) fun hne => absurd rfl hne

theorem sat_pinDropEvidence (h : Retiring graph report checkpoint s w) :
    Sat (Retiring graph report checkpoint s) (pinDropEvidence report)
      (fun _ t => Retiring graph report checkpoint s t ∧ t.Marked report checkpoint .dropped)
      Unreached w := by
  unfold pinDropEvidence
  simp only [h.bound.workspaceHead]
  refine .bind (.ensure (fun _ => ?_) fun hempty => absurd h.bound.nonempty hempty)
  refine .bind ((sat_pinCheckpoint h).mono (fun _ => id) ?_ fun _ _ => id)
  rintro - t ⟨ht, hpinned⟩
  obtain ⟨existing, hread, hcases⟩ := ht.readDropDisposition
  refine .bind (.observe hread ?_)
  refine .bind (.ensure (fun _ => ?_) ?_)
  · exact .effect (ht.dropped hpinned) ⟨ht.dropped hpinned, marked_recordDisposition _ _ _ _⟩
  · intro hbad
    refine absurd ?_ hbad
    intro d hd hdropped
    rcases hcases with ⟨rfl, -⟩ | ⟨rfl, -⟩ | rfl
    · cases hd
    · cases hd
      cases hdropped
    · cases hd
      rfl

theorem sat_retireRemote (h : Retiring graph report checkpoint s w)
    (hdropped : w.Marked report checkpoint .dropped) :
    Sat (Retiring graph report checkpoint s) (retireRemote report.executionBranch checkpoint)
      (fun _ t => Retiring graph report checkpoint s t ∧ t.Marked report checkpoint .dropped
        ∧ t.executionRemoteHead report.executionBranch = none) Unreached w := by
  unfold retireRemote
  refine .bind (.get ?_)
  rcases h.remote with hremote | ⟨hnone, -⟩
  · rw [hremote]
    refine .bind (.ensure (fun _ => ?_) fun hne => absurd rfl hne)
    have hafter := h.deleteRemote hdropped
    refine .effect hafter ⟨hafter, hdropped, ?_⟩
    simp [executionRemoteHead, Git.Repository.deleteRemote]
  · rw [hnone]
    exact .pure ⟨h, hdropped, hnone⟩

/-- The worktree of a drop under way can be removed, unless it is gone. -/
theorem Retiring.retirable (h : Retiring graph report checkpoint s w) :
    w.Present report ∧ w.retirable (dropWorkspace report checkpoint) checkpoint = .ok true
      ∨ w.Gone report ∧ w.retirable (dropWorkspace report checkpoint) checkpoint = .ok false := by
  rcases h.worktree with hpresent | ⟨hgone, -⟩
  · refine .inl ⟨hpresent, ?_⟩
    have hexisting := h.validateExisting hpresent
    have hpath : ∀ other, w.git.pathOf (executionBranchOf report.ticketId) = some other →
        other = executionPathOf report.ticketId := by
      intro other hother
      obtain ⟨entry, hfind, rfl⟩ := Option.map_eq_some_iff.mp hother
      have hbranch := List.find?_some hfind
      exact hpresent.exclusive entry (List.mem_of_find?_eq_some hfind) (by simpa using hbranch)
    unfold Site.retirable
    simp only [dropWorkspace, h.plain, hpresent.registered] at hexisting ⊢
    cases hattached : w.git.pathOf (executionBranchOf report.ticketId) with
    | none => simp [hexisting, h.submodules, bind, Except.bind, pure, Except.pure]
    | some other =>
      simp [hpath other hattached, hexisting, h.submodules, bind, Except.bind, pure, Except.pure]
  · refine .inr ⟨hgone, ?_⟩
    unfold Site.retirable
    simp [dropWorkspace, h.plain, hgone.detached, hgone.unregistered, hgone.directory, pure,
      Except.pure]

theorem sat_retire (h : Retiring graph report checkpoint s w)
    (hdropped : w.Marked report checkpoint .dropped)
    (hnone : w.executionRemoteHead report.executionBranch = none) :
    Sat (Retiring graph report checkpoint s) (retire (dropWorkspace report checkpoint) checkpoint)
      (fun _ t => Retiring graph report checkpoint s t ∧ t.Marked report checkpoint .dropped
        ∧ t.executionRemoteHead report.executionBranch = none ∧ t.Gone report) Unreached w := by
  unfold retire
  rcases h.retirable with ⟨hpresent, hok⟩ | ⟨hgone, hok⟩
  · refine .bind (.observe hok ?_)
    have hafter := h.removeWorktree hpresent hnone
    exact .effect hafter ⟨hafter, hdropped, hnone, hpresent.removeWorktree⟩
  · refine .bind (.observe hok ?_)
    exact .pure ⟨h, hdropped, hnone, hgone⟩

theorem sat_retireBranch (h : Retiring graph report checkpoint s w)
    (hdropped : w.Marked report checkpoint .dropped)
    (hnone : w.executionRemoteHead report.executionBranch = none) (hgone : w.Gone report) :
    Sat (Retiring graph report checkpoint s) (retireBranch report.executionBranch checkpoint)
      (fun _ t => Retiring graph report checkpoint s t ∧ t.Marked report checkpoint .dropped
        ∧ t.executionRemoteHead report.executionBranch = none ∧ t.Gone report
        ∧ t.git.refs (Git.branchRef report.executionBranch) = none) Unreached w := by
  unfold retireBranch
  refine .bind (.get ?_)
  rcases h.branch with hbranch | ⟨hbranch, -⟩
  · rw [hbranch]
    refine .bind (.ensure (fun _ => ?_) fun hne => absurd rfl hne)
    have hafter := h.deleteBranch hgone
    refine .effect hafter ⟨hafter, hdropped, hnone, hgone.of_eq rfl rfl, ?_⟩
    simp [Git.Repository.deleteBranch]
  · rw [hbranch]
    exact .pure ⟨h, hdropped, hnone, hgone, hbranch⟩

theorem sat_retireDropWorkspace (h : Retiring graph report checkpoint s w)
    (hdropped : w.Marked report checkpoint .dropped) :
    Sat (Retiring graph report checkpoint s)
      (retireDropWorkspace report (dropWorkspace report checkpoint))
      (fun _ t => Retiring graph report checkpoint s t ∧ t.Marked report checkpoint .dropped
        ∧ t.executionRemoteHead report.executionBranch = none ∧ t.Gone report
        ∧ t.git.refs (Git.branchRef report.executionBranch) = none) Unreached w := by
  unfold retireDropWorkspace
  simp only [h.bound.workspaceHead]
  refine .bind ((sat_retireRemote h hdropped).mono (fun _ => id) ?_ fun _ _ => id)
  rintro - t ⟨ht, htdropped, htnone⟩
  refine .bind ((sat_retire ht htdropped htnone).mono (fun _ => id) ?_ fun _ _ => id)
  rintro - u ⟨hu, hudropped, hunone, hugone⟩
  exact sat_retireBranch hu hudropped hunone hugone

/-- The idle state after a drop is valid. -/
theorem DropBinding.drop_valid (h : DropBinding graph report checkpoint s) :
    validateStateInvariant (Call.drop.payload s) = .ok () := by
  have hvalid := h.valid
  simp only [validateStateInvariant, andThen_eq_ok, h.phase] at hvalid ⊢
  obtain ⟨hr, ha, hl, -, hm, -, hna, hi, -⟩ := hvalid
  refine ⟨hr, ha, hl, rfl, hm, rfl, ?_, hi, rfl⟩
  rw [require_eq_ok]
  show (s.acceptedIntegration.isNone || true) = true
  simp

/-- **One run of a drop.** From a drop under way it returns, dropped, and on the way the drop is
    always under way or dropped. -/
theorem sat_dropOwned (h : Retiring graph report checkpoint s w) :
    Sat (fun t => Retiring graph report checkpoint s t ∨ Dropped report checkpoint t)
      (dropOwned graph report.ticketId report.executionId)
      (fun _ t => Dropped report checkpoint t ∧ t.state = Call.drop.payload s) Unreached w := by
  obtain ⟨existing, hread, -⟩ := h.readDropDisposition
  unfold dropOwned
  refine .bind (.ensure (fun _ => ?_) fun hempty => absurd h.bound.bound_nonempty.2 hempty)
  refine .bind (.observe h.dropAlreadyCompleted ?_)
  refine .bind (.observe hread ?_)
  refine .bind (.observe (h.validateDropEvidence hread) ?_)
  refine .bind ((sat_persistDropIntent h).mono (fun _ => .inl) ?_ fun _ _ => id)
  intro _ t ht
  refine .bind ((sat_pinDropEvidence ht).mono (fun _ => .inl) ?_ fun _ _ => id)
  rintro - u ⟨hu, hdropped⟩
  refine .bind ((sat_retireDropWorkspace hu hdropped).mono (fun _ => .inl) ?_ fun _ _ => id)
  rintro - v ⟨hv, hvdropped, hvnone, hvgone, hvbranch⟩
  have hfinal : Dropped report checkpoint { v with state := Call.drop.payload v.state } :=
    ⟨hvdropped, hv.pinned hvdropped, hvnone, hvgone.of_eq rfl rfl, hvbranch, rfl, rfl, rfl, rfl,
      rfl, rfl, rfl, rfl, rfl⟩
  exact sat_save hv.bound.drop_valid (.inr hfinal) ⟨hfinal, by rw [hv.state]⟩

omit [Sha256] in
/-- A drop that has ended is completed. -/
theorem Dropped.dropAlreadyCompleted (h : Dropped report checkpoint w) :
    w.dropAlreadyCompleted report.ticketId report.executionId = .ok true := by
  have hevidence : w.git.refs (dropEvidenceRef report.ticketId report.executionId)
      = some checkpoint := h.evidence
  unfold Site.dropAlreadyCompleted
  rw [readDropDisposition_of_marked h.disposition]
  simp [hevidence, h.idle]

/-- A drop that has ended is left alone. -/
theorem Dropped.dropOwned (h : Dropped report checkpoint w) (hid : report.executionId ≠ "") :
    Site.dropOwned graph report.ticketId report.executionId w = ⟨[], .ok ()⟩ := by
  unfold Site.dropOwned
  rw [Program.ensure_bind hid, Program.observe_bind h.dropAlreadyCompleted]
  rfl

/-- Neither the operator nor the scheduler changes anything about a drop that has ended. -/
theorem Dropped.submitDrop (h : Dropped report checkpoint w) (hid : report.executionId ≠ "") :
    Site.submitDrop graph report.ticketId report.executionId w = ⟨[], .ok ()⟩ := by
  have hadmitted : w.validateDropAdmission graph report.ticketId report.executionId = .ok () := by
    unfold validateDropAdmission
    simp [hid, h.dropAlreadyCompleted, require, bind, Except.bind, pure, Except.pure]
  unfold Site.submitDrop
  rw [Program.observe_bind hadmitted]
  exact h.dropOwned hid

theorem Dropped.recoverDropped (h : Dropped report checkpoint w) :
    Site.recoverDropped graph w = ⟨[], .ok ()⟩ := by
  unfold Site.recoverDropped
  rw [Program.get_bind, h.idle]
  rfl

/-- A drop under way is admitted again. -/
theorem Retiring.validateDropAdmission (h : Retiring graph report checkpoint s w) :
    w.validateDropAdmission graph report.ticketId report.executionId = .ok () := by
  obtain ⟨existing, hread, -⟩ := h.readDropDisposition
  obtain ⟨hid, hticket, -⟩ := h.bound.fields
  obtain ⟨-, hnonempty⟩ := h.bound.bound_nonempty
  have hvalid := h.bound.valid
  simp only [validateStateInvariant, andThen_eq_ok, require_eq_ok, h.bound.phase] at hvalid
  have haccepted : w.state.acceptedIntegration.isNone = true := by simpa using hvalid.2.2.2.2.2.2.1
  have hreconciliation := h.bound.reconciliation
  unfold Site.validateDropAdmission
  simp only [hread, h.dropAlreadyCompleted, h.validateDropEvidence hread, h.bound.phase, hticket,
    hid, h.bound.stage, h.bound.worker, haccepted, hreconciliation, require, bind, Except.bind,
    pure, Except.pure]
  simp [hnonempty]

/-! ### Executions that can be dropped -/

/-- An execution that the operator's drop is admitted for, before anything is done about it.  Git
    checks a branch out in one worktree only. -/
structure Droppable (graph : Git.CommitGraph) (report : ExecutionReport) (checkpoint : String)
    (w : Site) : Prop where
  admitted : w.validateDropAdmission graph report.ticketId report.executionId = .ok ()
  pending : w.state.pendingExecutionReport = some report
  workspaceHead : report.workspaceHead = some checkpoint
  nonempty : checkpoint ≠ ""
  valid : validateStateInvariant w.state = .ok ()
  unmarked : w.dispositions (dropDispositionRef report.ticketId report.executionId) = none
  exclusive : w.git.Exclusive (executionBranchOf report.ticketId) (executionPathOf report.ticketId)

/-- What a drop needs and its admission does not check: no symbolic link on the way to the worktree,
    the submodules that the checkpoint records, and no other commit under the evidence ref. -/
structure Endable (report : ExecutionReport) (checkpoint : String) (w : Site) : Prop where
  plain : w.symlinked = false
  submodules : w.submodules checkpoint = .ok ()
  evidence : w.dropEvidence report = none ∨ w.dropEvidence report = some checkpoint

/-- What the admission of a drop has checked. -/
theorem Droppable.checked (h : Droppable graph report checkpoint w) :
    w.state.phase = .agentRunning ∧ w.state.executionTicketId = some report.ticketId
      ∧ w.state.executionStage = some .lifecycle ∧ w.state.workerIdentity = none
      ∧ w.state.reconciliation.all (·.status ≠ .pending) = true
      ∧ ∃ found, w.validateDropEvidence graph report.ticketId report.executionId false
        = .ok found := by
  have hread : w.readDropDisposition report.ticketId report.executionId = .ok none := by
    simp [Site.readDropDisposition, h.unmarked]
  have hcompleted : w.dropAlreadyCompleted report.ticketId report.executionId = .ok false := by
    simp [Site.dropAlreadyCompleted, hread]
  have hadmitted := h.admitted
  unfold Site.validateDropAdmission at hadmitted
  rw [require_bind_eq_ok, bind_eq_ok] at hadmitted
  obtain ⟨-, done, hdone, hrest⟩ := hadmitted
  rw [hcompleted] at hdone
  cases hdone
  simp only [Bool.false_eq_true, if_false, require_bind_eq_ok, hread, decide_eq_true_eq,
    Option.isNone_iff_eq_none] at hrest
  obtain ⟨hphase, hticket, -, hstage, hworker, hquiet, hfound⟩ := hrest
  obtain ⟨existing, hexisting, hfound⟩ := bind_eq_ok.mp hfound
  cases hexisting
  obtain ⟨found, hfound, -⟩ := bind_eq_ok.mp hfound
  exact ⟨hphase, hticket, hstage, hworker, hquiet.1, found, hfound⟩

/-- What the evidence of a drop that has not begun shows. -/
theorem Droppable.shown (h : Droppable graph report checkpoint w) :
    report.valid = true ∧ reportMatchesExecutionBinding report w.state = true
      ∧ nonEmpty w.state.executionStartHead = true
      ∧ w.executionRemoteHead report.executionBranch = some checkpoint
      ∧ ∃ workspace, w.validateDropEvidence graph report.ticketId report.executionId false
          = .ok (report, workspace)
        ∧ w.dropWorkspaceFromState report = .ok workspace
        ∧ workspace.head = checkpoint ∧ w.git.directories workspace.path = true
        ∧ checkpointCommitIsExact graph workspace checkpoint
          (w.state.executionStartHead.getD "") = true := by
  obtain ⟨-, -, -, -, -, found, hvalidated⟩ := h.checked
  have hfound := hvalidated
  obtain ⟨shown, hshown, hfound⟩ := bind_eq_ok.mp hfound
  have hpending : report = shown ∧ report.valid = true := by
    unfold pendingReport at hshown
    rw [h.pending] at hshown
    cases hvalid : report.valid with
    | true => simpa [Option.filter, hvalid] using hshown
    | false => simp [Option.filter, hvalid] at hshown
  obtain ⟨rfl, hvalid⟩ := hpending
  simp only [require_bind_eq_ok, h.workspaceHead, Option.getD_some, decide_eq_true_eq] at hfound
  obtain ⟨-, hbinding, -, hfound⟩ := hfound
  obtain ⟨workspace, hworkspace, hfound⟩ := bind_eq_ok.mp hfound
  simp only [require_bind_eq_ok, decide_eq_true_eq] at hfound
  obtain ⟨hhead, hstart, hfound⟩ := hfound
  obtain ⟨⟨⟩, hexact, hfound⟩ := bind_eq_ok.mp hfound
  simp only [require_bind_eq_ok, decide_eq_true_eq, Bool.false_eq_true, false_and, or_false]
    at hfound
  have hworktree : w.git.directories workspace.path = true
      ∧ checkpointCommitIsExact graph workspace checkpoint
        (w.state.executionStartHead.getD "") = true := by
    unfold validateDropWorkspace at hexact
    by_cases hdirectory : w.git.directories workspace.path = true
    · rw [if_pos hdirectory, require_eq_ok] at hexact
      exact ⟨hdirectory, hexact⟩
    · rw [if_neg hdirectory] at hexact
      cases hexact
  have hsame : found = (report, workspace) := (Except.ok.inj hfound.2).symm
  exact ⟨hvalid, hbinding, hstart, hfound.1, workspace, hsame ▸ hvalidated, hworkspace, hhead,
    hworktree.1, hworktree.2⟩

/-- The workspace of a droppable execution is there. -/
theorem Droppable.workspace (h : Droppable graph report checkpoint w) :
    w.state.executionBranch = some (executionBranchOf report.ticketId)
      ∧ w.state.executionPath = some (executionPathOf report.ticketId)
      ∧ w.git.worktrees.get (executionPathOf report.ticketId)
        = some ⟨executionBranchOf report.ticketId, false⟩
      ∧ w.git.directories (executionPathOf report.ticketId) = true
      ∧ w.git.refs (Git.branchRef (executionBranchOf report.ticketId)) = some checkpoint
      ∧ graph.lineage (w.state.executionStartHead.getD "") checkpoint = some [checkpoint] := by
  obtain ⟨-, hticket, -⟩ := h.checked
  obtain ⟨-, -, -, -, workspace, -, hworkspace, hhead, hdirectory, hexact⟩ := h.shown
  simp only [checkpointCommitIsExact, Bool.and_eq_true, decide_eq_true_eq,
    Bool.not_eq_eq_eq_not, Bool.not_true] at hexact
  unfold Site.dropWorkspaceFromState at hworkspace
  rw [hticket] at hworkspace
  split at hworkspace
  · rename_i ticketId baseHead hid hbase
    cases hid
    split at hworkspace
    · cases hworkspace
    · split at hworkspace
      · cases hworkspace
      · rename_i hbound
        rw [not_or, not_not, not_not] at hbound
        split at hworkspace
        · obtain ⟨head, dirty, hregistered, hthere, hrefs, rfl⟩ := validateExisting_eq_ok.mp hworkspace
          have hclean : dirty = false := hexact.2
          exact ⟨hbound.1, hbound.2, hclean ▸ hregistered, hthere, hhead ▸ hrefs, hexact.1⟩
        · split at hworkspace
          · cases hworkspace
          · rename_i habsent
            cases hworkspace
            rw [not_or] at habsent
            exact absurd hdirectory habsent.2
  · cases hworkspace

/-- The durable state binds an execution that can be dropped. -/
theorem Droppable.bound (h : Droppable graph report checkpoint w) :
    DropBinding graph report checkpoint w.state := by
  obtain ⟨hphase, -, hstage, hworker, hquiet, -⟩ := h.checked
  obtain ⟨hreport, hbinding, hstart, -⟩ := h.shown
  obtain ⟨hbranch, hpath, -, -, -, hexact⟩ := h.workspace
  have hbranches : report.executionBranch = executionBranchOf report.ticketId
      ∧ report.executionPath = executionPathOf report.ticketId := by
    have hfields := hbinding
    simp only [reportMatchesExecutionBinding, Bool.and_eq_true, beq_iff_eq, hbranch, hpath,
      Option.some.injEq] at hfields
    exact ⟨hfields.1.1.2.symm, hfields.1.2.symm⟩
  exact ⟨h.valid, hphase, hstage, hworker, hquiet, h.pending, hreport, hbinding, hbranches.1,
    hbranches.2, h.workspaceHead, h.nonempty, hstart, hexact⟩

/-- An execution that can be dropped is where a drop starts. -/
theorem Droppable.retiring (h : Droppable graph report checkpoint w)
    (hend : Endable report checkpoint w) : Retiring graph report checkpoint w.state w := by
  obtain ⟨-, -, -, hremote, -⟩ := h.shown
  obtain ⟨-, -, hregistered, hthere, hrefs, -⟩ := h.workspace
  exact {
    state := rfl
    bound := h.bound
    plain := hend.plain
    submodules := hend.submodules
    disposition := .inl h.unmarked
    evidence := hend.evidence
    pinned := by
      intro hdropped
      unfold Marked at hdropped
      rw [h.unmarked] at hdropped
      cases hdropped
    remote := .inl hremote
    worktree := .inl ⟨hregistered, hthere, h.exclusive⟩
    branch := .inl (h.bound.branch ▸ hrefs) }

/-! ### Interrupted drops -/

/-- How a drop is run: as an operator submits it, or by the scheduler. -/
inductive DropRun where
  | submitted
  | scheduled
  deriving DecidableEq, Repr

/-- The run of a drop. -/
def DropRun.program (graph : Git.CommitGraph) (report : ExecutionReport) :
    DropRun → Site.Program Unit
  | .submitted => submitDrop graph report.ticketId report.executionId
  | .scheduled => Site.recoverDropped graph

/-- Nothing of the execution is gone unless its checkpoint is pinned and the disposition is
    recorded. -/
def EvidenceFirst (report : ExecutionReport) (checkpoint : String) (w : Site) : Prop :=
  w.executionRemoteHead report.executionBranch = none
      ∨ w.git.refs (Git.branchRef report.executionBranch) = none
      ∨ w.git.worktrees.get (executionPathOf report.ticketId) = none →
    w.dropEvidence report = some checkpoint ∧ w.Marked report checkpoint .dropped

theorem Retiring.evidenceFirst (h : Retiring graph report checkpoint s w) :
    EvidenceFirst report checkpoint w := by
  have hremote : w.executionRemoteHead report.executionBranch = none →
      w.Marked report checkpoint .dropped := by
    intro hnone
    rcases h.remote with hsome | ⟨-, hdropped⟩
    · rw [hnone] at hsome
      cases hsome
    · exact hdropped
  have hgone : w.Gone report → w.executionRemoteHead report.executionBranch = none := by
    intro hgone
    rcases h.worktree with hpresent | ⟨-, hnone⟩
    · have habsent := hgone.unregistered
      rw [hpresent.registered] at habsent
      cases habsent
    · exact hnone
  intro hany
  have hdropped : w.Marked report checkpoint .dropped := by
    rcases hany with hnone | hnone | hnone
    · exact hremote hnone
    · rcases h.branch with hsome | ⟨-, hworktree⟩
      · rw [hnone] at hsome
        cases hsome
      · exact hremote (hgone hworktree)
    · rcases h.worktree with hpresent | ⟨-, hremoteNone⟩
      · rw [hpresent.registered] at hnone
        cases hnone
      · exact hremote hremoteNone
  exact ⟨h.pinned hdropped, hdropped⟩

/-- A run of a drop under way: submitted, it ends the drop; scheduled, it does so once the
    disposition is recorded, and otherwise it does nothing here. -/
theorem sat_program (h : Retiring graph report checkpoint s w) (run : DropRun) :
    Sat (fun t => Retiring graph report checkpoint s t ∨ Dropped report checkpoint t)
      (run.program graph report)
      (fun _ t => Dropped report checkpoint t ∧ t.state = Call.drop.payload s
        ∨ t = w ∧ run = .scheduled
          ∧ w.dispositions (dropDispositionRef report.ticketId report.executionId) = none)
      Unreached w := by
  cases run with
  | submitted =>
    refine .bind (.observe h.validateDropAdmission ?_)
    exact (sat_dropOwned h).mono (fun _ => id) (fun _ _ => .inl) fun _ _ => id
  | scheduled =>
    obtain ⟨existing, hread, hcases⟩ := h.readDropDisposition
    obtain ⟨hid, hticket, -⟩ := h.bound.fields
    unfold DropRun.program Site.recoverDropped
    refine .bind (.get ?_)
    rw [h.bound.phase, h.bound.stage, h.bound.worker, hticket, hid]
    refine .bind (.observe hread ?_)
    rcases hcases with ⟨rfl, -⟩ | ⟨rfl, -⟩ | rfl
    · refine .pure (.inr ⟨rfl, rfl, ?_⟩)
      rcases h.disposition with hnone | hdropping | hdropped
      · exact hnone
      · simp [readDropDisposition_of_marked hdropping] at hread
      · simp [readDropDisposition_of_marked hdropped] at hread
    · exact (sat_dropOwned h).mono (fun _ => id) (fun _ _ => .inl) fun _ _ => id
    · exact (sat_dropOwned h).mono (fun _ => id) (fun _ _ => .inl) fun _ _ => id

theorem Dropped.program (h : Dropped report checkpoint w) (hid : report.executionId ≠ "")
    (run : DropRun) : run.program graph report w = ⟨[], .ok ()⟩ := by
  cases run with
  | submitted => exact h.submitDrop hid
  | scheduled => exact h.recoverDropped

/-- Whatever runs were killed, the drop is under way or it has ended. -/
theorem Droppable.interrupted {w' : Site} (h : Droppable graph report checkpoint w)
    (hend : Endable report checkpoint w)
    (hruns : Interrupted (fun _ _ => True) (DropRun.program graph report) w w') :
    Retiring graph report checkpoint w.state w' ∨ Dropped report checkpoint w' := by
  have hid : report.executionId ≠ "" := h.bound.bound_nonempty.2
  refine hruns.invariant
    (I := fun t => Retiring graph report checkpoint w.state t ∨ Dropped report checkpoint t)
    (.inl (h.retiring hend)) ?_
  rintro run t (hretiring | hdropped) - u hu
  · exact (sat_program hretiring run).1 u hu
  · rw [hdropped.program hid] at hu
    cases hu

/-- Take any runs of the drop, submitted or scheduled, each killed after any of its effects.  Nothing
    of the execution is gone unless its checkpoint is pinned and the disposition is recorded; the next
    run ends the drop, the scheduler's as soon as the disposition is recorded; and further runs change
    nothing. -/
def Restartable (graph : Git.CommitGraph) (report : ExecutionReport) (checkpoint : String)
    (w : Site) : Prop :=
  ∀ w', Interrupted (fun _ _ => True) (DropRun.program graph report) w w' →
    EvidenceFirst report checkpoint w'
      ∧ ∀ run : DropRun, (run = .scheduled →
          w'.dispositions (dropDispositionRef report.ticketId report.executionId) ≠ none) →
        ∃ after, (run.program graph report w').result = .ok ()
          ∧ (run.program graph report w').last w' = after ∧ Dropped report checkpoint after
          ∧ ∀ again : DropRun, again.program graph report after = ⟨[], .ok ()⟩

theorem Droppable.restartable (h : Droppable graph report checkpoint w)
    (hend : Endable report checkpoint w) : Restartable graph report checkpoint w := by
  intro w' hruns
  have hid : report.executionId ≠ "" := h.bound.bound_nonempty.2
  rcases h.interrupted hend hruns with hretiring | hdropped
  · refine ⟨hretiring.evidenceFirst, ?_⟩
    intro run hmarked
    obtain ⟨⟨⟩, hok, hfinal⟩ := (sat_program hretiring run).returns
    rcases hfinal with ⟨hdropped, -⟩ | ⟨-, hscheduled, hnone⟩
    · exact ⟨_, hok, rfl, hdropped, hdropped.program hid⟩
    · exact absurd hnone (hmarked hscheduled)
  · refine ⟨fun _ => ⟨hdropped.evidence, hdropped.disposition⟩, ?_⟩
    intro run _
    rw [hdropped.program hid]
    exact ⟨w', rfl, rfl, hdropped, hdropped.program hid⟩

/-! ### What a drop that returns has found -/

/-- The worktrees, and what is known about them, are as they were. -/
def SameWorktrees (w t : Site) : Prop :=
  t.symlinked = w.symlinked ∧ t.submodules = w.submodules ∧ t.git.worktrees = w.git.worktrees

omit [Project] [Sha256] in
theorem SameWorktrees.refl (w : Site) : SameWorktrees w w := ⟨rfl, rfl, rfl⟩

omit [Project] [Sha256] in
theorem SameWorktrees.trans {w t u : Site} (h : SameWorktrees w t) (h' : SameWorktrees t u) :
    SameWorktrees w u :=
  ⟨h'.1.trans h.1, h'.2.1.trans h.2.1, h'.2.2.trans h.2.2⟩

omit [Project] [Sha256] in
/-- The intent of a drop is a disposition. -/
theorem stays_persistDropIntent :
    Stays (fun w t => SameWorktrees w t ∧ t.git = w.git) (persistDropIntent report) w := by
  have hrefl : ∀ w : Site, SameWorktrees w w ∧ w.git = w.git := fun w => ⟨.refl w, rfl⟩
  have htrans : ∀ {s t u : Site}, SameWorktrees s t ∧ t.git = s.git →
      SameWorktrees t u ∧ u.git = t.git → SameWorktrees s u ∧ u.git = s.git :=
    fun h h' => ⟨h.1.trans h'.1, h'.2.trans h.2⟩
  unfold persistDropIntent
  split
  · exact .of_raise hrefl
  refine .bind htrans (.of_ensure hrefl) fun _ t _ => ?_
  refine .bind htrans (.of_observe hrefl) fun existing u _ => ?_
  cases existing with
  | none => exact .of_effect ⟨⟨rfl, rfl, rfl⟩, rfl⟩
  | some d => exact .of_ensure hrefl

omit [Project] [Sha256] in
theorem stays_pinCheckpoint : Stays SameWorktrees (pinCheckpoint report checkpoint) w := by
  unfold pinCheckpoint
  refine .bind .trans (.of_get .refl) fun u t _ => ?_
  split
  · exact .of_ensure .refl
  · exact .of_effect ⟨rfl, rfl, rfl⟩

omit [Project] [Sha256] in
theorem stays_pinDropEvidence : Stays SameWorktrees (pinDropEvidence report) w := by
  unfold pinDropEvidence
  split
  · exact .of_raise .refl
  refine .bind .trans (.of_ensure .refl) fun _ t _ => ?_
  refine .bind .trans stays_pinCheckpoint fun _ u _ => ?_
  refine .bind .trans (.of_observe .refl) fun existing v _ => ?_
  refine .bind .trans (.of_ensure .refl) fun _ x _ => ?_
  exact .of_effect ⟨rfl, rfl, rfl⟩

omit [Project] [Sha256] in
theorem stays_retireRemote {branch : String} :
    Stays SameWorktrees (retireRemote branch checkpoint) w := by
  unfold retireRemote
  refine .bind .trans (.of_get .refl) fun u t _ => ?_
  split
  · exact .of_pure .refl
  refine .bind .trans (.of_ensure .refl) fun _ v _ => ?_
  exact .of_effect ⟨rfl, rfl, rfl⟩

omit [Project] [Sha256] in
/-- The evidence of a drop is pinned only where no other commit is. -/
theorem evidence_of_runs {t : Site} (hworkspace : report.workspaceHead = some checkpoint)
    (h : Runs (pinDropEvidence report) w () t) :
    w.dropEvidence report = none ∨ w.dropEvidence report = some checkpoint := by
  unfold pinDropEvidence at h
  simp only [hworkspace] at h
  obtain ⟨⟨⟩, u, hensure, h⟩ := runs_bind.mp h
  obtain ⟨-, rfl⟩ := runs_ensure.mp hensure
  obtain ⟨⟨⟩, v, hpin, -⟩ := runs_bind.mp h
  unfold pinCheckpoint at hpin
  obtain ⟨found, x, hget, hpin⟩ := runs_bind.mp hpin
  obtain ⟨rfl, rfl⟩ := runs_get.mp hget
  unfold dropEvidence
  split at hpin
  · rename_i observed hobserved
    obtain ⟨rfl, -⟩ := runs_ensure.mp hpin
    exact .inr hobserved
  · rename_i hnone
    exact .inl hnone

omit [Sha256] in
/-- A worktree that is there is removed only behind no link, with the submodules of its HEAD. -/
theorem endable_of_retirable {workspace : ExecutionWorkspace} {removes : Bool}
    (h : w.retirable workspace checkpoint = .ok removes)
    (hregistered : w.git.worktrees.get (executionPathOf workspace.ticketId) ≠ none) :
    w.symlinked = false ∧ w.submodules checkpoint = .ok () := by
  unfold Site.retirable at h
  obtain ⟨entry, hentry⟩ := Option.ne_none_iff_exists'.mp hregistered
  have hafter : ∀ {validated : ExecutionWorkspace},
      (do
        if validated.head ≠ checkpoint ∨ validated.dirty then
          throw "execution worktree changed before removal"
        w.submodules validated.head
        return true : Except String Bool) = .ok removes → w.submodules checkpoint = .ok () := by
    intro validated hvalidated
    split_ifs at hvalidated with hchanged
    · cases hvalidated
    · rw [not_or, not_not] at hchanged
      obtain ⟨⟨⟩, hsubmodules, -⟩ := bind_eq_ok.mp hvalidated
      rw [hchanged.1] at hsubmodules
      exact hsubmodules
  by_cases hbranch : workspace.branch ≠ executionBranchOf workspace.ticketId
  · rw [if_pos hbranch] at h
    cases h
  rw [if_neg hbranch] at h
  by_cases hshown : workspace.path ≠ executionPathOf workspace.ticketId
      ∨ workspace.head ≠ checkpoint
  · rw [if_pos hshown] at h
    cases h
  rw [if_neg hshown] at h
  by_cases hdirty : workspace.dirty = true
  · rw [if_pos hdirty] at h
    cases h
  rw [if_neg hdirty] at h
  by_cases hplain : w.symlinked = true
  · rw [if_pos hplain] at h
    cases h
  rw [if_neg hplain] at h
  refine ⟨by simpa using hplain, ?_⟩
  -- the branch is checked out here, or nowhere
  cases hattached : w.git.pathOf workspace.branch with
  | none =>
    simp only [hentry, hattached] at h
    obtain ⟨validated, -, hvalidated⟩ := bind_eq_ok.mp h
    exact hafter hvalidated
  | some other =>
    simp only [hentry, hattached] at h
    split at h
    · cases h
    · obtain ⟨validated, -, hvalidated⟩ := bind_eq_ok.mp h
      exact hafter hvalidated

omit [Sha256] in
/-- The workspace that a drop finds is the ticket's. -/
theorem ticketId_of_dropWorkspaceFromState {workspace : ExecutionWorkspace}
    (hticket : w.state.executionTicketId = some report.ticketId)
    (h : w.dropWorkspaceFromState report = .ok workspace) : workspace.ticketId = report.ticketId := by
  unfold Site.dropWorkspaceFromState at h
  rw [hticket] at h
  split at h
  · rename_i ticketId baseHead hid hbase
    obtain rfl := Option.some.inj hid
    split at h
    · cases h
    · split at h
      · cases h
      · split at h
        · obtain ⟨head, dirty, -, -, -, rfl⟩ := validateExisting_eq_ok.mp h
          rfl
        · split at h
          · cases h
          · cases h
            rfl
  · cases h

/-- **A drop that returns.** What it needs was there. -/
theorem Droppable.endable_of_runs {t : Site} (h : Droppable graph report checkpoint w)
    (hruns : Runs (submitDrop graph report.ticketId report.executionId) w () t) :
    Endable report checkpoint w := by
  obtain ⟨-, -, -, -, workspace, hfound, hworkspace, -⟩ := h.shown
  obtain ⟨-, -, hregistered, -⟩ := h.workspace
  have hread : w.readDropDisposition report.ticketId report.executionId = .ok none := by
    simp [Site.readDropDisposition, h.unmarked]
  have hcompleted : w.dropAlreadyCompleted report.ticketId report.executionId = .ok false := by
    simp [Site.dropAlreadyCompleted, hread]
  have hticket : workspace.ticketId = report.ticketId :=
    ticketId_of_dropWorkspaceFromState h.checked.2.1 hworkspace
  unfold submitDrop at hruns
  obtain ⟨⟨⟩, u, hadmitted, hruns⟩ := runs_bind.mp hruns
  obtain ⟨-, rfl⟩ := runs_observe.mp hadmitted
  unfold dropOwned at hruns
  obtain ⟨⟨⟩, u, hensure, hruns⟩ := runs_bind.mp hruns
  obtain ⟨-, rfl⟩ := runs_ensure.mp hensure
  obtain ⟨completed, u, hobserve, hruns⟩ := runs_bind.mp hruns
  obtain ⟨hdone, rfl⟩ := runs_observe.mp hobserve
  obtain rfl : completed = false := Except.ok.inj (hdone.symm.trans hcompleted)
  obtain ⟨existing, u, hobserve, hruns⟩ := runs_bind.mp hruns
  obtain ⟨hexisting, rfl⟩ := runs_observe.mp hobserve
  obtain rfl : existing = none := Except.ok.inj (hexisting.symm.trans hread)
  obtain ⟨found, u, hobserve, hruns⟩ := runs_bind.mp hruns
  obtain ⟨hshown, rfl⟩ := runs_observe.mp hobserve
  obtain rfl : found = (report, workspace) := Except.ok.inj (hshown.symm.trans hfound)
  -- the intent, the evidence and the remote branch leave the worktree alone
  obtain ⟨⟨⟩, u, hintent, hruns⟩ := runs_bind.mp hruns
  obtain ⟨⟨⟩, v, hpin, hruns⟩ := runs_bind.mp hruns
  obtain ⟨⟨⟩, x, hretire, -⟩ := runs_bind.mp hruns
  unfold retireDropWorkspace at hretire
  simp only [h.workspaceHead] at hretire
  obtain ⟨⟨⟩, y, hremote, hretire⟩ := runs_bind.mp hretire
  obtain ⟨⟨⟩, z, hretire, -⟩ := runs_bind.mp hretire
  unfold retire at hretire
  obtain ⟨removes, z', hobserve, -⟩ := runs_bind.mp hretire
  obtain ⟨hretirable, rfl⟩ := runs_observe.mp hobserve
  obtain ⟨hsame, hgit⟩ := stays_persistDropIntent.of_runs hintent
  have hkept : SameWorktrees w y :=
    (hsame.trans (stays_pinDropEvidence.of_runs hpin)).trans (stays_retireRemote.of_runs hremote)
  have hthere : y.git.worktrees.get (executionPathOf workspace.ticketId) ≠ none := by
    rw [hkept.2.2, hticket, hregistered]
    exact Option.some_ne_none _
  obtain ⟨hplain, hsubmodules⟩ := endable_of_retirable hretirable hthere
  have hevidence := evidence_of_runs h.workspaceHead hpin
  unfold dropEvidence at hevidence
  rw [hgit] at hevidence
  exact ⟨hkept.1 ▸ hplain, hkept.2.1 ▸ hsubmodules, hevidence⟩

/-- The scheduler's drop saves what the iteration of the engine saves when it finds a disposition
    whose drop can be ended. -/
theorem recoverDropped_refines {o : Observation} {authorization : Option ExecutionAuthorization}
    (h : Retiring graph report checkpoint s w)
    (hmarked : w.dispositions (dropDispositionRef report.ticketId report.executionId) ≠ none)
    (hstop : o.stop .running = false) (hdropped : o.dropped = some true) :
    recoverRunning o authorization s = .save Call.drop .ready
      ∧ ((Site.recoverDropped graph w).last w).state = Call.drop.payload s := by
  constructor
  · obtain ⟨hid, hticket, -⟩ := h.bound.fields
    unfold recoverRunning
    rw [h.state] at hid hticket
    have hstage := h.bound.stage
    have hworker := h.bound.worker
    rw [h.state] at hstage hworker
    simp [hstop, hstage, hworker, hticket, hid, hdropped, Stage.isCheckpointed]
  · obtain ⟨-, -, hend⟩ := (sat_program h .scheduled).returns
    rcases hend with ⟨-, hstate⟩ | ⟨-, -, hnone⟩
    · exact hstate
    · exact absurd hnone hmarked

end Finds

end Site

/-! ### A drop that was killed -/

/-- A completed execution of `t1` whose lifecycle is refused. -/
def refusedState : RuntimeState where
  phase := .agentRunning
  localHead := some (sampleHead 'a')
  remoteHead := some (sampleHead 'a')
  changedPaths := some ""
  controlHead := some (sampleHead 'c')
  selectedTicketId := some "t1"
  selectedTicketBody := some "do one"
  executionTicketId := some "t1"
  executionBaseHead := some (sampleHead 'a')
  executionControlHead := some (sampleHead 'c')
  executionBranch := some "devlegate/work/t1"
  executionPath := some "/work/work/t1"
  executionId := some "e1"
  executionRemoteHead := some none
  executionStartHead := some (sampleHead 'a')
  executionStage := some .lifecycle
  pendingExecutionReport := some sampleReport

/-- The checkpoint `d` is one commit on top of `a`. -/
def sampleGraph : Git.CommitGraph where
  parents commit := if commit = sampleHead 'd' then [sampleHead 'a'] else []
  rank commit := if commit = sampleHead 'd' then 1 else 0
  rank_lt := by
    intro commit parent h
    by_cases hd : commit = sampleHead 'd'
    · have hne : sampleHead 'a' ≠ sampleHead 'd' := by decide
      simp only [hd, if_true, List.mem_singleton] at h
      simp [hd, h, hne]
    · simp [hd] at h

def refusedSite : Site where
  state := refusedState
  git := {
    refs := fun ref => if ref = "refs/heads/devlegate/work/t1" then some (sampleHead 'd') else none
    remote := fun ref =>
      if ref = "refs/heads/devlegate/work/t1" then some (sampleHead 'd') else none
    worktrees := [("/work/work/t1", ⟨"devlegate/work/t1", false⟩)]
    directories := fun path => path = "/work/work/t1" }

/-- The admission of the drop looks at no submodule. -/
theorem refusedSite_droppable (submodules : String → Except String Unit) :
    @Site.Droppable sampleProject sampleSha256 sampleGraph sampleReport (sampleHead 'd')
      { refusedSite with submodules := submodules } := by
  refine @Site.Droppable.mk sampleProject sampleSha256 _ _ _ _ ?_ rfl rfl (by decide) ?_ rfl ?_
  · show @Site.validateDropAdmission sampleProject sampleSha256 sampleGraph "t1" "e1" refusedSite
      = .ok ()
    decide
  · show @validateStateInvariant sampleSha256 refusedSite.state = .ok ()
    decide
  · intro entry hentry _
    have hsame : entry = ("/work/work/t1", ⟨"devlegate/work/t1", false⟩) := by
      simpa [refusedSite] using hentry
    rw [hsame]
    rfl

/-- The checkpoint records a submodule that the worktree has not initialised. -/
def uninitialisedSite : Site :=
  { refusedSite with submodules := fun _ => .error "submodule lib is not initialized safely" }

end Devlegate
