import Devlegate.Site

namespace Devlegate

open Crash

/-!
# Moving an execution onto a new product base

`reconcile update-base` transplants the commits of a preserved execution onto the current product
head.  It records what it is about to do, rebases the worktree, pins the rewritten head, records
that the published branch is about to move, and moves it under a lease.  A later request finds the
record and either takes the result or undoes the rewrite and makes a new one.

* `reconcileUpdateBase`: `_reconcile_update_base_owned`, effect by effect.
* `Rewriting`, `Updated`: where an operation can be, and where it ends.
* `updateBase_resolves_iff`: after any interruptions the same request ends the operation if and only
  if the published branch has already moved, or no rewritten head is pinned yet and the submodules
  of the worktree are those of the new head.
-/

/-! ### The operation -/

/-- The ref that `_reconcile_update_base_owned` pins the rewritten head under. -/
def rewrittenEvidenceRef (ticketId executionId : String) : String :=
  "refs/devlegate/reconciliation/" ++ ticketId ++ "/" ++ executionId ++ "-rewritten"

/-- `_is_same_parent_replacement`. -/
def isSameParentReplacement (graph : Git.CommitGraph) (original target : String) : Bool :=
  original != target && (graph.parents original).length == 1
    && graph.parents original == graph.parents target

/-- The site as a running engine sees it: `memory` is its `_state`. -/
structure Session extends Site where
  memory : RuntimeState

/-- What `git rebase --onto` does to the worktree of the execution. -/
inductive Rebase where
  /-- The rewritten head, and whether the worktree reports changes. -/
  | finished (head : String) (dirty : Bool)
  /-- A conflict, and what its abort leaves. -/
  | conflict (head : String) (dirty : Bool)
  /-- Git could not be run. -/
  | unavailable (message : String)
  deriving DecidableEq, Repr

namespace Session

abbrev Program := Crash.Program Session String

/-- An engine that starts loads the durable state. -/
def restart (w : Session) : Session := { w with memory := w.state }

/-- `_save_state`. -/
def save [Sha256] (call : SaveCall) : Program Unit := do
  let w ← .get
  match saveState call w.memory with
  | .error message => .raise message
  | .ok s => .effect fun w => { w with state := s, memory := s }

/-- `self._state["execution_base_head"] = base`. -/
def setBase (base : Option String) : Program Unit :=
  .effect fun w => { w with memory := { w.memory with executionBaseHead := base } }

theorem sat_save [Sha256] {I : Session → Prop} {Q : Unit → Session → Prop}
    {E : String → Session → Prop} {w : Session} {call : SaveCall} {s : RuntimeState}
    (hs : call.payload w.memory = s) (hvalid : validateStateInvariant s = .ok ())
    (hI : I { w with state := s, memory := s }) (hQ : Q () { w with state := s, memory := s }) :
    Sat I (save call) Q E w := by
  have hsaved : saveState call w.memory = .ok s := by
    rw [saveState_eq_ok, hs]
    exact ⟨rfl, hvalid⟩
  unfold save
  refine .bind (.get ?_)
  rw [hsaved]
  exact .effect hI hQ

section Operation

variable [Project] (graph : Git.CommitGraph)

/-- The checks of `_execution_workspace_for_recovery` on the branch and its worktree. -/
def recoverWorkspace (ticketId baseHead : String) (w : Site) : Except String ExecutionWorkspace := do
  require ((w.git.refs (Git.branchRef (executionBranchOf ticketId))).any (graph.isAncestor baseHead))
    ("execution branch " ++ executionBranchOf ticketId ++ " is unrelated to planned code revision "
      ++ baseHead)
  let workspace ← w.validateExisting ticketId baseHead
  w.submodules workspace.head
  return workspace

/-- `_execution_workspace_for_recovery`. -/
def executionWorkspaceForRecovery (w : Session) : Except String ExecutionWorkspace :=
  match w.memory.executionTicketId, w.memory.executionBaseHead with
  | some ticketId, some baseHead => do
    require (ticketId != "" && baseHead != "" && nonEmpty w.memory.executionBranch
      && nonEmpty w.memory.executionPath) "execution workspace recovery binding is incomplete"
    require (w.memory.executionBranch = some (executionBranchOf ticketId)
      ∧ w.memory.executionPath = some (executionPathOf ticketId))
      "execution workspace binding is invalid"
    (recoverWorkspace graph ticketId baseHead w.toSite).mapError
      ("cannot validate execution workspace recovery: " ++ ·)
  | _, _ => .error "execution workspace recovery binding is incomplete"

/-- `_execution_workspace_for_rewrite_recovery`: the worktree as it is, whatever its base. -/
def executionWorkspaceForRewriteRecovery (ticketId : String) (w : Session) :
    Except String ExecutionWorkspace :=
  w.validateExisting ticketId (w.memory.executionBaseHead.getD "")

/-- The execution worktree and its branch are at a commit. -/
def rebaseTo (ticketId commit : String) (dirty : Bool) (w : Session) : Session :=
  let path := executionPathOf ticketId
  let branch := executionBranchOf ticketId
  { w with git := { w.git.resetHard path branch commit with
      worktrees := w.git.worktrees.set path ⟨branch, dirty⟩ } }

/-- `reset --hard commit` in the execution worktree. -/
def moveHead (ticketId commit : String) (w : Session) : Session :=
  { w with
    git := w.git.resetHard (executionPathOf ticketId) (executionBranchOf ticketId) commit }

/-- A save of the reconciliation record; `base` is also the start of the execution. -/
def rewriteCall (base : Option String) (r : Reconciliation) : SaveCall where
  phase := .idle
  fields s := { s with
    reconciliation := some r
    executionBaseHead := base.or s.executionBaseHead
    executionStartHead := base.or s.executionStartHead }

/-- The record of a resolved operation, with everything the scheduler goes by. -/
def resolvedCall (target : String) (r : Reconciliation) : SaveCall where
  phase := .idle
  fields s := { s with
    executionBaseHead := some target, executionStartHead := some target
    executionRemoteHead := some r.executionRemoteHead
    handledRemoteHead := some target, handledControlHead := some r.controlHead
    handledTodoFingerprint := some (Project.todoFingerprint r.controlHead)
    reconciliation := some r
    resumeRequired := some { ticketId := r.ticketId } }

/-- The record of the operation before the rebase. -/
def rewriteOperation (r : Reconciliation) (target : String) (rewritePublished : Bool)
    (lineage : List String) : Reconciliation :=
  { r with
    rewriteAuthorized := rewritePublished
    rewriteExpectedRemote := r.executionRemoteHead
    displacedEvidenceRef := some r.evidenceRef
    rewrittenEvidenceRef := some (rewrittenEvidenceRef r.ticketId r.executionId)
    rewriteTarget := some target
    rewriteCount := some lineage.length
    rewriteStage := some .localPending }

/-- The record of the operation before the published branch moves. -/
def remoteOperation (operation : Reconciliation) (head : String) : Reconciliation :=
  { operation with rewriteStage := some .remotePending, rewriteCheckpoint := some head }

/-- The record of the operation once it is done. -/
def resolvedRecord (r : Reconciliation) (target head : String) : Reconciliation :=
  { r with
    status := .resolved, resolution := some .updateBase
    resolutionClass := some (if r.executionRemoteHead.isSome then .updateBaseRewrite else .updateBase)
    effectiveBase := some target
    workerCheckpoint := head
    executionRemoteHead := r.executionRemoteHead.map fun _ => head
    displacedEvidenceRef := some r.evidenceRef
    evidenceRef := rewrittenEvidenceRef r.ticketId r.executionId
    executionReport := none }

/-- `update-ref ref commit 0…0`: the ref must not exist. -/
def createRef (ref commit message : String) : Program Unit := do
  let w ← .get
  .ensure (w.git.refs ref = none) message
  .effect fun w => { w with git := w.git.updateRef ref commit }

/-- The pin before the operation is resolved, which accepts the pin of the published branch. -/
def pinRewritten (ref commit : String) : Program Unit := do
  let w ← .get
  match w.git.refs ref with
  | none => .effect fun w => { w with git := w.git.updateRef ref commit }
  | some existing => .ensure (existing = commit) "rewritten execution evidence could not be pinned"

variable [Sha256]

/-- A published branch moves to the rewritten head, which is pinned and recorded before. -/
def publishRewritten (r operation : Reconciliation) (head : String) : Program Unit :=
  match r.executionRemoteHead with
  | none => pure ()
  | some published => do
    createRef (rewrittenEvidenceRef r.ticketId r.executionId) head
      "rewritten execution evidence could not be pinned"
    save (rewriteCall none (remoteOperation operation head))
    let w ← .get
    .ensure (w.executionRemoteHead r.executionBranch = some published)
      "execution branch remote changed during publication"
    .effect fun w => { w with git := w.git.push r.executionBranch head }

/-- What must hold before the operation is recorded: the lineage of the preserved checkpoint, whose
    published part is as it was observed. -/
def provenLineage (r : Reconciliation) (workspace : ExecutionWorkspace) (rewritePublished : Bool)
    (w : Session) : Except String (List String) := do
  require (workspace.head = r.workerCheckpoint ∧ workspace.dirty = false)
    "execution workspace changed before reconciliation"
  match graph.lineage r.originalBase r.workerCheckpoint with
  | none => throw "execution lineage is not a non-empty linear checkpoint chain"
  | some lineage => do
    require (w.executionRemoteHead r.executionBranch = r.executionRemoteHead)
      "execution branch remote changed since reconciliation observation"
    require (r.executionRemoteHead = none ∨ rewritePublished = true)
      ("published execution ref refs/heads/" ++ r.executionBranch
        ++ " requires --rewrite-published authorization")
    require (∀ published ∈ r.executionRemoteHead, published ∈ lineage)
      "published execution ref is outside the proven execution lineage"
    return lineage

/-- The operation once its rebase has finished. -/
def finishRewrite (r operation : Reconciliation) (workspace : ExecutionWorkspace)
    (target : String) (lineage : List String) (previousBase : Option String) : Program Unit := do
  let updated ← .observe (executionWorkspaceForRecovery graph)
  if updated.dirty = true ∨ graph.revCount target updated.head ≠ lineage.length
      ∨ updated.head = target then
    .effect (moveHead workspace.ticketId r.workerCheckpoint)
    setBase previousBase
    save (rewriteCall (some r.originalBase) r)
    .raise "reconciled execution lineage is invalid"
  else
    .ensure (graph.lineage target updated.head).isSome
      "reconciled execution lineage is not ordered and linear"
    publishRewritten r operation updated.head
    pinRewritten (rewrittenEvidenceRef r.ticketId r.executionId) updated.head
    save (resolvedCall target (resolvedRecord r target updated.head))

/-- `_reconcile_update_base_owned` from its write-ahead record on. -/
def rewrite (r : Reconciliation) (workspace : ExecutionWorkspace) (target : String)
    (rewritePublished : Bool) (lineage : List String) (rebase : Rebase) : Program Unit := do
  let previousBase := (← .get).memory.executionBaseHead
  let operation := rewriteOperation r target rewritePublished lineage
  save (rewriteCall none operation)
  setBase (some target)
  match rebase with
  | .unavailable message =>
    setBase previousBase
    .raise ("reconciliation failed: " ++ message)
  | .conflict restored dirty =>
    .effect (rebaseTo workspace.ticketId restored dirty)
    setBase previousBase
    .ensure (restored = r.workerCheckpoint ∧ dirty = false)
      "reconciliation conflict could not be safely aborted"
    .raise "reconciliation conflict; manual/advanced reconciliation is required"
  | .finished head dirty =>
    .effect (rebaseTo workspace.ticketId head dirty)
    finishRewrite graph r operation workspace target lineage previousBase

/-- The checks before the write-ahead record, and the rewrite. -/
def rewriteLineage (r : Reconciliation) (workspace : ExecutionWorkspace) (target : String)
    (rewritePublished : Bool) (rebase : Rebase) : Program Unit := do
  let lineage ← .observe (provenLineage graph r workspace rewritePublished)
  rewrite graph r workspace target rewritePublished lineage rebase

/-- A rewrite that was made and not recorded is undone. -/
def undoRewrite (r : Reconciliation) (workspace : ExecutionWorkspace) (target : String) :
    Program Unit :=
  if workspace.head = r.workerCheckpoint then pure ()
  else do
    .ensure (r.rewriteCount.isSome
        ∧ (graph.lineage target workspace.head).map List.length = r.rewriteCount)
      "interrupted execution rewrite cannot be safely aborted"
    .effect (moveHead workspace.ticketId r.workerCheckpoint)

/-- The record is taken back to what it was before the rewrite, and the rewrite is made again. -/
def rewriteAgain (r : Reconciliation) (target : String) (rewritePublished : Bool)
    (rebase : Rebase) : Program Unit := do
  save (rewriteCall (some r.originalBase) r)
  let workspace ← .observe (executionWorkspaceForRecovery graph)
  rewriteLineage graph r workspace target rewritePublished rebase

/-- The recovery of an operation that had not moved the published branch. -/
def recoverLocalPending (r : Reconciliation) (workspace : ExecutionWorkspace) (target : String)
    (rewritePublished : Bool) (rebase : Rebase) : Program Unit := do
  .ensure (workspace.dirty = false) "interrupted execution rewrite workspace is dirty"
  undoRewrite graph r workspace target
  rewriteAgain graph { r with rewriteStage := none, rewriteTarget := none, rewriteCount := none }
    target rewritePublished rebase

/-- The evidence of a rewrite whose published branch has moved. -/
def rewriteProven (r : Reconciliation) (target rewritten : String) (w : Session) :
    Except String Unit := do
  require (r.displacedEvidenceRef.bind w.git.refs = some r.workerCheckpoint)
    "interrupted execution rewrite evidence is invalid"
  require (r.rewrittenEvidenceRef.bind w.git.refs = some rewritten)
    "interrupted execution rewritten evidence is invalid"
  require (graph.lineage target rewritten).isSome "interrupted execution rewrite is not linear"

/-- The recovery of an operation that had recorded the move of the published branch. -/
def recoverRemotePending (r : Reconciliation) (workspace : ExecutionWorkspace)
    (target rewritten : String) (rewritePublished : Bool) (rebase : Rebase) : Program Unit := do
  .ensure (workspace.dirty = false) "interrupted execution rewrite workspace is dirty"
  let observed := (← .get).executionRemoteHead r.executionBranch
  if observed = r.rewriteExpectedRemote then
    .effect (moveHead workspace.ticketId r.workerCheckpoint)
    rewriteAgain graph { r with
      rewriteStage := none, rewriteCheckpoint := none, rewriteExpectedRemote := none
      rewriteTarget := none } target rewritePublished rebase
  else
    .ensure (observed = some rewritten ∧ workspace.head = rewritten)
      "execution branch remote changed during interrupted rewrite"
    .observe (rewriteProven graph r target rewritten)
    save (resolvedCall target { r with
      status := .resolved, resolution := some .updateBase
      resolutionClass := some .updateBaseRewrite
      effectiveBase := some target
      workerCheckpoint := rewritten
      executionRemoteHead := some rewritten
      evidenceRef := r.rewrittenEvidenceRef.getD r.evidenceRef
      executionReport := none })

/-- What the request must find: the product at the target, and the preserved checkpoint. -/
def validateUpdateBase (product : ProductCheckout) (ticketId target : String) (r : Reconciliation)
    (w : Session) : Except String Unit := do
  require (r.status = .pending) ("ticket " ++ ticketId ++ " has no pending reconciliation")
  require (r.ticketId = ticketId) "requested ticket does not match pending reconciliation"
  require (target ≠ "") "requested reconciliation target is empty"
  require product.branchOk "product checkout is on the wrong branch"
  require (!product.dirty) "product checkout is dirty"
  require (product.localHead = target)
    "requested reconciliation target is not the current product HEAD"
  require (product.remoteHead = target)
    "requested reconciliation target is not the fresh product remote HEAD"
  require (graph.isAncestor r.originalBase target || isSameParentReplacement graph r.originalBase target)
    "requested reconciliation target is not a descendant of the original base or a proven same-parent replacement"
  require (w.git.refs r.evidenceRef = some r.workerCheckpoint)
    "preserved worker checkpoint evidence changed"
  require (r.executionBranch = executionBranchOf ticketId ∧ r.executionPath = executionPathOf ticketId)
    "reconciliation workspace binding is invalid"

/-- `_reconcile_update_base_owned`. -/
def reconcileUpdateBase (product : ProductCheckout) (ticketId target : String)
    (rewritePublished : Bool) (rebase : Rebase) : Program Unit := do
  match (← .get).memory.reconciliation with
  | none => .raise ("ticket " ++ ticketId ++ " has no pending reconciliation")
  | some r => do
    .observe (validateUpdateBase graph product ticketId target r)
    match r.rewriteStage with
    | none => do
      let workspace ← .observe (executionWorkspaceForRecovery graph)
      rewriteLineage graph r workspace target rewritePublished rebase
    | some stage => do
      let workspace ← .observe (executionWorkspaceForRewriteRecovery ticketId)
      .ensure (r.rewriteTarget = some target)
        "interrupted execution rewrite target does not match the requested target"
      -- a recovery does not ask for the authorization again
      let rewritePublished := rewritePublished || r.rewriteAuthorized
      match stage, r.rewriteCheckpoint with
      | .localPending, _ => recoverLocalPending graph r workspace target rewritePublished rebase
      | .remotePending, some rewritten =>
        recoverRemotePending graph r workspace target rewritten rewritePublished rebase
      | .remotePending, none => rewriteLineage graph r workspace target rewritePublished rebase

/-- A request that an engine serves after it was started. -/
def served (product : ProductCheckout) (ticketId target : String) (rewritePublished : Bool)
    (rebase : Rebase) : Program Unit := do
  .effect restart
  reconcileUpdateBase graph product ticketId target rewritePublished rebase

end Operation

end Session

namespace Site

/-! ### Where an operation can be -/

/-- The record without the fields of a rewrite. -/
def core (r : Reconciliation) : Reconciliation :=
  { r with
    rewriteStage := none, rewriteTarget := none, rewriteCount := none, rewriteCheckpoint := none
    rewriteExpectedRemote := none, rewriteAuthorized := false, displacedEvidenceRef := none
    rewrittenEvidenceRef := none }

/-- The head of the execution branch. -/
def executionHead [Project] (r : Reconciliation) (w : Site) : Option String :=
  w.git.refs (Git.branchRef (executionBranchOf r.ticketId))

/-- The rewritten head under its evidence ref. -/
def rewrittenHead (r : Reconciliation) (w : Site) : Option String :=
  w.git.refs (rewrittenEvidenceRef r.ticketId r.executionId)

section Where

variable [Project]

/-- A request that is authorised for a pending record: the product is at the target, the lineage of
    the preserved checkpoint is linear, and what is published of it is part of it. -/
structure Authorised (graph : Git.CommitGraph) (product : ProductCheckout) (r : Reconciliation)
    (target : String) (rewritePublished : Bool) (lineage : List String) : Prop where
  status : r.status = .pending
  stage : r.rewriteStage = none
  branchOk : product.branchOk = true
  clean : product.dirty = false
  localHead : product.localHead = target
  remoteHead : product.remoteHead = target
  nonempty : target ≠ ""
  related : (graph.isAncestor r.originalBase target
    || isSameParentReplacement graph r.originalBase target) = true
  branch : r.executionBranch = executionBranchOf r.ticketId
  path : r.executionPath = executionPathOf r.ticketId
  evidenceRef : r.evidenceRef = "refs/devlegate/reconciliation/" ++ r.ticketId ++ "/" ++ r.executionId
  chain : graph.lineage r.originalBase r.workerCheckpoint = some lineage
  authorised : r.executionRemoteHead = none ∨ rewritePublished = true
  published : ∀ published ∈ r.executionRemoteHead, published ∈ lineage

/-- A rebase of `count` commits onto the target, to commits that the clone and the remote have not
    seen. -/
structure FreshRebase (graph : Git.CommitGraph) (target : String) (count : Nat) (w : Site)
    (head : String) : Prop where
  lineage : (graph.lineage target head).map List.length = some count
  identity : isGitIdentity head = true
  fresh : ∀ ref, w.git.refs ref ≠ some head
  unpublished : ∀ ref, w.git.remote ref ≠ some head

/-- How far an operation has come. -/
inductive RewriteAt (graph : Git.CommitGraph) (r : Reconciliation) (target : String)
    (lineage : List String) (w : Site) : Prop where
  | ready (record : Reconciliation) (hrecord : w.state.reconciliation = some record)
      (hcore : core record = core r) (hstage : record.rewriteStage = none)
      (hbase : w.state.executionBaseHead = some r.originalBase)
      (hhead : w.executionHead r = some r.workerCheckpoint)
      (hremote : w.executionRemoteHead r.executionBranch = r.executionRemoteHead)
  | localPending (record : Reconciliation) (head : String)
      (hrecord : w.state.reconciliation = some record) (hcore : core record = core r)
      (hstage : record.rewriteStage = some .localPending)
      (htarget : record.rewriteTarget = some target)
      (hcount : record.rewriteCount = some lineage.length) (hhead : w.executionHead r = some head)
      (hchain : head = r.workerCheckpoint
        ∨ (graph.lineage target head).map List.length = some lineage.length)
      (hremote : w.executionRemoteHead r.executionBranch = r.executionRemoteHead)
  | remotePending (record : Reconciliation) (published head : String)
      (hrecord : w.state.reconciliation = some record) (hcore : core record = core r)
      (hstage : record.rewriteStage = some .remotePending)
      (htarget : record.rewriteTarget = some target)
      (hcheckpoint : record.rewriteCheckpoint = some head)
      (hexpected : record.rewriteExpectedRemote = r.executionRemoteHead)
      (hdisplaced : record.displacedEvidenceRef = some r.evidenceRef)
      (hrewritten : record.rewrittenEvidenceRef
        = some (rewrittenEvidenceRef r.ticketId r.executionId))
      (hpublished : r.executionRemoteHead = some published) (hne : head ≠ published)
      (hidentity : isGitIdentity head = true) (hpinned : w.rewrittenHead r = some head)
      (hhead : w.executionHead r = some head
        ∨ w.executionHead r = some r.workerCheckpoint
          ∧ w.executionRemoteHead r.executionBranch = some published)
      (hchain : (graph.lineage target head).map List.length = some lineage.length)
      (hremote : w.executionRemoteHead r.executionBranch = some published
        ∨ w.executionRemoteHead r.executionBranch = some head)

variable [Sha256]

/-- An operation under way. -/
structure Rewriting (graph : Git.CommitGraph) (r : Reconciliation) (target : String)
    (lineage : List String) (w : Site) : Prop where
  valid : validateStateInvariant w.state = .ok ()
  idle : w.state.phase = .idle
  ticket : w.state.executionTicketId = some r.ticketId
  branch : w.state.executionBranch = some (executionBranchOf r.ticketId)
  path : w.state.executionPath = some (executionPathOf r.ticketId)
  registered : w.git.worktrees.get (executionPathOf r.ticketId)
    = some ⟨executionBranchOf r.ticketId, false⟩
  directory : w.git.directories (executionPathOf r.ticketId) = true
  submodules : w.submodules r.workerCheckpoint = .ok ()
  evidence : w.git.refs r.evidenceRef = some r.workerCheckpoint
  position : RewriteAt graph r target lineage w

/-- The operation is done: the record is resolved, the displaced checkpoint is still pinned, and the
    rewritten head is that of the worktree and, where the execution was published, of the remote. -/
structure Updated (graph : Git.CommitGraph) (r : Reconciliation) (target : String)
    (lineage : List String) (w : Site) : Prop where
  resolved : w.state.reconciliation.any (·.status = .resolved) = true
  displaced : w.git.refs r.evidenceRef = some r.workerCheckpoint
  rewritten : ∃ head, (graph.lineage target head).map List.length = some lineage.length
    ∧ w.executionHead r = some head ∧ w.rewrittenHead r = some head
    ∧ w.state.reconciliation.map (·.workerCheckpoint) = some head
    ∧ w.executionRemoteHead r.executionBranch = r.executionRemoteHead.map fun _ => head

end Where

/-! ### Refs apart -/

/-- The ref of a branch is not an evidence ref, and the two evidence refs of an execution differ:
    one is longer. -/
theorem branchRef_ne_rewrittenEvidenceRef (branch ticketId executionId : String) :
    Git.branchRef branch ≠ rewrittenEvidenceRef ticketId executionId := by
  unfold Git.branchRef rewrittenEvidenceRef
  intro h
  have hlist := congrArg String.toList h
  simp only [String.toList_append] at hlist
  have hsixth := congrArg (fun l => l.getD 5 'x') hlist
  revert hsixth
  show 'h' = 'd' → False
  decide

theorem branchRef_ne_reconciliationRef (branch ticketId executionId : String) :
    Git.branchRef branch
      ≠ "refs/devlegate/reconciliation/" ++ ticketId ++ "/" ++ executionId := by
  unfold Git.branchRef
  intro h
  have hlist := congrArg String.toList h
  simp only [String.toList_append] at hlist
  have hsixth := congrArg (fun l => l.getD 5 'x') hlist
  revert hsixth
  show 'h' = 'd' → False
  decide

theorem reconciliationRef_ne_rewrittenEvidenceRef (ticketId executionId : String) :
    "refs/devlegate/reconciliation/" ++ ticketId ++ "/" ++ executionId
      ≠ rewrittenEvidenceRef ticketId executionId := by
  unfold rewrittenEvidenceRef
  intro h
  have hlength := congrArg String.length h
  have hsuffix : "-rewritten".length = 10 := rfl
  simp only [String.length_append, hsuffix] at hlength
  omega

theorem rewrittenEvidenceRef_ne_empty (ticketId executionId : String) :
    rewrittenEvidenceRef ticketId executionId ≠ "" := by
  unfold rewrittenEvidenceRef
  intro h
  have hlength := congrArg String.length h
  have hsuffix : "-rewritten".length = 10 := rfl
  simp only [String.length_append, hsuffix, String.length_empty] at hlength
  omega

/-! ### What an operation finds -/

section Finds

variable [Project] [Sha256] {graph : Git.CommitGraph} {product : ProductCheckout}
  {r record : Reconciliation} {target head : String} {rewritePublished : Bool}
  {lineage : List String} {w : Site}

omit [Project] [Sha256] in
/-- What a rewrite does not touch is the same in records with one core. -/
theorem eq_of_core {α : Type} (h : core record = core r) (f : Reconciliation → α)
    (hf : ∀ q, f (core q) = f q) : f record = f r := by
  rw [← hf record, h, hf]

/-- The record of an operation under way. -/
theorem Rewriting.pending (h : Rewriting graph r target lineage w) :
    ∃ record, w.state.reconciliation = some record ∧ core record = core r := by
  cases h.position with
  | ready record hrecord hcore => exact ⟨record, hrecord, hcore⟩
  | localPending record head hrecord hcore => exact ⟨record, hrecord, hcore⟩
  | remotePending record published head hrecord hcore => exact ⟨record, hrecord, hcore⟩

theorem Rewriting.validRecord (h : Rewriting graph r target lineage w) :
    validateReconciliation r = .ok () := by
  obtain ⟨record, hrecord, hcore⟩ := h.pending
  have hvalid := h.valid
  simp only [validateStateInvariant, andThen_eq_ok, hrecord] at hvalid
  have hr : validateReconciliation record = .ok () := hvalid.1
  rw [← eq_of_core hcore validateReconciliation fun _ => rfl]
  exact hr

omit [Project] in
/-- The identities of a valid record are not empty. -/
theorem nonempty_of_validateReconciliation (h : validateReconciliation r = .ok ()) :
    r.ticketId ≠ "" ∧ r.executionId ≠ "" ∧ r.originalBase ≠ "" ∧ r.observedProduct ≠ ""
      ∧ r.workerCheckpoint ≠ "" ∧ r.productRemoteHead ≠ "" ∧ r.controlHead ≠ ""
      ∧ r.executionBranch ≠ "" ∧ r.executionPath ≠ "" ∧ r.evidenceRef ≠ "" := by
  simp only [validateReconciliation, andThen_eq_ok, require_eq_ok] at h
  have hidentity := h.1
  simpa using hidentity

/-- The worktree of an operation under way. -/
theorem Rewriting.validateExisting (h : Rewriting graph r target lineage w)
    (hhead : w.executionHead r = some head) (baseHead : String) :
    w.validateExisting r.ticketId baseHead
      = .ok ⟨r.ticketId, executionBranchOf r.ticketId, executionPathOf r.ticketId, head, baseHead,
        false⟩ :=
  validateExisting_eq_ok.mpr ⟨head, false, h.registered, h.directory, hhead, rfl⟩

/-- The site with the rewritten head pinned. -/
def pinned (r : Reconciliation) (head : String) (w : Site) : Site :=
  { w with git := w.git.updateRef (rewrittenEvidenceRef r.ticketId r.executionId) head }

omit [Project] [Sha256] in
theorem rewrittenHead_pinned : (pinned r head w).rewrittenHead r = some head := by
  simp [rewrittenHead, pinned, Git.Repository.updateRef]

omit [Sha256] in
theorem executionHead_pinned : (pinned r head w).executionHead r = w.executionHead r := by
  have hne := branchRef_ne_rewrittenEvidenceRef (executionBranchOf r.ticketId) r.ticketId
    r.executionId
  simp [executionHead, pinned, Git.Repository.updateRef, Function.update_of_ne hne]

/-- The site with the worktree of the execution at a commit. -/
def atCommit (r : Reconciliation) (head : String) (w : Site) : Site :=
  { w with
    git := w.git.resetHard (executionPathOf r.ticketId) (executionBranchOf r.ticketId) head }

omit [Sha256] in
theorem executionHead_atCommit : (atCommit r head w).executionHead r = some head := by
  simp [executionHead, atCommit, Git.Repository.resetHard]

omit [Sha256] in
theorem rewrittenHead_atCommit : (atCommit r head w).rewrittenHead r = w.rewrittenHead r := by
  have hne := branchRef_ne_rewrittenEvidenceRef (executionBranchOf r.ticketId) r.ticketId
    r.executionId
  simp [rewrittenHead, atCommit, Git.Repository.resetHard, Function.update_of_ne hne.symm]

/-! ### The effects of an operation -/

/-- A state with another valid record is valid. -/
theorem Rewriting.valid_of_record (h : Rewriting graph r target lineage w) {s : RuntimeState}
    (hrecord : s.reconciliation = some record) (hvalid : validateReconciliation record = .ok ())
    (hphase : s.phase = .idle) (hworker : s.workerIdentity = none)
    (hretry : s.automaticRetry = w.state.automaticRetry)
    (hlast : s.lastAutomaticRetry = w.state.lastAutomaticRetry)
    (hmanual : s.manualRetryRequired = w.state.manualRetryRequired)
    (haccepted : s.acceptedIntegration = w.state.acceptedIntegration) :
    validateStateInvariant s = .ok () :=
  valid_idle_of_eq h.valid hphase hworker (by rw [hrecord]; exact hvalid) hretry hlast hmanual
    haccepted

theorem Rewriting.validCore (h : Rewriting graph r target lineage w) (hcore : core record = core r) :
    validateReconciliation record = .ok () :=
  (eq_of_core hcore validateReconciliation fun _ => rfl).trans h.validRecord

/-- A save leaves the operation under way. -/
theorem Rewriting.saved (h : Rewriting graph r target lineage w) {s : RuntimeState}
    (hvalid : validateStateInvariant s = .ok ()) (hidle : s.phase = .idle)
    (hticket : s.executionTicketId = w.state.executionTicketId)
    (hbranch : s.executionBranch = w.state.executionBranch)
    (hpath : s.executionPath = w.state.executionPath)
    (hposition : RewriteAt graph r target lineage { w with state := s }) :
    Rewriting graph r target lineage { w with state := s } :=
  ⟨hvalid, hidle, hticket.trans h.ticket, hbranch.trans h.branch, hpath.trans h.path, h.registered,
    h.directory, h.submodules, h.evidence, hposition⟩

/-- The worktree moves, and the preserved checkpoint stays pinned. -/
theorem Rewriting.moved (ha : Authorised graph product r target rewritePublished lineage)
    (h : Rewriting graph r target lineage w)
    (hposition : RewriteAt graph r target lineage (atCommit r head w)) :
    Rewriting graph r target lineage (atCommit r head w) where
  valid := h.valid
  idle := h.idle
  ticket := h.ticket
  branch := h.branch
  path := h.path
  registered := Dict.get_set_self _ _ _
  directory := h.directory
  submodules := h.submodules
  evidence := by
    have hne : Git.branchRef (executionBranchOf r.ticketId) ≠ r.evidenceRef := by
      rw [ha.evidenceRef]
      exact branchRef_ne_reconciliationRef _ _ _
    simpa [atCommit, Git.Repository.resetHard, Function.update_of_ne hne.symm] using h.evidence
  position := hposition

theorem Rewriting.pinned (ha : Authorised graph product r target rewritePublished lineage)
    (h : Rewriting graph r target lineage w)
    (hposition : RewriteAt graph r target lineage (pinned r head w)) :
    Rewriting graph r target lineage (pinned r head w) where
  valid := h.valid
  idle := h.idle
  ticket := h.ticket
  branch := h.branch
  path := h.path
  registered := h.registered
  directory := h.directory
  submodules := h.submodules
  evidence := by
    have hne : r.evidenceRef ≠ rewrittenEvidenceRef r.ticketId r.executionId := by
      rw [ha.evidenceRef]
      exact reconciliationRef_ne_rewrittenEvidenceRef _ _
    simpa [Site.pinned, Git.Repository.updateRef, Function.update_of_ne hne] using h.evidence
  position := hposition

omit [Sha256] in
/-- The first pin changes nothing about where an operation is. -/
theorem RewriteAt.pinned (h : RewriteAt graph r target lineage w)
    (hnone : w.rewrittenHead r = none) :
    RewriteAt graph r target lineage (Site.pinned r head w) := by
  cases h with
  | ready record hrecord hcore hstage hbase hat hremote =>
    exact .ready record hrecord hcore hstage hbase (executionHead_pinned.trans hat) hremote
  | localPending record other hrecord hcore hstage htarget hcount hat hchain hremote =>
    exact .localPending record other hrecord hcore hstage htarget hcount
      (executionHead_pinned.trans hat) hchain hremote
  | remotePending record published other hrecord hcore hstage htarget hcheckpoint hexpected
      hdisplaced hrewritten hpublished hne hidentity hpin =>
    rw [hnone] at hpin
    cases hpin

omit [Project] in
theorem validateReconciliation_resolved (h : validateReconciliation r = .ok ())
    (hidentity : isGitIdentity head = true) (hstatus : record.status = .resolved)
    (hcheckpoint : record.workerCheckpoint = head)
    (hremote : record.executionRemoteHead = none ∨ record.executionRemoteHead = some head)
    (hevidence : record.evidenceRef ≠ "") (hreport : record.executionReport = none)
    (hsame : [record.ticketId, record.executionId, record.originalBase, record.observedProduct,
        record.productRemoteHead, record.controlHead, record.executionBranch, record.executionPath]
      = [r.ticketId, r.executionId, r.originalBase, r.observedProduct, r.productRemoteHead,
        r.controlHead, r.executionBranch, r.executionPath]) :
    validateReconciliation record = .ok () := by
  obtain ⟨n₁, n₂, n₃, n₄, -, n₆, n₇, n₈, n₉, -⟩ := nonempty_of_validateReconciliation h
  simp only [List.cons.injEq, and_true] at hsame
  obtain ⟨e₁, e₂, e₃, e₄, e₅, e₆, e₇, e₈⟩ := hsame
  have hhead : head ≠ "" := by
    rintro rfl
    cases hidentity
  simp only [validateReconciliation, andThen_eq_ok, require_eq_ok, hreport]
  refine ⟨?_, ?_, ?_, trivial⟩
  · simp [e₁, e₂, e₃, e₄, e₅, e₆, e₇, e₈, hcheckpoint, n₁, n₂, n₃, n₄, n₆, n₇, n₈, n₉, hhead,
      hevidence]
  · simp [hstatus]
  · rcases hremote with hnone | hsome
    · simp [hnone]
    · simp [hsome, hidentity]

/-! ### Where a run leaves an operation -/

/-- Where a run of the operation leaves the site, whether it is killed or not. -/
def UnderWay (graph : Git.CommitGraph) (r : Reconciliation) (target : String)
    (lineage : List String) (w : Site) : Prop :=
  Rewriting graph r target lineage w ∨ Updated graph r target lineage w

/-- A rebase to a head can be finished: no rewritten head is pinned, and the submodules of the
    worktree are those of the head. -/
def Rewritable (r : Reconciliation) (head : String) (w : Site) : Prop :=
  w.rewrittenHead r = none ∧ w.submodules head = .ok ()

/-- What the operation still needs: its rebase can be finished, or the published branch has already
    moved. -/
def Completable (r : Reconciliation) (head : String) (w : Site) : Prop :=
  Rewritable r head w ∨ w.executionRemoteHead r.executionBranch ≠ r.executionRemoteHead

end Finds

end Site

/-! ### One run -/

namespace Session

open Site

section Run

variable [Project] [Sha256] {graph : Git.CommitGraph} {product : ProductCheckout}
  {r record : Reconciliation} {target head : String} {rewritePublished : Bool}
  {lineage : List String} {w : Session}

omit [Project] [Sha256] in
theorem mapError_eq_ok {ε ε' α : Type} {f : ε → ε'} {x : Except ε α} {a : α} :
    x.mapError f = .ok a ↔ x = .ok a := by
  cases x <;> simp [Except.mapError]

omit [Sha256] in
/-- What `_execution_workspace_for_recovery` finds when it does not raise. -/
theorem executionWorkspaceForRecovery_eq_ok {workspace : ExecutionWorkspace} :
    executionWorkspaceForRecovery graph w = .ok workspace ↔ ∃ ticketId baseHead head dirty,
      w.memory.executionTicketId = some ticketId ∧ w.memory.executionBaseHead = some baseHead
        ∧ (ticketId != "" && baseHead != "" && nonEmpty w.memory.executionBranch
          && nonEmpty w.memory.executionPath) = true
        ∧ (w.memory.executionBranch = some (executionBranchOf ticketId)
          ∧ w.memory.executionPath = some (executionPathOf ticketId))
        ∧ w.git.refs (Git.branchRef (executionBranchOf ticketId)) = some head
        ∧ graph.isAncestor baseHead head = true
        ∧ w.git.worktrees.get (executionPathOf ticketId) = some ⟨executionBranchOf ticketId, dirty⟩
        ∧ w.git.directories (executionPathOf ticketId) = true ∧ w.submodules head = .ok ()
        ∧ workspace = ⟨ticketId, executionBranchOf ticketId, executionPathOf ticketId, head,
          baseHead, dirty⟩ := by
  unfold executionWorkspaceForRecovery recoverWorkspace
  constructor
  · intro h
    split at h
    · rename_i ticketId baseHead hticket hbase
      obtain ⟨hfilled, h⟩ := require_bind_eq_ok.mp h
      obtain ⟨hbinding, h⟩ := require_bind_eq_ok.mp h
      obtain ⟨hrelated, h⟩ := require_bind_eq_ok.mp (mapError_eq_ok.mp h)
      obtain ⟨found, hfound, h⟩ := bind_eq_ok.mp h
      obtain ⟨⟨⟩, hsubmodules, hsame⟩ := bind_eq_ok.mp h
      obtain ⟨head, dirty, hregistered, hthere, hhead, rfl⟩ := validateExisting_eq_ok.mp hfound
      rw [hhead, Option.any_some] at hrelated
      exact ⟨ticketId, baseHead, head, dirty, hticket, hbase, hfilled, of_decide_eq_true hbinding,
        hhead, hrelated, hregistered, hthere, hsubmodules, (Except.ok.inj hsame).symm⟩
    · cases h
  · rintro ⟨ticketId, baseHead, head, dirty, hticket, hbase, hfilled, hbinding, hhead, hrelated,
      hregistered, hthere, hsubmodules, rfl⟩
    have hfound : w.validateExisting ticketId baseHead = .ok ⟨ticketId, executionBranchOf ticketId,
        executionPathOf ticketId, head, baseHead, dirty⟩ :=
      validateExisting_eq_ok.mpr ⟨head, dirty, hregistered, hthere, hhead, rfl⟩
    rw [hticket, hbase]
    refine require_bind_eq_ok.mpr ⟨hfilled, require_bind_eq_ok.mpr ⟨decide_eq_true hbinding, ?_⟩⟩
    refine mapError_eq_ok.mpr (require_bind_eq_ok.mpr ⟨by rw [hhead]; exact hrelated, ?_⟩)
    exact bind_eq_ok.mpr ⟨_, hfound, bind_eq_ok.mpr ⟨(), hsubmodules, rfl⟩⟩

theorem executionWorkspaceForRecovery_eq (ha : Authorised graph product r target
    rewritePublished lineage) (h : Rewriting graph r target lineage w.toSite)
    (hhead : w.executionHead r = some head) {baseHead : String}
    (hmemory : w.memory = { w.state with executionBaseHead := some baseHead })
    (hbase : baseHead ≠ "") (hancestor : graph.isAncestor baseHead head = true)
    (hsubmodules : w.submodules head = .ok ()) :
    executionWorkspaceForRecovery graph w
      = .ok ⟨r.ticketId, executionBranchOf r.ticketId, executionPathOf r.ticketId, head, baseHead,
        false⟩ := by
  obtain ⟨nt, -, -, -, -, -, -, nb, np, -⟩ := nonempty_of_validateReconciliation h.validRecord
  rw [ha.branch] at nb
  rw [ha.path] at np
  have hrefs : w.git.refs (Git.branchRef (executionBranchOf r.ticketId)) = some head := hhead
  unfold executionWorkspaceForRecovery recoverWorkspace
  simp only [hmemory, h.ticket, h.branch, h.path, h.validateExisting hhead, hsubmodules, hrefs,
    Option.any_some, hancestor, require, nonEmpty, bind, Except.bind, pure, Except.pure,
    Except.mapError]
  simp [nt, nb, np, hbase]

omit [Sha256] in
/-- The submodules of the worktree are compared with its HEAD. -/
theorem executionWorkspaceForRecovery_error (hhead : w.executionHead r = some head)
    (hticket : w.memory.executionTicketId = some r.ticketId)
    (hsubmodules : w.submodules head ≠ .ok ()) :
    ∃ message, executionWorkspaceForRecovery graph w = .error message := by
  cases hfound : executionWorkspaceForRecovery graph w with
  | error message => exact ⟨message, rfl⟩
  | ok workspace =>
    obtain ⟨ticketId, base, found, dirty, hid, -, -, -, hat, -, -, -, hverified, -⟩ :=
      executionWorkspaceForRecovery_eq_ok.mp hfound
    obtain rfl : ticketId = r.ticketId := Option.some.inj (hid.symm.trans hticket)
    obtain rfl : found = head := Option.some.inj (hat.symm.trans hhead)
    exact absurd hverified hsubmodules

/-- The published branch moves: only where no rewritten head is pinned. -/
theorem sat_publishRewritten (ha : Authorised graph product r target rewritePublished lineage)
    (h : Rewriting graph r target lineage w.toSite) (hcore : core record = core r)
    {authorized : Bool} {baseHead : Option String}
    (hmemory : w.memory = { w.state with executionBaseHead := baseHead })
    (hhead : w.executionHead r = some head)
    (hremote : w.executionRemoteHead r.executionBranch = r.executionRemoteHead)
    (hchain : (graph.lineage target head).map List.length = some lineage.length)
    (hidentity : isGitIdentity head = true) (hunpublished : r.executionRemoteHead ≠ some head)
    (hrecord : w.state.reconciliation
      = some (rewriteOperation record target authorized lineage)) :
    Sat (fun t => UnderWay graph r target lineage t.toSite)
      (publishRewritten record (rewriteOperation record target authorized lineage) head)
      (fun _ t => Rewriting graph r target lineage t.toSite ∧ t.executionHead r = some head
        ∧ (∃ base, t.memory = { t.state with executionBaseHead := base })
        ∧ t.executionRemoteHead r.executionBranch = r.executionRemoteHead.map (fun _ => head)
        ∧ (t.rewrittenHead r = some head ∧ w.rewrittenHead r = none
          ∨ r.executionRemoteHead = none ∧ t.rewrittenHead r = w.rewrittenHead r))
      (fun _ t => w.rewrittenHead r ≠ none ∧ Rewriting graph r target lineage t.toSite) w := by
  have hid : record.ticketId = r.ticketId := eq_of_core hcore (·.ticketId) fun _ => rfl
  have hexecution : record.executionId = r.executionId :=
    eq_of_core hcore (·.executionId) fun _ => rfl
  have hbranch : record.executionBranch = r.executionBranch :=
    eq_of_core hcore (·.executionBranch) fun _ => rfl
  have hevidenceRef : record.evidenceRef = r.evidenceRef :=
    eq_of_core hcore (·.evidenceRef) fun _ => rfl
  have hpublished : record.executionRemoteHead = r.executionRemoteHead :=
    eq_of_core hcore (·.executionRemoteHead) fun _ => rfl
  unfold publishRewritten createRef
  rw [hpublished, hid, hexecution, hbranch]
  cases hold : r.executionRemoteHead with
  | none =>
    rw [hold] at hremote
    exact .pure ⟨h, hhead, ⟨_, hmemory⟩, hremote, .inr ⟨rfl, rfl⟩⟩
  | some published =>
    rw [hold] at hremote hunpublished
    have hne : head ≠ published := fun heq => hunpublished (heq ▸ rfl)
    refine .bind (.bind (.get ?_))
    refine .bind (.ensure (fun hnone => ?_) fun hsome => ⟨hsome, h⟩)
    -- the pin
    have hpinned : Rewriting graph r target lineage (pinned r head w.toSite) :=
      h.pinned ha (.localPending _ head hrecord hcore rfl rfl rfl
        (executionHead_pinned.trans hhead) (.inr hchain) (hremote.trans hold.symm))
    refine .effect (.inl hpinned) ?_
    -- the second record
    have hpinnedHead : (pinned r head w.toSite).executionHead r = some head :=
      executionHead_pinned.trans hhead
    have hpinnedRef : (pinned r head w.toSite).rewrittenHead r = some head := rewrittenHead_pinned
    let operation := remoteOperation (rewriteOperation record target authorized lineage) head
    have hcore' : core operation = core r := hcore
    let s : RuntimeState := (rewriteCall none operation).payload w.memory
    have hat : ∀ remote, remote = some published ∨ remote = some head →
        ∀ u : Site, u.state = s → u.executionHead r = some head → u.rewrittenHead r = some head →
          u.executionRemoteHead r.executionBranch = remote →
          RewriteAt graph r target lineage u := by
      intro remote hcases u hstate huhead hupinned huremote
      exact .remotePending _ published head (by rw [hstate]; rfl) hcore' rfl rfl rfl hpublished
        (congrArg some hevidenceRef)
        (congrArg some (by rw [hid, hexecution])) hold hne hidentity hupinned (.inl huhead) hchain
        (huremote ▸ hcases)
    have hs : s = (rewriteCall none operation).payload
        { w.state with executionBaseHead := baseHead } := by rw [← hmemory]
    have hvalid : validateStateInvariant s = .ok () := by
      rw [hs]
      exact h.valid_of_record rfl (h.validCore hcore') rfl rfl rfl rfl rfl rfl
    have hsaved : Rewriting graph r target lineage
        { pinned r head w.toSite with state := s } := by
      refine hpinned.saved hvalid ?_ ?_ ?_ ?_ (hat (some published) (.inl rfl) _ rfl hpinnedHead
        hpinnedRef hremote) <;> rw [hs] <;> rfl
    refine .bind (sat_save rfl hvalid (.inl hsaved) ?_)
    refine .bind (.get ?_)
    refine .bind (.ensure (fun _ => ?_) fun hmoved => absurd hremote hmoved)
    -- the push under its lease
    have hpush : ∀ u : Site, Rewriting graph r target lineage u →
        RewriteAt graph r target lineage { u with git := u.git.push r.executionBranch head } →
        Rewriting graph r target lineage { u with git := u.git.push r.executionBranch head } :=
      fun u hu hposition => ⟨hu.valid, hu.idle, hu.ticket, hu.branch, hu.path, hu.registered,
        hu.directory, hu.submodules, hu.evidence, hposition⟩
    have hmovedRemote : ∀ u : Site, Site.executionRemoteHead { u with
        git := u.git.push r.executionBranch head } r.executionBranch = some head := by
      intro u
      simp [Site.executionRemoteHead, Git.Repository.push]
    have hfinal := hpush _ hsaved (hat (some head) (.inr rfl) _ rfl hpinnedHead hpinnedRef
      (hmovedRemote _))
    exact .effect (.inl hfinal)
      ⟨hfinal, hpinnedHead, ⟨_, rfl⟩, hmovedRemote _, .inl ⟨hpinnedRef, hnone⟩⟩

/-- The last pin: no other rewritten head may be pinned. -/
theorem sat_pinRewritten (ha : Authorised graph product r target rewritePublished lineage)
    (h : Rewriting graph r target lineage w.toSite) (hhead : w.executionHead r = some head) :
    Sat (fun t => UnderWay graph r target lineage t.toSite)
      (pinRewritten (rewrittenEvidenceRef r.ticketId r.executionId) head)
      (fun _ t => Rewriting graph r target lineage t.toSite ∧ t.executionHead r = some head
        ∧ t.rewrittenHead r = some head
        ∧ t.executionRemoteHead r.executionBranch = w.executionRemoteHead r.executionBranch
        ∧ t.state = w.state ∧ t.memory = w.memory
        ∧ (w.rewrittenHead r = none ∨ w.rewrittenHead r = some head))
      (fun _ t => w.rewrittenHead r ≠ none ∧ w.rewrittenHead r ≠ some head
        ∧ Rewriting graph r target lineage t.toSite) w := by
  unfold pinRewritten
  refine .bind (.get ?_)
  cases hpin : w.rewrittenHead r with
  | none =>
    have hrefs : w.git.refs (rewrittenEvidenceRef r.ticketId r.executionId) = none := hpin
    rw [hrefs]
    have hpinned : Rewriting graph r target lineage (pinned r head w.toSite) :=
      h.pinned ha (h.position.pinned hpin)
    exact .effect (.inl hpinned)
      ⟨hpinned, executionHead_pinned.trans hhead, rewrittenHead_pinned, rfl, rfl, rfl, .inl rfl⟩
  | some existing =>
    have hrefs : w.git.refs (rewrittenEvidenceRef r.ticketId r.executionId) = some existing := hpin
    rw [hrefs]
    refine .ensure ?_ ?_
    · rintro rfl
      exact ⟨h, hhead, hpin, rfl, rfl, rfl, .inr rfl⟩
    · intro hother
      exact ⟨by simp, fun hsame => hother (Option.some.inj hsame), h⟩

/-- The operation is resolved. -/
theorem sat_resolve (h : Rewriting graph r target lineage w.toSite) {baseHead : Option String}
    (hmemory : w.memory = { w.state with executionBaseHead := baseHead })
    (hvalid : validateReconciliation record = .ok ()) (hstatus : record.status = .resolved)
    (hcheckpoint : record.workerCheckpoint = head)
    (hchain : (graph.lineage target head).map List.length = some lineage.length)
    (hhead : w.executionHead r = some head) (hpin : w.rewrittenHead r = some head)
    (hremote : w.executionRemoteHead r.executionBranch = r.executionRemoteHead.map fun _ => head)
    {E : String → Session → Prop} :
    Sat (fun t => UnderWay graph r target lineage t.toSite) (save (resolvedCall target record))
      (fun _ t => Updated graph r target lineage t.toSite) E w := by
  let s : RuntimeState := (resolvedCall target record).payload
    { w.state with executionBaseHead := baseHead }
  have hupdated : Updated graph r target lineage { w.toSite with state := s } := by
    refine ⟨?_, h.evidence, head, hchain, hhead, hpin, congrArg some hcheckpoint, hremote⟩
    show (Option.any (fun q : Reconciliation => decide (q.status = .resolved)) (some record)) = true
    simp [hstatus]
  have hs : (resolvedCall target record).payload w.memory = s := by rw [hmemory]
  have hsvalid : validateStateInvariant s = .ok () :=
    h.valid_of_record rfl hvalid rfl rfl rfl rfl rfl rfl
  exact sat_save hs hsvalid (.inr hupdated) hupdated

/-- A rewritten lineage is published, pinned and recorded, unless another one is pinned or the
    submodules of the worktree are others. -/
theorem sat_finishRewrite (ha : Authorised graph product r target rewritePublished lineage)
    (h : Rewriting graph r target lineage w.toSite) (hcore : core record = core r)
    {authorized : Bool} {workspace : ExecutionWorkspace} {previousBase : Option String}
    (hmemory : w.memory = { w.state with executionBaseHead := some target })
    (hhead : w.executionHead r = some head)
    (hremote : w.executionRemoteHead r.executionBranch = r.executionRemoteHead)
    (hchain : (graph.lineage target head).map List.length = some lineage.length)
    (hidentity : isGitIdentity head = true) (hunpinned : w.rewrittenHead r ≠ some head)
    (hunpublished : r.executionRemoteHead ≠ some head)
    (hrecord : w.state.reconciliation
      = some (rewriteOperation record target authorized lineage)) :
    Sat (fun t => UnderWay graph r target lineage t.toSite)
      (finishRewrite graph record (rewriteOperation record target authorized lineage) workspace target
        lineage previousBase)
      (fun _ t => Updated graph r target lineage t.toSite ∧ Rewritable r head w.toSite)
      (fun _ t => ¬ Rewritable r head w.toSite ∧ Rewriting graph r target lineage t.toSite) w := by
  have hid : record.ticketId = r.ticketId := eq_of_core hcore (·.ticketId) fun _ => rfl
  have hexecution : record.executionId = r.executionId :=
    eq_of_core hcore (·.executionId) fun _ => rfl
  obtain ⟨rewritten, hrewritten, hlength⟩ := Option.map_eq_some_iff.mp hchain
  have hcount := Git.CommitGraph.revCount_of_lineage hrewritten
  have hne := Git.CommitGraph.lineage_ne_base hrewritten
  have hancestor := Git.CommitGraph.isAncestor_of_reaches (Git.CommitGraph.lineage_reaches hrewritten)
  unfold finishRewrite
  by_cases hsubmodules : w.submodules head = .ok ()
  swap
  · -- the rewritten head asks for other submodules
    obtain ⟨message, hrefused⟩ := executionWorkspaceForRecovery_error hhead
      (by rw [hmemory]; exact h.ticket) hsubmodules
    exact .bind (.refused hrefused ⟨fun hrewritable => hsubmodules hrewritable.2, h⟩)
  have hobserved := executionWorkspaceForRecovery_eq ha h hhead hmemory ha.nonempty hancestor
    hsubmodules
  refine .bind (.observe hobserved ?_)
  rw [if_neg (by simp [hcount, hlength, hne])]
  refine .bind (.ensure (fun _ => ?_) fun hnone => absurd (by simp [hrewritten]) hnone)
  -- a published lineage is pinned and recorded before its push; an unpublished one is pinned below
  refine .bind ((sat_publishRewritten ha h hcore hmemory hhead hremote hchain hidentity hunpublished
    hrecord).mono (fun _ => id) ?_ fun _ t ht => ⟨fun hrewritable => ht.1 hrewritable.1, ht.2⟩)
  rintro - t ⟨ht, hthead, ⟨base, htmemory⟩, htremote, hpin⟩
  rw [hid, hexecution]
  refine .bind ((sat_pinRewritten ha ht hthead).mono (fun _ => id) ?_ ?_)
  · rintro - u ⟨hu, huhead, hupin, huremote, hustate, humemory, hbefore⟩
    -- the pin was made, so nothing was pinned before
    have hnone : w.rewrittenHead r = none := by
      rcases hpin with ⟨-, hnone⟩ | ⟨-, hsame⟩
      · exact hnone
      · rw [hsame] at hbefore
        exact hbefore.resolve_right hunpinned
    have hpublished : record.executionRemoteHead = r.executionRemoteHead :=
      eq_of_core hcore (·.executionRemoteHead) fun _ => rfl
    have hvalid : validateReconciliation (resolvedRecord record target head) = .ok () := by
      refine validateReconciliation_resolved (h.validCore hcore) hidentity rfl rfl ?_ ?_ rfl rfl
      · show record.executionRemoteHead.map _ = none ∨ record.executionRemoteHead.map _ = some head
        cases record.executionRemoteHead with
        | none => exact .inl rfl
        | some published => exact .inr rfl
      · exact rewrittenEvidenceRef_ne_empty _ _
    have humem : u.memory = { u.state with executionBaseHead := base } := by
      rw [humemory, hustate, htmemory]
    exact (sat_resolve hu humem hvalid rfl rfl hchain huhead hupin (huremote.trans htremote)).mono
      (fun _ => id) (fun _ v hv => ⟨hv, hnone, hsubmodules⟩) fun _ _ => id
  · rintro - u ⟨hsome, hother, hu⟩
    -- another head is pinned: it was before this run
    rcases hpin with ⟨hsame, -⟩ | ⟨-, hsame⟩
    · exact absurd hsame hother
    · exact ⟨fun hrewritable => hsome (hsame.trans hrewritable.1), hu⟩

/-- **One rewrite.** From the preserved checkpoint it resolves the operation if it can be finished,
    and raises otherwise. -/
theorem sat_rewriteLineage (ha : Authorised graph product r target rewritePublished lineage)
    (h : Rewriting graph r target lineage w.toSite) (hcore : core record = core r)
    {authorized : Bool} (hauthorized : r.executionRemoteHead = none ∨ authorized = true)
    {baseHead : String} (hmemory : w.memory = w.state)
    (hcheckpoint : w.executionHead r = some r.workerCheckpoint)
    (hremote : w.executionRemoteHead r.executionBranch = r.executionRemoteHead)
    (hchain : (graph.lineage target head).map List.length = some lineage.length)
    (hidentity : isGitIdentity head = true) (hunpinned : w.rewrittenHead r ≠ some head)
    (hunpublished : r.executionRemoteHead ≠ some head) :
    Sat (fun t => UnderWay graph r target lineage t.toSite)
      (rewriteLineage graph record ⟨r.ticketId, executionBranchOf r.ticketId,
        executionPathOf r.ticketId, r.workerCheckpoint, baseHead, false⟩ target authorized
        (.finished head false))
      (fun _ t => Updated graph r target lineage t.toSite ∧ Rewritable r head w.toSite)
      (fun _ t => ¬ Rewritable r head w.toSite ∧ Rewriting graph r target lineage t.toSite) w := by
  have hbranch : record.executionBranch = r.executionBranch :=
    eq_of_core hcore (·.executionBranch) fun _ => rfl
  have hpublished : record.executionRemoteHead = r.executionRemoteHead :=
    eq_of_core hcore (·.executionRemoteHead) fun _ => rfl
  have hworker : record.workerCheckpoint = r.workerCheckpoint :=
    eq_of_core hcore (·.workerCheckpoint) fun _ => rfl
  have hbase : record.originalBase = r.originalBase :=
    eq_of_core hcore (·.originalBase) fun _ => rfl
  have hproven : provenLineage graph record ⟨r.ticketId, executionBranchOf r.ticketId,
      executionPathOf r.ticketId, r.workerCheckpoint, baseHead, false⟩ authorized w
      = .ok lineage := by
    unfold provenLineage
    rw [hworker, hbase, ha.chain, hpublished, hbranch]
    simp only [require, hremote, hauthorized, and_self, decide_true, if_true, bind, Except.bind,
      pure, Except.pure]
    have hmembers : ∀ published, r.executionRemoteHead = some published → published ∈ lineage :=
      ha.published
    simp only [Option.mem_def, decide_eq_true_eq]
    rw [if_pos hmembers]
  unfold rewriteLineage
  refine .bind (.observe hproven ?_)
  unfold rewrite
  refine .bind (.get ?_)
  -- the record of the operation
  have hcore' : core (rewriteOperation record target authorized lineage) = core r := hcore
  let s : RuntimeState :=
    (rewriteCall none (rewriteOperation record target authorized lineage)).payload w.state
  have hvalid : validateStateInvariant s = .ok () :=
    h.valid_of_record rfl (h.validCore hcore') rfl rfl rfl rfl rfl rfl
  have hsaved : Rewriting graph r target lineage { w.toSite with state := s } :=
    h.saved hvalid rfl rfl rfl rfl
      (.localPending _ r.workerCheckpoint rfl hcore' rfl rfl rfl hcheckpoint (.inl rfl) hremote)
  refine .bind (sat_save (congrArg _ hmemory) hvalid (.inl hsaved) ?_)
  refine .bind (.effect (.inl hsaved) ?_)
  -- the rebase
  have hmoved : Rewriting graph r target lineage (atCommit r head { w.toSite with state := s }) :=
    hsaved.moved ha (.localPending _ head rfl hcore' rfl rfl rfl executionHead_atCommit
      (.inr hchain) hremote)
  refine .bind (.effect (.inl hmoved) ?_)
  have hpin : (atCommit r head { w.toSite with state := s }).rewrittenHead r = w.rewrittenHead r :=
    rewrittenHead_atCommit
  unfold Rewritable
  rw [← hpin] at hunpinned ⊢
  exact sat_finishRewrite ha hmoved hcore rfl executionHead_atCommit hremote hchain hidentity
    hunpinned hunpublished rfl

/-! ### Recovery -/

theorem sat_undoRewrite (ha : Authorised graph product r target rewritePublished lineage)
    (h : Rewriting graph r target lineage w.toSite)
    (hrecord : w.state.reconciliation = some record)
    (hcore : core record = core r) (hstage : record.rewriteStage = some .localPending)
    (htarget : record.rewriteTarget = some target)
    (hcount : record.rewriteCount = some lineage.length) (hhead : w.executionHead r = some head)
    (hchain : head = r.workerCheckpoint
      ∨ (graph.lineage target head).map List.length = some lineage.length)
    (hremote : w.executionRemoteHead r.executionBranch = r.executionRemoteHead)
    {baseHead : String} {E : String → Session → Prop} :
    Sat (fun t => UnderWay graph r target lineage t.toSite)
      (undoRewrite graph record ⟨r.ticketId, executionBranchOf r.ticketId,
        executionPathOf r.ticketId, head, baseHead, false⟩ target)
      (fun _ t => Rewriting graph r target lineage t.toSite
        ∧ t.executionHead r = some r.workerCheckpoint ∧ t.rewrittenHead r = w.rewrittenHead r
        ∧ t.submodules = w.submodules ∧ t.executionRemoteHead r.executionBranch = r.executionRemoteHead
        ∧ t.state = w.state ∧ t.memory = w.memory) E w := by
  have hworker : record.workerCheckpoint = r.workerCheckpoint :=
    eq_of_core hcore (·.workerCheckpoint) fun _ => rfl
  unfold undoRewrite
  rw [hworker]
  by_cases hsame : head = r.workerCheckpoint
  · rw [if_pos hsame]
    exact .pure ⟨h, hsame ▸ hhead, rfl, rfl, hremote, rfl, rfl⟩
  · rw [if_neg hsame]
    have hlength := hchain.resolve_left hsame
    have hundoable : record.rewriteCount.isSome = true
        ∧ (graph.lineage target head).map List.length = record.rewriteCount := by
      rw [hcount, hlength]
      exact ⟨rfl, rfl⟩
    refine .bind (.ensure (fun _ => ?_) fun hbad => absurd hundoable hbad)
    have hmoved : Rewriting graph r target lineage (atCommit r r.workerCheckpoint w.toSite) :=
      h.moved ha (.localPending record r.workerCheckpoint hrecord hcore hstage htarget hcount
        executionHead_atCommit (.inl rfl) hremote)
    exact .effect (.inl hmoved)
      ⟨hmoved, executionHead_atCommit, rewrittenHead_atCommit, rfl, hremote, rfl, rfl⟩

/-- The record is taken back to what it was before a rewrite, and the rewrite is made. -/
theorem sat_rewriteAgain (ha : Authorised graph product r target rewritePublished lineage)
    (h : Rewriting graph r target lineage w.toSite) (hcore : core record = core r)
    (hstage : record.rewriteStage = none) {authorized : Bool}
    (hauthorized : r.executionRemoteHead = none ∨ authorized = true)
    (hmemory : w.memory = w.state)
    (hcheckpoint : w.executionHead r = some r.workerCheckpoint)
    (hremote : w.executionRemoteHead r.executionBranch = r.executionRemoteHead)
    (hchain : (graph.lineage target head).map List.length = some lineage.length)
    (hidentity : isGitIdentity head = true) (hunpinned : w.rewrittenHead r ≠ some head)
    (hunpublished : r.executionRemoteHead ≠ some head) :
    Sat (fun t => UnderWay graph r target lineage t.toSite)
      (rewriteAgain graph record target authorized (.finished head false))
      (fun _ t => Updated graph r target lineage t.toSite ∧ Rewritable r head w.toSite)
      (fun _ t => ¬ Rewritable r head w.toSite ∧ Rewriting graph r target lineage t.toSite) w := by
  have hbase : record.originalBase = r.originalBase :=
    eq_of_core hcore (·.originalBase) fun _ => rfl
  unfold rewriteAgain
  rw [hbase]
  let s : RuntimeState := (rewriteCall (some r.originalBase) record).payload w.state
  have hvalid : validateStateInvariant s = .ok () :=
    h.valid_of_record rfl (h.validCore hcore) rfl rfl rfl rfl rfl rfl
  have hsaved : Rewriting graph r target lineage { w.toSite with state := s } :=
    h.saved hvalid rfl rfl rfl rfl (.ready record rfl hcore hstage rfl hcheckpoint hremote)
  refine .bind (sat_save (congrArg _ hmemory) hvalid (.inl hsaved) ?_)
  obtain ⟨-, -, nb, -⟩ := nonempty_of_validateReconciliation h.validRecord
  let t : Session := { w with state := s, memory := s }
  have ht : Rewriting graph r target lineage t.toSite := hsaved
  have hobserved := executionWorkspaceForRecovery_eq (w := t) ha ht hcheckpoint rfl nb
    (Git.CommitGraph.isAncestor_of_reaches (Git.CommitGraph.lineage_reaches ha.chain)) h.submodules
  refine .bind (.observe hobserved ?_)
  exact sat_rewriteLineage (w := t) ha ht hcore hauthorized rfl hcheckpoint hremote hchain hidentity
    hunpinned hunpublished

/-! ### A whole run -/

/-- The request is valid for the record of an operation under way. -/
theorem validateUpdateBase_eq
    (ha : Authorised graph product r target rewritePublished lineage)
    (h : Rewriting graph r target lineage w.toSite) (hcore : core record = core r) :
    validateUpdateBase graph product r.ticketId target record w = .ok () := by
  have hid : record.ticketId = r.ticketId := eq_of_core hcore (·.ticketId) fun _ => rfl
  have hstatus : record.status = r.status := eq_of_core hcore (·.status) fun _ => rfl
  have hbranch : record.executionBranch = r.executionBranch :=
    eq_of_core hcore (·.executionBranch) fun _ => rfl
  have hpath : record.executionPath = r.executionPath :=
    eq_of_core hcore (·.executionPath) fun _ => rfl
  have hevidenceRef : record.evidenceRef = r.evidenceRef :=
    eq_of_core hcore (·.evidenceRef) fun _ => rfl
  have hworker : record.workerCheckpoint = r.workerCheckpoint :=
    eq_of_core hcore (·.workerCheckpoint) fun _ => rfl
  have hbase : record.originalBase = r.originalBase :=
    eq_of_core hcore (·.originalBase) fun _ => rfl
  unfold validateUpdateBase
  simp only [hid, hstatus, hbranch, hpath, hevidenceRef, hworker, hbase, ha.status, ha.branchOk,
    ha.clean, ha.localHead, ha.remoteHead, ha.related, h.evidence, ha.branch, ha.path, require, bind, Except.bind]
  simp [ha.nonempty]

omit [Project] [Sha256] in
/-- The published branch has moved: the recovery takes the result. -/
theorem rewriteProven_eq (hcore : core record = core r)
    (hdisplaced : record.displacedEvidenceRef = some r.evidenceRef)
    (hrewritten : record.rewrittenEvidenceRef
      = some (rewrittenEvidenceRef r.ticketId r.executionId))
    (hevidence : w.git.refs r.evidenceRef = some r.workerCheckpoint)
    (hpin : w.rewrittenHead r = some head)
    (hchain : (graph.lineage target head).map List.length = some lineage.length) :
    rewriteProven graph record target head w = .ok () := by
  have hworker : record.workerCheckpoint = r.workerCheckpoint :=
    eq_of_core hcore (·.workerCheckpoint) fun _ => rfl
  have hrefs : w.git.refs (rewrittenEvidenceRef r.ticketId r.executionId) = some head := hpin
  obtain ⟨rewritten, hsome, -⟩ := Option.map_eq_some_iff.mp hchain
  unfold rewriteProven
  simp [hdisplaced, hrewritten, hevidence, hrefs, hsome, hworker, require, bind, Except.bind]

/-- **One run.** A request for an operation under way resolves it if and only if it can be
    completed. -/
theorem sat_reconcileUpdateBase
    (ha : Authorised graph product r target rewritePublished lineage)
    (h : Rewriting graph r target lineage w.toSite) (hmemory : w.memory = w.state)
    (hfresh : FreshRebase graph target lineage.length w.toSite head) :
    Sat (fun t => UnderWay graph r target lineage t.toSite)
      (reconcileUpdateBase graph product r.ticketId target rewritePublished (.finished head false))
      (fun _ t => Updated graph r target lineage t.toSite ∧ Completable r head w.toSite)
      (fun _ t => ¬ Completable r head w.toSite ∧ Rewriting graph r target lineage t.toSite) w := by
  have hunpinned : w.rewrittenHead r ≠ some head := hfresh.fresh _
  have hrewritable : ∀ t : Session, t.rewrittenHead r = w.rewrittenHead r →
      t.submodules = w.submodules →
      (Rewritable r head t.toSite ↔ Rewritable r head w.toSite) := by
    intro t hsame hsubmodules
    unfold Rewritable
    rw [hsame, hsubmodules]
  have hnone : w.executionRemoteHead r.executionBranch = r.executionRemoteHead →
      ¬ Rewritable r head w.toSite → ¬ Completable r head w.toSite := by
    rintro hremote hnot (hcomplete | hcomplete)
    · exact hnot hcomplete
    · exact hcomplete hremote
  unfold reconcileUpdateBase
  refine .bind (.get ?_)
  rw [hmemory]
  -- the record on entry says how far an earlier run got
  cases hat : h.position with
  | ready record hrecord hcore hstage hbase hhead hremote =>
    have hunpublished : r.executionRemoteHead ≠ some head := by
      rw [← hremote]
      exact hfresh.unpublished _
    rw [hrecord]
    -- no rewrite is in progress: one rewrite from the checkpoint
    refine .bind (.observe (validateUpdateBase_eq ha h hcore) ?_)
    rw [hstage]
    obtain ⟨-, -, nb, -⟩ := nonempty_of_validateReconciliation h.validRecord
    have hbased : w.memory = { w.state with executionBaseHead := some r.originalBase } := by
      rw [hmemory, ← hbase]
    have hobserved := executionWorkspaceForRecovery_eq ha h hhead hbased nb
      (Git.CommitGraph.isAncestor_of_reaches (Git.CommitGraph.lineage_reaches ha.chain)) h.submodules
    refine .bind (.observe hobserved ?_)
    exact (sat_rewriteLineage ha h hcore ha.authorised hmemory hhead hremote hfresh.lineage
      hfresh.identity hunpinned hunpublished).mono (fun _ => id)
      (fun _ t ht => ⟨ht.1, .inl ht.2⟩) fun _ t ht => ⟨hnone hremote ht.1, ht.2⟩
  | localPending record current hrecord hcore hstage htarget hcount hhead hchain hremote =>
    have hunpublished : r.executionRemoteHead ≠ some head := by
      rw [← hremote]
      exact hfresh.unpublished _
    rw [hrecord]
    refine .bind (.observe (validateUpdateBase_eq ha h hcore) ?_)
    rw [hstage]
    refine .bind (.observe (h.validateExisting hhead _) ?_)
    refine .bind (.ensure (fun _ => ?_) fun hne => absurd htarget hne)
    unfold recoverLocalPending
    refine .bind (.ensure (fun _ => ?_) fun hne => absurd rfl hne)
    -- the rewrite found is undone first, and then done again with the new rebase
    refine .bind ((sat_undoRewrite ha h hrecord hcore hstage htarget hcount hhead hchain
      hremote).mono (fun _ => id) ?_ fun _ _ => id)
    rintro - t ⟨ht, hthead, htpin, htsubmodules, htremote, htstate, htmemory⟩
    have hcore' : core { record with
        rewriteStage := none, rewriteTarget := none, rewriteCount := none } = core r := hcore
    refine (sat_rewriteAgain ha ht hcore' rfl ?_ (by rw [htmemory, htstate, hmemory]) hthead
      htremote hfresh.lineage hfresh.identity (by rw [htpin]; exact hunpinned) hunpublished).mono
      (fun _ => id) ?_ ?_
    · exact ha.authorised.imp_right fun hyes => by rw [hyes]; rfl
    · exact fun _ u hu => ⟨hu.1, .inl ((hrewritable t htpin htsubmodules).mp hu.2)⟩
    · exact fun _ u hu => ⟨hnone hremote (mt (hrewritable t htpin htsubmodules).mpr hu.1), hu.2⟩
  | remotePending record published current hrecord hcore hstage htarget hcheckpoint hexpected
      hdisplaced hrewritten hpublished hne hidentity hpin hhead hchain hremote =>
    rw [hrecord]
    refine .bind (.observe (validateUpdateBase_eq ha h hcore) ?_)
    rw [hstage]
    obtain ⟨there, hthere⟩ : ∃ there, w.executionHead r = some there :=
      hhead.elim (fun h => ⟨_, h⟩) fun h => ⟨_, h.1⟩
    refine .bind (.observe (h.validateExisting hthere _) ?_)
    refine .bind (.ensure (fun _ => ?_) fun hne => absurd htarget hne)
    rw [hcheckpoint]
    unfold recoverRemotePending
    refine .bind (.ensure (fun _ => ?_) fun hne => absurd rfl hne)
    refine .bind (.get ?_)
    have hbranch : record.executionBranch = r.executionBranch :=
      eq_of_core hcore (·.executionBranch) fun _ => rfl
    have hworker : record.workerCheckpoint = r.workerCheckpoint :=
      eq_of_core hcore (·.workerCheckpoint) fun _ => rfl
    have hmove : moveHead r.ticketId record.workerCheckpoint
        = moveHead r.ticketId r.workerCheckpoint := by rw [hworker]
    dsimp only
    rw [hmove]
    by_cases hsame : w.executionRemoteHead record.executionBranch = record.rewriteExpectedRemote
    · -- the published branch has not moved
      rw [if_pos hsame]
      rw [hbranch, hexpected] at hsame
      have hunpublished : r.executionRemoteHead ≠ some head := by
        rw [← hsame]
        exact hfresh.unpublished _
      let t : Session := moveHead r.ticketId r.workerCheckpoint w
      have ht : Rewriting graph r target lineage t.toSite :=
        h.moved ha (.remotePending record published current hrecord hcore hstage htarget hcheckpoint
          hexpected hdisplaced hrewritten hpublished hne hidentity
          (rewrittenHead_atCommit.trans hpin)
          (.inr ⟨executionHead_atCommit, hsame.trans hpublished⟩) hchain hremote)
      refine .bind (.effect (.inl ht) ?_)
      have hkept : t.rewrittenHead r = w.rewrittenHead r := rewrittenHead_atCommit
      have hcore' : core { record with
          rewriteStage := none, rewriteCheckpoint := none, rewriteExpectedRemote := none
          rewriteTarget := none } = core r := hcore
      refine (sat_rewriteAgain (w := t) ha ht hcore' rfl ?_ hmemory executionHead_atCommit hsame
        hfresh.lineage hfresh.identity (by rw [hkept]; exact hunpinned) hunpublished).mono
        (fun _ => id) ?_ ?_
      · exact ha.authorised.imp_right fun hyes => by rw [hyes]; rfl
      · exact fun _ u hu => ⟨hu.1, .inl ((hrewritable t hkept rfl).mp hu.2)⟩
      · exact fun _ u hu => ⟨hnone hsame (mt (hrewritable t hkept rfl).mpr hu.1), hu.2⟩
    · -- the published branch has moved
      rw [if_neg hsame]
      rw [hbranch, hexpected] at hsame
      have hnow : w.executionRemoteHead r.executionBranch = some current := by
        rcases hremote with hold | hnew
        · exact absurd (hold.trans hpublished.symm) hsame
        · exact hnew
      have hcurrent : w.executionHead r = some current := by
        rcases hhead with hcurrent | ⟨-, hold⟩
        · exact hcurrent
        · exact absurd (hold.trans hpublished.symm) hsame
      have hthat : there = current := Option.some.inj (hthere.symm.trans hcurrent)
      have hfound : w.executionRemoteHead record.executionBranch = some current ∧ there = current :=
        ⟨hbranch ▸ hnow, hthat⟩
      refine .bind (.ensure (fun _ => ?_) fun hbad => absurd hfound hbad)
      refine .bind (.observe (rewriteProven_eq hcore hdisplaced hrewritten h.evidence hpin hchain) ?_)
      have hvalid : validateReconciliation { record with
          status := .resolved, resolution := some .updateBase
          resolutionClass := some .updateBaseRewrite
          effectiveBase := some target
          workerCheckpoint := current
          executionRemoteHead := some current
          evidenceRef := record.rewrittenEvidenceRef.getD record.evidenceRef
          executionReport := none } = .ok () := by
        refine validateReconciliation_resolved (h.validCore hcore) hidentity rfl rfl (.inr rfl) ?_
          rfl rfl
        show record.rewrittenEvidenceRef.getD record.evidenceRef ≠ ""
        rw [hrewritten]
        exact rewrittenEvidenceRef_ne_empty _ _
      have hbased : w.memory = { w.state with executionBaseHead := w.state.executionBaseHead } :=
        hmemory
      refine (sat_resolve h hbased hvalid rfl rfl hchain hcurrent hpin ?_).mono (fun _ => id)
        (fun _ t ht => ⟨ht, .inr hsame⟩) fun _ _ => id
      rw [hnow, hpublished]
      rfl

/-! ### Interrupted runs -/

/-- The rebase of a run makes commits of its own. -/
def Rebases (graph : Git.CommitGraph) (target : String) (count : Nat) (w : Session)
    (rebase : Rebase) : Prop :=
  ∃ head, rebase = .finished head false ∧ FreshRebase graph target count w.toSite head

theorem sat_served (ha : Authorised graph product r target rewritePublished lineage)
    (h : Rewriting graph r target lineage w.toSite)
    (hfresh : FreshRebase graph target lineage.length w.toSite head) :
    Sat (fun t => UnderWay graph r target lineage t.toSite)
      (served graph product r.ticketId target rewritePublished (.finished head false))
      (fun _ t => Updated graph r target lineage t.toSite ∧ Completable r head w.toSite)
      (fun _ t => ¬ Completable r head w.toSite ∧ Rewriting graph r target lineage t.toSite) w := by
  have hrestarted : Rewriting graph r target lineage (restart w).toSite := h
  exact .bind (.effect (.inl h) (sat_reconcileUpdateBase ha hrestarted rfl hfresh))

omit [Sha256] in
/-- A resolved record is not pending: the request is refused. -/
theorem validateUpdateBase_resolved {ticketId : String} (h : record.status = .resolved) :
    validateUpdateBase graph product ticketId target record w
      = .error ("ticket " ++ ticketId ++ " has no pending reconciliation") := by
  have hpending : record.status ≠ .pending := by rw [h]; decide
  unfold validateUpdateBase
  simp [require, hpending, bind, Except.bind]

/-- A request for an operation that is done is refused and changes nothing. -/
theorem sat_served_updated (h : Updated graph r target lineage w.toSite) {rebase : Rebase} :
    Sat (fun t => UnderWay graph r target lineage t.toSite)
      (served graph product r.ticketId target rewritePublished rebase)
      (fun _ _ => False) (fun _ t => Updated graph r target lineage t.toSite) w := by
  have hresolved := h.resolved
  refine .bind (.effect (.inr h) ?_)
  unfold reconcileUpdateBase
  refine .bind (.get ?_)
  cases hrecord : (restart w).memory.reconciliation with
  | none => exact .raise h
  | some record =>
    have hsame : w.state.reconciliation = some record := hrecord
    rw [hsame] at hresolved
    exact .bind (.refused (validateUpdateBase_resolved (by simpa using hresolved)) h)

/-- A pending reconciliation as the scheduler leaves it: the checkpoint is pinned, and the worktree
    and the remote are as they were observed. -/
structure Preserved (r : Reconciliation) (w : Site) : Prop where
  valid : validateStateInvariant w.state = .ok ()
  idle : w.state.phase = .idle
  record : w.state.reconciliation = some r
  ticket : w.state.executionTicketId = some r.ticketId
  base : w.state.executionBaseHead = some r.originalBase
  branch : w.state.executionBranch = some (executionBranchOf r.ticketId)
  path : w.state.executionPath = some (executionPathOf r.ticketId)
  registered : w.git.worktrees.get (executionPathOf r.ticketId)
    = some ⟨executionBranchOf r.ticketId, false⟩
  directory : w.git.directories (executionPathOf r.ticketId) = true
  submodules : w.submodules r.workerCheckpoint = .ok ()
  evidence : w.git.refs r.evidenceRef = some r.workerCheckpoint
  head : w.executionHead r = some r.workerCheckpoint
  remote : w.executionRemoteHead r.executionBranch = r.executionRemoteHead

theorem Preserved.rewriting (ha : Authorised graph product r target rewritePublished lineage)
    {w : Site} (h : Preserved r w) : Rewriting graph r target lineage w :=
  ⟨h.valid, h.idle, h.ticket, h.branch, h.path, h.registered, h.directory, h.submodules, h.evidence,
    .ready r h.record rfl ha.stage h.base h.head h.remote⟩

/-- The states that killed requests can leave. -/
theorem underWay_of_interrupted
    (ha : Authorised graph product r target rewritePublished lineage)
    (h : Preserved r w.toSite) {w' : Session}
    (hruns : Interrupted (Rebases graph target lineage.length)
      (served graph product r.ticketId target rewritePublished) w w') :
    UnderWay graph r target lineage w'.toSite := by
  have hstart : UnderWay graph r target lineage w.toSite := .inl (h.rewriting ha)
  have hstep : ∀ (rebase : Rebase) (u : Session), UnderWay graph r target lineage u.toSite →
      Rebases graph target lineage.length u rebase →
      ∀ v ∈ (served graph product r.ticketId target rewritePublished rebase u).visited,
        UnderWay graph r target lineage v.toSite := by
    rintro rebase u (hu | hu) ⟨head, rfl, hfresh⟩
    · exact (Session.sat_served ha hu hfresh).1
    · exact (sat_served_updated hu).1
  exact hruns.invariant (I := fun t : Session => UnderWay graph r target lineage t.toSite) hstart
    hstep

/-- An operation under way is not done. -/
theorem not_updated (ha : Authorised graph product r target rewritePublished lineage)
    {w : Site} (h : Rewriting graph r target lineage w) :
    ¬ Updated graph r target lineage w := by
  intro hdone
  obtain ⟨record, hrecord, hcore⟩ := h.pending
  have hstatus : record.status = .pending :=
    (eq_of_core hcore (·.status) fun _ => rfl).trans ha.status
  have hresolved := hdone.resolved
  rw [hrecord] at hresolved
  simp [hstatus] at hresolved

/-- A request for an operation under way leaves it done if and only if it can be completed. -/
theorem updated_served_iff (ha : Authorised graph product r target rewritePublished lineage)
    (h : Rewriting graph r target lineage w.toSite)
    (hfresh : FreshRebase graph target lineage.length w.toSite head) :
    Updated graph r target lineage ((served graph product r.ticketId target rewritePublished
        (.finished head false) w).last w).toSite
      ↔ Completable r head w.toSite := by
  obtain ⟨-, hresult⟩ := sat_served ha h hfresh
  cases hend : (served graph product r.ticketId target rewritePublished (.finished head false)
      w).result with
  | ok done =>
    rw [hend] at hresult
    exact iff_of_true hresult.1 hresult.2
  | error message =>
    rw [hend] at hresult
    exact iff_of_false (not_updated ha hresult.2) hresult.1

/-- **Restart.** After any number of killed requests the next one leaves the operation done if and
    only if it is done already, or its rebase can be finished, or the published branch has moved. -/
theorem updateBase_resolves_iff
    (ha : Authorised graph product r target rewritePublished lineage)
    (h : Preserved r w.toSite) {w' : Session}
    (hruns : Interrupted (Rebases graph target lineage.length)
      (served graph product r.ticketId target rewritePublished) w w')
    (hfresh : FreshRebase graph target lineage.length w'.toSite head) :
    Updated graph r target lineage ((served graph product r.ticketId target rewritePublished
        (.finished head false) w').last w').toSite
      ↔ w'.state.reconciliation.any (·.status = .resolved) = true ∨ Completable r head w'.toSite := by
  rcases underWay_of_interrupted ha h hruns with hunder | hdone
  · have hpending : ¬ w'.state.reconciliation.any (·.status = .resolved) = true := by
      obtain ⟨record, hrecord, hcore⟩ := hunder.pending
      have hstatus : record.status = .pending :=
        (eq_of_core hcore (·.status) fun _ => rfl).trans ha.status
      simp [hrecord, hstatus]
    rw [updated_served_iff ha hunder hfresh, or_iff_right hpending]
  · have hsat : Sat (fun t => UnderWay graph r target lineage t.toSite)
        (served graph product r.ticketId target rewritePublished (.finished head false))
        (fun _ _ => False) (fun _ t => Updated graph r target lineage t.toSite) w' :=
      sat_served_updated hdone
    obtain ⟨-, hresult⟩ := hsat
    refine iff_of_true ?_ (.inl hdone.resolved)
    cases hend : (served graph product r.ticketId target rewritePublished (.finished head false)
        w').result with
    | ok done =>
      rw [hend] at hresult
      exact hresult.elim
    | error message =>
      rw [hend] at hresult
      exact hresult

end Run

end Session

/-! ### Requests that were killed -/

/-- The preserved checkpoint `d` and the target `b` are on top of `a`; `e` and `f` are two rebases of
    `d` onto `b`. -/
def rewriteGraph : Git.CommitGraph where
  parents commit :=
    if commit = sampleHead 'b' ∨ commit = sampleHead 'd' then [sampleHead 'a']
    else if commit = sampleHead 'e' ∨ commit = sampleHead 'f' then [sampleHead 'b'] else []
  rank commit :=
    if commit = sampleHead 'b' ∨ commit = sampleHead 'd' then 1
    else if commit = sampleHead 'e' ∨ commit = sampleHead 'f' then 2 else 0
  rank_lt := by
    intro commit parent h
    have hab : sampleHead 'a' ≠ sampleHead 'b' := by decide
    have had : sampleHead 'a' ≠ sampleHead 'd' := by decide
    have hae : sampleHead 'a' ≠ sampleHead 'e' := by decide
    have haf : sampleHead 'a' ≠ sampleHead 'f' := by decide
    split at h
    · rename_i hfirst
      have hparent : parent = sampleHead 'a' := by simpa using h
      simp [hparent, hfirst, hab, had, hae, haf]
    · rename_i hfirst
      split at h
      · rename_i hsecond
        have hparent : parent = sampleHead 'b' := by simpa using h
        simp [hparent, hfirst, hsecond]
      · simp at h

/-- The checkpoint `d` of `t1` is published, and the product has moved from `a` to `b`. -/
def publishedRecord : Reconciliation where
  status := .pending
  reason := "product changed"
  resolution := none
  ticketId := "t1"
  executionId := "e1"
  originalBase := sampleHead 'a'
  observedProduct := sampleHead 'b'
  workerCheckpoint := sampleHead 'd'
  executionRemoteHead := some (sampleHead 'd')
  productRemoteHead := sampleHead 'b'
  controlHead := sampleHead 'c'
  executionBranch := "devlegate/work/t1"
  executionPath := "/work/work/t1"
  evidenceRef := "refs/devlegate/reconciliation/t1/e1"

def publishedSession : Session where
  state := {
    executionTicketId := some "t1"
    executionBaseHead := some (sampleHead 'a')
    executionBranch := some "devlegate/work/t1"
    executionPath := some "/work/work/t1"
    reconciliation := some publishedRecord }
  git := {
    refs := fun ref =>
      if ref = "refs/heads/devlegate/work/t1" ∨ ref = "refs/devlegate/reconciliation/t1/e1" then
        some (sampleHead 'd')
      else none
    remote := fun ref =>
      if ref = "refs/heads/devlegate/work/t1" then some (sampleHead 'd') else none
    worktrees := [("/work/work/t1", ⟨"devlegate/work/t1", false⟩)]
    directories := fun path => path = "/work/work/t1" }
  memory := {}

/-- The product checkout at `b`. -/
def productAtTarget : ProductCheckout where
  branchOk := true
  localHead := sampleHead 'b'
  dirty := false
  remoteHead := sampleHead 'b'
  executionRemote := none

/-- A request whose rebase makes one commit. -/
def publishedRequest (rebased : Char) : Session.Program Unit :=
  @Session.served sampleProject rewriteGraph sampleSha256 productAtTarget "t1" (sampleHead 'b') true
    (.finished (sampleHead rebased) false)

theorem publishedRecord_authorised :
    @Site.Authorised sampleProject rewriteGraph productAtTarget publishedRecord (sampleHead 'b') true
      [sampleHead 'd'] := by
  refine @Site.Authorised.mk sampleProject _ _ _ _ _ _ rfl rfl rfl rfl rfl rfl (by decide) ?_ rfl
    rfl rfl ?_ (.inr rfl) ?_
  · decide
  · decide
  · decide

theorem publishedSession_preserved :
    @Session.Preserved sampleProject sampleSha256 publishedRecord publishedSession.toSite := by
  refine @Session.Preserved.mk sampleProject sampleSha256 _ _ ?_ rfl rfl rfl rfl rfl rfl rfl rfl rfl
    rfl rfl rfl
  decide

/-- A ref that is set to one of some heads leaves the refs at one of them. -/
theorem update_mem {refs : String → Option String} {heads : List (Option String)} {ref commit : String}
    (h : ∀ other, refs other ∈ heads) (hcommit : some commit ∈ heads) :
    ∀ other, Function.update refs ref (some commit) other ∈ heads := by
  intro other
  by_cases hsame : other = ref
  · rw [hsame, Function.update_self]
    exact hcommit
  · rw [Function.update_of_ne hsame]
    exact h other

theorem publishedSession_refs : ∀ ref, publishedSession.git.refs ref
    ∈ [none, some (sampleHead 'd'), some (sampleHead 'e')] := by
  intro ref
  simp only [publishedSession]
  split <;> simp

theorem publishedSession_remote : ∀ ref, publishedSession.git.remote ref
    ∈ [none, some (sampleHead 'd'), some (sampleHead 'e')] := by
  intro ref
  simp only [publishedSession]
  split <;> simp

/-- A rebase to a head that is no ref's. -/
theorem freshRebase_of_mem {w : Site} {rebased : Char} {heads : List (Option String)}
    (hrefs : ∀ ref, w.git.refs ref ∈ heads) (hremote : ∀ ref, w.git.remote ref ∈ heads)
    (hfresh : some (sampleHead rebased) ∉ heads) (hidentity : isGitIdentity (sampleHead rebased) = true)
    (hlineage : (rewriteGraph.lineage (sampleHead 'b') (sampleHead rebased)).map List.length
      = some 1) :
    Site.FreshRebase rewriteGraph (sampleHead 'b') 1 w (sampleHead rebased) :=
  ⟨hlineage, hidentity, fun ref h => hfresh (h ▸ hrefs ref), fun ref h => hfresh (h ▸ hremote ref)⟩

/-- The first request rebases to `e`, which no ref names. -/
theorem publishedSession_rebases :
    Session.Rebases rewriteGraph (sampleHead 'b') 1 publishedSession
      (.finished (sampleHead 'e') false) := by
  refine ⟨sampleHead 'e', rfl, ⟨by decide, by decide, ?_, ?_⟩⟩
  · intro ref
    simp only [publishedSession]
    split <;> decide
  · intro ref
    simp only [publishedSession]
    split <;> decide

/-- A request that is killed after its rebase: the next one makes another rebase and ends it. -/
theorem updateBase_resolves_rebased :
    ∃ w', (publishedRequest 'e' publishedSession).visited[3]? = some w'
      ∧ @Site.Updated sampleProject rewriteGraph publishedRecord (sampleHead 'b') [sampleHead 'd']
        ((publishedRequest 'f' w').last w').toSite := by
  obtain ⟨w', hvisited, hrefs, hremote, hrewritable⟩ : ∃ w',
      (publishedRequest 'e' publishedSession).visited[3]? = some w'
        ∧ (∀ ref, w'.git.refs ref ∈ [none, some (sampleHead 'd'), some (sampleHead 'e')])
        ∧ (∀ ref, w'.git.remote ref ∈ [none, some (sampleHead 'd'), some (sampleHead 'e')])
        ∧ w'.rewrittenHead publishedRecord = none ∧ w'.submodules (sampleHead 'f') = .ok () :=
    ⟨_, rfl, update_mem publishedSession_refs (by simp), publishedSession_remote, rfl, rfl⟩
  have hrun : Interrupted (Session.Rebases rewriteGraph (sampleHead 'b') 1)
      (@Session.served sampleProject rewriteGraph sampleSha256 productAtTarget "t1" (sampleHead 'b')
        true) publishedSession w' :=
    .single ⟨_, publishedSession_rebases, List.mem_of_getElem? hvisited⟩
  have hfresh : Site.FreshRebase rewriteGraph (sampleHead 'b') 1 w'.toSite (sampleHead 'f') :=
    freshRebase_of_mem hrefs hremote (by decide) (by decide) (by decide)
  exact ⟨w', hvisited, (@Session.updateBase_resolves_iff sampleProject sampleSha256 rewriteGraph
    productAtTarget publishedRecord (sampleHead 'b') (sampleHead 'f') true [sampleHead 'd']
    publishedSession publishedRecord_authorised publishedSession_preserved w' hrun hfresh).mpr
    (.inr (.inl hrewritable))⟩

/-- A request that is killed after it has recorded the move of the published branch and before the
    branch has moved: the next one rebases to another head and does not end it. -/
theorem updateBase_stuck_pinned :
    ∃ w', (publishedRequest 'e' publishedSession).visited[5]? = some w'
      ∧ Site.FreshRebase rewriteGraph (sampleHead 'b') 1 w'.toSite (sampleHead 'f')
      ∧ ¬ @Site.Updated sampleProject rewriteGraph publishedRecord (sampleHead 'b')
        [sampleHead 'd'] ((publishedRequest 'f' w').last w').toSite := by
  obtain ⟨w', hvisited, hrefs, hremote, hpin, hpublished, hpending⟩ : ∃ w',
      (publishedRequest 'e' publishedSession).visited[5]? = some w'
        ∧ (∀ ref, w'.git.refs ref ∈ [none, some (sampleHead 'd'), some (sampleHead 'e')])
        ∧ (∀ ref, w'.git.remote ref ∈ [none, some (sampleHead 'd'), some (sampleHead 'e')])
        ∧ w'.rewrittenHead publishedRecord = some (sampleHead 'e')
        ∧ w'.executionRemoteHead "devlegate/work/t1" = some (sampleHead 'd')
        ∧ w'.state.reconciliation.any (·.status = .resolved) = false :=
    ⟨_, rfl, update_mem (update_mem publishedSession_refs (by simp)) (by simp),
      publishedSession_remote, rfl, rfl, rfl⟩
  have hrun : Interrupted (Session.Rebases rewriteGraph (sampleHead 'b') 1)
      (@Session.served sampleProject rewriteGraph sampleSha256 productAtTarget "t1" (sampleHead 'b')
        true) publishedSession w' :=
    .single ⟨_, publishedSession_rebases, List.mem_of_getElem? hvisited⟩
  have hfresh : Site.FreshRebase rewriteGraph (sampleHead 'b') 1 w'.toSite (sampleHead 'f') :=
    freshRebase_of_mem hrefs hremote (by decide) (by decide) (by decide)
  refine ⟨w', hvisited, hfresh, ?_⟩
  rcases @Session.underWay_of_interrupted sampleProject sampleSha256 rewriteGraph productAtTarget
    publishedRecord (sampleHead 'b') true [sampleHead 'd'] publishedSession
    publishedRecord_authorised publishedSession_preserved w' hrun with hunder | hdone
  · intro hdone
    have hcomplete := (@Session.updated_served_iff sampleProject sampleSha256 rewriteGraph
      productAtTarget publishedRecord (sampleHead 'b') (sampleHead 'f') true [sampleHead 'd'] w'
      publishedRecord_authorised hunder hfresh).mp hdone
    rcases hcomplete with ⟨hnone, -⟩ | hmoved
    · rw [hpin] at hnone
      cases hnone
    · exact hmoved hpublished
  · have hresolved := @Site.Updated.resolved sampleProject _ _ _ _ _ hdone
    rw [hpending] at hresolved
    cases hresolved

end Devlegate
