import Devlegate.WorkspaceManager

namespace Devlegate

open Crash

/-!
# The workspace of a pending execution

A pending execution is bound to a branch, a path and a base.  The engine classifies the binding
before the worker starts, repairs one that it finds recoverable, and leaves an unsafe one to the
operator.

* `inspectBound`: `_inspect_bound_execution_workspace`.
* `repair`: `_repair_bound_execution_workspace`.
* `validateRecoverAdmission`: `_validate_recover_admission`.
* `repair_agrees_iff`: for which bindings the repair does what the classification says.
-/

/-! ### Earlier executions -/

/-- `_workspace_recovery_ref`. -/
def workspaceRecoveryRef (ticketId executionId : String) : String :=
  "refs/devlegate/recovery/workspace/" ++ ticketId ++ "/" ++ executionId

/-- The reports of earlier executions on the branch that ended at `head`. -/
def priorReports (executionId branch head : String) (reports : List ExecutionReport) :
    List ExecutionReport :=
  reports.filter fun report => report.executionId ≠ executionId ∧ report.executionBranch = branch
    ∧ report.workspaceHead = some head

namespace WorkspaceSite

/-! ### Classification -/

section Engine

variable [Project] (graph : Git.CommitGraph)

/-- `_inspect_bound_execution_workspace` once the binding is there. -/
def inspectBinding (ticketId executionId base : String) (startHead : Option String)
    (c : WorkspaceSite) : WorkspaceInspection :=
  let branch := executionBranchOf ticketId
  let topology := c.inspect graph ticketId base startHead
  if topology.classification = .reusable then topology
  else match c.refs (Git.branchRef branch) with
    | none =>
      if topology.reason = "execution branch is missing" then
        match c.registrations with
        | .error message => ⟨.unsafeBinding, message⟩
        | .ok registrations =>
          if (attachedAt registrations branch).isSome ∨ c.content.present then
            ⟨.unsafeBinding,
              "execution branch is missing but workspace material remains attached"⟩
          else ⟨.recoverable, "execution branch is missing; exact workspace can be rebuilt"⟩
      else ⟨.unsafeBinding, topology.reason⟩
    | some oldHead =>
      match c.reports with
      | .error message => ⟨.unsafeBinding, "cannot prove branch provenance: " ++ message⟩
      | .ok reports =>
        if (priorReports executionId branch oldHead reports).length ≠ 1 then
          ⟨.unsafeBinding, "conflicting execution branch ownership cannot be proven; "
            ++ "operator recovery required"⟩
        else ⟨.recoverable, "conflicting branch is exactly attributable to a prior execution "
          ++ "generation"⟩

end Engine

end WorkspaceSite

/-- The identity of the execution workspace is recorded. -/
def RuntimeState.workspaceBound (s : RuntimeState) : Bool :=
  [s.executionTicketId, s.executionId, s.executionBaseHead, s.executionBranch,
    s.executionPath].all nonEmpty

/-- The recorded branch and path are those of the manager. -/
def RuntimeState.managed [Project] (s : RuntimeState) (ticketId : String) : Bool :=
  s.executionBranch = some (executionBranchOf ticketId)
    && s.executionPath = some (executionPathOf ticketId)

/-- What the constructor of the manager says of an id that is none. -/
def invalidTicketId (ticketId : String) : String :=
  "invalid ticket ID for execution workspace: " ++ ticketId

namespace WorkspaceSite

section Engine

variable [Project] (graph : Git.CommitGraph) (s : RuntimeState)

/-- `_inspect_bound_execution_workspace`. -/
def inspectBound (c : WorkspaceSite) : WorkspaceInspection :=
  let ticketId := s.executionTicketId.getD ""
  if s.workspaceBound = false then
    ⟨.unsafeBinding, "persisted execution workspace binding is incomplete"⟩
  else if s.phase ≠ .agentPending then
    ⟨.unsafeBinding, "automatic workspace recovery is limited to pre-worker state"⟩
  else if s.workerIdentity.isSome then
    ⟨.unsafeBinding, "persisted worker ownership prevents workspace recovery"⟩
  else if s.pendingExecutionReport.isSome then
    ⟨.unsafeBinding, "durable worker result prevents workspace recovery"⟩
  else if isCanonicalTicketName (ticketId ++ ".md") = false then
    ⟨.unsafeBinding, invalidTicketId ticketId⟩
  else if s.managed ticketId = false then
    ⟨.unsafeBinding, "persisted execution workspace binding is invalid"⟩
  else c.inspectBinding graph ticketId (s.executionId.getD "") (s.executionBaseHead.getD "")
    s.executionStartHead

/-! ### Repair -/

/-- Pin `head` under a ref that nothing else has. -/
def preserve (ref head : String) : Program Unit := do
  let c ← .get
  match c.refs ref with
  | some pinned => .ensure (pinned = head) "workspace recovery evidence ref has conflicting identity"
  | none =>
    match c.refuses .pin with
    -- The ref is read again, and is still missing.
    | some _ => .raise "cannot preserve conflicting execution checkpoint"
    | none => .effect (setRef ref head)

/-- The branch is still at `head`. -/
def unmoved (branch head message : String) (c : WorkspaceSite) : Except String Unit :=
  if c.refs (Git.branchRef branch) = some head then .ok () else .error message

/-- Remove the worktree of the earlier execution, if it is clean and exact. -/
def removeConflicting (ticketId oldHead : String) : Program Unit := do
  let registrations ← .observe registrations
  let c ← .get
  .ensure ((attachedAt registrations (executionBranchOf ticketId)).all (· = c.resolved))
    "execution branch moved to an unexpected worktree"
  match registrations.get c.resolved with
  | none => .ensure (c.content.present = false) "execution worktree path is not safely registered"
  | some registration => do
    let workspace ← .observe (validateExisting ticketId oldHead (some registration))
    .ensure (workspace.head = oldHead ∧ workspace.dirty = false)
      "conflicting execution worktree is not clean and exact"
    removeWorktree .forceRemoveWorktree fun _ => "cannot remove conflicting execution worktree"

/-- `update-ref` of the branch from `oldHead` to `base`. -/
def moveBranch (branch base oldHead : String) : Program Unit := do
  .observe (unmoved branch oldHead "execution branch changed during automatic repair")
  let c ← .get
  .ensure (c.available base = true ∧ c.refuses .move = none)
    "execution branch changed before CAS repair"
  .effect (setRef (Git.branchRef branch) base)

/-- What the repair does with a branch at `oldHead` that is the result of `prior`. -/
def replaceWorkspace (ticketId base oldHead : String) (prior : ExecutionReport) :
    Program Unit := do
  let branch := executionBranchOf ticketId
  preserve (workspaceRecoveryRef ticketId prior.executionId) oldHead
  .observe (unmoved branch oldHead "execution branch changed before automatic repair")
  removeConflicting ticketId oldHead
  moveBranch branch base oldHead
  let repaired ← prepare graph ticketId base
  let final := (← .get).inspect graph ticketId base (some repaired.head)
  .ensure (final.classification = .reusable)
    ("repaired execution workspace is not reusable: " ++ final.reason)

/-- `_repair_bound_execution_workspace` once the binding is there. -/
def repairBinding (ticketId executionId base : String) : Program Unit := do
  let branch := executionBranchOf ticketId
  match (← .get).refs (Git.branchRef branch) with
  | none => do
    let _ ← prepare graph ticketId base
    pure ()
  | some oldHead => do
    match priorReports executionId branch oldHead (← .observe (·.reports)) with
    | [prior] => replaceWorkspace graph ticketId base oldHead prior
    | _ => .raise ("conflicting execution branch ownership cannot be proven; "
        ++ "operator recovery required")

/-- `_repair_bound_execution_workspace`. -/
def repair : Program Unit :=
  let ticketId := s.executionTicketId.getD ""
  if s.phase ≠ .agentPending ∨ s.workerIdentity.isSome then
    .raise "bound execution ownership is not proven absent"
  else if s.workspaceBound = false then .raise "persisted execution identity is incomplete"
  else if s.pendingExecutionReport.isSome then
    .raise "durable worker result prevents automatic workspace repair"
  else if isCanonicalTicketName (ticketId ++ ".md") = false then .raise (invalidTicketId ticketId)
  else if s.managed ticketId = false then
    .raise "persisted execution workspace binding is invalid"
  else repairBinding graph ticketId (s.executionId.getD "") (s.executionBaseHead.getD "")

/-! ### Operator recovery -/

/-- `_validate_recover_admission`. -/
def validateRecoverAdmission (ticketId executionId observedHead : String) (c : WorkspaceSite) :
    Except String Unit := do
  require (s.phase == .agentPending) "workspace recovery requires pre-worker state"
  require (s.executionTicketId == some ticketId)
    "requested ticket does not match the active execution"
  require (s.executionId == some executionId) "requested execution is no longer active"
  require s.workerIdentity.isNone "cannot recover an execution with worker ownership"
  require s.pendingExecutionReport.isNone "cannot recover an execution with a durable result"
  require (isGitIdentity observedHead) "observed branch HEAD is not a Git identity"
  require ((c.inspectBound graph s).classification == .unsafeBinding)
    "explicit recovery is allowed only for an UNSAFE workspace binding"
  require (nonEmpty s.executionBranch) "persisted execution branch identity is incomplete"
  let current := c.refs (Git.branchRef (s.executionBranch.getD ""))
  let evidence := c.refs ("refs/devlegate/recovery/operator/" ++ ticketId ++ "/" ++ executionId)
  let replay := evidence == some observedHead && current.isSome && current == s.executionBaseHead
  require (current.isSome && (current == some observedHead || replay))
    "execution branch does not match the authorized HEAD"

end Engine

/-! ### What the repair does -/

section Repair

variable {graph : Git.CommitGraph} {ticketId executionId base oldHead : String}
  {c t : WorkspaceSite}

/-- The ref of a branch is not a recovery ref: they differ in their sixth character. -/
theorem branchRef_ne_workspaceRecoveryRef (branch ticketId executionId : String) :
    Git.branchRef branch ≠ workspaceRecoveryRef ticketId executionId := by
  unfold Git.branchRef workspaceRecoveryRef
  intro h
  have hlist := congrArg String.toList h
  simp only [String.toList_append] at hlist
  have hsixth := congrArg (fun l => l.getD 5 'x') hlist
  revert hsixth
  show 'h' = 'd' → False
  decide

theorem runs_preserve {ref head : String} : Runs (preserve ref head) c () t
    ↔ (c.refs ref = some head ∨ c.refs ref = none ∧ c.refuses .pin = none)
      ∧ c.setRef ref head = t := by
  unfold preserve
  simp only [runs_bind, runs_get]
  cases hrefs : c.refs ref with
  | some pinned =>
    constructor
    · rintro ⟨_, _, ⟨rfl, rfl⟩, h⟩
      rw [hrefs] at h
      obtain ⟨rfl, rfl⟩ := runs_ensure.mp h
      exact ⟨.inl rfl, setRef_eq_self hrefs⟩
    · rintro ⟨hsame | ⟨hnone, -⟩, rfl⟩
      · cases hsame
        refine ⟨_, _, ⟨rfl, rfl⟩, ?_⟩
        rw [hrefs]
        exact runs_ensure.mpr ⟨rfl, (setRef_eq_self hrefs).symm⟩
      · cases hnone
  | none =>
    constructor
    · rintro ⟨_, _, ⟨rfl, rfl⟩, h⟩
      rw [hrefs] at h
      cases hrefuses : c.refuses .pin with
      | some stderr =>
        rw [hrefuses] at h
        exact absurd h runs_raise
      | none =>
        rw [hrefuses] at h
        exact ⟨.inr ⟨rfl, rfl⟩, (runs_effect.mp h).symm⟩
    · rintro ⟨hsame | ⟨-, hrefuses⟩, rfl⟩
      · cases hsame
      · refine ⟨_, _, ⟨rfl, rfl⟩, ?_⟩
        rw [hrefs, hrefuses]
        exact runs_effect.mpr rfl

theorem unmoved_eq_ok {branch head message : String} :
    c.unmoved branch head message = .ok () ↔ c.refs (Git.branchRef branch) = some head := by
  unfold unmoved
  split <;> simp_all

theorem runs_moveBranch {branch : String} : Runs (moveBranch branch base oldHead) c () t
    ↔ c.refs (Git.branchRef branch) = some oldHead ∧ (c.available base = true ∧ c.refuses .move = none)
      ∧ c.setRef (Git.branchRef branch) base = t := by
  unfold moveBranch
  simp only [runs_bind, runs_get, runs_observe, runs_ensure]
  constructor
  · rintro ⟨_, _, ⟨hhead, rfl⟩, _, _, ⟨rfl, rfl⟩, _, _, ⟨hmove, rfl⟩, h⟩
    exact ⟨unmoved_eq_ok.mp hhead, hmove, (runs_effect.mp h).symm⟩
  · rintro ⟨hhead, hmove, rfl⟩
    exact ⟨(), _, ⟨unmoved_eq_ok.mpr hhead, rfl⟩, _, _, ⟨rfl, rfl⟩, (), _, ⟨hmove, rfl⟩, runs_effect.mpr rfl⟩

variable [Project]

/-- The worktree of the earlier execution can be taken away: there is none, or it is a clean one at
    its own path. -/
structure Removable (ticketId : String) (c : WorkspaceSite) : Prop where
  listed : c.unlisted = none
  attached : (attachedAt c.worktrees (executionBranchOf ticketId)).all (· = c.resolved) = true
  worktree : c.worktrees.get c.resolved = none ∧ c.content = .absent
    ∨ c.worktrees.get c.resolved = some (.branch (executionBranchOf ticketId))
      ∧ (∃ checkout, c.content = .directory checkout ∧ checkout.gitdir = some c.resolved
        ∧ checkout.dirty = false) ∧ c.refuses .forceRemoveWorktree = none

theorem runs_removeConflicting
    (hhead : c.refs (Git.branchRef (executionBranchOf ticketId)) = some oldHead) :
    Runs (removeConflicting ticketId oldHead) c () t
      ↔ c.Removable ticketId ∧ c.dropWorktree = t := by
  unfold removeConflicting
  simp only [runs_bind, runs_get, runs_observe, runs_ensure]
  constructor
  · rintro ⟨_, _, ⟨hlist, rfl⟩, _, _, ⟨rfl, rfl⟩, _, _, ⟨hattached, rfl⟩, h⟩
    obtain ⟨hlisted, rfl⟩ := registrations_eq_ok.mp hlist
    split at h
    · rename_i hfree
      obtain ⟨hpresent, rfl⟩ := runs_ensure.mp h
      have habsent : c.content = .absent := by
        cases hcontent : c.content with
        | absent => rfl
        | file => simp [hcontent, PathContent.present] at hpresent
        | directory checkout => simp [hcontent, PathContent.present] at hpresent
      refine ⟨⟨hlisted, hattached, .inl ⟨hfree, habsent⟩⟩, ?_⟩
      unfold dropWorktree
      rw [Dict.erase_of_get_eq_none hfree, ← habsent]
    · rename_i registration hregistered
      simp only [runs_bind, runs_observe, runs_ensure] at h
      obtain ⟨workspace, _, ⟨hvalid, rfl⟩, _, _, ⟨⟨-, hclean⟩, rfl⟩, hremove⟩ := h
      obtain ⟨checkout, head, hregistration, ⟨hcontent, -⟩, -, rfl⟩ :=
        validateExisting_eq_ok.mp hvalid
      obtain ⟨hrefusal, rfl⟩ := runs_removeWorktree.mp hremove
      rw [hregistration] at hregistered
      unfold removeRefusal at hrefusal
      rw [hcontent] at hrefusal
      cases hrefuses : c.refuses .forceRemoveWorktree with
      | some stderr => simp [hrefuses] at hrefusal
      | none =>
        have hown : checkout.gitdir = some c.resolved := by
          by_contra hother
          simp [hrefuses, hother] at hrefusal
        exact ⟨⟨hlisted, hattached, .inr ⟨hregistered, ⟨checkout, hcontent, hown, hclean⟩,
          hrefuses⟩⟩, rfl⟩
  · rintro ⟨h, rfl⟩
    refine ⟨_, _, ⟨registrations_eq_ok.mpr ⟨h.listed, rfl⟩, rfl⟩, _, _, ⟨rfl, rfl⟩, (), _,
      ⟨h.attached, rfl⟩, ?_⟩
    rcases h.worktree with ⟨hfree, habsent⟩ | ⟨hregistered, ⟨checkout, hcontent, hown, hclean⟩,
      hrefuses⟩
    · rw [hfree]
      refine runs_ensure.mpr ⟨by rw [habsent]; rfl, ?_⟩
      unfold dropWorktree
      rw [Dict.erase_of_get_eq_none hfree, ← habsent]
    · rw [hregistered]
      have hdirectory : c.OnBranch ticketId checkout := by
        refine ⟨hcontent, ?_⟩
        rw [hown]
        exact hregistered
      have hrefusal : c.removeRefusal .forceRemoveWorktree = none := by
        unfold removeRefusal
        rw [hrefuses, hcontent]
        exact if_pos hown
      simp only [runs_bind, runs_observe, runs_ensure]
      exact ⟨_, _, ⟨validateExisting_onBranch oldHead hdirectory hhead, rfl⟩, (), _,
        ⟨⟨rfl, hclean⟩, rfl⟩, runs_removeWorktree.mpr ⟨hrefusal, rfl⟩⟩

/-- A worktree of an earlier execution that ended at `oldHead` can be replaced. -/
structure Replaceable (ticketId base oldHead : String) (prior : ExecutionReport)
    (c : WorkspaceSite) : Prop where
  evidence : c.refs (workspaceRecoveryRef ticketId prior.executionId) = some oldHead
    ∨ c.refs (workspaceRecoveryRef ticketId prior.executionId) = none ∧ c.refuses .pin = none
  removable : c.Removable ticketId
  exclusive : ∀ entry ∈ c.worktrees, entry.2 = .branch (executionBranchOf ticketId) →
    entry.1 = c.resolved
  available : c.available base = true
  move : c.refuses .move = none
  root : c.rootLinked = false
  path : c.pathLinked = false
  add : c.refuses .addWorktree = none
  submodules : (c.submodulesOf base).prepared = .ok ()

/-- What the repair leaves: the old head under its evidence ref, and a fresh worktree. -/
def replaced (ticketId base oldHead : String) (prior : ExecutionReport) (c : WorkspaceSite) :
    WorkspaceSite :=
  (c.setRef (workspaceRecoveryRef ticketId prior.executionId) oldHead).rebuilt ticketId base

/-- `prepare` wants the branch nowhere but at the path. -/
theorem attached_of_prepare {workspace : ExecutionWorkspace} (hhead : ∀ head,
    c.refs (Git.branchRef (executionBranchOf ticketId)) = some head → head = base)
    (h : Runs (prepare graph ticketId base) c workspace t) :
    (attachedAt c.worktrees (executionBranchOf ticketId)).all (· = c.resolved) = true := by
  unfold prepare at h
  simp only [runs_bind, runs_get, runs_observe, runs_ensure] at h
  obtain ⟨_, _, ⟨-, rfl⟩, _, _, ⟨rfl, rfl⟩, _, _, ⟨-, rfl⟩, _, d, hensure, _, _, ⟨-, rfl⟩, _,
    _, ⟨hlist, rfl⟩, _, _, ⟨rfl, rfl⟩, _, _, ⟨hattached, rfl⟩, -⟩ := h
  obtain ⟨-, rfl⟩ := (runs_ensureBranch hhead).mp hensure
  obtain ⟨-, rfl⟩ := registrations_eq_ok.mp hlist
  exact hattached

omit [Project] in
/-- Behind the removal the branch is attached nowhere if it was attached nowhere else before. -/
theorem attached_dropWorktree_iff :
    (attachedAt c.dropWorktree.worktrees (executionBranchOf ticketId)).all (· = c.resolved) = true
      ↔ ∀ entry ∈ c.worktrees, entry.2 = .branch (executionBranchOf ticketId) →
        entry.1 = c.resolved := by
  unfold attachedAt dropWorktree Dict.erase
  constructor
  · intro h entry hmem hbranch
    by_contra hne
    have hkept : entry ∈ c.worktrees.filter (·.1 != c.resolved) :=
      List.mem_filter.mpr ⟨hmem, bne_iff_ne.mpr hne⟩
    have hsome : ((c.worktrees.filter (·.1 != c.resolved)).find? fun entry =>
        decide (entry.2 = .branch (executionBranchOf ticketId))).isSome :=
      List.find?_isSome.mpr ⟨entry, hkept, decide_eq_true hbranch⟩
    obtain ⟨found, hfound⟩ := Option.isSome_iff_exists.mp hsome
    rw [hfound] at h
    have hother := (List.mem_filter.mp (List.mem_of_find?_eq_some hfound)).2
    simp at h hother
    exact hother h
  · intro h
    have hnone : ((c.worktrees.filter (·.1 != c.resolved)).find? fun entry =>
        decide (entry.2 = .branch (executionBranchOf ticketId))) = none := by
      refine List.find?_eq_none.mpr fun entry hentry hbranch => ?_
      obtain ⟨hmem, hne⟩ := List.mem_filter.mp hentry
      exact bne_iff_ne.mp hne (h entry hmem (of_decide_eq_true hbranch))
    rw [hnone]
    rfl

omit [Project] in
/-- The steps of the repair, put together. -/
theorem replaced_eq {prior : ExecutionReport} :
    (setRef (Git.branchRef (executionBranchOf ticketId)) base
        (c.setRef (workspaceRecoveryRef ticketId prior.executionId) oldHead).dropWorktree).rebuilt
          ticketId base
      = c.replaced ticketId base oldHead prior := by
  unfold replaced rebuilt dropWorktree setRef Dict.set Dict.erase
  simp only [Function.update_idem, List.filter_filter, Bool.and_self]

/-- **Replacement.** When it ends, and with what. -/
theorem runs_replaceWorkspace {prior : ExecutionReport}
    (hhead : c.refs (Git.branchRef (executionBranchOf ticketId)) = some oldHead) :
    Runs (replaceWorkspace graph ticketId base oldHead prior) c () t
      ↔ c.Replaceable ticketId base oldHead prior
        ∧ t = c.replaced ticketId base oldHead prior := by
  have hpinned : (c.setRef (workspaceRecoveryRef ticketId prior.executionId) oldHead).refs
      (Git.branchRef (executionBranchOf ticketId)) = some oldHead :=
    (refs_setRef_of_ne _ _ (branchRef_ne_workspaceRecoveryRef _ _ _)).trans hhead
  have hmoved : ∀ {d : WorkspaceSite} {head : String},
      (d.setRef (Git.branchRef (executionBranchOf ticketId)) base).refs
        (Git.branchRef (executionBranchOf ticketId)) = some head → head = base := by
    intro d head h
    rw [refs_setRef_self] at h
    exact (Option.some.inj h).symm
  unfold replaceWorkspace
  simp only [runs_bind, runs_get, runs_observe, runs_ensure]
  constructor
  · rintro ⟨_, _, hpreserve, _, _, ⟨-, rfl⟩, _, _, hremove, _, _, hmove, repaired, _, hprepare, _, _,
      ⟨rfl, rfl⟩, -, rfl⟩
    obtain ⟨hevidence, rfl⟩ := runs_preserve.mp hpreserve
    obtain ⟨hremovable, rfl⟩ := (runs_removeConflicting hpinned).mp hremove
    obtain ⟨-, ⟨havailable, hrefuses⟩, rfl⟩ := runs_moveBranch.mp hmove
    have hattached := attached_of_prepare (fun _ => hmoved) hprepare
    have hvacant : (setRef (Git.branchRef (executionBranchOf ticketId)) base
        (c.setRef (workspaceRecoveryRef ticketId prior.executionId) oldHead).dropWorktree).Vacant
          ticketId base := ⟨havailable, hremovable.listed, fun _ => hmoved, hattached, rfl⟩
    obtain ⟨hready, -, hend⟩ := (runs_prepare hvacant).mp hprepare
    refine ⟨⟨hevidence, ⟨hremovable.listed, hremovable.attached, hremovable.worktree⟩,
      attached_dropWorktree_iff.mp hattached, havailable, hrefuses, hready.root, hready.path,
      hready.add, hready.submodules⟩, hend.trans replaced_eq⟩
  · rintro ⟨h, rfl⟩
    have hvacant : (setRef (Git.branchRef (executionBranchOf ticketId)) base
        (c.setRef (workspaceRecoveryRef ticketId prior.executionId) oldHead).dropWorktree).Vacant
          ticketId base :=
      ⟨h.available, h.removable.listed, fun _ => hmoved, attached_dropWorktree_iff.mpr h.exclusive,
        rfl⟩
    have hready : (setRef (Git.branchRef (executionBranchOf ticketId)) base
        (c.setRef (workspaceRecoveryRef ticketId prior.executionId) oldHead).dropWorktree).Preparable
          ticketId base := by
      refine ⟨h.root, h.path, ?_, ?_, h.add, h.submodules⟩
      · intro hnone
        rw [refs_setRef_self] at hnone
        cases hnone
      · intro hstale
        have hfree := congrArg Option.isSome (get_dropWorktree
          (c.setRef (workspaceRecoveryRef ticketId prior.executionId) oldHead))
        cases hfree.symm.trans hstale
    have hreusable := inspect_eq_reusable_iff.mpr ((@reusable_rebuilt_iff graph ticketId base
      (c.setRef (workspaceRecoveryRef ticketId prior.executionId) oldHead) (some base) h.available
      h.removable.listed h.root h.path).mpr fun _ hstart => Option.some.inj hstart)
    exact ⟨(), _, runs_preserve.mpr ⟨h.evidence, rfl⟩, (), _, ⟨unmoved_eq_ok.mpr hpinned, rfl⟩, (), _,
      (runs_removeConflicting hpinned).mpr ⟨⟨h.removable.listed, h.removable.attached,
        h.removable.worktree⟩, rfl⟩, (), _,
      runs_moveBranch.mpr ⟨hpinned, ⟨h.available, h.move⟩, rfl⟩, _, _,
      (runs_prepare hvacant).mpr ⟨hready, rfl, replaced_eq.symm⟩, _, _, ⟨rfl, rfl⟩, hreusable, rfl⟩

/-- **Repair of a branch.** When it ends, and with what. -/
theorem runs_repairBinding
    (hhead : c.refs (Git.branchRef (executionBranchOf ticketId)) = some oldHead) :
    Runs (repairBinding graph ticketId executionId base) c () t ↔ ∃ reports prior,
      c.reports = .ok reports
        ∧ priorReports executionId (executionBranchOf ticketId) oldHead reports = [prior]
        ∧ c.Replaceable ticketId base oldHead prior
        ∧ t = c.replaced ticketId base oldHead prior := by
  unfold repairBinding
  simp only [runs_bind, runs_get]
  constructor
  · rintro ⟨_, _, ⟨rfl, rfl⟩, h⟩
    rw [hhead] at h
    simp only [runs_bind, runs_observe] at h
    obtain ⟨reports, _, ⟨hreports, rfl⟩, h⟩ := h
    split at h
    · rename_i prior hprior
      obtain ⟨hready, rfl⟩ := (runs_replaceWorkspace hhead).mp h
      exact ⟨reports, prior, hreports, hprior, hready, rfl⟩
    · exact absurd h runs_raise
  · rintro ⟨reports, prior, hreports, hprior, hready, rfl⟩
    refine ⟨_, _, ⟨rfl, rfl⟩, ?_⟩
    rw [hhead]
    simp only [runs_bind, runs_observe]
    refine ⟨reports, _, ⟨hreports, rfl⟩, ?_⟩
    rw [hprior]
    exact (runs_replaceWorkspace hhead).mpr ⟨hready, rfl⟩

end Repair

/-! ### What the classification means -/

section Classification

variable [Project] {graph : Git.CommitGraph} {ticketId executionId base oldHead : String}
  {startHead : Option String} {c t : WorkspaceSite}

theorem inspectBinding_eq_reusable_iff :
    (c.inspectBinding graph ticketId executionId base startHead).classification = .reusable
      ↔ c.Reusable graph ticketId base startHead := by
  rw [← inspect_eq_reusable_iff]
  unfold inspectBinding
  dsimp only
  split
  · rfl
  · rename_i hnot
    refine iff_of_false ?_ hnot
    repeat' split
    all_goals nofun

omit [Project] in
theorem PathContent.present_eq_false {content : PathContent} :
    content.present = false ↔ content = .absent := by
  cases content <;> simp [PathContent.present]

/-- Nothing is left of the worktree of a branch that is missing. -/
structure Missing (ticketId : String) (c : WorkspaceSite) : Prop where
  listed : c.unlisted = none
  attached : attachedAt c.worktrees (executionBranchOf ticketId) = none
  content : c.content = .absent

omit [Project] in
/-- The message of an unavailable base is not that of a missing branch. -/
theorem validateBase_reason {message : String} (h : c.validateBase base = .error message) :
    message ≠ "execution branch is missing" := by
  unfold validateBase at h
  split at h
  · cases h
  · cases h
    intro heq
    have hlist := congrArg String.toList heq
    simp only [String.toList_append] at hlist
    have hfirst := congrArg (fun l => l.getD 0 'x') hlist
    revert hfirst
    show 'p' = 'e' → False
    decide

/-- Without its branch a binding is recoverable when nothing is left of the worktree. -/
theorem inspectBinding_of_missing
    (hhead : c.refs (Git.branchRef (executionBranchOf ticketId)) = none) :
    (c.inspectBinding graph ticketId executionId base startHead).classification = .recoverable
      ↔ c.available base = true ∧ c.Missing ticketId := by
  have hnot : ¬ (c.inspect graph ticketId base startHead).classification = .reusable := by
    rw [inspect_eq_reusable_iff]
    intro h
    obtain ⟨head, hsome, -⟩ := h.head
    rw [hhead] at hsome
    cases hsome
  unfold inspectBinding
  dsimp only
  rw [if_neg hnot, hhead]
  dsimp only
  cases hbase : c.validateBase base with
  | error message =>
    have hreason : (c.inspect graph ticketId base startHead).reason = message := by
      unfold inspect inspectTopology
      rw [hbase]
      rfl
    rw [hreason, if_neg (validateBase_reason hbase)]
    refine iff_of_false nofun fun h => ?_
    rw [validateBase_eq_ok.mpr h.1] at hbase
    cases hbase
  | ok u =>
    have havailable := validateBase_eq_ok.mp hbase
    cases hlisted : c.unlisted with
    | some message =>
      have hregistrations : c.registrations = .error message := by
        unfold registrations
        rw [hlisted]
      rw [hregistrations]
      refine iff_of_false ?_ fun h => ?_
      · split <;> nofun
      · rw [h.2.listed] at hlisted
        cases hlisted
    | none =>
      have hregistrations : c.registrations = .ok c.worktrees :=
        registrations_eq_ok.mpr ⟨hlisted, rfl⟩
      have hreason : (c.inspect graph ticketId base startHead).reason
          = "execution branch is missing" := by
        unfold inspect inspectTopology
        simp only [hbase, hregistrations, hhead, bind, Except.bind, Option.isNone_none, if_true]
      rw [hreason, if_pos rfl, hregistrations]
      dsimp only
      by_cases hleft : (attachedAt c.worktrees (executionBranchOf ticketId)).isSome
          ∨ c.content.present
      · rw [if_pos hleft]
        refine iff_of_false nofun fun h => ?_
        rcases hleft with hattached | hpresent
        · rw [h.2.attached] at hattached
          cases hattached
        · rw [h.2.content] at hpresent
          cases hpresent
      · rw [if_neg hleft]
        rw [not_or, Bool.not_eq_true, Bool.not_eq_true, Option.isSome_eq_false_iff,
          Option.isNone_iff_eq_none, PathContent.present_eq_false] at hleft
        exact iff_of_true rfl ⟨havailable, hlisted, hleft.1, hleft.2⟩

/-- With its branch a binding is recoverable when exactly one earlier execution ended there. -/
theorem inspectBinding_of_head
    (hhead : c.refs (Git.branchRef (executionBranchOf ticketId)) = some oldHead) :
    (c.inspectBinding graph ticketId executionId base startHead).classification = .recoverable
      ↔ ¬ c.Reusable graph ticketId base startHead ∧ ∃ reports prior, c.reports = .ok reports
        ∧ priorReports executionId (executionBranchOf ticketId) oldHead reports = [prior] := by
  rw [← inspect_eq_reusable_iff]
  unfold inspectBinding
  dsimp only
  by_cases hreusable : (c.inspect graph ticketId base startHead).classification = .reusable
  · rw [if_pos hreusable]
    exact iff_of_false (by rw [hreusable]; nofun) fun h => h.1 hreusable
  · rw [if_neg hreusable, hhead, and_iff_right hreusable]
    dsimp only
    cases hreports : c.reports with
    | error message => exact iff_of_false nofun (by rintro ⟨_, _, hok, -⟩; cases hok)
    | ok reports =>
      dsimp only
      by_cases hone : (priorReports executionId (executionBranchOf ticketId) oldHead reports).length
          ≠ 1
      · rw [if_pos hone]
        refine iff_of_false nofun ?_
        rintro ⟨_, prior, hok, hprior⟩
        cases hok
        rw [hprior] at hone
        exact hone rfl
      · rw [if_neg hone]
        rw [not_not, List.length_eq_one_iff] at hone
        obtain ⟨prior, hprior⟩ := hone
        exact iff_of_true rfl ⟨reports, prior, rfl, hprior⟩

end Classification

end WorkspaceSite

/-- The binding is complete, its worker has not started, and it is that of the manager. -/
def RuntimeState.preWorker [Project] (s : RuntimeState) : Bool :=
  s.phase = .agentPending && s.workerIdentity.isNone && s.workspaceBound
    && s.pendingExecutionReport.isNone
    && isCanonicalTicketName (s.executionTicketId.getD "" ++ ".md")
    && s.managed (s.executionTicketId.getD "")

namespace WorkspaceSite

/-! ### Classification and repair -/

section Agreement

variable [Project] {graph : Git.CommitGraph} {s : RuntimeState} {c t : WorkspaceSite}

theorem inspectBound_of_preWorker (h : s.preWorker = true) :
    c.inspectBound graph s = c.inspectBinding graph (s.executionTicketId.getD "")
      (s.executionId.getD "") (s.executionBaseHead.getD "") s.executionStartHead := by
  simp only [RuntimeState.preWorker, Bool.and_eq_true, decide_eq_true_eq] at h
  obtain ⟨⟨⟨⟨⟨hphase, hworker⟩, hbound⟩, hreport⟩, hcanonical⟩, hmanaged⟩ := h
  rw [Option.isNone_iff_eq_none] at hworker hreport
  unfold inspectBound
  simp [hphase, hworker, hbound, hreport, hcanonical, hmanaged]

theorem repair_of_preWorker (h : s.preWorker = true) :
    repair graph s = repairBinding graph (s.executionTicketId.getD "") (s.executionId.getD "")
      (s.executionBaseHead.getD "") := by
  simp only [RuntimeState.preWorker, Bool.and_eq_true, decide_eq_true_eq] at h
  obtain ⟨⟨⟨⟨⟨hphase, hworker⟩, hbound⟩, hreport⟩, hcanonical⟩, hmanaged⟩ := h
  rw [Option.isNone_iff_eq_none] at hworker hreport
  unfold repair
  simp [hphase, hworker, hbound, hreport, hcanonical, hmanaged]

/-- Any other binding is unsafe, and the repair refuses it at once. -/
theorem unsafe_of_not_preWorker (h : s.preWorker = false) :
    (c.inspectBound graph s).classification = .unsafeBinding
      ∧ ∃ e, repair graph s = Program.raise e := by
  have hsome : s.phase ≠ .agentPending ∨ s.workerIdentity.isSome ∨ s.workspaceBound = false
      ∨ s.pendingExecutionReport.isSome
      ∨ isCanonicalTicketName (s.executionTicketId.getD "" ++ ".md") = false
      ∨ s.managed (s.executionTicketId.getD "") = false := by
    by_contra hall
    simp only [not_or, not_not, Bool.not_eq_true, Bool.not_eq_false,
      Option.isSome_eq_false_iff] at hall
    simp [RuntimeState.preWorker, hall] at h
  unfold inspectBound repair
  dsimp only
  constructor
  · split
    · rfl
    split
    · rfl
    split
    · rfl
    split
    · rfl
    split
    · rfl
    split
    · rfl
    · simp_all
  · split
    · exact ⟨_, rfl⟩
    split
    · exact ⟨_, rfl⟩
    split
    · exact ⟨_, rfl⟩
    split
    · exact ⟨_, rfl⟩
    split
    · exact ⟨_, rfl⟩
    · simp_all

/-- The repair does what the classification says: it makes a recoverable binding reusable, leaves the
    refs and the worktrees of an unsafe one alone, and a binding that it refuses is not turned away
    as none for the operator. -/
structure Agrees (graph : Git.CommitGraph) (s : RuntimeState) (c : WorkspaceSite) : Prop where
  recovers : (c.inspectBound graph s).classification = .recoverable →
    ∃ t, Runs (repair graph s) c () t ∧ (t.inspectBound graph s).classification = .reusable
  leaves : (c.inspectBound graph s).classification = .unsafeBinding →
    ∀ t ∈ (repair graph s c).visited, t.refs = c.refs ∧ t.worktrees = c.worktrees
      ∧ t.content = c.content
  operator : (c.inspectBound graph s).classification ≠ .reusable →
    (∀ t, ¬ Runs (repair graph s) c () t) → ∀ ticketId executionId observedHead,
      c.validateRecoverAdmission graph s ticketId executionId observedHead
        ≠ .error "explicit recovery is allowed only for an UNSAFE workspace binding"

/-- For which clones the repair of a binding does what the classification says.  A binding without
    its branch can be rebuilt, or else Git is not asked for the branch; where exactly one earlier
    execution ended at the branch, the binding is reusable or its worktree can be replaced. -/
def Repairs (graph : Git.CommitGraph) (ticketId executionId base : String)
    (startHead : Option String) (c : WorkspaceSite) : Prop :=
  match c.refs (Git.branchRef (executionBranchOf ticketId)) with
  | none => c.available base = true →
      (c.Missing ticketId → c.Preparable ticketId base ∧ ∀ start ∈ startHead, base = start)
        ∧ (¬ c.Missing ticketId → c.rootLinked = true ∨ c.refuses .branch ≠ none)
  | some oldHead => ∀ reports prior, c.reports = .ok reports →
      priorReports executionId (executionBranchOf ticketId) oldHead reports = [prior] →
      c.Reusable graph ticketId base startHead
        ∨ c.Replaceable ticketId base oldHead prior ∧ ∀ start ∈ startHead, base = start

omit [Project] in
theorem raisesOnly_require {p : String → Prop} {check : Bool} {message : String}
    (h : check = false → p message) : RaisesOnly p (require check message) := by
  cases check with
  | true => exact .ok
  | false => exact .error (h rfl)

/-- The gate of operator recovery is open for an unsafe binding. -/
theorem validateRecoverAdmission_of_unsafe {ticketId executionId observedHead : String}
    (h : (c.inspectBound graph s).classification = .unsafeBinding) :
    c.validateRecoverAdmission graph s ticketId executionId observedHead
      ≠ .error "explicit recovery is allowed only for an UNSAFE workspace binding" := by
  intro herror
  refine (?_ : RaisesOnly (· ≠ "explicit recovery is allowed only for an UNSAFE workspace binding")
    (c.validateRecoverAdmission graph s ticketId executionId observedHead)) _ herror rfl
  unfold validateRecoverAdmission
  refine .bind (raisesOnly_require fun _ => by decide) fun _ => ?_
  refine .bind (raisesOnly_require fun _ => by decide) fun _ => ?_
  refine .bind (raisesOnly_require fun _ => by decide) fun _ => ?_
  refine .bind (raisesOnly_require fun _ => by decide) fun _ => ?_
  refine .bind (raisesOnly_require fun _ => by decide) fun _ => ?_
  refine .bind (raisesOnly_require fun _ => by decide) fun _ => ?_
  refine .bind (raisesOnly_require fun hgate => ?_) fun _ => ?_
  · rw [h] at hgate
    cases hgate
  refine .bind (raisesOnly_require fun _ => by decide) fun _ => ?_
  exact raisesOnly_require fun _ => by decide

/-- `prepare` makes a missing branch first, or it refuses before it has done anything. -/
theorem prepare_of_missing {ticketId base : String}
    (hhead : c.refs (Git.branchRef (executionBranchOf ticketId)) = none) :
    (c.available base = true ∧ c.rootLinked = false ∧ c.refuses .branch = none →
        c.setRef (Git.branchRef (executionBranchOf ticketId)) base
          ∈ (prepare graph ticketId base c).visited)
      ∧ (¬ (c.available base = true ∧ c.rootLinked = false ∧ c.refuses .branch = none) →
        (prepare graph ticketId base c).visited = []) := by
  have hensure : ensureBranch ticketId base c = match c.refuses .branch with
      | some stderr => ⟨[], .error ("cannot create execution branch " ++ executionBranchOf ticketId
          ++ ": " ++ stderr)⟩
      | none => ⟨[c.setRef (Git.branchRef (executionBranchOf ticketId)) base], .ok ()⟩ := by
    unfold ensureBranch
    rw [Program.get_bind, hhead]
    cases c.refuses .branch <;> rfl
  unfold prepare
  by_cases havailable : c.available base = true
  · rw [Program.observe_bind (validateBase_eq_ok.mpr havailable), Program.get_bind]
    by_cases hroot : c.rootLinked = false
    · rw [Program.ensure_bind hroot]
      cases hrefuses : c.refuses .branch with
      | some stderr =>
        rw [hrefuses] at hensure
        rw [Program.bind_of_error hensure]
        exact ⟨fun h => absurd h.2.2 nofun, fun _ => rfl⟩
      | none =>
        rw [hrefuses] at hensure
        refine ⟨fun _ => visited_bind ?_, fun h => absurd ⟨havailable, hroot, rfl⟩ h⟩
        rw [hensure]
        exact List.mem_singleton_self _
    · rw [Program.ensure_bind_of_not hroot]
      exact ⟨fun h => absurd h.2.1 hroot, fun _ => rfl⟩
  · have herror : ∃ e, c.validateBase base = .error e := by
      unfold validateBase
      rw [if_neg havailable]
      exact ⟨_, rfl⟩
    obtain ⟨e, herror⟩ := herror
    rw [Program.observe_bind_error herror]
    exact ⟨fun h => absurd h.1 havailable, fun _ => rfl⟩

/-- Without its branch, the repair of a binding is its preparation. -/
theorem repairBinding_of_missing {ticketId executionId base : String}
    (hhead : c.refs (Git.branchRef (executionBranchOf ticketId)) = none) :
    (repairBinding graph ticketId executionId base c).visited
        = (prepare graph ticketId base c).visited
      ∧ ∀ t, Runs (repairBinding graph ticketId executionId base) c () t
        ↔ ∃ workspace, Runs (prepare graph ticketId base) c workspace t := by
  have hstart : repairBinding graph ticketId executionId base c
      = (prepare graph ticketId base >>= fun _ => pure ()) c := by
    unfold repairBinding
    rw [Program.get_bind, hhead]
  constructor
  · rw [hstart]
    show (Program.bind _ _ _).visited = _
    unfold Program.bind
    split
    · rfl
    · exact List.append_nil _
  · intro t
    unfold Runs
    rw [hstart]
    show Runs (prepare graph ticketId base >>= fun _ => pure ()) c () t ↔ _
    rw [runs_bind]
    simp only [runs_pure]
    constructor
    · rintro ⟨workspace, _, hrun, -, rfl⟩
      exact ⟨workspace, hrun⟩
    · rintro ⟨workspace, hrun⟩
      exact ⟨workspace, t, hrun, trivial, rfl⟩

/-- Without exactly one earlier execution at its head, a branch is left alone. -/
theorem repairBinding_of_unproven {ticketId executionId base oldHead : String}
    (hhead : c.refs (Git.branchRef (executionBranchOf ticketId)) = some oldHead)
    (hnone : ¬ ∃ reports prior, c.reports = .ok reports
      ∧ priorReports executionId (executionBranchOf ticketId) oldHead reports = [prior]) :
    (repairBinding graph ticketId executionId base c).visited = [] := by
  unfold repairBinding
  rw [Program.get_bind, hhead]
  dsimp only
  cases hreports : c.reports with
  | error message =>
    rw [Program.observe_bind_error hreports]
  | ok reports =>
    rw [Program.observe_bind hreports]
    cases hprior : priorReports executionId (executionBranchOf ticketId) oldHead reports with
    | nil => rfl
    | cons prior rest =>
      cases rest with
      | nil => exact absurd ⟨reports, prior, hreports, hprior⟩ hnone
      | cons _ _ => rfl

/-- The agreement of a binding before its worker starts. -/
theorem agrees_iff_of_preWorker (h : s.preWorker = true) {ticketId executionId base : String}
    (hticket : s.executionTicketId.getD "" = ticketId) (hid : s.executionId.getD "" = executionId)
    (hbase : s.executionBaseHead.getD "" = base) :
    Agrees graph s c ↔
      ((c.inspectBinding graph ticketId executionId base s.executionStartHead).classification
          = .recoverable →
        ∃ t, Runs (repairBinding graph ticketId executionId base) c () t
          ∧ t.Reusable graph ticketId base s.executionStartHead)
      ∧ ((c.inspectBinding graph ticketId executionId base s.executionStartHead).classification
          = .unsafeBinding →
        ∀ t ∈ (repairBinding graph ticketId executionId base c).visited, t.refs = c.refs
          ∧ t.worktrees = c.worktrees ∧ t.content = c.content) := by
  have hrepair : repair graph s = repairBinding graph ticketId executionId base := by
    rw [repair_of_preWorker h, hticket, hid, hbase]
  have hinspect : ∀ d : WorkspaceSite, d.inspectBound graph s
      = d.inspectBinding graph ticketId executionId base s.executionStartHead := by
    intro d
    rw [inspectBound_of_preWorker h, hticket, hid, hbase]
  constructor
  · rintro ⟨hrecovers, hleaves, -⟩
    rw [hinspect, hrepair] at hrecovers hleaves
    refine ⟨fun hclass => ?_, hleaves⟩
    obtain ⟨t, hrun, hreusable⟩ := hrecovers hclass
    rw [hinspect, inspectBinding_eq_reusable_iff] at hreusable
    exact ⟨t, hrun, hreusable⟩
  · rintro ⟨hrecovers, hleaves⟩
    refine ⟨?_, ?_, ?_⟩
    · rw [hinspect, hrepair]
      intro hclass
      obtain ⟨t, hrun, hreusable⟩ := hrecovers hclass
      exact ⟨t, hrun, by rw [hinspect, inspectBinding_eq_reusable_iff]; exact hreusable⟩
    · rw [hinspect, hrepair]
      exact hleaves
    · intro hnot hraises _ _ _
      refine validateRecoverAdmission_of_unsafe ?_
      rw [hinspect] at hnot ⊢
      rw [hrepair] at hraises
      cases hclass : (c.inspectBinding graph ticketId executionId base
        s.executionStartHead).classification with
      | reusable => exact absurd hclass hnot
      | recoverable =>
        obtain ⟨t, hrun, -⟩ := hrecovers hclass
        exact absurd hrun (hraises t)
      | unsafeBinding => rfl

omit [Project] in
theorem Missing.vacant {ticketId base : String} (h : c.Missing ticketId)
    (hhead : c.refs (Git.branchRef (executionBranchOf ticketId)) = none)
    (havailable : c.available base = true) : c.Vacant ticketId base where
  available := havailable
  listed := h.listed
  head := fun head hsome => by
    rw [hhead] at hsome
    cases hsome
  attached := by
    rw [h.attached]
    rfl
  content := h.content

/-- The agreement for a binding without its branch. -/
theorem agrees_of_missing {ticketId executionId base : String} {startHead : Option String}
    (hhead : c.refs (Git.branchRef (executionBranchOf ticketId)) = none) :
    ((c.inspectBinding graph ticketId executionId base startHead).classification = .recoverable →
        ∃ t, Runs (repairBinding graph ticketId executionId base) c () t
          ∧ t.Reusable graph ticketId base startHead)
      ∧ ((c.inspectBinding graph ticketId executionId base startHead).classification
          = .unsafeBinding →
        ∀ t ∈ (repairBinding graph ticketId executionId base c).visited, t.refs = c.refs
          ∧ t.worktrees = c.worktrees ∧ t.content = c.content)
      ↔ c.Repairs graph ticketId executionId base startHead := by
  have hrecoverable := @inspectBinding_of_missing _ graph ticketId executionId base startHead c hhead
  have hreusable : ¬ (c.inspectBinding graph ticketId executionId base startHead).classification
      = .reusable := by
    rw [inspectBinding_eq_reusable_iff]
    intro h
    obtain ⟨head, hsome, -⟩ := h.head
    rw [hhead] at hsome
    cases hsome
  obtain ⟨hvisited, hruns⟩ := @repairBinding_of_missing _ graph c ticketId executionId base hhead
  obtain ⟨hmakes, hrefuses⟩ := @prepare_of_missing _ graph c ticketId base hhead
  unfold Repairs
  rw [hhead, hvisited]
  dsimp only
  constructor
  · rintro ⟨hrecovers, hleaves⟩ havailable
    refine ⟨fun hmissing => ?_, fun hmaterial => ?_⟩
    · obtain ⟨t, hrun, hagain⟩ := hrecovers (hrecoverable.mpr ⟨havailable, hmissing⟩)
      obtain ⟨workspace, hprepare⟩ := (hruns t).mp hrun
      obtain ⟨hready, -, rfl⟩ := (runs_prepare (hmissing.vacant hhead havailable)).mp hprepare
      exact ⟨hready, (reusable_rebuilt_iff havailable hmissing.listed hready.root
        hready.path).mp hagain⟩
    · have hclass : (c.inspectBinding graph ticketId executionId base startHead).classification
          = .unsafeBinding := by
        cases hclass : (c.inspectBinding graph ticketId executionId base
          startHead).classification with
        | reusable => exact absurd hclass hreusable
        | recoverable => exact absurd (hrecoverable.mp hclass).2 hmaterial
        | unsafeBinding => rfl
      by_contra hasked
      rw [not_or, Bool.not_eq_true, not_not] at hasked
      obtain ⟨hsame, -⟩ := hleaves hclass _ (hmakes ⟨havailable, hasked⟩)
      have hmade := congrFun hsame (Git.branchRef (executionBranchOf ticketId))
      rw [refs_setRef_self, hhead] at hmade
      cases hmade
  · intro h
    refine ⟨fun hclass => ?_, fun hclass => ?_⟩
    · obtain ⟨havailable, hmissing⟩ := hrecoverable.mp hclass
      obtain ⟨hready, hstart⟩ := (h havailable).1 hmissing
      exact ⟨_, (hruns _).mpr ⟨_, (runs_prepare (hmissing.vacant hhead havailable)).mpr
        ⟨hready, rfl, rfl⟩⟩, (reusable_rebuilt_iff havailable hmissing.listed hready.root
          hready.path).mpr hstart⟩
    · have hnot : ¬ (c.available base = true ∧ c.rootLinked = false ∧ c.refuses .branch = none) := by
        rintro ⟨havailable, hroot, hbranch⟩
        by_cases hmissing : c.Missing ticketId
        · rw [hrecoverable.mpr ⟨havailable, hmissing⟩] at hclass
          cases hclass
        · rcases (h havailable).2 hmissing with hlinked | hasked
          · rw [hroot] at hlinked
            cases hlinked
          · exact hasked hbranch
      rw [hrefuses hnot]
      exact fun _ ht => (List.not_mem_nil ht).elim

/-- The agreement for a binding with its branch. -/
theorem agrees_of_head {ticketId executionId base oldHead : String} {startHead : Option String}
    (hhead : c.refs (Git.branchRef (executionBranchOf ticketId)) = some oldHead) :
    ((c.inspectBinding graph ticketId executionId base startHead).classification = .recoverable →
        ∃ t, Runs (repairBinding graph ticketId executionId base) c () t
          ∧ t.Reusable graph ticketId base startHead)
      ∧ ((c.inspectBinding graph ticketId executionId base startHead).classification
          = .unsafeBinding →
        ∀ t ∈ (repairBinding graph ticketId executionId base c).visited, t.refs = c.refs
          ∧ t.worktrees = c.worktrees ∧ t.content = c.content)
      ↔ c.Repairs graph ticketId executionId base startHead := by
  have hrecoverable := @inspectBinding_of_head _ graph ticketId executionId base oldHead startHead c
    hhead
  have hruns := fun t => @runs_repairBinding graph ticketId executionId base oldHead c t _ hhead
  have hreusable : ∀ prior, c.Replaceable ticketId base oldHead prior →
      ((c.replaced ticketId base oldHead prior).Reusable graph ticketId base startHead
        ↔ ∀ start ∈ startHead, base = start) := fun prior h =>
    @reusable_rebuilt_iff graph ticketId base
      (c.setRef (workspaceRecoveryRef ticketId prior.executionId) oldHead) startHead h.available
      h.removable.listed h.root h.path
  unfold Repairs
  rw [hhead]
  dsimp only
  constructor
  · rintro ⟨hrecovers, -⟩ reports prior hreports hprior
    by_cases hthere : c.Reusable graph ticketId base startHead
    · exact .inl hthere
    · obtain ⟨t, hrun, hagain⟩ := hrecovers (hrecoverable.mpr ⟨hthere, reports, prior, hreports,
        hprior⟩)
      obtain ⟨reports', prior', hreports', hprior', hready, rfl⟩ := (hruns t).mp hrun
      rw [hreports] at hreports'
      cases hreports'
      rw [hprior] at hprior'
      cases hprior'
      exact .inr ⟨hready, (hreusable prior hready).mp hagain⟩
  · intro h
    refine ⟨fun hclass => ?_, fun hclass => ?_⟩
    · obtain ⟨hnot, reports, prior, hreports, hprior⟩ := hrecoverable.mp hclass
      obtain ⟨hready, hstart⟩ := (h reports prior hreports hprior).resolve_left hnot
      exact ⟨_, (hruns _).mpr ⟨reports, prior, hreports, hprior, hready, rfl⟩,
        (hreusable prior hready).mpr hstart⟩
    · have hunproven : ¬ ∃ reports prior, c.reports = .ok reports
          ∧ priorReports executionId (executionBranchOf ticketId) oldHead reports = [prior] := by
        intro hproven
        by_cases hthere : c.Reusable graph ticketId base startHead
        · rw [inspectBinding_eq_reusable_iff.mpr hthere] at hclass
          cases hclass
        · rw [hrecoverable.mpr ⟨hthere, hproven⟩] at hclass
          cases hclass
      rw [repairBinding_of_unproven hhead hunproven]
      exact fun _ ht => (List.not_mem_nil ht).elim

/-- **Classification and repair.** The repair does what the classification says exactly for these
    clones. -/
theorem repair_agrees_iff : Agrees graph s c ↔ (s.preWorker = true →
    c.Repairs graph (s.executionTicketId.getD "") (s.executionId.getD "")
      (s.executionBaseHead.getD "") s.executionStartHead) := by
  cases hworker : s.preWorker with
  | false =>
    obtain ⟨hclass, e, hrepair⟩ := @unsafe_of_not_preWorker _ graph s c hworker
    refine iff_of_true ⟨?_, ?_, fun _ _ _ _ _ => validateRecoverAdmission_of_unsafe hclass⟩ nofun
    · rw [hclass]
      nofun
    · rw [hrepair]
      exact fun _ t ht => (List.not_mem_nil ht).elim
  | true =>
    refine ((agrees_iff_of_preWorker hworker rfl rfl rfl).trans ?_).trans
      ⟨fun h _ => h, fun h => h rfl⟩
    cases hhead : c.refs (Git.branchRef (executionBranchOf (s.executionTicketId.getD ""))) with
    | none => exact agrees_of_missing hhead
    | some oldHead => exact agrees_of_head hhead

end Agreement

/-! ### A dirty worktree of an earlier execution -/

/-- Commits without history. -/
def flatGraph : Git.CommitGraph where
  parents _ := []
  rank _ := 0
  rank_lt h := (List.not_mem_nil h).elim

/-- The execution `e2` of `t1` waits for its worker, on the base `b`. -/
def reboundState : RuntimeState where
  phase := .agentPending
  localHead := some (sampleHead 'b')
  remoteHead := some (sampleHead 'b')
  changedPaths := some ""
  controlHead := some (sampleHead 'c')
  selectedTicketId := some "t1"
  selectedTicketBody := some "do one"
  executionTicketId := some "t1"
  executionBaseHead := some (sampleHead 'b')
  executionControlHead := some (sampleHead 'c')
  executionBranch := some "devlegate/work/t1"
  executionPath := some "/work/work/t1"
  executionId := some "e2"
  executionRemoteHead := some none

/-- The worktree of `e1` is still there, with uncommitted work in it. -/
def leftoverSite : WorkspaceSite where
  refs ref := if ref = "refs/heads/devlegate/work/t1" then some (sampleHead 'd') else none
  available commit := commit = sampleHead 'b' || commit = sampleHead 'd'
  worktrees := [("/work/work/t1", .branch "devlegate/work/t1")]
  resolved := "/work/work/t1"
  content := .directory { gitdir := some "/work/work/t1", dirty := true }
  reports := .ok [sampleReport]

/-- The binding is called recoverable, the repair refuses it, and operator recovery is closed to
    it. -/
theorem repair_disagrees :
    ¬ @Agrees sampleProject flatGraph reboundState leftoverSite
      ∧ (@inspectBound sampleProject flatGraph reboundState leftoverSite).classification
        = .recoverable
      ∧ (@repair sampleProject flatGraph reboundState leftoverSite).result
        = .error "conflicting execution worktree is not clean and exact"
      ∧ ∀ ticketId executionId observedHead, @validateRecoverAdmission sampleProject flatGraph
        reboundState ticketId executionId observedHead leftoverSite ≠ .ok () := by
  have hclass : (@inspectBound sampleProject flatGraph reboundState leftoverSite).classification
      = .recoverable := by decide
  have hraises : (@repair sampleProject flatGraph reboundState leftoverSite).result
      = .error "conflicting execution worktree is not clean and exact" := by decide
  refine ⟨fun h => ?_, hclass, hraises, fun ticketId executionId observedHead hok => ?_⟩
  · obtain ⟨t, ⟨hreturns, -⟩, -⟩ := @Agrees.recovers sampleProject _ _ _ h hclass
    rw [hraises] at hreturns
    cases hreturns
  · unfold validateRecoverAdmission at hok
    simp only [andThen_eq_ok, require_eq_ok] at hok
    obtain ⟨-, -, -, -, -, -, hgate, -⟩ := hok
    rw [hclass] at hgate
    cases hgate

end WorkspaceSite

end Devlegate
