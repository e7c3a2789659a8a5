import Devlegate.AcceptedEvidence
import Devlegate.Lib.History

namespace Devlegate

open JsonText Crash

namespace Wire

/-!
# The integration of an accepted ticket

An accepted ticket is integrated by publishing its checkpoint on the product branch, committing the
move of the ticket to `done` on top of the control head that was recorded when the integration was
admitted, and publishing that commit.  A process that finds the record takes the integration up
again from what the repositories say.

* `IntegrationSite`: the record, the control worktree, the product checkout and the remotes.
* `recoverAcceptedIntegration`, `integrateAccepted`, `completeAccepted`: effect by effect.
* `FollowsModel`: what recovery owes to the recorded control head in every control topology.
* `recover_followsModel_iff`: exactly when it does.
* `recover_marks_iff`: exactly when the generation it records is the one it leaves.
-/

deriving instance DecidableEq for ControlPath

/-! ### The site -/

/-- `accepted_integration`. -/
structure AcceptedIntent where
  ticketId : String
  checkpoint : Text
  controlHead : ControlCommit
  deriving DecidableEq

/-- What `ExecutionWorkspaceManager` finds at the place of the execution worktree: nothing, a
    worktree that it retires or refuses to retire, or something it cannot tell. -/
inductive WorkspaceEntry where
  | absent
  | registered (refusal : Option String)
  | ambiguous
  deriving DecidableEq

/-- The durable state of an integration, with the clones and the remotes. -/
structure IntegrationSite where
  pending : Option AcceptedIntent
  handledRemoteHead : Text
  handledControlHead : ControlCommit
  handledTodoFingerprint : String
  /-- HEAD of the control worktree, and the files in it. -/
  control : ControlCommit
  files : ControlFiles
  controlRemote : ControlCommit
  /-- HEAD of the product checkout. -/
  product : Text
  productClean : Bool
  /-- The product branch on the remote, if it is there. -/
  productRemote : Option Text
  /-- The branch of the execution: on the remote, and in the clone. -/
  executionRemote : Option Text
  executionLocal : Option Text
  workspace : WorkspaceEntry

namespace IntegrationSite

/-- `git status --porcelain` of the control worktree prints nothing. -/
def ControlClean (s : IntegrationSite) : Prop := s.control.head? = some s.files

instance (s : IntegrationSite) : Decidable s.ControlClean :=
  inferInstanceAs (Decidable (_ = _))

/-- What the lookup of the evidence reads. -/
def evidence (s : IntegrationSite) : EvidenceSite where
  head := s.control
  reports := s.files.reports
  executionRemoteHead := .ok s.executionRemote

/-- The control worktree at a commit. -/
def checkout (s : IntegrationSite) (commit : ControlCommit) : IntegrationSite :=
  { s with control := commit, files := commit.headD s.files }

/-- A program of the engine. -/
abbrev Program := Crash.Program IntegrationSite IntegrationError

end IntegrationSite

open IntegrationSite

/-! ### Control topology -/

/-- A line of `diff-tree --name-status`. -/
inductive NameStatus where
  | added
  | deleted
  | modified
  deriving DecidableEq

/-- The status of a path, if it differs. -/
def nameStatus (before after : Option Tracked) : Option NameStatus :=
  if before = after then none
  else match before, after with
    | none, _ => some .added
    | _, none => some .deleted
    | _, _ => some .modified

/-- The paths that a tree lists. -/
def ControlFiles.paths (files : ControlFiles) : List ControlPath :=
  files.tickets.map (fun entry => .ticket entry.1 entry.2.name) ++ files.reports.keys.map .report

/-- The status of a path in an integration commit. -/
def integrationStatus (ticketId : String) (path : ControlPath) : Option NameStatus :=
  if path = ticketAt .accepted ticketId then some .deleted
  else if path = ticketAt .done ticketId then some .added
  else none

/-- The trees differ by the move of the ticket file from `accepted` to `done`. -/
def isMove (ticketId : String) (before after : ControlFiles) : Bool :=
  (before.paths ++ after.paths ++ [ticketAt .accepted ticketId, ticketAt .done ticketId]).all
      (fun path => nameStatus (before.blob path) (after.blob path) = integrationStatus ticketId path)
    && before.blob (ticketAt .accepted ticketId) = after.blob (ticketAt .done ticketId)

/-- `_accepted_integration_commit_is_exact`. -/
def isExactIntegration (ticketId : String) (expectedParent : ControlCommit) :
    ControlCommit → Bool
  | after :: before :: rest => before :: rest = expectedParent && isMove ticketId before after
  | _ => false

/-- What `_observe_accepted_control_integration` answers. -/
inductive Classification where
  | ambiguous
  | notApplied
  | localExactUnpublished (commit : ControlCommit)
  | remoteExactPublished (commit : ControlCommit)
  deriving DecidableEq

/-- `_observe_accepted_control_integration`. -/
def observeControlIntegration (ticketId : String)
    (expectedParent localHead remoteHead : ControlCommit) : Classification :=
  if remoteHead = expectedParent then
    if localHead = expectedParent then .notApplied
    else if isExactIntegration ticketId expectedParent localHead then
      .localExactUnpublished localHead
    else .ambiguous
  else
    match Timeline.firstAfter expectedParent remoteHead with
    | none => .ambiguous
    | some candidate =>
      if isExactIntegration ticketId expectedParent candidate then .remoteExactPublished candidate
      else .ambiguous

/-! ### The program -/

/-- `_sync_control`: the control head afterwards. -/
def syncControl : IntegrationSite.Program ControlCommit := do
  let s ← .get
  .ensure s.ControlClean (.blocked "control working tree is dirty")
  if s.control = s.controlRemote then return s.control
  else if s.control <:+ s.controlRemote then
    .effect fun s => s.checkout s.controlRemote
    return s.controlRemote
  else match s.pending with
    | none => .raise (.blocked "control branch cannot be fast-forwarded; histories diverged")
    | some pending =>
      match observeControlIntegration pending.ticketId pending.controlHead s.control
          s.controlRemote with
      | .localExactUnpublished _ => return s.control
      | _ => .raise (.blocked "accepted integration control lineage is ambiguous")

/-- `report.workspace_head` of a report that is evidence. -/
def checkpointOf (report : ExecutionReport) : Text := report.workspaceHead.getD []

/-- The execution has not changed the product. -/
def IsZeroDelta (report : ExecutionReport) : Prop := checkpointOf report = report.codeBaseHead

instance (report : ExecutionReport) : Decidable (IsZeroDelta report) :=
  inferInstanceAs (Decidable (_ = _))

/-- The published branch of the execution, if there is one, is deleted. -/
def retireExecutionRemote (checkpoint : Text) : IntegrationSite.Program Unit := do
  let s ← .get
  if s.executionRemote = none then pure ()
  else
    .ensure (s.executionRemote = some checkpoint)
      (.blocked "zero-delta execution branch changed before retirement")
    .effect fun s => { s with executionRemote := none }

/-- The execution worktree, if there is one, is removed. -/
def retireExecutionWorktree : IntegrationSite.Program Unit := do
  let s ← .get
  match s.workspace with
  | .absent => pure ()
  | .registered none => .effect fun s => { s with workspace := .absent }
  | .registered (some message) =>
    .raise (.blocked ("cannot retire zero-delta execution: " ++ message))
  | .ambiguous => .raise (.blocked "zero-delta execution workspace topology is ambiguous")

/-- The branch of the execution in the clone, if there is one, is deleted. -/
def retireExecutionLocal (checkpoint : Text) : IntegrationSite.Program Unit := do
  let s ← .get
  if s.executionLocal = none then pure ()
  else
    .ensure (s.executionLocal = some checkpoint)
      (.blocked "zero-delta execution branch changed before retirement")
    .effect fun s => { s with executionLocal := none }

/-- `_retire_zero_delta_execution`. -/
def retireZeroDeltaExecution (checkpoint : Text) : IntegrationSite.Program Unit := do
  retireExecutionRemote checkpoint
  retireExecutionWorktree
  retireExecutionLocal checkpoint

section Product

variable (history : History Text)

/-- The checkpoint is published on the product branch, by a fast-forward if it is not there. -/
def publishCheckpoint (checkpoint productHead : Text) : IntegrationSite.Program Unit :=
  if history.isAncestor checkpoint productHead then pure ()
  else do
    .ensure (history.isAncestor productHead checkpoint = true)
      (.blocked ("product history diverged from accepted checkpoint; rebase or merge "
        ++ "is not performed"))
    .effect fun s => { s with productRemote := some checkpoint }

/-- The product checkout follows the product branch. -/
def synchronizeCheckout (checkpoint : Text) : IntegrationSite.Program Unit := do
  let s ← .get
  .ensure (s.productClean = true) (.blocked "product checkout is not safely synchronized")
  if s.product = checkpoint then pure ()
  else match s.productRemote.bind (history.fastForward s.product) with
    | none => .raise (.blocked "product checkout cannot be fast-forwarded safely")
    | some head => .effect fun s => { s with product := head }

/-- What `_integrate_accepted` does before it turns to the control branch: the parent it then
    expects. -/
def settleProduct (report : ExecutionReport) : IntegrationSite.Program ControlCommit := do
  let s ← .get
  match s.productRemote with
  | none => .raise (.blocked "configured product branch is unavailable")
  | some productHead =>
    if IsZeroDelta report then
      .ensure (productHead = report.codeBaseHead)
        (.blocked "zero-delta accepted result is stale or product history changed")
      retireZeroDeltaExecution (checkpointOf report)
      return s.control
    else
      publishCheckpoint history (checkpointOf report) productHead
      synchronizeCheckout history (checkpointOf report)
      return (s.pending.map (·.controlHead)).getD s.control

variable [NanoYaml] [Sha256]

/-- `load_ticket_store(…).by_id.get(ticket_id)` of the control worktree. -/
def ticketState (ticketId : String) (files : ControlFiles) :
    Except IntegrationError (Option TicketState) :=
  match files.tree.workflow.loadTicketStore with
  | .ok store => .ok ((store.byId ticketId).map (·.state))
  | .error message => .error (.failed message)

omit [Sha256] in
/-- Only the ticket files decide. -/
theorem ticketState_congr {ticketId : String} {files files' : ControlFiles}
    (h : files.tickets = files'.tickets) : ticketState ticketId files = ticketState ticketId files' := by
  unfold ticketState ControlFiles.tree
  rw [h]

/-- The check of a commit that was just made, and its publication. -/
def publishIntegration (ticketId : String) (expectedHead commit : ControlCommit) :
    IntegrationSite.Program ControlCommit := do
  .ensure (isExactIntegration ticketId expectedHead commit = true)
    (.blocked "created accepted integration commit is not exact")
  let s ← .get
  .ensure (s.controlRemote <:+ commit) (.failed "cannot publish control transition")
  .effect fun s => { s with controlRemote := commit }
  return commit

/-- The rename of the ticket file, the commit and its publication. -/
def createIntegration (ticketId : String) (expectedHead : ControlCommit) :
    IntegrationSite.Program ControlCommit := do
  let _ ← .observe fun s : IntegrationSite => acceptedExecutionReport s.evidence ticketId
  let s ← .get
  .ensure (s.control = expectedHead) (.blocked "control HEAD changed during accepted integration")
  .effect fun s => { s with files := moveToDone ticketId s.files }
  .effect fun s => { s with control := s.files :: s.control }
  publishIntegration ticketId expectedHead (moveToDone ticketId s.files :: s.control)

/-- The recognition of a commit that is there already. -/
def recognizeIntegration (ticketId : String) (expectedHead : ControlCommit) :
    IntegrationSite.Program ControlCommit := do
  let s ← .get
  match observeControlIntegration ticketId expectedHead s.control s.controlRemote with
  | .localExactUnpublished commit =>
    .ensure (s.controlRemote <:+ commit) (.failed "cannot publish accepted integration")
    .effect fun s => { s with controlRemote := commit }
    match observeControlIntegration ticketId expectedHead s.control commit with
    | .remoteExactPublished _ => return s.control
    | _ => .raise (.blocked "accepted integration control lineage is ambiguous")
  | .remoteExactPublished _ => return s.control
  | _ => .raise (.blocked "accepted integration control lineage is ambiguous")

/-- `_complete_accepted`. -/
def completeAccepted (ticketId : String) (expectedHead : ControlCommit) :
    IntegrationSite.Program ControlCommit := do
  match ← .observe fun s : IntegrationSite => ticketState ticketId s.files with
  | none => .raise (.blocked "accepted ticket disappeared during integration")
  | some .done => recognizeIntegration ticketId expectedHead
  | some .accepted => createIntegration ticketId expectedHead
  | some _ => .raise (.blocked "accepted ticket changed during integration")

/-- `_integrate_accepted`. -/
def integrateAccepted (ticketId : String) : IntegrationSite.Program ControlCommit := do
  let s ← .get
  .ensure (s.productClean = true ∧ s.ControlClean)
    (.blocked "product or control working tree is dirty")
  let report ← .observe fun s : IntegrationSite => acceptedExecutionReport s.evidence ticketId
  let expectedHead ← settleProduct history report
  completeAccepted ticketId expectedHead

/-- The state at the end of an integration. -/
def recordIntegration (todoFingerprint : ControlFiles → String) (remoteHead : Text)
    (controlHead : ControlCommit) (s : IntegrationSite) : IntegrationSite :=
  { s with
    pending := none, handledRemoteHead := remoteHead, handledControlHead := controlHead
    handledTodoFingerprint := todoFingerprint s.files }

variable (todoFingerprint : ControlFiles → String)

/-- `_recover_accepted_integration`. -/
def recoverAcceptedIntegration : IntegrationSite.Program Unit := do
  match (← .get).pending with
  | none => .raise (.failed "invalid accepted integration state")
  | some pending =>
    .ensure (pending.ticketId ≠ "") (.failed "invalid accepted integration ticket identity")
    let controlHead ← syncControl
    match (← .get).productRemote with
    | none => .raise (.blocked ("cannot freshly observe product remote for "
        ++ "accepted integration"))
    | some remoteHead =>
      let _ ← integrateAccepted history pending.ticketId
      .effect (recordIntegration todoFingerprint remoteHead controlHead)

/-- The `integrate` branch of `_run_iteration_body`, from the record on: `remoteHead` is the product
    remote as the iteration has seen it. -/
def runIntegration (intent : AcceptedIntent) (remoteHead : Text) : IntegrationSite.Program Unit := do
  .effect fun s => { s with pending := some intent }
  let controlHead ← integrateAccepted history intent.ticketId
  .effect (recordIntegration todoFingerprint remoteHead controlHead)

end Product

/-! ### The move -/

section Move

variable {ticketId : String} {files : ControlFiles}

/-- What Git keeps of a ticket file. -/
theorem blob_eq_find (files : ControlFiles) (state : TicketState) (name : String) :
    files.blob (.ticket state name)
      = (files.tickets.find? fun entry => entry.1 = state && entry.2.name = name).map
          fun entry => Tracked.ticket entry.2.text := by
  show (((files.tickets.filter (·.1 = state)).map (·.2)).find? (·.name = name)).map
    (fun entry => Tracked.ticket entry.text) = _
  rw [List.find?_map, List.find?_filter, Option.map_map]
  simp [Function.comp_def]

/-- The move changes no other file. -/
theorem blob_moveToDone_of_ne {path : ControlPath} (haccepted : path ≠ ticketAt .accepted ticketId)
    (hdone : path ≠ ticketAt .done ticketId) :
    (moveToDone ticketId files).blob path = files.blob path := by
  cases path with
  | report location => rfl
  | ticket state name =>
    rw [blob_eq_find, blob_eq_find]
    have hother : ¬ (name = ticketId ++ ".md" ∧ (state = .accepted ∨ state = .done)) := by
      rintro ⟨rfl, rfl | rfl⟩
      · exact haccepted rfl
      · exact hdone rfl
    have hkept : ((files.tickets.filter fun entry =>
        ¬ (entry.2.name = ticketId ++ ".md" ∧ (entry.1 = .accepted ∨ entry.1 = .done))).find?
          fun entry => entry.1 = state && entry.2.name = name)
        = files.tickets.find? fun entry => entry.1 = state && entry.2.name = name := by
      rw [List.find?_filter]
      congr 1
      funext entry
      rw [Bool.eq_iff_iff]
      simp only [decide_eq_true_eq, Bool.and_eq_true]
      refine ⟨fun h => h.2, fun h => ⟨?_, h⟩⟩
      rwa [h.1, h.2]
    have hmoved : (((WorkflowDirectory.entry (files.tree.workflow.directory .accepted)
          (ticketId ++ ".md")).toList.map fun entry => (TicketState.done, entry)).find?
          fun entry => entry.1 = state && entry.2.name = name) = none := by
      rw [List.find?_eq_none]
      intro entry hentry
      obtain ⟨moved, hmoved, rfl⟩ := List.mem_map.mp hentry
      have hname : moved.name = ticketId ++ ".md" := by
        have hfound := List.find?_some (Option.mem_toList.mp hmoved)
        simpa using hfound
      simp only [Bool.and_eq_true, decide_eq_true_eq]
      rintro ⟨rfl, rfl⟩
      exact hother ⟨hname, .inr rfl⟩
    unfold moveToDone
    rw [List.find?_append, hkept, hmoved, Option.or_none]

/-- The done file is what the accepted file was. -/
theorem blob_moveToDone_done :
    (moveToDone ticketId files).blob (ticketAt .done ticketId)
      = files.blob (ticketAt .accepted ticketId) := by
  unfold ticketAt
  rw [blob_eq_find]
  have hkept : ((files.tickets.filter fun entry =>
      ¬ (entry.2.name = ticketId ++ ".md" ∧ (entry.1 = .accepted ∨ entry.1 = .done))).find?
        fun entry => entry.1 = TicketState.done && entry.2.name = ticketId ++ ".md") = none := by
    rw [List.find?_eq_none]
    intro entry hentry
    have hkept := (List.mem_filter.mp hentry).2
    simp only [decide_eq_true_eq, not_and, not_or] at hkept
    simp only [Bool.and_eq_true, decide_eq_true_eq]
    rintro ⟨hstate, hname⟩
    exact (hkept hname).2 hstate
  unfold moveToDone
  rw [List.find?_append, hkept, Option.none_or]
  show _ = (WorkflowDirectory.entry (files.tree.workflow.directory .accepted)
    (ticketId ++ ".md")).map (fun entry => Tracked.ticket entry.text)
  cases hentry : WorkflowDirectory.entry (files.tree.workflow.directory .accepted)
    (ticketId ++ ".md") with
  | none => rfl
  | some entry =>
    have hname : entry.name = ticketId ++ ".md" := by
      have hfound := List.find?_some hentry
      simpa using hfound
    simp [hname]

/-- The move of a ticket from `accepted` to an empty place is exact. -/
theorem isMove_moveToDone (haccepted : (files.blob (ticketAt .accepted ticketId)).isSome)
    (hdone : files.blob (ticketAt .done ticketId) = none) :
    isMove ticketId files (moveToDone ticketId files) = true := by
  obtain ⟨blob, hblob⟩ := Option.isSome_iff_exists.mp haccepted
  unfold isMove
  rw [Bool.and_eq_true]
  refine ⟨List.all_eq_true.mpr fun path _ => ?_, ?_⟩
  · rw [decide_eq_true_eq]
    unfold integrationStatus
    by_cases hfrom : path = ticketAt .accepted ticketId
    · subst hfrom
      rw [if_pos rfl, blob_moveToDone_accepted, hblob]
      rfl
    · by_cases hto : path = ticketAt .done ticketId
      · subst hto
        rw [if_neg hfrom, if_pos rfl, blob_moveToDone_done, hdone, hblob]
        rfl
      · rw [if_neg hfrom, if_neg hto, blob_moveToDone_of_ne hfrom hto]
        exact if_pos rfl
  · rw [blob_moveToDone_done]
    exact decide_eq_true rfl

end Move

/-! ### The product side -/

namespace IntegrationSite

variable {s t u : IntegrationSite}

/-- The control branch, here and on the remote, and the record are as they were. -/
structure SameControl (s t : IntegrationSite) : Prop where
  control : t.control = s.control
  files : t.files = s.files
  controlRemote : t.controlRemote = s.controlRemote
  pending : t.pending = s.pending

theorem SameControl.refl (s : IntegrationSite) : SameControl s s := ⟨rfl, rfl, rfl, rfl⟩

/-- The execution of a checkpoint without changes can be retired. -/
structure Retirable (checkpoint : Text) (s : IntegrationSite) : Prop where
  remote : s.executionRemote = none ∨ s.executionRemote = some checkpoint
  worktree : s.workspace = .absent ∨ s.workspace = .registered none
  branch : s.executionLocal = none ∨ s.executionLocal = some checkpoint

/-- The site without the execution. -/
def retired (s : IntegrationSite) : IntegrationSite :=
  { s with executionRemote := none, workspace := .absent, executionLocal := none }

theorem sat_retireExecutionRemote (checkpoint : Text) (s₀ : IntegrationSite)
    (hsame : SameControl s₀ s) :
    Sat (SameControl s₀) (retireExecutionRemote checkpoint)
      (fun _ t => (s.executionRemote = none ∨ s.executionRemote = some checkpoint)
        ∧ t = { s with executionRemote := none })
      (fun _ _ => ¬ (s.executionRemote = none ∨ s.executionRemote = some checkpoint)) s := by
  unfold retireExecutionRemote
  refine .bind (.get ?_)
  by_cases hnone : s.executionRemote = none
  · rw [if_pos hnone]
    refine .pure ⟨.inl hnone, ?_⟩
    rw [← hnone]
  · rw [if_neg hnone]
    refine .bind (.ensure (fun hsome => ?_) fun hother => ?_)
    · exact .effect ⟨hsame.control, hsame.files, hsame.controlRemote, hsame.pending⟩
        ⟨.inr hsome, rfl⟩
    · exact not_or.mpr ⟨hnone, hother⟩

theorem sat_retireExecutionWorktree (s₀ : IntegrationSite) (hsame : SameControl s₀ s) :
    Sat (SameControl s₀) retireExecutionWorktree
      (fun _ t => (s.workspace = .absent ∨ s.workspace = .registered none)
        ∧ t = { s with workspace := .absent })
      (fun _ _ => ¬ (s.workspace = .absent ∨ s.workspace = .registered none)) s := by
  unfold retireExecutionWorktree
  refine .bind (.get ?_)
  cases hworkspace : s.workspace with
  | absent =>
    refine .pure ⟨.inl rfl, ?_⟩
    rw [← hworkspace]
  | registered refusal =>
    cases refusal with
    | none =>
      exact .effect ⟨hsame.control, hsame.files, hsame.controlRemote, hsame.pending⟩ ⟨.inr rfl, rfl⟩
    | some message => exact .raise (by simp)
  | ambiguous => exact .raise (by simp)

theorem sat_retireExecutionLocal (checkpoint : Text) (s₀ : IntegrationSite)
    (hsame : SameControl s₀ s) :
    Sat (SameControl s₀) (retireExecutionLocal checkpoint)
      (fun _ t => (s.executionLocal = none ∨ s.executionLocal = some checkpoint)
        ∧ t = { s with executionLocal := none })
      (fun _ _ => ¬ (s.executionLocal = none ∨ s.executionLocal = some checkpoint)) s := by
  unfold retireExecutionLocal
  refine .bind (.get ?_)
  by_cases hnone : s.executionLocal = none
  · rw [if_pos hnone]
    refine .pure ⟨.inl hnone, ?_⟩
    rw [← hnone]
  · rw [if_neg hnone]
    refine .bind (.ensure (fun hsome => ?_) fun hother => ?_)
    · exact .effect ⟨hsame.control, hsame.files, hsame.controlRemote, hsame.pending⟩
        ⟨.inr hsome, rfl⟩
    · exact not_or.mpr ⟨hnone, hother⟩

theorem sat_retireZeroDeltaExecution (checkpoint : Text) (s : IntegrationSite) :
    Sat (SameControl s) (retireZeroDeltaExecution checkpoint)
      (fun _ t => Retirable checkpoint s ∧ t = s.retired)
      (fun _ _ => ¬ Retirable checkpoint s) s := by
  unfold retireZeroDeltaExecution
  refine .bind ((sat_retireExecutionRemote checkpoint s (.refl s)).mono (fun _ h => h) ?_ ?_)
  · rintro _ _ ⟨hremote, rfl⟩
    have hsame : SameControl s { s with executionRemote := none } := ⟨rfl, rfl, rfl, rfl⟩
    refine .bind ((sat_retireExecutionWorktree s hsame).mono (fun _ h => h) ?_ ?_)
    · rintro _ _ ⟨hworktree, rfl⟩
      have hsame : SameControl s { s with executionRemote := none, workspace := .absent } :=
        ⟨rfl, rfl, rfl, rfl⟩
      refine (sat_retireExecutionLocal checkpoint s hsame).mono (fun _ h => h) ?_ ?_
      · rintro _ _ ⟨hbranch, rfl⟩
        exact ⟨⟨hremote, hworktree, hbranch⟩, rfl⟩
      · exact fun _ _ hnot hretirable => hnot hretirable.branch
    · exact fun _ _ hnot hretirable => hnot hretirable.worktree
  · exact fun _ _ hnot hretirable => hnot hretirable.remote

section Product

variable (history : History Text)

/-- The head of the product branch once a checkpoint is there. -/
def publishedHead (checkpoint productHead : Text) : Text :=
  if history.isAncestor checkpoint productHead then productHead else checkpoint

/-- The product side of an integration can be settled from a head of the product branch. -/
def SettlesFrom (report : ExecutionReport) (productHead : Text) (s : IntegrationSite) : Prop :=
  if IsZeroDelta report then
    productHead = report.codeBaseHead ∧ Retirable (checkpointOf report) s
  else
    (history.isAncestor (checkpointOf report) productHead = true
        ∨ history.isAncestor productHead (checkpointOf report) = true)
      ∧ s.productClean = true
      ∧ (s.product = checkpointOf report ∨ (history.fastForward s.product
          (publishedHead history (checkpointOf report) productHead)).isSome)

/-- The product side of an integration can be settled. -/
def Settles (report : ExecutionReport) (s : IntegrationSite) : Prop :=
  ∃ productHead, s.productRemote = some productHead ∧ SettlesFrom history report productHead s

/-- The parent that is expected of the integration commit. -/
def expectedHead (report : ExecutionReport) (s : IntegrationSite) : ControlCommit :=
  if IsZeroDelta report then s.control else (s.pending.map (·.controlHead)).getD s.control

/-- What a settled product side leaves for the control side. -/
structure Settled (report : ExecutionReport) (s t : IntegrationSite) : Prop where
  same : SameControl s t
  product : ∀ productHead, s.productRemote = some productHead → t.productRemote = some
    (if IsZeroDelta report then productHead
      else publishedHead history (checkpointOf report) productHead)
  execution : t.executionRemote = if IsZeroDelta report then none else s.executionRemote

variable {history}

theorem sat_publishCheckpoint (checkpoint productHead : Text)
    (hremote : s.productRemote = some productHead) :
    Sat (SameControl s) (publishCheckpoint history checkpoint productHead)
      (fun _ t => (history.isAncestor checkpoint productHead = true
          ∨ history.isAncestor productHead checkpoint = true)
        ∧ t = { s with productRemote := some (publishedHead history checkpoint productHead) })
      (fun _ _ => ¬ (history.isAncestor checkpoint productHead = true
        ∨ history.isAncestor productHead checkpoint = true)) s := by
  unfold publishCheckpoint publishedHead
  by_cases hthere : history.isAncestor checkpoint productHead = true
  · rw [if_pos hthere, if_pos hthere]
    refine .pure ⟨.inl hthere, ?_⟩
    rw [← hremote]
  · rw [if_neg hthere, if_neg hthere]
    refine .bind (.ensure (fun hbehind => ?_) fun hdiverged => ?_)
    · exact .effect ⟨rfl, rfl, rfl, rfl⟩ ⟨.inr hbehind, rfl⟩
    · exact not_or.mpr ⟨hthere, hdiverged⟩

theorem sat_synchronizeCheckout (checkpoint head : Text) (s₀ : IntegrationSite)
    (hsame : SameControl s₀ s) (hremote : s.productRemote = some head) :
    Sat (SameControl s₀) (synchronizeCheckout history checkpoint)
      (fun _ t => (s.productClean = true
          ∧ (s.product = checkpoint ∨ (history.fastForward s.product head).isSome))
        ∧ ∃ product, t = { s with product := product })
      (fun _ _ => ¬ (s.productClean = true
        ∧ (s.product = checkpoint ∨ (history.fastForward s.product head).isSome))) s := by
  unfold synchronizeCheckout
  refine .bind (.get (.bind (.ensure (fun hclean => ?_) fun hdirty hall => hdirty hall.1)))
  by_cases hthere : s.product = checkpoint
  · rw [if_pos hthere]
    exact .pure ⟨⟨hclean, .inl hthere⟩, s.product, rfl⟩
  · rw [if_neg hthere]
    have hbind : s.productRemote.bind (history.fastForward s.product)
        = history.fastForward s.product head := by rw [hremote]; rfl
    rw [hbind]
    cases hforward : history.fastForward s.product head with
    | none => exact .raise fun hall => hall.2.elim hthere (by simp)
    | some product =>
      exact .effect ⟨hsame.control, hsame.files, hsame.controlRemote, hsame.pending⟩
        ⟨⟨hclean, .inr rfl⟩, product, rfl⟩

theorem sat_settleProduct (report : ExecutionReport) (s : IntegrationSite) :
    Sat (SameControl s) (settleProduct history report)
      (fun head t => Settles history report s ∧ head = expectedHead report s
        ∧ Settled history report s t)
      (fun _ _ => ¬ Settles history report s) s := by
  unfold settleProduct
  refine .bind (.get ?_)
  cases hremote : s.productRemote with
  | none =>
    refine .raise ?_
    rintro ⟨productHead, hsome, -⟩
    rw [hremote] at hsome
    cases hsome
  | some productHead =>
    dsimp only
    have hfrom : Settles history report s → SettlesFrom history report productHead s := by
      rintro ⟨head, hhead, h⟩
      cases hremote.symm.trans hhead
      exact h
    unfold SettlesFrom at hfrom
    by_cases hzero : IsZeroDelta report
    · rw [if_pos hzero] at hfrom ⊢
      refine .bind (.ensure (fun hbase => ?_) fun hmoved h => hmoved (hfrom h).1)
      refine .bind ((sat_retireZeroDeltaExecution _ s).mono (fun _ h => h) ?_
        fun _ _ hnot h => hnot (hfrom h).2)
      rintro _ _ ⟨hretirable, rfl⟩
      refine .pure ⟨⟨productHead, hremote, ?_⟩, (if_pos hzero).symm, ⟨rfl, rfl, rfl, rfl⟩, ?_,
        (if_pos hzero).symm⟩
      · unfold SettlesFrom
        rw [if_pos hzero]
        exact ⟨hbase, hretirable⟩
      · intro head hhead
        rw [if_pos hzero]
        exact hhead
    · rw [if_neg hzero] at hfrom ⊢
      refine .bind ((sat_publishCheckpoint _ _ hremote).mono (fun _ h => h) ?_
        fun _ _ hnot h => hnot (hfrom h).1)
      rintro _ _ ⟨hpublishes, rfl⟩
      have hsame : SameControl s { s with
          productRemote := some (publishedHead history (checkpointOf report) productHead) } :=
        ⟨rfl, rfl, rfl, rfl⟩
      refine .bind ((sat_synchronizeCheckout _ _ s hsame rfl).mono (fun _ h => h) ?_
        fun _ _ hnot h => hnot (hfrom h).2)
      rintro _ _ ⟨hsynchronizes, product, rfl⟩
      refine .pure ⟨⟨productHead, hremote, ?_⟩, (if_neg hzero).symm, ⟨rfl, rfl, rfl, rfl⟩, ?_,
        (if_neg hzero).symm⟩
      · unfold SettlesFrom
        rw [if_neg hzero]
        exact ⟨hpublishes, hsynchronizes⟩
      · intro head hhead
        rw [if_neg hzero]
        cases hremote.symm.trans hhead
        rfl

end Product

end IntegrationSite

/-! ### The control side -/

namespace IntegrationSite

variable {s t : IntegrationSite} {ticketId : String} {expected W : ControlCommit}

theorem isExactIntegration_iff {commit : ControlCommit} :
    isExactIntegration ticketId expected commit = true ↔ ∃ before after rest,
      expected = before :: rest ∧ commit = after :: expected ∧ isMove ticketId before after = true := by
  constructor
  · intro h
    match commit, h with
    | after :: before :: rest, h =>
      obtain ⟨hparent, hmove⟩ := Bool.and_eq_true_iff.mp h
      have heq : before :: rest = expected := by simpa using hparent
      exact ⟨before, after, rest, heq.symm, by rw [heq], hmove⟩
  · rintro ⟨before, after, rest, rfl, rfl, hmove⟩
    simp [isExactIntegration, hmove]

/-- An exact integration commit is a child of what is expected. -/
theorem exists_of_isExactIntegration {commit : ControlCommit}
    (h : isExactIntegration ticketId expected commit = true) :
    expected ≠ [] ∧ ∃ files, commit = files :: expected := by
  obtain ⟨before, after, rest, heq, hcommit, -⟩ := isExactIntegration_iff.mp h
  exact ⟨heq ▸ List.cons_ne_nil _ _, after, hcommit⟩

theorem ne_of_isExactIntegration {commit : ControlCommit}
    (h : isExactIntegration ticketId expected commit = true) : commit ≠ expected := by
  obtain ⟨-, files, rfl⟩ := exists_of_isExactIntegration h
  exact Timeline.cons_append_ne files [] expected

/-- The classification of an exact commit that is here and not on the remote. -/
theorem observe_localExact {commit : ControlCommit}
    (h : isExactIntegration ticketId expected commit = true) :
    observeControlIntegration ticketId expected commit expected = .localExactUnpublished commit := by
  unfold observeControlIntegration
  rw [if_pos rfl, if_neg (ne_of_isExactIntegration h), if_pos h]

theorem observe_eq_localExact {commit localHead remoteHead : ControlCommit}
    (h : observeControlIntegration ticketId expected localHead remoteHead
      = .localExactUnpublished commit) :
    remoteHead = expected ∧ commit = localHead
      ∧ isExactIntegration ticketId expected localHead = true := by
  unfold observeControlIntegration at h
  split at h
  · rename_i hremote
    split at h
    · cases h
    · split at h
      · rename_i hexact
        exact ⟨hremote, (Classification.localExactUnpublished.inj h).symm, hexact⟩
      · cases h
  · split at h
    · cases h
    · split at h <;> cases h

/-- The classification of a remote that has an exact commit as its first after the expected one. -/
theorem observe_remoteExact {commit localHead remoteHead : ControlCommit}
    (h : isExactIntegration ticketId expected commit = true) (hremote : commit <:+ remoteHead) :
    observeControlIntegration ticketId expected localHead remoteHead
      = .remoteExactPublished commit := by
  obtain ⟨-, files, rfl⟩ := exists_of_isExactIntegration h
  have hne : remoteHead ≠ expected := by
    rintro rfl
    exact Timeline.not_suffix_of_longer (Nat.lt_succ_self _) hremote
  unfold observeControlIntegration
  rw [if_neg hne, Timeline.firstAfter_child hremote]
  simp [h]

theorem observe_eq_remoteExact {commit localHead remoteHead : ControlCommit}
    (h : observeControlIntegration ticketId expected localHead remoteHead
      = .remoteExactPublished commit) :
    commit <:+ remoteHead ∧ isExactIntegration ticketId expected commit = true := by
  unfold observeControlIntegration at h
  split at h
  · split at h
    · cases h
    · split at h <;> cases h
  · split at h
    · cases h
    · rename_i candidate hcandidate
      split at h
      · rename_i hexact
        cases h
        exact ⟨(Timeline.firstAfter_mem hcandidate).1, hexact⟩
      · cases h

/-! #### The fast-forward -/

/-- The control head that `_sync_control` arrives at, if it does not raise. -/
def synced (s : IntegrationSite) : Option ControlCommit :=
  if s.ControlClean then
    if s.control <:+ s.controlRemote then some s.controlRemote
    else s.pending.bind fun pending =>
      match observeControlIntegration pending.ticketId pending.controlHead s.control
          s.controlRemote with
      | .localExactUnpublished _ => some s.control
      | _ => none
  else none

theorem checkout_self (h : s.ControlClean) : s.checkout s.control = s := by
  have hfiles : s.control.headD s.files = s.files := by
    unfold ControlClean at h
    rw [List.headD_eq_head?_getD, h]
    rfl
  unfold checkout
  rw [hfiles]

theorem control_ne_nil (h : s.ControlClean) : s.control ≠ [] := by
  intro hnil
  unfold ControlClean at h
  rw [hnil] at h
  cases h

theorem controlClean_of_synced (h : s.synced = some W) : s.ControlClean := by
  unfold synced at h
  split at h
  · assumption
  · cases h

/-- The fast-forward arrives at the control remote, or stays at the unpublished commit. -/
theorem synced_cases (h : s.synced = some W) :
    (s.control <:+ s.controlRemote ∧ W = s.controlRemote)
      ∨ (¬ s.control <:+ s.controlRemote ∧ W = s.control ∧ ∃ pending, s.pending = some pending
        ∧ pending.controlHead = s.controlRemote
        ∧ isExactIntegration pending.ticketId pending.controlHead s.control = true) := by
  unfold synced at h
  rw [if_pos (controlClean_of_synced h)] at h
  split at h
  · rename_i hsuffix
    exact .inl ⟨hsuffix, (Option.some.inj h).symm⟩
  · rename_i hsuffix
    obtain ⟨pending, hpending, h⟩ := Option.bind_eq_some_iff.mp h
    split at h
    · rename_i hobserved
      obtain ⟨hremote, -, hexact⟩ := observe_eq_localExact hobserved
      exact .inr ⟨hsuffix, (Option.some.inj h).symm, pending, hpending, hremote.symm, hexact⟩
    · cases h

theorem synced_ne_nil (h : s.synced = some W) : W ≠ [] := by
  have hne := control_ne_nil (controlClean_of_synced h)
  rcases synced_cases h with ⟨hsuffix, rfl⟩ | ⟨-, rfl, -⟩
  · intro hnil
    exact hne (List.suffix_nil.mp (hnil ▸ hsuffix))
  · exact hne

theorem controlClean_checkout (h : W ≠ []) : (s.checkout W).ControlClean := by
  cases W with
  | nil => exact absurd rfl h
  | cons files rest => rfl

theorem syncControl_of_synced (h : s.synced = some W) :
    ∃ visited, syncControl s = ⟨visited, .ok W⟩ ∧ visited.getLastD s = s.checkout W
      ∧ ∀ t ∈ visited, t = s.checkout W := by
  have hclean := controlClean_of_synced h
  have hstay : ∀ {g : Crash.Outcome IntegrationSite IntegrationError ControlCommit}, W = s.control →
      g = ⟨[], .ok W⟩ → ∃ visited, g = ⟨visited, .ok W⟩
        ∧ visited.getLastD s = s.checkout W ∧ ∀ t ∈ visited, t = s.checkout W := by
    rintro g rfl rfl
    exact ⟨[], rfl, (checkout_self hclean).symm, fun _ ht => (List.not_mem_nil ht).elim⟩
  have hstart : syncControl s = _ := Program.ensure_bind hclean _ _ s
  rw [hstart]
  rcases synced_cases h with ⟨hsuffix, rfl⟩ | ⟨hsuffix, rfl, pending, hpending, hremote, hexact⟩
  · by_cases heq : s.control = s.controlRemote
    · rw [if_pos heq]
      refine hstay heq.symm ?_
      rw [← heq]
      rfl
    · rw [if_neg heq, if_pos hsuffix]
      refine ⟨[s.checkout s.controlRemote], rfl, rfl, fun t ht => List.mem_singleton.mp ht⟩
  · have hne : s.control ≠ s.controlRemote := fun heq => hsuffix (heq ▸ List.suffix_rfl)
    rw [if_neg hne, if_neg hsuffix]
    refine hstay rfl ?_
    rw [hpending]
    dsimp only
    rw [← hremote, observe_localExact hexact]
    rfl

theorem syncControl_of_none (h : s.synced = none) : ∃ e, syncControl s = ⟨[], .error e⟩ := by
  unfold synced at h
  by_cases hclean : s.ControlClean
  · have hstart : syncControl s = _ := Program.ensure_bind hclean _ _ s
    rw [hstart]
    rw [if_pos hclean] at h
    by_cases hsuffix : s.control <:+ s.controlRemote
    · rw [if_pos hsuffix] at h
      cases h
    · have hne : s.control ≠ s.controlRemote := fun heq => hsuffix (heq ▸ List.suffix_rfl)
      rw [if_neg hsuffix] at h
      rw [if_neg hne, if_neg hsuffix]
      cases hpending : s.pending with
      | none => exact ⟨_, rfl⟩
      | some pending =>
        rw [hpending, Option.bind_some] at h
        dsimp only
        split at h
        · cases h
        · exact ⟨_, rfl⟩
  · exact ⟨_, Program.ensure_bind_of_not hclean _ _ s⟩

/-! #### The completion -/

section Completion

variable [NanoYaml] [Sha256]

/-- The control worktree has the ticket in `accepted`, with its evidence, at the expected head. -/
structure Creates (ticketId : String) (expected : ControlCommit) (t : IntegrationSite) : Prop where
  accepted : ticketState ticketId t.files = .ok (some .accepted)
  evidence : ∃ report, acceptedExecutionReport t.evidence ticketId = .ok report
  head : t.control = expected

/-- The integration commit that is made. -/
def created (ticketId : String) (t : IntegrationSite) : ControlCommit :=
  moveToDone ticketId t.files :: t.control

/-- The site after the rename, after the commit and after its publication. -/
def renamed (ticketId : String) (t : IntegrationSite) : IntegrationSite :=
  { t with files := moveToDone ticketId t.files }

def committed (ticketId : String) (t : IntegrationSite) : IntegrationSite :=
  { t with files := moveToDone ticketId t.files, control := created ticketId t }

def integrated (ticketId : String) (t : IntegrationSite) : IntegrationSite :=
  { t with
    files := moveToDone ticketId t.files, control := created ticketId t
    controlRemote := created ticketId t }

/-- What `_complete_accepted` turns to, by the state of the ticket. -/
def completionFor (ticketId : String) (expected : ControlCommit) :
    Option TicketState → IntegrationSite.Program ControlCommit
  | none => .raise (.blocked "accepted ticket disappeared during integration")
  | some .done => recognizeIntegration ticketId expected
  | some .accepted => createIntegration ticketId expected
  | some _ => .raise (.blocked "accepted ticket changed during integration")

theorem completeAccepted_of_state {state : Option TicketState}
    (h : ticketState ticketId t.files = .ok state) :
    completeAccepted ticketId expected t = completionFor ticketId expected state t := by
  have hstart : completeAccepted ticketId expected t = _ :=
    Program.observe_bind (f := fun s : IntegrationSite => ticketState ticketId s.files) h _
  rw [hstart]
  rcases state with _ | state
  · rfl
  · cases state <;> rfl

/-- A commit that is on the remote already is recognized. -/
theorem completeAccepted_published {commit : ControlCommit}
    (hdone : ticketState ticketId t.files = .ok (some .done))
    (hobserved : observeControlIntegration ticketId expected t.control t.controlRemote
      = .remoteExactPublished commit) :
    completeAccepted ticketId expected t = ⟨[], .ok t.control⟩ := by
  rw [completeAccepted_of_state hdone]
  show recognizeIntegration ticketId expected t = _
  unfold recognizeIntegration
  rw [Program.get_bind, hobserved]
  rfl

/-- A commit that is only here is published. -/
theorem completeAccepted_unpublished {commit : ControlCommit}
    (hdone : ticketState ticketId t.files = .ok (some .done))
    (hobserved : observeControlIntegration ticketId expected t.control t.controlRemote
      = .localExactUnpublished commit) :
    completeAccepted ticketId expected t
      = ⟨[{ t with controlRemote := t.control }], .ok t.control⟩ := by
  obtain ⟨hremote, rfl, hexact⟩ := observe_eq_localExact hobserved
  have hpublished : observeControlIntegration ticketId expected t.control t.control
      = .remoteExactPublished t.control := observe_remoteExact hexact List.suffix_rfl
  have hforward : t.controlRemote <:+ t.control := by
    obtain ⟨-, files, heq⟩ := exists_of_isExactIntegration hexact
    rw [hremote, heq]
    exact List.suffix_cons _ _
  rw [completeAccepted_of_state hdone]
  show recognizeIntegration ticketId expected t = _
  unfold recognizeIntegration
  rw [Program.get_bind, hobserved]
  dsimp only
  rw [Program.ensure_bind hforward, hpublished]
  rfl

omit [NanoYaml] [Sha256] in
theorem publishIntegration_cases (commit : ControlCommit) (t : IntegrationSite) :
    ((∃ e, publishIntegration ticketId expected commit t = ⟨[], .error e⟩)
        ∧ ¬ (isExactIntegration ticketId expected commit = true ∧ t.controlRemote <:+ commit))
      ∨ (publishIntegration ticketId expected commit t
          = ⟨[{ t with controlRemote := commit }], .ok commit⟩
        ∧ isExactIntegration ticketId expected commit = true) := by
  by_cases hexact : isExactIntegration ticketId expected commit = true
  · have hstart : publishIntegration ticketId expected commit t = _ :=
      Program.ensure_bind hexact _ _ t
    rw [hstart, Program.get_bind]
    by_cases hforward : t.controlRemote <:+ commit
    · rw [Program.ensure_bind hforward]
      exact .inr ⟨rfl, hexact⟩
    · exact .inl ⟨⟨_, Program.ensure_bind_of_not hforward _ _ t⟩, fun h => hforward h.2⟩
  · exact .inl ⟨⟨_, Program.ensure_bind_of_not hexact _ _ t⟩, fun h => hexact h.1⟩

/-- The move is committed; the commit is published if it is exact. -/
theorem completeAccepted_creates (h : Creates ticketId expected t) :
    ∃ visited result, completeAccepted ticketId expected t
        = ⟨renamed ticketId t :: committed ticketId t :: visited, result⟩
      ∧ ((visited = [] ∧ (∃ e, result = .error e)
          ∧ ¬ (isExactIntegration ticketId expected (created ticketId t) = true
            ∧ t.controlRemote <:+ created ticketId t))
        ∨ (visited = [integrated ticketId t] ∧ result = .ok (created ticketId t)
          ∧ isExactIntegration ticketId expected (created ticketId t) = true)) := by
  obtain ⟨report, hevidence⟩ := h.evidence
  have hstart : createIntegration ticketId expected t = _ := Program.observe_bind
    (f := fun s : IntegrationSite => acceptedExecutionReport s.evidence ticketId) hevidence _
  have hcreate : createIntegration ticketId expected t
      = ⟨renamed ticketId t :: committed ticketId t
          :: (publishIntegration ticketId expected (created ticketId t)
            (committed ticketId t)).visited,
        (publishIntegration ticketId expected (created ticketId t)
          (committed ticketId t)).result⟩ := by
    rw [hstart, Program.get_bind, Program.ensure_bind h.head]
    rfl
  rw [completeAccepted_of_state h.accepted]
  refine ⟨_, _, hcreate, ?_⟩
  rcases publishIntegration_cases (created ticketId t) (committed ticketId t)
    with ⟨⟨e, hrefused⟩, hnot⟩ | ⟨hpublished, hexact⟩
  · rw [hrefused]
    exact .inl ⟨rfl, ⟨e, rfl⟩, hnot⟩
  · rw [hpublished]
    exact .inr ⟨rfl, rfl, hexact⟩

/-- Otherwise nothing is done. -/
theorem completeAccepted_refused (hcreates : ¬ Creates ticketId expected t)
    (hdone : ticketState ticketId t.files = .ok (some .done) → ∀ commit,
      observeControlIntegration ticketId expected t.control t.controlRemote
          ≠ .localExactUnpublished commit
        ∧ observeControlIntegration ticketId expected t.control t.controlRemote
          ≠ .remoteExactPublished commit) :
    ∃ e, completeAccepted ticketId expected t = ⟨[], .error e⟩ := by
  cases hstate : ticketState ticketId t.files with
  | error e =>
    exact ⟨e, Program.observe_bind_error
      (f := fun s : IntegrationSite => ticketState ticketId s.files) hstate _⟩
  | ok state =>
    rw [completeAccepted_of_state hstate]
    rcases state with _ | state
    · exact ⟨_, rfl⟩
    · cases state with
      | done =>
        show ∃ e, recognizeIntegration ticketId expected t = _
        unfold recognizeIntegration
        rw [Program.get_bind]
        cases hobserved : observeControlIntegration ticketId expected t.control t.controlRemote with
        | localExactUnpublished commit => exact absurd hobserved (hdone hstate commit).1
        | remoteExactPublished commit => exact absurd hobserved (hdone hstate commit).2
        | notApplied => exact ⟨_, rfl⟩
        | ambiguous => exact ⟨_, rfl⟩
      | accepted =>
        show ∃ e, createIntegration ticketId expected t = _
        cases hevidence : acceptedExecutionReport t.evidence ticketId with
        | error e =>
          exact ⟨e, Program.observe_bind_error
            (f := fun s : IntegrationSite => acceptedExecutionReport s.evidence ticketId) hevidence _⟩
        | ok report =>
          have hstart : createIntegration ticketId expected t = _ := Program.observe_bind
            (f := fun s : IntegrationSite => acceptedExecutionReport s.evidence ticketId) hevidence _
          rw [hstart, Program.get_bind]
          exact ⟨_, Program.ensure_bind_of_not (fun hhead => hcreates ⟨hstate, ⟨report, hevidence⟩,
            hhead⟩) _ _ t⟩
      | backlog => exact ⟨_, rfl⟩
      | todo => exact ⟨_, rfl⟩
      | review => exact ⟨_, rfl⟩

end Completion

end IntegrationSite

/-! ### A recovery -/

namespace IntegrationSite

section Recovery

variable {s t : IntegrationSite} {intent : AcceptedIntent} {W : ControlCommit}
  {report : ExecutionReport} {history : History Text} {todoFingerprint : ControlFiles → String}

/-- Nothing but the fast-forward has happened to the control branch. -/
structure Idle (s t : IntegrationSite) : Prop where
  control : t.control = s.control ∨ t.control = s.controlRemote
  controlRemote : t.controlRemote = s.controlRemote
  pending : t.pending = s.pending

theorem SameControl.idle (h : SameControl (s.checkout W) t) (hsynced : s.synced = some W) :
    Idle s t := by
  refine ⟨?_, h.controlRemote, h.pending⟩
  rw [h.control]
  rcases synced_cases hsynced with ⟨-, rfl⟩ | ⟨-, rfl, -⟩
  · exact .inr rfl
  · exact .inl rfl

variable (history) in
/-- Recovery gets as far as the completion, at the control head `W` and with the evidence `report`. -/
structure Ready [Sha256] (s : IntegrationSite) (ticketId : String) (W : ControlCommit)
    (report : ExecutionReport) : Prop where
  named : ticketId ≠ ""
  synced : s.synced = some W
  productClean : s.productClean = true
  evidence : acceptedExecutionReport (s.checkout W).evidence ticketId = .ok report
  settles : Settles history report (s.checkout W)

variable [NanoYaml] [Sha256]

omit [NanoYaml] [Sha256] in
theorem settleProduct_of_settles (h : Settles history report s) :
    ∃ visited, settleProduct history report s = ⟨visited, .ok (expectedHead report s)⟩
      ∧ (∀ u ∈ visited, SameControl s u) ∧ Settled history report s (visited.getLastD s) := by
  rcases (sat_settleProduct report s).ends with
    ⟨visited, head, heq, hvisited, -, rfl, hsettled⟩ | ⟨_, _, _, _, hnot⟩
  · exact ⟨visited, heq, hvisited, hsettled⟩
  · exact absurd h hnot

omit [NanoYaml] [Sha256] in
theorem settleProduct_of_not (h : ¬ Settles history report s) :
    ∃ visited e, settleProduct history report s = ⟨visited, .error e⟩
      ∧ ∀ u ∈ visited, SameControl s u := by
  rcases (sat_settleProduct report s).ends with
    ⟨_, _, _, _, hsettles, _⟩ | ⟨visited, e, heq, hvisited, _⟩
  · exact absurd hsettles h
  · exact ⟨visited, e, heq, hvisited⟩

/-- Where the product side can be settled, an integration is that and the completion. -/
theorem integrateAccepted_of_settles {ticketId : String} (hproduct : s.productClean = true)
    (hcontrol : s.ControlClean)
    (hevidence : acceptedExecutionReport s.evidence ticketId = .ok report)
    (hsettles : Settles history report s) :
    ∃ visited, (∀ u ∈ visited, SameControl s u)
      ∧ Settled history report s (visited.getLastD s)
      ∧ integrateAccepted history ticketId s
        = ⟨visited
            ++ (completeAccepted ticketId (expectedHead report s) (visited.getLastD s)).visited,
          (completeAccepted ticketId (expectedHead report s) (visited.getLastD s)).result⟩ := by
  obtain ⟨visited, heq, hvisited, hsettled⟩ := settleProduct_of_settles hsettles
  refine ⟨visited, hvisited, hsettled, ?_⟩
  have hstart : integrateAccepted history ticketId s = _ :=
    Program.ensure_bind ⟨hproduct, hcontrol⟩ _ _ s
  rw [hstart, Program.observe_bind
    (f := fun s : IntegrationSite => acceptedExecutionReport s.evidence ticketId) hevidence,
    Program.bind_of_ok heq]

/-- Otherwise it raises before it turns to the control branch. -/
theorem integrateAccepted_refused {ticketId : String} (hcontrol : s.ControlClean)
    (h : ∀ report, s.productClean = true →
      acceptedExecutionReport s.evidence ticketId = .ok report → ¬ Settles history report s) :
    ∃ visited e, integrateAccepted history ticketId s = ⟨visited, .error e⟩
      ∧ ∀ u ∈ visited, SameControl s u := by
  have hnothing : ∀ u ∈ ([] : List IntegrationSite), SameControl s u :=
    fun _ hu => (List.not_mem_nil hu).elim
  by_cases hproduct : s.productClean = true
  · have hstart : integrateAccepted history ticketId s = _ :=
      Program.ensure_bind ⟨hproduct, hcontrol⟩ _ _ s
    rw [hstart]
    cases hevidence : acceptedExecutionReport s.evidence ticketId with
    | error e =>
      exact ⟨[], e, Program.observe_bind_error
        (f := fun s : IntegrationSite => acceptedExecutionReport s.evidence ticketId) hevidence _,
        hnothing⟩
    | ok report =>
      obtain ⟨visited, e, heq, hvisited⟩ := settleProduct_of_not (h report hproduct hevidence)
      refine ⟨visited, e, ?_, hvisited⟩
      rw [Program.observe_bind
        (f := fun s : IntegrationSite => acceptedExecutionReport s.evidence ticketId) hevidence,
        Program.bind_of_error heq]
  · exact ⟨[], _, Program.ensure_bind_of_not (fun hall => hproduct hall.1) _ _ s, hnothing⟩

/-- A recovery that is ready is the way to the completion, the completion and the record. -/
theorem recover_of_ready (hpending : s.pending = some intent)
    (h : Ready history s intent.ticketId W report) {remoteHead : Text}
    (hremote : s.productRemote = some remoteHead) :
    ∃ visited t, (∀ u ∈ visited, SameControl (s.checkout W) u) ∧ Settled history report (s.checkout W) t
      ∧ (∀ rest e, completeAccepted intent.ticketId (expectedHead report (s.checkout W)) t
            = ⟨rest, .error e⟩ →
          recoverAcceptedIntegration history todoFingerprint s = ⟨visited ++ rest, .error e⟩)
      ∧ ∀ rest head, completeAccepted intent.ticketId (expectedHead report (s.checkout W)) t
            = ⟨rest, .ok head⟩ →
          recoverAcceptedIntegration history todoFingerprint s
            = ⟨visited ++ rest ++ [recordIntegration todoFingerprint remoteHead W
                (rest.getLastD t)], .ok ()⟩ := by
  obtain ⟨synchronized, hsync, hlast, hsynchronized⟩ := syncControl_of_synced h.synced
  obtain ⟨settling, hsettling, hsettled, hintegrate⟩ := integrateAccepted_of_settles
    (s := s.checkout W) h.productClean (controlClean_checkout (synced_ne_nil h.synced)) h.evidence
    h.settles
  have hsame : ∀ u ∈ synchronized ++ settling, SameControl (s.checkout W) u := by
    intro u hu
    rcases List.mem_append.mp hu with hu | hu
    · exact hsynchronized u hu ▸ .refl _
    · exact hsettling u hu
  have hstart : recoverAcceptedIntegration history todoFingerprint s
      = ((integrateAccepted history intent.ticketId >>= fun _ =>
          Program.effect (recordIntegration todoFingerprint remoteHead W)) (s.checkout W)
        |> fun o => ⟨synchronized ++ o.visited, o.result⟩) := by
    unfold recoverAcceptedIntegration
    rw [Program.get_bind, hpending]
    dsimp only
    rw [Program.ensure_bind h.named, Program.bind_of_ok hsync, hlast, Program.get_bind]
    have hthere : (s.checkout W).productRemote = some remoteHead := hremote
    rw [hthere]
  refine ⟨synchronized ++ settling, _, hsame, hsettled, fun rest e hrest => ?_,
    fun rest head hrest => ?_⟩
  · rw [hrest] at hintegrate
    rw [hstart, Program.bind_of_error hintegrate, List.append_assoc]
  · rw [hrest] at hintegrate
    have hlast : (settling ++ rest).getLastD (s.checkout W)
        = rest.getLastD (settling.getLastD (s.checkout W)) :=
      last_append (s.checkout W) settling ⟨rest, (.ok head : Except IntegrationError _)⟩
    rw [hstart, Program.bind_of_ok hintegrate, hlast]
    simp [Program.effect]

/-- A recovery that is not ready raises, and has at most fast-forwarded the control worktree. -/
theorem recover_of_not_ready (hpending : s.pending = some intent)
    (h : ∀ W report, ¬ Ready history s intent.ticketId W report) :
    ∃ visited e, recoverAcceptedIntegration history todoFingerprint s = ⟨visited, .error e⟩
      ∧ ∀ u ∈ visited, Idle s u := by
  have hnothing : ∀ u ∈ ([] : List IntegrationSite), Idle s u :=
    fun _ hu => (List.not_mem_nil hu).elim
  unfold recoverAcceptedIntegration
  rw [Program.get_bind, hpending]
  dsimp only
  by_cases hnamed : intent.ticketId ≠ ""
  · rw [Program.ensure_bind hnamed]
    cases hsynced : s.synced with
    | none =>
      obtain ⟨e, hsync⟩ := syncControl_of_none hsynced
      exact ⟨[], e, Program.bind_of_error hsync _, hnothing⟩
    | some W =>
      obtain ⟨synchronized, hsync, hlast, hsynchronized⟩ := syncControl_of_synced hsynced
      have hidle : ∀ u ∈ synchronized, Idle s u :=
        fun u hu => hsynchronized u hu ▸ (SameControl.refl _).idle hsynced
      rw [Program.bind_of_ok hsync, hlast, Program.get_bind]
      cases hremote : (s.checkout W).productRemote with
      | none => exact ⟨synchronized ++ [], _, rfl, by simpa using hidle⟩
      | some remoteHead =>
        have hrefused : ∃ visited e, integrateAccepted history intent.ticketId (s.checkout W)
            = ⟨visited, .error e⟩ ∧ ∀ u ∈ visited, SameControl (s.checkout W) u :=
          integrateAccepted_refused (controlClean_checkout (synced_ne_nil hsynced))
            fun report hproduct hevidence hsettles =>
              h W report ⟨hnamed, hsynced, hproduct, hevidence, hsettles⟩
        obtain ⟨visited, e, hintegrate, hvisited⟩ := hrefused
        dsimp only
        rw [Program.bind_of_error hintegrate]
        refine ⟨_, e, rfl, fun u hu => ?_⟩
        rcases List.mem_append.mp hu with hu | hu
        · exact hidle u hu
        · exact (hvisited u hu).idle hsynced
  · exact ⟨[], _, Program.ensure_bind_of_not hnamed _ _ s, hnothing⟩

end Recovery

/-! ### The recovery model -/

section Model

variable [NanoYaml] [Sha256]

/-- `local = R--C, remote = R`. -/
def Unpublished (s : IntegrationSite) (intent : AcceptedIntent) : Prop :=
  s.controlRemote = intent.controlHead
    ∧ isExactIntegration intent.ticketId intent.controlHead s.control = true

/-- `remote = R--C` or `remote = R--C--D`, with nothing here that is not there. -/
def Published (s : IntegrationSite) (intent : AcceptedIntent) : Prop :=
  s.control <:+ s.controlRemote
    ∧ ∃ commit, isExactIntegration intent.ticketId intent.controlHead commit = true
      ∧ commit <:+ s.controlRemote

/-- `local = R, remote = R`, or a local head that is fast-forwarded there. -/
def Untouched (s : IntegrationSite) (intent : AcceptedIntent) : Prop :=
  s.control <:+ s.controlRemote ∧ s.controlRemote = intent.controlHead

section Properties

variable (history : History Text) (todoFingerprint : ControlFiles → String)

/-- A recovery that returns, with the record taken back. -/
def Completes (s : IntegrationSite) : Prop :=
  (recoverAcceptedIntegration history todoFingerprint s).result = .ok ()
    ∧ ((recoverAcceptedIntegration history todoFingerprint s).last s).pending = none

/-- What recovery owes to the recorded control head `R`: a commit that it makes has the parent `R`,
    and it publishes exact commits on `R` only; an exact commit that is only here is published as it
    is; one that is on the remote is recognized without a second commit; and from every other topology
    it raises, with the record and the remote as they were. -/
structure FollowsModel (s : IntegrationSite) (intent : AcceptedIntent) : Prop where
  rooted : ∀ t ∈ (recoverAcceptedIntegration history todoFingerprint s).visited,
    (t.control = s.control ∨ t.control = s.controlRemote
        ∨ ∃ files, t.control = files :: intent.controlHead)
      ∧ (t.controlRemote = s.controlRemote
        ∨ isExactIntegration intent.ticketId intent.controlHead t.controlRemote = true)
  publishes : Unpublished s intent → Completes history todoFingerprint s
    ∧ ((recoverAcceptedIntegration history todoFingerprint s).last s).controlRemote = s.control
    ∧ ∀ t ∈ (recoverAcceptedIntegration history todoFingerprint s).visited,
      t.control = s.control ∧ (t.controlRemote = s.controlRemote ∨ t.controlRemote = s.control)
  recognizes : Published s intent → Completes history todoFingerprint s
    ∧ ∀ t ∈ (recoverAcceptedIntegration history todoFingerprint s).visited,
      (t.control = s.control ∨ t.control = s.controlRemote) ∧ t.controlRemote = s.controlRemote
  failsClosed : ¬ Unpublished s intent → ¬ Published s intent → ¬ Untouched s intent →
    (∃ e, (recoverAcceptedIntegration history todoFingerprint s).result = .error e)
      ∧ ∀ t ∈ (recoverAcceptedIntegration history todoFingerprint s).visited,
        t.controlRemote = s.controlRemote ∧ t.pending = s.pending

/-- At the control head after the fast-forward the ticket is done, its evidence is found and has
    changed the product, and the product side can be settled. -/
def Completable (s : IntegrationSite) (intent : AcceptedIntent) : Prop :=
  ∃ W report, Ready history s intent.ticketId W report ∧ ¬ IsZeroDelta report
    ∧ ticketState intent.ticketId (s.checkout W).files = .ok (some .done)

/-- At the control head after the fast-forward the ticket is accepted, its evidence is found, before
    and after the execution is retired, and has not changed the product. -/
def Misplaced (s : IntegrationSite) (intent : AcceptedIntent) : Prop :=
  ∃ W report, Ready history s intent.ticketId W report ∧ IsZeroDelta report
    ∧ ticketState intent.ticketId (s.checkout W).files = .ok (some .accepted)
    ∧ ∃ report', acceptedExecutionReport (s.checkout W).retired.evidence intent.ticketId = .ok report'

/-- Where recovery follows the model. -/
def Recovers (s : IntegrationSite) (intent : AcceptedIntent) : Prop :=
  (Unpublished s intent ∨ Published s intent → Completable history s intent)
    ∧ (¬ Unpublished s intent → ¬ Published s intent → ¬ Untouched s intent →
      ¬ Misplaced history s intent)

end Properties

variable {s t : IntegrationSite} {intent : AcceptedIntent} {W : ControlCommit}
  {report : ExecutionReport} {history : History Text} {todoFingerprint : ControlFiles → String}

omit [NanoYaml] [Sha256] in
theorem synced_below (hsynced : s.synced = some W) : s.controlRemote <:+ W := by
  rcases synced_cases hsynced with ⟨-, rfl⟩ | ⟨-, rfl, pending, -, hremote, hexact⟩
  · exact List.suffix_rfl
  · obtain ⟨-, files, heq⟩ := exists_of_isExactIntegration hexact
    rw [← hremote, heq]
    exact List.suffix_cons _ _

omit [NanoYaml] in
theorem Ready.unique {ticketId : String} {W' : ControlCommit} {report' : ExecutionReport}
    (h : Ready history s ticketId W report) (h' : Ready history s ticketId W' report') :
    W = W' ∧ report = report' := by
  cases h.synced.symm.trans h'.synced
  exact ⟨rfl, Except.ok.inj (h.evidence.symm.trans h'.evidence)⟩

omit [NanoYaml] [Sha256] in
/-- Nothing is an integration on top of the head that is checked out. -/
theorem observe_self {ticketId : String} {remoteHead : ControlCommit} (h : remoteHead <:+ W)
    (commit : ControlCommit) :
    observeControlIntegration ticketId W W remoteHead ≠ .localExactUnpublished commit
      ∧ observeControlIntegration ticketId W W remoteHead ≠ .remoteExactPublished commit := by
  constructor
  · intro hlocal
    exact ne_of_isExactIntegration (observe_eq_localExact hlocal).2.2 rfl
  · intro hpublished
    obtain ⟨hsuffix, hexact⟩ := observe_eq_remoteExact hpublished
    obtain ⟨-, files, rfl⟩ := exists_of_isExactIntegration hexact
    exact Timeline.not_suffix_of_longer (Nat.lt_succ_self _) (hsuffix.trans h)

omit [NanoYaml] [Sha256] in
theorem synced_of_unpublished (h : Unpublished s intent) (hsynced : s.synced = some W) :
    W = s.control := by
  rcases synced_cases hsynced with ⟨hsuffix, -⟩ | ⟨-, rfl, -⟩
  · obtain ⟨hremote, hexact⟩ := h
    obtain ⟨-, files, heq⟩ := exists_of_isExactIntegration hexact
    rw [hremote, heq] at hsuffix
    exact absurd hsuffix (Timeline.not_suffix_of_longer (Nat.lt_succ_self _))
  · rfl

omit [NanoYaml] [Sha256] in
theorem synced_of_suffix (h : s.control <:+ s.controlRemote) (hsynced : s.synced = some W) :
    W = s.controlRemote := by
  rcases synced_cases hsynced with ⟨-, rfl⟩ | ⟨hnot, -⟩
  · rfl
  · exact absurd h hnot

omit [NanoYaml] [Sha256] in
/-- Where nothing is unpublished here, the fast-forward arrives at the control remote. -/
theorem synced_of_not_unpublished (hpending : s.pending = some intent)
    (h : ¬ Unpublished s intent) (hsynced : s.synced = some W) :
    s.control <:+ s.controlRemote ∧ W = s.controlRemote := by
  rcases synced_cases hsynced with hforward | ⟨-, -, pending, hsome, hremote, hexact⟩
  · exact hforward
  · cases hpending.symm.trans hsome
    exact absurd ⟨hremote.symm, hexact⟩ h

omit [NanoYaml] [Sha256] in
theorem expectedHead_eq (hpending : s.pending = some intent) :
    expectedHead report (s.checkout W) = if IsZeroDelta report then W else intent.controlHead := by
  unfold expectedHead
  have hrecord : (s.checkout W).pending = some intent := hpending
  rw [hrecord]
  rfl

/-- A zero-delta completion at an accepted ticket misplaces the integration commit. -/
theorem misplaced_of_creates (h : Ready history s intent.ticketId W report)
    (hzero : IsZeroDelta report) (hsettled : Settled history report (s.checkout W) t)
    {expected : ControlCommit} (hcreates : Creates intent.ticketId expected t) :
    Misplaced history s intent := by
  obtain ⟨report', hevidence⟩ := hcreates.evidence
  refine ⟨W, report, h, hzero, ?_, report', ?_⟩
  · rw [← hsettled.same.files]
    exact hcreates.accepted
  · rw [← hevidence]
    unfold evidence
    rw [hsettled.same.control, hsettled.same.files, hsettled.execution, if_pos hzero]
    rfl

/-- A completion with a delta at an accepted ticket makes the integration commit. -/
theorem creates_of_settled (h : Ready history s intent.ticketId W report)
    (hdelta : ¬ IsZeroDelta report)
    (haccepted : ticketState intent.ticketId (s.checkout W).files = .ok (some .accepted))
    (hsettled : Settled history report (s.checkout W) t) : Creates intent.ticketId W t := by
  refine ⟨?_, ⟨report, ?_⟩, hsettled.same.control⟩
  · rw [hsettled.same.files]
    exact haccepted
  · rw [← h.evidence]
    unfold evidence
    rw [hsettled.same.control, hsettled.same.files, hsettled.execution, if_neg hdelta]

/-- How a recovery ends that has reached the completion in `t`. -/
inductive Ends (todoFingerprint : ControlFiles → String) (ticketId : String)
    (expected W : ControlCommit) (remoteHead : Text) (visited : List IntegrationSite)
    (t : IntegrationSite) : Crash.Outcome IntegrationSite IntegrationError Unit → Prop where
  | refused (e : IntegrationError) (hcreates : ¬ Creates ticketId expected t)
      (hdone : ticketState ticketId t.files = .ok (some .done) → ∀ commit,
        observeControlIntegration ticketId expected t.control t.controlRemote
            ≠ .localExactUnpublished commit
          ∧ observeControlIntegration ticketId expected t.control t.controlRemote
            ≠ .remoteExactPublished commit) :
      Ends todoFingerprint ticketId expected W remoteHead visited t ⟨visited, .error e⟩
  | recognized (commit : ControlCommit)
      (hdone : ticketState ticketId t.files = .ok (some .done))
      (hobserved : observeControlIntegration ticketId expected t.control t.controlRemote
        = .remoteExactPublished commit) :
      Ends todoFingerprint ticketId expected W remoteHead visited t
        ⟨visited ++ [recordIntegration todoFingerprint remoteHead W t], .ok ()⟩
  | published (commit : ControlCommit)
      (hdone : ticketState ticketId t.files = .ok (some .done))
      (hobserved : observeControlIntegration ticketId expected t.control t.controlRemote
        = .localExactUnpublished commit) :
      Ends todoFingerprint ticketId expected W remoteHead visited t
        ⟨visited ++ [{ t with controlRemote := t.control }]
          ++ [recordIntegration todoFingerprint remoteHead W
            { t with controlRemote := t.control }], .ok ()⟩
  | unpublished (e : IntegrationError) (hcreates : Creates ticketId expected t)
      (hnot : ¬ (isExactIntegration ticketId expected (created ticketId t) = true
        ∧ t.controlRemote <:+ created ticketId t)) :
      Ends todoFingerprint ticketId expected W remoteHead visited t
        ⟨visited ++ [renamed ticketId t, committed ticketId t], .error e⟩
  | made (hcreates : Creates ticketId expected t)
      (hexact : isExactIntegration ticketId expected (created ticketId t) = true) :
      Ends todoFingerprint ticketId expected W remoteHead visited t
        ⟨visited ++ [renamed ticketId t, committed ticketId t, integrated ticketId t]
          ++ [recordIntegration todoFingerprint remoteHead W (integrated ticketId t)], .ok ()⟩

/-- A recovery that is ready ends in one of these ways. -/
theorem recover_ends (hpending : s.pending = some intent)
    (h : Ready history s intent.ticketId W report) {remoteHead : Text}
    (hremote : s.productRemote = some remoteHead) :
    ∃ visited t, (∀ u ∈ visited, SameControl (s.checkout W) u)
      ∧ Settled history report (s.checkout W) t
      ∧ Ends todoFingerprint intent.ticketId
        (if IsZeroDelta report then W else intent.controlHead) W remoteHead visited t
        (recoverAcceptedIntegration history todoFingerprint s) := by
  obtain ⟨visited, t, hvisited, hsettled, hraised, hreturned⟩ :=
    @recover_of_ready s intent W report history todoFingerprint _ _ hpending h remoteHead hremote
  rw [expectedHead_eq hpending] at hraised hreturned
  refine ⟨visited, t, hvisited, hsettled, ?_⟩
  generalize (if IsZeroDelta report then W else intent.controlHead) = expected at hraised hreturned ⊢
  by_cases hcreates : Creates intent.ticketId expected t
  · obtain ⟨rest, result, heq, ⟨rfl, ⟨e, rfl⟩, hnot⟩ | ⟨rfl, rfl, hexact⟩⟩ :=
      completeAccepted_creates hcreates
    · rw [hraised _ _ heq]
      exact .unpublished e hcreates hnot
    · rw [hreturned _ _ heq]
      exact .made hcreates hexact
  · have hrefused : (ticketState intent.ticketId t.files = .ok (some .done) → ∀ commit,
        observeControlIntegration intent.ticketId expected t.control t.controlRemote
            ≠ .localExactUnpublished commit
          ∧ observeControlIntegration intent.ticketId expected t.control t.controlRemote
            ≠ .remoteExactPublished commit) →
        Ends todoFingerprint intent.ticketId expected W remoteHead visited t
          (recoverAcceptedIntegration history todoFingerprint s) := by
      intro hnone
      obtain ⟨e, heq⟩ := completeAccepted_refused hcreates hnone
      rw [hraised _ _ heq, List.append_nil]
      exact .refused e hcreates hnone
    by_cases hdone : ticketState intent.ticketId t.files = .ok (some .done)
    · cases hobserved : observeControlIntegration intent.ticketId expected t.control
          t.controlRemote with
      | localExactUnpublished commit =>
        rw [hreturned _ _ (completeAccepted_unpublished hdone hobserved)]
        exact .published commit hdone hobserved
      | remoteExactPublished commit =>
        rw [hreturned _ _ (completeAccepted_published hdone hobserved), List.append_nil]
        exact .recognized commit hdone hobserved
      | notApplied => exact hrefused fun _ _ => by simp [hobserved]
      | ambiguous => exact hrefused fun _ _ => by simp [hobserved]
    · exact hrefused fun hstate => absurd hstate hdone

theorem exists_ready (hpending : s.pending = some intent)
    (hok : (recoverAcceptedIntegration history todoFingerprint s).result = .ok ()) :
    ∃ W report, Ready history s intent.ticketId W report := by
  by_contra hnone
  push Not at hnone
  obtain ⟨visited, e, heq, -⟩ :=
    @recover_of_not_ready s intent history todoFingerprint _ _ hpending hnone
  rw [heq] at hok
  cases hok

omit [NanoYaml] in
theorem Ready.exists_remote {ticketId : String} (h : Ready history s ticketId W report) :
    ∃ remoteHead, s.productRemote = some remoteHead := by
  obtain ⟨remoteHead, hremote, -⟩ := h.settles
  exact ⟨remoteHead, hremote⟩

omit [NanoYaml] [Sha256] in
theorem cons_ne_of_suffix {commit : ControlCommit} (h : commit <:+ W) (files : ControlFiles) :
    files :: W ≠ commit := by
  rintro rfl
  exact Timeline.not_suffix_of_longer (Nat.lt_succ_self _) h

omit [NanoYaml] [Sha256] in
/-- A commit is found on top of the expected head only where the execution has changed the product. -/
theorem delta_of_observed {ticketId : String} (hsettled : Settled history report (s.checkout W) t)
    (hbelow : s.controlRemote <:+ W) {commit : ControlCommit}
    (hobserved : observeControlIntegration ticketId
          (if IsZeroDelta report then W else intent.controlHead) t.control t.controlRemote
        = .localExactUnpublished commit
      ∨ observeControlIntegration ticketId
          (if IsZeroDelta report then W else intent.controlHead) t.control t.controlRemote
        = .remoteExactPublished commit) : ¬ IsZeroDelta report := by
  intro hzero
  rw [if_pos hzero, hsettled.same.control, hsettled.same.controlRemote] at hobserved
  exact hobserved.elim (observe_self hbelow commit).1 (observe_self hbelow commit).2

/-- A recovery that returns and makes no commit has found the ticket done, with a delta. -/
theorem completable_of_returns (hpending : s.pending = some intent)
    (hok : (recoverAcceptedIntegration history todoFingerprint s).result = .ok ())
    (hkeeps : ∀ t ∈ (recoverAcceptedIntegration history todoFingerprint s).visited,
      t.control = s.control ∨ t.control = s.controlRemote)
    (hbelow : ∀ W, s.synced = some W → s.control <:+ W ∧ s.controlRemote <:+ W) :
    Completable history s intent := by
  obtain ⟨W, report, hready⟩ := exists_ready hpending hok
  obtain ⟨remoteHead, hremote⟩ := hready.exists_remote
  obtain ⟨hcontrol, hcontrolRemote⟩ := hbelow W hready.synced
  obtain ⟨visited, t, -, hsettled, hends⟩ :=
    @recover_ends _ _ s intent W report history todoFingerprint hpending hready _ hremote
  have hmakes : ∀ u ∈ (recoverAcceptedIntegration history todoFingerprint s).visited,
      u.control ≠ created intent.ticketId t := by
    intro u hu heq
    have hcreated : created intent.ticketId t = moveToDone intent.ticketId t.files :: W := by
      unfold created
      rw [hsettled.same.control]
      rfl
    rw [hcreated] at heq
    rcases hkeeps u hu with hsame | hsame
    · exact cons_ne_of_suffix hcontrol _ (heq.symm.trans hsame)
    · exact cons_ne_of_suffix hcontrolRemote _ (heq.symm.trans hsame)
  generalize hrun : recoverAcceptedIntegration history todoFingerprint s = run at hends hok hmakes
  cases hends with
  | refused e _ _ => cases hok
  | recognized commit hdone hobserved =>
    exact ⟨W, report, hready, delta_of_observed hsettled hcontrolRemote (.inr hobserved),
      hsettled.same.files ▸ hdone⟩
  | published commit hdone hobserved =>
    exact ⟨W, report, hready, delta_of_observed hsettled hcontrolRemote (.inl hobserved),
      hsettled.same.files ▸ hdone⟩
  | unpublished e _ _ => cases hok
  | made hcreates _ => exact absurd rfl (hmakes (committed intent.ticketId t) (by simp))

/-- Recovery makes a commit only on top of the recorded head. -/
theorem untouched_of_creates (hpending : s.pending = some intent)
    (hrecovers : Recovers history s intent) (hready : Ready history s intent.ticketId W report)
    (hsettled : Settled history report (s.checkout W) t)
    (hcreates : Creates intent.ticketId (if IsZeroDelta report then W else intent.controlHead) t) :
    W = intent.controlHead ∧ Untouched s intent := by
  have hhead : W = if IsZeroDelta report then W else intent.controlHead := by
    rw [← hcreates.head, hsettled.same.control]
    rfl
  by_cases hzero : IsZeroDelta report
  · have hmisplaced := misplaced_of_creates hready hzero hsettled hcreates
    have hnot : ¬ (Unpublished s intent ∨ Published s intent) := by
      intro hintegrated
      obtain ⟨W', report', hready', hdelta, -⟩ := hrecovers.1 hintegrated
      obtain ⟨-, rfl⟩ := hready.unique hready'
      exact hdelta hzero
    obtain ⟨hunpublished, hpublished⟩ := not_or.mp hnot
    have huntouched : Untouched s intent := by
      by_contra huntouched
      exact hrecovers.2 hunpublished hpublished huntouched hmisplaced
    refine ⟨?_, huntouched⟩
    rw [synced_of_suffix huntouched.1 hready.synced]
    exact huntouched.2
  · rw [if_neg hzero] at hhead
    refine ⟨hhead, ?_⟩
    rcases synced_cases hready.synced with ⟨hforward, heq⟩ | ⟨-, heq, pending, hsome, -, hexact⟩
    · exact ⟨hforward, heq ▸ hhead⟩
    · cases hpending.symm.trans hsome
      rw [← heq, hhead] at hexact
      exact absurd rfl (ne_of_isExactIntegration hexact)

/-- A commit on top of another head is not rooted. -/
theorem not_misplaced_of_rooted (hpending : s.pending = some intent)
    (hunpublished : ¬ Unpublished s intent) (huntouched : ¬ Untouched s intent)
    (hrooted : ∀ t ∈ (recoverAcceptedIntegration history todoFingerprint s).visited,
      (t.control = s.control ∨ t.control = s.controlRemote
          ∨ ∃ files, t.control = files :: intent.controlHead)
        ∧ (t.controlRemote = s.controlRemote
          ∨ isExactIntegration intent.ticketId intent.controlHead t.controlRemote = true)) :
    ¬ Misplaced history s intent := by
  rintro ⟨W, report, hready, hzero, haccepted, report', hevidence⟩
  obtain ⟨remoteHead, hremote⟩ := hready.exists_remote
  obtain ⟨hforward, rfl⟩ := synced_of_not_unpublished hpending hunpublished hready.synced
  obtain ⟨visited, t, -, hsettled, hends⟩ :=
    @recover_ends _ _ s intent _ report history todoFingerprint hpending hready _ hremote
  rw [if_pos hzero] at hends
  have hcreates : Creates intent.ticketId s.controlRemote t := by
    refine ⟨hsettled.same.files ▸ haccepted, ⟨report', ?_⟩, hsettled.same.control⟩
    rw [← hevidence]
    unfold evidence
    rw [hsettled.same.control, hsettled.same.files, hsettled.execution, if_pos hzero]
    rfl
  have hnotRooted : ∀ u ∈ (recoverAcceptedIntegration history todoFingerprint s).visited,
      u.control ≠ created intent.ticketId t := by
    intro u hu heq
    have hcreated : created intent.ticketId t
        = moveToDone intent.ticketId t.files :: s.controlRemote := by
      unfold created
      rw [hsettled.same.control]
      rfl
    rw [hcreated] at heq
    rcases (hrooted u hu).1 with hsame | hsame | ⟨files, hsame⟩
    · exact cons_ne_of_suffix hforward _ (heq.symm.trans hsame)
    · exact cons_ne_of_suffix List.suffix_rfl _ (heq.symm.trans hsame)
    · exact huntouched ⟨hforward, (List.cons.inj (heq.symm.trans hsame)).2⟩
  generalize recoverAcceptedIntegration history todoFingerprint s = run at hends hnotRooted
  cases hends with
  | refused e hnot _ => exact hnot hcreates
  | recognized commit hdone _ =>
    rw [hcreates.accepted] at hdone
    cases hdone
  | published commit hdone _ =>
    rw [hcreates.accepted] at hdone
    cases hdone
  | unpublished e _ _ => exact hnotRooted (committed intent.ticketId t) (by simp) rfl
  | made _ _ => exact hnotRooted (committed intent.ticketId t) (by simp) rfl

/-- What recovery makes is on top of the recorded head, and so is what it publishes. -/
theorem rooted_of_recovers (hpending : s.pending = some intent)
    (h : Recovers history s intent) :
    ∀ t ∈ (recoverAcceptedIntegration history todoFingerprint s).visited,
      (t.control = s.control ∨ t.control = s.controlRemote
          ∨ ∃ files, t.control = files :: intent.controlHead)
        ∧ (t.controlRemote = s.controlRemote
          ∨ isExactIntegration intent.ticketId intent.controlHead t.controlRemote = true) := by
  by_cases hready : ∃ W report, Ready history s intent.ticketId W report
  · obtain ⟨W, report, hready⟩ := hready
    obtain ⟨remoteHead, hremote⟩ := hready.exists_remote
    obtain ⟨visited, t, hvisited, hsettled, hends⟩ :=
      @recover_ends _ _ s intent W report history todoFingerprint hpending hready _ hremote
    have hsame : ∀ u, SameControl (s.checkout W) u → (u.control = s.control
        ∨ u.control = s.controlRemote ∨ ∃ files, u.control = files :: intent.controlHead)
          ∧ (u.controlRemote = s.controlRemote
            ∨ isExactIntegration intent.ticketId intent.controlHead u.controlRemote = true) := by
      intro u hu
      have hidle := hu.idle hready.synced
      exact ⟨hidle.control.imp_right .inl, .inl hidle.controlRemote⟩
    have ht := hsame t hsettled.same
    -- a commit is made on the expected head only, which is then the recorded one
    have hmade : Creates intent.ticketId (if IsZeroDelta report then W else intent.controlHead) t →
        (if IsZeroDelta report then W else intent.controlHead) = intent.controlHead
          ∧ created intent.ticketId t
            = moveToDone intent.ticketId t.files :: intent.controlHead := by
      intro hcreates
      obtain ⟨hhead, -⟩ := untouched_of_creates hpending h hready hsettled hcreates
      refine ⟨by split <;> first | exact hhead | rfl, ?_⟩
      unfold created
      rw [hsettled.same.control, ← hhead]
      rfl
    generalize recoverAcceptedIntegration history todoFingerprint s = run at hends ⊢
    intro u hu
    -- what was seen up to the product side, and then what each end has made or published
    cases hends with
    | refused e _ _ => exact hsame u (hvisited u hu)
    | recognized commit _ _ =>
      rcases List.mem_append.mp hu with hu | hu
      · exact hsame u (hvisited u hu)
      · rw [List.mem_singleton.mp hu]
        exact ht
    | published commit hdone hobserved =>
      obtain ⟨hremoteHead, -, hexact⟩ := observe_eq_localExact hobserved
      have hroot : isExactIntegration intent.ticketId intent.controlHead t.control = true := by
        by_cases hzero : IsZeroDelta report
        · rw [if_pos hzero, hsettled.same.control] at hexact
          exact absurd rfl (ne_of_isExactIntegration hexact)
        · rwa [if_neg hzero] at hexact
      rcases List.mem_append.mp hu with hu | hu
      · rcases List.mem_append.mp hu with hu | hu
        · exact hsame u (hvisited u hu)
        · rw [List.mem_singleton.mp hu]
          exact ⟨ht.1, .inr hroot⟩
      · rw [List.mem_singleton.mp hu]
        exact ⟨ht.1, .inr hroot⟩
    | unpublished e hcreates _ =>
      obtain ⟨-, hcreated⟩ := hmade hcreates
      rcases List.mem_append.mp hu with hu | hu
      · exact hsame u (hvisited u hu)
      · simp only [List.mem_cons, List.not_mem_nil, or_false] at hu
        rcases hu with rfl | rfl
        · exact ht
        · exact ⟨.inr (.inr ⟨_, hcreated⟩), ht.2⟩
    | made hcreates hexact =>
      obtain ⟨hroot, hcreated⟩ := hmade hcreates
      rw [hroot] at hexact
      rcases List.mem_append.mp hu with hu | hu
      · rcases List.mem_append.mp hu with hu | hu
        · exact hsame u (hvisited u hu)
        · simp only [List.mem_cons, List.not_mem_nil, or_false] at hu
          rcases hu with rfl | rfl | rfl
          · exact ht
          · exact ⟨.inr (.inr ⟨_, hcreated⟩), ht.2⟩
          · exact ⟨.inr (.inr ⟨_, hcreated⟩), .inr hexact⟩
      · rw [List.mem_singleton.mp hu]
        exact ⟨.inr (.inr ⟨_, hcreated⟩), .inr hexact⟩
  · -- refused before it has changed anything on the control side
    push Not at hready
    obtain ⟨visited, e, heq, hvisited⟩ :=
      @recover_of_not_ready s intent history todoFingerprint _ _ hpending hready
    rw [heq]
    intro u hu
    exact ⟨(hvisited u hu).control.imp_right .inl, .inl (hvisited u hu).controlRemote⟩

/-- An exact commit that is only here is published. -/
theorem publishes_of_recovers (hpending : s.pending = some intent)
    (h : Recovers history s intent) (hunpublished : Unpublished s intent) :
    Completes history todoFingerprint s
      ∧ ((recoverAcceptedIntegration history todoFingerprint s).last s).controlRemote = s.control
      ∧ ∀ t ∈ (recoverAcceptedIntegration history todoFingerprint s).visited,
        t.control = s.control
          ∧ (t.controlRemote = s.controlRemote ∨ t.controlRemote = s.control) := by
  obtain ⟨W, report, hready, hdelta, hdone⟩ := h.1 (.inl hunpublished)
  obtain rfl := synced_of_unpublished hunpublished hready.synced
  obtain ⟨remoteHead, hremote⟩ := hready.exists_remote
  obtain ⟨visited, t, hvisited, hsettled, hends⟩ :=
    @recover_ends _ _ s intent _ report history todoFingerprint hpending hready _ hremote
  have hcontrol : t.control = s.control := hsettled.same.control
  have hcontrolRemote : t.controlRemote = s.controlRemote := hsettled.same.controlRemote
  have hobserve : observeControlIntegration intent.ticketId intent.controlHead t.control
      t.controlRemote = .localExactUnpublished s.control := by
    rw [hcontrol, hcontrolRemote, hunpublished.1]
    exact observe_localExact hunpublished.2
  rw [if_neg hdelta] at hends
  have hstate : ticketState intent.ticketId t.files = .ok (some .done) := hsettled.same.files ▸ hdone
  unfold Completes
  generalize recoverAcceptedIntegration history todoFingerprint s = run at hends ⊢
  cases hends with
  | refused e _ hnone => exact absurd hobserve (hnone hstate _).1
  | recognized commit _ hobserved =>
    rw [hobserve] at hobserved
    cases hobserved
  | published commit _ _ =>
    refine ⟨⟨rfl, ?_⟩, ?_, ?_⟩
    · simp [Crash.Outcome.last, recordIntegration]
    · simp [Crash.Outcome.last, recordIntegration, hcontrol]
    · intro u hu
      rcases List.mem_append.mp hu with hu | hu
      · rcases List.mem_append.mp hu with hu | hu
        · exact ⟨(hvisited u hu).control, .inl (hvisited u hu).controlRemote⟩
        · rw [List.mem_singleton.mp hu]
          exact ⟨hcontrol, .inr hcontrol⟩
      · rw [List.mem_singleton.mp hu]
        exact ⟨hcontrol, .inr hcontrol⟩
  | unpublished e hcreates _ =>
    rw [hcreates.accepted] at hstate
    cases hstate
  | made hcreates _ =>
    rw [hcreates.accepted] at hstate
    cases hstate

/-- An exact commit that is on the remote is recognized. -/
theorem recognizes_of_recovers (hpending : s.pending = some intent)
    (h : Recovers history s intent) (hpublished : Published s intent) :
    Completes history todoFingerprint s
      ∧ ∀ t ∈ (recoverAcceptedIntegration history todoFingerprint s).visited,
        (t.control = s.control ∨ t.control = s.controlRemote)
          ∧ t.controlRemote = s.controlRemote := by
  obtain ⟨W, report, hready, hdelta, hdone⟩ := h.1 (.inr hpublished)
  obtain rfl := synced_of_suffix hpublished.1 hready.synced
  obtain ⟨remoteHead, hremote⟩ := hready.exists_remote
  obtain ⟨visited, t, hvisited, hsettled, hends⟩ :=
    @recover_ends _ _ s intent _ report history todoFingerprint hpending hready _ hremote
  have hcontrolRemote : t.controlRemote = s.controlRemote := hsettled.same.controlRemote
  obtain ⟨-, commit, hexact, hsuffix⟩ := hpublished
  have hobserve : observeControlIntegration intent.ticketId intent.controlHead t.control
      t.controlRemote = .remoteExactPublished commit := by
    rw [hcontrolRemote]
    exact observe_remoteExact hexact hsuffix
  rw [if_neg hdelta] at hends
  have hstate : ticketState intent.ticketId t.files = .ok (some .done) := hsettled.same.files ▸ hdone
  have hidle : ∀ u, SameControl (s.checkout s.controlRemote) u →
      (u.control = s.control ∨ u.control = s.controlRemote) ∧ u.controlRemote = s.controlRemote :=
    fun u hu => ⟨(hu.idle hready.synced).control, (hu.idle hready.synced).controlRemote⟩
  unfold Completes
  generalize recoverAcceptedIntegration history todoFingerprint s = run at hends ⊢
  cases hends with
  | refused e _ hnone => exact absurd hobserve (hnone hstate _).2
  | recognized commit _ _ =>
    refine ⟨⟨rfl, ?_⟩, ?_⟩
    · simp [Crash.Outcome.last, recordIntegration]
    · intro u hu
      rcases List.mem_append.mp hu with hu | hu
      · exact hidle u (hvisited u hu)
      · rw [List.mem_singleton.mp hu]
        exact hidle t hsettled.same
  | published commit _ hobserved =>
    rw [hobserve] at hobserved
    cases hobserved
  | unpublished e hcreates _ =>
    rw [hcreates.accepted] at hstate
    cases hstate
  | made hcreates _ =>
    rw [hcreates.accepted] at hstate
    cases hstate

/-- From every other topology recovery raises. -/
theorem failsClosed_of_recovers (hpending : s.pending = some intent)
    (h : Recovers history s intent) (hunpublished : ¬ Unpublished s intent)
    (hpublished : ¬ Published s intent) (huntouched : ¬ Untouched s intent) :
    (∃ e, (recoverAcceptedIntegration history todoFingerprint s).result = .error e)
      ∧ ∀ t ∈ (recoverAcceptedIntegration history todoFingerprint s).visited,
        t.controlRemote = s.controlRemote ∧ t.pending = s.pending := by
  by_cases hready : ∃ W report, Ready history s intent.ticketId W report
  · obtain ⟨W, report, hready⟩ := hready
    obtain ⟨hforward, rfl⟩ := synced_of_not_unpublished hpending hunpublished hready.synced
    obtain ⟨remoteHead, hremote⟩ := hready.exists_remote
    obtain ⟨visited, t, hvisited, hsettled, hends⟩ :=
      @recover_ends _ _ s intent _ report history todoFingerprint hpending hready _ hremote
    have hcontrol : t.control = s.controlRemote := hsettled.same.control
    have hcontrolRemote : t.controlRemote = s.controlRemote := hsettled.same.controlRemote
    have hcreates : ¬ Creates intent.ticketId
        (if IsZeroDelta report then s.controlRemote else intent.controlHead) t := fun hcreates =>
      huntouched (untouched_of_creates hpending h hready hsettled hcreates).2
    generalize recoverAcceptedIntegration history todoFingerprint s = run at hends ⊢
    cases hends with
    | refused e _ _ =>
      exact ⟨⟨e, rfl⟩, fun u hu => ⟨(hvisited u hu).controlRemote, (hvisited u hu).pending⟩⟩
    | recognized commit _ hobserved =>
      rw [hcontrol, hcontrolRemote] at hobserved
      by_cases hzero : IsZeroDelta report
      · rw [if_pos hzero] at hobserved
        exact absurd hobserved (observe_self List.suffix_rfl commit).2
      · rw [if_neg hzero] at hobserved
        obtain ⟨hsuffix, hexact⟩ := observe_eq_remoteExact hobserved
        exact absurd ⟨hforward, commit, hexact, hsuffix⟩ hpublished
    | published commit _ hobserved =>
      obtain ⟨hremoteHead, -, hexact⟩ := observe_eq_localExact hobserved
      rw [← hremoteHead, hcontrol, hcontrolRemote] at hexact
      exact absurd rfl (ne_of_isExactIntegration hexact)
    | unpublished e hmakes _ => exact absurd hmakes hcreates
    | made hmakes _ => exact absurd hmakes hcreates
  · push Not at hready
    obtain ⟨visited, e, heq, hvisited⟩ :=
      @recover_of_not_ready s intent history todoFingerprint _ _ hpending hready
    rw [heq]
    exact ⟨⟨e, rfl⟩, fun u hu => ⟨(hvisited u hu).controlRemote, (hvisited u hu).pending⟩⟩

theorem recovers_of_followsModel (hpending : s.pending = some intent)
    (h : FollowsModel history todoFingerprint s intent) : Recovers history s intent := by
  refine ⟨?_, fun hunpublished _ huntouched =>
    not_misplaced_of_rooted hpending hunpublished huntouched h.rooted⟩
  rintro (hunpublished | hpublished)
  · obtain ⟨hcompletes, -, hkeeps⟩ := h.publishes hunpublished
    refine completable_of_returns hpending hcompletes.1 (fun t ht => .inl (hkeeps t ht).1) ?_
    intro W hsynced
    refine ⟨?_, synced_below hsynced⟩
    rw [synced_of_unpublished hunpublished hsynced]
  · obtain ⟨hcompletes, hkeeps⟩ := h.recognizes hpublished
    refine completable_of_returns hpending hcompletes.1 (fun t ht => (hkeeps t ht).1) ?_
    intro W hsynced
    refine ⟨?_, synced_below hsynced⟩
    rw [synced_of_suffix hpublished.1 hsynced]
    exact hpublished.1

/-- **The recovery model.** Recovery follows the recorded control head if and only if an exact commit,
    here or on the remote, is found with the ticket done and evidence of a delta that the product side
    can take, and in the topologies that are none of the model's no accepted ticket without a delta is
    found. -/
theorem recover_followsModel_iff (hpending : s.pending = some intent) :
    FollowsModel history todoFingerprint s intent ↔ Recovers history s intent :=
  ⟨recovers_of_followsModel hpending, fun h => ⟨rooted_of_recovers hpending h,
    publishes_of_recovers hpending h, recognizes_of_recovers hpending h,
    failsClosed_of_recovers hpending h⟩⟩

/-! ### The recorded generation -/

/-- The ticket is done at the control head after the fast-forward, and the product branch has the
    checkpoint: an integration was interrupted after both of its effects. -/
def EffectsDone (history : History Text) (s : IntegrationSite) (intent : AcceptedIntent) : Prop :=
  ∃ W report productHead, Ready history s intent.ticketId W report
    ∧ ticketState intent.ticketId (s.checkout W).files = .ok (some .done)
    ∧ s.productRemote = some productHead
    ∧ history.isAncestor (checkpointOf report) productHead = true

omit [NanoYaml] [Sha256] in
theorem publishedHead_eq_iff {checkpoint productHead : Text} :
    publishedHead history checkpoint productHead = productHead
      ↔ history.isAncestor checkpoint productHead = true := by
  unfold publishedHead
  split
  · exact ⟨fun _ => ‹_›, fun _ => rfl⟩
  · rename_i hnot
    refine ⟨?_, fun h => absurd h hnot⟩
    rintro rfl
    exact absurd (history.refl _) hnot

/-- **The recorded generation.** A recovery that returns has recorded the control head and the product
    head that it leaves if and only if the interrupted integration had made both of its effects. -/
theorem recover_marks_iff (hpending : s.pending = some intent)
    (hok : (recoverAcceptedIntegration history todoFingerprint s).result = .ok ()) :
    (((recoverAcceptedIntegration history todoFingerprint s).last s).handledControlHead
          = ((recoverAcceptedIntegration history todoFingerprint s).last s).control
        ∧ some ((recoverAcceptedIntegration history todoFingerprint s).last s).handledRemoteHead
          = ((recoverAcceptedIntegration history todoFingerprint s).last s).productRemote)
      ↔ EffectsDone history s intent := by
  obtain ⟨W, report, hready⟩ := exists_ready hpending hok
  obtain ⟨remoteHead, hremote⟩ := hready.exists_remote
  obtain ⟨visited, t, -, hsettled, hends⟩ :=
    @recover_ends _ _ s intent W report history todoFingerprint hpending hready _ hremote
  have hcontrol : t.control = W := hsettled.same.control
  have hproduct := hsettled.product remoteHead hremote
  have hfiles : t.files = (s.checkout W).files := hsettled.same.files
  have heffects : ticketState intent.ticketId t.files = .ok (some .done) →
      (EffectsDone history s intent
        ↔ history.isAncestor (checkpointOf report) remoteHead = true) := by
    intro hdone
    constructor
    · rintro ⟨W', report', productHead, hready', -, hhead, hcontains⟩
      obtain ⟨-, rfl⟩ := hready.unique hready'
      cases hremote.symm.trans hhead
      exact hcontains
    · intro hcontains
      exact ⟨W, report, remoteHead, hready, hfiles ▸ hdone, hremote, hcontains⟩
  have hmarks : ∀ commit, (observeControlIntegration intent.ticketId
        (if IsZeroDelta report then W else intent.controlHead) t.control t.controlRemote
          = .localExactUnpublished commit
      ∨ observeControlIntegration intent.ticketId
        (if IsZeroDelta report then W else intent.controlHead) t.control t.controlRemote
          = .remoteExactPublished commit) →
      ticketState intent.ticketId t.files = .ok (some .done) →
      ((W = t.control ∧ some remoteHead = t.productRemote) ↔ EffectsDone history s intent) := by
    intro commit hobserved hdone
    have hdelta := delta_of_observed hsettled (synced_below hready.synced) hobserved
    rw [heffects hdone, hproduct, if_neg hdelta, hcontrol, Option.some.injEq,
      ← publishedHead_eq_iff]
    exact ⟨fun h => h.2.symm, fun h => ⟨rfl, h.symm⟩⟩
  generalize recoverAcceptedIntegration history todoFingerprint s = run at hends hok ⊢
  cases hends with
  | refused e _ _ => cases hok
  | unpublished e _ _ => cases hok
  | recognized commit hdone hobserved =>
    simpa [Crash.Outcome.last, recordIntegration] using hmarks commit (.inr hobserved) hdone
  | published commit hdone hobserved =>
    simpa [Crash.Outcome.last, recordIntegration] using hmarks commit (.inl hobserved) hdone
  | made hcreates _ =>
    constructor
    · intro h
      have hhead : W = created intent.ticketId t := by
        simpa [Crash.Outcome.last, recordIntegration, integrated] using h.1
      unfold created at hhead
      rw [hcontrol] at hhead
      exact absurd hhead.symm (Timeline.cons_append_ne _ [] W)
    · rintro ⟨W', report', productHead, hready', hdone, -, -⟩
      obtain ⟨rfl, -⟩ := hready.unique hready'
      rw [← hfiles, hcreates.accepted] at hdone
      cases hdone

end Model

/-! ### An integration that is killed -/

section Killed

/-- A product branch where nothing is behind. -/
def flatHistory : History Text where
  isAncestor a b := a == b
  refl a := beq_self_eq_true a
  trans a b c hab hbc := by
    rw [beq_iff_eq] at hab hbc ⊢
    exact hab.trans hbc
  antisymm a b hab _ := beq_iff_eq.mp hab

/-- A metadata parser that finds the type and a title. -/
@[reducible] def titledYaml : NanoYaml :=
  ⟨fun _ => .ok [("type", .string "devlegate.ticket"), ("title", .string "t")]⟩

@[reducible] def emptySha256 : Sha256 := ⟨fun _ => ""⟩

section Site

variable [Sha256] (base head : String)

/-- The ticket's record, with its acceptance as the control head. -/
def deliveredIntent : AcceptedIntent := ⟨"t1", text head, acceptedCommit base head⟩

/-- The integration commit on top of that. -/
def deliveredCommit : ControlCommit := integrationCommit "t1" (acceptedCommit base head)

/-- The site with the product published and the control branch at two commits. -/
def deliveredSite (control controlRemote : ControlCommit) (executionRemote : Option Text) :
    IntegrationSite where
  pending := some (deliveredIntent base head)
  handledRemoteHead := text base
  handledControlHead := acceptedCommit base head
  handledTodoFingerprint := ""
  control := control
  files := control.headD ⟨[], ∅⟩
  controlRemote := controlRemote
  product := text head
  productClean := true
  productRemote := some (text head)
  executionRemote := executionRemote
  executionLocal := executionRemote
  workspace := .absent

variable {base head}

theorem isExact_deliveredCommit :
    isExactIntegration "t1" (acceptedCommit base head) (deliveredCommit base head) = true :=
  isExactIntegration_iff.mpr ⟨_, _, _, rfl, rfl, isMove_moveToDone rfl rfl⟩

theorem ticketState_accepted :
    @ticketState titledYaml "t1" ⟨[(.accepted, deliveredTicket)], deliveredFiles base head⟩
      = .ok (some .accepted) := by
  have hclosed : @ticketState titledYaml "t1" ⟨[(.accepted, deliveredTicket)], ∅⟩
      = .ok (some .accepted) := by decide +kernel
  have hsame : @ticketState titledYaml "t1"
        ⟨[(.accepted, deliveredTicket)], deliveredFiles base head⟩
      = @ticketState titledYaml "t1" ⟨[(.accepted, deliveredTicket)], ∅⟩ :=
    @ticketState_congr titledYaml "t1" _ _ rfl
  rw [hsame]
  exact hclosed

theorem ticketState_done :
    @ticketState titledYaml "t1"
        (moveToDone "t1" ⟨[(.accepted, deliveredTicket)], deliveredFiles base head⟩)
      = .ok (some .done) := by
  have hclosed : @ticketState titledYaml "t1"
      (moveToDone "t1" ⟨[(.accepted, deliveredTicket)], ∅⟩) = .ok (some .done) := by decide +kernel
  have htickets : (moveToDone "t1" ⟨[(.accepted, deliveredTicket)], deliveredFiles base head⟩).tickets
      = (moveToDone "t1" ⟨[(.accepted, deliveredTicket)], ∅⟩).tickets := by
    unfold moveToDone ControlFiles.tree
    dsimp only
  rw [@ticketState_congr titledYaml "t1" _ _ htickets]
  exact hclosed

/-- Recovery is ready at the acceptance and at the integration commit. -/
theorem ready_delivered {control controlRemote W : ControlCommit} {executionRemote : Option Text}
    (hhead : W = acceptedCommit base head ∨ W = deliveredCommit base head)
    (hsynced : (deliveredSite base head control controlRemote executionRemote).synced = some W)
    (hremote : executionRemote = some (text head) ∨ (executionRemote = none ∧ base = head))
    (hnames : isCommitName (text base) = true ∧ isCommitName (text head) = true)
    (hdelta : base = head ∨ text head ≠ text base) :
    Ready flatHistory (deliveredSite base head control controlRemote executionRemote) "t1" W
      (deliveredReport base head).report where
  named := by decide
  synced := hsynced
  productClean := rfl
  evidence := by
    refine acceptedExecutionReport_delivered base head hhead ?_ rfl hremote hnames
    rcases hhead with rfl | rfl <;> rfl
  settles := by
    refine ⟨text head, rfl, ?_⟩
    have hzero : IsZeroDelta (deliveredReport base head).report ↔ text head = text base := Iff.rfl
    unfold SettlesFrom
    rcases hdelta with rfl | hdelta
    · rw [if_pos (hzero.mpr rfl)]
      refine ⟨rfl, ?_, .inl rfl, ?_⟩
      · exact hremote.elim .inr fun h => .inl h.1
      · exact hremote.elim .inr fun h => .inl h.1
    · rw [if_neg fun h => hdelta (hzero.mp h)]
      exact ⟨.inl (beq_self_eq_true _), rfl, .inl rfl⟩

/-- A commit that is only here stays. -/
theorem synced_unpublished (executionRemote : Option Text) :
    (deliveredSite base head (deliveredCommit base head) (acceptedCommit base head)
        executionRemote).synced = some (deliveredCommit base head) := by
  have hahead : ¬ deliveredCommit base head <:+ acceptedCommit base head :=
    Timeline.not_suffix_of_longer (Nat.lt_succ_self _)
  have hobserved : observeControlIntegration "t1" (acceptedCommit base head)
      (deliveredCommit base head) (acceptedCommit base head) = .localExactUnpublished _ :=
    observe_localExact isExact_deliveredCommit
  have hclean : (deliveredSite base head (deliveredCommit base head) (acceptedCommit base head)
      executionRemote).ControlClean := rfl
  unfold synced
  rw [if_pos hclean]
  show (if deliveredCommit base head <:+ acceptedCommit base head then _ else _) = _
  rw [if_neg hahead]
  show (match observeControlIntegration "t1" (acceptedCommit base head)
      (deliveredCommit base head) (acceptedCommit base head) with
    | .localExactUnpublished _ => some (deliveredCommit base head)
    | _ => none) = _
  rw [hobserved]

/-- A worktree at the control remote stays too. -/
theorem synced_level {commit : ControlCommit} (hne : commit ≠ []) (executionRemote : Option Text) :
    (deliveredSite base head commit commit executionRemote).synced = some commit := by
  have hclean : (deliveredSite base head commit commit executionRemote).ControlClean := by
    cases commit with
    | nil => exact absurd rfl hne
    | cons files rest => rfl
  unfold synced
  rw [if_pos hclean]
  exact if_pos List.suffix_rfl

end Site

theorem isCommitName_delivered : isCommitName (text deliveredBase) = true
    ∧ isCommitName (text deliveredHead) = true := by decide

/-- An integration of a checkpoint with a delta that is killed after its commit is taken up again. -/
theorem recover_followsModel_delta :
    @FollowsModel titledYaml emptySha256 flatHistory (fun _ => "")
      (@deliveredSite emptySha256 deliveredBase deliveredHead
        (@deliveredCommit emptySha256 deliveredBase deliveredHead)
        (@acceptedCommit emptySha256 deliveredBase deliveredHead) (some (text deliveredHead)))
      (@deliveredIntent emptySha256 deliveredBase deliveredHead) := by
  have hdelta : text deliveredHead ≠ text deliveredBase := by decide
  refine (@recover_followsModel_iff titledYaml emptySha256 _ _ flatHistory (fun _ => "") rfl).mpr
    ⟨fun _ => ?_, fun hunpublished => ?_⟩
  · exact ⟨_, _, @ready_delivered emptySha256 _ _ _ _ _ _ (.inr rfl)
      (@synced_unpublished emptySha256 _ _ _) (.inl rfl) isCommitName_delivered (.inr hdelta),
      hdelta, @ticketState_done emptySha256 _ _⟩
  · exact absurd ⟨rfl, @isExact_deliveredCommit emptySha256 _ _⟩ hunpublished

/-- Without a delta it is not: the commit is there, and recovery takes it for ambiguous. -/
theorem recover_not_followsModel :
    ¬ @FollowsModel titledYaml emptySha256 flatHistory (fun _ => "")
      (@deliveredSite emptySha256 deliveredHead deliveredHead
        (@deliveredCommit emptySha256 deliveredHead deliveredHead)
        (@acceptedCommit emptySha256 deliveredHead deliveredHead) none)
      (@deliveredIntent emptySha256 deliveredHead deliveredHead) := by
  intro h
  have hready := @ready_delivered emptySha256 deliveredHead deliveredHead _ _ _ none (.inr rfl)
    (@synced_unpublished emptySha256 _ _ _) (.inr ⟨rfl, rfl⟩)
    ⟨isCommitName_delivered.2, isCommitName_delivered.2⟩ (.inl rfl)
  obtain ⟨W, report, hcompletable, hdelta, -⟩ :=
    (@recovers_of_followsModel titledYaml emptySha256 _ _ flatHistory (fun _ => "") rfl h).1
      (.inl ⟨rfl, @isExact_deliveredCommit emptySha256 _ _⟩)
  obtain ⟨-, rfl⟩ := @Ready.unique emptySha256 _ _ _ flatHistory _ _ _ hready hcompletable
  exact hdelta rfl

/-- A site whose integration was killed before its record was taken back. -/
def recognizedSite : IntegrationSite :=
  @deliveredSite emptySha256 deliveredBase deliveredHead
    (@deliveredCommit emptySha256 deliveredBase deliveredHead)
    (@deliveredCommit emptySha256 deliveredBase deliveredHead) (some (text deliveredHead))

/-- A recovery that finds both effects made records what it leaves. -/
theorem recover_marks_delta :
    ((@recoverAcceptedIntegration flatHistory titledYaml emptySha256 (fun _ => "")
          recognizedSite).last recognizedSite).handledControlHead
        = ((@recoverAcceptedIntegration flatHistory titledYaml emptySha256 (fun _ => "")
          recognizedSite).last recognizedSite).control
      ∧ some ((@recoverAcceptedIntegration flatHistory titledYaml emptySha256 (fun _ => "")
          recognizedSite).last recognizedSite).handledRemoteHead
        = ((@recoverAcceptedIntegration flatHistory titledYaml emptySha256 (fun _ => "")
          recognizedSite).last recognizedSite).productRemote := by
  have hdelta : text deliveredHead ≠ text deliveredBase := by decide
  have hready := @ready_delivered emptySha256 deliveredBase deliveredHead _ _ _
    (some (text deliveredHead)) (.inr rfl) (@synced_level emptySha256 deliveredBase deliveredHead
      (@deliveredCommit emptySha256 deliveredBase deliveredHead) (List.cons_ne_nil _ _) _) (.inl rfl)
    isCommitName_delivered (.inr hdelta)
  have hdone : @ticketState titledYaml "t1" (recognizedSite.checkout
      (@deliveredCommit emptySha256 deliveredBase deliveredHead)).files = .ok (some .done) :=
    @ticketState_done emptySha256 deliveredBase deliveredHead
  have hpublished : Published recognizedSite
      (@deliveredIntent emptySha256 deliveredBase deliveredHead) :=
    ⟨List.suffix_rfl, _, @isExact_deliveredCommit emptySha256 _ _, List.suffix_rfl⟩
  have hrecovers : @Recovers titledYaml emptySha256 flatHistory recognizedSite
      (@deliveredIntent emptySha256 deliveredBase deliveredHead) :=
    ⟨fun _ => ⟨_, _, hready, hdelta, hdone⟩, fun _ hnot => absurd hpublished hnot⟩
  have hreturns := @recognizes_of_recovers titledYaml emptySha256 recognizedSite _ flatHistory
    (fun _ => "") rfl hrecovers hpublished
  have heffects : @EffectsDone titledYaml emptySha256 flatHistory recognizedSite
      (@deliveredIntent emptySha256 deliveredBase deliveredHead) :=
    ⟨_, _, _, hready, hdone, rfl, beq_self_eq_true _⟩
  exact (@recover_marks_iff titledYaml emptySha256 recognizedSite _ flatHistory (fun _ => "") rfl
    hreturns.1.1).mpr heffects

/-- A site whose integration was killed after the product push. -/
def admittedSite : IntegrationSite :=
  @deliveredSite emptySha256 deliveredBase deliveredHead
    (@acceptedCommit emptySha256 deliveredBase deliveredHead)
    (@acceptedCommit emptySha256 deliveredBase deliveredHead) (some (text deliveredHead))

theorem delivered_delta : text deliveredHead ≠ text deliveredBase := by decide

theorem ready_admitted : @Ready flatHistory emptySha256 admittedSite "t1"
    (@acceptedCommit emptySha256 deliveredBase deliveredHead)
    (@BuiltReport.report emptySha256 (@deliveredReport emptySha256 deliveredBase deliveredHead)) :=
  @ready_delivered emptySha256 deliveredBase deliveredHead _ _ _ (some (text deliveredHead)) (.inl rfl)
    (@synced_level emptySha256 deliveredBase deliveredHead
      (@acceptedCommit emptySha256 deliveredBase deliveredHead) (List.cons_ne_nil _ _) _) (.inl rfl)
    isCommitName_delivered (.inr delivered_delta)

theorem ticketState_admitted : @ticketState titledYaml "t1" (admittedSite.checkout
    (@acceptedCommit emptySha256 deliveredBase deliveredHead)).files = .ok (some .accepted) :=
  @ticketState_accepted emptySha256 deliveredBase deliveredHead

/-- A recovery that makes the integration commit records the control head before that commit. -/
theorem recover_not_marks :
    ¬ ∀ (s : IntegrationSite) (intent : AcceptedIntent), s.pending = some intent →
      (@recoverAcceptedIntegration flatHistory titledYaml emptySha256 (fun _ => "") s).result
        = .ok () →
      ((@recoverAcceptedIntegration flatHistory titledYaml emptySha256 (fun _ => "") s).last
          s).handledControlHead
        = ((@recoverAcceptedIntegration flatHistory titledYaml emptySha256 (fun _ => "") s).last
          s).control := by
  intro h
  have hmarks := h admittedSite (@deliveredIntent emptySha256 deliveredBase deliveredHead) rfl
  obtain ⟨visited, t, -, hsettled, hends⟩ := @recover_ends titledYaml emptySha256 admittedSite
    (@deliveredIntent emptySha256 deliveredBase deliveredHead) _ _ flatHistory (fun _ => "") rfl
    ready_admitted _ rfl
  have hcreates : @Creates titledYaml emptySha256 "t1" _ t :=
    @creates_of_settled titledYaml emptySha256 admittedSite t
      (@deliveredIntent emptySha256 deliveredBase deliveredHead) _ _ flatHistory ready_admitted
      delivered_delta ticketState_admitted hsettled
  have hexact : isExactIntegration "t1" (@acceptedCommit emptySha256 deliveredBase deliveredHead)
      (created "t1" t) = true := by
    unfold created
    rw [@Creates.head titledYaml emptySha256 _ _ _ hcreates, hsettled.same.files]
    exact @isExact_deliveredCommit emptySha256 _ _
  have hforward : t.controlRemote <:+ created "t1" t := by
    rw [hsettled.same.controlRemote]
    unfold created
    rw [@Creates.head titledYaml emptySha256 _ _ _ hcreates]
    exact List.suffix_cons _ _
  have hnotdone : @ticketState titledYaml "t1" t.files ≠ .ok (some .done) := by
    rw [@Creates.accepted titledYaml emptySha256 _ _ _ hcreates]
    nofun
  have hexpected : (if IsZeroDelta (@BuiltReport.report emptySha256
        (@deliveredReport emptySha256 deliveredBase deliveredHead))
      then @acceptedCommit emptySha256 deliveredBase deliveredHead
      else (@deliveredIntent emptySha256 deliveredBase deliveredHead).controlHead)
        = @acceptedCommit emptySha256 deliveredBase deliveredHead := if_neg delivered_delta
  rw [hexpected] at hends
  generalize @recoverAcceptedIntegration flatHistory titledYaml emptySha256 _ _ = run
    at hends hmarks
  cases hends with
  | refused e hnot _ => exact hnot hcreates
  | recognized _ hdone _ => exact hnotdone hdone
  | published _ hdone _ => exact hnotdone hdone
  | unpublished e _ hnot => exact hnot ⟨hexact, hforward⟩
  | made _ _ =>
    have hhead := hmarks rfl
    have hsame : @acceptedCommit emptySha256 deliveredBase deliveredHead = created "t1" t := by
      simpa [Crash.Outcome.last, recordIntegration, integrated, deliveredIntent] using hhead
    unfold created at hsame
    rw [@Creates.head titledYaml emptySha256 _ _ _ hcreates] at hsame
    exact Timeline.cons_append_ne _ [] _ hsame.symm

end Killed

end IntegrationSite

end Wire

end Devlegate
