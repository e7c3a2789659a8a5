import Devlegate.ControlCommits
import Devlegate.TicketEvidence

namespace Devlegate

open JsonText Crash

namespace Wire

/-!
# Publishing a lifecycle

`_apply_execution_lifecycle` brings the lifecycle commit of a report to the control branch of the
remote.  Others push to that branch meanwhile, a push may be refused or its answer lost, and the
process may be killed; the next process starts over from what it finds in the history.

* `ReplaySite`: the control worktree and the control branch on the remote.
* `isExactLifecycle`, `remoteLifecycleCommit`: how a commit is recognised.
* `applyExecutionLifecycle`: the attempts, with what others push between them.
* `commitLifecycle_refines`: the commit on a history is the commit of the control worktree.
* `Once`, `Kept`: how often the report was committed, and what is left of what was checked out.
* `killed_lifecycle_once`: at most once on the remote, and once when an application returns.
* `killed_lifecycle_keeps`: what the control worktree had is not lost.
-/

open ReportStore (StoreError jsonAt artifactAt Accepts FreshNames)

/-! ### The site -/

/-- How an application raises. -/
inductive ReplayError where
  /-- `WorkflowBlockedError`. -/
  | blocked (message : String)
  /-- What `_apply_lifecycle_once` raises. -/
  | lifecycle (e : LifecycleError)
  /-- What reading a committed report raises besides what `_control_report_at` catches. -/
  | unreadable (e : StoreError)
  deriving DecidableEq

/-- The control worktree, with its branch, and that branch on the remote. -/
structure ReplaySite where
  /-- HEAD of the control worktree, and the files in it. -/
  control : ControlCommit
  files : ControlFiles
  remote : ControlCommit

/-- What Git shows of two trees is the same. -/
def sameFiles (before after : ControlFiles) : Bool :=
  (before.paths ++ after.paths).all fun path => before.blob path = after.blob path

namespace ReplaySite

/-- `git status --porcelain` of the control worktree prints nothing. -/
def isClean (s : ReplaySite) : Bool := s.control.head?.any (sameFiles · s.files)

/-- The control worktree at a commit. -/
def checkout (commit : ControlCommit) (s : ReplaySite) : ReplaySite :=
  { s with control := commit, files := commit.headD s.files }

/-- A program of the engine. -/
abbrev Program := Crash.Program ReplaySite ReplayError

end ReplaySite

/-! ### What an attempt meets -/

/-- What a commit of somebody else makes of the tree it is made on. -/
abbrev Edit := ControlFiles → ControlFiles

/-- Commits of somebody else on top of a history. -/
def arrive (edits : List Edit) (remote : ControlCommit) : ControlCommit :=
  edits.foldl (fun
    | [], _ => []
    | tree :: rest, edit => edit tree :: tree :: rest) remote

/-- How a push ends that is not refused because the remote has moved. -/
inductive PushAnswer where
  | accepted
  /-- The remote has taken it, and the answer is lost. -/
  | lost
  | refused
  deriving DecidableEq

/-- What an attempt meets. -/
structure Turn where
  /-- What others push before the fetch, and between the fetch and the push. -/
  before : List Edit
  fetchRefused : Option String
  mergeRefused : Bool
  resetRefused : Bool
  site : ApplySite
  /-- The temporary names that are drawn among the files below `executions`. -/
  names : Files → ReportStore.Names
  during : List Edit
  push : PushAnswer

section Steps

variable (turn : Turn)

/-- `git fetch`: the head of the remote branch. -/
def fetchControl : ReplaySite.Program ControlCommit := do
  .effect fun s => { s with remote := arrive turn.before s.remote }
  match turn.fetchRefused with
  | some message =>
    .raise (.blocked ("cannot freshly observe control remote before lifecycle: " ++ message))
  | none =>
    let s ← .get
    .ensure (s.remote ≠ []) (.blocked "control remote branch is unavailable")
    return s.remote

/-- `git merge --ff-only`. -/
def fastForward (remoteHead : ControlCommit) (message : String) : ReplaySite.Program Unit := do
  let s ← .get
  .ensure (turn.mergeRefused = false ∧ s.control <:+ remoteHead) (.blocked message)
  .effect (·.checkout remoteHead)

/-- `git push`: whether it is reported to have succeeded. -/
def pushControl : ReplaySite.Program Bool := do
  .effect fun s => { s with remote := arrive turn.during s.remote }
  let s ← .get
  if turn.push = .refused ∨ ¬ s.remote <:+ s.control then return false
  else
    .effect fun s => { s with remote := s.control }
    return turn.push = .accepted

end Steps

/-- `ticket.path.rename(review)`, on the files of a tree. -/
def moveFileToReview (ticket : Ticket) (files : ControlFiles) : ControlFiles :=
  { files with
    tickets := (files.tickets.filter fun entry =>
        ¬ (entry.2.name = ticketFile ticket ∧ entry.1 = .todo))
      ++ (WorkflowDirectory.entry (files.tree.workflow.directory .todo)
          (ticketFile ticket)).toList.map fun entry => (.review, entry) }

/-- The files below `executions`. -/
def putReports (reports : Files) (s : ReplaySite) : ReplaySite :=
  { s with files := { s.files with reports := reports } }

/-- A Git command that is not refused. -/
def unlessRefused (refused : Option String) : ReplaySite.Program Unit :=
  match refused with
  | some message => .raise (.lifecycle (.git message))
  | none => pure ()

/-- The rename, if the ticket moves. -/
def moveTicketFile (ticket : Ticket) (moves : Bool) : ReplaySite.Program Unit :=
  if moves then do
    .observe fun s : ReplaySite =>
      if reviewTaken s.files.tree.workflow ticket then
        .error (.lifecycle (.blocked "review ticket already exists"))
      else .ok ()
    .effect fun s => { s with files := moveFileToReview ticket s.files }
  else pure ()

/-! ### The report that is applied -/

section Replay

variable [Sha256]

/-- The arguments of an application: a report, the commit that its control head names, and the body
    of the ticket in the state. -/
structure Replay where
  built : BuiltReport
  ticketId : String
  ticket_id : built.report.ticketId = text ticketId
  admitted : ControlCommit
  selectedBody : String
  applyConclusion : Bool
  /-- Why the checks before the first attempt refuse: the execution binding, the branch of the
      execution, the control worktree. -/
  refused : Option ReplayError := none

namespace Replay

variable (c : Replay)

/-- The report. -/
def report : ExecutionReport := c.built.report

/-- The ticket moves. -/
def moves : Bool := movesTicket c.report c.applyConclusion

/-- `executions/{ticket_id}/{execution_id}.json`. -/
def json : ControlPath := .report (jsonAt c.built)

/-- The long report of the execution. -/
def artifact : ControlPath := .report (artifactAt c.built)

/-! ### Recognition -/

/-- `git show commit:path` of a file below `executions`, with `text=True`; none where it fails. -/
def shown (commit : ControlCommit) (path : ControlPath) : Except ReplayError (Option Text) :=
  match commit.fileAt path with
  | some (.report (.file raw)) =>
    match Utf8.decode raw with
    | some s => .ok (some (translateNewlines s))
    | none => .error (.unreadable .unicode)
  | _ => .ok none

/-- `_control_report_at`: the report that was committed is this one.  A report and its dictionary
    determine each other. -/
def isReportAt (commit : ControlCommit) : Except ReplayError Bool := do
  match ← shown commit c.json with
  | none => return false
  | some s =>
    match parse defaultLimits s with
    | .error .decode => return false
    | .error e => .error (.unreadable (.load e))
    | .ok payload =>
      match ExecutionReport.fromDict payload with
      | .ok recovered => return decide (recovered = c.report)
      | .error (.reportError _) => return false
      | .error .unicodeEncodeError => .error (.unreadable .unicode)

/-- The lines of `diff-tree` that a lifecycle commit has. -/
def expectedStatus (path : ControlPath) : Option NameStatus :=
  if path = c.json then some .added
  else if c.report.reportArtifact.isSome ∧ path = c.artifact then some .added
  else if c.moves ∧ path = ticketAt .todo c.ticketId then some .deleted
  else if c.moves ∧ path = ticketAt .review c.ticketId then some .added
  else none

/-- The commit has these lines and no others. -/
def changesExpected (before after : ControlFiles) : Bool :=
  (before.paths ++ after.paths ++ [c.json, c.artifact, ticketAt .todo c.ticketId,
      ticketAt .review c.ticketId]).all
    fun path => nameStatus (before.blob path) (after.blob path) = c.expectedStatus path

/-- The committed text of the report is the text of this report. -/
def jsonFits (commit : ControlCommit) : Except ReplayError Bool := do
  let shown ← shown commit c.json
  match c.report.toJson defaultLimits with
  | .ok s => return shown = some s
  | .error e => .error (.unreadable (.load e))

/-- The committed long report is the one of this report, if it has one. -/
def artifactFits (commit : ControlCommit) : Except ReplayError Bool := do
  if c.report.reportArtifact.isSome then
    let shown ← shown commit c.artifact
    return shown.isSome ∧ c.report.result.claim.isSome ∧ shown = longReport c.report.result.claim
  else return true

/-- The file of the ticket has moved as it was. -/
def ticketFits (before after : ControlFiles) : Bool :=
  !c.moves || (after.blob (ticketAt .review c.ticketId)).isSome
    && before.blob (ticketAt .todo c.ticketId) = after.blob (ticketAt .review c.ticketId)

/-- `_lifecycle_commit_is_exact`. -/
def isExactLifecycle : ControlCommit → Except ReplayError Bool
  | after :: before :: rest => do
    if ¬ c.admitted <:+ before :: rest then return false
    if !(← c.isReportAt (after :: before :: rest)) then return false
    if !c.changesExpected before after then return false
    if !(← c.jsonFits (after :: before :: rest)) then return false
    if !(← c.artifactFits (after :: before :: rest)) then return false
    return c.ticketFits before after
  | _ => .ok false

/-- The first of the commits that is exact. -/
def firstExact : List ControlCommit → Except ReplayError (Option ControlCommit)
  | [] => .ok none
  | commit :: rest => do
    if ← c.isExactLifecycle commit then return some commit
    firstExact rest

/-- The commits of a history that change the file of the report, newest first. -/
def reportCommits (head : ControlCommit) : List ControlCommit :=
  Timeline.log ControlFiles.blob c.json head

/-- `_remote_lifecycle_commit`. -/
def remoteLifecycleCommit (remoteHead : ControlCommit) :
    Except ReplayError (Option ControlCommit) :=
  c.firstExact (c.reportCommits remoteHead)

/-! ### Proofs -/

/-- The text of the ticket file in `todo`, as `git show` prints it. -/
def todoText (commit : ControlCommit) : Option String :=
  match commit.fileAt (ticketAt .todo c.ticketId) with
  | some (.ticket content) => content
  | _ => none

/-- `_prove_control_descendant`. -/
def proveControlDescendant (candidate : ControlCommit) : Except ReplayError Unit := do
  if ¬ c.admitted <:+ candidate then
    throw (.blocked "control history diverged from the execution admission generation")
  let original := c.todoText c.admitted
  let current := c.todoText candidate
  if original.isNone || current.isNone || original != current then
    throw (.blocked "control descendant changed the active ticket; lifecycle replay refused")
  match original.bind activeTicketBody with
  | none => throw (.blocked "active ticket admission evidence is invalid")
  | some originalBody =>
    if c.selectedBody ≠ originalBody then
      throw (.blocked "persisted active ticket body does not match admission")

/-- `_prove_unpublished_lifecycle_lineage`; in a history without merges a commit is the only one
    after its parent. -/
def proveUnpublishedLifecycleLineage (commit remoteHead : ControlCommit) :
    Except ReplayError Unit :=
  match commit.parent with
  | none => .error (.blocked "unpublished lifecycle parent is unavailable")
  | some parent =>
    if ¬ parent <:+ remoteHead then
      .error (.blocked "unpublished lifecycle parent is not on the fresh remote lineage")
    else match c.isExactLifecycle commit with
      | .ok true => .ok ()
      | .ok false =>
        .error (.blocked "unpublished control commit is not the exact lifecycle mutation")
      | .error e => .error e

end Replay

/-! ### The attempts -/

variable (c : Replay) (turn : Turn)

/-- What is done where the lifecycle commit is on the remote. -/
def followPublished (remoteHead existing : ControlCommit) : ReplaySite.Program ControlCommit := do
  match existing.parent with
  | none => .raise (.blocked "published lifecycle parent is unavailable")
  | some parent =>
    .observe fun _ => c.proveControlDescendant parent
    let s ← .get
    if s.control = remoteHead then return remoteHead
    else
      .ensure (s.control <:+ remoteHead)
        (.blocked "local control history diverges from published lifecycle")
      fastForward turn remoteHead "cannot fast-forward control worktree"
      return remoteHead

/-- The control worktree is brought to the head of the remote branch. -/
def alignControl (remoteHead : ControlCommit) : ReplaySite.Program Unit := do
  let s ← .get
  if s.control = c.admitted then
    .observe fun _ => c.proveControlDescendant remoteHead
    if remoteHead = c.admitted then pure ()
    else fastForward turn remoteHead "cannot fast-forward control descendant"
  else if c.admitted <:+ s.control ∧ s.control <:+ remoteHead then
    .observe fun _ => c.proveControlDescendant remoteHead
    if s.control = remoteHead then pure ()
    else fastForward turn remoteHead "cannot fast-forward control descendant"
  else
    .observe fun _ => c.proveUnpublishedLifecycleLineage s.control remoteHead
    .observe fun _ => c.proveControlDescendant remoteHead
    .ensure (turn.resetRefused = false)
      (.blocked "cannot replay lifecycle on control descendant")
    .effect (·.checkout remoteHead)
    -- the merge after a reset finds nothing to do
    if s.control <:+ remoteHead ∧ s.control ≠ remoteHead then
      fastForward turn remoteHead "cannot fast-forward control descendant"
    else pure ()

section Commit

variable [NanoYaml]

/-- `_apply_lifecycle_once`, where the commit is made on a history. -/
def commitLifecycle : ReplaySite.Program ControlCommit := do
  let store ← .observe fun s : ReplaySite =>
    (turn.site.loadStore s.files.tree.workflow).mapError .lifecycle
  let ticket ← .observe fun _ =>
    (admitted store c.report.ticketId c.moves).mapError ReplayError.lifecycle
  let s ← .get
  let _path ← .zoom (fun s => s.files.reports) putReports (fun e => .lifecycle (.report e))
    (ReportStore.write c.report (turn.names s.files.reports))
  moveTicketFile ticket c.moves
  .observe fun s : ReplaySite => (checkResult s.files.tree.workflow).mapError .lifecycle
  unlessRefused turn.site.addRefused
  unlessRefused turn.site.commitRefused
  .effect fun s => { s with control := s.files :: s.control }
  .observe fun s : ReplaySite =>
    (turn.site.revParse.map fun _ => s.control).mapError fun message => .lifecycle (.git message)

/-- One turn of the loop: the head it returns, or none where it is to be tried again. -/
def attemptLifecycle : ReplaySite.Program (Option ControlCommit) := do
  let s ← .get
  .ensure (s.isClean = true) (.blocked "control working tree is dirty")
  let remoteHead ← fetchControl turn
  match ← .observe fun _ => c.remoteLifecycleCommit remoteHead with
  | some existing => return some (← followPublished c turn remoteHead existing)
  | none =>
    alignControl c turn remoteHead
    let head ← commitLifecycle c turn
    return if ← pushControl turn then some head else none

/-- The loop. -/
def attemptLifecycles : List Turn → ReplaySite.Program ControlCommit
  | [] => .raise (.blocked "control lifecycle reconciliation retry bound exceeded")
  | turn :: turns => do
    match ← attemptLifecycle c turn with
    | some head => return head
    | none => attemptLifecycles turns

/-- `_apply_execution_lifecycle`. -/
def applyExecutionLifecycle (turns : Turn × Turn × Turn) : ReplaySite.Program ControlCommit := do
  match c.refused with
  | some e => .raise e
  | none => attemptLifecycles c [turns.1, turns.2.1, turns.2.2]

end Commit

end Replay

/-! ### The commit and the control worktree -/

section Worktree

variable [NanoYaml] [Sha256]

/-- The control worktree, as Git sees it. -/
def ReplaySite.worktree (s : ReplaySite) : ControlWorktree where
  tree := s.files.tree
  index := s.control.fileAt
  head := s.control.fileAt

/-- The files after the rename, if there is one. -/
def resultingFiles (ticket : Ticket) (moves : Bool) (files : ControlFiles) : ControlFiles :=
  if moves then moveFileToReview ticket files else files

omit [NanoYaml] [Sha256] in
/-- The directories of a tree after the rename. -/
theorem directory_moveFileToReview (ticket : Ticket) (files : ControlFiles) (state : TicketState) :
    (moveFileToReview ticket files).tree.workflow.directory state
      = (moveToReview ticket files.tree.workflow).directory state := by
  have hmoved : (((WorkflowDirectory.entry (files.tree.workflow.directory .todo)
        (ticketFile ticket)).toList.map fun entry => (TicketState.review, entry)).filter
          (·.1 = state)).map (·.2)
      = if state = .review then (WorkflowDirectory.entry (files.tree.workflow.directory .todo)
        (ticketFile ticket)).toList else [] := by
    cases WorkflowDirectory.entry (files.tree.workflow.directory .todo) (ticketFile ticket) <;>
      cases state <;> rfl
  have hdirectory : (moveFileToReview ticket files).tree.workflow.directory state
      = .entries (((files.tickets.filter fun entry =>
            ¬ (entry.2.name = ticketFile ticket ∧ entry.1 = .todo)).filter (·.1 = state)).map (·.2)
          ++ if state = .review then (WorkflowDirectory.entry (files.tree.workflow.directory .todo)
            (ticketFile ticket)).toList else []) := by
    rw [← hmoved, ← List.map_append, ← List.filter_append]
    rfl
  rw [hdirectory, moveToReview_eq]
  by_cases htodo : state = .todo
  · subst htodo
    have hne : ¬ TicketState.todo = .review := by decide
    rw [directory_renameTicket_source rfl, if_neg hne, List.append_nil, List.filter_filter,
      List.filter_map, List.filter_filter]
    congr 2
    refine List.filter_congr fun entry _ => ?_
    rw [Bool.eq_iff_iff]
    simp
    tauto
  · have hkept : (files.tickets.filter fun entry =>
        ¬ (entry.2.name = ticketFile ticket ∧ entry.1 = .todo)).filter (·.1 = state)
          = files.tickets.filter (·.1 = state) := by
      rw [List.filter_filter]
      refine List.filter_congr fun entry _ => ?_
      rw [Bool.eq_iff_iff]
      simp only [Bool.and_eq_true, decide_eq_true_eq]
      exact ⟨fun h => h.1, fun h => ⟨h, fun hgone => htodo (h.symm.trans hgone.2)⟩⟩
    rw [hkept]
    by_cases hreview : state = .review
    · subst hreview
      rw [@directory_renameTicket_target _ _ .todo .review _ (by decide) rfl, if_pos rfl]
    · rw [directory_renameTicket_other htodo hreview, if_neg hreview, List.append_nil]
      rfl

omit [NanoYaml] [Sha256] in
/-- The rename of the ticket file in a tree is the rename in its workflow. -/
theorem tree_resultingFiles (ticket : Ticket) (moves : Bool) (files : ControlFiles) :
    (resultingFiles ticket moves files).tree.workflow
      = resultingWorkflow ticket moves files.tree.workflow := by
  unfold resultingFiles resultingWorkflow
  cases moves with
  | false => rfl
  | true =>
    rw [if_pos rfl, if_pos rfl]
    have hext : ∀ a b : Workflow, a.path = b.path →
        (∀ state, a.directory state = b.directory state) → a = b := by
      rintro ⟨path, directory⟩ ⟨path', directory'⟩ rfl h
      exact congrArg (Workflow.mk path) (funext h)
    exact hext _ _ rfl (directory_moveFileToReview ticket files)

omit [NanoYaml] [Sha256] in
theorem runs_moveTicketFile {ticket : Ticket} {moves : Bool} {s t : ReplaySite} {u : Unit} :
    Runs (moveTicketFile ticket moves) s u t
      ↔ (moves = true → reviewTaken s.files.tree.workflow ticket = false)
        ∧ t = { s with files := resultingFiles ticket moves s.files } := by
  unfold moveTicketFile resultingFiles
  rw [runs_unlessTaken]
  cases moves <;> rfl

omit [NanoYaml] [Sha256] in
theorem runs_unlessRefused {refused : Option String} {s t : ReplaySite} {u : Unit} :
    Runs (unlessRefused refused) s u t ↔ refused = none ∧ s = t := by
  unfold unlessRefused
  cases refused with
  | none => exact runs_pure.trans ⟨fun h => ⟨rfl, h.2⟩, fun h => ⟨rfl, h.2⟩⟩
  | some message => exact iff_of_false runs_raise fun h => Option.some_ne_none _ h.1

/-- When the commit on a history is made, and what it leaves. -/
theorem runs_commitLifecycle {c : Replay} {turn : Turn} {s t : ReplaySite} {head : ControlCommit} :
    Runs (commitLifecycle c turn) s head t ↔ ∃ ticket reports name,
      Commitable turn.site c.report (turn.names s.files.reports) c.moves s.files.tree ticket reports
          name
        ∧ head = resultingFiles ticket c.moves { s.files with reports := reports } :: s.control
        ∧ t = { s with
          control := head
          files := resultingFiles ticket c.moves { s.files with reports := reports } } := by
  unfold commitLifecycle
  have hput : putReports s.files.reports s = s := rfl
  have hok : ∀ {α : Type} {x : Except LifecycleError α} {a : α},
      x.mapError ReplayError.lifecycle = .ok a → x = .ok a := by
    intro α x a h
    cases x with
    | error e => cases h
    | ok b =>
      cases h
      rfl
  constructor
  · intro h
    obtain ⟨store, _, hstore, h⟩ := runs_bind.mp h
    obtain ⟨hloads, rfl⟩ := runs_observe.mp hstore
    obtain ⟨ticket, _, hticket, h⟩ := runs_bind.mp h
    obtain ⟨hadmitted, rfl⟩ := runs_observe.mp hticket
    obtain ⟨_, _, hget, h⟩ := runs_bind.mp h
    obtain ⟨rfl, rfl⟩ := runs_get.mp hget
    obtain ⟨path, _, hwrite, h⟩ := runs_bind.mp h
    obtain ⟨reports, hwritten, rfl⟩ := (runs_zoom hput).mp hwrite
    obtain ⟨_, _, hmove, h⟩ := runs_bind.mp h
    obtain ⟨hfree, rfl⟩ := runs_moveTicketFile.mp hmove
    obtain ⟨_, _, hcheck, h⟩ := runs_bind.mp h
    obtain ⟨hresult, rfl⟩ := runs_observe.mp hcheck
    obtain ⟨_, _, hindex, h⟩ := runs_bind.mp h
    obtain ⟨hadd, rfl⟩ := runs_unlessRefused.mp hindex
    obtain ⟨_, _, hhead, h⟩ := runs_bind.mp h
    obtain ⟨hcommit, rfl⟩ := runs_unlessRefused.mp hhead
    obtain ⟨_, _, hcommitted, h⟩ := runs_bind.mp h
    rw [runs_effect] at hcommitted
    subst hcommitted
    obtain ⟨hparse, rfl⟩ := runs_observe.mp h
    have hchecked := hok hresult
    rw [tree_resultingFiles] at hchecked
    cases hcase : turn.site.revParse with
    | error message =>
      rw [hcase] at hparse
      cases hparse
    | ok name =>
      rw [hcase] at hparse
      cases hparse
      exact ⟨ticket, reports, name, ⟨⟨store, hok hloads, hok hadmitted⟩, ⟨path, hwritten⟩, hfree,
        hchecked, hadd, hcommit, hcase⟩, rfl, rfl⟩
  · rintro ⟨ticket, reports, name, h, rfl, rfl⟩
    obtain ⟨store, hloads, hadmitted⟩ := h.loads
    obtain ⟨path, hwritten⟩ := h.writes
    have hresult := h.result
    rw [show resultingWorkflow ticket c.moves s.files.tree.workflow = _ from
      (tree_resultingFiles ticket c.moves { s.files with reports := reports }).symm] at hresult
    refine runs_bind.mpr ⟨store, _, runs_observe.mpr
      ⟨congrArg (Except.mapError ReplayError.lifecycle) hloads, rfl⟩, ?_⟩
    refine runs_bind.mpr ⟨ticket, _, runs_observe.mpr
      ⟨congrArg (Except.mapError ReplayError.lifecycle) hadmitted, rfl⟩, ?_⟩
    refine runs_bind.mpr ⟨s, _, runs_get.mpr ⟨rfl, rfl⟩, ?_⟩
    refine runs_bind.mpr ⟨path, _, (runs_zoom hput).mpr ⟨reports, hwritten, rfl⟩, ?_⟩
    refine runs_bind.mpr ⟨(), _, runs_moveTicketFile.mpr ⟨h.free, rfl⟩, ?_⟩
    refine runs_bind.mpr ⟨(), _, runs_observe.mpr
      ⟨congrArg (Except.mapError ReplayError.lifecycle) hresult, rfl⟩, ?_⟩
    refine runs_bind.mpr ⟨(), _, runs_unlessRefused.mpr ⟨h.add, rfl⟩, ?_⟩
    refine runs_bind.mpr ⟨(), _, runs_unlessRefused.mpr ⟨h.commit, rfl⟩, ?_⟩
    refine runs_bind.mpr ⟨(), _, runs_effect.mpr rfl, ?_⟩
    refine runs_observe.mpr ⟨?_, rfl⟩
    rw [h.revParse]
    rfl

/-- **The commit on a history is the commit of the control worktree.** -/
theorem commitLifecycle_refines {c : Replay} {turn : Turn} {s : ReplaySite} {w : ControlWorktree} :
    (∃ name, Runs (applyLifecycleOnce turn.site c.report (turn.names s.files.reports)
        c.applyConclusion) s.worktree name w)
      ↔ ∃ t, Runs (commitLifecycle c turn) s t.control t ∧ t.worktree = w := by
  have hsame : ∀ ticket reports, ControlTree.mk
      (resultingWorkflow ticket c.moves s.files.tree.workflow) reports
        = (resultingFiles ticket c.moves { s.files with reports := reports }).tree := by
    intro ticket reports
    rw [show resultingWorkflow ticket c.moves s.files.tree.workflow = _ from
      (tree_resultingFiles ticket c.moves { s.files with reports := reports }).symm]
    unfold resultingFiles
    cases c.moves <;> rfl
  constructor
  · rintro ⟨name, h⟩
    obtain ⟨ticket, reports, hcommitable, rfl⟩ := runs_applyLifecycleOnce.mp h
    let files := resultingFiles ticket c.moves { s.files with reports := reports }
    refine ⟨{ s with control := files :: s.control, files := files },
      runs_commitLifecycle.mpr ⟨ticket, reports, name, hcommitable, rfl, rfl⟩, ?_⟩
    rw [show ControlTree.mk (resultingWorkflow ticket (movesTicket c.report c.applyConclusion)
      s.worktree.tree.workflow) reports = _ from hsame ticket reports]
    rfl
  · rintro ⟨t, h, rfl⟩
    obtain ⟨ticket, reports, name, hcommitable, hhead, ht⟩ := runs_commitLifecycle.mp h
    refine ⟨name, runs_applyLifecycleOnce.mpr ⟨ticket, reports, hcommitable, ?_⟩⟩
    rw [show ControlTree.mk (resultingWorkflow ticket (movesTicket c.report c.applyConclusion)
      s.worktree.tree.workflow) reports = _ from hsame ticket reports, ht, hhead]
    rfl

end Worktree

/-! ### The commits of the report -/

section History

variable [Sha256] {c : Replay} {history : ControlCommit} {files : ControlFiles} {edits : List Edit}

/-- The commits of somebody else leave the file of the report as it is. -/
def Replay.Spares (c : Replay) (edits : List Edit) : Prop :=
  ∀ edit ∈ edits, ∀ files, (edit files).blob c.json = files.blob c.json

/-- The report was not committed on the history, or it was once and is there. -/
inductive Replay.Once (c : Replay) (history : ControlCommit) : Prop where
  | unpublished (none : c.reportCommits history = [])
  | published (one : (c.reportCommits history).length = 1)
      (present : (history.fileAt c.json).isSome)

theorem Replay.Once.length_le (h : c.Once history) : (c.reportCommits history).length ≤ 1 := by
  cases h with
  | unpublished hnone => rw [hnone]; exact Nat.zero_le 1
  | published hone => exact hone.le

theorem Replay.Once.length_eq (h : c.Once history) (hne : c.reportCommits history ≠ []) :
    (c.reportCommits history).length = 1 := by
  cases h with
  | unpublished hnone => exact absurd hnone hne
  | published hone => exact hone

/-- What others push comes on top of the history, and the report is as often committed. -/
theorem arrive_spares (h : c.Spares edits) (history : ControlCommit) :
    history <:+ arrive edits history
      ∧ c.reportCommits (arrive edits history) = c.reportCommits history
      ∧ (arrive edits history).fileAt c.json = history.fileAt c.json := by
  induction edits generalizing history with
  | nil => exact ⟨List.suffix_rfl, rfl, rfl⟩
  | cons edit edits ih =>
    have hrest := ih fun other hother => h other (List.mem_cons_of_mem _ hother)
    cases history with
    | nil => exact hrest []
    | cons tree rest =>
      obtain ⟨hsuffix, hcommits, hfile⟩ := hrest (edit tree :: tree :: rest)
      have hsame : (edit tree).blob c.json = tree.blob c.json := h edit List.mem_cons_self tree
      refine ⟨(List.suffix_cons _ _).trans hsuffix, hcommits.trans ?_, hfile.trans hsame⟩
      exact Timeline.log_cons_of_not fun htouches => htouches hsame

theorem once_arrive (h : c.Once history) (hspares : c.Spares edits) :
    c.Once (arrive edits history) := by
  obtain ⟨-, hcommits, hfile⟩ := arrive_spares hspares history
  cases h with
  | unpublished hnone => exact .unpublished (hcommits.trans hnone)
  | published hone hpresent => exact .published (hcommits ▸ hone) (hfile ▸ hpresent)

/-- The first commit of the report. -/
theorem once_commit (h : c.Once history) (hfree : history.fileAt c.json = none)
    (hfiles : (files.blob c.json).isSome) :
    (c.reportCommits (files :: history)).length = 1 ∧ c.Once (files :: history) := by
  have hnone : c.reportCommits history = [] := by
    cases h with
    | unpublished hnone => exact hnone
    | published hone hpresent =>
      rw [hfree] at hpresent
      cases hpresent
  have htouches : ControlCommit.Touches (files :: history) c.json := by
    intro heq
    have hafter : (ControlCommit.fileAt (files :: history) c.json).isSome := hfiles
    rw [show ControlCommit.fileAt (files :: history) c.json = history.fileAt c.json from heq, hfree]
      at hafter
    cases hafter
  have hone : (c.reportCommits (files :: history)).length = 1 := by
    show (Timeline.log ControlFiles.blob c.json (files :: history)).length = 1
    rw [Timeline.log_cons_of_touches htouches, List.length_cons]
    exact congrArg (· + 1) (congrArg List.length hnone)
  exact ⟨hone, .published hone hfiles⟩

theorem mem_of_firstExact {commits : List ControlCommit} {commit : ControlCommit}
    (h : c.firstExact commits = .ok (some commit)) : commit ∈ commits := by
  induction commits with
  | nil => cases h
  | cons first rest ih =>
    unfold Replay.firstExact at h
    cases hexact : c.isExactLifecycle first with
    | error e =>
      rw [hexact] at h
      cases h
    | ok exact =>
      rw [hexact] at h
      cases exact with
      | true =>
        cases h
        exact List.mem_cons_self
      | false => exact List.mem_cons_of_mem _ (ih h)

end History

/-! ### What an application keeps -/

section Kept

variable [Sha256] {c : Replay} {s t u : ReplaySite}

/-- The remote only moves forward, and what the control worktree had is still there, or on the
    remote; or it was the exact lifecycle commit on top of what is on the remote. -/
structure Replay.Kept (c : Replay) (s t : ReplaySite) : Prop where
  remote : s.remote <:+ t.remote
  control : s.control <:+ t.control ∨ s.control <:+ t.remote
    ∨ c.isExactLifecycle s.control = .ok true ∧ s.control.tail <:+ t.remote

theorem Replay.Kept.refl (s : ReplaySite) : c.Kept s s := ⟨List.suffix_rfl, .inl List.suffix_rfl⟩

theorem Replay.Kept.trans (h : c.Kept s t) (h' : c.Kept t u) : c.Kept s u := by
  refine ⟨h.remote.trans h'.remote, ?_⟩
  rcases h.control with hhere | hremote | ⟨hexact, htail⟩
  · rcases h'.control with hhere' | hremote' | ⟨hexact', htail'⟩
    · exact .inl (hhere.trans hhere')
    · exact .inr (.inl (hhere.trans hremote'))
    · cases hcontrol : t.control with
      | nil =>
        rw [hcontrol] at hhere
        rw [List.suffix_nil.mp hhere]
        exact .inl (List.nil_suffix)
      | cons files rest =>
        rw [hcontrol] at hhere hexact' htail'
        rcases List.suffix_cons_iff.mp hhere with heq | hbefore
        · rw [heq]
          exact .inr (.inr ⟨hexact', htail'⟩)
        · exact .inr (.inl (hbefore.trans htail'))
  · exact .inr (.inl (hremote.trans h'.remote))
  · exact .inr (.inr ⟨hexact, htail.trans h'.remote⟩)

end Kept

/-! ### Clean worktrees -/

section Worktree

variable {files before after : ControlFiles} {path : ControlPath} {s : ReplaySite}

theorem blob_of_not_mem_paths (h : path ∉ files.paths) : files.blob path = none := by
  cases path with
  | ticket state name =>
    show Option.map _ (((files.tickets.filter (·.1 = state)).map (·.2)).find?
      (·.name = name)) = none
    rw [Option.map_eq_none_iff, List.find?_eq_none]
    intro entry hentry hname
    obtain ⟨pair, hpair, rfl⟩ := List.mem_map.mp hentry
    obtain ⟨hmem, hstate⟩ := List.mem_filter.mp hpair
    refine h (List.mem_append_left _ (List.mem_map.mpr ⟨pair, hmem, ?_⟩))
    rw [of_decide_eq_true hstate, of_decide_eq_true hname]
  | report location =>
    have hnone : files.reports.lookup location = none :=
      AList.lookup_eq_none.mpr fun hmem =>
        h (List.mem_append_right _ (List.mem_map.mpr ⟨location, hmem, rfl⟩))
    show Option.map _ (ReportStore.visible files.reports location) = none
    unfold ReportStore.visible
    rw [hnone]
    rfl

theorem blob_eq_of_sameFiles (h : sameFiles before after = true) (path : ControlPath) :
    before.blob path = after.blob path := by
  by_cases hmem : path ∈ before.paths ++ after.paths
  · exact of_decide_eq_true (List.all_eq_true.mp h path hmem)
  · rw [List.mem_append, not_or] at hmem
    rw [blob_of_not_mem_paths hmem.1, blob_of_not_mem_paths hmem.2]

/-- A clean worktree has what was committed. -/
theorem fileAt_of_isClean (h : s.isClean = true) (path : ControlPath) :
    s.control.fileAt path = s.files.blob path := by
  unfold ReplaySite.isClean at h
  cases hcontrol : s.control with
  | nil =>
    rw [hcontrol] at h
    cases h
  | cons tree rest =>
    rw [hcontrol] at h
    exact blob_eq_of_sameFiles h path

theorem fileAt_checkout {commit : ControlCommit} (hne : commit ≠ []) (path : ControlPath) :
    commit.fileAt path = (s.checkout commit).files.blob path := by
  cases commit with
  | nil => exact absurd rfl hne
  | cons tree rest => rfl

end Worktree

/-! ### The programs -/

section Programs

variable [Sha256] {c : Replay} {turn : Turn} {s₀ s t : ReplaySite} {R : ControlCommit}

/-- The control worktree is at the head of the remote branch. -/
structure Aligned (c : Replay) (s₀ : ReplaySite) (R : ControlCommit) (t : ReplaySite) : Prop where
  kept : c.Kept s₀ t
  remote : t.remote = R
  control : t.control = R
  json : R.fileAt c.json = t.files.blob c.json

theorem sat_fastForward {message : String} (hs : s.remote = R) :
    Sat (fun t => c.Kept s t ∧ t.remote = R) (fastForward turn R message)
      (fun _ t => t = s.checkout R ∧ c.Kept s t) (fun _ t => t = s) s := by
  refine .bind (.get (.bind (.ensure (fun h => ?_) fun _ => rfl)))
  have hkept : c.Kept s (s.checkout R) := by
    refine ⟨List.suffix_rfl, .inr (.inl ?_)⟩
    show s.control <:+ s.remote
    rw [hs]
    exact h.2
  exact .effect ⟨hkept, hs⟩ ⟨rfl, hkept⟩

/-- What an unpublished commit is proved to be. -/
theorem proveUnpublished_eq_ok {commit : ControlCommit} {u : Unit}
    (h : c.proveUnpublishedLifecycleLineage commit R = .ok u) :
    c.isExactLifecycle commit = .ok true ∧ commit.tail <:+ R := by
  unfold Replay.proveUnpublishedLifecycleLineage at h
  cases hparent : commit.parent with
  | none =>
    rw [hparent] at h
    cases h
  | some parent =>
    rw [hparent] at h
    obtain ⟨-, tree, rfl⟩ := Timeline.parent_eq_some.mp hparent
    simp only at h
    by_cases hsuffix : parent <:+ R
    · rw [if_neg (not_not.mpr hsuffix)] at h
      cases hexact : c.isExactLifecycle (tree :: parent) with
      | error e =>
        rw [hexact] at h
        cases h
      | ok exact =>
        rw [hexact] at h
        cases exact with
        | true => exact ⟨rfl, hsuffix⟩
        | false => cases h
    · rw [if_pos hsuffix] at h
      cases h

/-- The control worktree is brought to the head of the remote branch, or the attempt ends there. -/
theorem sat_alignControl (hkept : c.Kept s₀ s) (hs : s.remote = R) (hne : R ≠ [])
    (hclean : s.isClean = true) :
    Sat (fun t => c.Kept s₀ t ∧ t.remote = R) (alignControl c turn R)
      (fun _ t => Aligned c s₀ R t) (fun _ t => c.Kept s₀ t ∧ t.remote = R) s := by
  have hstay : s.control = R → Aligned c s₀ R s :=
    fun h => ⟨hkept, hs, h, h ▸ fileAt_of_isClean hclean c.json⟩
  have hcheckout : ∀ t, c.Kept s₀ t → t.remote = R → t.control = R →
      (∃ u : ReplaySite, t = u.checkout R) → Aligned c s₀ R t := by
    rintro t hkept hremote hcontrol ⟨u, rfl⟩
    exact ⟨hkept, hremote, hcontrol, fileAt_checkout hne c.json⟩
  have hforward : ∀ (v : ReplaySite) message, c.Kept s₀ v → v.remote = R →
      Sat (fun t => c.Kept s₀ t ∧ t.remote = R) (fastForward turn R message)
        (fun _ t => Aligned c s₀ R t) (fun _ t => c.Kept s₀ t ∧ t.remote = R) v := by
    intro v message hv hremote
    refine (sat_fastForward (c := c) hremote).mono (fun t h => ⟨hv.trans h.1, h.2⟩) ?_ ?_
    · rintro _ t ⟨rfl, hstep⟩
      exact hcheckout _ (hv.trans hstep) hremote rfl ⟨v, rfl⟩
    · rintro _ t rfl
      exact ⟨hv, hremote⟩
  unfold alignControl
  refine .bind (.get ?_)
  by_cases hadmitted : s.control = c.admitted
  · rw [if_pos hadmitted]
    cases hproof : c.proveControlDescendant R with
    | error e => exact .bind (.refused (e := e) rfl ⟨hkept, hs⟩)
    | ok u =>
      refine .bind (.observe (a := u) rfl ?_)
      by_cases hsame : R = c.admitted
      · rw [if_pos hsame]
        exact .pure (hstay (hadmitted.trans hsame.symm))
      · rw [if_neg hsame]
        exact hforward s _ hkept hs
  · rw [if_neg hadmitted]
    by_cases hbehind : c.admitted <:+ s.control ∧ s.control <:+ R
    · rw [if_pos hbehind]
      cases hproof : c.proveControlDescendant R with
      | error e => exact .bind (.refused (e := e) rfl ⟨hkept, hs⟩)
      | ok u =>
        refine .bind (.observe (a := u) rfl ?_)
        by_cases hsame : s.control = R
        · rw [if_pos hsame]
          exact .pure (hstay hsame)
        · rw [if_neg hsame]
          exact hforward s _ hkept hs
    · -- what the reset discards is the exact commit, on top of what is on the remote
      rw [if_neg hbehind]
      cases hlineage : c.proveUnpublishedLifecycleLineage s.control R with
      | error e => exact .bind (.refused (e := e) rfl ⟨hkept, hs⟩)
      | ok u =>
        refine .bind (.observe (a := u) rfl ?_)
        cases hproof : c.proveControlDescendant R with
        | error e => exact .bind (.refused (e := e) rfl ⟨hkept, hs⟩)
        | ok u =>
          refine .bind (.observe (a := u) rfl (.bind (.ensure (fun _ => ?_) fun _ => ⟨hkept, hs⟩)))
          obtain ⟨hexact, htail⟩ := proveUnpublished_eq_ok hlineage
          have hreset : c.Kept s₀ (s.checkout R) := by
            refine hkept.trans ⟨List.suffix_rfl, .inr (.inr ⟨hexact, ?_⟩)⟩
            show s.control.tail <:+ s.remote
            rw [hs]
            exact htail
          refine .bind (.effect ⟨hreset, hs⟩ ?_)
          split
          · exact hforward _ _ hreset hs
          · exact .pure (hcheckout _ hreset hs rfl ⟨s, rfl⟩)

/-- A report that can be written is not there. -/
theorem blob_json_of_accepts {files : ControlFiles} (h : Accepts c.built files.reports) :
    files.blob c.json = none := by
  show Option.map _ (ReportStore.visible files.reports (jsonAt c.built)) = none
  unfold ReportStore.visible
  rw [h.json]
  rfl

/-- The report is there behind the write. -/
theorem visible_jsonAt {reports reports' : Files} {raw : List UInt8}
    (h : ReportStore.SameVisible
      ((ReportStore.withArtifact c.built reports).insert (jsonAt c.built) (.file raw)) reports') :
    ReportStore.visible reports' (jsonAt c.built) = some (.file raw) := by
  rw [congrFun h (jsonAt c.built)]
  unfold ReportStore.visible
  rw [AList.lookup_insert]
  rfl

omit [Sha256] in
/-- The rename leaves the files with the ticket in `review`, or it is refused. -/
theorem sat_moveTicketFile {I : ReplaySite → Prop} {ticket : Ticket} {moves : Bool}
    (hfiles : ∀ files, I { s with files := files }) :
    Sat I (moveTicketFile ticket moves)
      (fun _ t => t = { s with files := resultingFiles ticket moves s.files }) (fun _ t => I t)
      s := by
  unfold moveTicketFile resultingFiles
  cases moves with
  | false => exact .pure rfl
  | true =>
    cases htaken : reviewTaken s.files.tree.workflow ticket with
    | true =>
      exact .bind (.refused (e := .lifecycle (.blocked "review ticket already exists"))
        (if_pos htaken) (hfiles s.files))
    | false =>
      have hopen : ¬ reviewTaken s.files.tree.workflow ticket = true := by
        rw [htaken]
        exact Bool.false_ne_true
      exact .bind (.observe (a := ()) (if_neg hopen) (.effect (hfiles _) rfl))

/-- The commit of the lifecycle. -/
theorem sat_commitLifecycle [NanoYaml] (h : Aligned c s₀ R s)
    (hfresh : FreshNames c.built (turn.names s.files.reports) s.files.reports) :
    Sat (fun t => c.Kept s₀ t ∧ t.remote = R) (commitLifecycle c turn)
      (fun head t => c.Kept s₀ t ∧ t.remote = R ∧ head = t.control ∧ R.fileAt c.json = none
        ∧ ∃ files, t.control = files :: R ∧ (files.blob c.json).isSome)
      (fun _ t => c.Kept s₀ t ∧ t.remote = R) s := by
  unfold commitLifecycle
  cases hstore : turn.site.loadStore s.files.tree.workflow with
  | error e =>
    exact .bind (.refused (congrArg (Except.mapError ReplayError.lifecycle) hstore)
      ⟨h.kept, h.remote⟩)
  | ok store =>
  refine .bind (.observe (congrArg (Except.mapError ReplayError.lifecycle) hstore) ?_)
  cases hticket : admitted store c.report.ticketId c.moves with
  | error e => exact .bind (.refused (e := .lifecycle e) rfl ⟨h.kept, h.remote⟩)
  | ok ticket =>
  refine .bind (.observe (a := ticket) rfl (.bind (.get ?_)))
  have hput : ∀ files, c.Kept s₀ { s with files := files }
      ∧ ({ s with files := files } : ReplaySite).remote = R :=
    fun _ => ⟨⟨h.kept.remote, h.kept.control⟩, h.remote⟩
  refine .bind (.zoom rfl ((ReportStore.sat_write_cases hfresh).mono (fun _ _ => hput _)
    ?_ fun _ _ _ => hput _))
  rintro path reports ⟨haccepts, raw, -, hshown⟩
  have hfree : R.fileAt c.json = none := h.json.trans (blob_json_of_accepts haccepts)
  have hwritten := visible_jsonAt hshown
  have hmove : Sat (fun t => c.Kept s₀ t ∧ t.remote = R) (moveTicketFile ticket c.moves)
      (fun _ t => t = { s with
        files := resultingFiles ticket c.moves { s.files with reports := reports } })
      (fun _ t => c.Kept s₀ t ∧ t.remote = R) (putReports reports s) :=
    sat_moveTicketFile fun _ => hput _
  refine .bind (hmove.mono (fun _ h => h) ?_ fun _ _ h => h)
  rintro _ t rfl
  have hreports : (resultingFiles ticket c.moves { s.files with reports := reports }).reports
      = reports := by
    unfold resultingFiles
    cases c.moves <;> rfl
  generalize resultingFiles ticket c.moves { s.files with reports := reports } = after at hreports
  have hway := hput after
  cases hresult : checkResult after.tree.workflow with
  | error e =>
    exact .bind (.refused (congrArg (Except.mapError ReplayError.lifecycle) hresult) hway)
  | ok u =>
  refine .bind (.observe (congrArg (Except.mapError ReplayError.lifecycle) hresult) ?_)
  cases hadd : turn.site.addRefused with
  | some message => exact .bind (.raise hway)
  | none =>
  refine .bind (.pure ?_)
  cases hcommit : turn.site.commitRefused with
  | some message => exact .bind (.raise hway)
  | none =>
  refine .bind (.pure ?_)
  have hmade : c.Kept s₀ { s with control := after :: s.control, files := after } :=
    hway.1.trans ⟨List.suffix_rfl, .inl (List.suffix_cons _ _)⟩
  refine .bind (.effect ⟨hmade, hway.2⟩ ?_)
  cases hparse : turn.site.revParse with
  | error message =>
    exact .refused (e := .lifecycle (.git message)) rfl ⟨hmade, hway.2⟩
  | ok name =>
    refine .observe (a := after :: s.control) rfl
      ⟨hmade, hway.2, rfl, hfree, after, congrArg (after :: ·) h.control, ?_⟩
    show (Option.map _ (ReportStore.visible after.reports (jsonAt c.built))).isSome = true
    rw [hreports, hwritten]
    rfl

/-- The push of the lifecycle commit, while others push. -/
theorem sat_pushControl {files : ControlFiles} (hkept : c.Kept s₀ s) (hremote : s.remote = R)
    (hcontrol : s.control = files :: R) (hfree : R.fileAt c.json = none)
    (hfiles : (files.blob c.json).isSome) (honce : c.Once R) (hspares : c.Spares turn.during) :
    Sat (fun t => c.Kept s₀ t ∧ c.Once t.remote) (pushControl turn)
      (fun done t => (c.Kept s₀ t ∧ c.Once t.remote) ∧ (done = true → t.remote = s.control
        ∧ t.control = s.control ∧ (c.reportCommits t.remote).length = 1))
      (fun _ _ => False) s := by
  obtain ⟨hsuffix, -, -⟩ := arrive_spares hspares s.remote
  have harrived : c.Kept s₀ { s with remote := arrive turn.during s.remote }
      ∧ c.Once (arrive turn.during s.remote) :=
    ⟨hkept.trans ⟨hsuffix, .inl List.suffix_rfl⟩, once_arrive (hremote ▸ honce) hspares⟩
  unfold pushControl
  refine .bind (.effect harrived (.bind (.get ?_)))
  by_cases hrefused : turn.push = .refused ∨ ¬ arrive turn.during s.remote <:+ s.control
  · rw [if_pos hrefused]
    refine .pure ⟨harrived, fun h => ?_⟩
    cases h
  · rw [if_neg hrefused]
    rw [not_or, not_not] at hrefused
    obtain ⟨hone, honce'⟩ := once_commit honce hfree hfiles
    have hpushed : c.Kept s₀ { s with remote := s.control } ∧ c.Once s.control :=
      ⟨hkept.trans ⟨hsuffix.trans hrefused.2, .inl List.suffix_rfl⟩, hcontrol ▸ honce'⟩
    exact .bind (.effect hpushed (.pure ⟨hpushed, fun _ => ⟨rfl, rfl, hcontrol ▸ hone⟩⟩))

/-- Others leave the report alone, and the temporary names are free. -/
structure Fair (c : Replay) (turn : Turn) : Prop where
  before : c.Spares turn.before
  during : c.Spares turn.during
  names : ∀ reports, FreshNames c.built (turn.names reports) reports

/-- The state after an application that has returned the head: the report was committed once. -/
structure Delivered (c : Replay) (head : ControlCommit) (t : ReplaySite) : Prop where
  control : t.control = head
  remote : t.remote = head
  one : (c.reportCommits head).length = 1

theorem sat_fetchControl (hfair : Fair c turn) (hkept : c.Kept s₀ s) (honce : c.Once s.remote) :
    Sat (fun t => c.Kept s₀ t ∧ c.Once t.remote) (fetchControl turn)
      (fun head t => c.Kept s₀ t ∧ c.Once head ∧ t = { s with remote := head } ∧ head ≠ [])
      (fun _ t => c.Kept s₀ t ∧ c.Once t.remote) s := by
  obtain ⟨hsuffix, -, -⟩ := arrive_spares hfair.before s.remote
  have harrived := once_arrive honce hfair.before
  have hfetched : c.Kept s₀ { s with remote := arrive turn.before s.remote } :=
    hkept.trans ⟨hsuffix, .inl List.suffix_rfl⟩
  unfold fetchControl
  refine .bind (.effect ⟨hfetched, harrived⟩ ?_)
  cases turn.fetchRefused with
  | some message => exact .raise ⟨hfetched, harrived⟩
  | none =>
    exact .bind (.get (.bind (.ensure (fun hne => .pure ⟨hfetched, harrived, rfl, hne⟩)
      fun _ => ⟨hfetched, harrived⟩)))

/-- The worktree follows the published commit, or the application ends there. -/
theorem sat_followPublished {existing : ControlCommit} (hkept : c.Kept s₀ s) (hs : s.remote = R) :
    Sat (fun t => c.Kept s₀ t ∧ t.remote = R) (followPublished c turn R existing)
      (fun head t => (c.Kept s₀ t ∧ t.remote = R) ∧ head = R ∧ t.control = R)
      (fun _ t => c.Kept s₀ t ∧ t.remote = R) s := by
  unfold followPublished
  cases existing.parent with
  | none => exact .raise ⟨hkept, hs⟩
  | some parent =>
  cases hproof : c.proveControlDescendant parent with
  | error e => exact .bind (.refused hproof ⟨hkept, hs⟩)
  | ok u =>
  refine .bind (.observe hproof (.bind (.get ?_)))
  by_cases hsame : s.control = R
  · rw [if_pos hsame]
    exact .pure ⟨⟨hkept, hs⟩, rfl, hsame⟩
  · rw [if_neg hsame]
    refine .bind (.ensure (fun _ => .bind ?_) fun _ => ⟨hkept, hs⟩)
    refine (sat_fastForward (c := c) hs).mono (fun t h => ⟨hkept.trans h.1, h.2⟩) ?_ ?_
    · rintro _ t ⟨rfl, hstep⟩
      exact .pure ⟨⟨hkept.trans hstep, hs⟩, rfl, rfl⟩
    · rintro _ t rfl
      exact ⟨hkept, hs⟩

/-- **One attempt.** Whatever it meets, the report is committed once on the remote at most, and once
    when the attempt returns a head. -/
theorem sat_attemptLifecycle [NanoYaml] (hfair : Fair c turn) (hkept : c.Kept s₀ s)
    (honce : c.Once s.remote) :
    Sat (fun t => c.Kept s₀ t ∧ c.Once t.remote) (attemptLifecycle c turn)
      (fun found t => (c.Kept s₀ t ∧ c.Once t.remote) ∧ ∀ head ∈ found, Delivered c head t)
      (fun _ t => c.Kept s₀ t ∧ c.Once t.remote) s := by
  unfold attemptLifecycle
  refine .bind (.get (.bind (.ensure (fun hclean => ?_) fun _ => ⟨hkept, honce⟩)))
  refine .bind ((sat_fetchControl hfair hkept honce).mono (fun _ h => h) ?_ fun _ _ h => h)
  rintro R _ ⟨hfetched, honceR, rfl, hne⟩
  have hway : ∀ t, c.Kept s₀ t ∧ t.remote = R → c.Kept s₀ t ∧ c.Once t.remote :=
    fun t h => ⟨h.1, h.2 ▸ honceR⟩
  cases hfound : c.remoteLifecycleCommit R with
  | error e => exact .bind (.refused (e := e) rfl (hway _ ⟨hfetched, rfl⟩))
  | ok existing =>
  refine .bind (.observe (a := existing) rfl ?_)
  cases existing with
  | some existing =>
    -- the commit is on the remote, so nothing is pushed
    have hne' : c.reportCommits R ≠ [] := List.ne_nil_of_mem (mem_of_firstExact hfound)
    refine .bind ((sat_followPublished hfetched rfl).mono hway ?_ fun _ => hway)
    rintro _ t ⟨ht, rfl, hcontrol⟩
    refine .pure ⟨hway _ ht, fun head hhead => ?_⟩
    cases hhead
    exact ⟨hcontrol, ht.2, honceR.length_eq hne'⟩
  | none =>
    refine .bind ((sat_alignControl hfetched rfl hne hclean).mono hway ?_ fun _ => hway)
    rintro _ t haligned
    refine .bind ((sat_commitLifecycle haligned (hfair.names _)).mono hway ?_ fun _ => hway)
    rintro _ u ⟨hu, hremote, rfl, hfree, files, hcontrol, hfiles⟩
    refine .bind ((sat_pushControl hu hremote hcontrol hfree hfiles honceR hfair.during).mono
      (fun _ h => h) ?_ fun _ _ h => h.elim)
    rintro done v ⟨hv, hdone⟩
    refine .pure ⟨hv, fun head hhead => ?_⟩
    cases done with
    | false => cases hhead
    | true =>
      cases hhead
      obtain ⟨hremote', hcontrol', hone⟩ := hdone rfl
      exact ⟨hcontrol', hremote', hremote' ▸ hone⟩

/-- The attempts, one after the other. -/
theorem sat_attemptLifecycles [NanoYaml] {turns : List Turn} (hfair : ∀ turn ∈ turns, Fair c turn)
    (hkept : c.Kept s₀ s) (honce : c.Once s.remote) :
    Sat (fun t => c.Kept s₀ t ∧ c.Once t.remote) (attemptLifecycles c turns)
      (fun head t => (c.Kept s₀ t ∧ c.Once t.remote) ∧ Delivered c head t)
      (fun _ t => c.Kept s₀ t ∧ c.Once t.remote) s := by
  induction turns generalizing s with
  | nil => exact .raise ⟨hkept, honce⟩
  | cons turn turns ih =>
    refine .bind ((sat_attemptLifecycle (hfair turn List.mem_cons_self) hkept honce).mono
      (fun _ h => h) ?_ fun _ _ h => h)
    rintro found t ⟨ht, hfound⟩
    cases found with
    | some head => exact .pure ⟨ht, hfound head rfl⟩
    | none => exact ih (fun other h => hfair other (List.mem_cons_of_mem _ h)) ht.1 ht.2

end Programs

/-! ### Applications that are killed -/

section Runs

variable [Sha256] [NanoYaml] {c : Replay} {s t u : ReplaySite}

/-- The turns of an application are fair. -/
def FairTurns (c : Replay) (turns : Turn × Turn × Turn) : Prop :=
  Fair c turns.1 ∧ Fair c turns.2.1 ∧ Fair c turns.2.2

/-- **One application.** -/
theorem sat_applyExecutionLifecycle {turns : Turn × Turn × Turn} (hfair : FairTurns c turns)
    (hkept : c.Kept s t) (honce : c.Once t.remote) :
    Sat (fun u => c.Kept s u ∧ c.Once u.remote) (applyExecutionLifecycle c turns)
      (fun head u => (c.Kept s u ∧ c.Once u.remote) ∧ Delivered c head u)
      (fun _ u => c.Kept s u ∧ c.Once u.remote) t := by
  unfold applyExecutionLifecycle
  cases c.refused with
  | some e => exact .raise ⟨hkept, honce⟩
  | none =>
    refine sat_attemptLifecycles (fun turn hturn => ?_) hkept honce
    simp only [List.mem_cons, List.not_mem_nil, or_false] at hturn
    rcases hturn with rfl | rfl | rfl
    · exact hfair.1
    · exact hfair.2.1
    · exact hfair.2.2

/-- What any number of applications leave, each killed at any point, while others push. -/
abbrev Killed (c : Replay) : ReplaySite → ReplaySite → Prop :=
  Interrupted (fun _ turns => FairTurns c turns) (applyExecutionLifecycle c)

theorem killed_kept (honce : c.Once s.remote) (h : Killed c s t) :
    c.Kept s t ∧ c.Once t.remote :=
  h.invariant ⟨.refl s, honce⟩ fun _ _ hu hfair _ hv =>
    (sat_applyExecutionLifecycle hfair hu.1 hu.2).1 _ hv

/-- **The report is committed once.** From a remote on which it was not committed, after any number
    of applications, each killed at any point, with fetches and pushes that fail, answers that are
    lost and others who push in between: at most one commit of the remote adds or changes the
    report; and an application that returns leaves exactly one, below the head that it returns. -/
theorem killed_lifecycle_once (hnone : c.reportCommits s.remote = []) (h : Killed c s t) :
    (c.reportCommits t.remote).length ≤ 1
      ∧ ∀ turns, FairTurns c turns → ∀ head u, Runs (applyExecutionLifecycle c turns) t head u →
        u.control = head ∧ u.remote = head ∧ (c.reportCommits u.remote).length = 1 := by
  obtain ⟨hkept, honce⟩ := killed_kept (.unpublished hnone) h
  refine ⟨honce.length_le, fun turns hfair head u hruns => ?_⟩
  obtain ⟨-, hdelivered⟩ := (sat_applyExecutionLifecycle hfair hkept honce).of_runs hruns
  exact ⟨hdelivered.control, hdelivered.remote, hdelivered.remote ▸ hdelivered.one⟩

/-- **Nothing is lost.** However often the application is killed, the remote only moves forward, and
    the commit that was checked out is an ancestor of what is checked out now, or of the remote, or
    it was the exact lifecycle commit of the report on top of a commit of the remote. -/
theorem killed_lifecycle_keeps (hnone : c.reportCommits s.remote = []) (h : Killed c s t) :
    s.remote <:+ t.remote ∧ (s.control <:+ t.control ∨ s.control <:+ t.remote
      ∨ c.isExactLifecycle s.control = .ok true ∧ s.control.tail <:+ t.remote) := by
  obtain ⟨hkept, -⟩ := killed_kept (.unpublished hnone) h
  exact ⟨hkept.remote, hkept.control⟩

end Runs

/-! ### How far an application gets -/

section Reached

variable [Sha256] {c : Replay} {turn : Turn} {s u : ReplaySite} {R : ControlCommit}

omit [Sha256] in
theorem runs_fetchControl (hfetch : turn.fetchRefused = none)
    (hne : arrive turn.before s.remote ≠ []) :
    Runs (fetchControl turn) s (arrive turn.before s.remote)
      { s with remote := arrive turn.before s.remote } := by
  unfold fetchControl
  refine runs_bind.mpr ⟨(), _, runs_effect.mpr rfl, ?_⟩
  rw [hfetch]
  refine runs_bind.mpr ⟨_, _, runs_get.mpr ⟨rfl, rfl⟩, ?_⟩
  exact runs_bind.mpr ⟨(), _, runs_ensure.mpr ⟨hne, rfl⟩, runs_pure.mpr ⟨rfl, rfl⟩⟩

theorem admitted_of_descendant (h : c.proveControlDescendant R = .ok ()) : c.admitted <:+ R := by
  by_contra hnot
  unfold Replay.proveControlDescendant at h
  rw [if_pos hnot] at h
  cases h

/-- From the admission the control worktree goes to the fetched head. -/
theorem runs_alignControl_admitted (hcontrol : s.control = c.admitted)
    (hproved : c.proveControlDescendant R = .ok ()) (hmerge : turn.mergeRefused = false) :
    Runs (alignControl c turn R) s () (if R = c.admitted then s else s.checkout R) := by
  unfold alignControl
  refine runs_bind.mpr ⟨s, s, runs_get.mpr ⟨rfl, rfl⟩, ?_⟩
  rw [if_pos hcontrol]
  refine runs_bind.mpr ⟨(), s, runs_observe.mpr ⟨hproved, rfl⟩, ?_⟩
  split
  · exact runs_pure.mpr ⟨rfl, rfl⟩
  · unfold fastForward
    refine runs_bind.mpr ⟨s, s, runs_get.mpr ⟨rfl, rfl⟩, ?_⟩
    have hbehind : s.control <:+ R := hcontrol ▸ admitted_of_descendant hproved
    exact runs_bind.mpr ⟨(), s, runs_ensure.mpr ⟨⟨hmerge, hbehind⟩, rfl⟩, runs_effect.mpr rfl⟩

omit [Sha256] in
/-- The remote has what was pushed. -/
theorem visited_pushControl (hpush : turn.push ≠ .refused)
    (hsuffix : arrive turn.during s.remote <:+ s.control) :
    { s with remote := s.control } ∈ (pushControl turn s).visited := by
  unfold pushControl
  refine visited_bind_runs (a := ()) (runs_effect.mpr rfl) ?_
  refine visited_bind_runs (runs_get.mpr ⟨rfl, rfl⟩) ?_
  rw [if_neg (not_or_intro hpush (not_not_intro hsuffix))]
  exact visited_bind (List.mem_singleton.mpr rfl)

/-- An application whose first attempt commits comes through the states of its push. -/
theorem visited_applyExecutionLifecycle [NanoYaml] {turns : Turn × Turn × Turn}
    {fetched landed made : ReplaySite} {head : ControlCommit} (hrefused : c.refused = none)
    (hclean : s.isClean = true) (hfetch : Runs (fetchControl turns.1) s R fetched)
    (hnew : c.remoteLifecycleCommit R = .ok none)
    (halign : Runs (alignControl c turns.1 R) fetched () landed)
    (hcommit : Runs (commitLifecycle c turns.1) landed head made)
    (hu : u ∈ (pushControl turns.1 made).visited) :
    u ∈ (applyExecutionLifecycle c turns s).visited := by
  unfold applyExecutionLifecycle
  rw [hrefused]
  refine visited_bind ?_
  unfold attemptLifecycle
  refine visited_bind_runs (runs_get.mpr ⟨rfl, rfl⟩) ?_
  refine visited_bind_runs (a := ()) (runs_ensure.mpr ⟨hclean, rfl⟩) ?_
  refine visited_bind_runs hfetch ?_
  refine visited_bind_runs (a := none) (runs_observe.mpr ⟨hnew, rfl⟩) ?_
  refine visited_bind_runs halign ?_
  exact visited_bind_runs hcommit (visited_bind hu)

end Reached

/-! ### An application beside others -/

namespace RacedReplay

open RefusedCommit (sha yaml)

/-- Temporary names can be drawn. -/
theorem exists_freshNames [Sha256] (r : BuiltReport) (reports : Files) :
    ∃ names, FreshNames r names reports := by
  have hinjective : Function.Injective (ReportStore.temporaryAt r) := by
    intro random random' h
    cases h
    rfl
  obtain ⟨random, hfresh⟩ := Infinite.exists_notMem_finset
    (reports.keys.toFinset.preimage _ hinjective.injOn)
  have hfree : reports.lookup (ReportStore.temporaryAt r random) = none := by
    rw [AList.lookup_eq_none]
    intro hmem
    exact hfresh (Finset.mem_preimage.mpr (List.mem_toFinset.mpr hmem))
  refine ⟨⟨random, random⟩, ?_⟩
  rintro location (rfl | rfl) <;> exact hfree

/-- The file of the ticket `t1`. -/
def ticketText : String := "---\ntype: devlegate.ticket\ntitle: t\n---\nbody\n"

/-- The ticket `t1` is in `todo`, and nothing was reported. -/
def files : ControlFiles where
  tickets := [(.todo, ⟨"t1.md", some ticketText⟩)]
  reports := ReportStore.emptyStore

/-- The execution of `t1` was delivered. -/
def built : @BuiltReport sha := @deliveredReport sha deliveredBase deliveredHead

def replay : @Replay sha := @Replay.mk sha built "t1" rfl [files] "body\n" true none

def site : ReplaySite := ⟨[files], files, [files]⟩

/-- Somebody adds a ticket. -/
def addTicket : Edit := fun files =>
  { files with tickets :=
      (.backlog, ⟨"t2.md", some "---\ntype: devlegate.ticket\ntitle: t\n---\nmore\n"⟩)
        :: files.tickets }

/-- The remote with the ticket. -/
def raced : ControlCommit := [addTicket files, files]

/-- The ticket is pushed before the fetch, and the push of the lifecycle is accepted. -/
def turn (names : Files → ReportStore.Names) : Turn :=
  { before := [addTicket], fetchRefused := none, mergeRefused := false, resetRefused := false,
    site := { revParse := .ok "" }, names := names, during := [], push := .accepted }

theorem clean : site.isClean = true := by decide

theorem spares {edits : List Edit} (h : ∀ edit ∈ edits, edit = addTicket) :
    @Replay.Spares sha replay edits := by
  intro edit hedit files
  rw [h edit hedit]
  rfl

theorem fair {names : Files → ReportStore.Names}
    (hnames : ∀ reports, @FreshNames sha built (names reports) reports) :
    @Fair sha replay (turn names) :=
  @Fair.mk sha replay (turn names) (spares fun _ h => List.mem_singleton.mp h)
    (spares fun _ h => absurd h List.not_mem_nil) hnames

theorem reportCommits_site : @Replay.reportCommits sha replay site.remote = [] :=
  Timeline.log_cons_of_not fun htouches => htouches rfl

theorem reportCommits_raced : @Replay.reportCommits sha replay raced = [] :=
  (Timeline.log_cons_of_not fun htouches => htouches rfl).trans reportCommits_site

theorem remoteLifecycleCommit_raced :
    @Replay.remoteLifecycleCommit sha replay raced = .ok none := by
  unfold Replay.remoteLifecycleCommit
  rw [reportCommits_raced]
  rfl

theorem body : activeTicketBody ticketText = some "body\n" := by
  decide

/-- The ticket `t1` is as it was admitted. -/
theorem descends : @Replay.proveControlDescendant sha replay raced = .ok () := by
  have hadmitted : @Replay.admitted sha replay <:+ raced := List.suffix_cons _ _
  unfold Replay.proveControlDescendant
  rw [if_neg (not_not_intro hadmitted),
    show @Replay.todoText sha replay (@Replay.admitted sha replay) = some ticketText from rfl,
    show @Replay.todoText sha replay raced = some ticketText from rfl]
  simp only [Option.bind_some, body]
  rfl

/-- The store that is loaded once the ticket `t2` is there. -/
def store : TicketStore :=
  ⟨[⟨"t1", .todo, "t", [], "body\n"⟩, ⟨"t2", .backlog, "t", [], "more\n"⟩]⟩

theorem loads : @ApplySite.loadStore yaml { revParse := .ok "" } (addTicket files).tree.workflow
    = .ok store := by
  decide +kernel

theorem admits : admitted store (text "t1") true = .ok ⟨"t1", .todo, "t", [], "body\n"⟩ := by
  decide

theorem reviewed : @checkResult yaml (resultingWorkflow ⟨"t1", .todo, "t", [], "body\n"⟩ true
    (addTicket files).tree.workflow) = .ok () := by
  decide +kernel

theorem accepts : @Accepts sha built ReportStore.emptyStore :=
  @Accepts.mk sha _ _ RefusedCommit.makeable (fun _ _ => .inl rfl) rfl

/-- The lifecycle can be applied beside the ticket `t2`. -/
theorem commitable {names : ReportStore.Names} (hfresh : @FreshNames sha built names files.reports) :
    ∃ ticket reports name, @Commitable yaml sha { revParse := .ok "" }
      (@Replay.report sha replay) names (@Replay.moves sha replay) (addTicket files).tree ticket
      reports name := by
  obtain ⟨path, reports, hwritten⟩ : ∃ path reports, Runs (@ReportStore.write sha
      (@BuiltReport.report sha built) names) files.reports path reports := by
    rcases (@ReportStore.sat_write_cases sha built _ _ hfresh).ends with
      ⟨visited, path, heq, -⟩ | ⟨visited, e, -, -, hnot, -⟩
    · refine ⟨path, _, ?_, rfl⟩
      rw [heq]
    · exact absurd accepts hnot
  have hmoves : @Replay.moves sha replay = true := by decide
  rw [hmoves]
  exact ⟨_, reports, "", @Commitable.mk yaml sha _ _ _ _ _ _ _ _ ⟨_, loads, admits⟩
    ⟨path, hwritten⟩ (fun _ => by decide) reviewed rfl rfl rfl⟩

/-- The fetched head is checked out. -/
def landed : ReplaySite := ⟨raced, addTicket files, raced⟩

/-- The lifecycle is committed beside the ticket `t2`. -/
theorem commits {names : Files → ReportStore.Names}
    (hnames : ∀ reports, @FreshNames sha built (names reports) reports) :
    ∃ after, Runs (@commitLifecycle sha replay (turn names) yaml) landed (after :: raced)
      ⟨after :: raced, after, raced⟩ := by
  obtain ⟨ticket, reports, name, h⟩ := commitable (hnames files.reports)
  exact ⟨_, (@runs_commitLifecycle yaml sha _ _ _ _ _).mpr ⟨ticket, reports, name, h, rfl, rfl⟩⟩

/-- The states of the push are visited. -/
theorem visited_of_push {names : Files → ReportStore.Names} {after : ControlFiles} {u : ReplaySite}
    (hcommit : Runs (@commitLifecycle sha replay (turn names) yaml) landed (after :: raced)
      ⟨after :: raced, after, raced⟩)
    (hu : u ∈ (pushControl (turn names) ⟨after :: raced, after, raced⟩).visited) :
    u ∈ (@applyExecutionLifecycle sha replay yaml (turn names, turn names, turn names)
      site).visited := by
  have hmoved : raced ≠ @Replay.admitted sha replay := by
    intro h
    exact absurd (congrArg List.length h) (by decide)
  have halign := @runs_alignControl_admitted sha replay (turn names) ⟨[files], files, raced⟩ raced
    rfl descends rfl
  rw [if_neg hmoved] at halign
  exact @visited_applyExecutionLifecycle sha replay site u raced yaml _ _ _ _ _ rfl clean
    (runs_fetchControl rfl (List.cons_ne_nil _ _)) remoteLifecycleCommit_raced halign hcommit hu

/-- The report is committed with it. -/
theorem reportCommits_after {names : Files → ReportStore.Names} {after : ControlFiles}
    (hnames : ∀ reports, @FreshNames sha built (names reports) reports)
    (hcommit : Runs (@commitLifecycle sha replay (turn names) yaml) landed (after :: raced)
      ⟨after :: raced, after, raced⟩) :
    (@Replay.reportCommits sha replay (after :: raced)).length = 1 := by
  have haligned : @Aligned sha replay landed raced landed :=
    @Aligned.mk sha replay landed raced landed (@Replay.Kept.refl sha replay landed) rfl rfl rfl
  obtain ⟨-, -, -, hfree, _, hcontrol, hpresent⟩ :=
    (@sat_commitLifecycle sha _ (turn names) _ _ _ yaml haligned (hnames _)).of_runs hcommit
  rw [← (List.cons.inj hcontrol).1] at hpresent
  exact (@once_commit sha replay raced after
    (@Replay.Once.unpublished sha replay raced reportCommits_raced) hfree hpresent).1

/-- The application is killed once the remote has its push. -/
theorem killed_pushed : ∃ after, @Killed sha yaml replay site
      ⟨after :: raced, after, after :: raced⟩
    ∧ (@Replay.reportCommits sha replay (after :: raced)).length = 1 := by
  choose names hnames using @exists_freshNames sha built
  obtain ⟨after, hcommit⟩ := commits hnames
  exact ⟨after, .single ⟨_, ⟨fair hnames, fair hnames, fair hnames⟩,
    visited_of_push hcommit (visited_pushControl nofun (List.suffix_cons _ _))⟩,
    reportCommits_after hnames hcommit⟩

/-- No later application commits the report again. -/
theorem killed_lifecycle_once_pushed : ∃ after,
    (@Replay.reportCommits sha replay (after :: raced)).length = 1
      ∧ (@Replay.reportCommits sha replay (after :: raced)).length ≤ 1
      ∧ ∀ turns, @FairTurns sha replay turns → ∀ head u,
        Runs (@applyExecutionLifecycle sha replay yaml turns)
          ⟨after :: raced, after, after :: raced⟩ head u →
        u.control = head ∧ u.remote = head
          ∧ (@Replay.reportCommits sha replay u.remote).length = 1 := by
  obtain ⟨after, hkilled, hone⟩ := killed_pushed
  exact ⟨after, hone,
    @killed_lifecycle_once sha yaml replay site _ reportCommits_site hkilled⟩

theorem killed_lifecycle_keeps_pushed : ∃ after,
    (@Replay.reportCommits sha replay (after :: raced)).length = 1
      ∧ site.remote <:+ after :: raced ∧ (site.control <:+ after :: raced
        ∨ site.control <:+ after :: raced
        ∨ @Replay.isExactLifecycle sha replay site.control = .ok true
          ∧ site.control.tail <:+ after :: raced) := by
  obtain ⟨after, hkilled, hone⟩ := killed_pushed
  exact ⟨after, hone, @killed_lifecycle_keeps sha yaml replay site _ reportCommits_site hkilled⟩

end RacedReplay

end Wire

end Devlegate
