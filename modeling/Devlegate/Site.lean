import Devlegate.EngineRun
import Devlegate.Lib.Crash
import Devlegate.Lib.Git

namespace Devlegate

open Crash

/-!
# The site of a project

The durable state together with the clone it speaks about: the execution branches and their
worktrees, the remote, the evidence refs and the recorded dispositions.  An operation of the engine
that moves refs is a program over the site, killed between any two of its effects.

* `Site`, `ExecutionWorkspace`: what an operation finds.
* `Site.validateExisting`, `retire`: `ExecutionWorkspaceManager`.
* `Site.save`: `_save_state` as one effect.
-/

/-! ### What a site holds -/

inductive DispositionKind where
  | dropping
  | dropped
  deriving DecidableEq, Repr

/-- The payload of `_drop_disposition_payload_for`; what it repeats of the report is left out. -/
structure Disposition where
  report : ExecutionReport
  checkpoint : String
  disposition : DispositionKind
  deriving DecidableEq, Repr

/-- What a disposition ref points to. -/
inductive DispositionBlob where
  | payload (d : Disposition)
  | unreadable (reason : String)
  deriving DecidableEq, Repr

/-- The durable state, the clone with its remote, and the disposition refs.  `symlinked` says that
    the workspace path or one of its parents is a symbolic link, `submodules` what the check of the
    worktree's submodules finds when its HEAD is at a commit: they are compared with that commit. -/
structure Site where
  state : RuntimeState
  git : Git.Repository
  dispositions : String → Option DispositionBlob := fun _ => none
  symlinked : Bool := false
  submodules : String → Except String Unit := fun _ => .ok ()

/-- `ExecutionWorkspace`. -/
structure ExecutionWorkspace where
  ticketId : String
  branch : String
  path : String
  head : String
  baseHead : String
  dirty : Bool
  deriving DecidableEq, Repr

/-! ### Refs -/

/-- `_drop_evidence_ref`. -/
def dropEvidenceRef (ticketId executionId : String) : String :=
  "refs/devlegate/executions/" ++ ticketId ++ "/" ++ executionId

/-- `_drop_disposition_ref`. -/
def dropDispositionRef (ticketId executionId : String) : String :=
  "refs/devlegate/dispositions/" ++ ticketId ++ "/" ++ executionId

/-- The ref of a branch is not one of the evidence refs: they differ in their sixth character. -/
theorem branchRef_ne_dropEvidenceRef (branch ticketId executionId : String) :
    Git.branchRef branch ≠ dropEvidenceRef ticketId executionId := by
  unfold Git.branchRef dropEvidenceRef
  intro h
  have hlist := congrArg String.toList h
  simp only [String.toList_append] at hlist
  have hsixth := congrArg (fun l => l.getD 5 'x') hlist
  revert hsixth
  show 'h' = 'd' → False
  decide

namespace Site

/-- A program of the engine. -/
abbrev Program := Crash.Program Site String

/-- The head of a branch on the remote, as `ls-remote` reports it. -/
def executionRemoteHead (w : Site) (branch : String) : Option String :=
  w.git.remote (Git.branchRef branch)

/-- `_save_state`. -/
def save [Sha256] (call : SaveCall) : Program Unit := do
  let w ← .get
  match saveState call w.state with
  | .error message => .raise message
  | .ok s => .effect fun w => { w with state := s }

theorem sat_save [Sha256] {I : Site → Prop} {Q : Unit → Site → Prop} {E : String → Site → Prop}
    {w : Site} {call : SaveCall} (hvalid : validateStateInvariant (call.payload w.state) = .ok ())
    (hI : I { w with state := call.payload w.state })
    (hQ : Q () { w with state := call.payload w.state }) : Sat I (save call) Q E w := by
  have hsaved : saveState call w.state = .ok (call.payload w.state) :=
    saveState_eq_ok.mpr ⟨rfl, hvalid⟩
  unfold save
  refine .bind (.get ?_)
  rw [hsaved]
  exact .effect hI hQ

/-! ### Worktrees -/

section Manager

variable [Project]

/-- `_path_conflict`. -/
def pathConflict (ticketId observed : String) : String :=
  "expected execution worktree " ++ executionPathOf ticketId ++ " for ticket " ++ ticketId
    ++ " and branch " ++ executionBranchOf ticketId ++ " " ++ observed

/-- `_validate_existing`.  HEAD of a worktree on a branch is the head of that branch. -/
def validateExisting (ticketId baseHead : String) (w : Site) : Except String ExecutionWorkspace :=
  let path := executionPathOf ticketId
  let branch := executionBranchOf ticketId
  match w.git.worktrees.get path, w.git.directories path with
  | some worktree, true =>
    if worktree.branch ≠ branch then
      .error (pathConflict ticketId ("is on branch " ++ worktree.branch))
    else match w.git.refs (Git.branchRef branch) with
      | none => .error ("execution worktree " ++ path ++ " has no HEAD")
      | some head => .ok ⟨ticketId, branch, path, head, baseHead, worktree.dirty⟩
  | _, _ => .error ("expected execution worktree " ++ path
      ++ " is not registered and cannot be reused")

theorem validateExisting_eq_ok {ticketId baseHead : String} {w : Site}
    {workspace : ExecutionWorkspace} :
    w.validateExisting ticketId baseHead = .ok workspace ↔ ∃ head dirty,
      w.git.worktrees.get (executionPathOf ticketId) = some ⟨executionBranchOf ticketId, dirty⟩
        ∧ w.git.directories (executionPathOf ticketId) = true
        ∧ w.git.refs (Git.branchRef (executionBranchOf ticketId)) = some head
        ∧ workspace = ⟨ticketId, executionBranchOf ticketId, executionPathOf ticketId, head,
          baseHead, dirty⟩ := by
  constructor
  · intro h
    dsimp only [validateExisting] at h
    split at h
    · rename_i worktree hregistered hthere
      split at h
      · cases h
      · rename_i hbranch
        split at h
        · cases h
        · rename_i head hhead
          cases h
          refine ⟨head, worktree.dirty, ?_, hthere, hhead, rfl⟩
          rw [not_not] at hbranch
          rw [hregistered, ← hbranch]
    · cases h
  · rintro ⟨head, dirty, hregistered, hthere, hhead, rfl⟩
    simp [validateExisting, hregistered, hthere, hhead]

/-- The checks of `ExecutionWorkspaceManager.retire`: whether there is a worktree to remove. -/
def retirable (workspace : ExecutionWorkspace) (expectedHead : String) (w : Site) :
    Except String Bool := do
  let ticketId := workspace.ticketId
  let path := executionPathOf ticketId
  if workspace.branch ≠ executionBranchOf ticketId then
    throw "execution workspace identity is invalid"
  if workspace.path ≠ path ∨ workspace.head ≠ expectedHead then
    throw "execution workspace checkpoint is invalid"
  if workspace.dirty then throw "execution worktree is dirty"
  if w.symlinked then throw (pathConflict ticketId "is a symlink")
  match w.git.pathOf workspace.branch with
  | some other =>
    if other ≠ path then
      throw (pathConflict ticketId ("branch is attached to unexpected worktree " ++ other))
  | none => pure ()
  match w.git.worktrees.get path with
  | none =>
    if w.git.directories path then
      throw (pathConflict ticketId "is not a registered execution worktree")
    else return false
  | some _ =>
    let validated ← w.validateExisting ticketId workspace.baseHead
    if validated.head ≠ expectedHead ∨ validated.dirty then
      throw "execution worktree changed before removal"
    w.submodules validated.head
    return true

/-- `ExecutionWorkspaceManager.retire`. -/
def retire (workspace : ExecutionWorkspace) (expectedHead : String) : Program Unit := do
  if ← .observe (retirable workspace expectedHead) then
    .effect fun w => { w with git := w.git.removeWorktree (executionPathOf workspace.ticketId) }

end Manager

end Site

end Devlegate
