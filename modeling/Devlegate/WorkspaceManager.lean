import Devlegate.Site
import Devlegate.WorkflowFingerprint

namespace Devlegate

open Crash

/-!
# The worktree of a ticket

`ExecutionWorkspaceManager` materializes one worktree for each ticket: a branch and a path that follow
from the id, on a base that the engine has planned.

* `WorkspaceSite`: the refs, the registered worktrees, what is at the path of the workspace, and the
  stored reports.
* `prepare` / `inspect` / `validateExisting`: the methods of the manager.
* `inspect_eq_reusable_iff`: which workspaces are reusable.
* `runs_prepare`: when `prepare` makes a fresh worktree, and what it leaves.
-/

/-! ### The clone -/

/-- What the HEAD of a worktree is on. -/
inductive WorktreeHead where
  | branch (name : String)
  | detached (commit : String)
  deriving DecidableEq, Repr

/-- The branch `symbolic-ref` prints, as the manager shows it. -/
def WorktreeHead.shown : WorktreeHead → String
  | .branch name => name
  | .detached _ => "<detached>"

/-- The submodules of a checkout: what `_verify_submodules` finds, and what `_prepare_submodules`
    comes to. -/
structure Submodules where
  verified : Except String Unit := .ok ()
  prepared : Except String Unit := .ok ()

/-- A directory.  `gitdir` is the registration whose administrative directory Git finds from here
    with this directory as the top level; `marked` says that there is a `.git` or a `HEAD`. -/
structure WorktreeDirectory where
  gitdir : Option String := none
  marked : Bool := true
  dirty : Bool := false
  submodules : Submodules := {}

/-- What is at the path of the workspace, behind links. -/
inductive PathContent where
  | absent
  | file
  | directory (checkout : WorktreeDirectory)

/-- `path.exists()`. -/
def PathContent.present : PathContent → Bool
  | .absent => false
  | _ => true

/-- `(path / ".git").exists() or (path / "HEAD").exists()`. -/
def PathContent.marked : PathContent → Bool
  | .directory checkout => checkout.marked
  | _ => false

/-- The Git commands that change something. -/
inductive GitCommand where
  | branch
  | addWorktree
  | removeWorktree
  | forceRemoveWorktree
  | pin
  | move
  deriving DecidableEq, Repr

/-- What the operations of the manager look at.  `resolved` is where the path of the workspace leads
    to, `submodulesOf` describes a fresh checkout of a commit, and `refuses` is what a command says
    that Git turns down for a reason of its own: a ref in the way, a lock, a full disk. -/
structure WorkspaceSite where
  refs : String → Option String
  available : String → Bool
  worktrees : Dict WorktreeHead
  unlisted : Option String := none
  resolved : String
  rootLinked : Bool := false
  pathLinked : Bool := false
  content : PathContent
  submodulesOf : String → Submodules := fun _ => {}
  refuses : GitCommand → Option String := fun _ => none
  reports : Except String (List ExecutionReport) := .ok []

/-- The first worktree that is on the branch. -/
def attachedAt (worktrees : Dict WorktreeHead) (branch : String) : Option String :=
  (worktrees.find? fun entry => entry.2 = .branch branch).map (·.1)

namespace WorkspaceSite

/-- A program of the manager or the engine. -/
abbrev Program := Crash.Program WorkspaceSite String

/-- `_registrations`. -/
def registrations (c : WorkspaceSite) : Except String (Dict WorktreeHead) :=
  match c.unlisted with
  | some message => .error message
  | none => .ok c.worktrees

/-- The commit a HEAD stands for. -/
def commitOf (c : WorkspaceSite) : WorktreeHead → Option String
  | .branch name => c.refs (Git.branchRef name)
  | .detached commit => some commit

def setRef (ref commit : String) (c : WorkspaceSite) : WorkspaceSite :=
  { c with refs := Function.update c.refs ref (some commit) }

/-- What the worktree at the path was, is no longer there. -/
def dropWorktree (c : WorkspaceSite) : WorkspaceSite :=
  { c with worktrees := c.worktrees.erase c.resolved, content := .absent }

/-- A fresh checkout of the branch at the path. -/
def checkOut (branch : String) (c : WorkspaceSite) : WorkspaceSite :=
  { c with
    worktrees := c.worktrees.set c.resolved (.branch branch)
    content := .directory {
      gitdir := some c.resolved
      submodules := c.submodulesOf ((c.refs (Git.branchRef branch)).getD "") } }

/-- `worktree remove` wants a directory that is missing or that names its registration. -/
def removeRefusal (command : GitCommand) (c : WorkspaceSite) : Option String :=
  match c.refuses command, c.content with
  | some stderr, _ => some stderr
  | none, .absent => none
  | none, .file => some "validation failed, cannot remove working tree"
  | none, .directory checkout =>
    if checkout.gitdir = some c.resolved then none
    else some "validation failed, cannot remove working tree"

/-! ### The manager -/

section Manager

variable [Project] (graph : Git.CommitGraph) (ticketId base : String)

/-- `_validate_base`. -/
def validateBase (c : WorkspaceSite) : Except String Unit :=
  if c.available base then .ok ()
  else .error ("planned code revision " ++ base ++ " is not available in the product repository")

/-- `_validate_branch`. -/
def validateBranch (c : WorkspaceSite) : Except String Unit :=
  if (c.refs (Git.branchRef (executionBranchOf ticketId))).any (graph.isAncestor base) then .ok ()
  else .error ("execution branch " ++ executionBranchOf ticketId
    ++ " is unrelated to planned code revision " ++ base)

/-- `_validate_existing`. -/
def validateExisting (registration : Option WorktreeHead) (c : WorkspaceSite) :
    Except String ExecutionWorkspace :=
  let path := executionPathOf ticketId
  let branch := executionBranchOf ticketId
  match registration, c.content with
  | some registration, .directory checkout =>
    match checkout.gitdir.bind c.worktrees.get with
    | none => .error (Site.pathConflict ticketId "belongs to another repository")
    | some head =>
      if head ≠ .branch branch then
        .error (Site.pathConflict ticketId ("is on branch " ++ head.shown))
      else match c.commitOf head with
        | none => .error "ambiguous argument 'HEAD'"
        | some commit =>
          if c.commitOf registration ≠ some commit then
            .error ("execution worktree " ++ path
              ++ " registration HEAD does not match its checkout")
          else match registration with
            -- A detached registration has no `branch`; then the branch is attached elsewhere, and
            -- no caller comes this far.
            | .detached _ => .error "'branch'"
            | .branch name =>
              if name ≠ branch then
                .error (Site.pathConflict ticketId "has the wrong registered branch")
              else .ok ⟨ticketId, branch, path, commit, base, checkout.dirty⟩
  | _, _ => .error ("expected execution worktree " ++ path
      ++ " is not registered and cannot be reused")

/-- `_validate_workspace`. -/
def validateWorkspace (workspace : ExecutionWorkspace) (c : WorkspaceSite) :
    Except String ExecutionWorkspace := do
  if workspace.ticketId ≠ ticketId ∨ workspace.branch ≠ executionBranchOf ticketId
      ∨ workspace.path ≠ executionPathOf ticketId then
    .error "execution workspace binding is invalid"
  else if c.rootLinked ∨ c.pathLinked then .error (Site.pathConflict ticketId "is a symlink")
  else
    let registrations ← c.registrations
    c.validateExisting ticketId workspace.baseHead (registrations.get c.resolved)

/-- `verify_submodules`. -/
def verifySubmodules (workspace : ExecutionWorkspace) (c : WorkspaceSite) : Except String Unit := do
  let _ ← c.validateWorkspace ticketId workspace
  match c.content with
  | .directory checkout => checkout.submodules.verified
  | _ => .ok ()

/-- The `try` block of `inspect`. -/
def inspectTopology (expectedHead : Option String) (c : WorkspaceSite) :
    Except String WorkspaceInspection := do
  c.validateBase base
  let registrations ← c.registrations
  let branch := executionBranchOf ticketId
  if (c.refs (Git.branchRef branch)).isNone then
    .ok ⟨.recoverable, "execution branch is missing"⟩
  else match c.validateBranch graph ticketId base with
    | .error message => .ok ⟨.recoverable, message⟩
    | .ok () =>
      if (attachedAt registrations branch).any (· ≠ c.resolved) then
        .ok ⟨.unsafeBinding, "execution branch is attached to "
          ++ (attachedAt registrations branch).getD ""⟩
      else match registrations.get c.resolved, c.content with
        | some registration, .directory _ => do
          let workspace ← c.validateExisting ticketId base (some registration)
          if expectedHead.any (workspace.head ≠ ·) then
            .ok ⟨.unsafeBinding, "execution worktree HEAD does not match persisted start HEAD"⟩
          else do
            c.verifySubmodules ticketId workspace
            if workspace.dirty then .ok ⟨.unsafeBinding, "execution worktree is dirty"⟩
            else .ok ⟨.reusable, "persisted execution workspace is reusable"⟩
        | _, .absent => .ok ⟨.recoverable, "execution worktree is missing"⟩
        | _, _ => .ok ⟨.unsafeBinding, "execution worktree path is not a registered worktree"⟩

/-- `inspect`. -/
def inspect (expectedHead : Option String) (c : WorkspaceSite) : WorkspaceInspection :=
  match c.inspectTopology graph ticketId base expectedHead with
  | .ok inspection => inspection
  | .error message => ⟨.unsafeBinding, message⟩

/-- `_ensure_branch`. -/
def ensureBranch : Program Unit := do
  let c ← .get
  if (c.refs (Git.branchRef (executionBranchOf ticketId))).isSome then pure ()
  else match c.refuses .branch with
    -- The branch is looked for again, and is still missing.
    | some stderr => .raise ("cannot create execution branch " ++ executionBranchOf ticketId
        ++ ": " ++ stderr)
    | none => .effect (setRef (Git.branchRef (executionBranchOf ticketId)) base)

/-- `_prepare_submodules`. -/
def prepareSubmodules : Program Unit := do
  match (← .get).content with
  | .directory checkout =>
    match checkout.submodules.prepared with
    | .error message => .raise message
    | .ok () => .effect fun c => { c with content := .directory { checkout with submodules := {} } }
  | _ => pure ()

/-- The workspace of a registration, with its submodules. -/
def reuse (registration : WorktreeHead) : Program ExecutionWorkspace := do
  let workspace ← .observe (validateExisting ticketId base (some registration))
  prepareSubmodules
  return workspace

/-- `worktree remove` at the path of the workspace. -/
def removeWorktree (command : GitCommand) (failure : String → String) : Program Unit := do
  match (← .get).removeRefusal command with
  | some stderr => .raise (failure stderr)
  | none => .effect dropWorktree

/-- `worktree add`, and what `prepare` does behind it. -/
def addWorktree : Program ExecutionWorkspace := do
  let path := executionPathOf ticketId
  match (← .get).refuses .addWorktree with
  | some stderr => do
    let registrations ← .observe registrations
    match registrations.get (← .get).resolved with
    | some registration => reuse ticketId base registration
    | none => .raise ("cannot create execution worktree " ++ path ++ ": " ++ stderr)
  | none => do
    .effect (checkOut (executionBranchOf ticketId))
    let registrations ← .observe registrations
    match registrations.get (← .get).resolved with
    | some registration => reuse ticketId base registration
    | none => .raise ("created execution worktree " ++ path ++ " but Git did not register it")

/-- What `prepare` does with the path once the branch is there. -/
def materialize (registration : Option WorktreeHead) : Program ExecutionWorkspace := do
  match registration, (← .get).content with
  | some registration, .directory _ => reuse ticketId base registration
  | some _, _ => do
    removeWorktree .removeWorktree fun stderr =>
      "cannot remove stale execution worktree registration " ++ executionPathOf ticketId ++ ": "
        ++ stderr
    addWorktree ticketId base
  | none, .absent => addWorktree ticketId base
  | none, content => .raise (Site.pathConflict ticketId
      (if content.marked then "belongs to another repository"
        else "exists but is not a registered execution worktree"))

/-- `prepare`. -/
def prepare : Program ExecutionWorkspace := do
  let branch := executionBranchOf ticketId
  .observe (validateBase base)
  .ensure ((← .get).rootLinked = false) (Site.pathConflict ticketId "has a symlinked workspace root")
  ensureBranch ticketId base
  .observe (validateBranch graph ticketId base)
  let registrations ← .observe registrations
  let c ← .get
  .ensure ((attachedAt registrations branch).all (· = c.resolved)) ("execution branch " ++ branch
    ++ " is already attached to unexpected worktree " ++ (attachedAt registrations branch).getD "")
  .ensure (c.pathLinked = false) (Site.pathConflict ticketId "is a symlink")
  materialize ticketId base (registrations.get c.resolved)

end Manager

/-! ### What the manager finds -/

section Manager

variable {graph : Git.CommitGraph} {ticketId base : String} {c t : WorkspaceSite}

theorem any_ne_eq_false {path : Option String} {resolved : String} :
    path.any (· ≠ resolved) = false ↔ path.all (· = resolved) = true := by
  cases path <;> simp

theorem registrations_eq_ok {worktrees : Dict WorktreeHead} :
    c.registrations = .ok worktrees ↔ c.unlisted = none ∧ worktrees = c.worktrees := by
  unfold registrations
  cases c.unlisted with
  | some message => simp
  | none => simp [eq_comm]

theorem validateBase_eq_ok : c.validateBase base = .ok () ↔ c.available base = true := by
  unfold validateBase
  split <;> simp_all

theorem validateBranch_eq_ok : c.validateBranch graph ticketId base = .ok () ↔
    ∃ head, c.refs (Git.branchRef (executionBranchOf ticketId)) = some head
      ∧ graph.isAncestor base head = true := by
  unfold validateBranch
  cases c.refs (Git.branchRef (executionBranchOf ticketId)) with
  | none => simp
  | some head => simp

variable [Project]

/-- There is a directory at the path, and its HEAD is on the branch. -/
def OnBranch (c : WorkspaceSite) (ticketId : String) (checkout : WorktreeDirectory) : Prop :=
  c.content = .directory checkout
    ∧ checkout.gitdir.bind c.worktrees.get = some (.branch (executionBranchOf ticketId))

/-- What is valid is a registered worktree on the branch. -/
theorem validateExisting_eq_ok {registration : Option WorktreeHead}
    {workspace : ExecutionWorkspace} :
    c.validateExisting ticketId base registration = .ok workspace ↔ ∃ checkout head,
      registration = some (.branch (executionBranchOf ticketId)) ∧ c.OnBranch ticketId checkout
        ∧ c.refs (Git.branchRef (executionBranchOf ticketId)) = some head
        ∧ workspace = ⟨ticketId, executionBranchOf ticketId, executionPathOf ticketId, head, base,
          checkout.dirty⟩ := by
  constructor
  · intro h
    dsimp only [validateExisting] at h
    split at h
    · rename_i registration checkout hcontent
      split at h
      · cases h
      · rename_i head hgitdir
        split at h
        · cases h
        · rename_i hhead
          rw [not_not] at hhead
          subst hhead
          split at h
          · cases h
          · rename_i commit hcommit
            split at h
            · cases h
            · split at h
              · cases h
              · split at h
                · cases h
                · rename_i name hname
                  rw [not_not] at hname
                  cases h
                  exact ⟨checkout, commit, by rw [hname], ⟨hcontent, hgitdir⟩, hcommit, rfl⟩
    · cases h
  · rintro ⟨checkout, head, rfl, ⟨hcontent, hgitdir⟩, hhead, rfl⟩
    simp [validateExisting, hcontent, hgitdir, commitOf, hhead]

theorem validateExisting_onBranch (base : String) {checkout : WorktreeDirectory} {head : String}
    (hdirectory : c.OnBranch ticketId checkout)
    (hhead : c.refs (Git.branchRef (executionBranchOf ticketId)) = some head) :
    c.validateExisting ticketId base (some (.branch (executionBranchOf ticketId)))
      = .ok ⟨ticketId, executionBranchOf ticketId, executionPathOf ticketId, head, base,
        checkout.dirty⟩ :=
  validateExisting_eq_ok.mpr ⟨checkout, head, rfl, hdirectory, hhead, rfl⟩

theorem verifySubmodules_eq_ok (base : String) (dirty : Bool) {checkout : WorktreeDirectory}
    {head : String} (hlisted : c.unlisted = none)
    (hregistered : c.worktrees.get c.resolved = some (.branch (executionBranchOf ticketId)))
    (hdirectory : c.OnBranch ticketId checkout)
    (hhead : c.refs (Git.branchRef (executionBranchOf ticketId)) = some head) :
    c.verifySubmodules ticketId ⟨ticketId, executionBranchOf ticketId, executionPathOf ticketId,
        head, base, dirty⟩ = .ok ()
      ↔ (c.rootLinked = false ∧ c.pathLinked = false) ∧ checkout.submodules.verified = .ok () := by
  have hvalid := validateExisting_onBranch base hdirectory hhead
  rw [← hregistered] at hvalid
  have hregistrations : c.registrations = .ok c.worktrees :=
    registrations_eq_ok.mpr ⟨hlisted, rfl⟩
  unfold verifySubmodules validateWorkspace
  rw [hdirectory.1]
  by_cases hlinked : c.rootLinked = true ∨ c.pathLinked = true
  · rw [if_neg (by simp), if_pos hlinked]
    refine iff_of_false nofun ?_
    rintro ⟨⟨hroot, hpath⟩, -⟩
    simp [hroot, hpath] at hlinked
  · rw [if_neg (by simp), if_neg hlinked, hregistrations]
    show (c.validateExisting ticketId base (c.worktrees.get c.resolved) >>= fun _ => _) = _ ↔ _
    rw [hvalid]
    simp only [not_or, Bool.not_eq_true] at hlinked
    exact (and_iff_right hlinked).symm

/-- A workspace that `inspect` calls reusable. -/
structure Reusable (graph : Git.CommitGraph) (ticketId base : String) (startHead : Option String)
    (c : WorkspaceSite) : Prop where
  available : c.available base = true
  listed : c.unlisted = none
  head : ∃ head, c.refs (Git.branchRef (executionBranchOf ticketId)) = some head
    ∧ graph.isAncestor base head = true ∧ ∀ start ∈ startHead, head = start
  attached : (attachedAt c.worktrees (executionBranchOf ticketId)).all (· = c.resolved) = true
  registered : c.worktrees.get c.resolved = some (.branch (executionBranchOf ticketId))
  directory : ∃ checkout, c.OnBranch ticketId checkout ∧ checkout.dirty = false
    ∧ checkout.submodules.verified = .ok ()
  unlinked : c.rootLinked = false ∧ c.pathLinked = false

theorem inspect_reusable {expectedHead : Option String} :
    (c.inspect graph ticketId base expectedHead).classification = .reusable
      ↔ ∃ inspection, c.inspectTopology graph ticketId base expectedHead = .ok inspection
        ∧ inspection.classification = .reusable := by
  unfold inspect
  cases c.inspectTopology graph ticketId base expectedHead with
  | error message => simp
  | ok inspection => simp

/-- **Reusable.** Which workspaces `inspect` calls so. -/
theorem inspect_eq_reusable_iff {startHead : Option String} :
    (c.inspect graph ticketId base startHead).classification = .reusable
      ↔ c.Reusable graph ticketId base startHead := by
  rw [inspect_reusable]
  constructor
  · rintro ⟨inspection, htopology, hclass⟩
    -- the checks in order; every branch but the last gives another classification
    unfold inspectTopology at htopology
    rw [bind_eq_ok] at htopology
    obtain ⟨_, hbase, htopology⟩ := htopology
    rw [bind_eq_ok] at htopology
    obtain ⟨registrations, hregistrations, htopology⟩ := htopology
    obtain ⟨hlisted, rfl⟩ := registrations_eq_ok.mp hregistrations
    dsimp only at htopology
    split at htopology
    · cases htopology
      cases hclass
    · split at htopology
      · cases htopology
        cases hclass
      · rename_i hbranch
        obtain ⟨head, hhead, hancestor⟩ := validateBranch_eq_ok.mp hbranch
        split at htopology
        · cases htopology
          cases hclass
        · rename_i hattached
          split at htopology
          · rename_i registration checkout hregistered hcontent
            rw [bind_eq_ok] at htopology
            obtain ⟨workspace, hvalid, htopology⟩ := htopology
            obtain ⟨checkout', head', hregistration, hdirectory, hhead', rfl⟩ :=
              validateExisting_eq_ok.mp hvalid
            rw [hhead] at hhead'
            cases hhead'
            cases hregistration
            split at htopology
            · cases htopology
              cases hclass
            · rename_i hstart
              rw [bind_eq_ok] at htopology
              obtain ⟨_, hverified, htopology⟩ := htopology
              obtain ⟨hunlinked, hsubmodules⟩ :=
                (verifySubmodules_eq_ok _ _ hlisted hregistered hdirectory hhead).mp hverified
              split at htopology
              · cases htopology
                cases hclass
              · rename_i hclean
                refine ⟨validateBase_eq_ok.mp hbase, hlisted, ⟨head, hhead, hancestor, ?_⟩, ?_,
                  hregistered, ⟨checkout', hdirectory, by simpa using hclean, hsubmodules⟩,
                  hunlinked⟩
                · intro start hmem
                  rw [Option.mem_def] at hmem
                  simpa [hmem] using hstart
                · exact any_ne_eq_false.mp (by simpa using hattached)
          · cases htopology
            cases hclass
          · cases htopology
            cases hclass
  · intro h
    obtain ⟨head, hhead, hancestor, hstart⟩ := h.head
    obtain ⟨checkout, hdirectory, hclean, hsubmodules⟩ := h.directory
    have hregistrations : c.registrations = .ok c.worktrees :=
      registrations_eq_ok.mpr ⟨h.listed, rfl⟩
    have hbranch : c.validateBranch graph ticketId base = .ok () :=
      validateBranch_eq_ok.mpr ⟨head, hhead, hancestor⟩
    have hvalid := validateExisting_onBranch base hdirectory hhead
    rw [hclean] at hvalid
    have hverified := (verifySubmodules_eq_ok base false h.listed h.registered hdirectory
      hhead).mpr ⟨h.unlinked, hsubmodules⟩
    refine ⟨⟨.reusable, "persisted execution workspace is reusable"⟩, ?_, rfl⟩
    have hstart' : startHead.any (fun start => decide (head ≠ start)) = false := by
      cases hsome : startHead with
      | none => rfl
      | some start =>
        have heq := hstart start hsome
        simp [heq]
    have hattached := any_ne_eq_false.mpr h.attached
    unfold inspectTopology
    simp only [validateBase_eq_ok.mpr h.available, hregistrations, hhead, hbranch, hattached,
      h.registered, hdirectory.1, hvalid, hstart', hverified, bind, Except.bind,
      Option.isNone_some, Bool.false_eq_true, if_false]

/-! ### A fresh worktree -/

/-- The branch is at `base`, and there is a clean checkout of it at the path. -/
def rebuilt (ticketId base : String) (c : WorkspaceSite) : WorkspaceSite :=
  { c with
    refs := Function.update c.refs (Git.branchRef (executionBranchOf ticketId)) (some base)
    worktrees := c.worktrees.set c.resolved (.branch (executionBranchOf ticketId))
    content := .directory { gitdir := some c.resolved } }

omit [Project] in
/-- A rebuilt worktree is reusable for a start at its base. -/
theorem reusable_rebuilt_iff {startHead : Option String} (havailable : c.available base = true)
    (hlisted : c.unlisted = none) (hroot : c.rootLinked = false) (hpath : c.pathLinked = false) :
    (c.rebuilt ticketId base).Reusable graph ticketId base startHead
      ↔ ∀ start ∈ startHead, base = start := by
  have hhead : (c.rebuilt ticketId base).refs (Git.branchRef (executionBranchOf ticketId))
      = some base := Function.update_self ..
  constructor
  · intro h
    obtain ⟨head, hhead', -, hstart⟩ := h.head
    rw [hhead] at hhead'
    cases hhead'
    exact hstart
  · intro hstart
    have hself : graph.isAncestor base base = true := Git.CommitGraph.isAncestor_of_reaches .refl
    refine ⟨havailable, hlisted, ⟨base, hhead, hself, hstart⟩, ?_, Dict.get_set_self .., ?_,
      hroot, hpath⟩
    · unfold attachedAt rebuilt Dict.set
      simp
    · refine ⟨_, ⟨rfl, ?_⟩, rfl, rfl⟩
      exact Dict.get_set_self ..

omit [Project] in
theorem runs_prepareSubmodules {checkout : WorktreeDirectory}
    (hcontent : c.content = .directory checkout) :
    Runs prepareSubmodules c () t ↔ checkout.submodules.prepared = .ok ()
      ∧ t = { c with content := .directory { checkout with submodules := {} } } := by
  unfold prepareSubmodules
  simp only [runs_bind, runs_get]
  constructor
  · rintro ⟨_, _, ⟨rfl, rfl⟩, h⟩
    rw [hcontent] at h
    dsimp only at h
    split at h
    · exact absurd h runs_raise
    · rename_i hprepared
      exact ⟨hprepared, runs_effect.mp h⟩
  · rintro ⟨hprepared, rfl⟩
    refine ⟨_, _, ⟨rfl, rfl⟩, ?_⟩
    rw [hcontent]
    dsimp only
    rw [hprepared]
    exact runs_effect.mpr rfl

theorem runs_reuse {checkout : WorktreeDirectory} {head : String} {workspace : ExecutionWorkspace}
    (hdirectory : c.OnBranch ticketId checkout)
    (hhead : c.refs (Git.branchRef (executionBranchOf ticketId)) = some head) :
    Runs (reuse ticketId base (.branch (executionBranchOf ticketId))) c workspace t
      ↔ checkout.submodules.prepared = .ok ()
        ∧ workspace = ⟨ticketId, executionBranchOf ticketId, executionPathOf ticketId, head, base,
          checkout.dirty⟩
        ∧ t = { c with content := .directory { checkout with submodules := {} } } := by
  have hvalid := validateExisting_onBranch base hdirectory hhead
  unfold reuse
  simp only [runs_bind, runs_observe, runs_pure, hvalid, Except.ok.injEq]
  constructor
  · rintro ⟨_, _, ⟨rfl, rfl⟩, _, u, hrun, rfl, rfl⟩
    obtain ⟨hprepared, hend⟩ := (runs_prepareSubmodules hdirectory.1).mp hrun
    exact ⟨hprepared, rfl, hend⟩
  · rintro ⟨hprepared, rfl, rfl⟩
    exact ⟨_, _, ⟨rfl, rfl⟩, _, _, (runs_prepareSubmodules hdirectory.1).mpr ⟨hprepared, rfl⟩, rfl,
      rfl⟩

omit [Project] in
/-- A fresh checkout with its submodules, of a branch that is at `base`. -/
theorem checkOut_rebuilt
    (hhead : c.refs (Git.branchRef (executionBranchOf ticketId)) = some base) :
    { c.checkOut (executionBranchOf ticketId) with
      content := .directory { gitdir := some c.resolved } } = c.rebuilt ticketId base := by
  unfold rebuilt checkOut
  rw [← hhead, Function.update_eq_self]

/-- `worktree add` for a branch at `base`, where no worktree is registered at the path. -/
theorem runs_addWorktree {workspace : ExecutionWorkspace} (hlisted : c.unlisted = none)
    (hfree : c.worktrees.get c.resolved = none)
    (hhead : c.refs (Git.branchRef (executionBranchOf ticketId)) = some base) :
    Runs (addWorktree ticketId base) c workspace t
      ↔ c.refuses .addWorktree = none ∧ (c.submodulesOf base).prepared = .ok ()
        ∧ workspace = ⟨ticketId, executionBranchOf ticketId, executionPathOf ticketId, base, base,
          false⟩
        ∧ t = c.rebuilt ticketId base := by
  have hthere : (c.checkOut (executionBranchOf ticketId)).OnBranch ticketId
      { gitdir := some c.resolved, submodules := c.submodulesOf base } := by
    refine ⟨?_, Dict.get_set_self ..⟩
    unfold checkOut
    rw [hhead]
    rfl
  have hreuse : Runs (reuse ticketId base (.branch (executionBranchOf ticketId)))
      (c.checkOut (executionBranchOf ticketId)) workspace t ↔ _ := runs_reuse hthere hhead
  have hregistrations : (c.checkOut (executionBranchOf ticketId)).registrations
      = .ok (c.checkOut (executionBranchOf ticketId)).worktrees :=
    registrations_eq_ok.mpr ⟨hlisted, rfl⟩
  have hregistered : (c.checkOut (executionBranchOf ticketId)).worktrees.get
      (c.checkOut (executionBranchOf ticketId)).resolved
        = some (.branch (executionBranchOf ticketId)) := Dict.get_set_self ..
  have hend := checkOut_rebuilt hhead
  have hadd : ∀ stderr, c.refuses .addWorktree = some stderr →
      ¬ Runs (addWorktree ticketId base) c workspace t := by
    intro stderr hrefuses
    unfold addWorktree
    simp only [runs_bind, runs_get, not_exists, not_and]
    rintro _ _ ⟨rfl, rfl⟩
    rw [hrefuses]
    simp only [runs_bind, runs_get, runs_observe, not_exists, not_and]
    rintro worktrees _ ⟨hregistrations, rfl⟩ _ _ ⟨rfl, rfl⟩
    obtain ⟨-, rfl⟩ := registrations_eq_ok.mp hregistrations
    rw [hfree]
    exact runs_raise
  cases hrefuses : c.refuses .addWorktree with
  | some stderr => exact iff_of_false (hadd stderr hrefuses) nofun
  | none =>
    rw [and_iff_right rfl, ← hend]
    refine Iff.trans ?_ hreuse
    unfold addWorktree
    simp only [runs_bind, runs_get]
    constructor
    · rintro ⟨_, _, ⟨rfl, rfl⟩, h⟩
      rw [hrefuses] at h
      simp only [runs_bind, runs_get, runs_observe, runs_effect] at h
      obtain ⟨_, _, rfl, worktrees, _, ⟨hlist, rfl⟩, _, _, ⟨rfl, rfl⟩, hrun⟩ := h
      rw [hregistrations] at hlist
      cases hlist
      rw [hregistered] at hrun
      exact hrun
    · intro hrun
      refine ⟨_, _, ⟨rfl, rfl⟩, ?_⟩
      rw [hrefuses]
      simp only [runs_bind, runs_get, runs_observe, runs_effect]
      refine ⟨(), _, rfl, _, _, ⟨hregistrations, rfl⟩, _, _, ⟨rfl, rfl⟩, ?_⟩
      rw [hregistered]
      exact hrun

omit [Project] in
theorem runs_removeWorktree {command : GitCommand} {failure : String → String} :
    Runs (removeWorktree command failure) c () t
      ↔ c.removeRefusal command = none ∧ c.dropWorktree = t := by
  unfold removeWorktree
  simp only [runs_bind, runs_get]
  constructor
  · rintro ⟨_, _, ⟨rfl, rfl⟩, h⟩
    split at h
    · exact absurd h runs_raise
    · rename_i hrefusal
      exact ⟨hrefusal, (runs_effect.mp h).symm⟩
  · rintro ⟨hrefusal, rfl⟩
    refine ⟨_, _, ⟨rfl, rfl⟩, ?_⟩
    rw [hrefusal]
    exact runs_effect.mpr rfl

omit [Project] in
theorem get_dropWorktree (c : WorkspaceSite) :
    c.dropWorktree.worktrees.get c.dropWorktree.resolved = none :=
  Dict.get_erase_self ..

/-- Where nothing is at the path, a registration is pruned and a worktree added. -/
theorem runs_materialize {workspace : ExecutionWorkspace} (hlisted : c.unlisted = none)
    (hhead : c.refs (Git.branchRef (executionBranchOf ticketId)) = some base)
    (hcontent : c.content = .absent) :
    Runs (materialize ticketId base (c.worktrees.get c.resolved)) c workspace t
      ↔ ((c.worktrees.get c.resolved).isSome → c.refuses .removeWorktree = none)
        ∧ c.refuses .addWorktree = none ∧ (c.submodulesOf base).prepared = .ok ()
        ∧ workspace = ⟨ticketId, executionBranchOf ticketId, executionPathOf ticketId, base, base,
          false⟩
        ∧ t = c.rebuilt ticketId base := by
  unfold materialize
  simp only [runs_bind, runs_get]
  cases hregistered : c.worktrees.get c.resolved with
  | none =>
    have hadd := @runs_addWorktree ticketId base c t _ workspace hlisted hregistered hhead
    rw [← hadd]
    constructor
    · rintro ⟨_, _, ⟨rfl, rfl⟩, h⟩
      rw [hcontent] at h
      exact ⟨nofun, h⟩
    · rintro ⟨-, h⟩
      refine ⟨_, _, ⟨rfl, rfl⟩, ?_⟩
      rw [hcontent]
      exact h
  | some registration =>
    have hfree := get_dropWorktree c
    have hrebuilt : c.dropWorktree.rebuilt ticketId base = c.rebuilt ticketId base := by
      unfold rebuilt dropWorktree Dict.set Dict.erase
      simp only [List.filter_filter, Bool.and_self]
    have hrefusal : c.removeRefusal .removeWorktree = c.refuses .removeWorktree := by
      unfold removeRefusal
      rw [hcontent]
      cases c.refuses .removeWorktree <;> rfl
    have hadd := @runs_addWorktree ticketId base c.dropWorktree t _ workspace hlisted hfree hhead
    rw [hrebuilt] at hadd
    constructor
    · rintro ⟨_, _, ⟨rfl, rfl⟩, h⟩
      rw [hcontent] at h
      simp only [runs_bind] at h
      obtain ⟨_, _, hremove, hrun⟩ := h
      obtain ⟨hrefuses, rfl⟩ := runs_removeWorktree.mp hremove
      rw [hrefusal] at hrefuses
      exact ⟨fun _ => hrefuses, hadd.mp hrun⟩
    · rintro ⟨hrefuses, h⟩
      refine ⟨_, _, ⟨rfl, rfl⟩, ?_⟩
      rw [hcontent]
      simp only [runs_bind]
      exact ⟨(), _, runs_removeWorktree.mpr ⟨hrefusal.trans (hrefuses rfl), rfl⟩, hadd.mpr h⟩

omit [Project] in
@[simp] theorem refs_setRef_self (ref commit : String) (c : WorkspaceSite) :
    (c.setRef ref commit).refs ref = some commit :=
  Function.update_self ..

omit [Project] in
theorem refs_setRef_of_ne {ref other : String} (commit : String) (c : WorkspaceSite)
    (h : other ≠ ref) : (c.setRef ref commit).refs other = c.refs other :=
  Function.update_of_ne h ..

omit [Project] in
theorem setRef_eq_self {ref commit : String} (h : c.refs ref = some commit) :
    c.setRef ref commit = c := by
  unfold setRef
  rw [← h, Function.update_eq_self]

omit [Project] in
/-- The branch is there afterwards, at `base` if it was not there before. -/
theorem runs_ensureBranch (hhead : ∀ head,
    c.refs (Git.branchRef (executionBranchOf ticketId)) = some head → head = base) :
    Runs (ensureBranch ticketId base) c () t
      ↔ (c.refs (Git.branchRef (executionBranchOf ticketId)) = none → c.refuses .branch = none)
        ∧ c.setRef (Git.branchRef (executionBranchOf ticketId)) base = t := by
  unfold ensureBranch
  simp only [runs_bind, runs_get]
  cases hrefs : c.refs (Git.branchRef (executionBranchOf ticketId)) with
  | some head =>
    obtain rfl := hhead head hrefs
    rw [setRef_eq_self hrefs]
    constructor
    · rintro ⟨_, _, ⟨rfl, rfl⟩, h⟩
      rw [hrefs] at h
      exact ⟨nofun, (runs_pure.mp h).2⟩
    · rintro ⟨-, rfl⟩
      refine ⟨_, _, ⟨rfl, rfl⟩, ?_⟩
      rw [hrefs]
      exact runs_pure.mpr ⟨rfl, rfl⟩
  | none =>
    constructor
    · rintro ⟨_, _, ⟨rfl, rfl⟩, h⟩
      rw [hrefs] at h
      cases hrefuses : c.refuses .branch with
      | some stderr =>
        rw [hrefuses] at h
        exact absurd h runs_raise
      | none =>
        rw [hrefuses] at h
        exact ⟨fun _ => rfl, (runs_effect.mp h).symm⟩
    · rintro ⟨hrefuses, rfl⟩
      refine ⟨_, _, ⟨rfl, rfl⟩, ?_⟩
      rw [hrefs, hrefuses rfl]
      exact runs_effect.mpr rfl

/-- Nothing stands in the way of a fresh worktree at the path. -/
structure Preparable (ticketId base : String) (c : WorkspaceSite) : Prop where
  root : c.rootLinked = false
  path : c.pathLinked = false
  branch : c.refs (Git.branchRef (executionBranchOf ticketId)) = none → c.refuses .branch = none
  stale : (c.worktrees.get c.resolved).isSome → c.refuses .removeWorktree = none
  add : c.refuses .addWorktree = none
  submodules : (c.submodulesOf base).prepared = .ok ()

/-- A path with nothing on it, and a branch that is missing or at `base`. -/
structure Vacant (ticketId base : String) (c : WorkspaceSite) : Prop where
  available : c.available base = true
  listed : c.unlisted = none
  head : ∀ head, c.refs (Git.branchRef (executionBranchOf ticketId)) = some head → head = base
  attached : (attachedAt c.worktrees (executionBranchOf ticketId)).all (· = c.resolved) = true
  content : c.content = .absent

/-- **Preparation.** Where there is nothing yet, `prepare` makes a fresh worktree. -/
theorem runs_prepare {workspace : ExecutionWorkspace} (h : c.Vacant ticketId base) :
    Runs (prepare graph ticketId base) c workspace t ↔ c.Preparable ticketId base
      ∧ workspace = ⟨ticketId, executionBranchOf ticketId, executionPathOf ticketId, base, base,
          false⟩
      ∧ t = c.rebuilt ticketId base := by
  have hhead : (c.setRef (Git.branchRef (executionBranchOf ticketId)) base).refs
      (Git.branchRef (executionBranchOf ticketId)) = some base := refs_setRef_self ..
  have hbranch : (c.setRef (Git.branchRef (executionBranchOf ticketId)) base).validateBranch graph
      ticketId base = .ok () :=
    validateBranch_eq_ok.mpr ⟨base, hhead, Git.CommitGraph.isAncestor_of_reaches .refl⟩
  have hregistrations : (c.setRef (Git.branchRef (executionBranchOf ticketId)) base).registrations
      = .ok c.worktrees := registrations_eq_ok.mpr ⟨h.listed, rfl⟩
  have hend : (c.setRef (Git.branchRef (executionBranchOf ticketId)) base).rebuilt ticketId base
      = c.rebuilt ticketId base := by
    unfold rebuilt setRef
    rw [Function.update_idem]
  have hmaterialize := @runs_materialize ticketId base
    (c.setRef (Git.branchRef (executionBranchOf ticketId)) base) t _ workspace h.listed hhead
    h.content
  rw [hend] at hmaterialize
  unfold prepare
  simp only [runs_bind, runs_get, runs_observe, runs_ensure]
  constructor
  · rintro ⟨_, _, ⟨-, rfl⟩, _, _, ⟨rfl, rfl⟩, _, _, ⟨hroot, rfl⟩, _, d, hensure, _, _, ⟨-, rfl⟩, _,
      _, ⟨hlist, rfl⟩, _, _, ⟨rfl, rfl⟩, _, _, ⟨-, rfl⟩, _, _, ⟨hpath, rfl⟩, hrun⟩
    obtain ⟨hrefuses, rfl⟩ := (runs_ensureBranch h.head).mp hensure
    rw [hregistrations] at hlist
    cases hlist
    obtain ⟨hstale, hadd, hsubmodules, hworkspace, ht⟩ := hmaterialize.mp hrun
    exact ⟨⟨hroot, hpath, hrefuses, hstale, hadd, hsubmodules⟩, hworkspace, ht⟩
  · rintro ⟨hready, hworkspace, ht⟩
    exact ⟨(), _, ⟨validateBase_eq_ok.mpr h.available, rfl⟩, _, _, ⟨rfl, rfl⟩, (), _,
      ⟨hready.root, rfl⟩, (), _, (runs_ensureBranch h.head).mpr ⟨hready.branch, rfl⟩, (), _,
      ⟨hbranch, rfl⟩, _, _, ⟨hregistrations, rfl⟩, _, _, ⟨rfl, rfl⟩, (), _, ⟨h.attached, rfl⟩, (), _,
      ⟨hready.path, rfl⟩, hmaterialize.mpr ⟨hready.stale, hready.add, hready.submodules, hworkspace,
        ht⟩⟩

end Manager

end WorkspaceSite

end Devlegate
