import Devlegate.RepairRuns

namespace Devlegate

open Crash

/-!
# Operator recovery of a workspace

An unsafe binding is recovered only for the head that the operator has named.  The command is stored
first; every iteration then runs the recovery again until it has cleared the record.

* `recoverUnsafe`: `_recover_unsafe_bound_execution_workspace`.
* `recoverPending`: what an iteration does with a stored recovery.
* `runs_recoverBinding`: when a recovery ends, and what it leaves.
* `sat_recoverBinding`: the states it passes through.
-/

/-- The two pushes of a recovery. -/
inductive PushCommand where
  | publish
  | retire
  deriving DecidableEq, Repr

/-- The remote.  `unreachable` is what `ls-remote` says that fails. -/
structure RemoteSite where
  refs : String → Option String
  unreachable : Option String := none
  refuses : PushCommand → Bool := fun _ => false

/-- The stored state, the clone and the remote.  Remote-tracking refs are not among the refs of the
    clone: nothing here reads one. -/
structure RecoverySite where
  state : RuntimeState
  clone : WorkspaceSite
  remote : RemoteSite

/-- A push that is no force moves a ref forward only. -/
def RemoteSite.accepts (graph : Git.CommitGraph) (ref commit : String) (r : RemoteSite) : Bool :=
  !r.refuses .publish && (r.refs ref).all fun old => graph.isAncestor old commit

def RemoteSite.setRef (ref commit : String) (r : RemoteSite) : RemoteSite :=
  { r with refs := Function.update r.refs ref (some commit) }

theorem RemoteSite.refs_setRef_self (ref commit : String) (r : RemoteSite) :
    (r.setRef ref commit).refs ref = some commit :=
  Function.update_self ..

theorem RemoteSite.refs_setRef_of_ne {ref other : String} (commit : String) (r : RemoteSite)
    (h : other ≠ ref) : (r.setRef ref commit).refs other = r.refs other :=
  Function.update_of_ne h ..

namespace WorkspaceSite

/-! ### In the clone -/

section Engine

variable [Project] (ticketId executionId base observedHead : String)

/-- The head of the branch is the one the operator has named, or an earlier attempt has pinned that
    one and moved the branch. -/
def authorize (c : WorkspaceSite) : Except String Bool :=
  let current := c.refs (Git.branchRef (executionBranchOf ticketId))
  let replay := decide (c.refs (operatorRecoveryRef ticketId executionId) = some observedHead
    ∧ current = some base)
  if current = some observedHead ∨ replay then .ok replay
  else .error "execution branch changed before explicit recovery"

/-- Pin the named head. -/
def pinAuthorized (ref head : String) : Program Unit := do
  let c ← .get
  match c.refs ref with
  | some pinned => .ensure (pinned = head) "operator recovery evidence has conflicting identity"
  | none =>
    match c.refuses .pin with
    | some _ => .raise "cannot preserve the authorized branch HEAD"
    | none => .effect (setRef ref head)

/-- Remove the worktree, if it is clean and at the head that is expected. -/
def removeAuthorized (expected : String) : Program Unit := do
  let registrations ← .observe registrations
  let c ← .get
  .ensure ((attachedAt registrations (executionBranchOf ticketId)).all (· = c.resolved))
    "execution branch is attached to an unexpected worktree"
  match registrations.get c.resolved with
  | none => .ensure (c.content.present = false) "execution worktree path is not safely registered"
  | some registration => do
    let workspace ← .observe (validateExisting ticketId expected (some registration))
    .ensure (workspace.head = expected ∧ workspace.dirty = false)
      "authorized execution worktree is not clean"
    removeWorktree .forceRemoveWorktree fun _ => "cannot remove authorized execution worktree"

/-- Move the branch, unless an earlier attempt has. -/
def moveAuthorized (replay : Bool) : Program Unit := do
  let c ← .get
  let current := c.refs (Git.branchRef (executionBranchOf ticketId))
  .ensure (current = some observedHead ∨ replay = true ∧ current = some base)
    "execution branch changed during explicit recovery"
  if current = some observedHead then do
    .ensure (c.available base = true ∧ c.refuses .move = none)
      "execution branch changed before explicit recovery CAS"
    .effect (setRef (Git.branchRef (executionBranchOf ticketId)) base)
  else pure ()

/-- The ref that keeps a head of the remote branch: that of the one execution that ended there, or
    that of the named head. -/
def remoteEvidence (head : String) (c : WorkspaceSite) : Except String String :=
  match c.reports with
  | .error message => .error ("cannot prove prior remote branch ownership: " ++ message)
  | .ok reports =>
    match priorReports executionId (executionBranchOf ticketId) head reports with
    | [prior] => .ok (workspaceRecoveryRef ticketId prior.executionId)
    | _ => .ok (operatorRecoveryRef ticketId executionId)

end Engine

end WorkspaceSite

namespace RecoverySite

/-- A program on the state, the clone and the remote. -/
abbrev Program := Crash.Program RecoverySite String

/-- A program of the clone. -/
def inClone {α : Type} (c : WorkspaceSite.Program α) : Program α :=
  c.zoom clone (fun clone c => { c with clone := clone }) id

def setRemote (ref commit : String) (c : RecoverySite) : RecoverySite :=
  { c with remote := c.remote.setRef ref commit }

/-! ### The recovery -/

section Engine

variable [Sha256] [Project] (graph : Git.CommitGraph)
  (ticketId executionId base observedHead : String)

/-- `_execution_remote_head`. -/
def executionRemoteHead (branch : String) (c : RecoverySite) : Except String (Option String) :=
  match c.remote.unreachable with
  | some stderr => .error (if stderr = "" then "cannot observe execution branch remote" else stderr)
  | none => .ok (c.remote.refs (Git.branchRef branch))

/-- Pin a head of the remote branch and publish the pin. -/
def publishEvidence (ref head : String) : Program Unit := do
  let c ← .get
  match c.clone.refs ref with
  | some pinned => .ensure (pinned = head) "operator recovery evidence has conflicting identity"
  | none => do
    .ensure (c.clone.available head = true ∧ c.clone.refuses .pin = none)
      "cannot preserve the remote branch HEAD"
    inClone (.effect (WorkspaceSite.setRef ref head))
    .ensure (c.remote.accepts graph ref head = true) "cannot publish remote recovery evidence"
    .effect (setRemote ref head)

/-- Move the remote branch to the base, with a lease on `head`. -/
def retireRemote (head : String) : Program Unit := do
  let branch := executionBranchOf ticketId
  let ref ← .observe fun c => c.clone.remoteEvidence ticketId executionId head
  publishEvidence graph ref head
  let again ← .observe (executionRemoteHead branch)
  .ensure (again = some head) "execution remote branch changed before recovery CAS"
  let c ← .get
  .ensure (c.clone.available base = true ∧ c.remote.refuses .retire = false)
    "execution remote branch changed before recovery CAS"
  .effect (setRemote (Git.branchRef branch) base)

/-- The remote branch is missing or at the base afterwards. -/
def reconcileRemote : Program Unit := do
  match ← .observe (executionRemoteHead (executionBranchOf ticketId)) with
  | some head => if head = base then pure () else retireRemote graph ticketId executionId base head
  | none => pure ()

/-- The save that ends a recovery. -/
def saveRecovered (remoteHead : Option String) : Program Unit := do
  let state ← .observe fun c => saveState (Call.recovered remoteHead) c.state
  .effect fun c => { c with state := state }

/-- `_recover_unsafe_bound_execution_workspace` once the binding is there. -/
def recoverBinding : Program Unit := do
  let branch := executionBranchOf ticketId
  let replay ← .observe fun c => c.clone.authorize ticketId executionId base observedHead
  inClone (WorkspaceSite.pinAuthorized (operatorRecoveryRef ticketId executionId) observedHead)
  reconcileRemote graph ticketId executionId base
  inClone (WorkspaceSite.removeAuthorized ticketId (if replay then base else observedHead))
  inClone (WorkspaceSite.moveAuthorized ticketId base observedHead replay)
  let repaired ← inClone (WorkspaceSite.prepare graph ticketId base)
  let final := (← .get).clone.inspect graph ticketId base (some repaired.head)
  .ensure (final.classification = .reusable)
    ("recovered execution workspace is not reusable: " ++ final.reason)
  let remoteHead ← .observe (executionRemoteHead branch)
  .ensure (remoteHead = none ∨ remoteHead = some base)
    "execution remote branch changed during explicit recovery"
  saveRecovered remoteHead

/-- `_recover_unsafe_bound_execution_workspace`. -/
def recoverUnsafe : Program Unit := do
  let s := (← .get).state
  .ensure ([s.executionBaseHead, s.executionBranch, s.executionPath].all nonEmpty = true)
    "persisted execution workspace identity is incomplete"
  .ensure (isCanonicalTicketName (ticketId ++ ".md") = true) (invalidTicketId ticketId)
  .ensure (s.managed ticketId = true) "persisted execution workspace binding is invalid"
  recoverBinding graph ticketId executionId (s.executionBaseHead.getD "") observedHead

/-- What an iteration does with a stored recovery.  Without one it goes on to what is not looked at
    here. -/
def recoverPending : Program Unit := do
  let s := (← .get).state
  match s.phase, s.operatorRecovery with
  | .agentPending, some recovery => do
    .ensure ([some recovery.ticketId, recovery.executionId, recovery.observedHead].all nonEmpty = true)
      "persisted operator recovery identity is incomplete"
    recoverUnsafe graph recovery.ticketId (recovery.executionId.getD "")
      (recovery.observedHead.getD "")
  | _, _ => pure ()

end Engine

end RecoverySite

namespace WorkspaceSite

/-! ### Each part of a recovery -/

section Parts

variable {ticketId executionId base observedHead : String} {replay : Bool} {c t : WorkspaceSite}

theorem authorize_eq_ok : c.authorize ticketId executionId base observedHead = .ok replay ↔
    (c.refs (Git.branchRef (executionBranchOf ticketId)) = some observedHead ∨ replay = true)
      ∧ replay = decide (c.refs (operatorRecoveryRef ticketId executionId) = some observedHead
        ∧ c.refs (Git.branchRef (executionBranchOf ticketId)) = some base) := by
  unfold authorize
  dsimp only
  split
  · rename_i hauthorized
    constructor
    · intro h
      cases h
      exact ⟨hauthorized, rfl⟩
    · rintro ⟨-, rfl⟩
      rfl
  · rename_i hnot
    refine iff_of_false nofun ?_
    rintro ⟨hauthorized, rfl⟩
    exact hnot hauthorized

theorem pinAuthorized_alike (ref head : String) :
    Alike (pinAuthorized ref head) (preserve ref head) := by
  unfold pinAuthorized preserve
  refine .bind (.refl _) fun c => ?_
  cases c.refs ref with
  | some pinned => exact .ensure
  | none =>
    cases c.refuses .pin with
    | some stderr => exact .raise
    | none => exact .refl _

/-- The ref for a head of the remote branch is a recovery ref. -/
theorem isRecoveryRef_of_remoteEvidence {head ref : String}
    (h : c.remoteEvidence ticketId executionId head = .ok ref) : IsRecoveryRef ticketId ref := by
  unfold remoteEvidence at h
  split at h
  · cases h
  · split at h
    · cases h
      exact isRecoveryRef_workspace ..
    · cases h
      exact isRecoveryRef_operator ..

theorem removeWorktree_alike (command : GitCommand) (f g : String → String) :
    Alike (removeWorktree command f) (removeWorktree command g) := by
  unfold removeWorktree
  refine .bind (.refl _) fun c => ?_
  cases c.removeRefusal command with
  | some stderr => exact .raise
  | none => exact .refl _

theorem removeAuthorized_alike [Project] (ticketId expected : String) :
    Alike (removeAuthorized ticketId expected) (removeConflicting ticketId expected) := by
  unfold removeAuthorized removeConflicting
  refine .bind (.refl _) fun worktrees => .bind (.refl _) fun c => .bind .ensure fun _ => ?_
  cases worktrees.get c.resolved with
  | none => exact .ensure
  | some registration => exact .bind (.refl _) fun workspace => .bind .ensure fun _ => removeWorktree_alike _ _ _

theorem runs_moveAuthorized : Runs (moveAuthorized ticketId base observedHead replay) c () t ↔
    (c.refs (Git.branchRef (executionBranchOf ticketId)) = some observedHead
        ∧ c.available base = true ∧ c.refuses .move = none
      ∨ replay = true ∧ c.refs (Git.branchRef (executionBranchOf ticketId)) = some base
        ∧ base ≠ observedHead)
      ∧ c.setRef (Git.branchRef (executionBranchOf ticketId)) base = t := by
  unfold moveAuthorized
  simp only [runs_bind, runs_get, runs_ensure]
  constructor
  · rintro ⟨_, _, ⟨rfl, rfl⟩, _, _, ⟨hcurrent, rfl⟩, h⟩
    split at h
    · rename_i hobserved
      obtain ⟨_, _, hensure, h⟩ := runs_bind.mp h
      obtain ⟨hmove, rfl⟩ := runs_ensure.mp hensure
      exact ⟨.inl ⟨hobserved, hmove⟩, (runs_effect.mp h).symm⟩
    · rename_i hnot
      obtain ⟨-, rfl⟩ := runs_pure.mp h
      obtain ⟨hreplay, hbase⟩ := hcurrent.resolve_left hnot
      refine ⟨.inr ⟨hreplay, hbase, ?_⟩, setRef_eq_self hbase⟩
      rintro rfl
      exact hnot hbase
  · rintro ⟨⟨hobserved, hmove⟩ | ⟨hreplay, hbase, hne⟩, rfl⟩
    · refine ⟨_, _, ⟨rfl, rfl⟩, (), _, ⟨.inl hobserved, rfl⟩, ?_⟩
      rw [if_pos hobserved]
      exact runs_bind.mpr ⟨(), _, runs_ensure.mpr ⟨hmove, rfl⟩, runs_effect.mpr rfl⟩
    · refine ⟨_, _, ⟨rfl, rfl⟩, (), _, ⟨.inr ⟨hreplay, hbase⟩, rfl⟩, ?_⟩
      rw [if_neg fun h => hne (Option.some.inj (hbase.symm.trans h))]
      exact runs_pure.mpr ⟨rfl, (setRef_eq_self hbase).symm⟩

theorem sat_moveAuthorized
    (h : c.refs (Git.branchRef (executionBranchOf ticketId)) = some observedHead
        ∧ c.available base = true ∧ c.refuses .move = none
      ∨ replay = true ∧ c.refs (Git.branchRef (executionBranchOf ticketId)) = some base
        ∧ base ≠ observedHead) :
    Sat (fun u => u = c.setRef (Git.branchRef (executionBranchOf ticketId)) base)
      (moveAuthorized ticketId base observedHead replay)
      (fun _ u => u = c.setRef (Git.branchRef (executionBranchOf ticketId)) base)
      (fun _ _ => False) c := by
  unfold moveAuthorized
  rcases h with ⟨hobserved, hready⟩ | ⟨hreplay, hbase, hne⟩
  · refine .bind (.get (.bind (.ensure (fun _ => ?_) fun hnot => hnot (.inl hobserved))))
    rw [if_pos hobserved]
    exact .bind (.ensure (fun _ => .effect rfl rfl) fun hnot => hnot hready)
  · refine .bind (.get (.bind (.ensure (fun _ => ?_) fun hnot => hnot (.inr ⟨hreplay, hbase⟩))))
    rw [if_neg fun h => hne (Option.some.inj (hbase.symm.trans h))]
    exact .pure (setRef_eq_self hbase).symm

end Parts

end WorkspaceSite

namespace RecoverySite

/-! ### The remote branch -/

section Remote

variable {graph : Git.CommitGraph} {ticketId executionId base observedHead ref head : String}
  {α : Type} {p : WorkspaceSite.Program α} {a : α} {c t : RecoverySite}

theorem runs_inClone : Runs (inClone p) c a t ↔ ∃ clone, Runs p c.clone a clone
    ∧ { c with clone := clone } = t :=
  runs_zoom rfl

theorem executionRemoteHead_eq_ok {branch : String} {head : Option String} :
    executionRemoteHead branch c = .ok head ↔ c.remote.unreachable = none
      ∧ head = c.remote.refs (Git.branchRef branch) := by
  unfold executionRemoteHead
  cases c.remote.unreachable with
  | some stderr => exact iff_of_false nofun nofun
  | none => simp [eq_comm]

/-- The head under its ref, here and on the remote. -/
def published (ref head : String) (c : RecoverySite) : RecoverySite :=
  { c with clone := c.clone.setRef ref head, remote := c.remote.setRef ref head }

/-- A head that is pinned is not published again. -/
def keepEvidence (ref head : String) (c : RecoverySite) : RecoverySite :=
  if c.clone.refs ref = none then c.published ref head else c

/-- The head is pinned, or it can be pinned and published. -/
def Publishable (graph : Git.CommitGraph) (ref head : String) (c : RecoverySite) : Prop :=
  c.clone.refs ref = some head ∨ c.clone.refs ref = none ∧ c.clone.available head = true
    ∧ c.clone.refuses .pin = none ∧ c.remote.accepts graph ref head = true

theorem runs_publishEvidence : Runs (publishEvidence graph ref head) c () t
    ↔ c.Publishable graph ref head ∧ c.keepEvidence ref head = t := by
  unfold publishEvidence Publishable keepEvidence
  rw [runs_bind]
  simp only [runs_get]
  cases hrefs : c.clone.refs ref with
  | some pinned =>
    rw [if_neg (Option.some_ne_none pinned)]
    constructor
    · rintro ⟨_, _, ⟨rfl, rfl⟩, h⟩
      rw [hrefs] at h
      obtain ⟨rfl, rfl⟩ := runs_ensure.mp h
      exact ⟨.inl rfl, rfl⟩
    · rintro ⟨hthere | ⟨hnone, -⟩, rfl⟩
      · cases hthere
        refine ⟨_, _, ⟨rfl, rfl⟩, ?_⟩
        rw [hrefs]
        exact runs_ensure.mpr ⟨rfl, rfl⟩
      · cases hnone
  | none =>
    rw [if_pos rfl]
    constructor
    · rintro ⟨_, _, ⟨rfl, rfl⟩, h⟩
      rw [hrefs] at h
      simp only [runs_bind, runs_ensure, runs_inClone] at h
      obtain ⟨_, _, ⟨⟨havailable, hpin⟩, rfl⟩, _, _, ⟨_, heffect, rfl⟩, _, _, ⟨haccepts, rfl⟩, h⟩ := h
      obtain rfl := runs_effect.mp heffect
      exact ⟨.inr ⟨rfl, havailable, hpin, haccepts⟩, (runs_effect.mp h).symm⟩
    · rintro ⟨hthere | ⟨-, havailable, hpin, haccepts⟩, rfl⟩
      · cases hthere
      · refine ⟨_, _, ⟨rfl, rfl⟩, ?_⟩
        rw [hrefs]
        simp only [runs_bind, runs_ensure, runs_inClone]
        exact ⟨(), _, ⟨⟨havailable, hpin⟩, rfl⟩, (), _, ⟨_, runs_effect.mpr rfl, rfl⟩, (), _,
          ⟨haccepts, rfl⟩, runs_effect.mpr rfl⟩

/-- Evidence is no branch: publishing it leaves the branches of the remote. -/
theorem remote_keepEvidence_of_ne {other : String} (h : other ≠ ref) :
    (c.keepEvidence ref head).remote.refs other = c.remote.refs other := by
  unfold keepEvidence
  split
  · exact Function.update_of_ne h ..
  · rfl

theorem keepEvidence_frame : (c.keepEvidence ref head).remote.unreachable = c.remote.unreachable
    ∧ (c.keepEvidence ref head).clone.available = c.clone.available
    ∧ (c.keepEvidence ref head).remote.refuses = c.remote.refuses := by
  unfold keepEvidence
  split <;> exact ⟨rfl, rfl, rfl⟩

theorem runs_retireRemote
    (hhead : c.remote.refs (Git.branchRef (executionBranchOf ticketId)) = some head) :
    Runs (retireRemote graph ticketId executionId base head) c () t
      ↔ c.remote.unreachable = none ∧ ∃ ref,
        c.clone.remoteEvidence ticketId executionId head = .ok ref ∧ c.Publishable graph ref head
          ∧ c.clone.available base = true ∧ c.remote.refuses .retire = false
          ∧ (c.keepEvidence ref head).setRemote (Git.branchRef (executionBranchOf ticketId)) base
            = t := by
  unfold retireRemote
  simp only [runs_bind, runs_get, runs_observe, runs_ensure]
  constructor
  · rintro ⟨ref, _, ⟨hevidence, rfl⟩, _, _, hpublish, _, _, ⟨hagain, rfl⟩, _, _, ⟨-, rfl⟩, _, _,
      ⟨rfl, rfl⟩, _, _, ⟨⟨havailable, hretire⟩, rfl⟩, h⟩
    obtain ⟨hpublishable, rfl⟩ := runs_publishEvidence.mp hpublish
    obtain ⟨hreachable, -⟩ := executionRemoteHead_eq_ok.mp hagain
    obtain ⟨hunreachable, havailable', hrefuses⟩ := @keepEvidence_frame ref head c
    exact ⟨hunreachable ▸ hreachable, ref, hevidence, hpublishable, havailable' ▸ havailable,
      hrefuses ▸ hretire, (runs_effect.mp h).symm⟩
  · rintro ⟨hreachable, ref, hevidence, hpublishable, havailable, hretire, rfl⟩
    have hbranch := (WorkspaceSite.isRecoveryRef_of_remoteEvidence hevidence).branchRef_ne
      (executionBranchOf ticketId)
    obtain ⟨hunreachable, havailable', hrefuses⟩ := @keepEvidence_frame ref head c
    have hagain : executionRemoteHead (executionBranchOf ticketId) (c.keepEvidence ref head)
        = .ok (some head) :=
      executionRemoteHead_eq_ok.mpr ⟨hunreachable ▸ hreachable,
        ((remote_keepEvidence_of_ne hbranch).trans hhead).symm⟩
    exact ⟨ref, _, ⟨hevidence, rfl⟩, (), _, runs_publishEvidence.mpr ⟨hpublishable, rfl⟩, _, _,
      ⟨hagain, rfl⟩, (), _, ⟨rfl, rfl⟩, _, _, ⟨rfl, rfl⟩, (), _,
      ⟨⟨havailable' ▸ havailable, hrefuses ▸ hretire⟩, rfl⟩, runs_effect.mpr rfl⟩

/-- A head of the remote branch other than the base can be kept and replaced. -/
structure Reconcilable (graph : Git.CommitGraph) (ticketId executionId base : String)
    (c : RecoverySite) : Prop where
  reachable : c.remote.unreachable = none
  retire : ∀ head, c.remote.refs (Git.branchRef (executionBranchOf ticketId)) = some head →
    head ≠ base → ∃ ref, c.clone.remoteEvidence ticketId executionId head = .ok ref
      ∧ c.Publishable graph ref head ∧ c.clone.available base = true
      ∧ c.remote.refuses .retire = false

/-- The remote branch at the base, and the evidence for what it was. -/
def reconciled (ticketId executionId base : String) (c : RecoverySite) : RecoverySite :=
  match c.remote.refs (Git.branchRef (executionBranchOf ticketId)) with
  | some head =>
    if head = base then c
    else match c.clone.remoteEvidence ticketId executionId head with
      | .ok ref => (c.keepEvidence ref head).setRemote
          (Git.branchRef (executionBranchOf ticketId)) base
      | .error _ => c
  | none => c

theorem reconciled_of_eq {base : String}
    (h : ∀ head, c.remote.refs (Git.branchRef (executionBranchOf ticketId)) = some head →
      head = base) : c.reconciled ticketId executionId base = c := by
  unfold reconciled
  split
  · rename_i head hhead
    rw [if_pos (h head hhead)]
  · rfl

theorem reconciled_of_ne {base : String}
    (hhead : c.remote.refs (Git.branchRef (executionBranchOf ticketId)) = some head)
    (hne : head ≠ base) (hevidence : c.clone.remoteEvidence ticketId executionId head = .ok ref) :
    c.reconciled ticketId executionId base
      = (c.keepEvidence ref head).setRemote (Git.branchRef (executionBranchOf ticketId)) base := by
  unfold reconciled
  rw [hhead]
  dsimp only
  rw [if_neg hne, hevidence]

theorem runs_reconcileRemote : Runs (reconcileRemote graph ticketId executionId base) c () t
    ↔ c.Reconcilable graph ticketId executionId base
      ∧ c.reconciled ticketId executionId base = t := by
  unfold reconcileRemote
  simp only [runs_bind, runs_observe]
  constructor
  · rintro ⟨_, _, ⟨hobserve, rfl⟩, h⟩
    obtain ⟨hreachable, rfl⟩ := executionRemoteHead_eq_ok.mp hobserve
    cases hhead : c.remote.refs (Git.branchRef (executionBranchOf ticketId)) with
    | none =>
      rw [hhead] at h
      obtain ⟨-, rfl⟩ := runs_pure.mp h
      refine ⟨⟨hreachable, fun head hsome => ?_⟩, reconciled_of_eq fun head hsome => ?_⟩
      · rw [hhead] at hsome
        cases hsome
      · rw [hhead] at hsome
        cases hsome
    | some head =>
      rw [hhead] at h
      dsimp only at h
      by_cases hbase : head = base
      · rw [if_pos hbase] at h
        obtain ⟨-, rfl⟩ := runs_pure.mp h
        have hsame : ∀ head',
            c.remote.refs (Git.branchRef (executionBranchOf ticketId)) = some head' →
              head' = base := by
          intro head' hsome
          rw [hhead] at hsome
          exact (Option.some.inj hsome).symm.trans hbase
        exact ⟨⟨hreachable, fun head' hsome hne => absurd (hsame head' hsome) hne⟩,
          reconciled_of_eq hsame⟩
      · rw [if_neg hbase] at h
        obtain ⟨-, ref, hevidence, hpublishable, havailable, hretire, rfl⟩ :=
          (runs_retireRemote hhead).mp h
        refine ⟨⟨hreachable, fun head' hsome _ => ?_⟩, reconciled_of_ne hhead hbase hevidence⟩
        rw [hhead] at hsome
        cases hsome
        exact ⟨ref, hevidence, hpublishable, havailable, hretire⟩
  · rintro ⟨h, rfl⟩
    refine ⟨_, _, ⟨executionRemoteHead_eq_ok.mpr ⟨h.reachable, rfl⟩, rfl⟩, ?_⟩
    cases hhead : c.remote.refs (Git.branchRef (executionBranchOf ticketId)) with
    | none =>
      refine runs_pure.mpr ⟨rfl, (reconciled_of_eq fun head hsome => ?_).symm⟩
      rw [hhead] at hsome
      cases hsome
    | some head =>
      dsimp only
      by_cases hbase : head = base
      · rw [if_pos hbase]
        refine runs_pure.mpr ⟨rfl, (reconciled_of_eq fun head' hsome => ?_).symm⟩
        rw [hhead] at hsome
        exact (Option.some.inj hsome).symm.trans hbase
      · rw [if_neg hbase]
        obtain ⟨ref, hevidence, hpublishable, havailable, hretire⟩ := h.retire head hhead hbase
        exact (runs_retireRemote hhead).mpr ⟨h.reachable, ref, hevidence, hpublishable, havailable,
          hretire, (reconciled_of_ne hhead hbase hevidence).symm⟩

end Remote

end RecoverySite

/-! ### The whole recovery -/

/-- A worktree that can be taken away and made anew at the base. -/
structure WorkspaceSite.Rebuildable (ticketId base : String) (c : WorkspaceSite) : Prop where
  removable : c.Removable ticketId
  exclusive : ∀ entry ∈ c.worktrees, entry.2 = .branch (executionBranchOf ticketId) →
    entry.1 = c.resolved
  available : c.available base = true
  root : c.rootLinked = false
  path : c.pathLinked = false
  add : c.refuses .addWorktree = none
  submodules : (c.submodulesOf base).prepared = .ok ()

/-- Refs do not matter to it. -/
theorem WorkspaceSite.rebuildable_refs_iff {ticketId base : String} {c : WorkspaceSite}
    {refs : String → Option String} :
    ({ c with refs := refs } : WorkspaceSite).Rebuildable ticketId base
      ↔ c.Rebuildable ticketId base := by
  constructor
  · intro h
    exact { h with removable := { h.removable with } }
  · intro h
    exact { h with removable := { h.removable with } }

/-- It can be made anew once it is gone. -/
theorem WorkspaceSite.Rebuildable.dropWorktree {ticketId base : String} {c : WorkspaceSite}
    (h : c.Rebuildable ticketId base) : c.dropWorktree.Rebuildable ticketId base :=
  { h with
    removable :=
      { listed := h.removable.listed
        attached := attached_dropWorktree_iff.mpr h.exclusive
        worktree := .inl ⟨get_dropWorktree c, rfl⟩ }
    exclusive := fun entry hentry => h.exclusive entry (List.mem_filter.mp hentry).1 }

/-- A fresh checkout can be taken away again. -/
theorem WorkspaceSite.Rebuildable.checkedOut {ticketId base : String} {c : WorkspaceSite}
    (h : c.Rebuildable ticketId base) (hremoves : c.refuses .forceRemoveWorktree = none)
    (submodules : Submodules) :
    ({ c with
      worktrees := c.worktrees.set c.resolved (.branch (executionBranchOf ticketId))
      content := .directory { gitdir := some c.resolved, submodules := submodules } } :
        WorkspaceSite).Rebuildable ticketId base := by
  refine { h with removable := ⟨h.removable.listed, ?_, ?_⟩, exclusive := ?_ }
  · unfold attachedAt Dict.set
    simp
  · exact .inr ⟨Dict.get_set_self .., ⟨_, rfl, rfl, rfl⟩, hremoves⟩
  · intro entry hentry hbranch
    rcases List.mem_cons.mp hentry with rfl | hold
    · rfl
    · exact h.exclusive entry (List.mem_filter.mp hold).1 hbranch

theorem WorkspaceSite.Rebuildable.checkOut {ticketId base : String} {c : WorkspaceSite}
    (h : c.Rebuildable ticketId base) (hremoves : c.refuses .forceRemoveWorktree = none) :
    (c.checkOut (executionBranchOf ticketId)).Rebuildable ticketId base :=
  h.checkedOut hremoves _

theorem WorkspaceSite.Rebuildable.setRef {ticketId base : String} {c : WorkspaceSite}
    (h : c.Rebuildable ticketId base) (ref commit : String) :
    (c.setRef ref commit).Rebuildable ticketId base :=
  rebuildable_refs_iff.mpr h

namespace RecoverySite

section Recovery

variable {graph : Git.CommitGraph} {ticketId executionId base observedHead : String}
  {c r t : RecoverySite}

/-- The refs of the clone may differ, but no branch of the ticket, and nothing pinned is lost. -/
structure RefsOnly (ticketId : String) (c r : RecoverySite) : Prop where
  state : r.state = c.state
  clone : r.clone = { c.clone with refs := r.clone.refs }
  branch : r.clone.refs (Git.branchRef (executionBranchOf ticketId))
    = c.clone.refs (Git.branchRef (executionBranchOf ticketId))
  kept : ∀ ref head, c.clone.refs ref = some head → r.clone.refs ref = some head
  reachable : r.remote.unreachable = c.remote.unreachable

theorem RefsOnly.refl (ticketId : String) (c : RecoverySite) : RefsOnly ticketId c c :=
  ⟨rfl, rfl, rfl, fun _ _ h => h, rfl⟩

theorem refsOnly_keepEvidence {ref head : String} (h : IsRecoveryRef ticketId ref) :
    RefsOnly ticketId c (c.keepEvidence ref head) := by
  unfold keepEvidence
  split
  · rename_i hnone
    refine ⟨rfl, rfl, WorkspaceSite.refs_setRef_of_ne _ _ (h.branchRef_ne _), ?_, rfl⟩
    intro ref' head' hthere
    refine (WorkspaceSite.refs_setRef_of_ne _ _ ?_).trans hthere
    rintro rfl
    rw [hnone] at hthere
    cases hthere
  · exact .refl ticketId c

/-- The remote branch is settled already, or its head is kept and it moves. -/
theorem Reconcilable.cases (h : c.Reconcilable graph ticketId executionId base) :
    (∀ head, c.remote.refs (Git.branchRef (executionBranchOf ticketId)) = some head → head = base)
      ∧ c.reconciled ticketId executionId base = c
    ∨ ∃ head ref, c.remote.refs (Git.branchRef (executionBranchOf ticketId)) = some head
      ∧ head ≠ base ∧ c.clone.remoteEvidence ticketId executionId head = .ok ref
      ∧ c.Publishable graph ref head
      ∧ (c.clone.available base = true ∧ c.remote.refuses .retire = false)
      ∧ c.reconciled ticketId executionId base
        = (c.keepEvidence ref head).setRemote (Git.branchRef (executionBranchOf ticketId)) base := by
  by_cases hsettled : ∀ head,
      c.remote.refs (Git.branchRef (executionBranchOf ticketId)) = some head → head = base
  · exact .inl ⟨hsettled, reconciled_of_eq hsettled⟩
  · simp only [not_forall] at hsettled
    obtain ⟨head, hhead, hne⟩ := hsettled
    obtain ⟨ref, hevidence, hpublishable, hretire⟩ := h.retire head hhead hne
    exact .inr ⟨head, ref, hhead, hne, hevidence, hpublishable, hretire,
      reconciled_of_ne hhead hne hevidence⟩

theorem Reconcilable.refsOnly (h : c.Reconcilable graph ticketId executionId base) :
    RefsOnly ticketId c (c.reconciled ticketId executionId base) := by
  rcases h.cases with ⟨-, hend⟩ | ⟨head, ref, -, -, hevidence, -, -, hend⟩
  · rw [hend]
    exact .refl ticketId c
  · have hkept := @refsOnly_keepEvidence ticketId c ref head
      (WorkspaceSite.isRecoveryRef_of_remoteEvidence hevidence)
    rw [hend]
    exact ⟨hkept.state, hkept.clone, hkept.branch, hkept.kept, hkept.reachable⟩

/-- Behind the settlement the remote branch is missing or at the base. -/
theorem Reconcilable.remote_branch (h : c.Reconcilable graph ticketId executionId base) :
    (c.reconciled ticketId executionId base).remote.refs
        (Git.branchRef (executionBranchOf ticketId))
      = (c.remote.refs (Git.branchRef (executionBranchOf ticketId))).map fun _ => base := by
  rcases h.cases with ⟨hsettled, hend⟩ | ⟨head, ref, hhead, -, -, -, -, hend⟩
  · rw [hend]
    cases hhead : c.remote.refs (Git.branchRef (executionBranchOf ticketId)) with
    | none => rfl
    | some head =>
      rw [hsettled head hhead]
      rfl
  · rw [hend, hhead]
    exact RemoteSite.refs_setRef_self ..

/-- The named head under its ref. -/
def pinned (ticketId executionId observedHead : String) (c : RecoverySite) : RecoverySite :=
  { c with clone := c.clone.setRef (operatorRecoveryRef ticketId executionId) observedHead }

/-- What the remote branch is at the end. -/
def remaining (ticketId base : String) (c : RecoverySite) : Option String :=
  (c.remote.refs (Git.branchRef (executionBranchOf ticketId))).map fun _ => base

theorem remaining_eq : c.remaining ticketId base = none ∨ c.remaining ticketId base = some base := by
  unfold remaining
  cases c.remote.refs (Git.branchRef (executionBranchOf ticketId)) with
  | none => exact .inl rfl
  | some head => exact .inr rfl

variable [Sha256] [Project]

/-- A workspace that the recovery for the named head can rebuild. -/
structure Restorable (graph : Git.CommitGraph)
    (ticketId executionId base observedHead : String) (c : RecoverySite) : Prop where
  authorized : c.clone.refs (Git.branchRef (executionBranchOf ticketId)) = some observedHead
    ∨ c.clone.refs (operatorRecoveryRef ticketId executionId) = some observedHead
      ∧ c.clone.refs (Git.branchRef (executionBranchOf ticketId)) = some base
  evidence : c.clone.refs (operatorRecoveryRef ticketId executionId) = some observedHead
    ∨ c.clone.refs (operatorRecoveryRef ticketId executionId) = none ∧ c.clone.refuses .pin = none
  reconcilable : (c.pinned ticketId executionId observedHead).Reconcilable graph ticketId
    executionId base
  rebuildable : c.clone.Rebuildable ticketId base
  move : c.clone.refs (Git.branchRef (executionBranchOf ticketId)) = some observedHead →
    c.clone.refuses .move = none
  saved : validateStateInvariant ((Call.recovered (c.remaining ticketId base)).payload c.state)
    = .ok ()

omit [Sha256] [Project] in
/-- The named head is pinned and the remote branch is settled. -/
def settled (ticketId executionId base observedHead : String) (c : RecoverySite) : RecoverySite :=
  (c.pinned ticketId executionId observedHead).reconciled ticketId executionId base

omit [Sha256] [Project] in
/-- What the recovery leaves. -/
def recovered (ticketId executionId base observedHead : String) (c : RecoverySite) :
    RecoverySite where
  state := (Call.recovered (c.remaining ticketId base)).payload c.state
  clone := (c.settled ticketId executionId base observedHead).clone.rebuilt ticketId base
  remote := (c.settled ticketId executionId base observedHead).remote

omit [Project] in
theorem runs_saveRecovered {remoteHead : Option String} :
    Runs (saveRecovered remoteHead) c () t
      ↔ validateStateInvariant ((Call.recovered remoteHead).payload c.state) = .ok ()
        ∧ { c with state := (Call.recovered remoteHead).payload c.state } = t := by
  unfold saveRecovered
  simp only [runs_bind, runs_observe]
  constructor
  · rintro ⟨_, _, ⟨hsave, rfl⟩, h⟩
    obtain ⟨rfl, hvalid⟩ := saveState_eq_ok.mp hsave
    exact ⟨hvalid, (runs_effect.mp h).symm⟩
  · rintro ⟨hvalid, rfl⟩
    exact ⟨_, _, ⟨saveState_eq_ok.mpr ⟨rfl, hvalid⟩, rfl⟩, runs_effect.mpr rfl⟩

omit [Sha256] [Project] in
/-- The worktree is gone and the branch is at the base: the rest builds it anew. -/
theorem rebuilt_emptied (c : WorkspaceSite) :
    (WorkspaceSite.setRef (Git.branchRef (executionBranchOf ticketId)) base c.dropWorktree).rebuilt
      ticketId base = c.rebuilt ticketId base := by
  unfold WorkspaceSite.rebuilt WorkspaceSite.dropWorktree WorkspaceSite.setRef Dict.set Dict.erase
  simp only [Function.update_idem, List.filter_filter, Bool.and_self]

omit [Sha256] [Project] in
/-- The branch is where the worktree is expected to be. -/
theorem head_of_authorize {replay : Bool}
    (h : c.clone.authorize ticketId executionId base observedHead = .ok replay) :
    c.clone.refs (Git.branchRef (executionBranchOf ticketId))
      = some (if replay = true then base else observedHead) := by
  obtain ⟨hcurrent, hreplay⟩ := WorkspaceSite.authorize_eq_ok.mp h
  cases replay with
  | false => exact hcurrent.resolve_right nofun
  | true => exact (of_decide_eq_true hreplay.symm).2

omit [Sha256] in
theorem available_of_prepare {site site' : WorkspaceSite} {workspace : ExecutionWorkspace}
    (h : Runs (WorkspaceSite.prepare graph ticketId base) site workspace site') :
    site.available base = true := by
  unfold WorkspaceSite.prepare at h
  rw [runs_bind] at h
  obtain ⟨_, _, hbase, -⟩ := h
  exact WorkspaceSite.validateBase_eq_ok.mp (runs_observe.mp hbase).1

/-- The states that a recovery passes through. -/
inductive Passes (ticketId executionId base observedHead : String) (c : RecoverySite) :
    RecoverySite → Prop
  | pinned : Passes ticketId executionId base observedHead c (c.pinned ticketId executionId observedHead)
  | kept {ref head : String}
      (hhead : c.remote.refs (Git.branchRef (executionBranchOf ticketId)) = some head)
      (hne : head ≠ base) (hevidence : c.clone.remoteEvidence ticketId executionId head = .ok ref)
      (hnone : (c.pinned ticketId executionId observedHead).clone.refs ref = none) :
      Passes ticketId executionId base observedHead c
        { c.pinned ticketId executionId observedHead with
          clone := (c.pinned ticketId executionId observedHead).clone.setRef ref head }
  | published {ref head : String}
      (hhead : c.remote.refs (Git.branchRef (executionBranchOf ticketId)) = some head)
      (hne : head ≠ base) (hevidence : c.clone.remoteEvidence ticketId executionId head = .ok ref)
      (hnone : (c.pinned ticketId executionId observedHead).clone.refs ref = none) :
      Passes ticketId executionId base observedHead c
        ((c.pinned ticketId executionId observedHead).published ref head)
  | reconciled : Passes ticketId executionId base observedHead c (c.settled ticketId executionId base observedHead)
  | removed : Passes ticketId executionId base observedHead c
      { c.settled ticketId executionId base observedHead with
        clone := (c.settled ticketId executionId base observedHead).clone.dropWorktree }
  | moved : Passes ticketId executionId base observedHead c
      { c.settled ticketId executionId base observedHead with
        clone := .setRef (Git.branchRef (executionBranchOf ticketId)) base
          (c.settled ticketId executionId base observedHead).clone.dropWorktree }
  | checkedOut : Passes ticketId executionId base observedHead c
      { c.settled ticketId executionId base observedHead with
        clone := .checkOut (executionBranchOf ticketId)
          (.setRef (Git.branchRef (executionBranchOf ticketId)) base
            (c.settled ticketId executionId base observedHead).clone.dropWorktree) }
  | rebuilt : Passes ticketId executionId base observedHead c
      { c.settled ticketId executionId base observedHead with
        clone := (c.settled ticketId executionId base observedHead).clone.rebuilt ticketId base }
  | saved : Passes ticketId executionId base observedHead c
      (c.recovered ticketId executionId base observedHead)

omit [Project] [Sha256] in
theorem sat_inClone {α : Type} {p : WorkspaceSite.Program α} {I : RecoverySite → Prop}
    {Q : α → RecoverySite → Prop} {E : String → RecoverySite → Prop}
    (h : Sat (fun clone => I { c with clone := clone }) p
      (fun a clone => Q a { c with clone := clone }) (fun e clone => E e { c with clone := clone })
      c.clone) : Sat I (inClone p) Q E c :=
  Sat.zoom rfl h

omit [Project] [Sha256] in
theorem sat_publishEvidence {ref head : String} (h : c.Publishable graph ref head) :
    Sat (fun u => c.clone.refs ref = none
        ∧ (u = { c with clone := c.clone.setRef ref head } ∨ u = c.published ref head))
      (publishEvidence graph ref head) (fun _ u => u = c.keepEvidence ref head)
      (fun _ _ => False) c := by
  unfold publishEvidence keepEvidence
  refine .bind (.get ?_)
  rcases h with hthere | ⟨hnone, havailable, hpin, haccepts⟩
  · rw [hthere]
    exact .ensure (fun _ => (if_neg nofun).symm) fun hnot => hnot rfl
  · rw [hnone]
    refine .bind (.ensure (fun _ => ?_) fun hnot => hnot ⟨havailable, hpin⟩)
    refine .bind (sat_inClone (.effect ⟨rfl, .inl rfl⟩ ?_))
    refine .bind (.ensure (fun _ => ?_) fun hnot => hnot haccepts)
    exact .effect ⟨rfl, .inr rfl⟩ (if_pos rfl).symm

omit [Project] [Sha256] in
theorem sat_reconcileRemote (h : c.Reconcilable graph ticketId executionId base) :
    Sat (fun u => u = c.reconciled ticketId executionId base ∨ ∃ head ref,
        c.remote.refs (Git.branchRef (executionBranchOf ticketId)) = some head ∧ head ≠ base
          ∧ c.clone.remoteEvidence ticketId executionId head = .ok ref ∧ c.clone.refs ref = none
          ∧ (u = { c with clone := c.clone.setRef ref head } ∨ u = c.published ref head))
      (reconcileRemote graph ticketId executionId base)
      (fun _ u => u = c.reconciled ticketId executionId base) (fun _ _ => False) c := by
  unfold reconcileRemote
  refine .bind (.observe (executionRemoteHead_eq_ok.mpr ⟨h.reachable, rfl⟩) ?_)
  rcases h.cases with ⟨hsettled, hend⟩ | ⟨head, ref, hhead, hne, hevidence, hpublishable,
    hretire, hend⟩
  · rw [hend]
    cases hhead : c.remote.refs (Git.branchRef (executionBranchOf ticketId)) with
    | none => exact .pure rfl
    | some head =>
      dsimp only
      rw [if_pos (hsettled head hhead)]
      exact .pure rfl
  · have hbranch := (WorkspaceSite.isRecoveryRef_of_remoteEvidence hevidence).branchRef_ne
      (executionBranchOf ticketId)
    obtain ⟨hunreachable, havailable, hrefuses⟩ := @keepEvidence_frame ref head c
    have hagain : executionRemoteHead (executionBranchOf ticketId) (c.keepEvidence ref head)
        = .ok (some head) :=
      executionRemoteHead_eq_ok.mpr ⟨hunreachable.trans h.reachable,
        ((remote_keepEvidence_of_ne hbranch).trans hhead).symm⟩
    rw [hhead]
    dsimp only
    rw [if_neg hne]
    unfold retireRemote
    refine .bind (.observe hevidence (.bind ?_))
    refine (sat_publishEvidence hpublishable).mono
      (fun u hu => .inr ⟨head, ref, rfl, hne, hevidence, hu⟩) ?_ fun _ _ hfalse => hfalse
    rintro _ _ rfl
    refine .bind (.observe hagain (.bind (.ensure (fun _ => ?_) fun hnot => hnot rfl)))
    refine .bind (.get (.bind (.ensure (fun _ => ?_) fun hnot => hnot ?_)))
    · exact .effect (.inl hend.symm) hend.symm
    · rw [havailable, hrefuses]
      exact hretire

/-- A recovery ends, and passes through nothing else. -/
theorem Restorable.sat_recoverBinding
    (h : c.Restorable graph ticketId executionId base observedHead) :
    Sat (Passes ticketId executionId base observedHead c)
      (recoverBinding graph ticketId executionId base observedHead)
      (fun _ u => u = c.recovered ticketId executionId base observedHead) (fun _ _ => False) c := by
  obtain ⟨r, hend⟩ : ∃ r, c.settled ticketId executionId base observedHead = r := ⟨_, rfl⟩
  have hrefs : RefsOnly ticketId (c.pinned ticketId executionId observedHead) r :=
    hend ▸ h.reconcilable.refsOnly
  have hremaining : r.remote.refs (Git.branchRef (executionBranchOf ticketId))
      = c.remaining ticketId base := hend ▸ h.reconcilable.remote_branch
  have hrebuildable : r.clone.Rebuildable ticketId base := by
    rw [hrefs.clone, WorkspaceSite.rebuildable_refs_iff]
    exact WorkspaceSite.rebuildable_refs_iff.mpr h.rebuildable
  obtain ⟨replay, hreplay⟩ : ∃ replay, decide
    (c.clone.refs (operatorRecoveryRef ticketId executionId) = some observedHead
      ∧ c.clone.refs (Git.branchRef (executionBranchOf ticketId)) = some base) = replay := ⟨_, rfl⟩
  have hauthorize : c.clone.authorize ticketId executionId base observedHead = .ok replay :=
    WorkspaceSite.authorize_eq_ok.mpr
      ⟨h.authorized.imp_right fun hthere => hreplay ▸ decide_eq_true hthere, hreplay.symm⟩
  have hpinned : (c.pinned ticketId executionId observedHead).clone.refs
      (Git.branchRef (executionBranchOf ticketId))
        = c.clone.refs (Git.branchRef (executionBranchOf ticketId)) :=
    WorkspaceSite.refs_setRef_of_ne _ _ ((isRecoveryRef_operator ..).branchRef_ne _)
  have hexpected := hrefs.branch.trans (hpinned.trans (head_of_authorize hauthorize))
  unfold recoverBinding
  -- the steps in the order of the source: pin, reconcile the remote, remove, move, prepare, save
  refine .bind (.observe hauthorize (.bind (sat_inClone ?_)))
  refine ((WorkspaceSite.pinAuthorized_alike _ _).sat (WorkspaceSite.sat_preserve h.evidence)).mono
    ?_ ?_ fun _ _ hfalse => hfalse.elim
  · rintro _ rfl
    exact .pinned
  rintro _ _ rfl
  refine .bind ((sat_reconcileRemote h.reconcilable).mono ?_ ?_ fun _ _ hfalse => hfalse)
  · rintro _ (rfl | ⟨head, ref, hhead, hne, hevidence, hnone, rfl | rfl⟩)
    · exact .reconciled
    · exact .kept hhead hne hevidence hnone
    · exact .published hhead hne hevidence hnone
  intro _ u hu
  obtain rfl : u = r := hu.trans hend
  refine .bind (sat_inClone ?_)
  refine ((WorkspaceSite.removeAuthorized_alike _ _).sat (WorkspaceSite.sat_removeConflicting
    hrebuildable.removable hexpected)).mono ?_ ?_ fun _ _ hfalse => hfalse.elim
  · rintro _ rfl
    exact hend ▸ .removed
  rintro _ _ rfl
  refine .bind (sat_inClone ?_)
  refine (WorkspaceSite.sat_moveAuthorized ?_).mono ?_ ?_ fun _ _ hfalse => hfalse.elim
  · -- the branch is at the named head and moves, or a killed recovery has moved it
    by_cases hobserved : c.clone.refs (Git.branchRef (executionBranchOf ticketId))
      = some observedHead
    · refine .inl ⟨hrefs.branch.trans (hpinned.trans hobserved), hrebuildable.available, ?_⟩
      exact (congrArg (·.refuses .move) hrefs.clone).trans (h.move hobserved)
    · have hthere := h.authorized.resolve_left hobserved
      refine .inr ⟨hreplay ▸ decide_eq_true hthere, hrefs.branch.trans (hpinned.trans hthere.2), ?_⟩
      rintro rfl
      exact hobserved hthere.2
  · rintro _ rfl
    exact hend ▸ .moved
  rintro _ _ rfl
  refine .bind (sat_inClone ?_)
  refine (WorkspaceSite.sat_prepare (WorkspaceSite.vacant_emptied hrebuildable.removable.listed
    hrebuildable.exclusive hrebuildable.available) (WorkspaceSite.preparable_emptied
      hrebuildable.root hrebuildable.path hrebuildable.add hrebuildable.submodules)
    (WorkspaceSite.refs_setRef_self ..) (WorkspaceSite.get_dropWorktree _)).mono ?_ ?_
    fun _ _ hfalse => hfalse.elim
  · rintro _ (rfl | rfl)
    · exact hend ▸ .checkedOut
    · rw [rebuilt_emptied]
      exact hend ▸ .rebuilt
  rintro workspace _ ⟨hhead, rfl⟩
  have hstart : (u.clone.rebuilt ticketId base).Reusable graph ticketId base (some base) :=
    (WorkspaceSite.reusable_rebuilt_iff hrebuildable.available hrebuildable.removable.listed
      hrebuildable.root hrebuildable.path).mpr fun _ hstart => Option.some.inj hstart
  have hreusable := WorkspaceSite.inspect_eq_reusable_iff.mpr hstart
  refine .bind (.get (.bind (.ensure (fun _ => ?_) fun hnot => hnot ?_)))
  · refine .bind (.observe (executionRemoteHead_eq_ok.mpr ⟨hrefs.reachable.trans
      h.reconcilable.reachable, hremaining.symm⟩) (.bind (.ensure (fun _ => ?_) fun hnot => hnot ?_)))
    · unfold saveRecovered
      have hlast : (c.recovered ticketId executionId base observedHead) = { u with
          state := (Call.recovered (c.remaining ticketId base)).payload u.state
          clone := u.clone.rebuilt ticketId base } := by
        unfold recovered
        rw [hend, hrefs.state]
        rfl
      refine .bind (.observe (saveState_eq_ok.mpr ⟨rfl, hrefs.state ▸ h.saved⟩) ?_)
      rw [rebuilt_emptied]
      exact .effect (hlast ▸ .saved) hlast.symm
    · exact remaining_eq
  · rw [rebuilt_emptied, hhead]
    exact hreusable

/-- **Recovery.** When it ends, and with what. -/
theorem runs_recoverBinding :
    Runs (recoverBinding graph ticketId executionId base observedHead) c () t
      ↔ c.Restorable graph ticketId executionId base observedHead
        ∧ c.recovered ticketId executionId base observedHead = t := by
  have hpinned : (c.pinned ticketId executionId observedHead).clone.refs
      (Git.branchRef (executionBranchOf ticketId))
        = c.clone.refs (Git.branchRef (executionBranchOf ticketId)) :=
    WorkspaceSite.refs_setRef_of_ne _ _ ((isRecoveryRef_operator ..).branchRef_ne _)
  have hmoved : ∀ {d : WorkspaceSite} {head : String},
      (d.setRef (Git.branchRef (executionBranchOf ticketId)) base).refs
        (Git.branchRef (executionBranchOf ticketId)) = some head → head = base := by
    intro d head h
    rw [WorkspaceSite.refs_setRef_self] at h
    exact (Option.some.inj h).symm
  constructor
  · intro hrun
    unfold recoverBinding at hrun
    simp only [runs_bind, runs_get, runs_observe, runs_ensure, runs_inClone] at hrun
    obtain ⟨replay, _, ⟨hauthorize, rfl⟩, _, _, ⟨_, hpin, rfl⟩, _, r, hremote, _, _,
      ⟨_, hremove, rfl⟩, _, _, ⟨_, hmove, rfl⟩, repaired, _, ⟨_, hprepare, rfl⟩, _, _, ⟨rfl, rfl⟩, _, _,
      ⟨-, rfl⟩, remoteHead, _, ⟨hagain, rfl⟩, _, _, ⟨-, rfl⟩, hsave⟩ := hrun
    -- each step that returned gives its own condition; together they are those of `Restorable`
    have hhead := head_of_authorize hauthorize
    obtain ⟨hcurrent, hreplay⟩ := WorkspaceSite.authorize_eq_ok.mp hauthorize
    rw [(WorkspaceSite.pinAuthorized_alike _ _).runs_iff, WorkspaceSite.runs_preserve] at hpin
    obtain ⟨hevidence, rfl⟩ := hpin
    obtain ⟨hreconcilable, hr⟩ := runs_reconcileRemote.mp hremote
    have hend : c.settled ticketId executionId base observedHead = r := hr
    have hrefs : RefsOnly ticketId (c.pinned ticketId executionId observedHead) r :=
      hend ▸ hreconcilable.refsOnly
    have hremaining : r.remote.refs (Git.branchRef (executionBranchOf ticketId))
        = c.remaining ticketId base := hend ▸ hreconcilable.remote_branch
    have hexpected := hrefs.branch.trans (hpinned.trans hhead)
    rw [(WorkspaceSite.removeAuthorized_alike _ _).runs_iff,
      WorkspaceSite.runs_removeConflicting hexpected] at hremove
    obtain ⟨hremovable, rfl⟩ := hremove
    obtain ⟨hmoves, rfl⟩ := WorkspaceSite.runs_moveAuthorized.mp hmove
    have havailable := available_of_prepare hprepare
    have hattached := WorkspaceSite.attached_of_prepare (fun _ => hmoved) hprepare
    have hexclusive := WorkspaceSite.attached_dropWorktree_iff.mp hattached
    have hvacant := WorkspaceSite.vacant_emptied hremovable.listed hexclusive havailable
    obtain ⟨hready, -, rfl⟩ := (WorkspaceSite.runs_prepare hvacant).mp hprepare
    obtain ⟨-, rfl⟩ := executionRemoteHead_eq_ok.mp hagain
    obtain ⟨hsaved, rfl⟩ := runs_saveRecovered.mp hsave
    have hrebuildable := WorkspaceSite.Rebuildable.mk hremovable hexclusive havailable hready.root
      hready.path hready.add hready.submodules
    rw [hrefs.clone, WorkspaceSite.rebuildable_refs_iff] at hrebuildable
    refine ⟨⟨?_, hevidence, hreconcilable, WorkspaceSite.rebuildable_refs_iff.mp hrebuildable, ?_,
      ?_⟩, ?_⟩
    · rcases hcurrent with hobserved | rfl
      · exact .inl hobserved
      · exact .inr (of_decide_eq_true hreplay.symm)
    · intro hobserved
      rcases hmoves with ⟨-, -, hmove⟩ | ⟨-, hbase, hne⟩
      · exact (congrArg (·.refuses .move) hrefs.clone).symm.trans hmove
      · have hsame := (hrefs.branch.trans (hpinned.trans hobserved)).symm.trans hbase
        exact absurd (Option.some.inj hsame).symm hne
    · rw [← hremaining]
      exact hrefs.state ▸ hsaved
    · unfold recovered
      rw [← hremaining, hend, ← rebuilt_emptied r.clone]
      exact congrArg (RecoverySite.mk · _ _) (congrArg _ hrefs.state.symm)
  · rintro ⟨h, rfl⟩
    obtain ⟨_, hreturns, hend⟩ := h.sat_recoverBinding.returns
    exact ⟨hreturns, hend⟩

end Recovery

end RecoverySite

end Devlegate
