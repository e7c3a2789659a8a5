import Devlegate.BoundWorkspace

namespace Devlegate

open Crash

/-!
# Killed repairs of a workspace

A repair moves a branch and takes a worktree away, one effect after the other, and the process can
be killed between any two of them.

* `Kept`: what is still there of an earlier state: every head of the branch, every ref, every other
  worktree and all uncommitted work.
* `stays_repair`: a repair keeps it in every state that it passes through.
* `killed_repair_resumes_iff`: from which states the next repair ends what a killed one has begun.
-/

/-! ### Recovery refs -/

/-- Where `recover` pins the head that the operator has named. -/
def operatorRecoveryRef (ticketId executionId : String) : String :=
  "refs/devlegate/recovery/operator/" ++ ticketId ++ "/" ++ executionId

/-- A ref that keeps what a branch of the ticket was. -/
def IsRecoveryRef (ticketId ref : String) : Prop :=
  ∃ executionId, ref = workspaceRecoveryRef ticketId executionId
    ∨ ref = operatorRecoveryRef ticketId executionId

theorem isRecoveryRef_workspace (ticketId executionId : String) :
    IsRecoveryRef ticketId (workspaceRecoveryRef ticketId executionId) :=
  ⟨executionId, .inl rfl⟩

theorem isRecoveryRef_operator (ticketId executionId : String) :
    IsRecoveryRef ticketId (operatorRecoveryRef ticketId executionId) :=
  ⟨executionId, .inr rfl⟩

/-- The ref of a branch is none: they differ in their sixth character. -/
theorem IsRecoveryRef.branchRef_ne {ticketId ref : String} (h : IsRecoveryRef ticketId ref)
    (branch : String) : Git.branchRef branch ≠ ref := by
  obtain ⟨executionId, rfl | rfl⟩ := h
  · exact WorkspaceSite.branchRef_ne_workspaceRecoveryRef _ _ _
  · unfold Git.branchRef operatorRecoveryRef
    intro h
    have hlist := congrArg String.toList h
    simp only [String.toList_append] at hlist
    have hsixth := congrArg (fun l => l.getD 5 'x') hlist
    revert hsixth
    show 'h' = 'd' → False
    decide

namespace WorkspaceSite

/-! ### What is kept -/

section Kept

variable {ticketId base : String} {c t u : WorkspaceSite}

/-- `t` still has what `c` had: the head of the branch is there or under a recovery ref, recovery
    refs do not change and no other ref does, other worktrees stay registered, and a checkout with
    uncommitted work is still there. -/
structure Kept (ticketId : String) (c t : WorkspaceSite) : Prop where
  resolved : t.resolved = c.resolved
  heads : ∀ head, c.refs (Git.branchRef (executionBranchOf ticketId)) = some head →
    t.refs (Git.branchRef (executionBranchOf ticketId)) = some head
      ∨ ∃ ref, IsRecoveryRef ticketId ref ∧ t.refs ref = some head
  pinned : ∀ ref head, IsRecoveryRef ticketId ref → c.refs ref = some head → t.refs ref = some head
  others : ∀ ref, ref ≠ Git.branchRef (executionBranchOf ticketId) → ¬ IsRecoveryRef ticketId ref →
    t.refs ref = c.refs ref
  elsewhere : ∀ path, path ≠ c.resolved → t.worktrees.get path = c.worktrees.get path
  uncommitted : ∀ checkout, c.content = .directory checkout → checkout.dirty = true →
    ∃ checkout', t.content = .directory checkout' ∧ checkout'.dirty = true

theorem Kept.refl (ticketId : String) (c : WorkspaceSite) : Kept ticketId c c where
  resolved := rfl
  heads _ h := .inl h
  pinned _ _ _ h := h
  others _ _ _ := rfl
  elsewhere _ _ := rfl
  uncommitted checkout h hdirty := ⟨checkout, h, hdirty⟩

theorem Kept.trans (h : Kept ticketId c t) (h' : Kept ticketId t u) : Kept ticketId c u where
  resolved := h'.resolved.trans h.resolved
  heads head hhead := by
    rcases h.heads head hhead with hthere | ⟨ref, hrecovery, hpinned⟩
    · exact h'.heads head hthere
    · exact .inr ⟨ref, hrecovery, h'.pinned ref head hrecovery hpinned⟩
  pinned ref head hrecovery hhead := h'.pinned ref head hrecovery (h.pinned ref head hrecovery hhead)
  others ref hbranch hrecovery := (h'.others ref hbranch hrecovery).trans (h.others ref hbranch
    hrecovery)
  elsewhere path hpath := (h'.elsewhere path (h.resolved ▸ hpath)).trans (h.elsewhere path hpath)
  uncommitted checkout hcontent hdirty := by
    obtain ⟨checkout', hcontent', hdirty'⟩ := h.uncommitted checkout hcontent hdirty
    exact h'.uncommitted checkout' hcontent' hdirty'

/-- The branch can move when its head is pinned or it has none. -/
theorem Kept.setRef_branch (h : ∀ head,
    c.refs (Git.branchRef (executionBranchOf ticketId)) = some head →
      ∃ ref, IsRecoveryRef ticketId ref ∧ c.refs ref = some head) :
    Kept ticketId c (c.setRef (Git.branchRef (executionBranchOf ticketId)) base) where
  resolved := rfl
  heads head hhead := by
    obtain ⟨ref, hrecovery, hpinned⟩ := h head hhead
    refine .inr ⟨ref, hrecovery, ?_⟩
    exact (refs_setRef_of_ne _ _ (hrecovery.branchRef_ne _).symm).trans hpinned
  pinned ref head hrecovery hhead :=
    (refs_setRef_of_ne _ _ (hrecovery.branchRef_ne _).symm).trans hhead
  others ref hbranch _ := refs_setRef_of_ne _ _ hbranch
  elsewhere _ _ := rfl
  uncommitted checkout h hdirty := ⟨checkout, h, hdirty⟩

/-- A recovery ref that is not there can be made. -/
theorem Kept.pin {ref head : String} (hrecovery : IsRecoveryRef ticketId ref)
    (h : c.refs ref = none) : Kept ticketId c (c.setRef ref head) where
  resolved := rfl
  heads head' hhead := .inl ((refs_setRef_of_ne _ _ (hrecovery.branchRef_ne _)).trans hhead)
  pinned ref' head' _ hhead := by
    refine (refs_setRef_of_ne _ _ ?_).trans hhead
    rintro rfl
    rw [h] at hhead
    cases hhead
  others ref' _ hnot := by
    refine refs_setRef_of_ne _ _ ?_
    rintro rfl
    exact hnot hrecovery
  elsewhere _ _ := rfl
  uncommitted checkout h hdirty := ⟨checkout, h, hdirty⟩

/-- A worktree without uncommitted work can be taken away. -/
theorem Kept.dropWorktree (h : ∀ checkout, c.content = .directory checkout →
    checkout.dirty = false) : Kept ticketId c c.dropWorktree where
  resolved := rfl
  heads _ h := .inl h
  pinned _ _ _ h := h
  others _ _ _ := rfl
  elsewhere _ hpath := Dict.get_erase_of_ne _ hpath
  uncommitted checkout hcontent hdirty := by
    rw [h checkout hcontent] at hdirty
    cases hdirty

/-- Where nothing is at the path, a worktree can be added. -/
theorem Kept.checkOut {branch : String} (h : c.content = .absent) :
    Kept ticketId c (c.checkOut branch) where
  resolved := rfl
  heads _ h := .inl h
  pinned _ _ _ h := h
  others _ _ _ := rfl
  elsewhere _ hpath := Dict.get_set_of_ne _ _ hpath
  uncommitted checkout hcontent _ := by
    rw [h] at hcontent
    cases hcontent

/-- A checkout stays when its submodules change. -/
theorem Kept.submodules {checkout : WorktreeDirectory} {submodules : Submodules}
    (h : c.content = .directory checkout) :
    Kept ticketId c { c with content := .directory { checkout with submodules := submodules } } where
  resolved := rfl
  heads _ h := .inl h
  pinned _ _ _ h := h
  others _ _ _ := rfl
  elsewhere _ _ := rfl
  uncommitted checkout' hcontent hdirty := by
    rw [h] at hcontent
    cases hcontent
    exact ⟨_, rfl, hdirty⟩

end Kept

/-! ### The manager keeps it -/

section Manager

variable [Project] {graph : Git.CommitGraph} {ticketId base : String} {c : WorkspaceSite}

omit [Project] in
theorem stays_prepareSubmodules : Stays (Kept ticketId) prepareSubmodules c := by
  unfold prepareSubmodules
  refine .bind .trans (.of_get (Kept.refl ticketId)) ?_
  intro d u hget
  obtain ⟨rfl, rfl⟩ := runs_get.mp hget
  cases hcontent : c.content with
  | absent => exact .of_pure (Kept.refl ticketId)
  | file => exact .of_pure (Kept.refl ticketId)
  | directory checkout =>
    dsimp only
    cases checkout.submodules.prepared with
    | error message => exact .of_raise (Kept.refl ticketId)
    | ok u => exact .of_effect (.submodules hcontent)

theorem stays_reuse {registration : WorktreeHead} :
    Stays (Kept ticketId) (reuse ticketId base registration) c := by
  unfold reuse
  refine .bind .trans (.of_observe (Kept.refl ticketId)) fun _ _ _ => ?_
  exact .bind .trans stays_prepareSubmodules fun _ _ _ => .of_pure (Kept.refl ticketId)

theorem stays_addWorktree (h : c.content = .absent) :
    Stays (Kept ticketId) (addWorktree ticketId base) c := by
  unfold addWorktree
  refine .bind .trans (.of_get (Kept.refl ticketId)) ?_
  intro d u hget
  obtain ⟨rfl, rfl⟩ := runs_get.mp hget
  cases c.refuses .addWorktree with
  | some stderr =>
    refine .bind .trans (.of_observe (Kept.refl ticketId)) fun worktrees _ _ => ?_
    refine .bind .trans (.of_get (Kept.refl ticketId)) fun u _ _ => ?_
    cases worktrees.get u.resolved with
    | none => exact .of_raise (Kept.refl ticketId)
    | some registration => exact stays_reuse
  | none =>
    refine .bind .trans (.of_effect (.checkOut h)) fun _ _ _ => ?_
    refine .bind .trans (.of_observe (Kept.refl ticketId)) fun worktrees _ _ => ?_
    refine .bind .trans (.of_get (Kept.refl ticketId)) fun u _ _ => ?_
    cases worktrees.get u.resolved with
    | none => exact .of_raise (Kept.refl ticketId)
    | some registration => exact stays_reuse

omit [Project] in
theorem stays_ensureBranch : Stays (Kept ticketId) (ensureBranch ticketId base) c := by
  unfold ensureBranch
  refine .bind .trans (.of_get (Kept.refl ticketId)) ?_
  intro d u hget
  obtain ⟨rfl, rfl⟩ := runs_get.mp hget
  cases hrefs : c.refs (Git.branchRef (executionBranchOf ticketId)) with
  | some head => exact .of_pure (Kept.refl ticketId)
  | none =>
    cases c.refuses .branch with
    | some stderr => exact .of_raise (Kept.refl ticketId)
    | none =>
      refine .of_effect (.setRef_branch fun head hhead => ?_)
      rw [hrefs] at hhead
      cases hhead

omit [Project] in
theorem stays_removeWorktree {command : GitCommand} {failure : String → String}
    (h : ∀ checkout, c.content = .directory checkout → checkout.dirty = false) :
    Stays (Kept ticketId) (removeWorktree command failure) c := by
  unfold removeWorktree
  refine .bind .trans (.of_get (Kept.refl ticketId)) ?_
  intro d u hget
  obtain ⟨rfl, rfl⟩ := runs_get.mp hget
  cases c.removeRefusal command with
  | some stderr => exact .of_raise (Kept.refl ticketId)
  | none => exact .of_effect (.dropWorktree h)

theorem stays_materialize {registration : Option WorktreeHead} :
    Stays (Kept ticketId) (materialize ticketId base registration) c := by
  have hstale : (∀ checkout, c.content = .directory checkout → checkout.dirty = false) →
      ∀ failure : String → String, Stays (Kept ticketId) (do
        removeWorktree .removeWorktree failure
        addWorktree ticketId base) c := by
    intro hclean failure
    refine .bind .trans (stays_removeWorktree hclean) fun _ u hremove => ?_
    obtain ⟨-, rfl⟩ := runs_removeWorktree.mp hremove
    exact stays_addWorktree rfl
  unfold materialize
  refine .bind .trans (.of_get (Kept.refl ticketId)) ?_
  intro d u hget
  obtain ⟨rfl, rfl⟩ := runs_get.mp hget
  cases registration with
  | none =>
    cases hcontent : c.content with
    | absent => exact stays_addWorktree hcontent
    | file => exact .of_raise (Kept.refl ticketId)
    | directory checkout => exact .of_raise (Kept.refl ticketId)
  | some registration =>
    cases hcontent : c.content with
    | absent => exact hstale (by rw [hcontent]; nofun) _
    | file => exact hstale (by rw [hcontent]; nofun) _
    | directory checkout => exact stays_reuse

/-- **Preparation keeps everything.** It never moves a branch that is there. -/
theorem stays_prepare : Stays (Kept ticketId) (prepare graph ticketId base) c := by
  unfold prepare
  refine .bind .trans (.of_observe (Kept.refl ticketId)) fun _ _ _ => ?_
  refine .bind .trans (.of_get (Kept.refl ticketId)) fun _ _ _ => ?_
  refine .bind .trans (.of_ensure (Kept.refl ticketId)) fun _ _ _ => ?_
  refine .bind .trans stays_ensureBranch fun _ _ _ => ?_
  refine .bind .trans (.of_observe (Kept.refl ticketId)) fun _ _ _ => ?_
  refine .bind .trans (.of_observe (Kept.refl ticketId)) fun _ _ _ => ?_
  refine .bind .trans (.of_get (Kept.refl ticketId)) fun _ _ _ => ?_
  refine .bind .trans (.of_ensure (Kept.refl ticketId)) fun _ _ _ => ?_
  refine .bind .trans (.of_ensure (Kept.refl ticketId)) fun _ _ _ => ?_
  exact stays_materialize

end Manager

/-! ### The repair keeps it -/

section Repair

variable [Project] {graph : Git.CommitGraph} {ticketId base oldHead : String}
  {c t : WorkspaceSite}

omit [Project] in
theorem stays_preserve {ref : String} (hrecovery : IsRecoveryRef ticketId ref) :
    Stays (Kept ticketId) (preserve ref oldHead) c := by
  unfold preserve
  refine .bind .trans (.of_get (Kept.refl ticketId)) ?_
  intro d u hget
  obtain ⟨rfl, rfl⟩ := runs_get.mp hget
  cases hrefs : c.refs ref with
  | some pinned => exact .of_ensure (Kept.refl ticketId)
  | none =>
    cases c.refuses .pin with
    | some stderr => exact .of_raise (Kept.refl ticketId)
    | none => exact .of_effect (.pin hrecovery hrefs)

/-- Only a worktree without uncommitted work is removed. -/
theorem stays_removeConflicting : Stays (Kept ticketId) (removeConflicting ticketId oldHead) c := by
  unfold removeConflicting
  refine .bind .trans (.of_observe (Kept.refl ticketId)) fun worktrees u hlist => ?_
  obtain ⟨-, rfl⟩ := runs_observe.mp hlist
  refine .bind .trans (.of_get (Kept.refl ticketId)) fun d u hget => ?_
  obtain ⟨rfl, rfl⟩ := runs_get.mp hget
  refine .bind .trans (.of_ensure (Kept.refl ticketId)) fun _ u hensure => ?_
  obtain ⟨-, rfl⟩ := runs_ensure.mp hensure
  cases worktrees.get c.resolved with
  | none => exact .of_ensure (Kept.refl ticketId)
  | some registration =>
    refine .bind .trans (.of_observe (Kept.refl ticketId)) fun workspace u hobserve => ?_
    obtain ⟨hvalid, rfl⟩ := runs_observe.mp hobserve
    refine .bind .trans (.of_ensure (Kept.refl ticketId)) fun _ u hexact => ?_
    obtain ⟨⟨-, hclean⟩, rfl⟩ := runs_ensure.mp hexact
    obtain ⟨checkout, head, -, ⟨hcontent, -⟩, -, rfl⟩ := validateExisting_eq_ok.mp hvalid
    refine stays_removeWorktree fun checkout' hcontent' => ?_
    rw [hcontent] at hcontent'
    cases hcontent'
    exact hclean

/-- The branch moves only once its head is pinned. -/
theorem stays_replaceWorkspace {prior : ExecutionReport}
    (hhead : c.refs (Git.branchRef (executionBranchOf ticketId)) = some oldHead) :
    Stays (Kept ticketId) (replaceWorkspace graph ticketId base oldHead prior) c := by
  unfold replaceWorkspace
  refine .bind .trans (stays_preserve (isRecoveryRef_workspace ..)) fun _ u hpreserve => ?_
  obtain ⟨-, rfl⟩ := runs_preserve.mp hpreserve
  have hpinned : (c.setRef (workspaceRecoveryRef ticketId prior.executionId) oldHead).refs
      (Git.branchRef (executionBranchOf ticketId)) = some oldHead :=
    (refs_setRef_of_ne _ _ (branchRef_ne_workspaceRecoveryRef _ _ _)).trans hhead
  refine .bind .trans (.of_observe (Kept.refl ticketId)) fun _ u hunmoved => ?_
  obtain ⟨-, rfl⟩ := runs_observe.mp hunmoved
  refine .bind .trans stays_removeConflicting fun _ u hremove => ?_
  obtain ⟨-, rfl⟩ := (runs_removeConflicting hpinned).mp hremove
  refine .bind .trans ?_ fun _ _ _ => ?_
  · unfold moveBranch
    refine .bind .trans (.of_observe (Kept.refl ticketId)) fun _ u hobserve => ?_
    obtain ⟨hunmoved, rfl⟩ := runs_observe.mp hobserve
    refine .bind .trans (.of_get (Kept.refl ticketId)) fun _ u hget => ?_
    obtain ⟨-, rfl⟩ := runs_get.mp hget
    refine .bind .trans (.of_ensure (Kept.refl ticketId)) fun _ u hensure => ?_
    obtain ⟨-, rfl⟩ := runs_ensure.mp hensure
    refine .of_effect (.setRef_branch fun head hsome => ⟨workspaceRecoveryRef ticketId
      prior.executionId, isRecoveryRef_workspace .., ?_⟩)
    rw [unmoved_eq_ok.mp hunmoved] at hsome
    cases hsome
    exact refs_setRef_self ..
  · refine .bind .trans stays_prepare fun _ _ _ => ?_
    refine .bind .trans (.of_get (Kept.refl ticketId)) fun _ _ _ => ?_
    exact .of_ensure (Kept.refl ticketId)

/-- **The repair keeps everything.** -/
theorem stays_repair (s : RuntimeState) (h : s.executionTicketId = some ticketId) :
    Stays (Kept ticketId) (repair graph s) c := by
  cases hworker : s.preWorker with
  | false =>
    obtain ⟨-, e, hrepair⟩ := @unsafe_of_not_preWorker _ graph s c hworker
    rw [hrepair]
    exact .of_raise (Kept.refl ticketId)
  | true =>
    rw [repair_of_preWorker hworker, h]
    unfold repairBinding
    refine .bind .trans (.of_get (Kept.refl ticketId)) fun d u hget => ?_
    obtain ⟨rfl, rfl⟩ := runs_get.mp hget
    cases hhead : c.refs (Git.branchRef (executionBranchOf ticketId)) with
    | none =>
      rw [show c.refs (Git.branchRef (executionBranchOf ((some ticketId).getD ""))) = none from hhead]
      exact .bind .trans stays_prepare fun _ _ _ => .of_pure (Kept.refl ticketId)
    | some oldHead =>
      rw [show c.refs (Git.branchRef (executionBranchOf ((some ticketId).getD ""))) = some oldHead
        from hhead]
      refine .bind .trans (.of_observe (Kept.refl ticketId)) fun reports u hreports => ?_
      obtain ⟨-, rfl⟩ := runs_observe.mp hreports
      split
      · exact stays_replaceWorkspace hhead
      · exact .of_raise (Kept.refl ticketId)

end Repair

/-- The worktree of `e1` is still there, with everything in it committed. -/
def spentSite : WorkspaceSite :=
  { leftoverSite with content := .directory { gitdir := some "/work/work/t1" } }

/-- The head of `e1` is pinned, its worktree is gone and the branch has moved to the base of `e2`. -/
def spentSiteMoved : WorkspaceSite :=
  setRef "refs/heads/devlegate/work/t1" (sampleHead 'b')
    (spentSite.setRef "refs/devlegate/recovery/workspace/t1/e1" (sampleHead 'd')).dropWorktree

theorem spentSiteMoved_mem :
    spentSiteMoved ∈ (@repair sampleProject flatGraph reboundState spentSite).visited :=
  List.mem_of_getElem? (i := 2) rfl

/-! ### What a killed repair leaves -/

section Resume

variable [Project] {graph : Git.CommitGraph} {s : RuntimeState}
  {ticketId executionId base oldHead : String} {prior : ExecutionReport}
  {reports : List ExecutionReport} {c t u : WorkspaceSite}

omit [Project] in
/-- The pin is there or made. -/
theorem sat_preserve {ref head : String}
    (h : c.refs ref = some head ∨ c.refs ref = none ∧ c.refuses .pin = none) :
    Sat (fun u => u = c.setRef ref head) (preserve ref head) (fun _ u => u = c.setRef ref head)
      (fun _ _ => False) c := by
  unfold preserve
  refine .bind (.get ?_)
  rcases h with hthere | ⟨hnone, hrefuses⟩
  · rw [hthere]
    exact .ensure (fun _ => (setRef_eq_self hthere).symm) fun hnot => hnot rfl
  · rw [hnone]
    dsimp only
    rw [hrefuses]
    exact .effect rfl rfl

/-- The worktree is gone or removed. -/
theorem sat_removeConflicting (h : c.Removable ticketId)
    (hhead : c.refs (Git.branchRef (executionBranchOf ticketId)) = some oldHead) :
    Sat (fun u => u = c.dropWorktree) (removeConflicting ticketId oldHead)
      (fun _ u => u = c.dropWorktree) (fun _ _ => False) c := by
  unfold removeConflicting
  refine .bind (.observe (registrations_eq_ok.mpr ⟨h.listed, rfl⟩) (.bind (.get ?_)))
  refine .bind (.ensure (fun _ => ?_) fun hnot => hnot h.attached)
  rcases h.worktree with ⟨hfree, habsent⟩ | ⟨hregistered, ⟨checkout, hcontent, hown, hclean⟩,
    hrefuses⟩
  · rw [hfree]
    refine .ensure (fun _ => ?_) fun hnot => hnot (by rw [habsent]; rfl)
    unfold dropWorktree
    rw [Dict.erase_of_get_eq_none hfree, ← habsent]
  · rw [hregistered]
    have hdirectory : c.OnBranch ticketId checkout := by
      refine ⟨hcontent, ?_⟩
      rw [hown]
      exact hregistered
    have hrefusal : c.removeRefusal .forceRemoveWorktree = none := by
      unfold removeRefusal
      rw [hrefuses, hcontent]
      exact if_pos hown
    refine .bind (.observe (validateExisting_onBranch oldHead hdirectory hhead) ?_)
    refine .bind (.ensure (fun _ => ?_) fun hnot => hnot ⟨rfl, hclean⟩)
    unfold removeWorktree
    refine .bind (.get ?_)
    rw [hrefusal]
    exact .effect rfl rfl

/-- `prepare` on an empty path, effect by effect. -/
theorem sat_prepare (h : c.Vacant ticketId base) (hready : c.Preparable ticketId base)
    (hhead : c.refs (Git.branchRef (executionBranchOf ticketId)) = some base)
    (hfree : c.worktrees.get c.resolved = none) :
    Sat (fun u => u = c.checkOut (executionBranchOf ticketId) ∨ u = c.rebuilt ticketId base)
      (prepare graph ticketId base)
      (fun workspace u => workspace.head = base ∧ u = c.rebuilt ticketId base)
      (fun _ _ => False) c := by
  have hregistrations : c.registrations = .ok c.worktrees :=
    registrations_eq_ok.mpr ⟨h.listed, rfl⟩
  have hbranch : c.validateBranch graph ticketId base = .ok () :=
    validateBranch_eq_ok.mpr ⟨base, hhead, Git.CommitGraph.isAncestor_of_reaches .refl⟩
  have hthere : (c.checkOut (executionBranchOf ticketId)).OnBranch ticketId
      { gitdir := some c.resolved, submodules := c.submodulesOf base } := by
    refine ⟨?_, Dict.get_set_self ..⟩
    unfold checkOut
    rw [hhead]
    rfl
  unfold prepare
  refine .bind (.observe (validateBase_eq_ok.mpr h.available) ?_)
  refine .bind (.get (.bind (.ensure (fun _ => ?_) fun hnot => hnot hready.root)))
  refine .bind ?_
  unfold ensureBranch
  refine .bind (.get ?_)
  rw [hhead]
  refine .pure (.bind (.observe hbranch ?_))
  refine .bind (.observe hregistrations (.bind (.get ?_)))
  refine .bind (.ensure (fun _ => ?_) fun hnot => hnot h.attached)
  refine .bind (.ensure (fun _ => ?_) fun hnot => hnot hready.path)
  unfold materialize
  refine .bind (.get ?_)
  rw [hfree, h.content]
  unfold addWorktree
  refine .bind (.get ?_)
  rw [hready.add]
  refine .bind (.effect (.inl rfl) ?_)
  refine .bind (.observe (registrations_eq_ok.mpr ⟨h.listed, rfl⟩) (.bind (.get ?_)))
  rw [show (c.checkOut (executionBranchOf ticketId)).worktrees.get
    (c.checkOut (executionBranchOf ticketId)).resolved = some (.branch (executionBranchOf ticketId))
    from Dict.get_set_self ..]
  unfold reuse
  refine .bind (.observe (validateExisting_onBranch base hthere hhead) (.bind ?_))
  unfold prepareSubmodules
  refine .bind (.get ?_)
  rw [hthere.1]
  dsimp only
  rw [hready.submodules]
  refine .effect (.inr (checkOut_rebuilt hhead)) ?_
  exact .pure ⟨rfl, checkOut_rebuilt hhead⟩

omit [Project] in
/-- Without its worktree, and with the branch at the base, the path is vacant. -/
theorem vacant_emptied (hlisted : c.unlisted = none)
    (hexclusive : ∀ entry ∈ c.worktrees, entry.2 = .branch (executionBranchOf ticketId) →
      entry.1 = c.resolved) (havailable : c.available base = true) :
    (setRef (Git.branchRef (executionBranchOf ticketId)) base c.dropWorktree).Vacant ticketId
      base := by
  refine ⟨havailable, hlisted, fun head hhead => ?_, attached_dropWorktree_iff.mpr hexclusive, rfl⟩
  rw [refs_setRef_self] at hhead
  exact (Option.some.inj hhead).symm

omit [Project] in
theorem preparable_emptied (hroot : c.rootLinked = false) (hpath : c.pathLinked = false)
    (hadd : c.refuses .addWorktree = none) (hsubmodules : (c.submodulesOf base).prepared = .ok ()) :
    (setRef (Git.branchRef (executionBranchOf ticketId)) base c.dropWorktree).Preparable ticketId
      base := by
  refine ⟨hroot, hpath, fun hnone => ?_, fun hstale => ?_, hadd, hsubmodules⟩
  · rw [refs_setRef_self] at hnone
    cases hnone
  · cases (congrArg Option.isSome (get_dropWorktree c)).symm.trans hstale

/-- The old head is pinned, the worktree is gone and the branch has moved. -/
def emptied (ticketId base oldHead : String) (prior : ExecutionReport) (c : WorkspaceSite) :
    WorkspaceSite :=
  setRef (Git.branchRef (executionBranchOf ticketId)) base
    (c.setRef (workspaceRecoveryRef ticketId prior.executionId) oldHead).dropWorktree

/-- The branch has not moved yet, and the repair ends where it would have ended from `c`. -/
structure Halfway (ticketId base oldHead : String) (prior : ExecutionReport) (c t : WorkspaceSite) :
    Prop where
  head : t.refs (Git.branchRef (executionBranchOf ticketId)) = some oldHead
  reports : t.reports = c.reports
  replaceable : t.Replaceable ticketId base oldHead prior
  emptied : t.emptied ticketId base oldHead prior = c.emptied ticketId base oldHead prior

/-- The branch has moved. -/
def Past (ticketId base oldHead : String) (prior : ExecutionReport) (c t : WorkspaceSite) : Prop :=
  t = c.emptied ticketId base oldHead prior
    ∨ t = (c.emptied ticketId base oldHead prior).checkOut (executionBranchOf ticketId)
    ∨ t = (c.emptied ticketId base oldHead prior).rebuilt ticketId base

omit [Project] in
theorem Halfway.pinned (h : Halfway ticketId base oldHead prior c t) :
    Halfway ticketId base oldHead prior c
      (t.setRef (workspaceRecoveryRef ticketId prior.executionId) oldHead) where
  head := (refs_setRef_of_ne _ _ (branchRef_ne_workspaceRecoveryRef _ _ _)).trans h.head
  reports := h.reports
  replaceable :=
    { h.replaceable with
      evidence := .inl (refs_setRef_self ..)
      removable := { h.replaceable.removable with } }
  emptied := by
    rw [← h.emptied]
    unfold WorkspaceSite.emptied setRef
    simp only [Function.update_idem]

omit [Project] in
theorem Halfway.cleared (h : Halfway ticketId base oldHead prior c t)
    (hpinned : t.refs (workspaceRecoveryRef ticketId prior.executionId) = some oldHead) :
    Halfway ticketId base oldHead prior c t.dropWorktree where
  head := h.head
  reports := h.reports
  replaceable :=
    { h.replaceable with
      evidence := .inl hpinned
      removable :=
        { listed := h.replaceable.removable.listed
          attached := attached_dropWorktree_iff.mpr h.replaceable.exclusive
          worktree := .inl ⟨get_dropWorktree t, rfl⟩ }
      exclusive := fun entry hentry => h.replaceable.exclusive entry (List.mem_filter.mp hentry).1 }
  emptied := by
    rw [← h.emptied]
    unfold WorkspaceSite.emptied setRef dropWorktree Dict.erase
    simp only [List.filter_filter, Bool.and_self]

/-- The rest of a repair, effect by effect. -/
theorem Halfway.sat_replaceWorkspace (h : Halfway ticketId base oldHead prior c t) :
    Sat (fun u => Halfway ticketId base oldHead prior c u ∨ Past ticketId base oldHead prior c u)
      (replaceWorkspace graph ticketId base oldHead prior) (fun _ _ => True) (fun _ _ => True) t := by
  have hpinned := h.pinned
  have hthere : (t.setRef (workspaceRecoveryRef ticketId prior.executionId) oldHead).refs
      (workspaceRecoveryRef ticketId prior.executionId) = some oldHead := refs_setRef_self ..
  have hcleared := hpinned.cleared hthere
  have hemptied : setRef (Git.branchRef (executionBranchOf ticketId)) base
      (t.setRef (workspaceRecoveryRef ticketId prior.executionId) oldHead).dropWorktree
        = c.emptied ticketId base oldHead prior := h.emptied
  have hready := hpinned.replaceable
  have hvacant := vacant_emptied hready.removable.listed hready.exclusive hready.available
  have hpreparable := @preparable_emptied ticketId base _ hready.root hready.path hready.add
    hready.submodules
  unfold replaceWorkspace
  refine .bind ((sat_preserve h.replaceable.evidence).mono ?_ ?_ fun _ _ hfalse => hfalse.elim)
  · rintro _ rfl
    exact .inl hpinned
  rintro _ _ rfl
  refine .bind (.observe (unmoved_eq_ok.mpr hpinned.head) (.bind ?_))
  refine (sat_removeConflicting hpinned.replaceable.removable hpinned.head).mono ?_ ?_
    fun _ _ hfalse => hfalse.elim
  · rintro _ rfl
    exact .inl hcleared
  rintro _ _ rfl
  refine .bind ?_
  unfold moveBranch
  refine .bind (.observe (unmoved_eq_ok.mpr hcleared.head) (.bind (.get (.bind ?_))))
  refine .ensure (fun _ => ?_) fun hnot => (hnot ⟨hready.available, hready.move⟩).elim
  refine .effect (.inr (.inl hemptied)) (.bind ?_)
  refine (sat_prepare hvacant hpreparable (refs_setRef_self ..) (get_dropWorktree _)).mono
    (fun u hu => ?_) (fun _ _ _ => ?_) fun _ _ hfalse => hfalse.elim
  · rw [hemptied] at hu
    exact .inr (.inr hu)
  · exact .bind (.get (.ensure (fun _ => trivial) fun _ => trivial))

/-- An automatic repair of a branch at `oldHead`, the result of the execution `prior`; no earlier
    execution ended at the base. -/
structure Replacing (graph : Git.CommitGraph) (s : RuntimeState)
    (ticketId executionId base oldHead : String) (prior : ExecutionReport)
    (reports : List ExecutionReport) (c : WorkspaceSite) : Prop where
  worker : s.preWorker = true
  boundTicket : s.executionTicketId = some ticketId
  boundExecution : s.executionId = some executionId
  boundBase : s.executionBaseHead = some base
  head : c.refs (Git.branchRef (executionBranchOf ticketId)) = some oldHead
  moves : base ≠ oldHead
  read : c.reports = .ok reports
  proven : priorReports executionId (executionBranchOf ticketId) oldHead reports = [prior]
  fresh : priorReports executionId (executionBranchOf ticketId) base reports = []
  replaceable : c.Replaceable ticketId base oldHead prior
  start : ∀ start ∈ s.executionStartHead, base = start

theorem Replacing.repair_eq
    (h : Replacing graph s ticketId executionId base oldHead prior reports c) :
    repair graph s = repairBinding graph ticketId executionId base := by
  rw [repair_of_preWorker h.worker, h.boundTicket, h.boundExecution, h.boundBase]
  rfl

omit [Project] in
theorem Past.head (h : Past ticketId base oldHead prior c t) :
    t.refs (Git.branchRef (executionBranchOf ticketId)) = some base
      ∧ t.reports = c.reports := by
  rcases h with rfl | rfl | rfl
  · exact ⟨refs_setRef_self .., rfl⟩
  · exact ⟨refs_setRef_self .., rfl⟩
  · exact ⟨Function.update_self .., rfl⟩

/-- Once the branch has moved, the repair does nothing. -/
theorem Past.repair_visited
    (h : Replacing graph s ticketId executionId base oldHead prior reports c)
    (hpast : Past ticketId base oldHead prior c t) : (repair graph s t).visited = [] := by
  obtain ⟨hhead, hreports⟩ := hpast.head
  rw [h.repair_eq]
  refine repairBinding_of_unproven hhead ?_
  rintro ⟨_, prior', hread, hproven⟩
  rw [hreports, h.read] at hread
  cases hread
  rw [h.fresh] at hproven
  cases hproven

/-- Once the branch has moved, the binding is reusable if the fresh checkout is there with its
    submodules. -/
theorem Past.reusable_iff
    (h : Replacing graph s ticketId executionId base oldHead prior reports c)
    (hpast : Past ticketId base oldHead prior c t) :
    t.Reusable graph ticketId base s.executionStartHead ↔ ∃ checkout,
      t.content = .directory checkout ∧ checkout.submodules.verified = .ok () := by
  have hready := h.replaceable
  constructor
  · intro hreusable
    obtain ⟨checkout, ⟨hcontent, -⟩, -, hverified⟩ := hreusable.directory
    exact ⟨checkout, hcontent, hverified⟩
  · rintro ⟨checkout, hcontent, hverified⟩
    rcases hpast with rfl | rfl | rfl
    · cases hcontent
    · cases hcontent
      refine ⟨hready.available, hready.removable.listed, ⟨base, refs_setRef_self .., ?_, h.start⟩, ?_,
        Dict.get_set_self .., ⟨_, ⟨rfl, Dict.get_set_self ..⟩, rfl, hverified⟩, hready.root,
        hready.path⟩
      · exact Git.CommitGraph.isAncestor_of_reaches .refl
      · unfold attachedAt checkOut Dict.set
        simp
    · exact (reusable_rebuilt_iff (c := c.emptied ticketId base oldHead prior) hready.available
        hready.removable.listed hready.root hready.path).mpr h.start

/-- Every state that killed repairs leave is before or after the move of the branch. -/
theorem Replacing.halfway_or_past
    (h : Replacing graph s ticketId executionId base oldHead prior reports c)
    (hkilled : Interrupted (fun _ _ => True) (fun _ : Unit => repair graph s) c t) :
    Halfway ticketId base oldHead prior c t ∨ Past ticketId base oldHead prior c t := by
  refine hkilled.invariant (I := fun u => Halfway ticketId base oldHead prior c u
    ∨ Past ticketId base oldHead prior c u) (.inl ⟨h.head, rfl, h.replaceable, rfl⟩) ?_
  rintro _ u (hhalfway | hpast) - v hv
  · rw [h.repair_eq] at hv
    unfold repairBinding at hv
    rw [Program.get_bind, hhalfway.head] at hv
    dsimp only at hv
    rw [Program.observe_bind (hhalfway.reports.trans h.read), h.proven] at hv
    exact hhalfway.sat_replaceWorkspace.1 v hv
  · rw [hpast.repair_visited h] at hv
    exact (List.not_mem_nil hv).elim

/-- **Resumption.** After any number of killed repairs the next one ends, with the result of an
    undisturbed repair, exactly when the branch has not moved yet.  Once it has moved the repair does
    nothing any more, and the binding is reusable exactly when the fresh checkout is there with its
    submodules. -/
theorem killed_repair_resumes_iff
    (h : Replacing graph s ticketId executionId base oldHead prior reports c)
    (hkilled : Interrupted (fun _ _ => True) (fun _ : Unit => repair graph s) c t) :
    (Runs (repair graph s) t () (c.replaced ticketId base oldHead prior)
        ↔ t.refs (Git.branchRef (executionBranchOf ticketId)) = some oldHead)
      ∧ (t.refs (Git.branchRef (executionBranchOf ticketId)) ≠ some oldHead →
        (repair graph s t).visited = []
          ∧ ((t.inspectBound graph s).classification = .reusable ↔ ∃ checkout,
            t.content = .directory checkout ∧ checkout.submodules.verified = .ok ())) := by
  rcases h.halfway_or_past hkilled with hhalfway | hpast
  · have hend : c.replaced ticketId base oldHead prior = t.replaced ticketId base oldHead prior := by
      rw [← replaced_eq, ← replaced_eq]
      exact congrArg (rebuilt ticketId base) hhalfway.emptied.symm
    refine ⟨iff_of_true ?_ hhalfway.head, fun hmoved => absurd hhalfway.head hmoved⟩
    rw [h.repair_eq, runs_repairBinding hhalfway.head]
    exact ⟨reports, prior, hhalfway.reports.trans h.read, h.proven, hhalfway.replaceable, hend⟩
  · obtain ⟨hhead, hreports⟩ := hpast.head
    have hmoved : t.refs (Git.branchRef (executionBranchOf ticketId)) ≠ some oldHead := by
      rw [hhead]
      exact fun hsame => h.moves (Option.some.inj hsame)
    refine ⟨iff_of_false (fun hrun => ?_) hmoved, fun _ => ⟨hpast.repair_visited h, ?_⟩⟩
    · rw [h.repair_eq, runs_repairBinding hhead] at hrun
      obtain ⟨reports', prior', hread, hproven, -⟩ := hrun
      rw [hreports, h.read] at hread
      cases hread
      rw [h.fresh] at hproven
      cases hproven
    · rw [inspectBound_of_preWorker h.worker, h.boundTicket, h.boundExecution, h.boundBase,
        inspectBinding_eq_reusable_iff]
      exact hpast.reusable_iff h

end Resume

theorem spentSite_replaceable : Replaceable "t1" (sampleHead 'b') (sampleHead 'd') sampleReport
    spentSite where
  evidence := .inr ⟨by decide, rfl⟩
  removable :=
    { listed := rfl
      attached := by decide
      worktree := .inr ⟨rfl, ⟨_, rfl, rfl, rfl⟩, rfl⟩ }
  exclusive := by decide
  available := by decide
  move := rfl
  root := rfl
  path := rfl
  add := rfl
  submodules := rfl

theorem spentSite_replacing : @Replacing sampleProject flatGraph reboundState "t1" "e2"
    (sampleHead 'b') (sampleHead 'd') sampleReport [sampleReport] spentSite :=
  @Replacing.mk sampleProject _ _ _ _ _ _ _ _ _ (by decide) rfl rfl rfl rfl (by decide) rfl
    (by decide) (by decide) spentSite_replaceable fun _ hstart => (Option.not_mem_none _ hstart).elim

theorem killed_repair_resumes_spent :
    (@repair sampleProject flatGraph reboundState spentSiteMoved).visited = []
      ∧ (@inspectBound sampleProject flatGraph reboundState spentSiteMoved).classification
        ≠ .reusable := by
  have hkilled : Interrupted (fun _ _ => True)
      (fun _ : Unit => @repair sampleProject flatGraph reboundState) spentSite spentSiteMoved :=
    .single ⟨(), trivial, spentSiteMoved_mem⟩
  have hresumes := @killed_repair_resumes_iff sampleProject flatGraph reboundState _ _ _ _ _ _ _ _
    spentSite_replacing hkilled
  have hmoved : spentSiteMoved.refs (Git.branchRef (executionBranchOf "t1"))
      ≠ some (sampleHead 'd') := by decide
  obtain ⟨hnothing, hreusable⟩ := hresumes.2 hmoved
  refine ⟨hnothing, fun h => ?_⟩
  obtain ⟨checkout, hcontent, -⟩ := hreusable.mp h
  cases hcontent

end WorkspaceSite

end Devlegate
