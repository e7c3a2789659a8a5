import Devlegate.WorkspaceRecovery

namespace Devlegate

open Crash

/-!
# Killed recoveries of a workspace

An operator recovery changes refs here and on the remote, takes a worktree away, makes another and
saves the state.  The process can be killed between any two of these effects; the stored record makes
the next iteration start again.

* `killed_recovery_resumes`: a killed recovery ends as an undisturbed one would have.
* `killed_attempts_keep`: repairs and recoveries, each killed anywhere, lose nothing here or on the
  remote.
* `killed_recovery_unpublished`: what a killed recovery leaves out for good.
-/

namespace RecoverySite

section Recovery

variable [Sha256] {graph : Git.CommitGraph} {ticketId executionId base observedHead : String}
  {c t : RecoverySite}

/-! ### Killed recoveries -/

/-- The sites agree, up to what the remote has under the recovery refs. -/
structure EndsAs (u v : RecoverySite) : Prop where
  state : u.state = v.state
  clone : u.clone = v.clone
  remote : ∀ ref, (∀ ticketId, ¬ IsRecoveryRef ticketId ref) → u.remote.refs ref = v.remote.refs ref

/-- The recovery can start again from `u`, and ends as it would have ended from `c`. -/
structure Leads (graph : Git.CommitGraph) (ticketId executionId base observedHead : String)
    (c u : RecoverySite) : Prop where
  state : u.state = c.state
  refuses : u.clone.refuses = c.clone.refuses
  restorable : u.Restorable graph ticketId executionId base observedHead
  ends : (u.recovered ticketId executionId base observedHead).EndsAs
    (c.recovered ticketId executionId base observedHead)

theorem Leads.refl (h : c.Restorable graph ticketId executionId base observedHead) :
    Leads graph ticketId executionId base observedHead c c :=
  ⟨rfl, rfl, h, rfl, rfl, fun _ _ => rfl⟩

omit [Sha256] in
theorem EndsAs.trans {u v w : RecoverySite} (h : u.EndsAs v) (h' : v.EndsAs w) : u.EndsAs w :=
  ⟨h.state.trans h'.state, h.clone.trans h'.clone,
    fun ref href => (h.remote ref href).trans (h'.remote ref href)⟩

theorem Leads.trans {u v : RecoverySite}
    (h : Leads graph ticketId executionId base observedHead c u)
    (h' : Leads graph ticketId executionId base observedHead u v) :
    Leads graph ticketId executionId base observedHead c v :=
  ⟨h'.state.trans h.state, h'.refuses.trans h.refuses, h'.restorable, h'.ends.trans h.ends⟩

omit [Sha256] in
theorem pinned_eq_self
    (h : c.clone.refs (operatorRecoveryRef ticketId executionId) = some observedHead) :
    c.pinned ticketId executionId observedHead = c := by
  unfold pinned
  rw [WorkspaceSite.setRef_eq_self h]

/-- Once the remote branch is settled only the clone changes. -/
theorem Restorable.leads_of_settled
    (h : c.Restorable graph ticketId executionId base observedHead) {clone : WorkspaceSite}
    (hpinned : clone.refs (operatorRecoveryRef ticketId executionId) = some observedHead)
    (hhead : clone.refs (Git.branchRef (executionBranchOf ticketId))
        = c.clone.refs (Git.branchRef (executionBranchOf ticketId))
      ∨ clone.refs (Git.branchRef (executionBranchOf ticketId)) = some base)
    (hrebuildable : clone.Rebuildable ticketId base) (hrefuses : clone.refuses = c.clone.refuses)
    (hrebuilt : clone.rebuilt ticketId base
      = (c.settled ticketId executionId base observedHead).clone.rebuilt ticketId base) :
    Leads graph ticketId executionId base observedHead c
      { c.settled ticketId executionId base observedHead with clone := clone } := by
  obtain ⟨y, hy⟩ : ∃ y, ({ c.settled ticketId executionId base observedHead with
    clone := clone } : RecoverySite) = y := ⟨_, rfl⟩
  have hclone : y.clone = clone := hy ▸ rfl
  have hstate : y.state = c.state := hy ▸ h.reconcilable.refsOnly.state
  have hremote : y.remote = (c.settled ticketId executionId base observedHead).remote := hy ▸ rfl
  have hbranch : y.remote.refs (Git.branchRef (executionBranchOf ticketId))
      = c.remaining ticketId base := hy ▸ h.reconcilable.remote_branch
  have hthere : y.clone.refs (operatorRecoveryRef ticketId executionId) = some observedHead :=
    hclone ▸ hpinned
  have hsettled : ∀ head, y.remote.refs (Git.branchRef (executionBranchOf ticketId)) = some head →
      head = base := by
    intro head hhead
    rw [hbranch] at hhead
    rcases @remaining_eq ticketId base c with hnone | hbase
    · rw [hnone] at hhead
      cases hhead
    · rw [hbase] at hhead
      exact (Option.some.inj hhead).symm
  have hremaining : y.remaining ticketId base = c.remaining ticketId base := by
    unfold remaining at hbranch ⊢
    rw [hbranch, Option.map_map]
    rfl
  -- a second recovery finds nothing to settle
  have hself : y.settled ticketId executionId base observedHead = y := by
    unfold settled
    rw [pinned_eq_self hthere, reconciled_of_eq hsettled]
  -- the branch may have been moved to the base, which is the named head only if it was before
  have hcurrent : y.clone.refs (Git.branchRef (executionBranchOf ticketId)) = some observedHead →
      c.clone.refs (Git.branchRef (executionBranchOf ticketId)) = some observedHead := by
    intro hobserved
    rw [hclone] at hobserved
    rcases hhead with hsame | hbase
    · exact hsame.symm.trans hobserved
    · rw [hbase] at hobserved
      rw [← hobserved]
      exact h.authorized.elim (fun hstart => hstart.trans hobserved.symm) (·.2)
  rw [hy]
  refine ⟨hstate, hclone ▸ hrefuses, ⟨?_, .inl hthere, ?_, hclone ▸ hrebuildable, ?_, ?_⟩, ?_⟩
  · rcases hhead with hsame | hbase
    · rcases h.authorized with hobserved | ⟨-, hbase⟩
      · exact .inl (hclone ▸ hsame.trans hobserved)
      · exact .inr ⟨hthere, hclone ▸ hsame.trans hbase⟩
    · exact .inr ⟨hthere, hclone ▸ hbase⟩
  · rw [pinned_eq_self hthere]
    refine ⟨?_, fun head hhead hne => absurd (hsettled head hhead) hne⟩
    rw [hremote]
    exact h.reconcilable.refsOnly.reachable.trans h.reconcilable.reachable
  · intro hobserved
    rw [hclone, hrefuses]
    exact h.move (hcurrent hobserved)
  · rw [hremaining, hstate]
    exact h.saved
  · unfold recovered
    rw [hself, hremaining, hstate, hclone, hrebuilt, hremote]
    exact ⟨rfl, rfl, fun _ _ => rfl⟩

/-- The pin comes first. -/
theorem Restorable.leads_pinned (h : c.Restorable graph ticketId executionId base observedHead) :
    Leads graph ticketId executionId base observedHead c
      (c.pinned ticketId executionId observedHead) := by
  have hthere : (c.pinned ticketId executionId observedHead).clone.refs
      (operatorRecoveryRef ticketId executionId) = some observedHead :=
    WorkspaceSite.refs_setRef_self ..
  have hbranch : (c.pinned ticketId executionId observedHead).clone.refs
      (Git.branchRef (executionBranchOf ticketId))
        = c.clone.refs (Git.branchRef (executionBranchOf ticketId)) :=
    WorkspaceSite.refs_setRef_of_ne _ _ ((isRecoveryRef_operator ..).branchRef_ne _)
  have hself := pinned_eq_self hthere
  refine ⟨rfl, rfl, ⟨?_, .inl hthere, hself.symm ▸ h.reconcilable,
    WorkspaceSite.rebuildable_refs_iff.mpr h.rebuildable, fun hobserved => h.move (hbranch ▸ hobserved),
    h.saved⟩, ?_⟩
  · exact h.authorized.imp (hbranch.trans ·) fun hreplay => ⟨hthere, hbranch.trans hreplay.2⟩
  · unfold recovered settled
    rw [hself]
    exact ⟨rfl, rfl, fun _ _ => rfl⟩

/-- A head of the remote branch is pinned, and published or not. -/
theorem Restorable.leads_kept (h : c.Restorable graph ticketId executionId base observedHead)
    (hthere : c.clone.refs (operatorRecoveryRef ticketId executionId) = some observedHead)
    {ref head : String} {remote : RemoteSite}
    (hhead : c.remote.refs (Git.branchRef (executionBranchOf ticketId)) = some head)
    (hne : head ≠ base) (hevidence : c.clone.remoteEvidence ticketId executionId head = .ok ref)
    (hnone : c.clone.refs ref = none) (hremote : remote = c.remote ∨ remote = c.remote.setRef ref head) :
    Leads graph ticketId executionId base observedHead c
      { c with clone := c.clone.setRef ref head, remote := remote } := by
  have hrecovery := WorkspaceSite.isRecoveryRef_of_remoteEvidence hevidence
  have hbranch := hrecovery.branchRef_ne (executionBranchOf ticketId)
  have hoperator : operatorRecoveryRef ticketId executionId ≠ ref := by
    rintro rfl
    rw [hthere] at hnone
    cases hnone
  have hstays : (c.clone.setRef ref head).refs (Git.branchRef (executionBranchOf ticketId))
      = c.clone.refs (Git.branchRef (executionBranchOf ticketId)) :=
    WorkspaceSite.refs_setRef_of_ne _ _ hbranch
  have hthere' : (c.clone.setRef ref head).refs (operatorRecoveryRef ticketId executionId)
      = some observedHead := (WorkspaceSite.refs_setRef_of_ne _ _ hoperator).trans hthere
  have hhead' : remote.refs (Git.branchRef (executionBranchOf ticketId)) = some head := by
    rcases hremote with rfl | rfl
    · exact hhead
    · exact (Function.update_of_ne hbranch ..).trans hhead
  have hframe : remote.unreachable = c.remote.unreachable ∧ remote.refuses = c.remote.refuses := by
    rcases hremote with rfl | rfl <;> exact ⟨rfl, rfl⟩
  have hself := pinned_eq_self hthere
  have hself' := @pinned_eq_self ticketId executionId observedHead
    { c with clone := c.clone.setRef ref head, remote := remote } hthere'
  have hreconcilable := h.reconcilable
  rw [hself] at hreconcilable
  obtain ⟨-, -, -, havailable, hretire⟩ := hreconcilable.retire head hhead hne
  have hremaining : ({ c with clone := c.clone.setRef ref head, remote := remote } :
      RecoverySite).remaining ticketId base = c.remaining ticketId base := by
    unfold remaining
    rw [hhead, show ({ c with clone := c.clone.setRef ref head, remote := remote } :
      RecoverySite).remote.refs (Git.branchRef (executionBranchOf ticketId)) = some head from hhead']
  refine ⟨rfl, rfl, ⟨?_, .inl hthere', ?_, WorkspaceSite.rebuildable_refs_iff.mpr h.rebuildable,
    fun hobserved => h.move (hstays ▸ hobserved), hremaining ▸ h.saved⟩, ?_⟩
  · exact h.authorized.imp (hstays.trans ·) fun hreplay => ⟨hthere', hstays.trans hreplay.2⟩
  · rw [hself']
    refine ⟨hframe.1.trans hreconcilable.reachable, fun head' hsome hne' => ?_⟩
    cases hhead'.symm.trans hsome
    exact ⟨ref, hevidence, .inl (WorkspaceSite.refs_setRef_self ..), havailable,
      hframe.2 ▸ hretire⟩
  · -- the next recovery does not publish the ref, as it finds the pin; only that ref may differ
    have hkept : c.keepEvidence ref head = c.published ref head := if_pos hnone
    have hkept' : ({ c with clone := c.clone.setRef ref head, remote := remote } :
        RecoverySite).keepEvidence ref head
          = { c with clone := c.clone.setRef ref head, remote := remote } := by
      refine if_neg fun hgone => ?_
      rw [WorkspaceSite.refs_setRef_self] at hgone
      cases hgone
    unfold recovered settled
    rw [hself, hself', hremaining, reconciled_of_ne hhead hne hevidence, hkept,
      reconciled_of_ne (c := { c with clone := c.clone.setRef ref head, remote := remote }) hhead' hne
        hevidence, hkept']
    refine ⟨rfl, rfl, fun other hother => ?_⟩
    show (remote.setRef _ base).refs other = ((c.remote.setRef ref head).setRef _ base).refs other
    by_cases hsame : other = Git.branchRef (executionBranchOf ticketId)
    · rw [hsame, RemoteSite.refs_setRef_self, RemoteSite.refs_setRef_self]
    · rw [RemoteSite.refs_setRef_of_ne _ _ hsame, RemoteSite.refs_setRef_of_ne _ _ hsame]
      rcases hremote with rfl | rfl
      · refine (RemoteSite.refs_setRef_of_ne _ _ ?_).symm
        rintro rfl
        exact hother ticketId hrecovery
      · rfl

omit [Sha256] in
/-- A fresh checkout is made anew. -/
theorem rebuilt_checkOut (site : WorkspaceSite) :
    (site.checkOut (executionBranchOf ticketId)).rebuilt ticketId base
      = site.rebuilt ticketId base := by
  unfold WorkspaceSite.rebuilt WorkspaceSite.checkOut Dict.set
  simp [List.filter_filter]

omit [Sha256] in
theorem rebuilt_rebuilt (site : WorkspaceSite) :
    (site.rebuilt ticketId base).rebuilt ticketId base = site.rebuilt ticketId base := by
  unfold WorkspaceSite.rebuilt Dict.set
  simp [List.filter_filter]

/-- From every state on the way the recovery can start again. -/
theorem Passes.leads (h : c.Restorable graph ticketId executionId base observedHead)
    (hremoves : c.clone.refuses .forceRemoveWorktree = none)
    (hpasses : Passes ticketId executionId base observedHead c t) :
    Leads graph ticketId executionId base observedHead c t
      ∨ t = c.recovered ticketId executionId base observedHead := by
  have hstart := h.leads_pinned
  have hrefs : RefsOnly ticketId (c.pinned ticketId executionId observedHead)
      (c.settled ticketId executionId base observedHead) := h.reconcilable.refsOnly
  have hthere : (c.settled ticketId executionId base observedHead).clone.refs
      (operatorRecoveryRef ticketId executionId) = some observedHead :=
    hrefs.kept _ _ (WorkspaceSite.refs_setRef_self ..)
  have hne : operatorRecoveryRef ticketId executionId
      ≠ Git.branchRef (executionBranchOf ticketId) :=
    ((isRecoveryRef_operator ..).branchRef_ne _).symm
  have hbranch : (c.settled ticketId executionId base observedHead).clone.refs
      (Git.branchRef (executionBranchOf ticketId))
        = c.clone.refs (Git.branchRef (executionBranchOf ticketId)) :=
    hrefs.branch.trans (WorkspaceSite.refs_setRef_of_ne _ _ hne.symm)
  have hrebuildable : (c.settled ticketId executionId base observedHead).clone.Rebuildable ticketId
      base := by
    rw [hrefs.clone, WorkspaceSite.rebuildable_refs_iff]
    exact hstart.restorable.rebuildable
  have hrefuses : (c.settled ticketId executionId base observedHead).clone.refuses
      = c.clone.refuses := congrArg (·.refuses) hrefs.clone
  have hremoves' := (congrFun hrefuses .forceRemoveWorktree).trans hremoves
  -- moving the execution branch leaves the named head under its recovery ref
  have hmoved : (WorkspaceSite.setRef (Git.branchRef (executionBranchOf ticketId)) base
      (c.settled ticketId executionId base observedHead).clone).refs
        (operatorRecoveryRef ticketId executionId) = some observedHead :=
    (WorkspaceSite.refs_setRef_of_ne _ _ hne).trans hthere
  -- up to the settled remote branch the refs differ, and from there on only the clone
  cases hpasses with
  | pinned => exact .inl hstart
  | kept hhead hne hevidence hnone =>
    exact .inl (hstart.trans (hstart.restorable.leads_kept (WorkspaceSite.refs_setRef_self ..) hhead
      hne hevidence hnone (.inl rfl)))
  | published hhead hne hevidence hnone =>
    exact .inl (hstart.trans (hstart.restorable.leads_kept (WorkspaceSite.refs_setRef_self ..) hhead
      hne hevidence hnone (.inr rfl)))
  | reconciled => exact .inl (h.leads_of_settled hthere (.inl hbranch) hrebuildable hrefuses rfl)
  | removed =>
    refine .inl (h.leads_of_settled hthere (.inl hbranch) hrebuildable.dropWorktree hrefuses ?_)
    unfold WorkspaceSite.rebuilt WorkspaceSite.dropWorktree Dict.set Dict.erase
    simp only [List.filter_filter, Bool.and_self]
  | moved =>
    exact .inl (h.leads_of_settled hmoved (.inr (WorkspaceSite.refs_setRef_self ..))
      (hrebuildable.dropWorktree.setRef ..) hrefuses (rebuilt_emptied _))
  | checkedOut =>
    exact .inl (h.leads_of_settled hmoved (.inr (WorkspaceSite.refs_setRef_self ..))
      ((hrebuildable.dropWorktree.setRef ..).checkOut hremoves') hrefuses
      ((rebuilt_checkOut _).trans (rebuilt_emptied _)))
  | rebuilt =>
    exact .inl (h.leads_of_settled hmoved (.inr (WorkspaceSite.refs_setRef_self ..))
      ((hrebuildable.checkedOut hremoves' {}).setRef ..) hrefuses (rebuilt_rebuilt _))
  | saved => exact .inr rfl

end Recovery

end RecoverySite

/-- A recovery for the named head is stored, and the binding is that of the manager. -/
structure RuntimeState.Recovering [Project] (ticketId executionId base observedHead : String)
    (s : RuntimeState) : Prop where
  phase : s.phase = .agentPending
  recovery : ∃ recovery, s.operatorRecovery = some recovery ∧ recovery.ticketId = ticketId
    ∧ recovery.executionId.getD "" = executionId ∧ recovery.observedHead.getD "" = observedHead
    ∧ [some recovery.ticketId, recovery.executionId, recovery.observedHead].all nonEmpty = true
  identity : [s.executionBaseHead, s.executionBranch, s.executionPath].all nonEmpty = true
  base : s.executionBaseHead.getD "" = base
  canonical : isCanonicalTicketName (ticketId ++ ".md") = true
  managed : s.managed ticketId = true

namespace RecoverySite

section Pending

variable [Sha256] [Project] {graph : Git.CommitGraph}
  {ticketId executionId base observedHead : String} {c t u : RecoverySite}

theorem recoverPending_eq (h : c.state.Recovering ticketId executionId base observedHead) :
    recoverPending graph c = recoverBinding graph ticketId executionId base observedHead c := by
  obtain ⟨recovery, hrecovery, rfl, rfl, rfl, hnamed⟩ := h.recovery
  unfold recoverPending
  rw [Program.get_bind, h.phase, hrecovery]
  dsimp only
  rw [Program.ensure_bind hnamed]
  unfold recoverUnsafe
  rw [Program.get_bind, Program.ensure_bind h.identity, Program.ensure_bind h.canonical,
    Program.ensure_bind h.managed, h.base]

/-- A recovery is stored, or nothing happens. -/
theorem recoverPending_cases (graph : Git.CommitGraph) (c : RecoverySite) :
    (∃ ticketId executionId base observedHead,
        c.state.Recovering ticketId executionId base observedHead)
      ∨ ∃ result, recoverPending graph c = ⟨[], result⟩ := by
  -- the checks in the order of the source; the first that fails ends the run without an effect
  cases hphase : c.state.phase with
  | agentPending =>
    cases hrecovery : c.state.operatorRecovery with
    | none =>
      refine .inr ⟨.ok (), ?_⟩
      unfold recoverPending
      rw [Program.get_bind, hphase, hrecovery]
      rfl
    | some recovery =>
      by_cases hnamed : [some recovery.ticketId, recovery.executionId,
        recovery.observedHead].all nonEmpty = true
      · have hnext : recoverPending graph c = recoverUnsafe graph recovery.ticketId
            (recovery.executionId.getD "") (recovery.observedHead.getD "") c := by
          unfold recoverPending
          rw [Program.get_bind, hphase, hrecovery]
          dsimp only
          rw [Program.ensure_bind hnamed]
        rw [hnext]
        unfold recoverUnsafe
        rw [Program.get_bind]
        by_cases hidentity : [c.state.executionBaseHead, c.state.executionBranch,
          c.state.executionPath].all nonEmpty = true
        · rw [Program.ensure_bind hidentity]
          by_cases hcanonical : isCanonicalTicketName (recovery.ticketId ++ ".md") = true
          · rw [Program.ensure_bind hcanonical]
            by_cases hmanaged : c.state.managed recovery.ticketId = true
            · exact .inl ⟨_, _, _, _, hphase, ⟨recovery, hrecovery, rfl, rfl, rfl, hnamed⟩, hidentity,
                rfl, hcanonical, hmanaged⟩
            · exact .inr ⟨_, Program.ensure_bind_of_not hmanaged _ _ _⟩
          · exact .inr ⟨_, Program.ensure_bind_of_not hcanonical _ _ _⟩
        · exact .inr ⟨_, Program.ensure_bind_of_not hidentity _ _ _⟩
      · refine .inr ⟨.error "persisted operator recovery identity is incomplete", ?_⟩
        unfold recoverPending
        rw [Program.get_bind, hphase, hrecovery]
        exact Program.ensure_bind_of_not hnamed _ _ _
  | _ =>
    refine .inr ⟨.ok (), ?_⟩
    unfold recoverPending
    rw [Program.get_bind, hphase]
    rfl

/-- Once its end is saved, nothing of the recovery is left to do. -/
theorem recoverPending_recovered (h : t.EndsAs (c.recovered ticketId executionId base observedHead)) :
    recoverPending graph t = ⟨[], .ok ()⟩ := by
  unfold recoverPending
  rw [Program.get_bind, h.state]
  rfl

/-- From a state on the way the recovery ends as it would have. -/
theorem Leads.resumes (hstate : c.state.Recovering ticketId executionId base observedHead)
    (hleads : Leads graph ticketId executionId base observedHead c t) :
    ∃ v, Runs (recoverPending graph) t () v
      ∧ v.EndsAs (c.recovered ticketId executionId base observedHead) := by
  refine ⟨t.recovered ticketId executionId base observedHead, ?_, hleads.ends⟩
  unfold Runs
  rw [recoverPending_eq (hleads.state ▸ hstate)]
  exact runs_recoverBinding.mpr ⟨hleads.restorable, rfl⟩

/-- **Resumption.** Where an undisturbed recovery would end, the next one ends the same way after any
    number of killed recoveries, up to what the remote has under the recovery refs; Git must not
    refuse to take a fresh worktree away. -/
theorem killed_recovery_resumes (hrun : Runs (recoverPending graph) c () u)
    (hremoves : c.clone.refuses .forceRemoveWorktree = none)
    (hkilled : Interrupted (fun _ _ => True) (fun _ : Unit => recoverPending graph) c t) :
    ∃ v, Runs (recoverPending graph) t () v ∧ v.EndsAs u := by
  rcases recoverPending_cases graph c with ⟨ticketId, executionId, base, observedHead, hstate⟩
    | ⟨result, hnothing⟩
  · have hbinding : Runs (recoverBinding graph ticketId executionId base observedHead) c () u := by
      unfold Runs at hrun ⊢
      rwa [recoverPending_eq hstate] at hrun
    obtain ⟨hrestorable, rfl⟩ := runs_recoverBinding.mp hbinding
    have hreached : Leads graph ticketId executionId base observedHead c t
        ∨ t.EndsAs (c.recovered ticketId executionId base observedHead) := by
      refine hkilled.invariant (I := fun w => Leads graph ticketId executionId base observedHead c w
        ∨ w.EndsAs (c.recovered ticketId executionId base observedHead)) (.inl (.refl hrestorable)) ?_
      rintro _ w (hleads | hends) - v hv
      · rw [recoverPending_eq (hleads.state ▸ hstate)] at hv
        have hpasses := hleads.restorable.sat_recoverBinding.1 v hv
        rcases hpasses.leads hleads.restorable (hleads.refuses ▸ hremoves) with hnext | rfl
        · exact .inl (hleads.trans hnext)
        · exact .inr hleads.ends
      · rw [recoverPending_recovered hends] at hv
        exact (List.not_mem_nil hv).elim
    rcases hreached with hleads | hends
    · exact hleads.resumes hstate
    · refine ⟨t, ?_, hends⟩
      unfold Runs
      rw [recoverPending_recovered hends]
      exact ⟨rfl, rfl⟩
  · have hsame : t = c := by
      refine hkilled.invariant (I := fun w => w = c) rfl ?_
      rintro _ w rfl - v hv
      rw [hnothing] at hv
      exact (List.not_mem_nil hv).elim
    exact ⟨u, hsame ▸ hrun, ⟨rfl, rfl, fun _ _ => rfl⟩⟩

end Pending

/-! ### A stranded head -/

/-- The branch is at `f`, which no execution has reported; `e1` has pushed `d`.  The operator has
    named `f`. -/
def strandedSite : RecoverySite where
  state := { WorkspaceSite.reboundState with
    operatorRecovery := some ⟨"t1", some "e2", some (sampleHead 'f')⟩ }
  clone := { WorkspaceSite.spentSite with
    refs := fun ref => if ref = "refs/heads/devlegate/work/t1" then some (sampleHead 'f') else none
    available := fun _ => true }
  remote :=
    { refs := fun ref =>
        if ref = "refs/heads/devlegate/work/t1" then some (sampleHead 'd') else none }

/-- Both heads are pinned, and nothing is published. -/
def strandedSitePinned : RecoverySite :=
  { strandedSite with
    clone := .setRef "refs/devlegate/recovery/workspace/t1/e1" (sampleHead 'd')
      (strandedSite.clone.setRef "refs/devlegate/recovery/operator/t1/e2" (sampleHead 'f')) }

theorem strandedSitePinned_mem : strandedSitePinned
    ∈ (@recoverPending sampleSha256 sampleProject WorkspaceSite.flatGraph strandedSite).visited :=
  List.mem_of_getElem? (i := 1) rfl

theorem strandedSite_recovering : @RuntimeState.Recovering sampleProject "t1" "e2" (sampleHead 'b')
    (sampleHead 'f') strandedSite.state :=
  @RuntimeState.Recovering.mk sampleProject _ _ _ _ _ rfl ⟨⟨"t1", some "e2", some (sampleHead 'f')⟩, rfl, rfl, rfl, rfl,
    by decide⟩
    (by decide) rfl (by decide) (by decide)

theorem strandedSite_reconcilable : (strandedSite.pinned "t1" "e2" (sampleHead 'f')).Reconcilable
    WorkspaceSite.flatGraph "t1" "e2" (sampleHead 'b') where
  reachable := rfl
  retire head hhead _ := by
    cases hhead
    exact ⟨workspaceRecoveryRef "t1" "e1", rfl, .inr ⟨by decide, rfl, rfl, rfl⟩, rfl, rfl⟩

theorem strandedSite_rebuildable : strandedSite.clone.Rebuildable "t1" (sampleHead 'b') where
  removable :=
    { listed := rfl
      attached := by decide
      worktree := .inr ⟨rfl, ⟨_, rfl, rfl, rfl⟩, rfl⟩ }
  exclusive := by decide
  available := rfl
  root := rfl
  path := rfl
  add := rfl
  submodules := rfl

theorem strandedSite_restorable : @Restorable sampleSha256 WorkspaceSite.flatGraph "t1" "e2"
    (sampleHead 'b') (sampleHead 'f') strandedSite :=
  @Restorable.mk sampleSha256 _ _ _ _ _ _ (.inl rfl) (.inr ⟨by decide, rfl⟩)
    strandedSite_reconcilable strandedSite_rebuildable (fun _ => rfl) (by decide)

theorem strandedSite_runs : Runs (@recoverPending sampleSha256 sampleProject WorkspaceSite.flatGraph)
    strandedSite () (strandedSite.recovered "t1" "e2" (sampleHead 'b') (sampleHead 'f')) := by
  unfold Runs
  rw [@recoverPending_eq sampleSha256 sampleProject _ _ _ _ _ _ strandedSite_recovering]
  exact (@runs_recoverBinding _ _ _ _ _ _ _ sampleSha256 sampleProject).mpr
    ⟨strandedSite_restorable, rfl⟩

theorem killed_recovery_resumes_stranded : ∃ v,
    Runs (@recoverPending sampleSha256 sampleProject WorkspaceSite.flatGraph) strandedSitePinned () v
      ∧ v.EndsAs (strandedSite.recovered "t1" "e2" (sampleHead 'b') (sampleHead 'f')) :=
  @killed_recovery_resumes sampleSha256 sampleProject _ _ _ _ strandedSite_runs rfl
    (.single ⟨(), trivial, strandedSitePinned_mem⟩)

end RecoverySite

namespace RecoverySite

/-! ### Attempts -/

/-- The engine has saved a state; then it repairs the workspace or goes on with a recovery. -/
inductive Attempt where
  | repair (s : RuntimeState)
  | recover (s : RuntimeState)

/-- The ticket an attempt is about. -/
def Attempt.ticketId : Attempt → Option String
  | .repair s => s.executionTicketId
  | .recover s => s.operatorRecovery.map (·.ticketId)

def attempt [Sha256] [Project] (graph : Git.CommitGraph) : Attempt → Program Unit
  | .repair s => do
    .effect fun c => { c with state := s }
    inClone (WorkspaceSite.repair graph s)
  | .recover s => do
    .effect fun c => { c with state := s }
    recoverPending graph

/-! ### What is kept -/

section Kept

variable {graph : Git.CommitGraph} {ticketId executionId base observedHead ref head : String}
  {c t u : RecoverySite}

/-- `t` still has what `c` had in the clone.  On the remote the head of the branch is there or under
    a recovery ref of the clone, recovery refs only move forward, none moves that the clone has, and
    no other ref moves. -/
structure Kept (graph : Git.CommitGraph) (ticketId : String) (c t : RecoverySite) : Prop where
  clone : WorkspaceSite.Kept ticketId c.clone t.clone
  remoteHead : ∀ head, c.remote.refs (Git.branchRef (executionBranchOf ticketId)) = some head →
    t.remote.refs (Git.branchRef (executionBranchOf ticketId)) = some head
      ∨ ∃ ref, IsRecoveryRef ticketId ref ∧ t.clone.refs ref = some head
  forward : ∀ ref head, IsRecoveryRef ticketId ref → c.remote.refs ref = some head →
    ∃ head', t.remote.refs ref = some head' ∧ graph.Reaches head' head
  unpublished : ∀ ref head, IsRecoveryRef ticketId ref → c.clone.refs ref = some head →
    t.remote.refs ref = c.remote.refs ref
  others : ∀ ref, ref ≠ Git.branchRef (executionBranchOf ticketId) → ¬ IsRecoveryRef ticketId ref →
    t.remote.refs ref = c.remote.refs ref

/-- Nothing changes on the remote. -/
theorem Kept.of_clone (h : WorkspaceSite.Kept ticketId c.clone t.clone)
    (hremote : t.remote.refs = c.remote.refs) : Kept graph ticketId c t where
  clone := h
  remoteHead _ hhead := .inl (hremote ▸ hhead)
  forward _ head _ hhead := ⟨head, hremote ▸ hhead, .refl⟩
  unpublished _ _ _ _ := congrFun hremote _
  others _ _ _ := congrFun hremote _

theorem Kept.refl (graph : Git.CommitGraph) (ticketId : String) (c : RecoverySite) :
    Kept graph ticketId c c :=
  .of_clone (.refl ticketId c.clone) rfl

theorem Kept.trans (h : Kept graph ticketId c t) (h' : Kept graph ticketId t u) :
    Kept graph ticketId c u where
  clone := h.clone.trans h'.clone
  remoteHead head hhead := by
    rcases h.remoteHead head hhead with hthere | ⟨ref, hrecovery, hpinned⟩
    · exact h'.remoteHead head hthere
    · exact .inr ⟨ref, hrecovery, h'.clone.pinned ref head hrecovery hpinned⟩
  forward ref head hrecovery hhead := by
    obtain ⟨head', hhead', hreaches⟩ := h.forward ref head hrecovery hhead
    obtain ⟨head'', hhead'', hreaches'⟩ := h'.forward ref head' hrecovery hhead'
    exact ⟨head'', hhead'', hreaches'.trans hreaches⟩
  unpublished ref head hrecovery hpinned :=
    (h'.unpublished ref head hrecovery (h.clone.pinned ref head hrecovery hpinned)).trans
      (h.unpublished ref head hrecovery hpinned)
  others ref hbranch hrecovery :=
    (h'.others ref hbranch hrecovery).trans (h.others ref hbranch hrecovery)

/-- What a program of the clone keeps is kept. -/
theorem stays_inClone {α : Type} {p : WorkspaceSite.Program α}
    (h : Stays (WorkspaceSite.Kept ticketId) p c.clone) : Stays (Kept graph ticketId) (inClone p) c :=
  Stays.zoom rfl (fun _ hkept => .of_clone hkept rfl) h

/-- The pin comes before the push, and only where there is none. -/
theorem stays_publishEvidence (hrecovery : IsRecoveryRef ticketId ref) :
    Stays (Kept graph ticketId) (publishEvidence graph ref head) c := by
  unfold publishEvidence
  refine .bind .trans (.of_get (Kept.refl graph ticketId)) ?_
  intro d u hget
  obtain ⟨rfl, rfl⟩ := runs_get.mp hget
  cases hrefs : c.clone.refs ref with
  | some pinned => exact .of_ensure (Kept.refl graph ticketId)
  | none =>
    refine .bind .trans (.of_ensure (Kept.refl graph ticketId)) ?_
    intro _ u hensure
    obtain ⟨-, rfl⟩ := runs_ensure.mp hensure
    have hpin : Kept graph ticketId c { c with clone := c.clone.setRef ref head } :=
      .of_clone (.pin hrecovery hrefs) rfl
    refine Sat.bind (sat_inClone (.effect hpin ?_))
    refine Sat.bind (.ensure (fun haccepts => ?_) fun _ => hpin)
    have hpublished : Kept graph ticketId c (c.published ref head) := by
      refine ⟨hpin.clone, fun head' hhead => .inl ?_, fun ref' head' _ hhead => ?_,
        fun ref' head' _ hpinned => RemoteSite.refs_setRef_of_ne _ _ ?_,
        fun ref' _ hnot => RemoteSite.refs_setRef_of_ne _ _ ?_⟩
      · exact (RemoteSite.refs_setRef_of_ne _ _ (hrecovery.branchRef_ne _)).trans hhead
      · by_cases hsame : ref' = ref
        · subst hsame
          refine ⟨head, RemoteSite.refs_setRef_self .., ?_⟩
          unfold RemoteSite.accepts at haccepts
          rw [hhead, Bool.and_eq_true] at haccepts
          exact Git.CommitGraph.reaches_of_search haccepts.2
        · exact ⟨head', (RemoteSite.refs_setRef_of_ne _ _ hsame).trans hhead, .refl⟩
      · rintro rfl
        rw [hrefs] at hpinned
        cases hpinned
      · rintro rfl
        exact hnot hrecovery
    exact .effect hpublished hpublished

/-- The remote branch moves only once its head is pinned. -/
theorem Kept.retire (hrecovery : IsRecoveryRef ticketId ref)
    (hpinned : c.clone.refs ref = some head)
    (hhead : c.remote.refs (Git.branchRef (executionBranchOf ticketId)) = some head) :
    Kept graph ticketId c (c.setRemote (Git.branchRef (executionBranchOf ticketId)) base) where
  clone := .refl ticketId c.clone
  remoteHead head' hhead' := by
    rw [hhead] at hhead'
    cases hhead'
    exact .inr ⟨ref, hrecovery, hpinned⟩
  forward ref' head' hrecovery' hhead' :=
    ⟨head', (RemoteSite.refs_setRef_of_ne _ _ (hrecovery'.branchRef_ne _).symm).trans hhead', .refl⟩
  unpublished ref' _ hrecovery' _ :=
    RemoteSite.refs_setRef_of_ne _ _ (hrecovery'.branchRef_ne _).symm
  others _ hbranch _ := RemoteSite.refs_setRef_of_ne _ _ hbranch

theorem keepEvidence_pinned (h : c.Publishable graph ref head) :
    (c.keepEvidence ref head).clone.refs ref = some head := by
  unfold keepEvidence
  rcases h with hthere | ⟨hnone, -⟩
  · rw [if_neg (by rw [hthere]; nofun)]
    exact hthere
  · rw [if_pos hnone]
    exact WorkspaceSite.refs_setRef_self ..

theorem stays_reconcileRemote :
    Stays (Kept graph ticketId) (reconcileRemote graph ticketId executionId base) c := by
  unfold reconcileRemote
  refine .bind .trans (.of_observe (Kept.refl graph ticketId)) ?_
  intro remoteHead u hobserve
  obtain ⟨-, rfl⟩ := runs_observe.mp hobserve
  cases remoteHead with
  | none => exact .of_pure (Kept.refl graph ticketId)
  | some head =>
    dsimp only
    by_cases hbase : head = base
    · rw [if_pos hbase]
      exact .of_pure (Kept.refl graph ticketId)
    · rw [if_neg hbase]
      unfold retireRemote
      refine .bind .trans (.of_observe (Kept.refl graph ticketId)) ?_
      intro ref u hobserve
      obtain ⟨hevidence, rfl⟩ := runs_observe.mp hobserve
      have hrecovery := WorkspaceSite.isRecoveryRef_of_remoteEvidence hevidence
      refine .bind .trans (stays_publishEvidence hrecovery) ?_
      intro _ u hpublish
      obtain ⟨hpublishable, rfl⟩ := runs_publishEvidence.mp hpublish
      refine .bind .trans (.of_observe (Kept.refl graph ticketId)) ?_
      intro again u hobserve
      obtain ⟨hagain, rfl⟩ := runs_observe.mp hobserve
      obtain ⟨-, rfl⟩ := executionRemoteHead_eq_ok.mp hagain
      refine .bind .trans (.of_ensure (Kept.refl graph ticketId)) ?_
      intro _ u hensure
      obtain ⟨hhead, rfl⟩ := runs_ensure.mp hensure
      refine .bind .trans (.of_get (Kept.refl graph ticketId)) fun _ u hget => ?_
      obtain ⟨-, rfl⟩ := runs_get.mp hget
      refine .bind .trans (.of_ensure (Kept.refl graph ticketId)) fun _ u hensure => ?_
      obtain ⟨-, rfl⟩ := runs_ensure.mp hensure
      exact .of_effect (.retire hrecovery (keepEvidence_pinned hpublishable) hhead)

/-- The branch moves only once the named head is pinned. -/
theorem stays_moveAuthorized {replay : Bool} {site : WorkspaceSite}
    (h : site.refs (operatorRecoveryRef ticketId executionId) = some observedHead) :
    Stays (WorkspaceSite.Kept ticketId)
      (WorkspaceSite.moveAuthorized ticketId base observedHead replay) site := by
  unfold WorkspaceSite.moveAuthorized
  refine .bind .trans (.of_get (WorkspaceSite.Kept.refl ticketId)) fun d u hget => ?_
  obtain ⟨rfl, rfl⟩ := runs_get.mp hget
  refine .bind .trans (.of_ensure (WorkspaceSite.Kept.refl ticketId)) fun _ u hensure => ?_
  obtain ⟨-, rfl⟩ := runs_ensure.mp hensure
  by_cases hobserved : site.refs (Git.branchRef (executionBranchOf ticketId)) = some observedHead
  · rw [if_pos hobserved]
    refine .bind .trans (.of_ensure (WorkspaceSite.Kept.refl ticketId)) fun _ u hensure => ?_
    obtain ⟨-, rfl⟩ := runs_ensure.mp hensure
    refine .of_effect (.setRef_branch fun head hhead => ⟨_, isRecoveryRef_operator _ executionId, ?_⟩)
    rw [hobserved] at hhead
    exact h.trans hhead
  · rw [if_neg hobserved]
    exact .of_pure (WorkspaceSite.Kept.refl ticketId)

variable [Sha256] [Project]

theorem stays_recoverBinding :
    Stays (Kept graph ticketId) (recoverBinding graph ticketId executionId base observedHead) c := by
  unfold recoverBinding
  refine .bind .trans (.of_observe (Kept.refl graph ticketId)) fun replay u hobserve => ?_
  obtain ⟨-, rfl⟩ := runs_observe.mp hobserve
  refine .bind .trans (stays_inClone ((WorkspaceSite.pinAuthorized_alike _ _).stays
    (WorkspaceSite.stays_preserve (isRecoveryRef_operator ..)))) fun _ u hpin => ?_
  obtain ⟨site, hpreserve, rfl⟩ := runs_inClone.mp hpin
  rw [(WorkspaceSite.pinAuthorized_alike _ _).runs_iff, WorkspaceSite.runs_preserve] at hpreserve
  obtain ⟨-, rfl⟩ := hpreserve
  refine .bind .trans stays_reconcileRemote fun _ u hremote => ?_
  have hkept : Kept graph ticketId _ u := stays_reconcileRemote.of_runs hremote
  have hthere := hkept.clone.pinned _ _ (isRecoveryRef_operator ticketId executionId)
    (WorkspaceSite.refs_setRef_self ..)
  have hremove : Stays (WorkspaceSite.Kept ticketId) (WorkspaceSite.removeAuthorized ticketId
      (if replay = true then base else observedHead)) u.clone :=
    (WorkspaceSite.removeAuthorized_alike _ _).stays WorkspaceSite.stays_removeConflicting
  refine .bind .trans (stays_inClone hremove) fun _ v hremoved => ?_
  obtain ⟨site, hsite, rfl⟩ := runs_inClone.mp hremoved
  have hthere' := (hremove.of_runs hsite).pinned _ _ (isRecoveryRef_operator ..) hthere
  refine .bind .trans (stays_inClone (stays_moveAuthorized hthere')) fun _ v _ => ?_
  refine .bind .trans (stays_inClone WorkspaceSite.stays_prepare) fun _ v _ => ?_
  refine .bind .trans (.of_get (Kept.refl graph ticketId)) fun _ v _ => ?_
  refine .bind .trans (.of_ensure (Kept.refl graph ticketId)) fun _ v _ => ?_
  refine .bind .trans (.of_observe (Kept.refl graph ticketId)) fun _ v _ => ?_
  refine .bind .trans (.of_ensure (Kept.refl graph ticketId)) fun _ v _ => ?_
  unfold saveRecovered
  refine .bind .trans (.of_observe (Kept.refl graph ticketId)) fun _ v _ => ?_
  exact .of_effect (.of_clone (.refl ticketId v.clone) rfl)

theorem stays_recoverPending
    (h : ∀ recovery, c.state.operatorRecovery = some recovery → recovery.ticketId = ticketId) :
    Stays (Kept graph ticketId) (recoverPending graph) c := by
  unfold recoverPending
  refine .bind .trans (.of_get (Kept.refl graph ticketId)) fun d u hget => ?_
  obtain ⟨rfl, rfl⟩ := runs_get.mp hget
  dsimp only
  split
  · rename_i recovery _ hrecovery
    obtain rfl := h recovery hrecovery
    refine .bind .trans (.of_ensure (Kept.refl graph recovery.ticketId)) fun _ u hensure => ?_
    obtain ⟨-, rfl⟩ := runs_ensure.mp hensure
    unfold recoverUnsafe
    refine .bind .trans (.of_get (Kept.refl graph recovery.ticketId)) fun _ u _ => ?_
    refine .bind .trans (.of_ensure (Kept.refl graph recovery.ticketId)) fun _ u _ => ?_
    refine .bind .trans (.of_ensure (Kept.refl graph recovery.ticketId)) fun _ u _ => ?_
    refine .bind .trans (.of_ensure (Kept.refl graph recovery.ticketId)) fun _ u _ => ?_
    exact stays_recoverBinding
  · exact .of_pure (Kept.refl graph ticketId)

theorem stays_attempt {a : Attempt} (h : a.ticketId = some ticketId) :
    Stays (Kept graph ticketId) (attempt graph a) c := by
  cases a with
  | repair s =>
    refine .bind .trans (.of_effect (.of_clone (.refl ticketId c.clone) rfl)) fun _ u heffect => ?_
    obtain rfl := runs_effect.mp heffect
    exact stays_inClone (WorkspaceSite.stays_repair s h)
  | recover s =>
    refine .bind .trans (.of_effect (.of_clone (.refl ticketId c.clone) rfl)) fun _ u heffect => ?_
    obtain rfl := runs_effect.mp heffect
    refine stays_recoverPending fun recovery hrecovery => ?_
    have hticket : s.operatorRecovery.map (·.ticketId) = some ticketId := h
    rw [show s.operatorRecovery = some recovery from hrecovery] at hticket
    exact Option.some.inj hticket

/-- **Nothing is lost.** Any number of repairs and operator recoveries of a ticket's workspace, for
    any of its executions and any named heads and each killed anywhere, keep every head of the
    branch here and on the remote, every other ref and worktree and all uncommitted work. -/
theorem killed_attempts_keep (h : Interrupted (fun _ a => a.ticketId = some ticketId) (attempt graph)
    c t) : Kept graph ticketId c t :=
  h.stays (Kept.refl graph ticketId) .trans fun _ _ hticket => stays_attempt hticket

end Kept

theorem killed_attempts_keep_stranded :
    Kept WorkspaceSite.flatGraph "t1" strandedSite strandedSitePinned := by
  refine @killed_attempts_keep WorkspaceSite.flatGraph "t1" strandedSite strandedSitePinned
    sampleSha256 sampleProject (.single ⟨.recover strandedSite.state, rfl, ?_⟩)
  exact visited_bind_runs (a := ()) (runs_effect.mpr rfl) strandedSitePinned_mem

/-! ### What is never published -/

section Unpublished

variable {graph : Git.CommitGraph} {ticketId executionId base observedHead ref head : String}
  {c t u : RecoverySite} [Sha256] [Project]

omit [Project] in
theorem Restorable.authorize (h : c.Restorable graph ticketId executionId base observedHead) :
    ∃ replay, c.clone.authorize ticketId executionId base observedHead = .ok replay :=
  ⟨_, WorkspaceSite.authorize_eq_ok.mpr ⟨h.authorized.imp_right decide_eq_true, rfl⟩⟩

omit [Sha256] [Project] in
/-- Only evidence that is not pinned yet is published. -/
theorem Reconcilable.remote_of_ne (h : c.Reconcilable graph ticketId executionId base)
    (hrecovery : IsRecoveryRef ticketId ref)
    (hpublished : (c.reconciled ticketId executionId base).remote.refs ref ≠ c.remote.refs ref) :
    ∃ head, c.remote.refs (Git.branchRef (executionBranchOf ticketId)) = some head ∧ head ≠ base
      ∧ c.clone.remoteEvidence ticketId executionId head = .ok ref ∧ c.clone.refs ref = none
      ∧ c.Publishable graph ref head := by
  rcases h.cases with ⟨-, hend⟩ | ⟨head, ref', hhead, hne, hevidence, hpublishable, -, hend⟩
  · rw [hend] at hpublished
    exact absurd rfl hpublished
  · have hbranch := (hrecovery.branchRef_ne (executionBranchOf ticketId)).symm
    rw [hend, show ((c.keepEvidence ref' head).setRemote (Git.branchRef (executionBranchOf ticketId))
      base).remote.refs ref = (c.keepEvidence ref' head).remote.refs ref from
        RemoteSite.refs_setRef_of_ne _ _ hbranch] at hpublished
    have hsame : ref = ref' := by
      by_contra hother
      exact hpublished (remote_keepEvidence_of_ne hother)
    subst hsame
    have hnone : c.clone.refs ref = none := by
      by_contra hthere
      unfold keepEvidence at hpublished
      rw [if_neg hthere] at hpublished
      exact hpublished rfl
    exact ⟨head, hhead, hne, hevidence, hnone, hpublishable⟩

/-- The state between the pin and the push is one that a recovery visits. -/
theorem Restorable.kept_mem (h : c.Restorable graph ticketId executionId base observedHead)
    (hhead : c.remote.refs (Git.branchRef (executionBranchOf ticketId)) = some head)
    (hne : head ≠ base)
    (hevidence : c.clone.remoteEvidence ticketId executionId head = .ok ref)
    (hnone : (c.pinned ticketId executionId observedHead).clone.refs ref = none)
    (hpublishable : (c.pinned ticketId executionId observedHead).Publishable graph ref head) :
    { c.pinned ticketId executionId observedHead with
        clone := (c.pinned ticketId executionId observedHead).clone.setRef ref head }
      ∈ (recoverBinding graph ticketId executionId base observedHead c).visited := by
  obtain ⟨replay, hauthorize⟩ := h.authorize
  have hready : (c.pinned ticketId executionId observedHead).clone.available head = true
      ∧ (c.pinned ticketId executionId observedHead).clone.refuses .pin = none := by
    rcases hpublishable with hthere | ⟨-, havailable, hpin, -⟩
    · rw [hnone] at hthere
      cases hthere
    · exact ⟨havailable, hpin⟩
  have hpin : Runs (inClone (WorkspaceSite.pinAuthorized (operatorRecoveryRef ticketId executionId)
      observedHead)) c () (c.pinned ticketId executionId observedHead) := by
    rw [runs_inClone]
    refine ⟨_, ?_, rfl⟩
    rw [(WorkspaceSite.pinAuthorized_alike _ _).runs_iff, WorkspaceSite.runs_preserve]
    exact ⟨h.evidence, rfl⟩
  unfold recoverBinding
  refine visited_bind_runs (runs_observe.mpr ⟨hauthorize, rfl⟩) ?_
  refine visited_bind_runs hpin (visited_bind ?_)
  unfold reconcileRemote
  rw [Program.observe_bind (executionRemoteHead_eq_ok.mpr ⟨h.reconcilable.reachable, rfl⟩),
    show (c.pinned ticketId executionId observedHead).remote.refs (Git.branchRef
      (executionBranchOf ticketId)) = some head from hhead]
  dsimp only
  rw [if_neg hne]
  unfold retireRemote
  refine visited_bind_runs (runs_observe.mpr ⟨hevidence, rfl⟩) (visited_bind ?_)
  unfold publishEvidence
  rw [Program.get_bind, hnone]
  dsimp only
  rw [Program.ensure_bind hready]
  exact visited_bind (List.mem_singleton.mpr rfl)

/-- **Never published.** Whatever an undisturbed recovery publishes, there is a point where a killed
    one has not, and no later attempt does, although the recovery still ends as it would have. -/
theorem killed_recovery_unpublished (hrun : Runs (recoverPending graph) c () u)
    (hticket : c.state.operatorRecovery.map (·.ticketId) = some ticketId)
    (hrecovery : IsRecoveryRef ticketId ref) (hpublished : u.remote.refs ref ≠ c.remote.refs ref) :
    ∃ t ∈ (recoverPending graph c).visited,
      (∃ v, Runs (recoverPending graph) t () v ∧ v.EndsAs u)
        ∧ ∀ v, Interrupted (fun _ a => a.ticketId = some ticketId) (attempt graph) t v →
          v.remote.refs ref = c.remote.refs ref := by
  rcases recoverPending_cases graph c with ⟨ticketId', executionId, base, observedHead, hstate⟩
    | ⟨result, hnothing⟩
  · obtain ⟨recovery, hstored, hsame, -⟩ := hstate.recovery
    rw [hstored] at hticket
    obtain rfl : ticketId' = ticketId := hsame.symm.trans (Option.some.inj hticket)
    have hbinding : Runs (recoverBinding graph ticketId' executionId base observedHead) c () u := by
      unfold Runs at hrun ⊢
      rwa [recoverPending_eq hstate] at hrun
    obtain ⟨hrestorable, rfl⟩ := runs_recoverBinding.mp hbinding
    obtain ⟨head, hhead, hne, hevidence, hnone, hpublishable⟩ :=
      hrestorable.reconcilable.remote_of_ne hrecovery hpublished
    have hmem := hrestorable.kept_mem hhead hne hevidence hnone hpublishable
    rw [← recoverPending_eq hstate] at hmem
    -- with the head pinned the recovery can still be led to its end
    have hleads := hrestorable.leads_pinned.trans (hrestorable.leads_pinned.restorable.leads_kept
      (WorkspaceSite.refs_setRef_self ..) hhead hne hevidence hnone (.inl rfl))
    refine ⟨_, hmem, hleads.resumes hstate, ?_⟩
    intro v hattempts
    exact (hattempts.stays (Kept.refl graph ticketId') .trans fun _ _ hticket =>
      stays_attempt hticket).unpublished ref head hrecovery (WorkspaceSite.refs_setRef_self ..)
  · obtain ⟨-, rfl⟩ := hrun
    rw [hnothing] at hpublished
    exact absurd rfl hpublished

end Unpublished

theorem killed_recovery_unpublished_stranded :
    ∃ t ∈ (@recoverPending sampleSha256 sampleProject WorkspaceSite.flatGraph strandedSite).visited,
      (∃ v, Runs (@recoverPending sampleSha256 sampleProject WorkspaceSite.flatGraph) t () v
          ∧ v.EndsAs (strandedSite.recovered "t1" "e2" (sampleHead 'b') (sampleHead 'f')))
        ∧ ∀ v, Interrupted (fun _ a => a.ticketId = some "t1")
          (@attempt sampleSha256 sampleProject WorkspaceSite.flatGraph) t v →
            v.remote.refs (workspaceRecoveryRef "t1" "e1")
              = strandedSite.remote.refs (workspaceRecoveryRef "t1" "e1") :=
  @killed_recovery_unpublished _ _ _ _ _ sampleSha256 sampleProject strandedSite_runs rfl
    (isRecoveryRef_workspace ..) (by decide)

end RecoverySite

end Devlegate
