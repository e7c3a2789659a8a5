import Devlegate.UpdateBase

namespace Devlegate

open Crash

/-!
# A refused move onto a new base

`reconcile update-base` raises in many places.  Before its write-ahead record nothing has happened;
after it the record names a target, and the base in memory is not the durable one.

* `Session.NoTrace`: the request might as well not have been made.
* `Session.admission`: what is checked before the write-ahead record.
* `Session.updateBase_noTrace_iff`: a request that raises leaves no trace if and only if it found no
  rewrite in progress and either was refused before its record or its rebase was taken back.
-/

/-! ### Traces -/

namespace Session

open Site

/-- A request onto `newer` is not refused for the target of a rewrite in progress. -/
def OpenTo (newer : String) (w : Session) : Prop :=
  ∀ r ∈ w.state.reconciliation, r.rewriteStage = none ∨ r.rewriteTarget = some newer

/-- A call that found `w` leaves `w'` without a trace: the record and the base are those of before,
    the memory is the durable state, the worktree is at the preserved checkpoint, and a request onto
    any newer head is still accepted. -/
structure NoTrace [Project] (r : Reconciliation) (w w' : Session) : Prop where
  record : w'.state.reconciliation = w.state.reconciliation
  base : w'.state.executionBaseHead = w.state.executionBaseHead
  memory : w'.memory = w'.state
  worktree : w'.executionHead r = some r.workerCheckpoint
  newer : ∀ target, w'.OpenTo target

/-- A rewrite in progress is recorded. -/
def Staged (w : Session) : Prop := ∃ r ∈ w.state.reconciliation, r.rewriteStage ≠ none

section Checks

variable [Project] (graph : Git.CommitGraph)

/-- The checks before the write-ahead record: the lineage that is going to be rewritten. -/
def admission (product : ProductCheckout) (ticketId target : String) (rewritePublished : Bool)
    (r : Reconciliation) (w : Session) : Except String (List String) := do
  validateUpdateBase graph product ticketId target r w
  let workspace ← executionWorkspaceForRecovery graph w
  provenLineage graph r workspace rewritePublished w

/-- A rebase that the operation takes back: it is on top of the target, the submodules of the worktree
    are those of its head, and the worktree is dirty or the number of commits is another one. -/
def TakenBack (target : String) (lineage : List String) (w : Session) : Rebase → Prop
  | .finished head dirty => graph.isAncestor target head = true ∧ w.submodules head = .ok ()
      ∧ (dirty = true ∨ graph.revCount target head ≠ lineage.length ∨ head = target)
  | .conflict _ _ | .unavailable _ => False

end Checks

section Failure

variable [Project] {graph : Git.CommitGraph} {product : ProductCheckout} {r : Reconciliation}
  {target ticketId : String} {rewritePublished : Bool} {lineage : List String} {rebase : Rebase}
  {w t : Session}

/-- A rewrite in progress that was not there before is a trace. -/
theorem Staged.not_noTrace (h : t.Staged) (hrecord : w.state.reconciliation = some r)
    (hstage : r.rewriteStage = none) : ¬ NoTrace r w t := by
  intro htrace
  obtain ⟨q, hq, hstaged⟩ := h
  have hsame : some q = some r := by
    rw [← hrecord, ← htrace.record]
    exact hq.symm
  rw [Option.some.inj hsame] at hstaged
  exact hstaged hstage

/-- A request that finds a rewrite in progress is bound to its target, whatever it does. -/
theorem not_noTrace_of_stage (hrecord : w.state.reconciliation = some r)
    (hstage : r.rewriteStage ≠ none) : ¬ NoTrace r w t := by
  intro htrace
  have hsame : t.state.reconciliation = some r := htrace.record.trans hrecord
  -- no text is its own extension
  have hbound := htrace.newer (r.rewriteTarget.getD "" ++ "x") r hsame
  have htarget := hbound.resolve_left hstage
  have hlength : (r.rewriteTarget.getD "").length = (r.rewriteTarget.getD "" ++ "x").length := by
    conv_lhs => rw [htarget]
    rfl
  have hone : "x".length = 1 := rfl
  rw [String.length_append, hone] at hlength
  omega

/-- Nothing has happened. -/
theorem noTrace_self_iff (hmemory : w.memory = w.state) (hrecord : w.state.reconciliation = some r)
    (hstage : r.rewriteStage = none) :
    NoTrace r w w ↔ w.executionHead r = some r.workerCheckpoint := by
  constructor
  · exact fun h => h.worktree
  · intro hhead
    refine ⟨rfl, rfl, hmemory, hhead, ?_⟩
    intro newer q hq
    have hsame : q = r := Option.some.inj (hq.symm.trans hrecord)
    exact .inl (hsame ▸ hstage)

/-! ### After the write-ahead record -/

section Steps

variable [Sha256]

omit [Project] in
/-- A save either stores its payload or raises and changes nothing. -/
theorem sat_save_cases {Q : Unit → Session → Prop} {E : String → Session → Prop} {call : SaveCall}
    (hok : Q () { w with state := call.payload w.memory, memory := call.payload w.memory })
    (herr : ∀ message, E message w) : Sat (fun _ => True) (save call) Q E w := by
  unfold save
  refine .bind (.get ?_)
  cases hsave : saveState call w.memory with
  | error message => exact .raise (herr message)
  | ok s =>
    obtain ⟨rfl, -⟩ := saveState_eq_ok.mp hsave
    exact .effect trivial hok

omit [Project] in
theorem sat_publish_staged {operation : Reconciliation} {head : String} (h : t.Staged) :
    Sat (fun _ => True) (publishRewritten r operation head) (fun _ u => u.Staged)
      (fun _ u => u.Staged) t := by
  unfold publishRewritten createRef
  cases r.executionRemoteHead with
  | none => exact .pure h
  | some published =>
    refine .bind (.bind (.get ?_))
    refine .bind (.ensure (fun _ => ?_) fun _ => h)
    refine .effect trivial ?_
    have hstaged : ∀ u : Session, u.state.reconciliation = some (remoteOperation operation head) →
        u.Staged := fun u hu => ⟨_, hu, by simp [remoteOperation]⟩
    refine .bind (sat_save_cases ?_ fun _ => h)
    refine .bind (.get ?_)
    refine .bind (.ensure (fun _ => ?_) fun _ => hstaged _ rfl)
    exact .effect trivial (hstaged _ rfl)

omit [Project] [Sha256] in
theorem sat_pin_staged {ref head : String} (h : t.Staged) :
    Sat (fun _ => True) (pinRewritten ref head) (fun _ u => u.Staged) (fun _ u => u.Staged) t := by
  unfold pinRewritten
  refine .bind (.get ?_)
  cases t.git.refs ref with
  | none => exact .effect trivial h
  | some existing => exact .ensure (fun _ => h) fun _ => h

/-- A rebase that is not taken back leaves the rewrite in progress, whatever raises then. -/
theorem sat_finishRewrite_staged {operation : Reconciliation} {workspace : ExecutionWorkspace}
    {base : Option String} (hstaged : t.Staged)
    (hkept : ∀ updated, executionWorkspaceForRecovery graph t = .ok updated →
      ¬ (updated.dirty = true ∨ graph.revCount target updated.head ≠ lineage.length
        ∨ updated.head = target)) :
    Sat (fun _ => True) (finishRewrite graph r operation workspace target lineage base)
      (fun _ _ => True) (fun _ u => u.Staged) t := by
  unfold finishRewrite
  cases hobserved : executionWorkspaceForRecovery graph t with
  | error message => exact .bind (.refused hobserved hstaged)
  | ok updated =>
    refine .bind (.observe hobserved ?_)
    rw [if_neg (hkept updated hobserved)]
    refine .bind (.ensure (fun _ => ?_) fun _ => hstaged)
    refine .bind ((sat_publish_staged hstaged).mono (fun _ => id) ?_ fun _ _ => id)
    intro _ u hu
    refine .bind ((sat_pin_staged hu).mono (fun _ => id) ?_ fun _ _ => id)
    intro _ v hv
    exact sat_save_cases trivial fun _ => hv

/-- A rebase that is taken back. -/
theorem sat_finishRewrite_takenBack {operation : Reconciliation}
    {workspace updated : ExecutionWorkspace} {base : Option String} {s : RuntimeState}
    (hobserved : executionWorkspaceForRecovery graph t = .ok updated)
    (hback : updated.dirty = true ∨ graph.revCount target updated.head ≠ lineage.length
      ∨ updated.head = target)
    (hs : (rewriteCall (some r.originalBase) r).payload { t.memory with executionBaseHead := base }
      = s) (hvalid : validateStateInvariant s = .ok ()) :
    Sat (fun _ => True) (finishRewrite graph r operation workspace target lineage base)
      (fun _ _ => False)
      (fun _ u => u
        = { moveHead workspace.ticketId r.workerCheckpoint t with state := s, memory := s }) t := by
  unfold finishRewrite
  refine .bind (.observe hobserved ?_)
  rw [if_pos hback]
  refine .bind (.effect trivial ?_)
  refine .bind (.effect trivial ?_)
  refine .bind (sat_save hs hvalid trivial ?_)
  exact .raise rfl

end Steps

/-! ### The rewrite -/

/-- The session after a rebase. -/
def rebased (r : Reconciliation) (target head : String) (dirty : Bool) (s : RuntimeState)
    (w : Session) : Session :=
  rebaseTo r.ticketId head dirty
    { w with state := s, memory := { s with executionBaseHead := some target } }

/-- What the operation finds after a rebase. -/
theorem head_of_rebased {head : String} {dirty : Bool} {s : RuntimeState}
    {workspace : ExecutionWorkspace} (hticket : s.executionTicketId = some r.ticketId)
    (h : executionWorkspaceForRecovery graph (rebased r target head dirty s w) = .ok workspace) :
    graph.isAncestor target head = true ∧ w.submodules head = .ok () ∧ workspace.head = head
      ∧ workspace.dirty = dirty := by
  obtain ⟨ticketId, base, found, status, ht, hbase, -, -, hhead, hrelated, hregistered, -, hverified,
    rfl⟩ := executionWorkspaceForRecovery_eq_ok.mp h
  have hid : ticketId = r.ticketId := Option.some.inj (ht.symm.trans hticket)
  have htarget : base = target := Option.some.inj hbase.symm
  subst hid htarget
  have hfound : found = head := by
    simpa [rebased, rebaseTo, Git.Repository.resetHard, eq_comm] using hhead
  have hstatus : status = dirty := by
    have hset : Dict.get (Dict.set w.git.worktrees (executionPathOf r.ticketId)
        ⟨executionBranchOf r.ticketId, dirty⟩) (executionPathOf r.ticketId)
        = some ⟨executionBranchOf r.ticketId, dirty⟩ := Dict.get_set_self _ _ _
    have hsame := hset.symm.trans hregistered
    simpa [eq_comm] using hsame
  exact ⟨hfound ▸ hrelated, hfound ▸ hverified, hfound, hstatus⟩

theorem executionWorkspaceForRecovery_rebased {head : String} {dirty : Bool} {s : RuntimeState}
    {workspace : ExecutionWorkspace} (hmemory : w.memory = w.state)
    (h : executionWorkspaceForRecovery graph w = .ok workspace)
    (hticket : w.state.executionTicketId = some r.ticketId)
    (hsticket : s.executionTicketId = w.state.executionTicketId)
    (hbranch : s.executionBranch = w.state.executionBranch)
    (hpath : s.executionPath = w.state.executionPath) (htarget : target ≠ "")
    (hrelated : graph.isAncestor target head = true) (hsubmodules : w.submodules head = .ok ()) :
    executionWorkspaceForRecovery graph (rebased r target head dirty s w)
      = .ok ⟨r.ticketId, executionBranchOf r.ticketId, executionPathOf r.ticketId, head, target,
        dirty⟩ := by
  obtain ⟨ticketId, base, found, status, ht, -, hfilled, hbinding, -, -, -, hthere, -, -⟩ :=
    executionWorkspaceForRecovery_eq_ok.mp h
  rw [hmemory] at ht hfilled hbinding
  have hid : ticketId = r.ticketId := Option.some.inj (ht.symm.trans hticket)
  subst hid
  rw [← hbranch, ← hpath] at hfilled hbinding
  refine executionWorkspaceForRecovery_eq_ok.mpr ⟨r.ticketId, target, head, dirty,
    hsticket.trans hticket, rfl, ?_, hbinding, ?_, hrelated, Dict.get_set_self _ _ _, hthere,
    hsubmodules, rfl⟩
  · show (r.ticketId != "" && target != "" && nonEmpty s.executionBranch
      && nonEmpty s.executionPath) = true
    simp only [Bool.and_eq_true, bne_iff_ne] at hfilled ⊢
    exact ⟨⟨⟨hfilled.1.1.1, htarget⟩, hfilled.1.2⟩, hfilled.2⟩
  · simp [rebased, rebaseTo, Git.Repository.resetHard]

variable [Sha256]

omit [Project] in
/-- The record of a valid state is valid. -/
theorem validReconciliation_of_state (hvalid : validateStateInvariant w.state = .ok ())
    (hrecord : w.state.reconciliation = some r) : validateReconciliation r = .ok () := by
  simp only [validateStateInvariant, andThen_eq_ok, hrecord] at hvalid
  exact hvalid.1

omit [Project] in
/-- A rewrite of the record of a valid state makes a valid state. -/
theorem valid_rewriteCall (hvalid : validateStateInvariant w.state = .ok ())
    (hrecord : w.state.reconciliation = some r) {record : Reconciliation} (hcore : core record = core r)
    (base memoryBase : Option String) :
    validateStateInvariant ((rewriteCall base record).payload
      { w.state with executionBaseHead := memoryBase }) = .ok () := by
  refine valid_idle_of_eq hvalid rfl rfl ?_ rfl rfl rfl rfl
  show validateReconciliation record = .ok ()
  rw [eq_of_core hcore validateReconciliation fun _ => rfl]
  exact validReconciliation_of_state hvalid hrecord

/-- A rewrite that is not taken back leaves its record. -/
theorem sat_rewrite_staged {workspace : ExecutionWorkspace}
    (hvalid : validateStateInvariant w.state = .ok ()) (hmemory : w.memory = w.state)
    (hrecord : w.state.reconciliation = some r)
    (hticket : w.state.executionTicketId = some r.ticketId)
    (hworkspace : workspace.ticketId = r.ticketId)
    (hkept : ¬ TakenBack graph target lineage w rebase) :
    Sat (fun _ => True) (rewrite graph r workspace target rewritePublished lineage rebase)
      (fun _ _ => True) (fun _ u => u.Staged) w := by
  unfold rewrite
  refine .bind (.get ?_)
  let operation := rewriteOperation r target rewritePublished lineage
  let s : RuntimeState := (rewriteCall none operation).payload w.state
  have hs : validateStateInvariant s = .ok () :=
    valid_rewriteCall hvalid hrecord rfl none w.state.executionBaseHead
  have hstaged : ∀ u : Session, u.state = s → u.Staged := by
    intro u hu
    refine ⟨operation, ?_, by simp [operation, rewriteOperation]⟩
    rw [hu]
    rfl
  refine .bind (sat_save (congrArg _ hmemory) hs trivial ?_)
  refine .bind (.effect trivial ?_)
  cases rebase with
  | unavailable message =>
    refine .bind (.effect trivial ?_)
    exact .raise (hstaged _ rfl)
  | conflict restored dirty =>
    refine .bind (.effect trivial ?_)
    refine .bind (.effect trivial ?_)
    refine .bind (.ensure (fun _ => ?_) fun _ => hstaged _ rfl)
    exact .raise (hstaged _ rfl)
  | finished head dirty =>
    refine .bind (.effect trivial ?_)
    rw [hworkspace]
    refine sat_finishRewrite_staged (t := rebased r target head dirty s w) (hstaged _ rfl) ?_
    intro updated hupdated hback
    obtain ⟨hrelated, hverified, hhead, hdirty⟩ := head_of_rebased hticket hupdated
    rw [hhead, hdirty] at hback
    exact hkept ⟨hrelated, hverified, hback⟩

/-- A rewrite that is taken back leaves a trace only in the base of the execution. -/
theorem sat_rewrite_takenBack {workspace : ExecutionWorkspace}
    (hvalid : validateStateInvariant w.state = .ok ()) (hmemory : w.memory = w.state)
    (hrecord : w.state.reconciliation = some r) (hstage : r.rewriteStage = none)
    (hticket : w.state.executionTicketId = some r.ticketId)
    (hworkspace : workspace.ticketId = r.ticketId)
    (hfound : executionWorkspaceForRecovery graph w = .ok workspace) (htarget : target ≠ "")
    (hback : TakenBack graph target lineage w rebase) :
    Sat (fun _ => True) (rewrite graph r workspace target rewritePublished lineage rebase)
      (fun _ _ => False)
      (fun _ u => NoTrace r w u ↔ w.state.executionBaseHead = some r.originalBase) w := by
  cases rebase with
  | unavailable message => exact hback.elim
  | conflict restored dirty => exact hback.elim
  | finished head dirty =>
    obtain ⟨hrelated, hverified, hbad⟩ := hback
    unfold rewrite
    refine .bind (.get ?_)
    let operation := rewriteOperation r target rewritePublished lineage
    -- the state with the write-ahead record, and below the state in which it is taken back
    let s : RuntimeState := (rewriteCall none operation).payload w.state
    have hs : validateStateInvariant s = .ok () :=
      valid_rewriteCall hvalid hrecord rfl none w.state.executionBaseHead
    refine .bind (sat_save (congrArg _ hmemory) hs trivial ?_)
    refine .bind (.effect trivial ?_)
    refine .bind (.effect trivial ?_)
    rw [hworkspace]
    have hobserved : executionWorkspaceForRecovery graph (rebased r target head dirty s w) = _ :=
      executionWorkspaceForRecovery_rebased hmemory hfound hticket rfl rfl rfl htarget hrelated
        hverified
    let s' : RuntimeState := (rewriteCall (some r.originalBase) r).payload
      { s with executionBaseHead := w.memory.executionBaseHead }
    have hs' : validateStateInvariant s' = .ok () := by
      refine valid_idle_of_eq hvalid rfl rfl ?_ rfl rfl rfl rfl
      exact validReconciliation_of_state hvalid hrecord
    refine (sat_finishRewrite_takenBack (t := rebased r target head dirty s w) hobserved hbad
      (rfl : _ = s') hs').mono (fun _ => id) (fun _ _ => id) ?_
    rintro - u rfl
    constructor
    · intro htrace
      exact htrace.base.symm
    · intro hbase
      refine ⟨hrecord.symm, hbase.symm, rfl, ?_, ?_⟩
      · show (Git.Repository.resetHard _ _ _ _).refs _ = _
        rw [hworkspace]
        simp [Git.Repository.resetHard]
      · intro newer q hq
        have hsame : r = q := Option.some.inj hq
        exact .inl (hsame ▸ hstage)

/-! ### A whole request -/

/-- A request for a record without a rewrite is its checks and then the rewrite. -/
theorem sat_reconcileUpdateBase_of_admission {Q : Unit → Session → Prop}
    {E : String → Session → Prop} (hmemory : w.memory = w.state)
    (hrecord : w.state.reconciliation = some r) (hstage : r.rewriteStage = none)
    (hrefused : ∀ message,
      admission graph product ticketId target rewritePublished r w = .error message → E message w)
    (hadmitted : ∀ workspace lineage, validateUpdateBase graph product ticketId target r w = .ok () →
      executionWorkspaceForRecovery graph w = .ok workspace →
      admission graph product ticketId target rewritePublished r w = .ok lineage →
      Sat (fun _ => True) (rewrite graph r workspace target rewritePublished lineage rebase) Q E w) :
    Sat (fun _ => True)
      (reconcileUpdateBase graph product ticketId target rewritePublished rebase) Q E w := by
  unfold reconcileUpdateBase
  refine .bind (.get ?_)
  rw [hmemory, hrecord]
  unfold admission at hrefused hadmitted
  cases hvalidate : validateUpdateBase graph product ticketId target r w with
  | error message => exact .bind (.refused hvalidate (hrefused message (by rw [hvalidate]; rfl)))
  | ok done =>
    rw [hvalidate] at hrefused hadmitted
    refine .bind (.observe hvalidate ?_)
    rw [hstage]
    cases hfound : executionWorkspaceForRecovery graph w with
    | error message => exact .bind (.refused hfound (hrefused message (by rw [hfound]; rfl)))
    | ok workspace =>
      rw [hfound] at hrefused hadmitted
      refine .bind (.observe hfound ?_)
      unfold rewriteLineage
      cases hproven : provenLineage graph r workspace rewritePublished w with
      | error message => exact .bind (.refused hproven (hrefused message hproven))
      | ok lineage => exact .bind (.observe hproven (hadmitted workspace lineage rfl rfl hproven))

omit [Sha256] in
/-- What is admitted has a target, and its worktree is at the checkpoint. -/
theorem admission_eq_ok {workspace : ExecutionWorkspace}
    (hticket : w.memory.executionTicketId = some r.ticketId)
    (hfound : executionWorkspaceForRecovery graph w = .ok workspace)
    (h : admission graph product ticketId target rewritePublished r w = .ok lineage) :
    target ≠ "" ∧ workspace.ticketId = r.ticketId
      ∧ w.executionHead r = some r.workerCheckpoint := by
  obtain ⟨⟨⟩, hvalidate, h⟩ := bind_eq_ok.mp h
  obtain ⟨found, hfound', hproven⟩ := bind_eq_ok.mp h
  have hsame : found = workspace := Except.ok.inj (hfound'.symm.trans hfound)
  subst hsame
  have htarget : target ≠ "" := by
    obtain ⟨-, h⟩ := require_bind_eq_ok.mp hvalidate
    obtain ⟨-, h⟩ := require_bind_eq_ok.mp h
    obtain ⟨hnonempty, -⟩ := require_bind_eq_ok.mp h
    exact of_decide_eq_true hnonempty
  obtain ⟨hcheckpoint, -⟩ := require_bind_eq_ok.mp hproven
  have hhead := (of_decide_eq_true hcheckpoint).1
  obtain ⟨id, base, head, dirty, hid, -, -, -, hat, -, -, -, -, rfl⟩ :=
    executionWorkspaceForRecovery_eq_ok.mp hfound
  have hsame : id = r.ticketId := Option.some.inj (hid.symm.trans hticket)
  subst hsame
  exact ⟨htarget, rfl, hat.trans (congrArg some hhead)⟩

end Failure

end Session

/-! ### A conflict -/

/-- A running service with the published checkpoint. -/
def runningSession : Session := Session.restart publishedSession

/-- A request to move `t1` onto a product head. -/
def requestOnto (target : Char) (rebase : Rebase) : Session.Program Unit :=
  @Session.reconcileUpdateBase sampleProject rewriteGraph sampleSha256
    { productAtTarget with localHead := sampleHead target, remoteHead := sampleHead target } "t1"
    (sampleHead target) true rebase

end Devlegate
