import Devlegate.EngineMoves

namespace Devlegate

open Transition

/-!
# An automatic retry in the place of a retry

`_automatic_zero_delta_authorization` puts the ticket of the automatic retry in the place of the one
that the iteration was asked to retry, in an iteration that gets to a free plan for that ticket and
passes every gate up to the admission.

* `Replaced`: the automatic retry of another ticket takes the place of the retry.
* `Stretch.LeadsTo`: a stretch of code, with those after it, admits an execution.
* `leadsTo_automatic_iff`, `leadsTo_synchronize_iff`: when a stretch admits another ticket than the
  one of its authorization.
-/

section Target

variable [Project]

/-! ### When another ticket takes the place of the retry -/

/-- The product head that an iteration without a pending execution plans on: the checkout is at the
    target of the synchronisation, or the fast-forward gets it there. -/
def planningHead (o : Observation) (s : RuntimeState) : Option String :=
  match o.remoteHead with
  | none => none
  | some remoteHead =>
    match (if s.phase = .mergePending then pendingTarget o remoteHead s else .ok remoteHead) with
    | .error _ => none
    | .ok target =>
      if o.localHead = target then some target
      else if s.phase = .mergePending
          ∨ o.isAncestor o.localHead target = true ∧ o.stop .beforeMerge = false then
        o.mergedHead.filter (· = target)
      else none

/-- The locals of the synchronisation of such an iteration. -/
def plannedSync (o : Observation) (authorization : Option ExecutionAuthorization)
    (s : RuntimeState) (productHead controlHead : String) : Synced where
  authorization := authorization
  pendingAgentExecution := false
  localHead := productHead
  remoteHead := productHead
  controlHead := controlHead
  changedPaths :=
    if o.localHead ≠ productHead then o.changedPaths o.localHead productHead
    else if s.phase = .mergePending then s.changedPaths.getD "" else ""

/-- The saves of the synchronisation: the merge and what follows it. -/
def syncSaves (o : Observation) (s : RuntimeState) (y : Synced) : List SaveCall :=
  (if o.localHead = y.localHead then []
    else [Call.sync .mergePending { y with localHead := o.localHead }])
  ++ if s.phase = .mergePending then [Call.sync .idle y]
    else if o.localHead = y.localHead then [] else [Call.merged y]

/-- The execution that the automatic retry starts. -/
def replacement (o : Observation) (y : Synced) (r : AutomaticRetry) (ticket : Ticket) :
    Execution where
  synced := y
  authorization := some ⟨r.ticketId, .zeroDeltaProductDrift⟩
  ticket := ticket
  executionId := textOr r.freshExecutionId (o.newExecutionId 0)

/-- The admission of an execution of the automatic retry. -/
def replacementAdmission (x : Execution) (remoteHead : Option String) (r : AutomaticRetry)
    (s : RuntimeState) : SaveCall :=
  let existingLineage := s.executionTicketId == some x.ticket.id && s.executionBaseHead.isSome
    && s.executionControlHead.isSome
  Call.admission x (if existingLineage then s.executionBaseHead else some x.synced.localHead)
    (some x.synced.controlHead) remoteHead
    (some { r with status := .admitted, freshExecutionId := some x.executionId })

/-- The saves from the plan to the admission. -/
def replacementSaves (o : Observation) (y : Synced) (r : AutomaticRetry) (ticket : Ticket)
    (remoteHead : Option String) (s : RuntimeState) : List SaveCall :=
  (if r.productHead = y.localHead then [] else [Call.retryMoved r y.localHead])
    ++ (if markerMisfits s ticket.id then [Call.unmark] else [])
    ++ [replacementAdmission (replacement o y r ticket) remoteHead
      { r with productHead := y.localHead } s]

/-- Saves one after the other, or the text of the first validation error. -/
def saveStates [Sha256] (calls : List SaveCall) (s : RuntimeState) : Except String RuntimeState :=
  calls.foldlM (fun s call => saveState call s) s

/-- The automatic retry `r` is due in an iteration that plans for `y`, and no gate and no answer
    keeps the engine from admitting it. -/
structure Due (o : Observation) (s : RuntimeState) (y : Synced) (r : AutomaticRetry)
    (ticket : Ticket) (remoteHead : Option String) : Prop where
  unstopped : o.stop .beforeAuthorization = false
  retry : s.automaticRetry = some r
  live : r.isLive = true
  planned : runsFreely s y.controlHead r.ticketId = true
  executable : (Project.tickets y.controlHead).executable r.ticketId = some ticket
  moved : y.localHead ≠ r.originalBase
  descends : o.isAncestor r.originalBase y.localHead = true
  observed : o.executionRemote 0 = some remoteHead
  identity : (replacement o y r ticket).executionId ≠ ""

/-- **The retry is replaced**: the iteration gets to a free plan, where the automatic retry of
    another ticket is due, and every state it has to save on the way is valid. -/
structure Replaced [Sha256] (o : Observation) (s : RuntimeState) (intent : IterationIntent)
    (productHead controlHead : String) (r : AutomaticRetry) (ticket : Ticket)
    (remoteHead : Option String) : Prop where
  other : intent.retryTicketId ≠ some r.ticketId
  unstopped : s.phase = .mergePending ∨ o.stop .start = false ∧ o.stop .beforeControl = false
    ∧ o.stop .afterControl = false
  branch : o.branchOk = true
  clean : o.dirty = false
  control : o.controlHead = some controlHead
  product : planningHead o s = some productHead
  tickets : o.stop .beforeTickets = false ∧ o.projectOk = true
  due : Due o s (plannedSync o (initialAuthorization intent s) s productHead controlHead) r ticket
    remoteHead
  saves : ∃ s', saveStates
    (syncSaves o s (plannedSync o (initialAuthorization intent s) s productHead controlHead)
      ++ replacementSaves o
        (plannedSync o (initialAuthorization intent s) s productHead controlHead) r ticket
        remoteHead s) s = .ok s'

/-! ### What a stretch of code admits -/

section LeadsTo

variable [Sha256] {o : Observation} {s s' : RuntimeState} {y : Synced} {plan : ExecutionPlan}
  {x : Execution} {call : SaveCall} {next : Pc} {r : AutomaticRetry} {ticket : Ticket}
  {a : ExecutionAuthorization} {ticketId : String}

/-- The stretch of code, with those that follow it, admits the execution. -/
inductive Stretch.LeadsTo : Stretch → RuntimeState → Execution → Prop where
  | admitted {call : SaveCall} {s s' : RuntimeState} {o : Observation} {x : Execution}
      (hsave : saveState call s = .ok s') : LeadsTo (.save call (.admitted o x)) s x
  | later {call : SaveCall} {s s' : RuntimeState} {next : Pc} {x : Execution}
      (hsave : saveState call s = .ok s') (hnext : next.execution = none)
      (hleads : LeadsTo (advance next s') s' x) : LeadsTo (.save call next) s x

theorem not_leadsTo_returned : ¬ Stretch.returned.LeadsTo s x := by
  rintro ⟨⟩

theorem not_leadsTo_raised {message : String} : ¬ (Stretch.raised message).LeadsTo s x := by
  rintro ⟨⟩

theorem leadsTo_admitted {x' : Execution} :
    (Stretch.save call (.admitted o x')).LeadsTo s x
      ↔ x = x' ∧ ∃ s', saveState call s = .ok s' := by
  constructor
  · intro h
    cases h with
    | admitted hsave => exact ⟨rfl, _, hsave⟩
    | later hsave hnext hleads => cases hnext
  · rintro ⟨rfl, s', hsave⟩
    exact .admitted hsave

theorem leadsTo_save (hnext : next.execution = none) :
    (Stretch.save call next).LeadsTo s x
      ↔ ∃ s', saveState call s = .ok s' ∧ (advance next s').LeadsTo s' x := by
  constructor
  · intro h
    cases h with
    | admitted hsave => cases hnext
    | later hsave _ hleads => exact ⟨_, hsave, hleads⟩
  · rintro ⟨s', hsave, hleads⟩
    exact .later hsave hnext hleads

theorem not_leadsTo_ready : ¬ (Stretch.save call .ready).LeadsTo s x := by
  rw [leadsTo_save rfl]
  rintro ⟨s', -, ⟨⟩⟩

/-- A stretch that leads to an admission ends with a save: the admission, or an earlier one. -/
theorem Stretch.LeadsTo.save {stretch : Stretch} {Q : SaveCall → Pc → Prop}
    (h : stretch.LeadsTo s x) (hensures : stretch.Ensures Q) :
    (∃ call o, Q call (.admitted o x)) ∨ ∃ call next s', Q call next ∧ next.execution = none
      ∧ saveState call s = .ok s' ∧ (advance next s').LeadsTo s' x := by
  cases h with
  | admitted hsave => exact .inl ⟨_, _, hensures⟩
  | later hsave hnext hleads => exact .inr ⟨_, _, _, hensures, hnext, hsave, hleads⟩

/-! ### Saves one after the other -/

omit [Project] in
theorem saveStates_nil : saveStates [] s = .ok s' ↔ s' = s := by
  simp [saveStates, pure, Except.pure, eq_comm]

omit [Project] in
theorem saveStates_cons {calls : List SaveCall} :
    saveStates (call :: calls) s = .ok s'
      ↔ ∃ u, saveState call s = .ok u ∧ saveStates calls u = .ok s' := by
  unfold saveStates
  rw [List.foldlM_cons]
  exact bind_eq_ok

omit [Project] in
theorem saveStates_append {calls calls' : List SaveCall} :
    saveStates (calls ++ calls') s = .ok s'
      ↔ ∃ u, saveStates calls s = .ok u ∧ saveStates calls' u = .ok s' := by
  unfold saveStates
  rw [List.foldlM_append]
  exact bind_eq_ok

/-! ### From the authorization to the admission -/

theorem advance_unmarked {authorization : Option ExecutionAuthorization} :
    advance (.unmarked o y plan authorization ticket) s
      = decideAdmission o y plan authorization ticket none s := rfl

/-- The execution that is admitted is for the selected ticket. -/
theorem leadsTo_decideAdmission_ticket {authorization : Option ExecutionAuthorization}
    {manualRetry : Option ManualRetry}
    (h : (decideAdmission o y plan authorization ticket manualRetry s).LeadsTo s x) :
    x.ticket = ticket := by
  have hdecides : (decideAdmission o y plan authorization ticket manualRetry s).Ensures
      fun _ next => ∃ x', next = .admitted o x' ∧ x'.ticket = ticket :=
    decideAdmission_decides fun x' _ _ _ _ hx' _ => ⟨x', rfl, hx'⟩
  rcases h.save hdecides with ⟨call, o', x', hx', rfl⟩ | ⟨call, next, s', ⟨x', rfl, -⟩, hnext, -⟩
  · cases hx'
    rfl
  · cases hnext

/-- An authorization that is carried along is for the ticket of the execution. -/
theorem leadsTo_authorize_ticket (h : (authorize o y plan (some a) s).LeadsTo s x) :
    x.ticket.id = a.ticketId ∧ plan.action = .runWorker ∧ plan.bound = false
      ∧ (y.pendingAgentExecution = true → s.selectedTicketBody.isSome = true) := by
  unfold authorize at h
  split at h
  · cases h
  split at h
  · cases h
  -- the plan of the authorization runs its ticket, freely
  rename_i plan' hplan
  obtain ⟨haction, hbound, haction', -, hticketId⟩ := authorizedPlan_some hplan
  rw [if_neg (by simp [haction'])] at h
  split at h
  · split at h
    · cases h
    split at h
    · cases h
    split at h
    · cases h
    · exact (not_leadsTo_ready h).elim
  rw [if_neg (by simp [haction'])] at h
  unfold scheduleTicket at h
  split at h
  · cases h
  · split at h
    · cases h
    · exact (not_leadsTo_ready h).elim
  rename_i ticket hselect
  have hid : ticket.id = a.ticketId := by
    have hplanned := (selectTicket_some hselect).2
    rw [hticketId] at hplanned
    exact (Option.some.inj hplanned).symm
  have hbody : y.pendingAgentExecution = true → s.selectedTicketBody.isSome = true := by
    intro hpending
    unfold selectTicket at hselect
    grind
  refine ⟨?_, haction, hbound, hbody⟩
  -- with or without the save that takes a stale marker away
  split at h
  · rw [leadsTo_save rfl] at h
    obtain ⟨s', -, hleads⟩ := h
    rw [advance_unmarked] at hleads
    rw [leadsTo_decideAdmission_ticket hleads, hid]
  · rw [leadsTo_decideAdmission_ticket h, hid]

omit [Sha256] in
/-- The admission of the ticket of an automatic retry. -/
theorem decideAdmission_replacement {manualRetry : Option ManualRetry}
    (hr : s.automaticRetry = some r) (hpending : y.pendingAgentExecution = false) :
    decideAdmission o y plan (some ⟨r.ticketId, .zeroDeltaProductDrift⟩) ticket manualRetry s
      = match o.executionRemote 0 with
        | none => .raised "cannot observe execution branch remote"
        | some remoteHead =>
          if (replacement o y r ticket).executionId = "" then
            .raised "invalid persisted execution identity"
          else .save (replacementAdmission (replacement o y r ticket) remoteHead r s)
            (.admitted o (replacement o y r ticket)) := by
  have hcheck : checkAuthorization y ticket s (some ⟨r.ticketId, .zeroDeltaProductDrift⟩)
      = .ok () := by
    simp [checkAuthorization, pure, Except.pure]
  cases hobserved : o.executionRemote 0 with
  | none =>
    simp [decideAdmission, interruptionAuthorization, hcheck, executionRemoteHeadOf, hpending,
      hobserved]
  | some remoteHead =>
    by_cases hid : textOr r.freshExecutionId (o.newExecutionId 0) = ""
    · simp [decideAdmission, interruptionAuthorization, hcheck, executionRemoteHeadOf, hpending, hr,
        hobserved, hid, Option.filter, replacement]
    · simp [decideAdmission, interruptionAuthorization, hcheck, executionRemoteHeadOf, hpending, hr,
        hobserved, hid, Option.filter, replacementAdmission, replacement]

theorem leadsTo_decideAdmission_iff {manualRetry : Option ManualRetry}
    (hr : s.automaticRetry = some r) (hpending : y.pendingAgentExecution = false) :
    (decideAdmission o y plan (some ⟨r.ticketId, .zeroDeltaProductDrift⟩) ticket manualRetry
        s).LeadsTo s x
      ↔ x = replacement o y r ticket ∧ x.executionId ≠ "" ∧ ∃ remoteHead,
        o.executionRemote 0 = some remoteHead
          ∧ ∃ s', saveState (replacementAdmission x remoteHead r s) s = .ok s' := by
  rw [decideAdmission_replacement hr hpending]
  cases o.executionRemote 0 with
  | none => simp [not_leadsTo_raised]
  | some remoteHead =>
    dsimp only
    split
    · rename_i hid
      simp only [not_leadsTo_raised, false_iff, not_and]
      rintro rfl hne
      exact absurd hid hne
    · rename_i hid
      rw [leadsTo_admitted]
      constructor
      · rintro ⟨rfl, hsave⟩
        exact ⟨rfl, hid, remoteHead, rfl, hsave⟩
      · rintro ⟨rfl, -, _, ⟨⟩, hsave⟩
        exact ⟨rfl, hsave⟩

/-- From the authorization by an automatic retry to its admission. -/
theorem leadsTo_authorize_iff (hr : s.automaticRetry = some r)
    (hpending : y.pendingAgentExecution = false) (haccepted : s.acceptedIntegration = none)
    (haction : plan.action = .runWorker) (hbound : plan.bound = false)
    (hticket : (Project.tickets y.controlHead).executable r.ticketId = some ticket) :
    (authorize o y plan (some ⟨r.ticketId, .zeroDeltaProductDrift⟩) s).LeadsTo s x
      ↔ o.stop .beforeAuthorization = false ∧ x = replacement o y r ticket ∧ x.executionId ≠ ""
        ∧ ∃ remoteHead, o.executionRemote 0 = some remoteHead
          ∧ ∃ s', saveStates ((if markerMisfits s ticket.id then [Call.unmark] else [])
            ++ [replacementAdmission x remoteHead r s]) s = .ok s' := by
  have hbyId : (Project.tickets y.controlHead).byId r.ticketId = some ticket :=
    (Option.filter_eq_some_iff.mp hticket).1
  have hid : ticket.id = r.ticketId := TicketStore.byId_id hbyId
  by_cases hgate : o.stop .beforeAuthorization = true
  · simp [authorize, hgate, not_leadsTo_returned]
  rw [Bool.not_eq_true] at hgate
  obtain ⟨plan', hplan, haction', hticketId⟩ : ∃ plan', authorizedPlan y plan
      (some ⟨r.ticketId, .zeroDeltaProductDrift⟩) = .ok plan' ∧ plan'.action = .runWorker
        ∧ plan'.ticketId = some ticket.id := by
    simp [authorizedPlan, haction, hbound, hticket]
  have hselect : selectTicket y plan' s = .ok (some ticket) := by
    simp [selectTicket, haction', hticketId, hid, hbyId, hpending]
  have hauthorize : authorize o y plan (some ⟨r.ticketId, .zeroDeltaProductDrift⟩) s
      = if markerMisfits s ticket.id then
          .save Call.unmark (.unmarked o y plan' (some ⟨r.ticketId, .zeroDeltaProductDrift⟩) ticket)
        else decideAdmission o y plan' (some ⟨r.ticketId, .zeroDeltaProductDrift⟩) ticket
          s.manualRetryRequired s := by
    simp [authorize, hgate, hplan, haction', haccepted, scheduleTicket, hselect]
  rw [hauthorize]
  -- a barrier marker that does not fit the ticket is cleared by a save of its own first
  split
  · rename_i hmarker
    rw [leadsTo_save rfl]
    simp only [List.singleton_append, saveStates_cons, saveStates_nil, advance_unmarked]
    constructor
    · rintro ⟨u, hsave, hleads⟩
      obtain ⟨rfl, -⟩ := saveState_eq_ok.mp hsave
      have hr' : (Call.unmark.payload s).automaticRetry = some r := hr
      rw [leadsTo_decideAdmission_iff hr' hpending] at hleads
      obtain ⟨hx, hne, remoteHead, hobserved, s', hadmission⟩ := hleads
      exact ⟨hgate, hx, hne, remoteHead, hobserved, s', _, hsave, _, hadmission, rfl⟩
    · rintro ⟨-, hx, hne, remoteHead, hobserved, s', u, hsave, u', hadmission, rfl⟩
      refine ⟨u, hsave, ?_⟩
      obtain ⟨rfl, -⟩ := saveState_eq_ok.mp hsave
      have hr' : (Call.unmark.payload s).automaticRetry = some r := hr
      rw [leadsTo_decideAdmission_iff hr' hpending]
      exact ⟨hx, hne, remoteHead, hobserved, _, hadmission⟩
  · rename_i hmarker
    rw [leadsTo_decideAdmission_iff hr hpending]
    simp only [List.nil_append, saveStates_cons, saveStates_nil, exists_eq_right', hgate, true_and]

/-! ### From the synchronised checkout to the admission -/

omit [Project] [Sha256] in
/-- The records behind the barriers. -/
theorem admissionBarrier_eq_none {store : TicketStore} (h : admissionBarrier s store = none) :
    s.acceptedIntegration = none ∧ s.reconciliation.filter (·.status = .resolving) = none := by
  unfold admissionBarrier at h
  cases hr : s.reconciliation with
  | none => grind
  | some r =>
    by_cases hresolved : r.status = .resolved
    · simp_all [Option.filter]
      grind
    · simp [hr, Option.filter, hresolved] at h

omit [Sha256] in
theorem barrier_of_runsFreely {controlHead : String}
    (h : runsFreely s controlHead ticketId = true) :
    admissionBarrier s (Project.tickets controlHead) = none := by
  simp only [runsFreely, Bool.and_eq_true, Option.isNone_iff_eq_none] at h
  exact h.1.1.1

omit [Sha256] in
/-- A free plan of an idle state runs its ticket. -/
theorem makeExecutionPlan_of_runsFreely {controlHead : String}
    (h : runsFreely s controlHead ticketId = true) (inspection : WorkspaceInspection) :
    (makeExecutionPlan s (Project.tickets controlHead) inspection).action = .runWorker
      ∧ (makeExecutionPlan s (Project.tickets controlHead) inspection).bound = false
      ∧ (makeExecutionPlan s (Project.tickets controlHead) inspection).ticketId
        = some ticketId := by
  simp only [runsFreely, Bool.and_eq_true, Bool.or_eq_true, beq_iff_eq, Option.isNone_iff_eq_none]
    at h
  obtain ⟨⟨⟨hbarrier, hphase⟩, haction⟩, hticketId⟩ := h
  have hplan : makeExecutionPlan s (Project.tickets controlHead) inspection
      = freePlan (Project.tickets controlHead) := by
    rcases hphase with hphase | hphase <;> simp [makeExecutionPlan, hbarrier, hphase]
  refine ⟨by rw [hplan, haction], ?_, by rw [hplan, hticketId]⟩
  by_contra hbound
  have hpending := makeExecutionPlan_bound (Bool.eq_true_of_not_eq_false hbound)
  simp [hpending] at hphase

/-- A plan is followed for another ticket than the one of the authorization where an automatic retry
    of that ticket is due. -/
theorem leadsTo_automatic_iff (hy : y.authorization = some a) (hother : x.ticket.id ≠ a.ticketId)
    (hpending : y.pendingAgentExecution = false)
    (hplan : makeExecutionPlan s (Project.tickets y.controlHead) o.inspection = plan) :
    (automaticZeroDeltaAuthorization o y plan s).LeadsTo s x
      ↔ y.localHead = y.remoteHead ∧ ∃ r ticket remoteHead, Due o s y r ticket remoteHead
        ∧ x = replacement o y r ticket
        ∧ ∃ s', saveStates (replacementSaves o y r ticket remoteHead s) s = .ok s' := by
  have hown : ∀ s', ¬ (authorize o y plan y.authorization s').LeadsTo s' x := by
    intro s' h
    rw [hy] at h
    exact hother (leadsTo_authorize_ticket h).1
  constructor
  · intro h
    unfold automaticZeroDeltaAuthorization at h
    split at h
    · exact absurd h (hown s)
    rename_i r hretry
    rw [Option.filter_eq_some_iff] at hretry
    obtain ⟨hretry, hlive⟩ := hretry
    split at h
    · rw [leadsTo_save rfl] at h
      obtain ⟨s', -, hleads⟩ := h
      exact absurd hleads (hown s')
    rename_i hexecutable
    obtain ⟨ticket, hticket⟩ : ∃ ticket,
        (Project.tickets y.controlHead).executable r.ticketId = some ticket := by
      simpa [Option.isNone_iff_eq_none, Option.ne_none_iff_exists'] using hexecutable
    split at h
    · exact absurd h (hown s)
    rename_i hticketId
    split at h
    · exact absurd h (hown s)
    rename_i hfree
    rw [not_not] at hticketId
    rw [not_or, not_not, Bool.not_eq_true] at hfree
    obtain ⟨haction, hbound⟩ := hfree
    have hplanned : runsFreely s y.controlHead r.ticketId = true :=
      runsFreely_of_makeExecutionPlan hplan haction hbound hticketId
    have haccepted : s.acceptedIntegration = none :=
      (admissionBarrier_eq_none (barrier_of_runsFreely hplanned)).1
    split at h
    · exact absurd h not_leadsTo_raised
    rename_i hheads
    rw [not_or, not_not] at hheads
    split at h
    · exact absurd h not_leadsTo_raised
    rename_i hdescends
    have hdescends : o.isAncestor r.originalBase y.localHead = true := by simpa using hdescends
    refine ⟨hheads.1, r, ticket, ?_⟩
    -- the record follows the product head before the admission
    split at h
    · rename_i hmoved
      rw [leadsTo_save rfl] at h
      obtain ⟨s', hsave, hleads⟩ := h
      have hleads' : (authorize o y plan (some ⟨r.ticketId, .zeroDeltaProductDrift⟩) s').LeadsTo s'
          x := hleads
      obtain ⟨rfl, -⟩ := saveState_eq_ok.mp hsave
      have hretry' : ((Call.retryMoved r y.localHead).payload s).automaticRetry
          = some { r with productHead := y.localHead } := rfl
      rw [leadsTo_authorize_iff hretry' hpending haccepted haction hbound hticket] at hleads'
      obtain ⟨hgate, rfl, hid, remoteHead, hobserved, t, hsaves⟩ := hleads'
      refine ⟨remoteHead, ⟨hgate, hretry, hlive, hplanned, hticket, hheads.2, hdescends, hobserved,
        hid⟩, rfl, t, ?_⟩
      rw [replacementSaves, if_neg hmoved, List.append_assoc, List.singleton_append,
        saveStates_cons]
      exact ⟨_, hsave, hsaves⟩
    · rename_i hstays
      rw [not_not] at hstays
      rw [leadsTo_authorize_iff hretry hpending haccepted haction hbound hticket] at h
      obtain ⟨hgate, rfl, hid, remoteHead, hobserved, t, hsaves⟩ := h
      refine ⟨remoteHead, ⟨hgate, hretry, hlive, hplanned, hticket, hheads.2, hdescends, hobserved,
        hid⟩, rfl, t, ?_⟩
      rw [replacementSaves, if_pos hstays, List.nil_append, ← hstays]
      exact hsaves
  · rintro ⟨hheads, r, ticket, remoteHead, hdue, rfl, t, hsaves⟩
    have haccepted : s.acceptedIntegration = none :=
      (admissionBarrier_eq_none (barrier_of_runsFreely hdue.planned)).1
    obtain ⟨haction, hbound, hticketId⟩ :=
      makeExecutionPlan_of_runsFreely hdue.planned o.inspection
    rw [hplan] at haction hbound hticketId
    have hlive : s.automaticRetry.filter (·.isLive) = some r := by
      simp [hdue.retry, Option.filter, hdue.live]
    have hautomatic : automaticZeroDeltaAuthorization o y plan s
        = if r.productHead ≠ y.localHead then
            .save (Call.retryMoved r y.localHead) (.retryMoved o y plan r.ticketId)
          else authorize o y plan (some ⟨r.ticketId, .zeroDeltaProductDrift⟩) s := by
      simp [automaticZeroDeltaAuthorization, hlive, hdue.executable, hticketId, haction, hbound,
        hheads, hheads ▸ hdue.moved, hheads ▸ hdue.descends]
    rw [hautomatic]
    rw [replacementSaves, List.append_assoc, saveStates_append] at hsaves
    obtain ⟨u, hmove, hsaves⟩ := hsaves
    split
    · rename_i hmoved
      rw [if_neg hmoved, saveStates_cons] at hmove
      obtain ⟨u', hsave, hnil⟩ := hmove
      obtain rfl := saveStates_nil.mp hnil
      rw [leadsTo_save rfl]
      refine ⟨u, hsave, ?_⟩
      show (authorize o y plan (some ⟨r.ticketId, .zeroDeltaProductDrift⟩) u).LeadsTo u _
      obtain ⟨rfl, -⟩ := saveState_eq_ok.mp hsave
      have hretry' : ((Call.retryMoved r y.localHead).payload s).automaticRetry
          = some { r with productHead := y.localHead } := rfl
      rw [leadsTo_authorize_iff hretry' hpending haccepted haction hbound hdue.executable]
      exact ⟨hdue.unstopped, rfl, hdue.identity, remoteHead, hdue.observed, t, hsaves⟩
    · rename_i hstays
      rw [not_not] at hstays
      rw [if_pos hstays, saveStates_nil] at hmove
      subst hmove
      rw [leadsTo_authorize_iff hdue.retry hpending haccepted haction hbound hdue.executable]
      rw [← hstays] at hsaves
      exact ⟨hdue.unstopped, rfl, hdue.identity, remoteHead, hdue.observed, t, hsaves⟩

theorem leadsTo_afterSynchronization_iff (hy : y.authorization = some a)
    (hother : x.ticket.id ≠ a.ticketId) (hpending : y.pendingAgentExecution = false) :
    (afterSynchronization o y s).LeadsTo s x
      ↔ o.stop .beforeTickets = false ∧ o.projectOk = true ∧ y.localHead = y.remoteHead
        ∧ ∃ r ticket remoteHead, Due o s y r ticket remoteHead ∧ x = replacement o y r ticket
          ∧ ∃ s', saveStates (replacementSaves o y r ticket remoteHead s) s = .ok s' := by
  have hschedule : ∀ s', schedule o y s' = automaticZeroDeltaAuthorization o y
      (makeExecutionPlan s' (Project.tickets y.controlHead) o.inspection) s' := by
    intro s'
    simp [schedule, planIteration, hpending]
  unfold afterSynchronization
  by_cases hgate : o.stop .beforeTickets = true
  · simp [hgate, not_leadsTo_returned]
  by_cases hproject : o.projectOk = true
  swap
  · simp [hgate, hproject, not_leadsTo_raised]
  rw [if_neg hgate, if_neg (by simp [hproject])]
  simp only [Bool.eq_false_of_not_eq_true hgate, hproject, true_and]
  rw [← leadsTo_automatic_iff hy hother hpending rfl, ← hschedule]
  split
  · rename_i r hr
    split
    · rename_i hgone
      obtain ⟨hretry, -⟩ := Option.filter_eq_some_iff.mp hr
      rw [leadsTo_save rfl, hschedule, leadsTo_automatic_iff hy hother hpending rfl]
      constructor
      · -- the automatic retry has been given up
        rintro ⟨s', hsave, hleads⟩
        obtain ⟨rfl, -⟩ := saveState_eq_ok.mp hsave
        have hleads' : (schedule o y ((Call.retryNotAdmitted r).payload s)).LeadsTo
            ((Call.retryNotAdmitted r).payload s) x := hleads
        rw [hschedule, leadsTo_automatic_iff hy hother hpending rfl] at hleads'
        obtain ⟨-, r', ticket, remoteHead, hdue, -⟩ := hleads'
        cases hdue.retry
      · rintro ⟨-, r', ticket, remoteHead, hdue, -⟩
        obtain rfl : r = r' := Option.some.inj (hretry.symm.trans hdue.retry)
        simp [hdue.executable] at hgone
    · exact Iff.rfl
  · exact Iff.rfl

/-! ### From the start of the iteration to the admission -/

omit [Project] [Sha256] in
theorem filter_eq_target {head : Option String} {target productHead : String} :
    head.filter (· = target) = some productHead ↔ productHead = target ∧ head = some target := by
  rw [Option.filter_eq_some_iff]
  constructor
  · rintro ⟨rfl, htarget⟩
    have htarget : productHead = target := by simpa using htarget
    exact ⟨htarget, by rw [htarget]⟩
  · rintro ⟨rfl, rfl⟩
    simp

/-- From the merge to the plan. -/
theorem leadsTo_merging {resumed : Bool} {y₀ : Synced} :
    (Stretch.save (Call.sync .mergePending y₀) (.merging o y resumed)).LeadsTo s x
      ↔ o.mergedHead = some y.remoteHead ∧ ∃ u, saveStates [Call.sync .mergePending y₀,
          if resumed then Call.sync (if y.pendingAgentExecution then .agentPending else .idle) y
          else Call.merged y] s = .ok u ∧ (afterSynchronization o y u).LeadsTo u x := by
  have hmerging : ∀ u, advance (.merging o y resumed) u = match o.mergedHead with
      | none => .returned
      | some head =>
        if head ≠ y.remoteHead then
          .raised "fast-forward completed without reaching the target revision"
        else .save (if resumed then Call.sync (if y.pendingAgentExecution then .agentPending
          else .idle) y else Call.merged y) (.synchronized o y) := by
    intro u
    cases resumed <;> rfl
  rw [leadsTo_save rfl]
  simp only [hmerging, saveStates_cons, saveStates_nil]
  cases hhead : o.mergedHead with
  | none => simp [not_leadsTo_returned]
  | some head =>
    by_cases heq : head = y.remoteHead
    · simp only [heq, ne_eq, not_true_eq_false, if_false, true_and]
      constructor
      · rintro ⟨u, hsave, hleads⟩
        obtain ⟨u', hsave', hleads'⟩ := (leadsTo_save rfl).mp hleads
        exact ⟨u', ⟨u, hsave, u', hsave', rfl⟩, hleads'⟩
      · rintro ⟨u', ⟨u, hsave, _, hsave', rfl⟩, hleads⟩
        exact ⟨u, hsave, (leadsTo_save rfl).mpr ⟨u', hsave', hleads⟩⟩
    · simp [heq, not_leadsTo_raised]

theorem leadsTo_synchronizeIdle_iff {controlHead remoteHead : String}
    (hother : x.ticket.id ≠ a.ticketId) (hphase : s.phase = .idle)
    (hremote : o.remoteHead = some remoteHead) :
    (synchronizeIdle o (some a) controlHead remoteHead s).LeadsTo s x
      ↔ ∃ productHead, planningHead o s = some productHead
        ∧ ∃ u, saveStates (syncSaves o s (plannedSync o (some a) s productHead controlHead)) s
            = .ok u
          ∧ (afterSynchronization o (plannedSync o (some a) s productHead controlHead) u).LeadsTo
            u x := by
  unfold synchronizeIdle planningHead
  simp only [hremote, hphase, reduceCtorEq, if_false, false_or]
  by_cases heq : o.localHead = remoteHead
  · simp [heq, plannedSync, syncSaves, hphase, saveStates_nil]
  simp only [heq, if_false]
  by_cases hancestor : o.isAncestor o.localHead remoteHead = true
  · simp only [hancestor, if_true, true_and]
    by_cases hgate : o.stop .beforeMerge = true
    · simp [hgate, not_leadsTo_returned]
    simp only [hgate, if_false, if_true, filter_eq_target, Bool.false_eq_true]
    -- the fast-forward gets the checkout to its remote
    rw [leadsTo_merging]
    constructor
    · rintro ⟨hmerged, u, hsaves, hleads⟩
      refine ⟨remoteHead, ⟨rfl, hmerged⟩, u, ?_⟩
      simpa [plannedSync, syncSaves, heq, hphase] using ⟨hsaves, hleads⟩
    · rintro ⟨_, ⟨rfl, hmerged⟩, u, hsaves⟩
      refine ⟨hmerged, u, ?_⟩
      simpa [plannedSync, syncSaves, heq, hphase] using hsaves
  · simp only [hancestor, if_false, false_and, reduceCtorEq, exists_false, iff_false]
    split
    · -- the checkout is ahead of its remote
      rw [leadsTo_afterSynchronization_iff rfl hother rfl]
      rintro ⟨-, -, hheads, -⟩
      exact heq hheads
    · exact not_leadsTo_returned

theorem leadsTo_synchronizePending_iff {controlHead remoteHead : String}
    (hphase : s.phase = .mergePending) (hremote : o.remoteHead = some remoteHead) :
    (synchronizePending o (some a) controlHead remoteHead s).LeadsTo s x
      ↔ ∃ productHead, planningHead o s = some productHead
        ∧ ∃ u, saveStates (syncSaves o s (plannedSync o (some a) s productHead controlHead)) s
            = .ok u
          ∧ (afterSynchronization o (plannedSync o (some a) s productHead controlHead) u).LeadsTo
            u x := by
  unfold planningHead
  simp only [hremote, hphase, if_true]
  cases htarget : pendingTarget o remoteHead s with
  | error message => simp [synchronizePending, htarget, not_leadsTo_raised]
  | ok target =>
    -- at the target one save is enough; else the intent is saved first, and the merge comes between
    by_cases heq : o.localHead = target
    · have hstretch : synchronizePending o (some a) controlHead remoteHead s
          = .save (Call.sync .idle (plannedSync o (some a) s target controlHead))
            (.synchronized o (plannedSync o (some a) s target controlHead)) := by
        simp [synchronizePending, htarget, heq, hphase, plannedSync]
      have hsaves : syncSaves o s (plannedSync o (some a) s target controlHead)
          = [Call.sync .idle (plannedSync o (some a) s target controlHead)] := by
        simp [syncSaves, hphase, heq, plannedSync]
      rw [hstretch, leadsTo_save rfl]
      simp only [heq, if_true, Option.some.injEq, exists_eq_left', hsaves, saveStates_cons,
        saveStates_nil, exists_eq_right']
      exact Iff.rfl
    · have hstretch : synchronizePending o (some a) controlHead remoteHead s
          = .save (Call.sync .mergePending
              { plannedSync o (some a) s target controlHead with localHead := o.localHead })
            (.merging o (plannedSync o (some a) s target controlHead) true) := by
        simp [synchronizePending, htarget, heq, hphase, plannedSync]
      have hsaves : syncSaves o s (plannedSync o (some a) s target controlHead)
          = [Call.sync .mergePending
              { plannedSync o (some a) s target controlHead with localHead := o.localHead },
            Call.sync .idle (plannedSync o (some a) s target controlHead)] := by
        simp [syncSaves, hphase, heq, plannedSync]
      simp only [heq, if_false, true_or, if_true, filter_eq_target]
      rw [hstretch, leadsTo_merging]
      constructor
      · rintro ⟨hmerged, u, hrest⟩
        refine ⟨target, ⟨rfl, hmerged⟩, u, ?_⟩
        rw [hsaves]
        exact hrest
      · rintro ⟨_, ⟨rfl, hmerged⟩, u, hrest⟩
        rw [hsaves] at hrest
        exact ⟨hmerged, u, hrest⟩

/-- Without a pending execution, another ticket is admitted from the synchronised checkout. -/
theorem leadsTo_synchronize_iff (hother : x.ticket.id ≠ a.ticketId)
    (hphase : s.phase = .idle ∨ s.phase = .mergePending) :
    (synchronize o (some a) s).LeadsTo s x
      ↔ o.dirty = false
        ∧ (s.phase = .mergePending ∨ o.stop .beforeControl = false ∧ o.stop .afterControl = false)
        ∧ ∃ productHead controlHead, o.controlHead = some controlHead
          ∧ planningHead o s = some productHead
          ∧ ∃ u, saveStates (syncSaves o s (plannedSync o (some a) s productHead controlHead)) s
              = .ok u
            ∧ (afterSynchronization o (plannedSync o (some a) s productHead controlHead) u).LeadsTo
              u x := by
  -- with the heads observed, the stretch is one of the two synchronisations
  have hinner : ∀ controlHead remoteHead, o.remoteHead = some remoteHead →
      ((if s.phase = .agentPending ∨ s.phase = .mergePending then
          synchronizePending o (some a) controlHead remoteHead s
        else synchronizeIdle o (some a) controlHead remoteHead s).LeadsTo s x
        ↔ ∃ productHead, planningHead o s = some productHead
          ∧ ∃ u, saveStates (syncSaves o s (plannedSync o (some a) s productHead controlHead)) s
              = .ok u
            ∧ (afterSynchronization o (plannedSync o (some a) s productHead controlHead) u).LeadsTo
              u x) := by
    intro controlHead remoteHead hremote
    rcases hphase with hidle | hmerge
    · simpa [hidle] using leadsTo_synchronizeIdle_iff hother hidle hremote
    · simpa [hmerge] using leadsTo_synchronizePending_iff hmerge hremote
  unfold synchronize
  constructor
  · intro h
    split at h
    · exact absurd h not_leadsTo_returned
    rename_i hdirty
    split at h
    · exact absurd h not_leadsTo_returned
    rename_i hbefore
    split at h
    · exact absurd h not_leadsTo_raised
    rename_i controlHead hcontrol
    split at h
    · exact absurd h not_leadsTo_returned
    rename_i hafter
    split at h
    · exact absurd h not_leadsTo_returned
    rename_i remoteHead hremote
    obtain ⟨productHead, hhead, hrest⟩ := (hinner controlHead remoteHead hremote).mp h
    refine ⟨by simpa using hdirty, ?_, productHead, controlHead, hcontrol, hhead, hrest⟩
    by_cases hmerge : s.phase = .mergePending
    · exact .inl hmerge
    · simp only [hmerge, bne_iff_ne, ne_eq, not_false_eq_true, Bool.and_eq_true, and_true,
        Bool.not_eq_true] at hbefore hafter
      exact .inr ⟨hbefore, hafter⟩
  · rintro ⟨hdirty, hgate, productHead, controlHead, hcontrol, hhead, hrest⟩
    obtain ⟨remoteHead, hremote⟩ : ∃ remoteHead, o.remoteHead = some remoteHead := by
      cases h : o.remoteHead with
      | none => simp [planningHead, h] at hhead
      | some remoteHead => exact ⟨remoteHead, rfl⟩
    have hpasses : ∀ gate, (gate = .beforeControl ∨ gate = .afterControl) →
        (o.stop gate && s.phase != .mergePending) = false := by
      rintro gate (rfl | rfl) <;> rcases hgate with hmerge | ⟨hbefore, hafter⟩ <;> simp [*]
    simp only [hdirty, hpasses .beforeControl (.inl rfl), hpasses .afterControl (.inr rfl),
      hcontrol, hremote, Bool.false_eq_true, if_false]
    exact (hinner controlHead remoteHead hremote).mpr ⟨productHead, hhead, hrest⟩

end LeadsTo

end Target

end Devlegate
