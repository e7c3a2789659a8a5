import Devlegate.RetryReplacement

namespace Devlegate

open Transition

/-!
# The ticket of a retry

`run_iteration` with `retry_ticket_id` runs that ticket or none: the authorization of the intent is
carried along to the selected ticket, unless an automatic retry takes its place.

* `Called`: what one call of `run_iteration` reaches.
* `Pc.Unplanned`, `Pc.Pending`: the points of a call that admit nothing any more.
* `Engine.OnCourse`: what a call that runs only the ticket keeps.
* `retried_iff`: a call runs its ticket or none, if and only if the retry is not replaced.
* `retryOfOther_launched`: an automatic retry of another ticket takes the retry's place.
-/

section Target

variable [Project] [Sha256] {o : Observation} {s s' : RuntimeState} {y : Synced}
  {plan : ExecutionPlan} {x : Execution} {call : SaveCall} {next : Pc} {r : AutomaticRetry}
  {ticket : Ticket} {a : ExecutionAuthorization} {ticketId : String}

/-! ### Points at which nothing is planned -/

/-- A point of a retry after which the iteration plans nothing. -/
def Pc.Unplanned : Pc → Prop
  | .strandedNoted _ authorization _ | .strandedNormalised _ authorization _ =>
    authorization.isSome = true
  | pc => pc.synced = none ∧ pc.execution = none

omit [Sha256] in
theorem Authorizes.knows {src : Source} {authorization : Option ExecutionAuthorization}
    (h : Authorizes o s src y plan authorization) : src.Knows o s y := by
  cases h with
  | plain h => exact h.knows
  | zeroDelta r h hr => exact h.knows
  | skipped y plan => rfl
  | moved y plan ticketId => rfl

omit [Sha256] in
theorem Selects.knows {src : Source} {authorization : Option ExecutionAuthorization}
    (h : Selects o s src y plan authorization ticket) : src.Knows o s y := by
  obtain ⟨plan₀, hauth, -⟩ := h.authorized
  exact hauth.knows

omit [Project] [Sha256] in
theorem Pc.Unplanned.not_knows {pc : Pc} (h : pc.Unplanned) :
    ¬ Source.Knows o s (.point pc) y := by
  intro hk
  cases pc <;> simp_all [Pc.Unplanned, Source.Knows, Pc.synced]

omit [Project] [Sha256] in
theorem Pc.Unplanned.execution {pc : Pc} (h : pc.Unplanned) : pc.execution = none := by
  cases pc <;> first | rfl | exact h.2

omit [Project] [Sha256] in
theorem Follows.execution_eq_none {src : Source} (h : Follows o s src next)
    (hexec : src.execution = none) : next.execution = none := by
  cases hx : next.execution with
  | none => rfl
  | some x =>
    have hsrc := h.execution x hx
    rw [hexec] at hsrc
    cases hsrc

omit [Project] [Sha256] in
/-- The progress of a running execution is not planned by the retry. -/
theorem Follows.unplanned {src : Source} (h : Follows o s src next)
    (hnone : next.execution = none)
    (hstrand : src.mayStrand = true → (src.authorization s).isSome = true) : next.Unplanned := by
  have hprogress := h.progress
  cases hnext : next with
  | strandedNoted o' authorization kind =>
    obtain ⟨hmay, rfl⟩ := h.stranded _ _ _ hnext
    exact hstrand hmay
  | _ =>
    rw [hnext] at hprogress hnone
    first | exact ⟨rfl, rfl⟩ | simp [Pc.isProgress, Pc.execution] at hprogress hnone

omit [Project] [Sha256] in
theorem Pc.mayStrand_of_execution {pc : Pc} (h : pc.execution = some x) :
    (Source.point pc).mayStrand = false := by
  cases pc <;> first | rfl | cases h

omit [Project] [Sha256] in
theorem Pc.mayStrand_of_synced {pc : Pc} (h : pc.synced = some y) :
    (Source.point pc).mayStrand = false := by
  cases pc <;> first | rfl | cases h

omit [Sha256] in
theorem Admits.knows {src : Source} {retry : Option AutomaticRetry} (h : Admits o s src x retry) :
    src.Knows o s x.synced := by
  cases h with
  | scheduled hsel hmarker hdec => exact hdec.synced ▸ hsel.knows
  | unmarked hdec => exact congrArg some hdec.synced.symm

omit [Sha256] in
/-- **Before the admission**, a save leaves the plan of the retry, or admits an execution, or goes
    on with the locals of the synchronisation. -/
theorem Saves.before {src : Source} (h : Saves o s src call next) (hexec : src.execution = none)
    (hstrand : src.mayStrand = true → (src.authorization s).isSome = true) :
    next.Unplanned ∨ (∃ x retry, next = .admitted o x ∧ Admits o s src x retry)
      ∨ ∃ y, src.Knows o s y ∧ next.synced = some y
        ∧ ((∃ resumed, next = .merging o y resumed) ∧ (call.payload s).phase = .mergePending
          ∨ next = .synchronized o y ∧ (call.payload s).phase
            = (if y.pendingAgentExecution then .agentPending else .idle)
          ∨ (call.payload s).phase = .idle ∧ (call.payload s).selectedTicketBody = none
            ∧ ∀ o' y' plan a ticket, next = .unmarked o' y' plan a ticket →
              Selects o s src y plan a ticket) := by
  cases h with
  | merge y₀ y resumed hy => exact .inr (.inr ⟨y, hy, rfl, .inl ⟨⟨resumed, rfl⟩, rfl⟩⟩)
  | synced y hy =>
    refine .inr (.inr ⟨y, hy, rfl, .inr (.inl ⟨rfl, ?_⟩)⟩)
    cases y.pendingAgentExecution <;> rfl
  | merged y => exact .inr (.inr ⟨y, rfl, rfl, .inr (.inr ⟨rfl, rfl, by rintro _ _ _ _ _ ⟨⟩⟩)⟩)
  | discarded y r hy hr =>
    exact .inr (.inr ⟨y, hy, rfl, .inr (.inr ⟨rfl, rfl, by rintro _ _ _ _ _ ⟨⟩⟩)⟩)
  | retrySkipped y plan r hplan hr =>
    exact .inr (.inr ⟨y, hplan.knows, rfl, .inr (.inr ⟨rfl, rfl, by rintro _ _ _ _ _ ⟨⟩⟩)⟩)
  | retryMoved y plan r hplan hr =>
    exact .inr (.inr ⟨y, hplan.knows, rfl, .inr (.inr ⟨rfl, rfl, by rintro _ _ _ _ _ ⟨⟩⟩)⟩)
  | unmark y plan authorization ticket hsel hmarker =>
    refine .inr (.inr ⟨y, hsel.knows, rfl, .inr (.inr ⟨rfl, rfl, ?_⟩)⟩)
    rintro _ _ _ _ _ ⟨⟩
    exact hsel
  | admission x baseHead controlHead remoteHead retry hx => exact .inr (.inl ⟨x, retry, rfl, hx⟩)
  | launch x startHead baseHead hgate => cases hexec
  | progress hcall hnext => exact .inl (hnext.unplanned (hnext.execution_eq_none hexec) hstrand)
  | zeroDelta report retry hreport hretry hnext =>
    obtain rfl | ⟨caller, rfl⟩ := hnext <;> exact .inl ⟨rfl, rfl⟩
  | finalize report controlHead productHead productRemoteHead update hreport hupdate hnext =>
    obtain rfl | ⟨-, r, rfl⟩ := hnext <;> exact .inl ⟨rfl, rfl⟩
  | normalised controlHead id executionId kind failed hmay hticket hid hfailed =>
    exact .inl (hstrand hmay)
  | _ => exact .inl ⟨rfl, rfl⟩

omit [Sha256] in
/-- Nothing is planned after such a point. -/
theorem Saves.unplanned {pc : Pc} (h : Saves o s (.point pc) call next) (hpc : pc.Unplanned) :
    next.Unplanned := by
  have hstrand : (Source.point pc).mayStrand = true →
      ((Source.point pc).authorization s).isSome = true := by
    cases pc <;> first | exact fun _ => hpc | rintro ⟨⟩
  rcases h.before hpc.execution hstrand with hnext | ⟨x, retry, -, hx⟩ | ⟨y, hy, -⟩
  · exact hnext
  · exact (hpc.not_knows hx.knows).elim
  · exact (hpc.not_knows hy).elim

/-- A stretch after which nothing is planned admits nothing. -/
theorem Stretch.LeadsTo.planned {stretch : Stretch} (h : stretch.LeadsTo s x) :
    ∀ o pc, pc.Unplanned → ¬ stretch.Ensures (Saves o s (.point pc)) := by
  induction h with
  | @admitted call s s' o' x hsave =>
    intro o pc hpc hsaves
    cases (hsaves.unplanned hpc).2
  | @later call s s' next x hsave hnext hleads ih =>
    intro o pc hpc hsaves
    have hunplanned : next.Unplanned := hsaves.unplanned hpc
    cases hobs : next.observation with
    | none =>
      obtain rfl : next = .ready := by cases next <;> first | rfl | cases hobs
      exact not_leadsTo_returned hleads
    | some o' => exact ih o' next hunplanned (advance_saves hobs)

/-! ### The records an admission depends on -/

/-- An idle state, or one before a merge, with the same records. -/
structure SameRecords (s u : RuntimeState) : Prop where
  phase : u.phase = .idle ∨ u.phase = .mergePending
  automaticRetry : u.automaticRetry = s.automaticRetry
  manualRetryRequired : u.manualRetryRequired = s.manualRetryRequired
  failedExecutions : u.failedExecutions = s.failedExecutions
  executionTicketId : u.executionTicketId = s.executionTicketId
  executionBaseHead : u.executionBaseHead = s.executionBaseHead
  executionControlHead : u.executionControlHead = s.executionControlHead
  acceptedIntegration : u.acceptedIntegration = s.acceptedIntegration
  reconciliation : u.reconciliation = s.reconciliation

omit [Project] in
/-- The saves of the synchronisation keep the records. -/
theorem SameRecords.of_syncSaves {u : RuntimeState}
    (hphase : s.phase = .idle ∨ s.phase = .mergePending)
    (h : saveStates (syncSaves o s y) s = .ok u) : SameRecords s u := by
  have hstart : SameRecords s s := ⟨hphase, rfl, rfl, rfl, rfl, rfl, rfl, rfl, rfl⟩
  have hsync : ∀ {t v : RuntimeState} {p : Phase} {y' : Synced}, p = .idle ∨ p = .mergePending →
      SameRecords s t → saveState (Call.sync p y') t = .ok v → SameRecords s v := by
    rintro t v p y' hp ht hsave
    obtain ⟨rfl, -⟩ := saveState_eq_ok.mp hsave
    rcases hp with rfl | rfl
    · exact { ht with phase := .inl rfl }
    · exact { ht with phase := .inr rfl }
  have hmerged : ∀ {t v : RuntimeState}, SameRecords s t → saveState (Call.merged y) t = .ok v →
      SameRecords s v := by
    rintro t v ht hsave
    obtain ⟨rfl, -⟩ := saveState_eq_ok.mp hsave
    exact { ht with phase := .inl rfl }
  unfold syncSaves at h
  rw [saveStates_append] at h
  obtain ⟨t, hmerge, hrest⟩ := h
  -- first the merge is noted, where there is one
  have ht : SameRecords s t := by
    split at hmerge
    · rw [saveStates_nil] at hmerge
      rwa [hmerge]
    · simp only [saveStates_cons, saveStates_nil, exists_eq_right'] at hmerge
      exact hsync (.inr rfl) hstart hmerge
  -- then the merge that was pending is over, or the new one is
  split at hrest
  · simp only [saveStates_cons, saveStates_nil, exists_eq_right'] at hrest
    exact hsync (.inl rfl) ht hrest
  split at hrest
  · rw [saveStates_nil] at hrest
    rwa [hrest]
  · simp only [saveStates_cons, saveStates_nil, exists_eq_right'] at hrest
    exact hmerged ht hrest

omit [Sha256] in
theorem SameRecords.runsFreely {u : RuntimeState} {controlHead : String} (h : SameRecords s u)
    (hphase : s.phase = .idle ∨ s.phase = .mergePending) :
    Devlegate.runsFreely u controlHead ticketId = Devlegate.runsFreely s controlHead ticketId := by
  have hbarrier : ∀ store, admissionBarrier u store = admissionBarrier s store := by
    intro store
    simp only [admissionBarrier, h.reconciliation, h.acceptedIntegration]
  have hfree : ∀ {t : RuntimeState}, t.phase = .idle ∨ t.phase = .mergePending →
      (t.phase == .idle || t.phase == .mergePending) = true := by
    rintro t (ht | ht) <;> simp [ht]
  simp only [Devlegate.runsFreely, hbarrier, hfree h.phase, hfree hphase]

omit [Sha256] in
theorem SameRecords.due_iff {u : RuntimeState} {remoteHead : Option String} (h : SameRecords s u)
    (hphase : s.phase = .idle ∨ s.phase = .mergePending) :
    Due o u y r ticket remoteHead ↔ Due o s y r ticket remoteHead := by
  constructor
  · intro hdue
    exact { hdue with
      retry := h.automaticRetry ▸ hdue.retry
      planned := h.runsFreely hphase ▸ hdue.planned }
  · intro hdue
    exact { hdue with
      retry := h.automaticRetry ▸ hdue.retry
      planned := (h.runsFreely hphase).symm ▸ hdue.planned }

omit [Sha256] in
theorem SameRecords.replacementSaves {u : RuntimeState} {remoteHead : Option String}
    (h : SameRecords s u) :
    Devlegate.replacementSaves o y r ticket remoteHead u
      = Devlegate.replacementSaves o y r ticket remoteHead s := by
  have hmarker : markerMisfits u ticket.id = markerMisfits s ticket.id := by
    unfold markerMisfits
    rw [h.manualRetryRequired, h.failedExecutions]
  simp only [Devlegate.replacementSaves, replacementAdmission, hmarker, h.executionTicketId,
    h.executionBaseHead, h.executionControlHead]

/-- From the synchronisation to the admission of another ticket. -/
theorem leadsTo_synced_iff (hy : y.authorization = some a) (hother : x.ticket.id ≠ a.ticketId)
    (hpending : y.pendingAgentExecution = false) (hheads : y.localHead = y.remoteHead)
    (hphase : s.phase = .idle ∨ s.phase = .mergePending) :
    (∃ u, saveStates (syncSaves o s y) s = .ok u ∧ (afterSynchronization o y u).LeadsTo u x)
      ↔ (o.stop .beforeTickets = false ∧ o.projectOk = true) ∧ ∃ r ticket remoteHead,
        Due o s y r ticket remoteHead ∧ x = replacement o y r ticket ∧ ∃ s', saveStates
          (syncSaves o s y ++ replacementSaves o y r ticket remoteHead s) s = .ok s' := by
  constructor
  · rintro ⟨u, hsync, hleads⟩
    have hsame : SameRecords s u := .of_syncSaves hphase hsync
    rw [leadsTo_afterSynchronization_iff hy hother hpending] at hleads
    obtain ⟨hgate, hproject, -, r, ticket, remoteHead, hdue, hx, s', hsaves⟩ := hleads
    rw [hsame.replacementSaves] at hsaves
    exact ⟨⟨hgate, hproject⟩, r, ticket, remoteHead, (hsame.due_iff hphase).mp hdue, hx, s',
      saveStates_append.mpr ⟨u, hsync, hsaves⟩⟩
  · rintro ⟨⟨hgate, hproject⟩, r, ticket, remoteHead, hdue, hx, s', hsaves⟩
    obtain ⟨u, hsync, hsaves⟩ := saveStates_append.mp hsaves
    have hsame : SameRecords s u := .of_syncSaves hphase hsync
    refine ⟨u, hsync, ?_⟩
    rw [leadsTo_afterSynchronization_iff hy hother hpending]
    rw [← hsame.replacementSaves] at hsaves
    exact ⟨hgate, hproject, hheads, r, ticket, remoteHead, (hsame.due_iff hphase).mpr hdue, hx, s',
      hsaves⟩

/-- **From the start of the iteration**: without a pending or running execution, a retry admits
    another ticket if and only if it is replaced. -/
theorem leadsTo_enter_iff {intent : IterationIntent} (hretry : intent.retryTicketId = some ticketId)
    (hother : x.ticket.id ≠ ticketId) (hphase : s.phase = .idle ∨ s.phase = .mergePending) :
    (enter o intent s).LeadsTo s x
      ↔ ∃ productHead controlHead r ticket remoteHead,
        Replaced o s intent productHead controlHead r ticket remoteHead
          ∧ x = replacement o (plannedSync o (initialAuthorization intent s) s productHead
            controlHead) r ticket := by
  obtain ⟨a, ha, rfl⟩ : ∃ a, initialAuthorization intent s = some a ∧ a.ticketId = ticketId := by
    simp [initialAuthorization, IterationIntent.authorization, hretry]
  have hsync : (synchronize o (some a) s).LeadsTo s x
      ↔ o.dirty = false
        ∧ (s.phase = .mergePending ∨ o.stop .beforeControl = false ∧ o.stop .afterControl = false)
        ∧ ∃ productHead controlHead, o.controlHead = some controlHead
          ∧ planningHead o s = some productHead
          ∧ (o.stop .beforeTickets = false ∧ o.projectOk = true) ∧ ∃ r ticket remoteHead,
            Due o s (plannedSync o (some a) s productHead controlHead) r ticket remoteHead
              ∧ x = replacement o (plannedSync o (some a) s productHead controlHead) r ticket
              ∧ ∃ s', saveStates (syncSaves o s (plannedSync o (some a) s productHead controlHead)
                ++ replacementSaves o (plannedSync o (some a) s productHead controlHead) r ticket
                  remoteHead s) s = .ok s' := by
    rw [leadsTo_synchronize_iff hother hphase]
    simp only [leadsTo_synced_iff (y := plannedSync o (some a) s _ _) rfl hother rfl rfl hphase]
  constructor
  · intro h
    -- an iteration that turns to a recovery first, or returns at a gate, admits nothing
    have hentered : (s.phase = .mergePending ∨ o.stop .start = false) ∧ o.branchOk = true
        ∧ (synchronize o (some a) s).LeadsTo s x := by
      unfold enter at h
      rw [ha] at h
      dsimp only at h
      split at h
      · exact absurd h not_leadsTo_returned
      rename_i hstart
      -- only the idle phase has an accepted integration or a reconciliation to look at
      rcases hphase with hidle | hmerge
      · simp only [hidle] at h
        split at h
        · exact absurd h not_leadsTo_raised
        rename_i hbranch
        refine ⟨.inr (by simpa [hidle] using hstart), by simpa using hbranch, ?_⟩
        split at h
        · unfold recoverAcceptedIntegration at h
          split at h
          · exact absurd h not_leadsTo_raised
          split at h
          · exact absurd h not_leadsTo_ready
          · exact absurd h not_leadsTo_raised
        · rename_i r _ hr
          have hsaves : (reconcileResume o r).Ensures (Saves o s (.point .ready)) :=
            reconcileResume_saves (.inr (Option.filter_eq_some_iff.mp hr).1)
          exact absurd hsaves (h.planned o .ready ⟨rfl, rfl⟩)
        · exact h
      · simp only [hmerge] at h
        split at h
        · exact absurd h not_leadsTo_raised
        rename_i hbranch
        exact ⟨.inl hmerge, by simpa using hbranch, h⟩
    obtain ⟨hstart, hbranch, hleads⟩ := hentered
    obtain ⟨hdirty, hgates, productHead, controlHead, hcontrol, hhead, htickets, r, ticket,
      remoteHead, hdue, hx, hsaves⟩ := hsync.mp hleads
    refine ⟨productHead, controlHead, r, ticket, remoteHead, ?_, by rw [ha]; exact hx⟩
    have hid : ticket.id = r.ticketId := TicketStore.executable_id hdue.executable
    refine ⟨?_, ?_, hbranch, hdirty, hcontrol, hhead, htickets, by rw [ha]; exact hdue,
      by rw [ha]; exact hsaves⟩
    · rw [hretry]
      intro heq
      exact hother (by rw [hx]; exact hid.trans (Option.some.inj heq).symm)
    · rcases hgates with hmerge | hgates
      · exact .inl hmerge
      · exact hstart.imp_right fun hstart => ⟨hstart, hgates⟩
  · rintro ⟨productHead, controlHead, r, ticket, remoteHead, hrep, hx⟩
    have hleads : (synchronize o (some a) s).LeadsTo s x := by
      rw [hsync]
      rw [← ha]
      exact ⟨hrep.clean, hrep.unstopped.imp_right And.right, productHead, controlHead, hrep.control,
        hrep.product, hrep.tickets, r, ticket, remoteHead, hrep.due, hx, hrep.saves⟩
    have hstart : (o.stop .start && s.phase != .mergePending) = false := by
      rcases hrep.unstopped with hmerge | ⟨hstart, -⟩ <;> simp [*]
    obtain ⟨haccepted, hreconciliation⟩ :=
      admissionBarrier_eq_none (barrier_of_runsFreely hrep.due.planned)
    unfold enter
    rw [ha, hstart]
    rcases hphase with hp | hp
    · simpa [hp, hrep.branch, haccepted, hreconciliation] using hleads
    · simpa [hp, hrep.branch] using hleads

/-! ### A pending execution is not replaced -/

/-- The authorization is for the ticket. -/
def Names (authorization : Option ExecutionAuthorization) (ticketId : String) : Prop :=
  authorization.map (·.ticketId) = some ticketId

/-- A point of a retry that has found a pending execution: its plan is bound, or nothing is selected
    any more. -/
def Pc.Pending (ticketId : String) (s : RuntimeState) (pc : Pc) : Prop :=
  (∃ y, pc.synced = some y ∧ y.pendingAgentExecution = true ∧ Names y.authorization ticketId)
    ∧ match pc with
      | .merging _ _ _ => True
      | .synchronized _ _ => s.phase = .agentPending ∨ s.selectedTicketBody = none
      | .unmarked _ _ _ _ _ => False
      | _ => s.selectedTicketBody = none

omit [Sha256] in
/-- A worker plan for a pending execution is bound. -/
theorem planIteration_bound (hphase : s.phase = .agentPending)
    (hplan : planIteration o y s = some plan) (haction : plan.action = .runWorker) :
    plan.bound = true := by
  have hmake : ∀ inspection, makeExecutionPlan s (Project.tickets y.controlHead) inspection = plan →
      plan.bound = true := by
    intro inspection hmake
    unfold makeExecutionPlan at hmake
    split at hmake
    · rename_i barrier hbarrier
      subst hmake
      exact absurd haction (admissionBarrier_action hbarrier)
    · simp only [hphase] at hmake
      subst hmake
      exact boundPlan_bound haction
  unfold planIteration at hplan
  dsimp only at hplan
  split at hplan
  · obtain ⟨inspection, -, hmade⟩ := Option.map_eq_some_iff.mp hplan
    exact hmake inspection hmade
  · exact hmake o.inspection (Option.some.inj hplan)

omit [Sha256] in
/-- A retry selects no ticket for a pending execution. -/
theorem Selects.not_pending {src : Source} {authorization : Option ExecutionAuthorization}
    (h : Selects o s src y plan authorization ticket) (hpending : y.pendingAgentExecution = true)
    (hnames : Names y.authorization ticketId)
    (hsrc : (∃ intent, src = .iteration intent) ∧ s.phase = .agentPending
      ∨ ∃ pc, src = .point pc ∧ pc.Pending ticketId s) : False := by
  have hbody : s.selectedTicketBody ≠ none := by
    have hselected := h.selected
    unfold selectTicket at hselected
    grind
  obtain ⟨plan₀, hauth, hplan⟩ := h.authorized
  have hfree : authorization ≠ none → plan₀.action = .runWorker ∧ plan₀.bound = false := by
    intro hsome
    obtain ⟨a, rfl⟩ := Option.ne_none_iff_exists'.mp hsome
    exact ⟨(authorizedPlan_some hplan).1, (authorizedPlan_some hplan).2.1⟩
  -- what plans without a selected body is not planned for the pending execution
  have hplans : src.Plans o s y plan₀ → s.phase ≠ .agentPending → False := by
    intro hplans hphase
    rcases hsrc with ⟨-, hp⟩ | ⟨pc, rfl, hpc⟩
    · exact hphase hp
    rcases hplans.point pc rfl with ⟨y', rfl⟩ | ⟨y', rfl⟩ | ⟨a, id, rfl⟩
    · exact hpc.2.elim hphase hbody
    · exact hbody hpc.2
    · exact hbody hpc.2
  cases hauth with
  | plain hp =>
    have hsome : y.authorization ≠ none := by
      rintro hnone
      simp [Names, hnone] at hnames
    obtain ⟨haction, hbound⟩ := hfree hsome
    refine hplans hp fun hphase => ?_
    rw [planIteration_bound hphase hp.plan_eq haction] at hbound
    cases hbound
  | zeroDelta r hp hr =>
    refine hplans hp fun hphase => ?_
    have hbound := hr.bound
    rw [planIteration_bound hphase hp.plan_eq hr.action] at hbound
    cases hbound
  | skipped y plan =>
    obtain ⟨⟨_, ⟨⟩⟩, -⟩ | ⟨pc, ⟨⟩, hpc⟩ := hsrc
    exact hbody hpc.2
  | moved y plan id =>
    obtain ⟨⟨_, ⟨⟩⟩, -⟩ | ⟨pc, ⟨⟩, hpc⟩ := hsrc
    exact hbody hpc.2

omit [Sha256] in
/-- After a save of a retry that has found a pending execution. -/
theorem Saves.pending {src : Source} (h : Saves o s src call next)
    (hk : ∀ y, src.Knows o s y → y.pendingAgentExecution = true ∧ Names y.authorization ticketId)
    (hsrc : (∃ intent, src = .iteration intent) ∧ s.phase = .agentPending
      ∨ ∃ pc, src = .point pc ∧ pc.Pending ticketId s)
    (hexec : src.execution = none)
    (hstrand : src.mayStrand = true → (src.authorization s).isSome = true) :
    next.Unplanned ∨ next.Pending ticketId (call.payload s) := by
  have hselects : ∀ {y plan authorization ticket},
      ¬ Selects o s src y plan authorization ticket := by
    intro y plan authorization ticket hsel
    obtain ⟨hpending, hnames⟩ := hk y hsel.knows
    exact hsel.not_pending hpending hnames hsrc
  rcases h.before hexec hstrand with hnext | ⟨x, retry, -, hx⟩ | ⟨y, hy, hsynced, hnext⟩
  · exact .inl hnext
  · cases hx with
    | scheduled hsel hmarker hdec => exact (hselects hsel).elim
    | unmarked hdec =>
      obtain ⟨⟨_, ⟨⟩⟩, -⟩ | ⟨pc, ⟨⟩, hpc⟩ := hsrc
      exact hpc.2.elim
  refine .inr ⟨⟨y, hsynced, hk y hy⟩, ?_⟩
  rcases hnext with ⟨⟨resumed, rfl⟩, -⟩ | ⟨rfl, hphase⟩ | ⟨-, hbody, hunmarked⟩
  · trivial
  · rw [(hk y hy).1] at hphase
    exact .inl hphase
  · cases hpc : next with
    | merging o' y' resumed => trivial
    | synchronized o' y' => exact .inr hbody
    | unmarked o' y' plan a ticket => exact hselects (hunmarked _ _ _ _ _ hpc)
    | _ => exact hbody

omit [Sha256] in
/-- After a save of a retry without a pending execution. -/
theorem Saves.free {src : Source} (h : Saves o s src call next)
    (hk : ∀ y, src.Knows o s y → y.pendingAgentExecution = false) (hexec : src.execution = none)
    (hstrand : src.mayStrand = true → (src.authorization s).isSome = true) :
    next.Unplanned ∨ (∃ x, next = .admitted o x)
      ∨ (∃ y, next.synced = some y ∧ y.pendingAgentExecution = false)
        ∧ ((call.payload s).phase = .idle ∨ (call.payload s).phase = .mergePending) := by
  rcases h.before hexec hstrand with hnext | ⟨x, retry, hx, -⟩ | ⟨y, hy, hsynced, hnext⟩
  · exact .inl hnext
  · exact .inr (.inl ⟨x, hx⟩)
  refine .inr (.inr ⟨⟨y, hsynced, hk y hy⟩, ?_⟩)
  rcases hnext with ⟨-, hphase⟩ | ⟨-, hphase⟩ | ⟨hphase, -⟩
  · exact .inr hphase
  · rw [hk y hy] at hphase
    exact .inl hphase
  · exact .inl hphase

omit [Sha256] in
/-- After a save of an execution the same execution goes on, or it has ended. -/
theorem Saves.of_execution {pc : Pc} (h : Saves o s (.point pc) call next)
    (hpc : pc.execution = some x) : next.execution = some x ∨ next.Unplanned := by
  have hknows : ∀ y, ¬ Source.Knows o s (.point pc) y := by
    intro y hk
    cases pc <;> simp_all [Pc.execution, Source.Knows, Pc.synced]
  cases h with
  | merge y₀ y resumed hk => exact (hknows y hk).elim
  | synced y hk => exact (hknows y hk).elim
  | merged y => cases hpc
  | discarded y r hk hr => exact (hknows y hk).elim
  | retrySkipped y plan r hplan hr => exact (hknows y hplan.knows).elim
  | retryMoved y plan r hplan hr => exact (hknows y hplan.knows).elim
  | unmark y plan authorization ticket hsel hmarker => exact (hknows y hsel.knows).elim
  | admission x' baseHead controlHead remoteHead retry hx => exact (hknows _ hx.knows).elim
  | launch x' startHead baseHead hgate => exact .inl hpc
  | progress hcall hnext =>
    cases hx : next.execution with
    | some x' => exact .inl ((hnext.execution x' hx).symm.trans hpc)
    | none =>
      exact .inr (hnext.unplanned hx fun hmay => by simp [Pc.mayStrand_of_execution hpc] at hmay)
  | zeroDelta report retry hreport hretry hnext =>
    obtain rfl | ⟨caller, rfl⟩ := hnext <;> exact .inr ⟨rfl, rfl⟩
  | finalize report controlHead productHead productRemoteHead update hreport hupdate hnext =>
    obtain rfl | ⟨-, r, rfl⟩ := hnext <;> exact .inr ⟨rfl, rfl⟩
  | normalised controlHead id executionId kind failed hmay hticket hid hfailed =>
    simp [Pc.mayStrand_of_execution hpc] at hmay
  | _ => exact .inr ⟨rfl, rfl⟩

/-! ### One call -/

/-- While an iteration runs it advances, and another thread may stop it by force. -/
def Within (_ : Engine) (action : EngineAction) : Prop :=
  action = .advance ∨ ∃ requestId, action = .forceStop requestId

/-- A call of `run_iteration` in the state `s` reaches `e`. -/
def Called (o : Observation) (intent : IterationIntent) (s : RuntimeState) (e : Engine) : Prop :=
  ∃ e₁, Engine.step { state := s } (.begin o intent) = some e₁ ∧ Run Engine.step Within e₁ e

/-- Every execution of the call is the ticket's, and the ticket is the durable selection. -/
structure Engine.RunsOnly (ticketId : String) (e : Engine) : Prop where
  launches : ∀ l ∈ e.launches, l.ticketId = ticketId
  execution : ∀ x, e.pc.execution = some x →
    x.ticket.id = ticketId ∧ e.state.selectedTicketId = some ticketId

/-- What a call that runs only the ticket keeps: no admission of another one can follow. -/
structure Engine.OnCourse (ticketId : String) (e : Engine) : Prop extends e.RunsOnly ticketId where
  course : (∃ x, e.pc.execution = some x) ∨ e.pc.Unplanned ∨ e.pc.Pending ticketId e.state
    ∨ (∃ y, e.pc.synced = some y ∧ y.pendingAgentExecution = false)
      ∧ (e.state.phase = .idle ∨ e.state.phase = .mergePending)
      ∧ ∀ x, (advance e.pc e.state).LeadsTo e.state x → x.ticket.id = ticketId

omit [Project] [Sha256] in
theorem Engine.RunsOnly.saved {e : Engine} {u : RuntimeState}
    (hlaunches : ∀ l ∈ e.launches, l.ticketId = ticketId)
    (hx : ∀ x, next.execution = some x → x.ticket.id = ticketId
      ∧ u.selectedTicketId = some ticketId) : (e.saved u next).RunsOnly ticketId := by
  refine ⟨?_, hx⟩
  intro l hl
  rcases e.saved_launches u next with heq | ⟨o, x, rfl, heq⟩
  · rw [heq] at hl
    exact hlaunches l hl
  · rw [heq, List.mem_cons] at hl
    rcases hl with rfl | hl
    · exact (hx x rfl).1
    · exact hlaunches l hl

omit [Project] [Sha256] in
theorem Pc.Pending.execution {pc : Pc} (h : pc.Pending ticketId s) : pc.execution = none := by
  obtain ⟨⟨y, hy, -⟩, -⟩ := h
  cases pc <;> first | rfl | cases hy

/-- Away from the plan. -/
theorem Engine.OnCourse.of_unplanned {e : Engine}
    (hlaunches : ∀ l ∈ e.launches, l.ticketId = ticketId) (hpc : e.pc.Unplanned) :
    e.OnCourse ticketId := by
  refine ⟨⟨hlaunches, fun x hx => ?_⟩, .inr (.inl hpc)⟩
  rw [hpc.execution] at hx
  cases hx

theorem Engine.OnCourse.of_saved_unplanned {e : Engine} {u : RuntimeState}
    (hlaunches : ∀ l ∈ e.launches, l.ticketId = ticketId) (hnext : next.Unplanned) :
    (e.saved u next).OnCourse ticketId := by
  refine ⟨.saved hlaunches fun x hx => ?_, .inr (.inl hnext)⟩
  rw [hnext.execution] at hx
  cases hx

theorem Engine.OnCourse.of_saved_pending {e : Engine} {u : RuntimeState}
    (hlaunches : ∀ l ∈ e.launches, l.ticketId = ticketId) (hnext : next.Pending ticketId u) :
    (e.saved u next).OnCourse ticketId := by
  refine ⟨.saved hlaunches fun x hx => ?_, .inr (.inr (.inl hnext))⟩
  rw [hnext.execution] at hx
  cases hx

/-- After a save, if no admission of another ticket follows. -/
theorem Engine.OnCourse.saved {e : Engine} {src : Source}
    (hlaunches : ∀ l ∈ e.launches, l.ticketId = ticketId) (hsave : Saves o s src call next)
    (hvalid : validateStateInvariant (call.payload s) = .ok ()) (hexec : src.execution = none)
    (hstrand : src.mayStrand = true → (src.authorization s).isSome = true)
    (hk : ∀ y, src.Knows o s y → y.pendingAgentExecution = false)
    (hleads : ∀ x, (Stretch.save call next).LeadsTo s x → x.ticket.id = ticketId) :
    (e.saved (call.payload s) next).OnCourse ticketId := by
  have hsaved : saveState call s = .ok (call.payload s) := saveState_eq_ok.mpr ⟨rfl, hvalid⟩
  rcases hsave.free hk hexec hstrand with hnext | ⟨x, rfl⟩ | ⟨⟨y, hy, hpending⟩, hphase⟩
  · exact .of_saved_unplanned hlaunches hnext
  · refine ⟨.saved hlaunches ?_, .inl ⟨x, rfl⟩⟩
    rintro x' ⟨⟩
    have hid : x.ticket.id = ticketId := hleads x (.admitted hsaved)
    rcases hsave.execution (x := x) rfl with hselected | ⟨hsrc, -⟩
    · exact ⟨hid, hid ▸ hselected⟩
    · rw [hexec] at hsrc
      cases hsrc
  · have hnone : next.execution = none := by
      cases next <;> first | rfl | cases hy
    refine ⟨.saved hlaunches fun x hx => ?_, .inr (.inr (.inr ⟨⟨y, hy, hpending⟩, hphase, ?_⟩))⟩
    · rw [hnone] at hx
      cases hx
    · intro x hx
      exact hleads x (.later hsaved hnone hx)

/-- One step of the call. -/
theorem Engine.OnCourse.step {e e' : Engine} {action : EngineAction} (h : e.OnCourse ticketId)
    (hwithin : Within e action) (hmove : Moves e action e') : e'.OnCourse ticketId := by
  cases hmove with
  | stop action =>
    refine .of_unplanned ?_ ⟨rfl, rfl⟩
    rw [show ({ e.noted action with pc := .ready } : Engine).launches = e.launches from
      e.noted_launches action]
    exact h.launches
  | record hready hcall hvalid =>
    refine .of_unplanned h.launches ?_
    show e.pc.Unplanned
    rw [hready]
    exact ⟨rfl, rfl⟩
  | forced requestId marker hmarker =>
    have hphase := (forcedStopMarker_eq_some hmarker).1
    refine ⟨⟨h.launches, fun x hx => h.execution x (by simpa using hx)⟩, ?_⟩
    -- the stop writes a marker and a request; it leaves the point where the call is
    rcases h.course with ⟨x, hx⟩ | hpc | hpc | ⟨-, hfree, -⟩
    · exact .inl ⟨x, by simpa using hx⟩
    · refine .inr (.inl ?_)
      cases hp : e.pc <;> rw [hp] at hpc <;> exact hpc
    · refine .inr (.inr (.inl ?_))
      cases hp : e.pc <;> rw [hp] at hpc <;> exact hpc
    · rcases hphase with hp | hp <;> simp [hp] at hfree
  | @save _ o src call next hstart hstretch hsave hvalid =>
    obtain ⟨rfl, rfl⟩ : action = .advance ∧ src = .point e.pc := by
      rcases hwithin with rfl | ⟨requestId, rfl⟩ <;> cases hstart
      exact ⟨rfl, rfl⟩
    have hlaunches : ∀ l ∈ (e.noted .advance).launches, l.ticketId = ticketId := h.launches
    -- a point before the admission finds no stranded execution
    have hplanning : ∀ {y}, e.pc.synced = some y → (Source.point e.pc).execution = none
        ∧ ((Source.point e.pc).mayStrand = true →
          ((Source.point e.pc).authorization e.state).isSome = true)
        ∧ ∀ {y'}, Source.Knows o e.state (.point e.pc) y' → y' = y := by
      intro y hy
      refine ⟨?_, fun hmay => by simp [Pc.mayStrand_of_synced hy] at hmay, ?_⟩
      · cases hp : e.pc <;> rw [hp] at hy <;> first | rfl | cases hy
      · intro y' hk
        cases hp : e.pc <;> rw [hp] at hy hk <;>
          first | exact Option.some.inj (hk.symm.trans hy) | cases hy
    rcases h.course with ⟨x, hx⟩ | hpc | hpc | ⟨⟨y, hy, hpending⟩, hphase, hleads⟩
    · -- the execution goes on, or its result is dealt with
      obtain ⟨hid, hselected⟩ := h.execution x hx
      rcases hsave.of_execution hx with hnext | hnext
      · refine ⟨.saved hlaunches ?_, .inl ⟨x, hnext⟩⟩
        rintro x' hx'
        obtain rfl : x = x' := Option.some.inj (hnext.symm.trans hx')
        refine ⟨hid, ?_⟩
        rcases hsave.execution hnext with hsaved | ⟨-, hsaved⟩
        · rw [hsaved, hid]
        · rw [hsaved, hselected]
      · exact .of_saved_unplanned hlaunches hnext
    · exact .of_saved_unplanned hlaunches (hsave.unplanned hpc)
    · obtain ⟨⟨y, hy, hpending, hnames⟩, -⟩ := id hpc
      obtain ⟨hexec, hstrand, hknows⟩ := hplanning hy
      rcases hsave.pending (fun y' hk => hknows hk ▸ ⟨hpending, hnames⟩) (.inr ⟨_, rfl, hpc⟩) hexec
        hstrand with hnext | hnext
      · exact .of_saved_unplanned hlaunches hnext
      · exact .of_saved_pending hlaunches hnext
    · obtain ⟨hexec, hstrand, hknows⟩ := hplanning hy
      refine .saved hlaunches hsave hvalid hexec hstrand (fun y' hk => hknows hk ▸ hpending) ?_
      intro x hx
      exact hleads x (by rwa [← hstretch] at hx)

/-- The first stretch of a call that is not replaced. -/
theorem Engine.OnCourse.start {intent : IterationIntent}
    (hretry : intent.retryTicketId = some ticketId)
    (hleads : ∀ x, s.phase = .idle ∨ s.phase = .mergePending → (enter o intent s).LeadsTo s x →
      x.ticket.id = ticketId) :
    (({ state := s } : Engine).begun o intent |>.perform (enter o intent s)).OnCourse ticketId := by
  have hlaunches : ∀ l ∈ (({ state := s } : Engine).begun o intent).launches,
      l.ticketId = ticketId := by
    rintro l ⟨⟩
  obtain ⟨a, ha, haT⟩ : ∃ a, initialAuthorization intent s = some a ∧ a.ticketId = ticketId := by
    simp [initialAuthorization, IterationIntent.authorization, hretry]
  have hstrand : (Source.iteration intent).mayStrand = true →
      ((Source.iteration intent).authorization s).isSome = true := by
    intro _
    show (initialAuthorization intent s).isSome = true
    rw [ha]
    rfl
  -- a running execution is recovered as a stranded one
  have hrunning : s.phase = .agentRunning → ∀ call next, enter o intent s = .save call next →
      next.Unplanned := by
    intro hphase call next hstretch
    have hrecover : (recoverRunning o (some a) s).Ensures
        (Saves o s (.point (.strandedNoted o (some a) .processLoss))) :=
      @recoverRunning_saves _ o s (.point (.strandedNoted o (some a) .processLoss)) rfl
    have hsaves : (enter o intent s).Ensures
        (Saves o s (.point (.strandedNoted o (some a) .processLoss))) := by
      unfold enter
      simp only [hphase, ha]
      split
      · trivial
      split
      · trivial
      · exact hrecover
    rw [hstretch] at hsaves
    have hpc : (Pc.strandedNoted o (some a) .processLoss).Unplanned := rfl
    exact Saves.unplanned hsaves hpc
  rcases Engine.perform_cases (e := ({ state := s } : Engine).begun o intent) enter_saves with heq
    | ⟨call, next, hstretch, hsave, hvalid, heq⟩
  · rw [heq]
    exact .of_unplanned hlaunches ⟨rfl, rfl⟩
  rw [heq]
  have hk : ∀ y, Source.Knows o s (.iteration intent) y →
      y.pendingAgentExecution = decide (s.phase = .agentPending)
        ∧ Names y.authorization ticketId := by
    rintro y ⟨hauth, -, hpending⟩
    refine ⟨hpending, ?_⟩
    rw [Names, hauth, ha, Option.map_some, haT]
  cases hphase : s.phase with
  | agentRunning => exact .of_saved_unplanned hlaunches (hrunning hphase call next hstretch)
  | agentPending =>
    rcases hsave.pending (fun y hy => ⟨by simp [(hk y hy).1, hphase], (hk y hy).2⟩)
      (.inl ⟨⟨intent, rfl⟩, hphase⟩) rfl hstrand with hnext | hnext
    · exact .of_saved_unplanned hlaunches hnext
    · exact .of_saved_pending hlaunches hnext
  | _ =>
    refine .saved hlaunches hsave hvalid rfl hstrand (fun y hy => by simp [(hk y hy).1, hphase]) ?_
    intro x hx
    exact hleads x (by simp [hphase]) (by rwa [hstretch])

/-- An admission a stretch leads to is reached. -/
theorem Stretch.LeadsTo.run {stretch : Stretch} (h : stretch.LeadsTo s x) :
    ∀ e : Engine, e.state = s →
      ∃ e' o, Run Engine.step Within (e.perform stretch) e' ∧ e'.pc = .admitted o x := by
  induction h with
  | @admitted call s s' o x hsave =>
    rintro e rfl
    refine ⟨e.saved s' (.admitted o x), o, ?_, rfl⟩
    rw [show e.perform (.save call (.admitted o x)) = e.saved s' (.admitted o x) by
      simp only [Engine.perform, hsave]]
    exact .refl
  | @later call s s' next x hsave hnext hleads ih =>
    rintro e rfl
    obtain ⟨e', o, hrun, hpc⟩ := ih (e.saved s' next) rfl
    refine ⟨e', o, ?_, hpc⟩
    rw [show e.perform (.save call next) = e.saved s' next by simp only [Engine.perform, hsave]]
    refine .head (.inl rfl) ?_ hrun
    cases next <;> first | rfl | exact absurd hleads not_leadsTo_returned

/-- **The target of a retry.** In every state, for every ticket store and all answers, every
    execution that a call of `run_iteration` with a retry of the ticket admits or launches is the
    ticket's, and the ticket is the durable selection, if and only if the retry is not replaced. -/
theorem retried_iff (o : Observation) (s : RuntimeState) (ticketId : String) (forceRetry : Bool) :
    (∀ e, Called o ⟨some ticketId, forceRetry⟩ s e → e.RunsOnly ticketId)
      ↔ ¬ ∃ productHead controlHead r ticket remoteHead,
        Replaced o s ⟨some ticketId, forceRetry⟩ productHead controlHead r ticket remoteHead := by
  constructor
  · -- what replaces the retry is admitted by a run of the call
    rintro hcalls ⟨productHead, controlHead, r, ticket, remoteHead, hrep⟩
    have hid : ticket.id = r.ticketId := TicketStore.executable_id hrep.due.executable
    have hother : r.ticketId ≠ ticketId := fun heq => hrep.other (heq ▸ rfl)
    have hphase : s.phase = .idle ∨ s.phase = .mergePending := by
      have hplanned := hrep.due.planned
      simp only [runsFreely, Bool.and_eq_true, Bool.or_eq_true, beq_iff_eq] at hplanned
      exact hplanned.1.1.2
    have hleads := (leadsTo_enter_iff rfl (hid ▸ hother) hphase).mpr ⟨_, _, _, _, _, hrep, rfl⟩
    obtain ⟨e, o', hrun, hpc⟩ := hleads.run (({ state := s } : Engine).begun o _) rfl
    have honly := (hcalls e ⟨_, rfl, hrun⟩).execution _ (by rw [hpc]; rfl)
    exact hother (hid ▸ honly.1)
  · -- otherwise every step keeps the call on its course
    rintro hrep e ⟨e₁, hstep, hrun⟩
    cases hstep
    have hcourse : e.OnCourse ticketId := by
      refine hrun.invariant (Engine.OnCourse ticketId) ?_ fun e action e' h hwithin hstep =>
        h.step hwithin (Engine.step_moves hstep)
      refine .start rfl ?_
      intro x hphase hx
      by_contra hother
      obtain ⟨productHead, controlHead, r, ticket, remoteHead, hreplaced, -⟩ :=
        (leadsTo_enter_iff rfl hother hphase).mp hx
      exact hrep ⟨productHead, controlHead, r, ticket, remoteHead, hreplaced⟩
    exact hcourse.toRunsOnly

end Target

/-! ### An automatic retry in the way -/

/-- The failure of `t2` in the current generation. -/
def failedOnce : RuntimeState where
  localHead := some (sampleHead 'a')
  remoteHead := some (sampleHead 'a')
  changedPaths := some ""
  controlHead := some (sampleHead 'c')
  handledRemoteHead := some (sampleHead 'a')
  handledControlHead := some (sampleHead 'c')
  handledTodoFingerprint := some ("todo " ++ sampleHead 'c')
  failedExecutions := [("t2", {
    executionId := "e2"
    productHead := sampleHead 'a'
    remoteHead := sampleHead 'a'
    controlHead := sampleHead 'c'
    todoFingerprint := "todo " ++ sampleHead 'c'
    reason := "worker failed" })]

/-- The same with an automatic retry of `t1` that waits for its admission. -/
def retryWaiting : RuntimeState := { failedOnce with
  automaticRetry := some {
    status := .pendingAdmission
    reason := "automatic retry after zero-delta product drift"
    ticketId := "t1"
    staleExecutionId := "e1"
    originalBase := sampleHead 'b'
    workerCheckpoint := some (sampleHead 'b')
    productHead := sampleHead 'a'
    controlHead := sampleHead 'c'
    freshExecutionId := some "e3" } }

/-- The retry of `t2`, up to the launch. -/
def retrySecond : List EngineAction :=
  [.begin (calm fun n => if n = 0 then "e4" else "e5") { retryTicketId := some "t2" }, .advance]

/-- **The retry of another ticket.** `t2` is to be retried, the automatic retry of `t1` is due and
    `t1` is the next runnable ticket: the iteration that retries `t2` launches `t1`. -/
theorem retryOfOther_launched :
    ∃ e, exec sampleStep { state := retryWaiting } retrySecond = some e
      ∧ e.launches.map (fun l => (l.retry, l.ticketId)) = [(some "t2", "t1")] :=
  exists_exec_of_any (by decide +kernel)

end Devlegate
