import Devlegate.Engine

namespace Devlegate

/-!
# What the engine saves

Every safety property of the engine is about its saves, so they are listed once: `Saves` has one
case for each `_save_state` call of an iteration, with the tests the code has passed when it makes
the call.

* `Source`: where a stretch of code starts; `Source.Knows`: the locals it brings along.
* `Authorizes` / `Admits`: what the code has checked when it admits an execution.
* `Saves`: the saves, and `enter_saves` / `advance_saves`: there are no others.
-/

/-! ### Where a stretch starts -/

/-- The start of a stretch of code. -/
inductive Source where
  | iteration (intent : IterationIntent)
  | resume (r : Reconciliation)
  | stranded
  | point (pc : Pc)

/-- The locals of a point before the admission. -/
def Pc.synced : Pc → Option Synced
  | .merging _ y _ | .synchronized _ y | .discarded _ y | .retrySkipped _ y _
  | .retryMoved _ y _ _ | .unmarked _ y _ _ _ => some y
  | _ => none

/-- The execution of a point after the admission. -/
def Pc.execution : Pc → Option Execution
  | .admitted _ x | .launched _ x | .running _ x _ _ | .postWorker _ x _ | .checkpointing _ x _ _
  | .postCheckpoint _ x _ _ | .publishing _ x _ _ | .postPublication _ x _ _
  | .applying _ x _ => some x
  | _ => none

/-- The answers of the iteration at a point. -/
def Pc.observation : Pc → Option Observation
  | .ready => none
  | .strandedNoted o _ _ | .strandedNormalised o _ _ | .merging o _ _ | .synchronized o _
  | .discarded o _ | .retrySkipped o _ _ | .retryMoved o _ _ _ | .integrating o _
  | .unmarked o _ _ _ _ | .admitted o _ | .launched o _ | .running o _ _ _ | .postWorker o _ _
  | .checkpointing o _ _ _ | .postCheckpoint o _ _ _ | .publishing o _ _ _
  | .postPublication o _ _ _ | .applying o _ _ | .zeroDelta o _ | .recoveredCheckpoint o _ _ _
  | .recoveredPublication o _ _ _ | .recoveredLifecycle o _ | .resolving o _ _
  | .resumed o _ | .resumeFinalized o _ => some o

/-- The points after a save that records the progress of a running execution. -/
def Pc.isProgress : Pc → Bool
  | .strandedNoted _ _ _ | .running _ _ _ _ | .postWorker _ _ _ | .checkpointing _ _ _ _
  | .postCheckpoint _ _ _ _ | .publishing _ _ _ _ | .postPublication _ _ _ _ | .applying _ _ _
  | .recoveredCheckpoint _ _ _ _ | .recoveredPublication _ _ _ _
  | .recoveredLifecycle _ _ => true
  | _ => false

/-- The next save of a stretch of code, if it ends with one, satisfies `Q`. -/
def Stretch.Ensures (Q : SaveCall → Pc → Prop) : Stretch → Prop
  | .save call next => Q call next
  | .returned | .raised _ => True

@[simp] theorem Stretch.ensures_save {Q : SaveCall → Pc → Prop} {call : SaveCall} {next : Pc} :
    (Stretch.save call next).Ensures Q ↔ Q call next := Iff.rfl

@[simp] theorem Stretch.ensures_returned {Q : SaveCall → Pc → Prop} :
    Stretch.returned.Ensures Q ↔ True := Iff.rfl

@[simp] theorem Stretch.ensures_raised {Q : SaveCall → Pc → Prop} {message : String} :
    (Stretch.raised message).Ensures Q ↔ True := Iff.rfl

@[simp] theorem Pc.draining_synced (pc : Pc) : pc.draining.synced = pc.synced := by
  cases pc <;> rfl

@[simp] theorem Pc.draining_execution (pc : Pc) : pc.draining.execution = pc.execution := by
  cases pc <;> rfl

@[simp] theorem Pc.draining_observation (pc : Pc) :
    pc.draining.observation = pc.observation.map Observation.draining := by
  cases pc <;> rfl

section Saves

variable [Project]

/-- The authorization a stretch brings to a stranded execution. -/
def Source.authorization (s : RuntimeState) : Source → Option ExecutionAuthorization
  | .iteration intent => initialAuthorization intent s
  | .point (.strandedNoted _ authorization _) => authorization
  | _ => none

/-- The sources that may find a stranded execution. -/
def Source.mayStrand : Source → Bool
  | .iteration _ | .stranded | .point (.strandedNoted _ _ _) => true
  | _ => false

/-- `y` are the locals of the synchronisation in a stretch from the source. -/
def Source.Knows (o : Observation) (s : RuntimeState) : Source → Synced → Prop
  | .iteration intent, y =>
    y.authorization = initialAuthorization intent s ∧ o.controlHead = some y.controlHead
      ∧ y.pendingAgentExecution = decide (s.phase = .agentPending)
  | .point (.strandedNormalised _ authorization ticketId), y =>
    authorization = none ∧ o.stop .stranded = false
      ∧ y.authorization = some ⟨ticketId, .automaticResume⟩ ∧ o.controlHead = some y.controlHead
      ∧ y.pendingAgentExecution = decide (s.phase = .agentPending)
  | .point pc, y => pc.synced = some y
  | _, _ => False

/-- The stretch plans for the locals `y`. -/
structure Source.Plans (o : Observation) (s : RuntimeState) (src : Source) (y : Synced)
    (plan : ExecutionPlan) : Prop where
  knows : src.Knows o s y
  plan_eq : planIteration o y s = some plan
  point : ∀ pc, src = .point pc → (∃ y, pc = .synchronized o y) ∨ (∃ y, pc = .discarded o y)
    ∨ ∃ authorization ticketId, pc = .strandedNormalised o authorization ticketId

/-- The plan selects the ticket of the automatic retry `r` for a new execution. -/
structure ZeroDelta (s : RuntimeState) (plan : ExecutionPlan) (r : AutomaticRetry) : Prop where
  retry : s.automaticRetry = some r
  live : r.isLive = true
  ticketId : plan.ticketId = some r.ticketId
  action : plan.action = .runWorker
  bound : plan.bound = false

/-- The plan and the authorization that a stretch takes to the selected ticket. -/
inductive Authorizes (o : Observation) (s : RuntimeState) :
    Source → Synced → ExecutionPlan → Option ExecutionAuthorization → Prop where
  | plain {src : Source} {y : Synced} {plan : ExecutionPlan} (h : src.Plans o s y plan) :
      Authorizes o s src y plan y.authorization
  | zeroDelta {src : Source} {y : Synced} {plan : ExecutionPlan} (r : AutomaticRetry)
      (h : src.Plans o s y plan) (hr : ZeroDelta s plan r) :
      Authorizes o s src y plan (some ⟨r.ticketId, .zeroDeltaProductDrift⟩)
  | skipped (y : Synced) (plan : ExecutionPlan) :
      Authorizes o s (.point (.retrySkipped o y plan)) y plan y.authorization
  | moved (y : Synced) (plan : ExecutionPlan) (ticketId : String) :
      Authorizes o s (.point (.retryMoved o y plan ticketId)) y plan
        (some ⟨ticketId, .zeroDeltaProductDrift⟩)

/-- What `decideAdmission` has checked when it admits `x`. -/
structure Decides (o : Observation) (y : Synced) (plan : ExecutionPlan)
    (authorization : Option ExecutionAuthorization) (manualRetry : Option ManualRetry)
    (s : RuntimeState) (x : Execution) (retry : Option AutomaticRetry) : Prop where
  synced : x.synced = y
  interruption : interruptionAuthorization y plan authorization x.ticket manualRetry s
    = some x.authorization
  check : checkAuthorization y x.ticket s x.authorization = .ok ()
  unsuppressed : x.authorization = none → y.pendingAgentExecution = false →
    generationIsSame s y = true →
    (s.failedExecutions.get x.ticket.id).any (·.executionId != "") = false
      ∧ (s.resumeRequired.any (·.ticketId = x.ticket.id) = true
        ∨ s.executionTicketId ≠ some x.ticket.id)
  boundId : y.pendingAgentExecution = true → s.executionId = some x.executionId
  freshId : y.pendingAgentExecution = false →
    x.executionId = textOr (if x.authorization.any (·.kind = .zeroDeltaProductDrift)
      then s.automaticRetry.bind (·.freshExecutionId) else none) (o.newExecutionId 0)
  nonempty : x.executionId ≠ ""
  retry_eq : retry = if x.authorization.any (·.kind = .zeroDeltaProductDrift)
    then s.automaticRetry.map fun r =>
      { r with status := .admitted, freshExecutionId := some x.executionId }
    else s.automaticRetry

/-- The selected ticket, from a plan that an authorization may have changed. -/
structure Selects (o : Observation) (s : RuntimeState) (src : Source) (y : Synced)
    (plan : ExecutionPlan) (authorization : Option ExecutionAuthorization) (ticket : Ticket) :
    Prop where
  authorized : ∃ plan₀, Authorizes o s src y plan₀ authorization
    ∧ authorizedPlan y plan₀ authorization = .ok plan
  gate : o.stop .beforeAuthorization = false
  accepted : s.acceptedIntegration = none
  action : plan.action = .runWorker
  selected : selectTicket y plan s = .ok (some ticket)

/-- What the code has checked when it admits `x`. -/
inductive Admits (o : Observation) (s : RuntimeState) :
    Source → Execution → Option AutomaticRetry → Prop where
  | scheduled {src : Source} {y : Synced} {plan : ExecutionPlan}
      {authorization : Option ExecutionAuthorization} {x : Execution}
      {retry : Option AutomaticRetry}
      (hsel : Selects o s src y plan authorization x.ticket)
      (hmarker : markerMisfits s x.ticket.id = false)
      (hdec : Decides o y plan authorization s.manualRetryRequired s x retry) :
      Admits o s src x retry
  | unmarked {y : Synced} {plan : ExecutionPlan} {authorization : Option ExecutionAuthorization}
      {x : Execution} {retry : Option AutomaticRetry}
      (hdec : Decides o y plan authorization none s x retry) :
      Admits o s (.point (.unmarked o y plan authorization x.ticket)) x retry

/-! ### The saves of a running execution -/

/-- The saves that record the progress of a running execution. -/
inductive Progress : SaveCall → Prop where
  | workerRunning (identity : WorkerProcessIdentity) : Progress (Call.workerRunning identity)
  | interruption (kind : InterruptionKind) : Progress (Call.interruption kind)
  | postWorker : Progress Call.postWorker
  | stage (stage : Stage) (report : ExecutionReport) : Progress (Call.stage stage report)
  | bareStage (stage : Stage) : Progress (Call.bareStage stage)
  | lifecycle (report : ExecutionReport) (kind : Option InterruptionKind) :
      Progress (Call.lifecycle report kind)

/-- The report names the execution. -/
def Execution.Reports (x : Execution) (report : ExecutionReport) : Prop :=
  report.ticketId = x.ticket.id ∧ report.executionId = x.executionId

/-- The durable state names the execution of the report. -/
def RuntimeState.Reports (s : RuntimeState) (report : ExecutionReport) : Prop :=
  s.executionTicketId = some report.ticketId ∧ s.executionId = some report.executionId

/-- **The local knowledge of a point about the durable state**: the execution it works on is the
    recorded one, and so is that of its report. -/
def Pc.Agrees (s : RuntimeState) : Pc → Prop
  | .admitted _ x | .launched _ x | .running _ x _ _ | .postWorker _ x _ =>
    s.executionTicketId = some x.ticket.id ∧ s.executionId = some x.executionId
  | .checkpointing _ x _ report | .postCheckpoint _ x _ report | .publishing _ x _ report
  | .postPublication _ x _ report | .applying _ x report =>
    s.executionTicketId = some x.ticket.id ∧ s.executionId = some x.executionId
      ∧ x.Reports report
  | .zeroDelta _ report | .recoveredCheckpoint _ _ report _ | .recoveredPublication _ _ report _ =>
    s.Reports report
  | _ => True

/-- The local knowledge of a stretch when it starts. -/
def Source.Agrees (s : RuntimeState) : Source → Prop
  | .point pc => pc.Agrees s
  | _ => True

/-- The execution of a stretch when it starts. -/
def Source.execution : Source → Option Execution
  | .point pc => pc.execution
  | _ => none

/-! ### The saves -/

/-- The point after a save of progress. -/
structure Follows (o : Observation) (s : RuntimeState) (src : Source) (next : Pc) : Prop where
  progress : next.isProgress = true
  observation : next.observation = some o
  execution : ∀ x, next.execution = some x → src.execution = some x
  agrees : ∀ t : RuntimeState, t.executionTicketId = s.executionTicketId →
    t.executionId = s.executionId → src.Agrees s → next.Agrees t
  stranded : ∀ o' a kind, next = .strandedNoted o' a kind →
    src.mayStrand = true ∧ a = src.authorization s

/-- How a finalisation treats the automatic retry. -/
inductive Updates (o : Observation) (s : RuntimeState) (controlHead : String) :
    RetryUpdate → Prop where
  | keep (h : o.lifecycle = some controlHead) : Updates o s controlHead .keep
  | next (r : AutomaticRetry) (productHead : String) (hr : s.automaticRetry = some r)
      (hpending : r.status = .pending) :
      Updates o s controlHead (.next { r with
        status := .pendingAdmission
        freshExecutionId := some (textOr r.freshExecutionId (o.newExecutionId 1))
        productHead := productHead })
  | giveUp (r : AutomaticRetry) : Updates o s controlHead (.giveUp r)

/-- **The saves of the engine**, each with what the code has checked before it. -/
inductive Saves (o : Observation) (s : RuntimeState) : Source → SaveCall → Pc → Prop where
  | merge {src : Source} (y₀ y : Synced) (resumed : Bool) (hk : src.Knows o s y) :
      Saves o s src (Call.sync .mergePending y₀) (.merging o y resumed)
  | synced {src : Source} (y : Synced) (hk : src.Knows o s y) :
      Saves o s src (Call.sync (if y.pendingAgentExecution then .agentPending else .idle) y)
        (.synchronized o y)
  | merged (y : Synced) :
      Saves o s (.point (.merging o y false)) (Call.merged y) (.synchronized o y)
  | discarded {src : Source} (y : Synced) (r : AutomaticRetry) (hk : src.Knows o s y)
      (hr : s.automaticRetry = some r) :
      Saves o s src (Call.retryNotAdmitted r) (.discarded o y)
  | retrySkipped {src : Source} (y : Synced) (plan : ExecutionPlan) (r : AutomaticRetry)
      (hplan : src.Plans o s y plan) (hr : s.automaticRetry = some r) :
      Saves o s src (Call.retryNotAdmitted r) (.retrySkipped o y plan)
  | retryMoved {src : Source} (y : Synced) (plan : ExecutionPlan) (r : AutomaticRetry)
      (hplan : src.Plans o s y plan) (hr : ZeroDelta s plan r) :
      Saves o s src (Call.retryMoved r y.localHead) (.retryMoved o y plan r.ticketId)
  | handled {src : Source} (y : Synced) (plan : ExecutionPlan)
      (hplan : Authorizes o s src y plan none) (haction : plan.action = .none)
      (haccepted : s.acceptedIntegration = none) (hpending : y.pendingAgentExecution = false) :
      Saves o s src (Call.handled y.remoteHead y.controlHead) .ready
  | integrate {src : Source} (a : AcceptedIntegration) (remoteHead : String) :
      Saves o s src (Call.integrate a) (.integrating o remoteHead)
  | integrated {src : Source} (remoteHead controlHead worktreeHead : String)
      (hsrc : s.acceptedIntegration.isSome ∨ src = .point (.integrating o remoteHead))
      (hhead : o.integrated = some worktreeHead)
      (hcontrol : controlHead = worktreeHead ∨ o.controlHead = some controlHead) :
      Saves o s src (Call.integrated remoteHead controlHead worktreeHead) .ready
  | unmark {src : Source} (y : Synced) (plan : ExecutionPlan)
      (authorization : Option ExecutionAuthorization) (ticket : Ticket)
      (hsel : Selects o s src y plan authorization ticket)
      (hmarker : markerMisfits s ticket.id = true) :
      Saves o s src Call.unmark (.unmarked o y plan authorization ticket)
  | admission {src : Source} (x : Execution) (baseHead controlHead remoteHead : Option String)
      (retry : Option AutomaticRetry) (hx : Admits o s src x retry) :
      Saves o s src (Call.admission x baseHead controlHead remoteHead retry) (.admitted o x)
  | launch (x : Execution) (startHead baseHead : String)
      (hgate : o.stop .beforeLaunch = false) :
      Saves o s (.point (.admitted o x))
        (Call.launch x startHead baseHead s.controlHead s.executionRemoteHead) (.launched o x)
  | admissionClosed (x : Execution) :
      Saves o s (.point (.launched o x)) Call.admissionClosed .ready
  | progress {src : Source} {call : SaveCall} {next : Pc} (hcall : Progress call)
      (hnext : Follows o s src next) : Saves o s src call next
  | zeroDelta {src : Source} {next : Pc} (report : ExecutionReport) (retry : AutomaticRetry)
      (hreport : src.Agrees s → s.Reports report)
      (hretry : retry.status = .pending ∧ retry.freshExecutionId = none)
      (hnext : next = .zeroDelta o report ∨ ∃ caller, next = .recoveredLifecycle o caller) :
      Saves o s src (Call.zeroDelta report retry) next
  | reconcile {src : Source} (remoteHead : String) (r : Reconciliation) (hr : r.status = .pending)
      (hticket : src.Agrees s → s.executionTicketId = some r.ticketId) :
      Saves o s src (Call.reconcile remoteHead s.controlHead r) .ready
  | failure (x : Execution) (result : WorkerRunResult) (reason : String) :
      Saves o s (.point (.postWorker o x result)) (recordPostWorkerFailure x reason s) .ready
  | finalize {src : Source} {next : Pc} (report : ExecutionReport) (controlHead : String)
      (productHead productRemoteHead : Option String) (update : RetryUpdate)
      (hreport : src.Agrees s → s.Reports report) (hupdate : Updates o s controlHead update)
      (hnext : next = .ready ∨ update = .keep ∧ ∃ r, next = .resumeFinalized o r) :
      Saves o s src (finalizeExecutionLifecycle report controlHead productHead productRemoteHead
        update s) next
  | normalised {src : Source} (controlHead ticketId executionId : String)
      (kind : InterruptionKind) (failed : FailedExecution) (hsrc : src.mayStrand = true)
      (hticket : s.executionTicketId = some ticketId) (hid : s.executionId = some executionId)
      (hfailed : failed.executionId = executionId ∧ failed.generation = s.executionBaseHead
        ∧ failed.interrupted = true ∧ failed.interruptionKind = some (.worker kind)) :
      Saves o s src (Call.interrupted (s.remoteHead.getD "") controlHead
        (Project.todoFingerprint controlHead) s.executionControlHead s.executionId
        (s.failedExecutions.set ticketId failed))
        (.strandedNormalised o (src.authorization s) ticketId)
  | recovered {src : Source} (remoteHead : Option String) (hphase : s.phase = .agentPending) :
      Saves o s src (Call.recovered remoteHead) .ready
  | drop {src : Source} : Saves o s src Call.drop .ready
  | reconciliation {src : Source} (r : Reconciliation) (ticket : Ticket)
      (hr : src = .resume r ∨ s.reconciliation = some r) (hticket : ticket.id = r.ticketId)
      (hunresolved : r.status ≠ .resolved) :
      Saves o s src (Call.reconciliation { r with
          status := .resolving, resolution := some .resume })
        (.resolving o { r with status := .resolving, resolution := some .resume } ticket)
  | resume (r : Reconciliation) (ticket : Ticket) (report : ExecutionReport)
      (hreport : r.executionReport = some report) :
      Saves o s (.point (.resolving o r ticket)) (Call.resume r ticket report) (.resumed o r)
  | resumeResolved (r : Reconciliation) :
      Saves o s (.point (.resumeFinalized o r)) (Call.resumeResolved r) .ready
  | resumeRequired (r : Reconciliation) (ticket : Ticket) :
      Saves o s (.point (.resolving o r ticket)) (Call.resumeRequired r ticket.id) .ready

/-! ### Nothing else is saved -/

variable {o : Observation} {s : RuntimeState} {src : Source} {y : Synced} {plan : ExecutionPlan}

omit [Project] in
theorem RuntimeState.reports_of_matches {report : ExecutionReport}
    (h : reportMatchesExecutionBinding report s = true) : s.Reports report := by
  simp only [reportMatchesExecutionBinding, Bool.and_eq_true, beq_iff_eq] at h
  exact ⟨h.1.1.1.1.2, h.1.1.1.1.1.2⟩

omit [Project] in
theorem reports_of_recoverLifecycleReport {report : ExecutionReport}
    (h : recoverLifecycleReport o s = some report) : s.Reports report := by
  have hmatches : reportMatchesExecutionBinding report s = true := by
    simp only [recoverLifecycleReport, bind, Option.bind_eq_some_iff, guard] at h
    grind
  exact RuntimeState.reports_of_matches hmatches

theorem decideAdmission_decides {authorization : Option ExecutionAuthorization} {ticket : Ticket}
    {manualRetry : Option ManualRetry} {Q : SaveCall → Pc → Prop}
    (hQ : ∀ x baseHead controlHead remoteHead retry, x.ticket = ticket →
      Decides o y plan authorization manualRetry s x retry →
      Q (Call.admission x baseHead controlHead remoteHead retry) (.admitted o x)) :
    (decideAdmission o y plan authorization ticket manualRetry s).Ensures Q := by
  unfold decideAdmission
  split
  · trivial
  rename_i final hfinal
  split
  · trivial
  rename_i hcheck
  -- the two answers "retry suppressed" and "already handled"
  dsimp only
  split
  · trivial
  rename_i hsuppressed
  split
  · trivial
  rename_i hhandled
  split
  · trivial
  rename_i remoteHead hremote
  split
  · trivial
  rename_i executionId hid
  rw [Option.filter_eq_some_iff] at hid
  obtain ⟨hid, hne⟩ := hid
  refine hQ _ _ _ _ _ rfl ⟨rfl, hfinal, hcheck, ?_, ?_, ?_, ?_, rfl⟩
  · intro hnone hpending hsame
    subst hnone
    simp only [hpending, hsame, Option.isNone_none, Bool.not_false, Bool.true_and,
      Bool.and_true] at hsuppressed hhandled
    refine ⟨by simpa using hsuppressed, ?_⟩
    by_cases hresume : s.resumeRequired.any (·.ticketId = ticket.id) = true
    · exact .inl hresume
    · exact .inr (by simpa [hresume] using hhandled)
  · intro hpending
    simpa [hpending] using hid
  · intro hpending
    simpa [hpending] using hid.symm
  · simpa using hne

/-- An authorization turns a free worker plan into one for its ticket. -/
theorem authorizedPlan_some {plan₀ : ExecutionPlan} {a : ExecutionAuthorization}
    (h : authorizedPlan y plan₀ (some a) = .ok plan) :
    plan₀.action = .runWorker ∧ plan₀.bound = false ∧ plan.action = .runWorker
      ∧ plan.bound = false ∧ plan.ticketId = some a.ticketId := by
  unfold authorizedPlan at h
  dsimp only at h
  split at h
  · cases h
  rename_i hfree
  split at h
  · cases h
  rename_i ticket hexec
  cases h
  rw [not_or, not_not, Bool.not_eq_true] at hfree
  exact ⟨hfree.1, hfree.2, rfl, rfl, congrArg some (TicketStore.executable_id hexec)⟩

/-- The selected ticket is the plan's. -/
theorem selectTicket_some {ticket : Ticket} (h : selectTicket y plan s = .ok (some ticket)) :
    plan.action ≠ .none ∧ plan.ticketId = some ticket.id := by
  unfold selectTicket at h
  split at h
  · cases h
  rename_i haction
  split at h
  · cases h
  rename_i found hfound
  obtain ⟨id, hid, hfound⟩ := Option.bind_eq_some_iff.mp hfound
  have hfoundId : plan.ticketId = some found.id := by
    rw [hid, TicketStore.byId_id hfound]
  split at h
  · split at h
    · cases h
    · cases h
      exact ⟨haction, hfoundId⟩
  · cases h
    exact ⟨haction, hfoundId⟩

theorem scheduleTicket_saves {authorization : Option ExecutionAuthorization}
    {plan₀ : ExecutionPlan} (hauth : Authorizes o s src y plan₀ authorization)
    (hplan : authorizedPlan y plan₀ authorization = .ok plan)
    (hgate : o.stop .beforeAuthorization = false) (haccepted : s.acceptedIntegration = none)
    (haction : plan.action ≠ .blocked ∧ plan.action ≠ .integrate) :
    (scheduleTicket o y plan authorization s).Ensures (Saves o s src) := by
  unfold scheduleTicket
  split
  · trivial
  · rename_i hselect
    split
    · trivial
    rename_i hpending
    have hnone : plan.action = .none := by
      unfold selectTicket at hselect
      grind
    -- an authorization always ends in a worker plan
    have hplain : authorization = none ∧ plan₀ = plan := by
      cases authorization with
      | none => exact ⟨rfl, by simpa [authorizedPlan] using hplan⟩
      | some a => simp [(authorizedPlan_some hplan).2.2.1] at hnone
    obtain ⟨rfl, rfl⟩ := hplain
    exact .handled y plan₀ hauth hnone haccepted (by simpa using hpending)
  · rename_i ticket hselect
    have hworker : plan.action = .runWorker := by
      have hnone := (selectTicket_some hselect).1
      cases h : plan.action <;> simp_all
    have hsel : Selects o s src y plan authorization ticket :=
      ⟨⟨plan₀, hauth, hplan⟩, hgate, haccepted, hworker, hselect⟩
    split
    · rename_i hmarker
      exact .unmark y plan authorization ticket hsel hmarker
    · rename_i hmarker
      apply decideAdmission_decides
      intro x baseHead controlHead remoteHead retry hticket hdec
      subst hticket
      exact .admission x _ _ _ retry (.scheduled hsel (by simpa using hmarker) hdec)

theorem authorize_saves {authorization : Option ExecutionAuthorization}
    (hauth : Authorizes o s src y plan authorization) :
    (authorize o y plan authorization s).Ensures (Saves o s src) := by
  unfold authorize
  split
  · trivial
  rename_i hgate
  split
  · trivial
  rename_i plan' hplan
  split
  · trivial
  rename_i hblocked
  split
  · rename_i accepted haccepted
    split
    · trivial
    split
    · trivial
    split
    · trivial
    · rename_i controlHead hhead
      exact .integrated _ _ _ (.inl (by simp [haccepted])) hhead (.inl rfl)
  · rename_i haccepted
    split
    · split
      · exact .integrate _ _
      · trivial
    · rename_i hintegrate
      exact scheduleTicket_saves hauth hplan (by simpa using hgate) haccepted
        ⟨hblocked, hintegrate⟩

theorem schedule_saves (hk : src.Knows o s y)
    (hpoint : ∀ pc, src = .point pc → (∃ y, pc = .synchronized o y) ∨ (∃ y, pc = .discarded o y)
      ∨ ∃ authorization ticketId, pc = .strandedNormalised o authorization ticketId) :
    (schedule o y s).Ensures (Saves o s src) := by
  unfold schedule
  split
  · trivial
  rename_i plan hplan
  have hplans : src.Plans o s y plan := ⟨hk, hplan, hpoint⟩
  unfold automaticZeroDeltaAuthorization
  split
  · exact authorize_saves (.plain hplans)
  rename_i retry hretry
  rw [Option.filter_eq_some_iff] at hretry
  obtain ⟨hretry, hlive⟩ := hretry
  split
  · exact .retrySkipped y plan retry hplans hretry
  split
  · exact authorize_saves (.plain hplans)
  rename_i hticket
  split
  · exact authorize_saves (.plain hplans)
  rename_i haction
  have hzero : ZeroDelta s plan retry :=
    ⟨hretry, hlive, by simpa using hticket, by grind, by grind⟩
  split
  · trivial
  split
  · trivial
  split
  · exact .retryMoved y plan retry hplans hzero
  · exact authorize_saves (.zeroDelta retry hplans hzero)

theorem afterSynchronization_saves (hk : src.Knows o s y)
    (hpoint : ∀ pc, src = .point pc → (∃ y, pc = .synchronized o y) ∨ (∃ y, pc = .discarded o y)
      ∨ ∃ authorization ticketId, pc = .strandedNormalised o authorization ticketId) :
    (afterSynchronization o y s).Ensures (Saves o s src) := by
  unfold afterSynchronization
  split
  · trivial
  split
  · trivial
  split
  · rename_i retry hretry
    split
    · exact .discarded y retry hk (Option.filter_eq_some_iff.mp hretry).1
    · exact schedule_saves hk hpoint
  · exact schedule_saves hk hpoint

/-- What the synchronisation of a state knows, whatever its outcome. -/
theorem synchronize_saves {authorization : Option ExecutionAuthorization}
    (hk : ∀ y, y.authorization = authorization → o.controlHead = some y.controlHead →
      y.pendingAgentExecution = decide (s.phase = .agentPending) → src.Knows o s y)
    (hpoint : ∀ pc, src = .point pc → (∃ y, pc = .synchronized o y) ∨ (∃ y, pc = .discarded o y)
      ∨ ∃ authorization ticketId, pc = .strandedNormalised o authorization ticketId) :
    (synchronize o authorization s).Ensures (Saves o s src) := by
  unfold synchronize
  split
  · trivial
  split
  · trivial
  split
  · trivial
  rename_i controlHead hcontrol
  split
  · trivial
  split
  · trivial
  rename_i remoteHead hremote
  split
  · unfold synchronizePending
    split
    · trivial
    dsimp only
    split
    · trivial
    split
    · split
      · trivial
      · apply Saves.merge
        exact hk _ rfl hcontrol rfl
    · exact .synced ⟨authorization, _, _, _, controlHead, _⟩ (hk _ rfl hcontrol rfl)
  · rename_i hphase
    have hfree : false = decide (s.phase = .agentPending) := by grind
    unfold synchronizeIdle
    split
    · exact afterSynchronization_saves (hk _ rfl hcontrol hfree) hpoint
    split
    · split
      · trivial
      · exact .merge _ _ _ (hk _ rfl hcontrol hfree)
    split
    · exact afterSynchronization_saves (hk _ rfl hcontrol hfree) hpoint
    · trivial

/-! ### The end of an execution -/

theorem resolveZeroDeltaRetry_saves {report : ExecutionReport} {product : ProductCheckout}
    (hreport : src.Agrees s → s.Reports report) :
    (resolveZeroDeltaRetry o report product s).Ensures (Saves o s src) := by
  unfold resolveZeroDeltaRetry
  split
  · trivial
  rename_i retry hretry
  rw [Option.filter_eq_some_iff, decide_eq_true_eq] at hretry
  split
  · trivial
  split
  · trivial
  split
  · trivial
  split
  · trivial
  dsimp only
  split
  · exact .finalize _ _ _ _ _ hreport (.next retry _ hretry.1 hretry.2) (.inl rfl)
  · exact .finalize _ _ _ _ _ hreport (.giveUp _) (.inl rfl)

theorem completeExecutionLifecycle_saves {report : ExecutionReport}
    (hreport : src.Agrees s → s.Reports report) :
    (completeExecutionLifecycle o report s).Ensures (Saves o s src) := by
  unfold completeExecutionLifecycle
  split
  · exact resolveZeroDeltaRetry_saves hreport
  split
  · exact .zeroDelta _ _ hreport ⟨rfl, rfl⟩ (.inl rfl)
  split
  · trivial
  · rename_i controlHead hlifecycle
    exact .finalize _ _ _ _ _ hreport (.keep hlifecycle) (.inl rfl)

theorem finishRecovery_saves {caller : RecoveryCaller} :
    (finishRecovery o caller s).Ensures (Saves o s src) := by
  unfold finishRecovery
  split
  · trivial
  rename_i report hrecovered
  have hreport : src.Agrees s → s.Reports report := fun _ =>
    reports_of_recoverLifecycleReport hrecovered
  split
  · exact completeExecutionLifecycle_saves hreport
  split
  · trivial
  · rename_i controlHead hlifecycle
    exact .finalize _ _ _ _ _ hreport (.keep hlifecycle) (.inr ⟨rfl, _, rfl⟩)

/-! ### Recovery -/

omit [Project] in
/-- A recovery save that keeps the execution and its report. -/
theorem Follows.of_recovery {next : Pc} (hobs : next.observation = some o)
    (hexec : next.execution = none) (hprogress : next.isProgress = true)
    (hnoted : ∀ o' a kind, next ≠ .strandedNoted o' a kind)
    (hagrees : ∀ t : RuntimeState, t.executionTicketId = s.executionTicketId →
      t.executionId = s.executionId → src.Agrees s → next.Agrees t) : Follows o s src next where
  progress := hprogress
  observation := hobs
  execution x hx := by simp [hexec] at hx
  agrees := hagrees
  stranded o' a kind h := absurd h (hnoted o' a kind)

omit [Project] in
theorem RuntimeState.Reports.congr {t : RuntimeState} {report : ExecutionReport}
    (h : s.Reports report) (hticket : t.executionTicketId = s.executionTicketId)
    (hid : t.executionId = s.executionId) : t.Reports report :=
  ⟨hticket ▸ h.1, hid ▸ h.2⟩

theorem recoverPostPublication_saves {caller : RecoveryCaller} {report : ExecutionReport}
    {workspace : WorkspaceView} :
    (recoverPostPublication o caller report workspace).Ensures (Saves o s src) := by
  unfold recoverPostPublication
  split
  · trivial
  split
  · trivial
  · exact .progress (.stage _ _) (.of_recovery rfl rfl rfl (by simp) fun _ _ _ _ => trivial)

theorem recoverPublication_saves {caller : RecoveryCaller} {published : Bool}
    {report : ExecutionReport} {workspace : WorkspaceView}
    (hreport : src.Agrees s → s.Reports report) :
    (recoverPublication o caller published report workspace s).Ensures (Saves o s src) := by
  unfold recoverPublication
  dsimp only
  split
  · trivial
  split
  · trivial
  split
  · exact .zeroDelta _ _ hreport ⟨rfl, rfl⟩ (.inr ⟨_, rfl⟩)
  split
  · split
    · trivial
    · exact .reconcile _ _ rfl fun h => (hreport h).1
  split
  · exact recoverPostPublication_saves
  split
  · trivial
  split
  · trivial
  split
  · trivial
  · exact .progress (.stage _ _) (.of_recovery rfl rfl rfl (by simp) fun t ht hi ha =>
      (hreport ha).congr ht hi)

theorem recordCheckpoint_saves {caller : RecoveryCaller} {report : ExecutionReport} {head : String}
    (hreport : s.Reports report) :
    (recordCheckpoint o caller report head).Ensures (Saves o s src) := by
  unfold recordCheckpoint
  split
  · trivial
  split
  · trivial
  · exact .progress (.stage _ _) (.of_recovery rfl rfl rfl (by simp) fun t ht hi _ =>
      hreport.congr ht hi)

theorem recoverCheckpointPublication_saves {caller : RecoveryCaller} :
    (recoverCheckpointPublication o caller s).Ensures (Saves o s src) := by
  unfold recoverCheckpointPublication
  split
  · rename_i report workspace startHead _ _ _
    split
    · trivial
    rename_i hmatches
    have hreport : s.Reports report := by
      apply RuntimeState.reports_of_matches
      by_contra hne
      simp [hne] at hmatches
    split
    · split
      · exact .zeroDelta _ _ (fun _ => hreport) ⟨rfl, rfl⟩ (.inr ⟨_, rfl⟩)
      split
      · trivial
      split
      · split
        · trivial
        · exact recordCheckpoint_saves hreport
      split
      · trivial
      · exact recordCheckpoint_saves hreport
    · exact recoverPublication_saves fun _ => hreport
  · trivial

theorem normalizeStrandedExecution_saves {kind : InterruptionKind}
    (hsrc : src.mayStrand = true) :
    (normalizeStrandedExecution o (src.authorization s) kind s).Ensures (Saves o s src) := by
  unfold normalizeStrandedExecution
  split
  · rename_i controlHead ticketId executionId _ hticket hid
    split
    · trivial
    split
    · trivial
    split
    · trivial
    · exact .normalised controlHead ticketId executionId kind _ hsrc hticket hid
        ⟨rfl, rfl, rfl, rfl⟩
  · trivial

theorem reconcileStrandedExecution_saves {kind : InterruptionKind}
    (hsrc : src.mayStrand = true) :
    (reconcileStrandedExecution o (src.authorization s) kind s).Ensures (Saves o s src) := by
  unfold reconcileStrandedExecution
  split
  · split
    · trivial
    · trivial
    · exact normalizeStrandedExecution_saves hsrc
  · exact normalizeStrandedExecution_saves hsrc
  · trivial

theorem reconcileResume_saves {r : Reconciliation} (hr : src = .resume r ∨ s.reconciliation = some r) :
    (reconcileResume o r).Ensures (Saves o s src) := by
  unfold reconcileResume
  split
  · trivial
  rename_i hstatus
  split
  · trivial
  rename_i ticket hticket
  split
  · trivial
  · have hid : ticket.id = r.ticketId := by
      have := List.find?_some hticket
      simpa using this
    exact .reconciliation r ticket hr hid fun h => hstatus (.inl h)

/-- A stranded execution whose interruption is recorded first. -/
theorem interruption_saves (hsrc : src.mayStrand = true) :
    Saves o s src (Call.interruption .processLoss)
      (.strandedNoted o (src.authorization s) .processLoss) := by
  refine .progress (.interruption _) ⟨rfl, rfl, ?_, fun _ _ _ _ => trivial, ?_⟩
  · intro x hx
    simp [Pc.execution] at hx
  · intro o' a kind h
    simp only [Pc.strandedNoted.injEq] at h
    exact ⟨hsrc, h.2.1.symm⟩

theorem recoverRunning_saves (hsrc : src.mayStrand = true) :
    (recoverRunning o (src.authorization s) s).Ensures (Saves o s src) := by
  unfold recoverRunning
  split
  · trivial
  split
  · exact recoverCheckpointPublication_saves
  split
  · split
    · split
      · exact .drop
      · trivial
    · exact finishRecovery_saves
  · split
    · exact interruption_saves hsrc
    · exact reconcileStrandedExecution_saves hsrc

/-- **The first save of an iteration** is one of `Saves`. -/
theorem enter_saves {intent : IterationIntent} :
    (enter o intent s).Ensures (Saves o s (.iteration intent)) := by
  have hsync : (synchronize o (initialAuthorization intent s) s).Ensures
      (Saves o s (.iteration intent)) :=
    synchronize_saves (fun y ha hc hp => ⟨ha, hc, hp⟩) (by simp)
  unfold enter
  dsimp only
  split
  · trivial
  split
  · rename_i hphase
    split
    · split
      · trivial
      split
      · trivial
      · exact .recovered _ hphase
    split
    · trivial
    · exact hsync
  · split
    · trivial
    · exact hsync
  · split
    · trivial
    split
    · rename_i a haccepted
      unfold recoverAcceptedIntegration
      split
      · trivial
      split
      · rename_i hcontrol _ hhead
        exact .integrated _ _ _ (.inl (by simp [haccepted])) hhead (.inr hcontrol)
      · trivial
    · rename_i r _ hr
      exact reconcileResume_saves (.inr (Option.filter_eq_some_iff.mp hr).1)
    · exact hsync
  · split
    · trivial
    · exact @recoverRunning_saves _ o s (.iteration intent) rfl

/-! ### The worker and its result -/

omit [Project] in
/-- A save of progress in the worker's own iteration. -/
theorem Follows.of_worker {pc next : Pc} {x : Execution} (hpc : pc.execution = some x)
    (hnext : next.execution = some x) (hobs : next.observation = some o)
    (hprogress : next.isProgress = true)
    (hagrees : ∀ t : RuntimeState, t.executionTicketId = s.executionTicketId →
      t.executionId = s.executionId → pc.Agrees s → next.Agrees t) :
    Follows o s (.point pc) next where
  progress := hprogress
  observation := hobs
  execution x' hx := by
    rw [hnext] at hx
    exact hx ▸ hpc
  agrees := hagrees
  stranded o' a kind h := by
    subst h
    simp [Pc.execution] at hnext

theorem retireWorker_saves {pc : Pc} {x : Execution} {result : WorkerRunResult}
    (hpc : pc.execution = some x)
    (hagrees : pc.Agrees s → s.executionTicketId = some x.ticket.id
      ∧ s.executionId = some x.executionId) :
    (retireWorker o x result).Ensures (Saves o s (.point pc)) := by
  unfold retireWorker
  split
  · refine .progress .postWorker (.of_worker hpc rfl rfl rfl ?_)
    intro t ht hi ha
    exact ⟨ht ▸ (hagrees ha).1, hi ▸ (hagrees ha).2⟩
  · trivial

theorem publishCheckpoint_saves {x : Execution} {result : WorkerRunResult}
    {report : ExecutionReport} :
    (publishCheckpoint o x result report s).Ensures
      (Saves o s (.point (.postCheckpoint o x result report))) := by
  have hreport : (Source.point (.postCheckpoint o x result report)).Agrees s →
      s.Reports report := by
    rintro ⟨hticket, hid, hx⟩
    exact ⟨hx.1 ▸ hticket, hx.2 ▸ hid⟩
  unfold publishCheckpoint
  dsimp only
  split
  · trivial
  split
  · trivial
  split
  · trivial
  split
  · split
    · exact .zeroDelta _ _ hreport ⟨rfl, rfl⟩ (.inl rfl)
    split
    · trivial
    · exact .reconcile _ _ rfl fun h => (hreport h).1
  · refine .progress (.bareStage _) (.of_worker rfl rfl rfl rfl ?_)
    rintro t ht hi ⟨hticket, hid, hx⟩
    exact ⟨ht ▸ hticket, hi ▸ hid, hx⟩

end Saves

/-- A save of progress keeps everything else. -/
theorem Progress.payload {call : SaveCall} (h : Progress call) (s : RuntimeState) :
    ∃ stage identity kind report, call.payload s = { s with
      phase := .agentRunning, executionStage := stage, workerIdentity := identity
      executionInterruptionKind := kind, pendingExecutionReport := report } := by
  cases h <;> exact ⟨_, _, _, _, rfl⟩

@[simp] theorem Pc.draining_agrees {pc : Pc} {s : RuntimeState} :
    pc.draining.Agrees s ↔ pc.Agrees s := by
  cases pc <;> exact Iff.rfl

/-- The local knowledge of a point is about the identity of the execution only. -/
theorem Pc.Agrees.congr {pc : Pc} {s t : RuntimeState} (h : pc.Agrees s)
    (hticket : t.executionTicketId = s.executionTicketId) (hid : t.executionId = s.executionId) :
    pc.Agrees t := by
  cases pc <;> simp_all [Pc.Agrees, RuntimeState.Reports]

section SaveEffects

variable [Project] {o : Observation} {s : RuntimeState} {src : Source}

/-- The end of an execution leads back to idle and updates the automatic retry. -/
theorem finalize_phase_retry (report : ExecutionReport) (controlHead : String)
    (productHead productRemoteHead : Option String) (update : RetryUpdate) :
    ((finalizeExecutionLifecycle report controlHead productHead productRemoteHead update s).payload
        s).phase = .idle
      ∧ ((finalizeExecutionLifecycle report controlHead productHead productRemoteHead update
        s).payload s).automaticRetry = update.current report s.automaticRetry := by
  cases update <;> exact ⟨rfl, rfl⟩

/-- The failures after the end of an execution: its own is recorded or forgotten. -/
theorem finalize_failed (report : ExecutionReport) (controlHead : String)
    (productHead productRemoteHead : Option String) (update : RetryUpdate) :
    ((finalizeExecutionLifecycle report controlHead productHead productRemoteHead update s).payload
        s).failedExecutions = s.failedExecutions
      ∨ ((finalizeExecutionLifecycle report controlHead productHead productRemoteHead update
        s).payload s).failedExecutions = s.failedExecutions.erase report.ticketId
      ∨ ∃ failed, failed.executionId = report.executionId
        ∧ ((finalizeExecutionLifecycle report controlHead productHead productRemoteHead update
          s).payload s).failedExecutions = s.failedExecutions.set report.ticketId failed := by
  cases update with
  | next r => exact .inl rfl
  | giveUp r => exact .inl rfl
  | keep =>
    by_cases hfailed : report.result.conclusion = .failed
    · refine .inr (.inr ?_)
      have happly : ∀ p q, failedAfter report controlHead p q true s
          = s.failedExecutions.set report.ticketId _ := fun p q => if_pos (by simp [hfailed])
      exact ⟨_, rfl, happly _ _⟩
    · refine .inr (.inl ?_)
      have happly : ∀ p q, failedAfter report controlHead p q true s
          = s.failedExecutions.erase report.ticketId := by
        intro p q
        simp [failedAfter, hfailed]
      exact happly _ _

/-- The end of an execution clears the record of a forced stop of it. -/
theorem finalize_marker (report : ExecutionReport) (controlHead : String)
    (productHead productRemoteHead : Option String) (update : RetryUpdate) :
    ((finalizeExecutionLifecycle report controlHead productHead productRemoteHead update s).payload
        s).manualRetryRequired
      = if s.manualRetryRequired.any (·.executionId = report.executionId) then none
        else s.manualRetryRequired := by
  cases update <;> rfl

/-- An execution is admitted, or goes on with the ticket that was selected for it. -/
theorem Saves.execution {call : SaveCall} {next : Pc} {x : Execution}
    (h : Saves o s src call next) (hx : next.execution = some x) :
    (call.payload s).selectedTicketId = some x.ticket.id
      ∨ src.execution = some x ∧ (call.payload s).selectedTicketId = s.selectedTicketId := by
  cases h with
  | admission x' baseHead controlHead remoteHead retry hadmits =>
    cases hx
    exact .inl rfl
  | launch x' startHead baseHead hgate =>
    cases hx
    exact .inr ⟨rfl, rfl⟩
  | progress hcall hnext =>
    obtain ⟨stage, identity, kind, report, hpayload⟩ := hcall.payload s
    exact .inr ⟨hnext.execution x hx, by rw [hpayload]⟩
  | zeroDelta report retry hreport hretry hnext =>
    obtain rfl | ⟨caller, rfl⟩ := hnext <;> cases hx
  | finalize report controlHead productHead productRemoteHead update hreport hupdate hnext =>
    obtain rfl | ⟨-, r, rfl⟩ := hnext <;> cases hx
  | _ => cases hx

/-- A stretch of code keeps its answers. -/
theorem Saves.observation {call : SaveCall} {next : Pc} {o' : Observation}
    (h : Saves o s src call next) (ho : next.observation = some o') : o' = o := by
  cases h with
  | progress hcall hnext => exact Option.some.inj (ho.symm.trans hnext.observation)
  | zeroDelta report retry hreport hretry hnext =>
    obtain rfl | ⟨caller, rfl⟩ := hnext <;> cases ho <;> rfl
  | finalize report controlHead productHead productRemoteHead update hreport hupdate hnext =>
    obtain rfl | ⟨-, r, rfl⟩ := hnext <;> cases ho
    rfl
  | _ => first | (cases ho; rfl) | cases ho

/-- A launch follows an admission. -/
theorem Saves.launched {call : SaveCall} {o' : Observation} {x : Execution}
    (h : Saves o s src call (.launched o' x)) : src = .point (.admitted o x) := by
  generalize hnext : Pc.launched o' x = next at h
  cases h with
  | launch x' startHead baseHead hgate =>
    cases hnext
    rfl
  | progress hcall hnext' =>
    subst hnext
    have := hnext'.progress
    cases this
  | zeroDelta report retry hreport hretry hnext' =>
    subst hnext
    obtain h | ⟨caller, h⟩ := hnext' <;> cases h
  | finalize report controlHead productHead productRemoteHead update hreport hupdate hnext' =>
    subst hnext
    obtain h | ⟨-, r, h⟩ := hnext' <;> cases h
  | _ => cases hnext

end SaveEffects

section Advance

variable [Project] [Sha256] {o : Observation} {s : RuntimeState}

theorem reportWorker_saves {x : Execution} {result : WorkerRunResult} :
    (reportWorker o x result s).Ensures (Saves o s (.point (.postWorker o x result))) := by
  unfold reportWorker
  split
  · exact .failure _ _ _
  split
  · trivial
  · rename_i report hbuild
    refine .progress (.stage _ _) (.of_worker rfl rfl rfl rfl ?_)
    rintro t ht hi ⟨hticket, hid⟩
    exact ⟨ht ▸ hticket, hi ▸ hid, buildExecutionReport_identity hbuild⟩

/-- **The next save of an iteration** is one of `Saves`. -/
theorem advance_saves {pc : Pc} (ho : pc.observation = some o) :
    (advance pc s).Ensures (Saves o s (.point pc)) := by
  -- one case for each point at which an iteration can be left, in the order of the source
  cases pc with
  | ready => simp [Pc.observation] at ho
  | strandedNoted o' authorization kind =>
    obtain rfl : o' = o := by simpa [Pc.observation] using ho
    exact @reconcileStrandedExecution_saves _ o' s (.point (.strandedNoted o' authorization kind)) _
      rfl
  | strandedNormalised o' authorization ticketId =>
    obtain rfl : o' = o := by simpa [Pc.observation] using ho
    unfold advance
    dsimp only
    split
    · trivial
    rename_i hstop
    split
    · trivial
    rename_i hauth
    apply synchronize_saves
    · intro y ha hc hp
      exact ⟨by simpa using hauth, by simpa using hstop, ha, hc, hp⟩
    · intro pc hpc
      cases hpc
      exact .inr (.inr ⟨_, _, rfl⟩)
  | merging o' y resumed =>
    obtain rfl : o' = o := by simpa [Pc.observation] using ho
    unfold advance
    dsimp only
    split
    · trivial
    split
    · trivial
    split
    · exact .synced y rfl
    · rename_i hresumed
      obtain rfl : resumed = false := by simpa using hresumed
      exact .merged y
  | synchronized o' y =>
    obtain rfl : o' = o := by simpa [Pc.observation] using ho
    have hk : Source.Knows o' s (.point (.synchronized o' y)) y := rfl
    apply afterSynchronization_saves hk
    rintro pc ⟨⟩
    exact .inl ⟨_, rfl⟩
  | discarded o' y =>
    obtain rfl : o' = o := by simpa [Pc.observation] using ho
    have hk : Source.Knows o' s (.point (.discarded o' y)) y := rfl
    apply schedule_saves hk
    rintro pc ⟨⟩
    exact .inr (.inl ⟨_, rfl⟩)
  | retrySkipped o' y plan =>
    obtain rfl : o' = o := by simpa [Pc.observation] using ho
    exact authorize_saves (.skipped y plan)
  | retryMoved o' y plan ticketId =>
    obtain rfl : o' = o := by simpa [Pc.observation] using ho
    exact authorize_saves (.moved y plan ticketId)
  | integrating o' remoteHead =>
    obtain rfl : o' = o := by simpa [Pc.observation] using ho
    unfold advance
    dsimp only
    split
    · trivial
    · rename_i controlHead hhead
      exact .integrated _ _ _ (.inr rfl) hhead (.inl rfl)
  | unmarked o' y plan authorization ticket =>
    obtain rfl : o' = o := by simpa [Pc.observation] using ho
    apply decideAdmission_decides
    intro x baseHead controlHead remoteHead retry hticket hdec
    subst hticket
    exact .admission x _ _ _ retry (.unmarked hdec)
  -- from here on the worker and what follows it: the saves are those of its execution
  | admitted o' x =>
    obtain rfl : o' = o := by simpa [Pc.observation] using ho
    show (launchWorker _ _ _).Ensures _
    unfold launchWorker
    split
    · trivial
    split
    · trivial
    split
    · split
      · trivial
      · rename_i hgate
        exact .launch x _ _ (by simpa using hgate)
    · trivial
  | launched o' x =>
    obtain rfl : o' = o := by simpa [Pc.observation] using ho
    unfold advance
    dsimp only
    split
    · exact .admissionClosed x
    · trivial
    · refine .progress (.workerRunning _) (.of_worker rfl rfl rfl rfl ?_)
      rintro t ht hi ⟨hticket, hid⟩
      exact ⟨ht ▸ hticket, hi ▸ hid⟩
    · exact retireWorker_saves rfl id
  | running o' x result noted =>
    obtain rfl : o' = o := by simpa [Pc.observation] using ho
    unfold advance
    dsimp only
    split
    · refine .progress (.interruption _) (.of_worker rfl rfl rfl rfl ?_)
      rintro t ht hi ⟨hticket, hid⟩
      exact ⟨ht ▸ hticket, hi ▸ hid⟩
    · exact retireWorker_saves rfl id
  | postWorker o' x result =>
    obtain rfl : o' = o := by simpa [Pc.observation] using ho
    exact reportWorker_saves
  | checkpointing o' x result report =>
    obtain rfl : o' = o := by simpa [Pc.observation] using ho
    unfold advance
    dsimp only
    split
    · trivial
    · refine .progress (.stage _ _) (.of_worker rfl rfl rfl rfl ?_)
      rintro t ht hi ⟨hticket, hid, hx⟩
      exact ⟨ht ▸ hticket, hi ▸ hid, hx⟩
  | postCheckpoint o' x result report =>
    obtain rfl : o' = o := by simpa [Pc.observation] using ho
    exact publishCheckpoint_saves
  | publishing o' x result report =>
    obtain rfl : o' = o := by simpa [Pc.observation] using ho
    unfold advance
    dsimp only
    split
    · trivial
    · refine .progress (.bareStage _) (.of_worker rfl rfl rfl rfl ?_)
      rintro t ht hi ⟨hticket, hid, hx⟩
      exact ⟨ht ▸ hticket, hi ▸ hid, hx⟩
  | postPublication o' x result report =>
    obtain rfl : o' = o := by simpa [Pc.observation] using ho
    refine .progress (.lifecycle _ _) (.of_worker rfl rfl rfl rfl ?_)
    rintro t ht hi ⟨hticket, hid, hx⟩
    exact ⟨ht ▸ hticket, hi ▸ hid, hx⟩
  | applying o' x report =>
    obtain rfl : o' = o := by simpa [Pc.observation] using ho
    unfold advance
    dsimp only
    split
    · trivial
    · rename_i controlHead hlifecycle
      refine .finalize _ _ _ _ _ ?_ (.keep hlifecycle) (.inl rfl)
      rintro ⟨hticket, hid, hx⟩
      exact ⟨hx.1 ▸ hticket, hx.2 ▸ hid⟩
  | zeroDelta o' report =>
    obtain rfl : o' = o := by simpa [Pc.observation] using ho
    exact resolveZeroDeltaRetry_saves id
  -- the recovery of a checkpoint that an earlier process has left
  | recoveredCheckpoint o' caller report workspace =>
    obtain rfl : o' = o := by simpa [Pc.observation] using ho
    exact recoverPublication_saves id
  | recoveredPublication o' caller report workspace =>
    obtain rfl : o' = o := by simpa [Pc.observation] using ho
    exact recoverPostPublication_saves
  | recoveredLifecycle o' caller =>
    obtain rfl : o' = o := by simpa [Pc.observation] using ho
    exact finishRecovery_saves
  | resolving o' r ticket =>
    obtain rfl : o' = o := by simpa [Pc.observation] using ho
    show (resumeReconciliation _ _ _).Ensures _
    unfold resumeReconciliation
    split
    · trivial
    split
    · rename_i report hreport
      exact .resume r ticket report hreport
    · split
      · trivial
      · exact .resumeRequired r ticket
  | resumed o' r =>
    obtain rfl : o' = o := by simpa [Pc.observation] using ho
    exact recoverCheckpointPublication_saves
  | resumeFinalized o' r =>
    obtain rfl : o' = o := by simpa [Pc.observation] using ho
    exact .resumeResolved r

end Advance

end Devlegate
