import Devlegate.EngineRun
import Devlegate.EngineSaves

namespace Devlegate

open Transition

/-!
# The steps of the engine by their saves

A step of the engine ends without a save, or with one of `Saves`; besides there are the forced stop
and the commands recorded between two iterations.

* `Moves` and `Engine.step_moves`: the inversion every invariant of the engine starts from.
* `runsFreely`: a ticket that the plan of an iteration would run in a new execution.
* `Moves.agrees`: a point after the admission works on the recorded execution.
-/

/-! ### The steps -/

/-- The stretch of code an action starts. -/
inductive Starts (e : Engine) : EngineAction → Observation → Source → Prop where
  | begin (o : Observation) (intent : IterationIntent) (hready : e.pc = .ready) :
      Starts e (.begin o intent) o (.iteration intent)
  | advance {o : Observation} (hpc : e.pc.observation = some o) :
      Starts e .advance o (.point e.pc)
  | resume (o : Observation) (r : Reconciliation) (hready : e.pc = .ready)
      (hr : e.state.reconciliation = some r) (hphase : e.state.phase = .idle) :
      Starts e (.resume o) o (.resume r)
  | stranded (o : Observation) (hready : e.pc = .ready) (hphase : e.state.phase = .agentRunning) :
      Starts e (.reconcileStranded o) { o with stop := fun _ => true } .stranded

/-- The engine with the history an action leaves before its save. -/
def Engine.noted (e : Engine) : EngineAction → Engine
  | .begin o intent => e.begun o intent
  | .resume o | .reconcileStranded o => e.observed o
  | _ => e

/-- The launch that a save records. -/
def Engine.launchOf (e : Engine) (x : Execution) : LaunchRecord where
  ticketId := x.ticket.id
  executionId := x.executionId
  authorization := x.authorization.map (·.kind)
  bound := x.synced.pendingAgentExecution
  retry := e.retry
  barred := e.started.contains x.ticket.id && e.barred.contains x.ticket.id

/-- The launches after a save. -/
theorem Engine.saved_launches (e : Engine) (s : RuntimeState) (next : Pc) :
    (e.saved s next).launches = e.launches
      ∨ ∃ o x, next = .launched o x ∧ (e.saved s next).launches = e.launchOf x :: e.launches := by
  cases next with
  | launched o x => exact .inr ⟨o, x, rfl, rfl⟩
  | _ => exact .inl rfl

/-- A launch is new, or was recorded before. -/
theorem Engine.noted_launches (e : Engine) (a : EngineAction) :
    (e.noted a).launches = e.launches := by
  cases a <;> rfl

/-- A stretch with an execution starts at the current point. -/
theorem Starts.execution {e : Engine} {a : EngineAction} {o : Observation} {src : Source}
    {x : Execution} (h : Starts e a o src) (hx : src.execution = some x) :
    src = .point e.pc ∧ e.pc.execution = some x := by
  cases h with
  | advance hpc => exact ⟨rfl, hx⟩
  | _ => cases hx

/-! ### A pending execution is carried along -/

/-- A pending execution is recorded, or carried along by the current point. -/
def Engine.Holds (e : Engine) : Prop :=
  e.state.phase = .agentPending ∨ (∃ o x, e.pc = .admitted o x)
    ∨ ∃ y, e.pc.synced = some y ∧ y.pendingAgentExecution = true

theorem Engine.noted_state (e : Engine) (a : EngineAction) : (e.noted a).state = e.state := by
  cases a <;> rfl

theorem Engine.noted_pc (e : Engine) (a : EngineAction) : (e.noted a).pc = e.pc := by
  cases a <;> rfl

theorem Engine.noted_holds (e : Engine) (a : EngineAction) : (e.noted a).Holds ↔ e.Holds := by
  rw [Engine.Holds, Engine.Holds, e.noted_state, e.noted_pc]

theorem Engine.holds_of_draining {e : Engine} {marker : ManualRetry} {barred : List String}
    (h : Engine.Holds { e with
      state := { e.state with manualRetryRequired := some marker }
      pc := e.pc.draining
      barred := barred }) : e.Holds := by
  rcases h with hp | ⟨o, x, hpc⟩ | ⟨y, hy, hpending⟩
  · exact .inl hp
  · refine .inr (.inl ?_)
    have hpc' : e.pc.draining = .admitted o x := hpc
    cases hp : e.pc <;> rw [hp] at hpc' <;> first | (cases hpc'; done) | exact ⟨_, _, rfl⟩
  · exact .inr (.inr ⟨y, by simpa using hy, hpending⟩)

section Carried

variable [Project] {o : Observation} {s : RuntimeState} {src : Source} {y : Synced}
  {plan : ExecutionPlan}

omit [Project] in
theorem Source.Knows.holds {e : Engine} {a : EngineAction} (hstart : Starts e a o src)
    (hk : src.Knows o e.state y) (hpending : y.pendingAgentExecution = true) : e.Holds := by
  cases hstart with
  | «begin» o intent hready =>
    have hphase := hk.2.2
    rw [hpending] at hphase
    exact .inl (by simpa using hphase.symm)
  | advance hpc =>
    by_cases hstranded : ∃ authorization ticketId, e.pc = .strandedNormalised o authorization ticketId
    · obtain ⟨authorization, ticketId, hpc⟩ := hstranded
      rw [hpc] at hk
      have hphase := hk.2.2.2.2
      rw [hpending] at hphase
      exact .inl (by simpa using hphase.symm)
    · refine .inr (.inr ⟨y, ?_, hpending⟩)
      cases hp : e.pc <;> rw [hp] at hk <;> first | exact hk | skip
      rw [hp] at hpc hstranded
      cases hpc
      exact absurd ⟨_, _, rfl⟩ hstranded
  | resume o r hready hr hphase => exact hk.elim
  | stranded o hready hphase => exact hk.elim

theorem Authorizes.holds {e : Engine} {a : EngineAction}
    {authorization : Option ExecutionAuthorization} (hstart : Starts e a o src)
    (h : Authorizes o e.state src y plan authorization)
    (hpending : y.pendingAgentExecution = true) : e.Holds := by
  cases h with
  | plain h => exact h.knows.holds hstart hpending
  | zeroDelta r h hr => exact h.knows.holds hstart hpending
  | skipped y plan =>
    have hk : Source.Knows o e.state (.point (.retrySkipped o y plan)) y := rfl
    exact hk.holds hstart hpending
  | moved y plan ticketId =>
    have hk : Source.Knows o e.state (.point (.retryMoved o y plan ticketId)) y := rfl
    exact hk.holds hstart hpending

theorem Admits.holds {e : Engine} {a : EngineAction} {x : Execution} {retry : Option AutomaticRetry} (hstart : Starts e a o src)
    (h : Admits o e.state src x retry) (hpending : x.synced.pendingAgentExecution = true) :
    e.Holds := by
  cases h with
  | scheduled hsel hmarker hdec =>
    obtain ⟨plan₀, hauth, -⟩ := hsel.authorized
    exact hauth.holds hstart (hdec.synced ▸ hpending)
  | @unmarked y plan authorization x retry hdec =>
    have hk : Source.Knows o e.state (.point (.unmarked o y plan authorization x.ticket)) y := rfl
    exact hk.holds hstart (hdec.synced ▸ hpending)

omit [Project] in
/-- What holds a pending execution after a save: the phase, or the locals of the new point. -/
theorem Engine.holds_saved {e : Engine} {s' : RuntimeState} {next : Pc}
    (h : (e.saved s' next).Holds) (hnext : ∀ o x, next ≠ .admitted o x) :
    s'.phase = .agentPending ∨ ∃ y, next.synced = some y ∧ y.pendingAgentExecution = true := by
  rcases h with hp | ⟨o, x, hpc⟩ | hy
  · exact .inl hp
  · exact absurd hpc (hnext o x)
  · exact .inr hy

omit [Project] in
theorem Engine.not_holds_saved {e : Engine} {s' : RuntimeState} {next : Pc}
    (hphase : s'.phase ≠ .agentPending) (hsynced : next.synced = none)
    (hnext : ∀ o x, next ≠ .admitted o x) : ¬ (e.saved s' next).Holds := by
  intro h
  rcases Engine.holds_saved h hnext with hp | ⟨y, hy, -⟩
  · exact hphase hp
  · rw [hsynced] at hy
    cases hy

/-- **A pending execution is carried along**: only an admission makes a new one. -/
theorem Saves.carries {e : Engine} {a : EngineAction} {call : SaveCall} {next : Pc}
    (hstart : Starts e a o src) (h : Saves o e.state src call next)
    (hnext : ∀ o x, next ≠ .admitted o x)
    (hholds : ((e.noted a).saved (call.payload e.state) next).Holds) :
    e.Holds ∧ (call.payload e.state).executionId = e.state.executionId
      ∧ (call.payload e.state).executionTicketId = e.state.executionTicketId := by
  have hcases := Engine.holds_saved hholds hnext
  -- the locals of the synchronisation carry the execution along
  have hsynced : ∀ y, next.synced = some y →
      ((call.payload e.state).phase = .agentPending → y.pendingAgentExecution = true) →
      y.pendingAgentExecution = true := by
    intro y hy hphase
    rcases hcases with hp | ⟨y', hy', hpending⟩
    · exact hphase hp
    · rw [hy] at hy'
      cases hy'
      exact hpending
  -- no other save leaves a pending execution
  have hnone : next.synced = none → (call.payload e.state).phase ≠ .agentPending → False := by
    intro hy hp
    rcases hcases with hp' | ⟨y', hy', -⟩
    · exact hp hp'
    · rw [hy] at hy'
      cases hy'
  cases h with
  | merge y₀ y resumed hk =>
    exact ⟨hk.holds hstart (hsynced y rfl (by rintro ⟨⟩)), rfl, rfl⟩
  | synced y hk =>
    have hpayload : ∀ p : Phase, ((Call.sync p y).payload e.state).phase = p
        ∧ ((Call.sync p y).payload e.state).executionId = e.state.executionId
        ∧ ((Call.sync p y).payload e.state).executionTicketId = e.state.executionTicketId := by
      intro p
      cases p <;> exact ⟨rfl, rfl, rfl⟩
    obtain ⟨hphase, hid, hticket⟩ :=
      hpayload (if y.pendingAgentExecution then .agentPending else .idle)
    refine ⟨hk.holds hstart (hsynced y rfl ?_), hid, hticket⟩
    rw [hphase]
    cases y.pendingAgentExecution <;> simp
  | merged y =>
    have hk : Source.Knows o e.state (.point (.merging o y false)) y := rfl
    exact ⟨hk.holds hstart (hsynced y rfl (by rintro ⟨⟩)), rfl, rfl⟩
  | discarded y r hk hr =>
    exact ⟨hk.holds hstart (hsynced y rfl (by rintro ⟨⟩)), rfl, rfl⟩
  | retrySkipped y plan r hplan hr =>
    exact ⟨hplan.knows.holds hstart (hsynced y rfl (by rintro ⟨⟩)), rfl, rfl⟩
  | retryMoved y plan r hplan hr =>
    exact ⟨hplan.knows.holds hstart (hsynced y rfl (by rintro ⟨⟩)), rfl, rfl⟩
  | unmark y plan authorization ticket hsel hmarker =>
    obtain ⟨plan₀, hauth, -⟩ := hsel.authorized
    exact ⟨hauth.holds hstart (hsynced y rfl (by rintro ⟨⟩)), rfl, rfl⟩
  | admission x baseHead controlHead remoteHead retry hx => exact absurd rfl (hnext o x)
  | recovered remoteHead hphase => exact ⟨.inl hphase, rfl, rfl⟩
  | progress hcall hfollows =>
    obtain ⟨stage, identity, kind, report, hpayload⟩ := hcall.payload e.state
    refine (hnone ?_ (by rw [hpayload]; simp)).elim
    have hprogress := hfollows.progress
    cases next <;> first | rfl | cases hprogress
  | zeroDelta report retry hreport hretry hpoint =>
    obtain rfl | ⟨caller, rfl⟩ := hpoint <;> exact (hnone rfl (by rintro ⟨⟩)).elim
  | finalize report controlHead productHead productRemoteHead update hreport hupdate hpoint =>
    have hphase := (finalize_phase_retry (s := e.state) report controlHead productHead
      productRemoteHead update).1
    obtain rfl | ⟨-, r, rfl⟩ := hpoint <;> exact (hnone rfl (by rw [hphase]; simp)).elim
  | _ => exact (hnone rfl (by rintro ⟨⟩)).elim

end Carried

theorem Engine.noted_barred_subset (e : Engine) (a : EngineAction) :
    ∀ T ∈ (e.noted a).barred, T ∈ e.barred := by
  cases a <;> first | exact fun T hT => hT | exact fun T hT => (List.mem_filter.mp hT).1

/-- An admission receipt leaves the execution alone. -/
theorem receipt_payload (s : RuntimeState) (requestId : String) (receipt : Receipt) (lift : Bool)
    (recovery : Option OperatorRecovery) (resolving : Option Reconciliation) :
    let s' := (Call.receipt s.phase requestId receipt lift recovery resolving).payload s
    s'.phase = s.phase ∧ s'.executionId = s.executionId
      ∧ s'.executionTicketId = s.executionTicketId ∧ s'.automaticRetry = s.automaticRetry
      ∧ s'.failedExecutions = s.failedExecutions
      ∧ s'.manualRetryRequired = (if lift then none else s.manualRetryRequired) := by
  cases hp : s.phase <;>
    simp [SaveCall.payload, Call.receipt, RuntimeState.clearForIdle]

section Moves

variable [Project] [Sha256]

/-- The saves between two iterations. -/
inductive Records (s : RuntimeState) : EngineAction → SaveCall → Prop where
  | retry (ticketId requestId fingerprint : String) (receipt : Receipt)
      (h : retryAdmissible ticketId s = true) :
      Records s (.admitRetry ticketId requestId fingerprint)
        (Call.receipt s.phase requestId receipt (liftsBarrier ticketId s) none none)
  | forceRetry (ticketId requestId fingerprint executionId controlHead checkpoint : String)
      (hid : s.executionId = some executionId) (hphase : s.phase = .agentRunning)
      (hticket : s.executionTicketId = some ticketId) :
      Records s (.forceRetry ticketId requestId fingerprint controlHead checkpoint)
        (Call.forceRetry ticketId requestId fingerprint executionId controlHead checkpoint s)
  | receipt {a : EngineAction} (requestId : String) (receipt : Receipt)
      (recovery : Option OperatorRecovery) (resolving : Option Reconciliation)
      (ha : a.lifted = none)
      (hresolving : ∀ r, resolving = some r → r.status = .resolving ∧ ∃ r', s.reconciliation = some r'
        ∧ r'.status ≠ .resolved ∧ r.ticketId = r'.ticketId) :
      Records s a (Call.receipt s.phase requestId receipt false recovery resolving)
  | drop (ticketId executionId : String) (hphase : s.phase = .agentRunning) :
      Records s (.admitDrop ticketId executionId) Call.drop
  | rewrite (save : RewriteSave) (r : Reconciliation) (hr : s.reconciliation = some r)
      (hpending : r.status = .pending) (hphase : s.phase = .idle) :
      Records s (.rewrite save) (Call.rewrite r save)
  | interrupted (worktreeHead ticketId executionId : String)
      (hticket : s.executionTicketId = some ticketId) (hid : s.executionId = some executionId)
      (hphase : s.phase = .agentRunning)
      (hstage : s.executionStage = none ∨ s.executionStage = some .preCheckpoint) :
      Records s (.recoverInterrupted worktreeHead)
        (recoverInterruptedExecution worktreeHead ticketId executionId s)

/-- The stretch of code that an action runs. -/
def Engine.stretch (e : Engine) : EngineAction → Stretch
  | .begin o intent => enter o intent e.state
  | .advance => advance e.pc e.state
  | .resume o =>
    match e.state.reconciliation with
    | some r => reconcileResume o r
    | none => .returned
  | .reconcileStranded o =>
    match e.state.executionInterruptionKind with
    | none => .save (Call.interruption .processLoss)
        (.strandedNoted { o with stop := fun _ => true } none .processLoss)
    | some kind => reconcileStrandedExecution { o with stop := fun _ => true } none kind e.state
  | _ => .returned

/-- **The steps of the engine**: a stretch of code ends without a save, or with one of `Saves`; a
    forced stop sets its marker; or a command is recorded between two iterations. -/
inductive Moves (e : Engine) : EngineAction → Engine → Prop where
  | stop (a : EngineAction) : Moves e a { e.noted a with pc := .ready }
  | save {a : EngineAction} {o : Observation} {src : Source} {call : SaveCall} {next : Pc}
      (hstart : Starts e a o src) (hstretch : e.stretch a = .save call next)
      (hsave : Saves o e.state src call next)
      (hvalid : validateStateInvariant (call.payload e.state) = .ok ()) :
      Moves e a ((e.noted a).saved (call.payload e.state) next)
  | forced (requestId : String) (marker : ManualRetry)
      (hmarker : forcedStopMarker requestId e.state = some marker) :
      Moves e (.forceStop requestId) { e with
        state := { e.state with manualRetryRequired := some marker }
        pc := e.pc.draining
        barred := marker.ticketId :: e.barred }
  | record {a : EngineAction} {call : SaveCall} (hready : e.pc = .ready)
      (hcall : Records e.state a call)
      (hvalid : validateStateInvariant (call.payload e.state) = .ok ()) :
      Moves e a { e with
        state := call.payload e.state
        barred := e.barred.filter fun ticketId => a.lifted ≠ some ticketId }

omit [Project] in
/-- A stretch of code whose save, if any, satisfies `Q`. -/
theorem Engine.perform_cases {e : Engine} {stretch : Stretch} {Q : SaveCall → Pc → Prop}
    (h : stretch.Ensures Q) :
    e.perform stretch = { e with pc := .ready } ∨ ∃ call next, stretch = .save call next
      ∧ Q call next ∧ validateStateInvariant (call.payload e.state) = .ok ()
      ∧ e.perform stretch = e.saved (call.payload e.state) next := by
  cases stretch with
  | returned => exact .inl rfl
  | raised message => exact .inl rfl
  | save call next =>
    unfold Engine.perform
    dsimp only
    split
    · exact .inl rfl
    · rename_i s hs
      obtain ⟨rfl, hvalid⟩ := saveState_eq_ok.mp hs
      exact .inr ⟨call, next, rfl, h, hvalid, rfl⟩

/-- A stretch of code that an action starts is a move. -/
theorem Moves.of_perform {e : Engine} {a : EngineAction} {o : Observation} {src : Source}
    (hstart : Starts e a o src) (h : (e.stretch a).Ensures (Saves o e.state src)) :
    Moves e a ((e.noted a).perform (e.stretch a)) := by
  rcases Engine.perform_cases h with heq | ⟨call, next, hstretch, hsave, hvalid, heq⟩
  · rw [heq]
    exact .stop a
  · rw [heq]
    rw [e.noted_state] at hvalid ⊢
    exact .save hstart hstretch hsave hvalid

/-- A recorded command is a move. -/
theorem Moves.of_record {e : Engine} {a : EngineAction} {call : SaveCall} (hready : e.pc = .ready)
    (hnoted : e.noted a = e) (hlifted : a.lifted = none) (hcall : Records e.state a call) :
    Moves e a (e.record call) := by
  have hensures : (Stretch.save call .ready).Ensures fun c n => c = call ∧ n = .ready := ⟨rfl, rfl⟩
  rcases Engine.perform_cases hensures with heq | ⟨call, next, -, ⟨rfl, rfl⟩, hvalid, heq⟩
  · have hstop := Moves.stop (e := e) a
    rw [hnoted] at hstop
    rw [Engine.record, heq]
    exact hstop
  · have hrecord := Moves.record hready hcall hvalid
    simp only [hlifted, ne_eq, reduceCtorEq, not_false_eq_true, decide_true,
      List.filter_true] at hrecord
    rw [Engine.record, heq]
    simpa [Engine.saved, hready] using hrecord

/-- A recorded retry is a move. -/
theorem Moves.of_recordRetry {e : Engine} {a : EngineAction} {ticketId : String} {call : SaveCall}
    (hready : e.pc = .ready) (hnoted : e.noted a = e) (hlifted : a.lifted = some ticketId)
    (hcall : Records e.state a call) : Moves e a (e.recordRetry ticketId call) := by
  unfold Engine.recordRetry
  split
  · have hstop := Moves.stop (e := e) a
    rwa [hnoted] at hstop
  · rename_i s hs
    obtain ⟨rfl, hvalid⟩ := saveState_eq_ok.mp hs
    have hrecord := Moves.record hready hcall hvalid
    simp only [hlifted, ne_eq, Option.some.injEq] at hrecord
    have hfilter : (e.barred.filter fun t => !decide (ticketId = t))
        = e.barred.filter (· ≠ ticketId) := by
      congr 1
      ext t
      simp [eq_comm]
    simp only [decide_not, hfilter] at hrecord
    simpa [Engine.saved, hready] using hrecord

/-- **Inversion.** Every step of the engine is a move. -/
theorem Engine.step_moves {e e' : Engine} {a : EngineAction} (h : e.step a = some e') :
    Moves e a e' := by
  cases a with
  | advance =>
    -- a step from a point makes the next save of its iteration
    simp only [Engine.step] at h
    split at h
    · cases h
    · rename_i hne
      cases h
      obtain ⟨o, ho⟩ : ∃ o, e.pc.observation = some o := by
        cases hpc : e.pc <;> first | exact absurd hpc hne | exact ⟨_, rfl⟩
      exact .of_perform (.advance ho) (advance_saves ho)
  | crash =>
    cases h
    exact .stop .crash
  | forceStop requestId =>
    simp only [Engine.step] at h
    split at h
    · cases h
    rename_i marker hmarker
    split at h
    · cases h
    rename_i s hs
    cases h
    -- a forced stop saves its marker between two saves of the iteration
    obtain ⟨rfl, -⟩ := saveState_eq_ok.mp hs
    rw [forcedStopCall_payload hmarker]
    exact .forced requestId marker hmarker
  | «begin» o intent =>
    simp only [Engine.step] at h
    split at h
    · rename_i hready
      cases h
      exact .of_perform (.begin o intent hready) enter_saves
    · cases h
  -- a command is admitted only between iterations, and is one save
  | admitRetry ticketId requestId fingerprint =>
    simp only [Engine.step] at h
    split at h
    · rename_i hready
      split at h
      · rename_i hadmissible
        cases h
        exact .of_recordRetry hready rfl rfl (.retry _ _ _ _ hadmissible)
      · cases h
    · cases h
  | forceRetry ticketId requestId fingerprint controlHead checkpoint =>
    simp only [Engine.step] at h
    split at h
    · rename_i executionId hready hid
      split at h
      · rename_i hphase
        cases h
        exact .of_recordRetry hready rfl rfl
          (.forceRetry _ _ _ _ _ _ hid hphase.1 hphase.2.1)
      · cases h
    · cases h
  | admitRecover requestId fingerprint observedHead =>
    simp only [Engine.step] at h
    split at h
    · rename_i hready hphase hticket hid
      cases h
      exact .of_record hready rfl rfl (.receipt _ _ _ _ rfl (by simp))
    · cases h
  | admitDrop ticketId executionId =>
    simp only [Engine.step] at h
    split at h
    · rename_i hready
      split at h
      · rename_i hphase
        cases h
        exact .of_record hready rfl rfl (.drop _ _ hphase.1)
      · cases h
    · cases h
  | admitOther requestId receipt =>
    simp only [Engine.step] at h
    split at h
    · rename_i hready
      cases h
      exact .of_record hready rfl rfl (.receipt _ _ _ _ rfl (by simp))
    · cases h
  | admitResume requestId fingerprint =>
    simp only [Engine.step] at h
    split at h
    · rename_i r hready hr
      split at h
      · cases h
      · rename_i hresolved
        cases h
        refine .of_record hready rfl rfl (.receipt _ _ _ _ rfl ?_)
        rintro r' ⟨⟩
        exact ⟨rfl, r, hr, hresolved, rfl⟩
    · cases h
  | resume o =>
    simp only [Engine.step] at h
    split at h
    · rename_i r hready hphase hr
      cases h
      have hstretch : e.stretch (.resume o) = reconcileResume o r := by
        simp only [Engine.stretch, hr]
      rw [← hstretch]
      apply Moves.of_perform (.resume o r hready hr hphase)
      rw [hstretch]
      exact reconcileResume_saves (.inl rfl)
    · cases h
  | rewrite save =>
    simp only [Engine.step] at h
    split at h
    · rename_i r hready hphase hr
      split at h
      · rename_i hpending
        cases h
        exact .of_record hready rfl rfl (.rewrite _ _ hr hpending hphase)
      · cases h
    · cases h
  | reconcileStranded o =>
    simp only [Engine.step] at h
    split at h
    · rename_i hready
      split at h
      · rename_i hphase
        split at h
        · rename_i hkind
          cases h
          have hstretch : e.stretch (.reconcileStranded o) = .save (Call.interruption .processLoss)
              (.strandedNoted { o with stop := fun _ => true } none .processLoss) := by
            simp only [Engine.stretch, hkind]
          rw [← hstretch]
          apply Moves.of_perform (.stranded o hready hphase.1)
          rw [hstretch]
          exact interruption_saves rfl
        · rename_i kind hkind
          cases h
          have hstretch : e.stretch (.reconcileStranded o) = reconcileStrandedExecution
              { o with stop := fun _ => true } none kind e.state := by
            simp only [Engine.stretch, hkind]
          rw [← hstretch]
          apply Moves.of_perform (.stranded o hready hphase.1)
          rw [hstretch]
          exact @reconcileStrandedExecution_saves _ _ e.state .stranded _ rfl
      · cases h
    · cases h
  | recoverInterrupted worktreeHead =>
    simp only [Engine.step] at h
    split at h
    · rename_i ticketId executionId hready hticket hid
      split at h
      · rename_i hphase
        cases h
        exact .of_record hready rfl rfl
          (.interrupted _ _ _ hticket hid hphase.1 hphase.2)
      · cases h
    · cases h

/-! ### Plans for a new execution -/

/-- A ticket that a plan without a bound execution would run now. -/
def runsFreely (s : RuntimeState) (controlHead ticketId : String) : Bool :=
  (admissionBarrier s (Project.tickets controlHead)).isNone
    && (s.phase == .idle || s.phase == .mergePending)
    && (freePlan (Project.tickets controlHead)).action == .runWorker
    && (freePlan (Project.tickets controlHead)).ticketId == some ticketId

/-- The control revision at which an action may plan. -/
def Engine.plansAt (e : Engine) : EngineAction → Option String
  | .begin o _ => o.controlHead
  | .advance =>
    match e.pc with
    | .synchronized _ y | .discarded _ y => some y.controlHead
    | .strandedNormalised o _ _ => o.controlHead
    | _ => none
  | _ => none

omit [Sha256] in
/-- A plan that runs a worker without a bound execution is the free plan. -/
theorem runsFreely_of_makeExecutionPlan {s : RuntimeState} {controlHead ticketId : String}
    {inspection : WorkspaceInspection} {plan : ExecutionPlan}
    (hplan : makeExecutionPlan s (Project.tickets controlHead) inspection = plan)
    (haction : plan.action = .runWorker) (hbound : plan.bound = false)
    (hticket : plan.ticketId = some ticketId) : runsFreely s controlHead ticketId = true := by
  unfold makeExecutionPlan at hplan
  split at hplan
  · rename_i barrier hbarrier
    subst hplan
    exact absurd haction (admissionBarrier_action hbarrier)
  rename_i hbarrier
  unfold runsFreely
  split at hplan
  · subst hplan
    rw [boundPlan_bound haction] at hbound
    cases hbound
  · subst hplan
    cases haction
  · rename_i hphase
    subst hplan
    simp [hbarrier, hphase, haction, hticket]
  · rename_i hphase
    subst hplan
    simp [hbarrier, hphase, haction, hticket]

omit [Sha256] in
/-- A stretch that is authorized by an automatic retry plans freely for its ticket. -/
theorem ZeroDelta.runsFreely {e : Engine} {a : EngineAction} {o : Observation} {src : Source}
    {y : Synced} {plan : ExecutionPlan} {r : AutomaticRetry} (hstart : Starts e a o src)
    (hplan : src.Plans o e.state y plan) (hr : ZeroDelta e.state plan r) :
    e.plansAt a = some y.controlHead
      ∧ Devlegate.runsFreely e.state y.controlHead r.ticketId = true := by
  constructor
  · cases hstart with
    | «begin» o intent hready => exact hplan.knows.2.1
    | advance hpc =>
      rcases hplan.point _ rfl with ⟨y', hy⟩ | ⟨y', hy⟩ | ⟨authorization, ticketId, hy⟩
      · have hk := hplan.knows
        simp only [hy, Source.Knows, Pc.synced, Option.some.injEq] at hk
        simp [Engine.plansAt, hy, hk]
      · have hk := hplan.knows
        simp only [hy, Source.Knows, Pc.synced, Option.some.injEq] at hk
        simp [Engine.plansAt, hy, hk]
      · have hk := hplan.knows
        simp only [hy, Source.Knows] at hk
        simp [Engine.plansAt, hy, hk.2.2.2.1]
    | resume o r hready hrec hphase => exact hplan.knows.elim
    | stranded o hready hphase => exact hplan.knows.elim
  · have hplan' := hplan.plan_eq
    unfold planIteration at hplan'
    dsimp only at hplan'
    split at hplan'
    · rw [Option.map_eq_some_iff] at hplan'
      obtain ⟨inspection, -, hmake⟩ := hplan'
      exact runsFreely_of_makeExecutionPlan hmake hr.action hr.bound hr.ticketId
    · exact runsFreely_of_makeExecutionPlan (Option.some.inj hplan') hr.action hr.bound hr.ticketId

/-! ### The engine knows its execution -/

/-- One step keeps the local knowledge about the durable state. -/
theorem Moves.agrees {e e' : Engine} {a : EngineAction} (h : Moves e a e')
    (hagrees : e.pc.Agrees e.state) : e'.pc.Agrees e'.state := by
  cases h with
  | stop a => trivial
  | forced requestId marker hmarker => exact (Pc.draining_agrees.mpr hagrees).congr rfl rfl
  | record hready hcall hvalid =>
    show e.pc.Agrees _
    rw [hready]
    trivial
  | @save a o src call next hstart hstretch hsave hvalid =>
    have hsrc : src.Agrees e.state := by
      cases hstart with
      | «begin» o intent hready => trivial
      | advance hpc => exact hagrees
      | resume o r hready hrec hphase => trivial
      | stranded o hready hphase => trivial
    show next.Agrees (call.payload e.state)
    cases hsave with
    | admission x baseHead controlHead remoteHead retry hx => exact ⟨rfl, rfl⟩
    | launch x startHead baseHead hgate => exact ⟨rfl, rfl⟩
    | progress hcall hnext =>
      obtain ⟨stage, identity, kind, report, hpayload⟩ := hcall.payload e.state
      rw [hpayload]
      exact hnext.agrees _ rfl rfl hsrc
    | zeroDelta report retry hreport hretry hnext =>
      obtain rfl | ⟨caller, rfl⟩ := hnext
      · exact (hreport hsrc).congr rfl rfl
      · trivial
    | finalize report controlHead productHead productRemoteHead update hreport hupdate hnext =>
      obtain rfl | ⟨-, r, rfl⟩ := hnext <;> trivial
    | _ => trivial

end Moves

end Devlegate
