import Devlegate.EngineMoves

namespace Devlegate

open Transition

/-!
# The barrier of a forced stop

`request_lifecycle("stop", force=True)` records `manual_retry_required` for the active execution;
from then on its ticket is barred until a retry of it is admitted.  The engine keeps that as long as
the record stays: the scheduler resumes no interrupted execution while it fits, and drops it when it
does not.

* `SelectsUnfit` / `FinalizesNamed`: the two branches that clear the record.
* `KeepsBarrier`: the branches that clear the record or pass it by are not taken.
* `BarrierRecord`: the record is there for every barred ticket, and what a pending execution and the
  recorded failure have to do with it.
* `notBarred_of_keepsBarrier`: then no iteration after the stop launches the ticket automatically.
* `stoppedPending_relaunched`: a stop of a pending execution is dropped by the next iteration.
-/

/-! ### The record and the failure it fits -/

/-- What the durable state has to say about the barred tickets; `holds` says that an execution is
    pending. -/
structure BarrierRecord (barred : List String) (s : RuntimeState) (holds : Prop) : Prop where
  marker : ∀ T ∈ barred, ∃ m, s.manualRetryRequired = some m ∧ m.ticketId = T
  pending : holds → ∀ T ∈ barred, ∀ m, s.manualRetryRequired = some m →
    s.executionTicketId = some T ∧ s.executionId = some m.executionId
      ∧ ∀ f, s.failedExecutions.get T = some f → f.executionId ≠ m.executionId
  failure : ∀ T ∈ barred, ∀ m f, s.manualRetryRequired = some m →
    s.failedExecutions.get T = some f → f.executionId = m.executionId →
      f.generation = some m.generation → f.interrupted = true

namespace BarrierRecord

variable {barred : List String} {s s' : RuntimeState} {holds holds' : Prop}

theorem nil : BarrierRecord [] s holds :=
  ⟨by simp, by simp, by simp⟩

theorem mono {barred' : List String} (h : BarrierRecord barred s holds)
    (hsub : ∀ T ∈ barred', T ∈ barred) (hholds : holds' → holds) : BarrierRecord barred' s holds' :=
  ⟨fun T hT => h.marker T (hsub T hT), fun hh T hT => h.pending (hholds hh) T (hsub T hT),
    fun T hT => h.failure T (hsub T hT)⟩

/-- A save that touches neither the record nor the failures. -/
theorem keep (h : BarrierRecord barred s holds)
    (hmarker : s'.manualRetryRequired = s.manualRetryRequired)
    (hfailed : s'.failedExecutions = s.failedExecutions)
    (hholds : holds' → holds ∧ s'.executionId = s.executionId
      ∧ s'.executionTicketId = s.executionTicketId) : BarrierRecord barred s' holds' where
  marker T hT := hmarker ▸ h.marker T hT
  pending hh T hT m hm := by
    obtain ⟨hbefore, hid, hticket⟩ := hholds hh
    rw [hid, hticket, hfailed]
    exact h.pending hbefore T hT m (hmarker ▸ hm)
  failure T hT m f hm hf := h.failure T hT m f (hmarker ▸ hm) (hfailed ▸ hf)

/-- A save that records a failure and leaves nothing pending. -/
theorem set {ticketId : String} {failed : FailedExecution} (h : BarrierRecord barred s holds)
    (hmarker : s'.manualRetryRequired = s.manualRetryRequired)
    (hfailed : s'.failedExecutions = s.failedExecutions.set ticketId failed) (hholds : ¬ holds')
    (hinterrupted : ∀ m, s.manualRetryRequired = some m → failed.executionId = m.executionId →
      failed.generation = some m.generation → failed.interrupted = true) :
    BarrierRecord barred s' holds' where
  marker T hT := hmarker ▸ h.marker T hT
  pending hh := absurd hh hholds
  failure T hT m f hm hf hid hgen := by
    rw [hmarker] at hm
    rw [hfailed] at hf
    by_cases hT' : T = ticketId
    · subst hT'
      rw [Dict.get_set_self] at hf
      cases hf
      exact hinterrupted m hm hid hgen
    · rw [Dict.get_set_of_ne _ _ hT'] at hf
      exact h.failure T hT m f hm hf hid hgen

/-- A save that forgets a failure and leaves nothing pending. -/
theorem erase {ticketId : String} (h : BarrierRecord barred s holds)
    (hmarker : s'.manualRetryRequired = s.manualRetryRequired)
    (hfailed : s'.failedExecutions = s.failedExecutions.erase ticketId) (hholds : ¬ holds') :
    BarrierRecord barred s' holds' where
  marker T hT := hmarker ▸ h.marker T hT
  pending hh := absurd hh hholds
  failure T hT m f hm hf hid hgen := by
    rw [hmarker] at hm
    rw [hfailed] at hf
    by_cases hT' : T = ticketId
    · subst hT'
      rw [Dict.get_erase_self] at hf
      cases hf
    · rw [Dict.get_erase_of_ne _ hT'] at hf
      exact h.failure T hT m f hm hf hid hgen

end BarrierRecord

/-- A record that fits the selected ticket has a failure of the execution it names. -/
theorem fits_of_markerMisfits {s : RuntimeState} {ticketId : String} {m : ManualRetry}
    (h : markerMisfits s ticketId = false) (hm : s.manualRetryRequired = some m) :
    m.ticketId = ticketId ∧ ∃ f, s.failedExecutions.get ticketId = some f
      ∧ f.executionId = m.executionId ∧ f.generation = some m.generation := by
  unfold markerMisfits at h
  rw [hm] at h
  simp only [Bool.or_eq_false_iff, bne_eq_false_iff_eq] at h
  obtain ⟨hticket, hfailed⟩ := h
  split at hfailed
  · cases hfailed
  · rename_i f hf
    simp only [Bool.or_eq_false_iff, bne_eq_false_iff_eq] at hfailed
    exact ⟨hticket, f, hf, hfailed.1, hfailed.2⟩

/-! ### What a point may carry along -/

/-- The authorization is for none of the tickets. -/
def Outside (authorization : Option ExecutionAuthorization) (tickets : List String) : Prop :=
  ∀ a, authorization = some a → a.ticketId ∉ tickets

/-- The authorizations and the execution of a point are not those of tickets that were barred when
    the iteration began. -/
def Pc.Clear (started : List String) (s : RuntimeState) : Pc → Prop
  | .strandedNoted _ authorization _ | .strandedNormalised _ authorization _ =>
    Outside authorization started
  | .merging _ y _ => Outside y.authorization started
  | .synchronized _ y | .discarded _ y => Outside y.authorization started
      ∧ (s.phase = .agentPending → y.pendingAgentExecution = true)
  | .retrySkipped _ y plan => Outside y.authorization started
      ∧ (plan.bound = true → y.pendingAgentExecution = true)
  | .retryMoved _ y _ ticketId => Outside y.authorization started ∧ ticketId ∉ started
  | .unmarked _ y _ _ _ => Outside y.authorization started
      ∧ s.phase = .idle ∧ s.manualRetryRequired = none
  | .admitted _ x => x.ticket.id ∉ started
  | _ => True

theorem Pc.clear_of_isProgress {pc : Pc} {started : List String} {s : RuntimeState}
    (h : pc.isProgress = true)
    (hnoted : ∀ o a kind, pc = .strandedNoted o a kind → Outside a started) :
    pc.Clear started s := by
  cases pc <;> first | (cases h; done) | exact hnoted _ _ _ rfl | trivial

/-- **The invariant.** -/
structure Barrier (e : Engine) : Prop where
  guarded : BarrierRecord e.barred e.state e.Holds
  started : ∀ o, e.pc.observation = some o → ∀ T ∈ e.started, T ∈ e.barred
  draining : ∀ o, e.pc.observation = some o → ∀ T ∈ e.barred, T ∉ e.started →
    o.stop .beforeAuthorization = true
  clear : e.pc.Clear e.started e.state
  launches : ∀ l ∈ e.launches, l.barred = false

section Barrier

variable [Project] [Sha256]

/-! ### The condition -/

/-- The scheduler selects a ticket that the record does not fit. -/
def SelectsUnfit (e : Engine) (a : EngineAction) : Prop :=
  ∃ o y plan authorization ticket, markerMisfits e.state ticket.id = true
    ∧ e.stretch a = .save Call.unmark (.unmarked o y plan authorization ticket)

/-- The execution that the record names is finalised. -/
def FinalizesNamed (e : Engine) (a : EngineAction) : Prop :=
  ∃ report controlHead productHead productRemoteHead update next,
    e.state.manualRetryRequired.any (·.executionId = report.executionId) = true
      ∧ e.stretch a = .save (finalizeExecutionLifecycle report controlHead productHead
        productRemoteHead update e.state) next

/-- The record of a barred ticket is not cleared. -/
def MarkerKept (e : Engine) (a : EngineAction) : Prop :=
  ∀ m ∈ e.state.manualRetryRequired, m.ticketId ∈ (e.noted a).barred →
    ¬ SelectsUnfit e a ∧ ¬ FinalizesNamed e a

omit [Project] [Sha256] in
/-- An iteration that has normalised the stranded execution of a barred ticket stops there. -/
def NotResumed (e : Engine) (a : EngineAction) : Prop :=
  match a, e.pc with
  | .advance, .strandedNormalised o authorization ticketId =>
    ticketId ∈ e.barred → o.stop .stranded = true ∨ authorization.isSome = true
  | _, _ => True

/-- A forced stop finds no other barred ticket, and no failure of the execution it stops. -/
def StopsAlone (e : Engine) (a : EngineAction) : Prop :=
  match a with
  | .forceStop _ => (∀ T ∈ e.barred, e.state.executionTicketId = some T)
      ∧ ∀ T ∈ e.state.executionTicketId, ∀ f ∈ e.state.failedExecutions.get T,
        e.state.executionId ≠ some f.executionId
  | _ => True

/-- Where the action may plan, no automatic retry of a barred ticket is due. -/
def NotRetried (e : Engine) (a : EngineAction) : Prop :=
  ∀ controlHead ∈ e.plansAt a, ∀ r ∈ e.state.automaticRetry, r.isLive = true →
    r.ticketId ∈ (e.noted a).barred → runsFreely e.state controlHead r.ticketId = false

/-- **The condition**: none of the branches that lose the barrier is taken. -/
structure KeepsBarrier (e : Engine) (a : EngineAction) : Prop where
  marker : MarkerKept e a
  notResumed : NotResumed e a
  alone : StopsAlone e a
  notRetried : NotRetried e a

variable {e e' : Engine} {a : EngineAction} {o : Observation} {src : Source} {y : Synced}
  {plan : ExecutionPlan}

/-! ### The saves that clear the record -/

/-- The next save of a stretch, whatever action runs it, is one of the engine's. -/
theorem Engine.stretch_saves (e : Engine) (a : EngineAction) :
    ∃ o src, (e.stretch a).Ensures (Saves o e.state src) := by
  cases a with
  | «begin» o intent => exact ⟨o, .iteration intent, enter_saves⟩
  | advance =>
    cases hobs : e.pc.observation with
    | none =>
      have hready : e.pc = .ready := by
        cases hpc : e.pc <;> rw [hpc] at hobs <;> first | rfl | cases hobs
      refine ⟨calm fun _ => "", .stranded, ?_⟩
      show (advance e.pc e.state).Ensures _
      rw [hready]
      trivial
    | some o => exact ⟨o, .point e.pc, advance_saves hobs⟩
  | resume o =>
    cases hr : e.state.reconciliation with
    | none => exact ⟨o, .stranded, by simp [Engine.stretch, hr]⟩
    | some r =>
      refine ⟨o, .resume r, ?_⟩
      simp only [Engine.stretch, hr]
      exact reconcileResume_saves (.inl rfl)
  | reconcileStranded o =>
    refine ⟨{ o with stop := fun _ => true }, .stranded, ?_⟩
    cases hkind : e.state.executionInterruptionKind with
    | none =>
      simp only [Engine.stretch, hkind]
      exact interruption_saves rfl
    | some kind =>
      simp only [Engine.stretch, hkind]
      exact @reconcileStrandedExecution_saves _ _ e.state .stranded _ rfl
  | _ => exact ⟨calm fun _ => "", .stranded, trivial⟩

/-- Only the two branches clear the record. -/
theorem marker_of_stretch {call : SaveCall} {next : Pc} (hstretch : e.stretch a = .save call next)
    (hunfit : ¬ SelectsUnfit e a) (hnamed : ¬ FinalizesNamed e a) :
    (call.payload e.state).manualRetryRequired = e.state.manualRetryRequired := by
  obtain ⟨o, src, hsaves⟩ := e.stretch_saves a
  rw [hstretch] at hsaves
  have hsave : Saves o e.state src call next := hsaves
  cases hsave with
  | unmark y plan authorization ticket hsel hmarker =>
    exact absurd ⟨o, y, plan, authorization, ticket, hmarker, hstretch⟩ hunfit
  | finalize report controlHead productHead productRemoteHead update hreport hupdate hpoint =>
    rw [finalize_marker, if_neg]
    intro hany
    exact hnamed ⟨report, controlHead, productHead, productRemoteHead, update, next, hany, hstretch⟩
  | progress hcall hnext =>
    obtain ⟨stage, identity, kind, report, hpayload⟩ := hcall.payload e.state
    rw [hpayload]
  | synced y hk => cases y.pendingAgentExecution <;> rfl
  | _ => rfl

/-- The branches by what they do to the record, which can be computed. -/
theorem markerKept_iff : MarkerKept e a
    ↔ ((e.state.manualRetryRequired.any fun m => (e.noted a).barred.contains m.ticketId) = true →
      match e.stretch a with
      | .save call _ => (call.payload e.state).manualRetryRequired = e.state.manualRetryRequired
      | _ => True) := by
  cases hm : e.state.manualRetryRequired with
  | none => simp [MarkerKept, hm]
  | some m =>
    simp only [MarkerKept, hm, Option.mem_some_iff, forall_eq', Option.any_some,
      List.contains_iff_mem]
    refine imp_congr_right fun hbarred => ?_
    constructor
    · rintro ⟨hunfit, hnamed⟩
      split
      · rename_i call next hstretch
        rw [marker_of_stretch hstretch hunfit hnamed, hm]
      · trivial
    · intro hkept
      constructor
      · rintro ⟨o, y, plan, authorization, ticket, -, hstretch⟩
        rw [hstretch] at hkept
        cases hkept
      · rintro ⟨report, controlHead, productHead, productRemoteHead, update, next, hany, hstretch⟩
        rw [hstretch] at hkept
        simp only [finalize_marker, hany, if_true, reduceCtorEq] at hkept

/-! ### Before a save -/

/-- What is known before a save of a stretch from `src`. -/
structure Facing (e : Engine) (a : EngineAction) (o : Observation) (src : Source) : Prop where
  start : Starts e a o src
  guarded : BarrierRecord (e.noted a).barred e.state e.Holds
  started : ∀ T ∈ (e.noted a).started, T ∈ (e.noted a).barred
  draining : ∀ T ∈ (e.noted a).barred, T ∉ (e.noted a).started → o.stop .beforeAuthorization = true
  clear : ∀ pc, src = .point pc → pc.Clear (e.noted a).started e.state
  notResumed : ∀ authorization ticketId, src = .point (.strandedNormalised o authorization ticketId) →
    o.stop .stranded = false → authorization = none → ticketId ∉ (e.noted a).started
  notRetried : ∀ y plan r, src.Plans o e.state y plan → ZeroDelta e.state plan r →
    r.ticketId ∉ (e.noted a).started

omit [Project] [Sha256] in
theorem outside_initialAuthorization (e : Engine) (o : Observation) (intent : IterationIntent) :
    Outside (initialAuthorization intent e.state) (e.noted (.begin o intent)).started := by
  intro a ha hmem
  have hmem' : a.ticketId ∈ e.barred.filter fun ticketId =>
      (initialAuthorization intent e.state).map (·.ticketId) ≠ some ticketId := hmem
  rw [List.mem_filter, ha] at hmem'
  simp at hmem'

theorem Barrier.facing (h : Barrier e) (hok : KeepsBarrier e a) (hstart : Starts e a o src) :
    Facing e a o src := by
  -- an automatic retry of a barred ticket is not planned, by the condition on the step
  have hretried : ∀ (hsub : ∀ T ∈ (e.noted a).started, T ∈ (e.noted a).barred),
      ∀ y plan r, src.Plans o e.state y plan → ZeroDelta e.state plan r →
        r.ticketId ∉ (e.noted a).started := by
    intro hsub y plan r hplan hr hmem
    obtain ⟨hat, hruns⟩ := hr.runsFreely hstart hplan
    have hnot := hok.notRetried _ hat r hr.retry hr.live (hsub _ hmem)
    rw [hruns] at hnot
    cases hnot
  cases hstart with
  | «begin» o intent hready =>
    refine ⟨.begin o intent hready, h.guarded.mono ?_ id, fun T hT => hT, ?_, ?_, ?_,
      hretried fun T hT => hT⟩
    · exact fun T hT => (List.mem_filter.mp hT).1
    · exact fun T hT hnot => absurd hT hnot
    · rintro pc ⟨⟩
    · rintro authorization ticketId ⟨⟩
  | advance hpc =>
    refine ⟨.advance hpc, h.guarded, h.started o hpc, h.draining o hpc, ?_, ?_,
      hretried (h.started o hpc)⟩
    · rintro pc ⟨⟩
      exact h.clear
    · intro authorization ticketId hsrc hstop hnone hmem
      have hpc' : e.pc = .strandedNormalised o authorization ticketId := Source.point.inj hsrc
      have hresumed := hok.notResumed
      simp only [NotResumed, hpc'] at hresumed
      rcases hresumed (h.started o hpc ticketId hmem) with hgate | hsome
      · rw [hstop] at hgate
        cases hgate
      · simp [hnone] at hsome
  | resume o r hready hr hphase =>
    refine ⟨.resume o r hready hr hphase, h.guarded, fun T hT => hT, ?_, ?_, ?_,
      hretried fun T hT => hT⟩
    · exact fun T hT hnot => absurd hT hnot
    · rintro pc ⟨⟩
    · rintro authorization ticketId ⟨⟩
  | stranded o hready hphase =>
    refine ⟨.stranded o hready hphase, h.guarded, fun T hT => hT, ?_, ?_, ?_,
      hretried fun T hT => hT⟩
    · exact fun T hT hnot => absurd hT hnot
    · rintro pc ⟨⟩
    · rintro authorization ticketId ⟨⟩

namespace Facing

omit [Sha256] in
/-- The authorization of the synchronised locals. -/
theorem outside (h : Facing e a o src) (hk : src.Knows o e.state y) :
    Outside y.authorization (e.noted a).started := by
  have hstart := h.start
  cases hstart with
  | «begin» o intent hready =>
    rw [hk.1]
    exact outside_initialAuthorization e o intent
  | advance hpc =>
    have hclear := h.clear e.pc rfl
    cases hpc' : e.pc <;> rw [hpc'] at hk hclear <;> first | (cases hk; done) | skip
    case strandedNormalised o' authorization ticketId =>
      rw [hpc'] at hpc
      cases hpc
      obtain ⟨hnone, hstop, hauth, -, -⟩ := hk
      intro b hb
      rw [hauth] at hb
      cases hb
      exact h.notResumed authorization ticketId (by rw [hpc']) hstop hnone
    case merging o' y' again =>
      cases hk
      exact hclear
    all_goals
      cases hk
      exact hclear.1
  | resume o r hready hr hphase => exact hk.elim
  | stranded o hready hphase => exact hk.elim

omit [Sha256] in
/-- The authorization that comes with a stranded execution. -/
theorem outside_stranded (h : Facing e a o src) (hstrand : src.mayStrand = true) :
    Outside (src.authorization e.state) (e.noted a).started := by
  have hstart := h.start
  cases hstart with
  | «begin» o intent hready => exact outside_initialAuthorization e o intent
  | advance hpc =>
    have hclear := h.clear e.pc rfl
    cases hpc' : e.pc <;> rw [hpc'] at hstrand hclear <;> first | (cases hstrand; done) | exact hclear
  | resume o r hready hr hphase => cases hstrand
  | stranded o hready hphase => simp [Outside, Source.authorization]

omit [Sha256] in
/-- The locals and the authorization that select a ticket. -/
theorem outside_authorizes {authorization : Option ExecutionAuthorization} (h : Facing e a o src)
    (hauth : Authorizes o e.state src y plan authorization) :
    Outside y.authorization (e.noted a).started ∧ Outside authorization (e.noted a).started := by
  cases hauth with
  | plain hplan => exact ⟨h.outside hplan.knows, h.outside hplan.knows⟩
  | zeroDelta r hplan hr =>
    refine ⟨h.outside hplan.knows, ?_⟩
    rintro b ⟨⟩
    exact h.notRetried _ _ r hplan hr
  | skipped y plan => exact ⟨(h.clear _ rfl).1, (h.clear _ rfl).1⟩
  | moved y plan ticketId =>
    refine ⟨(h.clear _ rfl).1, ?_⟩
    rintro b ⟨⟩
    exact (h.clear _ rfl).2

omit [Sha256] in
/-- A bound plan has a pending execution behind it. -/
theorem pending_of_bound (h : Facing e a o src) (hplan : src.Plans o e.state y plan)
    (hbound : plan.bound = true) : y.pendingAgentExecution = true ∧ e.Holds := by
  have hphase : e.state.phase = .agentPending := by
    have heq := hplan.plan_eq
    unfold planIteration at heq
    dsimp only at heq
    split at heq
    · obtain ⟨inspection, -, rfl⟩ := Option.map_eq_some_iff.mp heq
      exact makeExecutionPlan_bound hbound
    · cases heq
      exact makeExecutionPlan_bound hbound
  refine ⟨?_, .inl hphase⟩
  have hk := hplan.knows
  have hstart := h.start
  cases hstart with
  | «begin» o intent hready => simpa [hphase] using hk.2.2
  | advance hpc =>
    have hclear := h.clear e.pc rfl
    rcases hplan.point _ rfl with ⟨y', hy⟩ | ⟨y', hy⟩ | ⟨authorization, ticketId, hy⟩
    · rw [hy] at hk hclear
      cases hk
      exact hclear.2 hphase
    · rw [hy] at hk hclear
      cases hk
      exact hclear.2 hphase
    · rw [hy] at hk
      simpa [hphase] using hk.2.2.2.2
  | resume o r hready hr hphase => exact hk.elim
  | stranded o hready hphase => exact hk.elim

omit [Sha256] in
/-- A bound plan that was made with the pending execution. -/
theorem holds_of_bound {authorization : Option ExecutionAuthorization} (h : Facing e a o src)
    (hauth : Authorizes o e.state src y plan authorization) (hnone : authorization = none)
    (hbound : plan.bound = true) : e.Holds := by
  cases hauth with
  | plain hplan => exact (h.pending_of_bound hplan hbound).2
  | zeroDelta r hplan hr =>
    rw [hr.bound] at hbound
    cases hbound
  | skipped y plan =>
    have hk : Source.Knows o e.state (.point (.retrySkipped o y plan)) y := rfl
    exact hk.holds h.start ((h.clear _ rfl).2 hbound)
  | moved y plan ticketId => cases hnone

omit [Sha256] in
/-- **No execution is admitted while a ticket is barred.** -/
theorem barred_eq_nil {x : Execution} {retry : Option AutomaticRetry} (h : Facing e a o src)
    (hx : Admits o e.state src x retry) : (e.noted a).barred = [] := by
  apply List.eq_nil_iff_forall_not_mem.mpr
  intro T hT
  obtain ⟨m, hm, hmT⟩ := h.guarded.marker T hT
  cases hx with
  | @scheduled src y plan authorization x retry hsel hmarker hdec =>
    -- the record fits, so the selected ticket is the barred one and its execution was interrupted
    obtain ⟨hticket, f, hf, hid, hgen⟩ := fits_of_markerMisfits hmarker hm
    obtain rfl : x.ticket.id = T := hticket.symm.trans hmT
    have hinterrupted := h.guarded.failure _ hT m f hm hf hid hgen
    have hstarted : x.ticket.id ∈ (e.noted a).started := by
      by_contra hnot
      have hgate := h.draining _ hT hnot
      rw [hsel.gate] at hgate
      cases hgate
    obtain ⟨plan₀, hauth, hplan⟩ := hsel.authorized
    cases authorization with
    | some b =>
      have hb := (authorizedPlan_some hplan).2.2.2.2
      rw [(selectTicket_some hsel.selected).2] at hb
      exact (h.outside_authorizes hauth).2 b rfl (Option.some.inj hb ▸ hstarted)
    | none =>
      obtain rfl : plan₀ = plan := by simpa [authorizedPlan] using hplan
      have hinterruption := hdec.interruption
      simp only [interruptionAuthorization, hf, Option.filter_some, hinterrupted, if_true, hm,
        hsel.action, true_and] at hinterruption
      split at hinterruption
      · simp at hinterruption
      · rename_i hbound
        have hholds := h.holds_of_bound hauth rfl (by simpa using hbound)
        exact (h.guarded.pending hholds _ hT m hm).2.2 f hf hid
  | unmarked hdec =>
    have hnone := (h.clear _ rfl).2.2
    rw [hm] at hnone
    cases hnone

omit [Sha256] in
/-- The record is kept by every save, or nothing is barred. -/
theorem marker_kept [Sha256] {call : SaveCall} {next : Pc} (h : Facing e a o src)
    (hok : MarkerKept e a) (hstretch : e.stretch a = .save call next) :
    (e.noted a).barred = []
      ∨ (call.payload e.state).manualRetryRequired = e.state.manualRetryRequired := by
  cases hbarred : (e.noted a).barred with
  | nil => exact .inl rfl
  | cons T rest =>
    have hT : T ∈ (e.noted a).barred := by simp [hbarred]
    obtain ⟨m, hm, hmT⟩ := h.guarded.marker T hT
    obtain ⟨hunfit, hnamed⟩ := hok m hm (hmT ▸ hT)
    exact .inr (marker_of_stretch hstretch hunfit hnamed)

omit [Sha256] in
/-- The point after a save is clear of the tickets that were barred when the iteration began. -/
theorem clear_saves {call : SaveCall} {next : Pc} (h : Facing e a o src)
    (hsave : Saves o e.state src call next) :
    next.Clear (e.noted a).started (call.payload e.state) := by
  cases hsave with
  | merge y₀ y resumed hk => exact h.outside hk
  | synced y hk =>
    refine ⟨h.outside hk, ?_⟩
    cases y.pendingAgentExecution with
    | true => exact fun _ => rfl
    | false => rintro ⟨⟩
  | merged y =>
    have hk : Source.Knows o e.state (.point (.merging o y false)) y := rfl
    exact ⟨h.outside hk, by rintro ⟨⟩⟩
  | discarded y r hk hr => exact ⟨h.outside hk, by rintro ⟨⟩⟩
  | retrySkipped y plan r hplan hr =>
    exact ⟨h.outside hplan.knows, fun hbound => (h.pending_of_bound hplan hbound).1⟩
  | retryMoved y plan r hplan hr =>
    exact ⟨h.outside hplan.knows, h.notRetried _ _ r hplan hr⟩
  | unmark y plan authorization ticket hsel hmarker =>
    obtain ⟨plan₀, hauth, -⟩ := hsel.authorized
    exact ⟨(h.outside_authorizes hauth).1, rfl, rfl⟩
  | admission x baseHead controlHead remoteHead retry hx =>
    intro hmem
    have hbarred := h.started _ hmem
    rw [h.barred_eq_nil hx] at hbarred
    cases hbarred
  | progress hcall hnext =>
    apply Pc.clear_of_isProgress hnext.progress
    intro o' authorization kind hpoint
    obtain ⟨hstrand, rfl⟩ := hnext.stranded _ _ _ hpoint
    exact h.outside_stranded hstrand
  | normalised controlHead ticketId executionId kind failed hstrand hticket hid hfailed =>
    exact h.outside_stranded hstrand
  | zeroDelta report retry hreport hretry hpoint =>
    obtain rfl | ⟨caller, rfl⟩ := hpoint <;> trivial
  | finalize report controlHead productHead productRemoteHead update hreport hupdate hpoint =>
    obtain rfl | ⟨-, r, rfl⟩ := hpoint <;> trivial
  | _ => trivial

omit [Sha256] in
/-- Every save keeps what the durable state says about the barred tickets. -/
theorem guarded_saves {call : SaveCall} {next : Pc} (h : Facing e a o src)
    (hsave : Saves o e.state src call next)
    (hmarker : (e.noted a).barred = []
      ∨ (call.payload e.state).manualRetryRequired = e.state.manualRetryRequired) :
    BarrierRecord (e.noted a).barred (call.payload e.state)
      ((e.noted a).saved (call.payload e.state) next).Holds := by
  rcases hmarker with hnil | hmarker
  · rw [hnil]
    exact BarrierRecord.nil
  have hcarries := hsave.carries h.start
  -- the saves that touch neither a failure nor the record
  have hkeep : (∀ o x, next ≠ .admitted o x) →
      (call.payload e.state).failedExecutions = e.state.failedExecutions →
      BarrierRecord (e.noted a).barred (call.payload e.state)
        ((e.noted a).saved (call.payload e.state) next).Holds :=
    fun hnext hfailed => h.guarded.keep hmarker hfailed (hcarries hnext)
  cases hsave with
  | admission x baseHead controlHead remoteHead retry hx =>
    rw [h.barred_eq_nil hx]
    exact BarrierRecord.nil
  | failure x result reason =>
    exact h.guarded.set hmarker rfl (Engine.not_holds_saved (by rintro ⟨⟩) rfl (by simp))
      (by rintro m - - ⟨⟩)
  | normalised controlHead ticketId executionId kind failed hstrand hticket hid hfailed =>
    exact h.guarded.set hmarker rfl (Engine.not_holds_saved (by rintro ⟨⟩) rfl (by simp))
      fun _ _ _ _ => hfailed.2.2.1
  | finalize report controlHead productHead productRemoteHead update hreport hupdate hpoint =>
    -- the record names another execution, or it would have been cleared
    have hother : ∀ m, e.state.manualRetryRequired = some m →
        m.executionId ≠ report.executionId := by
      intro m hm heq
      rw [finalize_marker, hm] at hmarker
      simp [heq] at hmarker
    have hidle := (finalize_phase_retry (s := e.state) report controlHead productHead
      productRemoteHead update).1
    have hreleased : ¬ ((e.noted a).saved ((finalizeExecutionLifecycle report controlHead
        productHead productRemoteHead update e.state).payload e.state) next).Holds := by
      apply Engine.not_holds_saved (by rw [hidle]; simp)
      · obtain rfl | ⟨-, r, rfl⟩ := hpoint <;> rfl
      · obtain rfl | ⟨-, r, rfl⟩ := hpoint <;> simp
    rcases finalize_failed (s := e.state) report controlHead productHead productRemoteHead update
      with hsame | herased | ⟨failed, hid, hset⟩
    · exact h.guarded.keep hmarker hsame fun hholds => absurd hholds hreleased
    · exact h.guarded.erase hmarker herased hreleased
    · refine h.guarded.set hmarker hset hreleased ?_
      intro m hm heq
      exact absurd (heq.symm.trans hid) (hother m hm)
  | synced y hk =>
    apply hkeep (by simp)
    cases y.pendingAgentExecution <;> rfl
  | progress hcall hnext =>
    obtain ⟨stage, identity, kind, report, hpayload⟩ := hcall.payload e.state
    apply hkeep _ (by rw [hpayload])
    rintro o' x rfl
    cases hnext.progress
  | zeroDelta report retry hreport hretry hpoint =>
    apply hkeep _ rfl
    obtain rfl | ⟨caller, rfl⟩ := hpoint <;> simp
  | _ => exact hkeep (by simp) rfl

end Facing

/-! ### Every run -/

omit [Sha256] in
/-- The saves between two iterations keep it: a retry that lifts the record lifts the bar too. -/
theorem BarrierRecord.records {call : SaveCall} (h : BarrierRecord e.barred e.state e.Holds)
    (hready : e.pc = .ready) (hcall : Records e.state a call) :
    BarrierRecord (e.barred.filter fun ticketId => a.lifted ≠ some ticketId) (call.payload e.state)
      (Engine.Holds { e with
        state := call.payload e.state
        barred := e.barred.filter fun ticketId => a.lifted ≠ some ticketId }) := by
  have hsub : ∀ T ∈ e.barred.filter fun ticketId => a.lifted ≠ some ticketId, T ∈ e.barred :=
    fun T hT => (List.mem_filter.mp hT).1
  have hold : BarrierRecord (e.barred.filter fun ticketId => a.lifted ≠ some ticketId) e.state e.Holds :=
    h.mono hsub id
  have hphase : Engine.Holds { e with
      state := call.payload e.state
      barred := e.barred.filter fun ticketId => a.lifted ≠ some ticketId } →
      (call.payload e.state).phase = .agentPending := by
    rintro (hp | ⟨o, x, hpc⟩ | ⟨y, hy, -⟩)
    · exact hp
    · have hpc' : e.pc = .admitted o x := hpc
      rw [hready] at hpc'
      cases hpc'
    · have hy' : e.pc.synced = some y := hy
      rw [hready] at hy'
      cases hy'
  cases hcall with
  | retry ticketId requestId fingerprint receipt hadmissible =>
    obtain ⟨hp, hid, hticket, -, hfailed, hmarker⟩ := receipt_payload e.state requestId receipt
      (liftsBarrier ticketId e.state) none none
    cases hbarred : e.barred.filter fun T => (EngineAction.admitRetry ticketId requestId
        fingerprint).lifted ≠ some T with
    | nil => exact BarrierRecord.nil
    | cons T rest =>
      rw [← hbarred]
      -- the record names a ticket that stays barred, so the retry does not lift it
      have hT : T ∈ e.barred.filter fun T => (EngineAction.admitRetry ticketId requestId
          fingerprint).lifted ≠ some T := by
        rw [hbarred]
        exact List.mem_cons_self
      obtain ⟨m, hm, hmT⟩ := hold.marker T hT
      have hne : T ≠ ticketId := by
        have hlifted := (List.mem_filter.mp hT).2
        simp only [EngineAction.lifted, ne_eq, Option.some.injEq, decide_eq_true_eq] at hlifted
        exact fun heq => hlifted heq.symm
      have hstays : liftsBarrier ticketId e.state = false := by
        simp [liftsBarrier, hm, hmT, hne]
      rw [hstays] at hmarker
      rw [hstays]
      rw [hstays] at hp hid hticket hfailed hphase
      refine hold.keep (by simpa using hmarker) hfailed fun hholds => ⟨.inl ?_, hid, hticket⟩
      rw [← hp]
      exact hphase hholds
  | receipt requestId receipt recovery resolving ha hresolving =>
    obtain ⟨hp, hid, hticket, -, hfailed, hmarker⟩ := receipt_payload e.state requestId receipt
      false recovery resolving
    refine hold.keep (by simpa using hmarker) hfailed fun hholds => ⟨.inl ?_, hid, hticket⟩
    rw [← hp]
    exact hphase hholds
  | forceRetry ticketId requestId fingerprint executionId controlHead checkpoint hid hp hticket =>
    exact hold.set rfl rfl (fun hholds => by cases hphase hholds) fun _ _ _ _ => rfl
  | drop ticketId executionId hp =>
    exact hold.keep rfl rfl fun hholds => by cases hphase hholds
  | rewrite save r hr hpending hp =>
    cases save <;> exact hold.keep rfl rfl fun hholds => by cases hphase hholds
  | interrupted worktreeHead ticketId executionId hticket hid hp hstage =>
    exact hold.set rfl rfl (fun hholds => by cases hphase hholds) (by rintro m - - ⟨⟩)

omit [Project] [Sha256] in
theorem Pc.Clear.draining {pc : Pc} {started : List String} {s s' : RuntimeState}
    (h : pc.Clear started s) (hphase : s'.phase = s.phase) (hactive : s.phase ≠ .idle) :
    pc.draining.Clear started s' := by
  cases pc <;> first | exact h | exact ⟨h.1, hphase ▸ h.2⟩ | exact absurd h.2.1 hactive

omit [Project] [Sha256] in
/-- A forced stop sets the record. -/
theorem Barrier.forced {requestId : String} {marker : ManualRetry} (hi : Barrier e)
    (hmarker : forcedStopMarker requestId e.state = some marker)
    (halone : StopsAlone e (.forceStop requestId)) :
    Barrier { e with
      state := { e.state with manualRetryRequired := some marker }
      pc := e.pc.draining
      barred := marker.ticketId :: e.barred } := by
  obtain ⟨hphase, hticket, hid, hgen⟩ := forcedStopMarker_eq_some hmarker
  obtain ⟨honly, hnew⟩ := halone
  have hsame : ∀ T ∈ marker.ticketId :: e.barred, T = marker.ticketId := by
    intro T hT
    rcases List.mem_cons.mp hT with rfl | hT
    · rfl
    · exact Option.some.inj ((honly T hT).symm.trans hticket)
  have hother : ∀ f, e.state.failedExecutions.get marker.ticketId = some f →
      f.executionId ≠ marker.executionId := by
    intro f hf heq
    exact hnew _ hticket f hf (heq ▸ hid)
  have hobs : ∀ o, e.pc.draining.observation = some o →
      ∃ o', e.pc.observation = some o' ∧ o'.draining = o := by
    intro o ho
    simpa using ho
  refine ⟨⟨?_, ?_, ?_⟩, ?_, ?_, ?_, hi.launches⟩
  · intro T hT
    exact ⟨marker, rfl, (hsame T hT).symm⟩
  · rintro - T hT m ⟨⟩
    rw [hsame T hT]
    exact ⟨hticket, hid, hother⟩
  · rintro T hT m f ⟨⟩ hf heq
    rw [hsame T hT] at hf
    exact absurd heq (hother f hf)
  · intro o ho T hT
    obtain ⟨o', ho', -⟩ := hobs o ho
    exact List.mem_cons_of_mem _ (hi.started o' ho' T hT)
  · intro o ho T _ _
    obtain ⟨o', -, rfl⟩ := hobs o ho
    simp [Observation.draining, Gate.drains]
  · refine hi.clear.draining rfl ?_
    rcases hphase with hp | hp <;> rw [hp] <;> simp

/-- One step that keeps the barrier. -/
theorem Moves.barrier (h : Moves e a e') (hok : KeepsBarrier e a) (hi : Barrier e) :
    Barrier e' := by
  cases h with
  | stop a =>
    have hholds : Engine.Holds { e.noted a with pc := .ready } → e.Holds := by
      rintro (hp | ⟨o, x, hpc⟩ | ⟨y, hy, -⟩)
      · have hp' : (e.noted a).state.phase = .agentPending := hp
        rw [e.noted_state] at hp'
        exact .inl hp'
      · cases hpc
      · cases hy
    refine ⟨?_, by rintro o ⟨⟩, by rintro o ⟨⟩, trivial, ?_⟩
    · show BarrierRecord (e.noted a).barred (e.noted a).state _
      rw [e.noted_state]
      exact hi.guarded.mono (e.noted_barred_subset a) hholds
    · show ∀ l ∈ (e.noted a).launches, _
      rw [e.noted_launches]
      exact hi.launches
  | forced requestId marker hmarker => exact hi.forced hmarker hok.alone
  | record hready hcall hvalid =>
    refine ⟨hi.guarded.records hready hcall, ?_, ?_, ?_, hi.launches⟩
    · intro o ho
      simp [hready, Pc.observation] at ho
    · intro o ho
      simp [hready, Pc.observation] at ho
    · show e.pc.Clear _ _
      rw [hready]
      trivial
  | @save a o src call next hstart hstretch hsave hvalid =>
    have hf := hi.facing hok hstart
    refine ⟨hf.guarded_saves hsave (hf.marker_kept hok.marker hstretch), fun _ _ => hf.started, ?_,
      hf.clear_saves hsave, ?_⟩
    · intro o' ho'
      rw [hsave.observation ho']
      exact hf.draining
    · -- a launch is barred if its ticket was when the iteration began
      intro l hl
      rcases (e.noted a).saved_launches (call.payload e.state) next with heq | ⟨o', x, rfl, heq⟩
      · rw [heq, e.noted_launches] at hl
        exact hi.launches l hl
      rw [heq, e.noted_launches, List.mem_cons] at hl
      rcases hl with rfl | hl
      · have hclear : x.ticket.id ∉ (e.noted a).started := hf.clear _ hsave.launched
        simp [Engine.launchOf, hclear]
      · exact hi.launches l hl

/-- **The barrier of a forced stop.** In every run (iterations, crashes, restarts, stops, commands)
    in which the branches that lose the barrier are not taken, no iteration that began after the
    stop launches the ticket as a bound execution, by an automatic resume or without authorization,
    until a retry of it is admitted. -/
theorem notBarred_of_keepsBarrier {e : Engine} (h : Run Engine.step KeepsBarrier {} e) :
    ∀ l ∈ e.launches, l.barred = true →
      l.bound = false ∧ l.authorization ≠ none ∧ l.authorization ≠ some .automaticResume := by
  have hstart : Barrier {} :=
    ⟨BarrierRecord.nil, by rintro o ⟨⟩, by rintro o ⟨⟩, trivial, by simp⟩
  have hi : Barrier e := h.invariant Barrier hstart fun e a e' hi hok hstep =>
    (Engine.step_moves hstep).barrier hok hi
  intro l hl hbarred
  rw [hi.launches l hl] at hbarred
  cases hbarred

end Barrier

/-! ### A stop that is dropped -/

section Deciding

variable [Project] [Sha256]

instance (e : Engine) (a : EngineAction) : Decidable (MarkerKept e a) :=
  have : ∀ stretch : Stretch, Decidable (match stretch with
      | .save call _ => (call.payload e.state).manualRetryRequired = e.state.manualRetryRequired
      | _ => True) := fun stretch => by cases stretch <;> infer_instance
  decidable_of_iff _ markerKept_iff.symm

instance (e : Engine) (a : EngineAction) : Decidable (NotResumed e a) := by
  unfold NotResumed
  split <;> infer_instance

instance (e : Engine) (a : EngineAction) : Decidable (StopsAlone e a) := by
  unfold StopsAlone
  split <;> infer_instance

instance (e : Engine) (a : EngineAction) : Decidable (NotRetried e a) := by
  unfold NotRetried
  infer_instance

instance (e : Engine) (a : EngineAction) : Decidable (KeepsBarrier e a) :=
  decidable_of_iff (MarkerKept e a ∧ NotResumed e a ∧ StopsAlone e a ∧ NotRetried e a)
    ⟨fun ⟨h₁, h₂, h₃, h₄⟩ => ⟨h₁, h₂, h₃, h₄⟩, fun ⟨h₁, h₂, h₃, h₄⟩ => ⟨h₁, h₂, h₃, h₄⟩⟩

end Deciding

/-- An iteration whose worker is running when the process is lost. -/
def workerLost (ids : Nat → String) : Observation :=
  { calm ids with worker := .ran (some ⟨ids 0, 7, 7, 7, "boot", 1, none⟩) {
      processReturncode := 1, transportError := none, claim := none, egressError := none } }

/-- A forced stop of a running worker, the loss of the process, and an iteration that normalises the
    execution and is stopped there; then two iterations. -/
def stoppedRunning : List EngineAction :=
  [.begin (workerLost fun n => if n = 0 then "e1" else "e2") {}, .advance, .advance,
    .forceStop "r1", .crash,
    .begin { calm (fun n => if n = 0 then "e3" else "e4") with stop := (· == .stranded) } {},
    .advance, .advance,
    .begin (calm fun n => if n = 0 then "e5" else "e6") {},
    .begin (calm fun n => if n = 0 then "e7" else "e8") {}]

theorem notBarred_stoppedRunning :
    ∃ e, exec sampleStep {} stoppedRunning = some e
      ∧ e.barred = ["t1"] ∧ e.launches.map (·.executionId) = ["e1"]
      ∧ ∀ l ∈ e.launches, l.barred = true →
        l.bound = false ∧ l.authorization ≠ none ∧ l.authorization ≠ some .automaticResume := by
  obtain ⟨e, hexec, hbarred, hlaunches⟩ : ∃ e, exec sampleStep {} stoppedRunning = some e
      ∧ e.barred = ["t1"] ∧ e.launches.map (·.executionId) = ["e1"] :=
    exists_exec_of_any (by decide)
  exact ⟨e, hexec, hbarred, hlaunches, @notBarred_of_keepsBarrier sampleProject sampleSha256 _
    (run_of_exec hexec (by decide))⟩

/-- **A stop that is dropped.** The forced stop finds the execution admitted and not launched; the
    next iteration finds no failure that fits the record, clears it, and launches the execution. -/
theorem stoppedPending_relaunched :
    ∃ e, exec sampleStep {}
        [.begin (calm fun n => if n = 0 then "e1" else "e2") {}, .forceStop "r1", .crash,
          .begin (calm fun n => if n = 0 then "e3" else "e4") {}, .advance, .advance, .advance]
        = some e
      ∧ e.launches.map (fun l => (l.ticketId, l.barred, l.bound, l.authorization))
        = [("t1", true, true, none)] :=
  exists_exec_of_any (by decide)

end Devlegate
