import Devlegate.EngineMoves
import Mathlib.Data.List.Nodup

namespace Devlegate

open Transition

/-!
# The identity of a launch

An execution identity is drawn from `new_execution_id`, waits in the durable state (as the pending
execution's, or as the fresh identity of an automatic retry), is launched, and must then never be
launched again.  The one way back is the automatic-retry record: it outlives the execution it
admitted.

* `Fresh`: `new_execution_id` returns values it has not returned before.
* `RetiresRetry`: no iteration plans for an automatic retry whose fresh identity was launched.
* `Identities`: the invariant; what waits was issued and not launched.
* `launches_nodup`: then no two launches share an identity.
* `sameIdentity_relaunched`: an automatic retry that is itself interrupted is launched twice.
-/

/-- The identities of the launches so far. -/
def Engine.launchedIds (e : Engine) : List String := e.launches.map (·.executionId)

/-- The answers an action brings. -/
def EngineAction.observation : EngineAction → Option Observation
  | .begin o _ | .resume o | .reconcileStranded o => some o
  | _ => none

/-- `new_execution_id` returns new values. -/
def Fresh (e : Engine) (a : EngineAction) : Prop :=
  ∀ o ∈ a.observation, o.newExecutionId 0 ∉ e.issued ∧ o.newExecutionId 1 ∉ e.issued
    ∧ o.newExecutionId 0 ≠ o.newExecutionId 1

/-- The identity was issued, was not launched and waits nowhere. -/
structure Engine.Unused (e : Engine) (id : String) : Prop where
  issued : id ∈ e.issued
  launched : id ∉ e.launchedIds
  pending : e.Holds → e.state.executionId ≠ some id
  retry : ∀ r, e.state.automaticRetry = some r → r.freshExecutionId ≠ some id

/-- The points at which the iteration has drawn no identity yet. -/
def Pc.isEarly : Pc → Bool
  | .strandedNoted _ _ _ | .strandedNormalised _ _ _ | .merging _ _ _ | .synchronized _ _
  | .discarded _ _ | .retrySkipped _ _ _ | .retryMoved _ _ _ _ | .unmarked _ _ _ _ _ => true
  | _ => false

/-- The authorization is by an automatic retry. -/
def isZeroDelta (authorization : Option ExecutionAuthorization) : Bool :=
  authorization.any (·.kind = .zeroDeltaProductDrift)

/-- The point carries an authorization by an automatic retry along. -/
def Pc.isZeroDelta (pc : Pc) : Bool :=
  pc.synced.any (fun y => Devlegate.isZeroDelta y.authorization)
    || match pc with
      | .retryMoved _ _ _ _ => true
      | .unmarked _ _ _ authorization _ => Devlegate.isZeroDelta authorization
      | _ => false

/-- **The invariant.** -/
structure Identities (e : Engine) : Prop where
  nodup : e.launchedIds.Nodup
  launched : ∀ id ∈ e.launchedIds, id ∈ e.issued
  pending : e.Holds → ∀ id, e.state.executionId = some id → id ∈ e.issued ∧ id ∉ e.launchedIds
  retryIssued : ∀ r id, e.state.automaticRetry = some r → r.freshExecutionId = some id →
    id ∈ e.issued
  waiting : ∀ r id, e.state.automaticRetry = some r → r.freshExecutionId = some id →
    r.status = .pendingAdmission →
      id ∉ e.launchedIds ∧ (e.Holds → e.state.executionId ≠ some id)
  undrawn : ∀ r, e.state.automaticRetry = some r → r.status = .pending → r.freshExecutionId = none
  zeroDelta : e.pc.isZeroDelta = true → ∀ r id, e.state.automaticRetry = some r →
    r.freshExecutionId = some id → id ∉ e.launchedIds
  unused : ∀ o, e.pc.observation = some o → e.Unused (o.newExecutionId 1)
    ∧ o.newExecutionId 0 ≠ o.newExecutionId 1
    ∧ (e.pc.isEarly = true → e.Unused (o.newExecutionId 0))

/-- The sources at which the iteration has drawn no identity yet. -/
def Source.isEarly : Source → Bool
  | .point pc => pc.isEarly
  | _ => true

/-- The stretch brings an authorization by an automatic retry along. -/
def Source.isZeroDelta : Source → Bool
  | .point pc => pc.isZeroDelta
  | _ => false

/-! ### What most saves keep -/

/-- From `e` to `e'` nothing is launched and nothing new waits. -/
structure NothingNew (e e' : Engine) : Prop where
  launches : e'.launches = e.launches
  issued : e.issued ⊆ e'.issued
  holds : e'.Holds → e.Holds ∧ e'.state.executionId = e.state.executionId
  retry : ∀ r', e'.state.automaticRetry = some r' → r'.freshExecutionId = none
    ∨ ∃ r, e.state.automaticRetry = some r ∧ r'.status = r.status
      ∧ r'.freshExecutionId = r.freshExecutionId

theorem NothingNew.launchedIds {e e' : Engine} (h : NothingNew e e') : e'.launchedIds = e.launchedIds := by
  rw [Engine.launchedIds, h.launches]
  rfl

theorem NothingNew.unused {e e' : Engine} {id : String} (h : NothingNew e e') (hid : e.Unused id) :
    e'.Unused id where
  issued := h.issued hid.issued
  launched := h.launchedIds ▸ hid.launched
  pending hholds := by
    obtain ⟨hbefore, heq⟩ := h.holds hholds
    exact heq ▸ hid.pending hbefore
  retry r' hr' := by
    rcases h.retry r' hr' with hnone | ⟨r, hr, -, heq⟩
    · simp [hnone]
    · exact heq ▸ hid.retry r hr

/-- The invariant after a quiet step, if the new point keeps it. -/
theorem NothingNew.identities {e e' : Engine} (h : NothingNew e e') (hi : Identities e)
    (hzero : e'.pc.isZeroDelta = true → ∀ r id, e.state.automaticRetry = some r →
      r.freshExecutionId = some id → id ∉ e.launchedIds)
    (hunused : ∀ o, e'.pc.observation = some o → e.Unused (o.newExecutionId 1)
      ∧ o.newExecutionId 0 ≠ o.newExecutionId 1
      ∧ (e'.pc.isEarly = true → e.Unused (o.newExecutionId 0))) : Identities e' where
  nodup := h.launchedIds ▸ hi.nodup
  launched := by
    rw [h.launchedIds]
    exact fun id hid => h.issued (hi.launched id hid)
  pending hholds id hid := by
    obtain ⟨hbefore, heq⟩ := h.holds hholds
    rw [heq] at hid
    obtain ⟨hissued, hlaunched⟩ := hi.pending hbefore id hid
    exact ⟨h.issued hissued, h.launchedIds ▸ hlaunched⟩
  retryIssued r' id hr' hid := by
    rcases h.retry r' hr' with hnone | ⟨r, hr, -, heq⟩
    · simp [hnone] at hid
    · exact h.issued (hi.retryIssued r id hr (heq ▸ hid))
  waiting r' id hr' hid hstatus := by
    rcases h.retry r' hr' with hnone | ⟨r, hr, hsame, heq⟩
    · simp [hnone] at hid
    · obtain ⟨hlaunched, hpending⟩ := hi.waiting r id hr (heq ▸ hid) (hsame ▸ hstatus)
      refine ⟨h.launchedIds ▸ hlaunched, fun hholds => ?_⟩
      obtain ⟨hbefore, hsameId⟩ := h.holds hholds
      exact hsameId ▸ hpending hbefore
  undrawn r' hr' hstatus := by
    rcases h.retry r' hr' with hnone | ⟨r, hr, hsame, heq⟩
    · exact hnone
    · exact heq ▸ hi.undrawn r hr (hsame ▸ hstatus)
  zeroDelta hpc r' id hr' hid := by
    rcases h.retry r' hr' with hnone | ⟨r, hr, -, heq⟩
    · simp [hnone] at hid
    · exact h.launchedIds ▸ hzero hpc r id hr (heq ▸ hid)
  unused o ho := by
    obtain ⟨hone, hne, hearly⟩ := hunused o ho
    exact ⟨h.unused hone, hne, fun hpc => h.unused (hearly hpc)⟩

section Identity

variable [Project]

/-- Where the action may plan, no automatic retry of an execution that was launched is due. -/
def RetiresRetry (e : Engine) (a : EngineAction) : Prop :=
  ∀ controlHead ∈ e.plansAt a, ∀ r ∈ e.state.automaticRetry, r.status = .admitted →
    (∃ id ∈ r.freshExecutionId, id ∈ e.launchedIds) →
      runsFreely e.state controlHead r.ticketId = false

instance (e : Engine) (a : EngineAction) : Decidable (RetiresRetry e a) := by
  unfold RetiresRetry
  infer_instance

instance (e : Engine) (a : EngineAction) : Decidable (Fresh e a) := by
  unfold Fresh
  infer_instance

variable {o : Observation} {s : RuntimeState} {src : Source} {y : Synced} {plan : ExecutionPlan}

omit [Project] in
theorem Source.Knows.isEarly (h : src.Knows o s y) : src.isEarly = true := by
  cases src with
  | point pc => cases pc <;> first | rfl | cases h
  | _ => rfl

theorem Authorizes.isEarly {authorization : Option ExecutionAuthorization}
    (h : Authorizes o s src y plan authorization) : src.isEarly = true := by
  cases h with
  | plain h => exact h.knows.isEarly
  | zeroDelta r h hr => exact h.knows.isEarly
  | skipped y plan => rfl
  | moved y plan ticketId => rfl

theorem Admits.isEarly {x : Execution} {retry : Option AutomaticRetry} (h : Admits o s src x retry) :
    src.isEarly = true := by
  cases h with
  | scheduled hsel hmarker hdec =>
    obtain ⟨plan₀, hauth, -⟩ := hsel.authorized
    exact hauth.isEarly
  | unmarked hdec => rfl

omit [Project] in
theorem Source.isEarly_of_mayStrand (h : src.mayStrand = true) : src.isEarly = true := by
  cases src with
  | point pc => cases pc <;> first | rfl | cases h
  | _ => rfl

/-! ### An authorization by an automatic retry is carried along -/

omit [Project] in
theorem isZeroDelta_initialAuthorization (intent : IterationIntent) (s : RuntimeState) :
    isZeroDelta (initialAuthorization intent s) = false := by
  unfold initialAuthorization IterationIntent.authorization
  cases intent.retryTicketId with
  | none => cases s.forceRetryAuthorization <;> rfl
  | some ticketId => cases intent.forceRetry <;> rfl

omit [Project] in
theorem Source.Knows.isZeroDelta (h : src.Knows o s y)
    (hzero : Devlegate.isZeroDelta y.authorization = true) : src.isZeroDelta = true := by
  cases src with
  | iteration intent =>
    have hauth : y.authorization = initialAuthorization intent s := h.1
    simp [hauth, isZeroDelta_initialAuthorization] at hzero
  | point pc =>
    by_cases hstranded : ∃ o authorization ticketId, pc = .strandedNormalised o authorization ticketId
    · obtain ⟨o', authorization, ticketId, rfl⟩ := hstranded
      have hauth : y.authorization = some ⟨ticketId, .automaticResume⟩ := h.2.2.1
      simp [hauth, Devlegate.isZeroDelta] at hzero
    · have hsynced : pc.synced = some y := by
        cases pc <;> first | exact h | exact absurd ⟨_, _, _, rfl⟩ hstranded
      simp [Source.isZeroDelta, Pc.isZeroDelta, hsynced, hzero]
  | resume r => exact h.elim
  | stranded => exact h.elim

theorem Authorizes.isZeroDelta {authorization : Option ExecutionAuthorization}
    (h : Authorizes o s src y plan authorization)
    (hzero : Devlegate.isZeroDelta authorization = true) :
    src.isZeroDelta = true ∨ ∃ r, src.Plans o s y plan ∧ ZeroDelta s plan r := by
  cases h with
  | plain h => exact .inl (h.knows.isZeroDelta hzero)
  | zeroDelta r h hr => exact .inr ⟨r, h, hr⟩
  | skipped y plan =>
    exact .inl (by simp [Source.isZeroDelta, Pc.isZeroDelta, Pc.synced, hzero])
  | moved y plan ticketId =>
    exact .inl (by simp [Source.isZeroDelta, Pc.isZeroDelta])

/-- The locals of the synchronisation are those the stretch knows. -/
theorem Authorizes.synced_isZeroDelta {authorization : Option ExecutionAuthorization}
    (h : Authorizes o s src y plan authorization)
    (hzero : Devlegate.isZeroDelta y.authorization = true) : src.isZeroDelta = true := by
  cases h with
  | plain h => exact h.knows.isZeroDelta hzero
  | zeroDelta r h hr => exact h.knows.isZeroDelta hzero
  | skipped y plan => simp [Source.isZeroDelta, Pc.isZeroDelta, Pc.synced, hzero]
  | moved y plan ticketId => simp [Source.isZeroDelta, Pc.isZeroDelta]

/-- The interruption of an execution authorizes an automatic resume only. -/
theorem isZeroDelta_of_interruption {authorization final : Option ExecutionAuthorization}
    {ticket : Ticket} {manualRetry : Option ManualRetry}
    (h : interruptionAuthorization y plan authorization ticket manualRetry s = some final)
    (hzero : isZeroDelta final = true) : isZeroDelta authorization = true := by
  unfold interruptionAuthorization at h
  split at h
  · split at h
    · split at h
      · cases h
        cases hzero
      · cases h
    · cases h
      cases hzero
  · cases h
    exact hzero

theorem Admits.isZeroDelta {x : Execution} {retry : Option AutomaticRetry}
    (h : Admits o s src x retry) (hzero : Devlegate.isZeroDelta x.authorization = true) :
    src.isZeroDelta = true ∨ ∃ y plan r, src.Plans o s y plan ∧ ZeroDelta s plan r := by
  cases h with
  | scheduled hsel hmarker hdec =>
    obtain ⟨plan₀, hauth, -⟩ := hsel.authorized
    rcases hauth.isZeroDelta (isZeroDelta_of_interruption hdec.interruption hzero) with
      hsrc | ⟨r, hplan, hr⟩
    · exact .inl hsrc
    · exact .inr ⟨_, _, r, hplan, hr⟩
  | unmarked hdec =>
    have hauth := isZeroDelta_of_interruption hdec.interruption hzero
    exact .inl (by simp [Source.isZeroDelta, Pc.isZeroDelta, hauth])

/-! ### The answers of an action are new -/

omit [Project] in
theorem Engine.issued_subset_noted (e : Engine) (a : EngineAction) :
    e.issued ⊆ (e.noted a).issued := by
  cases a <;> first | exact fun id hid => hid | skip
  all_goals exact fun id hid => List.mem_cons_of_mem _ (List.mem_cons_of_mem _ hid)

omit [Project] in
theorem NothingNew.noted (e : Engine) (a : EngineAction) : NothingNew e (e.noted a) where
  launches := e.noted_launches a
  issued := e.issued_subset_noted a
  holds h := ⟨(e.noted_holds a).mp h, by rw [e.noted_state]⟩
  retry r' hr' := .inr ⟨r', by rwa [e.noted_state] at hr', rfl, rfl⟩

omit [Project] in
theorem Identities.noted {e : Engine} (hi : Identities e) (a : EngineAction) :
    Identities (e.noted a) := by
  apply (NothingNew.noted e a).identities hi
  · rw [e.noted_pc]
    exact hi.zeroDelta
  · rw [e.noted_pc]
    exact hi.unused

omit [Project] in
/-- An identity that was not issued before waits nowhere. -/
theorem Identities.unused_of_fresh {e : Engine} {a : EngineAction} {id : String}
    (hi : Identities e) (hid : id ∉ e.issued) (hissued : id ∈ (e.noted a).issued) :
    (e.noted a).Unused id where
  issued := hissued
  launched hl := by
    rw [(NothingNew.noted e a).launchedIds] at hl
    exact hid (hi.launched id hl)
  pending hholds hpending := by
    rw [e.noted_state] at hpending
    exact hid (hi.pending ((e.noted_holds a).mp hholds) id hpending).1
  retry r hr hfresh := by
    rw [e.noted_state] at hr
    exact hid (hi.retryIssued r id hr hfresh)

omit [Project] in
/-- The identities a stretch may still draw are unused. -/
theorem Identities.source {e : Engine} {a : EngineAction} (hi : Identities e) (hfresh : Fresh e a)
    (hstart : Starts e a o src) :
    (e.noted a).Unused (o.newExecutionId 1) ∧ o.newExecutionId 0 ≠ o.newExecutionId 1
      ∧ (src.isEarly = true → (e.noted a).Unused (o.newExecutionId 0)) := by
  cases hstart with
  | «begin» o intent hready =>
    obtain ⟨hzero, hone, hne⟩ := hfresh o rfl
    refine ⟨hi.unused_of_fresh hone ?_, hne, fun _ => hi.unused_of_fresh hzero ?_⟩
    · exact List.mem_cons_of_mem _ List.mem_cons_self
    · exact List.mem_cons_self
  | advance hpc => exact hi.unused o hpc
  | resume o r hready hr hphase =>
    obtain ⟨hzero, hone, hne⟩ := hfresh o rfl
    refine ⟨hi.unused_of_fresh hone ?_, hne, fun _ => hi.unused_of_fresh hzero ?_⟩
    · exact List.mem_cons_of_mem _ List.mem_cons_self
    · exact List.mem_cons_self
  | stranded o hready hphase =>
    obtain ⟨hzero, hone, hne⟩ := hfresh o rfl
    refine ⟨hi.unused_of_fresh hone ?_, hne, fun _ => hi.unused_of_fresh hzero ?_⟩
    · exact List.mem_cons_of_mem _ List.mem_cons_self
    · exact List.mem_cons_self

/-! ### The saves -/

/-- The situation right before a save of a stretch from `src`. -/
structure Ready (e : Engine) (a : EngineAction) (o : Observation) (src : Source) : Prop where
  start : Starts e a o src
  identities : Identities (e.noted a)
  unused : (e.noted a).Unused (o.newExecutionId 1)
  distinct : o.newExecutionId 0 ≠ o.newExecutionId 1
  early : src.isEarly = true → (e.noted a).Unused (o.newExecutionId 0)

variable {e : Engine} {a : EngineAction} {s' : RuntimeState} {next : Pc}

omit [Project] in
/-- A quiet save keeps the invariant, if its point authorizes no launched identity. -/
theorem Ready.quiet (h : Ready e a o src)
    (hquiet : NothingNew (e.noted a) ((e.noted a).saved s' next))
    (hobs : ∀ o', next.observation = some o' → o' = o)
    (hearly : next.isEarly = true → src.isEarly = true)
    (hzero : next.isZeroDelta = true → ∀ r id, e.state.automaticRetry = some r →
      r.freshExecutionId = some id → id ∉ e.launchedIds) :
    Identities ((e.noted a).saved s' next) := by
  apply hquiet.identities h.identities
  · intro hpc r id hr hid
    rw [e.noted_state] at hr
    rw [(NothingNew.noted e a).launchedIds]
    exact hzero hpc r id hr hid
  · intro o' ho'
    obtain rfl := hobs o' ho'
    exact ⟨h.unused, h.distinct, fun hpc => h.early (hearly hpc)⟩

omit [Project] in
/-- A save that leaves no pending execution. -/
theorem NothingNew.of_released (hphase : s'.phase ≠ .agentPending) (hsynced : next.synced = none)
    (hadmitted : ∀ o x, next ≠ .admitted o x) (hlaunched : ∀ o x, next ≠ .launched o x)
    (hretry : ∀ r', s'.automaticRetry = some r' → r'.freshExecutionId = none
      ∨ ∃ r, e.state.automaticRetry = some r ∧ r'.status = r.status
        ∧ r'.freshExecutionId = r.freshExecutionId) :
    NothingNew (e.noted a) ((e.noted a).saved s' next) where
  launches := by
    rcases (e.noted a).saved_launches s' next with heq | ⟨o, x, hnext, -⟩
    · exact heq
    · exact absurd hnext (hlaunched o x)
  issued := fun id hid => hid
  holds h := by
    rcases h with hp | ⟨o, x, hpc⟩ | ⟨y, hy, -⟩
    · exact absurd hp hphase
    · exact absurd hpc (hadmitted o x)
    · have hnone : next.synced = some y := hy
      rw [hsynced] at hnone
      cases hnone
  retry r' hr' := by
    rw [e.noted_state]
    exact hretry r' hr'

omit [Project] in
/-- A save that carries the locals of the synchronisation along. -/
theorem NothingNew.of_synced (hnext : next.synced = some y)
    (hholds : y.pendingAgentExecution = true → e.Holds)
    (hphase : s'.phase = .agentPending → y.pendingAgentExecution = true)
    (hid : s'.executionId = e.state.executionId)
    (hretry : ∀ r', s'.automaticRetry = some r' → r'.freshExecutionId = none
      ∨ ∃ r, e.state.automaticRetry = some r ∧ r'.status = r.status
        ∧ r'.freshExecutionId = r.freshExecutionId) :
    NothingNew (e.noted a) ((e.noted a).saved s' next) where
  launches := by
    rcases (e.noted a).saved_launches s' next with heq | ⟨o, x, rfl, -⟩
    · exact heq
    · cases hnext
  issued := fun id hid => hid
  holds h := by
    refine ⟨(e.noted_holds a).mpr ?_, by rw [e.noted_state]; exact hid⟩
    rcases h with hp | ⟨o, x, hpc⟩ | ⟨y', hy', hpending⟩
    · exact hholds (hphase hp)
    · have hadmitted : next = .admitted o x := hpc
      rw [hadmitted] at hnext
      cases hnext
    · have hsame : next.synced = some y' := hy'
      rw [hnext] at hsame
      cases hsame
      exact hholds hpending
  retry r' hr' := by
    rw [e.noted_state]
    exact hretry r' hr'

/-- The locals, the bound or fresh identity and the retry record of an admission. -/
theorem Admits.decides {x : Execution} {retry : Option AutomaticRetry}
    (h : Admits o s src x retry) : ∃ plan authorization manualRetry,
      Decides o x.synced plan authorization manualRetry s x retry := by
  cases h with
  | scheduled hsel hmarker hdec => exact ⟨_, _, _, hdec.synced ▸ hdec⟩
  | unmarked hdec => exact ⟨_, _, _, hdec.synced ▸ hdec⟩

/-- **The identity of an admission** was issued and not launched, is not the one kept for later,
    and is not the fresh identity of an automatic retry that still waits. -/
theorem Ready.admitted_id {x : Execution} {retry : Option AutomaticRetry} (h : Ready e a o src)
    (hx : Admits o e.state src x retry)
    (hzero : isZeroDelta x.authorization = true → ∀ r id, e.state.automaticRetry = some r →
      r.freshExecutionId = some id → id ∉ e.launchedIds) :
    x.executionId ∈ (e.noted a).issued ∧ x.executionId ∉ (e.noted a).launchedIds
      ∧ x.executionId ≠ o.newExecutionId 1
      ∧ (isZeroDelta x.authorization = false → ∀ r, e.state.automaticRetry = some r →
        r.status = .pendingAdmission → r.freshExecutionId ≠ some x.executionId) := by
  obtain ⟨plan, authorization, manualRetry, hdec⟩ := hx.decides
  have hnew := h.early hx.isEarly
  have hstate := e.noted_state a
  cases hpending : x.synced.pendingAgentExecution with
  | true =>
    -- a bound execution keeps the identity it waits with
    have hholds := (e.noted_holds a).mpr (hx.holds h.start hpending)
    have hid : (e.noted a).state.executionId = some x.executionId := by
      rw [hstate]
      exact hdec.boundId hpending
    obtain ⟨hissued, hlaunched⟩ := h.identities.pending hholds _ hid
    refine ⟨hissued, hlaunched, ?_, ?_⟩
    · intro heq
      exact h.unused.pending hholds (heq ▸ hid)
    · intro _ r hr hstatus hfresh
      exact (h.identities.waiting r _ (hstate ▸ hr) hfresh hstatus).2 hholds hid
  | false =>
    have hid := hdec.freshId hpending
    cases hz : isZeroDelta x.authorization with
    | false =>
      have hany : x.authorization.any (·.kind = .zeroDeltaProductDrift) = false := hz
      simp only [hany, Bool.false_eq_true, if_false, textOr] at hid
      rw [hid]
      refine ⟨hnew.issued, hnew.launched, h.distinct, ?_⟩
      intro _ r hr _
      exact hnew.retry r (hstate ▸ hr)
    | true =>
      have hany : x.authorization.any (·.kind = .zeroDeltaProductDrift) = true := hz
      simp only [hany, if_true] at hid
      -- the identity reserved by the automatic retry, or a new one
      have hcases : x.executionId = o.newExecutionId 0 ∨ ∃ r, e.state.automaticRetry = some r
          ∧ r.freshExecutionId = some x.executionId := by
        cases hr : e.state.automaticRetry with
        | none => exact .inl (by simpa [hr, textOr] using hid)
        | some r =>
          cases hf : r.freshExecutionId with
          | none => exact .inl (by simpa [hr, hf, textOr] using hid)
          | some f =>
            simp only [hr, hf, Option.bind_some, textOr] at hid
            split at hid
            · exact .inl hid
            · exact .inr ⟨r, rfl, by rw [hf, hid]⟩
      rcases hcases with heq | ⟨r, hr, hf⟩
      · rw [heq]
        exact ⟨hnew.issued, hnew.launched, h.distinct, by simp⟩
      · refine ⟨h.identities.retryIssued r _ (hstate ▸ hr) hf, ?_, ?_, by simp⟩
        · rw [(NothingNew.noted e a).launchedIds]
          exact hzero hz r _ hr hf
        · intro heq
          exact h.unused.retry r (hstate ▸ hr) (heq ▸ hf)

/-- An admission keeps the invariant. -/
theorem Ready.admission {x : Execution} {retry : Option AutomaticRetry}
    {baseHead controlHead remoteHead : Option String} (h : Ready e a o src)
    (hx : Admits o e.state src x retry)
    (hzero : isZeroDelta x.authorization = true → ∀ r id, e.state.automaticRetry = some r →
      r.freshExecutionId = some id → id ∉ e.launchedIds) :
    Identities ((e.noted a).saved
      ((Call.admission x baseHead controlHead remoteHead retry).payload e.state)
      (.admitted o x)) := by
  obtain ⟨hissued, hlaunched, hone, hwaiting⟩ := h.admitted_id hx hzero
  obtain ⟨plan, authorization, manualRetry, hdec⟩ := hx.decides
  have hstate := e.noted_state a
  have hi := h.identities
  -- the retry record is the old one, or the admitted one with the identity of the admission
  have hretry : (isZeroDelta x.authorization = false ∧ retry = e.state.automaticRetry)
      ∨ ∀ r, retry = some r → r.status = .admitted ∧ r.freshExecutionId = some x.executionId := by
    have heq := hdec.retry_eq
    cases hz : isZeroDelta x.authorization with
    | false =>
      have hany : x.authorization.any (·.kind = .zeroDeltaProductDrift) = false := hz
      exact .inl ⟨rfl, by simpa [hany] using heq⟩
    | true =>
      have hany : x.authorization.any (·.kind = .zeroDeltaProductDrift) = true := hz
      rw [if_pos hany] at heq
      refine .inr fun r hr => ?_
      rw [heq] at hr
      obtain ⟨r₀, -, rfl⟩ := Option.map_eq_some_iff.mp hr
      exact ⟨rfl, rfl⟩
  exact {
    nodup := hi.nodup
    launched := hi.launched
    pending := by
      rintro - id ⟨⟩
      exact ⟨hissued, hlaunched⟩
    retryIssued := by
      intro r id hr hid
      rcases hretry with ⟨-, heq⟩ | hadmitted
      · exact hi.retryIssued r id (by rw [hstate, ← heq]; exact hr) hid
      · obtain rfl : x.executionId = id := Option.some.inj ((hadmitted r hr).2.symm.trans hid)
        exact hissued
    waiting := by
      intro r id hr hid hstatus
      rcases hretry with ⟨hz, heq⟩ | hadmitted
      · have hold : e.state.automaticRetry = some r := heq ▸ hr
        refine ⟨(hi.waiting r id (hstate ▸ hold) hid hstatus).1, ?_⟩
        rintro - ⟨⟩
        exact hwaiting hz r hold hstatus hid
      · rw [(hadmitted r hr).1] at hstatus
        cases hstatus
    undrawn := by
      intro r hr hstatus
      rcases hretry with ⟨hz, heq⟩ | hadmitted
      · exact hi.undrawn r (by rw [hstate, ← heq]; exact hr) hstatus
      · rw [(hadmitted r hr).1] at hstatus
        cases hstatus
    zeroDelta := by
      rintro ⟨⟩
    unused := by
      rintro o' ⟨⟩
      refine ⟨⟨h.unused.issued, h.unused.launched, ?_, ?_⟩, h.distinct, ?_⟩
      · rintro - heq
        exact hone (Option.some.inj heq)
      · intro r hr hid
        rcases hretry with ⟨-, heq⟩ | hadmitted
        · exact h.unused.retry r (by rw [hstate, ← heq]; exact hr) hid
        · exact hone (Option.some.inj ((hadmitted r hr).2.symm.trans hid))
      · rintro ⟨⟩ }

omit [Project] in
/-- A launch keeps the invariant: its identity was waiting. -/
theorem Identities.launch {x : Execution} (hi : Identities e) (hpc : e.pc = .admitted o x)
    (hid : e.state.executionId = some x.executionId) (hphase : s'.phase = .agentRunning)
    (hretry : s'.automaticRetry = e.state.automaticRetry) :
    Identities (e.saved s' (.launched o x)) := by
  have hholds : e.Holds := .inr (.inl ⟨o, x, hpc⟩)
  obtain ⟨hissued, hlaunched⟩ := hi.pending hholds _ hid
  obtain ⟨hone, hne, -⟩ := hi.unused o (by rw [hpc]; rfl)
  have hids : (e.saved s' (.launched o x)).launchedIds = x.executionId :: e.launchedIds := rfl
  -- a launched execution is running, so its identity does not wait any more
  have hreleased : ¬ (e.saved s' (.launched o x)).Holds := by
    rintro (hp | ⟨o', x', hpc'⟩ | ⟨y', hy', -⟩)
    · have hp' : s'.phase = .agentPending := hp
      rw [hphase] at hp'
      cases hp'
    · cases hpc'
    · cases hy'
  have hnotLaunched : ∀ id, id ∉ e.launchedIds → e.state.executionId ≠ some id →
      id ∉ (e.saved s' (.launched o x)).launchedIds := by
    intro id hid' hne' hmem
    rw [hids, List.mem_cons] at hmem
    rcases hmem with rfl | hmem
    · exact hne' hid
    · exact hid' hmem
  exact {
    nodup := hids ▸ List.nodup_cons.mpr ⟨hlaunched, hi.nodup⟩
    launched := by
      intro id hmem
      rw [hids, List.mem_cons] at hmem
      rcases hmem with rfl | hmem
      · exact hissued
      · exact hi.launched id hmem
    pending := fun h => absurd h hreleased
    retryIssued := fun r id hr hf => hi.retryIssued r id (hretry ▸ hr) hf
    waiting := by
      intro r id hr hf hstatus
      obtain ⟨hnot, hpending⟩ := hi.waiting r id (hretry ▸ hr) hf hstatus
      exact ⟨hnotLaunched id hnot (hpending hholds), fun h => absurd h hreleased⟩
    undrawn := fun r hr => hi.undrawn r (hretry ▸ hr)
    zeroDelta := by
      rintro ⟨⟩
    unused := by
      rintro o' ⟨⟩
      refine ⟨⟨hone.issued, ?_, fun h => absurd h hreleased, ?_⟩, hne, ?_⟩
      · exact hnotLaunched _ hone.launched (hone.pending hholds)
      · exact fun r hr => hone.retry r (hretry ▸ hr)
      · rintro ⟨⟩ }

omit [Project] in
/-- A new automatic retry takes the identity that was kept for it. -/
theorem Ready.nextRetry {r : AutomaticRetry} (h : Ready e a o src) (hphase : s'.phase = .idle)
    (hr : s'.automaticRetry = some r) (hfresh : r.freshExecutionId = some (o.newExecutionId 1))
    (hstatus : r.status = .pendingAdmission) : Identities ((e.noted a).saved s' .ready) := by
  have hreleased : ¬ ((e.noted a).saved s' .ready).Holds := by
    rintro (hp | ⟨o', x', hpc'⟩ | ⟨y', hy', -⟩)
    · have hp' : s'.phase = .agentPending := hp
      rw [hphase] at hp'
      cases hp'
    · cases hpc'
    · cases hy'
  have honly : ∀ r' id, s'.automaticRetry = some r' → r'.freshExecutionId = some id →
      id = o.newExecutionId 1 := by
    intro r' id hr' hid
    rw [hr] at hr'
    cases hr'
    rw [hfresh] at hid
    exact (Option.some.inj hid).symm
  exact {
    nodup := h.identities.nodup
    launched := h.identities.launched
    pending := fun hholds => absurd hholds hreleased
    retryIssued := fun r' id hr' hid => honly r' id hr' hid ▸ h.unused.issued
    waiting := fun r' id hr' hid _ =>
      ⟨honly r' id hr' hid ▸ h.unused.launched, fun hholds => absurd hholds hreleased⟩
    undrawn := by
      intro r' hr' hpending
      have hsame : some r = some r' := hr.symm.trans hr'
      cases hsame
      rw [hstatus] at hpending
      cases hpending
    zeroDelta := by
      rintro ⟨⟩
    unused := by
      rintro o' ⟨⟩ }

omit [Project] in
theorem Pc.released_of_isProgress (h : next.isProgress = true) :
    next.synced = none ∧ (∀ o x, next ≠ .admitted o x) ∧ (∀ o x, next ≠ .launched o x)
      ∧ next.isZeroDelta = false := by
  cases next <;> first | (cases h; done) | exact ⟨rfl, by simp, by simp, rfl⟩

omit [Project] in
theorem Pc.isEarly_of_isProgress (h : next.isProgress = true) (hearly : next.isEarly = true) :
    ∃ o authorization kind, next = .strandedNoted o authorization kind := by
  cases next <;> first | (cases h; done) | (cases hearly; done) | exact ⟨_, _, _, rfl⟩

omit [Project] in
/-- The retry record is left alone. -/
theorem sameRetry (h : s'.automaticRetry = s.automaticRetry) :
    ∀ r', s'.automaticRetry = some r' → r'.freshExecutionId = none
      ∨ ∃ r, s.automaticRetry = some r ∧ r'.status = r.status
        ∧ r'.freshExecutionId = r.freshExecutionId :=
  fun r' hr' => .inr ⟨r', h ▸ hr', rfl, rfl⟩

/-- **One save** keeps the invariant, unless it is authorized by an automatic retry whose identity
    was launched. -/
theorem Ready.saves {call : SaveCall} (h : Ready e a o src) (hsave : Saves o e.state src call next)
    (hagrees : e.pc.Agrees e.state)
    (hsrc : src.isZeroDelta = true → ∀ r id, e.state.automaticRetry = some r →
      r.freshExecutionId = some id → id ∉ e.launchedIds)
    (hplanned : ∀ y plan r, src.Plans o e.state y plan → ZeroDelta e.state plan r →
      ∀ id, r.freshExecutionId = some id → id ∉ e.launchedIds) :
    Identities ((e.noted a).saved (call.payload e.state) next) := by
  -- an idle save between two iterations, or a save of a running execution
  have hreleased : ∀ {call' : SaveCall} {next' : Pc},
      (call'.payload e.state).phase ≠ .agentPending → next'.synced = none →
      (∀ o x, next' ≠ .admitted o x) → (∀ o x, next' ≠ .launched o x) →
      next'.isZeroDelta = false → (∀ o', next'.observation = some o' → o' = o) →
      (next'.isEarly = true → src.isEarly = true) →
      (∀ r', (call'.payload e.state).automaticRetry = some r' → r'.freshExecutionId = none
        ∨ ∃ r, e.state.automaticRetry = some r ∧ r'.status = r.status
          ∧ r'.freshExecutionId = r.freshExecutionId) →
      Identities ((e.noted a).saved (call'.payload e.state) next') := by
    intro call' next' hphase hsynced hadmitted hlaunched hzero hobs hearly hretry
    apply h.quiet (NothingNew.of_released hphase hsynced hadmitted hlaunched hretry) hobs hearly
    intro htrue
    rw [hzero] at htrue
    cases htrue
  have hnewZero : ∀ y plan r, src.Plans o e.state y plan → ZeroDelta e.state plan r →
      ∀ r' id, e.state.automaticRetry = some r' → r'.freshExecutionId = some id →
        id ∉ e.launchedIds := by
    intro y plan r hplan hr r' id hr' hid
    rw [hr.retry] at hr'
    cases hr'
    exact hplanned y plan r hplan hr id hid
  cases hsave with
  | merge y₀ y resumed hk =>
    refine h.quiet (NothingNew.of_synced rfl (hk.holds h.start) (by rintro ⟨⟩) rfl (sameRetry rfl))
      (by rintro o' ⟨⟩; rfl) (fun _ => hk.isEarly) ?_
    intro hzero
    exact hsrc (hk.isZeroDelta (by simpa [Pc.isZeroDelta, Pc.synced] using hzero))
  | synced y hk =>
    have hpayload : ∀ p : Phase, ((Call.sync p y).payload e.state).phase = p
        ∧ ((Call.sync p y).payload e.state).executionId = e.state.executionId
        ∧ ((Call.sync p y).payload e.state).automaticRetry = e.state.automaticRetry := by
      intro p
      cases p <;> exact ⟨rfl, rfl, rfl⟩
    obtain ⟨hphase, hid, hretry⟩ := hpayload (if y.pendingAgentExecution then .agentPending else .idle)
    refine h.quiet (NothingNew.of_synced rfl (hk.holds h.start) ?_ hid (sameRetry hretry))
      (by rintro o' ⟨⟩; rfl) (fun _ => hk.isEarly) ?_
    · rw [hphase]
      cases y.pendingAgentExecution <;> simp
    · intro hzero
      exact hsrc (hk.isZeroDelta (by simpa [Pc.isZeroDelta, Pc.synced] using hzero))
  | merged y =>
    have hk : Source.Knows o e.state (.point (.merging o y false)) y := rfl
    refine h.quiet (NothingNew.of_synced rfl (hk.holds h.start) (by rintro ⟨⟩) rfl (sameRetry rfl))
      (by rintro o' ⟨⟩; rfl) (fun _ => hk.isEarly) ?_
    intro hzero
    exact hsrc (hk.isZeroDelta (by simpa [Pc.isZeroDelta, Pc.synced] using hzero))
  | discarded y r hk hr =>
    refine h.quiet (NothingNew.of_synced rfl (hk.holds h.start) (by rintro ⟨⟩) rfl (by rintro r' ⟨⟩))
      (by rintro o' ⟨⟩; rfl) (fun _ => hk.isEarly) ?_
    intro hzero
    exact hsrc (hk.isZeroDelta (by simpa [Pc.isZeroDelta, Pc.synced] using hzero))
  | retrySkipped y plan r hplan hr =>
    refine h.quiet (NothingNew.of_synced rfl (hplan.knows.holds h.start) (by rintro ⟨⟩) rfl
      (by rintro r' ⟨⟩)) (by rintro o' ⟨⟩; rfl) (fun _ => hplan.knows.isEarly) ?_
    intro hzero
    exact hsrc (hplan.knows.isZeroDelta (by simpa [Pc.isZeroDelta, Pc.synced] using hzero))
  | retryMoved y plan r hplan hr =>
    refine h.quiet (NothingNew.of_synced rfl (hplan.knows.holds h.start) (by rintro ⟨⟩) rfl ?_)
      (by rintro o' ⟨⟩; rfl) (fun _ => hplan.knows.isEarly) fun _ => hnewZero y plan r hplan hr
    rintro r' ⟨⟩
    exact .inr ⟨r, hr.retry, rfl, rfl⟩
  | unmark y plan authorization ticket hsel hmarker =>
    obtain ⟨plan₀, hauth, -⟩ := hsel.authorized
    refine h.quiet (NothingNew.of_synced rfl (hauth.holds h.start) (by rintro ⟨⟩) rfl (sameRetry rfl))
      (by rintro o' ⟨⟩; rfl) (fun _ => hauth.isEarly) ?_
    intro hzero
    simp only [Pc.isZeroDelta, Pc.synced, Option.any_some, Bool.or_eq_true] at hzero
    rcases hzero with hy | hz
    · exact hsrc (hauth.synced_isZeroDelta hy)
    · rcases hauth.isZeroDelta hz with hs | ⟨r, hplan, hr⟩
      · exact hsrc hs
      · exact hnewZero _ _ r hplan hr
  | admission x baseHead controlHead remoteHead retry hx =>
    apply h.admission hx
    intro hz
    rcases hx.isZeroDelta hz with hs | ⟨y, plan, r, hplan, hr⟩
    · exact hsrc hs
    · exact hnewZero _ _ r hplan hr
  | launch x startHead baseHead hgate =>
    obtain ⟨hpoint, -⟩ := h.start.execution rfl
    have hpc : e.pc = .admitted o x := (Source.point.inj hpoint).symm
    have hid : e.state.executionId = some x.executionId := by
      rw [hpc] at hagrees
      exact hagrees.2
    rw [← e.noted_pc a] at hpc
    exact h.identities.launch hpc (by rw [e.noted_state]; exact hid) rfl
      (by rw [e.noted_state]; rfl)
  | progress hcall hnext =>
    obtain ⟨stage, identity, kind, report, hpayload⟩ := hcall.payload e.state
    obtain ⟨hsynced, hadmitted, hlaunched, hzero⟩ := Pc.released_of_isProgress hnext.progress
    refine hreleased (by rw [hpayload]; simp) hsynced hadmitted hlaunched hzero ?_ ?_
      (sameRetry (by rw [hpayload]))
    · intro o' ho'
      exact Option.some.inj (ho'.symm.trans hnext.observation)
    · intro hearly
      obtain ⟨o', authorization, kind, rfl⟩ := Pc.isEarly_of_isProgress hnext.progress hearly
      exact Source.isEarly_of_mayStrand (hnext.stranded _ _ _ rfl).1
  | zeroDelta report retry hreport hretry hnext =>
    have hnone : ∀ r', ((Call.zeroDelta report retry).payload e.state).automaticRetry = some r' →
        r'.freshExecutionId = none ∨ ∃ r, e.state.automaticRetry = some r ∧ r'.status = r.status
          ∧ r'.freshExecutionId = r.freshExecutionId := by
      rintro r' ⟨⟩
      exact .inl hretry.2
    obtain rfl | ⟨caller, rfl⟩ := hnext
    · exact hreleased (by rintro ⟨⟩) rfl (by simp) (by simp) rfl (by rintro o' ⟨⟩; rfl)
        (by rintro ⟨⟩) hnone
    · exact hreleased (by rintro ⟨⟩) rfl (by simp) (by simp) rfl (by rintro o' ⟨⟩; rfl)
        (by rintro ⟨⟩) hnone
  | finalize report controlHead productHead productRemoteHead update hreport hupdate hnext =>
    obtain ⟨hphase, hretry⟩ := finalize_phase_retry (s := e.state) report controlHead productHead
      productRemoteHead update
    cases hupdate with
    | keep hlifecycle =>
      have hkept : ∀ r', ((finalizeExecutionLifecycle report controlHead productHead
          productRemoteHead .keep e.state).payload e.state).automaticRetry = some r' →
          r'.freshExecutionId = none ∨ ∃ r, e.state.automaticRetry = some r
            ∧ r'.status = r.status ∧ r'.freshExecutionId = r.freshExecutionId := by
        intro r' hr'
        rw [hretry] at hr'
        exact .inr ⟨r', (Option.filter_eq_some_iff.mp hr').1, rfl, rfl⟩
      obtain rfl | ⟨-, r, rfl⟩ := hnext
      · exact hreleased (by rw [hphase]; simp) rfl (by simp) (by simp) rfl (by rintro o' ⟨⟩)
          (by rintro ⟨⟩) hkept
      · exact hreleased (by rw [hphase]; simp) rfl (by simp) (by simp) rfl (by rintro o' ⟨⟩; rfl)
          (by rintro ⟨⟩) hkept
    | next r productHead' hr hpending =>
      obtain rfl | ⟨hkeep, -⟩ := hnext
      · have hundrawn : r.freshExecutionId = none :=
          h.identities.undrawn r (by rw [e.noted_state]; exact hr) hpending
        exact h.nextRetry hphase hretry (by simp [hundrawn, textOr]) rfl
      · cases hkeep
    | giveUp r =>
      obtain rfl | ⟨hkeep, -⟩ := hnext
      · refine hreleased (by rw [hphase]; simp) rfl (by simp) (by simp) rfl (by rintro o' ⟨⟩)
          (by rintro ⟨⟩) ?_
        rw [hretry]
        rintro r' ⟨⟩
      · cases hkeep
  | recovered remoteHead hphase =>
    refine h.quiet ⟨rfl, fun id hid => hid, ?_, ?_⟩ (by rintro o' ⟨⟩) (by rintro ⟨⟩) (by rintro ⟨⟩)
    · intro _
      exact ⟨(e.noted_holds a).mpr (.inl hphase), by rw [e.noted_state]; rfl⟩
    · rw [e.noted_state]
      exact sameRetry rfl
  | normalised controlHead ticketId executionId kind failed hstrand hticket hid hfailed =>
    exact hreleased (by rintro ⟨⟩) rfl (by simp) (by simp) rfl (by rintro o' ⟨⟩; rfl)
      (fun _ => Source.isEarly_of_mayStrand hstrand) (sameRetry rfl)
  | integrate accepted remoteHead =>
    exact hreleased (by rintro ⟨⟩) rfl (by simp) (by simp) rfl (by rintro o' ⟨⟩; rfl)
      (by rintro ⟨⟩) (sameRetry rfl)
  | reconciliation r ticket hr hticket hunresolved =>
    exact hreleased (by rintro ⟨⟩) rfl (by simp) (by simp) rfl (by rintro o' ⟨⟩; rfl)
      (by rintro ⟨⟩) (sameRetry rfl)
  | resume r ticket report hreport =>
    exact hreleased (by rintro ⟨⟩) rfl (by simp) (by simp) rfl (by rintro o' ⟨⟩; rfl)
      (by rintro ⟨⟩) (sameRetry rfl)
  | _ =>
    exact hreleased (by rintro ⟨⟩) rfl (by simp) (by simp) rfl (by rintro o' ⟨⟩) (by rintro ⟨⟩)
      (sameRetry rfl)

/-! ### Every run -/

omit [Project] in
/-- The saves between two iterations touch neither the pending identity nor the retry record. -/
theorem Records.retry_pending [Project] {call : SaveCall} (h : Records s a call) :
    (call.payload s).automaticRetry = s.automaticRetry
      ∧ ((call.payload s).phase = .agentPending →
        s.phase = .agentPending ∧ (call.payload s).executionId = s.executionId) := by
  have hreceipt : ∀ requestId receipt lift recovery resolving,
      ((Call.receipt s.phase requestId receipt lift recovery resolving).payload s).automaticRetry
        = s.automaticRetry
      ∧ (((Call.receipt s.phase requestId receipt lift recovery resolving).payload s).phase
        = .agentPending → s.phase = .agentPending
          ∧ ((Call.receipt s.phase requestId receipt lift recovery resolving).payload s).executionId
            = s.executionId) := by
    intro requestId receipt lift recovery resolving
    obtain ⟨hphase, hid, -, hretry, -, -⟩ :=
      receipt_payload s requestId receipt lift recovery resolving
    exact ⟨hretry, fun hp => ⟨hphase ▸ hp, hid⟩⟩
  cases h with
  | retry ticketId requestId fingerprint receipt hadmissible => exact hreceipt _ _ _ _ _
  | receipt requestId receipt recovery resolving ha hresolving => exact hreceipt _ _ _ _ _
  | forceRetry ticketId requestId fingerprint executionId controlHead checkpoint hid hphase hticket =>
    exact ⟨rfl, by rintro ⟨⟩⟩
  | drop ticketId executionId hphase => exact ⟨rfl, by rintro ⟨⟩⟩
  | rewrite save r hr hpending hphase =>
    cases save <;> exact ⟨rfl, by rintro ⟨⟩⟩
  | interrupted worktreeHead ticketId executionId hticket hid hphase hstage =>
    exact ⟨rfl, by rintro ⟨⟩⟩

omit [Project] in
theorem Pc.draining_isEarly (pc : Pc) : pc.draining.isEarly = pc.isEarly := by
  cases pc <;> rfl

omit [Project] in
theorem Pc.draining_isZeroDelta (pc : Pc) : pc.draining.isZeroDelta = pc.isZeroDelta := by
  cases pc <;> rfl

/-- One step with new identities and no plan for a launched automatic retry. -/
theorem Moves.identities [Sha256] {e' : Engine} (h : Moves e a e') (hfresh : Fresh e a)
    (hretires : RetiresRetry e a) (hagrees : e.pc.Agrees e.state) (hi : Identities e) :
    Identities e' := by
  cases h with
  | stop a =>
    have hquiet : NothingNew (e.noted a) { e.noted a with pc := .ready } := by
      refine ⟨rfl, fun id hid => hid, ?_, fun r' hr' => .inr ⟨r', hr', rfl, rfl⟩⟩
      rintro (hp | ⟨o, x, hpc⟩ | ⟨y, hy, -⟩)
      · exact ⟨.inl hp, rfl⟩
      · cases hpc
      · cases hy
    exact hquiet.identities (hi.noted a) (by rintro ⟨⟩) (by rintro o ⟨⟩)
  | forced requestId marker hmarker =>
    have hquiet : NothingNew e { e with
        state := { e.state with manualRetryRequired := some marker }
        pc := e.pc.draining
        barred := marker.ticketId :: e.barred } :=
      ⟨rfl, fun id hid => hid, fun hholds => ⟨Engine.holds_of_draining hholds, rfl⟩, sameRetry rfl⟩
    refine hquiet.identities hi ?_ ?_
    · show e.pc.draining.isZeroDelta = true → _
      rw [Pc.draining_isZeroDelta]
      exact hi.zeroDelta
    · intro o ho
      obtain ⟨o', ho', rfl⟩ : ∃ o', e.pc.observation = some o' ∧ o'.draining = o := by
        simpa using ho
      obtain ⟨hone, hne, hearly⟩ := hi.unused o' ho'
      refine ⟨hone, hne, ?_⟩
      show e.pc.draining.isEarly = true → _
      rw [Pc.draining_isEarly]
      exact hearly
  | record hready hcall hvalid =>
    obtain ⟨hretry, hpending⟩ := hcall.retry_pending
    refine @NothingNew.identities e _ ⟨rfl, fun id hid => hid, ?_, ?_⟩ hi hi.zeroDelta hi.unused
    · -- a command makes no execution pending that was not
      rintro (hp | ⟨o, x, hpc⟩ | ⟨y, hy, -⟩)
      · exact ⟨.inl (hpending hp).1, (hpending hp).2⟩
      · have hpc' : e.pc = .admitted o x := hpc
        rw [hready] at hpc'
        cases hpc'
      · have hy' : e.pc.synced = some y := hy
        rw [hready] at hy'
        cases hy'
    · exact sameRetry hretry
  | @save a o src call next hstart hstretch hsave hvalid =>
    obtain ⟨hone, hne, hearly⟩ := hi.source hfresh hstart
    have hready : Ready e a o src := ⟨hstart, hi.noted a, hone, hne, hearly⟩
    apply hready.saves hsave hagrees
    · intro hz
      cases hstart with
      | advance hpc => exact hi.zeroDelta hz
      | _ => cases hz
    · intro y plan r hplan hr id hid hlaunched
      obtain ⟨hat, hruns⟩ := hr.runsFreely hstart hplan
      have hlive := hr.live
      simp only [AutomaticRetry.isLive, Bool.or_eq_true, decide_eq_true_eq] at hlive
      -- the identity of a waiting retry is new; that of an admitted one was not launched, as the
      -- iteration plans for it
      rcases hlive with hstatus | hstatus
      · exact (hi.waiting r id hr.retry hid hstatus).1 hlaunched
      · have hnot := hretires _ hat r hr.retry hstatus ⟨id, hid, hlaunched⟩
        rw [hruns] at hnot
        cases hnot

/-- **The identity of a launch.** In every run (iterations, crashes, restarts, stops, retries,
    automatic retries) in which `new_execution_id` returns new values and no iteration plans for an
    automatic retry whose identity was launched, no two launches share an execution identity. -/
theorem launches_nodup [Sha256] {e : Engine}
    (h : Run Engine.step (fun e a => Fresh e a ∧ RetiresRetry e a) {} e) :
    (e.launches.map (·.executionId)).Nodup := by
  have hstart : Identities {} ∧ (({} : Engine).pc).Agrees ({} : Engine).state := by
    refine ⟨⟨List.nodup_nil, ?_, ?_, ?_, ?_, ?_, ?_, ?_⟩, trivial⟩
    · simp [Engine.launchedIds]
    · simp
    · simp
    · simp
    · simp
    · simp
    · simp [Pc.observation]
  have hinv := h.invariant (fun e => Identities e ∧ e.pc.Agrees e.state) hstart
    fun e a e' hi hok hstep =>
      have hmoves := Engine.step_moves hstep
      ⟨hmoves.identities hok.1 hok.2 hi.2 hi.1, hmoves.agrees hi.2⟩
  exact hinv.1.nodup

end Identity

/-! ### An automatic retry that is interrupted itself -/

/-- A worker that exits with an error. -/
def failedWorker : WorkerRunResult where
  processReturncode := 1
  transportError := none
  claim := none
  egressError := none

/-- The first execution, with the identity `e1`: the product moves to `b` while its worker changes
    nothing, and the execution is replaced by an automatic retry with the identity `e2`. -/
def driftingProduct : Observation :=
  { calm (fun n => if n = 0 then "e1" else "e2") with
    worker := .ran none failedWorker
    product := fun _ => ⟨true, sampleHead 'a', false, sampleHead 'b', some none⟩
    historical := some (sampleHead 'c')
    retired := true }

/-- An iteration at the new product head whose worker is running when the process is lost. -/
def lostWorker (ids : Nat → String) : Observation :=
  { calm ids with
    localHead := sampleHead 'b'
    remoteHead := some (sampleHead 'b')
    workspace := some (sampleHead 'b')
    worker := .ran (some ⟨"e2", 7, 7, 7, "boot", 1, none⟩) failedWorker }

/-- The first execution up to the automatic retry's record. -/
def replacedExecution : List EngineAction :=
  .begin driftingProduct {} :: List.replicate 6 .advance

/-- The automatic retry, up to its running worker. -/
def interruptedRetry : List EngineAction :=
  [.begin (lostWorker fun n => if n = 0 then "e3" else "e4") {}, .advance, .advance, .crash]

/-- The iteration after the restart. -/
def restartedRetry : List EngineAction :=
  [.begin (lostWorker fun n => if n = 0 then "e5" else "e6") {}, .advance, .advance, .advance]

/-- The run, evaluated up to the crash and up to the second launch. -/
theorem along_interruptedRetry :
    (Along sampleStep (fun e a => Fresh e a ∧ @RetiresRetry sampleProject e a) {}
        (replacedExecution ++ interruptedRetry)
      ∧ (exec sampleStep {} (replacedExecution ++ interruptedRetry)).any
        (fun e => decide (e.launches.map (·.executionId) = ["e2", "e1"])) = true)
    ∧ Along sampleStep Fresh {} (replacedExecution ++ interruptedRetry ++ restartedRetry)
      ∧ (exec sampleStep {} (replacedExecution ++ interruptedRetry ++ restartedRetry)).any
        (fun e => decide (e.launches.map (·.executionId) = ["e2", "e2", "e1"])) = true := by
  decide +kernel

theorem launches_nodup_interruptedRetry :
    ∃ e, exec sampleStep {} (replacedExecution ++ interruptedRetry) = some e
      ∧ e.launches.map (·.executionId) = ["e2", "e1"]
      ∧ (e.launches.map (·.executionId)).Nodup := by
  obtain ⟨halong, hany⟩ := along_interruptedRetry.1
  obtain ⟨e, hexec, hlaunches⟩ := exists_exec_of_any hany
  exact ⟨e, hexec, hlaunches, @launches_nodup sampleProject sampleSha256 _
    (run_of_exec hexec halong)⟩

/-- **One identity, two launches.** The automatic retry is admitted and launched as `e2`, its worker
    is lost, and after the restart the record, still `admitted`, authorizes `e2` again. -/
theorem sameIdentity_relaunched :
    Along sampleStep Fresh {} (replacedExecution ++ interruptedRetry ++ restartedRetry)
      ∧ ∃ e, exec sampleStep {} (replacedExecution ++ interruptedRetry ++ restartedRetry) = some e
        ∧ e.launches.map (·.executionId) = ["e2", "e2", "e1"] :=
  ⟨along_interruptedRetry.2.1, exists_exec_of_any along_interruptedRetry.2.2⟩

end Devlegate
