import Devlegate.StatusSnapshot
import Devlegate.EngineRun
import Devlegate.SaveRace
import Devlegate.Lib.Loops

namespace Devlegate

open Loops

/-!
# The partition of the todo tickets

The view is assembled from the plan, a barrier computed again beside it, the serial boundary, the
dependencies and the bound execution.  What ties them together is that a plan admits a new worker
exactly where no barrier stands and a ticket is runnable.

* `dependencyEntries_spec`: the dependency-blocked tickets are the todo tickets that are not
  runnable.
* `admits_or_barrier`: without a barrier, a runnable ticket is admitted.
* `statusSnapshot_partition`: every todo ticket has one placement.
-/

/-! ### Dependencies -/

namespace TicketStore

theorem stateOf_of_byId {store : TicketStore} {id : String} {ticket : Ticket}
    (h : store.byId id = some ticket) : store.stateOf id = .ok ticket.state := by
  simp [stateOf, h]

/-- The test of a dependency of a loaded ticket is the one `runnable` makes. -/
theorem dependency_test {store : TicketStore} (hstore : store.Loaded) {ticket : Ticket}
    (hticket : ticket ∈ store.tickets) :
    ∀ id ∈ ticket.dependsOn, (do return (← store.stateOf id) != .done : Except String Bool)
      = .ok (!(store.byId id).any (·.state = .done)) := by
  intro id hid
  obtain ⟨found, hfound⟩ := Option.isSome_iff_exists.mp (hstore.defined ticket hticket id hid)
  rw [stateOf_of_byId hfound, hfound]
  show Except.ok (found.state != .done) = _
  simp only [Option.any_some, bne, beq_eq_decide]

/-- A loaded ticket is dependency-blocked if it is a todo ticket and not runnable. -/
theorem dependencyBlocked_eq {store : TicketStore} (hstore : store.Loaded) {ticket : Ticket}
    (hticket : ticket ∈ store.tickets) :
    store.dependencyBlocked ticket
      = .ok (ticket.state = .todo && !store.isRunnable ticket) := by
  unfold dependencyBlocked
  split
  · rename_i htodo
    rw [anyM_eq_ok (dependency_test hstore hticket)]
    simp [isRunnable, htodo, List.any_eq_not_all_not]
  · rename_i htodo
    simp [htodo]

/-- The unfinished dependencies of a loaded ticket can be listed. -/
theorem unfinished_ok {store : TicketStore} (hstore : store.Loaded) {ticket : Ticket}
    (hticket : ticket ∈ store.tickets) : ∃ blockers, store.unfinished ticket = .ok blockers := by
  have hturn : ∀ id ∈ ticket.dependsOn.insertionSort (· ≤ ·),
      (do return (id, ← store.stateOf id) : Except String (String × TicketState))
        = .ok (id, ((store.byId id).map (·.state)).getD .done) := by
    intro id hid
    have hmem := (List.mem_insertionSort _).mp hid
    obtain ⟨found, hfound⟩ := Option.isSome_iff_exists.mp (hstore.defined ticket hticket id hmem)
    rw [stateOf_of_byId hfound, hfound]
    rfl
  unfold unfinished
  rw [mapM_eq_ok hturn]
  exact ⟨_, rfl⟩

/-- The entries of the dependency-blocked tickets: those of the todo tickets that are not
    runnable. -/
theorem dependencyEntries_spec {store : TicketStore} (hstore : store.Loaded) :
    ∃ entries, store.dependencyEntries = .ok entries ∧ ∀ ticket ∈ store.tickets,
      ((entries.get ticket.id).isSome ↔ ticket.state = .todo ∧ store.isRunnable ticket = false) := by
  have htested : ∀ ticket ∈ store.tickets,
      (do return (ticket, ← store.dependencyBlocked ticket) : Except String (Ticket × Bool))
        = .ok (ticket, ticket.state = .todo && !store.isRunnable ticket) := by
    intro ticket hticket
    rw [dependencyBlocked_eq hstore hticket]
    rfl
  -- The tickets that pass the test, in the order of the store.
  let blocked := (store.tickets.map fun ticket =>
    (ticket, (ticket.state = .todo && !store.isRunnable ticket : Bool))).filter (·.2)
  have hmem : ∀ tested ∈ blocked, tested.1 ∈ store.tickets ∧ tested.1.state = .todo
      ∧ store.isRunnable tested.1 = false := by
    intro tested htested
    obtain ⟨hin, htrue⟩ := List.mem_filter.mp htested
    obtain ⟨ticket, hticket, rfl⟩ := List.mem_map.mp hin
    simpa [hticket] using htrue
  have hentries : ∀ tested ∈ blocked,
      (do return (tested.1.id, ← store.unfinished tested.1) :
        Except String (String × List (String × TicketState)))
        = .ok (tested.1.id, (store.unfinished tested.1).toOption.getD []) := by
    intro tested htested
    obtain ⟨blockers, hblockers⟩ := unfinished_ok hstore (hmem tested htested).1
    rw [hblockers]
    rfl
  refine ⟨blocked.map fun tested => (tested.1.id, (store.unfinished tested.1).toOption.getD []),
    ?_, ?_⟩
  · unfold dependencyEntries
    rw [mapM_eq_ok htested]
    exact mapM_eq_ok hentries
  · intro ticket hticket
    rw [Dict.get, List.lookup_isSome_iff]
    constructor
    · rintro ⟨entry, hentry, hid⟩
      obtain ⟨tested, htested, rfl⟩ := List.mem_map.mp hentry
      have hsame : ticket = tested.1 :=
        List.inj_on_of_nodup_map hstore.ids_nodup hticket (hmem tested htested).1 (by simpa using hid)
      exact hsame ▸ (hmem tested htested).2
    · rintro ⟨htodo, hrunnable⟩
      have hin : (ticket, true) ∈ blocked := by
        rw [List.mem_filter, List.mem_map]
        exact ⟨⟨ticket, hticket, by simp [htodo, hrunnable]⟩, rfl⟩
      exact ⟨_, List.mem_map_of_mem hin, by simp⟩

theorem mem_runnable {store : TicketStore} {ticket : Ticket} :
    ticket ∈ store.runnable ↔ ticket ∈ store.tickets ∧ store.isRunnable ticket = true := by
  simp [runnable, List.mem_insertionSort]

/-- The ids of the runnable tickets do not repeat. -/
theorem Loaded.runnable_nodup {store : TicketStore} (hstore : store.Loaded) :
    (store.runnable.map (·.id)).Nodup := by
  have hperm := List.perm_insertionSort (fun a b : Ticket => a.id ≤ b.id)
    (store.tickets.filter store.isRunnable)
  apply (hperm.map (·.id)).nodup_iff.mpr
  exact hstore.ids_nodup.sublist (List.filter_sublist.map _)

end TicketStore

/-! ### The plan and the barrier -/

section Plan

variable [Sha256] {service : StatusService} {s : RuntimeState} {store : TicketStore}
  {dirty branchOk : Bool} {code : GitObservation} {control : Option GitObservation}

/-- A valid state holds a valid worker identity. -/
theorem validateWorkerIdentity_of_valid (hs : validateStateInvariant s = .ok ())
    {identity : WorkerProcessIdentity} (h : s.workerIdentity = some identity) :
    validateWorkerIdentity s.executionId identity = .ok () := by
  -- It is the fourth check of the validation.
  simp only [validateStateInvariant, andThen_eq_ok] at hs
  simpa [h] using hs.2.2.2.1

theorem workerIdentityFromValue_of_valid (hs : validateStateInvariant s = .ok ()) :
    workerIdentityFromValue s.workerIdentity s.executionId = .ok s.workerIdentity := by
  cases h : s.workerIdentity with
  | none => rfl
  | some identity =>
    show (do validateWorkerIdentity s.executionId identity; return some identity) = _
    rw [validateWorkerIdentity_of_valid hs h]
    rfl

/-- A plan for a running execution is made, and it never admits a worker. -/
theorem runningPlan_ok (service : StatusService) (hs : validateStateInvariant s = .ok ())
    (code : GitObservation) (control : Option GitObservation) :
    ∃ plan, Observed.runningPlan service s code control = .ok plan ∧ plan.admits = false := by
  unfold Observed.runningPlan
  rw [workerIdentityFromValue_of_valid hs]
  split
  · cases s.workerIdentity with
    | none => exact ⟨_, rfl, rfl⟩
    | some identity => exact ⟨_, rfl, rfl⟩
  · exact ⟨_, rfl, rfl⟩
  · exact ⟨_, rfl, rfl⟩

/-- A bound execution keeps its plan from admitting another. -/
theorem pendingPlan_admits : (Observed.pendingPlan service s store code control).admits = false := by
  unfold Observed.pendingPlan
  split
  · rfl
  · dsimp only
    split
    · rfl
    · split <;> rfl

omit [Sha256] in
/-- A barrier keeps the plan from admitting a worker. -/
theorem barrierPlan_admits {barrier : AdmissionBarrier}
    (h : Observed.admissionBarrier s store dirty branchOk code = some barrier
      ∨ Observed.serialAdmissionBarrier store = some barrier) :
    (Observed.barrierPlan store code control barrier).admits = false := by
  have haction : barrier.action ≠ .runWorker := by
    rcases h with h | h
    · unfold Observed.admissionBarrier at h
      grind
    · unfold Observed.serialAdmissionBarrier at h
      grind
  simp [Observed.barrierPlan, ObservedPlan.admits, haction]

omit [Sha256] in
/-- Without a bound execution, only the serial boundary or the lack of a runnable ticket keeps the
    plan from admitting a worker. -/
theorem freePlan_admits (h : (Observed.freePlan store code control).admits = false) :
    (Observed.serialAdmissionBarrier store).isSome ∨ store.runnable = [] := by
  unfold Observed.freePlan at h
  cases hserial : Observed.serialAdmissionBarrier store with
  | some barrier => exact .inl rfl
  | none =>
    cases hselected : store.selected with
    | some ticket =>
      rw [hserial, hselected] at h
      cases h
    | none => exact .inr (List.head?_eq_none_iff.mp hselected)

omit [Sha256] in
/-- A bound execution is a barrier for every other ticket. -/
theorem globalBarrier_of_bound (h : s.boundPhase = true) :
    (globalBarrier s store dirty branchOk code).isSome := by
  unfold globalBarrier
  cases Observed.admissionBarrier s store dirty branchOk code with
  | some barrier => rfl
  | none =>
    rw [if_pos h]
    cases s.selectedTicketId <;> rfl

/-- **Plan or barrier.** A plan is always made.  Where it admits a worker no execution is bound;
    where it does not, either a barrier stands for every ticket or no ticket is runnable. -/
theorem makeExecutionPlan_spec (service : StatusService) (hs : validateStateInvariant s = .ok ())
    (store : TicketStore) (dirty branchOk : Bool) (code : GitObservation)
    (control : Option GitObservation) :
    ∃ plan, Observed.makeExecutionPlan service s store dirty branchOk code control = .ok plan
      ∧ (plan.admits = true → s.boundPhase = false)
      ∧ (plan.admits = false →
          (globalBarrier s store dirty branchOk code).isSome ∨ store.runnable = []) := by
  unfold Observed.makeExecutionPlan
  cases hbarrier : Observed.admissionBarrier s store dirty branchOk code with
  | some barrier =>
    refine ⟨_, rfl, ?_, fun _ => .inl (by simp [globalBarrier, hbarrier])⟩
    intro hadmits
    rw [barrierPlan_admits (.inl hbarrier)] at hadmits
    cases hadmits
  | none =>
    cases hphase : s.phase with
    | agentRunning =>
      obtain ⟨plan, hplan, hno⟩ := runningPlan_ok service hs code control
      have hbound : s.boundPhase = true := by simp [RuntimeState.boundPhase, hphase]
      exact ⟨plan, hplan, by simp [hno], fun _ => .inl (globalBarrier_of_bound hbound)⟩
    | agentPending =>
      have hbound : s.boundPhase = true := by simp [RuntimeState.boundPhase, hphase]
      exact ⟨_, rfl, by simp [pendingPlan_admits], fun _ => .inl (globalBarrier_of_bound hbound)⟩
    | idle | mergePending =>
      have hfree : s.boundPhase = false := by simp [RuntimeState.boundPhase, hphase]
      refine ⟨_, rfl, fun _ => hfree, ?_⟩
      simpa [globalBarrier, hbarrier, hfree] using freePlan_admits

/-- The evidence of a live execution is found or not, without an error. -/
theorem liveExecutionEvidence_ok (service : StatusService) :
    ∃ live, service.liveExecutionEvidence = .ok live := by
  unfold StatusService.liveExecutionEvidence
  dsimp only
  rw [workerIdentityFromValue_of_valid service.current_valid]
  split
  · exact ⟨_, rfl⟩
  · split
    · split
      · exact ⟨_, rfl⟩
      · split
        · exact ⟨_, rfl⟩
        · split
          · exact ⟨_, rfl⟩
          · cases service.current.workerIdentity with
            | none => exact ⟨_, rfl⟩
            | some identity => exact ⟨_, rfl⟩
    · exact ⟨_, rfl⟩

/-! ### The engine's plan -/

/-- A valid reconciliation that is being resolved is resumed. -/
theorem resolution_of_valid (hs : validateStateInvariant s = .ok ()) {r : Reconciliation}
    (h : s.reconciliation = some r) (hstatus : r.status = .resolving) :
    r.resolution = some .resume := by
  simp only [validateStateInvariant, andThen_eq_ok] at hs
  have hrecord : validateReconciliation r = .ok () := by simpa [h] using hs.1
  simp only [validateReconciliation, andThen_eq_ok] at hrecord
  have hcheck := hrecord.2.1
  simpa [require, hstatus] using hcheck

/-- In a clean checkout the barrier is the one the engine plans with. -/
theorem admissionBarrier_clean (hstore : store.Loaded) (hs : validateStateInvariant s = .ok ())
    (code : GitObservation) (control : Option GitObservation) :
    (Observed.admissionBarrier s store false true code).map
        (fun barrier => (Observed.barrierPlan store code control barrier).toExecutionPlan)
      = admissionBarrier s store := by
  unfold Observed.admissionBarrier admissionBarrier
  cases hr : s.reconciliation.filter (·.status ≠ .resolved) with
  | some r =>
    have hrecord := (Option.filter_eq_some_iff.mp hr).1
    by_cases hstatus : r.status = .resolving
    · have hword : "; resolution " ++ "resume" = "; resolution resume" := rfl
      simp [Observed.barrierPlan, hstatus, resolution_of_valid hs hrecord hstatus, Resolution.word,
        String.append_assoc, hword]
    · simp [Observed.barrierPlan, hstatus]
  | none =>
    cases ha : s.acceptedIntegration with
    | some a =>
      cases hticket : store.byId a.ticketId with
      | none => simp [Observed.barrierPlan, hticket]
      | some ticket =>
        have hown := TicketStore.byId_of_mem hstore.ids_nodup (TicketStore.mem_of_byId hticket)
        simp [Observed.barrierPlan, hticket, hown]
    | none =>
      by_cases hmany : store.boundary.length > 1
      · simp [Observed.barrierPlan, hmany]
      · simp [hmany]

omit [Sha256] in
/-- Without a bound execution the two plans agree. -/
theorem freePlan_eq (hstore : store.Loaded) :
    (Observed.freePlan store code control).toExecutionPlan = freePlan store := by
  unfold Observed.freePlan freePlan Observed.serialAdmissionBarrier
  cases hboundary : store.boundary with
  | nil => cases hselected : store.selected <;> rfl
  | cons ticket rest =>
    have hmem : ticket ∈ store.tickets := by
      have hin : ticket ∈ store.boundary := by simp [hboundary]
      exact (List.mem_filter.mp hin).1
    have hown := TicketStore.byId_of_mem hstore.ids_nodup hmem
    by_cases hreview : ticket.state = .review
    · simp [hreview, Observed.barrierPlan, hown]
    · simp [hreview, Observed.barrierPlan, hown]

/-- **The engine follows the plan of the view.** In a clean checkout on the right branch, with no
    execution running, the plan shown is the plan an iteration acts on. -/
theorem makeExecutionPlan_clean (hstore : store.Loaded) (hs : validateStateInvariant s = .ok ())
    (hphase : s.phase ≠ .agentRunning) :
    (Observed.makeExecutionPlan service s store false true code control).map (·.toExecutionPlan)
      = .ok (makeExecutionPlan s store (service.inspectBoundExecutionWorkspace s)) := by
  have hbarrier := admissionBarrier_clean hstore hs code control
  unfold Observed.makeExecutionPlan makeExecutionPlan
  rw [← hbarrier]
  cases Observed.admissionBarrier s store false true code with
  | some barrier => rfl
  | none =>
    cases hp : s.phase with
    | agentRunning => exact absurd hp hphase
    | agentPending =>
      show Except.ok (Observed.pendingPlan service s store code control).toExecutionPlan = _
      congr 1
      unfold Observed.pendingPlan boundPlan
      cases s.selectedTicketId.bind store.byId with
      | none => rfl
      | some ticket =>
        dsimp only
        split
        · rfl
        · split <;> rfl
    | idle | mergePending => exact congrArg Except.ok (freePlan_eq hstore)

end Plan

/-! ### The partition -/

/-- The entry a todo ticket adds to `blocked`: none for the bound ticket and for an admitted
    runnable one. -/
theorem blockedEntry_ok {bound : Option String} (integration : Option String)
    {entries : Dict (List (String × TicketState))} {eligibleIds : List String}
    {reason : Option BlockedReason} {ticket : Ticket}
    (h : ticket.state = .todo → some ticket.id ≠ bound → (entries.get ticket.id).isNone →
      ticket.id ∉ eligibleIds → reason.isSome) :
    ∃ entry, blockedEntry bound integration entries eligibleIds reason ticket = .ok entry
      ∧ (∀ e, entry = some e → e.1 = ticket.id ∧ ticket.state = .todo)
      ∧ (entry.isSome ↔ ticket.state = .todo ∧ some ticket.id ≠ bound
          ∧ ((entries.get ticket.id).isSome ∨ ticket.id ∉ eligibleIds)) := by
  unfold blockedEntry
  by_cases htodo : ticket.state = .todo
  · by_cases hbound : some ticket.id = bound
    · simp [hbound]
    · cases hget : entries.get ticket.id with
      | some blockers => simp [htodo, hbound]
      | none =>
        by_cases hin : ticket.id ∈ eligibleIds
        · simp [htodo, hbound, hin]
        · have hreason := h htodo hbound (by simp [hget]) hin
          obtain ⟨r, rfl⟩ := Option.isSome_iff_exists.mp hreason
          simp [htodo, hbound, hin]
  · simp [htodo]

section Partition

variable [Sha256] {service : StatusService} {s : RuntimeState} {store : TicketStore}
  {code : GitObservation} {control : Option GitObservation}

/-- The three lists of a view, and the plan they were made with. -/
structure StatusSnapshot.Lists (service : StatusService) (s : RuntimeState) (store : TicketStore)
    (code : GitObservation) (control : Option GitObservation) (snapshot : StatusSnapshot) :
    Prop where
  plan : Observed.makeExecutionPlan service s store (observedDirty code control)
    (service.branchOk code control) code control = .ok snapshot.plan
  bound : snapshot.boundTicketId = if s.boundPhase then s.selectedTicketId else none
  free : snapshot.plan.admits = true → s.boundPhase = false
  eligible : snapshot.eligible =
    if snapshot.plan.admits then store.runnable.map Ticket.entry else []
  blocked : ∃ entry : Ticket → Option (String × String × BlockedReason),
    snapshot.blocked = store.tickets.filterMap entry
      ∧ ∀ ticket ∈ store.tickets,
        (∀ e, entry ticket = some e → e.1 = ticket.id ∧ ticket.state = .todo)
        ∧ ((entry ticket).isSome ↔ ticket.state = .todo ∧ some ticket.id ≠ snapshot.boundTicketId
            ∧ (store.isRunnable ticket = false ∨ snapshot.plan.admits = false))

/-- The view is made, and its lists are as described. -/
theorem makeStatusSnapshot_lists (hstore : store.Loaded) (service : StatusService)
    (hs : validateStateInvariant s = .ok ()) (code : GitObservation)
    (control : Option GitObservation) (workflowError : Option String) :
    ∃ snapshot, makeStatusSnapshot service s code control (some store) workflowError = .ok snapshot
      ∧ snapshot.Lists service s store code control := by
  obtain ⟨entries, hentries, hblocked⟩ := TicketStore.dependencyEntries_spec hstore
  obtain ⟨plan, hplan, hfree, hbarrier⟩ := makeExecutionPlan_spec service hs store
    (observedDirty code control) (service.branchOk code control) code control
  obtain ⟨live, hlive⟩ := liveExecutionEvidence_ok service
  -- The arguments the loop over the tickets is run with.
  let bound := if s.boundPhase then s.selectedTicketId else none
  let eligible := if plan.admits then store.runnable.map Ticket.entry else []
  let reason := (globalBarrier s store (observedDirty code control) (service.branchOk code control)
    code).map fun barrier => ({ kind := barrier.kind, ticketId := barrier.ticketId } : BlockedReason)
  have heligible : ∀ ticket ∈ store.tickets, (ticket.id ∈ eligible.map (·.1) ↔
      plan.admits = true ∧ store.isRunnable ticket = true) := by
    intro ticket hticket
    cases hadmits : plan.admits with
    | false => simp [eligible, hadmits]
    | true =>
      simp only [eligible, hadmits, if_true, List.map_map, true_and]
      constructor
      · intro hid
        obtain ⟨other, hother, heq⟩ := List.mem_map.mp hid
        have hrunnable := TicketStore.mem_runnable.mp hother
        have hsame := List.inj_on_of_nodup_map hstore.ids_nodup hrunnable.1 hticket heq
        exact hsame ▸ hrunnable.2
      · intro hrunnable
        exact List.mem_map.mpr ⟨ticket, TicketStore.mem_runnable.mpr ⟨hticket, hrunnable⟩, rfl⟩
  have hturn : ∀ ticket ∈ store.tickets, ∃ entry,
      blockedEntry bound (s.acceptedIntegration.map (·.ticketId)) entries (eligible.map (·.1)) reason
        ticket = .ok entry
      ∧ (∀ e, entry = some e → e.1 = ticket.id ∧ ticket.state = .todo)
      ∧ (entry.isSome ↔ ticket.state = .todo ∧ some ticket.id ≠ bound
          ∧ (store.isRunnable ticket = false ∨ plan.admits = false)) := by
    intro ticket hticket
    have hdependency := hblocked ticket hticket
    have hin := heligible ticket hticket
    -- A todo ticket without an entry is runnable, so without a barrier it was admitted.
    have hreason : ticket.state = .todo → some ticket.id ≠ bound →
        (entries.get ticket.id).isNone → ticket.id ∉ eligible.map (·.1) → reason.isSome := by
      intro htodo _ hnone hnot
      have hrunnable : store.isRunnable ticket = true := by
        by_contra hfalse
        have hsome := hdependency.mpr ⟨htodo, by simpa using hfalse⟩
        simp [Option.isNone_iff_eq_none.mp hnone] at hsome
      have hadmits : plan.admits = false := by
        by_contra htrue
        exact hnot (hin.mpr ⟨by simpa using htrue, hrunnable⟩)
      have hne : store.runnable ≠ [] :=
        List.ne_nil_of_mem (TicketStore.mem_runnable.mpr ⟨hticket, hrunnable⟩)
      have hstands := (hbarrier hadmits).resolve_right hne
      simpa [reason] using hstands
    obtain ⟨entry, hok, hid, hsome⟩ := blockedEntry_ok
      (s.acceptedIntegration.map (·.ticketId)) hreason
    refine ⟨entry, hok, hid, ?_⟩
    rw [hsome, hdependency, hin]
    grind
  choose! entry hentry using hturn
  have hloop := mapM_eq_ok fun ticket hticket => (hentry ticket hticket).1
  unfold makeStatusSnapshot
  simp only [hentries, hplan, hlive]
  dsimp only [bind, Except.bind]
  rw [hloop]
  refine ⟨_, rfl, hplan, rfl, hfree, rfl, entry, ?_, fun ticket hticket => (hentry ticket hticket).2⟩
  simp only [List.filterMap_map]
  rfl

/-- The eligible entries of one ticket. -/
theorem StatusSnapshot.Lists.eligible_of {snapshot : StatusSnapshot}
    (h : snapshot.Lists service s store code control) (hstore : store.Loaded) {ticket : Ticket}
    (hticket : ticket ∈ store.tickets) :
    snapshot.eligible.filter (·.1 = ticket.id)
      = if snapshot.plan.admits && store.isRunnable ticket then [ticket.entry] else [] := by
  have hkey : ∀ other ∈ store.runnable, ∀ entry, some other.entry = some entry →
      entry.1 = other.id := by
    intro other _ entry hentry
    cases hentry
    rfl
  have hmap : store.runnable.map Ticket.entry = store.runnable.filterMap (some ∘ Ticket.entry) := by
    simp
  rw [h.eligible]
  cases snapshot.plan.admits with
  | false => rfl
  | true =>
    rw [if_pos rfl, hmap]
    cases hrunnable : store.isRunnable ticket with
    | true =>
      have hmem := TicketStore.mem_runnable.mpr ⟨hticket, hrunnable⟩
      exact filter_filterMap_of_mem hstore.runnable_nodup hkey hmem
    | false =>
      apply filter_filterMap_of_not_mem hkey
      intro hid
      obtain ⟨other, hother, heq⟩ := List.mem_map.mp hid
      have hin := TicketStore.mem_runnable.mp hother
      have hsame := List.inj_on_of_nodup_map hstore.ids_nodup hin.1 hticket heq
      rw [hsame, hrunnable] at hin
      exact Bool.false_ne_true hin.2

/-- A todo ticket has exactly one placement in the view. -/
theorem StatusSnapshot.Lists.placed {snapshot : StatusSnapshot}
    (h : snapshot.Lists service s store code control) (hstore : store.Loaded) {ticket : Ticket}
    (hticket : ticket ∈ store.tickets) (htodo : ticket.state = .todo) :
    ∃ placement, snapshot.placements ticket.id = [placement] := by
  obtain ⟨entry, hblocked, hentry⟩ := h.blocked
  have hown : snapshot.blocked.filter (·.1 = ticket.id) = (entry ticket).toList := by
    rw [hblocked]
    exact filter_filterMap_of_mem hstore.ids_nodup
      (fun other hother e he => ((hentry other hother).1 e he).1) hticket
  have heligible := h.eligible_of hstore hticket
  have hsome := (hentry ticket hticket).2
  unfold StatusSnapshot.placements
  rw [hown, heligible]
  by_cases hbound : snapshot.boundTicketId = some ticket.id
  · -- The bound ticket: the plan admits nothing, and the loop passes it over.
    have hadmits : snapshot.plan.admits = false := by
      by_contra htrue
      have hfree := h.free (by simpa using htrue)
      rw [h.bound, hfree] at hbound
      cases hbound
    have hnone : entry ticket = none := by
      simpa [hbound] using hsome
    exact ⟨.current, by simp [hbound, hadmits, hnone]⟩
  · have hcurrent : snapshot.boundTicketId.toList.filter (· = ticket.id) = [] := by
      cases hid : snapshot.boundTicketId with
      | none => rfl
      | some id =>
        have hne : id ≠ ticket.id := by
          intro heq
          exact hbound (by rw [hid, heq])
        simp [hne]
    rw [hcurrent]
    cases hplaced : (snapshot.plan.admits && store.isRunnable ticket) with
    | true =>
      have hnone : entry ticket = none := by
        rw [Bool.and_eq_true] at hplaced
        simpa [hplaced.1, hplaced.2] using hsome
      exact ⟨.eligible, by simp [hnone]⟩
    | false =>
      have hisSome : (entry ticket).isSome := by
        rw [hsome]
        refine ⟨htodo, fun heq => hbound heq.symm, ?_⟩
        grind
      obtain ⟨e, he⟩ := Option.isSome_iff_exists.mp hisSome
      exact ⟨.blocked e.2.2, by simp [he]⟩

/-- **The todo tickets are partitioned.** For every store the loader returns, every valid state and
    every pair of observations the view is made, so that its assertion holds; each todo ticket has
    one placement in it; eligible and blocked entries are todo tickets; and a ticket is eligible
    only under a plan to run a worker that is bound to none, and then all runnable tickets are. -/
theorem statusSnapshot_partition [NanoYaml] {workflow : Workflow} {store : TicketStore}
    (hstore : workflow.loadTicketStore = .ok store) (service : StatusService) {s : RuntimeState}
    (hs : validateStateInvariant s = .ok ()) (code : GitObservation)
    (control : Option GitObservation) (workflowError : Option String) :
    ∃ snapshot plan,
      makeStatusSnapshot service s code control (some store) workflowError = .ok snapshot
      ∧ Observed.makeExecutionPlan service s store (observedDirty code control)
          (service.branchOk code control) code control = .ok plan
      ∧ (∀ ticket ∈ store.tickets, ticket.state = .todo →
          ∃ placement, snapshot.placements ticket.id = [placement])
      ∧ (∀ id ∈ snapshot.eligible.map (·.1) ++ snapshot.blocked.map (·.1),
          ∃ ticket ∈ store.tickets, ticket.id = id ∧ ticket.state = .todo)
      ∧ (snapshot.eligible ≠ [] → plan.action = .runWorker ∧ plan.bound = false)
      ∧ (plan.action = .runWorker ∧ plan.bound = false →
          snapshot.eligible = store.runnable.map Ticket.entry) := by
  have hloaded := Workflow.loadTicketStore_loaded hstore
  obtain ⟨snapshot, hsnapshot, hlists⟩ :=
    makeStatusSnapshot_lists hloaded service hs code control workflowError
  refine ⟨snapshot, snapshot.plan, hsnapshot, hlists.plan,
    fun ticket hticket htodo => hlists.placed hloaded hticket htodo, ?_, ?_, ?_⟩
  · intro id hid
    rcases List.mem_append.mp hid with heligible | hblocked
    · rw [hlists.eligible] at heligible
      split at heligible
      · rw [List.map_map] at heligible
        obtain ⟨ticket, hticket, rfl⟩ := List.mem_map.mp heligible
        obtain ⟨hmem, hrunnable⟩ := TicketStore.mem_runnable.mp hticket
        refine ⟨ticket, hmem, rfl, ?_⟩
        simp only [TicketStore.isRunnable, Bool.and_eq_true, decide_eq_true_eq] at hrunnable
        exact hrunnable.1
      · cases heligible
    · obtain ⟨entry, hentries, hentry⟩ := hlists.blocked
      rw [hentries] at hblocked
      obtain ⟨e, he, rfl⟩ := List.mem_map.mp hblocked
      obtain ⟨ticket, hticket, heq⟩ := List.mem_filterMap.mp he
      obtain ⟨hid, htodo⟩ := (hentry ticket hticket).1 e heq
      exact ⟨ticket, hticket, hid.symm, htodo⟩
  · intro hne
    have hadmits : snapshot.plan.admits = true := by
      by_contra hfalse
      apply hne
      rw [hlists.eligible, if_neg hfalse]
    simpa [ObservedPlan.admits] using hadmits
  · intro hplan
    have hadmits : snapshot.plan.admits = true := by simp [ObservedPlan.admits, hplan]
    rw [hlists.eligible, if_pos hadmits]

end Partition

/-- A metadata parser that knows the two blocks of the sample files. -/
@[reducible] def sampleYaml : NanoYaml where
  loads text :=
    if text = "type: devlegate.ticket\ntitle: First\n" then
      .ok [("type", .string "devlegate.ticket"), ("title", .string "First")]
    else if text = "type: devlegate.ticket\ntitle: Second\ndepends_on:\n  - alpha\n" then
      .ok [("type", .string "devlegate.ticket"), ("title", .string "Second"),
        ("depends_on", .sequence [some "alpha"])]
    else .error "unexpected line"

/-- A todo directory with a ticket and one that depends on it. -/
def sampleWorkflow : Workflow where
  path state := "tickets/" ++ state.word
  directory state :=
    if state = .todo then .entries [
      { name := "beta.md"
        text := some ("---\ntype: devlegate.ticket\ntitle: Second\ndepends_on:\n  - alpha\n---\n"
          ++ "Use it.\n") },
      { name := "README.txt", text := some "notes" },
      { name := "alpha.md"
        text := some "---\ntype: devlegate.ticket\ntitle: First\n---\nBuild it.\n" }]
    else .missing

def sampleStore : TicketStore where
  tickets := [
    { id := "alpha", state := .todo, title := "First", body := "Build it.\n" },
    { id := "beta", state := .todo, title := "Second", dependsOn := ["alpha"],
      body := "Use it.\n" }]

def sampleCheckout (branch : String) : GitObservation where
  branch := some branch
  detached := false
  localHead := sampleHead 'a'
  remoteRef := "origin/" ++ branch
  remoteHead := some (sampleHead 'a')
  workingTreeClean := true
  workingTreeFingerprint := ""

/-- A service that owns no execution. -/
def sampleService : @StatusService sampleSha256 :=
  letI := sampleSha256
  { remoteBranch := "main"
    controlBranch := "devlegate"
    current := {}
    current_valid := rfl
    ownedExecutionId := none
    owns := fun _ => false
    observe := fun _ => .absent
    inspectBoundExecutionWorkspace := fun _ => ⟨.reusable, ""⟩
    todoFingerprint := ""
    readReport := fun _ _ => none }

/-- The sample directory loads, and its two tickets are placed. -/
theorem statusSnapshot_partition_sample :
    @Workflow.loadTicketStore sampleYaml sampleWorkflow = .ok sampleStore
      ∧ ∃ snapshot, @makeStatusSnapshot sampleSha256 sampleService {} (sampleCheckout "main")
          (some (sampleCheckout "devlegate")) (some sampleStore) none = .ok snapshot
        ∧ ∀ ticket ∈ sampleStore.tickets, ∃ placement, snapshot.placements ticket.id = [placement] := by
  have hload : @Workflow.loadTicketStore sampleYaml sampleWorkflow = .ok sampleStore :=
    toOption_eq_some.mp (by decide +kernel)
  have hvalid : @validateStateInvariant sampleSha256 {} = .ok () := rfl
  obtain ⟨snapshot, plan, hsnapshot, -, hplaced, -⟩ :=
    @statusSnapshot_partition sampleSha256 sampleYaml _ _ hload sampleService _ hvalid
      (sampleCheckout "main") (some (sampleCheckout "devlegate")) none
  refine ⟨hload, snapshot, hsnapshot, fun ticket hticket => hplaced ticket hticket ?_⟩
  simp only [sampleStore, List.mem_cons, List.not_mem_nil, or_false] at hticket
  rcases hticket with rfl | rfl <;> rfl

end Devlegate
