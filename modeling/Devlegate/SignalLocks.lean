import Devlegate.Lib.Interrupt
import Devlegate.OwnerLoop

namespace Devlegate.SignalLocks

open Interrupt Transition

/-!
# The locks of the owner thread and its signal handler

The host runs the engine on the thread that receives the signals.  Its handler for SIGTERM requests
the stop of the service there and then, on top of whatever the thread is doing.

* `Lock`: the locks of the engine, of the supervisor of the workers and of the events.
* `requestStop`: the handler, from the host over the engine to the supervisor.
* `Activity`, `ownerThread`: what the thread does, activity by activity, with the locks it takes.
* `HandlerClear`: the thread holds no lock that the handler tries and that cannot be taken again.
* `waitsForItself_iff`: exactly there may a signal come.
-/

/-! ### Locks -/

/-- The events of a process; the lock inside of an event cannot be taken again. -/
inductive Event where
  | serviceWake
  | serviceShutdown
  | lifecycleReceiptReady
  | stopIntent
  | admission
  deriving DecidableEq

/-- The locks of a process.  `other` are the ones of the logs, of the worker's output and of the
    like. -/
inductive Lock where
  | operatorCommand
  | lifecycle
  | receipt
  | snapshot
  | workers
  | event (event : Event)
  | other (number : Nat)
  deriving DecidableEq

/-- An `RLock`, and not a `Lock`. -/
def Lock.reentrant : Lock → Bool
  | .operatorCommand | .lifecycle => true
  | .receipt | .snapshot | .workers | .event _ | .other _ => false

/-- What the paths through the locks depend on: the accepted intent, and whether the supervisor is
    draining. -/
structure LifecycleData where
  intent : Option LifecycleIntent
  draining : Bool
  deriving DecidableEq

/-- What any thread may make of it: an intent stays, and the supervisor does not open again. -/
def LifecycleData.Changes (data later : LifecycleData) : Prop :=
  (data.intent = none ∨ later.intent = data.intent) ∧ (data.draining = true → later.draining = true)

/-- A part of the program of a thread. -/
abbrev Part := Interrupt.Program Lock LifecycleData

/-! ### Events -/

/-- `Event.set` and `Event.clear`. -/
def Event.change (event : Event) : Part := .withLock (.event event) .skip

/-- `Event.wait`: the lock is given back while the thread sleeps. -/
def Event.wait (event : Event) : Part :=
  .choose (.withLock (.event event) .skip)
    (.seq (.withLock (.event event) .skip) (.withLock (.event event) .skip))

/-! ### The supervisor of the workers -/

/-- `WorkerSupervisor.begin_drain`. -/
def beginDrain : Part :=
  .call (.withLock .workers (.branch (·.draining) .return (.write ({ · with draining := true }))))

/-- `WorkerSupervisor.active_count`, and `owns`. -/
def activeCount : Part := .withLock .workers .skip

/-- `WorkerSupervisor.run`, with what the run of the worker does on the thread. -/
def run (worker : Part) : Part :=
  .seq (.withLock .workers (.branch (·.draining) .raise .skip))
    (.tryFinally worker (.withLock .workers .skip))

/-! ### The engine -/

/-- `ServiceEngine.wake`. -/
def wake : Part := Event.serviceWake.change

/-- `_lifecycle_drain_pending`, `lifecycle_intent` and `mark_service_ready`. -/
def lifecycleRead : Part := .withLock .lifecycle .skip

/-- `lifecycle_status_payload`. -/
def lifecycleStatusPayload : Part := .seq lifecycleRead activeCount

/-- `_lifecycle_exit_ready`. -/
def lifecycleExitReady : Part := .seq lifecycleRead (.choose activeCount .skip)

/-- `stop_event.request("operator_abort")` of a forced request. -/
def requestAbort (force : Bool) : Part := if force then Event.stopIntent.change else .skip

/-- `ServiceEngine.request_lifecycle`. -/
def requestLifecycle (intent : LifecycleIntent) (force : Bool) : Part :=
  .call (.seq
    (.withLock .operatorCommand (.withLock .lifecycle
      (.branch (·.intent.isSome)
        (.branch (fun data => data.intent ≠ some intent) .raise
          (.seq (requestAbort force) (.seq lifecycleStatusPayload .return)))
        -- Under the two locks there is still no other intent.
        (.seq beginDrain (.seq (.write fun data => { data with intent := some (data.intent.getD intent) })
          (requestAbort force))))))
    (.seq wake lifecycleStatusPayload))

/-- `service_snapshot`, `_publish_service_snapshot` and the reads of the published views. -/
def snapshotAccess : Part := .withLock .snapshot .skip

/-- `live_execution_evidence`. -/
def liveExecutionEvidence : Part := .choose activeCount .skip

/-- `_publish_status_snapshot`. -/
def publishStatusSnapshot : Part :=
  .sequence [snapshotAccess, lifecycleRead, liveExecutionEvidence, snapshotAccess, snapshotAccess]

/-- `status_view`: three attempts, and then what was published before. -/
def statusView : Part :=
  .choose (.seq liveExecutionEvidence publishStatusSnapshot) (.seq snapshotAccess (.choose .raise .skip))

/-- `_take_operator_command`, `_claim_owner_work`, the releases and `_operator_command_pending`. -/
def commandAccess : Part := .withLock .operatorCommand .skip

/-- `_reject_pending_operator_command_on_shutdown`. -/
def rejectPendingCommand : Part :=
  .withLock .operatorCommand (.choose .skip Event.admission.change)

/-- What the engine does again and again. -/
inductive Deed where
  | activeCount
  | lifecycleRead
  | lifecycleStatusPayload
  | lifecycleExitReady
  | snapshotAccess
  | liveExecutionEvidence
  | publishStatusSnapshot
  | statusView
  | commandAccess
  | rejectPendingCommand
  | change (event : Event)
  | wait (event : Event)
  | other (number : Nat)

/-- The locks of a deed; a deed may fail after it. -/
def Deed.part : Deed → Part
  | .activeCount => SignalLocks.activeCount
  | .lifecycleRead => SignalLocks.lifecycleRead
  | .lifecycleStatusPayload => SignalLocks.lifecycleStatusPayload
  | .lifecycleExitReady => SignalLocks.lifecycleExitReady
  | .snapshotAccess => SignalLocks.snapshotAccess
  | .liveExecutionEvidence => SignalLocks.liveExecutionEvidence
  | .publishStatusSnapshot => SignalLocks.publishStatusSnapshot
  | .statusView => SignalLocks.statusView
  | .commandAccess => SignalLocks.commandAccess
  | .rejectPendingCommand => SignalLocks.rejectPendingCommand
  | .change event => event.change
  | .wait event => event.wait
  | .other number => .withLock (.other number) .skip

/-- Deeds in a row, any of which may be the last one. -/
def deeds (list : List Deed) : Part :=
  .sequence (list.map fun deed => .seq deed.part (.choose .raise .skip))

/-- `_admit_operator_command`, with what validates the command, what a drop does, and what is done
    under the lock of the receipts. -/
def admitOperatorCommand (validate drop record : List Deed) : Part :=
  .tryFinally
    (.withLock .operatorCommand (.sequence [
      .choose .raise .skip, lifecycleRead, .choose .raise .skip, deeds validate,
      .choose .raise .skip, deeds drop, .withLock .receipt (deeds record)]))
    Event.admission.change

/-- `_mutable_receipt`. -/
def mutableReceipt : Part := .withLock .receipt (.choose .raise .skip)

/-- What the thread does between the points where it holds no lock. -/
inductive Activity where
  | deed (deed : Deed)
  | admitCommand (validate drop record : List Deed)
  | run (worker : List Deed)
  | mutableReceipt

def Activity.part : Activity → Part
  | .deed d => d.part
  | .admitCommand validate drop record => admitOperatorCommand validate drop record
  | .run worker => SignalLocks.run (deeds worker)
  | .mutableReceipt => SignalLocks.mutableReceipt

/-- The program of the thread; the loops of the service go on after a failed activity. -/
def ownerThread (activities : List Activity) : Part :=
  .sequence (activities.map fun activity => .tryExcept activity.part .skip)

/-! ### The host -/

/-- `request_lifecycle` of the host. -/
def hostRequestLifecycle (intent : LifecycleIntent) (force : Bool) : Part :=
  .seq (requestLifecycle intent force)
    (.seq (if force then .seq Event.stopIntent.change wake else .skip)
      Event.lifecycleReceiptReady.change)

/-- The handler for SIGTERM. -/
def requestStop : Part := .seq (.tryExcept (hostRequestLifecycle .stop false) .skip) wake

/-- The thread at the start of its program. -/
def start (data : LifecycleData) (activities : List Activity) : Interrupt.State Lock LifecycleData :=
  ⟨data, [⟨(ownerThread activities).code, []⟩]⟩

/-- One step of the thread. -/
def step : Interrupt.State Lock LifecycleData → Interrupt.Action LifecycleData →
    Option (Interrupt.State Lock LifecycleData) :=
  Interrupt.step Lock.reentrant requestStop.code

/-! ### What the handler tries -/

/-- The thread holds no lock that the handler tries and that cannot be taken again.  The handler
    wakes the owner in every case; after a restart was accepted it does nothing else. -/
def HandlerClear (st : Interrupt.State Lock LifecycleData) : Prop :=
  .event .serviceWake ∉ st.held
    ∧ (st.data.intent = some .restart
      ∨ .workers ∉ st.held ∧ .event .lifecycleReceiptReady ∉ st.held)

theorem intent_of_changes {data later : LifecycleData} {intent : LifecycleIntent}
    (h : data.intent = some intent)
    (hchange : Relation.ReflTransGen LifecycleData.Changes data later) :
    later.intent = some intent := by
  induction hchange with
  | refl => exact h
  | tail _ hstep ih =>
    obtain ⟨hnone | hsame, -⟩ := hstep
    · rw [ih] at hnone
      cases hnone
    · rw [hsame, ih]

/-- The code of the handler after its request. -/
def afterRequest : Code Lock LifecycleData :=
  .acquire (.event .serviceWake) (.release (.event .serviceWake) .done)

/-- A request that was answered. -/
def answered : Code Lock LifecycleData :=
  .acquire (.event .lifecycleReceiptReady) (.release (.event .lifecycleReceiptReady) afterRequest)

/-- A stop after a restart was accepted. -/
def refused : Code Lock LifecycleData :=
  .release .lifecycle (.release .operatorCommand afterRequest)

/-- A stop after a stop was accepted. -/
def repeated : Code Lock LifecycleData :=
  .acquire .lifecycle (.release .lifecycle (.acquire .workers (.release .workers
    (.release .lifecycle (.release .operatorCommand answered)))))

/-- The first stop, while the supervisor drains. -/
def accepted : Code Lock LifecycleData :=
  .write (fun data => { data with intent := some (data.intent.getD .stop) })
    (.release .lifecycle (.release .operatorCommand
      (.acquire (.event .serviceWake) (.release (.event .serviceWake)
        (.acquire .lifecycle (.release .lifecycle (.acquire .workers (.release .workers
          answered))))))))

/-- The first stop. -/
def opened : Code Lock LifecycleData :=
  .acquire .workers (.read fun data =>
    if data.draining then .release .workers accepted
    else .write ({ · with draining := true }) (.release .workers accepted))

theorem code_requestStop :
    requestStop.code = .acquire .operatorCommand (.acquire .lifecycle (.read fun data =>
      if data.intent.isSome then
        .read fun data => if data.intent ≠ some .stop then refused else repeated
      else opened)) := by
  have hstop : ∀ data : LifecycleData, decide (data.intent ≠ some .stop) = true
      ↔ data.intent ≠ some .stop := fun _ => decide_eq_true_iff
  simp only [requestStop, hostRequestLifecycle, requestLifecycle, Interrupt.Program.code,
    Interrupt.Program.compile, Exits.map, wake, Event.change, requestAbort, lifecycleStatusPayload,
    lifecycleRead, activeCount, beginDrain, Bool.false_eq_true, if_false, hstop]
  rfl

/-- The locks of a full request. -/
def Requested (lock : Lock) : Prop :=
  .workers = lock ∨ .event .lifecycleReceiptReady = lock ∨ .event .serviceWake = lock

/-- A lock that the handler does not try: it wakes the owner in every case, and after a restart was
    accepted it does nothing else. -/
def Spares (lock : Lock) (data : LifecycleData) : Prop :=
  .event .serviceWake ≠ lock
    ∧ (data.intent = some .restart ∨ .workers ≠ lock ∧ .event .lifecycleReceiptReady ≠ lock)

section Avoids

variable {lock : Lock} (hplain : lock.reentrant = false) (data : LifecycleData)

theorem avoids_refused :
    Avoids LifecycleData.Changes lock refused data ↔ .event .serviceWake ≠ lock := by
  simp [refused, afterRequest, Avoids]

include hplain

theorem ne_lifecycle : Lock.lifecycle ≠ lock := by
  rintro rfl
  cases hplain

theorem avoids_repeated : Avoids LifecycleData.Changes lock repeated data ↔ ¬ Requested lock := by
  simp [repeated, answered, afterRequest, Avoids, Requested, ne_lifecycle hplain]

theorem avoids_accepted : Avoids LifecycleData.Changes lock accepted data ↔ ¬ Requested lock := by
  refine avoids_write_iff fun later _ => ?_
  simp [answered, afterRequest, Avoids, Requested, ne_lifecycle hplain]

theorem avoids_opened : Avoids LifecycleData.Changes lock opened data ↔ ¬ Requested lock := by
  have hread : Avoids LifecycleData.Changes lock (.read fun data =>
      if data.draining then .release .workers accepted
      else .write ({ · with draining := true }) (.release .workers accepted)) data
      ↔ ¬ Requested lock := by
    refine avoids_read_iff fun later _ => ?_
    split
    · exact avoids_accepted hplain later
    · exact avoids_write_iff fun last _ => avoids_accepted hplain _
  constructor
  · exact fun h => hread.mp h.2
  · refine fun h => ⟨?_, hread.mpr h⟩
    rintro rfl
    exact h (.inl rfl)

/-- What the handler tries after it has read the accepted intent. -/
theorem avoids_requestRead :
    Avoids LifecycleData.Changes lock
        (if data.intent.isSome then
          .read fun data => if data.intent ≠ some .stop then refused else repeated
        else opened) data
      ↔ Spares lock data := by
  cases hintent : data.intent with
  | none =>
    rw [if_neg (by simp), avoids_opened hplain]
    simp [Spares, Requested, hintent, and_comm, and_assoc]
  | some intent =>
    rw [Option.isSome_some, if_pos rfl]
    refine avoids_read_iff fun later hchange => ?_
    have hlater := intent_of_changes hintent hchange
    cases intent with
    | stop =>
      rw [if_neg (not_not.mpr hlater), avoids_repeated hplain]
      simp [Spares, Requested, hintent, and_comm, and_assoc]
    | restart =>
      rw [if_pos (by simp [hlater]), avoids_refused]
      simp [Spares, hintent]

/-- **What the handler tries.** -/
theorem avoids_requestStop :
    Avoids LifecycleData.Changes lock requestStop.code data ↔ Spares lock data := by
  have hoperator : Lock.operatorCommand ≠ lock := by
    rintro rfl
    cases hplain
  have hread : (∀ later, Relation.ReflTransGen LifecycleData.Changes data later →
      Spares lock later) ↔ Spares lock data := by
    refine ⟨fun h => h data .refl, fun h later hchange => ⟨h.1, h.2.imp_left fun hrestart => ?_⟩⟩
    exact intent_of_changes hrestart hchange
  rw [code_requestStop, ← hread]
  constructor
  · exact fun h later hchange => (avoids_requestRead hplain later).mp (h.2.2 later hchange)
  · exact fun h => ⟨hoperator, ne_lifecycle hplain, fun later hchange =>
      (avoids_requestRead hplain later).mpr (h later hchange)⟩

end Avoids

/-! ### What the thread does -/

section Nested

variable {own : List Lock}

/-- A part that nests its locks as they allow, and changes what any thread may change. -/
abbrev Nested (part : Part) (own : List Lock) : Prop :=
  part.Nested Lock.reentrant LifecycleData.Changes own

theorem nested_requestStop : Nested requestStop [] := by
  have hopen : ∀ data : LifecycleData,
      data.Changes { data with intent := some (data.intent.getD .stop) } := by
    intro data
    refine ⟨?_, id⟩
    cases h : data.intent with
    | none => exact .inl rfl
    | some intent => exact .inr rfl
  have hdrain : ∀ data : LifecycleData, data.Changes { data with draining := true } :=
    fun data => ⟨.inr rfl, fun _ => rfl⟩
  simp [requestStop, hostRequestLifecycle, requestLifecycle, wake, Event.change, requestAbort,
    lifecycleStatusPayload, lifecycleRead, activeCount, beginDrain, Nested,
    Interrupt.Program.Nested, Lock.reentrant, hopen, hdrain]

/-- The locks around a deed. -/
def Around (own : List Lock) : Prop := ∀ lock ∈ own, lock = .operatorCommand ∨ lock = .receipt

theorem Around.not_mem {lock : Lock} (h : Around own) (hoperator : lock ≠ .operatorCommand)
    (hreceipt : lock ≠ .receipt) : lock ∉ own := fun hmem => by
  obtain heq | heq := h lock hmem
  · exact hoperator heq
  · exact hreceipt heq

/-- A deed takes no lock again that is around it, but for the ones that allow it. -/
theorem nested_deed (deed : Deed) (h : Around own) : Nested deed.part own := by
  have hsnapshot : Lock.snapshot ∉ own := h.not_mem nofun nofun
  have hworkers : Lock.workers ∉ own := h.not_mem nofun nofun
  have hevent : ∀ event, Lock.event event ∉ own := fun _ => h.not_mem nofun nofun
  have hother : ∀ number, Lock.other number ∉ own := fun _ => h.not_mem nofun nofun
  cases deed <;>
    simp [Deed.part, activeCount, lifecycleRead, lifecycleStatusPayload, lifecycleExitReady,
      snapshotAccess, liveExecutionEvidence, publishStatusSnapshot, statusView, commandAccess,
      rejectPendingCommand, Event.change, Event.wait, Nested, Interrupt.Program.Nested,
      Interrupt.Program.sequence, Lock.reentrant, hsnapshot, hworkers, hevent, hother]

theorem nested_deeds (list : List Deed) (h : Around own) : Nested (deeds list) own :=
  .sequence <| List.forall_mem_map.mpr fun deed _ => ⟨nested_deed deed h, trivial, trivial⟩

theorem nested_activity (activity : Activity) : Nested activity.part [] := by
  have hnone : Around [] := nofun
  cases activity with
  | deed deed => exact nested_deed deed hnone
  | mutableReceipt => exact ⟨.inr nofun, trivial, trivial⟩
  | run worker =>
    exact ⟨⟨.inr nofun, trivial, trivial⟩, nested_deeds worker hnone, .inr nofun, trivial⟩
  | admitCommand validate drop record =>
    have hoperator : Around [.operatorCommand] := by
      intro lock hlock
      exact .inl (List.mem_singleton.mp hlock)
    have hreceipt : Around [.receipt, .operatorCommand] := by
      intro lock hlock
      obtain rfl | hlock := List.mem_cons.mp hlock
      · exact .inr rfl
      · exact hoperator lock hlock
    refine ⟨⟨.inl rfl, .sequence ?_⟩, .inr nofun, trivial⟩
    simp only [List.forall_mem_cons]
    exact ⟨⟨trivial, trivial⟩, ⟨.inl rfl, trivial⟩, ⟨trivial, trivial⟩,
      nested_deeds validate hoperator, ⟨trivial, trivial⟩, nested_deeds drop hoperator,
      ⟨.inr (by decide), nested_deeds record hreceipt⟩, nofun⟩

theorem nested_ownerThread (activities : List Activity) : Nested (ownerThread activities) [] :=
  .sequence <| List.forall_mem_map.mpr fun activity _ => ⟨nested_activity activity, trivial⟩

theorem disciplined_requestStop :
    Disciplined Lock.reentrant LifecycleData.Changes requestStop.code [] :=
  nested_requestStop.disciplined rfl rfl rfl

theorem orderly_start (data : LifecycleData) (activities : List Activity) :
    Interrupt.Orderly Lock.reentrant LifecycleData.Changes (start data activities) where
  disciplined := by
    intro frame hframe
    obtain rfl := List.mem_singleton.mp hframe
    exact (nested_ownerThread activities).disciplined rfl rfl rfl
  above := List.pairwise_singleton _ _

end Nested

/-! ### Where a signal may come -/

section Signals

variable {data : LifecycleData} {activities : List Activity}
  {st : Interrupt.State Lock LifecycleData}

theorem clear_iff : Clear Lock.reentrant LifecycleData.Changes requestStop.code st
    ↔ HandlerClear st := by
  have hspares : Clear Lock.reentrant LifecycleData.Changes requestStop.code st
      ↔ ∀ lock ∈ st.held, lock.reentrant = false → Spares lock st.data :=
    forall₃_congr fun lock _ hplain => avoids_requestStop hplain st.data
  rw [hspares]
  constructor
  · intro h
    refine ⟨fun hheld => (h _ hheld rfl).1 rfl, or_iff_not_imp_left.mpr fun hrestart => ⟨?_, ?_⟩⟩
    · exact fun hheld => ((h _ hheld rfl).2.resolve_left hrestart).1 rfl
    · exact fun hheld => ((h _ hheld rfl).2.resolve_left hrestart).2 rfl
  · rintro ⟨hwake, hrest⟩ lock hheld -
    refine ⟨?_, hrest.imp_right fun hfree => ⟨?_, ?_⟩⟩
    · rintro rfl
      exact hwake hheld
    · rintro rfl
      exact hfree.1 hheld
    · rintro rfl
      exact hfree.2 hheld

/-- A signal that comes while the thread holds a lock that the handler tries. -/
theorem exists_waitsForItself (hheld : ¬ HandlerClear st)
    {interrupted : Interrupt.State Lock LifecycleData}
    (hstep : step st .interrupt = some interrupted) :
    ∃ later, Run step (Uninterrupted LifecycleData.Changes) interrupted later
      ∧ later.SelfWaits Lock.reentrant := by
  have hclear : ∃ lock ∈ st.held, lock.reentrant = false
      ∧ ¬ Avoids LifecycleData.Changes lock requestStop.code st.data := by
    rw [← clear_iff] at hheld
    unfold Clear at hheld
    push Not at hheld
    exact hheld
  obtain ⟨lock, hlock, hplain, htries⟩ := hclear
  have hframes : interrupted = ⟨st.data, ⟨requestStop.code, []⟩ :: st.frames⟩ := by
    unfold step Interrupt.step at hstep
    cases h : st.frames with
    | nil =>
      simp only [h] at hstep
      cases hstep
    | cons frame below =>
      simp only [h] at hstep
      cases hstep
      rfl
  rw [hframes]
  exact exists_selfWaits hplain hlock htries

end Signals

end Devlegate.SignalLocks
