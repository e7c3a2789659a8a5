import Devlegate.Lib.Transition
import Devlegate.OperatorAdmission
import Devlegate.SaveRace

namespace Devlegate

open Transition

/-!
# The owner loop and the threads around it

`_run_polling` runs on the owner thread.  IPC threads and the signal handlers submit commands,
request a stop or a restart and set the stop event while it runs; they share its flags, the command
slot, the wake event and the drain flag of the worker supervisor.

* `Client`: a thread of the host, between two of its steps inside `request_lifecycle`,
  `_submit_operator_command` or a signal handler.
* `LoopPc`: the owner inside `_run_polling`, `_wait_for_service_event`, `run_iteration` and
  `WorkerSupervisor.run`.
* `Host.step`: one step of one thread.

`request_lifecycle` holds the command lock and the lifecycle lock over several steps; every other
section under one of these locks is one step, which waits for the holder.  The handlers run on the
owner's own thread and may enter locks that it holds, but they touch nothing that its sections
under the command lock touch.  What an iteration saves is left open.
-/

/-! ### Threads -/

inductive LifecycleIntent where
  | stop
  | restart
  deriving DecidableEq, Repr

/-- A call of the host's `request_lifecycle`; `signalled` says that the handler of `SIGTERM` made
    it. -/
structure LifecycleRequest where
  intent : LifecycleIntent
  requestId : String
  force : Bool := false
  signalled : Bool := false
  deriving DecidableEq, Repr

/-- A thread of the host between two of its steps. -/
inductive Client where
  | idle
  /-- Before the locks of `request_lifecycle`. -/
  | requesting (r : LifecycleRequest)
  /-- In the locks; no intent was accepted before. -/
  | opened (r : LifecycleRequest)
  /-- The supervisor drains. -/
  | drained (r : LifecycleRequest)
  /-- The intent is stored. -/
  | accepted (r : LifecycleRequest)
  /-- Past the save of a forced stop. -/
  | saved (r : LifecycleRequest)
  /-- In the locks; a forced repetition of the accepted intent. -/
  | repeated (r : LifecycleRequest)
  /-- Out of the locks, before `wake()`. -/
  | owesWake (r : LifecycleRequest)
  /-- Back in the host. -/
  | hosting (r : LifecycleRequest)
  /-- In the host or in a handler, before its own `wake()`. -/
  | owesHostWake
  /-- In the handler of `SIGINT`. -/
  | interrupting
  /-- Before the lock of `_submit_operator_command`. -/
  | submitting (request : Request)
  /-- The command is queued, before `wake()`. -/
  | owesCommandWake (command : Nat)
  | waiting (command : Nat)
  deriving DecidableEq, Repr

/-- The thread has stored an intent, and its `wake()` is still to come. -/
def Client.owesIntent : Client → Bool
  | .accepted _ | .saved _ | .owesWake _ => true
  | _ => false

/-- The thread may have set the stop event, and its `wake()` is still to come. -/
def Client.owesStop : Client → Bool
  | .owesWake _ | .owesHostWake => true
  | .hosting r => r.force
  | _ => false

/-- What the owner claimed. -/
inductive Work where
  | command (c : Nat)
  | scheduler
  | nothing
  deriving DecidableEq, Repr

/-- The places that call `_lifecycle_exit_ready`. -/
inductive ExitCheck where
  | top
  | startup
  | polling
  deriving DecidableEq, Repr

/-- The owner thread between two of its steps. -/
inductive LoopPc where
  | starting
  /-- `_lifecycle_exit_ready`: the intent, the active workers, the owned execution. -/
  | drainCheck (at_ : ExitCheck)
  | activeCheck (at_ : ExitCheck)
  | ownedCheck (at_ : ExitCheck)
  | stopCheck
  /-- The startup admission window. -/
  | window
  | windowWait
  | windowClear
  | claim
  | admission (c : Nat)
  | work (w : Work)
  /-- `run_iteration`, up to the launch of a worker. -/
  | iterate (w : Work)
  | gate (w : Work) (executionId : String)
  | record (w : Work) (executionId : String)
  /-- `WorkerSupervisor.run`. -/
  | enlist (w : Work) (executionId : String)
  | spawn (w : Work) (executionId : String)
  | supervise (w : Work) (executionId : String)
  | retire (w : Work) (executionId : String)
  | release (w : Work) (exits : Bool)
  | rest
  /-- `_wait_for_service_event`. -/
  | pollClear
  | pollStop
  | pollPending
  | pollRecheck
  | pollWait
  | pollAnswer
  /-- The wait of a loop without a stop event. -/
  | bareWait
  | bareClear
  | shutDown
  | reject
  | stopped
  deriving DecidableEq, Repr

/-- The thread that waits for the stop event. -/
inductive StopWaker where
  | absent
  | waiting
  | done
  deriving DecidableEq, Repr

/-- The arguments of `_run_polling`. -/
structure LoopConfig where
  once : Bool := false
  stopEvent : Bool := true
  deriving DecidableEq, Repr

/-- The shared variables and the threads.  `claims`, `enlisted` and `started` are the commands
    claimed, the executions entered in the supervisor's table and the processes started so far. -/
structure Host where
  memory : RuntimeState
  command : Nat → Request := fun _ => noCommand.request
  created : Nat := 0
  queued : Option Nat := none
  answered : List Nat := []
  operatorActive : Bool := false
  activeCommand : Option Nat := none
  schedulerActive : Bool := false
  intent : Option LifecycleIntent := none
  holder : Option Nat := none
  wake : Bool := false
  stop : Bool := false
  installed : Bool := false
  shutdown : Bool := false
  startupWindow : Bool := true
  stopWaker : StopWaker := .absent
  draining : Bool := false
  active : List String := []
  owned : Option String := none
  owner : LoopPc := .starting
  client : Nat → Client := fun _ => .idle
  claims : List Nat := []
  enlisted : List String := []
  started : List String := []

namespace Host

/-! ### The threads of the host -/

/-- The thread goes on at `c`. -/
def goto (s : Host) (t : Nat) (c : Client) : Host :=
  { s with client := Function.update s.client t c }

/-- The locked section of `_submit_operator_command`. -/
def submitRequest (s : Host) (t : Nat) (q : Request) : Host :=
  if s.shutdown || (s.installed && s.stop) then s.goto t .idle
  else if s.intent.isSome then s.goto t .idle
  else if (s.memory.mutableReceipts.get q.requestId).isSome then
    -- the receipt answers, or the ids collide
    s.goto t .idle
  else match s.queued.or s.activeCommand with
    | some c =>
      if (s.command c).requestId = q.requestId ∧ (s.command c).method = q.method
          ∧ (s.command c).fingerprint = q.fingerprint then s.goto t (.waiting c)
      else s.goto t .idle
    | none =>
      if s.schedulerActive then s.goto t .idle
      else { s.goto t (.owesCommandWake s.created) with
        command := Function.update s.command s.created q
        created := s.created + 1
        queued := some s.created }

/-- The checks of `request_lifecycle` under its locks. -/
def requestLifecycle (s : Host) (t : Nat) (r : LifecycleRequest) : Host :=
  match s.intent with
  | some intent =>
    if intent ≠ r.intent then s.goto t (if r.signalled then .owesHostWake else .idle)
    else if r.force then { s.goto t (.repeated r) with holder := some t }
    else s.goto t (.hosting r)
  | none => { s.goto t (.opened r) with holder := some t }

variable [Sha256]

/-- The save of a forced stop; when it raises, the exception leaves `request_lifecycle`. -/
def forcedSave (s : Host) (t : Nat) (r : LifecycleRequest) (storeFails : Bool) : Host :=
  if r.intent = .stop ∧ r.force then
    match forcedStopMarker r.requestId s.memory with
    | none => s.goto t (.saved r)
    | some marker =>
      match commitSave storeFails (forcedStopCall s.memory.phase marker) s.memory with
      | some memory => { s.goto t (.saved r) with memory := memory }
      | none => { s.goto t .idle with holder := none }
  else s.goto t (.saved r)

/-- One step of a thread of the host; `storeFails` is how the save of a forced stop ends, and a
    waiting submitter without an answer gives up. -/
def clientStep (cfg : LoopConfig) (s : Host) (t : Nat) (storeFails : Bool) : Option Host :=
  match s.client t with
  | .idle => none
  | .requesting r => if s.holder = none then some (s.requestLifecycle t r) else none
  | .opened r => some { s.goto t (.drained r) with draining := true }
  | .drained r => some { s.goto t (.accepted r) with intent := some r.intent }
  | .accepted r => some (s.forcedSave t r storeFails)
  | .saved r => some { s.goto t (.owesWake r) with
      stop := s.stop || (r.force && s.installed), holder := none }
  | .repeated r => some { s.goto t (.hosting r) with
      stop := s.stop || s.installed, holder := none }
  | .owesWake r => some { s.goto t (.hosting r) with wake := true }
  | .hosting r =>
    if r.force then some { s.goto t .owesHostWake with stop := s.stop || cfg.stopEvent }
    else some (s.goto t (if r.signalled then .owesHostWake else .idle))
  | .owesHostWake => some { s.goto t .idle with wake := true }
  | .interrupting => some { s.goto t .owesHostWake with stop := s.stop || cfg.stopEvent }
  | .submitting q => if s.holder = none then some (s.submitRequest t q) else none
  | .owesCommandWake c => some { s.goto t (.waiting c) with wake := true }
  | .waiting c =>
    if c ∈ s.answered then some (s.goto t .idle)
    else if s.holder = none then
      some { s.goto t .idle with queued := if s.queued = some c then none else s.queued }
    else none

/-! ### The owner thread -/

/-- How the owner goes on where its program leaves it open. -/
inductive Choice where
  | go
  | timeout
  | save (state : RuntimeState)
  | refuse
  | enter
  | own (executionId : String)
  | launch (executionId : String)
  | leave
  | interrupted
  | abort

omit [Sha256] in
/-- The last test of `_lifecycle_exit_ready`. -/
def ownedAnswer (s : Host) : Bool :=
  s.owned.isNone || s.memory.phase != .agentRunning
    || match s.memory.executionStage with
      | some .postCheckpoint | some .publishing | some .postPublication | some .lifecycle => true
      | _ => false

omit [Sha256] in
/-- The loop goes on with the answer of `_lifecycle_exit_ready`. -/
def exitAnswered (s : Host) (at_ : ExitCheck) (ready : Bool) : Host :=
  { s with owner :=
      match at_, ready with
      | .top, true | .polling, true => .shutDown
      | .top, false => .stopCheck
      | .startup, true => .drainCheck .top
      | .startup, false => .claim
      | .polling, false => .pollStop }

omit [Sha256] in
/-- `_claim_owner_work`. -/
def claimOwnerWork (s : Host) : Host :=
  match s.queued with
  | some c =>
    if s.operatorActive || s.schedulerActive then { s with owner := .work .nothing }
    else { s with
      queued := none, operatorActive := true, activeCommand := some c, owner := .admission c
      claims := c :: s.claims }
  | none =>
    if s.operatorActive || s.schedulerActive then { s with owner := .work .nothing }
    else { s with schedulerActive := true, owner := .work .scheduler }

omit [Sha256] in
/-- The `finally` of the loop body. -/
def releaseWork (s : Host) (exits : Bool) : Work → Host
  | .command _ => { s with
      operatorActive := false, activeCommand := none, owner := if exits then .stopped else .rest }
  | .scheduler => { s with schedulerActive := false, owner := if exits then .stopped else .rest }
  | .nothing => { s with owner := if exits then .stopped else .rest }

omit [Sha256] in
/-- The steps of an iteration and of the supervisor. -/
def iterationStep (s : Host) (w : Work) : Choice → Option Host
  | .save state => some { s with memory := state }
  | .own executionId => some { s with owned := some executionId }
  | .launch executionId => some { s with owner := .gate w executionId }
  | .leave => some { s with owned := none, owner := .work w }
  | _ => none

omit [Sha256] in
/-- One step of the owner thread. -/
def ownerStep (cfg : LoopConfig) (s : Host) (choice : Choice) : Option Host :=
  match s.owner with
  | .starting => some { s with
      shutdown := false, installed := cfg.stopEvent
      stopWaker := if cfg.stopEvent && !cfg.once then .waiting else s.stopWaker
      owner := .drainCheck .top }
  | .drainCheck k =>
    if s.holder ≠ none then none
    else if s.intent.isNone then some (s.exitAnswered k false)
    else some { s with owner := .activeCheck k }
  | .activeCheck k =>
    if s.active ≠ [] then some (s.exitAnswered k false) else some { s with owner := .ownedCheck k }
  | .ownedCheck k => some (s.exitAnswered k s.ownedAnswer)
  | .stopCheck =>
    if cfg.stopEvent && s.stop && s.memory.phase != .mergePending then
      some { s with owner := .shutDown }
    else some { s with owner := .window }
  | .window =>
    if s.startupWindow then some { s with startupWindow := false, owner := .windowWait }
    else some { s with owner := .claim }
  | .windowWait =>
    if s.wake || choice matches .timeout then some { s with owner := .windowClear } else none
  | .windowClear => some { s with wake := false, owner := .drainCheck .startup }
  | .claim => if s.holder = none then some s.claimOwnerWork else none
  | .admission c =>
    if s.holder ≠ none then none
    else if s.intent.isSome || choice matches .refuse then
      some { s with answered := c :: s.answered, owner := .release (.command c) false }
    else some { s with answered := c :: s.answered, owner := .work (.command c) }
  | .work w =>
    match choice with
    | .save state => some { s with memory := state }
    | .enter => some { s with owned := none, owner := .iterate w }
    | .leave => some { s with owner := .release w false }
    | .interrupted => some { s with shutdown := true, owner := .release w true }
    | _ => none
  | .iterate w => s.iterationStep w choice
  | .gate w executionId =>
    -- `_stop_before_admission`
    if s.holder ≠ none then none
    else if (s.installed && s.stop) || s.intent.isSome then
      some { s with owned := none, owner := .work w }
    else some { s with owner := .record w executionId }
  | .record w executionId => some { s with
      memory := { s.memory with
        phase := .agentRunning, executionStage := some .workerLaunch
        executionId := some executionId, workerIdentity := none }
      owned := some executionId, owner := .enlist w executionId }
  | .enlist w executionId =>
    if s.draining then
      -- `WorkerAdmissionClosed`
      some { s with
        memory := { s.memory with
          phase := .idle, executionStage := none, pendingExecutionReport := none
          workerIdentity := none }
        owned := none, owner := .work w }
    else some { s with
      active := executionId :: s.active.filter (· != executionId)
      enlisted := executionId :: s.enlisted, owner := .spawn w executionId }
  | .spawn w executionId =>
    match choice with
    | .refuse => some { s with owner := .retire w executionId }
    | _ => some { s with
        started := executionId :: s.started, owner := .supervise w executionId }
  | .supervise w executionId =>
    match choice with
    | .save state => some { s with memory := state }
    | _ => some { s with owner := .retire w executionId }
  | .retire w executionId =>
    some { s with active := s.active.filter (· != executionId), owner := .iterate w }
  | .release w exits => if s.holder = none then some (s.releaseWork exits w) else none
  | .rest =>
    if cfg.once || choice matches .abort then some { s with owner := .stopped }
    else some { s with owner := if cfg.stopEvent then .pollClear else .bareWait }
  | .pollClear => some { s with wake := false, owner := .drainCheck .polling }
  | .pollStop => some { s with owner := if s.stop then .pollAnswer else .pollPending }
  | .pollPending =>
    if s.holder ≠ none then none
    else some { s with owner := if s.queued.isSome then .pollAnswer else .pollRecheck }
  | .pollRecheck =>
    if s.holder ≠ none then none
    else some { s with owner := if s.queued.isSome then .drainCheck .top else .pollWait }
  | .pollWait =>
    if s.wake || choice matches .timeout then some { s with owner := .pollAnswer } else none
  | .pollAnswer => some { s with owner := if s.stop then .shutDown else .drainCheck .top }
  | .bareWait =>
    if s.wake || choice matches .timeout then some { s with owner := .bareClear } else none
  | .bareClear => some { s with wake := false, owner := .drainCheck .top }
  | .shutDown => some { s with shutdown := true, owner := .reject }
  | .reject =>
    if s.holder ≠ none then none
    else some { s with
      answered := s.queued.toList ++ s.answered, queued := none, owner := .stopped }
  | .stopped => none

/-! ### The system -/

end Host

/-- The steps of all threads. -/
inductive HostAction where
  | arrive (t : Nat) (c : Client)
  | client (t : Nat) (storeFails : Bool)
  | owner (choice : Host.Choice)
  | stopWake

/-- The calls a thread can begin with. -/
def Client.isCall : Client → Bool
  | .requesting _ | .interrupting | .submitting _ => true
  | _ => false

/-- One step; `none` when the action is not possible. -/
def Host.step [Sha256] (cfg : LoopConfig) (s : Host) : HostAction → Option Host
  | .arrive t c =>
    if s.client t = .idle ∧ c.isCall then some (s.goto t c) else none
  | .client t storeFails => s.clientStep cfg t storeFails
  | .owner choice => s.ownerStep cfg choice
  | .stopWake =>
    if s.stopWaker = .waiting ∧ s.stop then some { s with wake := true, stopWaker := .done }
    else none

/-- An engine that has just been constructed on a loaded state. -/
def Host.boot (memory : RuntimeState) : Host := { memory := memory }

/-! ### What the steps leave alone -/

/-- A step of another thread leaves the owner, its flags and the supervisor's table alone. -/
structure ClientFrame (s s' : Host) : Prop where
  owner : s'.owner = s.owner
  owned : s'.owned = s.owned
  active : s'.active = s.active
  enlisted : s'.enlisted = s.enlisted
  started : s'.started = s.started
  operatorActive : s'.operatorActive = s.operatorActive
  activeCommand : s'.activeCommand = s.activeCommand
  schedulerActive : s'.schedulerActive = s.schedulerActive
  claims : s'.claims = s.claims
  startupWindow : s'.startupWindow = s.startupWindow
  installed : s'.installed = s.installed

/-- A step of the owner leaves the other threads, the intent and the drain flag alone. -/
structure OwnerFrame (s s' : Host) : Prop where
  client : s'.client = s.client
  intent : s'.intent = s.intent
  draining : s'.draining = s.draining
  stop : s'.stop = s.stop
  created : s'.created = s.created

section Frames

variable {cfg : LoopConfig} {s s' : Host}

theorem Host.goto_frame (s : Host) (t : Nat) (c : Client) : ClientFrame s (s.goto t c) :=
  ⟨rfl, rfl, rfl, rfl, rfl, rfl, rfl, rfl, rfl, rfl, rfl⟩

theorem Host.submitRequest_frame (s : Host) (t : Nat) (q : Request) :
    ClientFrame s (s.submitRequest t q) := by
  unfold Host.submitRequest
  repeat' split
  all_goals exact ⟨rfl, rfl, rfl, rfl, rfl, rfl, rfl, rfl, rfl, rfl, rfl⟩

theorem Host.requestLifecycle_frame (s : Host) (t : Nat) (r : LifecycleRequest) :
    ClientFrame s (s.requestLifecycle t r) := by
  unfold Host.requestLifecycle
  repeat' split
  all_goals exact ⟨rfl, rfl, rfl, rfl, rfl, rfl, rfl, rfl, rfl, rfl, rfl⟩

theorem Host.forcedSave_frame [Sha256] (s : Host) (t : Nat) (r : LifecycleRequest)
    (storeFails : Bool) : ClientFrame s (s.forcedSave t r storeFails) := by
  unfold Host.forcedSave
  repeat' split
  all_goals exact ⟨rfl, rfl, rfl, rfl, rfl, rfl, rfl, rfl, rfl, rfl, rfl⟩

theorem Host.clientStep_frame [Sha256] {t : Nat} {storeFails : Bool}
    (h : s.clientStep cfg t storeFails = some s') : ClientFrame s s' := by
  unfold Host.clientStep at h
  have hrest : ClientFrame s s := ⟨rfl, rfl, rfl, rfl, rfl, rfl, rfl, rfl, rfl, rfl, rfl⟩
  have hrequest := s.requestLifecycle_frame t
  have hsave := s.forcedSave_frame t
  have hsubmit := s.submitRequest_frame t
  split at h <;> (try split at h) <;> (try split at h) <;> first
    | cases h
      done
    | obtain rfl := Option.some.inj h
      first
        | exact hrequest _
        | exact hsave _ _
        | exact hsubmit _
        | exact ⟨rfl, rfl, rfl, rfl, rfl, rfl, rfl, rfl, rfl, rfl, rfl⟩

/-- A thread moves itself only. -/
theorem Host.clientStep_others [Sha256] {t : Nat} {storeFails : Bool}
    (h : s.clientStep cfg t storeFails = some s') {u : Nat} (hu : u ≠ t) :
    s'.client u = s.client u := by
  unfold Host.clientStep Host.requestLifecycle Host.forcedSave Host.submitRequest at h
  repeat' split at h
  all_goals
    first
      | cases h
        done
      | obtain rfl := Option.some.inj h
        exact Function.update_of_ne hu _ _

theorem Host.ownerStep_frame {choice : Host.Choice}
    (h : s.ownerStep cfg choice = some s') : OwnerFrame s s' := by
  unfold Host.ownerStep at h
  split at h
  all_goals
    try unfold Host.iterationStep at h
    try unfold Host.claimOwnerWork at h
    try unfold Host.exitAnswered at h
    try unfold Host.releaseWork at h
    repeat' split at h
  all_goals
    first
      | cases h
        done
      | obtain rfl := Option.some.inj h
        exact ⟨rfl, rfl, rfl, rfl, rfl⟩

end Frames

/-! ### The owner's own variables -/

/-- The worker in the supervisor's table. -/
def LoopPc.worker : LoopPc → Option String
  | .spawn _ executionId | .supervise _ executionId | .retire _ executionId => some executionId
  | _ => none

/-- The owner is inside `run_iteration`. -/
def LoopPc.iterates : LoopPc → Bool
  | .iterate _ | .gate _ _ | .record _ _ | .enlist _ _ | .spawn _ _ | .supervise _ _
  | .retire _ _ => true
  | _ => false

/-- What the owner has claimed and not released. -/
def LoopPc.claimed : LoopPc → Option Work
  | .admission c => some (.command c)
  | .work w | .iterate w | .gate w _ | .record w _ | .enlist w _ | .spawn w _ | .supervise w _
  | .retire w _ | .release w _ => some w
  | _ => none

/-- The claim is an operator command. -/
def Work.isCommand : Work → Bool
  | .command _ => true
  | _ => false

/-- **The owner's variables follow its program.** The supervisor's table, the owned execution and
    the two activity flags are what the owner's place in the loop says. -/
structure Orderly (s : Host) : Prop where
  active : s.active = s.owner.worker.toList
  owned : s.owner.iterates = false → s.owned = none
  operator : s.operatorActive = s.owner.claimed.any Work.isCommand
  scheduler : s.schedulerActive = (s.owner.claimed == some .scheduler)
  claimed : s.owner.claimed ≠ some .nothing

theorem orderly_boot (memory : RuntimeState) : Orderly (Host.boot memory) :=
  ⟨rfl, fun _ => rfl, rfl, rfl, nofun⟩

theorem Orderly.of_frame {s s' : Host} (h : Orderly s) (f : ClientFrame s s') : Orderly s' := by
  obtain ⟨hactive, howned, hoperator, hscheduler, hclaimed⟩ := h
  constructor
  · rw [f.active, f.owner, hactive]
  · rw [f.owner, f.owned]
    exact howned
  · rw [f.operatorActive, f.owner, hoperator]
  · rw [f.schedulerActive, f.owner, hscheduler]
  · rw [f.owner]
    exact hclaimed

/-- The owner's next place with the variables it leaves. -/
theorem Orderly.ownerStep {cfg : LoopConfig} {s s' : Host} {choice : Host.Choice}
    (h : Orderly s) (hstep : s.ownerStep cfg choice = some s') : Orderly s' := by
  obtain ⟨hactive, howned, hoperator, hscheduler, hclaimed⟩ := h
  unfold Host.ownerStep at hstep
  split at hstep
  all_goals
    rename_i hpc
    rw [hpc] at hactive howned hoperator hscheduler hclaimed
    try unfold Host.iterationStep at hstep
    try unfold Host.claimOwnerWork at hstep
    try unfold Host.exitAnswered at hstep
    try unfold Host.releaseWork at hstep
    repeat' split at hstep
  all_goals
    first
      | cases hstep
        done
      | obtain rfl := Option.some.inj hstep
        constructor <;>
          simp_all [LoopPc.worker, LoopPc.iterates, LoopPc.claimed, Work.isCommand]

theorem Orderly.step [Sha256] {cfg : LoopConfig} {s s' : Host} {a : HostAction} (h : Orderly s)
    (hstep : s.step cfg a = some s') : Orderly s' := by
  cases a with
  | arrive t c =>
    simp only [Host.step] at hstep
    split at hstep
    · obtain rfl := Option.some.inj hstep
      exact h.of_frame (s.goto_frame t c)
    · cases hstep
  | client t storeFails => exact h.of_frame (Host.clientStep_frame hstep)
  | owner choice => exact h.ownerStep hstep
  | stopWake =>
    simp only [Host.step] at hstep
    split at hstep
    · obtain rfl := Option.some.inj hstep
      exact h.of_frame ⟨rfl, rfl, rfl, rfl, rfl, rfl, rfl, rfl, rfl, rfl, rfl⟩
    · cases hstep

end Devlegate
