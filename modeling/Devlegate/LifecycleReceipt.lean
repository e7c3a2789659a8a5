import Devlegate.ForcedStop

namespace Devlegate

open Transition

/-!
# The lifecycle receipt

A stop or a restart leaves a receipt on disk.  The threads that accept requests write `accepted`,
the host's main thread writes what became of the request, and no writer looks at what is there.

* `LifecycleReceipt`: what the file holds.
* `ServiceHost.threadStep` / `mainStep` / `failStep`: `ServiceHost.run`, statement by statement.
* `ServiceHost.Quiet`: the steps that do not race.
* `lifecycleReceipt_forward`: in runs of quiet steps no receipt goes backwards, and after any other
  step one can.
-/

/-! ### Receipts -/

/-- The `state` of a receipt. -/
inductive ReceiptState where
  | accepted
  | handoff
  | completed
  | failed
  deriving DecidableEq, Repr

/-- The payload of `lifecycle_receipt.write`. -/
structure LifecycleReceipt where
  requestId : String
  instanceId : Option String
  replacementInstanceId : Option String := none
  action : LifecycleIntent
  state : ReceiptState
  error : Option String := none
  deriving DecidableEq, Repr

/-- The receipt says what became of the request. -/
def LifecycleReceipt.isFinal (receipt : LifecycleReceipt) : Bool := receipt.state ≠ .accepted

/-- Receipts, the latest first, of which none says `accepted` of a request that is over. -/
def Forward (writes : List LifecycleReceipt) : Prop :=
  writes.Pairwise fun newer older =>
    newer.state = .accepted → older.isFinal = true → newer.requestId ≠ older.requestId

instance (writes : List LifecycleReceipt) : Decidable (Forward writes) :=
  inferInstanceAs (Decidable (List.Pairwise _ writes))

/-! ### The host -/

/-- `HostingMode`. -/
inductive HostingMode where
  | direct
  | internal
  | external
  deriving DecidableEq, Repr

/-- Where a call of the host's `request_lifecycle` is. -/
inductive RequestStage where
  /-- Before `engine.request_lifecycle`. -/
  | calling
  /-- The engine has answered, with this request id; the receipt is still to be written. -/
  | answered (requestId : String)
  /-- The receipt is written; the event is still to be set. -/
  | stored
  deriving DecidableEq, Repr

/-- A call of the host's `request_lifecycle`, on a thread of its own or in the signal handler. -/
structure RequestThread where
  request : LifecycleRequest
  stage : RequestStage
  deriving DecidableEq, Repr

/-- Where the main thread is in `ServiceHost.run`. -/
inductive HostStage where
  /-- In `_acquire_authority`. -/
  | adopting
  /-- Before `server.start()`. -/
  | starting
  /-- The endpoint is served. -/
  | listening
  /-- The receipt of a restart that led here is written. -/
  | confirmed
  /-- In `_serve_engine`. -/
  | serving
  /-- `serve` has returned. -/
  | served
  /-- `restart_requested` is read. -/
  | decided (restart : Bool)
  /-- A stop is being completed. -/
  | stopping (restart : Bool) (requestId : String)
  /-- A restart that led here has failed; `adopted` says whether the host holds the authority. -/
  | refusing (adopted : Bool) (message : String)
  /-- In the `finally` clause, before `server.stop()`. -/
  | closing (restart : Bool)
  /-- Before the receipt of a restart. -/
  | handingOff
  /-- Before `os.execvpe`. -/
  | executing (requestId : String)
  /-- A restart is failing. -/
  | failing (requestId message : String)
  /-- The process ends. -/
  | gone
  deriving DecidableEq, Repr

/-- A service process with the receipt file.  `handoff` are the request and the old instance of the
    restart that led to it, and `writes` are all receipts written, the latest first: the file holds
    the first of them. -/
structure ServiceHost where
  mode : HostingMode
  instanceId : String
  handoff : Option (String × Option String) := none
  engine : StopService
  threads : List RequestThread := []
  receiptReady : Bool := false
  main : HostStage := .adopting
  writes : List LifecycleReceipt := []

namespace ServiceHost

/-- `write_lifecycle_receipt`. -/
def write (receipt : LifecycleReceipt) (host : ServiceHost) : ServiceHost :=
  { host with writes := receipt :: host.writes }

/-- The receipt file. -/
def receipt (host : ServiceHost) : Option LifecycleReceipt := host.writes.head?

/-- A new process on the durable state of the old one. -/
def fresh (mode : HostingMode) (instanceId : String) (handoff : Option (String × Option String))
    (host : ServiceHost) : ServiceHost where
  mode := mode
  instanceId := instanceId
  handoff := handoff
  engine := { state := host.engine.state, ready := false }
  writes := host.writes

section Steps

variable [Sha256]

/-- A restart that the host refuses before it asks the engine. -/
def refusesRestart (host : ServiceHost) (r : LifecycleRequest) : Bool :=
  r.intent = .restart && !r.force && host.mode ≠ .internal

omit [Sha256] in
/-- `result["request_id"]`, if the engine returns. -/
def requestIdOf : Except LifecycleError LifecycleStatus → Option String
  | .ok status => status.requestId
  | .error _ => none

/-- The next statement of a call; `storeFails` is the engine's save of a forced stop. -/
def threadStep (i : Nat) (storeFails : Bool) (host : ServiceHost) : Option ServiceHost :=
  match host.threads[i]? with
  | none => none
  | some thread =>
    -- a handler waits for the handlers that interrupted it
    if thread.request.signalled ∧ (host.threads.drop (i + 1)).any (·.request.signalled) then none
    else
      match thread.stage with
      | .calling =>
        if host.refusesRestart thread.request then
          some { host with threads := host.threads.eraseIdx i }
        else
          let result := host.engine.requestLifecycle thread.request storeFails
          match requestIdOf result.1 with
          | some requestId =>
            some { host with
              engine := result.2
              threads := host.threads.set i { thread with stage := .answered requestId } }
          | none => some { host with engine := result.2, threads := host.threads.eraseIdx i }
      | .answered requestId =>
        some <| write
          { requestId := requestId, instanceId := some host.instanceId
            action := thread.request.intent, state := .accepted }
          { host with threads := host.threads.set i { thread with stage := .stored } }
      | .stored => some { host with receiptReady := true, threads := host.threads.eraseIdx i }

omit [Sha256] in
/-- The main thread's next statement. -/
def mainStep (host : ServiceHost) : Option ServiceHost :=
  match host.main with
  | .adopting => some { host with main := .starting }
  | .starting => some { host with main := .listening }
  | .listening =>
    match host.handoff with
    | none => some { host with main := .confirmed }
    | some (_, none) =>
      some { host with main := .refusing true "restart handoff has no old instance identity" }
    | some (requestId, some old) =>
      some <| write
        { requestId := requestId, instanceId := some old
          replacementInstanceId := some host.instanceId, action := .restart, state := .completed }
        { host with main := .confirmed }
  | .confirmed => some { host with main := .serving, engine := { host.engine with ready := true } }
  | .serving => some { host with main := .served }
  | .served => some { host with main := .decided (host.engine.intent = some .restart) }
  | .decided restart =>
    if host.engine.intent = some .stop then
      match host.engine.requestId with
      | some requestId => some { host with main := .stopping restart requestId }
      | none => some { host with main := .closing restart }
    else some { host with main := .closing restart }
  | .stopping restart requestId =>
    if host.receiptReady then
      some <| write
        { requestId := requestId, instanceId := some host.instanceId, action := .stop
          state := .completed }
        { host with main := .closing restart }
    else none
  | .refusing adopted message =>
    match host.handoff with
    | some (requestId, old) =>
      some <| write
        { requestId := requestId, instanceId := old, action := .restart, state := .failed
          error := some message }
        { host with main := if adopted then .closing false else .gone }
    | none => none
  | .closing restart =>
    if restart && host.mode = .internal then some { host with main := .handingOff }
    else some { host with main := .gone }
  | .handingOff =>
    match host.engine.requestId with
    | some requestId =>
      some <| write
        { requestId := requestId, instanceId := some host.instanceId, action := .restart
          state := .handoff }
        { host with main := .executing requestId }
    | none =>
      some { host with
        main := .failing ((host.handoff.map (·.1)).getD "")
          "restart lifecycle has no request identity" }
  | .executing _ => none
  | .failing requestId message =>
    some <| write
      { requestId := requestId, instanceId := some host.instanceId, action := .restart
        state := .failed, error := some message }
      { host with main := .gone }
  | .gone => none

omit [Sha256] in
/-- The main thread's next statement raises. -/
def failStep (message : String) (host : ServiceHost) : Option ServiceHost :=
  match host.main with
  | .adopting =>
    some { host with main := if host.handoff.isSome then .refusing false message else .gone }
  | .starting | .listening | .confirmed =>
    some { host with main := if host.handoff.isSome then .refusing true message else .closing false }
  | .serving | .served => some { host with main := .closing false }
  | .decided restart | .stopping restart _ => some { host with main := .closing restart }
  | .refusing adopted _ => some { host with main := if adopted then .closing false else .gone }
  | .closing _ | .failing _ _ => some { host with main := .gone }
  | .handingOff =>
    some { host with
      main := .failing ((host.engine.requestId.or (host.handoff.map (·.1))).getD "") message }
  | .executing requestId => some { host with main := .failing requestId message }
  | .gone => none

/-- The endpoint takes requests. -/
def isListening : HostStage → Bool
  | .listening | .confirmed | .serving | .served | .decided _ | .stopping _ _ | .refusing true _
  | .closing _ => true
  | _ => false

/-- The handler of `SIGTERM` is installed. -/
def ownsSignals : HostStage → Bool
  | .starting | .listening | .confirmed | .serving | .served | .decided _ | .stopping _ _ => true
  | _ => false

/-- A client sends any request; the handler asks for a graceful stop. -/
def mayArrive (request : LifecycleRequest) (stage : HostStage) : Bool :=
  if request.signalled then ownsSignals stage && request.intent = .stop && !request.force
  else isListening stage

/-- What happens next. -/
inductive Action where
  /-- A client's request is admitted, or the handler of `SIGTERM` starts. -/
  | arrive (request : LifecycleRequest)
  /-- A call takes its next step. -/
  | thread (i : Nat) (storeFails : Bool)
  /-- A call raises. -/
  | abandon (i : Nat)
  /-- The main thread takes its next step. -/
  | main
  /-- The main thread raises. -/
  | fail (message : String)
  /-- The process image is replaced. -/
  | exec (instanceId : String)
  /-- A new service is started. -/
  | launch (mode : HostingMode) (instanceId : String)
  | kill
  /-- The owner saves its state. -/
  | ownerSave (update : RuntimeState → RuntimeState)

/-- The main thread is interrupted by a handler. -/
def interrupted (host : ServiceHost) : Bool := host.threads.any (·.request.signalled)

/-- One step. -/
def step (host : ServiceHost) : Action → Option ServiceHost
  | .arrive request =>
    if mayArrive request host.main then
      some { host with threads := host.threads ++ [⟨request, .calling⟩] }
    else none
  | .thread i storeFails => host.threadStep i storeFails
  | .abandon i => some { host with threads := host.threads.eraseIdx i }
  | .main => if host.interrupted then none else host.mainStep
  | .fail message => if host.interrupted then none else host.failStep message
  | .exec instanceId =>
    match host.main with
    | .executing requestId =>
      if host.interrupted then none
      else some (host.fresh .internal instanceId (some (requestId, some host.instanceId)))
    | _ => none
  | .launch mode instanceId =>
    if host.main = .gone then some (host.fresh mode instanceId none) else none
  | .kill => some { host with main := .gone, threads := [] }
  | .ownerSave update =>
    some { host with engine := { host.engine with state := update host.engine.state } }

/-! ### Steps that do not race -/

/-- The request that the main thread's next step writes a final receipt for. -/
def settles (host : ServiceHost) : Option String :=
  match host.main with
  | .listening => host.handoff.bind fun handoff => handoff.2.map fun _ => handoff.1
  | .stopping _ requestId => if host.receiptReady then some requestId else none
  | .refusing _ _ => host.handoff.map (·.1)
  | .handingOff => host.engine.requestId
  | .failing requestId _ => some requestId
  | _ => none

/-- The request id that the engine is about to answer with: its own if no intent was accepted, else
    the one of the accepted intent. -/
def answerTo (host : ServiceHost) (r : LifecycleRequest) (storeFails : Bool) : Option String :=
  if host.refusesRestart r then none
  else match host.engine.intent with
    | none => (StopService.barrierSave r storeFails host.engine.state).map fun _ => r.requestId
    | some intent => if intent = r.intent then host.engine.requestId else none

/-- A final receipt of the request was written. -/
def Settled (host : ServiceHost) (requestId : String) : Prop :=
  ∃ receipt ∈ host.writes, receipt.isFinal = true ∧ receipt.requestId = requestId

/-- A call was answered with the request id and has not written its receipt. -/
def Owed (host : ServiceHost) (requestId : String) : Prop :=
  ∃ thread ∈ host.threads, thread.stage = .answered requestId

/-- The main thread settles a request only when no call owes its receipt, and no call is answered
    with a request that is settled. -/
def Quiet (host : ServiceHost) : Action → Prop
  | .main => ∀ requestId ∈ host.settles, ¬ host.Owed requestId
  | .thread i storeFails => ∀ thread ∈ host.threads[i]?, thread.stage = .calling →
      ∀ requestId ∈ host.answerTo thread.request storeFails, ¬ host.Settled requestId
  | _ => True

instance (host : ServiceHost) (requestId : String) : Decidable (host.Settled requestId) :=
  inferInstanceAs (Decidable (∃ receipt ∈ host.writes, _))

instance (host : ServiceHost) (requestId : String) : Decidable (host.Owed requestId) :=
  inferInstanceAs (Decidable (∃ thread ∈ host.threads, _))

instance (host : ServiceHost) (action : Action) : Decidable (host.Quiet action) := by
  cases action <;> unfold Quiet <;> infer_instance

/-- Receipts go forward, and none that is owed would go backwards. -/
structure Orderly (host : ServiceHost) : Prop where
  forward : Forward host.writes
  owed : ∀ requestId, host.Owed requestId → ¬ host.Settled requestId

/-! ### One step -/

variable {host host' : ServiceHost}

omit [Sha256] in
/-- What the threads of a later host are about. -/
theorem Owed.mono {requestId : String} (h : host'.Owed requestId)
    (hthreads : ∀ thread ∈ host'.threads, thread.stage = .answered requestId →
      thread ∈ host.threads) : host.Owed requestId := by
  obtain ⟨thread, hmem, hstage⟩ := h
  exact ⟨thread, hthreads thread hmem hstage, hstage⟩

/-- The request id that the engine answers with. -/
theorem requestLifecycle_answer {r : LifecycleRequest} {storeFails : Bool}
    (h : host.refusesRestart r = false) :
    requestIdOf (host.engine.requestLifecycle r storeFails).1 = host.answerTo r storeFails := by
  unfold answerTo StopService.requestLifecycle
  rw [h]
  cases host.engine.intent with
  | none =>
    simp only [Bool.false_eq_true, if_false]
    cases StopService.barrierSave r storeFails host.engine.state with
    | none => rfl
    | some state => cases r.force <;> rfl
  | some intent =>
    by_cases hsame : intent = r.intent
    · simp only [hsame, ne_eq, not_true_eq_false, if_false, if_true]
      cases r.force <;> rfl
    · simp only [ne_eq, hsame, not_false_eq_true, if_true]
      rfl

/-- What a step of a call does, by the stage of the call. -/
theorem threadStep_cases {i : Nat} {storeFails : Bool}
    (h : host.threadStep i storeFails = some host') :
    ∃ thread, host.threads[i]? = some thread ∧ match thread.stage with
      | .calling => host'.writes = host.writes ∧ host'.threads
          = match host.answerTo thread.request storeFails with
            | none => host.threads.eraseIdx i
            | some requestId => host.threads.set i { thread with stage := .answered requestId }
      | .answered requestId =>
        host'.threads = host.threads.set i { thread with stage := .stored }
          ∧ ∃ receipt, receipt.requestId = requestId ∧ receipt.state = .accepted
            ∧ host'.writes = receipt :: host.writes
      | .stored => host'.writes = host.writes ∧ host'.threads = host.threads.eraseIdx i := by
  unfold threadStep at h
  split at h
  · cases h
  · rename_i thread hthread
    refine ⟨thread, hthread, ?_⟩
    split at h
    · cases h
    · split at h
      · split at h
        · -- the host refuses
          rename_i hrefuses
          cases h
          exact ⟨rfl, by rw [answerTo, if_pos hrefuses]⟩
        · rename_i hrefuses
          rw [← requestLifecycle_answer (Bool.eq_false_iff.mpr hrefuses)]
          dsimp only at h
          split at h
          · rename_i hanswer
            cases h
            rw [hanswer]
            exact ⟨rfl, rfl⟩
          · rename_i hanswer
            cases h
            rw [hanswer]
            exact ⟨rfl, rfl⟩
      · cases h
        exact ⟨rfl, _, rfl, rfl, rfl⟩
      · cases h
        exact ⟨rfl, rfl⟩

omit [Sha256] in
/-- A step of the main thread writes a final receipt of the request that it settles, and no other. -/
theorem mainStep_cases (h : host.mainStep = some host') :
    host'.threads = host.threads ∧ match host.settles with
      | none => host'.writes = host.writes
      | some requestId => ∃ receipt, receipt.requestId = requestId ∧ receipt.isFinal = true
          ∧ host'.writes = receipt :: host.writes := by
  unfold mainStep at h
  unfold settles
  -- a final receipt is written where the handoff is refused or replaced, the stop is complete, or
  -- the restart is over
  cases hmain : host.main with
  | listening =>
    simp only [hmain] at h
    split at h
    · rename_i hhandoff
      cases h
      rw [hhandoff]
      exact ⟨rfl, rfl⟩
    · rename_i requestId hhandoff
      cases h
      rw [hhandoff]
      exact ⟨rfl, rfl⟩
    · rename_i requestId old hhandoff
      cases h
      rw [hhandoff]
      exact ⟨rfl, _, rfl, rfl, rfl⟩
  | decided restart =>
    simp only [hmain] at h
    repeat' split at h
    all_goals
      cases h
      exact ⟨rfl, rfl⟩
  | stopping restart requestId =>
    simp only [hmain] at h
    split at h
    · rename_i hready
      cases h
      simp only [if_pos hready]
      exact ⟨rfl, _, rfl, rfl, rfl⟩
    · cases h
  | refusing adopted message =>
    simp only [hmain] at h
    split at h
    · rename_i requestId old hhandoff
      cases h
      rw [hhandoff]
      exact ⟨rfl, _, rfl, rfl, rfl⟩
    · cases h
  | closing restart =>
    simp only [hmain] at h
    split at h
    all_goals
      cases h
      exact ⟨rfl, rfl⟩
  | handingOff =>
    simp only [hmain] at h
    split at h
    · rename_i requestId hrequest
      cases h
      simp only [hrequest]
      exact ⟨rfl, _, rfl, rfl, rfl⟩
    · rename_i hrequest
      cases h
      rw [hrequest]
      exact ⟨rfl, rfl⟩
  | failing requestId message =>
    simp only [hmain] at h
    cases h
    exact ⟨rfl, _, rfl, rfl, rfl⟩
  | executing requestId | gone =>
    simp only [hmain] at h
    cases h
  | _ =>
    simp only [hmain] at h
    cases h
    exact ⟨rfl, rfl⟩

omit [Sha256] in
theorem failStep_cases {message : String} (h : host.failStep message = some host') :
    host'.threads = host.threads ∧ host'.writes = host.writes := by
  unfold failStep at h
  cases hmain : host.main <;> simp only [hmain] at h
  case gone => cases h
  all_goals
    cases h
    exact ⟨rfl, rfl⟩

omit [Sha256] in
theorem settled_iff {requestId : String} {receipt : LifecycleReceipt}
    (hwrites : host'.writes = receipt :: host.writes) : host'.Settled requestId ↔
      (receipt.isFinal = true ∧ receipt.requestId = requestId) ∨ host.Settled requestId := by
  unfold Settled
  rw [hwrites]
  simp only [List.mem_cons, exists_eq_or_imp]

omit [Sha256] in
theorem forward_cons {receipt : LifecycleReceipt} (hwrites : host'.writes = receipt :: host.writes) :
    Forward host'.writes ↔
      (receipt.state = .accepted → ¬ host.Settled receipt.requestId) ∧ Forward host.writes := by
  unfold Forward Settled
  rw [hwrites, List.pairwise_cons]
  refine and_congr_left fun _ => ⟨?_, ?_⟩
  · rintro h haccepted ⟨older, hmem, hfinal, hsame⟩
    exact h older hmem haccepted hfinal hsame.symm
  · exact fun h older hmem haccepted hfinal hsame => h haccepted ⟨older, hmem, hfinal, hsame.symm⟩

omit [Sha256] in
/-- With the same receipts, and calls that were there before, nothing new is owed. -/
theorem Orderly.keep (h : host.Orderly) (hwrites : host'.writes = host.writes)
    (hthreads : ∀ thread ∈ host'.threads, thread ∈ host.threads ∨ thread.stage = .calling) :
    host'.Orderly where
  forward := hwrites ▸ h.forward
  owed := by
    rintro requestId ⟨thread, hmem, hstage⟩ hsettled
    rcases hthreads thread hmem with hold | hcalling
    · unfold Settled at hsettled
      rw [hwrites] at hsettled
      exact h.owed requestId ⟨thread, hold, hstage⟩ hsettled
    · rw [hstage] at hcalling
      cases hcalling

/-- A quiet step of a call. -/
theorem Orderly.threadStep (h : host.Orderly) {i : Nat} {storeFails : Bool}
    (hquiet : host.Quiet (.thread i storeFails))
    (hstep : host.threadStep i storeFails = some host') : host'.Orderly := by
  obtain ⟨thread, hthread, hcases⟩ := threadStep_cases hstep
  have hmem : thread ∈ host.threads := List.mem_of_getElem? hthread
  cases hstage : thread.stage with
  | calling =>
    rw [hstage] at hcases
    obtain ⟨hwrites, hthreads⟩ := hcases
    cases hanswer : host.answerTo thread.request storeFails with
    | none =>
      rw [hanswer] at hthreads
      refine h.keep hwrites fun other hother => .inl ?_
      rw [hthreads] at hother
      exact List.mem_of_mem_eraseIdx hother
    | some requestId =>
      rw [hanswer] at hthreads
      -- the call is answered with a request that is not settled
      have hopen : ¬ host.Settled requestId :=
        hquiet thread hthread hstage requestId hanswer
      refine ⟨hwrites ▸ h.forward, ?_⟩
      rintro other ⟨answered, hin, hanswered⟩ hsettled
      unfold Settled at hsettled
      rw [hwrites] at hsettled
      rw [hthreads] at hin
      rcases List.mem_or_eq_of_mem_set hin with hold | rfl
      · exact h.owed other ⟨answered, hold, hanswered⟩ hsettled
      · cases hanswered
        exact hopen hsettled
  | answered requestId =>
    rw [hstage] at hcases
    obtain ⟨hthreads, receipt, rfl, haccepted, hwrites⟩ := hcases
    have hopen : ¬ host.Settled receipt.requestId := h.owed _ ⟨thread, hmem, hstage⟩
    refine ⟨(forward_cons hwrites).mpr ⟨fun _ => hopen, h.forward⟩, ?_⟩
    rintro other ⟨answered, hin, hanswered⟩ hsettled
    rw [hthreads] at hin
    rcases (settled_iff hwrites).mp hsettled with ⟨hfinal, -⟩ | hold
    · simp [LifecycleReceipt.isFinal, haccepted] at hfinal
    · rcases List.mem_or_eq_of_mem_set hin with hmem' | rfl
      · exact h.owed other ⟨answered, hmem', hanswered⟩ hold
      · cases hanswered
  | stored =>
    rw [hstage] at hcases
    refine h.keep hcases.1 fun other hother => .inl ?_
    rw [hcases.2] at hother
    exact List.mem_of_mem_eraseIdx hother

omit [Sha256] in
/-- A quiet step of the main thread. -/
theorem Orderly.mainStep (h : host.Orderly)
    (hquiet : ∀ requestId ∈ host.settles, ¬ host.Owed requestId)
    (hstep : host.mainStep = some host') : host'.Orderly := by
  obtain ⟨hthreads, hcases⟩ := mainStep_cases hstep
  cases hsettles : host.settles with
  | none =>
    rw [hsettles] at hcases
    exact h.keep hcases fun thread hmem => .inl (hthreads ▸ hmem)
  | some requestId =>
    rw [hsettles] at hcases
    obtain ⟨receipt, rfl, hfinal, hwrites⟩ := hcases
    have hnew : ¬ host.Owed receipt.requestId := hquiet _ hsettles
    refine ⟨(forward_cons hwrites).mpr ⟨fun haccepted => ?_, h.forward⟩, ?_⟩
    · simp [LifecycleReceipt.isFinal, haccepted] at hfinal
    · intro other howed hsettled
      have howed' : host.Owed other := howed.mono fun thread hmem _ => hthreads ▸ hmem
      rcases (settled_iff hwrites).mp hsettled with ⟨-, rfl⟩ | hold
      · exact hnew howed'
      · exact h.owed other howed' hold

/-- **Step.** A quiet step keeps the receipts in order. -/
theorem Orderly.step (h : host.Orderly) {action : Action} (hquiet : host.Quiet action)
    (hstep : host.step action = some host') : host'.Orderly := by
  have hempty : host'.threads = [] → host'.writes = host.writes → host'.Orderly :=
    fun hthreads hwrites => h.keep hwrites fun thread hmem => by
      rw [hthreads] at hmem
      exact (List.not_mem_nil hmem).elim
  cases action with
  | arrive request =>
    simp only [ServiceHost.step] at hstep
    split at hstep
    · cases hstep
      refine h.keep rfl fun thread hmem => ?_
      rcases List.mem_append.mp hmem with hold | hnew
      · exact .inl hold
      · exact .inr (by rw [List.mem_singleton.mp hnew])
    · cases hstep
  | thread i storeFails => exact h.threadStep hquiet hstep
  | abandon i =>
    cases hstep
    exact h.keep rfl fun thread hmem => .inl (List.mem_of_mem_eraseIdx hmem)
  | main =>
    simp only [ServiceHost.step] at hstep
    split at hstep
    · cases hstep
    · exact h.mainStep hquiet hstep
  | fail message =>
    simp only [ServiceHost.step] at hstep
    split at hstep
    · cases hstep
    · obtain ⟨hthreads, hwrites⟩ := failStep_cases hstep
      exact h.keep hwrites fun thread hmem => .inl (hthreads ▸ hmem)
  | exec instanceId =>
    simp only [ServiceHost.step] at hstep
    split at hstep
    · split at hstep
      · cases hstep
      · cases hstep
        exact hempty rfl rfl
    · cases hstep
  | launch mode instanceId =>
    simp only [ServiceHost.step] at hstep
    split at hstep
    · cases hstep
      exact hempty rfl rfl
    · cases hstep
  | kill =>
    cases hstep
    exact hempty rfl rfl
  | ownerSave update =>
    cases hstep
    exact h.keep rfl fun thread hmem => .inl hmem

/-! ### Whole runs -/

/-- The first service of a checkout that has no receipt. -/
def start (mode : HostingMode) (instanceId : String) (state : RuntimeState) : ServiceHost where
  mode := mode
  instanceId := instanceId
  engine := { state := state, ready := false }

/-- A call that owes the receipt of a request that is settled can write it. -/
theorem backwards_of_owed {i : Nat} {thread : RequestThread} {requestId : String}
    (hthread : host.threads[i]? = some thread) (hstage : thread.stage = .answered requestId)
    (hfree : ¬ (thread.request.signalled
      ∧ (host.threads.drop (i + 1)).any (·.request.signalled)))
    (hsettled : host.Settled requestId) :
    ∃ later, host.step (.thread i false) = some later ∧ ¬ Forward later.writes := by
  have hstep : host.threadStep i false = some (write
      { requestId := requestId, instanceId := some host.instanceId
        action := thread.request.intent, state := .accepted }
      { host with threads := host.threads.set i { thread with stage := .stored } }) := by
    unfold ServiceHost.threadStep
    simp only [hthread, if_neg hfree, hstage]
  refine ⟨_, hstep, fun hforward => ?_⟩
  have hfirst := (@forward_cons host _ _ rfl).mp hforward
  exact hfirst.1 rfl hsettled

/-- After a step that is not quiet a receipt can go backwards. -/
theorem exists_backwards {action : Action} (hstep : host.step action = some host')
    (hquiet : ¬ host.Quiet action) :
    ∃ i later, host'.step (.thread i false) = some later ∧ ¬ Forward later.writes := by
  cases action with
  | main =>
    simp only [Quiet, not_forall, not_not] at hquiet
    obtain ⟨requestId, hsettles, thread, hmem, hstage⟩ := hquiet
    simp only [ServiceHost.step] at hstep
    split at hstep
    · cases hstep
    rename_i hinterrupted
    obtain ⟨hthreads, hcases⟩ := mainStep_cases hstep
    rw [Option.mem_def.mp hsettles] at hcases
    obtain ⟨receipt, hid, hfinal, hwrites⟩ := hcases
    obtain ⟨i, hi⟩ := List.mem_iff_getElem?.mp (hthreads ▸ hmem)
    refine ⟨i, backwards_of_owed hi hstage ?_ ((settled_iff hwrites).mpr (.inl ⟨hfinal, hid⟩))⟩
    -- the main thread runs, so no handler does
    exact fun hfree => hinterrupted (List.any_eq_true.mpr ⟨thread, hmem, hfree.1⟩)
  | thread i storeFails =>
    simp only [Quiet, not_forall, not_not] at hquiet
    obtain ⟨thread, hthread, hstage, requestId, hanswer, hsettled⟩ := hquiet
    have hget : host.threads[i]? = some thread := hthread
    have hcall : host.threadStep i storeFails = some host' := hstep
    obtain ⟨other, hother, hcases⟩ := threadStep_cases hcall
    rw [hget] at hother
    cases hother
    rw [hstage] at hcases
    obtain ⟨hwrites, hthreads⟩ := hcases
    rw [Option.mem_def.mp hanswer] at hthreads
    have hlt : i < host.threads.length := (List.getElem?_eq_some_iff.mp hget).1
    have hat : host'.threads[i]? = some { thread with stage := .answered requestId } := by
      rw [hthreads, List.getElem?_set_self hlt]
    have hsettled' : host'.Settled requestId := by
      unfold Settled
      rw [hwrites]
      exact hsettled
    refine ⟨i, backwards_of_owed hat rfl ?_ hsettled'⟩
    -- the call could go on before, and no handler has started since
    rw [hthreads, List.drop_set_of_lt (Nat.lt_succ_self i)]
    intro hblocked
    unfold ServiceHost.threadStep at hcall
    simp only [hget, if_pos hblocked, reduceCtorEq] at hcall
  | arrive _ | abandon _ | fail _ | exec _ | launch _ _ | kill | ownerSave _ =>
    exact absurd trivial hquiet

/-- **Receipts go forward.** In every run of quiet steps no receipt of a request that is over is
    overwritten by `accepted`, and after every other step there is a run that overwrites one. -/
theorem lifecycleReceipt_forward (mode : HostingMode) (instanceId : String) (state : RuntimeState) :
    (∀ host, Run step Quiet (start mode instanceId state) host → Forward host.writes)
      ∧ ∀ host host' action, Run step (fun _ _ => True) (start mode instanceId state) host →
        host.step action = some host' → ¬ host.Quiet action →
          ∃ later, Run step (fun _ _ => True) host' later ∧ ¬ Forward later.writes := by
  constructor
  · intro host hrun
    have hstart : (start mode instanceId state).Orderly :=
      ⟨List.Pairwise.nil, fun requestId ⟨thread, hmem, _⟩ => (List.not_mem_nil hmem).elim⟩
    exact (hrun.invariant Orderly hstart fun host action host' h hquiet hstep =>
      h.step hquiet hstep).forward
  · intro host host' action _ hstep hquiet
    obtain ⟨i, later, hlater, hbackwards⟩ := exists_backwards hstep hquiet
    exact ⟨later, .tail .refl trivial hlater, hbackwards⟩

end Steps

/-- Two clients ask for a restart, and both are answered with the first request.  The new process
    completes it, and a stop after that is accepted and completed. -/
def restartThenStop : List Action :=
  [.main, .main, .main, .main, .arrive ⟨.restart, "r1", false, false⟩,
    .arrive ⟨.restart, "r2", false, false⟩, .thread 0 false, .thread 1 false, .thread 0 false,
    .thread 1 false, .thread 0 false, .thread 0 false, .main, .main, .main, .main, .main,
    .exec "i2", .main, .main, .main, .main, .arrive ⟨.stop, "r3", false, false⟩, .thread 0 false,
    .thread 0 false, .thread 0 false, .main, .main, .main, .main]

/-- Every step is quiet, and each request has its final receipt. -/
theorem lifecycleReceipt_forward_restarted :
    letI : Sha256 := ⟨fun _ => ""⟩
    ∃ host, Run step Quiet (start .internal "i1" workerRunningState) host
      ∧ host.writes.map (fun receipt => (receipt.requestId, receipt.state))
        = [("r3", .completed), ("r3", .accepted), ("r1", .completed), ("r1", .handoff),
          ("r1", .accepted), ("r1", .accepted)]
      ∧ Forward host.writes := by
  have hquiet : letI : Sha256 := ⟨fun _ => ""⟩
      Along step Quiet (start .internal "i1" workerRunningState) restartThenStop := by
    decide
  let _ : Sha256 := ⟨fun _ => ""⟩
  have hend : (exec step (start .internal "i1" workerRunningState) restartThenStop).any
      (fun host => decide (host.writes.map (fun receipt => (receipt.requestId, receipt.state))
        = [("r3", .completed), ("r3", .accepted), ("r1", .completed), ("r1", .handoff),
          ("r1", .accepted), ("r1", .accepted)])) = true := by
    decide
  obtain ⟨host, hexec, hwrites⟩ := exists_exec_of_any hend
  have hrun := run_of_exec hexec hquiet
  have hforward := (lifecycleReceipt_forward .internal "i1" workerRunningState).1 host hrun
  exact ⟨host, hrun, hwrites, hforward⟩

/-- Two clients ask for a stop.  Both are answered with the first request; the main thread completes
    the stop before the second call has written its receipt. -/
def duplicateStop : List Action :=
  [.main, .main, .main, .main, .arrive ⟨.stop, "r1", false, false⟩,
    .arrive ⟨.stop, "r2", false, false⟩, .thread 0 false, .thread 1 false, .thread 0 false,
    .thread 0 false, .main, .main, .main, .main, .thread 0 false]

/-- The completed stop is `accepted` again. -/
theorem duplicateStop_backwards :
    letI : Sha256 := ⟨fun _ => ""⟩
    ∃ host, Run step (fun _ _ => True) (start .internal "i1" workerRunningState) host
      ∧ host.writes.map (fun receipt => (receipt.requestId, receipt.state))
        = [("r1", .accepted), ("r1", .completed), ("r1", .accepted)]
      ∧ ¬ Forward host.writes := by
  let _ : Sha256 := ⟨fun _ => ""⟩
  have hend : (exec step (start .internal "i1" workerRunningState) duplicateStop).any
      (fun host => decide (host.writes.map (fun receipt => (receipt.requestId, receipt.state))
        = [("r1", .accepted), ("r1", .completed), ("r1", .accepted)]
          ∧ ¬ Forward host.writes)) = true := by
    decide
  obtain ⟨host, hexec, hwrites⟩ := exists_exec_of_any hend
  exact ⟨host, run_of_exec hexec (by decide), hwrites⟩

end ServiceHost

end Devlegate
