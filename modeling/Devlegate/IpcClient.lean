import Devlegate.OperatorAdmission

namespace Devlegate

open Transition

/-!
# The certainty of a mutable call

`ipc_client.request(..., mutable=True)` delivers one request at most twice under one request id and
tells its caller how the admission ended.  The call runs beside the service of
`Devlegate.OperatorAdmission`: each connection starts a handler thread there, responses may be
delayed or lost at any point, and the service may drain, shut down and restart.

* `World.step`: the steps of the call and of the service.
* `Certain`: the invariant; the handler whose answer the client still listens to can only give a
  truthful one.
* `certain_of_sure`: in every run whose steps are `Sure`, a "not admitted" error means that the
  request id was never admitted, and an acknowledgement that it was admitted exactly once.
* `drainedReplay_admitted`: a replay that meets a draining service is told "not admitted" although
  the first attempt was admitted.
-/

/-! ### The call -/

/-- `IPCClientError`; `answer` is the service's error that an application error carries. -/
structure IpcClientError where
  message : String
  application : Bool := false
  uncertain : Bool := false
  answer : Option AdmissionError := none
  deriving DecidableEq, Repr

/-- `_uncertain_message`. -/
def uncertainMessage (method : Method) : String :=
  method.word ++ " request outcome is uncertain; inspect status before retrying"

/-- A mutable call: about to connect, waiting for the response of a handler thread, or ended (with
    the thread whose answer ended it). -/
inductive Call where
  | connecting (attempt : Nat)
  | awaiting (attempt : Nat) (thread : Nat)
  | ended (thread : Option Nat) (result : Except IpcClientError Ack)
  deriving DecidableEq, Repr

/-- The handler whose answer ends the call, or has ended it. -/
def Call.thread : Call → Option Nat
  | .connecting _ => none
  | .awaiting _ i => some i
  | .ended i _ => i

/-- The `except` clause of `request`, for a mutable call with its two attempts. -/
def afterError (method : Method) (attempt : Nat) (thread : Option Nat) (error : IpcClientError) :
    Call :=
  if attempt > 0 && !error.application then
    .ended none (.error { message := uncertainMessage method, uncertain := true })
  else if !error.uncertain || attempt + 1 == 2 then .ended thread (.error error)
  else .connecting (attempt + 1)

/-- The error for a response that is not `ok`. -/
def applicationError (e : AdmissionError) : IpcClientError :=
  { message := "service error: " ++ e.message, application := true, answer := some e }

/-- What `_request_once` makes of the outcome of the handler's submission. -/
def afterResponse (method : Method) (attempt thread : Nat) : Except AdmissionError Ack → Call
  | .ok ack => .ended (some thread) (.ok ack)
  | .error e => afterError method attempt (some thread) (applicationError e)

/-- One call and the service. -/
structure World where
  service : Service
  call : Call

/-- The call is about to start, on a service that has just started. -/
def World.boot (receipts : Dict Receipt) : World := ⟨Service.boot receipts, .connecting 0⟩

/-- The steps of the call and of the service around it. -/
inductive WorldAction where
  | service (action : Action)
  | connectFails (text : String)
  | connect (thread : Nat)
  | lose
  | receive
  deriving DecidableEq, Repr

/-- One step of a call of the request `r`.  `lose` is a response that does not arrive in time or
    cannot be used. -/
def World.step (r : Request) (w : World) : WorldAction → Option World
  | .service a => (w.service.step a).map fun s => { w with service := s }
  | .connectFails text =>
    match w.call with
    | .connecting k => some { w with
        call := afterError r.method k none { message := "service IPC unavailable: " ++ text } }
    | _ => none
  | .connect i =>
    match w.call with
    | .connecting k => (w.service.step (.arrive i r)).map fun s => ⟨s, .awaiting k i⟩
    | _ => none
  | .lose =>
    match w.call with
    | .awaiting k _ => some { w with
        call := afterError r.method k none { message := uncertainMessage r.method, uncertain := true } }
    | _ => none
  | .receive =>
    match w.call with
    | .awaiting k i =>
      match w.service.submitter i with
      | .done _ _ outcome => some { w with call := afterResponse r.method k i outcome }
      | _ => none
    | _ => none

/-- The commands recorded under the request id. -/
def admissions (r : Request) (s : Service) : List Nat :=
  s.recorded.filter fun c => (s.command c).request.requestId = r.requestId

/-! ### What one step of the service does -/

/-- A step that creates no command. -/
structure Keeps (s s' : Service) : Prop where
  created : s'.created = s.created
  request : ∀ c, (s'.command c).request = (s.command c).request
  queued : ∀ c, s'.queued = some c → s.queued = some c
  claimed : ∀ c, s'.owner = .claimed c → Live s c
  cancelled : ∀ c, (s.command c).cancelled = true → (s'.command c).cancelled = true
  draining : ∀ c, Live s' c → s.draining = true → s'.draining = true
  recorded : ∀ c ∈ s'.recorded, c ∈ s.recorded ∨
    s.owner = .claimed c ∧ (s.command c).cancelled = false ∧ s.draining = false
  recorded_mono : ∀ c ∈ s.recorded, c ∈ s'.recorded
  receipts : ∀ key, (s'.receipts.get key).isSome → (s.receipts.get key).isSome ∨
    ∃ c ∈ s'.recorded, (s'.command c).request.requestId = key

/-- The submission would create a new command. -/
def Opens (s : Service) (q : Request) : Prop :=
  s.shutdown = false ∧ s.draining = false ∧ s.receipts.get q.requestId = none ∧
    s.queued.or s.active = none ∧ s.schedulerActive = false

/-- Nothing but one thread's state changes. -/
theorem keeps_setSubmitter (s : Service) (i : Nat) (t : Submitter) :
    Keeps s (s.setSubmitter i t) where
  created := rfl
  request := fun _ => rfl
  queued := fun _ hc => hc
  claimed := fun _ hc => .inr hc
  cancelled := fun _ hc => hc
  draining := fun _ _ hd => hd
  recorded := fun _ hc => .inl hc
  recorded_mono := fun _ hc => hc
  receipts := fun _ hk => .inl hk

/-- A submission creates a command or only ends or parks its own thread. -/
theorem submit_cases (s : Service) (i : Nat) (q : Request) :
    (Opens s q ∧ s.submit i q = s.enqueue i q) ∨ ∃ t, s.submit i q = s.setSubmitter i t := by
  unfold Service.submit
  split
  · exact .inr ⟨_, rfl⟩
  · split
    · exact .inr ⟨_, rfl⟩
    · split
      · split
        · exact .inr ⟨_, rfl⟩
        · exact .inr ⟨_, rfl⟩
      · split
        · split
          · split
            · exact .inr ⟨_, rfl⟩
            · exact .inr ⟨_, rfl⟩
          · exact .inr ⟨_, rfl⟩
        · split
          · exact .inr ⟨_, rfl⟩
          · refine .inl ⟨⟨?_, ?_, ?_, ?_, ?_⟩, rfl⟩
            all_goals simp_all

/-- A step that records nothing: commands keep their request and their cancellation, nothing comes
    back into the slot, and a drain is only forgotten when nothing is live. -/
theorem keeps_of_unrecorded {s s' : Service} (hcreated : s'.created = s.created)
    (hrecorded : s'.recorded = s.recorded)
    (hreceipts : s'.receipts = s.receipts)
    (hrequest : ∀ c, (s'.command c).request = (s.command c).request)
    (hcancelled : ∀ c, (s.command c).cancelled = true → (s'.command c).cancelled = true)
    (hqueued : ∀ c, s'.queued = some c → s.queued = some c)
    (hclaimed : ∀ c, s'.owner = .claimed c → Live s c)
    (hdraining : ∀ c, Live s' c → s.draining = true → s'.draining = true) : Keeps s s' where
  created := hcreated
  request := hrequest
  queued := hqueued
  claimed := hclaimed
  cancelled := hcancelled
  draining := hdraining
  recorded := fun _ hc => .inl (hrecorded ▸ hc)
  recorded_mono := fun _ hc => hrecorded.symm ▸ hc
  receipts := fun _ hk => .inl (hreceipts ▸ hk)

theorem request_update {commands : Nat → OperatorCommand} {c : Nat} {command : OperatorCommand}
    (h : command.request = (commands c).request) (d : Nat) :
    (Function.update commands c command d).request = (commands d).request := by
  by_cases hd : d = c
  · subst hd
    rw [Function.update_self, h]
  · rw [Function.update_of_ne hd]

theorem cancelled_update {commands : Nat → OperatorCommand} {c : Nat} {command : OperatorCommand}
    (h : (commands c).cancelled = true → command.cancelled = true) (d : Nat)
    (hd : (commands d).cancelled = true) :
    (Function.update commands c command d).cancelled = true := by
  by_cases hdc : d = c
  · subst hdc
    rw [Function.update_self]
    exact h hd
  · rw [Function.update_of_ne hdc]
    exact hd

theorem keeps_abandon (s : Service) (c : Nat) : Keeps s (s.abandon c) := by
  unfold Service.abandon
  split
  · refine keeps_of_unrecorded rfl rfl rfl (request_update rfl) (cancelled_update fun _ => rfl) ?_
      (fun _ hd => .inr hd) (fun _ _ hd => hd)
    intro d hd; cases hd
  · exact keeps_of_unrecorded rfl rfl rfl (request_update rfl) (cancelled_update fun _ => rfl)
      (fun _ hd => hd) (fun _ hd => .inr hd) (fun _ _ hd => hd)

theorem keeps_claim (s : Service) : Keeps s s.claim := by
  unfold Service.claim
  split
  case h_1 c hq =>
    refine keeps_of_unrecorded rfl rfl rfl (fun _ => rfl) (fun _ hc => hc) ?_ ?_ (fun _ _ hd => hd)
    · intro d hd; cases hd
    · intro d hd
      have hcd : c = d := by simpa using hd
      exact .inl (hcd ▸ hq)
  case h_2 =>
    refine keeps_of_unrecorded rfl rfl rfl (fun _ => rfl) (fun _ hc => hc) (fun _ hd => hd) ?_
      (fun _ _ hd => hd)
    intro d hd; cases hd

/-- The owner moves on from a command, which keeps its request and its cancellation. -/
theorem keeps_leave (s : Service) (c : Nat) {command : OperatorCommand} (o : Owner)
    (hrequest : command.request = (s.command c).request)
    (hcancelled : command.cancelled = (s.command c).cancelled)
    (ho : ∀ d, o ≠ .claimed d) : Keeps s { s.setCommand c command with owner := o } :=
  keeps_of_unrecorded rfl rfl rfl (request_update hrequest)
    (cancelled_update fun h => hcancelled.trans h) (fun _ hd => hd)
    (fun d hd => absurd hd (ho d)) (fun _ _ hd => hd)

/-- The owner moves on and touches no command. -/
theorem keeps_owner {s s' : Service} (hcreated : s'.created = s.created)
    (hrecorded : s'.recorded = s.recorded)
    (hreceipts : s'.receipts = s.receipts) (hcommand : s'.command = s.command)
    (hqueued : ∀ c, s'.queued = some c → s.queued = some c) (ho : ∀ d, s'.owner ≠ .claimed d)
    (hdraining : ∀ c, Live s' c → s.draining = true → s'.draining = true) : Keeps s s' :=
  keeps_of_unrecorded hcreated hrecorded hreceipts (fun _ => by rw [hcommand])
    (fun _ hc => by rw [hcommand]; exact hc) hqueued (fun d hd => absurd hd (ho d)) hdraining

/-- The claimed command is recorded: it was not cancelled and the service does not drain. -/
theorem keeps_record {s : Service} {c : Nat} (hc : s.owner = .claimed c)
    (hcancelled : (s.command c).cancelled = false) (hdraining : s.draining = false)
    (command : OperatorCommand) (receipt : Receipt)
    (hrequest : command.request = (s.command c).request) :
    Keeps s { s.setCommand c command with
      receipts := s.receipts.set command.request.requestId receipt
      recorded := c :: s.recorded
      owner := .leaving c } where
  created := rfl
  request := request_update hrequest
  queued := fun _ hd => hd
  claimed := by intro d hd; cases hd
  cancelled := cancelled_update fun h => by rw [hcancelled] at h; cases h
  draining := fun _ _ hd => hd
  recorded := by
    intro d hd
    rcases List.mem_cons.mp hd with rfl | hd
    · exact .inr ⟨hc, hcancelled, hdraining⟩
    · exact .inl hd
  recorded_mono := fun d hd => List.mem_cons_of_mem c hd
  receipts := by
    intro key hk
    by_cases hkey : key = command.request.requestId
    · refine .inr ⟨c, List.mem_cons_self, ?_⟩
      show (Function.update s.command c command c).request.requestId = key
      rw [Function.update_self, hkey]
    · refine .inl ?_
      have hk' : (Dict.get (s.receipts.set command.request.requestId receipt) key).isSome := hk
      rwa [Dict.get_set_of_ne _ _ hkey] at hk'

theorem keeps_admitCommand {s : Service} {c : Nat} (hc : s.owner = .claimed c) (run : AdmissionRun) :
    Keeps s (s.admitCommand c run) := by
  have hleaving : ∀ d, Owner.leaving c ≠ .claimed d := fun d hd => by cases hd
  unfold Service.admitCommand
  split
  case isTrue => exact keeps_leave s c _ rfl rfl hleaving
  case isFalse hcancelled =>
    split
    case isTrue => exact keeps_leave s c _ rfl rfl hleaving
    case isFalse hdraining =>
      have hlive : (s.command c).cancelled = false := Bool.eq_false_iff.mpr hcancelled
      have hopen : s.draining = false := Bool.eq_false_iff.mpr hdraining
      cases run with
      | validationRejects text => exact keeps_leave s c _ rfl rfl hleaving
      | recordRejects text => exact keeps_leave s c _ rfl rfl hleaving
      | raises => exact keeps_owner rfl rfl rfl rfl (fun _ hd => hd) hleaving (fun _ _ hd => hd)
      | records onto cls =>
        dsimp only
        split
        case h_1 =>
          rw [refuse_setCommand]
          exact keeps_leave s c _ rfl rfl hleaving
        case h_2 receipt _ =>
          split
          case h_1 e _ =>
            rw [refuse_setCommand]
            exact keeps_record hc hlive hopen
              { s.command c with onto, resolutionClass := cls, admissionError := some e } receipt rfl
          case h_2 ack _ =>
            exact keeps_record hc hlive hopen
              { s.command c with onto, resolutionClass := cls, admissionResult := some ack } receipt rfl

/-- **Inversion.** A step of the service creates a command for a waiting submission, or none. -/
theorem keeps_step {s s' : Service} {a : Action} (hs : s.step a = some s') :
    Keeps s s' ∨ ∃ i q, a = .submit i ∧ s.submitter i = .ready q ∧ Opens s q ∧
      s' = s.enqueue i q := by
  cases a with
  | arrive i q =>
    simp only [Service.step] at hs
    split at hs
    · cases hs
      exact .inl (keeps_setSubmitter s i _)
    · cases hs
  | submit i =>
    simp only [Service.step] at hs
    split at hs
    case h_1 q hi =>
      cases hs
      rcases submit_cases s i q with ⟨hopen, heq⟩ | ⟨t, heq⟩
      · exact .inr ⟨i, q, rfl, hi, hopen, heq⟩
      · rw [heq]
        exact .inl (keeps_setSubmitter s i t)
    case h_2 => cases hs
  | observe i =>
    simp only [Service.step] at hs
    split at hs
    · split at hs
      · cases hs
        exact .inl (keeps_setSubmitter s i _)
      · cases hs
    · cases hs
  | timeout i =>
    simp only [Service.step] at hs
    split at hs
    · split at hs
      · cases hs
      · cases hs
        exact .inl (keeps_setSubmitter s i _)
    · cases hs
  | giveUp i =>
    simp only [Service.step] at hs
    split at hs
    case h_1 q c _ =>
      cases hs
      have k := keeps_abandon s c
      exact .inl ⟨k.created, k.request, k.queued, k.claimed, k.cancelled, k.draining, k.recorded,
        k.recorded_mono, k.receipts⟩
    case h_2 => cases hs
  | claim =>
    simp only [Service.step] at hs
    split at hs
    · cases hs
      exact .inl (keeps_claim s)
    · cases hs
  | admitCommand run =>
    simp only [Service.step] at hs
    split at hs
    case h_1 c hc =>
      cases hs
      exact .inl (keeps_admitCommand hc run)
    case h_2 => cases hs
  | settle =>
    simp only [Service.step] at hs
    split at hs
    case h_1 c _ =>
      cases hs
      exact .inl (keeps_leave s c _ rfl rfl (fun d hd => by cases hd))
    case h_2 => cases hs
  | dispatch =>
    simp only [Service.step] at hs
    split at hs
    · split at hs
      · cases hs
        exact .inl (keeps_owner rfl rfl rfl rfl (fun _ hd => hd) (fun d hd => by cases hd)
          (fun _ _ hd => hd))
      · cases hs
    · cases hs
  | release =>
    have hidle : ∀ d, Owner.idle ≠ .claimed d := fun d hd => by cases hd
    simp only [Service.step] at hs
    split at hs
    · cases hs
      exact .inl (keeps_owner rfl rfl rfl rfl (fun _ hd => hd) hidle (fun _ _ hd => hd))
    · split at hs
      · cases hs
      · cases hs
        exact .inl (keeps_owner rfl rfl rfl rfl (fun _ hd => hd) hidle (fun _ _ hd => hd))
    · cases hs
      exact .inl (keeps_owner rfl rfl rfl rfl (fun _ hd => hd) hidle (fun _ _ hd => hd))
    · cases hs
  | drain =>
    cases hs
    exact .inl (keeps_of_unrecorded rfl rfl rfl (fun _ => rfl) (fun _ hc => hc) (fun _ hc => hc)
      (fun _ hc => .inr hc) (fun _ _ _ => rfl))
  | shutDown =>
    cases hs
    exact .inl (keeps_of_unrecorded rfl rfl rfl (fun _ => rfl) (fun _ hc => hc) (fun _ hc => hc)
      (fun _ hc => .inr hc) (fun _ _ hd => hd))
  | exit =>
    have hexited : ∀ d, Owner.exited ≠ .claimed d := fun d hd => by cases hd
    simp only [Service.step] at hs
    split at hs
    · split at hs
      · cases hs
        exact .inl (keeps_owner rfl rfl rfl rfl (fun _ hd => hd) hexited (fun _ _ hd => hd))
      · cases hs
        refine .inl (keeps_of_unrecorded rfl rfl rfl (request_update rfl) (cancelled_update id) ?_
          (fun d hd => absurd hd (hexited d)) (fun _ _ hd => hd))
        intro d hd; cases hd
    · cases hs
  | restart =>
    cases hs
    refine .inl (keeps_owner rfl rfl rfl rfl ?_ (fun d hd => by cases hd) ?_)
    · intro d hd; cases hd
    · -- nothing is live in a new process
      rintro d (hd | hd) _
      · cases hd
      · cases hd

/-! ### What one step does to one thread -/

/-- The request that the thread carries. -/
def Submitter.request : Submitter → Option Request
  | .absent => none
  | .ready q | .waiting q _ | .timedOut q _ | .done q _ _ | .lost q => some q

/-- The ways in which a step changes one thread. -/
inductive ThreadMove (s s' : Service) (i : Nat) : Action → Prop where
  | same {a : Action} (h : s'.submitter i = s.submitter i) : ThreadMove s s' i a
  | arrive {q : Request} (h : s.submitter i = .absent) (h' : s'.submitter i = .ready q) :
      ThreadMove s s' i (.arrive i q)
  | submit {q : Request} (h : s.submitter i = .ready q) (h' : s' = s.submit i q) :
      ThreadMove s s' i (.submit i)
  | observe {q : Request} {c : Nat} (h : s.submitter i = .waiting q c)
      (h' : s' = s.finish i q (some c) (Service.admissionResult (s.command c))) :
      ThreadMove s s' i (.observe i)
  | timeout {q : Request} {c : Nat} (h : s.submitter i = .waiting q c)
      (h' : s' = s.setSubmitter i (.timedOut q c)) : ThreadMove s s' i (.timeout i)
  | giveUp {q : Request} {c : Nat} (h : s.submitter i = .timedOut q c)
      (h' : s' = s.giveUp i q c) : ThreadMove s s' i (.giveUp i)
  | lost {q : Request} (h : (s.submitter i).request = some q)
      (hdone : ∀ q c outcome, s.submitter i ≠ .done q c outcome) (h' : s'.submitter i = .lost q) :
      ThreadMove s s' i .restart

@[simp] theorem submitter_setSubmitter_self (s : Service) (i : Nat) (t : Submitter) :
    (s.setSubmitter i t).submitter i = t := by
  show Function.update s.submitter i t i = t
  rw [Function.update_self]

theorem submitter_setSubmitter_of_ne (s : Service) {i j : Nat} (t : Submitter) (h : j ≠ i) :
    (s.setSubmitter i t).submitter j = s.submitter j := by
  show Function.update s.submitter i t j = s.submitter j
  rw [Function.update_of_ne h]

theorem submitter_submit_of_ne (s : Service) {i j : Nat} (q : Request) (h : j ≠ i) :
    (s.submit i q).submitter j = s.submitter j := by
  rcases submit_cases s i q with ⟨-, heq⟩ | ⟨t, heq⟩
  · rw [heq]
    exact submitter_setSubmitter_of_ne (s.setCommand s.created { request := q, onto := q.onto }) _ h
  · rw [heq]
    exact submitter_setSubmitter_of_ne s t h

theorem submitter_abandon (s : Service) (c : Nat) : (s.abandon c).submitter = s.submitter := by
  unfold Service.abandon
  split
  · rfl
  · rfl

theorem submitter_claim (s : Service) : s.claim.submitter = s.submitter := by
  unfold Service.claim
  split
  · rfl
  · rfl

theorem submitter_admitCommand (s : Service) (c : Nat) (run : AdmissionRun) :
    (s.admitCommand c run).submitter = s.submitter := by
  unfold Service.admitCommand
  split
  · rfl
  · split
    · rfl
    · cases run with
      | validationRejects text => rfl
      | recordRejects text => rfl
      | raises => rfl
      | records onto cls =>
        dsimp only
        split
        · rfl
        · split
          · rfl
          · rfl

/-- **Inversion, per thread.** -/
theorem threadMove_of_step {s s' : Service} {a : Action} (hs : s.step a = some s') (j : Nat) :
    ThreadMove s s' j a := by
  -- a step of one submitter leaves the others alone; a step of the owner leaves them all alone
  cases a with
  | arrive i q =>
    simp only [Service.step] at hs
    split at hs
    case h_1 hi =>
      cases hs
      by_cases hj : j = i
      · subst hj
        exact .arrive hi (submitter_setSubmitter_self s j _)
      · exact .same (submitter_setSubmitter_of_ne s _ hj)
    case h_2 => cases hs
  | submit i =>
    simp only [Service.step] at hs
    split at hs
    case h_1 q hi =>
      cases hs
      by_cases hj : j = i
      · subst hj
        exact .submit hi rfl
      · exact .same (submitter_submit_of_ne s q hj)
    case h_2 => cases hs
  | observe i =>
    simp only [Service.step] at hs
    split at hs
    case h_1 q c hi =>
      split at hs
      · cases hs
        by_cases hj : j = i
        · subst hj
          exact .observe hi rfl
        · exact .same (submitter_setSubmitter_of_ne s _ hj)
      · cases hs
    case h_2 => cases hs
  | timeout i =>
    simp only [Service.step] at hs
    split at hs
    case h_1 q c hi =>
      split at hs
      · cases hs
      · cases hs
        by_cases hj : j = i
        · subst hj
          exact .timeout hi rfl
        · exact .same (submitter_setSubmitter_of_ne s _ hj)
    case h_2 => cases hs
  | giveUp i =>
    simp only [Service.step] at hs
    split at hs
    case h_1 q c hi =>
      cases hs
      by_cases hj : j = i
      · subst hj
        exact .giveUp hi rfl
      · refine .same ?_
        show ((s.abandon c).setSubmitter i _).submitter j = s.submitter j
        rw [submitter_setSubmitter_of_ne _ _ hj, submitter_abandon]
    case h_2 => cases hs
  | claim =>
    simp only [Service.step] at hs
    split at hs
    · cases hs
      exact .same (by rw [submitter_claim])
    · cases hs
  | admitCommand run =>
    simp only [Service.step] at hs
    split at hs
    · cases hs
      exact .same (by rw [submitter_admitCommand])
    · cases hs
  | settle =>
    simp only [Service.step] at hs
    split at hs
    · cases hs
      exact .same rfl
    · cases hs
  | dispatch =>
    simp only [Service.step] at hs
    split at hs
    · split at hs
      · cases hs
        exact .same rfl
      · cases hs
    · cases hs
  | release =>
    simp only [Service.step] at hs
    split at hs
    · cases hs
      exact .same rfl
    · split at hs
      · cases hs
      · cases hs
        exact .same rfl
    · cases hs
      exact .same rfl
    · cases hs
  | drain =>
    cases hs
    exact .same rfl
  | shutDown =>
    cases hs
    exact .same rfl
  | exit =>
    simp only [Service.step] at hs
    split at hs
    · split at hs
      · cases hs
        exact .same rfl
      · cases hs
        exact .same rfl
    · cases hs
  -- whoever still waits for an answer loses the connection
  | restart =>
    cases hs
    cases hj : s.submitter j with
    | absent => exact .same (by simp only [hj])
    | done q c outcome => exact .same (by simp only [hj])
    | lost q => exact .same (by simp only [hj])
    | ready q => exact .lost (q := q) (by rw [hj]; rfl) (by simp [hj]) (by simp only [hj])
    | waiting q c => exact .lost (q := q) (by rw [hj]; rfl) (by simp [hj]) (by simp only [hj])
    | timedOut q c => exact .lost (q := q) (by rw [hj]; rfl) (by simp [hj]) (by simp only [hj])

/-! ### The invariant -/

section

variable (r : Request)

/-- No command has been recorded under the request id of `r`, and none that is live will be. -/
def Closed (s : Service) : Prop :=
  s.receipts.get r.requestId = none ∧
    ∀ c, Live s c → (s.command c).request.requestId = r.requestId →
      (s.command c).cancelled = true ∨ s.draining = true

/-- Of the commands with the request id of `r`, only `c` may be recorded. -/
def Only (s : Service) (c : Nat) : Prop :=
  ∀ d < s.created, (s.command d).request.requestId = r.requestId → d ≠ c →
    d ∉ s.recorded ∧ Dead s d

/-- The answer of the thread is, or will be, true of the request id of `r`. -/
def Truthful (s : Service) : Submitter → Prop
  | .waiting _ c | .timedOut _ c => Only r s c
  | .done _ _ (.error e) => e.saysNotAdmitted = true → Closed r s
  | _ => True

variable {r}

/-- A step that creates no command keeps the request id closed. -/
theorem closed_of_keeps {s s' : Service} (h : Settled s) (k : Keeps s s') (hc : Closed r s) :
    Closed r s' := by
  obtain ⟨hnone, hlive⟩ := hc
  have hunrecorded : ∀ c ∈ s'.recorded, (s'.command c).request.requestId ≠ r.requestId := by
    intro c hmem hid
    rw [k.request c] at hid
    rcases k.recorded c hmem with hold | ⟨hclaimed, hcancelled, hdraining⟩
    · have hsome := h.recorded_receipt c hold
      rw [hid, hnone] at hsome
      cases hsome
    · rcases hlive c (.inr hclaimed) hid with hc | hd
      · rw [hcancelled] at hc; cases hc
      · rw [hdraining] at hd; cases hd
  constructor
  · rw [← Option.not_isSome_iff_eq_none]
    intro hsome
    rcases k.receipts r.requestId hsome with hold | ⟨c, hmem, hid⟩
    · rw [hnone] at hold; cases hold
    · exact hunrecorded c hmem hid
  · intro c hl hid
    rw [k.request c] at hid
    have hold : Live s c := by
      rcases hl with hq | hcl
      · exact .inl (k.queued c hq)
      · exact k.claimed c hcl
    rcases hlive c hold hid with hcancelled | hdraining
    · exact .inl (k.cancelled c hcancelled)
    · exact .inr (k.draining c hl hdraining)

/-- A step that creates no command keeps a dead command dead and unrecorded. -/
theorem dead_of_keeps {s s' : Service} (k : Keeps s s') {c : Nat}
    (hc : c ∉ s.recorded ∧ Dead s c) : c ∉ s'.recorded ∧ Dead s' c := by
  obtain ⟨hrec, hqueued, hclaimed⟩ := hc
  refine ⟨fun hmem => ?_, fun hq => hqueued (k.queued c hq), fun hcl => ?_⟩
  · rcases k.recorded c hmem with hold | ⟨hcl, hcancelled, -⟩
    · exact hrec hold
    · rw [hclaimed hcl] at hcancelled
      cases hcancelled
  · rcases k.claimed c hcl with hq | hold
    · exact absurd hq hqueued
    · exact k.cancelled c (hclaimed hold)

theorem only_of_keeps {s s' : Service} (k : Keeps s s') {c : Nat} (h : Only r s c) :
    Only r s' c := by
  intro d hd hid hne
  rw [k.created] at hd
  rw [k.request d] at hid
  exact dead_of_keeps k (h d hd hid hne)

theorem truthful_of_keeps {s s' : Service} (h : Settled s) (k : Keeps s s') {t : Submitter}
    (ht : Truthful r s t) : Truthful r s' t := by
  cases t with
  | absent => trivial
  | ready q => trivial
  | lost q => trivial
  | waiting q c => exact only_of_keeps k ht
  | timedOut q c => exact only_of_keeps k ht
  | done q c outcome =>
    cases outcome with
    | ok a => trivial
    | error e => exact fun he => closed_of_keeps h k (ht he)

theorem command_enqueue_of_lt (s : Service) (i : Nat) (q : Request) {c : Nat} (hc : c < s.created) :
    (s.enqueue i q).command c = s.command c := by
  show Function.update s.command s.created _ c = s.command c
  rw [Function.update_of_ne (by omega)]

theorem request_enqueue_self (s : Service) (i : Nat) (q : Request) :
    ((s.enqueue i q).command s.created).request = q := by
  show (Function.update s.command s.created _ s.created).request = q
  rw [Function.update_self]

/-- While the slot is free, no command is live. -/
theorem not_live_of_free {s : Service} (h : Settled s) (hfree : s.queued.or s.active = none) (c : Nat) :
    ¬ Live s c := by
  obtain ⟨hq, ha⟩ := Option.or_eq_none_iff.mp hfree
  rintro (hc | hc)
  · rw [hq] at hc; cases hc
  · have hactive := h.owner_active
    rw [hc, ha] at hactive
    cases hactive

/-- The only live command is the one in the slot or in the owner's hands. -/
theorem eq_of_live {s : Service} (h : Settled s) {c d : Nat} (hc : s.queued.or s.active = some c)
    (hd : Live s d) : d = c := by
  rcases hd with hq | hcl
  · rw [hq] at hc
    exact Option.some.inj hc
  · have hactive : s.active = some d := by rw [← h.owner_active, hcl]; rfl
    have hq : s.queued = none := queued_eq_none_of_owner h (by rw [hcl]; rfl)
    rw [hq, hactive] at hc
    exact Option.some.inj hc

/-- A command that is not live is dead. -/
theorem dead_of_not_live {s : Service} {c : Nat} (h : ¬ Live s c) : Dead s c :=
  ⟨fun hq => h (.inl hq), fun hcl => absurd (.inr hcl) h⟩

/-- Without a receipt, no command was recorded under the request id. -/
theorem unrecorded_of_get_eq_none {s : Service} (h : Settled s) {key : String}
    (hnone : s.receipts.get key = none) {c : Nat} (hid : (s.command c).request.requestId = key) :
    c ∉ s.recorded := by
  intro hmem
  have hsome := h.recorded_receipt c hmem
  rw [hid, hnone] at hsome
  cases hsome

/-- Creating a command under another request id changes nothing for this one. -/
theorem truthful_enqueue_of_ne {s : Service} (h : Settled s) {i : Nat} {q : Request}
    (hopen : Opens s q) (hne : q.requestId ≠ r.requestId) {t : Submitter} (ht : Truthful r s t) :
    Truthful r (s.enqueue i q) t := by
  have hfree := hopen.2.2.2.1
  have hlt : ∀ d, d < s.created + 1 →
      ((s.enqueue i q).command d).request.requestId = r.requestId → d < s.created := by
    intro d hd hid
    rcases Nat.lt_succ_iff_lt_or_eq.mp hd with hlt | rfl
    · exact hlt
    · rw [request_enqueue_self] at hid
      exact absurd hid hne
  have hclaimed : ∀ d, s.owner ≠ .claimed d := fun d hd => not_live_of_free h hfree d (.inr hd)
  have honly : ∀ c, Only r s c → Only r (s.enqueue i q) c := by
    intro c hc d hd hid hdc
    have hd' := hlt d hd hid
    rw [command_enqueue_of_lt s i q hd'] at hid
    obtain ⟨hrec, -⟩ := hc d hd' hid hdc
    refine ⟨hrec, ?_, fun hcl => absurd hcl (hclaimed d)⟩
    intro hq
    have : s.created = d := Option.some.inj hq
    omega
  cases t with
  | absent => trivial
  | ready q => trivial
  | lost q => trivial
  | waiting q c => exact honly c ht
  | timedOut q c => exact honly c ht
  | done q' c outcome =>
    cases outcome with
    | ok a => trivial
    | error e =>
      intro he
      refine ⟨(ht he).1, ?_⟩
      rintro d (hd | hd) hid
      · have : s.created = d := Option.some.inj hd
        have := hlt d (by omega) hid
        omega
      · exact absurd hd (hclaimed d)

/-- **The submission of the awaited handler.** It is truthful if a refusal for shutdown or drain
    meets a closed request id. -/
theorem truthful_submit {s : Service} (h : Settled s) {i : Nat} {q : Request}
    (hid : q.requestId = r.requestId)
    (hrefused : s.shutdown = true ∨ s.draining = true → Closed r s) :
    Truthful r (s.submit i q) ((s.submit i q).submitter i) := by
  have hfinish : ∀ (c : Option Nat) (outcome : Except AdmissionError Ack),
      Truthful r s (.done q c outcome) →
      Truthful r (s.finish i q c outcome) ((s.finish i q c outcome).submitter i) := by
    intro c outcome ht
    rw [Service.finish, submitter_setSubmitter_self]
    exact truthful_of_keeps h (keeps_setSubmitter s i _) ht
  unfold Service.submit
  split
  case isTrue hdown => exact hfinish _ _ fun _ => hrefused (.inl hdown)
  case isFalse =>
    split
    case isTrue hdrain => exact hfinish _ _ fun _ => hrefused (.inr hdrain)
    case isFalse =>
      split
      case h_1 receipt _ =>
        split
        · exact hfinish _ _ fun he => by cases he
        · refine hfinish _ _ ?_
          -- the answer for a receipt never says "not admitted"
          cases hack : operatorAck q.method q.ticketId (receipt.onto.or q.onto) q.executionId
              receipt.resolutionClass with
          | ok a => trivial
          | error e =>
            intro he
            rw [saysNotAdmitted_operatorAck hack] at he
            cases he
      case h_2 hnone =>
        rw [hid] at hnone
        split
        case h_1 c hc =>
          split
          case isTrue hsame =>
            split
            · exact hfinish _ _ fun he => by cases he
            · -- the handler joins the command of an earlier delivery
              rw [submitter_setSubmitter_self]
              refine only_of_keeps (keeps_setSubmitter s i _) ?_
              intro d _ hdid hdc
              refine ⟨unrecorded_of_get_eq_none h hnone hdid, dead_of_not_live fun hl => ?_⟩
              exact hdc (eq_of_live h hc hl)
          case isFalse hother =>
            refine hfinish _ _ fun _ => ⟨hnone, fun d hd hdid => ?_⟩
            rw [eq_of_live h hc hd, ← hid] at hdid
            exact absurd hdid hother
        case h_2 hfree =>
          split
          case isTrue =>
            exact hfinish _ _ fun _ => ⟨hnone, fun d hd _ => absurd hd (not_live_of_free h hfree d)⟩
          case isFalse =>
            have hself : (s.enqueue i q).submitter i = .waiting q s.created :=
              submitter_setSubmitter_self (s.setCommand s.created _) i _
            rw [hself]
            intro d hd hdid hdc
            have hlt : d < s.created := Nat.lt_of_le_of_ne (Nat.le_of_lt_succ hd) hdc
            rw [command_enqueue_of_lt s i q hlt] at hdid
            refine ⟨unrecorded_of_get_eq_none h hnone hdid, ?_, fun hcl => ?_⟩
            · intro hq
              exact hdc (Option.some.inj hq).symm
            · exact absurd (.inr hcl) (not_live_of_free h hfree d)

variable (r) in
/-- Some command was recorded under the request id of `r`. -/
def Admitted (s : Service) : Prop :=
  ∃ c ∈ s.recorded, (s.command c).request.requestId = r.requestId

theorem admitted_of_keeps {s s' : Service} (k : Keeps s s') (h : Admitted r s) : Admitted r s' := by
  obtain ⟨c, hmem, hid⟩ := h
  exact ⟨c, k.recorded_mono c hmem, by rw [k.request c]; exact hid⟩

theorem admitted_enqueue {s : Service} (h : Settled s) (i : Nat) (q : Request)
    (hadm : Admitted r s) : Admitted r (s.enqueue i q) := by
  obtain ⟨c, hmem, hid⟩ := hadm
  exact ⟨c, hmem, by rw [command_enqueue_of_lt s i q (h.recorded_lt c hmem)]; exact hid⟩

/-- If the only command that may be recorded is dead, the request id is closed. -/
theorem closed_of_only {s : Service} (h : Settled s)
    (hadm : (s.receipts.get r.requestId).isSome → Admitted r s) {c : Nat} (honly : Only r s c)
    (hc : c ∉ s.recorded ∧ Dead s c) : Closed r s := by
  have hall : ∀ d < s.created, (s.command d).request.requestId = r.requestId →
      d ∉ s.recorded ∧ Dead s d := by
    intro d hd hid
    by_cases hdc : d = c
    · exact hdc ▸ hc
    · exact honly d hd hid hdc
  constructor
  · rw [← Option.not_isSome_iff_eq_none]
    intro hsome
    obtain ⟨d, hmem, hid⟩ := hadm hsome
    exact (hall d (h.recorded_lt d hmem) hid).1 hmem
  · rintro d (hd | hd) hid
    · exact absurd hd (hall d (h.queued_new d hd).1 hid).2.1
    · exact .inl ((hall d (h.claimed_new d hd).1 hid).2.2 hd)

/-- A handler that has ended, on the only command that may be recorded, is truthful. -/
theorem truthful_done {s : Service} (h : Settled s)
    (hadm : (s.receipts.get r.requestId).isSome → Admitted r s) {i : Nat} {q : Request} {c : Nat}
    {outcome : Except AdmissionError Ack} (hi : s.submitter i = .done q (some c) outcome)
    (honly : Only r s c) : Truthful r s (s.submitter i) := by
  have hsound := h.submitter_sound i
  rw [hi] at hsound ⊢
  cases outcome with
  | ok a => trivial
  | error e =>
    intro he
    obtain ⟨-, hrec, hdead⟩ := hsound he
    exact closed_of_only h hadm honly ⟨hrec, hdead⟩

/-- An acknowledgement was preceded by a record. -/
theorem admitted_observe {s : Service} (h : Settled s) {i : Nat} {q : Request} {c : Nat}
    (hi : s.submitter i = .waiting q c) (hid : q.requestId = r.requestId) {a : Ack}
    (hout : Service.admissionResult (s.command c) = .ok a) : Admitted r s := by
  have hsound := h.submitter_sound i
  rw [hi] at hsound
  obtain ⟨hlt, hsame⟩ := hsound
  have hres : (s.command c).admissionResult = some a := by
    unfold Service.admissionResult at hout
    split at hout
    · cases hout
    · split at hout
      · cases hout
      · rename_i hres
        rw [hres]
        cases hout
        rfl
  exact ⟨c, h.result_recorded c hlt (by rw [hres]; rfl), hsame.trans hid⟩

theorem admitted_submit {s : Service} (hadm : (s.receipts.get r.requestId).isSome → Admitted r s)
    {i : Nat} {q q' : Request} (hid : q.requestId = r.requestId) {c : Option Nat} {a : Ack}
    (hout : (s.submit i q).submitter i = .done q' c (.ok a)) : Admitted r s := by
  unfold Service.submit at hout
  split at hout
  · simp [Service.finish] at hout
  · split at hout
    · simp [Service.finish] at hout
    · split at hout
      case h_1 receipt hreceipt =>
        exact hadm (by rw [← hid, hreceipt]; rfl)
      case h_2 =>
        split at hout
        · split at hout
          · split at hout
            · simp [Service.finish] at hout
            · simp at hout
          · simp [Service.finish] at hout
        · split at hout
          · simp [Service.finish] at hout
          · have hself : (s.enqueue i q).submitter i = .waiting q s.created :=
              submitter_setSubmitter_self (s.setCommand s.created _) i _
            rw [hself] at hout
            cases hout

variable (r) in
/-- **The invariant of a call.** The handler it listens to, or that ended it, carries the request id
    and is truthful; acknowledgements come after a record. -/
structure Certain (w : World) : Prop where
  settled : Settled w.service
  admitted : (w.service.receipts.get r.requestId).isSome → Admitted r w.service
  carries : ∀ i, w.call.thread = some i →
    ∃ q, (w.service.submitter i).request = some q ∧ q.requestId = r.requestId
  truthful : ∀ i, w.call.thread = some i → Truthful r w.service (w.service.submitter i)
  acked : ∀ i q c a, w.service.submitter i = .done q c (.ok a) → q.requestId = r.requestId →
    Admitted r w.service
  refused : ∀ i error e, w.call = .ended i (.error error) → error.answer = some e →
    ∃ j q c, i = some j ∧ w.service.submitter j = .done q c (.error e)
  granted : ∀ i a, w.call = .ended i (.ok a) →
    ∃ j q c, i = some j ∧ w.service.submitter j = .done q c (.ok a)

end

/-- The request of a handler that is about to submit it. -/
def Submitter.pending : Submitter → Option Request
  | .ready q => some q
  | _ => none

/-- The condition on a run: a wait does not time out after the record; a delivery that the client
    listens to is refused for shutdown or drain only when the request id is closed; no delivery of
    the request id opens a new command after the one the client listens to was submitted. -/
def Sure (r : Request) (w : World) : WorldAction → Prop
  | .service (.submit i) => ∀ q ∈ (w.service.submitter i).pending, q.requestId = r.requestId →
      (i ∈ w.call.thread → w.service.shutdown = true ∨ w.service.draining = true →
        Closed r w.service) ∧
      (Opens w.service q → ∀ j ∈ w.call.thread, (w.service.submitter j).pending.isSome)
  | .service a => Timely w.service a
  | _ => True

/-- The command that the owner has claimed and not yet decided. -/
def Owner.claim : Owner → Option Nat
  | .claimed c => some c
  | _ => none

theorem owner_claim_iff {o : Owner} {c : Nat} : o.claim = some c ↔ o = .claimed c := by
  cases o <;> simp [Owner.claim]

instance (s : Service) (p : Nat → Prop) [DecidablePred p] : Decidable (∀ c, Live s c → p c) :=
  decidable_of_iff ((∀ c ∈ s.queued, p c) ∧ ∀ c ∈ s.owner.claim, p c) <| by
    simp only [owner_claim_iff, Option.mem_def, Live, or_imp, forall_and]

instance (r : Request) (s : Service) : Decidable (Closed r s) :=
  inferInstanceAs (Decidable (_ ∧ _))

instance (s : Service) (q : Request) : Decidable (Opens s q) :=
  inferInstanceAs (Decidable (_ ∧ _))

instance (r : Request) (w : World) : (a : WorldAction) → Decidable (Sure r w a)
  | .service (.submit i) =>
    inferInstanceAs (Decidable (∀ q ∈ (w.service.submitter i).pending,
      q.requestId = r.requestId → _ ∧ _))
  | .service (.giveUp i) => inferInstanceAs (Decidable (Timely w.service (.giveUp i)))
  | .service (.arrive ..) | .service (.observe _) | .service (.timeout _) | .service .claim
  | .service (.admitCommand _) | .service .settle | .service .dispatch | .service .release
  | .service .drain | .service .shutDown | .service .exit | .service .restart
  | .connectFails _ | .connect _ | .lose | .receive => isTrue trivial

section

variable {r : Request}

theorem certain_boot {receipts : Dict Receipt} (hfresh : receipts.get r.requestId = none) :
    Certain r (World.boot receipts) where
  settled := settled_boot receipts
  admitted := by
    intro hsome
    have hsome' : (receipts.get r.requestId).isSome := hsome
    rw [hfresh] at hsome'
    cases hsome'
  carries := by intro i hi; cases hi
  truthful := by intro i hi; cases hi
  acked := by intro i q c a hi; cases hi
  refused := by intro i error e hcall; cases hcall
  granted := by intro i a hcall; cases hcall

/-- The thread carries the same request throughout. -/
theorem request_submit_self (s : Service) (i : Nat) (q : Request) :
    ((s.submit i q).submitter i).request = some q := by
  unfold Service.submit
  have hset : ∀ t : Submitter, t.request = some q →
      ((s.setSubmitter i t).submitter i).request = some q := by
    intro t ht
    rw [submitter_setSubmitter_self]
    exact ht
  split
  · exact hset _ rfl
  · split
    · exact hset _ rfl
    · split
      · split
        · exact hset _ rfl
        · exact hset _ rfl
      · split
        · split
          · split
            · exact hset _ rfl
            · exact hset _ rfl
          · exact hset _ rfl
        · split
          · exact hset _ rfl
          · show ((Function.update s.submitter i (.waiting q s.created) i)).request = some q
            rw [Function.update_self]
            rfl

theorem submitter_giveUp_self (s : Service) (i : Nat) (q : Request) (c : Nat) :
    (s.giveUp i q c).submitter i = .done q (some c) (.error .timedOut) :=
  submitter_setSubmitter_self (s.abandon c) i _

theorem request_of_move {s s' : Service} {i : Nat} {a : Action} (hmove : ThreadMove s s' i a)
    {q : Request} (hq : (s.submitter i).request = some q) :
    (s'.submitter i).request = some q := by
  cases hmove with
  | same h => rw [h]; exact hq
  | arrive h _ => rw [h] at hq; cases hq
  | submit h h' =>
    rw [h] at hq
    cases hq
    rw [h']
    exact request_submit_self s i q
  | observe h h' =>
    rw [h] at hq
    cases hq
    rw [h', Service.finish, submitter_setSubmitter_self]
    rfl
  | timeout h h' =>
    rw [h] at hq
    cases hq
    rw [h', submitter_setSubmitter_self]
    rfl
  | giveUp h h' =>
    rw [h] at hq
    cases hq
    rw [h', submitter_giveUp_self]
    rfl
  | lost h _ h' =>
    rw [h] at hq
    cases hq
    rw [h']
    rfl

/-- A thread that has ended stays as it is. -/
theorem done_of_move {s s' : Service} {i : Nat} {a : Action} (hmove : ThreadMove s s' i a)
    {q : Request} {c : Option Nat} {outcome : Except AdmissionError Ack}
    (hdone : s.submitter i = .done q c outcome) : s'.submitter i = .done q c outcome := by
  cases hmove with
  | same h => rw [h]; exact hdone
  | arrive h _ => rw [h] at hdone; cases hdone
  | submit h _ => rw [h] at hdone; cases hdone
  | observe h _ => rw [h] at hdone; cases hdone
  | timeout h _ => rw [h] at hdone; cases hdone
  | giveUp h _ => rw [h] at hdone; cases hdone
  | lost _ h _ => exact absurd hdone (h q c outcome)

/-- What was admitted stays admitted, and a receipt comes with a record. -/
theorem admitted_step {s s' : Service} {a : Action} (h : Settled s) (hs : s.step a = some s')
    (hadm : (s.receipts.get r.requestId).isSome → Admitted r s) :
    (Admitted r s → Admitted r s') ∧
      ((s'.receipts.get r.requestId).isSome → Admitted r s') := by
  rcases keeps_step hs with k | ⟨i, q, -, -, -, rfl⟩
  · refine ⟨admitted_of_keeps k, fun hsome => ?_⟩
    rcases k.receipts r.requestId hsome with hold | hnew
    · exact admitted_of_keeps k (hadm hold)
    · exact hnew
  · exact ⟨admitted_enqueue h i q, fun hsome => admitted_enqueue h i q (hadm hsome)⟩

theorem timely_of_sure {w : World} {a : Action} (h : Sure r w (.service a)) :
    Timely w.service a := by
  cases a with
  | submit i => trivial
  | arrive i q => exact h
  | observe i => exact h
  | timeout i => exact h
  | giveUp i => exact h
  | claim => exact h
  | admitCommand run => exact h
  | settle => exact h
  | dispatch => exact h
  | release => exact h
  | drain => exact h
  | shutDown => exact h
  | exit => exact h
  | restart => exact h

/-- The thread that the client listens to stays truthful. -/
theorem truthful_step {w : World} {a : Action} {s' : Service} (h : Certain r w)
    (hok : Sure r w (.service a)) (hs : w.service.step a = some s') {i : Nat}
    (hi : w.call.thread = some i) : Truthful r s' (s'.submitter i) := by
  have hsettled : Settled s' := settled_step h.settled (timely_of_sure hok) hs
  have hadm := (admitted_step h.settled hs h.admitted).2
  have htruth := h.truthful i hi
  cases threadMove_of_step hs i with
  | same hsame =>
    rw [hsame]
    rcases keeps_step hs with k | ⟨j, q, rfl, hj, hopen, rfl⟩
    · exact truthful_of_keeps h.settled k htruth
    · by_cases hid : q.requestId = r.requestId
      · -- a late delivery of the same request id: this one is not submitted yet
        have hpending := (hok q (by rw [hj]; rfl) hid).2 hopen i hi
        cases hready : w.service.submitter i with
        | ready q' => trivial
        | absent => trivial
        | lost q' => trivial
        | waiting q' c => rw [hready] at hpending; cases hpending
        | timedOut q' c => rw [hready] at hpending; cases hpending
        | done q' c outcome => rw [hready] at hpending; cases hpending
      · exact truthful_enqueue_of_ne h.settled hopen hid htruth
  | arrive _ h' => rw [h']; trivial
  | submit hready h' =>
    obtain ⟨q, hq, hid⟩ := h.carries i hi
    rw [hready] at hq
    cases hq
    subst h'
    exact truthful_submit h.settled hid fun hrefused => (hok _ (by rw [hready]; rfl) hid).1 hi hrefused
  | observe hwait h' =>
    subst h'
    rw [hwait] at htruth
    exact truthful_done hsettled hadm (submitter_setSubmitter_self w.service i _)
      (only_of_keeps (keeps_setSubmitter w.service i _) htruth)
  | timeout hwait h' =>
    subst h'
    rw [hwait] at htruth
    rw [submitter_setSubmitter_self]
    exact only_of_keeps (keeps_setSubmitter w.service i _) htruth
  | giveUp hwait h' =>
    subst h'
    rw [hwait] at htruth
    rcases keeps_step hs with k | ⟨j, q, hj, -⟩
    · exact truthful_done hsettled hadm (submitter_giveUp_self w.service i _ _)
        (only_of_keeps k htruth)
    · cases hj
  | lost _ _ h' => rw [h']; trivial

/-- An acknowledged thread has been admitted. -/
theorem acked_step {w : World} {a : Action} {s' : Service} (h : Certain r w)
    (hs : w.service.step a = some s') {i : Nat} {q : Request} {c : Option Nat} {ack : Ack}
    (hi : s'.submitter i = .done q c (.ok ack)) (hid : q.requestId = r.requestId) :
    Admitted r s' := by
  obtain ⟨hmono, -⟩ := admitted_step h.settled hs h.admitted
  cases threadMove_of_step hs i with
  | same hsame =>
    rw [hsame] at hi
    exact hmono (h.acked i q c ack hi hid)
  | arrive _ h' => rw [h'] at hi; cases hi
  | submit hready h' =>
    have hreq := request_of_move (threadMove_of_step hs i) (by rw [hready]; rfl)
    rw [hi] at hreq
    cases hreq
    rw [h'] at hi
    exact hmono (admitted_submit h.admitted hid hi)
  | observe hwait h' =>
    rw [h', Service.finish, submitter_setSubmitter_self] at hi
    injection hi with hq hc hout
    subst hq
    exact hmono (admitted_observe h.settled hwait hid hout)
  | timeout _ h' => rw [h', submitter_setSubmitter_self] at hi; cases hi
  | giveUp _ h' => rw [h', submitter_giveUp_self] at hi; cases hi
  | lost _ _ h' => rw [h'] at hi; cases hi

theorem certain_service {w : World} {a : Action} {s' : Service} (h : Certain r w)
    (hok : Sure r w (.service a)) (hs : w.service.step a = some s') :
    Certain r { w with service := s' } where
  settled := settled_step h.settled (timely_of_sure hok) hs
  admitted := (admitted_step h.settled hs h.admitted).2
  carries := by
    intro i hi
    obtain ⟨q, hq, hid⟩ := h.carries i hi
    exact ⟨q, request_of_move (threadMove_of_step hs i) hq, hid⟩
  truthful := fun i hi => truthful_step h hok hs hi
  acked := fun i q c ack hi hid => acked_step h hs hi hid
  refused := by
    intro i error e hcall he
    obtain ⟨j, q, c, rfl, hj⟩ := h.refused i error e hcall he
    exact ⟨j, q, c, rfl, done_of_move (threadMove_of_step hs j) hj⟩
  granted := by
    intro i ack hcall
    obtain ⟨j, q, c, rfl, hj⟩ := h.granted i ack hcall
    exact ⟨j, q, c, rfl, done_of_move (threadMove_of_step hs j) hj⟩

/-- The call stops listening, and nothing it tells comes from the service. -/
theorem certain_deaf {w : World} (h : Certain r w) {call : Call} (hthread : call.thread = none)
    (herror : ∀ i error, call = .ended i (.error error) → error.answer = none)
    (hok : ∀ i ack, call ≠ .ended i (.ok ack)) : Certain r { w with call } where
  settled := h.settled
  admitted := h.admitted
  carries := by
    intro i hi
    rw [show call.thread = some i from hi] at hthread
    cases hthread
  truthful := by
    intro i hi
    rw [show call.thread = some i from hi] at hthread
    cases hthread
  acked := h.acked
  refused := by
    intro i error e hcall he
    rw [herror i error hcall] at he
    cases he
  granted := fun i ack hcall => absurd hcall (hok i ack)

/-- After a transport error the call is deaf. -/
theorem certain_afterError {w : World} (h : Certain r w) (k : Nat) {error : IpcClientError}
    (hanswer : error.answer = none) :
    Certain r { w with call := afterError r.method k none error } := by
  unfold afterError
  split
  · refine certain_deaf h rfl ?_ (fun _ _ hcall => by cases hcall)
    intro i error' hcall
    cases hcall
    rfl
  · split
    · refine certain_deaf h rfl ?_ (fun _ _ hcall => by cases hcall)
      intro i error' hcall
      cases hcall
      exact hanswer
    · exact certain_deaf h rfl (fun _ _ hcall => by cases hcall) (fun _ _ hcall => by cases hcall)

/-- An application error ends the call at either attempt. -/
theorem afterResponse_eq (method : Method) (k i : Nat) (outcome : Except AdmissionError Ack) :
    ∃ result, afterResponse method k i outcome = .ended (some i) result ∧
      (∀ error, result = .error error → ∃ e, outcome = .error e ∧ error.answer = some e) ∧
      ∀ ack, result = .ok ack → outcome = .ok ack := by
  cases outcome with
  | ok a =>
    refine ⟨.ok a, rfl, ?_, ?_⟩
    · intro error herror
      cases herror
    · intro ack hack
      cases hack
      rfl
  | error e =>
    refine ⟨.error (applicationError e), ?_, ?_, ?_⟩
    · simp [afterResponse, afterError, applicationError]
    · intro error herror
      cases herror
      exact ⟨e, rfl, rfl⟩
    · intro ack hack
      cases hack

theorem certain_receive {w : World} (h : Certain r w) {k i : Nat} (hcall : w.call = .awaiting k i)
    {q : Request} {c : Option Nat} {outcome : Except AdmissionError Ack}
    (hi : w.service.submitter i = .done q c outcome) :
    Certain r { w with call := afterResponse r.method k i outcome } := by
  obtain ⟨result, heq, herror, hok⟩ := afterResponse_eq r.method k i outcome
  rw [heq]
  refine ⟨h.settled, h.admitted, ?_, ?_, h.acked, ?_, ?_⟩
  · intro j hj
    cases hj
    exact h.carries i (by rw [hcall]; rfl)
  · intro j hj
    cases hj
    exact h.truthful i (by rw [hcall]; rfl)
  · intro j error e hended he
    cases hended
    obtain ⟨e', hout, he'⟩ := herror error rfl
    rw [he] at he'
    cases he'
    exact ⟨i, q, c, rfl, by rw [← hout]; exact hi⟩
  · intro j ack hended
    cases hended
    exact ⟨i, q, c, rfl, by rw [← hok ack rfl]; exact hi⟩

theorem certain_connect {w : World} (h : Certain r w) {i : Nat} {s' : Service} {k : Nat}
    (hs : w.service.step (.arrive i r) = some s') : Certain r ⟨s', .awaiting k i⟩ := by
  have hc := certain_service h (a := .arrive i r) trivial hs
  have hready : s'.submitter i = .ready r := by
    simp only [Service.step] at hs
    split at hs
    · cases hs
      exact submitter_setSubmitter_self w.service i _
    · cases hs
  refine ⟨hc.settled, hc.admitted, ?_, ?_, hc.acked, ?_, ?_⟩
  · intro j hj
    cases hj
    exact ⟨r, by rw [hready]; rfl, rfl⟩
  · intro j hj
    cases hj
    show Truthful r s' (s'.submitter i)
    rw [hready]
    trivial
  · intro j error e hended; cases hended
  · intro j ack hended; cases hended

/-- **Step.** Every sure step keeps the invariant of the call. -/
theorem certain_step {w w' : World} {a : WorldAction} (h : Certain r w) (hok : Sure r w a)
    (hs : World.step r w a = some w') : Certain r w' := by
  cases a with
  | service a =>
    simp only [World.step, Option.map_eq_some_iff] at hs
    obtain ⟨s', hs', rfl⟩ := hs
    exact certain_service h hok hs'
  | connectFails text =>
    simp only [World.step] at hs
    split at hs
    · cases hs
      exact certain_afterError h _ rfl
    · cases hs
  | connect i =>
    simp only [World.step] at hs
    split at hs
    · rw [Option.map_eq_some_iff] at hs
      obtain ⟨s', hs', rfl⟩ := hs
      exact certain_connect h hs'
    · cases hs
  | lose =>
    simp only [World.step] at hs
    split at hs
    · cases hs
      exact certain_afterError h _ rfl
    · cases hs
  | receive =>
    simp only [World.step] at hs
    split at hs
    case h_1 k i hcall =>
      split at hs
      case h_1 q c outcome hi =>
        cases hs
        exact certain_receive h hcall hi
      case h_2 => cases hs
    case h_2 => cases hs

/-- A request id that is recorded is recorded once. -/
theorem admissions_of_admitted {s : Service} (h : Settled s) (hadm : Admitted r s) :
    ∃ c, admissions r s = [c] := by
  obtain ⟨c, hmem, hid⟩ := hadm
  refine ⟨c, ?_⟩
  have hin : c ∈ admissions r s := List.mem_filter.mpr ⟨hmem, by simpa using hid⟩
  have hnodup : (admissions r s).Nodup := h.recorded_nodup.filter _
  have hall : ∀ d ∈ admissions r s, d = c := by
    intro d hd
    obtain ⟨hdmem, hdid⟩ := List.mem_filter.mp hd
    have hdid' : (s.command d).request.requestId = r.requestId := by simpa using hdid
    exact h.recorded_inj d hdmem c hmem (hdid'.trans hid.symm)
  match hl : admissions r s, hin, hnodup, hall with
  | [d], _, _, hall => rw [hall d List.mem_cons_self]
  | d :: d' :: rest, _, hnodup, hall =>
    have hd : d = c := hall d List.mem_cons_self
    have hd' : d' = c := hall d' (List.mem_cons_of_mem _ List.mem_cons_self)
    subst hd hd'
    exact absurd List.mem_cons_self (List.nodup_cons.mp hnodup).1

theorem admissions_of_closed {s : Service} (h : Settled s) (hclosed : Closed r s) :
    admissions r s = [] := by
  rw [admissions, List.filter_eq_nil_iff]
  intro c hmem hid
  exact unrecorded_of_get_eq_none h hclosed.1 (by simpa using hid) hmem

end

/-- **Client certainty.** In every run of a call with a fresh request id whose steps are sure, an
    error that is not marked uncertain and carries a "not admitted" answer means that no command was
    ever recorded under the request id, and an acknowledgement that exactly one was. -/
theorem certain_of_sure (r : Request) {receipts : Dict Receipt}
    (hfresh : receipts.get r.requestId = none) {w : World}
    (h : Run (World.step r) (Sure r) (World.boot receipts) w) :
    (∀ i error e, w.call = .ended i (.error error) → error.uncertain = false →
      error.answer = some e → e.saysNotAdmitted = true → admissions r w.service = []) ∧
    (∀ i ack, w.call = .ended i (.ok ack) → ∃ c, admissions r w.service = [c]) := by
  have hinv : Certain r w := h.invariant (Certain r) (certain_boot hfresh)
    fun _ _ _ hc hok hs => certain_step hc hok hs
  constructor
  · intro i error e hcall _ he hsays
    obtain ⟨j, q, c, rfl, hj⟩ := hinv.refused i error e hcall he
    have htruth := hinv.truthful j (by rw [hcall]; rfl)
    rw [hj] at htruth
    exact admissions_of_closed hinv.settled (htruth hsays)
  · intro i ack hcall
    obtain ⟨j, q, c, rfl, hj⟩ := hinv.granted i ack hcall
    obtain ⟨q', hq', hid⟩ := hinv.carries j (by rw [hcall]; rfl)
    rw [hj] at hq'
    cases hq'
    exact admissions_of_admitted hinv.settled (hinv.acked j q c ack hj hid)

/-- The response to the first attempt is lost; the replay finds the receipt. -/
def lostResponse : List WorldAction :=
  [.connect 0, .service (.submit 0), .lose, .service .claim, .service (.admitCommand (.records none none)),
    .connect 1, .service (.submit 1), .receive]

theorem certain_lostResponse : ∃ w, exec (World.step retryRequest) (World.boot []) lostResponse = some w ∧
    w.call = .ended (some 1) (.ok { method := .retry, ticketId := "T" }) ∧
    ∃ c, admissions retryRequest w.service = [c] :=
  ⟨_, rfl, rfl, (@certain_of_sure retryRequest [] rfl _ (run_of_exec rfl (by decide :
    Along (World.step retryRequest) (Sure retryRequest) (World.boot []) lostResponse))).2 _ _ rfl⟩

/-- **The drained replay.** The first attempt is admitted and its response lost; the service starts to
    drain; the replay of the same request id is answered "service is draining; runtime command was
    not admitted", and the call ends with that error, not marked uncertain. -/
theorem drainedReplay_admitted : ∃ w, exec (World.step retryRequest) (World.boot [])
      [.connect 0, .service (.submit 0), .service .claim, .service (.admitCommand (.records none none)),
        .lose, .service .drain, .connect 1, .service (.submit 1), .receive] = some w ∧
    w.call = .ended (some 1) (.error (applicationError .draining)) ∧
    (applicationError .draining).uncertain = false ∧
    AdmissionError.draining.saysNotAdmitted = true ∧ admissions retryRequest w.service = [0] :=
  ⟨_, rfl, rfl, rfl, rfl, rfl⟩

end Devlegate
