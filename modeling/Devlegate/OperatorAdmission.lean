import Devlegate.Lib.Transition
import Devlegate.State
import Mathlib.Logic.Function.Basic

namespace Devlegate

open Transition

/-!
# Admission of operator commands

A mutating request reaches `_submit_operator_command` on an IPC thread, waits there in a slot of
size one and is admitted, recorded and dispatched by the owner thread.  Every section under
`_operator_command_lock` is one step; the waiting, its timeout and the wake-up are steps of their
own, in any order with the others.

* `Service.step`: the steps of submitters, owner, lifecycle and restart.
* `Settled`: the invariant; a command whose submission was told "not admitted" can no longer be
  recorded.
* `notAdmitted_of_timely`: in a run in which no submitter gives up waiting after its receipt was
  recorded, a submission that ends with a "not admitted" error leaves no receipt and no dispatch.
* `lateTimeout_admitted`: the run in which it does.
-/

/-! ### Requests, commands and answers -/

/-- The arguments of `_submit_operator_command`. -/
structure Request where
  requestId : String
  method : Method
  fingerprint : String
  ticketId : String
  onto : Option String := none
  executionId : Option String := none
  rewritePublished : Bool := false
  force : Bool := false
  deriving DecidableEq, Repr

/-- The errors a submission can end with. -/
inductive AdmissionError where
  | shuttingDown
  | draining
  | busy
  | timedOut
  | collision (method : Method)
  | noResult
  | rejected (text : String)
  deriving DecidableEq, Repr

/-- The text of the error. -/
def AdmissionError.message : AdmissionError → String
  | .shuttingDown => "service is shutting down; runtime command was not admitted"
  | .draining => "service is draining; runtime command was not admitted"
  | .busy => "service busy; mutable request was not admitted"
  | .timedOut => "service admission coordination timed out; request was not admitted"
  | .collision method => "request id collision: " ++ method.word ++ " request semantics differ"
  | .noResult => "service did not produce an operator admission result"
  | .rejected text => text

/-- The error says that the request was not admitted. -/
def AdmissionError.saysNotAdmitted : AdmissionError → Bool
  | .shuttingDown | .draining | .busy | .timedOut => true
  | _ => false

/-- The acknowledgement: `ticketId` is `from` and `onto` is `to` for `reconcile-control`, `onto` is
    `observed_head` for `recover`. -/
structure Ack where
  method : Method
  ticketId : String
  onto : Option String := none
  executionId : Option String := none
  resolutionClass : Option ResolutionClass := none
  deriving DecidableEq, Repr

/-- `_operator_ack`. -/
def operatorAck (method : Method) (ticketId : String) (onto executionId : Option String)
    (resolutionClass : Option ResolutionClass) : Except AdmissionError Ack :=
  match method with
  | .retry => .ok { method, ticketId }
  | .drop =>
    if executionId.isNone then .error (.rejected "drop requires an exact execution identity")
    else .ok { method, ticketId, executionId }
  | .recover =>
    if executionId.isNone || onto.isNone then
      .error (.rejected "recover requires an exact execution and observed branch HEAD")
    else .ok { method, ticketId, executionId, onto }
  | .reconcileControl =>
    if onto.isNone then .error (.rejected "reconcile-control requires both control revisions")
    else .ok { method, ticketId, onto }
  | .reconcileResume => .ok { method, ticketId }
  | .reconcileUpdateBase =>
    if onto.isNone then .error (.rejected "reconciliation target was not resolved")
    else .ok { method, ticketId, onto }
  | .reconcileAuto => .ok { method, ticketId, onto, resolutionClass }

/-- `OperatorCommand`. -/
structure OperatorCommand where
  request : Request
  onto : Option String := none
  resolutionClass : Option ResolutionClass := none
  admissionEvent : Bool := false
  admissionResult : Option Ack := none
  admissionError : Option AdmissionError := none
  cancelled : Bool := false
  deriving DecidableEq, Repr

/-- The receipt that `_record_operator_admission` stores. -/
def receiptOf (command : OperatorCommand) : Except AdmissionError Receipt := do
  let request := command.request
  let bindsTarget := request.method == .reconcileUpdateBase
    || (request.method == .reconcileAuto && command.onto.isSome)
  if bindsTarget && command.onto.isNone then
    throw (.rejected "reconciliation target was not resolved")
  if request.method == .reconcileAuto && command.resolutionClass.isNone then
    throw (.rejected "automatic reconciliation was not classified")
  return {
    method := request.method
    fingerprint := request.fingerprint
    ticketId := request.ticketId
    executionId := request.executionId
    onto := if bindsTarget then command.onto else none
    resolutionClass :=
      if request.method == .reconcileAuto then command.resolutionClass else none }

/-! ### The service -/

/-- A submitter thread: before its locked section, waiting for the admission event, past its
    timeout, finished (with the command it was attached to), or gone with the process. -/
inductive Submitter where
  | absent
  | ready (request : Request)
  | waiting (request : Request) (command : Nat)
  | timedOut (request : Request) (command : Nat)
  | done (request : Request) (command : Option Nat) (outcome : Except AdmissionError Ack)
  | lost (request : Request)
  deriving DecidableEq, Repr

/-- The owner thread between two of its steps. -/
inductive Owner where
  | idle
  | iterating
  | claimed (command : Nat)
  | leaving (command : Nat)
  | settled (command : Nat)
  | dispatched (command : Nat)
  | exited
  deriving DecidableEq, Repr

/-- The service: durable receipts, the command slot, the flags and the threads.  `recorded` and
    `dispatched` are the history of the commands. -/
structure Service where
  receipts : Dict Receipt
  command : Nat → OperatorCommand
  created : Nat
  queued : Option Nat
  active : Option Nat
  schedulerActive : Bool
  draining : Bool
  shutdown : Bool
  owner : Owner
  submitter : Nat → Submitter
  recorded : List Nat
  dispatched : List Nat

/-- A command that no submitter has created. -/
def noCommand : OperatorCommand := { request := ⟨"", .retry, "", "", none, none, false, false⟩ }

/-- A service that has just started on durable receipts. -/
def Service.boot (receipts : Dict Receipt) : Service where
  receipts := receipts
  command := fun _ => noCommand
  created := 0
  queued := none
  active := none
  schedulerActive := false
  draining := false
  shutdown := false
  owner := .idle
  submitter := fun _ => .absent
  recorded := []
  dispatched := []

/-- How the validation and the recording of a command end, apart from the checks that the model
    makes itself. -/
inductive AdmissionRun where
  | validationRejects (text : String)
  | raises
  | recordRejects (text : String)
  | records (onto : Option String) (resolutionClass : Option ResolutionClass)
  deriving DecidableEq, Repr

/-- The steps. -/
inductive Action where
  | arrive (thread : Nat) (request : Request)
  | submit (thread : Nat)
  | observe (thread : Nat)
  | timeout (thread : Nat)
  | giveUp (thread : Nat)
  | claim
  | admitCommand (run : AdmissionRun)
  | settle
  | dispatch
  | release
  | drain
  | shutDown
  | exit
  | restart
  deriving DecidableEq, Repr

namespace Service

/-- The thread's state is replaced. -/
def setSubmitter (s : Service) (thread : Nat) (t : Submitter) : Service :=
  { s with submitter := Function.update s.submitter thread t }

/-- The command is replaced. -/
def setCommand (s : Service) (c : Nat) (command : OperatorCommand) : Service :=
  { s with command := Function.update s.command c command }

/-- The thread ends. -/
def finish (s : Service) (thread : Nat) (request : Request) (c : Option Nat)
    (outcome : Except AdmissionError Ack) : Service :=
  s.setSubmitter thread (.done request c outcome)

/-- `_admission_result`. -/
def admissionResult (command : OperatorCommand) : Except AdmissionError Ack :=
  match command.admissionError with
  | some e => .error e
  | none =>
    match command.admissionResult with
    | none => .error .noResult
    | some ack => .ok ack

/-- A new command takes the slot, and its thread waits for it. -/
def enqueue (s : Service) (thread : Nat) (request : Request) : Service :=
  { (s.setCommand s.created { request, onto := request.onto }).setSubmitter thread
      (.waiting request s.created) with
    created := s.created + 1, queued := some s.created }

/-- The locked section at the start of `_submit_operator_command`. -/
def submit (s : Service) (thread : Nat) (request : Request) : Service :=
  if s.shutdown then s.finish thread request none (.error .shuttingDown)
  else if s.draining then s.finish thread request none (.error .draining)
  else match s.receipts.get request.requestId with
    | some receipt =>
      if receipt.method ≠ request.method ∨ receipt.fingerprint ≠ request.fingerprint
          ∨ receipt.accepted = false then
        s.finish thread request none (.error (.collision request.method))
      else
        s.finish thread request none (operatorAck request.method request.ticketId
          (receipt.onto.or request.onto) request.executionId receipt.resolutionClass)
    | none =>
      match s.queued.or s.active with
      | some c =>
        if (s.command c).request.requestId = request.requestId then
          if (s.command c).request.method ≠ request.method
              ∨ (s.command c).request.fingerprint ≠ request.fingerprint then
            s.finish thread request none (.error (.collision request.method))
          else s.setSubmitter thread (.waiting request c)
        else s.finish thread request none (.error .busy)
      | none =>
        if s.schedulerActive then s.finish thread request none (.error .busy)
        else s.enqueue thread request

/-- What a submitter does to its command when its wait has timed out, under the lock. -/
def abandon (s : Service) (c : Nat) : Service :=
  if s.queued = some c then
    { s.setCommand c { s.command c with
        cancelled := true, admissionError := some .timedOut, admissionEvent := true } with
      queued := none }
  else s.setCommand c { s.command c with cancelled := true }

/-- The end of a submission that timed out. -/
def giveUp (s : Service) (thread : Nat) (request : Request) (c : Nat) : Service :=
  (s.abandon c).finish thread request (some c) (.error .timedOut)

/-- `_claim_owner_work`: the queued command, or a scheduler iteration. -/
def claim (s : Service) : Service :=
  match s.queued with
  | some c => { s with queued := none, active := some c, owner := .claimed c }
  | none => { s with schedulerActive := true, owner := .iterating }

/-- The admission raised a `DevlegateError`. -/
def refuse (s : Service) (c : Nat) (e : AdmissionError) : Service :=
  { s.setCommand c { s.command c with admissionError := some e } with owner := .leaving c }

/-- `_admit_operator_command` up to the admission event: one locked section. -/
def admitCommand (s : Service) (c : Nat) (run : AdmissionRun) : Service :=
  if (s.command c).cancelled then s.refuse c .busy
  else if s.draining then s.refuse c .draining
  else match run with
    | .validationRejects text => s.refuse c (.rejected text)
    | .raises => { s with owner := .leaving c }
    | .recordRejects text => s.refuse c (.rejected text)
    | .records onto resolutionClass =>
      let command := { s.command c with onto, resolutionClass }
      match receiptOf command with
      | .error e => (s.setCommand c command).refuse c e
      | .ok receipt =>
        let s := { s with
          receipts := s.receipts.set command.request.requestId receipt
          recorded := c :: s.recorded }
        match operatorAck command.request.method command.request.ticketId command.onto
            command.request.executionId command.resolutionClass with
        | .error e => (s.setCommand c command).refuse c e
        | .ok ack =>
          { s.setCommand c { command with admissionResult := some ack } with owner := .leaving c }

/-- One step; `none` when the action is not possible. -/
def step (s : Service) : Action → Option Service
  | .arrive thread request =>
    match s.submitter thread with
    | .absent => some (s.setSubmitter thread (.ready request))
    | _ => none
  | .submit thread =>
    match s.submitter thread with
    | .ready request => some (s.submit thread request)
    | _ => none
  | .observe thread =>
    match s.submitter thread with
    | .waiting request c =>
      if (s.command c).admissionEvent then
        some (s.finish thread request (some c) (admissionResult (s.command c)))
      else none
    | _ => none
  | .timeout thread =>
    match s.submitter thread with
    | .waiting request c =>
      if (s.command c).admissionEvent then none
      else some (s.setSubmitter thread (.timedOut request c))
    | _ => none
  | .giveUp thread =>
    match s.submitter thread with
    | .timedOut request c => some (s.giveUp thread request c)
    | _ => none
  | .claim => if s.owner = .idle then some s.claim else none
  | .admitCommand run =>
    match s.owner with
    | .claimed c => some (s.admitCommand c run)
    | _ => none
  | .settle =>
    match s.owner with
    | .leaving c =>
      some { s.setCommand c { s.command c with admissionEvent := true } with owner := .settled c }
    | _ => none
  | .dispatch =>
    match s.owner with
    | .settled c =>
      if (s.command c).admissionResult.isSome then
        some { s with owner := .dispatched c, dispatched := c :: s.dispatched }
      else none
    | _ => none
  | .release =>
    match s.owner with
    | .iterating => some { s with schedulerActive := false, owner := .idle }
    | .settled c =>
      if (s.command c).admissionResult.isSome then none
      else some { s with active := none, owner := .idle }
    | .dispatched _ => some { s with active := none, owner := .idle }
    | _ => none
  | .drain => some { s with draining := true }
  | .shutDown => some { s with shutdown := true }
  | .exit =>
    -- the owner loop ends and rejects what is still queued
    if s.owner = .idle ∧ s.shutdown then
      match s.queued with
      | none => some { s with owner := .exited }
      | some c =>
        some { s.setCommand c { s.command c with
            admissionError := some .shuttingDown, admissionEvent := true } with
          queued := none, owner := .exited }
    else none
  | .restart =>
    some { s with
      queued := none, active := none, schedulerActive := false, draining := false
      shutdown := false, owner := .idle
      submitter := fun i =>
        match s.submitter i with
        | .ready request | .waiting request _ | .timedOut request _ => .lost request
        | t => t }

end Service

/-! ### The invariant -/

/-- The command can no longer be recorded: it is not queued, and a claim of it is cancelled. -/
def Dead (s : Service) (c : Nat) : Prop :=
  s.queued ≠ some c ∧ (s.owner = .claimed c → (s.command c).cancelled = true)

/-- The command that the owner works on. -/
def Owner.command : Owner → Option Nat
  | .idle | .iterating | .exited => none
  | .claimed c | .leaving c | .settled c | .dispatched c => some c

/-- What a thread's state promises about its command. -/
def Submitter.Sound (s : Service) : Submitter → Prop
  | .waiting r c | .timedOut r c =>
    c < s.created ∧ (s.command c).request.requestId = r.requestId
  | .done _ (some c) (.error e) =>
    e.saysNotAdmitted = true → c < s.created ∧ c ∉ s.recorded ∧ Dead s c
  | _ => True

/-- The command may still be recorded. -/
def Live (s : Service) (c : Nat) : Prop := s.queued = some c ∨ s.owner = .claimed c

/-- **The admission invariant.** There is one slot, a request id is recorded at most once, and
    whoever was told "not admitted" is attached to a command that is not recorded and never will
    be. -/
structure Settled (s : Service) : Prop where
  slot : ∀ c, s.queued = some c → s.active = none
  owner_active : s.owner.command = s.active
  active_lt : ∀ c, s.active = some c → c < s.created
  live_fresh : ∀ c, Live s c → s.receipts.get (s.command c).request.requestId = none
  recorded_inj : ∀ c ∈ s.recorded, ∀ c' ∈ s.recorded,
    (s.command c).request.requestId = (s.command c').request.requestId → c = c'
  recorded_nodup : s.recorded.Nodup
  queued_new : ∀ c, s.queued = some c → c < s.created ∧ c ∉ s.recorded
  claimed_new : ∀ c, s.owner = .claimed c → c < s.created ∧ c ∉ s.recorded
  recorded_lt : ∀ c ∈ s.recorded, c < s.created
  recorded_receipt : ∀ c ∈ s.recorded, (s.receipts.get (s.command c).request.requestId).isSome
  dispatched_recorded : ∀ c ∈ s.dispatched, c ∈ s.recorded
  result_recorded : ∀ c, c < s.created → (s.command c).admissionResult.isSome → c ∈ s.recorded
  error_dead : ∀ c e, c < s.created → (s.command c).admissionError = some e →
    e.saysNotAdmitted = true → c ∉ s.recorded ∧ Dead s c
  submitter_sound : ∀ i, (s.submitter i).Sound s

theorem settled_boot (receipts : Dict Receipt) : Settled (Service.boot receipts) where
  slot := by simp [Service.boot]
  owner_active := rfl
  active_lt := by simp [Service.boot]
  live_fresh := by simp [Service.boot, Live]
  recorded_inj := by simp [Service.boot]
  recorded_nodup := by simp [Service.boot]
  queued_new := by simp [Service.boot]
  claimed_new := by simp [Service.boot]
  recorded_lt := by simp [Service.boot]
  recorded_receipt := by simp [Service.boot]
  dispatched_recorded := by simp [Service.boot]
  result_recorded := by simp [Service.boot]
  error_dead := by simp [Service.boot]
  submitter_sound := fun _ => trivial

/-- Only one thread's state changes, to a sound one. -/
theorem settled_setSubmitter {s : Service} (h : Settled s) (i : Nat) {t : Submitter}
    (ht : t.Sound s) : Settled (s.setSubmitter i t) where
  slot := h.slot
  owner_active := h.owner_active
  active_lt := h.active_lt
  live_fresh := h.live_fresh
  recorded_inj := h.recorded_inj
  recorded_nodup := h.recorded_nodup
  queued_new := h.queued_new
  claimed_new := h.claimed_new
  recorded_lt := h.recorded_lt
  recorded_receipt := h.recorded_receipt
  dispatched_recorded := h.dispatched_recorded
  result_recorded := h.result_recorded
  error_dead := h.error_dead
  submitter_sound := by
    intro j
    show (Function.update s.submitter i t j).Sound s
    by_cases hj : j = i
    · subst hj
      rw [Function.update_self]
      exact ht
    · rw [Function.update_of_ne hj]
      exact h.submitter_sound j

/-- Soundness of a thread only reads these parts of the service. -/
theorem sound_of_agree {s s' : Service} {t : Submitter} (ht : t.Sound s)
    (hcreated : s.created ≤ s'.created)
    (hid : ∀ c < s.created, (s'.command c).request.requestId = (s.command c).request.requestId)
    (hdead : ∀ c < s.created, c ∉ s.recorded → Dead s c → c ∉ s'.recorded ∧ Dead s' c) :
    t.Sound s' := by
  cases t with
  | waiting r c =>
    obtain ⟨hc, hr⟩ := ht
    exact ⟨Nat.lt_of_lt_of_le hc hcreated, (hid c hc).trans hr⟩
  | timedOut r c =>
    obtain ⟨hc, hr⟩ := ht
    exact ⟨Nat.lt_of_lt_of_le hc hcreated, (hid c hc).trans hr⟩
  | done r c outcome =>
    cases c with
    | none => trivial
    | some c =>
      cases outcome with
      | ok ack => trivial
      | error e =>
        intro he
        obtain ⟨hc, hrec, hd⟩ := ht he
        exact ⟨Nat.lt_of_lt_of_le hc hcreated, hdead c hc hrec hd⟩
  | absent => trivial
  | ready r => trivial
  | lost r => trivial

/-- A step that creates no command, records none and dispatches none: it may move the slot, set
    flags of commands, and give a "not admitted" error to a command that is dead afterwards. -/
structure Quiet (s s' : Service) : Prop where
  created : s'.created = s.created
  recorded : s'.recorded = s.recorded
  dispatched : s'.dispatched = s.dispatched
  receipts : s'.receipts = s.receipts
  request : ∀ c, (s'.command c).request = (s.command c).request
  result : ∀ c, (s'.command c).admissionResult = (s.command c).admissionResult
  error : ∀ c e, (s'.command c).admissionError = some e →
    (s.command c).admissionError = some e ∨ c ∉ s.recorded ∧ Dead s' c
  dead : ∀ c < s.created, c ∉ s.recorded → Dead s c → Dead s' c
  submitter : ∀ i, s'.submitter i = s.submitter i ∨ (s'.submitter i).Sound s'

/-- A quiet step that keeps the slot and the owner consistent keeps the invariant. -/
theorem settled_of_quiet {s s' : Service} (h : Settled s) (q : Quiet s s')
    (hslot : ∀ c, s'.queued = some c → s'.active = none)
    (howner : s'.owner.command = s'.active)
    (hqueued : ∀ c, s'.queued = some c → s.queued = some c)
    (hclaimed : ∀ c, s'.owner = .claimed c → Live s c)
    (hactive : ∀ c, s'.active = some c → s.active = some c ∨ s.queued = some c) :
    Settled s' where
  slot := hslot
  owner_active := howner
  active_lt := by
    intro c hc
    rw [q.created]
    rcases hactive c hc with hold | hold
    · exact h.active_lt c hold
    · exact (h.queued_new c hold).1
  live_fresh := by
    intro c hlive
    rw [q.receipts, q.request c]
    refine h.live_fresh c ?_
    rcases hlive with hc | hc
    · exact .inl (hqueued c hc)
    · exact hclaimed c hc
  recorded_inj := by
    intro c hc c' hc' hid
    rw [q.recorded] at hc hc'
    rw [q.request c, q.request c'] at hid
    exact h.recorded_inj c hc c' hc' hid
  recorded_nodup := by
    rw [q.recorded]
    exact h.recorded_nodup
  queued_new := by
    intro c hc
    rw [q.created, q.recorded]
    exact h.queued_new c (hqueued c hc)
  claimed_new := by
    intro c hc
    rw [q.created, q.recorded]
    rcases hclaimed c hc with hold | hold
    · exact h.queued_new c hold
    · exact h.claimed_new c hold
  recorded_lt := by
    rw [q.created, q.recorded]
    exact h.recorded_lt
  recorded_receipt := by
    intro c hc
    rw [q.recorded] at hc
    rw [q.receipts, q.request c]
    exact h.recorded_receipt c hc
  dispatched_recorded := by
    rw [q.dispatched, q.recorded]
    exact h.dispatched_recorded
  result_recorded := by
    intro c hc hres
    rw [q.created] at hc
    rw [q.result c] at hres
    rw [q.recorded]
    exact h.result_recorded c hc hres
  error_dead := by
    intro c e hc herr he
    rw [q.created] at hc
    rw [q.recorded]
    -- an error is an old one, whose command stays dead, or is given to a command that is dead
    rcases q.error c e herr with hold | hnew
    · obtain ⟨hrec, hdead⟩ := h.error_dead c e hc hold he
      exact ⟨hrec, q.dead c hc hrec hdead⟩
    · exact hnew
  submitter_sound := by
    intro i
    rcases q.submitter i with hold | hnew
    · rw [hold]
      refine sound_of_agree (h.submitter_sound i) (Nat.le_of_eq q.created.symm) ?_ ?_
      · intro c _
        rw [q.request c]
      · intro c hc hrec hdead
        rw [q.recorded]
        exact ⟨hrec, q.dead c hc hrec hdead⟩
    · exact hnew

/-! ### The steps of the submitters -/

theorem settled_finish_none {s : Service} (h : Settled s) (i : Nat) (r : Request)
    (outcome : Except AdmissionError Ack) : Settled (s.finish i r none outcome) :=
  settled_setSubmitter h i trivial

/-- A new command fills the empty slot. -/
theorem settled_enqueue {s : Service} (h : Settled s) (i : Nat) (r : Request)
    (hfresh : s.receipts.get r.requestId = none) (hactive : s.active = none) :
    Settled (s.enqueue i r) := by
  have hclaimed : ∀ c, s.owner ≠ .claimed c := by
    intro c hc
    have := h.owner_active
    rw [hc, hactive] at this
    cases this
  -- the commands of before are as they were
  have hold : ∀ c, c < s.created →
      Function.update s.command s.created { request := r, onto := r.onto } c = s.command c := by
    intro c hc
    exact Function.update_of_ne (by omega) _ _
  constructor
  case slot => exact fun _ _ => hactive
  case owner_active => exact h.owner_active
  case active_lt =>
    intro c hc
    rw [show s.active = some c from hc] at hactive
    cases hactive
  case live_fresh =>
    rintro c (hc | hc)
    · cases hc
      show s.receipts.get (Function.update s.command s.created _ s.created).request.requestId = none
      rw [Function.update_self]
      exact hfresh
    · exact absurd hc (hclaimed c)
  case recorded_inj =>
    intro c hc c' hc' hid
    have hid' : (Function.update s.command s.created { request := r, onto := r.onto } c).request.requestId
        = (Function.update s.command s.created { request := r, onto := r.onto } c').request.requestId :=
      hid
    rw [hold c (h.recorded_lt c hc), hold c' (h.recorded_lt c' hc')] at hid'
    exact h.recorded_inj c hc c' hc' hid'
  case recorded_nodup => exact h.recorded_nodup
  case queued_new =>
    intro c hc
    cases hc
    refine ⟨Nat.lt_succ_self _, fun hrec => ?_⟩
    exact absurd (h.recorded_lt _ hrec) (Nat.lt_irrefl _)
  case claimed_new => exact fun c hc => absurd hc (hclaimed c)
  case recorded_lt => exact fun c hc => Nat.lt_succ_of_lt (h.recorded_lt c hc)
  case recorded_receipt =>
    intro c hc
    show (s.receipts.get (Function.update s.command s.created _ c).request.requestId).isSome
    rw [hold c (h.recorded_lt c hc)]
    exact h.recorded_receipt c hc
  case dispatched_recorded => exact h.dispatched_recorded
  case result_recorded =>
    intro c hc hres
    have hres' : (Function.update s.command s.created { request := r, onto := r.onto } c).admissionResult.isSome = true := hres
    by_cases hcc : c = s.created
    · subst hcc
      rw [Function.update_self] at hres'
      cases hres'
    · have hlt : c < s.created := Nat.lt_of_le_of_ne (Nat.le_of_lt_succ hc) hcc
      rw [hold c hlt] at hres'
      exact h.result_recorded c hlt hres'
  case error_dead =>
    intro c e hc herr he
    have herr' : (Function.update s.command s.created { request := r, onto := r.onto } c).admissionError = some e := herr
    by_cases hcc : c = s.created
    · subst hcc
      rw [Function.update_self] at herr'
      cases herr'
    · have hlt : c < s.created := Nat.lt_of_le_of_ne (Nat.le_of_lt_succ hc) hcc
      rw [hold c hlt] at herr'
      obtain ⟨hrec, -⟩ := h.error_dead c e hlt herr' he
      refine ⟨hrec, ?_, fun hcl => absurd hcl (hclaimed c)⟩
      intro hq
      exact hcc (Option.some.inj hq).symm
  case submitter_sound =>
    intro j
    show Submitter.Sound _ (Function.update s.submitter i (.waiting r s.created) j)
    by_cases hj : j = i
    · subst hj
      rw [Function.update_self]
      refine ⟨Nat.lt_succ_self _, ?_⟩
      show (Function.update s.command s.created _ s.created).request.requestId = r.requestId
      rw [Function.update_self]
    · rw [Function.update_of_ne hj]
      refine sound_of_agree (h.submitter_sound j) (Nat.le_succ _) ?_ ?_
      · intro c hc
        show (Function.update s.command s.created _ c).request.requestId = _
        rw [hold c hc]
      · intro c hc hrec _
        refine ⟨hrec, ?_, fun hcl => absurd hcl (hclaimed c)⟩
        intro hq
        have := Option.some.inj hq
        omega

theorem settled_submit {s : Service} (h : Settled s) (i : Nat) (r : Request) :
    Settled (s.submit i r) := by
  unfold Service.submit
  split
  · exact settled_finish_none h i r _
  · split
    · exact settled_finish_none h i r _
    · split
      · split
        · exact settled_finish_none h i r _
        · exact settled_finish_none h i r _
      · rename_i hfresh
        split
        case h_1 c hc =>
          split
          case isTrue hid =>
            split
            · exact settled_finish_none h i r _
            · -- the thread joins the command that already carries its request id
              refine settled_setSubmitter h i ⟨?_, hid⟩
              rcases Option.or_eq_some_iff.mp hc with hq | ⟨-, ha⟩
              · exact (h.queued_new c hq).1
              · exact h.active_lt c ha
          case isFalse => exact settled_finish_none h i r _
        case h_2 hnone =>
          obtain ⟨-, ha⟩ := Option.or_eq_none_iff.mp hnone
          split
          · exact settled_finish_none h i r _
          · exact settled_enqueue h i r hfresh ha

/-! ### Setting flags of one command -/

/-- One command is replaced by one with the same request and result, cancelled if it was, and with a
    "not admitted" error only if it is dead; owner and slot may move on, but not back to it. -/
theorem quiet_setCommand {s s' : Service} {c : Nat} {command : OperatorCommand}
    (hcommand : s'.command = Function.update s.command c command)
    (hrest : s'.created = s.created ∧ s'.recorded = s.recorded ∧ s'.dispatched = s.dispatched ∧
      s'.receipts = s.receipts ∧ s'.submitter = s.submitter)
    (hrequest : command.request = (s.command c).request)
    (hresult : command.admissionResult = (s.command c).admissionResult)
    (herror : ∀ e, command.admissionError = some e →
      (s.command c).admissionError = some e ∨ c ∉ s.recorded ∧ Dead s' c)
    (hcancelled : (s.command c).cancelled = true → command.cancelled = true)
    (hqueued : ∀ d, s'.queued = some d → s.queued = some d)
    (howner : ∀ d, s'.owner = .claimed d → s.owner = .claimed d) : Quiet s s' := by
  obtain ⟨hcreated, hrecorded, hdispatched, hreceipts, hsubmitter⟩ := hrest
  have hself : s'.command c = command := by rw [hcommand, Function.update_self]
  have hother : ∀ d, d ≠ c → s'.command d = s.command d := by
    intro d hd
    rw [hcommand, Function.update_of_ne hd]
  refine ⟨hcreated, hrecorded, hdispatched, hreceipts, ?_, ?_, ?_, ?_, ?_⟩
  · intro d
    by_cases hd : d = c
    · subst hd; rw [hself, hrequest]
    · rw [hother d hd]
  · intro d
    by_cases hd : d = c
    · subst hd; rw [hself, hresult]
    · rw [hother d hd]
  · intro d e he
    by_cases hd : d = c
    · subst hd
      rw [hself] at he
      exact herror e he
    · rw [hother d hd] at he
      exact .inl he
  · intro d _ _ hdead
    refine ⟨fun hq => hdead.1 (hqueued d hq), fun hcl => ?_⟩
    have hold := hdead.2 (howner d hcl)
    by_cases hd : d = c
    · subst hd
      rw [hself]
      exact hcancelled hold
    · rw [hother d hd]
      exact hold
  · intro i
    rw [hsubmitter]
    exact .inl rfl

/-- The owner does not work on a queued command. -/
theorem owner_ne_claimed_of_queued {s : Service} (h : Settled s) {c : Nat}
    (hq : s.queued = some c) (d : Nat) : s.owner ≠ .claimed d := by
  intro hd
  have hactive := h.owner_active
  rw [h.slot c hq, hd] at hactive
  cases hactive

/-- Giving up on a command that is not recorded leaves it dead. -/
theorem settled_abandon {s : Service} (h : Settled s) {c : Nat} (hrec : c ∉ s.recorded) :
    Settled (s.abandon c) ∧ Dead (s.abandon c) c := by
  unfold Service.abandon
  by_cases hq : s.queued = some c
  · rw [if_pos hq]
    have hdead : Dead { s.setCommand c { s.command c with
          cancelled := true, admissionError := some .timedOut, admissionEvent := true } with
        queued := none } c := by
      refine ⟨by simp, fun hcl => ?_⟩
      exact absurd hcl (owner_ne_claimed_of_queued h hq c)
    refine ⟨settled_of_quiet h (quiet_setCommand rfl ⟨rfl, rfl, rfl, rfl, rfl⟩ rfl rfl
      ?_ ?_ ?_ ?_) ?_ h.owner_active ?_ ?_ ?_, hdead⟩
    · exact fun _ _ => .inr ⟨hrec, hdead⟩
    · exact fun _ => rfl
    · intro d hd; cases hd
    · exact fun d hd => hd
    · intro d hd; cases hd
    · intro d hd; cases hd
    · exact fun d hd => .inr hd
    · exact fun d hd => .inl hd
  · rw [if_neg hq]
    have hdead : Dead (s.setCommand c { s.command c with cancelled := true }) c := by
      refine ⟨hq, fun _ => ?_⟩
      show (Function.update s.command c _ c).cancelled = true
      rw [Function.update_self]
    refine ⟨settled_of_quiet h (quiet_setCommand rfl ⟨rfl, rfl, rfl, rfl, rfl⟩ rfl rfl
      ?_ ?_ ?_ ?_) h.slot h.owner_active ?_ ?_ ?_, hdead⟩
    · exact fun _ he => .inl he
    · exact fun _ => rfl
    · exact fun d hd => hd
    · exact fun d hd => hd
    · exact fun d hd => hd
    · exact fun d hd => .inr hd
    · exact fun d hd => .inl hd

/-! ### The steps of the owner -/

/-- The slot is empty while the owner works on a command. -/
theorem queued_eq_none_of_owner {s : Service} (h : Settled s) {c : Nat}
    (hc : s.owner.command = some c) : s.queued = none := by
  cases hq : s.queued with
  | none => rfl
  | some d =>
    have hactive := h.owner_active
    rw [h.slot d hq, hc] at hactive
    cases hactive

theorem settled_claim {s : Service} (h : Settled s) (hidle : s.owner = .idle) :
    Settled s.claim := by
  unfold Service.claim
  cases hq : s.queued with
  | none =>
    have hactive : s.active = none := by rw [← h.owner_active, hidle]; rfl
    refine settled_of_quiet h ⟨rfl, rfl, rfl, rfl, fun _ => rfl, fun _ => rfl,
      fun _ _ he => .inl he, ?_, fun _ => .inl rfl⟩ ?_ ?_ ?_ ?_ ?_
    · intro c _ _ hdead
      exact ⟨by simp, fun hcl => by cases hcl⟩
    · intro c hc; cases hc
    · exact hactive.symm
    · intro c hc; cases hc
    · intro c hc; cases hc
    · exact fun c hc => .inl hc
  | some c =>
    refine settled_of_quiet h ⟨rfl, rfl, rfl, rfl, fun _ => rfl, fun _ => rfl,
      fun _ _ he => .inl he, ?_, fun _ => .inl rfl⟩ ?_ rfl ?_ ?_ ?_
    · intro d _ _ hdead
      refine ⟨by simp, fun hcl => ?_⟩
      -- a dead command was not the queued one
      have hcd : c = d := by simpa using hcl
      exact absurd (hcd ▸ hq) hdead.1
    · intro d hd; cases hd
    · intro d hd; cases hd
    · intro d hd
      have hcd : c = d := by simpa using hd
      exact .inl (hcd ▸ hq)
    · intro d hd
      have hcd : c = d := by simpa using hd
      exact .inr (hcd ▸ hq)

/-- The owner leaves the admission section without a receipt; the command keeps its request and its
    result. -/
theorem settled_leave {s : Service} (h : Settled s) {c : Nat} (hc : s.owner = .claimed c)
    (command : OperatorCommand) (hrequest : command.request = (s.command c).request)
    (hresult : command.admissionResult = (s.command c).admissionResult)
    (hcancelled : command.cancelled = (s.command c).cancelled) :
    Settled { s.setCommand c command with owner := .leaving c } := by
  have hactive : s.active = some c := by rw [← h.owner_active, hc]; rfl
  have hq : s.queued = none := queued_eq_none_of_owner h (by rw [hc]; rfl)
  have hdead : Dead { s.setCommand c command with owner := .leaving c } c := by
    refine ⟨?_, fun hcl => by cases hcl⟩
    show s.queued ≠ some c
    rw [hq]
    simp
  refine settled_of_quiet h (quiet_setCommand rfl ⟨rfl, rfl, rfl, rfl, rfl⟩ hrequest hresult
    ?_ ?_ ?_ ?_) h.slot ?_ ?_ ?_ ?_
  · exact fun _ _ => .inr ⟨(h.claimed_new c hc).2, hdead⟩
  · exact fun hold => hcancelled.trans hold
  · exact fun d hd => hd
  · intro d hd; cases hd
  · exact hactive.symm
  · exact fun d hd => hd
  · intro d hd; cases hd
  · exact fun d hd => .inl hd

theorem settled_refuse {s : Service} (h : Settled s) {c : Nat} (hc : s.owner = .claimed c)
    (e : AdmissionError) : Settled (s.refuse c e) :=
  settled_leave h hc { s.command c with admissionError := some e } rfl rfl rfl

/-- Refusing a command that was just replaced. -/
theorem refuse_setCommand (s : Service) (c : Nat) (command : OperatorCommand) (e : AdmissionError) :
    (s.setCommand c command).refuse c e
      = { s.setCommand c { command with admissionError := some e } with owner := .leaving c } := by
  simp only [Service.refuse, Service.setCommand, Function.update_self, Function.update_idem]

/-- Recording the claimed command: its receipt, with either a result or an error that does not say
    "not admitted". -/
theorem settled_record {s : Service} (h : Settled s) {c : Nat} (hc : s.owner = .claimed c)
    (hcancelled : (s.command c).cancelled = false) (command : OperatorCommand) (receipt : Receipt)
    (hrequest : command.request = (s.command c).request)
    (herror : ∀ e, command.admissionError = some e → e.saysNotAdmitted = false) :
    Settled { s.setCommand c command with
      receipts := s.receipts.set command.request.requestId receipt
      recorded := c :: s.recorded
      owner := .leaving c } := by
  obtain ⟨hlt, hrec⟩ := h.claimed_new c hc
  have hactive : s.active = some c := by rw [← h.owner_active, hc]; rfl
  have hq : s.queued = none := queued_eq_none_of_owner h (by rw [hc]; rfl)
  have hfresh := h.live_fresh c (.inr hc)
  have hself : Function.update s.command c command c = command := Function.update_self _ _ _
  have hother : ∀ d, d ≠ c → Function.update s.command c command d = s.command d :=
    fun d hd => Function.update_of_ne hd _ _
  have hid : ∀ d, (Function.update s.command c command d).request = (s.command d).request := by
    intro d
    by_cases hd : d = c
    · subst hd; rw [hself, hrequest]
    · rw [hother d hd]
  -- a dead command is not the one being recorded
  have hne : ∀ d, Dead s d → d ≠ c := by
    rintro d hdead rfl
    rw [hdead.2 hc] at hcancelled
    cases hcancelled
  have hdead' : ∀ d, Dead s d → Dead { s.setCommand c command with
      receipts := s.receipts.set command.request.requestId receipt
      recorded := c :: s.recorded
      owner := .leaving c } d :=
    fun d hdead => ⟨hdead.1, fun hcl => by cases hcl⟩
  constructor
  case slot => exact h.slot
  case owner_active => exact hactive.symm
  case active_lt => exact h.active_lt
  case live_fresh =>
    rintro d (hd | hd)
    · rw [show s.queued = some d from hd] at hq; cases hq
    · cases hd
  case recorded_inj =>
    intro d hd d' hd' heq
    have heq' : (Function.update s.command c command d).request.requestId
        = (Function.update s.command c command d').request.requestId := heq
    rw [hid d, hid d'] at heq'
    -- an earlier command with this id would have left a receipt
    have hold : ∀ d ∈ s.recorded, (s.command d).request.requestId
        ≠ (s.command c).request.requestId := by
      intro d hd heq
      have hsome := h.recorded_receipt d hd
      rw [heq, hfresh] at hsome
      cases hsome
    rcases List.mem_cons.mp hd with hdc | hmem
    · rcases List.mem_cons.mp hd' with hdc' | hmem'
      · rw [hdc, hdc']
      · rw [hdc] at heq'
        exact absurd heq'.symm (hold d' hmem')
    · rcases List.mem_cons.mp hd' with hdc' | hmem'
      · rw [hdc'] at heq'
        exact absurd heq' (hold d hmem)
      · exact h.recorded_inj d hmem d' hmem' heq'
  case recorded_nodup => exact List.nodup_cons.mpr ⟨hrec, h.recorded_nodup⟩
  case queued_new =>
    intro d hd
    rw [show s.queued = some d from hd] at hq
    cases hq
  case claimed_new => intro d hd; cases hd
  case recorded_lt =>
    intro d hd
    rcases List.mem_cons.mp hd with rfl | hd
    · exact hlt
    · exact h.recorded_lt d hd
  case recorded_receipt =>
    intro d hd
    show (Dict.get (s.receipts.set command.request.requestId receipt)
      (Function.update s.command c command d).request.requestId).isSome
    rw [hid d, hrequest]
    by_cases hsame : (s.command d).request.requestId = (s.command c).request.requestId
    · rw [hsame, Dict.get_set_self]
      rfl
    · rw [Dict.get_set_of_ne _ _ hsame]
      rcases List.mem_cons.mp hd with rfl | hd
      · exact absurd rfl hsame
      · exact h.recorded_receipt d hd
  case dispatched_recorded =>
    exact fun d hd => List.mem_cons_of_mem c (h.dispatched_recorded d hd)
  case result_recorded =>
    intro d hd hres
    by_cases hdc : d = c
    · subst hdc
      exact List.mem_cons_self
    · have hres' : (Function.update s.command c command d).admissionResult.isSome = true := hres
      rw [hother d hdc] at hres'
      exact List.mem_cons_of_mem c (h.result_recorded d hd hres')
  case error_dead =>
    intro d e hd herr he
    have herr' : (Function.update s.command c command d).admissionError = some e := herr
    by_cases hdc : d = c
    · subst hdc
      rw [hself] at herr'
      rw [herror e herr'] at he
      cases he
    · rw [hother d hdc] at herr'
      obtain ⟨hnot, hdead⟩ := h.error_dead d e hd herr' he
      exact ⟨fun hmem => (List.mem_cons.mp hmem).elim hdc hnot, hdead' d hdead⟩
  case submitter_sound =>
    intro i
    refine sound_of_agree (h.submitter_sound i) (Nat.le_refl _) ?_ ?_
    · intro d _
      show (Function.update s.command c command d).request.requestId = _
      rw [hid d]
    · intro d _ hnot hdead
      exact ⟨fun hmem => (List.mem_cons.mp hmem).elim (hne d hdead) hnot, hdead' d hdead⟩

/-- Owner, flags and slot move without touching a command: nothing comes back into the slot or into
    the owner's hands. -/
theorem settled_move {s s' : Service} (h : Settled s)
    (hrest : s'.created = s.created ∧ s'.recorded = s.recorded ∧ s'.dispatched = s.dispatched ∧
      s'.receipts = s.receipts ∧ s'.command = s.command)
    (hsubmitter : ∀ i, s'.submitter i = s.submitter i ∨ (s'.submitter i).Sound s')
    (hqueued : s'.queued = none ∨ s'.queued = s.queued ∧ s'.active = s.active)
    (hclaimed : ∀ c, s'.owner = .claimed c → s.owner = .claimed c)
    (hactive : s'.active = none ∨ s'.active = s.active)
    (howner : s'.owner.command = s'.active) : Settled s' := by
  obtain ⟨hcreated, hrecorded, hdispatched, hreceipts, hcommand⟩ := hrest
  have hback : ∀ c, s'.queued = some c → s.queued = some c ∧ s'.active = s.active := by
    intro c hc
    rcases hqueued with hnone | ⟨hsame, hact⟩
    · rw [hnone] at hc; cases hc
    · exact ⟨hsame ▸ hc, hact⟩
  refine settled_of_quiet h ⟨hcreated, hrecorded, hdispatched, hreceipts, ?_, ?_, ?_, ?_, hsubmitter⟩
    ?_ howner ?_ ?_ ?_
  · intro c; rw [hcommand]
  · intro c; rw [hcommand]
  · intro c e he
    rw [hcommand] at he
    exact .inl he
  · intro c _ _ hdead
    refine ⟨fun hq => hdead.1 (hback c hq).1, fun hcl => ?_⟩
    rw [hcommand]
    exact hdead.2 (hclaimed c hcl)
  · intro c hc
    obtain ⟨hq, hact⟩ := hback c hc
    rw [hact]
    exact h.slot c hq
  · exact fun c hc => (hback c hc).1
  · exact fun c hc => .inr (hclaimed c hc)
  · intro c hc
    rcases hactive with hnone | hsame
    · rw [hnone] at hc; cases hc
    · exact .inl (hsame ▸ hc)

theorem saysNotAdmitted_operatorAck {method : Method} {ticketId : String}
    {onto executionId : Option String} {cls : Option ResolutionClass} {e : AdmissionError}
    (h : operatorAck method ticketId onto executionId cls = .error e) :
    e.saysNotAdmitted = false := by
  unfold operatorAck at h
  split at h
  all_goals first
    | cases h
    | split at h
      · cases h; rfl
      · cases h

theorem settled_admitCommand {s : Service} (h : Settled s) {c : Nat} (hc : s.owner = .claimed c)
    (run : AdmissionRun) : Settled (s.admitCommand c run) := by
  unfold Service.admitCommand
  split
  case isTrue => exact settled_refuse h hc _
  case isFalse hcancelled =>
    split
    case isTrue => exact settled_refuse h hc _
    case isFalse =>
      cases run with
      | validationRejects text => exact settled_refuse h hc _
      | recordRejects text => exact settled_refuse h hc _
      | raises =>
        refine settled_move h ⟨rfl, rfl, rfl, rfl, rfl⟩ (fun _ => .inl rfl) (.inr ⟨rfl, rfl⟩) ?_
          (.inr rfl) ?_
        · intro d hd; cases hd
        · show some c = s.active
          rw [← h.owner_active, hc]
          rfl
      | records onto cls =>
        have hlive : (s.command c).cancelled = false := Bool.eq_false_iff.mpr hcancelled
        -- an error it already had cannot say "not admitted": it would be cancelled
        have hold : ∀ e, (s.command c).admissionError = some e → e.saysNotAdmitted = false := by
          intro e he
          cases hsays : e.saysNotAdmitted with
          | false => rfl
          | true =>
            obtain ⟨-, hdead⟩ := h.error_dead c e (h.claimed_new c hc).1 he hsays
            exact absurd (hdead.2 hc) hcancelled
        dsimp only
        split
        case h_1 e he =>
          rw [refuse_setCommand]
          exact settled_leave h hc _ rfl rfl rfl
        case h_2 receipt hreceipt =>
          split
          case h_1 e he =>
            rw [refuse_setCommand]
            refine settled_record h hc hlive
              { s.command c with onto, resolutionClass := cls, admissionError := some e } receipt rfl ?_
            intro e' he'
            cases he'
            exact saysNotAdmitted_operatorAck he
          case h_2 ack hack =>
            exact settled_record h hc hlive
              { s.command c with onto, resolutionClass := cls, admissionResult := some ack } receipt rfl
              hold

/-- The owner sets the admission event on its way out. -/
theorem settled_settle {s : Service} (h : Settled s) {c : Nat} (hc : s.owner = .leaving c) :
    Settled { s.setCommand c { s.command c with admissionEvent := true } with
      owner := .settled c } := by
  refine settled_of_quiet h (quiet_setCommand rfl ⟨rfl, rfl, rfl, rfl, rfl⟩ rfl rfl
    ?_ ?_ ?_ ?_) h.slot ?_ ?_ ?_ ?_
  · exact fun _ he => .inl he
  · exact id
  · exact fun d hd => hd
  · intro d hd; cases hd
  · show some c = s.active
    rw [← h.owner_active, hc]
    rfl
  · exact fun d hd => hd
  · intro d hd; cases hd
  · exact fun d hd => .inl hd

/-- Only a command with an admission result is dispatched, and that was recorded. -/
theorem settled_dispatch {s : Service} (h : Settled s) {c : Nat} (hc : s.owner = .settled c)
    (hres : (s.command c).admissionResult.isSome) :
    Settled { s with owner := .dispatched c, dispatched := c :: s.dispatched } := by
  have hactive : s.active = some c := by rw [← h.owner_active, hc]; rfl
  have hmove : Settled { s with owner := .dispatched c } := by
    refine settled_move h ⟨rfl, rfl, rfl, rfl, rfl⟩ (fun _ => .inl rfl) (.inr ⟨rfl, rfl⟩) ?_
      (.inr rfl) hactive.symm
    intro d hd; cases hd
  refine ⟨hmove.slot, hmove.owner_active, hmove.active_lt, hmove.live_fresh, hmove.recorded_inj,
    hmove.recorded_nodup, hmove.queued_new, hmove.claimed_new, hmove.recorded_lt,
    hmove.recorded_receipt, ?_, hmove.result_recorded, hmove.error_dead, ?_⟩
  · intro d hd
    rcases List.mem_cons.mp hd with rfl | hd
    · exact h.result_recorded d (h.active_lt d hactive) hres
    · exact h.dispatched_recorded d hd
  · intro i
    exact sound_of_agree (hmove.submitter_sound i) (Nat.le_refl _) (fun _ _ => rfl)
      (fun _ _ hrec hdead => ⟨hrec, hdead⟩)

/-- The owner goes back to the head of its loop. -/
theorem settled_release {s : Service} (h : Settled s) (schedulerActive : Bool)
    (hfree : s.queued = none ∨ s.active = none) :
    Settled { s with schedulerActive, active := none, owner := .idle } := by
  refine settled_move h ⟨rfl, rfl, rfl, rfl, rfl⟩ (fun _ => .inl rfl) ?_ ?_ (.inl rfl) rfl
  · rcases hfree with hq | ha
    · exact .inl hq
    · exact .inr ⟨rfl, ha.symm⟩
  · intro d hd; cases hd

/-- The owner loop ends: what is queued is rejected. -/
theorem settled_exit {s : Service} (h : Settled s) {c : Nat} (hq : s.queued = some c) :
    Settled { s.setCommand c { s.command c with
        admissionError := some .shuttingDown, admissionEvent := true } with
      queued := none, owner := .exited } := by
  have hdead : Dead { s.setCommand c { s.command c with
        admissionError := some .shuttingDown, admissionEvent := true } with
      queued := none, owner := .exited } c := ⟨by simp, fun hcl => by cases hcl⟩
  refine settled_of_quiet h (quiet_setCommand rfl ⟨rfl, rfl, rfl, rfl, rfl⟩ rfl rfl
    ?_ ?_ ?_ ?_) ?_ ?_ ?_ ?_ ?_
  · exact fun _ _ => .inr ⟨(h.queued_new c hq).2, hdead⟩
  · exact id
  · intro d hd; cases hd
  · intro d hd; cases hd
  · intro d hd; cases hd
  · exact (h.slot c hq).symm
  · intro d hd; cases hd
  · intro d hd; cases hd
  · exact fun d hd => .inl hd

/-- A new process on the durable receipts; the threads of the old one are gone. -/
theorem settled_restart {s : Service} (h : Settled s) {s' : Service}
    (hs : s.step .restart = some s') : Settled s' := by
  simp only [Service.step, Option.some.injEq] at hs
  subst hs
  refine settled_move h ⟨rfl, rfl, rfl, rfl, rfl⟩ ?_ (.inl rfl) ?_ (.inl rfl) rfl
  · intro i
    show (match s.submitter i with
      | .ready request | .waiting request _ | .timedOut request _ => Submitter.lost request
      | t => t) = s.submitter i ∨ _
    cases hi : s.submitter i with
    | absent => exact .inl rfl
    | done r c outcome => exact .inl rfl
    | lost r => exact .inl rfl
    | ready r =>
      refine .inr ?_
      simp only [hi]
      trivial
    | waiting r c =>
      refine .inr ?_
      simp only [hi]
      trivial
    | timedOut r c =>
      refine .inr ?_
      simp only [hi]
      trivial
  · intro d hd; cases hd

/-! ### Every run -/

/-- The command on which the thread's wait has timed out. -/
def Submitter.expired : Submitter → Option Nat
  | .timedOut _ c => some c
  | _ => none

/-- No submitter gives up on a command that the owner has already recorded. -/
def Timely (s : Service) : Action → Prop
  | .giveUp thread => ∀ c ∈ (s.submitter thread).expired, c ∉ s.recorded
  | _ => True

instance (s : Service) : (a : Action) → Decidable (Timely s a)
  | .giveUp thread =>
    inferInstanceAs (Decidable (∀ c ∈ (s.submitter thread).expired, c ∉ s.recorded))
  | .arrive .. | .submit _ | .observe _ | .timeout _ | .claim | .admitCommand _ | .settle | .dispatch
  | .release | .drain | .shutDown | .exit | .restart => isTrue trivial

/-- The submission ends with what the owner left in the command. -/
theorem settled_observe {s : Service} (h : Settled s) {i : Nat} {r : Request} {c : Nat}
    (hi : s.submitter i = .waiting r c) :
    Settled (s.finish i r (some c) (Service.admissionResult (s.command c))) := by
  have hlt : c < s.created := by
    have hsound := h.submitter_sound i
    rw [hi] at hsound
    exact hsound.1
  refine settled_setSubmitter h i ?_
  cases hout : Service.admissionResult (s.command c) with
  | ok ack => trivial
  | error e =>
    intro he
    refine ⟨hlt, ?_⟩
    unfold Service.admissionResult at hout
    split at hout
    case h_1 e' herr =>
      cases hout
      exact h.error_dead c e hlt herr he
    case h_2 =>
      split at hout
      · cases hout
        cases he
      · cases hout

/-- A submitter that gives up in time leaves a dead command behind. -/
theorem settled_giveUp {s : Service} (h : Settled s) {i : Nat} {r : Request} {c : Nat}
    (hi : s.submitter i = .timedOut r c) (hrec : c ∉ s.recorded) : Settled (s.giveUp i r c) := by
  have hlt : c < s.created := by
    have hsound := h.submitter_sound i
    rw [hi] at hsound
    exact hsound.1
  obtain ⟨hsettled, hdead⟩ := settled_abandon h hrec
  have hsame : (s.abandon c).created = s.created ∧ (s.abandon c).recorded = s.recorded := by
    unfold Service.abandon
    split
    · exact ⟨rfl, rfl⟩
    · exact ⟨rfl, rfl⟩
  refine settled_setSubmitter hsettled i fun _ => ?_
  rw [hsame.1, hsame.2]
  exact ⟨hlt, hrec, hdead⟩

/-- **Step.** Every step keeps the invariant, if a submitter that gives up does so in time. -/
theorem settled_step {s s' : Service} {a : Action} (h : Settled s) (hok : Timely s a)
    (hs : s.step a = some s') : Settled s' := by
  cases a with
  | arrive i r =>
    simp only [Service.step] at hs
    split at hs
    · cases hs
      exact settled_setSubmitter h i trivial
    · cases hs
  | submit i =>
    simp only [Service.step] at hs
    split at hs
    · cases hs
      exact settled_submit h i _
    · cases hs
  | observe i =>
    simp only [Service.step] at hs
    split at hs
    case h_1 r c hi =>
      split at hs
      · cases hs
        exact settled_observe h hi
      · cases hs
    case h_2 => cases hs
  | timeout i =>
    simp only [Service.step] at hs
    split at hs
    case h_1 r c hi =>
      split at hs
      · cases hs
      · cases hs
        have hsound := h.submitter_sound i
        rw [hi] at hsound
        exact settled_setSubmitter h i hsound
    case h_2 => cases hs
  | giveUp i =>
    simp only [Service.step] at hs
    split at hs
    case h_1 r c hi =>
      cases hs
      -- the one step that the condition is about
      exact settled_giveUp h hi (hok c (by rw [hi]; rfl))
    case h_2 => cases hs
  | claim =>
    simp only [Service.step] at hs
    split at hs
    case isTrue hidle =>
      cases hs
      exact settled_claim h hidle
    case isFalse => cases hs
  | admitCommand run =>
    simp only [Service.step] at hs
    split at hs
    case h_1 c hc =>
      cases hs
      exact settled_admitCommand h hc run
    case h_2 => cases hs
  | settle =>
    simp only [Service.step] at hs
    split at hs
    case h_1 c hc =>
      cases hs
      exact settled_settle h hc
    case h_2 => cases hs
  | dispatch =>
    simp only [Service.step] at hs
    split at hs
    case h_1 c hc =>
      split at hs
      case isTrue hres =>
        cases hs
        exact settled_dispatch h hc hres
      case isFalse => cases hs
    case h_2 => cases hs
  | release =>
    simp only [Service.step] at hs
    split at hs
    case h_1 hc =>
      cases hs
      have ha : s.active = none := by rw [← h.owner_active, hc]; rfl
      simpa [ha] using settled_release h false (.inr ha)
    case h_2 c hc =>
      split at hs
      · cases hs
      · cases hs
        exact settled_release h _ (.inl (queued_eq_none_of_owner h (by rw [hc]; rfl)))
    case h_3 c hc =>
      cases hs
      exact settled_release h _ (.inl (queued_eq_none_of_owner h (by rw [hc]; rfl)))
    case h_4 => cases hs
  | drain =>
    cases hs
    exact settled_move h ⟨rfl, rfl, rfl, rfl, rfl⟩ (fun _ => .inl rfl) (.inr ⟨rfl, rfl⟩)
      (fun _ hc => hc) (.inr rfl) h.owner_active
  | shutDown =>
    cases hs
    exact settled_move h ⟨rfl, rfl, rfl, rfl, rfl⟩ (fun _ => .inl rfl) (.inr ⟨rfl, rfl⟩)
      (fun _ hc => hc) (.inr rfl) h.owner_active
  | exit =>
    simp only [Service.step] at hs
    split at hs
    case isTrue hidle =>
      split at hs
      case h_1 hq =>
        cases hs
        refine settled_move h ⟨rfl, rfl, rfl, rfl, rfl⟩ (fun _ => .inl rfl) (.inr ⟨rfl, rfl⟩)
          ?_ (.inr rfl) ?_
        · intro d hd; cases hd
        · show none = s.active
          rw [← h.owner_active, hidle.1]
          rfl
      case h_2 c hq =>
        cases hs
        exact settled_exit h hq
    case isFalse => cases hs
  | restart => exact settled_restart h hs

theorem settled_run {receipts : Dict Receipt} {s : Service}
    (h : Run Service.step Timely (Service.boot receipts) s) : Settled s :=
  h.invariant Settled (settled_boot receipts) fun _ _ _ hinv hok hs => settled_step hinv hok hs

/-- **A refused submission stays refused.** In every run in which no submitter gives up on a command
    that is already recorded, a submission that ended with an error saying "not admitted" was never
    recorded under a command of its own, and no such command was dispatched. -/
theorem notAdmitted_of_timely {receipts : Dict Receipt} {s : Service}
    (h : Run Service.step Timely (Service.boot receipts) s) {i : Nat} {r : Request}
    {c : Option Nat} {e : AdmissionError} (hi : s.submitter i = .done r c (.error e))
    (he : e.saysNotAdmitted = true) : ∀ d ∈ c, d ∉ s.recorded ∧ d ∉ s.dispatched := by
  intro d hd
  rw [Option.mem_def] at hd
  subst hd
  have hinv := settled_run h
  have hsound := hinv.submitter_sound i
  rw [hi] at hsound
  obtain ⟨-, hrec, -⟩ := hsound he
  exact ⟨hrec, fun hdis => hrec (hinv.dispatched_recorded d hdis)⟩

/-- A retry request. -/
def retryRequest : Request :=
  { requestId := "r", method := .retry, fingerprint := "f", ticketId := "T" }

/-- The timeout comes before the owner claims the command. -/
def timelyTimeout : List Action :=
  [.arrive 0 retryRequest, .submit 0, .timeout 0, .giveUp 0, .claim, .release]

theorem notAdmitted_timelyTimeout : ∃ s, exec Service.step (Service.boot []) timelyTimeout = some s ∧
    s.submitter 0 = .done retryRequest (some 0) (.error .timedOut) ∧
    ∀ d ∈ (some 0 : Option Nat), d ∉ s.recorded ∧ d ∉ s.dispatched :=
  ⟨_, rfl, rfl, notAdmitted_of_timely (run_of_exec rfl (by decide : Along Service.step Timely
    (Service.boot []) timelyTimeout)) (i := 0) (e := .timedOut) rfl rfl⟩

/-- **The late timeout.** The wait times out while the owner admits the command under the lock; the
    submission then ends with "request was not admitted" although the command is recorded, and the
    owner dispatches it. -/
theorem lateTimeout_admitted : ∃ s, exec Service.step (Service.boot [])
      [.arrive 0 retryRequest, .submit 0, .claim, .timeout 0, .admitCommand (.records none none),
        .giveUp 0, .settle, .dispatch] = some s ∧
    s.submitter 0 = .done retryRequest (some 0) (.error .timedOut) ∧
    AdmissionError.timedOut.saysNotAdmitted = true ∧ 0 ∈ s.recorded ∧ 0 ∈ s.dispatched :=
  ⟨_, rfl, rfl, rfl, List.mem_cons_self, List.mem_cons_self⟩

end Devlegate
