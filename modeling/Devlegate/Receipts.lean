import Devlegate.EngineMoves
import Devlegate.IpcClient

namespace Devlegate

open Transition JsonText

/-!
# Receipts of operator commands

An admitted command leaves a receipt under its request id.  The receipt is part of the durable
state, so every later save has to carry it along, and a resubmission is answered from it.

* `OperatorCall`: the mutating calls of the IPC server, with their requests and fingerprints.
* `resolveTarget`: what the admission resolves: the target and the class of a reconciliation.
* `mutableReceipt`: the reader of a stored receipt.
* `Hosted.step`: the service and its engine, with one set of receipts.
* `resubmitted_iff`: a receipt stays as it was recorded; a resubmission is answered as the admission
  was, and a different request under the same id collides, exactly when the service is neither
  draining nor shutting down.
-/

/-! ### Calls -/

/-- The text as `json.dumps` writes it, in ASCII. -/
def jsonText (s : String) : String :=
  let escape (n : Nat) : String :=
    "\\u" ++ String.ofList ((Nat.toDigits 16 (0x10000 + n)).drop 1)
  "\"" ++ String.join (s.toList.map fun c =>
    if c = '"' then "\\\"" else if c = '\\' then "\\\\"
    else if c = '\n' then "\\n" else if c = '\r' then "\\r" else if c = '\t' then "\\t"
    else if c.toNat = 8 then "\\b" else if c.toNat = 12 then "\\f"
    else if 0x20 ≤ c.toNat ∧ c.toNat < 0x7f then String.singleton c
    else if c.toNat < 0x10000 then escape c.toNat
    else escape (0xd800 + (c.toNat - 0x10000) / 0x400) ++ escape (0xdc00 + c.toNat % 0x400)) ++ "\""

/-- `json.dumps` of a dictionary whose keys are in order. -/
def jsonObject (fields : List (String × String)) : String :=
  "\x7b" ++ String.intercalate "," (fields.map fun f => jsonText f.1 ++ ":" ++ f.2) ++ "\x7d"

/-- `_mutation_fingerprint`; the fields of the payload are in the order of their names. -/
def mutationFingerprint [Sha256] (method : Method) (payload : List (String × String)) : String :=
  Sha256.hexdigest (octets (jsonObject [
    ("method", jsonText method.word),
    ("payload", jsonObject (payload.map fun f => (f.1, jsonText f.2)))]))

/-- The mutating calls that the IPC server dispatches to the engine. -/
inductive OperatorCall where
  | retry (ticketId : String) (force : Bool)
  | drop (ticketId executionId : String)
  | recover (ticketId executionId observedHead : String)
  | reconcileUpdateBase (ticketId : String) (onto : Option String) (rewritePublished : Bool)
  | reconcileResume (ticketId : String)
  | reconcileAuto (ticketId : String) (onto : Option String)
  | reconcileControl (fromHead toHead : String)
  deriving DecidableEq, Repr

namespace OperatorCall

def method : OperatorCall → Method
  | .retry _ _ => .retry
  | .drop _ _ => .drop
  | .recover _ _ _ => .recover
  | .reconcileUpdateBase _ _ _ => .reconcileUpdateBase
  | .reconcileResume _ => .reconcileResume
  | .reconcileAuto _ _ => .reconcileAuto
  | .reconcileControl _ _ => .reconcileControl

/-- The payload of the fingerprint. -/
def payload : OperatorCall → List (String × String)
  | .retry ticketId force =>
    if force then [("force", "1"), ("ticket_id", ticketId)] else [("ticket_id", ticketId)]
  | .drop ticketId executionId => [("execution_id", executionId), ("ticket_id", ticketId)]
  | .recover ticketId executionId observedHead =>
    [("execution_id", executionId), ("observed_head", observedHead), ("ticket_id", ticketId)]
  | .reconcileUpdateBase ticketId onto rewritePublished =>
    [("onto", onto.getD "<current-product-head>"),
      ("rewrite_published", if rewritePublished then "1" else "0"), ("ticket_id", ticketId)]
  | .reconcileResume ticketId => [("ticket_id", ticketId)]
  | .reconcileAuto ticketId onto => [("onto", onto.getD "<auto>"), ("ticket_id", ticketId)]
  | .reconcileControl fromHead toHead => [("from", fromHead), ("to", toHead)]

/-- The texts that the server requires to be non-empty. -/
def texts : OperatorCall → List String
  | .retry ticketId _ | .reconcileResume ticketId => [ticketId]
  | .drop ticketId executionId => [ticketId, executionId]
  | .recover ticketId executionId observedHead => [ticketId, executionId, observedHead]
  | .reconcileUpdateBase ticketId onto _ | .reconcileAuto ticketId onto => ticketId :: onto.toList
  | .reconcileControl fromHead toHead => [fromHead, toHead]

/-- The call passes the server's checks. -/
def valid (call : OperatorCall) : Bool := call.texts.all (· != "")

variable [Sha256]

/-- The arguments that `submit_retry` and its siblings hand to `_submit_operator_command`. -/
def request (requestId : String) (call : OperatorCall) : Request :=
  let fingerprint := mutationFingerprint call.method call.payload
  match call with
  | .retry ticketId force => { requestId, method := .retry, fingerprint, ticketId, force }
  | .drop ticketId executionId =>
    { requestId, method := .drop, fingerprint, ticketId, executionId := some executionId }
  | .recover ticketId executionId observedHead =>
    { requestId, method := .recover, fingerprint, ticketId, executionId := some executionId
      onto := some observedHead }
  | .reconcileUpdateBase ticketId onto rewritePublished =>
    { requestId, method := .reconcileUpdateBase, fingerprint, ticketId, onto, rewritePublished }
  | .reconcileResume ticketId => { requestId, method := .reconcileResume, fingerprint, ticketId }
  | .reconcileAuto ticketId onto =>
    { requestId, method := .reconcileAuto, fingerprint, ticketId, onto }
  | .reconcileControl fromHead toHead =>
    { requestId, method := .reconcileControl, fingerprint, ticketId := fromHead
      onto := some toHead }

end OperatorCall

/-! ### Admission -/

/-- The product generation that an admission observes. -/
structure ProductView where
  localHead : String
  stable : Bool
  /-- The execution branch of the reconciliation is published. -/
  published : Bool
  deriving DecidableEq, Repr

/-- The target and the class that `_validate_reconcile_admission` and
    `_validate_reconcile_auto_admission` leave in the command; a target that was asked for has to be
    the current product head. -/
def resolveTarget (q : Request) (product : ProductView) :
    Option String × Option ResolutionClass :=
  match q.method with
  | .reconcileUpdateBase => (some product.localHead, none)
  | .reconcileAuto =>
    (if q.onto.isNone && product.stable then none else some product.localHead,
      some (if product.stable then .resume
        else if product.published then .updateBaseRewrite else .updateBase))
  | _ => (q.onto, none)

/-- The sets of keys that a stored receipt may have. -/
def Receipt.keysLegal (r : Receipt) : Bool :=
  match r.executionId.isSome, r.onto.isSome, r.resolutionClass.isSome with
  | true, true, false | true, false, true => false
  | _, _, _ => true

/-- `_mutable_receipt`. -/
def mutableReceipt (receipts : Dict Receipt) (requestId : String) :
    Except String (Option Receipt) :=
  match receipts.get requestId with
  | none => .ok none
  | some r => do
    require r.keysLegal "invalid mutable request receipt"
    require (r.fingerprint != "" && r.ticketId != "") "invalid mutable request receipt"
    require (r.executionId.all (· != "")) "invalid mutable request receipt execution"
    require (r.onto.all (· != "")) "invalid mutable request receipt target"
    return some r

/-! ### The service and its engine -/

/-- The request id under which the action records a receipt. -/
def EngineAction.admits : EngineAction → Option String
  | .admitRetry _ requestId _ | .forceRetry _ requestId _ _ _ | .admitRecover requestId _ _
  | .admitOther requestId _ | .admitResume requestId _ => some requestId
  | _ => none

/-- The threads around the command slot, and the engine with its durable state. -/
structure Hosted where
  service : Service
  engine : Engine

/-- The service starts on the receipts of the durable state. -/
def Hosted.boot (engine : Engine) : Hosted :=
  ⟨Service.boot engine.state.mutableReceipts, engine⟩

/-- The steps of both: `admission` is the save that records a receipt, which both see. -/
inductive HostedAction where
  | arrive (thread : Nat) (requestId : String) (call : OperatorCall)
  | service (a : Action)
  | engine (a : EngineAction)
  | admission (product : ProductView) (a : EngineAction)
  | restart

/-- The service's own steps: those that neither bring a request, nor record a receipt, nor end the
    process. -/
def Action.isInternal : Action → Bool
  | .arrive _ _ | .restart | .admitCommand (.records _ _) => false
  | _ => true

/-- One step; `none` when the action is not possible. -/
def Hosted.step [Project] [Sha256] (h : Hosted) : HostedAction → Option Hosted
  | .arrive i requestId call =>
    if requestId ≠ "" ∧ call.valid then
      (h.service.step (.arrive i (call.request requestId))).map fun s => { h with service := s }
    else none
  | .service a =>
    if a.isInternal then (h.service.step a).map fun s => { h with service := s } else none
  | .engine a =>
    if a.admits = none then (h.engine.step a).map fun e => { h with engine := e } else none
  | .admission product a =>
    match h.service.owner with
    | .claimed c =>
      let q := (h.service.command c).request
      let (onto, resolutionClass) := resolveTarget q product
      match h.service.step (.admitCommand (.records onto resolutionClass)), h.engine.step a with
      | some s, some e =>
        -- the two descriptions of the save agree on what is stored
        if product.localHead ≠ "" ∧ a.admits = some q.requestId
            ∧ e.state.mutableReceipts = s.receipts then some ⟨s, e⟩ else none
      | _, _ => none
    | _ => none
  | .restart =>
    match h.service.step .restart, h.engine.step .crash with
    | some s, some e => some ⟨s, e⟩
    | _, _ => none

/-! ### The engine carries the receipts along -/

/-- The keyword fields of the save leave the receipts alone. -/
def SaveCall.KeepsReceipts (call : SaveCall) : Prop :=
  ∀ s, (call.fields s).mutableReceipts = s.mutableReceipts

theorem SaveCall.KeepsReceipts.payload {call : SaveCall} (h : call.KeepsReceipts)
    (s : RuntimeState) : (call.payload s).mutableReceipts = s.mutableReceipts := by
  unfold SaveCall.payload RuntimeState.clearForIdle RuntimeState.clearForExecution
    RuntimeState.clearForPreWorker
  dsimp only
  repeat' split
  all_goals exact h _

section EngineReceipts

variable [Project]

/-- Every save of an iteration keeps the receipts. -/
theorem Saves.keepsReceipts {o : Observation} {s : RuntimeState} {src : Source} {call : SaveCall}
    {next : Pc} (h : Saves o s src call next) : call.KeepsReceipts := by
  intro t
  cases h with
  | progress hcall hnext => cases hcall <;> rfl
  | finalize report controlHead productHead productRemoteHead update hreport hupdate hnext =>
    cases update <;> rfl
  | _ => rfl

variable [Sha256]

omit [Project] in
theorem Engine.perform_receipts (e : Engine) {stretch : Stretch}
    (h : stretch.Ensures fun call _ => call.KeepsReceipts) :
    (e.perform stretch).state.mutableReceipts = e.state.mutableReceipts := by
  rcases Engine.perform_cases (e := e) h with heq | ⟨call, next, -, hcall, -, heq⟩
  · rw [heq]
  · rw [heq]
    exact hcall.payload e.state

theorem Engine.perform_saves (e : Engine) {stretch : Stretch} {o : Observation}
    {s : RuntimeState} {src : Source} (h : stretch.Ensures (Saves o s src)) :
    (e.perform stretch).state.mutableReceipts = e.state.mutableReceipts := by
  refine e.perform_receipts ?_
  cases stretch with
  | save call next => exact Saves.keepsReceipts h
  | returned => trivial
  | raised message => trivial

/-- **The engine carries the receipts along.** A step that admits no command keeps them. -/
theorem Engine.step_receipts {e e' : Engine} {a : EngineAction} (ha : a.admits = none)
    (h : e.step a = some e') : e'.state.mutableReceipts = e.state.mutableReceipts := by
  cases a with
  | advance =>
    simp only [Engine.step] at h
    split at h
    · cases h
    · rename_i hne
      cases h
      obtain ⟨o, ho⟩ : ∃ o, e.pc.observation = some o := by
        cases hpc : e.pc <;> first | exact absurd hpc hne | exact ⟨_, rfl⟩
      exact e.perform_saves (advance_saves ho)
  | crash =>
    cases h
    rfl
  | forceStop requestId =>
    simp only [Engine.step] at h
    split at h
    · cases h
    rename_i marker hmarker
    split at h
    · cases h
    rename_i s hs
    cases h
    obtain ⟨rfl, -⟩ := saveState_eq_ok.mp hs
    rw [forcedStopCall_payload hmarker]
  | «begin» o intent =>
    simp only [Engine.step] at h
    split at h
    · cases h
      exact (e.begun o intent).perform_saves enter_saves
    · cases h
  | admitDrop ticketId executionId =>
    simp only [Engine.step] at h
    split at h
    · split at h
      · cases h
        exact e.perform_receipts fun _ => rfl
      · cases h
    · cases h
  | resume o =>
    simp only [Engine.step] at h
    split at h
    · rename_i r hready hphase hr
      cases h
      exact Engine.perform_saves _ (@reconcileResume_saves _ o e.state (.resume r) r (.inl rfl))
    · cases h
  | rewrite save =>
    simp only [Engine.step] at h
    split at h
    · split at h
      · cases h
        refine e.perform_receipts fun _ => ?_
        cases save <;> rfl
      · cases h
    · cases h
  | reconcileStranded o =>
    simp only [Engine.step] at h
    split at h
    · split at h
      · split at h
        · cases h
          exact Engine.perform_receipts _ fun _ => rfl
        · cases h
          exact Engine.perform_saves _
            (@reconcileStrandedExecution_saves _ _ e.state .stranded _ rfl)
      · cases h
    · cases h
  | recoverInterrupted worktreeHead =>
    simp only [Engine.step] at h
    split at h
    · split at h
      · cases h
        exact e.perform_receipts fun _ => rfl
      · cases h
    · cases h
  | _ => cases ha

end EngineReceipts

/-! ### The service records a receipt once -/

/-- A step that records no receipt and answers no command. -/
structure Silent (s s' : Service) : Prop where
  keeps : Keeps s s'
  receipts : s'.receipts = s.receipts
  result : ∀ c, (s'.command c).admissionResult = (s.command c).admissionResult

theorem result_update {commands : Nat → OperatorCommand} {c : Nat} {command : OperatorCommand}
    (h : command.admissionResult = (commands c).admissionResult) (d : Nat) :
    (Function.update commands c command d).admissionResult = (commands d).admissionResult := by
  by_cases hd : d = c
  · subst hd
    rw [Function.update_self, h]
  · rw [Function.update_of_ne hd]

/-- The admission moves the command of the owner, and nothing else of the slot. -/
theorem admitCommand_owner (s : Service) (c : Nat) (run : AdmissionRun) :
    (s.admitCommand c run).owner = .leaving c ∧ (s.admitCommand c run).queued = s.queued
      ∧ (s.admitCommand c run).active = s.active := by
  unfold Service.admitCommand
  dsimp only
  repeat' split
  all_goals exact ⟨rfl, rfl, rfl⟩

/-- An admission that does not come to the record answers nothing. -/
theorem admitCommand_silent {s : Service} {c : Nat} {run : AdmissionRun}
    (hrun : ∀ onto resolutionClass, run ≠ .records onto resolutionClass) :
    (s.admitCommand c run).receipts = s.receipts ∧
      ∀ d, ((s.admitCommand c run).command d).admissionResult = (s.command d).admissionResult := by
  unfold Service.admitCommand
  split
  · exact ⟨rfl, result_update rfl⟩
  · split
    · exact ⟨rfl, result_update rfl⟩
    · cases run with
      | validationRejects text => exact ⟨rfl, result_update rfl⟩
      | raises => exact ⟨rfl, fun _ => rfl⟩
      | recordRejects text => exact ⟨rfl, result_update rfl⟩
      | records onto resolutionClass => exact absurd rfl (hrun onto resolutionClass)

/-- A step of the service other than the record of a receipt is silent, or fills the slot. -/
theorem silent_step {s s' : Service} {a : Action}
    (ha : ∀ onto resolutionClass, a ≠ .admitCommand (.records onto resolutionClass))
    (hs : s.step a = some s') :
    Silent s s' ∨ ∃ i q, s.submitter i = .ready q ∧ Opens s q ∧ s' = s.enqueue i q := by
  rcases keeps_step hs with hkeeps | ⟨i, q, -, hi, hopen, heq⟩
  case inr => exact .inr ⟨i, q, hi, hopen, heq⟩
  have hsame : s'.receipts = s.receipts →
      (∀ c, (s'.command c).admissionResult = (s.command c).admissionResult) → Silent s s' :=
    fun hreceipts hresult => ⟨hkeeps, hreceipts, hresult⟩
  cases a with
  | submit i =>
    simp only [Service.step] at hs
    split at hs
    case h_1 q hi =>
      cases hs
      rcases submit_cases s i q with ⟨hopen, heq⟩ | ⟨t, heq⟩
      · exact .inr ⟨i, q, hi, hopen, heq⟩
      · rw [heq] at hsame ⊢
        exact .inl (hsame rfl fun _ => rfl)
    case h_2 => cases hs
  | giveUp i =>
    simp only [Service.step] at hs
    split at hs
    · cases hs
      left
      apply hsame
      · unfold Service.giveUp Service.abandon
        split <;> rfl
      · unfold Service.giveUp Service.abandon
        split
        · exact result_update rfl
        · exact result_update rfl
    · cases hs
  | claim =>
    simp only [Service.step] at hs
    split at hs
    · cases hs
      left
      apply hsame
      · unfold Service.claim
        split <;> rfl
      · unfold Service.claim
        split <;> exact fun _ => rfl
    · cases hs
  | admitCommand run =>
    simp only [Service.step] at hs
    split at hs
    · cases hs
      obtain ⟨hreceipts, hresult⟩ := admitCommand_silent (s := s)
        fun onto resolutionClass hrun => ha onto resolutionClass (congrArg Action.admitCommand hrun)
      exact .inl (hsame hreceipts hresult)
    · cases hs
  | settle =>
    simp only [Service.step] at hs
    split at hs
    · cases hs
      exact .inl (hsame rfl (result_update rfl))
    · cases hs
  | exit =>
    simp only [Service.step] at hs
    split at hs
    · split at hs
      · cases hs
        exact .inl (hsame rfl fun _ => rfl)
      · cases hs
        exact .inl (hsame rfl (result_update rfl))
    · cases hs
  | _ =>
    -- nothing but flags and threads
    simp only [Service.step] at hs
    repeat' split at hs
    all_goals
      first
        | cases hs
          done
        | obtain rfl := Option.some.inj hs
          exact .inl (hsame rfl fun _ => rfl)

/-- One command is in the slot or with the owner. -/
structure OneCommand (s : Service) : Prop where
  slot : ∀ c, s.queued = some c → s.active = none
  owner : s.owner.command = s.active

theorem OneCommand.step {s s' : Service} {a : Action} (h : OneCommand s)
    (hs : s.step a = some s') : OneCommand s' := by
  obtain ⟨hslot, howner⟩ := h
  cases a with
  | submit i =>
    simp only [Service.step] at hs
    split at hs
    case h_1 q hi =>
      cases hs
      rcases submit_cases s i q with ⟨hopen, heq⟩ | ⟨t, heq⟩
      · rw [heq]
        -- a command is put into the slot only while none is active
        obtain ⟨-, -, -, hfree, -⟩ := hopen
        exact ⟨fun _ _ => (Option.or_eq_none_iff.mp hfree).2, howner⟩
      · rw [heq]
        exact ⟨hslot, howner⟩
    case h_2 => cases hs
  | giveUp i =>
    simp only [Service.step] at hs
    split at hs
    · cases hs
      unfold Service.giveUp Service.abandon
      split
      · exact ⟨fun _ h => (Option.some_ne_none _ h.symm).elim, howner⟩
      · exact ⟨hslot, howner⟩
    · cases hs
  | claim =>
    simp only [Service.step] at hs
    split at hs
    case isTrue hidle =>
      cases hs
      unfold Service.claim
      split
      · exact ⟨fun _ h => (Option.some_ne_none _ h.symm).elim, rfl⟩
      · refine ⟨hslot, ?_⟩
        rw [hidle] at howner
        exact howner
    case isFalse => cases hs
  | admitCommand run =>
    simp only [Service.step] at hs
    split at hs
    case h_1 c hc =>
      cases hs
      obtain ⟨hleaving, hqueued, hactive⟩ := admitCommand_owner s c run
      rw [hc] at howner
      constructor
      · rw [hqueued, hactive]
        exact hslot
      · rw [hleaving, hactive]
        exact howner
    case h_2 => cases hs
  | settle =>
    simp only [Service.step] at hs
    split at hs
    case h_1 c hc =>
      cases hs
      rw [hc] at howner
      exact ⟨hslot, howner⟩
    case h_2 => cases hs
  | dispatch =>
    simp only [Service.step] at hs
    split at hs
    case h_1 c hc =>
      rw [hc] at howner
      split at hs
      · cases hs
        exact ⟨hslot, howner⟩
      · cases hs
    case h_2 => cases hs
  | release =>
    simp only [Service.step] at hs
    split at hs
    case h_1 hc =>
      cases hs
      rw [hc] at howner
      exact ⟨hslot, howner⟩
    case h_2 =>
      split at hs
      · cases hs
      · cases hs
        exact ⟨fun _ _ => rfl, rfl⟩
    case h_3 =>
      cases hs
      exact ⟨fun _ _ => rfl, rfl⟩
    case h_4 => cases hs
  | exit =>
    simp only [Service.step] at hs
    split at hs
    case isTrue hidle =>
      rw [hidle.1] at howner
      split at hs
      · cases hs
        exact ⟨hslot, howner⟩
      · cases hs
        exact ⟨fun _ h => (Option.some_ne_none _ h.symm).elim, howner⟩
    case isFalse => cases hs
  | restart =>
    cases hs
    exact ⟨fun _ h => (Option.some_ne_none _ h.symm).elim, rfl⟩
  -- the other steps touch neither the slot nor the owner
  | _ =>
    simp only [Service.step] at hs
    repeat' split at hs
    all_goals
      first
        | cases hs
          done
        | obtain rfl := Option.some.inj hs
          exact ⟨hslot, howner⟩

/-- The receipt answers the request with the acknowledgement. -/
structure Answers (q : Request) (receipt : Receipt) (ack : Ack) : Prop where
  method : receipt.method = q.method
  fingerprint : receipt.fingerprint = q.fingerprint
  accepted : receipt.accepted = true
  ack : operatorAck q.method q.ticketId (receipt.onto.or q.onto) q.executionId
    receipt.resolutionClass = .ok ack
  legal : receipt.keysLegal = true ∧ receipt.fingerprint ≠ "" ∧ receipt.ticketId ≠ ""
    ∧ receipt.executionId.all (· != "") = true ∧ receipt.onto.all (· != "") = true

/-- The request is one that a call of the IPC server makes. -/
def Submitted [Sha256] (q : Request) : Prop :=
  ∃ requestId call, OperatorCall.valid call = true ∧ q = call.request requestId

/-- **The receipts of the service.** Requests come from the server's calls; a command that may still
    be recorded has no receipt and no answer; and the receipt of an answered command answers its
    request again. -/
structure Filed [Sha256] (s : Service) : Prop where
  one : OneCommand s
  thread : ∀ i q, (s.submitter i).request = some q → Submitted q
  submitted : ∀ c < s.created, Submitted (s.command c).request
  below : ∀ c, Live s c → c < s.created
  fresh : ∀ c, Live s c → s.receipts.get (s.command c).request.requestId = none
  unanswered : ∀ c, Live s c → (s.command c).admissionResult = none
  answered : ∀ c < s.created, ∀ ack, (s.command c).admissionResult = some ack →
    ∃ receipt, s.receipts.get (s.command c).request.requestId = some receipt ∧
      Answers (s.command c).request receipt ack

section Filed

variable [Sha256]

theorem filed_boot (receipts : Dict Receipt) : Filed (Service.boot receipts) where
  one := ⟨nofun, rfl⟩
  thread _ _ h := by cases h
  submitted _ h := by cases h
  below := by simp [Live, Service.boot]
  fresh := by simp [Live, Service.boot]
  unanswered := by simp [Live, Service.boot]
  answered _ h := by cases h

/-- A silent step keeps the receipts in order. -/
theorem Filed.of_silent {s s' : Service} (h : Filed s) (hsilent : Silent s s')
    (hone : OneCommand s') (hthread : ∀ i q, (s'.submitter i).request = some q → Submitted q) :
    Filed s' := by
  obtain ⟨hkeeps, hreceipts, hresult⟩ := hsilent
  have hlive : ∀ c, Live s' c → Live s c := by
    rintro c (hc | hc)
    · exact .inl (hkeeps.queued c hc)
    · exact hkeeps.claimed c hc
  constructor
  case one => exact hone
  case thread => exact hthread
  case submitted =>
    intro c hc
    rw [hkeeps.created] at hc
    rw [hkeeps.request c]
    exact h.submitted c hc
  case below =>
    intro c hc
    rw [hkeeps.created]
    exact h.below c (hlive c hc)
  case fresh =>
    intro c hc
    rw [hreceipts, hkeeps.request c]
    exact h.fresh c (hlive c hc)
  case unanswered =>
    intro c hc
    rw [hresult c]
    exact h.unanswered c (hlive c hc)
  case answered =>
    intro c hc ack hack
    rw [hkeeps.created] at hc
    rw [hresult c] at hack
    rw [hreceipts, hkeeps.request c]
    exact h.answered c hc ack hack

/-- A new command takes the free slot under an id without a receipt. -/
theorem Filed.enqueue {s : Service} (h : Filed s) {i : Nat} {q : Request} (hopen : Opens s q)
    (hi : s.submitter i = .ready q)
    (hthread : ∀ j r, ((s.enqueue i q).submitter j).request = some r → Submitted r) :
    Filed (s.enqueue i q) := by
  obtain ⟨-, -, hnone, hfree, -⟩ := hopen
  obtain ⟨hqueued, hactive⟩ := Option.or_eq_none_iff.mp hfree
  have hclaimed : ∀ c, s.owner ≠ .claimed c := by
    intro c hc
    have := h.one.owner
    rw [hc, hactive] at this
    cases this
  have hlive : ∀ c, Live (s.enqueue i q) c → c = s.created := by
    rintro c (hc | hc)
    · exact (Option.some.inj hc).symm
    · exact absurd hc (hclaimed c)
  have hself := request_enqueue_self s i q
  constructor
  case one => exact ⟨fun _ _ => hactive, h.one.owner⟩
  case thread => exact hthread
  case submitted =>
    intro c hc
    rcases Nat.lt_succ_iff_lt_or_eq.mp hc with hlt | rfl
    · rw [command_enqueue_of_lt s i q hlt]
      exact h.submitted c hlt
    · rw [hself]
      exact h.thread i q (by rw [hi]; rfl)
  case below =>
    intro c hc
    rw [hlive c hc]
    exact Nat.lt_succ_self _
  case fresh =>
    intro c hc
    rw [hlive c hc, hself]
    exact hnone
  case unanswered =>
    intro c hc
    rw [hlive c hc]
    show (Function.update s.command s.created _ s.created).admissionResult = none
    rw [Function.update_self]
  case answered =>
    intro c hc ack hack
    rcases Nat.lt_succ_iff_lt_or_eq.mp hc with hlt | rfl
    · rw [command_enqueue_of_lt s i q hlt] at hack ⊢
      exact h.answered c hlt ack hack
    · have hnew : (Function.update s.command s.created { request := q, onto := q.onto }
          s.created).admissionResult = some ack := hack
      rw [Function.update_self] at hnew
      cases hnew

/-- The claimed command is recorded under an id without a receipt. -/
theorem Filed.record {s : Service} (h : Filed s) {c : Nat} (hc : s.owner = .claimed c)
    (command : OperatorCommand) {receipt : Receipt}
    (hrequest : command.request = (s.command c).request)
    (hresult : ∀ ack, command.admissionResult = some ack → Answers command.request receipt ack) :
    Filed { s.setCommand c command with
      receipts := s.receipts.set command.request.requestId receipt
      recorded := c :: s.recorded
      owner := .leaving c } := by
  have hactive : s.active = some c := by
    rw [← h.one.owner, hc]
    rfl
  have hqueued : s.queued = none := by
    cases hq : s.queued with
    | none => rfl
    | some d =>
      have := h.one.slot d hq
      rw [hactive] at this
      cases this
  have hlive : ∀ d, ¬ (s.queued = some d ∨ Owner.leaving c = .claimed d) := by
    simp [hqueued]
  have hfresh := h.fresh c (.inr hc)
  constructor
  case one => exact ⟨fun d hd => absurd (.inl hd) (hlive d), hactive.symm⟩
  case thread => exact h.thread
  case submitted =>
    intro d hd
    show Submitted (Function.update s.command c command d).request
    rw [request_update hrequest]
    exact h.submitted d hd
  case below => exact fun d hd => absurd hd (hlive d)
  case fresh => exact fun d hd => absurd hd (hlive d)
  case unanswered => exact fun d hd => absurd hd (hlive d)
  case answered =>
    intro d hd ack hack
    show ∃ r, (s.receipts.set command.request.requestId receipt).get
      (Function.update s.command c command d).request.requestId = some r ∧ _
    have hack' : (Function.update s.command c command d).admissionResult = some ack := hack
    by_cases hdc : d = c
    · subst hdc
      rw [Function.update_self] at hack' ⊢
      exact ⟨receipt, Dict.get_set_self _ _ _, by
        simpa [Service.setCommand] using hresult ack hack'⟩
    · rw [Function.update_of_ne hdc] at hack' ⊢
      obtain ⟨r, hr, hanswers⟩ := h.answered d hd ack hack'
      have hne : (s.command d).request.requestId ≠ command.request.requestId := by
        intro heq
        rw [heq, hrequest, hfresh] at hr
        cases hr
      exact ⟨r, (Dict.get_set_of_ne _ _ hne).trans hr, by
        simpa [Service.setCommand, Function.update_of_ne hdc] using hanswers⟩

/-- The receipt of an admission answers its request. -/
theorem answers_of_admission (hdigest : ∀ bytes, Sha256.hexdigest bytes ≠ "")
    (command : OperatorCommand) {product : ProductView} {receipt : Receipt} {ack : Ack}
    (hq : Submitted command.request) (hhead : product.localHead ≠ "")
    (htarget : (command.onto, command.resolutionClass) = resolveTarget command.request product)
    (hreceipt : receiptOf command = .ok receipt)
    (hack : operatorAck command.request.method command.request.ticketId command.onto
      command.request.executionId command.resolutionClass = .ok ack) :
    Answers command.request receipt ack := by
  obtain ⟨requestId, call, hvalid, hq⟩ := hq
  have hfingerprint : command.request.fingerprint ≠ "" := by
    rw [hq]
    cases call <;> exact hdigest _
  rw [Prod.ext_iff] at htarget
  obtain ⟨honto, hclass⟩ := htarget
  unfold receiptOf at hreceipt
  unfold operatorAck at hack
  rw [hq] at hreceipt hack honto hclass hfingerprint ⊢
  -- an automatic reconciliation has a target unless none was asked for and the product is stable
  have hauto : ∀ (onto : Option String) (stable : Bool),
      onto.isNone = true ∧ stable = true ∨ (onto.isNone && stable) = false := by
    intro onto stable
    cases onto <;> cases stable <;> simp
  cases call with
  | reconcileAuto ticketId onto =>
    rcases hauto onto product.stable with ⟨hnone, hstable⟩ | htarget
    · obtain rfl : onto = none := by simpa using hnone
      simp_all [OperatorCall.request, resolveTarget, OperatorCall.valid, OperatorCall.texts, pure,
        Except.pure]
      subst hreceipt hack
      constructor <;> simp_all [operatorAck, Receipt.keysLegal]
    · simp_all [OperatorCall.request, resolveTarget, OperatorCall.valid, OperatorCall.texts, pure,
        Except.pure]
      subst hreceipt hack
      constructor <;> simp_all [operatorAck, Receipt.keysLegal]
  | _ =>
    simp_all [OperatorCall.request, resolveTarget, OperatorCall.valid, OperatorCall.texts, pure,
      Except.pure]
    subst hreceipt hack
    constructor <;> simp_all [operatorAck, Receipt.keysLegal]

/-- A thread keeps the request it arrived with. -/
theorem submitted_of_move {s s' : Service} {i : Nat} {a : Action} (hmove : ThreadMove s s' i a)
    (harrive : ∀ q, a = .arrive i q → Submitted q)
    (hs : ∀ q, (s.submitter i).request = some q → Submitted q) :
    ∀ q, (s'.submitter i).request = some q → Submitted q := by
  intro q hq
  cases hold : (s.submitter i).request with
  | some r =>
    have hr := request_of_move hmove hold
    rw [hr] at hq
    cases hq
    exact hs q hold
  | none =>
    cases hmove with
    | same h => exact hs q (h ▸ hq)
    | arrive h h' =>
      rw [h'] at hq
      cases hq
      exact harrive q rfl
    | submit h _ => simp [h, Submitter.request] at hold
    | observe h _ => simp [h, Submitter.request] at hold
    | timeout h _ => simp [h, Submitter.request] at hold
    | giveUp h _ => simp [h, Submitter.request] at hold
    | lost h _ _ => simp [h] at hold

/-- A step of the service that records no receipt keeps the receipts in order. -/
theorem Filed.step {s s' : Service} {a : Action} (h : Filed s)
    (ha : ∀ onto resolutionClass, a ≠ .admitCommand (.records onto resolutionClass))
    (harrive : ∀ i q, a = .arrive i q → Submitted q) (hs : s.step a = some s') : Filed s' := by
  have hthread : ∀ i q, (s'.submitter i).request = some q → Submitted q := fun i =>
    submitted_of_move (threadMove_of_step hs i) (harrive i) (h.thread i)
  rcases silent_step ha hs with hsilent | ⟨i, q, hi, hopen, rfl⟩
  · exact h.of_silent hsilent (h.one.step hs) hthread
  · exact h.enqueue hopen hi hthread

/-- The admission that comes to the record. -/
theorem Filed.admitCommand {s : Service} (h : Filed s) {c : Nat} (hc : s.owner = .claimed c)
    (hdigest : ∀ bytes, Sha256.hexdigest bytes ≠ "") {product : ProductView}
    (hhead : product.localHead ≠ "") {onto : Option String}
    {resolutionClass : Option ResolutionClass}
    (htarget : (onto, resolutionClass) = resolveTarget (s.command c).request product) :
    Filed (s.admitCommand c (.records onto resolutionClass)) := by
  have hsilent : ∀ command : OperatorCommand, command.request = (s.command c).request →
      command.cancelled = (s.command c).cancelled →
      command.admissionResult = (s.command c).admissionResult →
      Filed { s.setCommand c command with owner := .leaving c } := by
    intro command hrequest hcancelled hresult
    refine h.of_silent ⟨keeps_leave s c _ hrequest hcancelled nofun, rfl, result_update hresult⟩
      ⟨h.one.slot, ?_⟩ h.thread
    have := h.one.owner
    rw [hc] at this
    exact this
  unfold Service.admitCommand
  split
  case isTrue => exact hsilent _ rfl rfl rfl
  case isFalse =>
    split
    case isTrue => exact hsilent _ rfl rfl rfl
    case isFalse =>
      dsimp only
      split
      case h_1 =>
        rw [refuse_setCommand]
        exact hsilent _ rfl rfl rfl
      case h_2 receipt hreceipt =>
        have hunanswered := h.unanswered c (.inr hc)
        split
        case h_1 e _ =>
          rw [refuse_setCommand]
          refine h.record hc
            { s.command c with onto, resolutionClass, admissionError := some e } rfl ?_
          intro ack hack
          rw [show (s.command c).admissionResult = some ack from hack] at hunanswered
          cases hunanswered
        case h_2 ack hack =>
          refine h.record hc
            { s.command c with onto, resolutionClass, admissionResult := some ack } rfl ?_
          rintro _ ⟨⟩
          exact answers_of_admission hdigest { s.command c with onto, resolutionClass }
            (h.submitted c (h.below c (.inr hc))) hhead htarget hreceipt hack

end Filed

/-! ### Runs -/

/-- The engine's receipts are the service's, and these are in order. -/
structure HostedFiled [Sha256] (h : Hosted) : Prop where
  same : h.engine.state.mutableReceipts = h.service.receipts
  filed : Filed h.service

/-- A step of both keeps every receipt, and the answers of the commands. -/
structure Retains (s s' : Service) : Prop where
  created : s.created ≤ s'.created
  request : ∀ c < s.created, (s'.command c).request = (s.command c).request
  result : ∀ c < s.created, ∀ ack, (s.command c).admissionResult = some ack →
    (s'.command c).admissionResult = some ack
  receipts : ∀ key receipt, s.receipts.get key = some receipt → s'.receipts.get key = some receipt

section Runs

variable [Project] [Sha256]

omit [Project] [Sha256] in
theorem Silent.retains {s s' : Service} (h : Silent s s') : Retains s s' where
  created := Nat.le_of_eq h.keeps.created.symm
  request c _ := h.keeps.request c
  result c _ ack hack := (h.result c).trans hack
  receipts key receipt hr := by rw [h.receipts]; exact hr

omit [Project] [Sha256] in
theorem retains_enqueue (s : Service) (i : Nat) (q : Request) : Retains s (s.enqueue i q) where
  created := Nat.le_succ _
  request c hc := by rw [command_enqueue_of_lt s i q hc]
  result c hc ack hack := by
    rw [command_enqueue_of_lt s i q hc]
    exact hack
  receipts _ _ hr := hr

omit [Project] in
/-- The record of a receipt comes under a new id, and answers a command without an answer. -/
theorem Filed.retains_admitCommand {s : Service} (h : Filed s) {c : Nat}
    (hc : s.owner = .claimed c) (run : AdmissionRun) : Retains s (s.admitCommand c run) := by
  have hkeeps := keeps_admitCommand hc run
  have hunanswered := h.unanswered c (.inr hc)
  have hfresh := h.fresh c (.inr hc)
  have hanswer : ∀ (command : OperatorCommand) (d : Nat) (ack : Ack),
      (s.command d).admissionResult = some ack →
      (Function.update s.command c command d).admissionResult = some ack := by
    intro command d ack hack
    by_cases hdc : d = c
    · subst hdc
      rw [hunanswered] at hack
      cases hack
    · rw [Function.update_of_ne hdc]
      exact hack
  have hset : ∀ (receipt : Receipt) (key : String) (r : Receipt), s.receipts.get key = some r →
      (s.receipts.set (s.command c).request.requestId receipt).get key = some r := by
    intro receipt key r hr
    rw [Dict.get_set_of_ne _ _ (by rintro rfl; rw [hfresh] at hr; cases hr)]
    exact hr
  refine ⟨Nat.le_of_eq hkeeps.created.symm, fun d _ => hkeeps.request d, ?_, ?_⟩
  · intro d _ ack hack
    unfold Service.admitCommand
    dsimp only
    repeat' split
    all_goals
      first
        | exact hanswer _ d ack hack
        | exact hack
        | rw [refuse_setCommand]
          exact hanswer _ d ack hack
  · intro key r hr
    unfold Service.admitCommand
    dsimp only
    repeat' split
    all_goals
      first
        | exact hset _ key r hr
        | exact hr

/-- **Step.** The engine and the service keep one set of receipts, and every receipt in it. -/
theorem HostedFiled.step {h h' : Hosted} {a : HostedAction}
    (hdigest : ∀ bytes, Sha256.hexdigest bytes ≠ "") (hf : HostedFiled h)
    (hstep : h.step a = some h') : HostedFiled h' ∧ Retains h.service h'.service := by
  obtain ⟨hsame, hfiled⟩ := hf
  have hservice : ∀ (a : Action) {s' : Service},
      (∀ onto resolutionClass, a ≠ .admitCommand (.records onto resolutionClass)) →
      (∀ i q, a = .arrive i q → Submitted q) → h.service.step a = some s' →
      s'.receipts = h.service.receipts ∧ Filed s' ∧ Retains h.service s' := by
    intro a s' ha harrive hs
    refine ⟨?_, hfiled.step ha harrive hs, ?_⟩
    · rcases silent_step ha hs with hsilent | ⟨i, q, -, -, rfl⟩
      · exact hsilent.receipts
      · rfl
    · rcases silent_step ha hs with hsilent | ⟨i, q, -, -, rfl⟩
      · exact hsilent.retains
      · exact retains_enqueue _ i q
  cases a with
  | arrive i requestId call =>
    simp only [Hosted.step] at hstep
    split at hstep
    case isTrue hvalid =>
      obtain ⟨s', hs, rfl⟩ := Option.map_eq_some_iff.mp hstep
      obtain ⟨hreceipts, hfiled', hretains⟩ :=
        hservice (.arrive i (call.request requestId)) (by simp)
        (by rintro _ _ ⟨⟩; exact ⟨requestId, call, hvalid.2, rfl⟩) hs
      exact ⟨⟨hsame.trans hreceipts.symm, hfiled'⟩, hretains⟩
    case isFalse => cases hstep
  | service a =>
    simp only [Hosted.step] at hstep
    split at hstep
    case isTrue hinternal =>
      obtain ⟨s', hs, rfl⟩ := Option.map_eq_some_iff.mp hstep
      obtain ⟨hreceipts, hfiled', hretains⟩ := hservice _
        (by rintro onto resolutionClass rfl; cases hinternal)
        (by rintro i q rfl; cases hinternal) hs
      exact ⟨⟨hsame.trans hreceipts.symm, hfiled'⟩, hretains⟩
    case isFalse => cases hstep
  | engine a =>
    simp only [Hosted.step] at hstep
    split at hstep
    case isTrue hadmits =>
      obtain ⟨e', he, rfl⟩ := Option.map_eq_some_iff.mp hstep
      refine ⟨⟨(Engine.step_receipts hadmits he).trans hsame, hfiled⟩, ?_⟩
      exact ⟨Nat.le_refl _, fun _ _ => rfl, fun _ _ _ hack => hack, fun _ _ hr => hr⟩
    case isFalse => cases hstep
  | admission product a =>
    simp only [Hosted.step] at hstep
    split at hstep
    case h_1 c hc =>
      split at hstep
      case h_1 s' e' hs he =>
        split at hstep
        case isTrue hguard =>
          cases hstep
          simp only [Service.step, hc, Option.some.injEq] at hs
          subst hs
          refine ⟨⟨hguard.2.2, hfiled.admitCommand hc hdigest hguard.1 rfl⟩, ?_⟩
          exact hfiled.retains_admitCommand hc (.records
            (resolveTarget (h.service.command c).request product).1
            (resolveTarget (h.service.command c).request product).2)
        case isFalse => cases hstep
      case h_2 => cases hstep
    case h_2 => cases hstep
  | restart =>
    simp only [Hosted.step] at hstep
    split at hstep
    case h_1 s' e' hs he =>
      cases hstep
      obtain ⟨hreceipts, hfiled', hretains⟩ := hservice .restart (by simp) (by simp) hs
      refine ⟨⟨?_, hfiled'⟩, hretains⟩
      exact (Engine.step_receipts rfl he).trans (hsame.trans hreceipts.symm)
    case h_2 => cases hstep

omit [Project] in
theorem HostedFiled.boot (engine : Engine) : HostedFiled (Hosted.boot engine) :=
  ⟨rfl, filed_boot _⟩

theorem HostedFiled.run {h h' : Hosted} (hdigest : ∀ bytes, Sha256.hexdigest bytes ≠ "")
    (hf : HostedFiled h) (hrun : Run Hosted.step (fun _ _ => True) h h') :
    HostedFiled h' ∧ Retains h.service h'.service := by
  induction hrun with
  | refl =>
    exact ⟨hf, Nat.le_refl _, fun _ _ => rfl, fun _ _ _ hack => hack, fun _ _ hr => hr⟩
  | tail _ _ hstep ih =>
    obtain ⟨hf', hold⟩ := ih
    obtain ⟨hf'', hnew⟩ := hf'.step hdigest hstep
    refine ⟨hf'', Nat.le_trans hold.created hnew.created, ?_, ?_, ?_⟩
    · intro c hc
      rw [hnew.request c (Nat.lt_of_lt_of_le hc hold.created), hold.request c hc]
    · intro c hc ack hack
      exact hnew.result c (Nat.lt_of_lt_of_le hc hold.created) ack (hold.result c hc ack hack)
    · intro key receipt hr
      exact hnew.receipts key receipt (hold.receipts key receipt hr)

omit [Project] [Sha256] in
/-- A thread ends in one way only. -/
theorem finish_inj {s : Service} {i : Nat} {q : Request} {o o' : Except AdmissionError Ack}
    (h : s.finish i q none o = s.finish i q none o') : o = o' := by
  have hthread := congrArg (fun s => Service.submitter s i) h
  simp only [Service.finish, submitter_setSubmitter_self, Submitter.done.injEq] at hthread
  exact hthread.2.2

omit [Project] [Sha256] in
/-- A submission under an id with a receipt is answered from the receipt, unless the service is
    draining or shutting down. -/
theorem submit_receipt {s : Service} {i : Nat} {q : Request} {receipt : Receipt}
    (hr : s.receipts.get q.requestId = some receipt) {o : Except AdmissionError Ack}
    (ho : o ≠ .error .shuttingDown ∧ o ≠ .error .draining)
    (hanswer : (if receipt.method ≠ q.method ∨ receipt.fingerprint ≠ q.fingerprint
        ∨ receipt.accepted = false then .error (.collision q.method)
      else operatorAck q.method q.ticketId (receipt.onto.or q.onto) q.executionId
        receipt.resolutionClass) = o) :
    s.submit i q = s.finish i q none o ↔ ¬ (s.shutdown = true ∨ s.draining = true) := by
  unfold Service.submit
  split
  case isTrue hshutdown =>
    refine iff_of_false (fun heq => ho.1 (finish_inj heq).symm) ?_
    simp [hshutdown]
  case isFalse hshutdown =>
    split
    case isTrue hdraining =>
      refine iff_of_false (fun heq => ho.2 (finish_inj heq).symm) ?_
      simp [hdraining]
    case isFalse hdraining =>
      refine iff_of_true ?_ (by simp [hshutdown, hdraining])
      rw [hr]
      dsimp only
      split
      case isTrue hcollision =>
        rw [if_pos hcollision] at hanswer
        rw [hanswer]
      case isFalse hsame =>
        rw [if_neg hsame] at hanswer
        rw [hanswer]

omit [Project] [Sha256] in
theorem mutableReceipt_eq_some {receipts : Dict Receipt} {requestId : String} {q : Request}
    {receipt : Receipt} {ack : Ack} (hr : receipts.get requestId = some receipt)
    (h : Answers q receipt ack) : mutableReceipt receipts requestId = .ok (some receipt) := by
  obtain ⟨hkeys, hfingerprint, hticket, hexecution, honto⟩ := h.legal
  simp [mutableReceipt, hr, hkeys, hfingerprint, hticket, hexecution, honto, require, bind,
    Except.bind, pure, Except.pure]

/-- **Resubmission.** In every run of the service and its engine, with restarts: the receipt of an
    admitted command is stored unchanged in every later state and readable; the same request is
    answered with the acknowledgement of the admission, and a request with another method or
    fingerprint under the same id collides, both without touching the slot, exactly when the service
    is neither draining nor shutting down. -/
theorem resubmitted_iff (hdigest : ∀ bytes, Sha256.hexdigest bytes ≠ "") (engine : Engine)
    {h₁ h₂ : Hosted} (hrun₁ : Run Hosted.step (fun _ _ => True) (Hosted.boot engine) h₁)
    (hrun₂ : Run Hosted.step (fun _ _ => True) h₁ h₂) {c : Nat} (hc : c < h₁.service.created)
    {ack : Ack} (hack : (h₁.service.command c).admissionResult = some ack) :
    let q := (h₁.service.command c).request
    let closed := h₂.service.shutdown = true ∨ h₂.service.draining = true
    ∃ receipt, h₁.engine.state.mutableReceipts.get q.requestId = some receipt ∧
      h₂.engine.state.mutableReceipts.get q.requestId = some receipt ∧
      mutableReceipt h₂.engine.state.mutableReceipts q.requestId = .ok (some receipt) ∧
      ∀ i, (h₂.service.submit i q = h₂.service.finish i q none (.ok ack) ↔ ¬ closed) ∧
        ∀ q', q'.requestId = q.requestId →
          q'.method ≠ q.method ∨ q'.fingerprint ≠ q.fingerprint →
          (h₂.service.submit i q' = h₂.service.finish i q' none (.error (.collision q'.method)) ↔
            ¬ closed) := by
  obtain ⟨hf₁, -⟩ := (HostedFiled.boot engine).run hdigest hrun₁
  obtain ⟨hf₂, hretains⟩ := hf₁.run hdigest hrun₂
  obtain ⟨receipt, hr, hanswers⟩ := hf₁.filed.answered c hc ack hack
  have hr₂ := hretains.receipts _ receipt hr
  refine ⟨receipt, hf₁.same ▸ hr, hf₂.same ▸ hr₂,
    mutableReceipt_eq_some (hf₂.same ▸ hr₂) hanswers, fun i => ⟨?_, ?_⟩⟩
  · refine submit_receipt hr₂ ⟨nofun, nofun⟩ ?_
    rw [if_neg (by simp [hanswers.method, hanswers.fingerprint, hanswers.accepted])]
    exact hanswers.ack
  · intro q' hid hdiffers
    refine submit_receipt (hid.symm ▸ hr₂) ⟨nofun, nofun⟩ (if_pos ?_)
    rcases hdiffers with hmethod | hfingerprint
    · exact .inl fun heq => hmethod (heq.symm.trans hanswers.method)
    · exact .inr (.inl fun heq => hfingerprint (heq.symm.trans hanswers.fingerprint))

end Runs

/-! ### A retry, submitted twice -/

/-- A retry of `t1` is admitted and dispatched. -/
def admitsRetry : List HostedAction :=
  [.arrive 0 "r1" (.retry "t1" false), .service (.submit 0), .service .claim,
    .admission ⟨sampleHead 'a', true, false⟩ (.admitRetry "t1" "r1" "digest"), .service .settle,
    .service .dispatch, .service .release]

/-- The hosted engine on the sample project. -/
@[reducible] def sampleHosted : Hosted → HostedAction → Option Hosted :=
  @Hosted.step sampleProject sampleSha256

/-- After a restart the same retry is answered from its receipt. -/
theorem resubmitted_afterRestart :
    ∃ h : Hosted, h.service.submit 1 (h.service.command 0).request
      = h.service.finish 1 (h.service.command 0).request none
          (.ok { method := .retry, ticketId := "t1" }) := by
  have hfirst : ∃ h, exec sampleHosted (Hosted.boot {}) admitsRetry = some h ∧
      (0 < h.service.created ∧ (h.service.command 0).admissionResult
        = some { method := .retry, ticketId := "t1" }) :=
    exists_exec_of_any (by decide)
  obtain ⟨h₁, hexec, hc, hack⟩ := hfirst
  obtain ⟨h₂, hrestart, hshutdown, hdraining, hcommand⟩ :
      ∃ h₂, sampleHosted h₁ .restart = some h₂ ∧ h₂.service.shutdown = false ∧
        h₂.service.draining = false ∧ h₂.service.command = h₁.service.command :=
    ⟨_, rfl, rfl, rfl, rfl⟩
  have hdigest : "digest" ≠ "" := by decide
  obtain ⟨-, -, -, -, hanswer⟩ := @resubmitted_iff sampleProject sampleSha256 (fun _ => hdigest) {}
    h₁ h₂ (run_of_exec hexec (by decide)) (.tail .refl trivial hrestart) 0 hc _ hack
  refine ⟨h₂, ?_⟩
  rw [hcommand]
  exact (hanswer 1).1.mpr (by simp [hshutdown, hdraining])

/-- A drain begins after the retry was admitted: the same request is told that it was not. -/
theorem drainedResubmission_refused :
    ∃ h : Hosted, Run sampleHosted (fun _ _ => True) (Hosted.boot {}) h ∧
      (h.service.command 0).admissionResult = some { method := .retry, ticketId := "t1" } ∧
      h.service.submitter 1
        = .done (h.service.command 0).request none (.error .draining) := by
  have hrun : ∃ h, exec sampleHosted (Hosted.boot {}) (admitsRetry ++ [.service .drain,
      .arrive 1 "r1" (.retry "t1" false), .service (.submit 1)]) = some h ∧
      ((h.service.command 0).admissionResult = some { method := .retry, ticketId := "t1" } ∧
      h.service.submitter 1
        = .done (h.service.command 0).request none (.error .draining)) :=
    exists_exec_of_any (by decide)
  obtain ⟨h, hexec, hack, hrefused⟩ := hrun
  exact ⟨h, run_of_exec hexec (by decide), hack, hrefused⟩

end Devlegate
