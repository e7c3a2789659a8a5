import Devlegate.IpcProtocol
import Devlegate.ReportDict
import Devlegate.Lib.JsonTexts

namespace Devlegate

open JsonText

/-!
# The stored state as it is read

`_load_state` with `_validate_state_invariant`, `_worker_identity_from_value` and
`ExecutionReport.from_dict` on any JSON value, with the exceptions that Python raises where a check
meets a value it does not expect.

* `loadState`: the checks in the order of the source; `Failure` says what is raised.
* `Testable`: the values on which no membership test, subscript or digest raises by itself.
* `WorkerIdentity.asDict`, `workerIdentityFromValue`: the two directions of a worker's identity.
* `ExecutionBound`: the ticket, product, control and execution binding.
* `loadState_validates`: on testable values only `DevlegateError` is raised, identities are read back,
  and every accepted execution is bound.
-/

namespace Stored

/-! ### Values -/

/-- What a check raises. -/
inductive Failure where
  | devlegate (message : Text)
  | typeError
  | keyError
  | unicodeEncodeError
  deriving DecidableEq

/-- Raise a `DevlegateError` unless the check holds. -/
def check (holds : Bool) (message : Text) : Except Failure Unit :=
  if holds then .ok () else .error (.devlegate message)

/-- A value, or the exception raised in its absence. -/
def orRaise {α : Type} (value : Option α) (failure : Failure) : Except Failure α :=
  match value with
  | some a => .ok a
  | none => .error failure

/-- `value is None`. -/
def isNone (value : Option Json) : Bool :=
  match value with
  | none | some .null => true
  | _ => false

/-- `isinstance(value, str)`. -/
def isStr (value : Option Json) : Bool := (Json.asStr value).isSome

/-- `isinstance(value, str) and value`. -/
def isName (value : Option Json) : Bool := (asNonEmpty value).isSome

/-- `_is_git_identity`. -/
def isGitIdentity (value : Option Json) : Bool :=
  match Json.asStr value with
  | some s => s.length == 40 && s.all fun c => (text "0123456789abcdefABCDEF").contains c
  | none => false

/-- `value in names`, for a value that has a hash. -/
def oneOf (names : List String) (value : Option Json) : Bool :=
  names.any fun name => Json.isText value name

/-- A membership test, which raises for a value without a hash. -/
def tested (value : Option Json) (member : Option Json → Bool) : Except Failure Bool :=
  if Json.hashable value then .ok (member value) else .error .typeError

/-- What is checked of a value that is not `None`. -/
def unlessNone (value : Option Json) (checks : Json → Except Failure Unit) : Except Failure Unit :=
  match value with
  | none | some .null => .ok ()
  | some v => checks v

/-- What is checked of a member that is there. -/
def whenPresent (value : Option Json) (checks : Json → Except Failure Unit) : Except Failure Unit :=
  match value with
  | none => .ok ()
  | some v => checks v

section Checks

variable [Sha256]

/-! ### Reports -/

/-- `ExecutionReport.from_dict`, with its own error turned into a `DevlegateError`. -/
def readReport (payload : Json) (message : Text) : Except Failure Wire.ExecutionReport :=
  match Wire.ExecutionReport.fromDict payload with
  | .ok report => .ok report
  | .error (.reportError _) => .error (.devlegate message)
  | .error .unicodeEncodeError => .error .unicodeEncodeError

/-- The fields of a retained report are those of its reconciliation. -/
def boundTo (report : Wire.ExecutionReport) (fields : List (Text × Json)) : Bool :=
  [(some report.ticketId, "ticket_id"), (some report.executionId, "execution_id"),
    (some report.codeBaseHead, "original_base"), (some report.controlHead, "control_head"),
    (some report.executionBranch, "execution_branch"), (some report.executionPath, "execution_path"),
    (report.workspaceHead, "worker_checkpoint")].all fun (actual, expected) =>
      actual.isSome && Json.asStr (getField fields expected) == actual

/-! ### The parts of a state -/

/-- `required_reconciliation`. -/
def reconciliationFields : List String :=
  ["ticket_id", "execution_id", "original_base", "observed_product", "worker_checkpoint",
    "product_remote_head", "control_head", "execution_branch", "execution_path", "evidence_ref"]

/-- The checks on `reconciliation`. -/
def validateReconciliation (value : Option Json) : Except Failure Unit :=
  unlessNone value fun v => do
    let fields ← orRaise (Json.asObj (some v)) (.devlegate (text "invalid reconciliation state"))
    let known ← tested (getField fields "status") (oneOf ["pending", "resolving", "resolved"])
    check known (text "invalid reconciliation state")
    check (reconciliationFields.all fun field => isName (getField fields field))
      (text "invalid reconciliation identity")
    check (!Json.isText (getField fields "status") "resolving"
        || Json.isText (getField fields "resolution") "resume")
      (text "resolving reconciliation must be a resume")
    whenPresent (getField fields "resolution") fun resolution => do
      let known ← tested (some resolution) fun v => isNone v || oneOf ["resume", "update-base"] v
      check known (text "invalid reconciliation resolution")
    whenPresent (getField fields "resolution_class") fun resolutionClass => do
      let known ← tested (some resolutionClass)
        (oneOf ["resume", "update-base", "update-base with published-lineage rewrite"])
      check known (text "invalid reconciliation resolution class")
    whenPresent (getField fields "reason") fun reason =>
      check (isStr (some reason)) (text "invalid reconciliation reason")
    whenPresent (getField fields "execution_remote_head") fun head =>
      check (isNone (some head) || isGitIdentity (some head))
        (text "invalid reconciliation execution remote identity")
    whenPresent (getField fields "execution_report") fun payload => do
      let report ← readReport payload (text "invalid retained reconciliation report")
      check (boundTo report fields) (text "retained reconciliation report binding is invalid")

/-- The checks on `failed_executions`. -/
def validateFailures (value : Option Json) : Except Failure Unit :=
  let fields := ["execution_id", "product_head", "remote_head", "control_head", "todo_fingerprint",
    "reason"]
  whenPresent value fun v =>
    check ((Json.asObj (some v)).any fun failures => failures.all fun failure =>
        (Json.asObj (some failure.2)).any fun record =>
          fields.all fun field => isStr (getField record field))
      (text "invalid state: failed execution metadata is invalid")

/-- `required` of an automatic retry. -/
def retryFields (fields : List (Text × Json)) : List String :=
  let status := getField fields "status"
  ["status", "reason", "ticket_id", "stale_execution_id", "original_base", "worker_checkpoint",
    "product_head", "control_head"]
  ++ (if oneOf ["pending_admission", "admitted", "completed"] status
        || Json.isText status "not_admitted" && (getField fields "fresh_execution_id").isSome
      then ["fresh_execution_id"] else [])
  ++ (if Json.isText status "completed" then ["completed_conclusion"] else [])

/-- `validate_automatic_retry`. -/
def validateAutomaticRetry (current : Bool) (value : Option Json) : Except Failure Unit :=
  unlessNone value fun v => do
    let fields ← orRaise (Json.asObj (some v)) (.devlegate (text "invalid automatic retry state"))
    let known ← tested (getField fields "status")
      (oneOf (if current then ["pending", "pending_admission", "admitted"]
        else ["completed", "not_admitted"]))
    check known (text "invalid automatic retry status")
    let required := retryFields fields
    check (required.all fun field => (getField fields field).isSome)
      (text "automatic retry identity is incomplete")
    check (hasExactly fields required) (text "automatic retry fields are invalid")
    check (["reason", "ticket_id", "stale_execution_id", "worker_checkpoint"].all fun field =>
        isName (getField fields field)) (text "automatic retry identity is invalid")
    check (["original_base", "product_head", "control_head"].all fun field =>
        isGitIdentity (getField fields field)) (text "automatic retry Git identity is invalid")
    check (!required.contains "fresh_execution_id" || isName (getField fields "fresh_execution_id"))
      (text "automatic retry fresh execution is invalid")
    check (!required.contains "completed_conclusion"
        || isName (getField fields "completed_conclusion"))
      (text "automatic retry conclusion is invalid")

/-! ### The worker's identity -/

/-- `WorkerProcessIdentity`. -/
structure WorkerIdentity where
  executionId : Text
  pid : Int
  pgid : Int
  sid : Int
  bootId : Text
  startTime : Int
  containmentId : Option Text := none
  deriving DecidableEq

/-- The members of `as_dict`. -/
def WorkerIdentity.members (identity : WorkerIdentity) : List (Text × Json) :=
  [(text "execution_id", .str identity.executionId), (text "pid", .int identity.pid),
    (text "pgid", .int identity.pgid), (text "sid", .int identity.sid),
    (text "boot_id", .str identity.bootId), (text "start_time", .int identity.startTime),
    (text "containment_id", (identity.containmentId.map .str).getD .null)]

/-- `WorkerProcessIdentity.as_dict`. -/
def WorkerIdentity.asDict (identity : WorkerIdentity) : Json := .obj identity.members

/-- `value != other`; `equal` is Python's `==` on two values of which neither is text. -/
def differ (equal : Json → Json → Bool) (value other : Json) : Bool :=
  match Json.asStr (some value), Json.asStr (some other) with
  | some s, some t => s != t
  | none, none => !equal value other
  | _, _ => true

/-- The fields that every identity has. -/
def identityFields : List String :=
  ["execution_id", "pid", "pgid", "sid", "boot_id", "start_time"]

/-- A positive number of an identity. -/
def readId (fields : List (Text × Json)) (field : String) : Except Failure Int := do
  let value ← orRaise (getField fields field) .keyError
  orRaise ((Json.asInt (some value)).bind fun n => if 0 < n then some n else none)
    (.devlegate (text "invalid worker identity"))

/-- `_worker_identity_from_value`. -/
def workerIdentityFromValue (equal : Json → Json → Bool) (value executionId : Option Json) :
    Except Failure (Option WorkerIdentity) :=
  if isNone value then .ok none
  else do
    let invalid := Failure.devlegate (text "invalid worker identity")
    let fields ← orRaise (Json.asObj value) invalid
    check (onlyFields fields (identityFields ++ ["containment_id"]))
      (text "invalid worker identity")
    -- the keys are no proper subset of the required ones
    check (!(onlyFields fields identityFields
        && !identityFields.all fun field => (getField fields field).isSome))
      (text "invalid worker identity")
    unlessNone executionId fun expected => do
      let actual ← orRaise (getField fields "execution_id") .keyError
      check (!differ equal actual expected)
        (text "worker identity does not match execution identity")
    let id ← orRaise (getField fields "execution_id") .keyError
    let id ← orRaise (asNonEmpty (some id)) invalid
    let pid ← readId fields "pid"
    let pgid ← readId fields "pgid"
    let sid ← readId fields "sid"
    let startTime ← orRaise (getField fields "start_time") .keyError
    let startTime ← orRaise ((Json.asInt (some startTime)).bind fun n =>
      if 0 ≤ n then some n else none) invalid
    let bootId ← orRaise (getField fields "boot_id") .keyError
    let bootId ← orRaise (asNonEmpty (some bootId)) invalid
    check (isNone (getField fields "containment_id") || isStr (getField fields "containment_id"))
      (text "invalid worker identity")
    return some ⟨id, pid, pgid, sid, bootId, startTime, Json.asStr (getField fields "containment_id")⟩

/-! ### The whole state -/

/-- The stages that a state can name. -/
def stageNames : List String :=
  ["worker-launch", "worker-running", "post-worker", "pre-checkpoint", "checkpointing",
    "post-checkpoint", "publishing", "post-publication", "lifecycle"]

/-- The stages without a worker. -/
def stagesWithoutWorker : List String :=
  ["worker-launch", "post-worker", "pre-checkpoint", "checkpointing", "post-checkpoint",
    "publishing", "post-publication", "lifecycle"]

/-- `execution_fields`. -/
def executionFields : List String :=
  ["execution_ticket_id", "execution_base_head", "execution_control_head", "execution_branch",
    "execution_path", "execution_id"]

/-- The report of a stage between checkpoint and publication. -/
def validateStageReport (stage : Text) (pending : Option Json) : Except Failure Unit := do
  let report ← readReport (pending.getD .null)
    (text "invalid " ++ stage ++ text " state: pending execution report is invalid")
  if stage = text "checkpointing" then
    check report.workspaceHead.isNone
      (text "invalid checkpointing state: checkpoint identity is premature")
  else
    check (report.workspaceHead.any (· ≠ []))
      (text "invalid " ++ stage ++ text " state: checkpoint identity is missing")

/-- `None` or non-empty text. -/
def noneOrName (value : Option Json) : Bool := isNone value || isName value

/-- The checks on the stage, with the worker and the report it asks for. -/
def validateStage (phase : Text) (state : List (Text × Json)) (identity : Option WorkerIdentity) :
    Except Failure Unit := do
  let stage := getField state "execution_stage"
  let running := phase == text "agent_running"
  unlessNone stage fun stage => do
    let known ← tested (some stage) (oneOf stageNames)
    check known (text "invalid execution stage")
  check (!(running && Json.isText stage "worker-running" && identity.isNone))
    (text "worker-running state requires worker identity")
  check (!(running && oneOf stagesWithoutWorker stage && identity.isSome))
    (text "later execution stage cannot retain worker identity")
  if running && oneOf ["checkpointing", "post-checkpoint", "publishing", "post-publication"] stage then
    validateStageReport ((Json.asStr stage).getD []) (getField state "pending_execution_report")

/-- The checks on the workspace of an execution. -/
def validateWorkspace (state : List (Text × Json)) : Except Failure Unit := do
  check ((executionFields ++ ["execution_remote_head"]).all (fun field =>
        (getField state field).isSome)
      && executionFields.all (fun field => isName (getField state field))
      && noneOrName (getField state "execution_remote_head"))
    (text "invalid state: execution workspace binding is incomplete")
  check ((getField state "execution_remote_head").isNone
      || noneOrName (getField state "execution_remote_head"))
    (text "invalid state: execution remote revision identity is invalid")

/-- The checks that only a pending or running execution has to pass. -/
def validateExecution (phase : Text) (state : List (Text × Json))
    (identity : Option WorkerIdentity) : Except Failure Unit := do
  check (["local_head", "remote_head", "changed_paths"].all fun field => isStr (getField state field))
    (text "invalid " ++ phase ++ text " state: synchronization coordinates are incomplete")
  check (isName (getField state "selected_ticket_id")
      && isStr (getField state "selected_ticket_body"))
    (text "invalid " ++ phase ++ text " state: selected ticket binding is incomplete")
  check (isStr (getField state "control_head"))
    (text "invalid " ++ phase ++ text " state: control revision identity is incomplete")
  validateStage phase state identity
  validateWorkspace state

/-- The checks on `manual_retry_required`. -/
def manualRetryOk (value : Option Json) : Bool :=
  let fields := ["ticket_id", "execution_id", "generation", "request_id"]
  isNone value || (Json.asObj value).any fun marker =>
    hasExactly marker fields && fields.all fun field => isName (getField marker field)

/-- The checks on `accepted_integration`. -/
def validateAcceptedIntegration (phase : Text) (value : Option Json) : Except Failure Unit :=
  unlessNone value fun v => do
    check (phase == text "idle") (text "accepted integration state is only valid while idle")
    check ((Json.asObj (some v)).any fun integration =>
        hasExactly integration ["ticket_id", "checkpoint", "control_head"]
          && isName (getField integration "ticket_id")
          && isGitIdentity (getField integration "checkpoint")
          && isGitIdentity (getField integration "control_head"))
      (text "invalid accepted integration state")

/-- `_validate_state_invariant`, with the text that `_load_state` found as the phase. -/
def validateStateInvariant (equal : Json → Json → Bool) (phase : Text)
    (state : List (Text × Json)) : Except Failure Unit := do
  check (["idle", "merge_pending", "agent_pending", "agent_running"].any fun name =>
    text name == phase) (text "invalid state phase: " ++ phase)
  validateReconciliation (getField state "reconciliation")
  validateFailures (getField state "failed_executions")
  validateAutomaticRetry true (getField state "automatic_retry")
  validateAutomaticRetry false (getField state "last_automatic_retry")
  let identity ← workerIdentityFromValue equal (getField state "worker_identity")
    (getField state "execution_id")
  check (isNone (getField state "execution_interruption_kind")
      || oneOf ["operator_abort", "service_shutdown", "process_loss"]
        (getField state "execution_interruption_kind"))
    (text "invalid execution interruption kind")
  check (manualRetryOk (getField state "manual_retry_required"))
    (text "invalid manual retry marker")
  check (!(phase == text "idle" && identity.isSome))
    (text "invalid idle state: worker identity is still active")
  validateAcceptedIntegration phase (getField state "accepted_integration")
  if phase = text "idle" then return ()
  else if phase = text "merge_pending" then
    check (["local_head", "remote_head", "changed_paths", "control_head"].all fun field =>
        isStr (getField state field))
      (text "invalid merge_pending state: synchronization coordinates are incomplete")
  else validateExecution phase state identity

/-- `_load_state` on what the store holds. -/
def loadState (equal : Json → Json → Bool) (stateFile : Text) (stored : Json) :
    Except Failure (List (Text × Json)) := do
  let invalid := Failure.devlegate (text "invalid state file: " ++ stateFile)
  let state ← orRaise (Json.asObj (some stored)) invalid
  let phase ← orRaise (Json.asStr (getField state "phase")) invalid
  validateStateInvariant equal phase state
  return state

end Checks

/-! ### Reports without surrogates -/

/-- The long report in the claim of a report, if there is one, has UTF-8 octets. -/
def CleanReport (payload : Json) : Prop :=
  ∀ fields claim report, payload = .obj fields →
    getField fields "worker_claim" = some (.obj claim) → getField claim "report" = some (.str report) →
      NoSurrogate report

section Reports

open Wire

variable {payload : Json} {α : Type}

/-- A step of the decoder that needs no octets. -/
abbrev RaisesReportError (x : Except BuildError α) : Prop :=
  RaisesOnly (fun e => e ≠ .unicodeEncodeError) x

theorem raises_orFail {value : Option α} {message : String} :
    RaisesReportError (orFail value message) := by
  cases value with
  | some a => exact .ok
  | none => exact .error (by simp)

theorem raises_ensure {holds : Bool} {message : String} : RaisesReportError (ensure holds message) := by
  cases holds with
  | true => exact .ok
  | false => exact .error (by simp)

theorem raises_readIdentity {fields : List (Text × Json)} : RaisesReportError (readIdentity fields) :=
  .bind raises_orFail fun _ => .bind raises_orFail fun _ => .bind raises_orFail fun _ =>
    .bind raises_orFail fun _ => .bind raises_orFail fun _ => .bind raises_orFail fun _ =>
      .bind raises_orFail fun _ => .bind raises_ensure fun _ => .bind raises_ensure fun _ =>
        .bind raises_orFail fun _ => .ok

theorem raises_readArtifact {fields : List (Text × Json)} {identity : Identity} :
    RaisesReportError (readArtifact fields identity) :=
  .bind raises_orFail fun _ => .bind raises_ensure fun _ => .bind raises_orFail fun _ => .ok

theorem raises_readClaim {value : Option Json} : RaisesReportError (readClaim value) := by
  unfold readClaim
  split
  · exact .ok
  · exact .ok
  · refine .bind ?_ fun _ => .ok
    exact .bind raises_orFail fun _ => .bind raises_ensure fun _ => .bind raises_orFail fun _ =>
      .bind raises_orFail fun _ => .bind raises_orFail fun _ => .bind raises_orFail fun _ =>
        .bind raises_orFail fun _ => .ok

theorem raises_readProcess {fields : List (Text × Json)} : RaisesReportError (readProcess fields) :=
  .bind raises_orFail fun _ => .bind raises_orFail fun _ => .bind raises_orFail fun _ =>
    .bind raises_orFail fun _ => .bind raises_ensure fun _ => .bind raises_readClaim fun _ => .ok

theorem raises_canonicalResult {code : Int} {transport egress : Option Text}
    {claim : Option WorkerClaim} {started : Bool} :
    RaisesReportError (Wire.canonicalResult code transport egress claim started) := by
  intro e h
  unfold Wire.canonicalResult at h
  repeat' split at h
  all_goals cases h
  simp

theorem raises_readResult {fields : List (Text × Json)} {run : RunResult} {reason : Text} :
    RaisesReportError (readResult fields run reason) :=
  .bind raises_ensure fun _ => .bind raises_orFail fun _ => .bind raises_orFail fun _ =>
    .bind raises_orFail fun _ => .bind raises_ensure fun _ => .bind raises_ensure fun _ =>
      .bind raises_canonicalResult fun _ => .bind raises_ensure fun _ =>
        .bind raises_ensure fun _ => .ok

/-- The long report of a decoded claim stands in its value. -/
theorem CleanReport.longReport {fields : List (Text × Json)} {run : RunResult}
    (h : CleanReport (.obj fields)) (hrun : readProcess fields = .ok run) :
    ∀ s ∈ Wire.longReport run.claim, ∀ c ∈ s, isSurrogate c = false := by
  intro s hs
  obtain ⟨claim, hclaim, hreport⟩ := Option.bind_eq_some_iff.mp hs
  have hvalue := (readProcess_eq_ok.mp hrun).claim
  rw [hclaim] at hvalue
  obtain ⟨members, hmembers, -, -, -, -, -, hfield⟩ := hvalue
  rw [hreport] at hfield
  exact h fields members s rfl hmembers hfield

variable [Sha256]

/-- Only a long report with a surrogate makes the decoder raise what is no `ExecutionReportError`. -/
theorem fromDict_raises (h : CleanReport payload) :
    RaisesReportError (ExecutionReport.fromDict payload) := by
  refine .bind_of raises_orFail fun fields hfields => .bind raises_ensure fun _ =>
    .bind raises_ensure fun _ => .bind raises_readIdentity fun ⟨identity, reason⟩ =>
      .bind raises_readArtifact fun ⟨artifact, digest⟩ => .bind_of raises_readProcess fun run hrun =>
        .bind ?_ fun _ => .bind raises_readResult fun _ => .ok
  refine .bind raises_ensure fun _ => .bind ?_ fun _ => raises_ensure
  have hpayload : payload = .obj fields := by
    unfold orFail at hfields
    split at hfields
    · rename_i members hmembers
      cases hfields
      exact Option.some.inj (asObj_eq_some.mp hmembers)
    · cases hfields
  obtain ⟨digest, hdigest⟩ := digestOf_ok_iff.mpr ((hpayload ▸ h).longReport hrun)
  rw [hdigest]
  exact .ok

end Reports

/-! ### What is raised -/

/-- The values that the checks can test: what is looked for in a set has a hash, a worker's identity
    with a containment has its other fields too, and the retained reports have octets. -/
structure Testable (state : List (Text × Json)) : Prop where
  reconciliation : ∀ fields, getField state "reconciliation" = some (.obj fields) →
    ∀ field ∈ ["status", "resolution", "resolution_class"], Json.hashable (getField fields field) = true
  retained : ∀ fields payload, getField state "reconciliation" = some (.obj fields) →
    getField fields "execution_report" = some payload → CleanReport payload
  retries : ∀ field ∈ ["automatic_retry", "last_automatic_retry"], ∀ fields,
    getField state field = some (.obj fields) → Json.hashable (getField fields "status") = true
  identity : ∀ fields, getField state "worker_identity" = some (.obj fields) →
    (getField fields "containment_id").isSome = true →
      ∀ field ∈ identityFields, (getField fields field).isSome = true
  stage : Json.hashable (getField state "execution_stage") = true
  pending : ∀ payload, getField state "pending_execution_report" = some payload → CleanReport payload

/-- A `DevlegateError`. -/
def IsDevlegate (e : Failure) : Prop := ∃ message, e = .devlegate message

section Raised

variable {α : Type} {value : Option Json} {message : Text} {fields state : List (Text × Json)}

/-- A step that raises only `DevlegateError`. -/
abbrev RaisesDevlegate (x : Except Failure α) : Prop := RaisesOnly IsDevlegate x

theorem raises_check {holds : Bool} : RaisesDevlegate (check holds message) := by
  cases holds with
  | true => exact .ok
  | false => exact .error ⟨_, rfl⟩

theorem raises_orRaise {value : Option α} {failure : Failure} (h : IsDevlegate failure) :
    RaisesDevlegate (orRaise value failure) := by
  cases value with
  | some a => exact .ok
  | none => exact .error h

/-- A value that is there is not missed. -/
theorem raises_present {value : Option α} {failure : Failure} (h : value.isSome = true) :
    RaisesDevlegate (orRaise value failure) := by
  obtain ⟨a, rfl⟩ := Option.isSome_iff_exists.mp h
  exact .ok

theorem raises_tested {member : Option Json → Bool} (h : Json.hashable value = true) :
    RaisesDevlegate (tested value member) := by
  unfold tested
  rw [if_pos h]
  exact .ok

theorem raises_unlessNone {checks : Json → Except Failure Unit}
    (h : ∀ v, value = some v → RaisesDevlegate (checks v)) :
    RaisesDevlegate (unlessNone value checks) := by
  unfold unlessNone
  split
  · exact .ok
  · exact .ok
  · exact h _ rfl

theorem raises_whenPresent {checks : Json → Except Failure Unit}
    (h : ∀ v, value = some v → RaisesDevlegate (checks v)) :
    RaisesDevlegate (whenPresent value checks) := by
  cases value with
  | none => exact .ok
  | some v => exact h v rfl

theorem orRaise_eq_ok {value : Option α} {failure : Failure} {a : α} :
    orRaise value failure = .ok a ↔ value = some a := by
  cases value <;> simp [orRaise]

theorem check_eq_ok {holds : Bool} {u : Unit} : check holds message = .ok u ↔ holds = true := by
  cases holds <;> simp [check]

variable [Sha256]

theorem raises_readReport {payload : Json} (h : CleanReport payload) :
    RaisesDevlegate (readReport payload message) := by
  unfold readReport
  split
  · exact .ok
  · exact .error ⟨_, rfl⟩
  · rename_i hunicode
    exact absurd rfl (fromDict_raises h _ hunicode)

theorem raises_validateReconciliation (h : Testable state) :
    RaisesDevlegate (validateReconciliation (getField state "reconciliation")) := by
  refine raises_unlessNone fun v hv => .bind_of (raises_orRaise ⟨_, rfl⟩) fun fields hfields => ?_
  have hobject : getField state "reconciliation" = some (.obj fields) :=
    hv.trans (asObj_eq_some.mp (orRaise_eq_ok.mp hfields))
  have hhash := h.reconciliation fields hobject
  refine .bind (raises_tested (hhash "status" (by simp))) fun _ => .bind raises_check fun _ =>
    .bind raises_check fun _ => .bind raises_check fun _ => ?_
  refine .bind (raises_whenPresent fun resolution hresolution => ?_) fun _ => ?_
  · have hresolutionHash := hhash "resolution" (by simp)
    rw [hresolution] at hresolutionHash
    exact .bind (raises_tested hresolutionHash) fun _ => raises_check
  refine .bind (raises_whenPresent fun resolutionClass hclass => ?_) fun _ => ?_
  · have hclassHash := hhash "resolution_class" (by simp)
    rw [hclass] at hclassHash
    exact .bind (raises_tested hclassHash) fun _ => raises_check
  refine .bind (raises_whenPresent fun _ _ => raises_check) fun _ => ?_
  refine .bind (raises_whenPresent fun _ _ => raises_check) fun _ => ?_
  exact raises_whenPresent fun payload hpayload =>
    .bind (raises_readReport (h.retained fields payload hobject hpayload)) fun _ => raises_check

omit [Sha256] in
theorem raises_validateFailures : RaisesDevlegate (validateFailures value) :=
  raises_whenPresent fun _ _ => raises_check

omit [Sha256] in
theorem raises_validateAutomaticRetry {current : Bool}
    (h : ∀ fields, value = some (.obj fields) → Json.hashable (getField fields "status") = true) :
    RaisesDevlegate (validateAutomaticRetry current value) := by
  refine raises_unlessNone fun v hv => .bind_of (raises_orRaise ⟨_, rfl⟩) fun fields hfields => ?_
  have hobject : value = some (.obj fields) :=
    hv.trans (asObj_eq_some.mp (orRaise_eq_ok.mp hfields))
  exact .bind (raises_tested (h fields hobject)) fun _ => .bind raises_check fun _ =>
    .bind raises_check fun _ => .bind raises_check fun _ => .bind raises_check fun _ =>
      .bind raises_check fun _ => .bind raises_check fun _ => raises_check

omit [Sha256] in
/-- Keys among the required ones and the containment, without a containment, are required ones. -/
theorem onlyFields_identityFields (h : onlyFields fields (identityFields ++ ["containment_id"]) = true)
    (hnone : getField fields "containment_id" = none) : onlyFields fields identityFields = true := by
  unfold onlyFields at h ⊢
  rw [List.all_eq_true] at h ⊢
  intro f hf
  have hknown := h f hf
  rw [List.any_append, Bool.or_eq_true] at hknown
  refine hknown.resolve_right fun hcontainment => ?_
  have hkey : text "containment_id" = f.1 := by simpa using hcontainment
  have hmissing := List.lookup_eq_none_iff.mp hnone f hf
  simp [hkey] at hmissing

omit [Sha256] in
theorem raises_readId {field : String} (h : (getField fields field).isSome = true) :
    RaisesDevlegate (readId fields field) :=
  .bind (raises_present h) fun _ => raises_orRaise ⟨_, rfl⟩

omit [Sha256] in
/-- With all its fields, an identity is read or refused. -/
theorem raises_workerIdentityFromValue {equal : Json → Json → Bool} {executionId : Option Json}
    (h : ∀ fields, value = some (.obj fields) → (getField fields "containment_id").isSome = true →
      ∀ field ∈ identityFields, (getField fields field).isSome = true) :
    RaisesDevlegate (workerIdentityFromValue equal value executionId) := by
  unfold workerIdentityFromValue
  by_cases hnone : isNone value = true
  · rw [if_pos hnone]
    exact .ok
  rw [if_neg hnone]
  refine .bind_of (raises_orRaise ⟨_, rfl⟩) fun fields hfields => .bind_of raises_check fun _ hknown =>
    .bind_of raises_check fun _ hproper => ?_
  have hobject : value = some (.obj fields) := asObj_eq_some.mp (orRaise_eq_ok.mp hfields)
  have hall : ∀ field ∈ identityFields, (getField fields field).isSome = true := by
    cases hcontainment : getField fields "containment_id" with
    | some containment => exact h fields hobject (by rw [hcontainment]; rfl)
    | none =>
      have honly := onlyFields_identityFields (check_eq_ok.mp hknown) hcontainment
      have hcomplete := check_eq_ok.mp hproper
      rw [honly, Bool.true_and, Bool.not_not] at hcomplete
      exact List.all_eq_true.mp hcomplete
  have hid := hall "execution_id" (by simp [identityFields])
  refine .bind (raises_unlessNone fun _ _ => .bind (raises_present hid) fun _ => raises_check)
    fun _ => ?_
  exact .bind (raises_present hid) fun _ => .bind (raises_orRaise ⟨_, rfl⟩) fun _ =>
    .bind (raises_readId (hall "pid" (by simp [identityFields]))) fun _ =>
    .bind (raises_readId (hall "pgid" (by simp [identityFields]))) fun _ =>
    .bind (raises_readId (hall "sid" (by simp [identityFields]))) fun _ =>
    .bind (raises_present (hall "start_time" (by simp [identityFields]))) fun _ =>
    .bind (raises_orRaise ⟨_, rfl⟩) fun _ =>
    .bind (raises_present (hall "boot_id" (by simp [identityFields]))) fun _ =>
    .bind (raises_orRaise ⟨_, rfl⟩) fun _ => .bind raises_check fun _ => .ok

theorem raises_validateStageReport {stage : Text} {pending : Option Json}
    (h : ∀ payload, pending = some payload → CleanReport payload) :
    RaisesDevlegate (validateStageReport stage pending) := by
  have hclean : CleanReport (pending.getD .null) := by
    cases pending with
    | some payload => exact h payload rfl
    | none => exact fun _ _ _ hnull => by cases hnull
  refine .bind (raises_readReport hclean) fun report => ?_
  by_cases hstage : stage = text "checkpointing"
  · rw [if_pos hstage]
    exact raises_check
  · rw [if_neg hstage]
    exact raises_check

theorem raises_validateStage {phase : Text} {identity : Option WorkerIdentity} (h : Testable state) :
    RaisesDevlegate (validateStage phase state identity) := by
  refine .bind (raises_unlessNone fun stage hstage => ?_) fun _ => .bind raises_check fun _ =>
    .bind raises_check fun _ => ?_
  · have hhash := h.stage
    rw [hstage] at hhash
    exact .bind (raises_tested hhash) fun _ => raises_check
  · split
    · exact raises_validateStageReport h.pending
    · exact .ok

theorem raises_validateExecution {phase : Text} {identity : Option WorkerIdentity}
    (h : Testable state) : RaisesDevlegate (validateExecution phase state identity) :=
  .bind raises_check fun _ => .bind raises_check fun _ => .bind raises_check fun _ =>
    .bind (raises_validateStage h) fun _ => .bind raises_check fun _ => raises_check

omit [Sha256] in
theorem raises_validateAcceptedIntegration {phase : Text} :
    RaisesDevlegate (validateAcceptedIntegration phase value) :=
  raises_unlessNone fun _ _ => .bind raises_check fun _ => raises_check

theorem raises_validateStateInvariant {equal : Json → Json → Bool} {phase : Text}
    (h : Testable state) : RaisesDevlegate (validateStateInvariant equal phase state) := by
  refine .bind raises_check fun _ => .bind (raises_validateReconciliation h) fun _ =>
    .bind raises_validateFailures fun _ =>
    .bind (raises_validateAutomaticRetry (h.retries "automatic_retry" (by simp))) fun _ =>
    .bind (raises_validateAutomaticRetry (h.retries "last_automatic_retry" (by simp))) fun _ =>
    .bind (raises_workerIdentityFromValue h.identity) fun identity => .bind raises_check fun _ =>
    .bind raises_check fun _ => .bind raises_check fun _ =>
    .bind raises_validateAcceptedIntegration fun _ => ?_
  split
  · exact .ok
  split
  · exact raises_check
  · exact raises_validateExecution h

end Raised

/-! ### Identities read back -/

/-- An identity that is accepted. -/
structure WorkerIdentity.Valid (identity : WorkerIdentity) : Prop where
  executionId : identity.executionId ≠ []
  pid : 0 < identity.pid
  pgid : 0 < identity.pgid
  sid : 0 < identity.sid
  bootId : identity.bootId ≠ []
  startTime : 0 ≤ identity.startTime

section RoundTrip

variable {equal : Json → Json → Bool} {identity : WorkerIdentity} {executionId : Option Json}

theorem asNonEmpty_str_eq {s t : Text} :
    asNonEmpty (some (.str s)) = some t ↔ s ≠ [] ∧ t = s := by
  by_cases hs : s = []
  · subst hs
    exact iff_of_false (by simp [asNonEmpty, Json.asStr, guard]) fun h => h.1 rfl
  · rw [asNonEmpty_str hs, Option.some.injEq, eq_comm]
    exact (and_iff_right hs).symm

theorem bind_number_eq {n m : Int} {p : Int → Prop} [DecidablePred p] :
    (Json.asInt (some (.int n))).bind (fun n => if p n then some n else none) = some m
      ↔ p n ∧ m = n := by
  show (if p n then some n else none) = some m ↔ _
  by_cases h : p n
  · simp [h, eq_comm]
  · simp [h]

theorem readId_asDict {fields : List (Text × Json)} {field : String} {n m : Int}
    (h : getField fields field = some (.int n)) : readId fields field = .ok m ↔ 0 < n ∧ m = n := by
  unfold readId
  simp only [h, bind_eq_ok, orRaise_eq_ok, Option.some.injEq, exists_eq_left', bind_number_eq]

/-- Only the text itself does not differ from a text. -/
theorem differ_str {id : Text} {other : Json} :
    (!differ equal (.str id) other) = true ↔ other = .str id := by
  cases other with
  | str s =>
    show (!(id != s)) = true ↔ _
    simp only [Bool.not_eq_true', bne_eq_false_iff_eq, Json.str.injEq]
    exact eq_comm
  | null | bool | int | float | arr | obj => simp [differ, Json.asStr]

/-- An execution id agrees with an identity if it is `None` or the identity's own. -/
theorem agrees_iff {id : Text} {u : Unit} :
    unlessNone executionId (fun expected => do
      let actual ← orRaise (some (Json.str id)) .keyError
      check (!differ equal actual expected)
        (text "worker identity does not match execution identity")) = .ok u
      ↔ isNone executionId = true ∨ executionId = some (.str id) := by
  have hcompared : ∀ expected : Json, (do
      let actual ← orRaise (some (Json.str id)) .keyError
      check (!differ equal actual expected)
        (text "worker identity does not match execution identity")) = .ok u
      ↔ expected = .str id := by
    intro expected
    simp only [bind_eq_ok, orRaise_eq_ok, Option.some.injEq, exists_eq_left', check_eq_ok]
    exact differ_str
  cases executionId with
  | none => simp [unlessNone, isNone]
  | some expected =>
    cases expected with
    | null => simp [unlessNone, isNone]
    | bool | int | float | str | arr | obj =>
      rw [unlessNone, hcompared]
      · simp [isNone]
      · exact fun h => by cases h

theorem containmentId_members :
    (isNone (getField identity.members "containment_id")
        || isStr (getField identity.members "containment_id")) = true
      ∧ Json.asStr (getField identity.members "containment_id") = identity.containmentId := by
  have hfield : getField identity.members "containment_id"
      = some ((identity.containmentId.map .str).getD .null) := rfl
  rw [hfield]
  cases identity.containmentId <;> exact ⟨rfl, rfl⟩

/-- **Identities** are read back from their dictionaries, exactly the valid ones that agree with the
    execution's id. -/
theorem workerIdentityFromValue_asDict :
    workerIdentityFromValue equal (some identity.asDict) executionId = .ok (some identity)
      ↔ identity.Valid ∧ (isNone executionId = true ∨ executionId = some (.str identity.executionId)) := by
  have hknown : onlyFields identity.members (identityFields ++ ["containment_id"]) = true := rfl
  have hproper : (!(onlyFields identity.members identityFields
      && !identityFields.all fun field => (getField identity.members field).isSome)) = true := rfl
  have hid : getField identity.members "execution_id" = some (.str identity.executionId) := rfl
  have hpid : getField identity.members "pid" = some (.int identity.pid) := rfl
  have hpgid : getField identity.members "pgid" = some (.int identity.pgid) := rfl
  have hsid : getField identity.members "sid" = some (.int identity.sid) := rfl
  have hstart : getField identity.members "start_time" = some (.int identity.startTime) := rfl
  have hboot : getField identity.members "boot_id" = some (.str identity.bootId) := rfl
  obtain ⟨hcontainment, hcontainmentId⟩ := @containmentId_members identity
  unfold workerIdentityFromValue WorkerIdentity.asDict
  rw [if_neg (by simp [isNone])]
  simp only [bind_eq_ok, orRaise_eq_ok, Json.asObj, Option.some.injEq, exists_eq_left', check_eq_ok,
    hknown, hproper, hid, hstart, hboot, hcontainment, hcontainmentId, readId_asDict hpid,
    readId_asDict hpgid, readId_asDict hsid, asNonEmpty_str_eq, bind_number_eq, true_and]
  constructor
  · rintro ⟨_, _, _, hagrees, id, ⟨hidNonempty, rfl⟩, _, ⟨hpidPos, rfl⟩, _, ⟨hpgidPos, rfl⟩, _,
      ⟨hsidPos, rfl⟩, _, ⟨hstartNonneg, rfl⟩, _, ⟨hbootNonempty, rfl⟩, -⟩
    exact ⟨⟨hidNonempty, hpidPos, hpgidPos, hsidPos, hbootNonempty, hstartNonneg⟩,
      agrees_iff.mp hagrees⟩
  · rintro ⟨hvalid, hagrees⟩
    exact ⟨(), (), (), agrees_iff.mpr hagrees, _, ⟨hvalid.executionId, rfl⟩, _, ⟨hvalid.pid, rfl⟩, _,
      ⟨hvalid.pgid, rfl⟩, _, ⟨hvalid.sid, rfl⟩, _, ⟨hvalid.startTime, rfl⟩, _,
      ⟨hvalid.bootId, rfl⟩, (), rfl⟩

end RoundTrip

/-! ### Accepted executions -/

/-- The ticket, product, control and execution binding of a state. -/
structure ExecutionBound (state : List (Text × Json)) : Prop where
  ticket : isName (getField state "selected_ticket_id") = true
  body : isStr (getField state "selected_ticket_body") = true
  product : ∀ field ∈ ["local_head", "remote_head", "changed_paths"],
    isStr (getField state field) = true
  control : isStr (getField state "control_head") = true
  execution : ∀ field ∈ executionFields, isName (getField state field) = true
  remote : (getField state "execution_remote_head").isSome = true
    ∧ noneOrName (getField state "execution_remote_head") = true

section Accepted

variable [Sha256] {equal : Json → Json → Bool} {phase : Text} {state : List (Text × Json)}
  {identity : Option WorkerIdentity}

omit [Sha256] in
theorem validateWorkspace_bound (h : validateWorkspace state = .ok ()) :
    (∀ field ∈ executionFields, isName (getField state field) = true)
      ∧ (getField state "execution_remote_head").isSome = true
      ∧ noneOrName (getField state "execution_remote_head") = true := by
  obtain ⟨_, hbinding, -⟩ := bind_eq_ok.mp h
  simp only [check_eq_ok, Bool.and_eq_true, List.all_eq_true] at hbinding
  obtain ⟨⟨hpresent, hnames⟩, hremote⟩ := hbinding
  exact ⟨hnames, hpresent _ (by simp), hremote⟩

theorem bound_of_validateExecution (h : validateExecution phase state identity = .ok ()) :
    ExecutionBound state := by
  obtain ⟨_, hproduct, h⟩ := bind_eq_ok.mp h
  obtain ⟨_, hticket, h⟩ := bind_eq_ok.mp h
  obtain ⟨_, hcontrol, h⟩ := bind_eq_ok.mp h
  obtain ⟨_, -, h⟩ := bind_eq_ok.mp h
  simp only [check_eq_ok, Bool.and_eq_true] at hproduct hticket hcontrol
  obtain ⟨hnames, hremote⟩ := validateWorkspace_bound h
  exact ⟨hticket.1, hticket.2, List.all_eq_true.mp hproduct, hcontrol, hnames, hremote⟩

/-- The worker that a running execution's stage asks for. -/
theorem identity_of_validateExecution
    (h : validateExecution (text "agent_running") state identity = .ok ()) :
    (Json.isText (getField state "execution_stage") "worker-running" = true →
        identity.isSome = true)
      ∧ (oneOf stagesWithoutWorker (getField state "execution_stage") = true →
        identity = none) := by
  obtain ⟨_, -, h⟩ := bind_eq_ok.mp h
  obtain ⟨_, -, h⟩ := bind_eq_ok.mp h
  obtain ⟨_, -, h⟩ := bind_eq_ok.mp h
  obtain ⟨_, hstage, -⟩ := bind_eq_ok.mp h
  obtain ⟨_, -, h⟩ := bind_eq_ok.mp hstage
  obtain ⟨_, hrunning, h⟩ := bind_eq_ok.mp h
  obtain ⟨_, hlater, -⟩ := bind_eq_ok.mp h
  simp only [check_eq_ok, beq_self_eq_true, Bool.true_and] at hrunning hlater
  constructor
  · intro hworker
    simpa [hworker] using hrunning
  · intro hother
    simpa [hother] using hlater

/-- An accepted state that is neither idle nor before a merge passed the checks of an execution. -/
theorem execution_of_validateStateInvariant (h : validateStateInvariant equal phase state = .ok ())
    (hidle : phase ≠ text "idle") (hmerge : phase ≠ text "merge_pending") : ∃ identity,
      workerIdentityFromValue equal (getField state "worker_identity") (getField state "execution_id")
          = .ok identity
        ∧ validateExecution phase state identity = .ok () := by
  obtain ⟨_, -, h⟩ := bind_eq_ok.mp h
  obtain ⟨_, -, h⟩ := bind_eq_ok.mp h
  obtain ⟨_, -, h⟩ := bind_eq_ok.mp h
  obtain ⟨_, -, h⟩ := bind_eq_ok.mp h
  obtain ⟨_, -, h⟩ := bind_eq_ok.mp h
  obtain ⟨identity, hidentity, h⟩ := bind_eq_ok.mp h
  obtain ⟨_, -, h⟩ := bind_eq_ok.mp h
  obtain ⟨_, -, h⟩ := bind_eq_ok.mp h
  obtain ⟨_, -, h⟩ := bind_eq_ok.mp h
  obtain ⟨_, -, h⟩ := bind_eq_ok.mp h
  rw [if_neg hidle, if_neg hmerge] at h
  exact ⟨identity, hidentity, h⟩

omit [Sha256] in
/-- Only from `None` no identity is read. -/
theorem isNone_of_workerIdentityFromValue {value executionId : Option Json}
    (h : workerIdentityFromValue equal value executionId = .ok none) : isNone value = true := by
  by_contra hsome
  unfold workerIdentityFromValue at h
  rw [if_neg hsome] at h
  simp only [bind_eq_ok] at h
  obtain ⟨_, -, _, -, _, -, _, -, _, -, _, -, _, -, _, -, _, -, _, -, _, -, _, -, _, -, _, -, h⟩ := h
  cases h

/-- The phase and the checks of a state that is loaded. -/
theorem loadState_eq_ok {stateFile : Text} {stored : Json} :
    loadState equal stateFile stored = .ok state ↔
      stored = .obj state ∧ ∃ phase, getField state "phase" = some (.str phase)
        ∧ validateStateInvariant equal phase state = .ok () := by
  unfold loadState
  simp only [bind_eq_ok, orRaise_eq_ok, asObj_eq_some, asStr_eq_some, Option.some.injEq]
  constructor
  · rintro ⟨fields, hstored, phase, hphase, _, hvalid, h⟩
    cases h
    exact ⟨hstored, phase, hphase, hvalid⟩
  · rintro ⟨hstored, phase, hphase, hvalid⟩
    exact ⟨state, hstored, phase, hphase, (), hvalid, rfl⟩

/-- On testable values only `DevlegateError` is raised. -/
theorem raises_loadState {stateFile : Text} {stored : Json}
    (h : ∀ fields, stored = .obj fields → Testable fields) :
    RaisesDevlegate (loadState equal stateFile stored) := by
  refine .bind_of (raises_orRaise ⟨_, rfl⟩) fun fields hfields =>
    .bind (raises_orRaise ⟨_, rfl⟩) fun phase => ?_
  have hobject := Option.some.inj (asObj_eq_some.mp (orRaise_eq_ok.mp hfields))
  exact .bind (raises_validateStateInvariant (h fields hobject)) fun _ => .ok

end Accepted

/-- What loading a state guarantees. -/
structure Validates [Sha256] (equal : Json → Json → Bool) (stateFile : Text) : Prop where
  /-- A testable value is accepted or refused with a `DevlegateError`. -/
  contained : ∀ stored, (∀ fields, stored = .obj fields → Testable fields) →
    ∀ e, loadState equal stateFile stored = .error e → ∃ message, e = .devlegate message
  /-- An identity is read back from its dictionary. -/
  inverse : ∀ identity executionId,
    workerIdentityFromValue equal (some (WorkerIdentity.asDict identity)) executionId
        = .ok (some identity)
      ↔ identity.Valid ∧ (isNone executionId = true ∨ executionId = some (.str identity.executionId))
  /-- A pending or running execution is bound. -/
  bound : ∀ stored state, loadState equal stateFile stored = .ok state →
    (Json.isText (getField state "phase") "agent_pending" = true
      ∨ Json.isText (getField state "phase") "agent_running" = true) → ExecutionBound state
  /-- A running execution in stage `worker-running` has a worker. -/
  worker : ∀ stored state, loadState equal stateFile stored = .ok state →
    Json.isText (getField state "phase") "agent_running" = true →
    Json.isText (getField state "execution_stage") "worker-running" = true →
      ∃ identity, workerIdentityFromValue equal (getField state "worker_identity")
        (getField state "execution_id") = .ok (some identity)
  /-- A running execution in another named stage has none. -/
  noWorker : ∀ stored state, loadState equal stateFile stored = .ok state →
    Json.isText (getField state "phase") "agent_running" = true →
    oneOf stagesWithoutWorker (getField state "execution_stage") = true →
      isNone (getField state "worker_identity") = true

theorem eq_text_of_isText {value : Option Json} {name : String} {s : Text}
    (h : Json.isText value name = true) (hvalue : value = some (.str s)) : s = text name := by
  subst hvalue
  exact Option.some.inj (beq_iff_eq.mp h)

/-- **Loading a state**, over every JSON value that the store can hold. -/
theorem loadState_validates [Sha256] (equal : Json → Json → Bool) (stateFile : Text) :
    Validates equal stateFile where
  contained _ htestable := raises_loadState htestable
  inverse _ _ := workerIdentityFromValue_asDict
  bound stored state h hphase := by
    obtain ⟨-, phase, hfield, hvalid⟩ := loadState_eq_ok.mp h
    obtain ⟨hidle, hmerge⟩ : phase ≠ text "idle" ∧ phase ≠ text "merge_pending" := by
      rcases hphase with hname | hname <;> rw [eq_text_of_isText hname hfield] <;> decide
    obtain ⟨identity, -, hexecution⟩ := execution_of_validateStateInvariant hvalid hidle hmerge
    exact bound_of_validateExecution hexecution
  worker stored state h hphase hstage := by
    obtain ⟨-, phase, hfield, hvalid⟩ := loadState_eq_ok.mp h
    have hrunning := eq_text_of_isText hphase hfield
    subst hrunning
    obtain ⟨identity, hidentity, hexecution⟩ :=
      execution_of_validateStateInvariant hvalid (by decide) (by decide)
    obtain ⟨worker, rfl⟩ :=
      Option.isSome_iff_exists.mp ((identity_of_validateExecution hexecution).1 hstage)
    exact ⟨worker, hidentity⟩
  noWorker stored state h hphase hstage := by
    obtain ⟨-, phase, hfield, hvalid⟩ := loadState_eq_ok.mp h
    have hrunning := eq_text_of_isText hphase hfield
    subst hrunning
    obtain ⟨identity, hidentity, hexecution⟩ :=
      execution_of_validateStateInvariant hvalid (by decide) (by decide)
    rw [(identity_of_validateExecution hexecution).2 hstage] at hidentity
    exact isNone_of_workerIdentityFromValue hidentity

/-! ### A worker outside the named stages -/

namespace WithoutStage

abbrev sha : Sha256 := ⟨fun _ => ""⟩

def member (name value : String) : Text × Json := (text name, .str (text value))

/-- A running execution with its worker's identity and without a stage. -/
def state : List (Text × Json) :=
  [member "phase" "agent_running", member "local_head" "a", member "remote_head" "a",
    member "changed_paths" "", member "selected_ticket_id" "t1", member "selected_ticket_body" "",
    member "control_head" "c", member "execution_ticket_id" "t1", member "execution_base_head" "a",
    member "execution_control_head" "c", member "execution_branch" "b",
    member "execution_path" "p", member "execution_id" "e1", (text "execution_remote_head", .null),
    (text "worker_identity", WorkerIdentity.asDict ⟨text "e1", 7, 7, 7, text "boot", 1, none⟩)]

theorem accepted :
    (@loadState sha (fun _ _ => false) (text "state") (.obj state)).isOk = true := by
  decide +kernel

/-- An accepted execution has a worker although its stage is not `worker-running`. -/
theorem worker_outside :
    ¬ ∀ stored state, @loadState sha (fun _ _ => false) (text "state") stored = .ok state →
      (Json.isText (getField state "phase") "agent_pending" = true
        ∨ Json.isText (getField state "phase") "agent_running" = true) →
      (isNone (getField state "worker_identity") = false
        ↔ Json.isText (getField state "execution_stage") "worker-running" = true) := by
  intro h
  cases hload : @loadState sha (fun _ _ => false) (text "state") (.obj state) with
  | error e =>
    have hok := accepted
    rw [hload] at hok
    cases hok
  | ok loaded =>
    have hstored := ((@loadState_eq_ok sha _ _ _ _).mp hload).1
    cases hstored
    have hphase : Json.isText (getField state "phase") "agent_running" = true := rfl
    have hworker : isNone (getField state "worker_identity") = false := rfl
    have hstage := (h _ _ hload (.inr hphase)).mp hworker
    exact absurd hstage (by decide)

end WithoutStage

end Stored

end Devlegate
