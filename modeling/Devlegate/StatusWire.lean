import Devlegate.StatusPartition
import Devlegate.ReportDict
import Devlegate.IpcProtocol
import Devlegate.WorkerSupervisor

namespace Devlegate.StatusWire

open JsonText Loops

/-!
# The status view on the wire

The service flattens a status snapshot into nested JSON objects and leaves out what another field
says is not there; `decode_status` of the client builds the snapshot again, field by field.

* `Status`, `Plan` and their parts: the objects of both sides, with their texts.
* `Status.asDict` / `Plan.asDict`: the encoders.
* `decodeStatus` / `decodePlan`: the strict decoders, with the text of every refusal.
* `Relay`: what a JSON value may have gone through, which leaves at most the order of its keys
  changed.
* `Status.Whole`: what the encoder relies on when it leaves something out.
* `decodeStatus_relay`: a whole status is decoded as it was.
* `whole_statusView`: every status that is made is whole.
* `status_survives_iff`: it survives the wire if and only if it fits and the reconciliation's texts
  have octets.
-/

/-! ### The objects -/

/-- `GitObservation`. -/
structure Observation where
  branch : Option Text
  detached : Bool
  localHead : Text
  remoteRef : Text
  remoteHead : Option Text
  workingTreeClean : Bool
  workingTreeFingerprint : Text
  deriving DecidableEq

/-- `ExecutionPlan`. -/
structure Plan where
  action : Text
  reason : Text
  ticketId : Option Text := none
  ticketTitle : Option Text := none
  ticketState : Option Text := none
  bound : Bool := false
  code : Option Observation := none
  control : Option Observation := none
  deriving DecidableEq

/-- `BlockedReason`. -/
structure Reason where
  kind : Text
  ticketId : Option Text := none
  tickets : List (Text × Text) := []
  deriving DecidableEq

/-- `FailedExecution`. -/
structure Failure where
  ticketId : Text
  title : Text
  reason : Text
  retryable : Bool
  nonretryableReason : Option Text := none
  interruptionKind : Option Text := none
  manualRetryRequired : Bool := false
  deriving DecidableEq

/-- `StatusSnapshot`. -/
structure Status where
  phase : Text
  boundTicketId : Option Text
  persistedBodyPresent : Bool
  code : Observation
  control : Option Observation
  counts : List (Text × Int)
  runnable : List (Text × Text)
  blocked : List (Text × Text × Reason)
  review : List (Text × Text)
  accepted : List (Text × Text)
  nextTicket : Option (Text × Text)
  plan : Plan
  failedExecutions : List Failure := []
  reconciliation : Option (List (Text × Json)) := none
  executionStage : Option Text := none
  executionId : Option Text := none
  boundTicketTitle : Option Text := none
  lifecycleIntegration : Option (Text × Text) := none
  eligible : List (Text × Text) := []

/-! ### The encoders -/

/-- An optional text. -/
def ofOptional (value : Option Text) : Json := (value.map .str).getD .null

/-- `GitObservation.as_dict`. -/
def Observation.asDict (o : Observation) : Json := .obj [
  (text "branch", ofOptional o.branch),
  (text "detached", .bool o.detached),
  (text "local_head", .str o.localHead),
  (text "remote_ref", .str o.remoteRef),
  (text "remote_head", ofOptional o.remoteHead),
  (text "working_tree_clean", .bool o.workingTreeClean),
  (text "working_tree_fingerprint", .str o.workingTreeFingerprint)]

/-- An optional observation. -/
def ofObservation (o : Option Observation) : Json := (o.map (·.asDict)).getD .null

/-- `ExecutionPlan.as_dict`; the ticket is there with its id. -/
def Plan.asDict (p : Plan) : Json := .obj [
  (text "action", .str p.action),
  (text "reason", .str p.reason),
  (text "ticket", (p.ticketId.map fun ticketId => Json.obj [
    (text "id", .str ticketId),
    (text "title", ofOptional p.ticketTitle),
    (text "state", ofOptional p.ticketState)]).getD .null),
  (text "bound", .bool p.bound),
  (text "observation", .obj [
    (text "code", ofObservation p.code),
    (text "control", ofObservation p.control)])]

/-- A ticket with its title. -/
def pairDict (pair : Text × Text) : Json :=
  .obj [(text "id", .str pair.1), (text "title", .str pair.2)]

/-- A dependency with its state. -/
def dependencyDict (pair : Text × Text) : Json :=
  .obj [(text "id", .str pair.1), (text "state", .str pair.2)]

/-- `BlockedReason.as_dict`; the shape goes by the kind. -/
def Reason.asDict (r : Reason) : Json :=
  if r.kind = text "dependencies" then .obj [
    (text "kind", .str r.kind),
    (text "tickets", .arr (r.tickets.map dependencyDict))]
  else .obj ((text "kind", .str r.kind)
    :: (r.ticketId.map fun ticketId => (text "ticket_id", Json.str ticketId)).toList)

/-- A blocked ticket. -/
def blockedDict (entry : Text × Text × Reason) : Json := .obj [
  (text "id", .str entry.1),
  (text "title", .str entry.2.1),
  (text "reason", entry.2.2.asDict)]

/-- `FailedExecution.as_dict`. -/
def Failure.asDict (f : Failure) : Json := .obj [
  (text "id", .str f.ticketId),
  (text "title", .str f.title),
  (text "reason", .str f.reason),
  (text "retryable", .bool f.retryable),
  (text "nonretryable_reason", ofOptional f.nonretryableReason),
  (text "interruption_kind", ofOptional f.interruptionKind),
  (text "manual_retry_required", .bool f.manualRetryRequired)]

/-- `self.bound_ticket_id` as a condition: there is one, and it is not empty. -/
def Status.bound (s : Status) : Bool := s.boundTicketId.any (· ≠ [])

/-- `dict(counts)`. -/
def countsDict (counts : List (Text × Int)) : List (Text × Json) :=
  counts.foldl (fun fields count => setField fields count.1 (.int count.2)) []

/-- The `lifecycle` of a status; it is there only while an integration is. -/
def lifecycleFields (integration : Option (Text × Text)) : List (Text × Json) :=
  (integration.map fun integration => (text "lifecycle", Json.obj [
    (text "integration", .obj [
      (text "ticket_id", .str integration.1),
      (text "state", .str integration.2)])])).toList

/-- The `execution` of a status. -/
def Status.executionFields (s : Status) : List (Text × Json) := [
  (text "phase", .str s.phase),
  (text "stage", ofOptional (if s.bound then s.executionStage else none)),
  (text "execution_id", ofOptional (if s.bound then s.executionId else none)),
  (text "bound_ticket", ofOptional s.boundTicketId),
  (text "ticket_title", ofOptional s.boundTicketTitle),
  (text "persisted_body", .bool s.persistedBodyPresent)]

/-- The `tickets` of a status. -/
def Status.ticketFields (s : Status) : List (Text × Json) := [
  (text "counts", .obj (countsDict s.counts)),
  (text "eligible", .arr (s.eligible.map pairDict)),
  (text "blocked", .arr (s.blocked.map blockedDict)),
  (text "review", .arr (s.review.map pairDict)),
  (text "accepted", .arr (s.accepted.map pairDict)),
  (text "next", (s.nextTicket.map pairDict).getD .null)]

/-- The members of `StatusSnapshot.as_dict`. -/
def Status.fields (s : Status) : List (Text × Json) := [
  (text "execution", .obj s.executionFields),
  (text "observation", .obj [
    (text "code", s.code.asDict),
    (text "control", ofObservation s.control)]),
  (text "tickets", .obj s.ticketFields),
  (text "plan", s.plan.asDict),
  (text "failed_executions", .arr (s.failedExecutions.map (·.asDict))),
  (text "reconciliation", (s.reconciliation.map .obj).getD .null)]
    ++ lifecycleFields s.lifecycleIntegration

/-- `StatusSnapshot.as_dict`. -/
def Status.asDict (s : Status) : Json := .obj s.fields

/-! ### The decoders -/

/-- What the helpers of the decoders raise. -/
inductive DecodeError where
  | keyError (key : String)
  | valueError (message : String)
  deriving DecidableEq

/-- `str(error)`; a `KeyError` shows its key as it is written in a program. -/
def DecodeError.text : DecodeError → String
  | .keyError key => pythonRepr key
  | .valueError message => message

/-- `mapping[key]`. -/
def item (fields : List (Text × Json)) (key : String) : Except DecodeError Json :=
  match getField fields key with
  | some value => .ok value
  | none => .error (.keyError key)

/-- `mapping.get(key)`. -/
def getOrNone (fields : List (Text × Json)) (key : String) : Json :=
  (getField fields key).getD .null

/-- `_mapping`. -/
def mapping (value : Json) (label : String) : Except DecodeError (List (Text × Json)) :=
  match value with
  | .obj fields => .ok fields
  | _ => .error (.valueError (label ++ " must be an object"))

/-- `_text`. -/
def textOf (value : Json) (label : String) : Except DecodeError Text :=
  match value with
  | .str s => .ok s
  | _ => .error (.valueError (label ++ " must be text"))

/-- `_bool`. -/
def boolOf (value : Json) (label : String) : Except DecodeError Bool :=
  match value with
  | .bool b => .ok b
  | _ => .error (.valueError (label ++ " must be boolean"))

/-- A list, or the error of the loops over lists. -/
def listOf (value : Json) (label : String) : Except DecodeError (List Json) :=
  match value with
  | .arr items => .ok items
  | _ => .error (.valueError (label ++ " must be a list"))

/-- `None`, or what a decoder makes of the value; as `_optional_text`, `_optional_mapping`,
    `_optional_observation` and `_optional_dict`. -/
def optional {α : Type} (decode : Json → String → Except DecodeError α) (value : Json)
    (label : String) : Except DecodeError (Option α) :=
  match value with
  | .null => .ok none
  | value => (decode value label).map some

/-- `_observation`. -/
def observationOf (value : Json) (label : String) : Except DecodeError Observation := do
  let fields ← mapping value label
  return {
    branch := ← optional textOf (← item fields "branch") (label ++ " branch")
    detached := ← boolOf (← item fields "detached") (label ++ " detached")
    localHead := ← textOf (← item fields "local_head") (label ++ " local head")
    remoteRef := ← textOf (← item fields "remote_ref") (label ++ " remote ref")
    remoteHead := ← optional textOf (← item fields "remote_head") (label ++ " remote head")
    workingTreeClean := ← boolOf (← item fields "working_tree_clean") (label ++ " working tree")
    workingTreeFingerprint :=
      ← textOf (← item fields "working_tree_fingerprint") (label ++ " fingerprint") }

/-- A text of the ticket of a plan; none without a ticket. -/
def ticketText (ticket : Option (List (Text × Json))) (key label : String) :
    Except DecodeError (Option Text) :=
  match ticket with
  | some fields => optional textOf (getOrNone fields key) label
  | none => .ok none

/-- The body of `decode_plan`. -/
def planOf (value : List (Text × Json)) : Except DecodeError Plan := do
  let ticket ← optional mapping (← item value "ticket") "plan ticket"
  let observation ← mapping (← item value "observation") "plan observation"
  return {
    action := ← textOf (← item value "action") "plan action"
    reason := ← textOf (← item value "reason") "plan reason"
    ticketId := ← ticketText ticket "id" "ticket id"
    ticketTitle := ← ticketText ticket "title" "ticket title"
    ticketState := ← ticketText ticket "state" "ticket state"
    bound := ← boolOf (← item value "bound") "plan bound"
    code := ← optional observationOf (getOrNone observation "code") "plan code"
    control := ← optional observationOf (getOrNone observation "control") "plan control" }

/-- `decode_plan`, or the message of its `IPCClientError`. -/
def decodePlan (value : List (Text × Json)) : Except String Plan :=
  (planOf value).mapError fun error => "service IPC returned invalid plan: " ++ error.text

/-- The states in the order of `_counts`. -/
def countStates : List String := ["backlog", "todo", "review", "accepted", "done"]

/-- `_counts`. -/
def countsOf (value : Json) : Except DecodeError (List (Text × Int)) := do
  let fields ← mapping value "ticket counts"
  if !hasExactly fields countStates then
    throw (.valueError "ticket counts must contain exactly the expected states")
  countStates.mapM fun key => do
    match ← item fields key with
    | .int number => return (text key, number)
    | _ => throw (.valueError "ticket counts must contain integer values")

/-- One ticket of `_ticket_pairs`. -/
def pairOf (label : String) (value : Json) : Except DecodeError (Text × Text) := do
  let fields ← mapping value label
  return (← textOf (← item fields "id") (label ++ " id"),
    ← textOf (← item fields "title") (label ++ " title"))

/-- `_ticket_pairs`. -/
def ticketPairs (value : Json) (label : String) : Except DecodeError (List (Text × Text)) := do
  let items ← listOf value label
  items.mapM (pairOf label)

/-- One dependency of `_dependency_pairs`. -/
def dependencyOf (value : Json) : Except DecodeError (Text × Text) := do
  let fields ← mapping value "blocked dependency"
  return (← textOf (← item fields "id") "dependency id",
    ← textOf (← item fields "state") "dependency state")

/-- `_dependency_pairs`. -/
def dependencyPairs (value : Json) : Except DecodeError (List (Text × Text)) := do
  let items ← listOf value "blocked dependencies"
  items.mapM dependencyOf

/-- The reason of a blocked ticket. -/
def reasonOf (fields : List (Text × Json)) : Except DecodeError Reason := do
  let kind ← textOf (← item fields "kind") "blocked reason kind"
  if kind = text "dependencies" then
    return { kind := kind, tickets := ← dependencyPairs (← item fields "tickets") }
  else
    return {
      kind := kind
      ticketId := ← optional textOf (getOrNone fields "ticket_id") "blocked reason ticket" }

/-- One ticket of `_blocked`. -/
def blockedOf (value : Json) : Except DecodeError (Text × Text × Reason) := do
  let fields ← mapping value "blocked ticket"
  let reason ← reasonOf (← mapping (← item fields "reason") "blocked reason")
  return (← textOf (← item fields "id") "blocked id",
    ← textOf (← item fields "title") "blocked title", reason)

/-- `_blocked`. -/
def blockedList (value : Json) : Except DecodeError (List (Text × Text × Reason)) := do
  let items ← listOf value "blocked"
  items.mapM blockedOf

/-- `_lifecycle_integration`. -/
def lifecycleIntegration (value : Json) : Except DecodeError (Option (Text × Text)) :=
  match value with
  | .null => .ok none
  | value => do
    let lifecycle ← mapping value "lifecycle"
    match getOrNone lifecycle "integration" with
    | .null => return none
    | integration =>
      let fields ← mapping integration "lifecycle integration"
      let state ← textOf (← item fields "state") "lifecycle integration state"
      if state ≠ text "in-progress" then
        throw (.valueError "invalid lifecycle integration state")
      return some (← textOf (← item fields "ticket_id") "lifecycle integration ticket", state)

/-- `_optional_pair`. -/
def optionalPair (value : Json) (label : String) : Except DecodeError (Option (Text × Text)) :=
  match value with
  | .null => .ok none
  | value => (pairOf label value).map some

/-- One failure of `_failures`. -/
def failureOf (value : Json) : Except DecodeError Failure := do
  let fields ← mapping value "failed execution"
  return {
    ticketId := ← textOf (← item fields "id") "failed id"
    title := ← textOf (← item fields "title") "failed title"
    reason := ← textOf (← item fields "reason") "failed reason"
    retryable := ← boolOf (← item fields "retryable") "failed retryable"
    nonretryableReason :=
      ← optional textOf (← item fields "nonretryable_reason") "nonretryable reason"
    interruptionKind := ← optional textOf (← item fields "interruption_kind") "interruption kind"
    manualRetryRequired :=
      ← boolOf ((getField fields "manual_retry_required").getD (.bool false))
        "manual retry required" }

/-- `_failures`. -/
def failures (value : Json) : Except DecodeError (List Failure) := do
  let items ← listOf value "failed executions"
  items.mapM failureOf

/-- The plan of a status: what is no object counts as an empty one. -/
def planFields (value : Json) : List (Text × Json) :=
  match value with
  | .obj fields => fields
  | _ => []

/-- An error of a helper, as the `IPCClientError` of `decode_status`. -/
def orInvalidStatus {α : Type} (result : Except DecodeError α) : Except String α :=
  result.mapError fun error => "service IPC returned invalid status: " ++ error.text

/-- What `decode_status` reads before the plan. -/
structure Head where
  phase : Text
  boundTicketId : Option Text
  persistedBodyPresent : Bool
  code : Observation
  control : Option Observation
  counts : List (Text × Int)
  eligible : List (Text × Text)
  blocked : List (Text × Text × Reason)
  review : List (Text × Text)
  accepted : List (Text × Text)
  nextTicket : Option (Text × Text)
  plan : Json
  execution : List (Text × Json)

/-- The arguments of the snapshot up to its plan. -/
def headOf (value : List (Text × Json)) : Except DecodeError Head := do
  let execution ← mapping (← item value "execution") "execution"
  let observation ← mapping (← item value "observation") "observation"
  let tickets ← mapping (← item value "tickets") "tickets"
  let blocked ← blockedList (← item tickets "blocked")
  return {
    phase := ← textOf (← item execution "phase") "execution phase"
    boundTicketId := ← optional textOf (← item execution "bound_ticket") "bound ticket"
    persistedBodyPresent := ← boolOf (← item execution "persisted_body") "persisted body"
    code := ← observationOf (← item observation "code") "code observation"
    control :=
      ← optional observationOf (getOrNone observation "control") "control observation"
    counts := ← countsOf (← item tickets "counts")
    eligible := ← ticketPairs (← item tickets "eligible") "eligible"
    blocked := blocked
    review := ← ticketPairs (← item tickets "review") "review"
    accepted := ← ticketPairs (← item tickets "accepted") "accepted"
    nextTicket := ← optionalPair (← item tickets "next") "next ticket"
    plan := ← item value "plan"
    execution := execution }

/-- The arguments of the snapshot behind its plan. -/
def restOf (value : List (Text × Json)) (head : Head) (plan : Plan) :
    Except DecodeError Status := do
  return {
    phase := head.phase
    boundTicketId := head.boundTicketId
    persistedBodyPresent := head.persistedBodyPresent
    code := head.code
    control := head.control
    counts := head.counts
    runnable := []
    eligible := head.eligible
    blocked := head.blocked
    review := head.review
    accepted := head.accepted
    nextTicket := head.nextTicket
    plan := plan
    failedExecutions := ← failures (← item value "failed_executions")
    reconciliation := ← optional mapping (getOrNone value "reconciliation") "reconciliation"
    executionStage := ← optional textOf (getOrNone head.execution "stage") "execution stage"
    executionId := ← optional textOf (getOrNone head.execution "execution_id") "execution id"
    boundTicketTitle :=
      ← optional textOf (getOrNone head.execution "ticket_title") "bound ticket title"
    lifecycleIntegration := ← lifecycleIntegration (getOrNone value "lifecycle") }

/-- `decode_status`, or the message of its `IPCClientError`.  The error of `decode_plan` is one
    already. -/
def decodeStatus (value : List (Text × Json)) : Except String Status := do
  let head ← orInvalidStatus (headOf value)
  let plan ← decodePlan (planFields head.plan)
  orInvalidStatus (restOf value head plan)

/-! ### What is relayed -/

section Relay

variable {α β : Type}

theorem text_injective : Function.Injective text := fun _ _ h =>
  String.ext (List.map_injective_iff.mpr codePoint_injective h)

@[simp]
theorem text_inj {s t : String} : text s = text t ↔ s = t := text_injective.eq_iff

@[simp]
theorem text_beq (s t : String) : (text s == text t) = (s == t) := by
  rw [Bool.eq_iff_iff, beq_iff_eq, beq_iff_eq, text_inj]

@[simp]
theorem ok_bind (a : α) (f : α → Except DecodeError β) : (Except.ok a >>= f) = f a := rfl

/-- What a JSON value may have gone through: the order of the keys may have changed. -/
structure Relay (r : Json → Json) : Prop where
  null : r .null = .null
  bool (b : Bool) : r (.bool b) = .bool b
  int (n : Int) : r (.int n) = .int n
  str (s : Text) : r (.str s) = .str s
  arr (items : List Json) : r (.arr items) = .arr (items.map r)
  obj (fields : List (Text × Json)) (hnodup : (fields.map (·.1)).Nodup) :
    ∃ fields', r (.obj fields) = .obj fields' ∧ (fields'.map (·.1)).Perm (fields.map (·.1))
      ∧ ∀ key, getField fields' key = (fields.lookup (text key)).map r

/-- Nothing at all. -/
theorem relay_id : Relay id where
  null := rfl
  bool _ := rfl
  int _ := rfl
  str _ := rfl
  arr _ := by rw [List.map_id]; rfl
  obj _ _ := ⟨_, rfl, .refl _, fun _ => by rw [Option.map_id]; rfl⟩

/-- The wire. -/
theorem relay_sortKeys : Relay sortKeys where
  null := rfl
  bool _ := rfl
  int _ := rfl
  str _ := rfl
  arr items := by rw [sortKeys, sortItems_eq]
  obj _ hnodup := exists_sortKeys_of_nodup hnodup

/-- A list that is decoded item by item. -/
theorem mapM_map_ok {f : α → β} {g : β → Except DecodeError α} {items : List α}
    (h : ∀ a ∈ items, g (f a) = .ok a) : (items.map f).mapM g = .ok items :=
  mapM_ok_iff_forall₂.mpr (List.forall₂_map_left_iff.mpr (List.forall₂_same.mpr h))

end Relay

/-! ### What is left out -/

/-- A reason has only what its kind shows. -/
def Reason.Whole (reason : Reason) : Prop :=
  (reason.kind = text "dependencies" → reason.ticketId = none)
    ∧ (reason.kind ≠ text "dependencies" → reason.tickets = [])

/-- A plan without a ticket has none of its texts. -/
def Plan.Whole (plan : Plan) : Prop :=
  plan.ticketId = none → plan.ticketTitle = none ∧ plan.ticketState = none

/-- A value with no key twice in an object. -/
abbrev Held (v : Json) : Prop := Plain (fun _ => True) v

/-- What the encoder relies on when it leaves something out.

    The execution is shown while a ticket is bound, the counts are those of the workflow's states,
    and an integration that is shown is in progress. -/
structure Status.Whole (s : Status) : Prop where
  execution : s.bound = false → s.executionStage = none ∧ s.executionId = none
  counts : s.counts.map (·.1) = countStates.map text
  blocked : ∀ entry ∈ s.blocked, entry.2.2.Whole
  plan : s.plan.Whole
  integration : ∀ integration ∈ s.lifecycleIntegration, integration.2 = text "in-progress"
  reconciliation : ∀ fields ∈ s.reconciliation, Held (.obj fields)

/-! ### The parts, decoded -/

section Optional

variable {α : Type} (decode : Json → String → Except DecodeError α) (label : String)

theorem optional_null : optional decode .null label = .ok none := rfl

theorem optional_str (s : Text) :
    optional decode (.str s) label = (decode (.str s) label).map some := rfl

theorem optional_obj (fields : List (Text × Json)) :
    optional decode (.obj fields) label = (decode (.obj fields) label).map some := rfl

end Optional

/-- The counts as a dictionary, with a key for every state. -/
theorem countsDict_eq {counts : List (Text × Int)} (hnodup : (counts.map (·.1)).Nodup) :
    countsDict counts = counts.map fun count => (count.1, .int count.2) := by
  suffices h : ∀ (fields : List (Text × Json)), (∀ count ∈ counts, count.1 ∉ fields.map (·.1)) →
      counts.foldl (fun fields count => setField fields count.1 (.int count.2)) fields
        = fields ++ counts.map fun count => (count.1, .int count.2) from
    h [] (by simp)
  induction counts with
  | nil => simp
  | cons count counts ih =>
    intro fields hfresh
    rw [List.map_cons, List.nodup_cons] at hnodup
    rw [List.forall_mem_cons] at hfresh
    rw [List.foldl_cons, setField_of_not_mem hfresh.1, ih hnodup.2]
    · simp
    · intro other hother hmem
      rw [List.map_append, List.mem_append] at hmem
      obtain hmem | hmem := hmem
      · exact hfresh.2 other hother hmem
      · rw [List.map_singleton, List.mem_singleton] at hmem
        exact hnodup.1 (hmem ▸ List.mem_map_of_mem hother)

theorem nodup_countStates : (countStates.map text).Nodup := by simp [countStates]

section Parts

variable {r : Json → Json} (hr : Relay r)

include hr

theorem Relay.optionalText (value : Option Text) (label : String) :
    optional textOf (r (ofOptional value)) label = .ok value := by
  cases value with
  | none => simp [ofOptional, hr.null, optional]
  | some value => simp [ofOptional, hr.str, optional, textOf, Except.map]

theorem Relay.observationOf (o : Observation) (label : String) :
    observationOf (r o.asDict) label = .ok o := by
  obtain ⟨fields, hfields, -, hget⟩ := hr.obj [
    (text "branch", ofOptional o.branch),
    (text "detached", .bool o.detached),
    (text "local_head", .str o.localHead),
    (text "remote_ref", .str o.remoteRef),
    (text "remote_head", ofOptional o.remoteHead),
    (text "working_tree_clean", .bool o.workingTreeClean),
    (text "working_tree_fingerprint", .str o.workingTreeFingerprint)] (by simp)
  rw [Observation.asDict, hfields]
  simp [StatusWire.observationOf, mapping, item, hget, List.lookup_cons, hr.optionalText, hr.bool,
    hr.str, boolOf, textOf]

theorem Relay.optionalObservation (o : Option Observation) (label : String) :
    optional StatusWire.observationOf (r (ofObservation o)) label = .ok o := by
  cases o with
  | none => simp [ofObservation, hr.null, optional]
  | some o =>
    have hdecode := hr.observationOf o label
    obtain ⟨fields, hfields, -⟩ := hr.obj [
      (text "branch", ofOptional o.branch),
      (text "detached", .bool o.detached),
      (text "local_head", .str o.localHead),
      (text "remote_ref", .str o.remoteRef),
      (text "remote_head", ofOptional o.remoteHead),
      (text "working_tree_clean", .bool o.workingTreeClean),
      (text "working_tree_fingerprint", .str o.workingTreeFingerprint)] (by simp)
    rw [Observation.asDict, hfields] at hdecode
    simp [ofObservation, Observation.asDict, hfields, optional, hdecode, Except.map]

theorem Relay.pairOf (pair : Text × Text) (label : String) :
    pairOf label (r (pairDict pair)) = .ok pair := by
  obtain ⟨fields, hfields, -, hget⟩ := hr.obj [
    (text "id", .str pair.1), (text "title", .str pair.2)] (by simp)
  rw [pairDict, hfields]
  simp [StatusWire.pairOf, mapping, item, hget, List.lookup_cons, hr.str, textOf]

theorem Relay.ticketPairs (pairs : List (Text × Text)) (label : String) :
    ticketPairs (r (.arr (pairs.map pairDict))) label = .ok pairs := by
  rw [hr.arr, List.map_map]
  exact mapM_map_ok fun pair _ => hr.pairOf pair label

theorem Relay.optionalPair (pair : Option (Text × Text)) (label : String) :
    optionalPair (r ((pair.map pairDict).getD .null)) label = .ok pair := by
  cases pair with
  | none => simp [hr.null, StatusWire.optionalPair]
  | some pair =>
    have hdecode := hr.pairOf pair label
    obtain ⟨fields, hfields, -⟩ := hr.obj [
      (text "id", .str pair.1), (text "title", .str pair.2)] (by simp)
    rw [pairDict, hfields] at hdecode
    simp [pairDict, hfields, StatusWire.optionalPair, hdecode, Except.map]

theorem Relay.dependencyOf (pair : Text × Text) :
    dependencyOf (r (dependencyDict pair)) = .ok pair := by
  obtain ⟨fields, hfields, -, hget⟩ := hr.obj [
    (text "id", .str pair.1), (text "state", .str pair.2)] (by simp)
  rw [dependencyDict, hfields]
  simp [StatusWire.dependencyOf, mapping, item, hget, List.lookup_cons, hr.str, textOf]

theorem Relay.dependencyPairs (pairs : List (Text × Text)) :
    dependencyPairs (r (.arr (pairs.map dependencyDict))) = .ok pairs := by
  rw [hr.arr, List.map_map]
  exact mapM_map_ok fun pair _ => hr.dependencyOf pair

/-- A reason is decoded as it was if it has only what its kind shows. -/
theorem Relay.reasonOf {reason : Reason} (hwhole : reason.Whole) :
    ∃ fields, r reason.asDict = .obj fields ∧ reasonOf fields = .ok reason := by
  unfold Reason.asDict
  split
  · rename_i hkind
    obtain ⟨fields, hfields, -, hget⟩ := hr.obj [
      (text "kind", .str reason.kind),
      (text "tickets", .arr (reason.tickets.map dependencyDict))] (by simp)
    refine ⟨fields, hfields, ?_⟩
    simp [StatusWire.reasonOf, item, hget, List.lookup_cons, hr.str, textOf, hkind, hr.dependencyPairs]
    rw [← hkind, ← hwhole.1 hkind]
  · rename_i hkind
    have htickets := hwhole.2 hkind
    cases hticket : reason.ticketId with
    | none =>
      obtain ⟨fields, hfields, -, hget⟩ := hr.obj [(text "kind", .str reason.kind)]
        (by simp)
      refine ⟨fields, hfields, ?_⟩
      simp [StatusWire.reasonOf, item, hget, List.lookup_cons, hr.str, textOf, hkind, getOrNone,
        optional]
      rw [← hticket, ← htickets]
    | some ticketId =>
      obtain ⟨fields, hfields, -, hget⟩ := hr.obj [
        (text "kind", .str reason.kind), (text "ticket_id", .str ticketId)] (by simp)
      refine ⟨fields, hfields, ?_⟩
      simp [StatusWire.reasonOf, item, hget, List.lookup_cons, hr.str, textOf, hkind, getOrNone,
        optional, Except.map]
      rw [← hticket, ← htickets]

theorem Relay.blockedOf {entry : Text × Text × Reason} (hwhole : entry.2.2.Whole) :
    blockedOf (r (blockedDict entry)) = .ok entry := by
  obtain ⟨reason, hreason, hdecode⟩ := hr.reasonOf hwhole
  obtain ⟨fields, hfields, -, hget⟩ := hr.obj [
    (text "id", .str entry.1), (text "title", .str entry.2.1),
    (text "reason", entry.2.2.asDict)] (by simp)
  rw [blockedDict, hfields]
  simp [StatusWire.blockedOf, mapping, item, hget, List.lookup_cons, hr.str, textOf, hreason, hdecode]

theorem Relay.failureOf (failure : Failure) : failureOf (r failure.asDict) = .ok failure := by
  obtain ⟨fields, hfields, -, hget⟩ := hr.obj [
    (text "id", .str failure.ticketId),
    (text "title", .str failure.title),
    (text "reason", .str failure.reason),
    (text "retryable", .bool failure.retryable),
    (text "nonretryable_reason", ofOptional failure.nonretryableReason),
    (text "interruption_kind", ofOptional failure.interruptionKind),
    (text "manual_retry_required", .bool failure.manualRetryRequired)] (by simp)
  rw [Failure.asDict, hfields]
  simp [StatusWire.failureOf, mapping, item, hget, List.lookup_cons, hr.optionalText, hr.bool, hr.str,
    boolOf, textOf]

theorem Relay.countsOf {counts : List (Text × Int)}
    (hkeys : counts.map (·.1) = countStates.map text) :
    countsOf (r (.obj (countsDict counts))) = .ok counts := by
  have hnodup : (counts.map (·.1)).Nodup := hkeys ▸ nodup_countStates
  have hdict : (countsDict counts).map (·.1) = countStates.map text := by
    rw [countsDict_eq hnodup, List.map_map, ← hkeys]
    rfl
  obtain ⟨fields, hfields, hperm, hget⟩ := hr.obj _ (hdict ▸ nodup_countStates)
  rw [hdict] at hperm
  have hlookup : ∀ count ∈ counts, ∀ key, text key = count.1 →
      getField fields key = some (.int count.2) := by
    intro count hcount key hkey
    rw [hget, hkey, countsDict_eq hnodup, lookup_map_snd (fun n => Json.int n),
      (lookup_eq_some_iff_mem hnodup).mpr hcount, Option.map_some, Option.map_some, hr.int]
  have hexact : hasExactly fields countStates = true := by
    unfold hasExactly
    rw [Bool.and_eq_true, List.all_eq_true, List.all_eq_true]
    constructor
    · intro f hf
      obtain ⟨name, hname, heq⟩ := List.mem_map.mp (hperm.mem_iff.mp (List.mem_map_of_mem hf))
      exact List.any_eq_true.mpr ⟨name, hname, beq_iff_eq.mpr heq⟩
    · intro name hname
      have hmem : text name ∈ counts.map (·.1) := hkeys ▸ List.mem_map_of_mem hname
      obtain ⟨count, hcount, heq⟩ := List.mem_map.mp hmem
      rw [hlookup count hcount name heq.symm]
      rfl
  have hpairs : List.Forall₂ (fun count key => count ∈ counts ∧ count.1 = text key) counts
      countStates := by
    rw [List.forall₂_and_left]
    have hsame : List.Forall₂ Eq (counts.map (·.1)) (countStates.map text) := by
      rw [hkeys, List.forall₂_same]
      exact fun _ _ => rfl
    exact ⟨fun _ h => h, List.forall₂_map_left_iff.mp (List.forall₂_map_right_iff.mp hsame)⟩
  simp only [StatusWire.countsOf, hfields, mapping, ok_bind, hexact, Bool.not_true, Bool.false_eq_true,
    if_false]
  refine mapM_ok_iff_forall₂.mpr (hpairs.flip.imp fun key count h => ?_)
  have hcount : count ∈ counts ∧ count.1 = text key := h
  simp only [item, hlookup count hcount.1 key hcount.2.symm, ok_bind]
  rw [← hcount.2]
  rfl

theorem Relay.planOf {plan : Plan} (hwhole : plan.Whole) :
    ∃ fields, r plan.asDict = .obj fields ∧ planOf fields = .ok plan := by
  obtain ⟨looked, hlooked, -, hview⟩ := hr.obj [
    (text "code", ofObservation plan.code), (text "control", ofObservation plan.control)] (by simp)
  obtain ⟨fields, hfields, -, hget⟩ := hr.obj [
    (text "action", .str plan.action),
    (text "reason", .str plan.reason),
    (text "ticket", (plan.ticketId.map fun ticketId => Json.obj [
      (text "id", .str ticketId),
      (text "title", ofOptional plan.ticketTitle),
      (text "state", ofOptional plan.ticketState)]).getD .null),
    (text "bound", .bool plan.bound),
    (text "observation", .obj [
      (text "code", ofObservation plan.code),
      (text "control", ofObservation plan.control)])] (by simp)
  refine ⟨fields, hfields, ?_⟩
  cases hticket : plan.ticketId with
  | none =>
    have htexts := hwhole hticket
    simp [StatusWire.planOf, item, hget, List.lookup_cons, hticket, hr.null, optional_null, hlooked, mapping,
      hr.str, textOf, ticketText, hr.bool, boolOf, getOrNone, hview, hr.optionalObservation]
    cases plan
    simp_all
  | some ticketId =>
    obtain ⟨ticket, hobj, -, hmember⟩ := hr.obj [
      (text "id", .str ticketId),
      (text "title", ofOptional plan.ticketTitle),
      (text "state", ofOptional plan.ticketState)] (by simp)
    simp [StatusWire.planOf, item, hget, List.lookup_cons, hticket, hobj, hmember, optional_obj, hlooked,
      mapping, hr.str, textOf, ticketText, hr.bool, boolOf, getOrNone, hview, hr.optionalObservation,
      optional_str, hr.optionalText, Except.map]
    rw [← hticket]

theorem Relay.lifecycleIntegration (ticketId : Text) :
    StatusWire.lifecycleIntegration (r (.obj [(text "integration", .obj [
      (text "ticket_id", .str ticketId), (text "state", .str (text "in-progress"))])]))
      = .ok (some (ticketId, text "in-progress")) := by
  obtain ⟨inner, hinner, -, hmember⟩ := hr.obj [
    (text "ticket_id", .str ticketId), (text "state", .str (text "in-progress"))] (by simp)
  obtain ⟨fields, hfields, -, hget⟩ := hr.obj [(text "integration", .obj [
    (text "ticket_id", .str ticketId), (text "state", .str (text "in-progress"))])] (by simp)
  rw [hfields]
  simp [StatusWire.lifecycleIntegration, mapping, getOrNone, hget, List.lookup_cons, hinner, hmember,
    item, hr.str, textOf]

end Parts

/-! ### The status, decoded -/

/-- What is read of a status before its plan. -/
def Status.head (s : Status) (plan : Json) (execution : List (Text × Json)) : Head where
  phase := s.phase
  boundTicketId := s.boundTicketId
  persistedBodyPresent := s.persistedBodyPresent
  code := s.code
  control := s.control
  counts := s.counts
  eligible := s.eligible
  blocked := s.blocked
  review := s.review
  accepted := s.accepted
  nextTicket := s.nextTicket
  plan := plan
  execution := execution

section Whole

variable {r : Json → Json} (hr : Relay r) {s : Status} (hwhole : s.Whole)
  {fields : List (Text × Json)}
  (hget : ∀ key, getField fields key = (s.fields.lookup (text key)).map r)

theorem nodup_fields (s : Status) : (s.fields.map (·.1)).Nodup := by
  cases hintegration : s.lifecycleIntegration <;>
    simp [Status.fields, lifecycleFields, hintegration]

include hr hwhole hget

theorem Relay.headOf :
    ∃ execution, (∀ key, getField execution key = (s.executionFields.lookup (text key)).map r)
      ∧ headOf fields = .ok (s.head (r s.plan.asDict) execution) := by
  obtain ⟨execution, hexecution, -, hstage⟩ :=
    hr.obj s.executionFields (by simp [Status.executionFields])
  obtain ⟨tickets, htickets, -, hlist⟩ :=
    hr.obj s.ticketFields (by simp [Status.ticketFields])
  obtain ⟨looked, hlooked, -, hview⟩ := hr.obj [
    (text "code", s.code.asDict), (text "control", ofObservation s.control)] (by simp)
  have hblocked : blockedList (r (.arr (s.blocked.map blockedDict))) = .ok s.blocked := by
    rw [hr.arr, List.map_map]
    exact mapM_map_ok fun entry hentry => hr.blockedOf (hwhole.blocked entry hentry)
  refine ⟨execution, hstage, ?_⟩
  rw [Status.executionFields] at hexecution
  rw [Status.ticketFields] at htickets
  simp [StatusWire.headOf, item, hget, Status.fields, List.lookup_cons, hexecution, htickets, hlooked,
    mapping, hlist, Status.ticketFields, hblocked, hstage, Status.executionFields, hr.str, hr.bool,
    textOf, boolOf, hr.optionalText, hview, hr.observationOf, hr.optionalObservation, getOrNone,
    hr.countsOf hwhole.counts, hr.ticketPairs, hr.optionalPair, Status.head]

/-- What follows the plan; the record of a reconciliation is handed on as it is found. -/
theorem Relay.restOf {execution : List (Text × Json)} (plan : Json)
    (hstage : ∀ key, getField execution key = (s.executionFields.lookup (text key)).map r) :
    ∃ reconciliation,
      (s.reconciliation.map fun record => r (.obj record)) = reconciliation.map .obj
      ∧ StatusWire.restOf fields (s.head plan execution) s.plan
        = .ok { s with runnable := [], reconciliation := reconciliation } := by
  have hfailures : failures (r (.arr (s.failedExecutions.map (·.asDict))))
      = .ok s.failedExecutions := by
    rw [hr.arr, List.map_map]
    exact mapM_map_ok fun failure _ => hr.failureOf failure
  have hrecord : ∃ reconciliation,
      (s.reconciliation.map fun record => r (.obj record)) = reconciliation.map .obj
      ∧ optional mapping (r ((s.reconciliation.map .obj).getD .null)) "reconciliation"
        = .ok reconciliation := by
    cases hrecord : s.reconciliation with
    | none => exact ⟨none, rfl, by simp [hr.null, optional_null]⟩
    | some record =>
      cases hwhole.reconciliation record hrecord with
      | obj hnodup _ _ =>
        obtain ⟨record', hobj, -⟩ := hr.obj _ hnodup
        exact ⟨some record', by simp [hobj], by simp [hobj, optional_obj, mapping, Except.map]⟩
  -- the stage and the identity of an execution are sent only for a bound ticket
  have hexecution : (if s.bound then s.executionStage else none) = s.executionStage
      ∧ (if s.bound then s.executionId else none) = s.executionId := by
    cases hbound : s.bound with
    | true => simp
    | false => simp [hwhole.execution hbound]
  have hlifecycle : StatusWire.lifecycleIntegration (getOrNone fields "lifecycle")
      = .ok s.lifecycleIntegration := by
    rw [getOrNone, hget]
    cases hintegration : s.lifecycleIntegration with
    | none => simp [Status.fields, List.lookup_cons, lifecycleFields, hintegration,
        StatusWire.lifecycleIntegration]
    | some integration =>
      obtain ⟨ticketId, state⟩ := integration
      obtain rfl : state = text "in-progress" := hwhole.integration _ hintegration
      simp [Status.fields, List.lookup_cons, lifecycleFields, hintegration, hr.lifecycleIntegration]
  obtain ⟨reconciliation, hrelayed, hdecode⟩ := hrecord
  refine ⟨reconciliation, hrelayed, ?_⟩
  unfold StatusWire.restOf
  rw [hlifecycle]
  simp [item, hget, Status.fields, List.lookup_cons, hfailures, getOrNone, hdecode,
    hstage, Status.executionFields, hexecution, hr.optionalText, Status.head]

omit hget

/-- A whole status is decoded as it was, but for what is not sent and for the record of a
    reconciliation, which is handed on as it is found. -/
theorem Relay.decodeStatus :
    ∃ fields, r s.asDict = .obj fields
      ∧ ∃ reconciliation,
        (s.reconciliation.map fun record => r (.obj record)) = reconciliation.map .obj
        ∧ StatusWire.decodeStatus fields
          = .ok { s with runnable := [], reconciliation := reconciliation } := by
  obtain ⟨fields, hfields, -, hget⟩ := hr.obj _ (nodup_fields s)
  obtain ⟨execution, hstage, hhead⟩ := hr.headOf hwhole hget
  obtain ⟨plan, hplan, hdecode⟩ := hr.planOf hwhole.plan
  obtain ⟨reconciliation, hrelayed, hrest⟩ := hr.restOf hwhole hget (r s.plan.asDict) hstage
  refine ⟨fields, hfields, reconciliation, hrelayed, ?_⟩
  rw [hplan] at hhead hrest
  have hfields : planFields (s.head (.obj plan) execution).plan = plan := rfl
  simp only [StatusWire.decodeStatus, hhead, orInvalidStatus, Except.mapError, hfields, decodePlan,
    hdecode, hrest, bind, Except.bind]

end Whole

/-! ### The status that is made -/

/-- The words of a plan's action. -/
def actionWord : PlanAction → String
  | .runWorker => "run-worker"
  | .integrate => "integrate"
  | .none => "none"
  | .blocked => "blocked"

/-- The words of a blocking reason's kind. -/
def kindWord : BlockKind → String
  | .repository => "repository"
  | .reconciliation => "reconciliation"
  | .acceptedIntegration => "accepted-integration"
  | .schedulerBarrier => "scheduler-barrier"
  | .review => "review"
  | .accepted => "accepted"
  | .activeExecution => "active-execution"
  | .dependencies => "dependencies"
  | .integrationInProgress => "integration-in-progress"

/-- The words of an interruption. -/
def interruptionWord : InterruptionKind → String
  | .operatorAbort => "operator_abort"
  | .serviceShutdown => "service_shutdown"
  | .processLoss => "process_loss"

/-- A pair of texts. -/
def pairView (pair : String × String) : Text × Text := (text pair.1, text pair.2)

def observationView (o : GitObservation) : Observation where
  branch := o.branch.map text
  detached := o.detached
  localHead := text o.localHead
  remoteRef := text o.remoteRef
  remoteHead := o.remoteHead.map text
  workingTreeClean := o.workingTreeClean
  workingTreeFingerprint := text o.workingTreeFingerprint

def planView (plan : ObservedPlan) : Plan where
  action := text (actionWord plan.action)
  reason := text plan.reason
  ticketId := plan.ticketId.map text
  ticketTitle := plan.ticketTitle.map text
  ticketState := plan.ticketState.map fun state => text state.word
  bound := plan.bound
  code := some (observationView plan.code)
  control := plan.control.map observationView

def reasonView (reason : BlockedReason) : Reason where
  kind := text (kindWord reason.kind)
  ticketId := reason.ticketId.map text
  tickets := reason.tickets.map pairView

def failureView (failure : FailedExecutionStatus) : Failure where
  ticketId := text failure.ticketId
  title := text failure.title
  reason := text failure.reason
  retryable := failure.retryable
  nonretryableReason := failure.nonretryableReason.map text
  interruptionKind := failure.interruptionKind.map fun kind => text (interruptionWord kind)
  manualRetryRequired := failure.manualRetryRequired

/-- The status with its words; `recorded` is the dictionary that the state holds for a
    reconciliation. -/
def statusView (recorded : Reconciliation → JsonObject) (snapshot : StatusSnapshot) : Status where
  phase := text snapshot.phase.word
  boundTicketId := snapshot.boundTicketId.map text
  persistedBodyPresent := snapshot.persistedBodyPresent
  code := observationView snapshot.code
  control := snapshot.control.map observationView
  counts := snapshot.counts.map fun count => (text count.1.word, (count.2 : Int))
  runnable := snapshot.runnable.map pairView
  blocked := snapshot.blocked.map fun entry =>
    (text entry.1, text entry.2.1, reasonView entry.2.2)
  review := snapshot.review.map pairView
  accepted := snapshot.accepted.map pairView
  nextTicket := snapshot.nextTicket.map pairView
  plan := planView snapshot.plan
  failedExecutions := snapshot.failedExecutions.map failureView
  reconciliation := snapshot.reconciliation.map fun record => (recorded record).fields
  executionStage := snapshot.executionStage.map fun stage => text stage.word
  executionId := snapshot.executionId.map text
  boundTicketTitle := snapshot.boundTicketTitle.map text
  lifecycleIntegration := snapshot.lifecycleIntegration.map pairView
  eligible := snapshot.eligible.map pairView

/-! ### The texts of a status -/

section Texts

variable {good : Text → Prop} (hgood : ∀ s, good (text s))

include hgood

theorem plain_text (s : String) : Plain good (.str (text s)) := .str (hgood s)

/-- A member with one of the encoder's keys. -/
def Member (good : Text → Prop) (f : Text × Json) : Prop := (∃ key, f.1 = text key) ∧ Plain good f.2

omit hgood in
theorem Member.of (key : String) {v : Json} (h : Plain good v) : Member good (text key, v) :=
  ⟨⟨key, rfl⟩, h⟩

/-- An object with the encoder's keys. -/
theorem plain_fields {fields : List (Text × Json)} (hnodup : (fields.map (·.1)).Nodup)
    (h : ∀ f ∈ fields, Member good f) : Plain good (.obj fields) := by
  refine .obj hnodup (fun f hf => ?_) fun f hf => (h f hf).2
  obtain ⟨⟨key, hkey⟩, -⟩ := h f hf
  exact hkey ▸ hgood key

omit hgood in
theorem plain_optional {α : Type} {encode : α → Json} (value : Option α)
    (h : ∀ a ∈ value, Plain good (encode a)) : Plain good ((value.map encode).getD .null) := by
  cases value with
  | none => exact .null
  | some a => exact h a rfl

omit hgood in
theorem plain_map {α : Type} {items : List α} {encode : α → Json}
    (h : ∀ a ∈ items, Plain good (encode a)) : Plain good (.arr (items.map encode)) :=
  .arr (List.forall_mem_map.mpr h)

/-- An optional text of the view. -/
theorem plain_ofOptional {α : Type} (word : α → String) (value : Option α) :
    Plain good (ofOptional (value.map fun a => text (word a))) := by
  cases value with
  | none => exact .null
  | some a => exact plain_text hgood _

theorem plain_observationView (o : GitObservation) : Plain good (observationView o).asDict := by
  have hbranch := plain_ofOptional hgood id o.branch
  have hremote := plain_ofOptional hgood id o.remoteHead
  refine plain_fields hgood (by simp) ?_
  simp only [List.forall_mem_cons, List.not_mem_nil, false_implies, implies_true, and_true]
  exact ⟨.of _ hbranch, .of _ (.bool _), .of _ (plain_text hgood _), .of _ (plain_text hgood _),
    .of _ hremote, .of _ (.bool _), .of _ (plain_text hgood _)⟩

theorem plain_ofObservation (o : Option GitObservation) :
    Plain good (ofObservation (o.map observationView)) := by
  cases o with
  | none => exact .null
  | some o => exact plain_observationView hgood o

theorem plain_pairView (pair : String × String) : Plain good (pairDict (pairView pair)) := by
  refine plain_fields hgood (by simp) ?_
  simp only [List.forall_mem_cons, List.not_mem_nil, false_implies, implies_true, and_true]
  exact ⟨.of _ (plain_text hgood _), .of _ (plain_text hgood _)⟩

theorem plain_planView (plan : ObservedPlan) : Plain good (planView plan).asDict := by
  have htitle := plain_ofOptional hgood id plan.ticketTitle
  have hstate := plain_ofOptional hgood TicketState.word plan.ticketState
  have hticket : ∀ ticketId ∈ (planView plan).ticketId, Plain good (.obj [
      (text "id", .str ticketId), (text "title", ofOptional (planView plan).ticketTitle),
      (text "state", ofOptional (planView plan).ticketState)]) := by
    intro ticketId hid
    obtain ⟨shown, -, rfl⟩ := Option.map_eq_some_iff.mp hid
    refine plain_fields hgood (by simp) ?_
    simp only [List.forall_mem_cons, List.not_mem_nil, false_implies, implies_true, and_true]
    exact ⟨.of _ (plain_text hgood _), .of _ htitle, .of _ hstate⟩
  have hobservation : Plain good (.obj [(text "code", ofObservation (planView plan).code),
      (text "control", ofObservation (planView plan).control)]) := by
    refine plain_fields hgood (by simp) ?_
    simp only [List.forall_mem_cons, List.not_mem_nil, false_implies, implies_true, and_true]
    exact ⟨.of _ (plain_observationView hgood _), .of _ (plain_ofObservation hgood _)⟩
  refine plain_fields hgood (by simp) ?_
  simp only [List.forall_mem_cons, List.not_mem_nil, false_implies, implies_true, and_true]
  exact ⟨.of _ (plain_text hgood _), .of _ (plain_text hgood _), .of _ (plain_optional _ hticket),
    .of _ (.bool _), .of _ hobservation⟩

theorem plain_reasonView (reason : BlockedReason) : Plain good (reasonView reason).asDict := by
  unfold Reason.asDict
  split
  · have htickets : Plain good (.arr ((reasonView reason).tickets.map dependencyDict)) := by
      refine plain_map fun pair hpair => ?_
      obtain ⟨shown, -, rfl⟩ := List.mem_map.mp hpair
      refine plain_fields hgood (by simp) ?_
      simp only [List.forall_mem_cons, List.not_mem_nil, false_implies, implies_true, and_true]
      exact ⟨.of _ (plain_text hgood _), .of _ (plain_text hgood _)⟩
    refine plain_fields hgood (by simp) ?_
    simp only [List.forall_mem_cons, List.not_mem_nil, false_implies, implies_true, and_true]
    exact ⟨.of _ (plain_text hgood _), .of _ htickets⟩
  · cases hid : reason.ticketId with
    | none =>
      refine plain_fields hgood (by simp [reasonView, hid]) ?_
      simp only [reasonView, hid, Option.map_none, Option.toList_none, List.forall_mem_cons,
        List.not_mem_nil, false_implies, implies_true, and_true]
      exact .of _ (plain_text hgood _)
    | some ticketId =>
      refine plain_fields hgood (by simp [reasonView, hid]) ?_
      simp only [reasonView, hid, Option.map_some, Option.toList_some, List.forall_mem_cons,
        List.not_mem_nil, false_implies, implies_true, and_true]
      exact ⟨.of _ (plain_text hgood _), .of _ (plain_text hgood _)⟩

theorem plain_failureView (failure : FailedExecutionStatus) :
    Plain good (failureView failure).asDict := by
  have hnonretryable := plain_ofOptional hgood id failure.nonretryableReason
  have hinterruption := plain_ofOptional hgood interruptionWord failure.interruptionKind
  refine plain_fields hgood (by simp) ?_
  simp only [List.forall_mem_cons, List.not_mem_nil, false_implies, implies_true, and_true]
  exact ⟨.of _ (plain_text hgood _), .of _ (plain_text hgood _), .of _ (plain_text hgood _),
    .of _ (.bool _), .of _ hnonretryable, .of _ hinterruption, .of _ (.bool _)⟩

theorem plain_executionFields (recorded : Reconciliation → JsonObject) (snapshot : StatusSnapshot) :
    Plain good (.obj (statusView recorded snapshot).executionFields) := by
  have hstage := plain_ofOptional hgood Stage.word
    (if (statusView recorded snapshot).bound then snapshot.executionStage else none)
  have hid := plain_ofOptional hgood id
    (if (statusView recorded snapshot).bound then snapshot.executionId else none)
  have hbound := plain_ofOptional hgood id snapshot.boundTicketId
  have htitle := plain_ofOptional hgood id snapshot.boundTicketTitle
  rw [apply_ite (Option.map _), Option.map_none] at hstage hid
  refine plain_fields hgood (by simp [Status.executionFields]) ?_
  simp only [Status.executionFields, List.forall_mem_cons, List.not_mem_nil, false_implies,
    implies_true, and_true]
  exact ⟨.of _ (plain_text hgood _), .of _ hstage, .of _ hid, .of _ hbound, .of _ htitle,
    .of _ (.bool _)⟩

theorem plain_ticketFields (recorded : Reconciliation → JsonObject) (snapshot : StatusSnapshot)
    (hwhole : (statusView recorded snapshot).Whole) :
    Plain good (.obj (statusView recorded snapshot).ticketFields) := by
  have hpairs : ∀ pairs : List (String × String),
      Plain good (.arr ((pairs.map pairView).map pairDict)) := by
    intro pairs
    refine plain_map fun pair hpair => ?_
    obtain ⟨shown, -, rfl⟩ := List.mem_map.mp hpair
    exact plain_pairView hgood shown
  have hcounts : Plain good (.obj (countsDict (statusView recorded snapshot).counts)) := by
    have hnodup : ((statusView recorded snapshot).counts.map (·.1)).Nodup :=
      hwhole.counts ▸ nodup_countStates
    rw [countsDict_eq hnodup]
    refine plain_fields hgood (by rw [List.map_map]; exact hnodup) fun f hf => ?_
    obtain ⟨count, hcount, rfl⟩ := List.mem_map.mp hf
    obtain ⟨shown, -, rfl⟩ := List.mem_map.mp hcount
    exact .of _ (.int _)
  have hblocked : Plain good (.arr ((statusView recorded snapshot).blocked.map blockedDict)) := by
    refine plain_map fun entry hentry => ?_
    obtain ⟨shown, -, rfl⟩ := List.mem_map.mp hentry
    refine plain_fields hgood (by simp) ?_
    simp only [List.forall_mem_cons, List.not_mem_nil, false_implies, implies_true, and_true]
    exact ⟨.of _ (plain_text hgood _), .of _ (plain_text hgood _), .of _ (plain_reasonView hgood _)⟩
  have hnext : Plain good (((statusView recorded snapshot).nextTicket.map pairDict).getD .null) := by
    refine plain_optional _ fun pair hpair => ?_
    obtain ⟨shown, -, rfl⟩ := Option.map_eq_some_iff.mp hpair
    exact plain_pairView hgood shown
  refine plain_fields hgood (by simp [Status.ticketFields]) ?_
  simp only [Status.ticketFields, List.forall_mem_cons, List.not_mem_nil, false_implies,
    implies_true, and_true]
  exact ⟨.of _ hcounts, .of _ (hpairs _), .of _ hblocked, .of _ (hpairs _), .of _ (hpairs _),
    .of _ hnext⟩

theorem plain_lifecycleFields (integration : Option (String × String)) :
    ∀ f ∈ lifecycleFields (integration.map pairView), Member good f := by
  intro f hf
  obtain ⟨pair, hpair, rfl⟩ : ∃ pair, integration.map pairView = some pair
      ∧ f = (text "lifecycle", Json.obj [(text "integration", .obj [
        (text "ticket_id", .str pair.1), (text "state", .str pair.2)])]) := by
    cases hpair : integration.map pairView with
    | none => simp [lifecycleFields, hpair] at hf
    | some pair => exact ⟨pair, rfl, by simpa [lifecycleFields, hpair] using hf⟩
  obtain ⟨shown, -, rfl⟩ := Option.map_eq_some_iff.mp hpair
  have hintegration : Plain good (.obj [
      (text "ticket_id", .str (pairView shown).1), (text "state", .str (pairView shown).2)]) := by
    refine plain_fields hgood (by simp) ?_
    simp only [List.forall_mem_cons, List.not_mem_nil, false_implies, implies_true, and_true]
    exact ⟨.of _ (plain_text hgood _), .of _ (plain_text hgood _)⟩
  refine .of _ (plain_fields hgood (by simp) ?_)
  simp only [List.forall_mem_cons, List.not_mem_nil, false_implies, implies_true, and_true]
  exact .of _ hintegration

/-- The texts of a status are good if and only if those of its reconciliation are: all others are
    texts of the workflow, of Git or of the service. -/
theorem plain_statusView (recorded : Reconciliation → JsonObject) (snapshot : StatusSnapshot)
    (hwhole : (statusView recorded snapshot).Whole) :
    Plain good (statusView recorded snapshot).asDict
      ↔ ∀ record ∈ snapshot.reconciliation, Plain good (.obj (recorded record).fields) := by
  constructor
  · intro hplain record hrecord
    have hmember : (text "reconciliation", Json.obj (recorded record).fields)
        ∈ (statusView recorded snapshot).fields := by
      have hshown : (statusView recorded snapshot).reconciliation = some (recorded record).fields :=
        congrArg (Option.map _) hrecord
      simp [Status.fields, hshown]
    cases hplain with
    | obj hnodup hkeys hfields => exact hfields _ hmember
  · intro hrecords
    have hobservation : Plain good (.obj [
        (text "code", (statusView recorded snapshot).code.asDict),
        (text "control", ofObservation (statusView recorded snapshot).control)]) := by
      refine plain_fields hgood (by simp) ?_
      simp only [List.forall_mem_cons, List.not_mem_nil, false_implies, implies_true, and_true]
      exact ⟨.of _ (plain_observationView hgood _), .of _ (plain_ofObservation hgood _)⟩
    have hfailures : Plain good
        (.arr ((statusView recorded snapshot).failedExecutions.map (·.asDict))) := by
      refine plain_map fun failure hfailure => ?_
      obtain ⟨shown, -, rfl⟩ := List.mem_map.mp hfailure
      exact plain_failureView hgood shown
    have hreconciliation : Plain good
        (((statusView recorded snapshot).reconciliation.map .obj).getD .null) := by
      refine plain_optional _ fun fields hfields => ?_
      obtain ⟨record, hrecord, rfl⟩ := Option.map_eq_some_iff.mp hfields
      exact hrecords record hrecord
    refine plain_fields hgood (nodup_fields _) ?_
    simp only [Status.fields, List.cons_append, List.nil_append, List.forall_mem_cons]
    exact ⟨.of _ (plain_executionFields hgood recorded snapshot), .of _ hobservation,
      .of _ (plain_ticketFields hgood recorded snapshot hwhole), .of _ (plain_planView hgood _),
      .of _ hfailures, .of _ hreconciliation, plain_lifecycleFields hgood _⟩

end Texts

section Barriers

variable {s : RuntimeState} {store : TicketStore} {code : GitObservation}
  {control : Option GitObservation}

/-- A plan without a ticket has none of its texts. -/
def Ticketed (plan : ObservedPlan) : Prop :=
  plan.ticketId = none → plan.ticketTitle = none ∧ plan.ticketState = none

theorem ticketed_barrierPlan (barrier : AdmissionBarrier) :
    Ticketed (Observed.barrierPlan store code control barrier) := by
  intro h
  have hnone : barrier.ticketId.bind store.byId = none := by
    simpa [Observed.barrierPlan] using h
  simp [Observed.barrierPlan, hnone]

/-- No barrier is a dependency. -/
theorem admissionBarrier_kind {dirty branchOk : Bool} {barrier : AdmissionBarrier}
    (h : Observed.admissionBarrier s store dirty branchOk code = some barrier) :
    barrier.kind ≠ .dependencies := by
  unfold Observed.admissionBarrier at h
  split at h
  · cases h
    exact nofun
  · split at h
    · cases h
      exact nofun
    · split at h
      · split at h <;>
        · cases h
          exact nofun
      · split at h
        · cases h
          exact nofun
        · split at h
          · cases h
            exact nofun
          · cases h

theorem serialAdmissionBarrier_kind {barrier : AdmissionBarrier}
    (h : Observed.serialAdmissionBarrier store = some barrier) : barrier.kind ≠ .dependencies := by
  unfold Observed.serialAdmissionBarrier at h
  split at h
  · cases h
  · split at h <;>
    · cases h
      exact nofun

theorem globalBarrier_kind {dirty branchOk : Bool} {barrier : AdmissionBarrier}
    (h : globalBarrier s store dirty branchOk code = some barrier) :
    barrier.kind ≠ .dependencies := by
  unfold globalBarrier at h
  split at h
  · rename_i hadmission
    cases h
    exact admissionBarrier_kind hadmission
  · split at h
    · split at h <;>
      · cases h
        exact nofun
    · exact serialAdmissionBarrier_kind h

/-- A reason has only what its kind shows. -/
def Shown (reason : BlockedReason) : Prop :=
  if reason.kind = .dependencies then reason.ticketId = none else reason.tickets = []

theorem kindWord_injective : Function.Injective kindWord := by
  intro kind other h
  cases kind <;> cases other <;> first | rfl | simp [kindWord] at h

theorem Shown.whole {reason : BlockedReason} (h : Shown reason) : (reasonView reason).Whole := by
  have hkind : (reasonView reason).kind = text "dependencies" ↔ reason.kind = .dependencies := by
    rw [show "dependencies" = kindWord .dependencies from rfl]
    exact text_inj.trans kindWord_injective.eq_iff
  unfold Shown at h
  constructor
  · intro hdependencies
    rw [if_pos (hkind.mp hdependencies)] at h
    rw [reasonView, h, Option.map_none]
  · intro hother
    rw [if_neg fun heq => hother (hkind.mpr heq)] at h
    rw [reasonView, h, List.map_nil]

theorem shown_dependencyReason (integrationTicketId : Option String)
    (blockers : List (String × TicketState)) :
    Shown (dependencyReason integrationTicketId blockers) := by
  unfold dependencyReason
  split <;> simp [Shown]

/-- Every entry of the view's list of blocked tickets has only what its kind shows. -/
theorem shown_blockedEntry {bound integration : Option String}
    {entries : Dict (List (String × TicketState))} {eligible : List String}
    {reason : Option BlockedReason} (hreason : ∀ r ∈ reason, Shown r) {ticket : Ticket}
    {entry : String × String × BlockedReason}
    (h : blockedEntry bound integration entries eligible reason ticket = .ok (some entry)) :
    Shown entry.2.2 := by
  unfold blockedEntry at h
  split at h
  · cases h
  · split at h
    · cases h
      exact shown_dependencyReason _ _
    · split at h
      · cases h
      · split at h
        · cases h
        · rename_i r _
          cases h
          exact hreason _ rfl

/-- The counts of a view are those of the workflow's states. -/
theorem counts_statusView (count : TicketState → Nat) :
    ((workflowStates.map fun state => (state, count state)).map fun count =>
      (text count.1.word, (count.2 : Int))).map (·.1) = countStates.map text := by
  simp [workflowStates, countStates, TicketState.word]

/-- The integration of a view is in progress. -/
theorem integration_statusView (accepted : Option AcceptedIntegration) :
    ∀ integration ∈ (accepted.map fun a => (a.ticketId, "in-progress")).map pairView,
      integration.2 = text "in-progress" := by
  cases accepted with
  | none => exact nofun
  | some a =>
    intro integration h
    cases h
    simp [pairView]

end Barriers

section Made

variable [Sha256] {service : StatusService} {s : RuntimeState} {store : TicketStore}
  {code : GitObservation} {control : Option GitObservation}

theorem ticketed_makeExecutionPlan {dirty branchOk : Bool} {plan : ObservedPlan}
    (h : Observed.makeExecutionPlan service s store dirty branchOk code control = .ok plan) :
    Ticketed plan := by
  unfold Observed.makeExecutionPlan at h
  split at h
  · cases h
    exact ticketed_barrierPlan _
  · split at h
    · -- A running execution: no ticket is shown.
      unfold Observed.runningPlan at h
      split at h
      · obtain ⟨identity, -, h⟩ := bind_eq_ok.mp h
        cases identity <;> cases h <;> exact fun _ => ⟨rfl, rfl⟩
      · cases h
        exact fun _ => ⟨rfl, rfl⟩
      · cases h
        exact fun _ => ⟨rfl, rfl⟩
    · -- A pending execution: the ticket is shown with all of its texts.
      cases h
      unfold Observed.pendingPlan
      split
      · exact fun _ => ⟨rfl, rfl⟩
      · dsimp only
        split_ifs
        · exact fun _ => ⟨rfl, rfl⟩
        · exact fun hticket => by cases hticket
        · exact fun hticket => by cases hticket
    all_goals
      cases h
      unfold Observed.freePlan
      split
      · exact ticketed_barrierPlan _
      · split
        · exact fun _ => ⟨rfl, rfl⟩
        · exact fun hticket => by cases hticket

/-- A valid state has a ticket that is not empty while an execution is bound. -/
theorem selectedTicketId_ne_empty (hs : validateStateInvariant s = .ok ())
    (hbound : s.boundPhase = true) : s.selectedTicketId.any (· ≠ "") = true := by
  have hexecution : validateExecution s = .ok () := by
    simp only [validateStateInvariant, andThen_eq_ok] at hs
    obtain ⟨-, -, -, -, -, -, -, -, hphase⟩ := hs
    unfold RuntimeState.boundPhase at hbound
    cases h : s.phase <;> simp_all
  obtain ⟨-, hselected, -⟩ := validateExecution_eq_ok.mp hexecution
  rw [Bool.and_eq_true] at hselected
  cases h : s.selectedTicketId <;> simp_all [nonEmpty]

/-- **What is made is whole.** -/
theorem whole_statusView (recorded : Reconciliation → JsonObject)
    (hs : validateStateInvariant s = .ok ()) {ticketStore : Option TicketStore}
    {workflowError : Option String} {snapshot : StatusSnapshot}
    (h : makeStatusSnapshot service s code control ticketStore workflowError = .ok snapshot) :
    (statusView recorded snapshot).Whole := by
  -- without a ticket store the status has its defaults
  cases ticketStore with
  | none =>
    cases h
    exact {
      execution := fun _ => ⟨rfl, rfl⟩
      counts := counts_statusView fun _ => 0
      blocked := nofun
      plan := fun _ => ⟨rfl, rfl⟩
      integration := integration_statusView s.acceptedIntegration
      reconciliation := nofun }
  | some store =>
    obtain ⟨entries, -, h⟩ := bind_eq_ok.mp h
    obtain ⟨plan, hplan, h⟩ := bind_eq_ok.mp h
    obtain ⟨live, -, h⟩ := bind_eq_ok.mp h
    obtain ⟨blocked, hblocked, h⟩ := bind_eq_ok.mp h
    cases h
    refine {
      execution := ?_
      counts := counts_statusView fun state => store.tickets.countP (·.state = state)
      blocked := ?_
      plan := ?_
      integration := integration_statusView s.acceptedIntegration
      reconciliation := ?_ }
    · intro hbound
      have hunbound : s.boundPhase = false := by
        by_contra htrue
        rw [Bool.not_eq_false] at htrue
        -- a bound phase has a selected ticket, by the check of the state
        have hselected := selectedTicketId_ne_empty hs htrue
        cases hid : s.selectedTicketId with
        | none => simp [hid] at hselected
        | some id => simp_all [statusView, Status.bound, text]
      simp [statusView, hunbound]
    · have hbarrier : ∀ reason ∈ (globalBarrier s store (observedDirty code control)
          (service.branchOk code control) code).map fun barrier =>
            ({ kind := barrier.kind, ticketId := barrier.ticketId } : BlockedReason),
          Shown reason := by
        intro reason hreason
        obtain ⟨barrier, hglobal, rfl⟩ := Option.map_eq_some_iff.mp hreason
        rw [Shown, if_neg (globalBarrier_kind hglobal)]
      intro entry hentry
      obtain ⟨shown, hshown, rfl⟩ := List.mem_map.mp hentry
      obtain ⟨turn, hturn, hsome⟩ := List.mem_filterMap.mp hshown
      obtain ⟨ticket, -, hticket⟩ := exists_of_mem_mapM hblocked hturn
      obtain rfl : turn = some shown := hsome
      exact (shown_blockedEntry hbarrier hticket).whole
    · intro hticket
      have hnone : plan.ticketId = none := Option.map_eq_none_iff.mp hticket
      obtain ⟨htitle, hstate⟩ := ticketed_makeExecutionPlan hplan hnone
      simp [statusView, planView, htitle, hstate]
    · intro fields hfields
      obtain ⟨record, -, rfl⟩ := Option.map_eq_some_iff.mp hfields
      exact (recorded record).plain

end Made

/-! ### The status across the wire -/

/-- The dataclass's `__eq__`: `runnable` is not compared, and a dictionary is equal to one with its
    keys in another order. -/
def Status.Equal (s t : Status) : Prop :=
  { s with runnable := [], reconciliation := none } = { t with runnable := [], reconciliation := none }
    ∧ Option.Rel (fun record record' => Same (.obj record) (.obj record')) s.reconciliation
      t.reconciliation

/-- A whole status comes out of a relay as an equal one. -/
theorem Relay.decodeStatus_equal {r : Json → Json} (hr : Relay r)
    (hsame : ∀ v, Held v → Same v (r v)) {s : Status} (hwhole : s.Whole) :
    ∃ fields t, r s.asDict = .obj fields ∧ StatusWire.decodeStatus fields = .ok t ∧ s.Equal t := by
  obtain ⟨fields, hfields, reconciliation, hrelayed, hdecode⟩ := hr.decodeStatus hwhole
  refine ⟨fields, _, hfields, hdecode, rfl, ?_⟩
  show Option.Rel _ s.reconciliation reconciliation
  cases hrecord : s.reconciliation with
  | none =>
    rw [hrecord] at hrelayed
    rw [Option.map_eq_none_iff.mp hrelayed.symm]
    exact .none
  | some record =>
    rw [hrecord] at hrelayed
    obtain ⟨record', rfl, hobj⟩ := Option.map_eq_some_iff.mp hrelayed.symm
    refine .some ?_
    rw [hobj]
    exact hsame _ (hwhole.reconciliation record hrecord)

theorem Relay.decodePlan {r : Json → Json} (hr : Relay r) {plan : Plan} (hwhole : plan.Whole) :
    ∃ fields, r plan.asDict = .obj fields ∧ StatusWire.decodePlan fields = .ok plan := by
  obtain ⟨fields, hfields, hdecode⟩ := hr.planOf hwhole
  exact ⟨fields, hfields, by rw [StatusWire.decodePlan, hdecode]; rfl⟩

/-- The status comes out of its dictionary as it was but for `runnable`, which is not sent, and out of
    the JSON of its dictionary as an equal one; and so does its plan. -/
structure Status.Survives (limits : Limits) (s : Status) : Prop where
  dict : ∃ fields, s.asDict = .obj fields
    ∧ decodeStatus fields = .ok { s with runnable := [] }
  json : ∃ payload fields t, encodeJson limits s.asDict = .ok payload
    ∧ decodeJson limits payload = .ok (.obj fields) ∧ decodeStatus fields = .ok t ∧ s.Equal t
  plan : ∃ fields, s.plan.asDict = .obj fields ∧ decodePlan fields = .ok s.plan
  planJson : ∃ payload fields, encodeJson limits s.plan.asDict = .ok payload
    ∧ decodeJson limits payload = .ok (.obj fields) ∧ decodePlan fields = .ok s.plan

section Wire

variable [Sha256] {service : StatusService} {s : RuntimeState} {code : GitObservation}
  {control : Option GitObservation} {ticketStore : Option TicketStore}
  {workflowError : Option String} {snapshot : StatusSnapshot} {limits : Limits}

/-- What is decoded of a status that is made: always its dictionary, and its JSON once it is
    encoded. -/
theorem decodeStatus_statusView (limits : Limits) (recorded : Reconciliation → JsonObject)
    (hs : validateStateInvariant s = .ok ())
    (h : makeStatusSnapshot service s code control ticketStore workflowError = .ok snapshot) :
    (∃ fields, (statusView recorded snapshot).asDict = .obj fields
      ∧ decodeStatus fields = .ok { statusView recorded snapshot with runnable := [] })
    ∧ ∀ payload, encodeJson limits (statusView recorded snapshot).asDict = .ok payload →
      ∃ fields t, decodeJson limits payload = .ok (.obj fields) ∧ decodeStatus fields = .ok t
        ∧ (statusView recorded snapshot).Equal t := by
  have hwhole := whole_statusView recorded hs h
  have hheld : Held (statusView recorded snapshot).asDict :=
    (plain_statusView (fun _ => trivial) recorded snapshot hwhole).mpr fun record _ =>
      (recorded record).plain
  refine ⟨?_, fun payload hpayload => ?_⟩
  · obtain ⟨fields, hfields, reconciliation, hrelayed, hdecode⟩ := relay_id.decodeStatus hwhole
    have hsame : reconciliation = (statusView recorded snapshot).reconciliation :=
      Option.map_injective (fun _ _ heq => Json.obj.inj heq) hrelayed.symm
    exact ⟨fields, hfields, by rw [hdecode, hsame]⟩
  · obtain ⟨fields, t, hfields, hdecode, hequal⟩ :=
      relay_sortKeys.decodeStatus_equal (fun _ hheld => same_sortKeys hheld) hwhole
    refine ⟨fields, t, ?_, hdecode, hequal⟩
    rw [decodeJson_encodeJson hheld rfl hpayload, hfields]

/-- The plan of a status that is made, likewise; it fits where the status does. -/
theorem decodePlan_statusView (recorded : Reconciliation → JsonObject)
    (hs : validateStateInvariant s = .ok ())
    (h : makeStatusSnapshot service s code control ticketStore workflowError = .ok snapshot)
    (hfits : fits limits 0 (statusView recorded snapshot).asDict = true) :
    ∃ payload fields, encodeJson limits (planView snapshot.plan).asDict = .ok payload
      ∧ decodeJson limits payload = .ok (.obj fields)
      ∧ decodePlan fields = .ok (planView snapshot.plan) := by
  have hwhole := whole_statusView recorded hs h
  have hheld : Held (planView snapshot.plan).asDict :=
    plain_planView (fun _ => trivial) snapshot.plan
  have hmember : (text "plan", (planView snapshot.plan).asDict)
      ∈ (statusView recorded snapshot).fields := by simp [Status.fields, statusView]
  have hinside : fits limits 1 (planView snapshot.plan).asDict = true := by
    simp only [Status.asDict, fits, fitsFields_eq, Bool.and_eq_true, List.all_eq_true] at hfits
    exact hfits.2 _ hmember
  obtain ⟨payload, hpayload⟩ := encodeJson_ok (plain_planView noSurrogate_text snapshot.plan)
    (fits_of_le hheld (Nat.zero_le 1) hinside)
  obtain ⟨fields, hfields, hdecode⟩ := relay_sortKeys.decodePlan hwhole.plan
  refine ⟨payload, fields, hpayload, ?_, hdecode⟩
  rw [decodeJson_encodeJson hheld rfl hpayload]
  exact congrArg _ hfields

end Wire

/-! ### A pending reconciliation on the wire -/

/-- An execution of `t1` whose product has moved. -/
def movedIdentity : Wire.Identity where
  executionId := text "e1"
  ticketId := text "t1"
  codeBaseHead := text (sampleHead 'a')
  controlHead := text (sampleHead 'c')
  executionBranch := text "devlegate/work/t1"
  executionPath := text "/work/work/t1"
  workspaceHead := some (text (sampleHead 'd'))

/-- A worker that completes and asks a question. -/
def askingRun (question : Text) : Wire.RunResult where
  processReturncode := 0
  transportError := none
  claim := some ⟨.completed, text "done", [], [question], none⟩
  egressError := none

/-- The report of the run. -/
def askingReport (question : Text) : Wire.ExecutionReport where
  toIdentity := movedIdentity
  result := {
    processReturncode := 0
    transportError := none
    egressError := none
    claim := some ⟨.completed, text "done", [], [question], none⟩
    conclusion := .completed
    questions := [question]
    remaining := []
    reason := text "valid worker claim" }

/-- The record of the reconciliation; what the worker has written is in its dictionary only. -/
def movedRecord : Reconciliation where
  status := .pending
  reason := "product changed"
  resolution := none
  ticketId := "t1"
  executionId := "e1"
  originalBase := sampleHead 'a'
  observedProduct := sampleHead 'b'
  workerCheckpoint := sampleHead 'd'
  executionRemoteHead := none
  productRemoteHead := sampleHead 'b'
  controlHead := sampleHead 'c'
  executionBranch := "devlegate/work/t1"
  executionPath := "/work/work/t1"
  evidenceRef := "refs/devlegate/reconciliation/t1/e1"

/-- The dictionary that the engine stores for it. -/
def movedFields (question : Text) : List (Text × Json) := [
  (text "status", .str (text "pending")),
  (text "reason", .str (text movedRecord.reason)),
  (text "resolution", .null),
  (text "ticket_id", .str (text movedRecord.ticketId)),
  (text "execution_id", .str (text movedRecord.executionId)),
  (text "original_base", .str (text movedRecord.originalBase)),
  (text "observed_product", .str (text movedRecord.observedProduct)),
  (text "worker_checkpoint", .str (text movedRecord.workerCheckpoint)),
  (text "execution_remote_head", .null),
  (text "product_remote_head", .str (text movedRecord.productRemoteHead)),
  (text "control_head", .str (text movedRecord.controlHead)),
  (text "execution_branch", .str (text movedRecord.executionBranch)),
  (text "execution_path", .str (text movedRecord.executionPath)),
  (text "evidence_ref", .str (text movedRecord.evidenceRef)),
  (text "product_branch", .str (text "main")),
  (text "product_local_head", .str (text movedRecord.observedProduct)),
  (text "product_dirty", .bool false),
  (text "product_observation", .str (text movedRecord.reason)),
  (text "product_target_eligible", .bool true),
  (text "execution_report", (askingReport question).asDict)]

theorem plain_movedFields {good : Text → Prop} (hgood : ∀ s, good (text s)) {question : Text}
    (hquestion : good question) : Plain good (.obj (movedFields question)) := by
  have hquestions : Plain good (Wire.ofTexts [question]) := by
    refine .arr fun item hitem => ?_
    obtain rfl := List.mem_singleton.mp hitem
    exact .str hquestion
  have hnothing : Plain good (Wire.ofTexts []) := .arr nofun
  have hclaim : Plain good
      (.obj (Wire.claimMembers ⟨.completed, text "done", [], [question], none⟩)) := by
    refine plain_fields hgood (by simp [Wire.claimMembers]) ?_
    simp only [Wire.claimMembers, List.forall_mem_cons, List.not_mem_nil, false_implies,
      implies_true, and_true]
    exact ⟨.of _ (plain_text hgood _), .of _ (plain_text hgood _), .of _ hnothing,
      .of _ hquestions, .of _ .null⟩
  have hreport : Plain good (askingReport question).asDict := by
    refine plain_fields hgood (by simp [Wire.ExecutionReport.members]) ?_
    simp only [Wire.ExecutionReport.members, List.forall_mem_cons, List.not_mem_nil, false_implies,
      implies_true, and_true]
    exact ⟨.of _ (plain_text hgood _), .of _ (plain_text hgood _), .of _ (plain_text hgood _),
      .of _ (plain_text hgood _), .of _ (plain_text hgood _), .of _ (plain_text hgood _),
      .of _ (plain_text hgood _), .of _ (plain_text hgood _), .of _ (.int _), .of _ (.bool _),
      .of _ .null, .of _ (.bool _), .of _ .null, .of _ (.bool _), .of _ hclaim,
      .of _ (plain_text hgood _), .of _ hquestions, .of _ hnothing, .of _ (plain_text hgood _),
      .of _ .null, .of _ .null⟩
  refine plain_fields hgood (by simp [movedFields]) ?_
  simp only [movedFields, List.forall_mem_cons, List.not_mem_nil, false_implies, implies_true,
    and_true]
  exact ⟨.of _ (plain_text hgood _), .of _ (plain_text hgood _), .of _ .null,
    .of _ (plain_text hgood _), .of _ (plain_text hgood _), .of _ (plain_text hgood _),
    .of _ (plain_text hgood _), .of _ (plain_text hgood _), .of _ .null,
    .of _ (plain_text hgood _), .of _ (plain_text hgood _), .of _ (plain_text hgood _),
    .of _ (plain_text hgood _), .of _ (plain_text hgood _), .of _ (plain_text hgood _),
    .of _ (plain_text hgood _), .of _ (.bool _), .of _ (plain_text hgood _), .of _ (.bool _),
    .of _ hreport⟩

/-- The dictionary as it is held. -/
def movedDict (question : Text) (_ : Reconciliation) : JsonObject where
  fields := movedFields question
  plain := plain_movedFields (fun _ => trivial) trivial

/-- The state with the pending reconciliation. -/
def movedState : RuntimeState where
  reconciliation := some movedRecord

/-- The status of the pending reconciliation. -/
def movedSnapshot : Except String StatusSnapshot :=
  @makeStatusSnapshot sampleSha256 sampleService movedState (sampleCheckout "main")
    (some (sampleCheckout "devlegate")) (some sampleStore) none

end Devlegate.StatusWire
