import Devlegate.IpcProtocol
import Devlegate.Lib.JsonTexts
import Devlegate.WorkerSupervisor

namespace Devlegate

open JsonText

/-!
# The handler of one IPC connection

`ipc_server`: the methods a request can name with the checks of their payloads, and the loop of
`_serve_connection` with the exceptions of reading, parsing, dispatching, encoding and sending.

* `dispatchRequest`: the call of the engine a request stands for, or the error it is refused with.
* `Connection`, `turn`, `serve`: the handler's frames, events and responses over its turns.
* `Orderly`: no exception has left the handler, every admitted frame has its response or the
  connection is closed, and every event is removed and set.
* `Answerable`: what a turn's response can be encoded from.
* `serve_orderly_iff`: a connection is orderly as long as its turns are answerable, and not after
  one that is not: an id with a surrogate can be parsed but not written.
-/

/-! ### Errors -/

/-- An `IPCProtocolError` whose texts can hold parts of a request. -/
structure WireError where
  code : Text
  message : Text
  fatal : Bool := false

def IPCProtocolError.wire (e : IPCProtocolError) : WireError := ⟨text e.code, text e.message, e.fatal⟩

def unknownMethod (request : IPCRequest) : WireError where
  code := text "unknown_method"
  message := text "unsupported method: " ++ request.method

def refusal (message : Text) : WireError where
  code := text "invalid_request"
  message := message

/-! ### Dispatch -/

namespace IpcServer

/-- What a request asks of the engine, or of the service's lifecycle. -/
inductive EngineCall where
  | lifecycle (method requestId : Text) (force : Bool)
  | submitRetry (ticketId : Text) (force : Bool) (requestId : Text)
  | submitDrop (ticketId executionId requestId : Text)
  | submitRecover (ticketId executionId observedHead requestId : Text)
  | submitReconcileUpdateBase (ticketId : Text) (onto : Option Text) (rewritePublished : Bool)
      (requestId : Text)
  | submitReconcileResume (ticketId requestId : Text)
  | submitReconcileAuto (ticketId : Text) (onto : Option Text) (requestId : Text)
  | submitReconcileControl (fromHead toHead requestId : Text)
  | serviceIdentity
  | publishedStatus
  | publishedPlan
  | publishedRetryCandidates
  | publishedDropCandidates

/-- `fields.get(name, False)`, if it is a flag. -/
def flagField (fields : List (Text × Json)) (name : String) : Option Bool :=
  match getField fields name with
  | none => some false
  | value => Json.asBool value

/-- `fields.get("onto")`, if it is `None` or non-empty text. -/
def ontoField (fields : List (Text × Json)) : Option (Option Text) :=
  match getField fields "onto" with
  | none | some .null => some none
  | value => (asNonEmpty value).map some

/-- A check of the payload. -/
def require (holds : Bool) (message : Text) : Except WireError Unit :=
  if holds then .ok () else .error (refusal message)

/-- A field of the payload in its checked form. -/
def requireSome {α : Type} (value : Option α) (message : Text) : Except WireError α :=
  match value with
  | some a => .ok a
  | none => .error (refusal message)

/-- `stop` and `restart`. -/
def dispatchLifecycle (hasLifecycle : Bool) (request : IPCRequest) : Except WireError EngineCall := do
  require (onlyFields request.payload ["force"])
    (request.method ++ text " payload fields are invalid")
  if !hasLifecycle then throw (unknownMethod request)
  let force ← requireSome (flagField request.payload "force")
    (request.method ++ text " force must be boolean")
  return .lifecycle request.method request.requestId force

def dispatchRetry (request : IPCRequest) : Except WireError EngineCall := do
  require (onlyFields request.payload ["ticket_id", "force"]
      && (getField request.payload "ticket_id").isSome)
    (text "retry payload fields are invalid")
  let ticketId ← requireSome (asNonEmpty (getField request.payload "ticket_id"))
    (text "retry ticket_id must be non-empty text")
  let force ← requireSome (flagField request.payload "force") (text "retry force must be boolean")
  return .submitRetry ticketId force request.requestId

def dispatchDrop (request : IPCRequest) : Except WireError EngineCall := do
  require (hasExactly request.payload ["ticket_id", "execution_id"])
    (text "drop payload fields are invalid")
  let ticketId ← requireSome (asNonEmpty (getField request.payload "ticket_id"))
    (text "drop ticket_id must be non-empty text")
  let executionId ← requireSome (asNonEmpty (getField request.payload "execution_id"))
    (text "drop execution_id must be non-empty text")
  return .submitDrop ticketId executionId request.requestId

def dispatchRecover (request : IPCRequest) : Except WireError EngineCall := do
  require (hasExactly request.payload ["ticket_id", "execution_id", "observed_head"])
    (text "recover payload fields are invalid")
  let identity (name : String) := requireSome (asNonEmpty (getField request.payload name))
    (text "recover identity fields must be non-empty text")
  let ticketId ← identity "ticket_id"
  let executionId ← identity "execution_id"
  let observedHead ← identity "observed_head"
  return .submitRecover ticketId executionId observedHead request.requestId

def dispatchUpdateBase (request : IPCRequest) : Except WireError EngineCall := do
  require (hasExactly request.payload ["ticket_id"]
      || hasExactly request.payload ["ticket_id", "onto"]
      || hasExactly request.payload ["ticket_id", "rewrite_published"]
      || hasExactly request.payload ["ticket_id", "onto", "rewrite_published"])
    (text "reconciliation payload fields are invalid")
  let ticketId ← requireSome (asNonEmpty (getField request.payload "ticket_id"))
    (text "reconciliation ticket_id must be non-empty text")
  let onto ← requireSome (ontoField request.payload)
    (text "reconciliation onto must be non-empty text")
  let rewritePublished ← requireSome (flagField request.payload "rewrite_published")
    (text "reconciliation rewrite_published must be boolean")
  return .submitReconcileUpdateBase ticketId onto rewritePublished request.requestId

def dispatchResume (request : IPCRequest) : Except WireError EngineCall := do
  require (hasExactly request.payload ["ticket_id"])
    (text "reconciliation resume payload fields are invalid")
  let ticketId ← requireSome (asNonEmpty (getField request.payload "ticket_id"))
    (text "reconciliation ticket_id must be non-empty text")
  return .submitReconcileResume ticketId request.requestId

def dispatchAuto (request : IPCRequest) : Except WireError EngineCall := do
  require (hasExactly request.payload ["ticket_id"]
      || hasExactly request.payload ["ticket_id", "onto"])
    (text "automatic reconciliation payload fields are invalid")
  let ticketId ← requireSome (asNonEmpty (getField request.payload "ticket_id"))
    (text "reconciliation ticket_id must be non-empty text")
  let onto ← requireSome (ontoField request.payload)
    (text "reconciliation onto must be non-empty text")
  return .submitReconcileAuto ticketId onto request.requestId

def dispatchControl (request : IPCRequest) : Except WireError EngineCall := do
  require (hasExactly request.payload ["from", "to"])
    (text "control reconciliation payload fields are invalid")
  let fromHead ← requireSome (asNonEmpty (getField request.payload "from"))
    (text "control reconciliation from must be non-empty text")
  let toHead ← requireSome (asNonEmpty (getField request.payload "to"))
    (text "control reconciliation to must be non-empty text")
  return .submitReconcileControl fromHead toHead request.requestId

/-- `dispatch_mutation`. -/
def dispatchMutation (hasLifecycle : Bool) (request : IPCRequest) : Except WireError EngineCall :=
  if request.method = text "stop" ∨ request.method = text "restart" then
    dispatchLifecycle hasLifecycle request
  else if request.method = text "retry" then dispatchRetry request
  else if request.method = text "drop" then dispatchDrop request
  else if request.method = text "recover" then dispatchRecover request
  else if request.method = text "reconcile-update-base" then dispatchUpdateBase request
  else if request.method = text "reconcile-resume" then dispatchResume request
  else if request.method = text "reconcile-auto" then dispatchAuto request
  else if request.method = text "reconcile-control" then dispatchControl request
  else .error (unknownMethod request)

/-- `dispatch_read_only`. -/
def dispatchReadOnly (request : IPCRequest) : Except WireError EngineCall :=
  if request.method = text "ping" then .ok .serviceIdentity
  else if request.method = text "status" then .ok .publishedStatus
  else if request.method = text "plan" then .ok .publishedPlan
  else if request.method = text "retry-candidates" then .ok .publishedRetryCandidates
  else if request.method = text "drop-candidates" then .ok .publishedDropCandidates
  else .error (unknownMethod request)

/-- `dispatch_request`. -/
def dispatchRequest (hasLifecycle : Bool) (request : IPCRequest) : Except WireError EngineCall :=
  match dispatchMutation hasLifecycle request with
  | .ok call => .ok call
  | .error e => if e.code ≠ text "unknown_method" then .error e else dispatchReadOnly request

/-! ### The handler -/

/-- How a call of the engine ends: with an object, with a value that no JSON stands for, with a
    `DevlegateError` or `OSError`, or with another exception. -/
inductive Reply where
  | result (o : JsonObject)
  | unencodable
  | notObject
  | application (message : Text)
  | other

/-- What leaves the body of `try`. -/
inductive Raised where
  | protocol (e : WireError)
  | application (message : Text)
  | other

/-- `encode_success_response`; the encoder's `RecursionError` is none that `_encode_json` catches. -/
def encodeSuccess (requestId : Text) (o : JsonObject) : Except Raised (List UInt8) :=
  let response : IPCResponse :=
    { version := protocolVersion, requestId := requestId, ok := true, result := some o.fields }
  if requestId ≠ [] ∧ limitOf defaultLimits 0 (sortKeys response.asDict) = some .recursion then
    .error .other
  else
    match encodeSuccessResponse defaultLimits requestId o.fields with
    | .ok response => .ok response
    | .error e => .error (.protocol e.wire)

/-- The response to a parsed request, or what is raised in its place. -/
def answer (hasLifecycle : Bool) (engine : EngineCall → Reply) (request : IPCRequest) :
    Except Raised (List UInt8) :=
  match dispatchRequest hasLifecycle request with
  | .error e => .error (.protocol e)
  | .ok call =>
    match engine call with
    | .result o => encodeSuccess request.requestId o
    | .unencodable => .error (.protocol (invalidRequest "message is not JSON encodable").wire)
    | .notObject => .error (.protocol (invalidRequest "response result must be an object").wire)
    | .application message => .error (.application message)
    | .other => .error .other

/-- How the handler ends. -/
inductive Ending where
  | returned
  | escaped
  deriving DecidableEq

/-- One turn of the loop: what `_stop` is at each look, how the read, the engine and the write
    end. -/
structure Turn where
  stopped : Bool
  readFails : Option Text
  stoppedAtAdmission : Bool
  engine : EngineCall → Reply
  stoppedAfter : Bool
  write : Nat → Option Nat
  writeFails : Bool

/-- The handler's view of its connection.  The `response_settled` event of an admitted frame is the
    number of frames before it. -/
structure Connection where
  reader : StreamReader
  frames : List (List UInt8) := []
  pending : List Nat := []
  settled : List Nat := []
  sent : List (Option Nat × List UInt8) := []
  ended : Option Ending := none

/-- `_settle_response`. -/
def settle (event : Option Nat) (c : Connection) : Connection :=
  match event with
  | none => c
  | some k => { c with pending := c.pending.filter (· ≠ k), settled := k :: c.settled }

def finish (ending : Ending) (c : Connection) : Connection := { c with ended := some ending }

/-- The second `try`: sending, with the event settled in any case. -/
def send (t : Turn) (event : Option Nat) (response : List UInt8) (fatal : Bool) (c : Connection) :
    Connection :=
  match sendFrame t.write response with
  | .error _ => finish .returned (settle event c)
  | .ok _ =>
    if t.writeFails then finish .returned (settle event c)
    else
      let c := settle event { c with sent := c.sent ++ [(event, response)] }
      if fatal then finish .returned c else c

/-- What follows the body of `try`, with its handlers. -/
def respond (t : Turn) (event : Option Nat) (requestId : Text)
    (outcome : Except Raised (List UInt8)) (c : Connection) : Connection :=
  match outcome with
  | .ok response => send t event response false c
  | .error (.protocol e) =>
    match encodeErrorResponse defaultLimits requestId e.code e.message with
    | .ok response => send t event response e.fatal c
    | .error _ => finish .escaped c
  | .error (.application message) =>
    if t.stoppedAfter then finish .returned (settle event c)
    else
      match encodeErrorResponse defaultLimits requestId (text "application_error") message with
      | .ok response => send t event response true c
      | .error _ => finish .escaped c
  | .error .other => finish .escaped c

/-- The body of `try` on an admitted frame: `request.request_id` or the empty text, and what comes
    of it. -/
def process (hasLifecycle : Bool) (t : Turn) (payload : List UInt8) :
    Text × Except Raised (List UInt8) :=
  match parseRequest defaultLimits payload with
  | .error e => ([], .error (.protocol e.wire))
  | .ok request => (request.requestId, answer hasLifecycle t.engine request)

/-- `_admit_request`. -/
def admitRequest (payload : List UInt8) (c : Connection) : Connection :=
  { c with frames := c.frames ++ [payload], pending := c.frames.length :: c.pending }

/-- The turn after the read, with what it gave. -/
def afterRead (hasLifecycle : Bool) (t : Turn) (c : Connection) :
    Except IPCProtocolError (Option (List UInt8)) → Connection
  | .error e => respond t none [] (.error (.protocol e.wire)) c
  | .ok none => finish .returned c
  | .ok (some payload) =>
    if t.stoppedAtAdmission then finish .returned c
    else
      respond t (some c.frames.length) (process hasLifecycle t payload).1
        (process hasLifecycle t payload).2 (admitRequest payload c)

/-- One turn of the loop of `_serve_connection`. -/
def turn (hasLifecycle : Bool) (t : Turn) (c : Connection) : Connection :=
  if c.ended.isSome then c
  else if t.stopped then finish .returned c
  else
    match t.readFails with
    | some message => respond t none [] (.error (.application message)) c
    | none =>
      afterRead hasLifecycle t { c with reader := (receiveFrame c.reader).2 } (receiveFrame c.reader).1

/-- `_serve_connection` over its turns. -/
def serve (hasLifecycle : Bool) (turns : List Turn) (c : Connection) : Connection :=
  turns.foldl (fun c t => turn hasLifecycle t c) c

/-! ### What is claimed of it -/

/-- The id of a response to a frame: the request's, or the empty one if it cannot be parsed. -/
def requestIdOf (payload : List UInt8) : Text :=
  match parseRequest defaultLimits payload with
  | .ok request => request.requestId
  | .error _ => []

/-- A well-formed response with an id. -/
def WellFormed (requestId : Text) (response : List UInt8) : Prop :=
  ∃ r, parseResponse defaultLimits response = .ok r ∧ r.requestId = requestId

/-- The responses sent for an event, or for none. -/
def Connection.answersTo (c : Connection) (event : Option Nat) : List (List UInt8) :=
  (c.sent.filter fun s => s.1 = event).map (·.2)

/-- Every admitted frame has exactly one response or the connection is closed, no exception has left
    the handler, and all events are removed and set.  A response without a frame, to a header that
    cannot be read, has the empty id. -/
structure Orderly (c : Connection) : Prop where
  contained : c.ended ≠ some .escaped
  removed : c.pending = []
  set : ∀ k < c.frames.length, k ∈ c.settled
  answered : ∀ k payload, c.frames[k]? = some payload →
    (∃ response, c.answersTo (some k) = [response] ∧ WellFormed (requestIdOf payload) response)
      ∨ (c.answersTo (some k) = [] ∧ c.ended = some .returned)
  unasked : ∀ response ∈ c.answersTo none, WellFormed [] response
  fresh : ∀ k ≥ c.frames.length, c.answersTo (some k) = []

/-- The response to a request can be written: its id, and what it is answered with, have UTF-8
    octets, and the result is not nested too deep. -/
def AnswerableRequest (hasLifecycle : Bool) (t : Turn) (request : IPCRequest) : Prop :=
  match dispatchRequest hasLifecycle request with
  | .error _ => NoSurrogate request.requestId ∧ NoSurrogate request.method
  | .ok call =>
    match t.engine call with
    | .result o =>
      NoSurrogate request.requestId
        ∧ limitOf defaultLimits 1 (sortKeys (.obj o.fields)) ≠ some .recursion
    | .unencodable | .notObject => NoSurrogate request.requestId
    | .application message =>
      t.stoppedAfter = true
        ∨ (NoSurrogate request.requestId ∧ message ≠ [] ∧ NoSurrogate message)
    | .other => False

/-- What a turn of an open connection comes upon can be answered. -/
def Answerable (hasLifecycle : Bool) (t : Turn) (c : Connection) : Prop :=
  c.ended = none → t.stopped = false →
    match t.readFails with
    | some message => t.stoppedAfter = true ∨ (message ≠ [] ∧ NoSurrogate message)
    | none =>
      ∀ payload, (receiveFrame c.reader).1 = .ok (some payload) → t.stoppedAtAdmission = false →
        ∀ request, parseRequest defaultLimits payload = .ok request →
          AnswerableRequest hasLifecycle t request

/-- Every turn of a run is answerable where it is taken. -/
def AnswerableRun (hasLifecycle : Bool) : List Turn → Connection → Prop
  | [], _ => True
  | t :: turns, c =>
    Answerable hasLifecycle t c ∧ AnswerableRun hasLifecycle turns (turn hasLifecycle t c)

/-! ### Encoding -/

section Encoding

variable {requestId code message : Text} {v : Json}

theorem exists_surrogate {s : Text} (h : ¬ NoSurrogate s) : ∃ c ∈ s, isSurrogate c = true := by
  unfold NoSurrogate at h
  push Not at h
  obtain ⟨c, hc, hsurrogate⟩ := h
  exact ⟨c, hc, by simpa using hsurrogate⟩

/-- The text of a string member is part of the text of its object. -/
theorem mem_dump_member {fields : List (Text × Json)} {key s : Text} (hf : (key, .str s) ∈ fields)
    {c : CodePoint} (hc : c ∈ s) (hsurrogate : isSurrogate c = true) {level : Nat} :
    c ∈ dump compact level (sortKeys (.obj fields)) :=
  mem_dump_sortKeys_obj hf (mem_dumpString_compact hc hsurrogate)

/-- **Errors are encoded** if their texts are there and have UTF-8 octets. -/
theorem encodeErrorResponse_isOk :
    (∃ payload, encodeErrorResponse defaultLimits requestId code message = .ok payload)
      ↔ NoSurrogate requestId ∧ (code ≠ [] ∧ NoSurrogate code)
        ∧ (message ≠ [] ∧ NoSurrogate message) := by
  constructor
  · rintro ⟨payload, h⟩
    unfold encodeErrorResponse at h
    obtain ⟨_, hcode, h⟩ := bind_eq_ok.mp h
    obtain ⟨_, hmessage, h⟩ := bind_eq_ok.mp h
    have hclean : ∀ s, (∀ c ∈ s, isSurrogate c = true → c ∈ dump compact 0 (sortKeys (.obj
        [(text "version", .int protocolVersion), (text "id", .str requestId),
          (text "ok", .bool false), (text "error", .obj [(text "code", .str code),
            (text "message", .str message)])]))) → NoSurrogate s := by
      intro s hs
      by_contra hsurrogate
      obtain ⟨c, hc, hcs⟩ := exists_surrogate hsurrogate
      have hfails := @encodeJson_surrogate defaultLimits _ _ (hs c hc hcs) hcs
      simp only [IPCResponse.asDict] at h
      simp only [Bool.false_eq_true, if_false, Option.map_some, Option.getD_some,
        List.cons_append, List.nil_append] at h
      rw [hfails] at h
      cases h
    have hdetail : ∀ key s, (key, Json.str s) ∈ [(text "code", Json.str code),
        (text "message", Json.str message)] → NoSurrogate s := by
      intro key s hmem
      refine hclean s fun c hc hcs => ?_
      exact mem_dump_sortKeys_obj (f := (text "error", .obj _)) (by simp)
        (mem_dump_member hmem hc hcs)
    refine ⟨hclean requestId fun c hc hcs => ?_, ?_, ?_⟩
    · exact mem_dump_sortKeys_obj (f := (text "id", .str requestId)) (by simp)
        (mem_dumpString_compact hc hcs)
    · exact ⟨requireText_ok hcode, hdetail (text "code") code (by simp)⟩
    · exact ⟨requireText_ok hmessage, hdetail (text "message") message (by simp)⟩
  · rintro ⟨hid, ⟨hcode, hcodeClean⟩, hmessage, hmessageClean⟩
    have hdetails : Plain NoSurrogate
        (.obj [(text "code", .str code), (text "message", .str message)]) := by
      have hkeys : List.Nodup [text "code", text "message"] := by decide
      refine .obj hkeys ?_ ?_
      · simp only [List.forall_mem_cons, List.not_mem_nil, false_implies, implies_true, and_true]
        exact ⟨noSurrogate_text _, noSurrogate_text _⟩
      · simp only [List.forall_mem_cons, List.not_mem_nil, false_implies, implies_true, and_true]
        exact ⟨.str hcodeClean, .str hmessageClean⟩
    have hplain : Plain NoSurrogate (.obj [(text "version", .int protocolVersion),
        (text "id", .str requestId), (text "ok", .bool false),
        (text "error", .obj [(text "code", .str code), (text "message", .str message)])]) := by
      have hkeys : List.Nodup [text "version", text "id", text "ok", text "error"] := by decide
      refine .obj hkeys ?_ ?_
      · simp only [List.forall_mem_cons, List.not_mem_nil, false_implies, implies_true, and_true]
        exact ⟨noSurrogate_text _, noSurrogate_text _, noSurrogate_text _, noSurrogate_text _⟩
      · simp only [List.forall_mem_cons, List.not_mem_nil, false_implies, implies_true, and_true]
        exact ⟨.int _, .str hid, .bool _, hdetails⟩
    obtain ⟨payload, hpayload⟩ := @encodeJson_ok defaultLimits _ hplain rfl
    refine ⟨payload, ?_⟩
    unfold encodeErrorResponse requireText
    rw [if_neg hcode, if_neg hmessage]
    exact hpayload

/-- The first limit in a successful response is the first one in its result. -/
theorem limitOf_success (o : JsonObject) :
    limitOf defaultLimits 0 (sortKeys (.obj [(text "version", .int protocolVersion),
        (text "id", .str requestId), (text "ok", .bool true), (text "result", .obj o.fields)]))
      = limitOf defaultLimits 1 (sortKeys (.obj o.fields)) := by
  refine limitOf_sortKeys_obj (f := (text "result", .obj o.fields)) (by simp) (by decide) ?_
  intro g hg
  simp only [List.mem_cons, List.not_mem_nil, or_false] at hg
  rcases hg with rfl | rfl | rfl | rfl
  · exact .inr rfl
  · exact .inr rfl
  · exact .inr rfl
  · exact .inl rfl

/-- **Successes** are encoded, or refused with an error of fixed texts, or the encoder's
    `RecursionError` is raised. -/
theorem encodeSuccess_cases (hid : requestId ≠ []) (o : JsonObject) :
    (∃ response, encodeSuccess requestId o = .ok response ∧ NoSurrogate requestId
        ∧ limitOf defaultLimits 1 (sortKeys (.obj o.fields)) ≠ some .recursion
        ∧ WellFormed requestId response)
      ∨ (encodeSuccess requestId o
            = .error (.protocol (invalidRequest "message is not JSON encodable").wire)
          ∧ limitOf defaultLimits 1 (sortKeys (.obj o.fields)) ≠ some .recursion)
      ∨ (encodeSuccess requestId o = .error .other
          ∧ limitOf defaultLimits 1 (sortKeys (.obj o.fields)) = some .recursion) := by
  have hlimit := @limitOf_success requestId o
  by_cases hdeep : limitOf defaultLimits 1 (sortKeys (.obj o.fields)) = some .recursion
  · right
    right
    refine ⟨?_, hdeep⟩
    exact if_pos ⟨hid, hlimit.trans hdeep⟩
  · have hshallow : encodeSuccess requestId o
        = match encodeSuccessResponse defaultLimits requestId o.fields with
          | .ok response => .ok response
          | .error e => .error (.protocol e.wire) :=
      if_neg fun h => hdeep (hlimit.symm.trans h.2)
    have hencode : encodeSuccessResponse defaultLimits requestId o.fields
        = encodeJson defaultLimits (.obj [(text "version", .int protocolVersion),
            (text "id", .str requestId), (text "ok", .bool true), (text "result", .obj o.fields)]) := by
      unfold encodeSuccessResponse requireText
      rw [if_neg hid]
      rfl
    cases hresponse : encodeSuccessResponse defaultLimits requestId o.fields with
    | ok response =>
      left
      obtain ⟨received, hparse, -⟩ := parseResponse_encodeSuccessResponse hresponse
      refine ⟨response, by rw [hshallow, hresponse], ?_, hdeep, _, hparse, rfl⟩
      by_contra hsurrogate
      obtain ⟨c, hc, hcs⟩ := exists_surrogate hsurrogate
      have hmem : c ∈ dump compact 0 (sortKeys (.obj [(text "version", .int protocolVersion),
          (text "id", .str requestId), (text "ok", .bool true), (text "result", .obj o.fields)])) :=
        mem_dump_sortKeys_obj (f := (text "id", .str requestId)) (by simp)
          (mem_dumpString_compact hc hcs)
      rw [hencode, encodeJson_surrogate hmem hcs] at hresponse
      cases hresponse
    | error e =>
      right
      left
      refine ⟨?_, hdeep⟩
      have he : e = invalidRequest "message is not JSON encodable" := by
        rw [hencode] at hresponse
        unfold encodeJson at hresponse
        split at hresponse
        · cases hresponse
          rfl
        · unfold demand at hresponse
          split at hresponse
          · cases hresponse
          · cases hresponse
            rfl
      rw [hshallow, hresponse, he]

end Encoding

/-! ### Refusals -/

section Refusals

variable {request : IPCRequest} {message : Text} {α β : Type} {e : WireError}

/-- An error that can be encoded when the request's method can. -/
structure Refusable (request : IPCRequest) (e : WireError) : Prop where
  code : e.code ≠ [] ∧ NoSurrogate e.code
  message : e.message ≠ []
  same : NoSurrogate e.message ↔ NoSurrogate request.method

/-- A check of a request. -/
abbrev Refuses (request : IPCRequest) (x : Except WireError α) : Prop :=
  RaisesOnly (Refusable request) x

theorem text_ne_nil {s : String} (h : s ≠ "") : text s ≠ [] := by
  intro hnil
  exact h (String.toList_eq_nil_iff.mp (List.map_eq_nil_iff.mp hnil))

theorem refusable_unknownMethod : Refusable request (unknownMethod request) where
  code := ⟨text_ne_nil (by decide), noSurrogate_text _⟩
  message := List.append_ne_nil_of_left_ne_nil (text_ne_nil (by decide)) _
  same := by
    show NoSurrogate (text "unsupported method: " ++ request.method) ↔ _
    rw [noSurrogate_append]
    exact and_iff_right (noSurrogate_text _)

theorem refusable_refusal (hmethod : NoSurrogate request.method) (hmessage : message ≠ [])
    (hclean : NoSurrogate message) : Refusable request (refusal message) where
  code := ⟨text_ne_nil (by decide), noSurrogate_text _⟩
  message := hmessage
  same := iff_of_true hclean hmethod

theorem refuses_require {holds : Bool} (hmethod : NoSurrogate request.method)
    (hmessage : message ≠ []) (hclean : NoSurrogate message) :
    Refuses request (require holds message) := by
  intro e h
  unfold require at h
  split at h
  · cases h
  · cases h
    exact refusable_refusal hmethod hmessage hclean

theorem refuses_requireSome {value : Option α} (hmethod : NoSurrogate request.method)
    (hmessage : message ≠ []) (hclean : NoSurrogate message) :
    Refuses request (requireSome value message) := by
  intro e h
  unfold requireSome at h
  split at h
  · cases h
  · cases h
    exact refusable_refusal hmethod hmessage hclean

theorem refuses_dispatchLifecycle {hasLifecycle : Bool} (hmethod : NoSurrogate request.method) :
    Refuses request (dispatchLifecycle hasLifecycle request) := by
  have hnamed : ∀ s : String, s ≠ "" →
      request.method ++ text s ≠ [] ∧ NoSurrogate (request.method ++ text s) := fun s hs =>
    ⟨List.append_ne_nil_of_right_ne_nil _ (text_ne_nil hs),
      noSurrogate_append.mpr ⟨hmethod, noSurrogate_text s⟩⟩
  have hfields := hnamed " payload fields are invalid" (by decide)
  have hforce := hnamed " force must be boolean" (by decide)
  refine .bind (refuses_require hmethod hfields.1 hfields.2) fun _ => ?_
  have hrest : Refuses request (requireSome (flagField request.payload "force")
      (request.method ++ text " force must be boolean")
      >>= fun force => .ok (EngineCall.lifecycle request.method request.requestId force)) :=
    .bind (refuses_requireSome hmethod hforce.1 hforce.2) fun _ => .ok
  cases hasLifecycle with
  | false =>
    intro e h
    cases h
    exact refusable_unknownMethod
  | true => exact hrest

theorem refuses_dispatchMutation {hasLifecycle : Bool} :
    Refuses request (dispatchMutation hasLifecycle request) := by
  unfold dispatchMutation
  by_cases hlifecycle : request.method = text "stop" ∨ request.method = text "restart"
  · rw [if_pos hlifecycle]
    refine refuses_dispatchLifecycle ?_
    rcases hlifecycle with h | h <;> rw [h] <;> exact noSurrogate_text _
  rw [if_neg hlifecycle]
  -- a method that is named has its own name's characters
  have hnamed : ∀ {name : String} {x y : Except WireError EngineCall},
      (NoSurrogate request.method → Refuses request x) → Refuses request y →
        Refuses request (if request.method = text name then x else y) := by
    intro name x y hx hy
    by_cases hname : request.method = text name
    · rw [if_pos hname]
      exact hx (hname ▸ noSurrogate_text name)
    · rw [if_neg hname]
      exact hy
  have hcheck : ∀ {holds : Bool} (s : String), s ≠ "" → NoSurrogate request.method →
      Refuses request (require holds (text s)) := fun s hs hmethod =>
    refuses_require hmethod (text_ne_nil hs) (noSurrogate_text s)
  have hfield : ∀ {γ : Type} {value : Option γ} (s : String), s ≠ "" →
      NoSurrogate request.method → Refuses request (requireSome value (text s)) :=
    fun s hs hmethod => refuses_requireSome hmethod (text_ne_nil hs) (noSurrogate_text s)
  refine hnamed (fun hmethod => ?_) (hnamed (fun hmethod => ?_) (hnamed (fun hmethod => ?_)
    (hnamed (fun hmethod => ?_) (hnamed (fun hmethod => ?_) (hnamed (fun hmethod => ?_)
      (hnamed (fun hmethod => ?_) ?_))))))
  · exact .bind (hcheck _ (by decide) hmethod) fun _ => .bind (hfield _ (by decide) hmethod) fun _ =>
      .bind (hfield _ (by decide) hmethod) fun _ => .ok
  · exact .bind (hcheck _ (by decide) hmethod) fun _ => .bind (hfield _ (by decide) hmethod) fun _ =>
      .bind (hfield _ (by decide) hmethod) fun _ => .ok
  · exact .bind (hcheck _ (by decide) hmethod) fun _ => .bind (hfield _ (by decide) hmethod) fun _ =>
      .bind (hfield _ (by decide) hmethod) fun _ => .bind (hfield _ (by decide) hmethod) fun _ =>
        .ok
  · exact .bind (hcheck _ (by decide) hmethod) fun _ => .bind (hfield _ (by decide) hmethod) fun _ =>
      .bind (hfield _ (by decide) hmethod) fun _ => .bind (hfield _ (by decide) hmethod) fun _ =>
        .ok
  · exact .bind (hcheck _ (by decide) hmethod) fun _ => .bind (hfield _ (by decide) hmethod) fun _ =>
      .ok
  · exact .bind (hcheck _ (by decide) hmethod) fun _ => .bind (hfield _ (by decide) hmethod) fun _ =>
      .bind (hfield _ (by decide) hmethod) fun _ => .ok
  · exact .bind (hcheck _ (by decide) hmethod) fun _ => .bind (hfield _ (by decide) hmethod) fun _ =>
      .bind (hfield _ (by decide) hmethod) fun _ => .ok
  · intro e h
    cases h
    exact refusable_unknownMethod

theorem refuses_dispatchRequest {hasLifecycle : Bool} :
    Refuses request (dispatchRequest hasLifecycle request) := by
  intro e h
  unfold dispatchRequest at h
  split at h
  · cases h
  · rename_i e' hmutation
    split at h
    · cases h
      exact refuses_dispatchMutation e hmutation
    · unfold dispatchReadOnly at h
      repeat' split at h
      all_goals cases h
      exact refusable_unknownMethod

end Refusals

/-! ### One turn -/

section Turns

variable {hasLifecycle : Bool} {t : Turn} {c : Connection} {event : Option Nat} {requestId : Text}
  {response payload : List UInt8} {fatal : Bool} {outcome : Except Raised (List UInt8)}

/-- The id that a response for an event must carry. -/
def Connection.idOf (c : Connection) (event : Option Nat) : Text :=
  match event with
  | none => []
  | some k => requestIdOf (c.frames[k]?.getD [])

/-- An open connection on which at most one event is pending and all frames but its own have their
    response. -/
structure Open (event : Option Nat) (c : Connection) : Prop where
  going : c.ended = none
  removed : c.pending = event.toList
  set : ∀ k < c.frames.length, some k ≠ event → k ∈ c.settled
  answered : ∀ k payload, c.frames[k]? = some payload → some k ≠ event →
    ∃ response, c.answersTo (some k) = [response] ∧ WellFormed (requestIdOf payload) response
  unasked : ∀ response ∈ c.answersTo none, WellFormed [] response
  unanswered : event ≠ none → c.answersTo event = []
  bound : ∀ k, event = some k → k < c.frames.length
  fresh : ∀ k ≥ c.frames.length, c.answersTo (some k) = []

theorem Orderly.open (h : Orderly c) (hgoing : c.ended = none) : Open none c where
  going := hgoing
  removed := h.removed
  set k hk _ := h.set k hk
  answered k payload hframe _ := by
    rcases h.answered k payload hframe with hanswered | ⟨-, hreturned⟩
    · exact hanswered
    · rw [hgoing] at hreturned
      cases hreturned
  unasked := h.unasked
  unanswered hne := absurd rfl hne
  bound _ h := by cases h
  fresh := h.fresh

/-- Reading changes nothing else. -/
theorem Open.read (h : Open event c) (reader : StreamReader) : Open event { c with reader := reader } :=
  ⟨h.going, h.removed, h.set, h.answered, h.unasked, h.unanswered, h.bound, h.fresh⟩

theorem length_admitRequest : (admitRequest payload c).frames.length = c.frames.length + 1 := by simp [admitRequest]

theorem Open.admitRequest (h : Open none c) (payload : List UInt8) :
    Open (some c.frames.length) (admitRequest payload c) where
  going := h.going
  removed := by
    show c.frames.length :: c.pending = [c.frames.length]
    rw [h.removed]
    rfl
  set k hk hne := by
    rw [length_admitRequest] at hk
    have hother : k ≠ c.frames.length := fun heq => hne (heq ▸ rfl)
    exact h.set k (by omega) (by simp)
  answered k p hframe hne := by
    have hother : k ≠ c.frames.length := fun heq => hne (heq ▸ rfl)
    obtain ⟨hbound, -⟩ := List.getElem?_eq_some_iff.mp hframe
    rw [length_admitRequest] at hbound
    have hold : c.frames[k]? = some p := by
      rw [← hframe]
      exact (List.getElem?_append_left (by omega)).symm
    exact h.answered k p hold (by simp)
  unasked := h.unasked
  unanswered _ := h.fresh _ le_rfl
  bound k hk := by
    cases hk
    rw [length_admitRequest]
    omega
  fresh k hk := by
    rw [length_admitRequest] at hk
    exact h.fresh k (by omega)

theorem idOf_admitRequest (c : Connection) (payload : List UInt8) :
    (admitRequest payload c).idOf (some c.frames.length) = requestIdOf payload := by
  show requestIdOf ((c.frames ++ [payload])[c.frames.length]?.getD []) = _
  simp

/-- The connection is closed without a response. -/
theorem Open.returned (h : Open event c) : Orderly (finish .returned (settle event c)) := by
  cases event with
  | none =>
    refine ⟨by simp [finish], h.removed, fun k hk => h.set k hk (by simp), ?_, h.unasked, h.fresh⟩
    intro k payload hframe
    exact .inl (h.answered k payload hframe (by simp))
  | some j =>
    refine ⟨by simp [finish], ?_, ?_, ?_, h.unasked, h.fresh⟩
    · show c.pending.filter (· ≠ j) = []
      rw [h.removed]
      simp
    · intro k hk
      by_cases hkj : k = j
      · exact hkj ▸ List.mem_cons_self
      · exact List.mem_cons_of_mem _ (h.set k hk (by simpa using hkj))
    · intro k payload hframe
      by_cases hkj : k = j
      · subst hkj
        exact .inr ⟨h.unanswered (by simp), rfl⟩
      · exact .inl (h.answered k payload hframe (by simpa using hkj))

theorem answersTo_sent (other : Option Nat) :
    ({ c with sent := c.sent ++ [(event, response)] } : Connection).answersTo other
      = c.answersTo other ++ if event = other then [response] else [] := by
  unfold Connection.answersTo
  by_cases hsame : event = other
  · simp [hsame]
  · simp [hsame]

theorem answersTo_settle (event other : Option Nat) (c : Connection) :
    (settle event c).answersTo other = c.answersTo other := by
  cases event <;> rfl

/-- The response is sent, and the connection goes on or is closed. -/
theorem Open.sent (h : Open event c) (hresponse : WellFormed (c.idOf event) response)
    {ending : Option Ending} (hending : ending ≠ some .escaped) :
    Orderly { settle event { c with sent := c.sent ++ [(event, response)] } with ended := ending } := by
  have hanswers : ∀ other, Connection.answersTo
      { settle event { c with sent := c.sent ++ [(event, response)] } with ended := ending } other
        = c.answersTo other ++ if event = other then [response] else [] := fun other =>
    (answersTo_settle event other _).trans (answersTo_sent other)
  cases event with
  | none =>
    refine ⟨hending, h.removed, fun k hk => h.set k hk (by simp), ?_, ?_, ?_⟩
    · intro k payload hframe
      rw [hanswers, if_neg (by simp), List.append_nil]
      exact .inl (h.answered k payload hframe (by simp))
    · intro r hr
      rw [hanswers, if_pos rfl, List.mem_append, List.mem_singleton] at hr
      rcases hr with hr | rfl
      · exact h.unasked r hr
      · exact hresponse
    · intro k hk
      rw [hanswers, if_neg (by simp), List.append_nil]
      exact h.fresh k hk
  | some j =>
    refine ⟨hending, ?_, ?_, ?_, ?_, ?_⟩
    · show c.pending.filter (· ≠ j) = []
      rw [h.removed]
      simp
    · intro k hk
      by_cases hkj : k = j
      · exact hkj ▸ List.mem_cons_self
      · exact List.mem_cons_of_mem _ (h.set k hk (by simpa using hkj))
    · intro k payload hframe
      rw [hanswers]
      by_cases hkj : k = j
      · subst hkj
        rw [if_pos rfl, h.unanswered (by simp), List.nil_append]
        have hid : c.idOf (some k) = requestIdOf payload := by
          show requestIdOf (c.frames[k]?.getD []) = _
          rw [show c.frames[k]? = some payload from hframe]
          rfl
        exact .inl ⟨response, rfl, hid ▸ hresponse⟩
      · rw [if_neg (by simpa [eq_comm] using hkj), List.append_nil]
        exact .inl (h.answered k payload hframe (by simpa using hkj))
    · intro r hr
      rw [hanswers, if_neg (by simp), List.append_nil] at hr
      exact h.unasked r hr
    · intro k hk
      have hlast : j < c.frames.length := h.bound j rfl
      have hnew : c.frames.length ≤ k := hk
      rw [hanswers, if_neg (by simp; omega), List.append_nil]
      exact h.fresh k hk

theorem Open.send (h : Open event c) (hresponse : WellFormed (c.idOf event) response) :
    Orderly (send t event response fatal c) := by
  unfold IpcServer.send
  split
  · exact h.returned
  · split
    · exact h.returned
    · have hgoing : (settle event { c with sent := c.sent ++ [(event, response)] }).ended = none := by
        cases event <;> exact h.going
      by_cases hfatal : fatal = true
      · rw [if_pos hfatal]
        exact h.sent hresponse (by simp)
      · rw [if_neg hfatal]
        have hsent := h.sent hresponse (show (none : Option Ending) ≠ some .escaped by simp)
        rw [← hgoing] at hsent
        exact hsent

/-- What the body of `try` ends with can be written as a response. -/
def Writable (t : Turn) (requestId : Text) : Except Raised (List UInt8) → Prop
  | .ok response => WellFormed requestId response
  | .error (.protocol e) =>
    NoSurrogate requestId ∧ (e.code ≠ [] ∧ NoSurrogate e.code)
      ∧ (e.message ≠ [] ∧ NoSurrogate e.message)
  | .error (.application message) =>
    t.stoppedAfter = true ∨ (NoSurrogate requestId ∧ message ≠ [] ∧ NoSurrogate message)
  | .error .other => False

theorem wellFormed_error {code message : Text}
    (h : encodeErrorResponse defaultLimits requestId code message = .ok response) :
    WellFormed requestId response := ⟨_, parseResponse_encodeErrorResponse h, rfl⟩

theorem clean_applicationError :
    text "application_error" ≠ [] ∧ NoSurrogate (text "application_error") :=
  ⟨text_ne_nil (by decide), noSurrogate_text _⟩

/-- **Answered.** What can be written is sent, or the connection is closed. -/
theorem Open.respond (h : Open event c) (hid : c.idOf event = requestId)
    (hwritable : Writable t requestId outcome) : Orderly (respond t event requestId outcome c) := by
  subst hid
  cases outcome with
  | ok response => exact h.send hwritable
  | error raised =>
    cases raised with
    | protocol e =>
      obtain ⟨response, hresponse⟩ := encodeErrorResponse_isOk.mpr hwritable
      simp only [IpcServer.respond, hresponse]
      exact h.send (wellFormed_error hresponse)
    | application message =>
      by_cases hstopped : t.stoppedAfter = true
      · simp only [IpcServer.respond, if_pos hstopped]
        exact h.returned
      · have hclean := hwritable.resolve_left hstopped
        obtain ⟨response, hresponse⟩ := encodeErrorResponse_isOk.mpr
          ⟨hclean.1, clean_applicationError, hclean.2⟩
        simp only [IpcServer.respond, if_neg hstopped, hresponse]
        exact h.send (wellFormed_error hresponse)
    | other => exact hwritable.elim

/-- **Escaped.** The error that cannot be written leaves the handler. -/
theorem respond_escaped (hok : ∀ response, outcome = .ok response → WellFormed requestId response)
    (hwritable : ¬ Writable t requestId outcome) :
    (respond t event requestId outcome c).ended = some .escaped := by
  cases outcome with
  | ok response => exact absurd (hok response rfl) hwritable
  | error raised =>
    cases raised with
    | protocol e =>
      cases hresponse : encodeErrorResponse defaultLimits requestId e.code e.message with
      | ok response => exact absurd (encodeErrorResponse_isOk.mp ⟨_, hresponse⟩) hwritable
      | error e' =>
        simp only [respond, hresponse]
        rfl
    | application message =>
      have hrunning : ¬ t.stoppedAfter = true := fun hstopped => hwritable (.inl hstopped)
      simp only [respond, if_neg hrunning]
      cases hresponse : encodeErrorResponse defaultLimits requestId (text "application_error")
          message with
      | ok response =>
        have hclean := encodeErrorResponse_isOk.mp ⟨_, hresponse⟩
        exact absurd (.inr ⟨hclean.1, hclean.2.2⟩) hwritable
      | error e' => rfl
    | other => rfl

/-! ### Errors of fixed texts -/

/-- A response can be made of the error. -/
def Named (e : IPCProtocolError) : Prop := e.code ≠ "" ∧ e.message ≠ ""

theorem Named.writable_iff {e : IPCProtocolError} (h : Named e) :
    Writable t requestId (.error (.protocol e.wire)) ↔ NoSurrogate requestId :=
  and_iff_left
    ⟨⟨text_ne_nil h.1, noSurrogate_text _⟩, text_ne_nil h.2, noSurrogate_text _⟩

theorem named_of_readExact {cleanEof : Bool} {remaining : Nat} {chunks : List UInt8}
    {r : StreamReader} {e : IPCProtocolError}
    (h : (readExact cleanEof remaining chunks r).1 = .error e) : Named e := by
  obtain ⟨hfull, hshort⟩ := readExact_eq cleanEof remaining chunks r
  by_cases hlength : remaining ≤ r.bytes.length
  · obtain ⟨reads, hreads⟩ := hfull hlength
    rw [hreads] at h
    cases h
  · rw [hshort (by omega)] at h
    split at h
    · cases h
    · cases h
      exact ⟨by decide, by decide⟩

theorem named_of_receiveFrame {r : StreamReader} {e : IPCProtocolError}
    (h : (receiveFrame r).1 = .error e) : Named e := by
  unfold receiveFrame at h
  split at h
  · rename_i e' r' hread
    cases h
    exact named_of_readExact (congrArg Prod.fst hread)
  · cases h
  · simp only at h
    split at h
    · cases h
      exact ⟨by decide, by decide⟩
    · exact named_of_readExact h

theorem raisesOnly_demand {α : Type} {value : Option α} {e : IPCProtocolError} (h : Named e) :
    RaisesOnly Named (demand value e) := by
  cases value with
  | some a => exact .ok
  | none => exact .error h

theorem raisesOnly_parseRequest : RaisesOnly Named (parseRequest defaultLimits payload) := by
  have hdecode : RaisesOnly Named (decodeJson defaultLimits payload) := by
    unfold decodeJson
    split
    · exact .error ⟨by decide, by decide⟩
    · split
      · exact .ok
      · exact .error ⟨by decide, by decide⟩
  unfold parseRequest
  refine .bind hdecode fun value => .bind (raisesOnly_demand ⟨by decide, by decide⟩) fun fields =>
    .unless ⟨by decide, by decide⟩ (.bind (raisesOnly_demand ⟨by decide, by decide⟩) fun version =>
      .unless ⟨by decide, by decide⟩ ?_)
  refine .bind (raisesOnly_demand ⟨by decide, by decide⟩) fun requestId =>
    .bind (raisesOnly_demand ⟨by decide, by decide⟩) fun method =>
      .bind (raisesOnly_demand ⟨by decide, by decide⟩) fun _ => .ok

theorem asNonEmpty_ne_nil {value : Option Json} {s : Text} (h : asNonEmpty value = some s) :
    s ≠ [] := by
  unfold asNonEmpty at h
  obtain ⟨s', -, h⟩ := Option.bind_eq_some_iff.mp h
  obtain ⟨_, hguard, h⟩ := Option.bind_eq_some_iff.mp h
  cases h
  intro hnil
  rw [guard, if_neg (not_not_intro hnil)] at hguard
  cases hguard

theorem requestId_ne_nil {request : IPCRequest}
    (h : parseRequest defaultLimits payload = .ok request) : request.requestId ≠ [] := by
  unfold parseRequest at h
  obtain ⟨value, -, h⟩ := bind_eq_ok.mp h
  obtain ⟨fields, -, h⟩ := bind_eq_ok.mp h
  split at h
  · cases h
  obtain ⟨version, -, h⟩ := bind_eq_ok.mp h
  simp only at h
  split at h
  · cases h
  obtain ⟨requestId, hid, h⟩ := bind_eq_ok.mp h
  obtain ⟨method, -, h⟩ := bind_eq_ok.mp h
  obtain ⟨requestPayload, -, h⟩ := bind_eq_ok.mp h
  cases h
  unfold demand at hid
  split at hid
  · rename_i s hs
    cases hid
    exact asNonEmpty_ne_nil hs
  · cases hid

/-! ### The response to a request -/

theorem named_invalidRequest {message : String} (h : message ≠ "") : Named (invalidRequest message) :=
  ⟨(by decide : "invalid_request" ≠ ""), h⟩

/-- **What is answered.** The outcome of a request can be written if the request is answerable. -/
theorem writable_answer {request : IPCRequest} (hid : request.requestId ≠ []) :
    Writable t request.requestId (answer hasLifecycle t.engine request)
      ↔ AnswerableRequest hasLifecycle t request := by
  unfold answer AnswerableRequest
  cases hdispatch : dispatchRequest hasLifecycle request with
  | error e =>
    obtain ⟨hcode, hmessage, hsame⟩ := refuses_dispatchRequest e hdispatch
    show NoSurrogate request.requestId ∧ _ ∧ (_ ∧ NoSurrogate e.message) ↔ _
    rw [and_iff_right hcode, and_iff_right hmessage, hsame]
  | ok call =>
    cases hreply : t.engine call with
    | result o =>
      simp only [hreply]
      rcases encodeSuccess_cases hid o with ⟨response, hresponse, hclean, hlimit, hwell⟩ |
        ⟨herror, hlimit⟩ | ⟨herror, hlimit⟩
      · rw [hresponse]
        exact iff_of_true hwell ⟨hclean, hlimit⟩
      · rw [herror, (named_invalidRequest (by decide)).writable_iff]
        exact (and_iff_left hlimit).symm
      · rw [herror]
        exact iff_of_false id fun h => h.2 hlimit
    | unencodable =>
      simp only [hreply]
      exact (named_invalidRequest (by decide)).writable_iff
    | notObject =>
      simp only [hreply]
      exact (named_invalidRequest (by decide)).writable_iff
    | application message => simp only [hreply, Writable]
    | other => simp only [hreply, Writable]

theorem wellFormed_answer {request : IPCRequest} (hid : request.requestId ≠ [])
    (h : answer hasLifecycle t.engine request = .ok response) :
    WellFormed request.requestId response := by
  unfold answer at h
  split at h
  · cases h
  · rename_i call hdispatch
    cases hreply : t.engine call with
    | result o =>
      simp only [hreply] at h
      rcases encodeSuccess_cases hid o with ⟨response', hresponse, -, -, hwell⟩ |
        ⟨herror, -⟩ | ⟨herror, -⟩
      · rw [hresponse] at h
        cases h
        exact hwell
      · rw [herror] at h
        cases h
      · rw [herror] at h
        cases h
    | unencodable => simp [hreply] at h
    | notObject => simp [hreply] at h
    | application message => simp [hreply] at h
    | other => simp [hreply] at h

theorem noSurrogate_nil : NoSurrogate [] := fun _ hc => (List.not_mem_nil hc).elim

/-- The id that a frame's response must carry is the one that it does carry. -/
theorem process_fst : (process hasLifecycle t payload).1 = requestIdOf payload := by
  unfold process requestIdOf
  split <;> rename_i hparse <;> simp [hparse]

theorem process_wellFormed (h : (process hasLifecycle t payload).2 = .ok response) :
    WellFormed (requestIdOf payload) response := by
  unfold process at h
  unfold requestIdOf
  cases hparse : parseRequest defaultLimits payload with
  | error e => simp [hparse] at h
  | ok request =>
    simp only [hparse] at h ⊢
    exact wellFormed_answer (requestId_ne_nil hparse) h

theorem writable_process :
    Writable t (requestIdOf payload) (process hasLifecycle t payload).2
      ↔ ∀ request, parseRequest defaultLimits payload = .ok request →
          AnswerableRequest hasLifecycle t request := by
  unfold process requestIdOf
  cases hparse : parseRequest defaultLimits payload with
  | error e =>
    have hnamed : Named e := raisesOnly_parseRequest e hparse
    simp only
    rw [hnamed.writable_iff]
    exact iff_of_true noSurrogate_nil fun request h => by cases h
  | ok request =>
    simp only
    rw [writable_answer (requestId_ne_nil hparse)]
    constructor
    · intro h other hother
      cases hother
      exact h
    · exact fun h => h request rfl

/-! ### Runs -/

/-- A turn is orderly, or an exception leaves the handler, as a condition says. -/
def Decides (condition : Prop) (c : Connection) : Prop :=
  (condition ∧ Orderly c) ∨ (¬ condition ∧ c.ended = some .escaped)

theorem Decides.of {condition : Prop} {c' : Connection} (hyes : condition → Orderly c')
    (hno : ¬ condition → c'.ended = some .escaped) : Decides condition c' := by
  by_cases h : condition
  · exact .inl ⟨h, hyes h⟩
  · exact .inr ⟨h, hno h⟩

theorem Open.decides (h : Open event c) (hid : c.idOf event = requestId)
    (hok : ∀ response, outcome = .ok response → WellFormed requestId response) :
    Decides (Writable t requestId outcome) (IpcServer.respond t event requestId outcome c) :=
  .of (h.respond hid) (respond_escaped hok)

theorem decides_afterRead (h : Open none c)
    {received : Except IPCProtocolError (Option (List UInt8))}
    (hnamed : ∀ e, received = .error e → Named e) :
    Decides (∀ payload, received = .ok (some payload) → t.stoppedAtAdmission = false →
        ∀ request, parseRequest defaultLimits payload = .ok request →
          AnswerableRequest hasLifecycle t request)
      (afterRead hasLifecycle t c received) := by
  cases received with
  | error e =>
    have hwritable : Writable t [] (.error (.protocol e.wire)) :=
      (hnamed e rfl).writable_iff.mpr noSurrogate_nil
    exact .inl ⟨fun _ hpayload => (by cases hpayload), h.respond rfl hwritable⟩
  | ok frame =>
    cases frame with
    | none => exact .inl ⟨fun _ hpayload => (by cases hpayload), h.returned⟩
    | some payload =>
      by_cases hrefused : t.stoppedAtAdmission = true
      · refine .inl ⟨fun _ _ hadmitted => ?_, ?_⟩
        · rw [hrefused] at hadmitted
          cases hadmitted
        · rw [afterRead, if_pos hrefused]
          exact h.returned
      · have hadmitted : t.stoppedAtAdmission = false := by simpa using hrefused
        have hsame : (∀ p, (Except.ok (some payload) : Except IPCProtocolError _) = .ok (some p) →
            t.stoppedAtAdmission = false → ∀ request, parseRequest defaultLimits p = .ok request →
              AnswerableRequest hasLifecycle t request)
            ↔ Writable t (requestIdOf payload) (process hasLifecycle t payload).2 := by
          rw [writable_process]
          constructor
          · exact fun hall => hall payload rfl hadmitted
          · intro hrequest p hp _
            cases hp
            exact hrequest
        rw [hsame, afterRead, if_neg hrefused, process_fst]
        exact (h.admitRequest payload).decides (idOf_admitRequest c payload) fun _ hok => process_wellFormed hok

/-- **One turn** of an open connection keeps it orderly if it is answerable; otherwise an exception
    leaves the handler. -/
theorem decides_turn (h : Orderly c) :
    Decides (Answerable hasLifecycle t c) (turn hasLifecycle t c) := by
  by_cases hended : c.ended = none
  swap
  · have hover : c.ended.isSome = true := by simpa [Option.isSome_iff_ne_none] using hended
    refine .inl ⟨fun hgoing => absurd hgoing hended, ?_⟩
    rw [turn, if_pos hover]
    exact h
  have hopen := h.open hended
  have hgoing : ¬ c.ended.isSome = true := by simp [hended]
  by_cases hstopped : t.stopped = true
  · refine .inl ⟨fun _ hrunning => absurd hstopped (by simp [hrunning]), ?_⟩
    rw [turn, if_neg hgoing, if_pos hstopped]
    exact hopen.returned
  have hrunning : t.stopped = false := by simpa using hstopped
  rw [turn, if_neg hgoing, if_neg hstopped]
  cases hread : t.readFails with
  | some message =>
    have hsame : Answerable hasLifecycle t c ↔ Writable t [] (.error (.application message)) := by
      unfold Answerable
      simp only [hread, hended, hrunning, forall_const]
      exact or_congr_right (and_iff_right noSurrogate_nil).symm
    rw [hsame]
    exact hopen.decides rfl fun _ hok => by cases hok
  | none =>
    have hsame : Answerable hasLifecycle t c
        ↔ ∀ payload, (receiveFrame c.reader).1 = .ok (some payload) → t.stoppedAtAdmission = false →
            ∀ request, parseRequest defaultLimits payload = .ok request →
              AnswerableRequest hasLifecycle t request := by
      unfold Answerable
      simp only [hread, hended, hrunning, forall_const]
    rw [hsame]
    exact decides_afterRead (hopen.read _) fun _ herror => named_of_receiveFrame herror

theorem turn_ended (h : c.ended.isSome = true) : turn hasLifecycle t c = c := if_pos h

theorem serve_ended {turns : List Turn} (h : c.ended.isSome = true) :
    serve hasLifecycle turns c = c := by
  induction turns with
  | nil => rfl
  | cons t turns ih =>
    show serve hasLifecycle turns (turn hasLifecycle t c) = c
    rw [turn_ended h]
    exact ih

/-- **Runs** of an open connection. -/
theorem decides_serve (turns : List Turn) (h : Orderly c) :
    Decides (AnswerableRun hasLifecycle turns c) (serve hasLifecycle turns c) := by
  induction turns generalizing c with
  | nil => exact .inl ⟨trivial, h⟩
  | cons t turns ih =>
    show Decides (_ ∧ _) (serve hasLifecycle turns (turn hasLifecycle t c))
    have hturn : Decides (Answerable hasLifecycle t c) (turn hasLifecycle t c) := decides_turn h
    rcases hturn with ⟨hanswerable, hnext⟩ | ⟨hnot, hescaped⟩
    · rw [and_iff_right hanswerable]
      exact ih hnext
    · have hover : (turn hasLifecycle t c).ended.isSome = true := by rw [hescaped]; rfl
      rw [serve_ended hover]
      exact .inr ⟨fun hrun => hnot hrun.1, hescaped⟩

theorem orderly_start (reader : StreamReader) : Orderly { reader := reader } where
  contained := by simp
  removed := rfl
  set k hk := absurd hk (Nat.not_lt_zero k)
  answered k payload hframe := by cases hframe
  unasked response hresponse := (List.not_mem_nil hresponse).elim
  fresh _ _ := rfl

end Turns

/-- **The handler of a connection**, over all bytes that a client sends and all turns: it is orderly
    after any number of them if and only if each of them was answerable where it was taken. -/
theorem serve_orderly_iff (hasLifecycle : Bool) (reader : StreamReader) (turns : List Turn) :
    Orderly (serve hasLifecycle turns { reader := reader })
      ↔ AnswerableRun hasLifecycle turns { reader := reader } := by
  have hrun : Decides (AnswerableRun hasLifecycle turns { reader := reader })
      (serve hasLifecycle turns { reader := reader }) := decides_serve turns (orderly_start reader)
  rcases hrun with ⟨hanswerable, horderly⟩ | ⟨hnot, hescaped⟩
  · exact iff_of_true horderly hanswerable
  · exact iff_of_false (fun horderly => horderly.contained hescaped) hnot

/-! ### An id that cannot be written -/

namespace SurrogateId

/-- A `ping` whose id is an escaped surrogate. -/
def payload : List UInt8 :=
  (text "\x7b\"version\":1,\"id\":\"\\ud800\",\"method\":\"ping\",\"payload\":\x7b\x7d\x7d").map
    fun c => UInt8.ofNat c.val

/-- The engine answers, nothing is stopped and every write is taken. -/
def plainTurn : Turn where
  stopped := false
  readFails := none
  stoppedAtAdmission := false
  engine _ := .result ⟨[], .obj List.nodup_nil (by simp) (by simp)⟩
  stoppedAfter := false
  write _ := some 1
  writeFails := false

/-- The client's stream: one frame. -/
def reader : StreamReader where
  bytes := framesOf [payload]
  extra _ := 0

theorem parsed : (parseRequest defaultLimits payload).toOption.map (fun r => (r.requestId, r.method))
    = some ([0xD800], text "ping") := by
  decide

theorem received : (receiveFrame reader).1 = .ok (some payload) := by
  have hbytes : reader.bytes = packHeader payload.length ++ (payload ++ []) := by
    simp [reader, framesOf]
  have hsize : payload.length ≤ maxPayloadBytes := by decide
  obtain ⟨reads, hreads⟩ := receiveFrame_complete hsize hbytes
  rw [hreads]

/-- The frame is admitted, and the exception of its error response leaves the handler. -/
theorem not_orderly : ¬ Orderly (serve true [plainTurn] { reader := reader }) := by
  have hrun : Decides (AnswerableRun true [plainTurn] { reader := reader })
      (serve true [plainTurn] { reader := reader }) := decides_serve _ (orderly_start reader)
  rcases hrun with ⟨⟨hanswerable, -⟩, -⟩ | ⟨-, hescaped⟩
  · exfalso
    cases hparse : parseRequest defaultLimits payload with
    | error e =>
      have h := parsed
      rw [hparse] at h
      cases h
    | ok request =>
      have h := parsed
      rw [hparse] at h
      obtain ⟨hid, hmethod⟩ := Prod.mk.inj (Option.some.inj h)
      have hrequest := hanswerable rfl rfl payload received rfl request hparse
      have hdispatch : dispatchRequest true request = .ok .serviceIdentity := by
        unfold dispatchRequest dispatchMutation dispatchReadOnly
        rw [hmethod]
        rfl
      unfold AnswerableRequest at hrequest
      rw [hdispatch, hid] at hrequest
      have hclean : isSurrogate 0xD800 = false := hrequest.1 0xD800 (by simp)
      exact absurd hclean (by decide)
  · exact fun horderly => horderly.contained hescaped

end SurrogateId

end IpcServer

end Devlegate
