import Devlegate.ExecutionResult
import Devlegate.State
import Devlegate.Lib.JsonStyle

namespace Devlegate

open JsonText

/-!
# Execution reports as dictionaries

`ExecutionReport.as_dict` and `ExecutionReport.from_dict`, over texts as Python holds them: lone
surrogates included.

* `Wire.buildExecutionReport`: the report of a run, with its artifact and digest.
* `Wire.ExecutionReport.fromDict`: the decoder with all its checks, in the order of the source.
* `Wire.fromDict_eq_ok`: the decoder accepts exactly the dictionaries of reports whose parts belong
  together.
* `Wire.reportDict_round_trips_iff`: an accepted claim is built into a report that is decoded again
  exactly when its long report holds no surrogate.
* `buildExecutionReport_wire`: the report of `Devlegate.ExecutionResult` is the one built here.
-/

namespace Wire

/-! ### Data -/

/-- What Devlegate knows about an execution before the worker runs. -/
structure Identity where
  executionId : Text
  ticketId : Text
  codeBaseHead : Text
  controlHead : Text
  executionBranch : Text
  executionPath : Text
  workspaceHead : Option Text
  deriving DecidableEq

/-- `WorkerRunResult`, as far as a report reads it. -/
structure RunResult where
  processReturncode : Int
  transportError : Option Text
  claim : Option WorkerClaim
  egressError : Option Text
  processStarted : Bool := true
  deriving DecidableEq

/-- `ExecutionResult`. -/
structure ExecutionResult where
  processReturncode : Int
  transportError : Option Text
  egressError : Option Text
  claim : Option WorkerClaim
  conclusion : Conclusion
  questions : List Text
  remaining : List Text
  reason : Text
  processStarted : Bool := true
  deriving DecidableEq

/-- `ExecutionResult.egress_ok`. -/
def ExecutionResult.egressOk (result : ExecutionResult) : Bool :=
  result.egressError.isNone && result.claim.isSome

/-- `ExecutionReport`. -/
structure ExecutionReport extends Identity where
  result : ExecutionResult
  reportArtifact : Option Text := none
  reportSha256 : Option Text := none
  deriving DecidableEq

/-! ### Building a report -/

/-- `value or default`: the empty text counts as absent. -/
def orText (value : Option Text) (default : String) : Text :=
  match value with
  | some s => if s = [] then text default else s
  | none => text default

/-- `_canonical_result`. -/
def canonicalResult (processReturncode : Int) (transportError egressError : Option Text)
    (claim : Option WorkerClaim) (processStarted : Bool) : Except BuildError (Conclusion × Text) :=
  if claim.isSome && egressError.isSome then
    .error (.reportError "worker claim cannot coexist with typed-egress error")
  else if !processStarted then
    .ok (.failed, text "worker launch failed: " ++ orText transportError "unknown error")
  else if processReturncode < 0 then
    let number := (-processReturncode).toNat
    .ok (.failed, text ("worker terminated by signal " ++ toString number ++ " (" ++
      signalName number ++ ")"))
  else if processReturncode ≠ 0 then
    .ok (.failed, text ("worker exited with status " ++ toString processReturncode))
  else match transportError with
    | some message => .ok (.failed, message)
    | none =>
      match egressError, claim with
      | none, some claim => .ok (claim.outcome.conclusion, text "valid worker claim")
      | egress, _ => .ok (.failed, orText egress "worker claim is unavailable")

/-- The questions of a claim. -/
def questionsOf (claim : Option WorkerClaim) : List Text := (claim.map (·.questions)).getD []

/-- What a claim leaves undone. -/
def remainingOf (claim : Option WorkerClaim) : List Text := (claim.map (·.remaining)).getD []

/-- The long report of a claim. -/
def longReport (claim : Option WorkerClaim) : Option Text := claim.bind (·.report)

/-- `build_execution_result`. -/
def buildExecutionResult (run : RunResult) : Except BuildError ExecutionResult := do
  let (conclusion, reason) ← canonicalResult run.processReturncode run.transportError
    run.egressError run.claim run.processStarted
  return {
    processReturncode := run.processReturncode
    transportError := run.transportError
    egressError := run.egressError
    claim := run.claim
    conclusion := conclusion
    questions := questionsOf run.claim
    remaining := remainingOf run.claim
    reason := reason
    processStarted := run.processStarted }

/-- The artifact of a long report. -/
def artifactPath (ticketId executionId : Text) : Text :=
  text "executions/" ++ ticketId ++ text "/" ++ executionId ++ text ".md"

section Report

variable [Sha256]

/-- The digest of the long report. -/
def digestOf (longReport : Option Text) : Except BuildError (Option Text) := do
  let digest ← reportDigest longReport
  return digest.map text

/-- `build_execution_report`. -/
def buildExecutionReport (identity : Identity) (run : RunResult) :
    Except BuildError ExecutionReport := do
  let result ← buildExecutionResult run
  let digest ← digestOf (longReport result.claim)
  return {
    toIdentity := identity
    result := result
    reportArtifact := (longReport result.claim).map fun _ =>
      artifactPath identity.ticketId identity.executionId
    reportSha256 := digest }

end Report

/-! ### Encoding -/

/-- `_REPORT_SCHEMA`. -/
def reportSchema : String := "devlegate.execution-report.v1"

/-- A conclusion's word. -/
def conclusionWord : Conclusion → String
  | .completed => "completed"
  | .incomplete => "incomplete"
  | .blocked => "blocked"
  | .failed => "failed"

/-- A text or `None`. -/
def ofOptional (value : Option Text) : Json := (value.map .str).getD .null

/-- A list of texts. -/
def ofTexts (values : List Text) : Json := .arr (values.map .str)

/-- The `worker_claim` of a report. -/
def claimMembers (claim : WorkerClaim) : List (Text × Json) :=
  [(text "outcome", .str (text claim.outcome.word)), (text "summary", .str claim.summary),
    (text "remaining", ofTexts claim.remaining), (text "questions", ofTexts claim.questions),
    (text "report", ofOptional claim.report)]

/-- The members of `as_dict`. -/
def ExecutionReport.members (report : ExecutionReport) : List (Text × Json) :=
  let result := report.result
  [(text "schema", .str (text reportSchema)),
    (text "execution_id", .str report.executionId),
    (text "ticket_id", .str report.ticketId),
    (text "code_base_head", .str report.codeBaseHead),
    (text "control_head", .str report.controlHead),
    (text "execution_branch", .str report.executionBranch),
    (text "execution_path", .str report.executionPath),
    (text "workspace_head", ofOptional report.workspaceHead),
    (text "process_returncode", .int result.processReturncode),
    (text "process_started", .bool result.processStarted),
    (text "transport_error", ofOptional result.transportError),
    (text "transport_ok", .bool result.transportError.isNone),
    (text "egress_error", ofOptional result.egressError),
    (text "egress_ok", .bool result.egressOk),
    (text "worker_claim", (result.claim.map fun claim => .obj (claimMembers claim)).getD .null),
    (text "conclusion", .str (text (conclusionWord result.conclusion))),
    (text "questions", ofTexts result.questions),
    (text "remaining", ofTexts result.remaining),
    (text "reason", .str result.reason),
    (text "report_artifact", ofOptional report.reportArtifact),
    (text "report_sha256", ofOptional report.reportSha256)]

/-- `ExecutionReport.as_dict`. -/
def ExecutionReport.asDict (report : ExecutionReport) : Json := .obj report.members

/-! ### Decoding -/

/-- A value, or the `ExecutionReportError` raised in its absence. -/
def orFail {α : Type} (value : Option α) (message : String) : Except BuildError α :=
  match value with
  | some a => .ok a
  | none => .error (.reportError message)

/-- Raise an `ExecutionReportError` unless the check holds. -/
def ensure (check : Bool) (message : String) : Except BuildError Unit :=
  if check then .ok () else .error (.reportError message)

/-- `required`. -/
def requiredFields : List String :=
  ["schema", "execution_id", "ticket_id", "code_base_head", "control_head", "execution_branch",
    "execution_path", "workspace_head", "process_returncode", "transport_error", "transport_ok",
    "egress_error", "egress_ok", "worker_claim", "conclusion", "questions", "remaining", "reason"]

/-- `optional`. -/
def optionalFields : List String := ["report_artifact", "report_sha256", "process_started"]

/-- `required.issubset(payload) and not set(payload) - required - optional`. -/
def knownFields (fields : List (Text × Json)) : Bool :=
  requiredFields.all (fun name => (getField fields name).isSome)
    && fields.all fun f => (requiredFields ++ optionalFields).any fun name => text name == f.1

/-- `_IDENTIFIER.fullmatch`. -/
def isIdentifier (s : Text) : Bool :=
  let letters := (text "ABCDEFGHIJKLMNOPQRSTUVWXYZabcdefghijklmnopqrstuvwxyz0123456789")
  match s with
  | [] => false
  | c :: rest => letters.contains c && rest.all fun c => (letters ++ text "_-").contains c

/-- The conclusion a text names; `_CONCLUSIONS`. -/
def conclusionOf (value : Option Json) : Option Conclusion := do
  let s ← Json.asStr value
  if s = text "completed" then some .completed
  else if s = text "incomplete" then some .incomplete
  else if s = text "blocked" then some .blocked
  else if s = text "failed" then some .failed
  else none

/-- `_strings`. -/
def strings (value : Option Json) (field : String) : Except BuildError (List Text) :=
  orFail (stringItems value) ("execution report " ++ field ++ " is invalid")

/-- `_parse_claim`. -/
def parseClaim (value : Json) : Except BuildError WorkerClaim := do
  let fields ← orFail (Json.asObj (some value)) "execution report worker claim is invalid"
  ensure (exactFields fields) "execution report worker claim is invalid"
  let outcome ← orFail ((Json.asStr (getField fields "outcome")).bind Outcome.ofText)
    "execution report worker claim outcome is invalid"
  let summary ← orFail (Json.asStr (getField fields "summary"))
    "execution report worker claim summary is invalid"
  let report ← orFail (optionalText (getField fields "report"))
    "execution report worker claim report is invalid"
  let remaining ← strings (getField fields "remaining") "worker claim remaining"
  let questions ← strings (getField fields "questions") "worker claim questions"
  return ⟨outcome, summary, remaining, questions, report⟩

/-- `payload["worker_claim"]`, parsed unless it is `None`. -/
def readClaim (value : Option Json) : Except BuildError (Option WorkerClaim) :=
  match value with
  | none | some .null => .ok none
  | some value => do
    let claim ← parseClaim value
    return some claim

/-- The fields of a report's identity, with the reason. -/
def readIdentity (fields : List (Text × Json)) : Except BuildError (Identity × Text) := do
  let message := "execution report identity fields are invalid"
  let executionId ← orFail (Json.asStr (getField fields "execution_id")) message
  let ticketId ← orFail (Json.asStr (getField fields "ticket_id")) message
  let codeBaseHead ← orFail (Json.asStr (getField fields "code_base_head")) message
  let controlHead ← orFail (Json.asStr (getField fields "control_head")) message
  let executionBranch ← orFail (Json.asStr (getField fields "execution_branch")) message
  let executionPath ← orFail (Json.asStr (getField fields "execution_path")) message
  let reason ← orFail (Json.asStr (getField fields "reason")) message
  ensure (isIdentifier executionId) "invalid execution report execution_id"
  ensure (isIdentifier ticketId) "invalid execution report ticket_id"
  let workspaceHead ← orFail (optionalText (getField fields "workspace_head"))
    "execution report workspace head is invalid"
  return (⟨executionId, ticketId, codeBaseHead, controlHead, executionBranch, executionPath,
    workspaceHead⟩, reason)

/-- The artifact and its digest. -/
def readArtifact (fields : List (Text × Json)) (identity : Identity) :
    Except BuildError (Option Text × Option Text) := do
  let reportArtifact ← orFail (optionalText (getField fields "report_artifact"))
    "execution report artifact is invalid"
  ensure (reportArtifact == none
      || reportArtifact == some (artifactPath identity.ticketId identity.executionId))
    "execution report artifact identity is invalid"
  let reportSha256 ← orFail (optionalText (getField fields "report_sha256"))
    "execution report digest is invalid"
  return (reportArtifact, reportSha256)

/-- `payload.get("process_started", True)`, if it is a flag. -/
def startedOf (value : Option Json) : Option Bool :=
  match value with
  | none => some true
  | some value => Json.asBool (some value)

/-- What the process and its transport did. -/
def readProcess (fields : List (Text × Json)) : Except BuildError RunResult := do
  let processReturncode ← orFail (Json.asInt (getField fields "process_returncode"))
    "execution report process status is invalid"
  let processStarted ← orFail (startedOf (getField fields "process_started"))
    "execution report process provenance is invalid"
  let transportError ← orFail (optionalText (getField fields "transport_error"))
    "execution report transport error is invalid"
  let egressError ← orFail (optionalText (getField fields "egress_error"))
    "execution report egress error is invalid"
  ensure (Json.asBool (getField fields "transport_ok") == some transportError.isNone)
    "execution report transport status is inconsistent"
  let claim ← readClaim (getField fields "worker_claim")
  return ⟨processReturncode, transportError, claim, egressError, processStarted⟩

section Decoding

variable [Sha256]

/-- The artifact and its digest belong to the claim's long report. -/
def checkBinding (claim : Option WorkerClaim) (reportArtifact reportSha256 : Option Text) :
    Except BuildError Unit := do
  ensure (reportArtifact.isSome == (longReport claim).isSome
      && reportSha256.isSome == (longReport claim).isSome)
    "execution report artifact binding is inconsistent"
  let digest ← digestOf (longReport claim)
  ensure (reportSha256 == digest) "execution report digest is inconsistent"

/-- The fields that follow from the process and the claim. -/
def readResult (fields : List (Text × Json)) (run : RunResult) (reason : Text) :
    Except BuildError ExecutionResult := do
  ensure (Json.asBool (getField fields "egress_ok")
      == some (run.claim.isSome && run.egressError.isNone))
    "execution report egress status is inconsistent"
  let conclusion ← orFail (conclusionOf (getField fields "conclusion"))
    "execution report conclusion is invalid"
  let questions ← strings (getField fields "questions") "questions"
  let remaining ← strings (getField fields "remaining") "remaining"
  ensure (run.claim.isSome || questions == [] && remaining == [])
    "execution report has semantic data without claim"
  ensure (run.claim.isNone
      || questions == questionsOf run.claim && remaining == remainingOf run.claim)
    "execution report claim data is inconsistent"
  let (expectedConclusion, expectedReason) ← canonicalResult run.processReturncode
    run.transportError run.egressError run.claim run.processStarted
  ensure (conclusion == expectedConclusion) "execution report conclusion is inconsistent"
  ensure (reason == expectedReason) "execution report reason is inconsistent"
  return ⟨run.processReturncode, run.transportError, run.egressError, run.claim, conclusion,
    questions, remaining, reason, run.processStarted⟩

/-- `ExecutionReport.from_dict`. -/
def ExecutionReport.fromDict (payload : Json) : Except BuildError ExecutionReport := do
  let fields ← orFail (Json.asObj (some payload)) "execution report must be an object"
  ensure (knownFields fields) "execution report fields are invalid"
  ensure (Json.isText (getField fields "schema") reportSchema) "unsupported execution report schema"
  let (identity, reason) ← readIdentity fields
  let (reportArtifact, reportSha256) ← readArtifact fields identity
  let run ← readProcess fields
  checkBinding run.claim reportArtifact reportSha256
  let result ← readResult fields run reason
  return ⟨identity, result, reportArtifact, reportSha256⟩

end Decoding

/-! ### What the decoder accepts -/

section Accepts

theorem orFail_bind_eq_ok {α β : Type} {value : Option α} {message : String}
    {f : α → Except BuildError β} {b : β} :
    (orFail value message >>= f) = .ok b ↔ ∃ a, value = some a ∧ f a = .ok b := by
  cases value <;> simp [orFail, bind, Except.bind]

theorem ensure_eq_ok {check : Bool} {message : String} {u : Unit} :
    ensure check message = .ok u ↔ check = true := by
  cases check <;> simp [ensure]

theorem ensure_bind_eq_ok {β : Type} {check : Bool} {message : String}
    {f : Unit → Except BuildError β} {b : β} :
    (ensure check message >>= f) = .ok b ↔ check = true ∧ f () = .ok b := by
  cases check <;> simp [ensure, bind, Except.bind]

theorem strings_bind_eq_ok {β : Type} {value : Option Json} {field : String}
    {f : List Text → Except BuildError β} {b : β} :
    (strings value field >>= f) = .ok b ↔ ∃ xs, value = some (ofTexts xs) ∧ f xs = .ok b := by
  unfold strings
  rw [orFail_bind_eq_ok]
  simp only [stringItems_eq_some, ofTexts]

theorem asInt_eq_some {v : Option Json} {n : Int} : Json.asInt v = some n ↔ v = some (.int n) := by
  unfold Json.asInt
  split <;> simp_all

theorem asBool_eq_some {v : Option Json} {b : Bool} :
    Json.asBool v = some b ↔ v = some (.bool b) := by
  unfold Json.asBool
  split
  · simp [eq_comm]
  · rename_i hother
    simpa using fun h => hother b h

theorem conclusionOf_eq_some {v : Option Json} {c : Conclusion} :
    conclusionOf v = some c ↔ v = some (.str (text (conclusionWord c))) := by
  constructor
  · intro h
    obtain ⟨s, hs, h⟩ := Option.bind_eq_some_iff.mp h
    rw [asStr_eq_some.mp hs]
    split at h
    · cases h
      simp_all [conclusionWord]
    split at h
    · cases h
      simp_all [conclusionWord]
    split at h
    · cases h
      simp_all [conclusionWord]
    split at h
    · cases h
      simp_all [conclusionWord]
    · cases h
  · rintro rfl
    cases c <;> decide

/-- A value that may be absent. -/
theorem optionalText_iff {v : Option Json} {x : Option Text} :
    optionalText v = some x ↔ v = some (ofOptional x) ∨ v = none ∧ x = none := by
  rw [optionalText_eq_some]
  cases x with
  | none =>
    show v = none ∨ v = some .null ↔ v = some .null ∨ v = none ∧ none = none
    tauto
  | some s =>
    show v = some (.str s) ↔ v = some (.str s) ∨ v = none ∧ some s = none
    simp

theorem startedOf_iff {v : Option Json} {b : Bool} :
    startedOf v = some b ↔ v = some (.bool b) ∨ v = none ∧ b = true := by
  unfold startedOf
  split
  · simp [eq_comm]
  · rw [asBool_eq_some]
    simp

/-- `_parse_claim` accepts what the egress parser accepts. -/
theorem parseClaim_eq_ok {value : Json} {claim : WorkerClaim} :
    parseClaim value = .ok claim ↔ ValidArguments (some value) claim := by
  unfold parseClaim
  simp only [orFail_bind_eq_ok, ensure_bind_eq_ok, strings_bind_eq_ok, asObj_eq_some,
    Option.bind_eq_some_iff, asStr_eq_some, ofText_eq_some, optionalText_eq_some]
  constructor
  · rintro ⟨fields, hvalue, hexact, outcome, ⟨s, hs, rfl⟩, summary, hsummary, report, hreport,
      remaining, hremaining, questions, hquestions, h⟩
    cases h
    exact ⟨fields, hvalue, hexact, hs, hsummary, hremaining, hquestions, hreport⟩
  · rintro ⟨fields, hvalue, hexact, hs, hsummary, hremaining, hquestions, hreport⟩
    exact ⟨fields, hvalue, hexact, claim.outcome, ⟨_, hs, rfl⟩, claim.summary, hsummary,
      claim.report, hreport, claim.remaining, hremaining, claim.questions, hquestions, rfl⟩

/-- The `worker_claim` of a claim, or of none. -/
def ClaimValue (value : Option Json) (claim : Option WorkerClaim) : Prop :=
  match claim with
  | none => value = none ∨ value = some .null
  | some claim => ValidArguments value claim

theorem readClaim_eq_ok {value : Option Json} {claim : Option WorkerClaim} :
    readClaim value = .ok claim ↔ ClaimValue value claim := by
  unfold readClaim
  split
  · cases claim with
    | none => simp [ClaimValue]
    | some claim => simp [ClaimValue, ValidArguments]
  · cases claim with
    | none => simp [ClaimValue]
    | some claim => simp [ClaimValue, ValidArguments]
  · rename_i v hnull
    rw [bind_eq_ok]
    cases claim with
    | none =>
      simp only [ClaimValue, reduceCtorEq, Option.some.injEq, false_or]
      constructor
      · rintro ⟨claim, -, h⟩
        cases h
      · exact fun h => absurd h (hnull ·)
    | some claim =>
      simp only [ClaimValue, parseClaim_eq_ok]
      constructor
      · rintro ⟨other, hother, h⟩
        cases h
        exact hother
      · exact fun h => ⟨claim, h, rfl⟩

/-- The identity and the reason that a dictionary names. -/
structure IdentityOf (fields : List (Text × Json)) (identity : Identity) (reason : Text) :
    Prop where
  executionId : getField fields "execution_id" = some (.str identity.executionId)
  ticketId : getField fields "ticket_id" = some (.str identity.ticketId)
  codeBaseHead : getField fields "code_base_head" = some (.str identity.codeBaseHead)
  controlHead : getField fields "control_head" = some (.str identity.controlHead)
  executionBranch : getField fields "execution_branch" = some (.str identity.executionBranch)
  executionPath : getField fields "execution_path" = some (.str identity.executionPath)
  reason : getField fields "reason" = some (.str reason)
  executionIdentifier : isIdentifier identity.executionId = true
  ticketIdentifier : isIdentifier identity.ticketId = true
  workspaceHead : optionalText (getField fields "workspace_head") = some identity.workspaceHead

theorem readIdentity_eq_ok {fields : List (Text × Json)} {identity : Identity} {reason : Text} :
    readIdentity fields = .ok (identity, reason) ↔ IdentityOf fields identity reason := by
  unfold readIdentity
  simp only [orFail_bind_eq_ok, ensure_bind_eq_ok, asStr_eq_some]
  constructor
  · rintro ⟨executionId, hexecution, ticketId, hticket, base, hbase, control, hcontrol, branch,
      hbranch, path, hpath, reason, hreason, hidentifier, hidentifier', head, hhead, h⟩
    cases h
    exact ⟨hexecution, hticket, hbase, hcontrol, hbranch, hpath, hreason, hidentifier,
      hidentifier', hhead⟩
  · intro h
    exact ⟨_, h.executionId, _, h.ticketId, _, h.codeBaseHead, _, h.controlHead, _,
      h.executionBranch, _, h.executionPath, _, h.reason, h.executionIdentifier,
      h.ticketIdentifier, _, h.workspaceHead, rfl⟩

/-- What a dictionary says about the process, the transport and the claim. -/
structure ProcessOf (fields : List (Text × Json)) (run : RunResult) : Prop where
  processReturncode : getField fields "process_returncode" = some (.int run.processReturncode)
  processStarted : startedOf (getField fields "process_started") = some run.processStarted
  transportError : optionalText (getField fields "transport_error") = some run.transportError
  egressError : optionalText (getField fields "egress_error") = some run.egressError
  transportOk : getField fields "transport_ok" = some (.bool run.transportError.isNone)
  claim : ClaimValue (getField fields "worker_claim") run.claim

theorem readProcess_eq_ok {fields : List (Text × Json)} {run : RunResult} :
    readProcess fields = .ok run ↔ ProcessOf fields run := by
  unfold readProcess
  simp only [orFail_bind_eq_ok, ensure_bind_eq_ok, asInt_eq_some, beq_iff_eq, asBool_eq_some]
  simp only [bind_eq_ok, readClaim_eq_ok]
  constructor
  · rintro ⟨code, hcode, started, hstarted, transport, htransport, egress, hegress, hok, claim,
      hclaim, h⟩
    cases h
    exact ⟨hcode, hstarted, htransport, hegress, hok, hclaim⟩
  · intro h
    exact ⟨_, h.processReturncode, _, h.processStarted, _, h.transportError, _, h.egressError,
      h.transportOk, _, h.claim, rfl⟩

/-- A report whose parts belong together: the artifact and its digest to the claim's long report,
    the lists to the claim, the conclusion and its reason to the run. -/
structure ExecutionReport.Consistent [Sha256] (report : ExecutionReport) : Prop where
  artifact : report.reportArtifact = (longReport report.result.claim).map fun _ =>
    artifactPath report.ticketId report.executionId
  digest : digestOf (longReport report.result.claim) = .ok report.reportSha256
  questions : report.result.questions = questionsOf report.result.claim
  remaining : report.result.remaining = remainingOf report.result.claim
  canonical : canonicalResult report.result.processReturncode report.result.transportError
    report.result.egressError report.result.claim report.result.processStarted
      = .ok (report.result.conclusion, report.result.reason)

/-- What the result of a report reads back of its run. -/
def ExecutionResult.run (result : ExecutionResult) : RunResult where
  processReturncode := result.processReturncode
  transportError := result.transportError
  claim := result.claim
  egressError := result.egressError
  processStarted := result.processStarted

/-- What a dictionary says about the result beyond its run. -/
structure ResultOf (fields : List (Text × Json)) (result : ExecutionResult) : Prop where
  egressOk : getField fields "egress_ok" = some (.bool result.egressOk)
  conclusion : getField fields "conclusion" = some (.str (text (conclusionWord result.conclusion)))
  questions : getField fields "questions" = some (ofTexts result.questions)
  remaining : getField fields "remaining" = some (ofTexts result.remaining)

/-- A dictionary of a report, key by key. -/
structure DictOf (fields : List (Text × Json)) (report : ExecutionReport) : Prop where
  known : knownFields fields = true
  schema : getField fields "schema" = some (.str (text reportSchema))
  identity : IdentityOf fields report.toIdentity report.result.reason
  reportArtifact : optionalText (getField fields "report_artifact") = some report.reportArtifact
  reportSha256 : optionalText (getField fields "report_sha256") = some report.reportSha256
  process : ProcessOf fields report.result.run
  result : ResultOf fields report.result

section Decoder

variable [Sha256]

omit [Sha256] in
theorem readArtifact_eq_ok {fields : List (Text × Json)} {identity : Identity}
    {artifact digest : Option Text} :
    readArtifact fields identity = .ok (artifact, digest) ↔
      optionalText (getField fields "report_artifact") = some artifact
        ∧ (artifact = none
          ∨ artifact = some (artifactPath identity.ticketId identity.executionId))
        ∧ optionalText (getField fields "report_sha256") = some digest := by
  unfold readArtifact
  simp only [orFail_bind_eq_ok, ensure_bind_eq_ok, Bool.or_eq_true, beq_iff_eq]
  constructor
  · rintro ⟨artifact, hartifact, hpath, digest, hdigest, h⟩
    cases h
    exact ⟨hartifact, hpath, hdigest⟩
  · rintro ⟨hartifact, hpath, hdigest⟩
    exact ⟨_, hartifact, hpath, _, hdigest, rfl⟩

/-- The digest stands where the long report does. -/
theorem digestOf_isSome {long digest : Option Text} (h : digestOf long = .ok digest) :
    digest.isSome = long.isSome := by
  unfold digestOf at h
  obtain ⟨hex, hhex, h⟩ := bind_eq_ok.mp h
  cases h
  rw [Option.isSome_map]
  unfold reportDigest at hhex
  split at hhex
  · cases hhex
    rfl
  split at hhex
  · cases hhex
    rfl
  · cases hhex

theorem checkBinding_eq_ok {claim : Option WorkerClaim} {artifact digest : Option Text} {u : Unit} :
    checkBinding claim artifact digest = .ok u ↔
      artifact.isSome = (longReport claim).isSome ∧ digestOf (longReport claim) = .ok digest := by
  unfold checkBinding
  rw [ensure_bind_eq_ok, bind_eq_ok]
  simp only [Bool.and_eq_true, beq_iff_eq, ensure_eq_ok]
  constructor
  · rintro ⟨⟨hartifact, -⟩, expected, hexpected, rfl⟩
    exact ⟨hartifact, hexpected⟩
  · rintro ⟨hartifact, hdigest⟩
    exact ⟨⟨hartifact, digestOf_isSome hdigest⟩, digest, hdigest, rfl⟩

omit [Sha256] in
theorem readResult_eq_ok {fields : List (Text × Json)} {run : RunResult} {reason : Text}
    {result : ExecutionResult} :
    readResult fields run reason = .ok result ↔
      result.run = run ∧ result.reason = reason ∧ ResultOf fields result
        ∧ result.questions = questionsOf run.claim ∧ result.remaining = remainingOf run.claim
        ∧ canonicalResult run.processReturncode run.transportError run.egressError run.claim
            run.processStarted = .ok (result.conclusion, reason) := by
  have hlists : ∀ questions remaining : List Text,
      ((run.claim.isSome || questions == [] && remaining == []) = true
          ∧ (run.claim.isNone
            || questions == questionsOf run.claim && remaining == remainingOf run.claim) = true)
        ↔ questions = questionsOf run.claim ∧ remaining = remainingOf run.claim := by
    intro questions remaining
    cases run.claim <;> simp [questionsOf, remainingOf]
  unfold readResult
  simp only [orFail_bind_eq_ok, ensure_bind_eq_ok, strings_bind_eq_ok, beq_iff_eq, asBool_eq_some,
    conclusionOf_eq_some]
  simp only [bind_eq_ok]
  constructor
  · rintro ⟨hegress, conclusion, hconclusion, questions, hquestions, remaining, hremaining, hnone,
      hsome, ⟨expected, expectedReason⟩, hcanonical, h⟩
    obtain ⟨_, hexpected, _, hexpectedReason, h⟩ := h
    rw [ensure_eq_ok, beq_iff_eq] at hexpected hexpectedReason
    subst hexpected hexpectedReason
    cases h
    obtain ⟨hq, hr⟩ := (hlists questions remaining).mp ⟨hnone, hsome⟩
    have hok : getField fields "egress_ok"
        = some (.bool (run.egressError.isNone && run.claim.isSome)) := by
      rw [hegress, Bool.and_comm]
    exact ⟨rfl, rfl, ⟨hok, hconclusion, hquestions, hremaining⟩, hq, hr, hcanonical⟩
  · rintro ⟨rfl, rfl, hresult, hq, hr, hcanonical⟩
    obtain ⟨hnone, hsome⟩ := (hlists result.questions result.remaining).mpr ⟨hq, hr⟩
    have hok : getField fields "egress_ok"
        = some (.bool (result.run.claim.isSome && result.run.egressError.isNone)) := by
      rw [hresult.egressOk, Bool.and_comm]
      rfl
    refine ⟨hok, _, hresult.conclusion, _, hresult.questions, _, hresult.remaining, hnone, hsome,
      _, hcanonical, ?_⟩
    exact ⟨(), ensure_eq_ok.mpr (beq_self_eq_true _), (),
      ensure_eq_ok.mpr (beq_self_eq_true _), rfl⟩

/-- **Decoding.** `from_dict` accepts exactly the dictionaries of reports whose parts belong
    together. -/
theorem fromDict_eq_ok {payload : Json} {report : ExecutionReport} :
    ExecutionReport.fromDict payload = .ok report ↔
      ∃ fields, payload = .obj fields ∧ DictOf fields report ∧ report.Consistent := by
  unfold ExecutionReport.fromDict
  simp only [orFail_bind_eq_ok, ensure_bind_eq_ok, asObj_eq_some, Option.some.injEq, isText_iff]
  simp only [bind_eq_ok, Prod.exists, readIdentity_eq_ok, readArtifact_eq_ok, readProcess_eq_ok,
    checkBinding_eq_ok, readResult_eq_ok]
  constructor
  · rintro ⟨fields, hpayload, hknown, hschema, identity, reason, hidentity, artifact, digest,
      ⟨hartifact, hpath, hsha⟩, run, hprocess, _, ⟨hbinding, hdigest⟩, result,
      ⟨rfl, rfl, hresult, hquestions, hremaining, hcanonical⟩, h⟩
    cases h
    refine ⟨fields, hpayload, ⟨hknown, hschema, hidentity, hartifact, hsha, hprocess, hresult⟩,
      ⟨?_, hdigest, hquestions, hremaining, hcanonical⟩⟩
    show artifact = (longReport result.run.claim).map fun _ => _
    rcases hpath with rfl | rfl
    · cases hlong : longReport result.run.claim with
      | none => rfl
      | some long =>
        rw [hlong] at hbinding
        cases hbinding
    · cases hlong : longReport result.run.claim with
      | none =>
        rw [hlong] at hbinding
        cases hbinding
      | some long => rfl
  · rintro ⟨fields, hpayload, hdict, hconsistent⟩
    have hpath : report.reportArtifact = none ∨ report.reportArtifact
        = some (artifactPath report.ticketId report.executionId) := by
      rw [hconsistent.artifact]
      cases longReport report.result.claim with
      | none => exact .inl rfl
      | some long => exact .inr rfl
    have hbinding : report.reportArtifact.isSome = (longReport report.result.run.claim).isSome := by
      rw [hconsistent.artifact, Option.isSome_map]
      rfl
    exact ⟨fields, hpayload, hdict.known, hdict.schema, report.toIdentity, report.result.reason,
      hdict.identity, report.reportArtifact, report.reportSha256,
      ⟨hdict.reportArtifact, hpath, hdict.reportSha256⟩, report.result.run, hdict.process, (),
      ⟨hbinding, hconsistent.digest⟩, report.result,
      ⟨rfl, rfl, hdict.result, hconsistent.questions, hconsistent.remaining, hconsistent.canonical⟩,
      rfl⟩

end Decoder

end Accepts

/-! ### The dictionary of a report is decoded -/

theorem validArguments_claimMembers (claim : WorkerClaim) :
    ValidArguments (some (.obj (claimMembers claim))) claim := by
  refine ⟨_, rfl, by rfl, rfl, rfl, rfl, rfl, ?_⟩
  cases hreport : claim.report with
  | none =>
    right
    show some (ofOptional claim.report) = _
    rw [hreport]
    rfl
  | some report =>
    show some (ofOptional claim.report) = _
    rw [hreport]
    rfl

theorem optionalText_ofOptional (x : Option Text) : optionalText (some (ofOptional x)) = some x := by
  cases x <;> rfl

/-- The members of a report say its parts. -/
theorem dictOf_members {report : ExecutionReport} (hexecution : isIdentifier report.executionId = true)
    (hticket : isIdentifier report.ticketId = true) : DictOf report.members report where
  known := rfl
  schema := rfl
  identity := ⟨rfl, rfl, rfl, rfl, rfl, rfl, rfl, hexecution, hticket, optionalText_ofOptional _⟩
  reportArtifact := optionalText_ofOptional _
  reportSha256 := optionalText_ofOptional _
  process := by
    refine ⟨rfl, rfl, optionalText_ofOptional _, optionalText_ofOptional _, rfl, ?_⟩
    have hget : getField report.members "worker_claim"
        = some ((report.result.claim.map fun claim => .obj (claimMembers claim)).getD .null) := rfl
    show ClaimValue (getField report.members "worker_claim") report.result.claim
    rw [hget]
    cases report.result.claim with
    | none => exact .inr rfl
    | some claim => exact validArguments_claimMembers claim
  result := ⟨rfl, rfl, rfl, rfl⟩

section Build

variable [Sha256] {identity : Identity} {run : RunResult} {report : ExecutionReport}

/-- The parts of a report that was built belong together. -/
theorem consistent_of_build (h : buildExecutionReport identity run = .ok report) :
    report.Consistent ∧ report.toIdentity = identity := by
  unfold buildExecutionReport buildExecutionResult at h
  simp only [bind_eq_ok] at h
  obtain ⟨result, ⟨⟨conclusion, reason⟩, hcanonical, hresult⟩, digest, hdigest, h⟩ := h
  cases hresult
  cases h
  exact ⟨⟨rfl, hdigest, rfl, rfl, hcanonical⟩, rfl⟩

/-- A report that was built is decoded again. -/
theorem fromDict_asDict_of_build (h : buildExecutionReport identity run = .ok report)
    (hexecution : isIdentifier identity.executionId = true)
    (hticket : isIdentifier identity.ticketId = true) :
    ExecutionReport.fromDict report.asDict = .ok report := by
  obtain ⟨hconsistent, rfl⟩ := consistent_of_build h
  exact fromDict_eq_ok.mpr ⟨_, rfl, dictOf_members hexecution hticket, hconsistent⟩

theorem digestOf_ok_iff {long : Option Text} :
    (∃ digest, digestOf long = .ok digest) ↔ ∀ s ∈ long, ∀ c ∈ s, isSurrogate c = false := by
  cases long with
  | none =>
    refine ⟨fun _ => by simp, fun _ => ⟨none, rfl⟩⟩
  | some s =>
    simp only [Option.mem_def, Option.some.injEq, forall_eq', ← Utf8.encode_isSome]
    unfold digestOf reportDigest
    cases hencode : Utf8.encode s with
    | none => simp [hencode, bind, Except.bind]
    | some raw => simp [hencode, bind, Except.bind, pure, Except.pure]

/-- With a claim and without an egress error, only the digest can fail. -/
theorem buildExecutionReport_ok_iff {claim : WorkerClaim} (hclaim : run.claim = some claim)
    (hegress : run.egressError = none) :
    (∃ report, buildExecutionReport identity run = .ok report) ↔
      ∀ s ∈ claim.report, ∀ c ∈ s, isSurrogate c = false := by
  obtain ⟨outcome, hcanonical⟩ : ∃ outcome, canonicalResult run.processReturncode
      run.transportError run.egressError run.claim run.processStarted = .ok outcome := by
    rw [hclaim, hegress]
    unfold canonicalResult
    rw [if_neg (by simp)]
    repeat' split
    all_goals exact ⟨_, rfl⟩
  have hlong : longReport run.claim = claim.report := by
    rw [hclaim]
    rfl
  rw [← digestOf_ok_iff, ← hlong]
  unfold buildExecutionReport buildExecutionResult
  simp only [bind_eq_ok, hcanonical]
  constructor
  · rintro ⟨report, result, ⟨_, _, hresult⟩, digest, hdigest, -⟩
    cases hresult
    exact ⟨digest, hdigest⟩
  · rintro ⟨digest, hdigest⟩
    exact ⟨_, _, ⟨_, rfl, rfl⟩, digest, hdigest, rfl⟩

end Build

/-! ### The dictionary of a decoded report -/

/-- `fields.setdefault(name, value)`. -/
def setDefault (fields : List (Text × Json)) (name : String) (value : Json) : List (Text × Json) :=
  if (getField fields name).isSome then fields else fields ++ [(text name, value)]

/-- A claim's dictionary with its optional key. -/
def claimWithDefaults : Json → Json
  | .obj fields => .obj (setDefault fields "report" .null)
  | value => value

/-- A report's dictionary with its optional keys. -/
def withDefaults : Json → Json
  | .obj fields =>
    let fields := fields.map fun f =>
      (f.1, if f.1 = text "worker_claim" then claimWithDefaults f.2 else f.2)
    .obj (setDefault (setDefault (setDefault fields "report_artifact" .null) "report_sha256" .null)
      "process_started" (.bool true))
  | value => value

section Defaults

variable {fields : List (Text × Json)}

theorem lookup_append_none {key : Text} {rest : List (Text × Json)} (h : fields.lookup key = none) :
    (fields ++ rest).lookup key = rest.lookup key := by
  rw [List.lookup_append, h]
  rfl

theorem getField_setDefault_self (name : String) (value : Json) :
    getField (setDefault fields name value) name = some ((getField fields name).getD value) := by
  unfold setDefault
  split
  · rename_i hsome
    obtain ⟨v, hv⟩ := Option.isSome_iff_exists.mp hsome
    rw [hv]
    rfl
  · rename_i hnone
    have hlookup : getField fields name = none := by simpa using hnone
    rw [hlookup]
    unfold getField at hlookup ⊢
    rw [lookup_append_none hlookup]
    simp

theorem getField_setDefault_ne {name other : String} (h : text other ≠ text name) (value : Json) :
    getField (setDefault fields name value) other = getField fields other := by
  unfold setDefault
  split
  · rfl
  · have hmiss : [(text name, value)].lookup (text other) = none := by
      rw [List.lookup_cons, beq_eq_false_iff_ne.mpr h]
      rfl
    unfold getField
    rw [List.lookup_append, hmiss, Option.or_none]

theorem nodup_setDefault {name : String} {value : Json} (h : (fields.map (·.1)).Nodup) :
    ((setDefault fields name value).map (·.1)).Nodup := by
  unfold setDefault
  split
  · exact h
  · rename_i hnone
    have hlookup : fields.lookup (text name) = none := Option.not_isSome_iff_eq_none.mp hnone
    rw [List.lookup_eq_none_iff] at hlookup
    rw [List.map_append, List.nodup_append]
    refine ⟨h, by simp, ?_⟩
    intro key hkey other hother heq
    obtain ⟨f, hf, rfl⟩ := List.mem_map.mp hkey
    have hname : other = text name := by simpa using hother
    have hne := hlookup f hf
    rw [heq, hname] at hne
    simp at hne

theorem key_mem_setDefault {name : String} {value : Json} {f : Text × Json}
    (h : f ∈ setDefault fields name value) : f.1 ∈ fields.map (·.1) ∨ f.1 = text name := by
  unfold setDefault at h
  split at h
  · exact .inl (List.mem_map.mpr ⟨f, h, rfl⟩)
  · rcases List.mem_append.mp h with h | h
    · exact .inl (List.mem_map.mpr ⟨f, h, rfl⟩)
    · rw [List.mem_singleton.mp h]
      exact .inr rfl

theorem same_ofOptional (x : Option Text) : Same (ofOptional x) (ofOptional x) := by
  cases x with
  | none => exact .null
  | some s => exact .str s

theorem same_ofTexts (xs : List Text) : Same (ofTexts xs) (ofTexts xs) := by
  have hsame : Same (.arr ((xs.map fun s => (Json.str s, Json.str s)).map (·.1)))
      (.arr ((xs.map fun s => (Json.str s, Json.str s)).map (·.2))) := by
    refine .arr ?_
    intro item hitem
    obtain ⟨s, -, rfl⟩ := List.mem_map.mp hitem
    exact .str s
  simpa [ofTexts, Function.comp_def] using hsame

/-- The dictionary of a claim that was accepted. -/
theorem same_claim {claim : WorkerClaim} (hnodup : (fields.map (·.1)).Nodup)
    (h : ValidArguments (some (.obj fields)) claim) :
    Same (.obj (claimMembers claim)) (claimWithDefaults (.obj fields)) := by
  obtain ⟨fields', hfields, hexact, houtcome, hsummary, hremaining, hquestions, hreport⟩ := h
  cases hfields
  have hoptional : (getField fields "report").getD .null = ofOptional claim.report := by
    cases hclaim : claim.report with
    | none =>
      rw [hclaim] at hreport
      rcases hreport with hreport | hreport <;> rw [hreport] <;> rfl
    | some s =>
      rw [hclaim] at hreport
      rw [show getField fields "report" = _ from hreport]
      rfl
  refine same_obj ?_ (nodup_setDefault hnodup) ?_ ?_
  · show List.Nodup [text "outcome", text "summary", text "remaining", text "questions",
      text "report"]
    decide
  · have hkeep : ∀ name, text name ≠ text "report" →
        getField (setDefault fields "report" .null) name = getField fields name :=
      fun name hne => getField_setDefault_ne hne .null
    have hself : getField (setDefault fields "report" .null) "report"
        = some ((getField fields "report").getD .null) := getField_setDefault_self "report" .null
    rw [hoptional] at hself
    simp only [claimMembers, List.forall_mem_cons, List.not_mem_nil, false_implies, implies_true,
      and_true]
    refine ⟨⟨_, (hkeep "outcome" (by decide)).trans houtcome, .str _⟩,
      ⟨_, (hkeep "summary" (by decide)).trans hsummary, .str _⟩,
      ⟨_, (hkeep "remaining" (by decide)).trans hremaining, same_ofTexts _⟩,
      ⟨_, (hkeep "questions" (by decide)).trans hquestions, same_ofTexts _⟩,
      ⟨_, hself, same_ofOptional _⟩⟩
  · intro g hg
    have hknown : ∀ name ∈ claimFields ++ ["report"],
        text name ∈ [text "outcome", text "summary", text "remaining", text "questions",
          text "report"] := by decide
    show g.1 ∈ [text "outcome", text "summary", text "remaining", text "questions", text "report"]
    rcases key_mem_setDefault hg with hkey | hkey
    · simp only [exactFields, Bool.and_eq_true, List.all_eq_true, List.any_eq_true] at hexact
      obtain ⟨name, hname, heq⟩ := hexact.2 g.1 hkey
      rw [beq_iff_eq.mp heq]
      exact hknown name hname
    · rw [hkey]
      exact hknown "report" (by decide)

end Defaults

/-- A payload as Python holds it: no dictionary in it has a key twice. -/
structure Payload where
  value : Json
  plain : Plain (fun _ => True) value

/-- The optional keys of a report, with their defaults. -/
theorem getField_withDefaults (fields : List (Text × Json)) : ∃ full,
    withDefaults (.obj fields) = .obj full
      ∧ ((fields.map (·.1)).Nodup → (full.map (·.1)).Nodup)
      ∧ (∀ g ∈ full, g.1 ∈ fields.map (·.1)
        ∨ g.1 ∈ [text "report_artifact", text "report_sha256", text "process_started"])
      ∧ (∀ name, text name ∉ [text "worker_claim", text "report_artifact", text "report_sha256",
          text "process_started"] → getField full name = getField fields name)
      ∧ getField full "worker_claim" = (getField fields "worker_claim").map claimWithDefaults
      ∧ getField full "report_artifact" = some ((getField fields "report_artifact").getD .null)
      ∧ getField full "report_sha256" = some ((getField fields "report_sha256").getD .null)
      ∧ getField full "process_started"
        = some ((getField fields "process_started").getD (.bool true)) := by
  -- rewriting the claim in place changes no other lookup
  have hmap : ∀ key : Text, (fields.map fun f =>
      (f.1, if f.1 = text "worker_claim" then claimWithDefaults f.2 else f.2)).lookup key
        = (fields.lookup key).map fun v =>
          if key = text "worker_claim" then claimWithDefaults v else v := by
    intro key
    induction fields with
    | nil => rfl
    | cons f fields ih =>
      rw [List.map_cons, List.lookup_cons, List.lookup_cons, ih]
      by_cases hkey : key = f.1
      · simp [hkey]
      · simp [beq_eq_false_iff_ne.mpr hkey]
  have hother : ∀ name, text name ≠ text "worker_claim" →
      getField (fields.map fun f =>
        (f.1, if f.1 = text "worker_claim" then claimWithDefaults f.2 else f.2)) name
        = getField fields name := by
    intro name hname
    unfold getField
    rw [hmap]
    simp [hname]
  have hkeys : (fields.map fun f =>
      (f.1, if f.1 = text "worker_claim" then claimWithDefaults f.2 else f.2)).map (·.1)
        = fields.map (·.1) := by
    rw [List.map_map]
    rfl
  refine ⟨_, rfl, ?_, ?_, ?_, ?_, ?_, ?_, ?_⟩
  · intro hnodup
    exact nodup_setDefault (nodup_setDefault (nodup_setDefault (hkeys ▸ hnodup)))
  · intro g hg
    rcases key_mem_setDefault hg with hkey | hkey
    · obtain ⟨g, hg, hkey⟩ := List.mem_map.mp hkey
      rw [← hkey]
      rcases key_mem_setDefault hg with hkey | hkey
      · obtain ⟨g, hg, hkey⟩ := List.mem_map.mp hkey
        rw [← hkey]
        rcases key_mem_setDefault hg with hkey | hkey
        · exact .inl (hkeys ▸ hkey)
        · exact .inr (by simp [hkey])
      · exact .inr (by simp [hkey])
    · exact .inr (by simp [hkey])
  · intro name hname
    simp only [List.mem_cons, List.not_mem_nil, or_false, not_or] at hname
    rw [getField_setDefault_ne hname.2.2.2, getField_setDefault_ne hname.2.2.1,
      getField_setDefault_ne hname.2.1, hother name hname.1]
  · rw [getField_setDefault_ne (by decide), getField_setDefault_ne (by decide),
      getField_setDefault_ne (by decide)]
    unfold getField
    rw [hmap]
    simp
  · rw [getField_setDefault_ne (by decide), getField_setDefault_ne (by decide),
      getField_setDefault_self, hother _ (by decide)]
  · rw [getField_setDefault_ne (by decide), getField_setDefault_self,
      getField_setDefault_ne (by decide), hother _ (by decide)]
  · rw [getField_setDefault_self, getField_setDefault_ne (by decide),
      getField_setDefault_ne (by decide), hother _ (by decide)]

/-- The keys of a report's dictionary. -/
theorem key_mem_members (report : ExecutionReport) {name : String}
    (h : name ∈ requiredFields ++ optionalFields) : text name ∈ report.members.map (·.1) := by
  have hall : ∀ name ∈ requiredFields ++ optionalFields, text name ∈ ["schema", "execution_id",
      "ticket_id", "code_base_head", "control_head", "execution_branch", "execution_path",
      "workspace_head", "process_returncode", "process_started", "transport_error", "transport_ok",
      "egress_error", "egress_ok", "worker_claim", "conclusion", "questions", "remaining", "reason",
      "report_artifact", "report_sha256"].map text := by decide
  exact hall name h

theorem nodup_members (report : ExecutionReport) : (report.members.map (·.1)).Nodup := by
  have hall : List.Nodup (["schema", "execution_id",
      "ticket_id", "code_base_head", "control_head", "execution_branch", "execution_path",
      "workspace_head", "process_returncode", "process_started", "transport_error", "transport_ok",
      "egress_error", "egress_ok", "worker_claim", "conclusion", "questions", "remaining", "reason",
      "report_artifact", "report_sha256"].map text) := by decide
  exact hall

/-- A required key that may hold `None`. -/
theorem getField_of_required {fields : List (Text × Json)} {name : String} {x : Option Text}
    (hknown : knownFields fields = true) (hname : name ∈ requiredFields)
    (h : optionalText (getField fields name) = some x) :
    getField fields name = some (ofOptional x) := by
  rcases optionalText_iff.mp h with h | ⟨hnone, -⟩
  · exact h
  · simp only [knownFields, Bool.and_eq_true, List.all_eq_true] at hknown
    have hsome := hknown.1 name hname
    rw [hnone] at hsome
    cases hsome

/-- An optional key that may hold `None`. -/
theorem getD_of_optional {v : Option Json} {x : Option Text} (h : optionalText v = some x) :
    v.getD .null = ofOptional x := by
  rcases optionalText_iff.mp h with rfl | ⟨rfl, rfl⟩
  · rfl
  · rfl

/-- **Converse.** A payload that is decoded is the dictionary of its report, with the optional keys
    filled in. -/
theorem asDict_same_of_fromDict [Sha256] {payload : Payload} {report : ExecutionReport}
    (h : ExecutionReport.fromDict payload.value = .ok report) :
    Same report.asDict (withDefaults payload.value) := by
  obtain ⟨fields, hpayload, hdict, hconsistent⟩ := fromDict_eq_ok.mp h
  have hplain := payload.plain
  rw [hpayload] at hplain ⊢
  obtain ⟨full, hfull, hnodup, hkeys, hkeep, hclaim, hartifact, hsha, hstarted⟩ :=
    getField_withDefaults fields
  rw [hfull]
  cases hplain with
  | obj hfields _ hvalues =>
    have hidentity := hdict.identity
    have hprocess := hdict.process
    have hresult := hdict.result
    have hrequired : ∀ {name x}, name ∈ requiredFields →
        optionalText (getField fields name) = some x →
        getField fields name = some (ofOptional x) := getField_of_required hdict.known
    have hstartedValue : getField full "process_started"
        = some (.bool report.result.processStarted) := by
      rw [hstarted]
      rcases startedOf_iff.mp hprocess.processStarted with hvalue | ⟨hvalue, htrue⟩
      · rw [hvalue]
        rfl
      · rw [hvalue, show report.result.processStarted = true from htrue]
        rfl
    -- the claim is the one member with a dictionary of its own
    have hclaimSame : ∃ v, getField full "worker_claim" = some v
        ∧ Same ((report.result.claim.map fun claim => .obj (claimMembers claim)).getD .null) v := by
      rw [hclaim]
      have hvalue : ClaimValue (getField fields "worker_claim") report.result.claim :=
        hprocess.claim
      have hpresent : (getField fields "worker_claim").isSome = true := by
        have hknown := hdict.known
        simp only [knownFields, Bool.and_eq_true, List.all_eq_true] at hknown
        exact hknown.1 "worker_claim" (by decide)
      cases hreport : report.result.claim with
      | none =>
        rw [hreport] at hvalue
        rcases hvalue with hvalue | hvalue
        · rw [hvalue] at hpresent
          cases hpresent
        · rw [hvalue]
          exact ⟨.null, rfl, .null⟩
      | some claim =>
        rw [hreport] at hvalue
        obtain ⟨members, hmembers, -⟩ := id hvalue
        have hmem : (text "worker_claim", .obj members) ∈ fields :=
          (lookup_eq_some_iff_mem hfields).mp hmembers
        rw [hmembers] at hvalue ⊢
        cases hvalues _ hmem with
        | obj hmembersNodup _ _ => exact ⟨_, rfl, same_claim hmembersNodup hvalue⟩
    -- every member of the report is in the payload, and the payload has no other key
    refine same_obj (nodup_members report) (hnodup hfields) ?_ ?_
    · simp only [ExecutionReport.members, List.forall_mem_cons, List.not_mem_nil, false_implies,
        implies_true, and_true]
      refine ⟨⟨_, (hkeep "schema" (by decide)).trans hdict.schema, .str _⟩,
        ⟨_, (hkeep "execution_id" (by decide)).trans hidentity.executionId, .str _⟩,
        ⟨_, (hkeep "ticket_id" (by decide)).trans hidentity.ticketId, .str _⟩,
        ⟨_, (hkeep "code_base_head" (by decide)).trans hidentity.codeBaseHead, .str _⟩,
        ⟨_, (hkeep "control_head" (by decide)).trans hidentity.controlHead, .str _⟩,
        ⟨_, (hkeep "execution_branch" (by decide)).trans hidentity.executionBranch, .str _⟩,
        ⟨_, (hkeep "execution_path" (by decide)).trans hidentity.executionPath, .str _⟩,
        ⟨_, (hkeep "workspace_head" (by decide)).trans
          (hrequired (by decide) hidentity.workspaceHead), same_ofOptional _⟩,
        ⟨_, (hkeep "process_returncode" (by decide)).trans hprocess.processReturncode, .int _⟩,
        ⟨_, hstartedValue, .bool _⟩,
        ⟨_, (hkeep "transport_error" (by decide)).trans
          (hrequired (by decide) hprocess.transportError), same_ofOptional _⟩,
        ⟨_, (hkeep "transport_ok" (by decide)).trans hprocess.transportOk, .bool _⟩,
        ⟨_, (hkeep "egress_error" (by decide)).trans
          (hrequired (by decide) hprocess.egressError), same_ofOptional _⟩,
        ⟨_, (hkeep "egress_ok" (by decide)).trans hresult.egressOk, .bool _⟩,
        hclaimSame,
        ⟨_, (hkeep "conclusion" (by decide)).trans hresult.conclusion, .str _⟩,
        ⟨_, (hkeep "questions" (by decide)).trans hresult.questions, same_ofTexts _⟩,
        ⟨_, (hkeep "remaining" (by decide)).trans hresult.remaining, same_ofTexts _⟩,
        ⟨_, (hkeep "reason" (by decide)).trans hidentity.reason, .str _⟩,
        ⟨_, hartifact, (getD_of_optional hdict.reportArtifact).symm ▸ same_ofOptional _⟩,
        ⟨_, hsha, (getD_of_optional hdict.reportSha256).symm ▸ same_ofOptional _⟩⟩
    · intro g hg
      rcases hkeys g hg with hkey | hkey
      · obtain ⟨f, hf, hkey⟩ := List.mem_map.mp hkey
        have hknown := hdict.known
        simp only [knownFields, Bool.and_eq_true, List.all_eq_true, List.any_eq_true] at hknown
        obtain ⟨name, hname, heq⟩ := hknown.2 f hf
        rw [← hkey, ← beq_iff_eq.mp heq]
        exact key_mem_members report hname
      · simp only [List.mem_cons, List.not_mem_nil, or_false] at hkey
        rcases hkey with hkey | hkey | hkey <;> rw [hkey] <;>
          exact key_mem_members report (by decide)

/-! ### Both directions -/

/-- **Round trips.** The report of an accepted claim is built and decoded again, and every payload
    that is decoded is the dictionary of its report, exactly when the long report of the claim
    holds no surrogate. -/
theorem reportDict_round_trips_iff [Sha256] {identity : Identity} {run : RunResult}
    {claim : WorkerClaim} (hclaim : run.claim = some claim) (hegress : run.egressError = none)
    (hexecution : isIdentifier identity.executionId = true)
    (hticket : isIdentifier identity.ticketId = true) :
    ((∃ report, buildExecutionReport identity run = .ok report
          ∧ ExecutionReport.fromDict report.asDict = .ok report)
        ∧ ∀ (payload : Payload) (report : ExecutionReport),
          ExecutionReport.fromDict payload.value = .ok report →
            Same report.asDict (withDefaults payload.value))
      ↔ ∀ s ∈ claim.report, ∀ c ∈ s, isSurrogate c = false := by
  have hbuilt : (∃ report, buildExecutionReport identity run = .ok report) ↔ _ :=
    buildExecutionReport_ok_iff hclaim hegress
  rw [← hbuilt]
  constructor
  · rintro ⟨⟨report, hreport, -⟩, -⟩
    exact ⟨report, hreport⟩
  · rintro ⟨report, hreport⟩
    exact ⟨⟨report, hreport, fromDict_asDict_of_build hreport hexecution hticket⟩,
      fun payload report h => asDict_same_of_fromDict h⟩

/-- An execution. -/
def sampleIdentity : Identity where
  executionId := text "e1"
  ticketId := text "t1"
  codeBaseHead := text "c0de"
  controlHead := text "c0c0"
  executionBranch := text "devlegate/t1"
  executionPath := text "/work/t1"
  workspaceHead := none

/-- A worker that exited with status 0, and its claim. -/
def sampleRun (report : Text) : RunResult where
  processReturncode := 0
  transportError := none
  claim := some ⟨.completed, text "done", [], [], some report⟩
  egressError := none

theorem reportDict_round_trips_plain :
    letI : Sha256 := ⟨fun _ => ""⟩
    (∃ report, buildExecutionReport sampleIdentity (sampleRun (text "All good.")) = .ok report
          ∧ ExecutionReport.fromDict report.asDict = .ok report)
        ∧ ∀ (payload : Payload) (report : ExecutionReport),
          ExecutionReport.fromDict payload.value = .ok report →
            Same report.asDict (withDefaults payload.value) := by
  let _ : Sha256 := ⟨fun _ => ""⟩
  refine (@reportDict_round_trips_iff _ sampleIdentity (sampleRun (text "All good.")) _ rfl rfl
    (by decide) (by decide)).mpr ?_
  have hplain : (text "All good.").all (fun c => !isSurrogate c) = true := by decide
  intro s hs c hc
  cases hs
  simpa using List.all_eq_true.mp hplain c hc

/-- A completed report event with the given long report. -/
def longReportEvent (report : Text) : Json :=
  .obj [(text "type", .str (text "tool_use")),
    (text "part", .obj [(text "type", .str (text "tool")),
      (text "tool", .str (text "devlegate_report")),
      (text "state", .obj [(text "status", .str (text "completed")),
        (text "input", .obj [(text "outcome", .str (text "completed")),
          (text "summary", .str (text "done")), (text "remaining", .arr []),
          (text "questions", .arr []), (text "report", .str report)])])])]

/-- The parser accepts a claim whose long report is one lone surrogate, and no report is built. -/
theorem loneSurrogate_not_built :
    letI : Sha256 := ⟨fun _ => ""⟩
    (WorkerEgressParser.consumeAll {} [longReportEvent [0xD800]]).finish
        = ((sampleRun [0xD800]).claim, none)
      ∧ ¬ ∃ report, buildExecutionReport sampleIdentity (sampleRun [0xD800]) = .ok report := by
  let _ : Sha256 := ⟨fun _ => ""⟩
  refine ⟨by decide +kernel, ?_⟩
  rw [buildExecutionReport_ok_iff rfl rfl]
  intro h
  have hsurrogate : isSurrogate 0xD800 = false := h [0xD800] rfl 0xD800 (by simp)
  exact absurd hsurrogate (by decide)

end Wire

/-! ### The report of a run -/

/-- The identity with its texts. -/
def ExecutionIdentity.wire (identity : ExecutionIdentity) : Wire.Identity where
  executionId := text identity.executionId
  ticketId := text identity.ticketId
  codeBaseHead := text identity.codeBaseHead
  controlHead := text identity.controlHead
  executionBranch := text identity.executionBranch
  executionPath := text identity.executionPath
  workspaceHead := identity.workspaceHead.map text

/-- The run with its texts. -/
def WorkerRunResult.wire (run : WorkerRunResult) : Wire.RunResult where
  processReturncode := run.processReturncode
  transportError := run.transportError.map text
  claim := run.claim
  egressError := run.egressError.map text
  processStarted := run.processStarted

/-- The result with its texts. -/
def ExecutionResult.wire (result : ExecutionResult) : Wire.ExecutionResult where
  processReturncode := result.processReturncode
  transportError := result.transportError.map text
  egressError := result.egressError.map text
  claim := result.claim
  conclusion := result.conclusion
  questions := result.questions
  remaining := result.remaining
  reason := text result.reason
  processStarted := result.processStarted

/-- The report with its texts. -/
def ExecutionReport.wire (report : ExecutionReport) : Wire.ExecutionReport where
  executionId := text report.executionId
  ticketId := text report.ticketId
  codeBaseHead := text report.codeBaseHead
  controlHead := text report.controlHead
  executionBranch := text report.executionBranch
  executionPath := text report.executionPath
  workspaceHead := report.workspaceHead.map text
  result := report.result.wire
  reportArtifact := report.reportArtifact.map text
  reportSha256 := report.reportSha256.map text

theorem orText_map (value : Option String) (default : String) :
    Wire.orText (value.map text) default = text (textOr value default) := by
  cases value with
  | none => rfl
  | some s =>
    show (if text s = [] then _ else _) = text (if s = "" then _ else _)
    by_cases hempty : s = ""
    · subst hempty
      rfl
    · have htext : text s ≠ [] := by
        intro h
        exact hempty (String.toList_eq_nil_iff.mp (List.map_eq_nil_iff.mp h))
      rw [if_neg hempty, if_neg htext]

/-- The conclusion of a run, with the text of its reason. -/
theorem canonicalResult_wire {returncode : Int} {transport egress : Option String}
    {claim : Option WorkerClaim} {started : Bool} {conclusion : Conclusion} {reason : String}
    (h : canonicalResult returncode transport egress claim started = .ok (conclusion, reason)) :
    Wire.canonicalResult returncode (transport.map text) (egress.map text) claim started
      = .ok (conclusion, text reason) := by
  unfold canonicalResult at h
  unfold Wire.canonicalResult
  rw [Option.isSome_map]
  split at h
  · cases h
  rename_i hboth
  rw [if_neg hboth]
  split at h
  · rename_i hstarted
    cases h
    rw [if_pos hstarted, orText_map, text_append]
  rename_i hstarted
  rw [if_neg hstarted]
  split at h
  · rename_i hnegative
    cases h
    rw [if_pos hnegative]
  rename_i hnegative
  rw [if_neg hnegative]
  split at h
  · rename_i hnonzero
    cases h
    rw [if_pos hnonzero]
  rename_i hnonzero
  rw [if_neg hnonzero]
  cases transport with
  | some message =>
    cases h
    rfl
  | none =>
    cases egress with
    | some message =>
      cases h
      simp only [Option.map_none, Option.map_some]
      rw [← orText_map]
      rfl
    | none =>
      cases claim with
      | none =>
        cases h
        rfl
      | some claim =>
        cases h
        rfl

/-- **Same report.** What is built from a run is built from its texts. -/
theorem buildExecutionReport_wire [Sha256] {identity : ExecutionIdentity} {run : WorkerRunResult}
    {report : ExecutionReport} (h : buildExecutionReport identity run = .ok report) :
    Wire.buildExecutionReport identity.wire run.wire = .ok report.wire := by
  unfold buildExecutionReport buildExecutionResult at h
  simp only [bind_eq_ok] at h
  obtain ⟨result, ⟨⟨conclusion, reason⟩, hcanonical, hresult⟩, digest, hdigest, h⟩ := h
  cases hresult
  cases h
  have hwire := canonicalResult_wire hcanonical
  have hlong : Wire.digestOf (Wire.longReport run.claim) = .ok (digest.map text) := by
    unfold Wire.digestOf Wire.longReport
    rw [show reportDigest (run.claim.bind (·.report)) = .ok digest from hdigest]
    rfl
  unfold Wire.buildExecutionReport Wire.buildExecutionResult
  rw [show Wire.canonicalResult run.wire.processReturncode run.wire.transportError
    run.wire.egressError run.wire.claim run.wire.processStarted = _ from hwire]
  show (Wire.digestOf (Wire.longReport run.claim) >>= fun digest => _) = _
  rw [hlong]
  simp only [bind, Except.bind, pure, Except.pure, ExecutionReport.wire, ExecutionResult.wire,
    ExecutionIdentity.wire, WorkerRunResult.wire, Wire.questionsOf, Wire.remainingOf]
  congr 2
  show (run.claim.bind (·.report)).map _ = ((run.claim.bind (·.report)).map _).map text
  cases run.claim.bind (·.report) with
  | none => rfl
  | some long => simp [Wire.artifactPath, reportArtifactPath, text_append]

end Devlegate
