import Devlegate.WorkerEgress

namespace Devlegate

open JsonText

/-!
# Execution results and reports

Devlegate does not take a worker's claim as truth: `canonicalResult` weighs the process, the
transport and the claim, in that order, and `buildExecutionReport` binds the outcome to the
execution's identity.

* `canonicalResult_believed`: a conclusion other than `failed` needs a process that started and
  exited 0, a transport and an egress without error, and a claim with that outcome.
-/

/-- `_CONCLUSIONS`. -/
inductive Conclusion where
  | completed
  | incomplete
  | blocked
  | failed
  deriving DecidableEq, Repr

/-- The conclusion a claimed outcome leads to when it is believed. -/
def Outcome.conclusion : Outcome → Conclusion
  | .completed => .completed
  | .incomplete => .incomplete
  | .blocked => .blocked

/-- `ExecutionResult`. -/
structure ExecutionResult where
  processReturncode : Int
  transportError : Option String
  egressError : Option String
  claim : Option WorkerClaim
  conclusion : Conclusion
  questions : List Text
  remaining : List Text
  reason : String
  processStarted : Bool := true
  deriving DecidableEq, Repr

/-- `ExecutionReport`. -/
structure ExecutionReport where
  executionId : String
  ticketId : String
  codeBaseHead : String
  controlHead : String
  executionBranch : String
  executionPath : String
  workspaceHead : Option String
  result : ExecutionResult
  reportArtifact : Option String := none
  reportSha256 : Option String := none
  deriving DecidableEq, Repr

/-- `signal.Signals(number).name` on Linux. -/
def signalName (number : Nat) : String :=
  let names := ["SIGHUP", "SIGINT", "SIGQUIT", "SIGILL", "SIGTRAP", "SIGABRT", "SIGBUS", "SIGFPE",
    "SIGKILL", "SIGUSR1", "SIGSEGV", "SIGUSR2", "SIGPIPE", "SIGALRM", "SIGTERM", "SIGSTKFLT",
    "SIGCHLD", "SIGCONT", "SIGSTOP", "SIGTSTP", "SIGTTIN", "SIGTTOU", "SIGURG", "SIGXCPU",
    "SIGXFSZ", "SIGVTALRM", "SIGPROF", "SIGWINCH", "SIGIO", "SIGPWR", "SIGSYS"]
  match number with
  | 0 => "UNKNOWN"
  | 34 => "SIGRTMIN"
  | 64 => "SIGRTMAX"
  | n + 1 => names.getD n "UNKNOWN"

/-- Python's `value or default` on an optional string: the empty string counts as absent. -/
def textOr (value : Option String) (default : String) : String :=
  match value with
  | some s => if s = "" then default else s
  | none => default

/-- How building a report fails. -/
inductive BuildError where
  | reportError (message : String)
  | unicodeEncodeError
  deriving DecidableEq, Repr

/-- `_canonical_result`. -/
def canonicalResult (processReturncode : Int) (transportError egressError : Option String)
    (claim : Option WorkerClaim) (processStarted : Bool) :
    Except BuildError (Conclusion × String) :=
  if claim.isSome && egressError.isSome then
    .error (.reportError "worker claim cannot coexist with typed-egress error")
  else if !processStarted then
    .ok (.failed, "worker launch failed: " ++ textOr transportError "unknown error")
  else if processReturncode < 0 then
    let number := (-processReturncode).toNat
    .ok (.failed, "worker terminated by signal " ++ toString number ++ " (" ++
      signalName number ++ ")")
  else if processReturncode ≠ 0 then
    .ok (.failed, "worker exited with status " ++ toString processReturncode)
  else match transportError with
    | some message => .ok (.failed, message)
    | none =>
      match egressError, claim with
      | none, some claim => .ok (claim.outcome.conclusion, "valid worker claim")
      | egress, _ => .ok (.failed, textOr egress "worker claim is unavailable")

/-- `build_execution_result`. -/
def buildExecutionResult (run : WorkerRunResult) : Except BuildError ExecutionResult := do
  let (conclusion, reason) ← canonicalResult run.processReturncode run.transportError
    run.egressError run.claim run.processStarted
  return {
    processReturncode := run.processReturncode
    transportError := run.transportError
    egressError := run.egressError
    claim := run.claim
    conclusion := conclusion
    questions := (run.claim.map (·.questions)).getD []
    remaining := (run.claim.map (·.remaining)).getD []
    reason := reason
    processStarted := run.processStarted }

/-- What Devlegate knows about an execution before the worker runs. -/
structure ExecutionIdentity where
  executionId : String
  ticketId : String
  codeBaseHead : String
  controlHead : String
  executionBranch : String
  executionPath : String
  workspaceHead : Option String
  deriving DecidableEq, Repr

/-- `hashlib.sha256(raw).hexdigest()`. -/
class Sha256 where
  hexdigest : List UInt8 → String

section Report

variable [Sha256]

/-- The digest of the long report, which is encoded for it: a lone surrogate raises. -/
def reportDigest : Option Text → Except BuildError (Option String)
  | none => .ok none
  | some longReport =>
    match Utf8.encode longReport with
    | some raw => .ok (some (Sha256.hexdigest raw))
    | none => .error .unicodeEncodeError

/-- The artifact a report with a long text names. -/
def reportArtifactPath (ticketId executionId : String) : String :=
  "executions/" ++ ticketId ++ "/" ++ executionId ++ ".md"

/-- `build_execution_report`. -/
def buildExecutionReport (identity : ExecutionIdentity) (run : WorkerRunResult) :
    Except BuildError ExecutionReport := do
  let result ← buildExecutionResult run
  let digest ← reportDigest (result.claim.bind (·.report))
  return {
    executionId := identity.executionId
    ticketId := identity.ticketId
    codeBaseHead := identity.codeBaseHead
    controlHead := identity.controlHead
    executionBranch := identity.executionBranch
    executionPath := identity.executionPath
    workspaceHead := identity.workspaceHead
    result := result
    reportArtifact := (result.claim.bind (·.report)).map fun _ =>
      reportArtifactPath identity.ticketId identity.executionId
    reportSha256 := digest }

/-- A report names the execution it is built for. -/
theorem buildExecutionReport_identity {identity : ExecutionIdentity} {run : WorkerRunResult}
    {report : ExecutionReport} (h : buildExecutionReport identity run = .ok report) :
    report.ticketId = identity.ticketId ∧ report.executionId = identity.executionId := by
  simp only [buildExecutionReport, bind, Except.bind, pure, Except.pure] at h
  split at h
  · cases h
  split at h
  · cases h
  · cases h
    exact ⟨rfl, rfl⟩

/-- `_IDENTIFIER`: letters, digits, `_` and `-`, the first one a letter or a digit. -/
def isIdentifier (s : String) : Bool :=
  match s.toList with
  | [] => false
  | c :: rest => c.isAlphanum && rest.all fun c => c.isAlphanum || c == '_' || c == '-'

/-- What `ExecutionReport.from_dict` checks beyond the types of the fields: the identifiers, the
    artifact binding with its digest, the claim data and the canonical conclusion and reason. -/
def ExecutionReport.valid (report : ExecutionReport) : Bool :=
  let result := report.result
  let longReport := result.claim.bind (·.report)
  isIdentifier report.executionId && isIdentifier report.ticketId
    && (report.reportArtifact == longReport.map
      fun _ => reportArtifactPath report.ticketId report.executionId)
    && (match reportDigest longReport with
      | .ok digest => report.reportSha256 == digest
      | .error _ => false)
    && (result.questions == (result.claim.map (·.questions)).getD [])
    && (result.remaining == (result.claim.map (·.remaining)).getD [])
    && (match canonicalResult result.processReturncode result.transportError result.egressError
          result.claim result.processStarted with
      | .ok (conclusion, reason) => result.conclusion == conclusion && result.reason == reason
      | .error _ => false)

end Report

/-! ### When a claim is believed -/

/-- **Believed claims.** A conclusion other than `failed` is a valid claim of a process that
    started, exited 0 and had no transport error. -/
theorem canonicalResult_believed {returncode : Int} {transport egress : Option String}
    {claim : Option WorkerClaim} {started : Bool} {conclusion : Conclusion} {reason : String}
    (h : canonicalResult returncode transport egress claim started = .ok (conclusion, reason))
    (hne : conclusion ≠ .failed) :
    started = true ∧ returncode = 0 ∧ transport = none ∧ egress = none ∧
      ∃ c, claim = some c ∧ conclusion = c.outcome.conclusion := by
  unfold canonicalResult at h
  split at h
  case isTrue => cases h
  case isFalse hco =>
    split at h
    case isTrue => cases h; exact absurd rfl hne
    case isFalse hstarted =>
      split at h
      case isTrue => cases h; exact absurd rfl hne
      case isFalse hneg =>
        split at h
        case isTrue => cases h; exact absurd rfl hne
        case isFalse hzero =>
          cases transport with
          | some message => cases h; exact absurd rfl hne
          | none =>
            cases egress with
            | some message => cases h; exact absurd rfl hne
            | none =>
              cases claim with
              | none => cases h; exact absurd rfl hne
              | some c =>
                cases h
                exact ⟨by simpa using hstarted, by simpa using hzero, rfl, rfl, c, rfl, rfl⟩

/-- A report carries the canonical conclusion of its run. -/
theorem buildExecutionReport_conclusion [Sha256] {identity : ExecutionIdentity}
    {run : WorkerRunResult} {report : ExecutionReport}
    (h : buildExecutionReport identity run = .ok report) :
    canonicalResult run.processReturncode run.transportError run.egressError run.claim
      run.processStarted = .ok (report.result.conclusion, report.result.reason) := by
  unfold buildExecutionReport buildExecutionResult at h
  cases hc : canonicalResult run.processReturncode run.transportError run.egressError run.claim
      run.processStarted with
  | error e => simp [hc, bind, Except.bind] at h
  | ok p =>
    obtain ⟨conclusion, reason⟩ := p
    simp only [hc, bind, Except.bind, pure, Except.pure] at h
    cases hd : reportDigest (run.claim.bind (·.report)) with
    | error e => simp [hd] at h
    | ok digest =>
      rw [hd] at h
      cases h
      rfl

end Devlegate
