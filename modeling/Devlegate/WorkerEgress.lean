import Devlegate.Lib.Json

namespace Devlegate

open JsonText

/-!
# Worker egress: the reserved report tool

The worker states its outcome with one `devlegate_report` tool event.  `WorkerEgressParser.consume`
sees every decoded stdout event, whatever it is, and keeps either a claim or the first protocol
error.

* `workerClaim`: the arguments of the tool as a typed claim, or the text of the violation.
* `WorkerEgressParser`: the parser, with `consume` and `finish`.
* `ReportOf`: an event is the completed report of a claim, said field by field.
* `finish_consumeAll_iff`: the parser ends with a claim exactly when the events contain one report
  event and that event is a completed report of the claim.
-/

/-! ### Claims -/

/-- The outcome a worker may claim. -/
inductive Outcome where
  | completed
  | incomplete
  | blocked
  deriving DecidableEq, Repr

/-- The outcome's word on the wire. -/
def Outcome.word : Outcome → String
  | .completed => "completed"
  | .incomplete => "incomplete"
  | .blocked => "blocked"

/-- `_OUTCOMES`: the outcome a word names. -/
def Outcome.ofText (s : Text) : Option Outcome :=
  if s = text "completed" then some .completed
  else if s = text "incomplete" then some .incomplete
  else if s = text "blocked" then some .blocked
  else none

/-- What the worker says about its own work. -/
structure WorkerClaim where
  outcome : Outcome
  summary : Text
  remaining : List Text
  questions : List Text
  report : Option Text := none
  deriving DecidableEq, Repr

/-- How an execution was interrupted; `processLoss` is only inferred by recovery. -/
inductive InterruptionKind where
  | operatorAbort
  | serviceShutdown
  | processLoss
  deriving DecidableEq, Repr

/-- `OpenCodeRunResult`: what the process and its transport did. -/
structure OpenCodeRunResult where
  processReturncode : Int
  transportError : Option String := none
  interruptionKind : Option InterruptionKind := none
  workerGroupRetired : Bool := true
  processStarted : Bool := true
  deriving DecidableEq, Repr

/-- `WorkerRunResult`: the process observation with the worker's claim. -/
structure WorkerRunResult where
  processReturncode : Int
  transportError : Option String
  claim : Option WorkerClaim
  egressError : Option String
  interruptionKind : Option InterruptionKind := none
  workerGroupRetired : Bool := true
  processStarted : Bool := true
  deriving DecidableEq, Repr

/-- `_CLAIM_FIELDS` without `report`, which is optional. -/
def claimFields : List String := ["outcome", "summary", "remaining", "questions"]

/-- `set(arguments)` is the claim's fields, with or without `report`. -/
def exactFields (fields : List (Text × Json)) : Bool :=
  let keys := fields.map Prod.fst
  claimFields.all (fun name => keys.contains (text name))
    && keys.all (fun k => (claimFields ++ ["report"]).any fun name => k == text name)

/-- The strings of a list that holds nothing else. -/
def allStrings : List Json → Option (List Text)
  | [] => some []
  | .str s :: rest => (allStrings rest).map (s :: ·)
  | _ :: _ => none

/-- `isinstance(value, list)` with only strings in it. -/
def stringItems : Option Json → Option (List Text)
  | some (.arr items) => allStrings items
  | _ => none

/-- A string or nothing: a missing key and `null` are both Python's `None`. -/
def optionalText : Option Json → Option (Option Text)
  | none => some none
  | some .null => some none
  | some (.str s) => some (some s)
  | some _ => none

/-- A value, or the message of the error raised in its absence. -/
def orRaise {α : Type} (value : Option α) (message : String) : Except String α :=
  match value with
  | some a => .ok a
  | none => .error message

/-- `_claim`: the arguments of `devlegate_report`, or the text of the `WorkerProtocolError`. -/
def workerClaim (arguments : Option Json) : Except String WorkerClaim := do
  let fields ← orRaise (Json.asObj arguments) "devlegate_report arguments must have exact fields"
  if !exactFields fields then
    throw "devlegate_report arguments must have exact fields"
  let outcome ← orRaise ((Json.asStr (getField fields "outcome")).bind Outcome.ofText)
    "devlegate_report outcome is invalid"
  let summary ← orRaise (Json.asStr (getField fields "summary"))
    "devlegate_report summary must be a string"
  let remaining ← orRaise (stringItems (getField fields "remaining"))
    "devlegate_report remaining must be list[string]"
  let questions ← orRaise (stringItems (getField fields "questions"))
    "devlegate_report questions must be list[string]"
  let report ← orRaise (optionalText (getField fields "report"))
    "devlegate_report report must be a string or null"
  return ⟨outcome, summary, remaining, questions, report⟩

/-- The arguments are an object with exactly the claim's fields, each of its type and with the
    claim's value. -/
def ValidArguments (arguments : Option Json) (claim : WorkerClaim) : Prop :=
  ∃ fields, arguments = some (.obj fields) ∧ exactFields fields = true ∧
    getField fields "outcome" = some (.str (text claim.outcome.word)) ∧
    getField fields "summary" = some (.str claim.summary) ∧
    getField fields "remaining" = some (.arr (claim.remaining.map .str)) ∧
    getField fields "questions" = some (.arr (claim.questions.map .str)) ∧
    (match claim.report with
      | some report => getField fields "report" = some (.str report)
      | none => getField fields "report" = none ∨ getField fields "report" = some .null)

theorem asObj_eq_some {v : Option Json} {fields : List (Text × Json)} :
    Json.asObj v = some fields ↔ v = some (.obj fields) := by
  unfold Json.asObj
  split <;> simp_all

theorem asStr_eq_some {v : Option Json} {s : Text} : Json.asStr v = some s ↔ v = some (.str s) := by
  unfold Json.asStr
  split <;> simp_all

theorem isText_iff {v : Option Json} {literal : String} :
    Json.isText v literal = true ↔ v = some (.str (text literal)) := by
  simp [Json.isText, asStr_eq_some]

theorem ofText_eq_some {s : Text} {o : Outcome} : Outcome.ofText s = some o ↔ s = text o.word := by
  constructor
  · intro h
    unfold Outcome.ofText at h
    split at h
    · simp_all [Outcome.word, eq_comm]
    · split at h
      · simp_all [Outcome.word, eq_comm]
      · split at h
        · simp_all [Outcome.word, eq_comm]
        · simp at h
  · rintro rfl
    cases o <;> decide

theorem allStrings_eq_some {items : List Json} {xs : List Text} :
    allStrings items = some xs ↔ items = xs.map .str := by
  induction items generalizing xs with
  | nil => cases xs <;> simp [allStrings]
  | cons item items ih =>
    cases item with
    | str s => cases xs <;> simp [allStrings, ih, and_comm]
    | _ => cases xs <;> simp [allStrings]

theorem stringItems_eq_some {v : Option Json} {xs : List Text} :
    stringItems v = some xs ↔ v = some (.arr (xs.map .str)) := by
  unfold stringItems
  split
  case h_1 items => simp [allStrings_eq_some]
  case h_2 h => simpa using fun hv => h _ hv

theorem optionalText_eq_some {v : Option Json} {report : Option Text} :
    optionalText v = some report ↔
      (match report with
        | some s => v = some (.str s)
        | none => v = none ∨ v = some .null) := by
  unfold optionalText
  split <;> cases report <;> simp_all

theorem orRaise_bind_eq_ok {α β : Type} {value : Option α} {message : String}
    {f : α → Except String β} {b : β} :
    (orRaise value message >>= f) = .ok b ↔ ∃ a, value = some a ∧ f a = .ok b := by
  cases value <;> simp [orRaise, bind, Except.bind]

/-- **Exact arguments.** `_claim` accepts exactly the valid arguments. -/
theorem workerClaim_eq_ok {arguments : Option Json} {claim : WorkerClaim} :
    workerClaim arguments = .ok claim ↔ ValidArguments arguments claim := by
  unfold workerClaim
  rw [orRaise_bind_eq_ok]
  simp only [asObj_eq_some]
  constructor
  · rintro ⟨fields, hargs, h⟩
    cases hex : exactFields fields with
    | false => simp [hex, throw, throwThe, MonadExceptOf.throw, bind, Except.bind] at h
    | true =>
      simp only [hex, Bool.not_true, Bool.false_eq_true, if_false] at h
      simp only [orRaise_bind_eq_ok, Option.bind_eq_some_iff, asStr_eq_some, ofText_eq_some,
        stringItems_eq_some, optionalText_eq_some] at h
      obtain ⟨outcome, ⟨s, hs, rfl⟩, summary, hsum, remaining, hrem, questions, hq, report, hr, h⟩ := h
      cases h
      exact ⟨fields, hargs, hex, hs, hsum, hrem, hq, hr⟩
  · rintro ⟨fields, hargs, hex, ho, hsum, hrem, hq, hr⟩
    refine ⟨fields, hargs, ?_⟩
    simp only [hex, Bool.not_true, Bool.false_eq_true, if_false]
    simp only [orRaise_bind_eq_ok, Option.bind_eq_some_iff, asStr_eq_some, ofText_eq_some,
      stringItems_eq_some, optionalText_eq_some]
    exact ⟨claim.outcome, ⟨_, ho, rfl⟩, claim.summary, hsum, claim.remaining, hrem,
      claim.questions, hq, claim.report, hr, rfl⟩

/-! ### The parser -/

/-- `WorkerEgressParser`: the claim, or the first protocol error. -/
structure WorkerEgressParser where
  claim : Option WorkerClaim := none
  error : Option String := none
  deriving DecidableEq, Repr

/-- The members of the `part` of a `devlegate_report` tool event; every other event is not the
    parser's business. -/
def reportPart (event : Json) : Option (List (Text × Json)) :=
  match event with
  | .obj fields =>
    if Json.isText (getField fields "type") "tool_use" then
      match Json.asObj (getField fields "part") with
      | some part => if Json.isText (getField part "tool") "devlegate_report" then some part else none
      | none => none
    else none
  | _ => none

/-- `WorkerEgressParser.consume`. -/
def WorkerEgressParser.consume (parser : WorkerEgressParser) (event : Json) : WorkerEgressParser :=
  if parser.error.isSome then parser
  else match reportPart event with
    | none => parser
    | some part =>
      if !Json.isText (getField part "type") "tool" then
        { parser with error := some "devlegate_report event has invalid tool type" }
      else match Json.asObj (getField part "state") with
        | none => { parser with error := some "devlegate_report event is not completed" }
        | some state =>
          if !Json.isText (getField state "status") "completed" then
            { parser with error := some "devlegate_report event is not completed" }
          else if parser.claim.isSome then
            { parser with error := some "duplicate devlegate_report event" }
          else match workerClaim (getField state "input") with
            | .ok claim => { parser with claim := some claim }
            | .error message => { parser with error := some message }

/-- `WorkerEgressParser.finish`: the claim and the error, never both. -/
def WorkerEgressParser.finish (parser : WorkerEgressParser) : Option WorkerClaim × Option String :=
  match parser.error with
  | some message => (none, some message)
  | none =>
    match parser.claim with
    | none => (none, some "exactly one devlegate_report event is required")
    | some claim => (some claim, none)

/-- All events of a stream, in order. -/
def WorkerEgressParser.consumeAll (parser : WorkerEgressParser) (events : List Json) :
    WorkerEgressParser :=
  events.foldl consume parser

/-! ### What the parser accepts -/

/-- The event is a `devlegate_report` tool event. -/
def isReportEvent (event : Json) : Bool := (reportPart event).isSome

/-- The event is a completed `devlegate_report` tool event with the arguments of `claim`. -/
def ReportOf (event : Json) (claim : WorkerClaim) : Prop :=
  ∃ part state, reportPart event = some part ∧
    getField part "type" = some (.str (text "tool")) ∧
    getField part "state" = some (.obj state) ∧
    getField state "status" = some (.str (text "completed")) ∧
    ValidArguments (getField state "input") claim

theorem reportOf_unique {event : Json} {claim claim' : WorkerClaim} (h : ReportOf event claim)
    (h' : ReportOf event claim') : claim = claim' := by
  obtain ⟨part, state, hpart, -, hstate, -, hargs⟩ := h
  obtain ⟨part', state', hpart', -, hstate', -, hargs'⟩ := h'
  rw [hpart] at hpart'
  cases hpart'
  rw [hstate] at hstate'
  cases hstate'
  have hok := workerClaim_eq_ok.mpr hargs
  rw [workerClaim_eq_ok.mpr hargs'] at hok
  exact (Except.ok.inj hok).symm

namespace WorkerEgressParser

theorem consumeAll_cons (parser : WorkerEgressParser) (event : Json) (events : List Json) :
    parser.consumeAll (event :: events) = (parser.consume event).consumeAll events := rfl

theorem consume_of_error {parser : WorkerEgressParser} {event : Json} (h : parser.error.isSome) :
    parser.consume event = parser := by
  simp [consume, h]

theorem consume_of_not_report {parser : WorkerEgressParser} {event : Json}
    (h : isReportEvent event = false) : parser.consume event = parser := by
  unfold consume
  split
  · rfl
  · cases hp : reportPart event with
    | none => rfl
    | some part => simp [isReportEvent, hp] at h

theorem consume_of_reportOf {parser : WorkerEgressParser} {event : Json} {claim : WorkerClaim}
    (herr : parser.error = none) (h : ReportOf event claim) :
    parser.consume event =
      if parser.claim.isSome then { parser with error := some "duplicate devlegate_report event" }
      else { parser with claim := some claim } := by
  obtain ⟨part, state, hpart, htype, hstate, hstatus, hargs⟩ := h
  simp [consume, herr, hpart, htype, hstate, hstatus, Json.isText, Json.asStr, Json.asObj,
    workerClaim_eq_ok.mpr hargs]

theorem error_isSome_of_not_reportOf (parser : WorkerEgressParser) {event : Json}
    (hrep : isReportEvent event = true) (h : ∀ claim, ¬ ReportOf event claim) :
    (parser.consume event).error.isSome := by
  unfold consume
  split
  case isTrue herr => exact herr
  case isFalse herr =>
    obtain ⟨part, hpart⟩ := Option.isSome_iff_exists.mp hrep
    simp only [hpart]
    split
    case isTrue => rfl
    case isFalse htype =>
      split
      case h_1 => rfl
      case h_2 state hstate =>
        split
        case isTrue => rfl
        case isFalse hstatus =>
          split
          case isTrue => rfl
          case isFalse =>
            split
            case h_2 => rfl
            case h_1 claim hclaim =>
              -- every check passed, so the event is a report of `claim`
              refine absurd ⟨part, state, hpart, ?_, asObj_eq_some.mp hstate, ?_,
                workerClaim_eq_ok.mp hclaim⟩ (h claim)
              · simpa [isText_iff] using htype
              · simpa [isText_iff] using hstatus

theorem consumeAll_of_error {parser : WorkerEgressParser} {events : List Json}
    (h : parser.error.isSome) : parser.consumeAll events = parser := by
  induction events with
  | nil => rfl
  | cons event events ih => rw [consumeAll_cons, consume_of_error h, ih]

/-- From a parser that holds a claim, the claim survives exactly when no report event follows. -/
theorem consumeAll_of_claim {parser : WorkerEgressParser} {events : List Json} {claim : WorkerClaim}
    (hc : parser.claim.isSome) (herr : parser.error = none) :
    (parser.consumeAll events).finish = (some claim, none) ↔
      parser.claim = some claim ∧ events.filter isReportEvent = [] := by
  induction events with
  | nil =>
    obtain ⟨c, hc⟩ := Option.isSome_iff_exists.mp hc
    simp [consumeAll, finish, herr, hc]
  | cons event events ih =>
    rw [consumeAll_cons]
    cases hrep : isReportEvent event with
    | false => rw [consume_of_not_report hrep]; simpa [hrep] using ih
    | true =>
      have herr' : (parser.consume event).error.isSome := by
        by_cases h : ∃ c, ReportOf event c
        · obtain ⟨c, h⟩ := h
          simp [consume_of_reportOf herr h, hc]
        · exact error_isSome_of_not_reportOf parser hrep fun c hc => h ⟨c, hc⟩
      obtain ⟨message, hm⟩ := Option.isSome_iff_exists.mp herr'
      rw [consumeAll_of_error herr']
      simp [finish, hm, hrep]

/-- **Exactly one report.** The parser ends with `claim` and no error exactly when the events hold
    one report event, completed and with the arguments of `claim`. -/
theorem finish_consumeAll_iff {events : List Json} {claim : WorkerClaim} :
    (consumeAll {} events).finish = (some claim, none) ↔
      ∃ event, events.filter isReportEvent = [event] ∧ ReportOf event claim := by
  induction events with
  | nil => simp [consumeAll, finish]
  | cons event events ih =>
    rw [consumeAll_cons]
    cases hrep : isReportEvent event with
    | false => rw [consume_of_not_report hrep]; simpa [hrep] using ih
    | true =>
      by_cases h : ∃ c, ReportOf event c
      · obtain ⟨c, h⟩ := h
        rw [consume_of_reportOf rfl h]
        simp only [Option.isSome_none, Bool.false_eq_true, if_false]
        rw [consumeAll_of_claim rfl rfl]
        simp only [hrep, List.filter_cons_of_pos, List.cons.injEq, Option.some.injEq]
        constructor
        · rintro ⟨rfl, hnil⟩
          exact ⟨event, ⟨rfl, hnil⟩, h⟩
        · rintro ⟨_, ⟨rfl, hnil⟩, h'⟩
          exact ⟨reportOf_unique h h', hnil⟩
      · have herr := error_isSome_of_not_reportOf {} hrep fun c hc => h ⟨c, hc⟩
        obtain ⟨message, hm⟩ := Option.isSome_iff_exists.mp herr
        rw [consumeAll_of_error herr]
        constructor
        · intro hf
          simp [finish, hm] at hf
        · rintro ⟨e, he, hr⟩
          simp only [hrep, List.filter_cons_of_pos, List.cons.injEq] at he
          exact absurd ⟨claim, he.1 ▸ hr⟩ h

end WorkerEgressParser

end Devlegate
