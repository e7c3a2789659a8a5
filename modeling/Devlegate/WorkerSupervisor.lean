import Devlegate.Lib.ByteStream
import Devlegate.ExecutionResult

namespace Devlegate

open JsonText ByteStream

/-!
# Worker supervision: the stdout reader and the run result

`WorkerSupervisor.run` starts the worker, reads its stdout as one JSON event a line, hands every
decoded event to the egress parser and combines the process, the transport and the claim into a
`WorkerRunResult`.

* `consumeStdout`: the reader thread, octet stream in, transport error and parser out.  An
  exception that the loop does not catch ends the thread and leaves the transport error as it is.
* `runOpencode`, `run`: the process outcome around the reader.
* `consumeStdout_eq_consumeLines`: reading in limited pieces is reading line by line.
* `consumeLine_of_wellFormed`, `consumeLine_of_unreadable`, `consumeLine_of_malformed`: one line is
  handled, raises, or is recorded as a transport error.
* `backedBy_and_neverSilent_iff_guarded`: a believed report is backed by the whole stream, and the reader never
  stops in silence, exactly for the streams in which every line that raises comes after a line
  that was recorded.
-/

/-! ### Event kinds -/

/-- `_OPENCODE_JSON_TYPES`. -/
inductive EventType where
  | error
  | reasoning
  | stepFinish
  | stepStart
  | text
  | toolUse
  deriving DecidableEq, Repr

def EventType.word : EventType → String
  | .error => "error"
  | .reasoning => "reasoning"
  | .stepFinish => "step_finish"
  | .stepStart => "step_start"
  | .text => "text"
  | .toolUse => "tool_use"

/-- The states of a tool event. -/
inductive ToolStatus where
  | pending
  | running
  | completed
  | error
  deriving DecidableEq, Repr

def ToolStatus.word : ToolStatus → String
  | .pending => "pending"
  | .running => "running"
  | .completed => "completed"
  | .error => "error"

def EventType.all : List EventType := [.error, .reasoning, .stepFinish, .stepStart, .text, .toolUse]

def ToolStatus.all : List ToolStatus := [.pending, .running, .completed, .error]

/-- An exception that the reader loop does not catch. -/
inductive ReaderException where
  | typeError
  | recursionError
  | valueError
  deriving DecidableEq, Repr

/-- `value in {…}`: the member that `value` names.  A value without a hash raises. -/
def member {α : Type} (word : α → String) (all : List α) (value : Option Json) :
    Except ReaderException (Option α) :=
  if Json.hashable value then .ok (all.find? fun a => Json.isText value (word a))
  else .error .typeError

/-- `_extract_error_message`. -/
def extractErrorMessage (error : Option Json) : Option Text :=
  match error with
  | some (.str s) => some s
  | some (.obj fields) =>
    match Json.asStr (getField fields "message") with
    | some message => some message
    | none =>
      match (Json.asObj (getField fields "data")).bind
          fun data => Json.asStr (getField data "message") with
      | some message => some message
      | none => Json.asStr (getField fields "name")
  | _ => none

/-! ### The reader -/

/-- `MAX_STDOUT_EVENT_BYTES`. -/
def maxStdoutEventBytes : Nat := 1024 * 1024

/-- What the reader thread has recorded. -/
structure Reader where
  transportError : Option String := none
  logError : Option String := none
  writes : Nat := 0
  parser : WorkerEgressParser := {}
  deriving DecidableEq, Repr

/-- The execution log, if one is open: which of the reader's writes fail, with what error. -/
abbrev ExecutionLog := Option (Nat → Option String)

/-- `write`: rendering changes no empty text into another one, so an empty text writes nothing. -/
def Reader.write (log : ExecutionLog) (st : Reader) (s : Text) : Reader :=
  if s = [] then st
  else match log with
    | none => st
    | some failure =>
      match failure st.writes with
      | none => { st with writes := st.writes + 1 }
      | some error =>
        { st with writes := st.writes + 1, logError := some ("execution log write failed: " ++ error) }

/-- Record a transport error and go on with the next line. -/
def Reader.fail (st : Reader) (message : String) : Reader × Option ReaderException :=
  ({ st with transportError := some message }, none)

/-- The output of a valid tool event. -/
def Reader.writeTool (log : ExecutionLog) (st : Reader) (tool : Text) (state : List (Text × Json))
    (status : ToolStatus) : Reader :=
  let st := st.write log (text "OpenCode tool: " ++ tool ++ text "\n")
  match status with
  | .completed =>
    match Json.asStr (getField state "output") with
    | some output => st.write log output
    | none => st
  | .error =>
    match extractErrorMessage (getField state "error") with
    | some error => if error = [] then st else st.write log (text "OpenCode tool failed: " ++ error)
    | none => st
  | _ => st

/-- The part of the loop body after the event has gone to the egress parser. -/
def Reader.renderEvent (log : ExecutionLog) (st : Reader) (event : Json) :
    Reader × Option ReaderException :=
  match event with
  | .obj fields =>
    match member EventType.word EventType.all (getField fields "type") with
    | .error e => (st, some e)
    | .ok none => st.fail "unsupported event on stdout"
    | .ok (some .text) | .ok (some .reasoning) =>
      match (Json.asObj (getField fields "part")).bind
          fun part => Json.asStr (getField part "text") with
      | none => st.fail "text event has no text part"
      | some s => (st.write log (s ++ text "\n"), none)
    | .ok (some .toolUse) =>
      match Json.asObj (getField fields "part") with
      | none => st.fail "invalid tool event on stdout"
      | some part =>
        match Json.asStr (getField part "tool"), Json.asObj (getField part "state") with
        | some tool, some state =>
          match member ToolStatus.word ToolStatus.all (getField state "status") with
          | .error e => (st, some e)
          | .ok none => st.fail "invalid tool event on stdout"
          | .ok (some status) => (st.writeTool log tool state status, none)
        | _, _ => st.fail "invalid tool event on stdout"
    | .ok (some .error) =>
      match extractErrorMessage (getField fields "error") with
      | some error =>
        if error = [] then (st, none)
        else (st.write log (text "OpenCode error: " ++ error ++ text "\n"), none)
      | none => (st, none)
    | .ok (some .stepStart) | .ok (some .stepFinish) => (st, none)
  | _ => st.fail "unsupported event on stdout"

/-- One line within the size limit.  The egress parser sees the event before it is checked. -/
def Reader.consumeEvent (limits : Limits) (log : ExecutionLog) (st : Reader) (rawLine : List UInt8) :
    Reader × Option ReaderException :=
  match loads limits rawLine with
  | .error .decode => st.fail "invalid JSON event on stdout"
  | .error .recursion => (st, some .recursionError)
  | .error .digits => (st, some .valueError)
  | .ok event => Reader.renderEvent log { st with parser := st.parser.consume event } event

theorem length_discard_lt {bs : List UInt8} (h : bs ≠ []) :
    (discard maxStdoutEventBytes (readline (maxStdoutEventBytes + 1) bs).2).length < bs.length := by
  have hlt := length_readline_snd_lt (n := maxStdoutEventBytes) h
  rw [discard_eq]
  by_cases hnil : (readline (maxStdoutEventBytes + 1) bs).2 = []
  · rw [hnil]
    simpa [takeLine] using List.length_pos_iff.mpr h
  · have hrest := length_takeLine_snd_lt hnil
    omega

/-- `consume_stdout`: the reader thread.  It returns what it recorded and the exception that ended
    it, if one did. -/
def Reader.consumeStdout (limits : Limits) (log : ExecutionLog) (st : Reader) (stdout : List UInt8) :
    Reader × Option ReaderException :=
  if _h : stdout = [] then (st, none)
  else
    let read := readline (maxStdoutEventBytes + 1) stdout
    if maxStdoutEventBytes < read.1.length then
      let st := { st with transportError := some "stdout event exceeds maximum size" }
      if endsLine read.1 then Reader.consumeStdout limits log st read.2
      else Reader.consumeStdout limits log st (discard maxStdoutEventBytes read.2)
    else
      match Reader.consumeEvent limits log st read.1 with
      | (st, some e) => (st, some e)
      | (st, none) => Reader.consumeStdout limits log st read.2
termination_by stdout.length
decreasing_by
  · exact length_readline_snd_lt _h
  · exact length_discard_lt _h
  · exact length_readline_snd_lt _h

/-! ### The run -/

/-- The outcome of a started process, apart from what the reader makes of its stdout. -/
structure Process where
  stdout : List UInt8
  returncode : Int
  /-- the exception text of a failed identity hand-over, while the process was alive -/
  identityFailure : Option String := none
  /-- the stderr thread's failed log write, when it is the last one recorded -/
  stderrLogFailure : Option String := none
  /-- an interruption that reached the process, with the handler's exception text -/
  interruption : Option (InterruptionKind × Option String) := none
  promptFailure : Option String := none
  /-- the containment's answers: empty in time, empty after the forced termination -/
  waitEmpty : Bool := true
  waitEmptyForced : Bool := true
  diagnostics : String := ""
  destroyFailure : Option String := none
  deriving DecidableEq, Repr

/-- A worker launch: the spawn fails, or the process runs to its end. -/
inductive Launch where
  | failed (error : String)
  | started (process : Process)
  deriving DecidableEq, Repr

/-- The transport error after the threads have joined: an error of the supervision replaces what
    the reader recorded, a prompt error only fills a gap. -/
def joinedTransportError (p : Process) (reader : Reader) : Option String :=
  match p.identityFailure with
  | some error => some ("worker identity persistence failed: " ++ error)
  | none =>
    match (p.stderrLogFailure.map fun error => "execution log write failed: " ++ error).or
        reader.logError with
    | some error => some error
    | none =>
      match p.interruption.bind (·.2) with
      | some error => some ("interruption persistence failed: " ++ error)
      | none =>
        match p.promptFailure with
        | some error =>
          if p.interruption.isNone then
            some (textOr reader.transportError ("worker prompt delivery failed: " ++ error))
          else reader.transportError
        | none => reader.transportError

/-- `_run_opencode` with its containment. -/
def runOpencode (launch : Launch) (reader : Reader) : OpenCodeRunResult :=
  match launch with
  | .failed error => ⟨-1, some ("execution containment failed: " ++ error), none, false, false⟩
  | .started p =>
    let transport := joinedTransportError p reader
    let kind := p.interruption.map Prod.fst
    let retired := p.waitEmpty || (kind.isSome && p.waitEmptyForced)
    if !retired then
      let populated := "execution cgroup remains populated" ++
        (if p.diagnostics = "" then "" else ": " ++ p.diagnostics)
      ⟨p.returncode, some (textOr transport populated), kind, false, true⟩
    else match p.destroyFailure with
      | some error => ⟨p.returncode, some (textOr transport error), kind, false, true⟩
      | none => ⟨p.returncode, transport, kind, true, true⟩

/-- The stdout of a launch: a process that never started writes nothing. -/
def Launch.stdout : Launch → List UInt8
  | .failed _ => []
  | .started p => p.stdout

/-- `WorkerSupervisor.run` after admission: one parser reads the stream, and its verdict joins the
    process observation. -/
def run (limits : Limits) (log : ExecutionLog) (launch : Launch) : WorkerRunResult :=
  let reader := (Reader.consumeStdout limits log {} launch.stdout).1
  let opencode := runOpencode launch reader
  let (claim, egressError) := reader.parser.finish
  ⟨opencode.processReturncode, opencode.transportError, claim, egressError,
    opencode.interruptionKind, opencode.workerGroupRetired, opencode.processStarted⟩

/-! ### Line by line -/

/-- The loop body on a whole line, however long. -/
def Reader.consumeLine (limits : Limits) (log : ExecutionLog) (st : Reader) (line : List UInt8) :
    Reader × Option ReaderException :=
  if maxStdoutEventBytes < line.length then st.fail "stdout event exceeds maximum size"
  else st.consumeEvent limits log line

/-- The reader on a list of lines: the first exception ends it. -/
def Reader.consumeLines (limits : Limits) (log : ExecutionLog) (st : Reader) :
    List (List UInt8) → Reader × Option ReaderException
  | [] => (st, none)
  | line :: lines =>
    match st.consumeLine limits log line with
    | (st, some e) => (st, some e)
    | (st, none) => Reader.consumeLines limits log st lines

/-- **Reads are lines.** Reading in pieces of limited size, and dropping the rest of an oversized
    line, is reading line by line. -/
theorem consumeStdout_eq_consumeLines (limits : Limits) (log : ExecutionLog) (st : Reader)
    (stdout : List UInt8) :
    st.consumeStdout limits log stdout = st.consumeLines limits log (splitLines stdout) := by
  induction hn : stdout.length using Nat.strongRecOn generalizing stdout st with
  | ind n ih =>
    rw [Reader.consumeStdout]
    split
    case isTrue h => simp [h, splitLines, Reader.consumeLines]
    case isFalse h =>
      have hlt := hn ▸ length_takeLine_snd_lt h
      rw [splitLines_eq_cons h, Reader.consumeLines]
      by_cases hlong : maxStdoutEventBytes < (readline (maxStdoutEventBytes + 1) stdout).1.length
      · -- an oversized read: the next line starts where the rest of this one has been dropped
        have hline : maxStdoutEventBytes < (takeLine stdout).1.length :=
          Nat.lt_of_lt_of_le hlong (length_readline_fst_le _ _)
        simp only [hlong, if_true, Reader.consumeLine, hline, Reader.fail]
        by_cases hend : endsLine (readline (maxStdoutEventBytes + 1) stdout).1
        · rw [if_pos hend, readline_snd_of_endsLine hend, ih _ hlt _ _ rfl]
        · rw [if_neg hend, discard_eq, takeLine_readline_snd hend, ih _ hlt _ _ rfl]
      · have hread := @readline_eq_takeLine (maxStdoutEventBytes + 1) stdout (by omega)
        rw [hread] at hlong ⊢
        simp only [hlong, if_false, Reader.consumeLine]
        split
        case h_1 => rfl
        case h_2 => exact ih _ hlt _ _ rfl

/-! ### What a line can be -/

/-- The event is of a supported kind and has the parts that kind needs. -/
def SupportedEvent (event : Json) : Prop :=
  ∃ fields, event = .obj fields ∧
    ∃ kind : EventType, getField fields "type" = some (.str (text kind.word)) ∧
      match kind with
      | .text | .reasoning =>
        ∃ part s, getField fields "part" = some (.obj part) ∧ getField part "text" = some (.str s)
      | .toolUse =>
        ∃ part tool state, ∃ status : ToolStatus, getField fields "part" = some (.obj part) ∧
          getField part "tool" = some (.str tool) ∧ getField part "state" = some (.obj state) ∧
          getField state "status" = some (.str (text status.word))
      | .error | .stepStart | .stepFinish => True

/-- A stdout line that is a JSON event of a supported and well-formed kind within the size limit. -/
def WellFormedLine (limits : Limits) (line : List UInt8) : Prop :=
  line.length ≤ maxStdoutEventBytes ∧ ∃ event, loads limits line = .ok event ∧ SupportedEvent event

/-- The event's `type`, or the `status` of its tool state, is an array or an object. -/
def UnhashableEvent (event : Json) : Prop :=
  ∃ fields, event = .obj fields ∧
    (Json.hashable (getField fields "type") = false ∨
      getField fields "type" = some (.str (text "tool_use")) ∧
        ∃ part tool state, getField fields "part" = some (.obj part) ∧
          getField part "tool" = some (.str tool) ∧ getField part "state" = some (.obj state) ∧
          Json.hashable (getField state "status") = false)

/-- A line within the size limit that nests too deeply or holds too long an integer to decode, or
    whose event type or tool status has no hash. -/
def UnreadableLine (limits : Limits) (line : List UInt8) : Prop :=
  line.length ≤ maxStdoutEventBytes ∧
    (loads limits line = .error .recursion ∨ loads limits line = .error .digits ∨
      ∃ event, loads limits line = .ok event ∧ UnhashableEvent event)

/-- Every unreadable line comes after a line that is malformed in another way. -/
def Guarded (limits : Limits) (lines : List (List UInt8)) : Prop :=
  ∀ (i : Nat) line, lines[i]? = some line → UnreadableLine limits line →
    ∃ j < i, ∃ earlier, lines[j]? = some earlier ∧
      ¬ WellFormedLine limits earlier ∧ ¬ UnreadableLine limits earlier

/-! ### One event -/

theorem member_eq_error {α : Type} {word : α → String} {all : List α} {v : Option Json}
    {e : ReaderException} :
    member word all v = .error e ↔ Json.hashable v = false ∧ e = .typeError := by
  unfold member
  cases Json.hashable v <;> simp [eq_comm]

theorem member_eq_some {α : Type} {word : α → String} {all : List α} {v : Option Json} {a : α}
    (h : member word all v = .ok (some a)) : v = some (.str (text (word a))) := by
  unfold member at h
  split at h
  · have hfind := List.find?_some (Except.ok.inj h)
    exact isText_iff.mp hfind
  · cases h

theorem transportError_write (log : ExecutionLog) (st : Reader) (s : Text) :
    (st.write log s).transportError = st.transportError := by
  unfold Reader.write
  split
  · rfl
  · cases log with
    | none => rfl
    | some failure => cases h : failure st.writes <;> simp [h]

theorem parser_write (log : ExecutionLog) (st : Reader) (s : Text) :
    (st.write log s).parser = st.parser := by
  unfold Reader.write
  split
  · rfl
  · cases log with
    | none => rfl
    | some failure => cases h : failure st.writes <;> simp [h]

theorem transportError_writeTool (log : ExecutionLog) (st : Reader) (tool : Text)
    (state : List (Text × Json)) (status : ToolStatus) :
    (st.writeTool log tool state status).transportError = st.transportError := by
  unfold Reader.writeTool
  cases status with
  | completed => cases Json.asStr (getField state "output") <;> simp [transportError_write]
  | error =>
    cases extractErrorMessage (getField state "error") with
    | none => simp [transportError_write]
    | some error => by_cases h : error = [] <;> simp [h, transportError_write]
  | _ => simp [transportError_write]

theorem parser_writeTool (log : ExecutionLog) (st : Reader) (tool : Text)
    (state : List (Text × Json)) (status : ToolStatus) :
    (st.writeTool log tool state status).parser = st.parser := by
  unfold Reader.writeTool
  cases status with
  | completed => cases Json.asStr (getField state "output") <;> simp [parser_write]
  | error =>
    cases extractErrorMessage (getField state "error") with
    | none => simp [parser_write]
    | some error => by_cases h : error = [] <;> simp [h, parser_write]
  | _ => simp [parser_write]

theorem member_eventType (kind : EventType) :
    member EventType.word EventType.all (some (.str (text kind.word))) = .ok (some kind) := by
  cases kind <;> decide

theorem member_toolStatus (status : ToolStatus) :
    member ToolStatus.word ToolStatus.all (some (.str (text status.word))) = .ok (some status) := by
  cases status <;> decide

/-- A supported event is rendered: no exception, and neither the transport error nor the parser
    changes. -/
theorem renderEvent_of_supported (log : ExecutionLog) (st : Reader) {event : Json}
    (h : SupportedEvent event) :
    (st.renderEvent log event).2 = none ∧
      (st.renderEvent log event).1.transportError = st.transportError ∧
      (st.renderEvent log event).1.parser = st.parser := by
  obtain ⟨fields, rfl, kind, hkind, hparts⟩ := h
  simp only [Reader.renderEvent, hkind, member_eventType]
  cases kind with
  | text =>
    obtain ⟨part, s, hpart, hs⟩ := hparts
    simp [hpart, hs, Json.asObj, Json.asStr, transportError_write, parser_write]
  | reasoning =>
    obtain ⟨part, s, hpart, hs⟩ := hparts
    simp [hpart, hs, Json.asObj, Json.asStr, transportError_write, parser_write]
  | toolUse =>
    obtain ⟨part, tool, state, status, hpart, htool, hstate, hstatus⟩ := hparts
    simp [hpart, htool, hstate, hstatus, Json.asObj, Json.asStr, member_toolStatus,
      transportError_writeTool, parser_writeTool]
  | error =>
    cases extractErrorMessage (getField fields "error") with
    | none => simp
    | some error => by_cases he : error = [] <;> simp [he, transportError_write, parser_write]
  | stepStart => simp
  | stepFinish => simp

/-- An event without a hash raises, and records nothing. -/
theorem renderEvent_of_unhashable {log : ExecutionLog} {st : Reader} {event : Json}
    (h : UnhashableEvent event) : st.renderEvent log event = (st, some .typeError) := by
  obtain ⟨fields, rfl, htype | ⟨htype, part, tool, state, hpart, htool, hstate, hstatus⟩⟩ := h
  · simp [Reader.renderEvent, member_eq_error.mpr ⟨htype, rfl⟩]
  · have hkind : member EventType.word EventType.all (getField fields "type")
        = .ok (some .toolUse) := by rw [htype]; decide
    simp [Reader.renderEvent, hkind, hpart, htool, hstate, Json.asObj, Json.asStr,
      member_eq_error.mpr ⟨hstatus, rfl⟩]

/-- Every other event is recorded as a transport error. -/
theorem renderEvent_of_unsupported {log : ExecutionLog} {st : Reader} {event : Json}
    (hs : ¬ SupportedEvent event) (hu : ¬ UnhashableEvent event) :
    (st.renderEvent log event).2 = none ∧
      (st.renderEvent log event).1.transportError.isSome = true := by
  unfold Reader.renderEvent
  cases event with
  | obj fields =>
    simp only
    cases hkind : member EventType.word EventType.all (getField fields "type") with
    | error e => exact absurd ⟨fields, rfl, .inl (member_eq_error.mp hkind).1⟩ hu
    | ok kind? =>
      cases kind? with
      | none => simp [Reader.fail]
      | some kind =>
        have htype := member_eq_some hkind
        -- the kinds without parts are supported whatever else the event holds
        have htext : ∀ part s, kind = .text ∨ kind = .reasoning →
            getField fields "part" = some (.obj part) → getField part "text" ≠ some (.str s) := by
          rintro part s (rfl | rfl) hpart hs'
          · exact hs ⟨fields, rfl, .text, htype, part, s, hpart, hs'⟩
          · exact hs ⟨fields, rfl, .reasoning, htype, part, s, hpart, hs'⟩
        cases kind with
        | text | reasoning =>
          simp only
          cases htx : (Json.asObj (getField fields "part")).bind
              fun part => Json.asStr (getField part "text") with
          | none => simp [Reader.fail]
          | some s =>
            obtain ⟨part, hpart, hs'⟩ := Option.bind_eq_some_iff.mp htx
            exact absurd (asStr_eq_some.mp hs') (htext part s (by simp) (asObj_eq_some.mp hpart))
        | toolUse =>
          simp only
          cases hpart : Json.asObj (getField fields "part") with
          | none => simp [Reader.fail]
          | some part =>
            simp only
            cases htool : Json.asStr (getField part "tool") with
            | none => simp [Reader.fail]
            | some tool =>
              cases hstate : Json.asObj (getField part "state") with
              | none => simp [Reader.fail]
              | some state =>
                simp only
                rw [asObj_eq_some] at hpart hstate
                rw [asStr_eq_some] at htool
                cases hstatus : member ToolStatus.word ToolStatus.all (getField state "status") with
                | error e =>
                  exact absurd ⟨fields, rfl, .inr ⟨htype, part, tool, state, hpart, htool, hstate,
                    (member_eq_error.mp hstatus).1⟩⟩ hu
                | ok status? =>
                  cases status? with
                  | none => simp [Reader.fail]
                  | some status =>
                    exact absurd ⟨fields, rfl, .toolUse, htype, part, tool, state, status, hpart,
                      htool, hstate, member_eq_some hstatus⟩ hs
        | error => exact absurd ⟨fields, rfl, .error, htype, trivial⟩ hs
        | stepStart => exact absurd ⟨fields, rfl, .stepStart, htype, trivial⟩ hs
        | stepFinish => exact absurd ⟨fields, rfl, .stepFinish, htype, trivial⟩ hs
  | _ => simp [Reader.fail]

/-! ### One line -/

section Lines

variable {limits : Limits} (log : ExecutionLog) (st : Reader) {line : List UInt8}

/-- A well-formed line goes to the parser and changes no transport error. -/
theorem consumeLine_of_wellFormed (h : WellFormedLine limits line) :
    ∃ event, loads limits line = .ok event ∧ (st.consumeLine limits log line).2 = none ∧
      (st.consumeLine limits log line).1.transportError = st.transportError ∧
      (st.consumeLine limits log line).1.parser = st.parser.consume event := by
  obtain ⟨hlen, event, hload, hs⟩ := h
  have hrender := renderEvent_of_supported log
    { st with parser := st.parser.consume event } hs
  refine ⟨event, hload, ?_⟩
  simpa [Reader.consumeLine, Reader.consumeEvent, Nat.not_lt.mpr hlen, hload] using hrender

/-- An unreadable line ends the reader and records nothing. -/
theorem consumeLine_of_unreadable (h : UnreadableLine limits line) :
    (st.consumeLine limits log line).2.isSome = true ∧
      (st.consumeLine limits log line).1.transportError = st.transportError := by
  obtain ⟨hlen, hload | hload | ⟨event, hload, hu⟩⟩ := h
  · simp [Reader.consumeLine, Reader.consumeEvent, Nat.not_lt.mpr hlen, hload]
  · simp [Reader.consumeLine, Reader.consumeEvent, Nat.not_lt.mpr hlen, hload]
  · simp [Reader.consumeLine, Reader.consumeEvent, Nat.not_lt.mpr hlen, hload,
      renderEvent_of_unhashable hu]

/-- Every other line is recorded as a transport error. -/
theorem consumeLine_of_malformed (hw : ¬ WellFormedLine limits line)
    (hu : ¬ UnreadableLine limits line) :
    (st.consumeLine limits log line).2 = none ∧
      (st.consumeLine limits log line).1.transportError.isSome = true := by
  by_cases hlen : maxStdoutEventBytes < line.length
  · simp [Reader.consumeLine, hlen, Reader.fail]
  · have hle := Nat.not_lt.mp hlen
    simp only [Reader.consumeLine, hlen, if_false, Reader.consumeEvent]
    cases hload : loads limits line with
    | error e =>
      cases e with
      | decode => simp [Reader.fail]
      | recursion => exact absurd ⟨hle, .inl hload⟩ hu
      | digits => exact absurd ⟨hle, .inr (.inl hload)⟩ hu
    | ok event =>
      exact renderEvent_of_unsupported (fun hs => hw ⟨hle, event, hload, hs⟩)
        (fun hu' => hu ⟨hle, .inr (.inr ⟨event, hload, hu'⟩)⟩)

theorem not_unreadable_of_wellFormed (h : WellFormedLine limits line) :
    ¬ UnreadableLine limits line := by
  intro hu
  obtain ⟨_, _, hnone, -⟩ := consumeLine_of_wellFormed none {} h
  have hsome := (consumeLine_of_unreadable none {} hu).1
  rw [hnone] at hsome
  simp at hsome

/-- A recorded transport error is never withdrawn. -/
theorem consumeLine_transportError_isSome (h : st.transportError.isSome = true) :
    (st.consumeLine limits log line).1.transportError.isSome = true := by
  by_cases hw : WellFormedLine limits line
  · obtain ⟨_, -, -, ht, -⟩ := consumeLine_of_wellFormed log st hw
    rw [ht]; exact h
  · by_cases hu : UnreadableLine limits line
    · rw [(consumeLine_of_unreadable log st hu).2]; exact h
    · exact (consumeLine_of_malformed log st hw hu).2

theorem consumeLines_cons {lines : List (List UInt8)} :
    st.consumeLines limits log (line :: lines) =
      match (st.consumeLine limits log line).2 with
      | some e => ((st.consumeLine limits log line).1, some e)
      | none => (st.consumeLine limits log line).1.consumeLines limits log lines := by
  rw [Reader.consumeLines]
  rcases st.consumeLine limits log line with ⟨_, _ | _⟩ <;> rfl

theorem consumeLines_transportError_isSome {lines : List (List UInt8)}
    (h : st.transportError.isSome = true) :
    (st.consumeLines limits log lines).1.transportError.isSome = true := by
  induction lines generalizing st with
  | nil => exact h
  | cons line lines ih =>
    have hstep := @consumeLine_transportError_isSome limits log st line h
    rw [consumeLines_cons]
    cases (st.consumeLine limits log line).2 with
    | some e => exact hstep
    | none => exact ih _ hstep

/-! ### All lines -/

/-- The first line decides: it must be readable, and a recorded line makes the rest harmless. -/
theorem guarded_cons {lines : List (List UInt8)} :
    Guarded limits (line :: lines) ↔
      ¬ UnreadableLine limits line ∧ (WellFormedLine limits line → Guarded limits lines) := by
  constructor
  · intro h
    refine ⟨fun hu => ?_, fun hw i l hl hu => ?_⟩
    · obtain ⟨j, hj, -⟩ := h 0 line rfl hu
      exact absurd hj (Nat.not_lt_zero j)
    · obtain ⟨j, hj, earlier, hearlier, hnw, hnu⟩ := h (i + 1) l (by simpa using hl) hu
      cases j with
      | zero =>
        have : line = earlier := by simpa using hearlier
        exact absurd (this ▸ hw) hnw
      | succ j => exact ⟨j, by omega, earlier, by simpa using hearlier, hnw, hnu⟩
  · rintro ⟨hfirst, hrest⟩ i l hl hu
    cases i with
    | zero =>
      have : line = l := by simpa using hl
      exact absurd (this ▸ hu) hfirst
    | succ i =>
      by_cases hw : WellFormedLine limits line
      · obtain ⟨j, hj, earlier, hearlier, hn⟩ := hrest hw i l (by simpa using hl) hu
        exact ⟨j + 1, by omega, earlier, by simpa using hearlier, hn⟩
      · exact ⟨0, by omega, line, rfl, hw, hfirst⟩

/-- **Silent stops.** From a reader without a transport error, an exception never ends the thread
    without a transport error exactly when the lines are guarded. -/
theorem consumeLines_stop_iff_guarded {lines : List (List UInt8)} (h : st.transportError = none) :
    ((st.consumeLines limits log lines).2.isSome = true →
      (st.consumeLines limits log lines).1.transportError.isSome = true) ↔ Guarded limits lines := by
  induction lines generalizing st with
  | nil => simp [Reader.consumeLines, Guarded]
  | cons line lines ih =>
    rw [guarded_cons]
    by_cases hu : UnreadableLine limits line
    · -- the reader stops here, with nothing recorded
      obtain ⟨hsome, ht⟩ := consumeLine_of_unreadable log st hu
      obtain ⟨e, he⟩ := Option.isSome_iff_exists.mp hsome
      simp [consumeLines_cons, he, hu, ht, h]
    · by_cases hw : WellFormedLine limits line
      · obtain ⟨event, -, hnone, ht, -⟩ := consumeLine_of_wellFormed log st hw
        rw [consumeLines_cons, hnone]
        simp only [ih _ (ht.trans h), hu, hw, not_false_eq_true, true_and, forall_const]
      · -- recorded here, so no later stop is silent
        obtain ⟨hnone, ht⟩ := consumeLine_of_malformed log st hw hu
        rw [consumeLines_cons, hnone]
        simp only [hu, hw, not_false_eq_true, false_implies, and_self, iff_true]
        exact fun _ => consumeLines_transportError_isSome log _ ht

/-- The decoded events of a stream. -/
def stdoutEvents (limits : Limits) (lines : List (List UInt8)) : List Json :=
  lines.filterMap fun line => (loads limits line).toOption

/-- A reader that ends without exception and without transport error has seen well-formed lines
    only, and its parser has consumed every event of the stream. -/
theorem consumeLines_clean {lines : List (List UInt8)}
    (hex : (st.consumeLines limits log lines).2 = none)
    (ht : (st.consumeLines limits log lines).1.transportError = none) :
    (∀ line ∈ lines, WellFormedLine limits line) ∧
      (st.consumeLines limits log lines).1.parser =
        st.parser.consumeAll (stdoutEvents limits lines) := by
  induction lines generalizing st with
  | nil => simp [Reader.consumeLines, stdoutEvents, WorkerEgressParser.consumeAll]
  | cons line lines ih =>
    rw [consumeLines_cons] at hex ht ⊢
    by_cases hw : WellFormedLine limits line
    · obtain ⟨event, hload, hnone, -, hp⟩ := consumeLine_of_wellFormed log st hw
      rw [hnone] at hex ht ⊢
      obtain ⟨hall, hparser⟩ := ih _ hex ht
      refine ⟨?_, ?_⟩
      · intro l hl
        rcases List.mem_cons.mp hl with rfl | hl
        · exact hw
        · exact hall l hl
      · simp only [hparser, hp]
        simp [stdoutEvents, hload, Except.toOption, WorkerEgressParser.consumeAll_cons]
    · by_cases hu : UnreadableLine limits line
      · obtain ⟨e, he⟩ := Option.isSome_iff_exists.mp
          (consumeLine_of_unreadable log st hu).1
        rw [he] at hex
        simp at hex
      · obtain ⟨hnone, hsome⟩ := consumeLine_of_malformed log st hw hu
        rw [hnone] at ht
        have := @consumeLines_transportError_isSome limits log _ lines hsome
        rw [ht] at this
        simp at this

end Lines

/-! ### The run as a whole -/

/-- The supervision adds transport errors and never removes one. -/
theorem joinedTransportError_eq_none {p : Process} {reader : Reader}
    (h : joinedTransportError p reader = none) : reader.transportError = none := by
  unfold joinedTransportError at h
  cases hid : p.identityFailure with
  | some error => simp [hid] at h
  | none =>
    simp only [hid] at h
    split at h
    · cases h
    · split at h
      · cases h
      · cases hp : p.promptFailure with
        | none => simpa [hp] using h
        | some error =>
          simp only [hp] at h
          split at h
          · cases h
          · exact h

theorem runOpencode_transportError_eq_none {p : Process} {reader : Reader}
    (h : (runOpencode (.started p) reader).transportError = none) :
    reader.transportError = none := by
  unfold runOpencode at h
  simp only at h
  split at h
  · cases h
  · cases hd : p.destroyFailure with
    | some error => simp [hd] at h
    | none => exact joinedTransportError_eq_none (by simpa [hd] using h)

theorem runOpencode_started (p : Process) (reader : Reader) :
    (runOpencode (.started p) reader).processReturncode = p.returncode := by
  unfold runOpencode
  simp only
  split
  · rfl
  · cases p.destroyFailure <;> rfl

/-- What a conclusion other than `failed` must rest on: a process that started and exited 0, a
    stream of well-formed events, and one completed report with that outcome. -/
def BackedBy (limits : Limits) (launch : Launch) (conclusion : Conclusion) : Prop :=
  ∃ p, launch = .started p ∧ p.returncode = 0 ∧
    (∀ line ∈ splitLines p.stdout, WellFormedLine limits line) ∧
    ∃ event claim, (stdoutEvents limits (splitLines p.stdout)).filter isReportEvent = [event] ∧
      ReportOf event claim ∧ conclusion = claim.outcome.conclusion

/-- The reader thread never ends on an exception without a transport error. -/
def NeverSilent (limits : Limits) (log : ExecutionLog) (stdout : List UInt8) : Prop :=
  (Reader.consumeStdout limits log {} stdout).2.isSome = true →
    (Reader.consumeStdout limits log {} stdout).1.transportError.isSome = true

/-- On a reader that never stops in silence, a believed report is backed by the whole stream. -/
theorem backedBy_of_neverSilent [Sha256] {identity : ExecutionIdentity}
    {limits : Limits} {log : ExecutionLog} {launch : Launch} {report : ExecutionReport}
    (hq : NeverSilent limits log launch.stdout)
    (hr : buildExecutionReport identity (run limits log launch) = .ok report)
    (hne : report.result.conclusion ≠ .failed) :
    BackedBy limits launch report.result.conclusion := by
  obtain ⟨hstarted, hcode, htransport, hegress, claim, hclaim, hconclusion⟩ :=
    canonicalResult_believed (buildExecutionReport_conclusion hr) hne
  cases launch with
  | failed error => simp [run, runOpencode] at hstarted
  | started p =>
    unfold NeverSilent at hq
    simp only [run, Launch.stdout] at hcode htransport hegress hclaim hq
    have ht := runOpencode_transportError_eq_none htransport
    have hex : (Reader.consumeStdout limits log {} p.stdout).2 = none := by
      cases he : (Reader.consumeStdout limits log {} p.stdout).2 with
      | none => rfl
      | some e => simp [he, ht] at hq
    rw [consumeStdout_eq_consumeLines] at hex ht hclaim hegress
    obtain ⟨hall, hparser⟩ := consumeLines_clean log _ hex ht
    have hfinish : (WorkerEgressParser.consumeAll {}
        (stdoutEvents limits (splitLines p.stdout))).finish = (some claim, none) := by
      rw [hparser] at hclaim hegress
      exact Prod.ext hclaim hegress
    obtain ⟨event, hevent, hreport⟩ := WorkerEgressParser.finish_consumeAll_iff.mp hfinish
    rw [runOpencode_started] at hcode
    exact ⟨p, rfl, hcode, hall, event, claim, hevent, hreport, hconclusion⟩

/-- **Backed reports.** Every believed report is backed by the whole stdout stream and the reader
    never stops in silence exactly when every unreadable line of the stream comes after a line that
    is malformed in another way. -/
theorem backedBy_and_neverSilent_iff_guarded [Sha256] (identity : ExecutionIdentity)
    (limits : Limits) (log : ExecutionLog) (launch : Launch) :
    ((∀ report, buildExecutionReport identity (run limits log launch) = .ok report →
        report.result.conclusion ≠ .failed → BackedBy limits launch report.result.conclusion) ∧
      NeverSilent limits log launch.stdout) ↔
      Guarded limits (splitLines launch.stdout) := by
  have hiff : NeverSilent limits log launch.stdout ↔ Guarded limits (splitLines launch.stdout) := by
    unfold NeverSilent
    rw [consumeStdout_eq_consumeLines]
    exact consumeLines_stop_iff_guarded log _ rfl
  constructor
  · rintro ⟨-, hq⟩
    exact hiff.mp hq
  · intro hg
    have hq := hiff.mpr hg
    exact ⟨fun report hr hne => backedBy_of_neverSilent hq hr hne, hq⟩

/-! ### A stream that stops the reader in silence -/

/-- A completed report event. -/
def completedReportLine : List UInt8 :=
  octets "\x7b\"type\":\"tool_use\",\"part\":\x7b\"type\":\"tool\"," ++
    octets "\"tool\":\"devlegate_report\",\"state\":\x7b\"status\":\"completed\"," ++
    octets "\"input\":\x7b\"outcome\":\"completed\",\"summary\":\"done\"," ++
    octets "\"remaining\":[],\"questions\":[]\x7d\x7d\x7d\x7d\n"

/-- An event whose `type` is an array. -/
def arrayTypeLine : List UInt8 := octets "\x7b\"type\":[]\x7d\n"

/-- A worker that reports, writes the malformed line and exits 0. -/
def silentLaunch : Launch :=
  .started { stdout := completedReportLine ++ arrayTypeLine, returncode := 0 }

/-- The interpreter's default limits. -/
def defaultLimits : Limits := ⟨1000, 4300⟩

theorem unreadable_arrayTypeLine : UnreadableLine defaultLimits arrayTypeLine := by
  refine ⟨by decide, .inr (.inr ⟨.obj [(text "type", .arr [])], rfl, ?_⟩)⟩
  exact ⟨_, rfl, .inl rfl⟩

/-- The report is believed although the stream holds a malformed line, on which the reader stopped
    without a transport error. -/
theorem silentLaunch_believed :
    letI : Sha256 := ⟨fun _ => ""⟩
    ¬ ((∀ report, buildExecutionReport
          ⟨"e1", "t1", "c0de", "c0c0", "devlegate/t1", "/work/t1", none⟩
          (run defaultLimits none silentLaunch) = .ok report →
        report.result.conclusion ≠ .failed →
        BackedBy defaultLimits silentLaunch report.result.conclusion) ∧
      NeverSilent defaultLimits none silentLaunch.stdout) := by
  rintro ⟨hbacked, -⟩
  have hlines : splitLines silentLaunch.stdout = [completedReportLine, arrayTypeLine] := by
    show splitLines (completedReportLine ++ arrayTypeLine) = _
    unfold completedReportLine arrayTypeLine
    rw [octets_ofList, octets_ofList, octets_ofList, octets_ofList, octets_ofList]
    decide +kernel
  have hrun : run defaultLimits none silentLaunch =
      { processReturncode := 0, transportError := none, egressError := none,
        claim := some ⟨.completed, text "done", [], [], none⟩ } := by
    unfold run
    rw [consumeStdout_eq_consumeLines, hlines]
    unfold completedReportLine arrayTypeLine
    rw [octets_ofList, octets_ofList, octets_ofList, octets_ofList, octets_ofList]
    decide +kernel
  obtain ⟨p, hp, -, hall, -⟩ := hbacked _ (by rw [hrun]; rfl) (by decide)
  cases hp
  have hmem : arrayTypeLine ∈ splitLines silentLaunch.stdout := by simp [hlines]
  exact not_unreadable_of_wellFormed (hall _ hmem) unreadable_arrayTypeLine

end Devlegate
