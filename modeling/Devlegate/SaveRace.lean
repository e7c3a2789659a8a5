import Devlegate.Lib.SharedCell
import Devlegate.State

namespace Devlegate

open SharedCell

/-!
# A forced stop against the owner's saves

`request_lifecycle("stop", force=True)` runs on an IPC thread and saves the manual-retry barrier
while the owner thread goes on saving the progress of the execution.  Neither takes a lock that the
other one takes, and the store replaces the whole state without a revision check, so a save is a
read, a commit and an assignment that the other thread's save can fall between.

* `forcedStop`: the guard and the arguments of the stop's save, read from memory, and the save.
* `OwnerSave`: one `_save_state` call of the owner, with arguments that may be read from memory.
* `NoLostUpdate`: the copies agree and hold all updates, applied one at a time in some order.
* `noLostUpdate_of_exclusive`: no update is lost in a schedule in which neither thread starts a save
  while the other one is inside its own.
* `postWorkerRolledBack`: in a schedule that is not, the owner's `post-worker` record is lost.
-/

section Race

variable [Sha256]

/-! ### The two threads -/

/-- The barrier a forced stop writes for the active execution; `none` when there is none. -/
def forcedStopMarker (requestId : String) (s : RuntimeState) : Option ManualRetry :=
  if s.phase = .agentPending ∨ s.phase = .agentRunning then
    match s.executionTicketId, s.executionId, s.executionBaseHead with
    | some ticketId, some executionId, some baseHead =>
      if ticketId ≠ "" ∧ executionId ≠ "" ∧ baseHead ≠ "" then
        some ⟨ticketId, executionId, baseHead, requestId⟩
      else none
    | _, _, _ => none
  else none

/-- The `_save_state` call of a forced stop. -/
def forcedStopCall (phase : Phase) (marker : ManualRetry) : SaveCall where
  phase := phase
  fields s := { s with manualRetryRequired := some marker }

/-- The part of `_save_state` after its read: validation, and the store, which may fail. -/
def commitSave (storeFails : Bool) (call : SaveCall) (snapshot : RuntimeState) :
    Option RuntimeState :=
  if storeFails then none else (saveState call snapshot).toOption

/-- The save of `request_lifecycle("stop", force=True)`: guard, phase and marker come from memory
    before `_save_state` reads it again. -/
def forcedStop (requestId : String) (storeFails : Bool) : Save RuntimeState := fun s =>
  (forcedStopMarker requestId s).map fun marker =>
    commitSave storeFails (forcedStopCall s.phase marker)

/-- One `_save_state` call of the owner thread. -/
structure OwnerSave where
  call : RuntimeState → SaveCall
  storeFails : Bool := false

/-- The owner's call as a save of the shared state. -/
def OwnerSave.save (o : OwnerSave) : Save RuntimeState := fun s =>
  some (commitSave o.storeFails (o.call s))

/-- The owner (`false`) and the IPC thread (`true`) on a state that memory and store agree on. -/
def race (s : RuntimeState) (saves : List OwnerSave) (requestId : String) (stopFails : Bool) :
    System RuntimeState where
  memory := s
  durable := s
  thread w := if w then ⟨.outside, [forcedStop requestId stopFails]⟩
    else ⟨.outside, saves.map OwnerSave.save⟩

/-- A sequence of the owner's saves without interference. -/
def applySaves (saves : List OwnerSave) (s : RuntimeState) : RuntimeState :=
  saves.foldl (fun s o => o.save.apply s) s

/-- Memory and store agree, and hold the owner's saves and the stop applied one at a time, in an
    order that keeps the owner's; the stop itself writes nothing but the barrier. -/
def NoLostUpdate (s : RuntimeState) (saves : List OwnerSave) (requestId : String)
    (stopFails : Bool) (sys : System RuntimeState) : Prop :=
  sys.memory = sys.durable ∧
    ∃ k, ∃ before after, before = applySaves (saves.take k) s ∧
      after = (forcedStop requestId stopFails).apply before ∧
      after = { before with manualRetryRequired := after.manualRetryRequired } ∧
      sys.durable = applySaves (saves.drop k) after

/-! ### Exclusive schedules -/

omit [Sha256] in
/-- A forced stop finds an active execution and names it. -/
theorem forcedStopMarker_eq_some {requestId : String} {s : RuntimeState} {marker : ManualRetry}
    (h : forcedStopMarker requestId s = some marker) :
    (s.phase = .agentPending ∨ s.phase = .agentRunning)
      ∧ s.executionTicketId = some marker.ticketId ∧ s.executionId = some marker.executionId
      ∧ s.executionBaseHead = some marker.generation := by
  unfold forcedStopMarker at h
  grind

omit [Sha256] in
/-- A forced stop writes nothing but the barrier. -/
theorem forcedStopCall_payload {requestId : String} {s : RuntimeState} {marker : ManualRetry}
    (h : forcedStopMarker requestId s = some marker) :
    (forcedStopCall s.phase marker).payload s = { s with manualRetryRequired := some marker } := by
  have hphase : s.phase ≠ .idle := by
    rcases (forcedStopMarker_eq_some h).1 with hp | hp <;> simp [hp]
  simp [SaveCall.payload, forcedStopCall, hphase]

/-- A forced stop made in one piece changes nothing, or writes the barrier. -/
theorem forcedStop_apply (requestId : String) (stopFails : Bool) (s : RuntimeState) :
    (forcedStop requestId stopFails).apply s = s ∨
      ∃ marker, forcedStopMarker requestId s = some marker ∧
        (forcedStop requestId stopFails).apply s = { s with manualRetryRequired := some marker } := by
  cases hm : forcedStopMarker requestId s with
  | none => exact .inl (by simp [Save.apply, forcedStop, hm])
  | some marker =>
    have happly : (forcedStop requestId stopFails).apply s
        = (commitSave stopFails (forcedStopCall s.phase marker) s).getD s := by
      simp [Save.apply, forcedStop, hm]
    cases hc : commitSave stopFails (forcedStopCall s.phase marker) s with
    | none => exact .inl (by rw [happly, hc]; rfl)
    | some s' =>
      refine .inr ⟨marker, rfl, ?_⟩
      have hpayload : s' = (forcedStopCall s.phase marker).payload s := by
        unfold commitSave at hc
        cases stopFails with
        | true => simp at hc
        | false =>
          cases hsave : saveState (forcedStopCall s.phase marker) s with
          | error message => simp [hsave, Except.toOption] at hc
          | ok s'' =>
            simp only [hsave, Except.toOption, Bool.false_eq_true, if_false,
              Option.some.injEq] at hc
            rw [← hc]
            exact (saveState_eq_ok.mp hsave).1
      rw [happly, hc, hpayload]
      exact forcedStopCall_payload hm

theorem foldl_apply_map (saves : List OwnerSave) (s : RuntimeState) :
    (saves.map OwnerSave.save).foldl (fun s save => save.apply s) s = applySaves saves s := by
  rw [List.foldl_map]
  rfl

/-- **No lost update.** In every schedule in which neither thread starts a save while the other one
    is inside its own, the forced stop and all saves of the owner survive once both have
    finished. -/
theorem noLostUpdate_of_exclusive (s : RuntimeState) (saves : List OwnerSave) (requestId : String)
    (stopFails : Bool) (schedule : List Bool)
    (hex : Exclusive (race s saves requestId stopFails) schedule)
    (hfin : ((race s saves requestId stopFails).run schedule).Finished) :
    NoLostUpdate s saves requestId stopFails ((race s saves requestId stopFails).run schedule) := by
  have hinv : Inv (race s saves requestId stopFails) := ⟨true, rfl, rfl⟩
  obtain ⟨heq, order, horder, hmem⟩ := run_exclusive hinv hex hfin
  obtain ⟨k, rfl⟩ := interleaving_singleton horder
  refine ⟨heq.symm, k, _, _, rfl, rfl, ?_, ?_⟩
  · rcases forcedStop_apply requestId stopFails (applySaves (saves.take k) s) with h | ⟨m, -, h⟩
    · rw [h]
    · rw [h]
  · have howner : ((race s saves requestId stopFails).thread false).todo
        = saves.map OwnerSave.save := rfl
    rw [heq, hmem, howner, List.foldl_append, List.foldl_cons, ← List.map_take, ← List.map_drop,
      foldl_apply_map, foldl_apply_map]
    rfl

end Race

/-! ### A schedule that loses the owner's update -/

/-- A git object name made of one digit. -/
def sampleHead (digit : Char) : String := String.ofList (List.replicate 40 digit)

/-- An execution whose worker is running. -/
def workerRunningState : RuntimeState where
  phase := .agentRunning
  localHead := some (sampleHead 'a')
  remoteHead := some (sampleHead 'a')
  changedPaths := some ""
  controlHead := some (sampleHead 'c')
  selectedTicketId := some "t1"
  selectedTicketBody := some "do it"
  executionTicketId := some "t1"
  executionBaseHead := some (sampleHead 'a')
  executionControlHead := some (sampleHead 'c')
  executionBranch := some "devlegate/work/t1"
  executionPath := some "/work/t1"
  executionId := some "e1"
  executionRemoteHead := some none
  executionStartHead := some (sampleHead 'a')
  executionStage := some .workerRunning
  workerIdentity := some ⟨"e1", 7, 7, 7, "boot", 1, none⟩

/-- The owner's record that the worker is gone. -/
def postWorkerSave : OwnerSave where
  call _ := {
    phase := .agentRunning
    fields := fun s => { s with executionStage := some .postWorker, workerIdentity := none } }

/-- The four steps of one thread's save. -/
def wholeSave (w : Bool) : List Bool := List.replicate 4 w

/-- The stop's save after the owner's keeps both. -/
theorem noLostUpdate_stop_after_postWorker :
    letI : Sha256 := ⟨fun _ => ""⟩
    NoLostUpdate workerRunningState [postWorkerSave] "r1" false
      ((race workerRunningState [postWorkerSave] "r1" false).run
        (wholeSave false ++ wholeSave true)) :=
  letI : Sha256 := ⟨fun _ => ""⟩
  noLostUpdate_of_exclusive workerRunningState [postWorkerSave] "r1" false
    (wholeSave false ++ wholeSave true) (by decide) (by decide)

/-- The stop reads the state, the owner saves `post-worker`, and the stop's commit puts the running
    worker back: both copies end with a state that no order of the two saves gives. -/
theorem postWorkerRolledBack :
    letI : Sha256 := ⟨fun _ => ""⟩
    ((race workerRunningState [postWorkerSave] "r1" false).run
        ([true, true] ++ wholeSave false ++ [true, true])).Finished ∧
      ¬ NoLostUpdate workerRunningState [postWorkerSave] "r1" false
        ((race workerRunningState [postWorkerSave] "r1" false).run
          ([true, true] ++ wholeSave false ++ [true, true])) := by
  let _ : Sha256 := ⟨fun _ => ""⟩
  refine ⟨by decide, ?_⟩
  rintro ⟨-, k, before, after, rfl, rfl, -, hdurable⟩
  have hstage : ((race workerRunningState [postWorkerSave] "r1" false).run
      ([true, true] ++ wholeSave false ++ [true, true])).durable.executionStage
      = some .workerRunning := by decide
  rw [hdurable] at hstage
  cases k with
  | zero =>
    have hserial : (applySaves ([postWorkerSave].drop 0) ((forcedStop "r1" false).apply
        (applySaves ([postWorkerSave].take 0) workerRunningState))).executionStage
        = some .postWorker := by decide
    rw [hserial] at hstage
    cases hstage
  | succ k =>
    have hserial : (applySaves [] ((forcedStop "r1" false).apply
        (applySaves [postWorkerSave] workerRunningState))).executionStage
        = some .postWorker := by decide
    simp only [List.drop_succ_cons, List.drop_nil, List.take_succ_cons, List.take_nil] at hstage
    rw [hserial] at hstage
    cases hstage

end Devlegate
