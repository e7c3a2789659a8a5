import Devlegate.EngineRun
import Devlegate.SaveRace
import Devlegate.Lib.History

namespace Devlegate

open Transition

/-!
# Product synchronisation and crashes

An iteration that finds the product branch behind its remote records the merge it is about to make,
makes it, and saves where it goes on from.  A crash in between leaves the record; the next process
finds it and makes the rest of the synchronisation.

* `SyncWorld`: the durable state, the product checkout and its remote branch, and how far a process
  has come.
* `SyncWorld.step`: the saves and the merge of one synchronisation, crashes, and pushes to the
  remote.
* `SyncWorld.complete`: one synchronisation without a crash.
* `interruptedSync_agrees_iff`: after any number of crashes and pushes the synchronisation ends
  where an uninterrupted one does, unless an execution was pending.
-/

/-! ### The system -/

/-- How far the process that synchronises has come. -/
inductive SyncProcess where
  | down
  | recorded (o : Observation) (y : Synced) (resumed : Bool)
  | merged (o : Observation) (y : Synced) (resumed : Bool)
  | completed

/-- The head the process is on its way to. -/
def SyncProcess.target : SyncProcess → Option String
  | .recorded o _ _ | .merged o _ _ => o.mergedHead
  | _ => none

/-- The durable state and the product branch: the head of the checkout and of the remote. -/
structure SyncWorld where
  state : RuntimeState
  localHead : String
  remoteHead : String
  process : SyncProcess := .down

inductive SyncAction where
  | push (head : String)
  | start (o : Observation) (intent : IterationIntent)
  | merge
  | finish
  | crash

namespace SyncWorld

section System

variable [Project] [Sha256] (history : History String)

/-- The answers of an iteration about the product branch. -/
def observed (w : SyncWorld) (o : Observation) : Observation :=
  { o with
    localHead := w.localHead
    remoteHead := some w.remoteHead
    isAncestor := history.isAncestor
    mergedHead := history.fastForward w.localHead w.remoteHead }

/-- A save of the process. -/
def save (w : SyncWorld) (call : SaveCall) (process : SyncProcess) : Option SyncWorld :=
  match saveState call w.state with
  | .ok s => some { w with state := s, process := process }
  | .error _ => none

/-- One step.  `start` runs an iteration up to the save that follows the fetch, `merge` is the
    fast-forward, `finish` the last save of the synchronisation. -/
def step (w : SyncWorld) : SyncAction → Option SyncWorld
  | .push head =>
    if history.isAncestor w.remoteHead head then some { w with remoteHead := head } else none
  | .start o intent =>
    match w.process with
    | .down =>
      match enter (w.observed history o) intent w.state with
      | .save call (.merging o y resumed) => w.save call (.recorded o y resumed)
      | .save call (.synchronized _ _) => w.save call .completed
      | _ => none
    | _ => none
  | .merge =>
    match w.process with
    | .recorded o y resumed =>
      o.mergedHead.map fun head => { w with localHead := head, process := .merged o y resumed }
    | _ => none
  | .finish =>
    match w.process with
    | .merged o y resumed =>
      match advance (.merging o y resumed) w.state with
      | .save call _ => w.save call .completed
      | _ => none
    | _ => none
  | .crash =>
    match w.process with
    | .recorded _ _ _ | .merged _ _ _ => some { w with process := .down }
    | _ => none

/-- One synchronisation without a crash. -/
def complete (w : SyncWorld) (o : Observation) (intent : IterationIntent) : Option SyncWorld := do
  let w ← w.step history (.start o intent)
  match w.process with
  | .completed => return w
  | _ =>
    let w ← w.step history .merge
    w.step history .finish

end System

/-- What a synchronisation has to agree on with another: the phase, the execution, the binding of
    the selected ticket and the product heads. -/
structure Agrees (w w' : SyncWorld) : Prop where
  phase : w.state.phase = w'.state.phase
  executionId : w.state.executionId = w'.state.executionId
  selectedTicketId : w.state.selectedTicketId = w'.state.selectedTicketId
  selectedTicketBody : w.state.selectedTicketBody = w'.state.selectedTicketBody
  selectedTicketTitle : w.state.selectedTicketTitle = w'.state.selectedTicketTitle
  executionTicketId : w.state.executionTicketId = w'.state.executionTicketId
  persistedLocal : w.state.localHead = w'.state.localHead
  persistedRemote : w.state.remoteHead = w'.state.remoteHead
  checkout : w.localHead = w'.localHead

end SyncWorld

/-- Nothing outside the product branch keeps the iteration from synchronising. -/
structure Observation.Proceeds (o : Observation) : Prop where
  stop : ∀ gate, o.stop gate = false
  branchOk : o.branchOk = true
  clean : o.dirty = false
  control : o.controlHead.isSome

/-! ### The way to the synchronisation -/

section Iteration

variable [Project] {o : Observation} {intent : IterationIntent} {s : RuntimeState}
  {authorization : Option ExecutionAuthorization} {call : SaveCall} {next : Pc}

/-- No recovery comes before the synchronisation of this state. -/
def RuntimeState.Synchronizes (s : RuntimeState) : Prop :=
  match s.phase with
  | .idle => s.acceptedIntegration = none ∧ s.reconciliation.filter (·.status = .resolving) = none
  | .mergePending => True
  | .agentPending => s.operatorRecovery = none
  | .agentRunning => False

/-- The synchronisation that follows the fetch. -/
def synchronizeProduct (o : Observation) (authorization : Option ExecutionAuthorization)
    (controlHead remoteHead : String) (s : RuntimeState) : Stretch :=
  if s.phase = .agentPending ∨ s.phase = .mergePending then
    synchronizePending o authorization controlHead remoteHead s
  else synchronizeIdle o authorization controlHead remoteHead s

/-- Where nothing keeps it from synchronising, an iteration does. -/
theorem enter_of_proceeds (ho : o.Proceeds) (hs : s.Synchronizes) {controlHead remoteHead : String}
    (hcontrol : o.controlHead = some controlHead) (hremote : o.remoteHead = some remoteHead) :
    enter o intent s
      = synchronizeProduct o (initialAuthorization intent s) controlHead remoteHead s := by
  have hsync : synchronize o (initialAuthorization intent s) s
      = synchronizeProduct o (initialAuthorization intent s) controlHead remoteHead s := by
    simp [synchronize, synchronizeProduct, ho.clean, ho.stop, hcontrol, hremote]
  unfold RuntimeState.Synchronizes at hs
  unfold enter
  cases hphase : s.phase with
  | idle =>
    rw [hphase] at hs
    simpa [ho.stop, ho.branchOk, hs.1, hs.2] using hsync
  | mergePending => simpa [ho.stop, ho.branchOk] using hsync
  | agentPending =>
    rw [hphase] at hs
    simpa [ho.stop, ho.branchOk, hs] using hsync
  | agentRunning =>
    rw [hphase] at hs
    exact hs.elim

/-- The points of a synchronisation. -/
def Pc.ofSynchronization : Pc → Bool
  | .merging _ _ _ | .synchronized _ _ => true
  | _ => false

/-- An iteration that reaches a point of the synchronisation has got through to it. -/
theorem enter_synchronization (h : enter o intent s = .save call next)
    (hnext : next.ofSynchronization = true) (hphase : s.phase ≠ .agentRunning) :
    s.Synchronizes ∧ ∃ controlHead remoteHead, o.controlHead = some controlHead
      ∧ o.remoteHead = some remoteHead
      ∧ synchronizeProduct o (initialAuthorization intent s) controlHead remoteHead s
        = .save call next := by
  have hsync : ∀ a, synchronize o a s = .save call next → ∃ controlHead remoteHead,
      o.controlHead = some controlHead ∧ o.remoteHead = some remoteHead
      ∧ synchronizeProduct o a controlHead remoteHead s = .save call next := by
    intro a hsync
    unfold synchronize at hsync
    unfold synchronizeProduct
    grind
  unfold enter at h
  unfold RuntimeState.Synchronizes
  dsimp only at h
  split at h
  · cases h
  cases hp : s.phase with
  | agentRunning => exact absurd hp hphase
  | mergePending =>
    simp only [hp] at h
    split at h
    · cases h
    · exact ⟨trivial, hsync _ h⟩
  | agentPending =>
    simp only [hp] at h
    cases hrecovery : s.operatorRecovery with
    | none =>
      simp only [hrecovery] at h
      split at h
      · cases h
      · exact ⟨rfl, hsync _ h⟩
    | some recovery =>
      -- An explicit recovery ends the iteration.
      simp only [hrecovery] at h
      split at h
      · cases h
      · split at h
        · cases h
        · cases h
          cases hnext
  | idle =>
    simp only [hp] at h
    split at h
    · cases h
    · split at h
      · unfold recoverAcceptedIntegration at h
        grind [Pc.ofSynchronization]
      · unfold reconcileResume at h
        grind [Pc.ofSynchronization]
      · rename_i haccepted hreconciliation
        exact ⟨⟨haccepted, hreconciliation⟩, hsync _ h⟩

omit [Project] in
/-- The pending synchronisation of a recorded merge goes to the remote head: through the merge if
    the checkout is not there yet, else at once. -/
theorem synchronizePending_recorded {controlHead remoteHead persistedLocal persistedRemote : String}
    (hphase : s.phase = .mergePending) (hlocal : s.localHead = some persistedLocal)
    (hremote : s.remoteHead = some persistedRemote)
    (hhead : o.localHead = persistedLocal ∨ o.localHead = persistedRemote)
    (hanc : o.isAncestor persistedRemote remoteHead = true) :
    synchronizePending o authorization controlHead remoteHead s =
      if o.localHead ≠ remoteHead then
        .save (Call.sync .mergePending ⟨authorization, false, o.localHead, remoteHead, controlHead,
            o.changedPaths o.localHead remoteHead⟩)
          (.merging o ⟨authorization, false, remoteHead, remoteHead, controlHead,
            o.changedPaths o.localHead remoteHead⟩ true)
      else
        .save (Call.sync .idle ⟨authorization, false, o.localHead, remoteHead, controlHead,
            s.changedPaths.getD ""⟩)
          (.synchronized o ⟨authorization, false, o.localHead, remoteHead, controlHead,
            s.changedPaths.getD ""⟩) := by
  have htarget : pendingTarget o remoteHead s = .ok remoteHead := by
    unfold pendingTarget
    simp only [hlocal, hremote, hphase, Option.getD_some, hanc]
    grind
  unfold synchronizePending
  simp [htarget, hphase]

omit [Project] in
/-- A pending execution is synchronised with any later head of the remote, if with one. -/
theorem pendingTarget_later {history : History String} {remoteHead later target : String}
    (hanc : o.isAncestor = history.isAncestor) (h : pendingTarget o remoteHead s = .ok target)
    (hlater : history.isAncestor remoteHead later = true) : pendingTarget o later s = .ok later := by
  have hpersisted : history.isAncestor (s.remoteHead.getD "") later = true := by
    unfold pendingTarget at h
    by_cases heq : s.remoteHead.getD "" = remoteHead
    · rw [heq]
      exact hlater
    · apply history.trans _ _ _ ?_ hlater
      grind
  unfold pendingTarget at h ⊢
  simp only [hanc] at h ⊢
  grind

omit [Project] in
/-- A pending execution behind its remote is synchronised through a merge. -/
theorem synchronizePending_behind {controlHead remoteHead : String}
    (hphase : s.phase = .agentPending) (htarget : pendingTarget o remoteHead s = .ok remoteHead)
    (hbehind : o.isAncestor o.localHead remoteHead = true)
    (hnot : o.isAncestor remoteHead o.localHead = false) (hne : o.localHead ≠ remoteHead)
    (hstop : o.stop .beforeMerge = false) :
    synchronizePending o authorization controlHead remoteHead s =
      .save (Call.sync .mergePending ⟨authorization, true, o.localHead, remoteHead, controlHead,
          o.changedPaths o.localHead remoteHead⟩)
        (.merging o ⟨authorization, true, remoteHead, remoteHead, controlHead,
          o.changedPaths o.localHead remoteHead⟩ true) := by
  unfold synchronizePending
  simp [htarget, hphase, hbehind, hnot, hne, hstop]

end Iteration

/-! ### The saves are valid -/

section Validity

variable [Sha256] {s : RuntimeState}

/-- Only an idle state integrates an accepted ticket. -/
theorem acceptedIntegration_of_valid (hs : validateStateInvariant s = .ok ())
    (hphase : s.phase ≠ .idle) : s.acceptedIntegration = none := by
  simp only [validateStateInvariant, andThen_eq_ok] at hs
  have hcheck := hs.2.2.2.2.2.2.1
  simpa [require, hphase] using hcheck

/-- A valid state can record a merge, unless it integrates an accepted ticket. -/
theorem valid_sync_mergePending (hs : validateStateInvariant s = .ok ())
    (haccepted : s.acceptedIntegration = none) (y : Synced) :
    validateStateInvariant ((Call.sync .mergePending y).payload s) = .ok () := by
  simp only [validateStateInvariant, andThen_eq_ok] at hs ⊢
  obtain ⟨hr, ha, hl, hw, hm, -, -, -, -⟩ := hs
  refine ⟨hr, ha, hl, hw, hm, rfl, ?_, ?_, rfl⟩
  · simp [SaveCall.payload, Call.sync, require, haccepted]
  · simp [SaveCall.payload, Call.sync, require, haccepted]

/-- A valid state becomes a valid idle one. -/
theorem valid_sync_idle (hs : validateStateInvariant s = .ok ()) (y : Synced) :
    validateStateInvariant ((Call.sync .idle y).payload s) = .ok () := by
  simp only [validateStateInvariant, andThen_eq_ok] at hs ⊢
  obtain ⟨hr, ha, hl, -, hm, -, -, hi, -⟩ := hs
  exact ⟨hr, ha, hl, rfl, hm, rfl, by simp [SaveCall.payload, Call.sync, require,
    RuntimeState.clearForIdle], hi, rfl⟩

/-- A valid pending state stays one with new heads. -/
theorem valid_sync_agentPending (hs : validateStateInvariant s = .ok ())
    (hphase : s.phase = .agentPending) (y : Synced) :
    validateStateInvariant ((Call.sync .agentPending y).payload s) = .ok () := by
  simp only [validateStateInvariant, andThen_eq_ok, hphase] at hs ⊢
  obtain ⟨hr, ha, hl, hw, hm, -, hna, hi, he⟩ := hs
  refine ⟨hr, ha, hl, hw, hm, rfl, hna, hi, ?_⟩
  obtain ⟨-, hselected, -, -, hbound⟩ := validateExecution_eq_ok.mp he
  have hpending : Phase.agentPending ≠ .agentRunning := by decide
  exact validateExecution_eq_ok.mpr ⟨rfl, hselected, rfl, fun h => absurd h hpending, hbound⟩

end Validity

/-! ### The middle of a synchronisation -/

namespace SyncWorld

variable [Project] [Sha256] {history : History String} {w₀ w w' : SyncWorld} {o : Observation}
  {intent : IterationIntent}

omit [Project] in
theorem save_eq {call : SaveCall} (process : SyncProcess)
    (h : validateStateInvariant (call.payload w.state) = .ok ()) :
    w.save call process = some { w with state := call.payload w.state, process := process } := by
  simp [save, saveState_eq_ok.mpr ⟨rfl, h⟩]

omit [Project] in
theorem save_some {call : SaveCall} {process : SyncProcess} (h : w.save call process = some w') :
    validateStateInvariant (call.payload w.state) = .ok ()
      ∧ w' = { w with state := call.payload w.state, process := process } := by
  unfold save at h
  split at h
  · rename_i s hs
    obtain ⟨rfl, hvalid⟩ := saveState_eq_ok.mp hs
    exact ⟨hvalid, by simpa using h.symm⟩
  · cases h

/-- A synchronisation of the state `s` has recorded its merge and not yet saved its end. -/
structure Midway (history : History String) (s : RuntimeState) (w : SyncWorld) (y : Synced) :
    Prop where
  state : w.state = (Call.sync .mergePending y).payload s
  valid : validateStateInvariant w.state = .ok ()
  head : w.localHead = y.localHead ∨ w.localHead = y.remoteHead
  behind : history.isAncestor w.localHead w.remoteHead = true
  target : history.isAncestor y.remoteHead w.remoteHead = true
  process : w.process = .down ∨ w.process.target = some y.remoteHead

section Midway

variable {s : RuntimeState} {y : Synced}

/-- The record that a process makes when it finds a record and the checkout behind the remote. -/
def restarted (history : History String) (w : SyncWorld) (o : Observation)
    (authorization : Option ExecutionAuthorization) (controlHead : String) : Synced :=
  ⟨authorization, false, w.localHead, w.remoteHead, controlHead,
    (w.observed history o).changedPaths w.localHead w.remoteHead⟩

omit [Project] in
/-- The synchronisation of the next process. -/
theorem Midway.synchronizePending (h : Midway history s w y)
    (authorization : Option ExecutionAuthorization) (controlHead : String) :
    Devlegate.synchronizePending (w.observed history o) authorization controlHead w.remoteHead w.state =
      if w.localHead ≠ w.remoteHead then
        .save (Call.sync .mergePending (w.restarted history o authorization controlHead))
          (.merging (w.observed history o)
            { w.restarted history o authorization controlHead with localHead := w.remoteHead } true)
      else
        .save (Call.sync .idle ⟨authorization, false, w.localHead, w.remoteHead, controlHead,
            y.changedPaths⟩)
          (.synchronized (w.observed history o) ⟨authorization, false, w.localHead, w.remoteHead,
            controlHead, y.changedPaths⟩) := by
  have hphase : w.state.phase = .mergePending := by rw [h.state]; rfl
  have hlocal : w.state.localHead = some y.localHead := by rw [h.state]; rfl
  have hremote : w.state.remoteHead = some y.remoteHead := by rw [h.state]; rfl
  have hpaths : w.state.changedPaths.getD "" = y.changedPaths := by rw [h.state]; rfl
  have hhead : (w.observed history o).localHead = y.localHead
      ∨ (w.observed history o).localHead = y.remoteHead := h.head
  rw [synchronizePending_recorded hphase hlocal hremote hhead h.target, hpaths]
  rfl

/-- A process that finds the record makes it anew, or ends the synchronisation. -/
theorem Midway.start (h : Midway history s w y) (hdown : w.process = .down)
    (hstep : w.step history (.start o intent) = some w') :
    w'.process = .completed ∨ ∃ y', Midway history s w' y' := by
  simp only [step, hdown] at hstep
  have hphase : w.state.phase = .mergePending := by rw [h.state]; rfl
  split at hstep
  · rename_i call o' z resumed henter
    obtain ⟨hvalid, rfl⟩ := save_some hstep
    obtain ⟨-, controlHead, remoteHead, -, hremote, hsync⟩ :=
      enter_synchronization henter rfl (by simp [hphase])
    have hheads : remoteHead = w.remoteHead := by simpa [observed] using hremote.symm
    subst hheads
    rw [synchronizeProduct, if_pos (.inr hphase), h.synchronizePending] at hsync
    split at hsync
    · simp only [Stretch.save.injEq, Pc.merging.injEq] at hsync
      obtain ⟨rfl, rfl, -, -⟩ := hsync
      refine .inr ⟨w.restarted history o (initialAuthorization intent w.state) controlHead, ?_, hvalid,
        .inl rfl, h.behind, history.refl w.remoteHead, .inr ?_⟩
      · dsimp only
        rw [h.state]
        rfl
      · exact History.fastForward_of_ancestor h.behind
    · simp at hsync
  · obtain ⟨-, rfl⟩ := save_some hstep
    exact .inl rfl
  · cases hstep

/-- A step in the middle of a synchronisation stays there or ends it. -/
theorem Midway.step (h : Midway history s w y) {a : SyncAction} (hstep : w.step history a = some w') :
    w'.process = .completed ∨ ∃ y', Midway history s w' y' := by
  cases a with
  | start o intent =>
    rcases h.process with hdown | htarget
    · exact h.start hdown hstep
    · cases hp : w.process <;> simp [SyncWorld.step, hp, SyncProcess.target] at hstep htarget
  | push head =>
    simp only [SyncWorld.step] at hstep
    split at hstep
    · rename_i hanc
      cases hstep
      refine .inr ⟨y, h.state, h.valid, h.head, ?_, ?_, h.process⟩
      · exact history.trans _ _ _ h.behind hanc
      · exact history.trans _ _ _ h.target hanc
    · cases hstep
  | merge =>
    simp only [SyncWorld.step] at hstep
    split at hstep
    · rename_i o z resumed hp
      have htarget : o.mergedHead = some y.remoteHead := by
        simpa [hp, SyncProcess.target] using h.process
      rw [htarget] at hstep
      cases hstep
      exact .inr ⟨y, h.state, h.valid, .inr rfl, h.target, h.target, .inr htarget⟩
    · cases hstep
  | finish =>
    simp only [SyncWorld.step] at hstep
    split at hstep
    · split at hstep
      · obtain ⟨-, rfl⟩ := save_some hstep
        exact .inl rfl
      · cases hstep
    · cases hstep
  | crash =>
    simp only [SyncWorld.step] at hstep
    split at hstep
    · cases hstep
      exact .inr ⟨y, h.state, h.valid, h.head, h.behind, h.target, .inl rfl⟩
    · cases hstep
      exact .inr ⟨y, h.state, h.valid, h.head, h.behind, h.target, .inl rfl⟩
    · cases hstep

/-- An ended synchronisation stays ended. -/
theorem completed_step (h : w.process = .completed) {a : SyncAction}
    (hstep : w.step history a = some w') : w'.process = .completed := by
  cases a with
  | push head =>
    simp only [SyncWorld.step] at hstep
    split at hstep
    · cases hstep
      exact h
    · cases hstep
  | start o intent => simp [SyncWorld.step, h] at hstep
  | merge => simp [SyncWorld.step, h] at hstep
  | finish => simp [SyncWorld.step, h] at hstep
  | crash => simp [SyncWorld.step, h] at hstep

/-- Whatever happens to it, a synchronisation that is not ended is in its middle. -/
theorem Midway.run (h : Midway history s w y) {ok : SyncWorld → SyncAction → Prop}
    (hrun : Run (SyncWorld.step history) ok w w') :
    w'.process = .completed ∨ ∃ y', Midway history s w' y' := by
  apply hrun.invariant (fun w => w.process = .completed ∨ ∃ y', Midway history s w y')
  · exact .inr ⟨y, h⟩
  · intro w a w' hw _ hstep
    rcases hw with hcompleted | ⟨y, hmid⟩
    · exact .inl (completed_step hcompleted hstep)
    · exact hmid.step hstep

/-- The end of a synchronisation: the state with the heads of the remote, in the given phase. -/
structure Ended (s : RuntimeState) (phase : Phase) (head : String) (w : SyncWorld) : Prop where
  state : ∃ y : Synced, y.localHead = head ∧ y.remoteHead = head
    ∧ w.state = (Call.sync phase y).payload s
  checkout : w.localHead = head

/-- From a record, the merge and the last save end the synchronisation. -/
theorem complete_of_record {call : SaveCall} {z : Synced} {resumed : Bool} {next : SaveCall}
    (hdown : w.process = .down)
    (henter : enter (w.observed history o) intent w.state
      = .save call (.merging (w.observed history o) z resumed))
    (hcall : validateStateInvariant (call.payload w.state) = .ok ())
    (hbehind : history.isAncestor w.localHead w.remoteHead = true)
    (htarget : z.remoteHead = w.remoteHead)
    (hnext : next = if resumed then
        Call.sync (if z.pendingAgentExecution then .agentPending else .idle) z else Call.merged z)
    (hvalid : validateStateInvariant (next.payload (call.payload w.state)) = .ok ()) :
    w.complete history o intent = some { w with
      state := next.payload (call.payload w.state)
      localHead := w.remoteHead
      process := .completed } := by
  have hmerged : (w.observed history o).mergedHead = some w.remoteHead :=
    History.fastForward_of_ancestor hbehind
  have hstart : w.step history (.start o intent) = some { w with
      state := call.payload w.state
      process := .recorded (w.observed history o) z resumed } := by
    simp only [SyncWorld.step, hdown, henter]
    exact save_eq _ hcall
  have hadvance : advance (.merging (w.observed history o) z resumed) (call.payload w.state)
      = .save next (.synchronized (w.observed history o) z) := by
    simp only [advance, hmerged, htarget, hnext]
    cases resumed <;> simp
  unfold complete
  rw [hstart]
  simp only [SyncWorld.step, hmerged, hadvance, Option.map_some, bind, Option.bind_some]
  exact save_eq (w := { w with
    state := call.payload w.state
    localHead := w.remoteHead
    process := .merged (w.observed history o) z resumed }) .completed hvalid

/-- After a crash the next process ends the synchronisation, idle. -/
theorem Midway.complete (h : Midway history s w y) (hdown : w.process = .down) (ho : o.Proceeds)
    (intent : IterationIntent) :
    ∃ w', w.complete history o intent = some w' ∧ Ended s .idle w.remoteHead w' := by
  have hphase : w.state.phase = .mergePending := by rw [h.state]; rfl
  obtain ⟨controlHead, hcontrol⟩ := Option.isSome_iff_exists.mp ho.control
  have hsync : enter (w.observed history o) intent w.state
      = Devlegate.synchronizePending (w.observed history o) (initialAuthorization intent w.state) controlHead
          w.remoteHead w.state := by
    have hproceeds : (w.observed history o).Proceeds := ⟨ho.stop, ho.branchOk, ho.clean, ho.control⟩
    have hremote : (w.observed history o).remoteHead = some w.remoteHead := rfl
    rw [enter_of_proceeds hproceeds (by simp [RuntimeState.Synchronizes, hphase]) hcontrol hremote,
      synchronizeProduct, if_pos (.inr hphase)]
  rw [h.synchronizePending] at hsync
  have haccepted : w.state.acceptedIntegration = none :=
    acceptedIntegration_of_valid h.valid (by simp [hphase])
  by_cases hne : w.localHead ≠ w.remoteHead
  · rw [if_pos hne] at hsync
    refine ⟨_, complete_of_record hdown hsync (valid_sync_mergePending h.valid haccepted _)
      h.behind rfl rfl ?_, ?_⟩
    · exact valid_sync_idle h.valid _
    · refine ⟨⟨{ w.restarted history o (initialAuthorization intent w.state) controlHead with
        localHead := w.remoteHead }, rfl, rfl, ?_⟩, rfl⟩
      dsimp only
      rw [h.state]
      rfl
  · rw [if_neg hne] at hsync
    have hheads : w.localHead = w.remoteHead := by simpa using hne
    let z : Synced := ⟨initialAuthorization intent w.state, false, w.localHead, w.remoteHead,
      controlHead, y.changedPaths⟩
    have hsave : w.save (Call.sync .idle z) .completed
        = some { w with state := (Call.sync .idle z).payload w.state, process := .completed } :=
      save_eq _ (valid_sync_idle h.valid _)
    refine ⟨{ w with state := (Call.sync .idle z).payload w.state, process := .completed }, ?_,
      ⟨⟨z, hheads, rfl, ?_⟩, hheads⟩⟩
    · simp only [SyncWorld.complete, SyncWorld.step, hdown, hsync]
      rw [hsave]
      rfl
    · dsimp only
      rw [h.state]
      rfl

/-- The record of the first process. -/
def firstRecord (history : History String) (w : SyncWorld) (o : Observation)
    (authorization : Option ExecutionAuthorization) (controlHead : String) : Synced :=
  ⟨authorization, w.state.phase = .agentPending, w.localHead, w.remoteHead, controlHead,
    (w.observed history o).changedPaths w.localHead w.remoteHead⟩

omit [Sha256] in
/-- The synchronisation of a checkout behind its remote records the merge first. -/
theorem synchronizeProduct_behind (hphase : w.state.phase = .idle ∨ w.state.phase = .agentPending)
    (hbehind : history.isAncestor w.localHead w.remoteHead = true)
    (hne : w.localHead ≠ w.remoteHead)
    (htarget : w.state.phase = .agentPending →
      pendingTarget (w.observed history o) w.remoteHead w.state = .ok w.remoteHead)
    (hstop : o.stop .beforeMerge = false) (authorization : Option ExecutionAuthorization)
    (controlHead : String) :
    synchronizeProduct (w.observed history o) authorization controlHead w.remoteHead w.state =
      .save (Call.sync .mergePending (w.firstRecord history o authorization controlHead))
        (.merging (w.observed history o)
          { w.firstRecord history o authorization controlHead with localHead := w.remoteHead }
          (w.state.phase = .agentPending)) := by
  rcases hphase with hphase | hphase
  · have hanc : (w.observed history o).isAncestor w.localHead w.remoteHead = true := hbehind
    have hgo : (w.observed history o).stop .beforeMerge = false := hstop
    have hhead : (w.observed history o).localHead = w.localHead := rfl
    simp [synchronizeProduct, synchronizeIdle, hphase, hhead, hne, hanc, hgo, firstRecord]
  · have hback : history.isAncestor w.remoteHead w.localHead = false :=
      History.not_ancestor_of_lt hbehind hne (history.refl _)
    rw [synchronizeProduct, if_pos (.inl hphase),
      synchronizePending_behind hphase (htarget hphase) hbehind hback hne hstop]
    simp [firstRecord, hphase, observed]

/-- A checkout that is behind its remote and whose state can be synchronised with it. -/
structure Behind (history : History String) (w : SyncWorld) : Prop where
  valid : validateStateInvariant w.state = .ok ()
  phase : w.state.phase = .idle ∨ w.state.phase = .agentPending
  behind : history.isAncestor w.localHead w.remoteHead = true
  ne : w.localHead ≠ w.remoteHead
  synchronizes : w.state.Synchronizes
  target : w.state.phase = .agentPending → ∀ o,
    pendingTarget (w.observed history o) w.remoteHead w.state = .ok w.remoteHead

omit [Project] in
theorem Behind.acceptedIntegration (h : Behind history w) : w.state.acceptedIntegration = none := by
  rcases h.phase with hphase | hphase
  · have hsyncs := h.synchronizes
    simp only [RuntimeState.Synchronizes, hphase] at hsyncs
    exact hsyncs.1
  · exact acceptedIntegration_of_valid h.valid (by simp [hphase])

omit [Project] in
/-- It stays so when the remote branch moves on. -/
theorem Behind.later {later : String} (h : Behind history w)
    (hlater : history.isAncestor w.remoteHead later = true) :
    Behind history { w with remoteHead := later } := by
  have hnot : history.isAncestor later w.localHead = false :=
    History.not_ancestor_of_lt h.behind h.ne hlater
  refine ⟨h.valid, h.phase, history.trans _ _ _ h.behind hlater, ?_, h.synchronizes, ?_⟩
  · rintro heq
    dsimp only at heq
    rw [← heq, history.refl] at hnot
    cases hnot
  · intro hphase o
    exact pendingTarget_later rfl (h.target hphase o) hlater

/-- An uninterrupted synchronisation ends with the heads of the remote; a pending execution stays
    pending. -/
theorem Behind.complete (h : Behind history w) (hdown : w.process = .down) (ho : o.Proceeds)
    (intent : IterationIntent) :
    ∃ w', w.complete history o intent = some w' ∧ Ended w.state w.state.phase w.remoteHead w' := by
  obtain ⟨controlHead, hcontrol⟩ := Option.isSome_iff_exists.mp ho.control
  have hproceeds : (w.observed history o).Proceeds := ⟨ho.stop, ho.branchOk, ho.clean, ho.control⟩
  have hremote : (w.observed history o).remoteHead = some w.remoteHead := rfl
  have henter : enter (w.observed history o) intent w.state = _ :=
    enter_of_proceeds hproceeds h.synchronizes hcontrol hremote
  rw [synchronizeProduct_behind h.phase h.behind h.ne (fun hp => h.target hp o) (ho.stop _)] at henter
  have hrecord := valid_sync_mergePending h.valid h.acceptedIntegration
    (w.firstRecord history o (initialAuthorization intent w.state) controlHead)
  let z : Synced := { w.firstRecord history o (initialAuthorization intent w.state) controlHead with
    localHead := w.remoteHead }
  rcases h.phase with hphase | hphase
  · have hnext : Call.merged z = if decide (w.state.phase = .agentPending) then
        Call.sync (if z.pendingAgentExecution then .agentPending else .idle) z else Call.merged z := by
      simp [hphase]
    refine ⟨_, complete_of_record hdown henter hrecord h.behind rfl hnext ?_, ⟨⟨z, rfl, rfl, ?_⟩, rfl⟩⟩
    · exact valid_sync_idle h.valid z
    · rw [hphase]
      rfl
  · have hnext : Call.sync .agentPending z = if decide (w.state.phase = .agentPending) then
        Call.sync (if z.pendingAgentExecution then .agentPending else .idle) z else Call.merged z := by
      simp [hphase, z, firstRecord]
    refine ⟨_, complete_of_record hdown henter hrecord h.behind rfl hnext ?_, ⟨⟨z, rfl, rfl, ?_⟩, rfl⟩⟩
    · exact valid_sync_agentPending h.valid hphase z
    · rw [hphase]
      rfl

/-- A process that gets to the synchronisation of such a checkout records the merge. -/
theorem Behind.of_start (hvalid : validateStateInvariant w.state = .ok ())
    (hphase : w.state.phase = .idle ∨ w.state.phase = .agentPending)
    (hbehind : history.isAncestor w.localHead w.remoteHead = true)
    (hne : w.localHead ≠ w.remoteHead)
    (hstart : w.step history (.start o intent) = some w') :
    Behind history w ∧ w.process = .down ∧ ∃ y, Midway history w.state w' y := by
  have hdown : w.process = .down := by
    cases hp : w.process <;> simp [SyncWorld.step, hp] at hstart ⊢
  simp only [SyncWorld.step, hdown] at hstart
  have hthrough : ∃ call next, enter (w.observed history o) intent w.state = .save call next
      ∧ next.ofSynchronization = true := by
    split at hstart
    · exact ⟨_, _, ‹_›, rfl⟩
    · exact ⟨_, _, ‹_›, rfl⟩
    · cases hstart
  obtain ⟨call, next, henter, hnext⟩ := hthrough
  obtain ⟨hsyncs, controlHead, remoteHead, hcontrol, hremote, hsync⟩ :=
    enter_synchronization henter hnext (by rcases hphase with h | h <;> simp [h])
  have hheads : remoteHead = w.remoteHead := by simpa [observed] using hremote.symm
  subst hheads
  have htarget : w.state.phase = .agentPending → ∀ o,
      pendingTarget (w.observed history o) w.remoteHead w.state = .ok w.remoteHead := by
    intro hp o'
    rw [synchronizeProduct, if_pos (.inl hp)] at hsync
    unfold synchronizePending at hsync
    split at hsync
    · cases hsync
    · rename_i target htarget
      exact pendingTarget_later rfl htarget (history.refl _)
  have hstop : o.stop .beforeMerge = false := by
    by_contra hset
    have hgate : (w.observed history o).stop .beforeMerge = true := by
      show o.stop .beforeMerge = true
      simpa using hset
    have hanc : (w.observed history o).isAncestor w.localHead w.remoteHead = true := hbehind
    have hhead : (w.observed history o).localHead = w.localHead := rfl
    have hback : (w.observed history o).isAncestor w.remoteHead w.localHead = false :=
      History.not_ancestor_of_lt hbehind hne (history.refl _)
    rcases hphase with hp | hp
    · simp [synchronizeProduct, synchronizeIdle, hp, hhead, hne, hanc, hgate] at hsync
    · simp [synchronizeProduct, synchronizePending, hp, htarget hp o, hhead, hne, hanc, hback,
        hgate] at hsync
  have hW : Behind history w := ⟨hvalid, hphase, hbehind, hne, hsyncs, htarget⟩
  refine ⟨hW, hdown, w.firstRecord history o (initialAuthorization intent w.state) controlHead, ?_⟩
  rw [synchronizeProduct_behind hphase hbehind hne (fun hp => htarget hp o) hstop] at hsync
  rw [henter, ← hsync] at hstart
  obtain ⟨hsaved, rfl⟩ := save_some hstart
  exact ⟨rfl, hsaved, .inl rfl, hbehind, history.refl w.remoteHead,
    .inr (History.fastForward_of_ancestor hbehind)⟩

omit [Project] [Sha256] in
/-- Two synchronisations of one state that end at one head agree if they end in one phase. -/
theorem Ended.agrees_iff {phase phase' : Phase} {head : String} (h : Ended s phase head w)
    (h' : Ended s phase' head w') : Agrees w w' ↔ phase = phase' := by
  obtain ⟨⟨y, hl, hr, hstate⟩, hcheckout⟩ := h
  obtain ⟨⟨y', hl', hr', hstate'⟩, hcheckout'⟩ := h'
  have hphase : ∀ (p : Phase) (y : Synced), ((Call.sync p y).payload s).phase = p := by
    intro p y
    cases p <;> rfl
  constructor
  · intro hagrees
    have heq := hagrees.phase
    rwa [hstate, hstate', hphase, hphase] at heq
  · rintro rfl
    constructor
    all_goals simp only [hstate, hstate', hcheckout, hcheckout']
    all_goals cases phase <;> simp [SaveCall.payload, Call.sync, RuntimeState.clearForIdle, hl, hr,
      hl', hr']

end Midway

/-- The remote branch only moves forward. -/
theorem remoteHead_step {a : SyncAction} (h : w.step history a = some w') :
    history.isAncestor w.remoteHead w'.remoteHead = true := by
  have hsaved : ∀ {call process}, w.save call process = some w' → w'.remoteHead = w.remoteHead := by
    intro call process hsave
    obtain ⟨-, rfl⟩ := save_some hsave
    rfl
  cases a with
  | push head =>
    simp only [SyncWorld.step] at h
    split at h
    · cases h
      assumption
    · cases h
  | start o intent | merge | finish | crash =>
    have hsame : w'.remoteHead = w.remoteHead := by
      simp only [SyncWorld.step] at h
      grind [Option.map_eq_some_iff]
    rw [hsame]
    exact history.refl _

theorem remoteHead_run {ok : SyncWorld → SyncAction → Prop}
    (h : Run (SyncWorld.step history) ok w w') :
    history.isAncestor w.remoteHead w'.remoteHead = true := by
  apply h.invariant (fun u => history.isAncestor w.remoteHead u.remoteHead = true)
  · exact history.refl _
  · intro t a u ht _ hstep
    exact history.trans _ _ _ ht (remoteHead_step hstep)

/-- **Interrupted synchronisations.** Take a valid state, idle or with a pending execution, whose
    checkout is behind the remote, and a process that records the merge.  Whatever pushes, crashes
    and further processes follow, once a process is lost the next one ends the synchronisation, and
    it ends where an uninterrupted synchronisation with the same remote does if and only if no
    execution was pending. -/
theorem interruptedSync_agrees_iff {w₀ w₁ w : SyncWorld} {o₀ o : Observation}
    {intent₀ intent : IterationIntent} (hvalid : validateStateInvariant w₀.state = .ok ())
    (hphase : w₀.state.phase = .idle ∨ w₀.state.phase = .agentPending)
    (hbehind : history.isAncestor w₀.localHead w₀.remoteHead = true)
    (hne : w₀.localHead ≠ w₀.remoteHead)
    (hstart : w₀.step history (.start o₀ intent₀) = some w₁)
    (hrun : Run (SyncWorld.step history) (fun _ _ => True) w₁ w) (hdown : w.process = .down)
    (ho : o.Proceeds) :
    ∃ resumed uninterrupted, w.complete history o intent = some resumed
      ∧ ({ w₀ with remoteHead := w.remoteHead } : SyncWorld).complete history o intent
        = some uninterrupted
      ∧ (Agrees resumed uninterrupted ↔ w₀.state.phase = .idle) := by
  obtain ⟨hstarted, hdown₀, y, hmid⟩ := Behind.of_start hvalid hphase hbehind hne hstart
  have hlater : history.isAncestor w₀.remoteHead w.remoteHead = true :=
    history.trans _ _ _ (remoteHead_step hstart) (remoteHead_run hrun)
  rcases hmid.run hrun with hcompleted | ⟨y', hmid'⟩
  · rw [hdown] at hcompleted
    cases hcompleted
  · obtain ⟨resumed, hresumed, hended⟩ := hmid'.complete hdown ho intent
    obtain ⟨reference, hreference, hended'⟩ := (hstarted.later hlater).complete hdown₀ ho intent
    refine ⟨resumed, reference, hresumed, hreference, ?_⟩
    rw [hended.agrees_iff hended']
    exact eq_comm

end SyncWorld

/-! ### A pending execution -/

/-- Two commits, the second on top of the first. -/
def sampleHistory : History String where
  isAncestor a b := a = b || (a = sampleHead 'a' && b = sampleHead 'b')
  refl := by simp
  trans := by grind
  antisymm := by
    have hne : sampleHead 'a' ≠ sampleHead 'b' := by decide
    grind

/-- An execution of `t1` that waits for its worker. -/
def pendingState : RuntimeState :=
  { workerRunningState with
    phase := .agentPending, executionStartHead := none, executionStage := none
    workerIdentity := none }

/-- The remote is one commit ahead of the checkout. -/
def behindWorld (s : RuntimeState) : SyncWorld where
  state := s
  localHead := sampleHead 'a'
  remoteHead := sampleHead 'b'

/-- Answers under which nothing stops an iteration. -/
def calmObservation : Observation := calm fun _ => "e2"

/-- The steps on the sample project. -/
@[reducible] def sampleSync : SyncWorld → SyncAction → Option SyncWorld :=
  @SyncWorld.step sampleProject sampleSha256 sampleHistory

theorem calmObservation_proceeds : calmObservation.Proceeds := ⟨fun _ => rfl, rfl, rfl, rfl⟩

/-- An idle service that is killed after its record synchronises all the same. -/
theorem interruptedSync_agrees_idle :
    ∃ w, exec sampleSync (behindWorld {}) [.start calmObservation {}, .crash] = some w
      ∧ ∃ resumed uninterrupted,
        @SyncWorld.complete sampleProject sampleSha256 sampleHistory w calmObservation {}
          = some resumed
        ∧ @SyncWorld.complete sampleProject sampleSha256 sampleHistory (behindWorld {})
          calmObservation {} = some uninterrupted
        ∧ resumed.Agrees uninterrupted := by
  obtain ⟨w₁, w, hstart, hcrash, hdown, hremote⟩ : ∃ w₁ w,
      sampleSync (behindWorld {}) (.start calmObservation {}) = some w₁
        ∧ sampleSync w₁ .crash = some w ∧ w.process = .down ∧ w.remoteHead = sampleHead 'b' :=
    ⟨_, _, rfl, rfl, rfl, rfl⟩
  obtain ⟨resumed, uninterrupted, hresumed, huninterrupted, hagrees⟩ :=
    @SyncWorld.interruptedSync_agrees_iff sampleProject sampleSha256 sampleHistory (behindWorld {})
      w₁ w calmObservation calmObservation {} {} rfl (.inl rfl) (by decide) (by decide) hstart
      (.tail .refl trivial hcrash) hdown calmObservation_proceeds
  rw [hremote] at huninterrupted
  exact ⟨w, by simp [exec, hstart, hcrash], resumed, uninterrupted, hresumed, huninterrupted,
    hagrees.mpr rfl⟩

/-- A pending execution is lost: the service is killed between the record and the merge, and the
    next one ends the synchronisation idle, with no ticket selected. -/
theorem pendingExecution_lost :
    ∃ w resumed uninterrupted,
      exec sampleSync (behindWorld pendingState) [.start calmObservation {}, .crash] = some w
      ∧ @SyncWorld.complete sampleProject sampleSha256 sampleHistory w calmObservation {}
        = some resumed
      ∧ @SyncWorld.complete sampleProject sampleSha256 sampleHistory (behindWorld pendingState)
        calmObservation {} = some uninterrupted
      ∧ uninterrupted.state.phase = .agentPending
      ∧ uninterrupted.state.executionId = some "e1"
      ∧ uninterrupted.state.selectedTicketId = some "t1"
      ∧ resumed.state.phase = .idle
      ∧ resumed.state.selectedTicketId = none
      ∧ ¬ resumed.Agrees uninterrupted := by
  refine ⟨_, _, _, rfl, rfl, rfl, rfl, rfl, rfl, rfl, rfl, ?_⟩
  intro hagrees
  exact absurd hagrees.phase (by decide)

end Devlegate
