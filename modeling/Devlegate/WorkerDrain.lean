import Devlegate.OwnerLoop

namespace Devlegate

open Transition

/-!
# Draining the workers

A lifecycle request closes the supervisor's admission before it stores the intent, and the
supervisor looks at its drain flag in the same locked section in which it enters a worker in its
table.  The process is started after that section.

* `Drains` / `ClaimedOnce`: the invariants of the drain flag and of the command slot.
* `drained_run`: from a draining host no worker is entered any more, and the only process that is
  still started is that of a worker already in the table.
* `admissionClosed_of_intent`: this from every state with an accepted intent; a service that is
  ready to exit has no worker and gets none; commands and iterations exclude each other.
* `startsAfterIntent`: a process that starts after the intent was accepted.
-/

variable {cfg : LoopConfig} {s s' : Host}

/-! ### Invariants -/

/-- The intent comes after the drain flag, and an owner past its first check has seen it. -/
structure Drains (s : Host) : Prop where
  intent : s.intent.isSome = true → s.draining = true
  drained : ∀ t r, s.client t = .drained r → s.draining = true
  checked : ∀ k, s.owner = .activeCheck k ∨ s.owner = .ownedCheck k → s.intent.isSome = true

/-- A command in the slot has not been claimed. -/
structure ClaimedOnce (s : Host) : Prop where
  nodup : s.claims.Nodup
  created : ∀ c ∈ s.claims, c < s.created
  queued : ∀ c, s.queued = some c → c < s.created ∧ c ∉ s.claims

theorem drains_boot (memory : RuntimeState) : Drains (Host.boot memory) :=
  ⟨nofun, nofun, nofun⟩

theorem claimedOnce_boot (memory : RuntimeState) : ClaimedOnce (Host.boot memory) :=
  ⟨List.nodup_nil, nofun, nofun⟩

/-! ### Steps of the other threads -/

/-- What a step of another thread does to the drain flag, the intent and the slot. -/
structure Requests (s : Host) (t : Nat) (s' : Host) : Prop where
  draining : s.draining = true → s'.draining = true
  intent : s'.intent = s.intent ∨ ∃ r, s.client t = .drained r ∧ s'.intent = some r.intent
  drained : ∀ r, s'.client t = .drained r → s'.draining = true ∨ s.client t = .drained r
  others : ∀ u ≠ t, s'.client u = s.client u
  created : s.created ≤ s'.created
  queued : ∀ c, s'.queued = some c → s.queued = some c ∨ s.created ≤ c ∧ c < s'.created

theorem requests_clientStep [Sha256] {t : Nat} {storeFails : Bool}
    (h : s.clientStep cfg t storeFails = some s') : Requests s t s' := by
  have hothers : ∀ u ≠ t, s'.client u = s.client u := fun u hu => Host.clientStep_others h hu
  unfold Host.clientStep Host.requestLifecycle Host.forcedSave Host.submitRequest at h
  repeat' split at h
  all_goals
    first
      | cases h
        done
      | obtain rfl := Option.some.inj h
        refine ⟨?_, ?_, ?_, hothers, ?_, ?_⟩ <;> simp_all [Host.goto]

theorem Requests.drains {t : Nat} (h : Requests s t s') (f : ClientFrame s s')
    (hs : Drains s) : Drains s' where
  intent := by
    intro hsome
    apply h.draining
    rcases h.intent with heq | ⟨r, hr, -⟩
    · exact hs.intent (heq ▸ hsome)
    · exact hs.drained t r hr
  drained := by
    intro u r hu
    by_cases hut : u = t
    · subst hut
      rcases h.drained r hu with hnow | hold
      · exact hnow
      · exact h.draining (hs.drained u r hold)
    · rw [h.others u hut] at hu
      exact h.draining (hs.drained u r hu)
  checked := by
    intro k hk
    rw [f.owner] at hk
    have hsome := hs.checked k hk
    rcases h.intent with heq | ⟨r, -, heq⟩
    · rw [heq]
      exact hsome
    · rw [heq]
      rfl

theorem Requests.claimedOnce {t : Nat} (h : Requests s t s') (f : ClientFrame s s')
    (hs : ClaimedOnce s) : ClaimedOnce s' where
  nodup := f.claims ▸ hs.nodup
  created := by
    intro c hc
    rw [f.claims] at hc
    exact Nat.lt_of_lt_of_le (hs.created c hc) h.created
  queued := by
    intro c hc
    rw [f.claims]
    rcases h.queued c hc with hold | ⟨hnew, hlt⟩
    · obtain ⟨hlt, hclaims⟩ := hs.queued c hold
      exact ⟨Nat.lt_of_lt_of_le hlt h.created, hclaims⟩
    · -- a new command is beyond every claimed one
      refine ⟨hlt, fun hclaims => ?_⟩
      have := hs.created c hclaims
      omega

/-! ### Steps of the owner -/

section Owner

variable {choice : Host.Choice}

/-- The execution that the supervisor is about to start. -/
def LoopPc.spawning : LoopPc → Option String
  | .spawn _ executionId => some executionId
  | _ => none

/-- While the supervisor drains the owner enters no worker, and starts the process of the worker
    that it has just entered, if any. -/
structure DrainedMove (s s' : Host) : Prop where
  enlisted : s'.enlisted = s.enlisted
  worker : s'.owner.worker = none ∨ s'.owner.worker = s.owner.worker
  spawning : s'.owner.spawning = none
  started : s'.started = s.started ∨
    ∃ executionId, s.owner.spawning = some executionId ∧ s'.started = executionId :: s.started

theorem ownerStep_draining (hdrain : s.draining = true)
    (h : s.ownerStep cfg choice = some s') : DrainedMove s s' := by
  unfold Host.ownerStep at h
  split at h
  all_goals
    rename_i hpc
    try unfold Host.iterationStep at h
    try unfold Host.claimOwnerWork at h
    try unfold Host.exitAnswered at h
    try unfold Host.releaseWork at h
    repeat' split at h
  all_goals
    first
      | cases h
        done
      | obtain rfl := Option.some.inj h
        constructor <;> simp_all [LoopPc.worker, LoopPc.spawning]

/-- The owner goes past its first check only with an intent. -/
theorem ownerStep_checked (hs : Drains s) (h : s.ownerStep cfg choice = some s') :
    ∀ k, s'.owner = .activeCheck k ∨ s'.owner = .ownedCheck k → s.intent.isSome = true := by
  have hchecked := hs.checked
  unfold Host.ownerStep at h
  split at h
  all_goals
    rename_i hpc
    rw [hpc] at hchecked
    try unfold Host.iterationStep at h
    try unfold Host.claimOwnerWork at h
    try unfold Host.exitAnswered at h
    try unfold Host.releaseWork at h
    repeat' split at h
  all_goals
    first
      | cases h
        done
      | obtain rfl := Option.some.inj h
        simp_all [Option.isSome_iff_ne_none]

theorem Drains.ownerStep (hs : Drains s) (h : s.ownerStep cfg choice = some s') : Drains s' := by
  have f := Host.ownerStep_frame h
  constructor
  case intent =>
    rw [f.intent, f.draining]
    exact hs.intent
  case drained =>
    rw [f.client, f.draining]
    exact hs.drained
  case checked =>
    rw [f.intent]
    exact ownerStep_checked hs h

/-- The owner claims what is in the slot, or the slot stays as it is, or is emptied. -/
theorem ownerStep_claims (h : s.ownerStep cfg choice = some s') :
    s'.claims = s.claims ∧ (s'.queued = s.queued ∨ s'.queued = none) ∨
      ∃ c, s.queued = some c ∧ s'.queued = none ∧ s'.claims = c :: s.claims := by
  unfold Host.ownerStep at h
  split at h
  all_goals
    try unfold Host.iterationStep at h
    try unfold Host.claimOwnerWork at h
    try unfold Host.exitAnswered at h
    try unfold Host.releaseWork at h
    repeat' split at h
  all_goals
    first
      | cases h
        done
      | obtain rfl := Option.some.inj h
        first
          | exact .inl ⟨rfl, .inl rfl⟩
          | simp_all

theorem ClaimedOnce.ownerStep (hs : ClaimedOnce s) (h : s.ownerStep cfg choice = some s') :
    ClaimedOnce s' := by
  have f := Host.ownerStep_frame h
  obtain ⟨hclaims, hqueued⟩ | ⟨c, hc, hnone, hclaims⟩ := ownerStep_claims h
  · constructor
    case nodup => exact hclaims ▸ hs.nodup
    case created =>
      rw [hclaims, f.created]
      exact hs.created
    case queued =>
      intro c hc
      rw [hclaims, f.created]
      rcases hqueued with heq | hnone
      · exact hs.queued c (heq ▸ hc)
      · simp [hnone] at hc
  · obtain ⟨hlt, hnew⟩ := hs.queued c hc
    constructor
    case nodup =>
      rw [hclaims]
      exact List.nodup_cons.mpr ⟨hnew, hs.nodup⟩
    case created =>
      rw [hclaims, f.created]
      intro d hd
      rcases List.mem_cons.mp hd with rfl | hd
      · exact hlt
      · exact hs.created d hd
    case queued => simp [hnone]

end Owner

/-! ### Runs -/

variable [Sha256]

/-- A step is one of the owner, or of another thread. -/
theorem step_moves {a : HostAction} (h : s.step cfg a = some s') :
    (∃ choice, s.ownerStep cfg choice = some s') ∨
      ∃ t, Requests s t s' ∧ ClientFrame s s' := by
  cases a with
  | owner choice => exact .inl ⟨choice, h⟩
  | client t storeFails =>
    exact .inr ⟨t, requests_clientStep h, Host.clientStep_frame h⟩
  | arrive t c =>
    simp only [Host.step] at h
    split at h
    case isTrue hcall =>
      obtain rfl := Option.some.inj h
      refine .inr ⟨t, ⟨id, .inl rfl, ?_, fun u hu => Function.update_of_ne hu _ _, Nat.le_refl _,
        fun _ => .inl⟩, s.goto_frame t c⟩
      intro r hr
      obtain rfl : c = .drained r := by simpa [Host.goto] using hr
      cases hcall.2
    case isFalse => cases h
  | stopWake =>
    simp only [Host.step] at h
    split at h
    · obtain rfl := Option.some.inj h
      exact .inr ⟨0, ⟨id, .inl rfl, fun _ => .inr, fun _ _ => rfl, Nat.le_refl _, fun _ => .inl⟩,
        ⟨rfl, rfl, rfl, rfl, rfl, rfl, rfl, rfl, rfl, rfl, rfl⟩⟩
    · cases h

/-- The runs of the host, without a condition on the steps. -/
abbrev Host.Reaches (cfg : LoopConfig) : Host → Host → Prop :=
  Run (Host.step cfg) fun _ _ => True

theorem drains_run {memory : RuntimeState} (h : Host.Reaches cfg (Host.boot memory) s) :
    Drains s := by
  refine h.invariant Drains (drains_boot memory) ?_
  intro s a s' hs _ hstep
  rcases step_moves hstep with ⟨choice, howner⟩ | ⟨t, hrequests, f⟩
  · exact hs.ownerStep howner
  · exact hrequests.drains f hs

theorem claimedOnce_run {memory : RuntimeState} (h : Host.Reaches cfg (Host.boot memory) s) :
    ClaimedOnce s := by
  refine h.invariant ClaimedOnce (claimedOnce_boot memory) ?_
  intro s a s' hs _ hstep
  rcases step_moves hstep with ⟨choice, howner⟩ | ⟨t, hrequests, f⟩
  · exact hs.ownerStep howner
  · exact hrequests.claimedOnce f hs

theorem orderly_run {memory : RuntimeState} (h : Host.Reaches cfg (Host.boot memory) s) :
    Orderly s :=
  h.invariant Orderly (orderly_boot memory) fun _ _ _ hs _ hstep => hs.step hstep

/-- **A draining host.** No worker is entered any more, a worker that is gone does not come back,
    and at most one process is still started: that of the worker that was just entered. -/
theorem drained_run (hdrain : s.draining = true) (h : Host.Reaches cfg s s') :
    s'.draining = true ∧ s'.enlisted = s.enlisted ∧
      (s'.owner.worker = none ∨ s'.owner.worker = s.owner.worker) ∧
      (s'.started = s.started ∧ (s'.owner.spawning = none ∨ s'.owner.spawning = s.owner.spawning) ∨
        s'.owner.spawning = none ∧
          ∃ executionId, s.owner.spawning = some executionId ∧
            s'.started = executionId :: s.started) := by
  induction h with
  | refl => exact ⟨hdrain, rfl, .inr rfl, .inl ⟨rfl, .inr rfl⟩⟩
  | tail _ _ hstep ih =>
    obtain ⟨hdraining, henlisted, hworker, hstarted⟩ := ih
    rcases step_moves hstep with ⟨choice, howner⟩ | ⟨t, hrequests, f⟩
    · have hmove := ownerStep_draining hdraining howner
      refine ⟨(Host.ownerStep_frame howner).draining.trans hdraining,
        hmove.enlisted.trans henlisted, ?_, ?_⟩
      · rcases hmove.worker with hnone | hsame
        · exact .inl hnone
        · rw [hsame]
          exact hworker
      · rcases hmove.started with hsame | ⟨executionId, hspawn, hnew⟩
        · rcases hstarted with ⟨hold, -⟩ | ⟨-, executionId, hspawn, hold⟩
          · exact .inl ⟨hsame.trans hold, .inl hmove.spawning⟩
          · exact .inr ⟨hmove.spawning, executionId, hspawn, hsame.trans hold⟩
        · rcases hstarted with ⟨hold, hnone | hkept⟩ | ⟨hnone, -⟩
          · simp [hnone] at hspawn
          · exact .inr ⟨hmove.spawning, executionId, hkept ▸ hspawn, by rw [hnew, hold]⟩
          · simp [hnone] at hspawn
    · refine ⟨hrequests.draining hdraining, f.enlisted.trans henlisted, ?_, ?_⟩
      · rw [f.owner]
        exact hworker
      · rw [f.owner, f.started]
        exact hstarted

/-- `_lifecycle_exit_ready` is about to answer true. -/
def ExitReady (s : Host) : Prop := (∃ k, s.owner = .ownedCheck k) ∧ s.ownedAnswer = true

omit [Sha256] in
/-- The process started is that of the worker in the table. -/
theorem spawning_active (h : Orderly s) {executionId : String}
    (hspawn : s.owner.spawning = some executionId) : s.active = [executionId] := by
  rw [h.active]
  cases hpc : s.owner <;> simp_all [LoopPc.spawning, LoopPc.worker]

/-- **Admission is closed.** In every state that the owner loop and any number of other threads
    reach: after an intent was accepted no worker is entered in the supervisor's table, and at most
    one process is still started, that of a worker which was in the table already; when the service
    is ready to exit no worker is active, and none becomes active; a command and a scheduler
    iteration are never active together, and no command is claimed twice. -/
theorem admissionClosed_of_intent (memory : RuntimeState)
    (h : Host.Reaches cfg (Host.boot memory) s) :
    (s.intent.isSome = true → ∀ s', Host.Reaches cfg s s' →
      s'.enlisted = s.enlisted ∧
        (s'.started = s.started ∨
          ∃ executionId, s.active = [executionId] ∧ s'.started = executionId :: s.started)) ∧
    (ExitReady s → s.active = [] ∧ ∀ s', Host.Reaches cfg s s' → s'.active = []) ∧
    ¬ (s.operatorActive = true ∧ s.schedulerActive = true) ∧
    s.claims.Nodup := by
  have horderly := orderly_run h
  have hdrains := drains_run h
  refine ⟨?_, ?_, ?_, (claimedOnce_run h).nodup⟩
  · intro hintent s' hrun
    obtain ⟨-, henlisted, -, hstarted⟩ := drained_run (hdrains.intent hintent) hrun
    refine ⟨henlisted, ?_⟩
    rcases hstarted with ⟨hsame, -⟩ | ⟨-, executionId, hspawn, hnew⟩
    · exact .inl hsame
    · exact .inr ⟨executionId, spawning_active horderly hspawn, hnew⟩
  · rintro ⟨⟨k, hk⟩, -⟩
    have hworker : s.owner.worker = none := by rw [hk]; rfl
    have hdraining := hdrains.intent (hdrains.checked k (.inr hk))
    have hlater : ∀ s', Host.Reaches cfg s s' → s'.active = [] := by
      intro s' hrun
      have horderly' : Orderly s' :=
        hrun.invariant Orderly horderly fun _ _ _ hs _ hstep => hs.step hstep
      obtain ⟨-, -, hnone, -⟩ := drained_run hdraining hrun
      rw [hworker, or_self] at hnone
      rw [horderly'.active, hnone]
      rfl
    exact ⟨hlater s .refl, hlater⟩
  · rw [horderly.operator, horderly.scheduler]
    rintro ⟨hcommand, hscheduler⟩
    rw [beq_iff_eq] at hscheduler
    rw [hscheduler] at hcommand
    cases hcommand

omit [Sha256]

/-- A graceful stop from its arrival to the wake-up. -/
def gracefulStop : List HostAction :=
  [.arrive 0 (.requesting ⟨.stop, "r1", false, false⟩), .client 0 false, .client 0 false,
    .client 0 false, .client 0 false, .client 0 false, .client 0 false]

/-- The first iteration of a service, up to the supervisor's table. -/
def enlistsWorker : List HostAction :=
  [.owner .go, .owner .go, .owner .go, .owner .go, .owner .timeout, .owner .go, .owner .go,
    .owner .go, .owner .enter, .owner (.launch "e1"), .owner .go, .owner .go, .owner .go]

/-- The loop finds a stop that was accepted before its first check. -/
theorem admissionClosed_gracefulStop :
    ∃ s : Host, s.intent = some .stop ∧ s.active = [] ∧
      ∀ s', @Host.Reaches ⟨fun _ => ""⟩ {} s s' → s'.active = [] := by
  have hrun : ∃ s, exec (@Host.step ⟨fun _ => ""⟩ {}) (Host.boot {})
      (gracefulStop ++ [.owner .go, .owner .go, .owner .go]) = some s ∧
      (s.intent = some .stop ∧ s.owner = .ownedCheck .top ∧ s.ownedAnswer = true) :=
    exists_exec_of_any (by decide)
  obtain ⟨s, hexec, hintent, howner, hanswer⟩ := hrun
  obtain ⟨-, hexit, -⟩ := @admissionClosed_of_intent {} s ⟨fun _ => ""⟩ {}
    (run_of_exec hexec (by decide))
  exact ⟨s, hintent, hexit ⟨⟨.top, howner⟩, hanswer⟩⟩

/-- A graceful stop is accepted between the supervisor's check of its drain flag and the start of
    the process: the process is started afterwards. -/
theorem startsAfterIntent :
    ∃ s s' : Host, @Host.Reaches ⟨fun _ => ""⟩ {} (Host.boot {}) s ∧ s.intent = some .stop ∧
      @Host.Reaches ⟨fun _ => ""⟩ {} s s' ∧ s.started = [] ∧ s'.started = ["e1"] := by
  have hrun : ∃ s, exec (@Host.step ⟨fun _ => ""⟩ {}) (Host.boot {})
      (enlistsWorker ++ gracefulStop) = some s ∧
      (s.intent = some .stop ∧ s.started = [] ∧ s.owner = .spawn .scheduler "e1") :=
    exists_exec_of_any (by decide)
  obtain ⟨s, hexec, hintent, hstarted, howner⟩ := hrun
  have hspawn : @Host.step ⟨fun _ => ""⟩ {} s (.owner .go) = some { s with
      started := "e1" :: s.started, owner := .supervise .scheduler "e1" } := by
    simp only [Host.step, Host.ownerStep, howner]
  refine ⟨s, _, run_of_exec hexec (by decide), hintent, .tail .refl trivial hspawn,
    hstarted, ?_⟩
  rw [hstarted]

end Devlegate
