import Devlegate.OwnerLoop

namespace Devlegate

open Transition

/-!
# No lost wake-up

The owner clears the wake event in three places and looks for a command, an intent and the stop
event at different distances from there.  Every other thread stores first and wakes afterwards.

* `NoLostWake`: an owner that is blocked with the wake event clear has nothing to do that some
  thread is not about to wake it for.
* `Attentive`: the invariant; which of the three stored things is heard, by place in the loop.
* `noLostWake_of_saved`: no wake-up is lost in a run in which no save of a forced stop fails.
* `failedSave_unheard`: when it does, `request_lifecycle` raises between storing and waking.
-/

/-- The owner is blocked in one of its waits. -/
def LoopPc.blocked : LoopPc → Bool
  | .windowWait | .pollWait | .bareWait => true
  | _ => false

/-- The accepted intent is heard: the wake event is set, or its thread is still to set it. -/
def IntentHeard (s : Host) : Prop :=
  s.intent.isSome = true → s.wake = true ∨ ∃ t, (s.client t).owesIntent = true

/-- The queued command is heard. -/
def CommandHeard (s : Host) : Prop :=
  ∀ c, s.queued = some c → s.wake = true ∨ ∃ t, s.client t = .owesCommandWake c

/-- The stop event is heard. -/
def StopHeard (s : Host) : Prop :=
  s.stop = true → s.wake = true ∨ s.stopWaker = .waiting ∨ ∃ t, (s.client t).owesStop = true

/-- A blocked owner with the wake event clear misses no command, no intent and no stop event, but
    for one whose storing thread, or the thread that waits for the stop event, is still to call
    `wake()`. -/
def NoLostWake (s : Host) : Prop :=
  s.owner.blocked = true → s.wake = false →
    (∀ c, s.queued = some c → ∃ t, s.client t = .owesCommandWake c) ∧
    (s.intent.isSome = true → ∃ t, (s.client t).owesIntent = true) ∧
    (s.stop = true → s.stopWaker = .waiting ∨ ∃ t, (s.client t).owesStop = true)

/-! ### The invariant -/

/-- The places before the startup admission window. -/
def LoopPc.early : LoopPc → Bool
  | .drainCheck k | .activeCheck k | .ownedCheck k => k == .top
  | .starting | .stopCheck | .window | .shutDown | .reject | .stopped => true
  | _ => false

/-- Between clearing the wake event and looking at the intent it may go unheard. -/
def LoopPc.hearsIntent : LoopPc → Bool
  | .drainCheck _ | .activeCheck _ | .ownedCheck _ | .shutDown | .reject | .stopped => false
  | _ => true

/-- Between clearing the wake event and looking at the slot a command may go unheard. -/
def LoopPc.hearsCommand : LoopPc → Bool
  | .drainCheck _ | .activeCheck _ | .ownedCheck _ | .shutDown | .reject | .stopped
  | .starting | .stopCheck | .window | .claim | .pollStop | .pollPending | .pollAnswer => false
  | _ => true

/-- From looking at the stop event to clearing the wake event. -/
def LoopPc.hearsStop : LoopPc → Bool
  | .windowWait | .pollPending | .pollRecheck | .pollWait => true
  | _ => false

/-- **The invariant of the owner loop.** -/
structure Attentive (cfg : LoopConfig) (s : Host) : Prop where
  orderly : Orderly s
  window : s.startupWindow = true → s.owner.early = true
  forced : ∀ t r, s.client t = .repeated r → r.force = true
  event : cfg.stopEvent = false → s.stop = false ∧ s.installed = false
  bare : s.owner = .bareWait → cfg.stopEvent = false
  intent : s.owner.hearsIntent = true → IntentHeard s
  command : s.startupWindow = true ∨ s.owner.hearsCommand = true → CommandHeard s
  stop : s.startupWindow = true ∨ s.owner.hearsStop = true → StopHeard s

theorem attentive_boot (cfg : LoopConfig) (memory : RuntimeState) :
    Attentive cfg (Host.boot memory) where
  orderly := orderly_boot memory
  window _ := rfl
  forced _ _ h := by cases h
  event _ := ⟨rfl, rfl⟩
  bare h := by cases h
  intent _ h := by cases h
  command _ c h := by cases h
  stop _ h := by cases h

/-! ### Steps of the other threads -/

variable {cfg : LoopConfig} {s s' : Host}

/-- What a thread stores, it is still to wake the owner for, and it forgets no wake-up. -/
structure Stores (s : Host) (t : Nat) (c : Client) (s' : Host) : Prop where
  client : s'.client = Function.update s.client t c
  wake : s.wake = true → s'.wake = true
  stopWaker : s'.stopWaker = s.stopWaker
  intent : s'.intent.isSome = true → s.intent.isSome = true ∨ c.owesIntent = true
  queued : ∀ d, s'.queued = some d → s.queued = some d ∨ c = .owesCommandWake d
  stop : s'.stop = true → s.stop = true ∨ c.owesStop = true
  owesIntent : (s.client t).owesIntent = true → s'.wake = true ∨ c.owesIntent = true
  owesCommand : ∀ d, s.client t = .owesCommandWake d → s'.wake = true ∨ c = .owesCommandWake d
  owesStop : (s.client t).owesStop = true → s'.wake = true ∨ c.owesStop = true
  forced : ∀ r, c = .repeated r → r.force = true

/-- A thread whose place is replaced still owes its wake-up, or has made it. -/
theorem owes_update {p : Client → Prop} {client : Nat → Client} {t : Nat} {c : Client}
    {wake : Prop} (hnext : p (client t) → wake ∨ p c) (h : ∃ u, p (client u)) :
    wake ∨ ∃ u, p (Function.update client t c u) := by
  obtain ⟨u, hu⟩ := h
  by_cases hut : u = t
  · subst hut
    rcases hnext hu with hwake | hc
    · exact .inl hwake
    · exact .inr ⟨u, by rwa [Function.update_self]⟩
  · exact .inr ⟨u, by rwa [Function.update_of_ne hut]⟩

namespace Stores

variable {t : Nat} {c : Client}

theorem intentHeard (h : Stores s t c s') (hs : IntentHeard s) : IntentHeard s' := by
  intro hintent
  rw [h.client]
  rcases h.intent hintent with hold | hnew
  · rcases hs hold with hwake | howes
    · exact .inl (h.wake hwake)
    · exact owes_update (p := fun c => c.owesIntent = true) h.owesIntent howes
  · exact .inr ⟨t, by rwa [Function.update_self]⟩

theorem commandHeard (h : Stores s t c s') (hs : CommandHeard s) : CommandHeard s' := by
  intro d hd
  rw [h.client]
  rcases h.queued d hd with hold | hnew
  · rcases hs d hold with hwake | howes
    · exact .inl (h.wake hwake)
    · exact owes_update (p := fun c => c = .owesCommandWake d) (h.owesCommand d) howes
  · exact .inr ⟨t, by rwa [Function.update_self]⟩

theorem stopHeard (h : Stores s t c s') (hs : StopHeard s) : StopHeard s' := by
  intro hstop
  rw [h.client, h.stopWaker]
  rcases h.stop hstop with hold | hnew
  · rcases hs hold with hwake | hwaker | howes
    · exact .inl (h.wake hwake)
    · exact .inr (.inl hwaker)
    · rcases owes_update (p := fun c => c.owesStop = true) h.owesStop howes with hw | ho
      · exact .inl hw
      · exact .inr (.inr ho)
  · exact .inr (.inr ⟨t, by rwa [Function.update_self]⟩)

/-- The owner did not move, so it hears what it heard. -/
theorem attentive (h : Stores s t c s') (f : ClientFrame s s')
    (hevent : cfg.stopEvent = false → s.installed = false → s'.stop = s.stop)
    (hs : Attentive cfg s) : Attentive cfg s' where
  orderly := hs.orderly.of_frame f
  window := by
    rw [f.startupWindow, f.owner]
    exact hs.window
  forced := by
    intro u r hu
    rw [h.client] at hu
    by_cases hut : u = t
    · subst hut
      rw [Function.update_self] at hu
      exact h.forced r hu
    · rw [Function.update_of_ne hut] at hu
      exact hs.forced u r hu
  event := by
    intro hcfg
    obtain ⟨hstop, hinstalled⟩ := hs.event hcfg
    exact ⟨(hevent hcfg hinstalled).trans hstop, f.installed.trans hinstalled⟩
  bare := by
    rw [f.owner]
    exact hs.bare
  intent := by
    rw [f.owner]
    exact fun hpc => h.intentHeard (hs.intent hpc)
  command := by
    rw [f.startupWindow, f.owner]
    exact fun hpc => h.commandHeard (hs.command hpc)
  stop := by
    rw [f.startupWindow, f.owner]
    exact fun hpc => h.stopHeard (hs.stop hpc)

end Stores

/-- A thread that owes nothing goes on, and stores nothing. -/
theorem stores_goto {t : Nat} {c : Client} (hintent : (s.client t).owesIntent = false)
    (hcommand : ∀ d, s.client t ≠ .owesCommandWake d) (hstop : (s.client t).owesStop = false)
    (hforced : ∀ r, c = .repeated r → r.force = true) : Stores s t c (s.goto t c) where
  client := rfl
  wake := id
  stopWaker := rfl
  intent := .inl
  queued _ := .inl
  stop := .inl
  owesIntent h := by simp [hintent] at h
  owesCommand d h := absurd h (hcommand d)
  owesStop h := by simp [hstop] at h
  forced := hforced

theorem stores_submitRequest {t : Nat} {q : Request} (ht : s.client t = .submitting q) :
    ∃ c, Stores s t c (s.submitRequest t q) := by
  have hgoto : ∀ c, (∀ r, c ≠ Client.repeated r) → Stores s t c (s.goto t c) := by
    intro c hc
    refine stores_goto ?_ ?_ ?_ fun r hr => absurd hr (hc r)
    all_goals simp [ht, Client.owesIntent, Client.owesStop]
  unfold Host.submitRequest
  repeat' split
  all_goals first
    | exact ⟨.idle, hgoto .idle nofun⟩
    | exact ⟨.waiting _, hgoto (.waiting _) nofun⟩
    | skip
  -- a new command takes the slot, and its thread is to wake the owner
  refine ⟨.owesCommandWake s.created, rfl, id, rfl, .inl, ?_, .inl, ?_, ?_, ?_, nofun⟩
  · intro d hd
    exact .inr (by rw [Option.some.inj hd])
  all_goals simp [ht, Client.owesIntent, Client.owesStop]

theorem stores_requestLifecycle {t : Nat} {r : LifecycleRequest}
    (ht : s.client t = .requesting r) : ∃ c, Stores s t c (s.requestLifecycle t r) := by
  have hgoto : ∀ c, (∀ r, c = Client.repeated r → r.force = true) →
      Stores s t c (s.goto t c) := by
    intro c hc
    refine stores_goto ?_ ?_ ?_ hc
    all_goals simp [ht, Client.owesIntent, Client.owesStop]
  unfold Host.requestLifecycle
  split
  · split
    · exact ⟨_, hgoto _ (by split <;> nofun)⟩
    · split
      case isTrue hforce =>
        have h := hgoto (.repeated r) (by rintro _ ⟨⟩; exact hforce)
        exact ⟨_, h.client, h.wake, h.stopWaker, h.intent, h.queued, h.stop, h.owesIntent,
          h.owesCommand, h.owesStop, h.forced⟩
      case isFalse => exact ⟨_, hgoto _ nofun⟩
  · have h := hgoto (.opened r) nofun
    exact ⟨_, h.client, h.wake, h.stopWaker, h.intent, h.queued, h.stop, h.owesIntent,
      h.owesCommand, h.owesStop, h.forced⟩

variable [Sha256]

/-- The save of a forced stop raises. -/
def forcedSaveFails (s : Host) (t : Nat) (storeFails : Bool) : Bool :=
  match s.client t with
  | .accepted r =>
    r.intent == .stop && r.force &&
      match forcedStopMarker r.requestId s.memory with
      | none => false
      | some marker =>
        (commitSave storeFails (forcedStopCall s.memory.phase marker) s.memory).isNone
  | _ => false

theorem stores_forcedSave {t : Nat} {r : LifecycleRequest} {storeFails : Bool}
    (ht : s.client t = .accepted r) (hsave : forcedSaveFails s t storeFails = false) :
    Stores s t (.saved r) (s.forcedSave t r storeFails) := by
  have hmove : ∀ memory : RuntimeState,
      Stores s t (.saved r) { s.goto t (.saved r) with memory := memory } := by
    intro memory
    refine ⟨rfl, id, rfl, .inl, fun _ => .inl, .inl, ?_, ?_, ?_, nofun⟩ <;>
      simp [ht, Client.owesIntent, Client.owesStop]
  unfold Host.forcedSave
  split
  case isFalse => exact hmove s.memory
  case isTrue hstop =>
    split
    case h_1 => exact hmove s.memory
    case h_2 marker hmarker =>
      split
      case h_1 memory _ => exact hmove memory
      case h_2 hnone => simp [forcedSaveFails, ht, hstop, hmarker, hnone] at hsave

/-- **A step of another thread.** Unless a forced stop fails to save, the thread is still to wake
    the owner for what it stores. -/
theorem stores_clientStep {t : Nat} {storeFails : Bool}
    (hforced : ∀ t r, s.client t = .repeated r → r.force = true)
    (hsave : forcedSaveFails s t storeFails = false)
    (h : s.clientStep cfg t storeFails = some s') : ∃ c, Stores s t c s' := by
  unfold Host.clientStep at h
  split at h
  case h_1 => cases h
  case h_2 r ht =>
    split at h
    · obtain rfl := Option.some.inj h
      exact stores_requestLifecycle ht
    · cases h
  case h_5 r ht =>
    obtain rfl := Option.some.inj h
    exact ⟨_, stores_forcedSave ht hsave⟩
  case h_12 q ht =>
    split at h
    · obtain rfl := Option.some.inj h
      exact stores_submitRequest ht
    · cases h
  case h_7 r ht =>
    have hr := hforced t r ht
    obtain rfl := Option.some.inj h
    refine ⟨.hosting r, rfl, id, rfl, .inl, fun _ => .inl, fun _ => .inr hr, ?_, ?_, ?_, nofun⟩
    all_goals simp [ht, Client.owesIntent, Client.owesStop]
  all_goals
    rename_i ht
    repeat' split at h
  all_goals
    first
      | cases h
        done
      | obtain rfl := Option.some.inj h
        refine ⟨_, rfl, ?_, rfl, ?_, ?_, ?_, ?_, ?_, ?_, ?_⟩ <;>
          simp_all [Host.goto, Client.owesIntent, Client.owesStop]

/-- Without a stop event nobody sets it. -/
theorem clientStep_stop {t : Nat} {storeFails : Bool} (hcfg : cfg.stopEvent = false)
    (hinstalled : s.installed = false) (h : s.clientStep cfg t storeFails = some s') :
    s'.stop = s.stop := by
  unfold Host.clientStep Host.requestLifecycle Host.forcedSave Host.submitRequest at h
  repeat' split at h
  all_goals
    first
      | cases h
        done
      | obtain rfl := Option.some.inj h
        simp [Host.goto, hcfg, hinstalled]

/-! ### Steps of the owner -/

section Owner

omit [Sha256]

variable {choice : Host.Choice}

/-- The startup admission window is closed when the owner passes it. -/
theorem ownerStep_window (hs : s.startupWindow = true → s.owner.early = true)
    (h : s.ownerStep cfg choice = some s') :
    s'.startupWindow = true → s'.owner.early = true := by
  unfold Host.ownerStep at h
  split at h
  all_goals
    rename_i hpc
    rw [hpc] at hs
    try unfold Host.iterationStep at h
    try unfold Host.claimOwnerWork at h
    try unfold Host.exitAnswered at h
    try unfold Host.releaseWork at h
    repeat' split at h
  all_goals
    first
      | cases h
        done
      | obtain rfl := Option.some.inj h
        simp_all [LoopPc.early]

/-- The owner comes to a place that hears intents without clearing the wake event, or it has found
    no intent. -/
theorem ownerStep_intent (ho : Orderly s) (h : s.ownerStep cfg choice = some s')
    (hnext : s'.owner.hearsIntent = true) :
    s.intent = none ∨ s.owner.hearsIntent = true ∧ s'.wake = s.wake := by
  have hactive := ho.active
  have howned := ho.owned
  clear ho
  unfold Host.ownerStep at h
  split at h
  all_goals
    rename_i hpc
    rw [hpc] at hactive howned
    rw [hpc]
    try unfold Host.iterationStep at h
    try unfold Host.claimOwnerWork at h
    try unfold Host.exitAnswered at h
    try unfold Host.releaseWork at h
    repeat' split at h
  all_goals
    first
      | cases h
        done
      | obtain rfl := Option.some.inj h
        first
          | exact .inr ⟨rfl, rfl⟩
          | cases hnext
            done
          | simp_all [LoopPc.hearsIntent, LoopPc.worker, LoopPc.iterates, Host.ownedAnswer]

/-- The owner comes to a place that hears commands without clearing the wake event, or the slot is
    empty. -/
theorem ownerStep_command (ho : Orderly s) (hwindow : s.startupWindow = true → s.owner.early = true)
    (h : s.ownerStep cfg choice = some s')
    (hnext : s'.startupWindow = true ∨ s'.owner.hearsCommand = true) :
    s'.queued = none ∨ s'.queued = s.queued ∧ s'.wake = s.wake ∧
      (s.startupWindow = true ∨ s.owner.hearsCommand = true) := by
  have hoperator := ho.operator
  have hscheduler := ho.scheduler
  clear ho
  unfold Host.ownerStep at h
  split at h
  all_goals
    rename_i hpc
    rw [hpc] at hoperator hscheduler hwindow
    rw [hpc]
    try unfold Host.iterationStep at h
    try unfold Host.claimOwnerWork at h
    try unfold Host.exitAnswered at h
    try unfold Host.releaseWork at h
    repeat' split at h
  all_goals
    first
      | cases h
        done
      | obtain rfl := Option.some.inj h
        first
          | exact .inr ⟨rfl, rfl, .inr rfl⟩
          | exact .inl rfl
          | simp_all [LoopPc.hearsCommand, LoopPc.early, LoopPc.claimed]

/-- The owner comes to a place that hears the stop event without clearing the wake event, or it has
    seen that the event is not set. -/
theorem ownerStep_stop (hwindow : s.startupWindow = true → s.owner.early = true)
    (h : s.ownerStep cfg choice = some s')
    (hnext : s'.startupWindow = true ∨ s'.owner.hearsStop = true) :
    s.stop = false ∨ s'.wake = s.wake ∧ (s.stopWaker = .waiting → s'.stopWaker = .waiting) ∧
      (s.startupWindow = true ∨ s.owner.hearsStop = true) := by
  unfold Host.ownerStep at h
  split at h
  all_goals
    rename_i hpc
    rw [hpc] at hwindow
    rw [hpc]
    try unfold Host.iterationStep at h
    try unfold Host.claimOwnerWork at h
    try unfold Host.exitAnswered at h
    try unfold Host.releaseWork at h
    repeat' split at h
  all_goals
    first
      | cases h
        done
      | obtain rfl := Option.some.inj h
        first
          | exact .inr ⟨rfl, id, .inr rfl⟩
          | simp_all [LoopPc.hearsStop, LoopPc.early]

/-- Only a loop without a stop event waits without clearing first. -/
theorem ownerStep_bare (h : s.ownerStep cfg choice = some s') (hnext : s'.owner = .bareWait) :
    cfg.stopEvent = false := by
  unfold Host.ownerStep at h
  split at h
  all_goals
    try unfold Host.iterationStep at h
    try unfold Host.claimOwnerWork at h
    try unfold Host.exitAnswered at h
    try unfold Host.releaseWork at h
    repeat' split at h
  all_goals
    first
      | cases h
        done
      | obtain rfl := Option.some.inj h
        simp_all

/-- The event that the engine knows is the one of its configuration. -/
theorem ownerStep_installed (hs : cfg.stopEvent = false → s.installed = false)
    (h : s.ownerStep cfg choice = some s') : cfg.stopEvent = false → s'.installed = false := by
  unfold Host.ownerStep at h
  split at h
  all_goals
    try unfold Host.iterationStep at h
    try unfold Host.claimOwnerWork at h
    try unfold Host.exitAnswered at h
    try unfold Host.releaseWork at h
    repeat' split at h
  all_goals
    first
      | cases h
        done
      | obtain rfl := Option.some.inj h
        first
          | exact hs
          | exact id

/-- **A step of the owner.** It looks for what it may not have heard before it waits. -/
theorem Attentive.ownerStep (hs : Attentive cfg s) (h : s.ownerStep cfg choice = some s') :
    Attentive cfg s' := by
  have f := Host.ownerStep_frame h
  constructor
  case orderly => exact hs.orderly.ownerStep h
  case window => exact ownerStep_window hs.window h
  case forced =>
    rw [f.client]
    exact hs.forced
  case event =>
    intro hcfg
    refine ⟨?_, ownerStep_installed (fun hcfg => (hs.event hcfg).2) h hcfg⟩
    rw [f.stop]
    exact (hs.event hcfg).1
  case bare => exact ownerStep_bare h
  case intent =>
    intro hnext hintent
    rw [f.intent] at hintent
    rw [f.client]
    rcases ownerStep_intent hs.orderly h hnext with hnone | ⟨hpc, hwake⟩
    · simp [hnone] at hintent
    · rw [hwake]
      exact hs.intent hpc hintent
  case command =>
    intro hnext c hc
    rw [f.client]
    rcases ownerStep_command hs.orderly hs.window h hnext with hnone | ⟨hqueued, hwake, hpc⟩
    · simp [hnone] at hc
    · rw [hwake]
      exact hs.command hpc c (hqueued ▸ hc)
  case stop =>
    intro hnext hstop
    rw [f.stop] at hstop
    rw [f.client]
    rcases ownerStep_stop hs.window h hnext with hnone | ⟨hwake, hwaker, hpc⟩
    · simp [hnone] at hstop
    · rw [hwake]
      rcases hs.stop hpc hstop with hold | hold | hold
      · exact .inl hold
      · exact .inr (.inl (hwaker hold))
      · exact .inr (.inr hold)

end Owner

/-! ### Runs -/

/-- The save of a forced stop does not raise. -/
def SavesForcedStop (s : Host) : HostAction → Prop
  | .client t storeFails => forcedSaveFails s t storeFails = false
  | _ => True

instance (s : Host) : DecidablePred (SavesForcedStop s)
  | .client t storeFails => inferInstanceAs (Decidable (forcedSaveFails s t storeFails = false))
  | .arrive _ _ => isTrue trivial
  | .owner _ => isTrue trivial
  | .stopWake => isTrue trivial

theorem Attentive.step {a : HostAction} (hs : Attentive cfg s) (hsave : SavesForcedStop s a)
    (h : s.step cfg a = some s') : Attentive cfg s' := by
  cases a with
  | arrive t c =>
    simp only [Host.step] at h
    split at h
    case isTrue hcall =>
      obtain ⟨hidle, hc⟩ := hcall
      obtain rfl := Option.some.inj h
      have hstores : Stores s t c (s.goto t c) := by
        refine stores_goto ?_ ?_ ?_ ?_
        · simp [hidle, Client.owesIntent]
        · simp [hidle]
        · simp [hidle, Client.owesStop]
        · rintro r rfl
          cases hc
      exact hstores.attentive (s.goto_frame t c) (fun _ _ => rfl) hs
    case isFalse => cases h
  | client t storeFails =>
    obtain ⟨c, hstores⟩ := stores_clientStep hs.forced hsave h
    exact hstores.attentive (Host.clientStep_frame h)
      (fun hcfg hinstalled => clientStep_stop hcfg hinstalled h) hs
  | owner choice => exact hs.ownerStep h
  | stopWake =>
    simp only [Host.step] at h
    split at h
    · obtain rfl := Option.some.inj h
      exact ⟨hs.orderly.of_frame ⟨rfl, rfl, rfl, rfl, rfl, rfl, rfl, rfl, rfl, rfl, rfl⟩, hs.window,
        hs.forced, hs.event, hs.bare, fun _ _ => .inl rfl, fun _ _ _ => .inl rfl,
        fun _ _ => .inl rfl⟩
    · cases h

omit [Sha256] in
theorem Attentive.noLostWake (hs : Attentive cfg s) : NoLostWake s := by
  intro hblocked hwake
  have hcommand : s.owner.hearsCommand = true := by
    cases hpc : s.owner <;> simp_all [LoopPc.blocked, LoopPc.hearsCommand]
  have hintent : s.owner.hearsIntent = true := by
    cases hpc : s.owner <;> simp_all [LoopPc.blocked, LoopPc.hearsIntent]
  refine ⟨?_, ?_, ?_⟩
  · intro c hc
    exact (hs.command (.inr hcommand) c hc).resolve_left (by simp [hwake])
  · intro hsome
    exact (hs.intent hintent hsome).resolve_left (by simp [hwake])
  · intro hset
    by_cases hbare : s.owner = .bareWait
    · have := (hs.event (hs.bare hbare)).1
      simp [this] at hset
    · have hstop : s.owner.hearsStop = true := by
        cases hpc : s.owner <;> simp_all [LoopPc.blocked, LoopPc.hearsStop]
      exact (hs.stop (.inr hstop) hset).resolve_left (by simp [hwake])

/-- **No wake-up is lost.** In every run of the owner loop and of any number of other threads in
    which no save of a forced stop raises, a blocked owner with the wake event clear has nothing to
    do that some thread is not about to wake it for. -/
theorem noLostWake_of_saved (memory : RuntimeState) {s : Host}
    (h : Run (Host.step cfg) SavesForcedStop (Host.boot memory) s) : NoLostWake s :=
  (h.invariant (Attentive cfg) (attentive_boot cfg memory)
    fun _ _ _ hs hsave hstep => hs.step hsave hstep).noLostWake

omit [Sha256]

/-- The first pass of the loop over a stranded execution that it cannot reconcile, up to the wait. -/
def blockedPass : List HostAction :=
  [.owner .go, .owner .go, .owner .go, .owner .go, .owner .timeout, .owner .go, .owner .go,
    .owner .go, .owner .enter, .owner .leave, .owner .leave, .owner .go, .owner .go, .owner .go,
    .owner .go, .owner .go, .owner .go, .owner .go]

/-- A forced stop up to its save. -/
def forcedStopRequest : List HostAction :=
  [.arrive 0 (.requesting ⟨.stop, "r1", true, false⟩), .client 0 false, .client 0 false,
    .client 0 false]

/-- A digest for the runs below, which hash nothing. -/
@[reducible] def loopSha256 : Sha256 := ⟨fun _ => ""⟩

/-- The thread that an action moves. -/
def HostAction.isAlone (t : Nat) : HostAction → Bool
  | .arrive u _ | .client u _ => u == t
  | _ => true

/-- In a run of one thread beside the owner the others stay idle. -/
theorem others_idle [Sha256] {t : Nat} {memory : RuntimeState} {s : Host}
    (h : Run (Host.step cfg) (fun _ a => a.isAlone t = true) (Host.boot memory) s) :
    ∀ u ≠ t, s.client u = .idle := by
  refine h.invariant (fun s => ∀ u ≠ t, s.client u = .idle) (fun _ _ => rfl) ?_
  intro s a s' hs hok hstep u hu
  cases a with
  | arrive v c =>
    obtain rfl : v = t := by simpa [HostAction.isAlone] using hok
    simp only [Host.step] at hstep
    split at hstep
    · obtain rfl := Option.some.inj hstep
      exact (Function.update_of_ne hu _ _).trans (hs u hu)
    · cases hstep
  | client v storeFails =>
    obtain rfl : v = t := by simpa [HostAction.isAlone] using hok
    exact (Host.clientStep_others hstep hu).trans (hs u hu)
  | owner choice =>
    rw [(Host.ownerStep_frame hstep).client]
    exact hs u hu
  | stopWake =>
    simp only [Host.step] at hstep
    split at hstep
    · obtain rfl := Option.some.inj hstep
      exact hs u hu
    · cases hstep

/-- A forced stop that saves its barrier is about to wake the blocked owner. -/
theorem noLostWake_forcedStop :
    ∃ s : Host, (s.owner = .pollWait ∧ s.wake = false ∧ s.intent = some .stop) ∧ NoLostWake s := by
  have hrun : ∃ s, exec (@Host.step loopSha256 {}) (Host.boot workerRunningState)
      (blockedPass ++ forcedStopRequest ++ [.client 0 false]) = some s ∧
      (s.owner = .pollWait ∧ s.wake = false ∧ s.intent = some .stop) :=
    exists_exec_of_any (by decide)
  obtain ⟨s, hexec, hs⟩ := hrun
  exact ⟨s, hs, @noLostWake_of_saved {} loopSha256 workerRunningState s
    (run_of_exec hexec (by decide))⟩

/-- The store rejects the save of a forced stop: `request_lifecycle` raises after storing the
    intent, and the owner stays in its wait with nobody to wake it. -/
theorem failedSave_unheard :
    ∃ s, Run (@Host.step loopSha256 {}) (fun _ _ => True) (Host.boot workerRunningState) s ∧
      ¬ NoLostWake s := by
  have hrun : ∃ s, exec (@Host.step loopSha256 {}) (Host.boot workerRunningState)
      (blockedPass ++ forcedStopRequest ++ [.client 0 true]) = some s ∧
      (s.owner = .pollWait ∧ s.wake = false ∧ s.intent = some .stop ∧ s.client 0 = .idle) :=
    exists_exec_of_any (by decide)
  obtain ⟨s, hexec, howner, hwake, hintent, hzero⟩ := hrun
  refine ⟨s, run_of_exec hexec (by decide), fun h => ?_⟩
  have hidle : ∀ u ≠ 0, s.client u = .idle :=
    @others_idle {} loopSha256 0 workerRunningState s (run_of_exec hexec (by decide))
  obtain ⟨-, hheard, -⟩ := h (by rw [howner]; rfl) hwake
  obtain ⟨t, ht⟩ := hheard (by rw [hintent]; rfl)
  by_cases ht0 : t = 0
  · rw [ht0, hzero] at ht
    cases ht
  · rw [hidle t ht0] at ht
    cases ht

end Devlegate
