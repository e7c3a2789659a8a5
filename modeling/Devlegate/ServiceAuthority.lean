import Devlegate.Lib.FileLock
import Devlegate.Lib.Transition

namespace Devlegate.ServiceAuthority

open Transition

/-!
# The authority over a project

A service holds the lock file of its project exclusively for as long as it runs, and hands the lock
to the program that it executes for a restart.  Read-only clients lock the same file shared: for the
time of a view, so that no service starts meanwhile, or for a moment, to see whether there is a
service.

* `Stage`: where a process is in `absence_guard`, `daemon_authority_present`, `_lock` or the host.
* `step`: one call of one process.
* `Faithful`: the file has exactly the descriptions that the processes have come to have.
* `serviceAuthority`: one authority at a time, none during a view, no gap in a restart, and who is
  refused.
-/

/-! ### Processes -/

/-- Where a process is, with the description of the lock file that it has open. -/
inductive Stage (I : Type) where
  | idle
  /-- `absence_guard`, before its lock. -/
  | guardOpened (id : I)
  | guardRefused (id : I)
  /-- The view of a stopped service is computed. -/
  | viewing (id : I)
  | guardReleased (id : I)
  /-- `daemon_authority_present`, before its lock. -/
  | probeOpened (id : I)
  /-- It answers yes. -/
  | probeRefused (id : I)
  | probeLocked (id : I)
  /-- It answers no. -/
  | probeReleased (id : I)
  /-- `_lock`, before its lock. -/
  | lockOpened (id : I)
  /-- "another devlegate instance is already running for this checkout". -/
  | lockRefused (id : I)
  | hosting (id : I)
  /-- `_reexec`, before the program is executed. -/
  | handingOver (id : I)
  /-- The executed program, before `_acquire_authority`. -/
  | restarted (id : I)
  deriving DecidableEq

/-- The stages of a service that has the authority. -/
def Stage.authority {I : Type} : Stage I → Bool
  | .hosting _ | .handingOver _ | .restarted _ => true
  | _ => false

/-- The stages of a client that holds the lock. -/
def Stage.observing {I : Type} : Stage I → Bool
  | .viewing _ | .probeLocked _ => true
  | _ => false

/-- What a process does next; `advance` is the next call of what it is in. -/
inductive Move (I : Type) where
  | guard (id : I)
  | probe (id : I)
  | lock (id : I)
  | advance
  | restart
  | exec
  | adopt
  | exit

/-- The processes and the lock file. -/
structure World (I P : Type) where
  stage : P → Stage I
  files : FileLock.Table I P

section Step

variable {I P : Type} [DecidableEq I] [DecidableEq P]

/-- A process goes on. -/
def World.move (w : World I P) (p : P) (stage : Stage I) (files : FileLock.Table I P) :
    World I P :=
  { stage := Function.update w.stage p stage, files := files }

/-- `open` of the lock file, with a description that is new. -/
def World.openFile (w : World I P) (p : P) (id : I) (stage : Stage I) : Option (World I P) :=
  if w.stage p = .idle ∧ ∀ x ∈ w.files, x.id ≠ id then
    some (w.move p stage (FileLock.openFile w.files id p))
  else none

/-- `flock` with `LOCK_NB`. -/
def World.flock (w : World I P) (p : P) (id : I) (mode : FileLock.Mode)
    (locked refused : Stage I) : World I P :=
  match FileLock.flock w.files id mode with
  | some files => w.move p locked files
  | none => w.move p refused w.files

/-- The next call of what a process is in. -/
def World.advance (w : World I P) (p : P) : Option (World I P) :=
  match w.stage p with
  | .idle | .restarted _ => none
  | .guardOpened id => some (w.flock p id .shared (.viewing id) (.guardRefused id))
  | .guardRefused id | .viewing id =>
    some (w.move p (.guardReleased id) (FileLock.unlock w.files id))
  | .probeOpened id => some (w.flock p id .shared (.probeLocked id) (.probeRefused id))
  | .probeLocked id => some (w.move p (.probeReleased id) (FileLock.unlock w.files id))
  | .lockOpened id => some (w.flock p id .exclusive (.hosting id) (.lockRefused id))
  -- `close`; the host closes the authority at its end, and after an `exec` that failed.
  | .guardReleased id | .probeReleased id | .probeRefused id | .lockRefused id | .hosting id
  | .handingOver id => some (w.move p .idle (FileLock.close w.files id))

/-- One call of one process. -/
def step (w : World I P) (action : P × Move I) : Option (World I P) :=
  let p := action.1
  match action.2 with
  | .guard id => w.openFile p id (.guardOpened id)
  | .probe id => w.openFile p id (.probeOpened id)
  | .lock id => w.openFile p id (.lockOpened id)
  | .advance => w.advance p
  | .restart =>
    match w.stage p with
    | .hosting id => some (w.move p (.handingOver id) (FileLock.setInheritable w.files id true))
    | _ => none
  | .exec =>
    match w.stage p with
    | .handingOver id => some (w.move p (.restarted id) (FileLock.exec w.files p))
    | _ => none
  | .adopt =>
    match w.stage p with
    | .restarted id => some (w.move p (.hosting id) (FileLock.setInheritable w.files id false))
    | _ => none
  -- Also a program that refuses what it was handed.
  | .exit => some (w.move p .idle (FileLock.exit w.files p))

/-- No process has the file open. -/
def World.initial : World I P := ⟨fun _ => .idle, []⟩

end Step

/-! ### The descriptions of the processes -/

section Faithful

variable {I P : Type}

/-- The description that a process has open. -/
def Stage.description (p : P) : Stage I → Option (FileLock.Description I P)
  | .idle => none
  | .guardOpened id | .guardRefused id | .guardReleased id | .probeOpened id | .probeRefused id
  | .probeReleased id | .lockOpened id | .lockRefused id => some { id := id, owner := p }
  | .viewing id | .probeLocked id => some { id := id, owner := p, mode := some .shared }
  | .hosting id => some { id := id, owner := p, mode := some .exclusive }
  | .handingOver id | .restarted id =>
    some { id := id, owner := p, inheritable := true, mode := some .exclusive }

theorem Stage.owner_description {p : P} {stage : Stage I} {x : FileLock.Description I P}
    (h : stage.description p = some x) : x.owner = p := by
  cases stage <;> cases h <;> rfl

theorem Stage.authority_iff {p : P} {stage : Stage I} :
    stage.authority = true
      ↔ ∃ x, stage.description p = some x ∧ x.mode = some .exclusive := by
  cases stage <;> simp [Stage.authority, Stage.description]

theorem Stage.observing_iff {p : P} {stage : Stage I} :
    stage.observing = true ↔ ∃ x, stage.description p = some x ∧ x.mode = some .shared := by
  cases stage <;> simp [Stage.observing, Stage.description]

/-- The file has exactly the descriptions that the processes have come to have. -/
structure Faithful (w : World I P) : Prop where
  sound : FileLock.Sound w.files
  mem_iff : ∀ x, x ∈ w.files ↔ (w.stage x.owner).description x.owner = some x

variable [DecidableEq I] [DecidableEq P] {w : World I P} {p : P} {stage : Stage I}
  {files : FileLock.Table I P}

omit [DecidableEq I] in
/-- A process that goes on changes its own description only. -/
theorem Faithful.move (h : Faithful w) (hsound : FileLock.Sound files)
    (hother : ∀ x, x.owner ≠ p → (x ∈ files ↔ x ∈ w.files))
    (hown : ∀ x, x.owner = p → (x ∈ files ↔ stage.description p = some x)) :
    Faithful (w.move p stage files) := by
  refine ⟨hsound, fun x => ?_⟩
  show x ∈ files ↔ (Function.update w.stage p stage x.owner).description x.owner = some x
  by_cases howner : x.owner = p
  · rw [howner, Function.update_self]
    exact hown x howner
  · rw [Function.update_of_ne howner, hother x howner, h.mem_iff]

theorem Faithful.openFile (h : Faithful w) {id : I} {w' : World I P}
    (hdescription : stage.description p = some { id := id, owner := p })
    (hstep : w.openFile p id stage = some w') : Faithful w' := by
  unfold World.openFile at hstep
  split at hstep
  · rename_i hfree
    cases hstep
    refine h.move (h.sound.openFile hfree.2) (fun x howner => ?_) fun x howner => ?_
    · rw [FileLock.openFile, List.mem_cons, or_iff_right]
      rintro rfl
      exact howner rfl
    · have hnone : x ∉ w.files := by
        rw [h.mem_iff, howner, hfree.1]
        exact nofun
      rw [FileLock.openFile, List.mem_cons, or_iff_left hnone, hdescription, Option.some_inj,
        eq_comm]
  · cases hstep

/-- A call on the description of the process. -/
theorem Faithful.modify (h : Faithful w) {x : FileLock.Description I P}
    (hx : (w.stage p).description p = some x)
    {change : FileLock.Description I P → FileLock.Description I P}
    (hchange : (change x).owner = p) (hdescription : stage.description p = some (change x))
    (hsound : FileLock.Sound (FileLock.modify w.files x.id change)) :
    Faithful (w.move p stage (FileLock.modify w.files x.id change)) := by
  have howner : x.owner = p := Stage.owner_description hx
  have hmem : x ∈ w.files := (h.mem_iff x).mpr (howner ▸ hx)
  have hsame : ∀ y ∈ w.files, y.id = x.id → y = x := fun y hy hid => h.sound.eq_of_id hy hmem hid
  refine h.move hsound (fun y hy => ?_) fun y hy => ?_
  · rw [FileLock.modify, List.mem_map]
    constructor
    · rintro ⟨z, hz, heq⟩
      by_cases hid : z.id = x.id
      · rw [if_pos hid, hsame z hz hid] at heq
        exact (hy (heq ▸ hchange)).elim
      · rw [if_neg hid] at heq
        exact heq ▸ hz
    · intro hmem'
      refine ⟨y, hmem', if_neg fun hid => hy ?_⟩
      rw [hsame y hmem' hid, howner]
  · rw [FileLock.modify, List.mem_map, hdescription, Option.some_inj]
    constructor
    · rintro ⟨z, hz, heq⟩
      by_cases hid : z.id = x.id
      · rw [if_pos hid, hsame z hz hid] at heq
        exact heq
      · rw [if_neg hid] at heq
        -- The process has one description.
        have hz' : (w.stage p).description p = some z := by
          have hzowner : z.owner = p := heq ▸ hy
          have hdescribed := (h.mem_iff z).mp hz
          rwa [hzowner] at hdescribed
        rw [hx] at hz'
        exact (hid (congrArg _ (Option.some.inj hz').symm)).elim
    · rintro rfl
      exact ⟨x, hmem, if_pos rfl⟩

omit [DecidableEq I] in
/-- A process without its description. -/
theorem Faithful.drop (h : Faithful w) {keep : FileLock.Description I P → Bool}
    (hother : ∀ x ∈ w.files, x.owner ≠ p → keep x = true)
    (hown : ∀ x, (w.stage p).description p = some x → keep x = false) :
    Faithful (w.move p .idle (w.files.filter keep)) := by
  refine h.move (List.Pairwise.filter _ h.sound) (fun x howner => ?_) fun x howner => ?_
  · rw [List.mem_filter]
    exact ⟨fun hx => hx.1, fun hx => ⟨hx, hother x hx howner⟩⟩
  · rw [List.mem_filter, h.mem_iff, howner]
    refine ⟨fun hx => ?_, nofun⟩
    rw [hown x hx.1] at hx
    cases hx.2

theorem Faithful.close (h : Faithful w) {x : FileLock.Description I P}
    (hx : (w.stage p).description p = some x) :
    Faithful (w.move p .idle (FileLock.close w.files x.id)) := by
  have howner : x.owner = p := Stage.owner_description hx
  have hmem : x ∈ w.files := (h.mem_iff x).mpr (howner ▸ hx)
  refine h.drop (fun y hy hyowner => ?_) fun y hy => ?_
  · rw [decide_eq_true_iff]
    intro hid
    exact hyowner (h.sound.eq_of_id hy hmem hid ▸ howner)
  · rw [hx] at hy
    cases hy
    simp

theorem Faithful.flock (h : Faithful w) {x : FileLock.Description I P} {mode : FileLock.Mode}
    {locked refused : Stage I} (hx : (w.stage p).description p = some x)
    (hlocked : locked.description p = some { x with mode := some mode })
    (hrefused : refused.description p = some x) :
    Faithful (w.flock p x.id mode locked refused) := by
  have howner : x.owner = p := Stage.owner_description hx
  unfold World.flock
  split
  · rename_i files hfiles
    have hsound := h.sound.flock hfiles
    unfold FileLock.flock at hfiles
    split at hfiles
    · cases hfiles
    · cases hfiles
      exact h.modify hx howner hlocked hsound
  · refine h.move h.sound (fun _ _ => Iff.rfl) fun y hy => ?_
    rw [h.mem_iff, hy, hx, hrefused]

theorem Faithful.unlock (h : Faithful w) {x : FileLock.Description I P}
    (hx : (w.stage p).description p = some x)
    (hdescription : stage.description p = some { x with mode := none }) :
    Faithful (w.move p stage (FileLock.unlock w.files x.id)) := by
  have howner : x.owner = p := Stage.owner_description hx
  exact h.modify hx howner hdescription h.sound.unlock

theorem Faithful.setInheritable (h : Faithful w) {x : FileLock.Description I P}
    (hx : (w.stage p).description p = some x) {inheritable : Bool}
    (hdescription : stage.description p = some { x with inheritable := inheritable }) :
    Faithful (w.move p stage (FileLock.setInheritable w.files x.id inheritable)) := by
  have howner : x.owner = p := Stage.owner_description hx
  exact h.modify hx howner hdescription h.sound.setInheritable

theorem Faithful.advance (h : Faithful w) {w' : World I P} (hstep : w.advance p = some w') :
    Faithful w' := by
  unfold World.advance at hstep
  have hdescription : ∀ {stage : Stage I}, w.stage p = stage →
      (w.stage p).description p = stage.description p := fun heq => heq ▸ rfl
  split at hstep <;> rename_i hstage <;> cases hstep
  · exact h.flock (hdescription hstage) rfl rfl
  · exact h.unlock (hdescription hstage) rfl
  · exact h.unlock (hdescription hstage) rfl
  · exact h.flock (hdescription hstage) rfl rfl
  · exact h.unlock (hdescription hstage) rfl
  · exact h.flock (hdescription hstage) rfl rfl
  all_goals exact h.close (hdescription hstage)

omit [DecidableEq I] in
theorem Faithful.exec (h : Faithful w) {x : FileLock.Description I P}
    (hx : (w.stage p).description p = some x) (hinheritable : x.inheritable = true)
    (hdescription : stage.description p = some x) :
    Faithful (w.move p stage (FileLock.exec w.files p)) := by
  refine h.move h.sound.exec (fun y howner => ?_) fun y howner => ?_
  · rw [FileLock.exec, List.mem_filter]
    exact ⟨fun hy => hy.1, fun hy => ⟨hy, by simp [howner]⟩⟩
  · rw [FileLock.exec, List.mem_filter, h.mem_iff, howner, hx, hdescription]
    refine ⟨fun hy => hy.1, fun hy => ⟨hy, ?_⟩⟩
    rw [← Option.some.inj hy, hinheritable, Bool.or_true]

theorem Faithful.step (h : Faithful w) {action : P × Move I} {w' : World I P}
    (hstep : ServiceAuthority.step w action = some w') : Faithful w' := by
  obtain ⟨p, move⟩ := action
  have hdescription : ∀ {stage : Stage I}, w.stage p = stage →
      (w.stage p).description p = stage.description p := fun heq => heq ▸ rfl
  unfold ServiceAuthority.step at hstep
  cases move with
  | guard id => exact h.openFile rfl hstep
  | probe id => exact h.openFile rfl hstep
  | lock id => exact h.openFile rfl hstep
  | advance => exact h.advance hstep
  | restart =>
    dsimp only at hstep
    split at hstep
    · rename_i hstage
      cases hstep
      exact h.setInheritable (hdescription hstage) rfl
    · cases hstep
  | exec =>
    dsimp only at hstep
    split at hstep
    · rename_i hstage
      cases hstep
      exact h.exec (hdescription hstage) rfl rfl
    · cases hstep
  | adopt =>
    dsimp only at hstep
    split at hstep
    · rename_i hstage
      cases hstep
      exact h.setInheritable (hdescription hstage) rfl
    · cases hstep
  | exit =>
    cases hstep
    refine h.drop (fun x _ howner => by simpa using howner) fun x hx => ?_
    simp [Stage.owner_description hx]

omit [DecidableEq I] [DecidableEq P] in
theorem faithful_initial : Faithful (World.initial : World I P) :=
  ⟨List.Pairwise.nil, fun _ => ⟨nofun, nofun⟩⟩

/-- Everything that happens in a run is faithful. -/
theorem faithful_run (hrun : Run ServiceAuthority.step (fun _ _ => True) World.initial w) :
    Faithful w :=
  hrun.invariant Faithful faithful_initial fun _ _ _ h _ hstep => h.step hstep

/-! ### Who holds the lock -/

omit [DecidableEq I] [DecidableEq P] in
/-- While a process has the authority, no other one holds the lock. -/
theorem Faithful.eq_of_authority (h : Faithful w) {p q : P} (hp : (w.stage p).authority = true)
    (hq : (w.stage q).authority = true ∨ (w.stage q).observing = true) : p = q := by
  obtain ⟨x, hx, hexclusive⟩ := Stage.authority_iff.mp hp
  have hlocked : ∃ y, (w.stage q).description q = some y ∧ y.mode.isSome = true := by
    obtain hq | hq := hq
    · obtain ⟨y, hy, hmode⟩ := Stage.authority_iff.mp hq
      exact ⟨y, hy, hmode ▸ rfl⟩
    · obtain ⟨y, hy, hmode⟩ := Stage.observing_iff.mp hq
      exact ⟨y, hy, hmode ▸ rfl⟩
  obtain ⟨y, hy, hmode⟩ := hlocked
  have hxp := Stage.owner_description hx
  have hyq := Stage.owner_description hy
  have hsame : x = y := h.sound.eq_of_exclusive ((h.mem_iff x).mpr (hxp ▸ hx))
    ((h.mem_iff y).mpr (hyq ▸ hy)) hexclusive hmode
  rw [← hxp, ← hyq, hsame]

omit [DecidableEq P] in
/-- A lock is refused exactly when another process excludes it. -/
theorem Faithful.flock_eq_none (h : Faithful w) {x : FileLock.Description I P}
    (hx : (w.stage p).description p = some x) {mode : FileLock.Mode} :
    FileLock.flock w.files x.id mode = none
      ↔ ∃ q, q ≠ p ∧ ((w.stage q).authority = true
        ∨ mode = .exclusive ∧ (w.stage q).observing = true) := by
  rw [FileLock.flock_eq_none]
  have hxp := Stage.owner_description hx
  have hxmem : x ∈ w.files := (h.mem_iff x).mpr (hxp ▸ hx)
  -- The description of another process is another one.
  have hother : ∀ {q y}, q ≠ p → (w.stage q).description q = some y → y ∈ w.files ∧ y.id ≠ x.id := by
    intro q y hq hy
    have hyq := Stage.owner_description hy
    have hymem : y ∈ w.files := (h.mem_iff y).mpr (hyq ▸ hy)
    refine ⟨hymem, fun hid => hq ?_⟩
    rw [← hyq, ← hxp, h.sound.eq_of_id hymem hxmem hid]
  constructor
  · rintro ⟨y, hy, hid, b, hb, hexcludes⟩
    have hdescribed := (h.mem_iff y).mp hy
    refine ⟨y.owner, fun howner => hid ?_, ?_⟩
    · rw [howner, hx] at hdescribed
      rw [Option.some.inj hdescribed]
    · cases b with
      | exclusive => exact .inl (Stage.authority_iff.mpr ⟨y, hdescribed, hb⟩)
      | shared =>
        refine .inr ⟨?_, Stage.observing_iff.mpr ⟨y, hdescribed, hb⟩⟩
        cases mode with
        | exclusive => rfl
        | shared => cases hexcludes
  · rintro ⟨q, hq, hauthority | ⟨rfl, hobserving⟩⟩
    · obtain ⟨y, hy, hmode⟩ := Stage.authority_iff.mp hauthority
      obtain ⟨hmem, hid⟩ := hother hq hy
      exact ⟨y, hmem, hid, .exclusive, hmode, by cases mode <;> rfl⟩
    · obtain ⟨y, hy, hmode⟩ := Stage.observing_iff.mp hobserving
      obtain ⟨hmem, hid⟩ := hother hq hy
      exact ⟨y, hmem, hid, .shared, hmode, rfl⟩

/-- What a process does when it asks for the lock. -/
theorem World.stage_flock {id : I} {mode : FileLock.Mode} {locked refused : Stage I} :
    (w.flock p id mode locked refused).stage p
      = if FileLock.flock w.files id mode = none then refused else locked := by
  unfold World.flock
  split
  · rename_i files hfiles
    rw [hfiles, if_neg nofun]
    exact Function.update_self ..
  · rename_i hnone
    rw [hnone, if_pos rfl]
    exact Function.update_self ..

/-- A step of another process leaves a process where it is. -/
theorem stage_of_ne {q : P} (hne : p ≠ q) {move : Move I} {w' : World I P}
    (hstep : ServiceAuthority.step w (q, move) = some w') : w'.stage p = w.stage p := by
  have hmove : ∀ stage files, (w.move q stage files).stage p = w.stage p :=
    fun _ _ => Function.update_of_ne hne _ _
  have hopen : ∀ {id stage}, w.openFile q id stage = some w' → w'.stage p = w.stage p := by
    intro id stage hopened
    unfold World.openFile at hopened
    split at hopened
    · cases hopened
      exact hmove _ _
    · cases hopened
  have hflock : ∀ id mode locked refused,
      (w.flock q id mode locked refused).stage p = w.stage p := by
    intro id mode locked refused
    unfold World.flock
    split <;> exact hmove _ _
  unfold ServiceAuthority.step at hstep
  cases move with
  | guard id => exact hopen hstep
  | probe id => exact hopen hstep
  | lock id => exact hopen hstep
  | advance =>
    dsimp only at hstep
    unfold World.advance at hstep
    split at hstep <;> cases hstep <;> first | exact hmove _ _ | exact hflock _ _ _ _
  | restart | exec | adopt =>
    dsimp only at hstep
    split at hstep <;> cases hstep
    exact hmove _ _
  | exit =>
    cases hstep
    exact hmove _ _

end Faithful

/-! ### The authority -/

section Authority

variable {I P : Type} [DecidableEq I] [DecidableEq P] {w : World I P}

/-- Steps of other processes, and of a service that restarts itself. -/
def Restarting (p : P) (_ : World I P) (action : P × Move I) : Prop :=
  action.1 = p → match action.2 with
    | .restart | .exec | .adopt => True
    | _ => False

/-- A service that restarts itself keeps the authority. -/
theorem authority_step {p : P} {action : P × Move I} {w' : World I P}
    (h : (w.stage p).authority = true) (hok : Restarting p w action)
    (hstep : step w action = some w') : (w'.stage p).authority = true := by
  obtain ⟨q, move⟩ := action
  by_cases hq : p = q
  · subst hq
    have hmove := hok rfl
    unfold step at hstep
    cases move with
    | restart | exec | adopt =>
      dsimp only at hstep
      split at hstep <;> cases hstep
      simp [World.move, Stage.authority]
    | guard | probe | lock | advance | exit => exact hmove.elim
  · rw [stage_of_ne hq hstep]
    exact h

/-- **The authority.** In every state of every run of any number of services and clients:

    * at most one process has the authority;
    * while a client computes the view of a stopped service, no process has it;
    * a service that restarts itself has it without a gap, whatever the others do;
    * a client is refused, and a probe answers yes, exactly if another process has it;
    * a service that starts is refused exactly if another process has it, or holds the lock for the
      time of a view or of a probe. -/
theorem serviceAuthority (hrun : Run step (fun _ _ => True) (World.initial : World I P) w) :
    (∀ p q, (w.stage p).authority = true → (w.stage q).authority = true → p = q)
    ∧ (∀ p id, w.stage p = .viewing id → ∀ q, (w.stage q).authority = false)
    ∧ (∀ p, (w.stage p).authority = true → ∀ later, Run step (Restarting p) w later →
      (later.stage p).authority = true)
    ∧ (∀ p id next, w.stage p = .guardOpened id ∨ w.stage p = .probeOpened id →
      step w (p, .advance) = some next →
      (next.stage p = .guardRefused id ∨ next.stage p = .probeRefused id
        ↔ ∃ q, q ≠ p ∧ (w.stage q).authority = true))
    ∧ (∀ p id next, w.stage p = .lockOpened id → step w (p, .advance) = some next →
      (next.stage p = .lockRefused id
        ↔ ∃ q, q ≠ p ∧ ((w.stage q).authority = true ∨ (w.stage q).observing = true))) := by
  have h : Faithful w := faithful_run hrun
  refine ⟨fun p q hp hq => h.eq_of_authority hp (.inl hq), fun p id hview q => ?_,
    fun p hp later hlater => ?_, fun p id next hstage hstep => ?_, fun p id next hstage hstep => ?_⟩
  · by_contra hauthority
    rw [Bool.not_eq_false] at hauthority
    have hsame : q = p := h.eq_of_authority hauthority (.inr (by rw [hview]; rfl))
    rw [hsame, hview] at hauthority
    cases hauthority
  · exact hlater.invariant (fun w => (w.stage p).authority = true) hp
      fun _ _ _ hauthority hok hstep => authority_step hauthority hok hstep
  · -- A client asks for the shared lock.
    have hrefused : next.stage p = .guardRefused id ∨ next.stage p = .probeRefused id
        ↔ FileLock.flock w.files id .shared = none := by
      unfold step World.advance at hstep
      obtain hstage | hstage := hstage <;>
      · simp only [hstage] at hstep
        cases hstep
        rw [World.stage_flock]
        split <;> simp_all
    have hx : ∃ x, (w.stage p).description p = some x ∧ x.id = id := by
      obtain hstage | hstage := hstage <;> exact ⟨_, by rw [hstage]; rfl, rfl⟩
    obtain ⟨x, hx, rfl⟩ := hx
    rw [hrefused, h.flock_eq_none hx]
    simp
  · -- A service that starts asks for the exclusive lock.
    have hrefused : next.stage p = .lockRefused id
        ↔ FileLock.flock w.files id .exclusive = none := by
      unfold step World.advance at hstep
      simp only [hstage] at hstep
      cases hstep
      rw [World.stage_flock]
      split <;> simp_all
    have hx : (w.stage p).description p = some { id := id, owner := p } := by rw [hstage]; rfl
    rw [hrefused, h.flock_eq_none hx]
    simp

/-- A client views the stopped service; then the service starts, restarts itself, and has the
    authority in the executed program too, where a second client finds it. -/
theorem serviceAuthority_restarting :
    ∃ viewed started restarted probed : World Nat Bool,
      viewed.stage false = .viewing 0 ∧ (viewed.stage true).authority = false
        ∧ started.stage true = .hosting 1 ∧ Run step (Restarting true) started restarted
        ∧ restarted.stage true = .restarted 1 ∧ (restarted.stage true).authority = true
        ∧ step restarted (false, .advance) = some probed
        ∧ (probed.stage false = .guardRefused 2 ∨ probed.stage false = .probeRefused 2) := by
  obtain ⟨viewed, started, restarted, hviewed, hview, hstarted, hhost, hrestarted, hexecuted,
      hopened, probed, hstep⟩ : ∃ viewed started restarted : World Nat Bool,
      Run step (fun _ _ => True) World.initial viewed ∧ viewed.stage false = .viewing 0
        ∧ Run step (fun _ _ => True) viewed started ∧ started.stage true = .hosting 1
        ∧ Run step (Restarting true) started restarted ∧ restarted.stage true = .restarted 1
        ∧ restarted.stage false = .probeOpened 2
        ∧ ∃ probed, step restarted (false, .advance) = some probed :=
    ⟨_, _, _,
      (Run.refl.tail (a := (false, .guard 0)) trivial rfl).tail (a := (false, .advance)) trivial rfl,
      rfl,
      (((Run.refl.tail (a := (false, .advance)) trivial rfl).tail (a := (false, .advance)) trivial
        rfl).tail (a := (true, .lock 1)) trivial rfl).tail (a := (true, .advance)) trivial rfl,
      rfl,
      ((Run.refl.tail (a := (true, .restart)) (fun _ => trivial) rfl).tail (a := (false, .probe 2))
        nofun rfl).tail (a := (true, .exec)) (fun _ => trivial) rfl,
      rfl, rfl, _, rfl⟩
  have hrun : Run step (fun _ _ => True) World.initial started := hviewed.trans hstarted
  have hlater : Run step (fun _ _ => True) World.initial restarted :=
    hrun.trans (hrestarted.mono fun _ _ _ => trivial)
  have hauthority : (restarted.stage true).authority = true :=
    (serviceAuthority hrun).2.2.1 true (by rw [hhost]; rfl) restarted hrestarted
  have hrefused := (serviceAuthority hlater).2.2.2.1 false 2 probed (.inr hopened) hstep
  exact ⟨viewed, started, restarted, probed, hview, (serviceAuthority hviewed).2.1 false 0 hview true,
    hhost, hrestarted, hexecuted, hauthority, hstep, hrefused.mpr ⟨true, by decide, hauthority⟩⟩

/-- A service starts while a client looks whether there is a service, and there is none. -/
theorem not_refusedByAuthorityOnly :
    ¬ ∀ (w next : World Nat Bool) (p : Bool) (id : Nat),
      Run step (fun _ _ => True) World.initial w → w.stage p = .lockOpened id →
      step w (p, .advance) = some next → next.stage p = .lockRefused id →
      ∃ q, q ≠ p ∧ (w.stage q).authority = true := by
  intro h
  have hrun : ∃ w, Run step (fun _ _ => True) (World.initial : World Nat Bool) w
      ∧ w.stage true = .lockOpened 1 ∧ w.stage false = .probeLocked 0
      ∧ ∃ next, step w (true, .advance) = some next ∧ next.stage true = .lockRefused 1 :=
    ⟨_, ((Run.refl.tail (a := (false, .probe 0)) trivial rfl).tail (a := (false, .advance)) trivial
      rfl).tail (a := (true, .lock 1)) trivial rfl, rfl, rfl, _, rfl, rfl⟩
  obtain ⟨w, hrun, hstart, hprobe, next, hstep, hrefused⟩ := hrun
  obtain ⟨q, hq, hauthority⟩ := h w next true 1 hrun hstart hstep hrefused
  cases q with
  | true => exact hq rfl
  | false =>
    rw [hprobe] at hauthority
    cases hauthority

end Authority

end Devlegate.ServiceAuthority
