import Devlegate.Lib.Transition
import Mathlib.Logic.Relation

namespace Interrupt

open Relation

/-!
# Interrupt handlers and locks

A thread that takes locks may be interrupted at every point by a handler that runs on top of it, and
the handler may be interrupted again.  A lock that the thread holds below is not released before the
handler returns; if the handler waits for it, the thread waits for itself.

* `Program`: locks taken for a block, branches, exceptions and returns.
* `Program.compile`: the code of a program, lock by lock, with a continuation for every way out.
* `State`, `step`: a stack of interrupted frames over shared data that other threads change.
* `Avoids`: code that never tries a lock, whatever the others do.
* `not_selfWaits`: without an interrupt at a point whose locks the handler may try, the thread never
  waits for itself.
* `exists_selfWaits`: after an interrupt at such a point, it may.
-/

variable {L D : Type}

/-! ### Programs and their code -/

/-- What is left to do, one access after the other. -/
inductive Code (L D : Type) where
  | done
  | acquire (lock : L) (next : Code L D)
  | release (lock : L) (next : Code L D)
  | choose (next : Bool → Code L D)
  | read (next : D → Code L D)
  | write (change : D → D) (next : Code L D)

/-- A program; `choose` stands for a condition on what no lock and no handler depends on. -/
inductive Program (L D : Type) where
  | skip
  | seq (first second : Program L D)
  | withLock (lock : L) (body : Program L D)
  | choose (first second : Program L D)
  | branch (condition : D → Bool) (first second : Program L D)
  | write (change : D → D)
  | raise
  | return
  | call (body : Program L D)
  | tryExcept (body handler : Program L D)
  | tryFinally (body final : Program L D)

/-- The code that follows a program, for each of its ways out. -/
structure Exits (L D : Type) where
  next : Code L D
  returned : Code L D
  raised : Code L D

/-- The same change before every way out. -/
def Exits.map (f : Code L D → Code L D) (exits : Exits L D) : Exits L D :=
  ⟨f exits.next, f exits.returned, f exits.raised⟩

/-- The code of a program, with what follows it. -/
def Program.compile : Program L D → Exits L D → Code L D
  | .skip, exits => exits.next
  | .seq first second, exits => first.compile { exits with next := second.compile exits }
  | .withLock lock body, exits => .acquire lock (body.compile (exits.map (.release lock)))
  | .choose first second, exits =>
    .choose fun taken => if taken then first.compile exits else second.compile exits
  | .branch condition first second, exits =>
    .read fun data => if condition data then first.compile exits else second.compile exits
  | .write change, exits => .write change exits.next
  | .raise, exits => exits.raised
  | .return, exits => exits.returned
  | .call body, exits => body.compile { exits with returned := exits.next }
  | .tryExcept body handler, exits => body.compile { exits with raised := handler.compile exits }
  | .tryFinally body final, exits =>
    body.compile (exits.map fun code => final.compile ⟨code, exits.returned, exits.raised⟩)

/-- The code of a program that nothing follows. -/
def Program.code (program : Program L D) : Code L D := program.compile ⟨.done, .done, .done⟩

/-- Programs one after the other. -/
def Program.sequence (programs : List (Program L D)) : Program L D := programs.foldr .seq .skip

/-! ### Threads -/

/-- A frame with the locks it has taken itself. -/
structure Frame (L D : Type) where
  code : Code L D
  own : List L

/-- A thread with its frames, the running one first, and what it shares with others. -/
structure State (L D : Type) where
  data : D
  frames : List (Frame L D)

/-- The locks that the thread holds. -/
def State.held (st : State L D) : List L := st.frames.flatMap (·.own)

/-- What happens next: the thread runs on, is interrupted, or another thread changes the data. -/
inductive Action (D : Type) where
  | run (taken : Bool)
  | interrupt
  | other (data : D)

section Step

variable [DecidableEq L] (reentrant : L → Bool) (handler : Code L D)

/-- One access of the running frame; none while it waits for a lock of its own thread.  Locks of
    other threads come free. -/
def runFrame (st : State L D) (frame : Frame L D) (below : List (Frame L D)) (taken : Bool) :
    Option (State L D) :=
  match frame.code with
  | .done => some { st with frames := below }
  | .acquire lock next =>
    if reentrant lock = false ∧ lock ∈ st.held then none
    else some { st with frames := ⟨next, lock :: frame.own⟩ :: below }
  | .release lock next => some { st with frames := ⟨next, frame.own.erase lock⟩ :: below }
  | .choose next => some { st with frames := ⟨next taken, frame.own⟩ :: below }
  | .read next => some { st with frames := ⟨next st.data, frame.own⟩ :: below }
  | .write change next =>
    some { data := change st.data, frames := ⟨next, frame.own⟩ :: below }

/-- One step. -/
def step (st : State L D) : Action D → Option (State L D)
  | .run taken =>
    match st.frames with
    | [] => none
    | frame :: below => runFrame reentrant st frame below taken
  | .interrupt =>
    match st.frames with
    | [] => none
    | frame :: below => some { st with frames := ⟨handler, []⟩ :: frame :: below }
  | .other data => some { st with data := data }

/-- The thread waits for a lock that it holds and cannot take again. -/
def State.SelfWaits (st : State L D) : Prop :=
  ∃ lock next own below, st.frames = ⟨.acquire lock next, own⟩ :: below
    ∧ reentrant lock = false ∧ lock ∈ st.held

end Step

/-! ### What code tries -/

/-- Code that never tries a lock, whatever changes the others make. -/
def Avoids (changes : D → D → Prop) (lock : L) : Code L D → D → Prop
  | .done, _ => True
  | .acquire other next, data => other ≠ lock ∧ Avoids changes lock next data
  | .release _ next, data => Avoids changes lock next data
  | .choose next, data => ∀ taken, Avoids changes lock (next taken) data
  | .read next, data =>
    ∀ later, ReflTransGen changes data later → Avoids changes lock (next later) later
  | .write change next, data =>
    ∀ later, ReflTransGen changes data later → Avoids changes lock next (change later)

/-- Code that nests its own locks as they allow, and whose changes are among those that others
    make. -/
def Disciplined [DecidableEq L] (reentrant : L → Bool) (changes : D → D → Prop) :
    Code L D → List L → Prop
  | .done, own => own = []
  | .acquire lock next, own =>
    (reentrant lock = true ∨ lock ∉ own) ∧ Disciplined reentrant changes next (lock :: own)
  | .release lock next, own => Disciplined reentrant changes next (own.erase lock)
  | .choose next, own => ∀ taken, Disciplined reentrant changes (next taken) own
  | .read next, own => ∀ data, Disciplined reentrant changes (next data) own
  | .write change next, own =>
    (∀ data, changes data (change data)) ∧ Disciplined reentrant changes next own

/-- A program that nests its locks as they allow. -/
def Program.Nested (reentrant : L → Bool) (changes : D → D → Prop) :
    Program L D → List L → Prop
  | .skip, _ | .raise, _ | .return, _ => True
  | .seq first second, own | .choose first second, own | .branch _ first second, own
  | .tryExcept first second, own | .tryFinally first second, own =>
    first.Nested reentrant changes own ∧ second.Nested reentrant changes own
  | .withLock lock body, own =>
    (reentrant lock = true ∨ lock ∉ own) ∧ body.Nested reentrant changes (lock :: own)
  | .write change, _ => ∀ data, changes data (change data)
  | .call body, own => body.Nested reentrant changes own

section Code

variable {changes : D → D → Prop} {lock : L} {code : Code L D} {data later : D}

/-- What others change does not make code try a lock. -/
theorem Avoids.changed (h : Avoids changes lock code data)
    (hchange : ReflTransGen changes data later) : Avoids changes lock code later := by
  induction code generalizing data later with
  | done => trivial
  | acquire other next ih => exact ⟨h.1, ih h.2 hchange⟩
  | release other next ih => exact ih h hchange
  | choose next ih => exact fun taken => ih taken (h taken) hchange
  | read next _ => exact fun last hlast => h last (hchange.trans hlast)
  | write change next _ => exact fun last hlast => h last (hchange.trans hlast)

/-- An access after which the same is tried whatever the others have changed. -/
theorem avoids_read_iff {next : D → Code L D} {P : Prop}
    (h : ∀ later, ReflTransGen changes data later → (Avoids changes lock (next later) later ↔ P)) :
    Avoids changes lock (.read next) data ↔ P :=
  ⟨fun havoids => (h data .refl).mp (havoids data .refl),
    fun hp later hchange => (h later hchange).mpr hp⟩

theorem avoids_write_iff {change : D → D} {P : Prop}
    (h : ∀ later, ReflTransGen changes data later →
      (Avoids changes lock code (change later) ↔ P)) :
    Avoids changes lock (.write change code) data ↔ P :=
  ⟨fun havoids => (h data .refl).mp (havoids data .refl),
    fun hp later hchange => (h later hchange).mpr hp⟩

variable [DecidableEq L] {reentrant : L → Bool} {own : List L}

/-- A nested program before disciplined code is disciplined code. -/
theorem Program.Nested.disciplined {program : Program L D} {exits : Exits L D}
    (h : program.Nested reentrant changes own)
    (hnext : Disciplined reentrant changes exits.next own)
    (hreturned : Disciplined reentrant changes exits.returned own)
    (hraised : Disciplined reentrant changes exits.raised own) :
    Disciplined reentrant changes (program.compile exits) own := by
  induction program generalizing own exits with
  | skip => exact hnext
  | raise => exact hraised
  | «return» => exact hreturned
  | write change => exact ⟨h, hnext⟩
  | seq first second ihfirst ihsecond =>
    exact ihfirst h.1 (ihsecond h.2 hnext hreturned hraised) hreturned hraised
  | withLock lock body ih =>
    have hrelease : ∀ code, Disciplined reentrant changes code own →
        Disciplined reentrant changes (.release lock code) (lock :: own) := by
      intro code hcode
      show Disciplined reentrant changes code ((lock :: own).erase lock)
      rw [List.erase_cons_head]
      exact hcode
    exact ⟨h.1, ih h.2 (hrelease _ hnext) (hrelease _ hreturned) (hrelease _ hraised)⟩
  | choose first second ihfirst ihsecond =>
    intro taken
    cases taken with
    | true => exact ihfirst h.1 hnext hreturned hraised
    | false => exact ihsecond h.2 hnext hreturned hraised
  | branch condition first second ihfirst ihsecond =>
    intro data
    show Disciplined reentrant changes (if condition data then _ else _) own
    split
    · exact ihfirst h.1 hnext hreturned hraised
    · exact ihsecond h.2 hnext hreturned hraised
  | call body ih => exact ih h hnext hnext hraised
  | tryExcept body handler ihbody ihhandler =>
    exact ihbody h.1 hnext hreturned (ihhandler h.2 hnext hreturned hraised)
  | tryFinally body final ihbody ihfinal =>
    exact ihbody h.1 (ihfinal h.2 hnext hreturned hraised)
      (ihfinal h.2 hreturned hreturned hraised) (ihfinal h.2 hraised hreturned hraised)

omit [DecidableEq L] in
theorem Program.Nested.sequence {programs : List (Program L D)}
    (h : ∀ program ∈ programs, program.Nested reentrant changes own) :
    (Program.sequence programs).Nested reentrant changes own := by
  induction programs with
  | nil => trivial
  | cons program programs ih =>
    rw [List.forall_mem_cons] at h
    exact ⟨h.1, ih h.2⟩

end Code

/-! ### Runs -/

section Run

open Transition

variable [DecidableEq L] {reentrant : L → Bool} {changes : D → D → Prop} {handler : Code L D}
  {st st' : State L D}

/-- The handler may be started here: it tries no lock that the thread holds and cannot take again. -/
def Clear (reentrant : L → Bool) (changes : D → D → Prop) (handler : Code L D)
    (st : State L D) : Prop :=
  ∀ lock ∈ st.held, reentrant lock = false → Avoids changes lock handler st.data

/-- Others change what they may. -/
def Uninterrupted (changes : D → D → Prop) (st : State L D) : Action D → Prop
  | .run _ => True
  | .interrupt => False
  | .other data => changes st.data data

/-- Others change what they may, and interrupts come where they may. -/
def Interrupted (changes : D → D → Prop) (may : State L D → Prop) (st : State L D) :
    Action D → Prop
  | .run _ => True
  | .interrupt => may st
  | .other data => changes st.data data

/-- A frame tries no lock that a frame below holds and that cannot be taken again. -/
def Over (reentrant : L → Bool) (changes : D → D → Prop) (data : D) (upper lower : Frame L D) :
    Prop :=
  ∀ lock ∈ lower.own, reentrant lock = false → Avoids changes lock upper.code data

/-- The invariant: every frame keeps to its discipline and to the locks below. -/
structure Orderly (reentrant : L → Bool) (changes : D → D → Prop) (st : State L D) : Prop where
  disciplined : ∀ frame ∈ st.frames, Disciplined reentrant changes frame.code frame.own
  above : st.frames.Pairwise (Over reentrant changes st.data)

omit [DecidableEq L] in
theorem Over.changed {data later : D} {upper lower : Frame L D}
    (h : Over reentrant changes data upper lower) (hchange : changes data later) :
    Over reentrant changes later upper lower :=
  fun lock hlock hplain => (h lock hlock hplain).changed (.single hchange)

theorem Orderly.changed (h : Orderly reentrant changes st) {later : D}
    (hchange : changes st.data later) : Orderly reentrant changes { st with data := later } :=
  ⟨h.disciplined, h.above.imp fun hover => hover.changed hchange⟩

/-- The running frame goes on: its own discipline and what it avoids are what there is to show. -/
theorem Orderly.next (h : Orderly reentrant changes st) {frame next : Frame L D}
    {below : List (Frame L D)} (hframes : st.frames = frame :: below)
    (hown : Disciplined reentrant changes next.code next.own)
    (hover : ∀ lower ∈ below, Over reentrant changes st.data frame lower →
      Over reentrant changes st.data next lower) :
    Orderly reentrant changes { st with frames := next :: below } := by
  obtain ⟨hdisciplined, hpairs⟩ := h
  rw [hframes] at hdisciplined hpairs
  rw [List.pairwise_cons] at hpairs
  refine ⟨?_, List.pairwise_cons.mpr ⟨fun lower hlower => ?_, hpairs.2⟩⟩
  · rw [List.forall_mem_cons] at hdisciplined ⊢
    exact ⟨hown, hdisciplined.2⟩
  · exact hover lower hlower (hpairs.1 lower hlower)

theorem Orderly.runFrame (h : Orderly reentrant changes st) {frame : Frame L D}
    {below : List (Frame L D)} (hframes : st.frames = frame :: below) {taken : Bool}
    (hstep : runFrame reentrant st frame below taken = some st') :
    Orderly reentrant changes st' := by
  have hown := h.disciplined frame (hframes ▸ List.mem_cons_self)
  obtain ⟨code, own⟩ := frame
  unfold Interrupt.runFrame at hstep
  cases code with
  | done =>
    cases hstep
    have hdisciplined := h.disciplined
    have hpairs := h.above
    rw [hframes] at hdisciplined hpairs
    exact ⟨fun frame hframe => hdisciplined frame (List.mem_cons_of_mem _ hframe),
      (List.pairwise_cons.mp hpairs).2⟩
  | acquire lock next =>
    dsimp only at hstep
    split at hstep
    · cases hstep
    · cases hstep
      exact h.next hframes hown.2 fun lower _ hover other hother hplain =>
        (hover other hother hplain).2
  | release lock next =>
    cases hstep
    exact h.next hframes hown fun lower _ hover => hover
  | choose next =>
    cases hstep
    exact h.next hframes (hown taken) fun lower _ hover other hother hplain =>
      hover other hother hplain taken
  | read next =>
    cases hstep
    exact h.next hframes (hown st.data) fun lower _ hover other hother hplain =>
      hover other hother hplain st.data .refl
  | write change next =>
    cases hstep
    -- The change is one that others may make, so that the frames below keep what they avoid.
    have hover : ∀ lower ∈ below, Over reentrant changes (change st.data) ⟨next, own⟩ lower := by
      intro lower hlower other hother hplain
      have hpairs := h.above
      rw [hframes, List.pairwise_cons] at hpairs
      exact hpairs.1 lower hlower other hother hplain st.data .refl
    have hchanged := h.changed (hown.1 st.data)
    exact hchanged.next hframes hown.2 fun lower hlower _ => hover lower hlower

/-- An interrupt where the handler tries no lock that the thread holds. -/
theorem Orderly.interrupt (h : Orderly reentrant changes st)
    (hhandler : Disciplined reentrant changes handler [])
    (hclear : Clear reentrant changes handler st) :
    Orderly reentrant changes { st with frames := ⟨handler, []⟩ :: st.frames } := by
  refine ⟨?_, List.pairwise_cons.mpr ⟨fun lower hlower lock hlock hplain => ?_, h.above⟩⟩
  · rw [List.forall_mem_cons]
    exact ⟨hhandler, h.disciplined⟩
  · exact hclear lock (List.mem_flatMap.mpr ⟨lower, hlower, hlock⟩) hplain

theorem Orderly.step (h : Orderly reentrant changes st)
    (hhandler : Disciplined reentrant changes handler []) {action : Action D}
    (hok : Interrupted changes (Clear reentrant changes handler) st action)
    (hstep : step reentrant handler st action = some st') : Orderly reentrant changes st' := by
  cases action with
  | run taken =>
    cases hframes : st.frames with
    | nil =>
      simp only [Interrupt.step, hframes] at hstep
      cases hstep
    | cons frame below =>
      simp only [Interrupt.step, hframes] at hstep
      exact h.runFrame hframes hstep
  | interrupt =>
    cases hframes : st.frames with
    | nil =>
      simp only [Interrupt.step, hframes] at hstep
      cases hstep
    | cons frame below =>
      simp only [Interrupt.step, hframes] at hstep
      cases hstep
      exact hframes ▸ h.interrupt hhandler hok
  | other data =>
    cases hstep
    exact h.changed hok

/-- An orderly thread does not wait for itself. -/
theorem Orderly.not_selfWaits (h : Orderly reentrant changes st) : ¬ st.SelfWaits reentrant := by
  rintro ⟨lock, next, own, below, hframes, hplain, hheld⟩
  obtain ⟨frame, hframe, hlock⟩ := List.mem_flatMap.mp hheld
  rw [hframes] at hframe
  have hdisciplined := h.disciplined ⟨.acquire lock next, own⟩ (hframes ▸ List.mem_cons_self)
  have hpairs := h.above
  rw [hframes, List.pairwise_cons] at hpairs
  obtain rfl | hbelow := List.mem_cons.mp hframe
  · obtain hreentrant | hfresh := hdisciplined.1
    · rw [hplain] at hreentrant
      cases hreentrant
    · exact hfresh hlock
  · exact (hpairs.1 frame hbelow lock hlock hplain).1 rfl

/-- **Clear interrupts do no harm.** -/
theorem not_selfWaits (hstart : Orderly reentrant changes st)
    (hhandler : Disciplined reentrant changes handler [])
    (hrun : Run (Interrupt.step reentrant handler)
      (Interrupted changes (Clear reentrant changes handler)) st st') :
    ¬ st'.SelfWaits reentrant :=
  (hrun.invariant (Orderly reentrant changes) hstart fun _ _ _ h hok hstep =>
    h.step hhandler hok hstep).not_selfWaits

/-- What others may change they may have changed before the next access. -/
theorem run_others {later : D} (h : ReflTransGen changes st.data later) :
    Run (Interrupt.step reentrant handler) (Uninterrupted changes) st { st with data := later } := by
  induction h with
  | refl => exact .refl
  | tail _ hchange ih => exact ih.tail (a := .other _) hchange rfl

/-- **Other interrupts may.** Code over a frame that holds a lock, that may try the lock. -/
theorem exists_selfWaits {lock : L} (hplain : reentrant lock = false) {code : Code L D}
    {below : List (Frame L D)} (hheld : lock ∈ below.flatMap (·.own)) {own : List L} {data : D}
    (htries : ¬ Avoids changes lock code data) :
    ∃ st', Run (Interrupt.step reentrant handler) (Uninterrupted changes)
        ⟨data, ⟨code, own⟩ :: below⟩ st' ∧ st'.SelfWaits reentrant := by
  induction code generalizing own data with
  | done => exact (htries trivial).elim
  | acquire other next ih =>
    by_cases hwaits : reentrant other = false
        ∧ other ∈ State.held ⟨data, ⟨.acquire other next, own⟩ :: below⟩
    · exact ⟨_, .refl, other, next, own, below, rfl, hwaits.1, hwaits.2⟩
    · have hne : other ≠ lock := by
        rintro rfl
        exact hwaits ⟨hplain, List.mem_append_right _ hheld⟩
      obtain ⟨st', hrun, hself⟩ := @ih (other :: own) data fun havoids => htries ⟨hne, havoids⟩
      refine ⟨st', hrun.head (a := .run true) trivial ?_, hself⟩
      exact if_neg hwaits
  | release other next ih =>
    obtain ⟨st', hrun, hself⟩ := @ih (own.erase other) data htries
    exact ⟨st', hrun.head (a := .run true) trivial rfl, hself⟩
  | choose next ih =>
    obtain ⟨taken, htaken⟩ := not_forall.mp htries
    obtain ⟨st', hrun, hself⟩ := @ih taken own data htaken
    exact ⟨st', hrun.head (a := .run taken) trivial rfl, hself⟩
  | read next ih =>
    obtain ⟨later, hlater⟩ := not_forall.mp htries
    obtain ⟨hchange, htries⟩ := Classical.not_imp.mp hlater
    obtain ⟨st', hrun, hself⟩ := @ih later own later htries
    refine ⟨st', (run_others hchange).trans (hrun.head (a := .run true) trivial rfl), hself⟩
  | write change next ih =>
    obtain ⟨later, hlater⟩ := not_forall.mp htries
    obtain ⟨hchange, htries⟩ := Classical.not_imp.mp hlater
    obtain ⟨st', hrun, hself⟩ := @ih own (change later) htries
    refine ⟨st', (run_others hchange).trans (hrun.head (a := .run true) trivial rfl), hself⟩

end Run

end Interrupt
