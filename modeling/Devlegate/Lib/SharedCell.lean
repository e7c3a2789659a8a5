import Mathlib.Tactic.Common

namespace SharedCell

/-!
# A shared cell with a durable copy, updated by two threads

Each thread makes a sequence of saves.  A save first evaluates its arguments from the memory copy,
then reads the memory copy, commits the payload to the durable copy and assigns it to the memory
copy: four steps, between which the other thread may run.

* `Save`: the arguments, evaluated from memory, give the update, or no save is made; the update
  gives the payload, or raises.
* `System.step` / `System.run`: one step of a thread, and a whole schedule.
* `Exclusive`: no thread starts a save while the other one is inside its own.
* `run_exclusive`: an exclusive schedule that finishes both threads leaves the two copies equal,
  and equal to the result of applying all saves one at a time in an interleaving of the two orders.
-/

variable {σ : Type}

/-- A save: its arguments from memory, then its payload from the state it reads. -/
abbrev Save (σ : Type) := σ → Option (σ → Option σ)

/-- The save made in one piece. -/
def Save.apply (save : Save σ) (s : σ) : σ :=
  match save s with
  | none => s
  | some update => (update s).getD s

/-- Where a thread stands inside its current save. -/
inductive Position (σ : Type) where
  | outside
  | prepared (update : σ → Option σ)
  | loaded (update : σ → Option σ) (snapshot : σ)
  | stored (payload : σ)

/-- A thread: its position and the saves it has yet to start. -/
structure Thread (σ : Type) where
  position : Position σ
  todo : List (Save σ)

/-- The two copies and the two threads. -/
structure System (σ : Type) where
  memory : σ
  durable : σ
  thread : Bool → Thread σ

namespace System

/-- Replace one thread. -/
def setThread (sys : System σ) (w : Bool) (t : Thread σ) : Bool → Thread σ :=
  fun v => if v = w then t else sys.thread v

/-- One step of thread `w`; a finished thread does nothing. -/
def step (sys : System σ) (w : Bool) : System σ :=
  let t := sys.thread w
  match t.position with
  | .outside =>
    match t.todo with
    | [] => sys
    | save :: rest =>
      match save sys.memory with
      | none => { sys with thread := sys.setThread w ⟨.outside, rest⟩ }
      | some update => { sys with thread := sys.setThread w ⟨.prepared update, rest⟩ }
  | .prepared update =>
    { sys with thread := sys.setThread w ⟨.loaded update sys.memory, t.todo⟩ }
  | .loaded update snapshot =>
    match update snapshot with
    | none => { sys with thread := sys.setThread w ⟨.outside, t.todo⟩ }
    | some payload =>
      { sys with durable := payload, thread := sys.setThread w ⟨.stored payload, t.todo⟩ }
  | .stored payload =>
    { sys with memory := payload, thread := sys.setThread w ⟨.outside, t.todo⟩ }

/-- A schedule of steps. -/
def run (sys : System σ) (schedule : List Bool) : System σ := schedule.foldl step sys

/-- Both threads have made all their saves. -/
def Finished (sys : System σ) : Prop :=
  ∀ w, (sys.thread w).position = .outside ∧ (sys.thread w).todo = []

/-- Thread `w` is not inside a save. -/
def Outside (sys : System σ) (w : Bool) : Prop := (sys.thread w).position = .outside

end System

/-- Every save starts while the other thread is outside its saves. -/
def Exclusive : System σ → List Bool → Prop
  | _, [] => True
  | sys, w :: schedule => (sys.Outside w → sys.Outside !w) ∧ Exclusive (sys.step w) schedule

/-! ### Evaluation -/

/-- The position is outside every save. -/
def Position.isOutside : Position σ → Bool
  | .outside => true
  | _ => false

theorem isOutside_iff {p : Position σ} : p.isOutside = true ↔ p = .outside := by
  cases p <;> simp [Position.isOutside]

instance (sys : System σ) (w : Bool) : Decidable (sys.Outside w) :=
  decidable_of_iff ((sys.thread w).position.isOutside = true) isOutside_iff

instance decidableExclusive : (sys : System σ) → (schedule : List Bool) →
    Decidable (Exclusive sys schedule)
  | _, [] => isTrue trivial
  | sys, w :: schedule =>
    have : Decidable (Exclusive (sys.step w) schedule) := decidableExclusive (sys.step w) schedule
    inferInstanceAs (Decidable ((sys.Outside w → sys.Outside !w) ∧ Exclusive (sys.step w) schedule))

instance (sys : System σ) : Decidable sys.Finished :=
  decidable_of_iff (∀ w, (sys.thread w).position.isOutside = true ∧ (sys.thread w).todo.isEmpty)
    (by simp [System.Finished, isOutside_iff, List.isEmpty_iff])

/-- `order` interleaves two lists. -/
inductive Interleaving {α : Type} : List α → List α → List α → Prop where
  | nil : Interleaving [] [] []
  | left {a : α} {xs ys order : List α} :
      Interleaving xs ys order → Interleaving (a :: xs) ys (a :: order)
  | right {a : α} {xs ys order : List α} :
      Interleaving xs ys order → Interleaving xs (a :: ys) (a :: order)

/-! ### What a save in progress will leave -/

/-- The copies as the thread inside its save expects them. -/
def Settled (memory durable : σ) : Position σ → Prop
  | .outside => durable = memory
  | .prepared _ => durable = memory
  | .loaded _ snapshot => snapshot = memory ∧ durable = memory
  | .stored payload => durable = payload

/-- The state once the save in progress is complete. -/
def target (memory : σ) : Position σ → σ
  | .outside => memory
  | .prepared update => (update memory).getD memory
  | .loaded update snapshot => (update snapshot).getD memory
  | .stored payload => payload

/-- At most one thread is inside a save, and the copies are as it expects them. -/
def Inv (sys : System σ) : Prop :=
  ∃ w, sys.Outside (!w) ∧ Settled sys.memory sys.durable (sys.thread w).position

/-- The state once the save in progress, of whichever thread, is complete. -/
def System.target (sys : System σ) : σ :=
  match (sys.thread false).position with
  | .outside => SharedCell.target sys.memory (sys.thread true).position
  | p => SharedCell.target sys.memory p

theorem target_eq {sys : System σ} {w : Bool} (h : sys.Outside !w) :
    sys.target = SharedCell.target sys.memory (sys.thread w).position := by
  unfold System.target
  cases w with
  | true =>
    have hf : (sys.thread false).position = .outside := h
    rw [hf]
  | false =>
    have ht : (sys.thread true).position = .outside := h
    rw [ht]
    cases (sys.thread false).position <;> rfl

@[simp] theorem setThread_self (sys : System σ) (w : Bool) (t : Thread σ) :
    sys.setThread w t w = t := by simp [System.setThread]

@[simp] theorem setThread_other (sys : System σ) (w : Bool) (t : Thread σ) :
    sys.setThread w t (!w) = sys.thread !w := by simp [System.setThread]

/-- Thread `w` moves to `t` and the copies to `m` and `d`, with the other thread outside. -/
theorem moved {sys : System σ} {w : Bool} {m d : σ} {t : Thread σ} (ho : sys.Outside !w)
    (hset : Settled m d t.position) :
    Inv ⟨m, d, sys.setThread w t⟩ ∧
      (System.mk m d (sys.setThread w t)).target = SharedCell.target m t.position := by
  have ho' : (System.mk m d (sys.setThread w t)).Outside !w := by
    show (sys.setThread w t !w).position = .outside
    rw [setThread_other]
    exact ho
  refine ⟨⟨w, ho', ?_⟩, ?_⟩
  · show Settled m d (sys.setThread w t w).position
    rw [setThread_self]
    exact hset
  · rw [target_eq ho']
    show SharedCell.target m (sys.setThread w t w).position = _
    rw [setThread_self]

/-- Under the invariant, a thread that may step is the only one inside a save, if any is. -/
theorem acting_thread {sys : System σ} {w : Bool} (hinv : Inv sys)
    (hex : sys.Outside w → sys.Outside !w) :
    sys.Outside (!w) ∧ Settled sys.memory sys.durable (sys.thread w).position := by
  obtain ⟨v, hv, hs⟩ := hinv
  by_cases hvw : v = w
  · exact hvw ▸ ⟨hv, hs⟩
  · have hvo : (!v) = w := by cases v <;> cases w <;> simp_all
    have hwv : (!w) = v := by cases v <;> cases w <;> simp_all
    have hw : sys.Outside w := hvo ▸ hv
    have hvout : (sys.thread v).position = .outside := hwv ▸ hex hw
    refine ⟨hex hw, ?_⟩
    rw [hvout] at hs
    rw [show (sys.thread w).position = .outside from hw]
    exact hs

/-- What a step of thread `w` does to its remaining saves and to the state expected once the save in
    progress is complete. -/
def Progress (sys sys' : System σ) (w : Bool) : Prop :=
  (sys'.thread !w).todo = (sys.thread !w).todo ∧
    ((sys'.thread w).todo = (sys.thread w).todo ∧ sys'.target = sys.target ∨
      ∃ save, (sys.thread w).todo = save :: (sys'.thread w).todo ∧
        sys'.target = save.apply sys.target)

theorem progress_same {sys : System σ} {w : Bool} {m d : σ} {p : Position σ}
    (ho : sys.Outside !w) (hset : Settled m d p)
    (ht : SharedCell.target m p = SharedCell.target sys.memory (sys.thread w).position) :
    Inv ⟨m, d, sys.setThread w ⟨p, (sys.thread w).todo⟩⟩ ∧
      Progress sys ⟨m, d, sys.setThread w ⟨p, (sys.thread w).todo⟩⟩ w := by
  obtain ⟨hinv, htarget⟩ := @moved _ sys w m d ⟨p, (sys.thread w).todo⟩ ho hset
  refine ⟨hinv, ?_, .inl ⟨?_, ?_⟩⟩
  · show (sys.setThread w _ !w).todo = _
    rw [setThread_other]
  · show (sys.setThread w _ w).todo = _
    rw [setThread_self]
  · rw [htarget, target_eq ho]
    exact ht

theorem progress_start {sys : System σ} {w : Bool} {p : Position σ} {save : Save σ}
    {rest : List (Save σ)} (ho : sys.Outside !w) (htodo : (sys.thread w).todo = save :: rest)
    (hpos : (sys.thread w).position = .outside) (hset : Settled sys.memory sys.durable p)
    (ht : SharedCell.target sys.memory p = save.apply sys.memory) :
    Inv ⟨sys.memory, sys.durable, sys.setThread w ⟨p, rest⟩⟩ ∧
      Progress sys ⟨sys.memory, sys.durable, sys.setThread w ⟨p, rest⟩⟩ w := by
  obtain ⟨hinv, htarget⟩ := @moved _ sys w sys.memory sys.durable ⟨p, rest⟩ ho hset
  refine ⟨hinv, ?_, .inr ⟨save, ?_, ?_⟩⟩
  · show (sys.setThread w _ !w).todo = _
    rw [setThread_other]
  · show _ = save :: (sys.setThread w _ w).todo
    rw [setThread_self]
    exact htodo
  · rw [htarget, target_eq ho, hpos]
    exact ht

/-- One exclusive step keeps the invariant; it either starts the next save of its thread or leaves
    the remaining saves and the expected state alone. -/
theorem step_exclusive {sys : System σ} {w : Bool} (hinv : Inv sys)
    (hex : sys.Outside w → sys.Outside !w) : Inv (sys.step w) ∧ Progress sys (sys.step w) w := by
  obtain ⟨ho, hset⟩ := acting_thread hinv hex
  cases hpos : (sys.thread w).position with
  | outside =>
    rw [hpos] at hset
    have hd : sys.durable = sys.memory := hset
    cases htodo : (sys.thread w).todo with
    | nil =>
      have hstep : sys.step w = sys := by simp [System.step, hpos, htodo]
      rw [hstep]
      exact ⟨hinv, rfl, .inl ⟨rfl, rfl⟩⟩
    | cons save rest =>
      cases hsave : save sys.memory with
      | none =>
        have hstep : sys.step w = ⟨sys.memory, sys.durable, sys.setThread w ⟨.outside, rest⟩⟩ := by
          simp [System.step, hpos, htodo, hsave]
        rw [hstep]
        exact progress_start ho htodo hpos hd (by simp [target, Save.apply, hsave])
      | some update =>
        have hstep : sys.step w
            = ⟨sys.memory, sys.durable, sys.setThread w ⟨.prepared update, rest⟩⟩ := by
          simp [System.step, hpos, htodo, hsave]
        rw [hstep]
        exact progress_start ho htodo hpos hd (by simp [target, Save.apply, hsave])
  | prepared update =>
    rw [hpos] at hset
    have hd : sys.durable = sys.memory := hset
    have hstep : sys.step w = ⟨sys.memory, sys.durable,
        sys.setThread w ⟨.loaded update sys.memory, (sys.thread w).todo⟩⟩ := by
      simp [System.step, hpos]
    rw [hstep]
    exact progress_same ho ⟨rfl, hd⟩ (by rw [hpos]; rfl)
  | loaded update snapshot =>
    rw [hpos] at hset
    obtain ⟨hsnap, hd⟩ := hset
    cases hu : update snapshot with
    | none =>
      -- the validation raised: nothing was written
      have hstep : sys.step w
          = ⟨sys.memory, sys.durable, sys.setThread w ⟨.outside, (sys.thread w).todo⟩⟩ := by
        simp [System.step, hpos, hu]
      rw [hstep]
      exact progress_same ho hd (by rw [hpos]; simp [target, hu])
    | some payload =>
      have hstep : sys.step w
          = ⟨sys.memory, payload, sys.setThread w ⟨.stored payload, (sys.thread w).todo⟩⟩ := by
        simp [System.step, hpos, hu]
      rw [hstep]
      exact progress_same ho rfl (by rw [hpos]; simp [target, hu])
  | stored payload =>
    rw [hpos] at hset
    have hd : sys.durable = payload := hset
    have hstep : sys.step w
        = ⟨payload, sys.durable, sys.setThread w ⟨.outside, (sys.thread w).todo⟩⟩ := by
      simp [System.step, hpos]
    rw [hstep]
    exact progress_same ho hd (by rw [hpos]; rfl)

/-- **Exclusive schedules are serial.** When every save starts while the other thread is outside its
    saves and both threads finish, the two copies agree and hold the result of all saves, applied
    one at a time in an interleaving of the two threads' orders. -/
theorem run_exclusive {sys : System σ} {schedule : List Bool} (hinv : Inv sys)
    (hex : Exclusive sys schedule) (hfin : (sys.run schedule).Finished) :
    (sys.run schedule).durable = (sys.run schedule).memory ∧
      ∃ order, Interleaving (sys.thread false).todo (sys.thread true).todo order ∧
        (sys.run schedule).memory = order.foldl (fun s save => save.apply s) sys.target := by
  induction schedule generalizing sys with
  | nil =>
    obtain ⟨w, hw, hset⟩ := hinv
    have hpos : (sys.thread w).position = .outside := (hfin w).1
    have hfalse : (sys.thread false).todo = [] := (hfin false).2
    have htrue : (sys.thread true).todo = [] := (hfin true).2
    rw [hpos] at hset
    refine ⟨hset, [], ?_, ?_⟩
    · rw [hfalse, htrue]; exact .nil
    · rw [target_eq hw, hpos]; rfl
  | cons w schedule ih =>
    obtain ⟨hstart, hrest⟩ := hex
    obtain ⟨hinv', hother, hstep⟩ := step_exclusive hinv hstart
    obtain ⟨heq, order, horder, hmem⟩ := ih hinv' hrest hfin
    refine ⟨heq, ?_⟩
    rcases hstep with ⟨htodo, htarget⟩ | ⟨save, htodo, htarget⟩
    · refine ⟨order, ?_, ?_⟩
      · cases w <;> simp_all
      · rw [← htarget]; exact hmem
    · refine ⟨save :: order, ?_, ?_⟩
      · cases w with
        | false => rw [htodo]; simp only [Bool.not_false] at hother; rw [← hother]; exact .left horder
        | true => rw [htodo]; simp only [Bool.not_true] at hother; rw [← hother]; exact .right horder
      · rw [List.foldl_cons, ← htarget]; exact hmem

/-- Interleaving a list with one more element puts that element at one position. -/
theorem interleaving_singleton {α : Type} {xs order : List α} {a : α}
    (h : Interleaving xs [a] order) : ∃ k, order = xs.take k ++ a :: xs.drop k := by
  generalize hys : [a] = ys at h
  induction h with
  | nil => cases hys
  | left _ ih =>
    obtain ⟨k, hk⟩ := ih hys
    exact ⟨k + 1, by simp [hk]⟩
  | @right b xs ys order hrest _ =>
    obtain ⟨rfl, rfl⟩ : a = b ∧ [] = ys := by simpa using hys
    refine ⟨0, ?_⟩
    have hall : ∀ {xs order : List α}, Interleaving xs [] order → order = xs := by
      intro xs order h
      generalize hnil : ([] : List α) = ys at h
      induction h with
      | nil => rfl
      | left _ ih => rw [ih hnil]
      | right _ _ => cases hnil
    simp [hall hrest]

end SharedCell
