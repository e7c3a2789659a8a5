import Mathlib.Data.List.Pairwise
import Mathlib.Tactic.Common

namespace FileLock

/-!
# Advisory locks on a file

The locks of `flock` belong to open file descriptions: a process that opens the file twice has two,
and a program that a process executes keeps the ones whose descriptors are inheritable.

* `Description`, `Table`: the open descriptions of one file, each with its process and its lock.
* `flock`: an attempt that does not wait.
* `openFile`, `unlock`, `setInheritable`, `close`, `exec`, `exit`: the other calls.
* `Sound`: no two descriptions hold locks that exclude each other; every call keeps it.
-/

/-- `LOCK_SH` and `LOCK_EX`. -/
inductive Mode where
  | shared
  | exclusive
  deriving DecidableEq

/-- Two descriptions cannot hold these locks. -/
def Mode.excludes (a b : Mode) : Bool := a = .exclusive || b = .exclusive

/-- An open description of the file. -/
structure Description (I P : Type) where
  id : I
  owner : P
  inheritable : Bool := false
  mode : Option Mode := none
  deriving DecidableEq

/-- The open descriptions of the file. -/
abbrev Table (I P : Type) := List (Description I P)

variable {I P : Type} [DecidableEq I] [DecidableEq P]

/-! ### Calls -/

/-- `open`. -/
def openFile (table : Table I P) (id : I) (owner : P) : Table I P :=
  { id := id, owner := owner } :: table

/-- A change of one description. -/
def modify (table : Table I P) (id : I) (change : Description I P → Description I P) : Table I P :=
  table.map fun x => if x.id = id then change x else x

/-- Another description holds a lock that excludes this one. -/
def blocked (table : Table I P) (id : I) (mode : Mode) : Bool :=
  table.any fun x => x.id ≠ id && x.mode.any mode.excludes

/-- `flock(mode | LOCK_NB)`; `none` is `BlockingIOError`. -/
def flock (table : Table I P) (id : I) (mode : Mode) : Option (Table I P) :=
  if blocked table id mode then none
  else some (modify table id fun x => { x with mode := some mode })

/-- `flock(LOCK_UN)`. -/
def unlock (table : Table I P) (id : I) : Table I P :=
  modify table id fun x => { x with mode := none }

/-- `set_inheritable`. -/
def setInheritable (table : Table I P) (id : I) (inheritable : Bool) : Table I P :=
  modify table id fun x => { x with inheritable := inheritable }

/-- `close` of the last descriptor of a description. -/
def close (table : Table I P) (id : I) : Table I P := table.filter (·.id ≠ id)

/-- `exec`: the descriptors that are not inheritable are closed. -/
def exec (table : Table I P) (owner : P) : Table I P :=
  table.filter fun x => x.owner ≠ owner || x.inheritable

/-- The end of a process. -/
def exit (table : Table I P) (owner : P) : Table I P := table.filter (·.owner ≠ owner)

/-! ### What the calls keep -/

/-- Different descriptions, without locks that exclude each other. -/
def Compatible (x y : Description I P) : Prop :=
  x.id ≠ y.id ∧ ∀ a ∈ x.mode, ∀ b ∈ y.mode, a.excludes b = false

/-- No two locks exclude each other. -/
def Sound (table : Table I P) : Prop := table.Pairwise Compatible

theorem Mode.excludes_comm (a b : Mode) : a.excludes b = b.excludes a := Bool.or_comm _ _

omit [DecidableEq I] [DecidableEq P] in
theorem Compatible.symm {x y : Description I P} (h : Compatible x y) : Compatible y x :=
  ⟨h.1.symm, fun b hb a ha => by rw [Mode.excludes_comm, h.2 a ha b hb]⟩

section Sound

variable {table : Table I P} {id : I} {owner : P} {x y : Description I P}

omit [DecidableEq I] [DecidableEq P] in
theorem Sound.compatible (h : Sound table) (hx : x ∈ table) (hy : y ∈ table) (hne : x ≠ y) :
    Compatible x y :=
  have : Std.Symm (Compatible (I := I) (P := P)) := ⟨fun _ _ h => h.symm⟩
  List.Pairwise.forall h hx hy hne

omit [DecidableEq I] [DecidableEq P] in
/-- A description is known by its name. -/
theorem Sound.eq_of_id (h : Sound table) (hx : x ∈ table) (hy : y ∈ table) (hid : x.id = y.id) :
    x = y := by
  by_contra hne
  exact (h.compatible hx hy hne).1 hid

omit [DecidableEq I] [DecidableEq P] in
/-- While a description holds the lock exclusively, no other one holds it. -/
theorem Sound.eq_of_exclusive (h : Sound table) (hx : x ∈ table) (hy : y ∈ table)
    (hexclusive : x.mode = some .exclusive) (hlocked : y.mode.isSome) : x = y := by
  by_contra hne
  obtain ⟨mode, hmode⟩ := Option.isSome_iff_exists.mp hlocked
  have hfree := (h.compatible hx hy hne).2 .exclusive hexclusive mode hmode
  cases hfree

omit [DecidableEq I] [DecidableEq P] in
theorem Sound.openFile (h : Sound table) (hfresh : ∀ x ∈ table, x.id ≠ id) :
    Sound (openFile table id owner) :=
  List.pairwise_cons.mpr ⟨fun x hx => ⟨(hfresh x hx).symm, nofun⟩, h⟩

omit [DecidableEq P] in
/-- A change of one description that keeps its name and is compatible with the other ones. -/
theorem Sound.modify (h : Sound table) {change : Description I P → Description I P}
    (hid : ∀ x ∈ table, x.id = id → (change x).id = id)
    (hmode : ∀ x ∈ table, x.id = id → ∀ y ∈ table, y.id ≠ id → ∀ a ∈ (change x).mode,
      ∀ b ∈ y.mode, a.excludes b = false) : Sound (modify table id change) := by
  refine List.pairwise_map.mpr (List.Pairwise.imp_of_mem ?_ h)
  intro x y hx hy hcompatible
  by_cases hxid : x.id = id
  · have hyid : y.id ≠ id := fun hyid => hcompatible.1 (hxid.trans hyid.symm)
    rw [if_pos hxid, if_neg hyid]
    exact ⟨by rw [hid x hx hxid]; exact hyid.symm, hmode x hx hxid y hy hyid⟩
  · rw [if_neg hxid]
    by_cases hyid : y.id = id
    · rw [if_pos hyid]
      have hchanged : Compatible (change y) x :=
        ⟨by rw [hid y hy hyid]; exact fun heq => hxid heq.symm, hmode y hy hyid x hx hxid⟩
      exact hchanged.symm
    · rw [if_neg hyid]
      exact hcompatible

omit [DecidableEq P] in
/-- A change that leaves the lock, or gives it back. -/
theorem Sound.modify_le (h : Sound table) {change : Description I P → Description I P}
    (hid : ∀ x, (change x).id = x.id)
    (hmode : ∀ x, ∀ a ∈ (change x).mode, a ∈ x.mode) : Sound (FileLock.modify table id change) := by
  refine h.modify (fun x _ hx => (hid x).trans hx) fun x hx hxid y hy hyid a ha b hb => ?_
  have hne : x ≠ y := by
    rintro rfl
    exact hyid hxid
  exact (h.compatible hx hy hne).2 a (hmode x a ha) b hb

omit [DecidableEq P] in
theorem Sound.flock (h : Sound table) {mode : Mode} {table' : Table I P}
    (hlock : flock table id mode = some table') : Sound table' := by
  unfold FileLock.flock at hlock
  split at hlock
  · cases hlock
  · rename_i hfree
    cases hlock
    refine h.modify (fun x _ hx => hx) fun x hx hxid y hy hyid a ha b hb => ?_
    cases ha
    by_contra hexcludes
    refine hfree (List.any_eq_true.mpr ⟨y, hy, ?_⟩)
    rw [Option.mem_def.mp hb]
    simpa [hyid] using hexcludes

omit [DecidableEq P] in
/-- The lock is refused exactly when another description excludes it. -/
theorem flock_eq_none {mode : Mode} :
    flock table id mode = none ↔ ∃ x ∈ table, x.id ≠ id ∧ ∃ b ∈ x.mode, mode.excludes b = true := by
  unfold FileLock.flock blocked
  split
  · rename_i hblocked
    refine ⟨fun _ => ?_, fun _ => rfl⟩
    obtain ⟨x, hx, h⟩ := List.any_eq_true.mp hblocked
    rw [Bool.and_eq_true, decide_eq_true_iff, Option.any_eq_true] at h
    exact ⟨x, hx, h⟩
  · rename_i hfree
    refine ⟨nofun, fun ⟨x, hx, hid, hmode⟩ => (hfree (List.any_eq_true.mpr ⟨x, hx, ?_⟩)).elim⟩
    rw [Bool.and_eq_true, decide_eq_true_iff, Option.any_eq_true]
    exact ⟨hid, hmode⟩

omit [DecidableEq P] in
theorem Sound.unlock (h : Sound table) : Sound (unlock table id) :=
  h.modify_le (fun _ => rfl) nofun

omit [DecidableEq P] in
theorem Sound.setInheritable (h : Sound table) {inheritable : Bool} :
    Sound (setInheritable table id inheritable) :=
  h.modify_le (fun _ => rfl) fun _ _ ha => ha

omit [DecidableEq I] in
theorem Sound.exec (h : Sound table) : Sound (exec table owner) := List.Pairwise.filter _ h

end Sound

end FileLock
