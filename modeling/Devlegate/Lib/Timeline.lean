import Mathlib.Data.List.Infix
import Mathlib.Tactic.Common

/-!
# Linear histories

A commit of a history without merges is everything that was committed up to it.  Two commits are the
same exactly when their trees and all the trees before them are, and every commit knows its parent.

* `Timeline`: the trees of a commit and its ancestors, newest first.
* `Timeline.lastTouching`, `Timeline.log`: `log --format=%H commit -- path`, the first line and all.
* `Timeline.firstAfter`: the first line of `rev-list --reverse base..head`.
-/

/-- A commit, as the trees from it back to the root. -/
abbrev Timeline (Tree : Type) := List Tree

namespace Timeline

variable {Tree Path Blob : Type}

/-- `rev-parse commit^`. -/
def parent : Timeline Tree → Option (Timeline Tree)
  | _ :: tree :: rest => some (tree :: rest)
  | _ => none

@[simp] theorem parent_cons {tree : Tree} {base : Timeline Tree} (h : base ≠ []) :
    parent (tree :: base) = some base := by
  cases base with
  | nil => exact absurd rfl h
  | cons => rfl

theorem parent_eq_some {commit base : Timeline Tree} :
    parent commit = some base ↔ base ≠ [] ∧ ∃ tree, commit = tree :: base := by
  constructor
  · intro h
    match commit, h with
    | tree :: next :: rest, h =>
      cases h
      exact ⟨List.cons_ne_nil _ _, tree, rfl⟩
  · rintro ⟨hne, tree, rfl⟩
    exact parent_cons hne

theorem not_suffix_of_longer {older newer : Timeline Tree} (h : older.length < newer.length) :
    ¬ newer <:+ older := by
  intro hsuffix
  have hlength := hsuffix.length_le
  omega

/-- A later commit is not the one it comes after. -/
theorem cons_append_ne (tree : Tree) (later base : Timeline Tree) :
    tree :: (later ++ base) ≠ base := by
  intro heq
  have hlength := congrArg List.length heq
  simp only [List.length_cons, List.length_append] at hlength
  omega

/-! ### The commits that touch a path -/

section Log

variable (blob : Tree → Path → Option Blob)

/-- The blob at a path of a commit. -/
def fileAt : Timeline Tree → Path → Option Blob
  | [], _ => none
  | tree :: _, path => blob tree path

/-- The commit changes what its parent has at the path. -/
def Touches (path : Path) (commit : Timeline Tree) : Prop :=
  fileAt blob commit path ≠ fileAt blob commit.tail path

/-- No commit after `base` up to `head` touches the path. -/
def Untouched (path : Path) (base head : Timeline Tree) : Prop :=
  ∀ commit, base <:+ commit → commit <:+ head → commit ≠ base → ¬ Touches blob path commit

variable [DecidableEq Blob]

instance (path : Path) (commit : Timeline Tree) : Decidable (Touches blob path commit) :=
  inferInstanceAs (Decidable (_ ≠ _))

/-- `log -1 --format=%H commit -- path`. -/
def lastTouching (path : Path) : Timeline Tree → Option (Timeline Tree)
  | [] => none
  | tree :: rest =>
    if Touches blob path (tree :: rest) then some (tree :: rest) else lastTouching path rest

/-- `log --format=%H head -- path`: the commits that touch a path, newest first. -/
def log (path : Path) : Timeline Tree → List (Timeline Tree)
  | [] => []
  | tree :: rest =>
    if Touches blob path (tree :: rest) then (tree :: rest) :: log path rest else log path rest

variable {blob} {path : Path} {base head commit : Timeline Tree}

omit [DecidableEq Blob] in
theorem Untouched.tail {tree : Tree} (h : Untouched blob path base (tree :: head)) :
    Untouched blob path base head :=
  fun commit hbase hhead => h commit hbase (hhead.trans (List.suffix_cons tree head))

omit [DecidableEq Blob] in
/-- What no commit touches is as it was. -/
theorem Untouched.fileAt_eq (hbase : base <:+ head) (h : Untouched blob path base head) :
    fileAt blob head path = fileAt blob base path := by
  obtain ⟨later, rfl⟩ := hbase
  induction later with
  | nil => rfl
  | cons tree later ih =>
    have hskipped : ¬ Touches blob path (tree :: (later ++ base)) :=
      h _ ((List.suffix_append later base).trans (List.suffix_cons _ _)) List.suffix_rfl
        (cons_append_ne tree later base)
    unfold Touches at hskipped
    rw [ne_eq, not_not] at hskipped
    exact hskipped.trans (ih h.tail)

theorem lastTouching_of_touches (h : Touches blob path commit) :
    lastTouching blob path commit = some commit := by
  cases commit with
  | nil => exact absurd rfl h
  | cons tree rest => exact if_pos h

/-- The log passes over the commits that leave the path alone. -/
theorem lastTouching_of_untouched (hbase : base <:+ head) (h : Untouched blob path base head) :
    lastTouching blob path head = lastTouching blob path base := by
  obtain ⟨later, rfl⟩ := hbase
  induction later with
  | nil => rfl
  | cons tree later ih =>
    have hskipped : ¬ Touches blob path (tree :: (later ++ base)) :=
      h _ ((List.suffix_append later base).trans (List.suffix_cons _ _)) List.suffix_rfl
        (cons_append_ne tree later base)
    calc lastTouching blob path (tree :: (later ++ base))
        = lastTouching blob path (later ++ base) := if_neg hskipped
      _ = lastTouching blob path base := ih h.tail

/-- What the log names is an ancestor that touches the path. -/
theorem lastTouching_eq_some (h : lastTouching blob path head = some commit) :
    commit <:+ head ∧ Touches blob path commit := by
  induction head with
  | nil => cases h
  | cons tree rest ih =>
    unfold lastTouching at h
    split at h
    · rename_i htouches
      cases h
      exact ⟨List.suffix_rfl, htouches⟩
    · obtain ⟨hsuffix, htouches⟩ := ih h
      exact ⟨hsuffix.trans (List.suffix_cons _ _), htouches⟩

theorem log_cons_of_touches {tree : Tree} (h : Touches blob path (tree :: head)) :
    log blob path (tree :: head) = (tree :: head) :: log blob path head := if_pos h

theorem log_cons_of_not {tree : Tree} (h : ¬ Touches blob path (tree :: head)) :
    log blob path (tree :: head) = log blob path head := if_neg h

/-- A path that is there was put there. -/
theorem lastTouching_isSome (h : (fileAt blob head path).isSome) :
    (lastTouching blob path head).isSome := by
  induction head with
  | nil => cases h
  | cons tree rest ih =>
    unfold lastTouching
    split
    · rfl
    · rename_i hskipped
      unfold Touches at hskipped
      rw [ne_eq, not_not] at hskipped
      exact ih (hskipped ▸ h)

end Log

/-! ### The commits after another -/

section RevList

variable [DecidableEq Tree]

/-- `rev-list --reverse base..head`. -/
def revList (base head : Timeline Tree) : List (Timeline Tree) :=
  (head.tails.filter fun commit => commit ≠ [] ∧ ¬ commit <:+ base).reverse

/-- The first of them. -/
def firstAfter (base head : Timeline Tree) : Option (Timeline Tree) := (revList base head).head?

variable {base head commit : Timeline Tree}

theorem mem_revList : commit ∈ revList base head ↔ commit <:+ head ∧ commit ≠ [] ∧ ¬ commit <:+ base := by
  simp [revList]

theorem firstAfter_mem (h : firstAfter base head = some commit) :
    commit <:+ head ∧ commit ≠ [] ∧ ¬ commit <:+ base :=
  mem_revList.mp (List.mem_of_mem_head? h)

/-- The first commit after an ancestor is its child. -/
theorem firstAfter_child {tree : Tree} (h : tree :: base <:+ head) :
    firstAfter base head = some (tree :: base) := by
  obtain ⟨later, rfl⟩ := h
  induction later with
  | nil =>
    have hrest : (base.tails.filter fun commit => commit ≠ [] ∧ ¬ commit <:+ base) = [] := by
      rw [List.filter_eq_nil_iff]
      intro commit hmem
      simp [(List.mem_tails _ _).mp hmem]
    unfold firstAfter revList
    rw [List.nil_append, List.tails_cons, List.filter_cons_of_pos, hrest]
    · rfl
    · simpa using not_suffix_of_longer (Nat.lt_succ_self base.length)
  | cons newest later ih =>
    have hkept : ¬ newest :: (later ++ tree :: base) <:+ base := by
      refine not_suffix_of_longer ?_
      simp only [List.length_cons, List.length_append]
      omega
    unfold firstAfter revList at ih ⊢
    rw [List.cons_append, List.tails_cons, List.filter_cons_of_pos (by simp [hkept]),
      List.reverse_cons, List.head?_append, ih]
    rfl

end RevList

end Timeline
