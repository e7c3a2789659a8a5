import Mathlib.Tactic.Common

/-!
# Commit histories

The commits of a repository, ordered by ancestry, and what Git answers about two of them.

* `History`: `merge-base --is-ancestor` as a decidable partial order.
* `History.fastForward`: the head that `merge --ff-only` leaves behind.
-/

/-- Commits with their ancestry. -/
structure History (C : Type) where
  isAncestor : C → C → Bool
  refl : ∀ a, isAncestor a a = true
  trans : ∀ a b c, isAncestor a b = true → isAncestor b c = true → isAncestor a c = true
  antisymm : ∀ a b, isAncestor a b = true → isAncestor b a = true → a = b

namespace History

variable {C : Type} {history : History C} {a b c : C}

/-- `merge --ff-only target` on `head`: the head afterwards, or `none` when it refuses. -/
def fastForward (history : History C) (head target : C) : Option C :=
  if history.isAncestor head target then some target
  else if history.isAncestor target head then some head
  else none

theorem fastForward_of_ancestor (h : history.isAncestor a b = true) :
    history.fastForward a b = some b := by
  simp [fastForward, h]

/-- A commit that a strict descendant of it precedes does not exist. -/
theorem not_ancestor_of_lt (hab : history.isAncestor a b = true) (hne : a ≠ b)
    (hbc : history.isAncestor b c = true) : history.isAncestor c a = false := by
  by_contra h
  have hca : history.isAncestor c a = true := by simpa using h
  exact hne (history.antisymm a b hab (history.trans b c a hbc hca))

end History
