import Devlegate.Lib.Dict
import Mathlib.Logic.Function.Basic
import Mathlib.Data.List.Dedup
import Mathlib.Logic.Relation
import Mathlib.Tactic.Common

namespace Git

/-!
# Repositories

Commits with their parents, and what a clone, its worktrees and its remote hold.

* `CommitGraph`: the parents of every commit.  An identity determines its parents, so the graph is
  one for all repositories and never changes.
* `CommitGraph.lineage`: `rev-list --reverse base..commit` where it is a linear chain.
* `Repository`: refs, the remote's branches, and the registered worktrees.
-/

/-! ### Commits -/

structure CommitGraph where
  parents : String → List String
  rank : String → Nat
  rank_lt : ∀ {commit parent : String}, parent ∈ parents commit → rank parent < rank commit

namespace CommitGraph

variable (graph : CommitGraph)

/-- The commits after `base` up to `commit`, when each has exactly one parent.  `depth` bounds the
    walk. -/
def walk (base : String) : Nat → String → Option (List String)
  | 0, _ => none
  | depth + 1, commit =>
    match graph.parents commit with
    | [parent] =>
      if parent = base then some [commit]
      else (walk base depth parent).map (· ++ [commit])
    | _ => none

/-- `rev-list --reverse base..commit` as a linear chain; `none` when it is empty, has a merge, or
    does not start at `base`. -/
def lineage (base commit : String) : Option (List String) :=
  graph.walk base (graph.rank commit) commit

/-- `ancestor` is `commit` or one of its ancestors. -/
def Reaches (commit ancestor : String) : Prop :=
  Relation.ReflTransGen (fun a b => b ∈ graph.parents a) commit ancestor

/-- A search for `ancestor` through the parents; `depth` bounds it. -/
def search (ancestor : String) : Nat → String → Bool
  | 0, commit => commit = ancestor
  | depth + 1, commit => commit = ancestor || (graph.parents commit).any (search ancestor depth)

/-- `merge-base --is-ancestor ancestor commit`. -/
def isAncestor (ancestor commit : String) : Bool :=
  graph.search ancestor (graph.rank commit) commit

/-- `commit` and what comes before it, with repetitions; `depth` bounds the walk. -/
def history : Nat → String → List String
  | 0, commit => [commit]
  | depth + 1, commit => commit :: (graph.parents commit).flatMap (history depth)

/-- The number of commits that `rev-list base..commit` lists. -/
def revCount (base commit : String) : Nat :=
  ((graph.history (graph.rank commit) commit).filter fun c =>
    !graph.isAncestor c base).dedup.length

variable {graph}

theorem search_of_reaches {ancestor commit : String} {depth : Nat}
    (hdepth : graph.rank commit ≤ depth) (h : graph.Reaches commit ancestor) :
    graph.search ancestor depth commit = true := by
  induction depth generalizing commit with
  | zero =>
    rcases Relation.ReflTransGen.cases_head h with heq | ⟨parent, hparent, -⟩
    · simpa [search] using heq
    · have hlt := graph.rank_lt hparent
      omega
  | succ depth ih =>
    rcases Relation.ReflTransGen.cases_head h with heq | ⟨parent, hparent, hrest⟩
    · simp [search, heq]
    · have hlt := graph.rank_lt hparent
      have hfound := ih (by omega) hrest
      simp only [search, Bool.or_eq_true, List.any_eq_true]
      exact .inr ⟨parent, hparent, hfound⟩

/-- Git finds every ancestor. -/
theorem isAncestor_of_reaches {ancestor commit : String} (h : graph.Reaches commit ancestor) :
    graph.isAncestor ancestor commit = true :=
  search_of_reaches (Nat.le_refl _) h

theorem walk_reaches {base commit : String} {depth : Nat} {chain : List String}
    (h : graph.walk base depth commit = some chain) : graph.Reaches commit base := by
  induction depth generalizing commit chain with
  | zero => cases h
  | succ depth ih =>
    simp only [walk] at h
    split at h
    · rename_i parent hparents
      have hmem : parent ∈ graph.parents commit := by simp [hparents]
      split at h
      · rename_i hbase
        exact hbase ▸ .single hmem
      · obtain ⟨rest, hrest, -⟩ := Option.map_eq_some_iff.mp h
        exact .head hmem (ih hrest)
    · cases h

/-- The base of a lineage is an ancestor of its end. -/
theorem lineage_reaches {base commit : String} {chain : List String}
    (h : graph.lineage base commit = some chain) : graph.Reaches commit base :=
  walk_reaches h

theorem reaches_of_search {ancestor commit : String} {depth : Nat}
    (h : graph.search ancestor depth commit = true) : graph.Reaches commit ancestor := by
  induction depth generalizing commit with
  | zero =>
    have heq : commit = ancestor := by simpa [search] using h
    exact heq ▸ .refl
  | succ depth ih =>
    simp only [search, Bool.or_eq_true, decide_eq_true_eq, List.any_eq_true] at h
    rcases h with heq | ⟨parent, hparent, hfound⟩
    · exact heq ▸ .refl
    · exact .head hparent (ih hfound)

theorem rank_le_of_reaches {ancestor commit : String} (h : graph.Reaches commit ancestor) :
    graph.rank ancestor ≤ graph.rank commit := by
  induction h with
  | refl => exact Nat.le_refl _
  | tail _ hparent ih => exact Nat.le_trans (Nat.le_of_lt (graph.rank_lt hparent)) ih

theorem rank_le_of_isAncestor {ancestor commit : String}
    (h : graph.isAncestor ancestor commit = true) : graph.rank ancestor ≤ graph.rank commit :=
  rank_le_of_reaches (reaches_of_search h)

theorem reaches_of_mem_history {ancestor commit : String} {depth : Nat}
    (h : ancestor ∈ graph.history depth commit) : graph.Reaches commit ancestor := by
  induction depth generalizing commit with
  | zero =>
    have heq : ancestor = commit := by simpa [history] using h
    exact heq ▸ .refl
  | succ depth ih =>
    simp only [history, List.mem_cons, List.mem_flatMap] at h
    rcases h with heq | ⟨parent, hparent, hmem⟩
    · exact heq ▸ .refl
    · exact .head hparent (ih hmem)

/-- What is before the base is not after it. -/
theorem filter_history_base {base : String} {depth : Nat} :
    (graph.history depth base).filter (fun c => !graph.isAncestor c base) = [] := by
  rw [List.filter_eq_nil_iff]
  intro c hc
  simp [isAncestor_of_reaches (reaches_of_mem_history hc)]

/-- The commits after the base of a linear chain are those of the chain, newest first. -/
theorem filter_history_of_walk {base commit : String} {depth : Nat} {chain : List String}
    (h : graph.walk base depth commit = some chain) {depth' : Nat}
    (hdepth : graph.rank commit ≤ depth') :
    (graph.history depth' commit).filter (fun c => !graph.isAncestor c base) = chain.reverse
      ∧ chain.Nodup ∧ graph.rank base < graph.rank commit
      ∧ ∀ c ∈ chain, graph.rank c ≤ graph.rank commit := by
  induction depth generalizing commit chain depth' with
  | zero => cases h
  | succ depth ih =>
    simp only [walk] at h
    split at h
    · rename_i parent hparents
      have hlt : graph.rank parent < graph.rank commit := graph.rank_lt (by simp [hparents])
      obtain ⟨fuel, rfl⟩ : ∃ fuel, depth' = fuel + 1 := ⟨depth' - 1, by omega⟩
      have hkept : ∀ hbase : graph.rank base < graph.rank commit,
          graph.isAncestor commit base = false := by
        intro hbase
        by_contra hancestor
        have hle := rank_le_of_isAncestor (by simpa using hancestor)
        omega
      split at h
      · rename_i hbase
        cases h
        subst hbase
        refine ⟨?_, List.nodup_singleton _, hlt, by simp⟩
        simp [history, hparents, hkept hlt, filter_history_base]
      · obtain ⟨rest, hrest, rfl⟩ := Option.map_eq_some_iff.mp h
        have hle : graph.rank parent ≤ fuel := by omega
        obtain ⟨hfilter, hnodup, hbase, hranks⟩ := ih hrest hle
        refine ⟨?_, ?_, by omega, ?_⟩
        · simp [history, hparents, hkept (by omega), hfilter]
        · rw [List.nodup_append]
          refine ⟨hnodup, List.nodup_singleton _, ?_⟩
          intro c hc d hd
          have hsame : d = commit := by simpa using hd
          have hle := hranks c hc
          rintro rfl
          rw [hsame] at hle
          omega
        · intro c hc
          rcases List.mem_append.mp hc with hc | hc
          · have hle := hranks c hc
            omega
          · have hsame : c = commit := by simpa using hc
            exact hsame ▸ Nat.le_refl _
    · cases h

/-- The commits of a linear chain are counted once each. -/
theorem revCount_of_lineage {base commit : String} {chain : List String}
    (h : graph.lineage base commit = some chain) :
    graph.revCount base commit = chain.length := by
  obtain ⟨hfilter, hnodup, -⟩ := filter_history_of_walk h (Nat.le_refl _)
  unfold revCount
  rw [hfilter, (List.nodup_reverse.mpr hnodup).dedup, List.length_reverse]

/-- A lineage does not end where it starts. -/
theorem lineage_ne_base {base commit : String} {chain : List String}
    (h : graph.lineage base commit = some chain) : commit ≠ base := by
  obtain ⟨-, -, hlt, -⟩ := filter_history_of_walk h (Nat.le_refl _)
  rintro rfl
  exact Nat.lt_irrefl _ hlt

end CommitGraph

/-! ### A clone and its remote -/

/-- A registered worktree: the branch its HEAD is on, and whether `status` reports anything. -/
structure Worktree where
  branch : String
  dirty : Bool := false
  deriving DecidableEq, Repr

/-- A clone.  `directories` are the paths that exist; a worktree can be registered without its
    directory and a directory can be there without being registered. -/
structure Repository where
  refs : String → Option String
  remote : String → Option String
  worktrees : Dict Worktree
  directories : String → Bool

/-- The ref of a branch. -/
def branchRef (branch : String) : String := "refs/heads/" ++ branch

namespace Repository

/-- `update-ref ref commit`. -/
def updateRef (r : Repository) (ref commit : String) : Repository :=
  { r with refs := Function.update r.refs ref (some commit) }

/-- `reset --hard commit` in the worktree of `branch` at `path`. -/
def resetHard (r : Repository) (path branch commit : String) : Repository :=
  { r with
    refs := Function.update r.refs (branchRef branch) (some commit)
    worktrees := r.worktrees.set path ⟨branch, false⟩ }

/-- `branch -D branch`. -/
def deleteBranch (r : Repository) (branch : String) : Repository :=
  { r with refs := Function.update r.refs (branchRef branch) none }

/-- A push that leaves the remote branch at `commit`. -/
def push (r : Repository) (branch commit : String) : Repository :=
  { r with remote := Function.update r.remote (branchRef branch) (some commit) }

/-- A push that deletes the remote branch. -/
def deleteRemote (r : Repository) (branch : String) : Repository :=
  { r with remote := Function.update r.remote (branchRef branch) none }

/-- `worktree remove --force path`. -/
def removeWorktree (r : Repository) (path : String) : Repository :=
  { r with
    worktrees := r.worktrees.erase path
    directories := Function.update r.directories path false }

/-- The path a branch is checked out at. -/
def pathOf (r : Repository) (branch : String) : Option String :=
  (r.worktrees.find? fun entry => entry.2.branch = branch).map (·.1)

/-- The branch is checked out nowhere else. -/
def Exclusive (r : Repository) (branch path : String) : Prop :=
  ∀ entry ∈ r.worktrees, entry.2.branch = branch → entry.1 = path

theorem pathOf_removeWorktree {r : Repository} {branch path : String}
    (h : r.Exclusive branch path) : (r.removeWorktree path).pathOf branch = none := by
  unfold pathOf removeWorktree Dict.erase
  rw [Option.map_eq_none_iff, List.find?_eq_none]
  intro entry hentry hbranch
  obtain ⟨hmem, hpath⟩ := List.mem_filter.mp hentry
  have hsame := h entry hmem (by simpa using hbranch)
  simp [hsame] at hpath

end Repository

end Git
