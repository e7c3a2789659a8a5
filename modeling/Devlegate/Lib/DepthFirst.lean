import Mathlib.Data.List.Chain
import Mathlib.Logic.Relation
import Mathlib.Order.Basic

namespace DepthFirst

/-!
# Depth-first walks that refuse a cycle

A recursive walk visits the vertices below a list of roots, keeps the path it is on as a stack, and
stops when it comes back to a vertex of that path.  Each call takes a frame, and there are only so
many of them.

* `visit`: one call, with the frames that are left.
* `visit_cycle`: the path it stops with is a cycle.
* `Settled`: what holds of the visited vertices between two calls; `visit_settled` and
  `walk_settled` are the rules for one call and for a row of calls.
* `FirstPath`: the path on which a vertex is first met.  `walk_isOk_iff` is the exact number of
  frames for a graph without a cycle.
-/

variable {α : Type} [DecidableEq α] (next : α → List α)

/-! ### The walk -/

/-- Why a walk stops early. -/
inductive Stop (α : Type) where
  | cycle (path : List α)
  | frames
  deriving DecidableEq, Repr

/-- One call of the walk: the visited vertices with those it adds. -/
def visit : ℕ → List α → List α → α → Except (Stop α) (List α)
  | 0, _, _, _ => .error .frames
  | frames + 1, stack, visited, v =>
    if v ∈ visited then .ok visited
    else if v ∈ stack then .error (.cycle (stack.dropWhile (· ≠ v) ++ [v]))
    else do
      let visited ← (next v).foldlM (visit frames (stack ++ [v])) visited
      return v :: visited

/-- A row of calls, each with the vertices the ones before it have visited. -/
def walk (frames : ℕ) (stack visited row : List α) : Except (Stop α) (List α) :=
  row.foldlM (visit next frames stack) visited

/-! ### The graph -/

/-- An edge of the graph. -/
def Edge (v w : α) : Prop := w ∈ next v

/-- There is a path, perhaps an empty one. -/
def Reach : α → α → Prop := Relation.ReflTransGen (Edge next)

/-- No vertex is below itself. -/
def Acyclic : Prop := ∀ v, ¬ Relation.TransGen (Edge next) v v

/-- A path along the edges that ends where it starts. -/
structure IsCycle (path : List α) : Prop where
  edges : path.IsChain (Edge next)
  closed : path.head? = path.getLast?
  long : 2 ≤ path.length

/-- The first path from a row of vertices to `w` has this many vertices: it starts from the first
    vertex of the row that reaches `w`, and goes on with the first one below that does. -/
inductive FirstPath (w : α) : List α → ℕ → Prop
  | here {row : List α} : FirstPath w (w :: row) 1
  | down {v : α} {row : List α} {n : ℕ} :
      v ≠ w → FirstPath w (next v) n → FirstPath w (v :: row) (n + 1)
  | skip {v : α} {row : List α} {n : ℕ} :
      ¬ Reach next v w → FirstPath w row n → FirstPath w (v :: row) n

variable {next}

section Graph

omit [DecidableEq α]

theorem Reach.refl (v : α) : Reach next v v := Relation.ReflTransGen.refl

theorem reach_iff {v w : α} : Reach next v w ↔ v = w ∨ ∃ u ∈ next v, Reach next u w := by
  constructor
  · intro h
    obtain rfl | ⟨u, hedge, hreach⟩ := Relation.ReflTransGen.cases_head h
    · exact .inl rfl
    · exact .inr ⟨u, hedge, hreach⟩
  · rintro (rfl | ⟨u, hedge, hreach⟩)
    · exact Reach.refl v
    · exact Relation.ReflTransGen.head hedge hreach

/-- Below a vertex of an acyclic graph nothing leads back to it. -/
theorem Acyclic.not_reach (h : Acyclic next) {v d : α} (hd : d ∈ next v) : ¬ Reach next d v :=
  fun hreach => h v (Relation.TransGen.head' hd hreach)

/-- A path leads from its first vertex to its last one. -/
theorem transGen_of_isChain {v w : α} {path : List α} :
    (v :: path).IsChain (Edge next) → path.getLast? = some w →
      Relation.TransGen (Edge next) v w := by
  induction path generalizing v with
  | nil =>
    intro _ h
    simp at h
  | cons u path ih =>
    intro hchain hlast
    rw [List.isChain_cons_cons] at hchain
    cases path with
    | nil =>
      obtain rfl : u = w := by simpa using hlast
      exact Relation.TransGen.single hchain.1
    | cons u' path =>
      have hbelow := ih hchain.2 (by simpa using hlast)
      exact Relation.TransGen.head hchain.1 hbelow

theorem IsCycle.not_acyclic {path : List α} (h : IsCycle next path) : ¬ Acyclic next := by
  obtain ⟨hedges, hclosed, hlong⟩ := h
  match path with
  | [] => simp at hlong
  | [_] => simp at hlong
  | v :: u :: path =>
    intro hacyclic
    have hlast : (u :: path).getLast? = some v := by simpa using hclosed.symm
    exact hacyclic v (transGen_of_isChain hedges hlast)

/-- A row that has a first path to a vertex reaches it. -/
theorem FirstPath.reach {w : α} {row : List α} {n : ℕ} (h : FirstPath next w row n) :
    ∃ v ∈ row, Reach next v w := by
  induction h with
  | here => exact ⟨w, by simp, Reach.refl w⟩
  | @down v row n _ _ ih =>
    obtain ⟨u, hu, hreach⟩ := ih
    exact ⟨v, by simp, reach_iff.mpr (.inr ⟨u, hu, hreach⟩)⟩
  | skip _ _ ih =>
    obtain ⟨u, hu, hreach⟩ := ih
    exact ⟨u, by simp [hu], hreach⟩

end Graph

/-! ### One call -/

theorem visit_of_visited {frames : ℕ} {stack visited : List α} {v : α} (h : v ∈ visited) :
    visit next (frames + 1) stack visited v = .ok visited := by
  unfold visit
  simp [h]

theorem visit_of_new {frames : ℕ} {stack visited : List α} {v : α} (hv : v ∉ visited)
    (hstack : v ∉ stack) :
    visit next (frames + 1) stack visited v
      = (walk next frames (stack ++ [v]) visited (next v)).map (v :: ·) := by
  unfold visit
  rw [if_neg hv, if_neg hstack]
  rfl

theorem walk_nil {frames : ℕ} {stack visited : List α} :
    walk next frames stack visited [] = .ok visited := rfl

theorem walk_cons {frames : ℕ} {stack visited row : List α} {v : α} :
    walk next frames stack visited (v :: row)
      = (visit next frames stack visited v).bind fun visited =>
          walk next frames stack visited row := rfl

/-- An error of a row is the error of one of its calls. -/
theorem walk_error {frames : ℕ} {stack row : List α} {stop : Stop α} :
    ∀ {visited : List α}, walk next frames stack visited row = .error stop →
      ∃ v ∈ row, ∃ visited, visit next frames stack visited v = .error stop := by
  induction row with
  | nil =>
    intro visited h
    rw [walk_nil] at h
    cases h
  | cons v row ih =>
    intro visited h
    rw [walk_cons] at h
    cases hv : visit next frames stack visited v with
    | error stop' =>
      rw [hv] at h
      cases h
      exact ⟨v, by simp, visited, hv⟩
    | ok visited' =>
      rw [hv] at h
      obtain ⟨u, hu, hcall⟩ := ih h
      exact ⟨u, by simp [hu], hcall⟩

theorem dropWhile_ne_of_mem {v : α} {stack : List α} (hv : v ∈ stack) :
    ∃ after, stack.dropWhile (fun u => decide (u ≠ v)) = v :: after := by
  induction stack with
  | nil => cases hv
  | cons u stack ih =>
    by_cases hu : u = v
    · exact ⟨stack, by simp [hu]⟩
    · rw [List.dropWhile_cons_of_pos (by simpa using hu)]
      apply ih
      simpa [Ne.symm hu] using hv

/-- What stands behind a vertex of a chain is a chain from it. -/
theorem isCycle_dropWhile {stack : List α} {v : α} (hchain : (stack ++ [v]).IsChain (Edge next))
    (hv : v ∈ stack) : IsCycle next (stack.dropWhile (· ≠ v) ++ [v]) := by
  obtain ⟨after, hafter⟩ := dropWhile_ne_of_mem hv
  have hsuffix : stack.dropWhile (fun u => decide (u ≠ v)) ++ [v] <:+ stack ++ [v] := by
    obtain ⟨front, hfront⟩ := List.dropWhile_suffix (fun u => decide (u ≠ v)) (l := stack)
    exact ⟨front, by rw [← List.append_assoc, hfront]⟩
  have hedges := hchain.suffix hsuffix
  rw [hafter] at hedges ⊢
  refine ⟨hedges, ?_, by simp⟩
  show some v = ((v :: after) ++ [v]).getLast?
  rw [List.getLast?_concat]

/-- **Cycles are real.** A walk along a path that stops with a cycle has found one. -/
theorem visit_cycle (frames : ℕ) : ∀ {stack visited : List α} {v : α} {path : List α},
    (stack ++ [v]).IsChain (Edge next) →
    visit next frames stack visited v = .error (.cycle path) → IsCycle next path := by
  induction frames with
  | zero =>
    intro stack visited v path _ h
    simp [visit] at h
  | succ frames ih =>
    intro stack visited v path hchain h
    by_cases hv : v ∈ visited
    · rw [visit_of_visited hv] at h
      cases h
    by_cases hstack : v ∈ stack
    · unfold visit at h
      rw [if_neg hv, if_pos hstack] at h
      cases h
      exact isCycle_dropWhile hchain hstack
    rw [visit_of_new hv hstack] at h
    cases hrow : walk next frames (stack ++ [v]) visited (next v) with
    | ok visited' =>
      rw [hrow] at h
      cases h
    | error stop =>
      rw [hrow] at h
      cases h
      obtain ⟨d, hd, visited', hcall⟩ := walk_error hrow
      apply ih _ hcall
      rw [List.append_assoc]
      exact List.isChain_append_cons_cons.mpr ⟨hchain, hd, List.isChain_singleton _⟩

theorem walk_cycle {frames : ℕ} {visited row path : List α}
    (h : walk next frames [] visited row = .error (.cycle path)) : IsCycle next path := by
  obtain ⟨v, _, visited', hcall⟩ := walk_error h
  exact visit_cycle frames (List.isChain_singleton v) hcall

/-! ### The visited vertices -/

/-- What holds of the visited vertices between two calls: they are off the path, what is below them
    is visited, and none is on a cycle. -/
structure Settled (next : α → List α) (stack visited : List α) : Prop where
  off : ∀ v ∈ visited, v ∉ stack
  below : ∀ v ∈ visited, ∀ d ∈ next v, d ∈ visited
  clear : ∀ v ∈ visited, ¬ Relation.TransGen (Edge next) v v

omit [DecidableEq α] in
theorem Settled.nil (stack : List α) : Settled next stack [] := by
  constructor <;> simp

omit [DecidableEq α] in
theorem Settled.reach {stack visited : List α} (h : Settled next stack visited) {v w : α}
    (hv : v ∈ visited) (hreach : Reach next v w) : w ∈ visited := by
  induction hreach with
  | refl => exact hv
  | tail _ hedge ih => exact h.below _ ih _ hedge

/-- What a row of calls adds to the visited vertices: the row and all it reaches. -/
structure Extends (next : α → List α) (visited row visited' : List α) : Prop where
  kept : visited ⊆ visited'
  added : row ⊆ visited'
  reached : ∀ w ∈ visited', w ∈ visited ∨ ∃ v ∈ row, Reach next v w

omit [DecidableEq α] in
/-- The visited vertices are then those and what the row reaches. -/
theorem Extends.mem_iff {stack visited row visited' : List α}
    (h : Extends next visited row visited') (hsettled : Settled next stack visited') {w : α} :
    w ∈ visited' ↔ w ∈ visited ∨ ∃ v ∈ row, Reach next v w := by
  constructor
  · exact h.reached w
  · rintro (hw | ⟨v, hv, hreach⟩)
    · exact h.kept hw
    · exact hsettled.reach (h.added hv) hreach

/-- The rule for a row, from the rule for one call. -/
theorem walk_of_visit {frames : ℕ} {stack : List α}
    (hcall : ∀ {visited : List α} {v : α} {visited' : List α}, Settled next stack visited →
      visit next frames stack visited v = .ok visited' →
      Settled next stack visited' ∧ Extends next visited [v] visited') (row : List α) :
    ∀ {visited visited' : List α}, Settled next stack visited →
      walk next frames stack visited row = .ok visited' →
      Settled next stack visited' ∧ Extends next visited row visited' := by
  induction row with
  | nil =>
    intro visited visited' hsettled h
    cases h
    refine ⟨hsettled, List.Subset.refl _, by simp, fun w hw => .inl hw⟩
  | cons v row ih =>
    intro visited visited' hsettled h
    rw [walk_cons] at h
    cases hv : visit next frames stack visited v with
    | error stop =>
      rw [hv] at h
      cases h
    | ok between =>
      rw [hv] at h
      obtain ⟨hbetween, hfirst⟩ := hcall hsettled hv
      obtain ⟨hend, hrest⟩ := ih hbetween h
      refine ⟨hend, List.Subset.trans hfirst.kept hrest.kept, ?_, ?_⟩
      · rw [List.cons_subset]
        exact ⟨hrest.kept (hfirst.added (by simp)), hrest.added⟩
      · intro w hw
        rcases hrest.reached w hw with hw | ⟨u, hu, hreach⟩
        · rcases hfirst.reached w hw with hw | ⟨u, hu, hreach⟩
          · exact .inl hw
          · obtain rfl : u = v := by simpa using hu
            exact .inr ⟨u, by simp, hreach⟩
        · exact .inr ⟨u, by simp [hu], hreach⟩

/-- **One call.** A call that returns leaves the visited vertices settled, and adds to them what its
    vertex reaches. -/
theorem visit_settled (frames : ℕ) : ∀ {stack visited : List α} {v : α} {visited' : List α},
    Settled next stack visited → visit next frames stack visited v = .ok visited' →
    Settled next stack visited' ∧ Extends next visited [v] visited' := by
  induction frames with
  | zero =>
    intro stack visited v visited' _ h
    simp [visit] at h
  | succ frames ih =>
    intro stack visited v visited' hsettled h
    by_cases hv : v ∈ visited
    · rw [visit_of_visited hv] at h
      cases h
      exact ⟨hsettled, List.Subset.refl _, by simpa using hv, fun w hw => .inl hw⟩
    by_cases hstack : v ∈ stack
    · unfold visit at h
      rw [if_neg hv, if_pos hstack] at h
      cases h
    rw [visit_of_new hv hstack] at h
    cases hrow : walk next frames (stack ++ [v]) visited (next v) with
    | error stop =>
      rw [hrow] at h
      cases h
    | ok inner =>
      rw [hrow] at h
      cases h
      have hdeeper : Settled next (stack ++ [v]) visited := by
        refine ⟨fun u hu => ?_, hsettled.below, hsettled.clear⟩
        have hne : u ≠ v := fun heq => hv (heq ▸ hu)
        simp [hsettled.off u hu, hne]
      obtain ⟨hinner, hrest⟩ := walk_of_visit ih (next v) hdeeper hrow
      have hvinner : v ∉ inner := fun hmem => hinner.off v hmem (by simp)
      refine ⟨⟨?_, ?_, ?_⟩, ?_, by simp, ?_⟩
      · intro u hu
        rw [List.mem_cons] at hu
        rcases hu with rfl | hu
        · exact hstack
        · intro hmem
          exact hinner.off u hu (by simp [hmem])
      · intro u hu d hd
        rw [List.mem_cons] at hu ⊢
        rcases hu with rfl | hu
        · exact .inr (hrest.added hd)
        · exact .inr (hinner.below u hu d hd)
      · intro u hu
        rw [List.mem_cons] at hu
        rcases hu with rfl | hu
        · -- All below the vertex is visited and off the path, and the vertex is on it.
          intro hcycle
          obtain ⟨d, hd, hreach⟩ := Relation.TransGen.head'_iff.mp hcycle
          exact hvinner (hinner.reach (hrest.added hd) hreach)
        · exact hinner.clear u hu
      · exact fun u hu => List.mem_cons_of_mem v (hrest.kept hu)
      · intro w hw
        rw [List.mem_cons] at hw
        rcases hw with rfl | hw
        · exact .inr ⟨w, by simp, Reach.refl w⟩
        · rcases hrest.reached w hw with hw | ⟨d, hd, hreach⟩
          · exact .inl hw
          · exact .inr ⟨v, by simp, reach_iff.mpr (.inr ⟨d, hd, hreach⟩)⟩

/-- **A row of calls.** -/
theorem walk_settled {frames : ℕ} {stack visited row visited' : List α}
    (hsettled : Settled next stack visited)
    (h : walk next frames stack visited row = .ok visited') :
    Settled next stack visited' ∧ Extends next visited row visited' :=
  walk_of_visit (visit_settled frames) row hsettled h

/-! ### The frames -/

/-- The frames suffice for a row of calls: the first path to each vertex that is not visited fits,
    with one more call below a vertex that has something below it. -/
structure Fits (next : α → List α) (frames : ℕ) (visited row : List α) : Prop where
  begun : row ≠ [] → 0 < frames
  paths : ∀ w ∉ visited, ∀ n, FirstPath next w row n → n + min 1 (next w).length ≤ frames

section Frames

omit [DecidableEq α]

theorem fits_nil {frames : ℕ} {visited : List α} : Fits next frames visited [] := by
  constructor
  · exact fun h => absurd rfl h
  · intro w _ n h
    cases h

/-- A vertex that is not reached is passed over. -/
theorem firstPath_cons_of_reach {w v : α} {row : List α} {n : ℕ}
    (h : FirstPath next w (v :: row) n) (hreach : Reach next v w) : FirstPath next w [v] n := by
  cases h with
  | here => exact .here
  | down hne hbelow => exact .down hne hbelow
  | skip hnot => exact absurd hreach hnot

/-- A row fits when its first vertex does, and the rest after what that one reaches. -/
theorem fits_cons {frames : ℕ} {stack visited visited' row : List α} {v : α}
    (hsettled : Settled next stack visited') (hfirst : Extends next visited [v] visited') :
    Fits next frames visited (v :: row)
      ↔ Fits next frames visited [v] ∧ Fits next frames visited' row := by
  have hmem : ∀ w, w ∈ visited' ↔ w ∈ visited ∨ Reach next v w := by
    intro w
    simpa using hfirst.mem_iff hsettled (w := w)
  constructor
  · intro h
    refine ⟨⟨fun _ => h.begun (by simp), ?_⟩, ⟨fun _ => h.begun (by simp), ?_⟩⟩
    · intro w hw n hpath
      have hreach : Reach next v w := by simpa using hpath.reach
      cases hpath with
      | here => exact h.paths v hw 1 .here
      | down hne hbelow => exact h.paths w hw _ (.down hne hbelow)
      | skip hnot => exact absurd hreach hnot
    · intro w hw n hpath
      have hnot : ¬ (w ∈ visited ∨ Reach next v w) := fun hor => hw ((hmem w).mpr hor)
      rw [not_or] at hnot
      exact h.paths w hnot.1 n (.skip hnot.2 hpath)
  · rintro ⟨hone, hrest⟩
    refine ⟨fun _ => hone.begun (by simp), ?_⟩
    intro w hw n hpath
    by_cases hreach : Reach next v w
    · exact hone.paths w hw n (firstPath_cons_of_reach hpath hreach)
    · have hw' : w ∉ visited' := by
        rw [hmem w]
        exact fun hor => hor.elim hw hreach
      cases hpath with
      | here => exact absurd (Reach.refl v) hreach
      | @down v row n hne hbelow =>
        obtain ⟨u, hu, hbelow⟩ := hbelow.reach
        exact absurd (reach_iff.mpr (.inr ⟨u, hu, hbelow⟩)) hreach
      | skip _ hpath => exact hrest.paths w hw' n hpath

/-- A visited vertex takes one call. -/
theorem fits_visited {frames : ℕ} {stack visited : List α} {v : α}
    (hsettled : Settled next stack visited) (hv : v ∈ visited) :
    Fits next frames visited [v] ↔ 0 < frames := by
  constructor
  · exact fun h => h.begun (by simp)
  · intro hframes
    refine ⟨fun _ => hframes, ?_⟩
    intro w hw n hpath
    have hreach : Reach next v w := by simpa using hpath.reach
    exact absurd (hsettled.reach hv hreach) hw

/-- A new vertex takes one call and the calls below it. -/
theorem fits_new (hacyclic : Acyclic next) {frames : ℕ} {visited : List α} {v : α}
    (hv : v ∉ visited) :
    Fits next (frames + 1) visited [v] ↔ Fits next frames visited (next v) := by
  constructor
  · intro h
    refine ⟨?_, ?_⟩
    · intro hne
      have hlength : 0 < (next v).length := List.length_pos_iff.mpr hne
      have hhere := h.paths v hv 1 .here
      omega
    · intro w hw n hpath
      have hne : v ≠ w := by
        rintro rfl
        obtain ⟨d, hd, hreach⟩ := hpath.reach
        exact hacyclic.not_reach hd hreach
      have hdown := h.paths w hw (n + 1) (.down hne hpath)
      omega
  · intro h
    refine ⟨fun _ => Nat.succ_pos frames, ?_⟩
    intro w hw n hpath
    cases hpath with
    | here =>
      by_cases hnil : next v = []
      · simp [hnil]
      · have hframes := h.begun hnil
        omega
    | down _ hbelow =>
      have hbound := h.paths w hw _ hbelow
      omega
    | skip _ hpath => cases hpath

end Frames

/-- The exact frames of a row, from those of one call. -/
theorem walk_isOk_of_visit {frames : ℕ} {stack : List α} {row : List α}
    (hcall : ∀ v ∈ row, ∀ {visited : List α}, Settled next stack visited →
      ((visit next frames stack visited v).isOk ↔ Fits next frames visited [v])) :
    ∀ {visited : List α}, Settled next stack visited →
      ((walk next frames stack visited row).isOk ↔ Fits next frames visited row) := by
  induction row with
  | nil =>
    intro visited _
    exact ⟨fun _ => fits_nil, fun _ => rfl⟩
  | cons v row ih =>
    intro visited hsettled
    have hone := hcall v (by simp) hsettled
    rw [walk_cons]
    cases hv : visit next frames stack visited v with
    | error stop =>
      rw [hv] at hone
      constructor
      · intro h
        cases h
      · intro h
        -- A row that fits has a first vertex that fits.
        have hfirst : Fits next frames visited [v] := by
          refine ⟨fun _ => h.begun (by simp), ?_⟩
          intro w hw n hpath
          cases hpath with
          | here => exact h.paths v hw 1 .here
          | down hne hbelow => exact h.paths w hw _ (.down hne hbelow)
          | skip _ hpath => cases hpath
        cases hone.mpr hfirst
    | ok visited' =>
      rw [hv] at hone
      obtain ⟨hsettled', hfirst⟩ := visit_settled frames hsettled hv
      rw [fits_cons hsettled' hfirst]
      have hrest := ih (fun u hu => hcall u (by simp [hu])) hsettled'
      constructor
      · intro h
        exact ⟨hone.mp rfl, hrest.mp h⟩
      · intro h
        exact hrest.mpr h.2

/-- In an acyclic graph a call returns exactly when its frames suffice. -/
theorem visit_isOk_iff (hacyclic : Acyclic next) (frames : ℕ) :
    ∀ {stack visited : List α} {v : α}, (stack ++ [v]).IsChain (Edge next) →
      Settled next stack visited →
      ((visit next frames stack visited v).isOk ↔ Fits next frames visited [v]) := by
  induction frames with
  | zero =>
    intro stack visited v _ _
    constructor
    · intro h
      cases h
    · intro h
      exact absurd (h.begun (by simp)) (Nat.lt_irrefl 0)
  | succ frames ih =>
    intro stack visited v hchain hsettled
    by_cases hv : v ∈ visited
    · rw [visit_of_visited hv, fits_visited hsettled hv]
      exact ⟨fun _ => Nat.succ_pos frames, fun _ => rfl⟩
    by_cases hstack : v ∈ stack
    · -- The path would be a cycle.
      exact absurd hacyclic (isCycle_dropWhile hchain hstack).not_acyclic
    have hdeeper : Settled next (stack ++ [v]) visited := by
      refine ⟨fun u hu => ?_, hsettled.below, hsettled.clear⟩
      have hne : u ≠ v := fun heq => hv (heq ▸ hu)
      simp [hsettled.off u hu, hne]
    have hrow : (walk next frames (stack ++ [v]) visited (next v)).isOk
        ↔ Fits next frames visited (next v) := by
      apply walk_isOk_of_visit _ hdeeper
      intro d hd visited' hsettled'
      apply ih _ hsettled'
      rw [List.append_assoc]
      exact List.isChain_append_cons_cons.mpr ⟨hchain, hd, List.isChain_singleton _⟩
    rw [visit_of_new hv hstack, fits_new hacyclic hv, ← hrow]
    cases walk next frames (stack ++ [v]) visited (next v) <;> exact Iff.rfl

/-- **The frames a walk needs.** In an acyclic graph the walk from a row returns exactly when the
    first path to each vertex fits into the frames. -/
theorem walk_isOk_iff (hacyclic : Acyclic next) {frames : ℕ} {row : List α} :
    (walk next frames [] [] row).isOk
      ↔ ∀ w n, FirstPath next w row n → n + min 1 (next w).length ≤ frames := by
  have hexact : (walk next frames [] [] row).isOk ↔ Fits next frames [] row := by
    apply walk_isOk_of_visit _ (Settled.nil [])
    intro v _ visited hsettled
    exact visit_isOk_iff hacyclic frames (List.isChain_singleton v) hsettled
  rw [hexact]
  constructor
  · exact fun h w n hpath => h.paths w (by simp) n hpath
  · intro h
    refine ⟨?_, fun w _ n hpath => h w n hpath⟩
    intro hne
    obtain ⟨v, row', rfl⟩ := List.exists_cons_of_ne_nil hne
    have hhere := h v 1 .here
    omega

/-- A walk that returns has met no cycle below its row. -/
theorem acyclic_of_walk {frames : ℕ} {row visited : List α}
    (h : walk next frames [] [] row = .ok visited) {v : α} (hv : v ∈ row) :
    ¬ Relation.TransGen (Edge next) v v := by
  obtain ⟨hsettled, hextends⟩ := walk_settled (Settled.nil []) h
  exact hsettled.clear v (hextends.added hv)

end DepthFirst
