import Mathlib.Data.List.Forall2

namespace Loops

/-!
# Loops that may fail

A loop over a list stops at the first turn that fails.

* `mapM_eq_ok` / `anyM_eq_ok`: a loop whose turns all succeed.
* `mapM_ok_iff_forall₂`: a loop returns exactly when each turn does.
* `toOption_mapM` / `mapError_mapM`: a loop seen without its failures, or with others.
-/

variable {ε α β : Type}

theorem toOption_eq_some {result : Except ε α} {a : α} :
    result.toOption = some a ↔ result = .ok a := by
  cases result with
  | error raised => exact iff_of_false nofun nofun
  | ok b => exact ⟨fun h => congrArg _ (Option.some.inj h), fun h => congrArg _ (Except.ok.inj h)⟩

/-- Loops whose steps are the same. -/
theorem mapM_congr_mem {f g : α → Except ε β} {xs : List α}
    (h : ∀ x ∈ xs, f x = g x) : xs.mapM f = xs.mapM g := by
  induction xs with
  | nil => rfl
  | cons x xs ih =>
    rw [List.mapM_cons, List.mapM_cons, h x List.mem_cons_self,
      ih fun y hy => h y (List.mem_cons_of_mem _ hy)]

/-- A loop whose steps all end with a result. -/
theorem mapM_eq_ok {f : α → Except ε β} {g : α → β} {xs : List α}
    (h : ∀ x ∈ xs, f x = .ok (g x)) : xs.mapM f = .ok (xs.map g) := by
  induction xs with
  | nil => rfl
  | cons x xs ih =>
    rw [List.mapM_cons, h x List.mem_cons_self, ih fun y hy => h y (List.mem_cons_of_mem _ hy)]
    rfl

/-- What a loop returns, without its failures. -/
theorem toOption_mapM (f : α → Except ε β) (xs : List α) :
    (xs.mapM f).toOption = xs.mapM fun x => (f x).toOption := by
  induction xs with
  | nil => rfl
  | cons x xs ih =>
    rw [List.mapM_cons, List.mapM_cons, ← ih]
    cases f x with
    | error raised => rfl
    | ok y => cases xs.mapM f <;> rfl

/-- What a loop returns, with other failures. -/
theorem mapError_mapM {ε' : Type} (g : ε → ε') (f : α → Except ε β) (xs : List α) :
    (xs.mapM f).mapError g = xs.mapM fun x => (f x).mapError g := by
  induction xs with
  | nil => rfl
  | cons x xs ih =>
    rw [List.mapM_cons, List.mapM_cons, ← ih]
    cases f x with
    | error raised => rfl
    | ok y => cases xs.mapM f <;> rfl

/-- A search whose tests all succeed finds what the tests find. -/
theorem anyM_eq_ok {p : α → Except ε Bool} {q : α → Bool} {l : List α}
    (h : ∀ a ∈ l, p a = .ok (q a)) : l.anyM p = .ok (l.any q) := by
  induction l with
  | nil => rfl
  | cons a l ih =>
    have htail : l.anyM p = .ok (l.any q) := ih fun b hb => h b (by simp [hb])
    rw [List.anyM_cons, h a (by simp), htail, List.any_cons]
    cases q a <;> rfl

/-- Results under a key that no element has. -/
theorem filter_filterMap_of_not_mem {key : α → String} {key' : β → String} {g : α → Option β}
    {l : List α} (hg : ∀ a ∈ l, ∀ b, g a = some b → key' b = key a) {k : String}
    (hk : k ∉ l.map key) : (l.filterMap g).filter (key' · = k) = [] := by
  rw [List.filter_eq_nil_iff]
  intro b hb
  obtain ⟨a, ha, hab⟩ := List.mem_filterMap.mp hb
  have hne : key' b ≠ k := by
    intro heq
    apply hk
    rw [← heq, hg a ha b hab]
    exact List.mem_map_of_mem ha
  simpa using hne

/-- Where keys do not repeat, the results under a key are those of its one element. -/
theorem filter_filterMap_of_mem {key : α → String} {key' : β → String} {g : α → Option β}
    {l : List α} (hl : (l.map key).Nodup) (hg : ∀ a ∈ l, ∀ b, g a = some b → key' b = key a)
    {a : α} (ha : a ∈ l) : (l.filterMap g).filter (key' · = key a) = (g a).toList := by
  induction l with
  | nil => cases ha
  | cons x l ih =>
    rw [List.map_cons, List.nodup_cons] at hl
    have hrest : ∀ a ∈ l, ∀ b, g a = some b → key' b = key a :=
      fun a ha => hg a (List.mem_cons_of_mem x ha)
    by_cases hx : key x = key a
    · -- The element stands here, so no later one has its key.
      have hmem : a ∉ l := by
        intro hal
        exact hl.1 (hx ▸ List.mem_map_of_mem hal)
      have hxa : a = x := by simpa [hmem] using ha
      subst hxa
      have hlater := filter_filterMap_of_not_mem hrest hl.1
      cases hga : g a with
      | none => simpa [hga] using hlater
      | some b => simpa [hga, hg a ha b hga] using hlater
    · have hmem : a ∈ l := by
        rcases List.mem_cons.mp ha with rfl | h
        · exact absurd rfl hx
        · exact h
      have hlater := ih hl.2 hrest hmem
      cases hgx : g x with
      | none => simpa [hgx] using hlater
      | some b => simpa [hgx, hg x (by simp) b hgx, hx] using hlater

/-- A loop that returns has returned for each element. -/
theorem mapM_ok_iff_forall₂ {f : α → Except ε β} {l : List α} :
    ∀ {results : List β}, l.mapM f = .ok results
      ↔ List.Forall₂ (fun a b => f a = .ok b) l results := by
  induction l with
  | nil =>
    intro results
    rw [List.mapM_nil, List.forall₂_nil_left_iff]
    constructor
    · intro h
      cases h
      rfl
    · rintro rfl
      rfl
  | cons a l ih =>
    intro results
    rw [List.mapM_cons, List.forall₂_cons_left_iff]
    cases ha : f a with
    | error e =>
      constructor
      · intro h
        cases h
      · rintro ⟨b, rest, hb, _⟩
        cases hb
    | ok b =>
      constructor
      · intro h
        cases hrest : l.mapM f with
        | error e =>
          rw [hrest] at h
          cases h
        | ok rest =>
          rw [hrest] at h
          cases h
          exact ⟨b, rest, rfl, ih.mp hrest, rfl⟩
      · rintro ⟨b', rest, hb, hrest, rfl⟩
        cases hb
        rw [ih.mpr hrest]
        rfl

/-- All results, if none is an error. -/
theorem exists_mapM_eq_ok {f : α → Except ε β} {xs : List α}
    (h : ∀ x ∈ xs, ∃ y, f x = .ok y) :
    ∃ ys, xs.mapM f = .ok ys ∧ ∀ x ∈ xs, ∀ y, f x = .ok y → y ∈ ys := by
  induction xs with
  | nil => exact ⟨[], rfl, fun _ hx => (List.not_mem_nil hx).elim⟩
  | cons x xs ih =>
    rw [List.forall_mem_cons] at h
    obtain ⟨⟨y, hy⟩, hrest⟩ := h
    obtain ⟨ys, hys, hmem⟩ := ih hrest
    refine ⟨y :: ys, ?_, ?_⟩
    · rw [List.mapM_cons, hy, hys]
      rfl
    · rw [List.forall_mem_cons]
      refine ⟨fun z hz => ?_, fun w hw z hz => List.mem_cons_of_mem _ (hmem w hw z hz)⟩
      rw [hy] at hz
      cases hz
      exact List.mem_cons_self

/-- A loop that returns has a result for each element. -/
theorem exists_of_mapM_ok {f : α → Except ε β} {xs : List α} {ys : List β}
    (h : xs.mapM f = .ok ys) {x : α} (hx : x ∈ xs) : ∃ y, f x = .ok y := by
  rw [mapM_ok_iff_forall₂] at h
  induction h with
  | nil => cases hx
  | cons hturn _ ih =>
    rcases List.mem_cons.mp hx with rfl | hx
    · exact ⟨_, hturn⟩
    · exact ih hx

/-- Each result is one of a turn. -/
theorem exists_of_mem_mapM {f : α → Except ε β} {xs : List α} {ys : List β}
    (h : xs.mapM f = .ok ys) {y : β} (hy : y ∈ ys) : ∃ x ∈ xs, f x = .ok y := by
  rw [mapM_ok_iff_forall₂] at h
  induction h with
  | nil => cases hy
  | cons hturn _ ih =>
    obtain rfl | hy := List.mem_cons.mp hy
    · exact ⟨_, List.mem_cons_self, hturn⟩
    · obtain ⟨x, hx, hresult⟩ := ih hy
      exact ⟨x, List.mem_cons_of_mem _ hx, hresult⟩

end Loops
