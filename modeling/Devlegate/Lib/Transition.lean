import Mathlib.Tactic.Common

namespace Transition

/-!
# Runs of a labelled transition system

A system is a partial step function: `step s a` is the state after action `a`, or `none` when `a`
is not possible in `s`.  `Run step ok s s'` says that `s'` is reached from `s` by steps that all
satisfy `ok`, a condition on the state before the step and the action.

* `Run.invariant`: what every such step preserves holds in every state reached.
* `exec`: a list of actions, evaluated.
-/

variable {σ α : Type}

/-- States reached by steps that satisfy `ok`. -/
inductive Run (step : σ → α → Option σ) (ok : σ → α → Prop) (s : σ) : σ → Prop where
  | refl : Run step ok s s
  | tail {t u : σ} {a : α} : Run step ok s t → ok t a → step t a = some u → Run step ok s u

/-- **Invariant rule.** A property of the start state that every step satisfying `ok` preserves
    holds in every state such steps reach. -/
theorem Run.invariant {step : σ → α → Option σ} {ok : σ → α → Prop} {s s' : σ} (I : σ → Prop)
    (hstart : I s) (hstep : ∀ t a u, I t → ok t a → step t a = some u → I u)
    (h : Run step ok s s') : I s' := by
  induction h with
  | refl => exact hstart
  | tail _ hok hs ih => exact hstep _ _ _ ih hok hs

/-- One step before a run. -/
theorem Run.head {step : σ → α → Option σ} {ok : σ → α → Prop} {s t u : σ} {a : α}
    (hok : ok s a) (hs : step s a = some t) (h : Run step ok t u) : Run step ok s u := by
  induction h with
  | refl => exact .tail .refl hok hs
  | tail _ hok' hs' ih => exact .tail ih hok' hs'

/-- One run after another. -/
theorem Run.trans {step : σ → α → Option σ} {ok : σ → α → Prop} {s t u : σ}
    (h : Run step ok s t) (h' : Run step ok t u) : Run step ok s u := by
  induction h' with
  | refl => exact h
  | tail _ hok hs ih => exact ih.tail hok hs

/-- A weaker condition on the steps. -/
theorem Run.mono {step : σ → α → Option σ} {ok ok' : σ → α → Prop} {s s' : σ}
    (hmono : ∀ t a, ok t a → ok' t a) (h : Run step ok s s') : Run step ok' s s' := by
  induction h with
  | refl => exact .refl
  | tail _ hok hs ih => exact ih.tail (hmono _ _ hok) hs

/-- A list of actions; `none` when one of them is not possible. -/
def exec (step : σ → α → Option σ) (s : σ) (actions : List α) : Option σ :=
  actions.foldlM step s

/-- The condition at every step of a list of actions. -/
def Along (step : σ → α → Option σ) (ok : σ → α → Prop) : σ → List α → Prop
  | _, [] => True
  | s, a :: rest => ok s a ∧ ∀ t ∈ step s a, Along step ok t rest

instance decidableAlong (step : σ → α → Option σ) (ok : σ → α → Prop)
    [∀ s a, Decidable (ok s a)] : (s : σ) → (actions : List α) → Decidable (Along step ok s actions)
  | _, [] => isTrue trivial
  | s, a :: rest =>
    match h : step s a with
    | none => decidable_of_iff (ok s a) (by simp [Along, h])
    | some t =>
      have : Decidable (Along step ok t rest) := decidableAlong step ok t rest
      decidable_of_iff (ok s a ∧ Along step ok t rest) (by simp [Along, h])

/-- An evaluated list of actions is a run. -/
theorem run_of_exec {step : σ → α → Option σ} {ok : σ → α → Prop} {s s' : σ} {actions : List α}
    (hexec : exec step s actions = some s') (halong : Along step ok s actions) :
    Run step ok s s' := by
  suffices hgen : ∀ t, Run step ok s t → exec step t actions = some s' →
      Along step ok t actions → Run step ok s s' from hgen s .refl hexec halong
  clear hexec halong
  induction actions with
  | nil =>
    intro t hrun hexec _
    have : t = s' := by simpa [exec] using hexec
    exact this ▸ hrun
  | cons a rest ih =>
    intro t hrun hexec halong
    obtain ⟨hok, hrest⟩ := halong
    simp only [exec, List.foldlM_cons, bind, Option.bind_eq_some_iff] at hexec
    obtain ⟨u, hu, hexec⟩ := hexec
    exact ih u (hrun.tail hok hu) hexec (hrest u hu)

/-- The end of an evaluated list of actions, with a test it passes. -/
theorem exists_exec_of_any {step : σ → α → Option σ} {s : σ} {actions : List α} {p : σ → Prop}
    [DecidablePred p] (h : (exec step s actions).any (fun t => decide (p t)) = true) :
    ∃ t, exec step s actions = some t ∧ p t := by
  cases hexec : exec step s actions with
  | none => simp [hexec] at h
  | some t => exact ⟨t, rfl, by simpa [hexec] using h⟩

end Transition
