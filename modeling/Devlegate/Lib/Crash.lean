import Mathlib.Logic.Relation
import Mathlib.Tactic.Common

namespace Crash

/-!
# Programs that can be killed between two effects

A program runs on a durable state.  It either returns or raises, and on the way it leaves behind the
states after each of its effects: a process that is killed leaves one of these.

* `Program`: a program as the states it visits and its result, with `get`, `effect`, `raise`,
  `afterwards` and `zoom`.
* `Sat`: what holds in every state visited, after a return, and after a raise, with one rule for
  each construct.
* `Runs`: the value and the state a run that returns ends with, construct by construct.
* `Stays`: a run that keeps to a preorder, with a rule for each construct.
* `Alike`: programs that differ at most in what they raise; their specifications carry across.
* `visited_bind` and its companions: which states a program visits.
* `Interrupted`: what any number of runs leave, each killed at any point.
-/

variable {σ ε α β ι : Type}

/-- The states after each effect, and how the program ended. -/
structure Outcome (σ ε α : Type) where
  visited : List σ
  result : Except ε α

/-- The state a program leaves that started in `s`. -/
def Outcome.last (s : σ) (o : Outcome σ ε α) : σ := o.visited.getLastD s

def Program (σ ε α : Type) := σ → Outcome σ ε α

namespace Program

def bind (c : Program σ ε α) (f : α → Program σ ε β) : Program σ ε β := fun s =>
  match (c s).result with
  | .error e => ⟨(c s).visited, .error e⟩
  | .ok a =>
    let o := f a ((c s).last s)
    ⟨(c s).visited ++ o.visited, o.result⟩

instance : Monad (Program σ ε) where
  pure a := fun _ => ⟨[], .ok a⟩
  bind := bind

/-- The durable state. -/
def get : Program σ ε σ := fun s => ⟨[], .ok s⟩

/-- A look at the durable state that can raise. -/
def observe (f : σ → Except ε α) : Program σ ε α := fun s => ⟨[], f s⟩

/-- One effect on the durable state. -/
def effect (f : σ → σ) : Program σ ε Unit := fun s => ⟨[f s], .ok ()⟩

def raise (e : ε) : Program σ ε α := fun _ => ⟨[], .error e⟩

/-- Raise unless the condition holds. -/
def ensure (p : Prop) [Decidable p] (e : ε) : Program σ ε Unit :=
  if p then pure () else raise e

/-- Run `cleanup` however `c` ends, and end as `c` did. -/
def afterwards (c : Program σ ε α) (cleanup : Program σ ε Unit) : Program σ ε α := fun s =>
  let o := c s
  let f := cleanup (o.last s)
  match f.result with
  | .error e => ⟨o.visited ++ f.visited, .error e⟩
  | .ok () => ⟨o.visited ++ f.visited, o.result⟩

/-- A program for a part of the durable state, as a program for the whole of it. -/
def zoom {τ ε' : Type} (part : σ → τ) (put : τ → σ → σ) (wrap : ε' → ε)
    (c : Program τ ε' α) : Program σ ε α := fun s =>
  let o := c (part s)
  ⟨o.visited.map fun t => put t s, o.result.mapError wrap⟩

/-! ### Looking does nothing -/

theorem get_bind (g : σ → Program σ ε β) (s : σ) : (get >>= g) s = g s s := rfl

theorem observe_bind {f : σ → Except ε α} {a : α} {s : σ} (h : f s = .ok a)
    (g : α → Program σ ε β) : (observe f >>= g) s = g a s := by
  show Program.bind (observe f) g s = g a s
  simp [Program.bind, observe, h, Outcome.last]

theorem observe_bind_error {f : σ → Except ε α} {e : ε} {s : σ} (h : f s = .error e)
    (g : α → Program σ ε β) : (observe f >>= g) s = ⟨[], .error e⟩ := by
  show Program.bind (observe f) g s = _
  simp [Program.bind, observe, h]

theorem ensure_bind {p : Prop} [Decidable p] (hp : p) (e : ε) (g : Unit → Program σ ε β) (s : σ) :
    (ensure p e >>= g) s = g () s := by
  unfold ensure
  rw [if_pos hp]
  rfl

theorem ensure_bind_of_not {p : Prop} [Decidable p] (hp : ¬ p) (e : ε)
    (g : Unit → Program σ ε β) (s : σ) : (ensure p e >>= g) s = ⟨[], .error e⟩ := by
  unfold ensure
  rw [if_neg hp]
  rfl

/-- The rest of a program starts where a part that returned has left the state. -/
theorem bind_of_ok {c : Program σ ε α} {s : σ} {visited : List σ} {a : α}
    (h : c s = ⟨visited, .ok a⟩) (g : α → Program σ ε β) :
    (c >>= g) s = ⟨visited ++ (g a (visited.getLastD s)).visited,
      (g a (visited.getLastD s)).result⟩ := by
  show Program.bind c g s = _
  simp [Program.bind, h, Outcome.last]

theorem bind_of_error {c : Program σ ε α} {s : σ} {visited : List σ} {e : ε}
    (h : c s = ⟨visited, .error e⟩) (g : α → Program σ ε β) :
    (c >>= g) s = ⟨visited, .error e⟩ := by
  show Program.bind c g s = _
  simp [Program.bind, h]

end Program

/-! ### Rules -/

section Rules

variable {I : σ → Prop} {Q : α → σ → Prop} {R : β → σ → Prop} {E : ε → σ → Prop} {s : σ}

/-- From `s`, every state the program visits satisfies `I`, the state it leaves satisfies `Q` with
    its value if it returns, and `E` with its error if it raises. -/
def Sat (I : σ → Prop) (c : Program σ ε α) (Q : α → σ → Prop) (E : ε → σ → Prop) (s : σ) : Prop :=
  (∀ t ∈ (c s).visited, I t) ∧
    match (c s).result with
    | .ok a => Q a ((c s).last s)
    | .error e => E e ((c s).last s)

theorem Sat.pure {a : α} (h : Q a s) : Sat I (pure a : Program σ ε α) Q E s :=
  ⟨fun _ ht => (List.not_mem_nil ht).elim, h⟩

theorem Sat.get {Q : σ → σ → Prop} (h : Q s s) : Sat I (Program.get : Program σ ε σ) Q E s :=
  ⟨fun _ ht => (List.not_mem_nil ht).elim, h⟩

theorem Sat.observe {f : σ → Except ε α} {a : α} (hf : f s = .ok a) (h : Q a s) :
    Sat I (Program.observe f) Q E s := by
  refine ⟨fun _ ht => (List.not_mem_nil ht).elim, ?_⟩
  show match f s with
    | .ok a => Q a s
    | .error e => E e s
  rw [hf]
  exact h

theorem Sat.refused {f : σ → Except ε α} {e : ε} (hf : f s = .error e) (h : E e s) :
    Sat I (Program.observe f) Q E s := by
  refine ⟨fun _ ht => (List.not_mem_nil ht).elim, ?_⟩
  show match f s with
    | .ok a => Q a s
    | .error e => E e s
  rw [hf]
  exact h

theorem Sat.effect {f : σ → σ} {Q : Unit → σ → Prop} (hI : I (f s)) (h : Q () (f s)) :
    Sat I (Program.effect f : Program σ ε Unit) Q E s := by
  refine ⟨?_, h⟩
  intro t ht
  have hsame : t = f s := by simpa [Program.effect] using ht
  exact hsame ▸ hI

theorem Sat.raise {e : ε} (h : E e s) : Sat I (Program.raise e : Program σ ε α) Q E s :=
  ⟨fun _ ht => (List.not_mem_nil ht).elim, h⟩

theorem Sat.ensure {p : Prop} [Decidable p] {e : ε} {Q : Unit → σ → Prop} (hq : p → Q () s)
    (he : ¬ p → E e s) : Sat I (Program.ensure p e : Program σ ε Unit) Q E s := by
  unfold Program.ensure
  by_cases hp : p
  · rw [if_pos hp]
    exact .pure (hq hp)
  · rw [if_neg hp]
    exact .raise (he hp)

theorem last_append (s : σ) (l : List σ) (o : Outcome σ ε α) :
    (l ++ o.visited).getLastD s = o.last (l.getLastD s) := by
  unfold Outcome.last
  cases ho : o.visited.getLast? with
  | none => simp [List.getLast?_eq_none_iff.mp ho]
  | some t => simp [List.getLastD_eq_getLast?, List.getLast?_append, ho]

/-- Sequencing: the rest of the program starts where the first part has left the state. -/
theorem Sat.bind {c : Program σ ε α} {f : α → Program σ ε β}
    (h : Sat I c (fun a t => Sat I (f a) R E t) E s) : Sat I (c >>= f) R E s := by
  obtain ⟨hvisited, hresult⟩ := h
  have heq : (c >>= f) s = Program.bind c f s := rfl
  unfold Sat
  rw [heq]
  unfold Program.bind
  cases hc : (c s).result with
  | error e =>
    rw [hc] at hresult
    exact ⟨hvisited, hresult⟩
  | ok a =>
    rw [hc] at hresult
    obtain ⟨hvisited', hresult'⟩ := hresult
    refine ⟨?_, ?_⟩
    · intro t ht
      rcases List.mem_append.mp ht with hfirst | hrest
      · exact hvisited t hfirst
      · exact hvisited' t hrest
    · have hlast : (Outcome.mk ((c s).visited ++ (f a ((c s).last s)).visited)
          (f a ((c s).last s)).result).last s = (f a ((c s).last s)).last ((c s).last s) :=
        last_append s _ _
      show match (f a ((c s).last s)).result with
        | .ok b => R b _
        | .error e => E e _
      rw [hlast]
      exact hresult'

/-- A program with its cleanup. -/
theorem Sat.afterwards {c : Program σ ε α} {cleanup : Program σ ε Unit}
    (h : Sat I c (fun a t => Sat I cleanup (fun _ u => Q a u) E t)
      (fun e t => Sat I cleanup (fun _ u => E e u) E t) s) :
    Sat I (c.afterwards cleanup) Q E s := by
  obtain ⟨hvisited, hresult⟩ := h
  have hlast : ∀ r : Except ε α, (Outcome.mk ((c s).visited ++ (cleanup ((c s).last s)).visited)
      r).last s = (cleanup ((c s).last s)).last ((c s).last s) :=
    fun r => last_append s _ (cleanup ((c s).last s))
  have hall : (∀ t ∈ (cleanup ((c s).last s)).visited, I t) →
      ∀ t ∈ (c s).visited ++ (cleanup ((c s).last s)).visited, I t := by
    intro hcleanup t ht
    rcases List.mem_append.mp ht with ht | ht
    · exact hvisited t ht
    · exact hcleanup t ht
  unfold Sat Program.afterwards
  cases hc : (c s).result with
  | ok a =>
    rw [hc] at hresult
    obtain ⟨hcleanup, hend⟩ := hresult
    cases hf : (cleanup ((c s).last s)).result with
    | ok u =>
      rw [hf] at hend
      refine ⟨by simpa [hf] using hall hcleanup, ?_⟩
      simp only [hf, hc, hlast]
      exact hend
    | error e =>
      rw [hf] at hend
      refine ⟨by simpa [hf] using hall hcleanup, ?_⟩
      simp only [hf, hlast]
      exact hend
  | error e =>
    rw [hc] at hresult
    obtain ⟨hcleanup, hend⟩ := hresult
    cases hf : (cleanup ((c s).last s)).result with
    | ok u =>
      rw [hf] at hend
      refine ⟨by simpa [hf] using hall hcleanup, ?_⟩
      simp only [hf, hc, hlast]
      exact hend
    | error e =>
      rw [hf] at hend
      refine ⟨by simpa [hf] using hall hcleanup, ?_⟩
      simp only [hf, hlast]
      exact hend

theorem last_zoom {τ ε' : Type} {part : σ → τ} {put : τ → σ → σ} {wrap : ε' → ε}
    {c : Program τ ε' α} (hput : put (part s) s = s) :
    (Program.zoom part put wrap c s).last s = put ((c (part s)).last (part s)) s := by
  unfold Outcome.last Program.zoom
  rw [List.getLastD_eq_getLast?, List.getLastD_eq_getLast?, List.getLast?_map]
  cases (c (part s)).visited.getLast? with
  | none => exact hput.symm
  | some t => rfl

/-- A program for a part of the state, where putting back what is there changes nothing. -/
theorem Sat.zoom {τ ε' : Type} {part : σ → τ} {put : τ → σ → σ} {wrap : ε' → ε}
    {c : Program τ ε' α} (hput : put (part s) s = s)
    (h : Sat (fun t => I (put t s)) c (fun a t => Q a (put t s)) (fun e t => E (wrap e) (put t s))
      (part s)) :
    Sat I (Program.zoom part put wrap c) Q E s := by
  obtain ⟨hvisited, hresult⟩ := h
  refine ⟨?_, ?_⟩
  · intro u hu
    obtain ⟨t, ht, rfl⟩ := List.mem_map.mp hu
    exact hvisited t ht
  · rw [last_zoom hput]
    unfold Program.zoom
    cases hc : (c (part s)).result with
    | ok a =>
      rw [hc] at hresult
      simp only [Except.mapError, hc]
      exact hresult
    | error e =>
      rw [hc] at hresult
      simp only [Except.mapError, hc]
      exact hresult

theorem Sat.mono {I' : σ → Prop} {Q' : α → σ → Prop} {E' : ε → σ → Prop} {c : Program σ ε α}
    (h : Sat I c Q E s) (hI : ∀ t, I t → I' t) (hQ : ∀ a t, Q a t → Q' a t)
    (hE : ∀ e t, E e t → E' e t) : Sat I' c Q' E' s := by
  obtain ⟨hvisited, hresult⟩ := h
  refine ⟨fun t ht => hI t (hvisited t ht), ?_⟩
  cases hc : (c s).result with
  | ok a =>
    rw [hc] at hresult
    exact hQ a _ hresult
  | error e =>
    rw [hc] at hresult
    exact hE e _ hresult

/-- How a program ends, with what it has visited. -/
theorem Sat.ends {c : Program σ ε α} (h : Sat I c Q E s) :
    (∃ visited a, c s = ⟨visited, .ok a⟩ ∧ (∀ t ∈ visited, I t) ∧ Q a (visited.getLastD s))
      ∨ ∃ visited e, c s = ⟨visited, .error e⟩ ∧ (∀ t ∈ visited, I t)
        ∧ E e (visited.getLastD s) := by
  obtain ⟨hvisited, hresult⟩ := h
  cases hc : c s with
  | mk visited result =>
    rw [hc] at hvisited hresult
    cases result with
    | ok a => exact .inl ⟨visited, a, rfl, hvisited, hresult⟩
    | error e => exact .inr ⟨visited, e, rfl, hvisited, hresult⟩

/-- A program that cannot raise returns. -/
theorem Sat.returns {c : Program σ ε α} (h : Sat I c Q (fun _ _ => False) s) :
    ∃ a, (c s).result = .ok a ∧ Q a ((c s).last s) := by
  obtain ⟨-, hresult⟩ := h
  cases hc : (c s).result with
  | ok a =>
    rw [hc] at hresult
    exact ⟨a, rfl, hresult⟩
  | error e =>
    rw [hc] at hresult
    exact hresult.elim

end Rules

/-! ### What a whole run does -/

/-- From `s` the program returns `a` and leaves `t`. -/
def Runs (c : Program σ ε α) (s : σ) (a : α) (t : σ) : Prop :=
  (c s).result = .ok a ∧ (c s).last s = t

section Runs

variable {s t : σ} {a : α} {b : β}

/-- What is shown of a program holds of a run that returns. -/
theorem Sat.of_runs {I : σ → Prop} {Q : α → σ → Prop} {E : ε → σ → Prop} {c : Program σ ε α}
    (h : Sat I c Q E s) (hruns : Runs c s a t) : Q a t := by
  obtain ⟨-, hend⟩ := h
  obtain ⟨hresult, rfl⟩ := hruns
  rw [hresult] at hend
  exact hend

theorem runs_pure {a' : α} : Runs (pure a : Program σ ε α) s a' t ↔ a = a' ∧ s = t := by
  show Except.ok a = .ok a' ∧ s = t ↔ _
  rw [Except.ok.injEq]

theorem runs_get {u : σ} : Runs (Program.get : Program σ ε σ) s u t ↔ s = u ∧ s = t := by
  show Except.ok s = .ok u ∧ s = t ↔ _
  rw [Except.ok.injEq]

theorem runs_observe {f : σ → Except ε α} :
    Runs (Program.observe f) s a t ↔ f s = .ok a ∧ s = t := Iff.rfl

theorem runs_effect {f : σ → σ} {u : Unit} :
    Runs (Program.effect f : Program σ ε Unit) s u t ↔ t = f s := by
  show Except.ok () = .ok u ∧ f s = t ↔ _
  rw [@eq_comm _ (f s) t]
  exact and_iff_right rfl

theorem runs_raise {e : ε} : ¬ Runs (Program.raise e : Program σ ε α) s a t := by
  rintro ⟨hresult, -⟩
  cases hresult

theorem runs_ensure {p : Prop} [Decidable p] {e : ε} {u : Unit} :
    Runs (Program.ensure p e : Program σ ε Unit) s u t ↔ p ∧ s = t := by
  unfold Program.ensure
  by_cases hp : p
  · rw [if_pos hp, runs_pure, and_iff_right hp, and_iff_right rfl]
  · rw [if_neg hp]
    exact iff_of_false runs_raise fun h => hp h.1

/-- **Sequencing.** The parts return one after the other. -/
theorem runs_bind {c : Program σ ε α} {f : α → Program σ ε β} :
    Runs (c >>= f) s b t ↔ ∃ a u, Runs c s a u ∧ Runs (f a) u b t := by
  show (Program.bind c f s).result = .ok b ∧ (Program.bind c f s).last s = t ↔ _
  unfold Program.bind
  cases hc : (c s).result with
  | error e =>
    simp only
    constructor
    · rintro ⟨hresult, -⟩
      cases hresult
    · rintro ⟨a, u, ⟨hresult, -⟩, -⟩
      rw [hc] at hresult
      cases hresult
  | ok a =>
    have hlast : (Outcome.mk ((c s).visited ++ (f a ((c s).last s)).visited)
        (f a ((c s).last s)).result).last s = (f a ((c s).last s)).last ((c s).last s) :=
      last_append s _ _
    simp only [hlast]
    constructor
    · rintro ⟨hresult, ht⟩
      exact ⟨a, _, ⟨hc, rfl⟩, hresult, ht⟩
    · rintro ⟨a', u, ⟨hresult, rfl⟩, hrest⟩
      rw [hc] at hresult
      cases hresult
      exact hrest

theorem runs_zoom {τ ε' : Type} {part : σ → τ} {put : τ → σ → σ} {wrap : ε' → ε}
    {c : Program τ ε' α} (hput : put (part s) s = s) :
    Runs (Program.zoom part put wrap c) s a t ↔ ∃ u, Runs c (part s) a u ∧ put u s = t := by
  unfold Runs
  rw [last_zoom hput, show (Program.zoom part put wrap c s).result
    = (c (part s)).result.mapError wrap from rfl]
  cases hc : (c (part s)).result with
  | error e =>
    constructor
    · rintro ⟨hresult, -⟩
      cases hresult
    · rintro ⟨_, ⟨hresult, -⟩, -⟩
      cases hresult
  | ok b =>
    show Except.ok b = .ok a ∧ _ ↔ _
    constructor
    · rintro ⟨hresult, ht⟩
      cases hresult
      exact ⟨_, ⟨rfl, rfl⟩, ht⟩
    · rintro ⟨_, ⟨hresult, rfl⟩, ht⟩
      cases hresult
      exact ⟨rfl, ht⟩

end Runs

/-! ### Preorders -/

/-- Every state the program visits or leaves is related to the one it starts in. -/
def Stays (R : σ → σ → Prop) (c : Program σ ε α) (s : σ) : Prop :=
  Sat (R s) c (fun _ => R s) (fun _ => R s) s

section Stays

variable {R : σ → σ → Prop} {c : Program σ ε α} {f : α → Program σ ε β} {s t : σ}

theorem Stays.of_pure (hrefl : ∀ s, R s s) {a : α} : Stays R (pure a : Program σ ε α) s :=
  .pure (hrefl s)

theorem Stays.of_get (hrefl : ∀ s, R s s) : Stays R (Program.get : Program σ ε σ) s :=
  .get (hrefl s)

theorem Stays.of_raise (hrefl : ∀ s, R s s) {e : ε} : Stays R (Program.raise e : Program σ ε α) s :=
  .raise (hrefl s)

theorem Stays.of_observe (hrefl : ∀ s, R s s) {g : σ → Except ε α} :
    Stays R (Program.observe g) s := by
  cases hg : g s with
  | ok a => exact .observe hg (hrefl s)
  | error e => exact .refused hg (hrefl s)

theorem Stays.of_ensure (hrefl : ∀ s, R s s) {p : Prop} [Decidable p] {e : ε} :
    Stays R (Program.ensure p e : Program σ ε Unit) s :=
  .ensure (fun _ => hrefl s) fun _ => hrefl s

theorem Stays.of_effect {g : σ → σ} (h : R s (g s)) :
    Stays R (Program.effect g : Program σ ε Unit) s :=
  .effect h h

/-- Sequencing along a preorder; the rest may use how the first part has ended. -/
theorem Stays.bind (htrans : ∀ {s t u}, R s t → R t u → R s u) (hc : Stays R c s)
    (hf : ∀ a t, Runs c s a t → Stays R (f a) t) : Stays R (c >>= f) s := by
  obtain ⟨hvisited, hresult⟩ := hc
  refine Sat.bind ⟨hvisited, ?_⟩
  cases hok : (c s).result with
  | error e =>
    rw [hok] at hresult
    exact hresult
  | ok a =>
    rw [hok] at hresult
    exact (hf a _ ⟨hok, rfl⟩).mono (fun _ => htrans hresult) (fun _ _ => htrans hresult)
      fun _ _ => htrans hresult

/-- What a run that returns leaves is related to where it started. -/
theorem Stays.of_runs {a : α} (h : Stays R c s) (hruns : Runs c s a t) : R s t :=
  Sat.of_runs (Q := fun _ => R s) h hruns

/-- A program for a part of the state, whose preorder the whole follows. -/
theorem Stays.zoom {τ ε' : Type} {part : σ → τ} {put : τ → σ → σ} {wrap : ε' → ε}
    {P : τ → τ → Prop} {d : Program τ ε' α} (hput : put (part s) s = s)
    (hpart : ∀ t, P (part s) t → R s (put t s)) (h : Stays P d (part s)) :
    Stays R (Program.zoom part put wrap d) s :=
  Sat.zoom hput (Sat.mono h hpart (fun _ => hpart) fun _ => hpart)

end Stays

/-! ### Programs up to their errors -/

/-- The programs differ at most in what they raise. -/
def Alike (c : Program σ ε α) (d : Program σ ε' α) : Prop :=
  ∀ s, (c s).visited = (d s).visited ∧ (c s).result.toOption = (d s).result.toOption

section Alike

variable {ε' : Type} {c : Program σ ε α} {d : Program σ ε' α} {s t : σ} {a : α}

theorem Alike.refl (c : Program σ ε α) : Alike c c := fun _ => ⟨rfl, rfl⟩

theorem Alike.raise {e : ε} {e' : ε'} :
    Alike (Program.raise e : Program σ ε α) (Program.raise e' : Program σ ε' α) :=
  fun _ => ⟨rfl, rfl⟩

theorem Alike.ensure {p : Prop} [Decidable p] {e : ε} {e' : ε'} :
    Alike (Program.ensure p e : Program σ ε Unit) (Program.ensure p e' : Program σ ε' Unit) := by
  intro s
  unfold Program.ensure
  split <;> exact ⟨rfl, rfl⟩

theorem Alike.bind {f : α → Program σ ε β} {g : α → Program σ ε' β} (hc : Alike c d)
    (hf : ∀ a, Alike (f a) (g a)) : Alike (c >>= f) (d >>= g) := by
  intro s
  obtain ⟨hvisited, hresult⟩ := hc s
  show (Program.bind c f s).visited = (Program.bind d g s).visited ∧ (Program.bind c f s).result.toOption
    = (Program.bind d g s).result.toOption
  have hlast : (c s).last s = (d s).last s := congrArg (·.getLastD s) hvisited
  unfold Program.bind
  cases hok : (c s).result with
  | error e =>
    rw [hok] at hresult
    cases hok' : (d s).result with
    | error e' => exact ⟨hvisited, rfl⟩
    | ok a =>
      rw [hok'] at hresult
      cases hresult
  | ok a =>
    rw [hok] at hresult
    cases hok' : (d s).result with
    | error e' =>
      rw [hok'] at hresult
      cases hresult
    | ok b =>
      rw [hok'] at hresult
      cases hresult
      obtain ⟨hrest, hend⟩ := hf a ((c s).last s)
      simp only [hvisited, ← hlast, hrest, hend, and_self]

/-- A specification that does not look at the errors carries across. -/
theorem Alike.sat {I P : σ → Prop} {Q : α → σ → Prop} (h : Alike c d)
    (hd : Sat I d Q (fun _ => P) s) : Sat I c Q (fun _ => P) s := by
  obtain ⟨hvisited, hresult⟩ := h s
  obtain ⟨hinvariant, hend⟩ := hd
  have hlast : (c s).last s = (d s).last s := congrArg (·.getLastD s) hvisited
  refine ⟨hvisited ▸ hinvariant, ?_⟩
  rw [hlast]
  cases hok : (c s).result with
  | error e =>
    rw [hok] at hresult
    cases hok' : (d s).result with
    | error e' =>
      rw [hok'] at hend
      exact hend
    | ok a =>
      rw [hok'] at hresult
      cases hresult
  | ok a =>
    rw [hok] at hresult
    cases hok' : (d s).result with
    | error e' =>
      rw [hok'] at hresult
      cases hresult
    | ok b =>
      rw [hok'] at hresult hend
      cases hresult
      exact hend

theorem Alike.runs_iff (h : Alike c d) : Runs c s a t ↔ Runs d s a t := by
  obtain ⟨hvisited, hresult⟩ := h s
  have hlast : (c s).last s = (d s).last s := congrArg (·.getLastD s) hvisited
  unfold Runs
  rw [hlast]
  refine and_congr_left fun _ => ?_
  cases hok : (c s).result with
  | error e =>
    rw [hok] at hresult
    cases hok' : (d s).result with
    | error e' => exact iff_of_false nofun nofun
    | ok a =>
      rw [hok'] at hresult
      cases hresult
  | ok a =>
    rw [hok] at hresult
    cases hok' : (d s).result with
    | error e' =>
      rw [hok'] at hresult
      cases hresult
    | ok b =>
      rw [hok'] at hresult
      cases hresult
      rw [Except.ok.injEq, Except.ok.injEq]

theorem Alike.stays {R : σ → σ → Prop} (h : Alike c d) (hd : Stays R d s) : Stays R c s :=
  h.sat hd

end Alike

/-! ### States that are visited -/

section Visited

variable {c : Program σ ε α} {f : α → Program σ ε β} {a : α} {s t : σ}

theorem visited_bind (h : t ∈ (c s).visited) : t ∈ ((c >>= f) s).visited := by
  show t ∈ (Program.bind c f s).visited
  unfold Program.bind
  split
  · exact h
  · exact List.mem_append_left _ h

theorem visited_bind_ok (hc : (c s).result = .ok a) (h : t ∈ (f a ((c s).last s)).visited) :
    t ∈ ((c >>= f) s).visited := by
  show t ∈ (Program.bind c f s).visited
  unfold Program.bind
  rw [hc]
  exact List.mem_append_right _ h

/-- The rest of a program visits its states once the first part has returned. -/
theorem visited_bind_runs {u : σ} (hc : Runs c s a u) (h : t ∈ (f a u).visited) :
    t ∈ ((c >>= f) s).visited :=
  visited_bind_ok hc.1 (hc.2 ▸ h)

theorem visited_afterwards {cleanup : Program σ ε Unit} (h : t ∈ (c s).visited) :
    t ∈ (c.afterwards cleanup s).visited := by
  unfold Program.afterwards
  cases hf : (cleanup ((c s).last s)).result <;> simp only [hf] <;> exact List.mem_append_left _ h

/-- The state a program leaves is the one it found, or it was visited. -/
theorem last_mem_visited (o : Outcome σ ε α) (h : o.last s ≠ s) : o.last s ∈ o.visited := by
  unfold Outcome.last at h ⊢
  rw [List.getLastD_eq_getLast?] at h ⊢
  cases hlast : o.visited.getLast? with
  | none =>
    rw [hlast] at h
    exact absurd rfl h
  | some u => exact List.mem_of_getLast? hlast

/-- A run that changes the state has visited what it leaves. -/
theorem mem_visited_of_runs (h : Runs c s a t) (hne : t ≠ s) : t ∈ (c s).visited := by
  have hlast : (c s).last s = t := h.2
  have hmem := last_mem_visited (c s) (hlast ▸ hne)
  rwa [hlast] at hmem

end Visited

/-! ### Killed processes -/

/-- The states that runs of the programs can leave, each killed after any of its effects.  `ok` says
    which runs are possible in a state. -/
def Interrupted (ok : σ → ι → Prop) (c : ι → Program σ ε α) : σ → σ → Prop :=
  Relation.ReflTransGen fun s t => ∃ i, ok s i ∧ t ∈ (c i s).visited

/-- **Invariant rule.** What holds at the start and in every state that a run from such a state
    visits holds after any number of killed runs. -/
theorem Interrupted.invariant {ok : σ → ι → Prop} {c : ι → Program σ ε α} {s t : σ}
    {I : σ → Prop} (h : Interrupted ok c s t) (hstart : I s)
    (hvisited : ∀ i u, I u → ok u i → ∀ v ∈ (c i u).visited, I v) : I t := by
  induction h with
  | refl => exact hstart
  | tail _ hstep ih =>
    obtain ⟨i, hok, hmem⟩ := hstep
    exact hvisited i _ ih hok _ hmem

/-- What every run keeps, any number of killed runs keep. -/
theorem Interrupted.stays {ok : σ → ι → Prop} {c : ι → Program σ ε α} {R : σ → σ → Prop} {s t : σ}
    (h : Interrupted ok c s t) (hrefl : ∀ s, R s s) (htrans : ∀ {s t u}, R s t → R t u → R s u)
    (hstep : ∀ i u, ok u i → Stays R (c i) u) : R s t :=
  h.invariant (hrefl s) fun i u hu hok v hv => htrans hu ((hstep i u hok).1 v hv)

end Crash
