import Mathlib.Data.List.Forall2

namespace Looking

/-!
# Programs that look at a world others change

A program looks at a world again and again; between two looks the world may become another one any
number of times.  The worlds are numbered by the moments at which they are there.

* `Program`, `Attempt`: programs that look, and such that may fail.
* `Runs`: a program started at one moment ends at another with a result.
* `Program.eval`: the result in a world that stands still; `Runs.eval_eq` is the rule for a part of a
  program that finds everything it looks at unchanged.
* `NoReturn`: something in the world does not come back to an earlier value; `NoReturn.eq_between`
  is the rule for two equal looks at it.
-/

universe u

/-- A program that looks at a world of type `W`, one look at a time. -/
inductive Program (W : Type u) (α : Type u) where
  | done (a : α)
  | look (k : W → Program W α)

namespace Program

variable {W V α β : Type}

/-- Go on with the result. -/
def bind : Program W α → (α → Program W β) → Program W β
  | .done a, f => f a
  | .look k, f => .look fun w => (k w).bind f

instance : Monad (Program W) where
  pure := .done
  bind := bind

theorem bind_assoc (p : Program W α) {γ : Type} (f : α → Program W β) (g : β → Program W γ) :
    p >>= f >>= g = p >>= fun a => f a >>= g := by
  induction p with
  | done a => rfl
  | look k ih => exact congrArg Program.look (funext ih)

theorem bind_pure (p : Program W α) : p >>= pure = p := by
  induction p with
  | done a => rfl
  | look k ih => exact congrArg Program.look (funext ih)

instance : LawfulMonad (Program W) :=
  LawfulMonad.mk' _ bind_pure (fun _ _ => rfl) fun p f g => bind_assoc p f g

/-- A look at one thing in the world. -/
def view (q : W → α) : Program W α := .look fun w => .done (q w)

/-- A program for a part of the world, as a program for the whole. -/
def focus (v : W → V) : Program V α → Program W α
  | .done a => .done a
  | .look k => .look fun w => (k (v w)).focus v

/-- The result when the world does not change. -/
def eval (w : W) : Program W α → α
  | .done a => a
  | .look k => (k w).eval w

/-- The result, and the moment of the end, when each look waits as long as the schedule says. -/
def exec (moment : ℕ → W) : Program W α → List ℕ → ℕ → α × ℕ
  | .done a, _, s => (a, s)
  | .look k, [], s => (k (moment s)).exec moment [] s
  | .look k, n :: waits, s => (k (moment (s + n))).exec moment waits (s + n)

@[simp] theorem eval_pure (w : W) (a : α) : eval w (pure a : Program W α) = a := rfl

@[simp] theorem eval_view (w : W) (q : W → α) : eval w (view q) = q w := rfl

@[simp] theorem eval_bind (w : W) (p : Program W α) (f : α → Program W β) :
    eval w (p >>= f) = eval w (f (eval w p)) := by
  induction p with
  | done a => rfl
  | look k ih => exact ih w

@[simp] theorem eval_focus (w : W) (v : W → V) (p : Program V α) :
    eval w (p.focus v) = eval (v w) p := by
  induction p with
  | done a => rfl
  | look k ih => exact ih (v w)

end Program

/-! ### Runs -/

variable {W V α β ε : Type} {moment : ℕ → W}

/-- The program, started at a moment, ends with a result at a later one.  Between its looks it waits
    as long as the others want. -/
inductive Runs (moment : ℕ → W) : Program W α → ℕ → α → ℕ → Prop
  | done {a : α} {s : ℕ} : Runs moment (.done a) s a s
  | look {k : W → Program W α} {s e : ℕ} {a : α} (h : Runs moment (k (moment s)) s a e) :
    Runs moment (.look k) s a e
  | wait {p : Program W α} {s e : ℕ} {a : α} (h : Runs moment p (s + 1) a e) : Runs moment p s a e

namespace Runs

theorem le {p : Program W α} {s e : ℕ} {a : α} (h : Runs moment p s a e) : s ≤ e := by
  induction h with
  | done => exact Nat.le_refl _
  | look _ ih => exact ih
  | wait _ ih => omega

/-- Waiting before the program. -/
theorem waits {p : Program W α} {s t e : ℕ} {a : α} (hst : s ≤ t) (h : Runs moment p t a e) :
    Runs moment p s a e := by
  obtain ⟨n, rfl⟩ := Nat.exists_eq_add_of_le hst
  induction n with
  | zero => exact h
  | succ n ih => exact ih (Nat.le_add_right s n) h.wait

/-- Waiting after the program. -/
theorem extend {p : Program W α} {s e f : ℕ} {a : α} (h : Runs moment p s a e) (hef : e ≤ f) :
    Runs moment p s a f := by
  induction h with
  | done => exact waits hef .done
  | look _ ih => exact .look (ih hef)
  | wait _ ih => exact .wait (ih hef)

theorem bind_iff {p : Program W α} {f : α → Program W β} {s e : ℕ} {b : β} :
    Runs moment (p >>= f) s b e ↔ ∃ a m, Runs moment p s a m ∧ Runs moment (f a) m b e := by
  constructor
  · intro h
    generalize hq : (p >>= f) = q at h
    -- A program that is done leaves the whole run to the second part.
    induction h generalizing p with
    | done =>
      cases p with
      | done a => exact ⟨a, _, .done, by rw [show f a = _ from hq]; exact .done⟩
      | look k => cases hq
    | look hrest ih =>
      cases p with
      | done a => exact ⟨a, _, .done, by rw [show f a = _ from hq]; exact .look hrest⟩
      | look k =>
        cases hq
        obtain ⟨a, m, hp, hf⟩ := ih rfl
        exact ⟨a, m, .look hp, hf⟩
    | wait hrest ih =>
      obtain ⟨a, m, hp, hf⟩ := ih hq
      exact ⟨a, m, .wait hp, hf⟩
  · rintro ⟨a, m, hp, hf⟩
    induction hp with
    | done => exact hf
    | look _ ih => exact .look (ih hf)
    | wait _ ih => exact .wait (ih hf)

theorem pure_iff {a b : α} {s e : ℕ} :
    Runs moment (pure a : Program W α) s b e ↔ b = a ∧ s ≤ e := by
  constructor
  · intro h
    generalize hq : (pure a : Program W α) = q at h
    induction h with
    | done => cases hq; exact ⟨rfl, Nat.le_refl _⟩
    | look _ _ => cases hq
    | wait _ ih => exact ⟨(ih hq).1, Nat.le_of_succ_le (ih hq).2⟩
  · rintro ⟨rfl, hle⟩
    exact .waits hle .done

/-- A look finds what is there at some moment. -/
theorem view_iff {q : W → α} {s e : ℕ} {a : α} :
    Runs moment (Program.view q) s a e ↔ ∃ t, s ≤ t ∧ t ≤ e ∧ a = q (moment t) := by
  constructor
  · intro h
    generalize hq : Program.view q = p at h
    induction h with
    | done => cases hq
    | look hrest ih =>
      cases hq
      obtain ⟨rfl, hle⟩ := pure_iff.mp hrest
      exact ⟨_, Nat.le_refl _, hle, rfl⟩
    | wait _ ih =>
      obtain ⟨t, hs, he, ha⟩ := ih hq
      exact ⟨t, by omega, he, ha⟩
  · rintro ⟨t, hs, he, rfl⟩
    exact .waits hs (.look (pure_iff.mpr ⟨rfl, he⟩))

/-- A program for a part runs on the part as it is at each moment. -/
theorem focus_iff {v : W → V} {p : Program V α} {s e : ℕ} {a : α} :
    Runs moment (p.focus v) s a e ↔ Runs (fun t => v (moment t)) p s a e := by
  constructor
  · intro h
    generalize hq : p.focus v = q at h
    induction h generalizing p with
    | done =>
      cases p with
      | done b => cases hq; exact .done
      | look k => cases hq
    | look _ ih =>
      cases p with
      | done b => cases hq
      | look k => cases hq; exact .look (ih rfl)
    | wait _ ih => exact .wait (ih hq)
  · intro h
    induction h with
    | done => exact .done
    | look _ ih => exact .look ih
    | wait _ ih => exact .wait ih

/-- **A world that stands still.** While nothing changes, the result is the one of a program that
    runs at once. -/
theorem eval_eq {p : Program W α} {s e : ℕ} {a : α} {w : W} (h : Runs moment p s a e)
    (hstill : ∀ t, s ≤ t → t ≤ e → moment t = w) : a = p.eval w := by
  induction h with
  | done => rfl
  | @look k s e a hrest ih =>
    have hhere : moment s = w := hstill s (Nat.le_refl s) hrest.le
    rw [ih hstill, hhere]
    rfl
  | wait _ ih => exact ih fun t hs he => hstill t (by omega) he

/-- The run in which the program waits before each look as long as the schedule says. -/
theorem of_exec {p : Program W α} {waits : List ℕ} {s : ℕ} :
    Runs moment p s (p.exec moment waits s).1 (p.exec moment waits s).2 := by
  induction p generalizing waits s with
  | done a => exact .done
  | look k ih =>
    cases waits with
    | nil => exact .look (ih _)
    | cons n waits => exact .waits (Nat.le_add_right s n) (.look (ih _))

end Runs

/-! ### Programs that may fail -/

/-- A program that ends with a result or with an error. -/
abbrev Attempt (ε W α : Type) := ExceptT ε (Program W) α

namespace Attempt

/-- A look. -/
def view (q : W → α) : Attempt ε W α := ExceptT.lift (Program.view q)

/-- A look whose answer may be an error. -/
def ask (q : W → Except ε α) : Attempt ε W α := ExceptT.mk (Program.view q)

/-- A program for a part of the world. -/
def focus (v : W → V) (p : Attempt ε V α) : Attempt ε W α := ExceptT.mk (p.run.focus v)

/-- A result that is there already. -/
def ofExcept (result : Except ε α) : Attempt ε W α := ExceptT.mk (pure result)

/-- Both endings, as a result. -/
def outcome (p : Attempt ε W α) : Attempt ε W (Except ε α) := ExceptT.lift p.run

/-- The result in a world that does not change. -/
def eval (w : W) (p : Attempt ε W α) : Except ε α := p.run.eval w

/-- The attempt ends with a result. -/
def Returns (moment : ℕ → W) (p : Attempt ε W α) (s : ℕ) (a : α) (e : ℕ) : Prop :=
  Runs moment p.run s (.ok a) e

theorem Returns.le {p : Attempt ε W α} {s e : ℕ} {a : α} (h : p.Returns moment s a e) : s ≤ e :=
  Runs.le h

theorem returns_bind {p : Attempt ε W α} {f : α → Attempt ε W β} {s e : ℕ} {b : β} :
    (p >>= f).Returns moment s b e ↔
      ∃ a m, p.Returns moment s a m ∧ (f a).Returns moment m b e := by
  unfold Returns
  rw [ExceptT.run_bind, Runs.bind_iff]
  constructor
  · rintro ⟨result, m, hp, hf⟩
    cases result with
    | ok a => exact ⟨a, m, hp, hf⟩
    | error err => exact absurd (Runs.pure_iff.mp hf).1 nofun
  · rintro ⟨a, m, hp, hf⟩
    exact ⟨.ok a, m, hp, hf⟩

theorem returns_pure {a b : α} {s e : ℕ} :
    (pure a : Attempt ε W α).Returns moment s b e ↔ b = a ∧ s ≤ e := by
  unfold Returns
  rw [ExceptT.run_pure, Runs.pure_iff]
  simp

theorem not_returns_throw {err : ε} {s e : ℕ} {a : α} :
    ¬ (throw err : Attempt ε W α).Returns moment s a e := by
  unfold Returns
  rw [ExceptT.run_throw, Runs.pure_iff]
  simp

/-- The result of a part that cannot fail. -/
theorem returns_lift {p : Program W α} {s e : ℕ} {a : α} :
    @Returns W α ε moment (ExceptT.lift p) s a e ↔ Runs moment p s a e := by
  unfold Returns
  rw [ExceptT.run_lift, map_eq_pure_bind, Runs.bind_iff]
  constructor
  · rintro ⟨b, m, hp, hpure⟩
    obtain ⟨heq, hle⟩ := Runs.pure_iff.mp hpure
    cases heq
    exact hp.extend hle
  · intro h
    exact ⟨a, e, h, Runs.pure_iff.mpr ⟨rfl, Nat.le_refl e⟩⟩

theorem returns_view {q : W → α} {s e : ℕ} {a : α} :
    (view q : Attempt ε W α).Returns moment s a e ↔ ∃ t, s ≤ t ∧ t ≤ e ∧ a = q (moment t) :=
  returns_lift.trans Runs.view_iff

theorem returns_ask {q : W → Except ε α} {s e : ℕ} {a : α} :
    (ask q).Returns moment s a e ↔ ∃ t, s ≤ t ∧ t ≤ e ∧ q (moment t) = .ok a := by
  unfold Returns ask
  rw [ExceptT.run_mk, Runs.view_iff]
  simp only [eq_comm]

theorem returns_outcome {p : Attempt ε W α} {s e : ℕ} {result : Except ε α} :
    p.outcome.Returns moment s result e ↔ Runs moment p.run s result e :=
  returns_lift

theorem returns_ofExcept {result : Except ε α} {s e : ℕ} {a : α} :
    (ofExcept result).Returns moment s a e ↔ result = .ok a ∧ s ≤ e := by
  unfold Returns ofExcept
  rw [ExceptT.run_mk, Runs.pure_iff, eq_comm]

/-- Each step of a loop ends with its part of the results, inside the loop. -/
theorem returns_mapM {f : α → Attempt ε W β} {xs : List α} {ys : List β} {s e : ℕ}
    (h : (xs.mapM f).Returns moment s ys e) :
    List.Forall₂ (fun x y => ∃ s' e', s ≤ s' ∧ e' ≤ e ∧ (f x).Returns moment s' y e') xs ys := by
  induction xs generalizing ys s e with
  | nil =>
    rw [List.mapM_nil] at h
    obtain ⟨rfl, -⟩ := returns_pure.mp h
    exact .nil
  | cons x xs ih =>
    rw [List.mapM_cons] at h
    obtain ⟨y, m, hx, h⟩ := returns_bind.mp h
    obtain ⟨ys', m', hxs, h⟩ := returns_bind.mp h
    obtain ⟨rfl, hle⟩ := returns_pure.mp h
    have hm := hx.le
    have hm' := hxs.le
    refine .cons ⟨s, m, Nat.le_refl s, by omega, hx⟩ ((ih hxs).imp ?_)
    rintro x' y' ⟨s', e', hs, he, hf⟩
    exact ⟨s', e', by omega, by omega, hf⟩

/-- A failure is one of the first part or of the second. -/
theorem runs_bind_error {p : Attempt ε W α} {f : α → Attempt ε W β} {s e : ℕ} {err : ε}
    (h : Runs moment (p >>= f).run s (.error err) e) :
    (∃ m, m ≤ e ∧ Runs moment p.run s (.error err) m)
      ∨ ∃ a m, p.Returns moment s a m ∧ Runs moment (f a).run m (.error err) e := by
  rw [ExceptT.run_bind, Runs.bind_iff] at h
  obtain ⟨result, m, hp, hf⟩ := h
  cases result with
  | ok a => exact .inr ⟨a, m, hp, hf⟩
  | error err' =>
    obtain ⟨heq, hle⟩ := Runs.pure_iff.mp hf
    cases heq
    exact .inl ⟨m, hle, hp⟩

theorem not_runs_view_error {q : W → α} {s e : ℕ} {err : ε} :
    ¬ Runs moment (view q : Attempt ε W α).run s (.error err) e := by
  unfold view
  rw [ExceptT.run_lift, map_eq_pure_bind, Runs.bind_iff]
  rintro ⟨a, m, -, h⟩
  exact absurd (Runs.pure_iff.mp h).1 nofun

theorem focus_iff {v : W → V} {p : Attempt ε V α} {s e : ℕ} {result : Except ε α} :
    Runs moment (p.focus v).run s result e ↔ Runs (fun t => v (moment t)) p.run s result e := by
  unfold focus
  rw [ExceptT.run_mk]
  exact Runs.focus_iff

section Eval

variable {w : W}

@[simp] theorem eval_pure (a : α) : eval w (pure a : Attempt ε W α) = .ok a := rfl

@[simp] theorem eval_throw (err : ε) : eval w (throw err : Attempt ε W α) = .error err := rfl

@[simp] theorem eval_view (q : W → α) : eval w (view q : Attempt ε W α) = .ok (q w) := rfl

@[simp] theorem eval_ask (q : W → Except ε α) : eval w (ask q) = q w := rfl

@[simp] theorem eval_ofExcept (result : Except ε α) : eval w (ofExcept result) = result := rfl

@[simp] theorem eval_bind (p : Attempt ε W α) (f : α → Attempt ε W β) :
    eval w (p >>= f) = (eval w p >>= fun a => eval w (f a)) := by
  unfold eval
  rw [ExceptT.run_bind, Program.eval_bind]
  cases Program.eval w p.run <;> rfl

/-- A look is done at once. -/
theorem eval_view_bind (q : W → α) (f : α → Attempt ε W β) :
    eval w (view q >>= f) = eval w (f (q w)) := rfl

@[simp] theorem eval_mapM (f : α → Attempt ε W β) (xs : List α) :
    eval w (xs.mapM f) = xs.mapM fun x => eval w (f x) := by
  induction xs with
  | nil => rfl
  | cons x xs ih =>
    rw [List.mapM_cons, List.mapM_cons, eval_bind]
    congr 1
    funext y
    rw [eval_bind, ih]
    congr 1

@[simp] theorem eval_outcome (p : Attempt ε W α) : eval w p.outcome = .ok (eval w p) := by
  unfold eval outcome
  rw [ExceptT.run_lift, map_eq_pure_bind, Program.eval_bind]
  rfl

@[simp] theorem eval_focus (v : W → V) (p : Attempt ε V α) :
    eval w (p.focus v) = eval (v w) p := Program.eval_focus w v p.run

end Eval

end Attempt

/-! ### Two looks at one thing -/

/-- Between two moments, what `q` sees does not come back to an earlier value. -/
def NoReturn (moment : ℕ → W) (s e : ℕ) (q : W → α) : Prop :=
  ∀ i j k, s ≤ i → i ≤ j → j ≤ k → k ≤ e → q (moment i) = q (moment k) → q (moment j) = q (moment i)

/-- **Double look.** Two equal looks at a thing that does not come back have seen all of it that was
    there in between. -/
theorem NoReturn.eq_between {q : W → α} {s e i k : ℕ} (h : NoReturn moment s e q) (j : ℕ)
    (heq : q (moment i) = q (moment k)) (horder : s ≤ i ∧ i ≤ j ∧ j ≤ k ∧ k ≤ e) :
    q (moment j) = q (moment i) :=
  h i j k horder.1 horder.2.1 horder.2.2.1 horder.2.2.2 heq

/-- What changes once does not come back. -/
theorem NoReturn.of_once {q : W → α} {s e n : ℕ} {a b : α}
    (h : ∀ t, q (moment t) = if n < t then b else a) : NoReturn moment s e q := by
  intro i j k _ hij hjk _ heq
  rw [h, h] at heq ⊢
  by_cases hi : n < i
  · rw [if_pos hi, if_pos (by omega)]
  · rw [if_neg hi] at heq ⊢
    by_cases hj : n < j
    · rw [if_pos hj]
      rw [if_pos (by omega)] at heq
      exact heq.symm
    · rw [if_neg hj]

end Looking
