import Mathlib.Data.String.Basic

/-!
# Dictionaries with string keys

A small dictionary as an association list, with the three operations a durable record needs and
the equations that describe them key by key.
-/

/-- A dictionary; the first entry of a key is the one that counts. -/
abbrev Dict (α : Type) := List (String × α)

namespace Dict

variable {α : Type}

/-- `d.get(key)`. -/
def get (d : Dict α) (key : String) : Option α := d.lookup key

/-- `{**d, key: value}`. -/
def set (d : Dict α) (key : String) (value : α) : Dict α := (key, value) :: d.filter (·.1 != key)

/-- `d` without `key`. -/
def erase (d : Dict α) (key : String) : Dict α := d.filter (·.1 != key)

theorem get_erase_self (d : Dict α) (key : String) : get (erase d key) key = none := by
  induction d with
  | nil => rfl
  | cons p d ih =>
    rcases p with ⟨k, v⟩
    by_cases hk : k = key
    · subst hk
      simpa [get, erase] using ih
    · simpa [get, erase, hk, List.lookup_cons, beq_eq_false_iff_ne.mpr (Ne.symm hk)] using ih

theorem erase_of_get_eq_none {d : Dict α} {key : String} (h : get d key = none) :
    erase d key = d := by
  refine List.filter_eq_self.mpr fun entry hentry => ?_
  have hne : (key == entry.1) = false := by simpa using List.lookup_eq_none_iff.mp h entry hentry
  exact bne_iff_ne.mpr fun heq => ne_of_beq_false hne heq.symm

theorem get_erase_of_ne (d : Dict α) {key other : String} (h : other ≠ key) :
    get (erase d key) other = get d other := by
  induction d with
  | nil => rfl
  | cons p d ih =>
    rcases p with ⟨k, v⟩
    by_cases hk : k = key
    · subst hk
      simpa [get, erase, List.lookup_cons, beq_eq_false_iff_ne.mpr h] using ih
    · by_cases ho : other = k
      · subst ho
        simp [get, erase, hk]
      · simpa [get, erase, hk, List.lookup_cons, beq_eq_false_iff_ne.mpr ho] using ih

@[simp] theorem get_set_self (d : Dict α) (key : String) (value : α) :
    get (set d key value) key = some value := by
  simp [get, set]

theorem get_set_of_ne (d : Dict α) {key other : String} (value : α) (h : other ≠ key) :
    get (set d key value) other = get d other := by
  rw [← get_erase_of_ne d h]
  simp [get, set, erase, List.lookup_cons, beq_eq_false_iff_ne.mpr h]

/-- A key that is less than the keys of an ordered dictionary is not in it. -/
theorem get_eq_none_of_lt {d : Dict α} {key : String} (h : ∀ p ∈ d, key < p.1) :
    get d key = none := by
  induction d with
  | nil => rfl
  | cons p d ih =>
    have hne : key ≠ p.1 := ne_of_lt (h p List.mem_cons_self)
    rw [get, List.lookup_cons, beq_eq_false_iff_ne.mpr hne]
    exact ih fun q hq => h q (List.mem_cons_of_mem p hq)

/-- A key that an ordered dictionary has is its first one or more. -/
theorem le_of_get_isSome {p : String × α} {d : Dict α} {key : String}
    (h : (p :: d).Pairwise fun a b => a.1 < b.1) (hget : (get (p :: d) key).isSome) :
    p.1 ≤ key := by
  by_contra hlt
  have hnone : get (p :: d) key = none := by
    refine get_eq_none_of_lt fun q hq => ?_
    rcases List.mem_cons.mp hq with rfl | hq
    · exact not_le.mp hlt
    · exact (not_le.mp hlt).trans ((List.pairwise_cons.mp h).1 q hq)
  rw [hnone] at hget
  exact absurd hget nofun

@[simp] theorem get_cons_self (key : String) (value : α) (d : Dict α) :
    get ((key, value) :: d) key = some value := by
  simp [get]

/-- An entry of an ordered dictionary is what its key stands for. -/
theorem get_of_mem {d : Dict α} {p : String × α} (h : d.Pairwise fun a b => a.1 < b.1)
    (hp : p ∈ d) : get d p.1 = some p.2 := by
  induction d with
  | nil => exact absurd hp List.not_mem_nil
  | cons q d ih =>
    obtain ⟨hlt, hrest⟩ := List.pairwise_cons.mp h
    rcases List.mem_cons.mp hp with rfl | hp
    · exact get_cons_self p.1 p.2 d
    · have hne : p.1 ≠ q.1 := ne_of_gt (hlt p hp)
      rw [get, List.lookup_cons, beq_eq_false_iff_ne.mpr hne]
      exact ih hrest hp

/-- **Ordered dictionaries.** They are equal when they say the same under every key. -/
theorem eq_of_pairwise {d d' : Dict α} (h : d.Pairwise fun a b => a.1 < b.1)
    (h' : d'.Pairwise fun a b => a.1 < b.1) (hget : ∀ key, get d key = get d' key) : d = d' := by
  induction d generalizing d' with
  | nil =>
    cases d' with
    | nil => rfl
    | cons p d' =>
      have hfirst := hget p.1
      rw [get_cons_self] at hfirst
      exact absurd hfirst nofun
  | cons p d ih =>
    cases d' with
    | nil =>
      have hfirst := hget p.1
      rw [get_cons_self] at hfirst
      exact absurd hfirst nofun
    | cons p' d' =>
      obtain ⟨key, value⟩ := p
      obtain ⟨key', value'⟩ := p'
      have hle : key' ≤ key := le_of_get_isSome h' (by rw [← hget, get_cons_self]; rfl)
      have hle' : key ≤ key' := le_of_get_isSome h (by rw [hget, get_cons_self]; rfl)
      obtain rfl : key = key' := le_antisymm hle' hle
      have hvalue := hget key
      rw [get_cons_self, get_cons_self] at hvalue
      obtain ⟨hlt, hrest⟩ := List.pairwise_cons.mp h
      obtain ⟨hlt', hrest'⟩ := List.pairwise_cons.mp h'
      have htail : d = d' := by
        refine ih hrest hrest' fun k => ?_
        have hk := hget k
        by_cases heq : k = key
        · subst heq
          rw [get_eq_none_of_lt hlt, get_eq_none_of_lt hlt']
        · simpa [get, List.lookup_cons, beq_eq_false_iff_ne.mpr heq] using hk
      rw [Option.some.inj hvalue, htail]

end Dict
