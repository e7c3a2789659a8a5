import Mathlib.Data.Int.Interval
import Mathlib.Data.List.Basic
import Mathlib.Tactic.Common

namespace Octets

/-!
# Slices and numbers in octet strings

* `slice`: the part between two positions, where a negative position counts from the end.
* `littleEndian` / `ofLittleEndian`: a number in a fixed number of octets.
* `length_le_of_nodup_Ico`: different positions in an interval are no more than its length.
-/

variable {α : Type*}

/-! ### Slices -/

/-- Where a slice bound stands in `length` elements: a negative one counts from the end, and one
    outside is moved to the next end. -/
def bound (length : Nat) (i : Int) : Nat :=
  if i < 0 then (i + length).toNat else min i.toNat length

/-- `data[start:stop]`. -/
def slice (data : List α) (start stop : Int) : List α :=
  (data.take (bound data.length stop)).drop (bound data.length start)

theorem bound_natCast {length i : Nat} (h : i ≤ length) : bound length i = i := by
  have hnonneg : ¬ (i : Int) < 0 := by omega
  rw [bound, if_neg hnonneg, Int.toNat_natCast, Nat.min_eq_left h]

/-- Between two positions that are inside, a slice is what stands between them. -/
theorem slice_natCast {data : List α} {start stop : Nat} (hle : start ≤ stop)
    (hstop : stop ≤ data.length) : slice data start stop = (data.take stop).drop start := by
  rw [slice, bound_natCast hstop, bound_natCast (Nat.le_trans hle hstop)]

/-- The middle one of three parts, by where it starts and where it ends. -/
theorem slice_append {before middle after : List α} {start stop : Int}
    (hstart : start = before.length) (hstop : stop = before.length + middle.length) :
    slice (before ++ middle ++ after) start stop = middle := by
  subst hstart
  have hstop : stop = ((before.length + middle.length : Nat) : Int) := by omega
  rw [hstop, slice_natCast (Nat.le_add_right _ _)]
  · rw [List.take_append_of_le_length (by simp), List.take_of_length_le (by simp), List.drop_left]
  · simp

theorem slice_drop {data : List α} {start stop : Nat} (hle : start ≤ stop)
    (hstop : stop ≤ data.length) :
    data.drop start = slice data start stop ++ data.drop stop := by
  rw [slice_natCast hle hstop]
  calc data.drop start
      = (data.take stop ++ data.drop stop).drop start := by rw [List.take_append_drop]
    _ = (data.take stop).drop start ++ data.drop stop :=
        List.drop_append_of_le_length (by rw [List.length_take]; omega)

theorem length_slice {data : List α} {start stop : Nat} (hle : start ≤ stop)
    (hstop : stop ≤ data.length) : (slice data start stop).length = stop - start := by
  rw [slice_natCast hle hstop, List.length_drop, List.length_take]
  omega

/-- In front of the data there is nothing. -/
theorem slice_of_le_neg {data : List α} {start stop : Int} (h : stop + data.length ≤ 0)
    (hneg : stop < 0) : slice data start stop = [] := by
  have hbound : bound data.length stop = 0 := by
    rw [bound, if_pos hneg]
    omega
  rw [slice, hbound, List.take_zero, List.drop_nil]

/-- Positions that differ and lie between two ends are no more than there are. -/
theorem length_le_of_nodup_Ico {positions : List Int} {low high : Int} (hnodup : positions.Nodup)
    (h : ∀ p ∈ positions, low ≤ p ∧ p < high) : positions.length ≤ (high - low).toNat := by
  have hsub : positions.toFinset ⊆ Finset.Ico low high := by
    intro p hp
    exact Finset.mem_Ico.mpr (h p (List.mem_toFinset.mp hp))
  calc positions.length
      = positions.toFinset.card := (List.toFinset_card_of_nodup hnodup).symm
    _ ≤ (Finset.Ico low high).card := Finset.card_le_card hsub
    _ = (high - low).toNat := Int.card_Ico low high

/-! ### Numbers -/

/-- `n.to_bytes(width, "little")`, where `n` fits. -/
def littleEndian : Nat → Nat → List UInt8
  | 0, _ => []
  | width + 1, n => UInt8.ofNat n :: littleEndian width (n / 256)

/-- `int.from_bytes(raw, "little")`. -/
def ofLittleEndian : List UInt8 → Nat
  | [] => 0
  | b :: raw => b.toNat + 256 * ofLittleEndian raw

@[simp] theorem length_littleEndian (width n : Nat) : (littleEndian width n).length = width := by
  induction width generalizing n with
  | zero => rfl
  | succ width ih => rw [littleEndian, List.length_cons, ih]

theorem ofLittleEndian_littleEndian {width n : Nat} (h : n < 256 ^ width) :
    ofLittleEndian (littleEndian width n) = n := by
  induction width generalizing n with
  | zero =>
    have hzero : n = 0 := by simpa using h
    simp [littleEndian, ofLittleEndian, hzero]
  | succ width ih =>
    have hrest : n / 256 < 256 ^ width := by
      rw [Nat.div_lt_iff_lt_mul (by decide)]
      rwa [Nat.pow_succ] at h
    rw [littleEndian, ofLittleEndian, ih hrest, UInt8.toNat_ofNat']
    omega

end Octets
