import Devlegate.Lib.JsonStyle

namespace JsonText

/-!
# The strings of a decoded value

What `loads` can return: UTF-8 octets hold no surrogate, and an escaped high surrogate that stands
before an escaped low one is read as one character with it.

* `Utf8.decode_noSurrogate`: decoded text holds no surrogate.
* `Utf8.decode_eq_some_iff`: octets are decoded to a text if and only if they are its octets.
* `Texts`: the strings of a value, without the keys of its objects.
* `texts_loads`: no string of a decoded value holds a high surrogate before a low one.
* `NoSurrogate`: the texts with octets; the compact style writes the surrogates of a value's texts as
  they are.
-/

namespace Utf8

/-- The numbers a character that has been begun can still have. -/
def Completes : Nat → Nat → Nat → Nat → Nat → Prop
  | 0, _, _, bits, n => n = bits
  | owed + 1, low, high, bits, n =>
    ∃ b, low ≤ b ∧ b ≤ high ∧ Completes owed 0x80 0xBF (bits * 64 + (b - 0x80)) n

theorem completes_succ {owed low high bits n : Nat} :
    Completes (owed + 1) low high bits n ↔
      ∃ b, low ≤ b ∧ b ≤ high ∧ Completes owed 0x80 0xBF (bits * 64 + (b - 0x80)) n := Iff.rfl

theorem completes_zero {low high bits n : Nat} : Completes 0 low high bits n ↔ n = bits := Iff.rfl

/-- The number of a character that is no surrogate. -/
def IsScalar (n : Nat) : Prop := n < 0x110000 ∧ ¬ (0xD800 ≤ n ∧ n ≤ 0xDFFF)

/-- No surrogate was decoded, and none has been begun. -/
structure State.Scalar (st : State) : Prop where
  out : ∀ c ∈ st.out, isSurrogate c = false
  begun : ∀ n, Completes st.owed st.low st.high st.bits n → IsScalar n

theorem isSurrogate_ofNat {n : Nat} (h : IsScalar n) :
    isSurrogate (Fin.ofNat 0x110000 n) = false := by
  obtain ⟨hlt, hnot⟩ := h
  simp only [isSurrogate, Fin.val_ofNat, Nat.mod_eq_of_lt hlt, Bool.and_eq_false_iff,
    decide_eq_false_iff_not]
  omega

theorem scalar_ready {out : Text} (h : ∀ c ∈ out, isSurrogate c = false) :
    (State.ready out).Scalar where
  out := h
  begun n hn := by
    have hzero : n = 0 := hn
    subst hzero
    unfold IsScalar
    omega

/-- A character that has been begun. -/
theorem scalar_begun {owed low high bits : Nat} {out : Text}
    (h : ∀ c ∈ out, isSurrogate c = false)
    (hbegun : ∀ n, Completes owed low high bits n → IsScalar n) :
    State.Scalar ⟨owed, low, high, bits, out⟩ := ⟨h, hbegun⟩

theorem scalar_lead {out : Text} (h : ∀ c ∈ out, isSurrogate c = false) {b : Nat} {st : State}
    (hlead : lead out b = some st) : st.Scalar := by
  unfold lead at hlead
  split at hlead
  · cases hlead
    refine scalar_ready ?_
    rw [List.forall_mem_cons]
    exact ⟨isSurrogate_ofNat (by unfold IsScalar; omega), h⟩
  -- each range of first octets leaves out the surrogates
  split at hlead
  · cases hlead
    refine scalar_begun h ?_
    intro n hn
    obtain ⟨x, hlow, hhigh, hn⟩ := completes_succ.mp hn
    rw [completes_zero] at hn
    unfold IsScalar
    omega
  split at hlead
  · cases hlead
    refine scalar_begun h ?_
    intro n hn
    obtain ⟨x, hlow, hhigh, hn⟩ := completes_succ.mp hn
    obtain ⟨y, hlow', hhigh', hn⟩ := completes_succ.mp hn
    rw [completes_zero] at hn
    unfold IsScalar
    omega
  split at hlead
  · cases hlead
    refine scalar_begun h ?_
    intro n hn
    obtain ⟨x, hlow, hhigh, hn⟩ := completes_succ.mp hn
    obtain ⟨y, hlow', hhigh', hn⟩ := completes_succ.mp hn
    rw [completes_zero] at hn
    unfold IsScalar
    omega
  split at hlead
  · cases hlead
    refine scalar_begun h ?_
    intro n hn
    obtain ⟨x, hlow, hhigh, hn⟩ := completes_succ.mp hn
    obtain ⟨y, hlow', hhigh', hn⟩ := completes_succ.mp hn
    rw [completes_zero] at hn
    unfold IsScalar
    omega
  split at hlead
  · cases hlead
    refine scalar_begun h ?_
    intro n hn
    obtain ⟨x, hlow, hhigh, hn⟩ := completes_succ.mp hn
    obtain ⟨y, hlow', hhigh', hn⟩ := completes_succ.mp hn
    obtain ⟨z, hlow'', hhigh'', hn⟩ := completes_succ.mp hn
    rw [completes_zero] at hn
    unfold IsScalar
    omega
  split at hlead
  · cases hlead
    refine scalar_begun h ?_
    intro n hn
    obtain ⟨x, hlow, hhigh, hn⟩ := completes_succ.mp hn
    obtain ⟨y, hlow', hhigh', hn⟩ := completes_succ.mp hn
    obtain ⟨z, hlow'', hhigh'', hn⟩ := completes_succ.mp hn
    rw [completes_zero] at hn
    unfold IsScalar
    omega
  split at hlead
  · cases hlead
    refine scalar_begun h ?_
    intro n hn
    obtain ⟨x, hlow, hhigh, hn⟩ := completes_succ.mp hn
    obtain ⟨y, hlow', hhigh', hn⟩ := completes_succ.mp hn
    obtain ⟨z, hlow'', hhigh'', hn⟩ := completes_succ.mp hn
    rw [completes_zero] at hn
    unfold IsScalar
    omega
  · cases hlead

theorem State.Scalar.step {st st' : State} (h : st.Scalar) {b : UInt8}
    (hstep : Utf8.step st b = some st') : st'.Scalar := by
  unfold Utf8.step at hstep
  split at hstep
  · exact scalar_lead h.out hstep
  · rename_i owed howed
    split at hstep
    · rename_i hrange
      have hnext : ∀ n, Completes owed 0x80 0xBF (st.bits * 64 + (b.toNat - 0x80)) n →
          IsScalar n := by
        intro n hn
        refine h.begun n ?_
        rw [howed]
        exact ⟨b.toNat, hrange.1, hrange.2, hn⟩
      split at hstep
      · rename_i hlast
        cases hstep
        subst hlast
        refine scalar_ready ?_
        rw [List.forall_mem_cons]
        exact ⟨isSurrogate_ofNat (hnext _ rfl), h.out⟩
      · cases hstep
        exact ⟨h.out, hnext⟩
    · cases hstep

/-- Decoded text holds no surrogate. -/
theorem decode_noSurrogate {raw : List UInt8} {s : Text} (h : decode raw = some s) :
    ∀ c ∈ s, isSurrogate c = false := by
  have hfold : ∀ (raw : List UInt8) (st st' : State), st.Scalar →
      raw.foldlM Utf8.step st = some st' → st'.Scalar := by
    intro raw
    induction raw with
    | nil =>
      intro st st' hst hfold
      cases hfold
      exact hst
    | cons b raw ih =>
      intro st st' hst hfold
      rw [List.foldlM_cons] at hfold
      obtain ⟨next, hnext, hrest⟩ := Option.bind_eq_some_iff.mp hfold
      exact ih next st' (hst.step hnext) hrest
  unfold decode at h
  split at h
  · rename_i st hst
    split at h
    · cases h
      intro c hc
      exact (hfold raw _ st (scalar_ready fun _ hc => (List.not_mem_nil hc).elim) hst).out c
        (List.mem_reverse.mp hc)
    · cases h
  · cases h

/-! ### The octets of a decoded text -/

/-- The octets that complete a character that has been begun, and its number. -/
def Spells : Nat → Nat → Nat → Nat → List UInt8 → Nat → Prop
  | 0, _, _, bits, [], n => n = bits
  | owed + 1, low, high, bits, b :: rest, n =>
    (low ≤ b.toNat ∧ b.toNat ≤ high) ∧ Spells owed 0x80 0xBF (bits * 64 + (b.toNat - 0x80)) rest n
  | _, _, _, _, _, _ => False

theorem Spells.succ {owed low high bits n : Nat} {rest : List UInt8}
    (h : Spells (owed + 1) low high bits rest n) :
    ∃ b tail, rest = b :: tail ∧ low ≤ b.toNat ∧ b.toNat ≤ high
      ∧ Spells owed 0x80 0xBF (bits * 64 + (b.toNat - 0x80)) tail n := by
  cases rest with
  | nil => exact h.elim
  | cons b tail => exact ⟨b, tail, rfl, h.1.1, h.1.2, h.2⟩

theorem Spells.zero {low high bits n : Nat} {rest : List UInt8}
    (h : Spells 0 low high bits rest n) : rest = [] ∧ n = bits := by
  cases rest with
  | nil => exact ⟨rfl, h⟩
  | cons b tail => exact h.elim

theorem ofNat_eq {n : Nat} {b : UInt8} (h : n = b.toNat) : UInt8.ofNat n = b := by
  rw [h, UInt8.ofNat_toNat]

theorem octetsOf_two {b x : UInt8} {n : Nat} (hb : 0xC2 ≤ b.toNat) (hb' : b.toNat ≤ 0xDF)
    (hx : 0x80 ≤ x.toNat) (hx' : x.toNat ≤ 0xBF)
    (hn : n = (b.toNat - 0xC0) * 64 + (x.toNat - 0x80)) : octetsOf n = [b, x] := by
  unfold octetsOf
  rw [if_neg (by omega), if_pos (by omega), ofNat_eq (b := b) (by omega),
    ofNat_eq (b := x) (by omega)]

theorem octetsOf_three {b x y : UInt8} {n : Nat} (hb : 0xE0 ≤ b.toNat) (hb' : b.toNat ≤ 0xEF)
    (hx : 0x80 ≤ x.toNat) (hx' : x.toNat ≤ 0xBF) (hy : 0x80 ≤ y.toNat) (hy' : y.toNat ≤ 0xBF)
    (hn : n = ((b.toNat - 0xE0) * 64 + (x.toNat - 0x80)) * 64 + (y.toNat - 0x80))
    (hlarge : 0x800 ≤ n) : octetsOf n = [b, x, y] := by
  unfold octetsOf
  rw [if_neg (by omega), if_neg (by omega), if_pos (by omega), ofNat_eq (b := b) (by omega),
    ofNat_eq (b := x) (by omega), ofNat_eq (b := y) (by omega)]

theorem octetsOf_four {b x y z : UInt8} {n : Nat} (hb : 0xF0 ≤ b.toNat) (hb' : b.toNat ≤ 0xF4)
    (hx : 0x80 ≤ x.toNat) (hx' : x.toNat ≤ 0xBF) (hy : 0x80 ≤ y.toNat) (hy' : y.toNat ≤ 0xBF)
    (hz : 0x80 ≤ z.toNat) (hz' : z.toNat ≤ 0xBF)
    (hn : n = (((b.toNat - 0xF0) * 64 + (x.toNat - 0x80)) * 64 + (y.toNat - 0x80)) * 64
      + (z.toNat - 0x80))
    (hlarge : 0x10000 ≤ n) : octetsOf n = [b, x, y, z] := by
  unfold octetsOf
  rw [if_neg (by omega), if_neg (by omega), if_neg (by omega), ofNat_eq (b := b) (by omega),
    ofNat_eq (b := x) (by omega), ofNat_eq (b := y) (by omega), ofNat_eq (b := z) (by omega)]

/-- The octets read so far are those of the characters that are complete, and of one that has been
    begun. -/
structure State.Spelled (raw : List UInt8) (st : State) : Prop where
  split : ∃ begun, raw = st.out.reverse.flatMap (fun c => octetsOf c.val) ++ begun
    ∧ (st.owed = 0 → begun = [])
    ∧ (0 < st.owed → ∀ rest n, Spells st.owed st.low st.high st.bits rest n →
      n < 0x110000 ∧ octetsOf n = begun ++ rest)

theorem spelled_ready {raw : List UInt8} {out : Text} {n : Nat} (hn : n < 0x110000)
    (h : raw = out.reverse.flatMap (fun c => octetsOf c.val) ++ octetsOf n) :
    (State.ready (Fin.ofNat 0x110000 n :: out)).Spelled raw := by
  have hval : (Fin.ofNat 0x110000 n).val = n := Nat.mod_eq_of_lt hn
  refine ⟨[], ?_, fun _ => rfl, fun hpos => absurd hpos (Nat.lt_irrefl 0)⟩
  show raw = (Fin.ofNat 0x110000 n :: out).reverse.flatMap _ ++ []
  rw [List.append_nil, List.reverse_cons, List.flatMap_append, List.flatMap_singleton, hval, h]

theorem spelled_lead {raw : List UInt8} {out : Text} {b : UInt8} {st : State}
    (h : raw = out.reverse.flatMap fun c => octetsOf c.val) (hlead : lead out b.toNat = some st) :
    st.Spelled (raw ++ [b]) := by
  have hbegun : ∀ owed low high bits, 0 < owed →
      (∀ rest n, Spells owed low high bits rest n → n < 0x110000 ∧ octetsOf n = [b] ++ rest) →
      State.Spelled (raw ++ [b]) ⟨owed, low, high, bits, out⟩ := by
    intro owed low high bits howed hspells
    exact ⟨[b], by rw [h], fun hzero => absurd hzero (Nat.ne_of_gt howed), fun _ => hspells⟩
  unfold lead at hlead
  split at hlead
  · rename_i hone
    cases hlead
    refine spelled_ready (by omega) ?_
    rw [h, octetsOf, if_pos hone, UInt8.ofNat_toNat]
  split at hlead
  · cases hlead
    refine hbegun _ _ _ _ (by decide) ?_
    intro rest n hn
    obtain ⟨x, rest, rfl, hlow, hhigh, hn⟩ := hn.succ
    obtain ⟨rfl, hn⟩ := hn.zero
    exact ⟨by omega, octetsOf_two (by omega) (by omega) hlow hhigh hn⟩
  have hthree : ∀ low high, 0x80 ≤ low → high ≤ 0xBF → 0xE0 ≤ b.toNat → b.toNat ≤ 0xEF →
      (b.toNat = 0xE0 → low = 0xA0) → ∀ rest n, Spells 2 low high (b.toNat - 0xE0) rest n →
      n < 0x110000 ∧ octetsOf n = [b] ++ rest := by
    intro low high hl hh hb hb' hfirst rest n hn
    obtain ⟨x, rest, rfl, hlow, hhigh, hn⟩ := hn.succ
    obtain ⟨y, rest, rfl, hlow', hhigh', hn⟩ := hn.succ
    obtain ⟨rfl, hn⟩ := hn.zero
    exact ⟨by omega, octetsOf_three hb hb' (by omega) (by omega) hlow' hhigh' hn (by omega)⟩
  have hfour : ∀ low high, 0x80 ≤ low → high ≤ 0xBF → 0xF0 ≤ b.toNat → b.toNat ≤ 0xF4 →
      (b.toNat = 0xF0 → low = 0x90) → (b.toNat = 0xF4 → high = 0x8F) →
      ∀ rest n, Spells 3 low high (b.toNat - 0xF0) rest n →
      n < 0x110000 ∧ octetsOf n = [b] ++ rest := by
    intro low high hl hh hb hb' hfirst hlast rest n hn
    obtain ⟨x, rest, rfl, hlow, hhigh, hn⟩ := hn.succ
    obtain ⟨y, rest, rfl, hlow', hhigh', hn⟩ := hn.succ
    obtain ⟨z, rest, rfl, hlow'', hhigh'', hn⟩ := hn.succ
    obtain ⟨rfl, hn⟩ := hn.zero
    exact ⟨by omega, octetsOf_four hb hb' (by omega) (by omega) hlow' hhigh' hlow'' hhigh'' hn
      (by omega)⟩
  split at hlead
  · cases hlead
    exact hbegun _ _ _ _ (by decide)
      (hthree _ _ (by decide) (by decide) (by omega) (by omega) (by omega))
  split at hlead
  · cases hlead
    exact hbegun _ _ _ _ (by decide)
      (hthree _ _ (by decide) (by decide) (by omega) (by omega) (by omega))
  split at hlead
  · cases hlead
    exact hbegun _ _ _ _ (by decide)
      (hthree _ _ (by decide) (by decide) (by omega) (by omega) (by omega))
  split at hlead
  · cases hlead
    exact hbegun _ _ _ _ (by decide)
      (hfour _ _ (by decide) (by decide) (by omega) (by omega) (by omega) (by omega))
  split at hlead
  · cases hlead
    exact hbegun _ _ _ _ (by decide)
      (hfour _ _ (by decide) (by decide) (by omega) (by omega) (by omega) (by omega))
  split at hlead
  · cases hlead
    exact hbegun _ _ _ _ (by decide)
      (hfour _ _ (by decide) (by decide) (by omega) (by omega) (by omega) (by omega))
  · cases hlead

theorem State.Spelled.step {raw : List UInt8} {st st' : State} (h : st.Spelled raw) {b : UInt8}
    (hstep : Utf8.step st b = some st') : st'.Spelled (raw ++ [b]) := by
  obtain ⟨begun, hraw, hnone, hspells⟩ := h.split
  unfold Utf8.step at hstep
  split at hstep
  · rename_i howed
    rw [hnone howed, List.append_nil] at hraw
    exact spelled_lead hraw hstep
  · rename_i owed howed
    split at hstep
    · rename_i hrange
      have hnext : ∀ rest n, Spells owed 0x80 0xBF (st.bits * 64 + (b.toNat - 0x80)) rest n →
          n < 0x110000 ∧ octetsOf n = begun ++ [b] ++ rest := by
        intro rest n hn
        rw [List.append_assoc]
        exact hspells (by omega) _ n (by rw [howed]; exact ⟨hrange, hn⟩)
      split at hstep
      · rename_i hlast
        cases hstep
        subst hlast
        obtain ⟨hbound, hoctets⟩ := hnext [] _ rfl
        refine spelled_ready hbound ?_
        rw [hoctets, hraw, List.append_nil, List.append_assoc]
      · rename_i hmore
        cases hstep
        refine ⟨begun ++ [b], by rw [hraw, List.append_assoc], fun hzero => absurd hzero hmore,
          fun _ => hnext⟩
    · cases hstep

/-- The octets of a text are those of its characters. -/
theorem encode_of_noSurrogate {s : Text} (h : ∀ c ∈ s, isSurrogate c = false) :
    encode s = some (s.flatMap fun c => octetsOf c.val) := by
  induction s with
  | nil => rfl
  | cons c s ih =>
    rw [List.forall_mem_cons] at h
    rw [encode_cons_eq, ih h.2, h.1]
    rfl

/-- **UTF-8.** Octets are decoded only to the text that they are the octets of. -/
theorem decode_eq_some_iff {raw : List UInt8} {s : Text} :
    decode raw = some s ↔ encode s = some raw := by
  refine ⟨fun h => ?_, decode_encode⟩
  have hfold : ∀ (rest raw : List UInt8) (st st' : State), st.Spelled raw →
      rest.foldlM Utf8.step st = some st' → st'.Spelled (raw ++ rest) := by
    intro rest
    induction rest with
    | nil =>
      intro raw st st' hst hfold
      cases hfold
      rwa [List.append_nil]
    | cons b rest ih =>
      intro raw st st' hst hfold
      rw [List.foldlM_cons] at hfold
      obtain ⟨next, hnext, hrest⟩ := Option.bind_eq_some_iff.mp hfold
      rw [List.append_cons]
      exact ih _ next st' (hst.step hnext) hrest
  rw [encode_of_noSurrogate (decode_noSurrogate h)]
  unfold decode at h
  split at h
  · rename_i st hst
    split at h
    · rename_i howed
      cases h
      have hstart : (State.ready []).Spelled [] :=
        ⟨[], rfl, fun _ => rfl, fun hpos => absurd hpos (Nat.lt_irrefl 0)⟩
      obtain ⟨begun, hraw, hnone, -⟩ := (hfold raw [] _ st hstart hst).split
      rw [hnone howed, List.append_nil, List.nil_append] at hraw
      rw [hraw]
    · cases h
  · cases h

end Utf8

/-! ### Texts without surrogates -/

/-- A character is no surrogate. -/
theorem isSurrogate_codePoint (c : Char) : isSurrogate (codePoint c) = false := by
  refine Utf8.isSurrogate_ofNat ⟨?_, ?_⟩
  · rcases c.valid with h | h
    · exact h.trans (by decide)
    · exact h.2
  · rcases c.valid with h | h
    · show ¬ (0xD800 ≤ c.val.toNat ∧ c.val.toNat ≤ 0xDFFF)
      omega
    · show ¬ (0xD800 ≤ c.val.toNat ∧ c.val.toNat ≤ 0xDFFF)
      omega

theorem isSurrogate_of_mem_text {s : String} {c : CodePoint} (h : c ∈ text s) :
    isSurrogate c = false := by
  obtain ⟨d, -, rfl⟩ := List.mem_map.mp h
  exact isSurrogate_codePoint d

theorem not_high_of_plain {c : CodePoint} (h : isSurrogate c = false) : isHigh c = false := by
  simp only [isSurrogate, isHigh, Bool.and_eq_false_iff, decide_eq_false_iff_not] at h ⊢
  omega

/-- A text without surrogates before one without a pair. -/
theorem Unpaired.append {s t : Text} (hs : ∀ c ∈ s, isSurrogate c = false) (ht : Unpaired t) :
    Unpaired (s ++ t) := by
  induction s with
  | nil => exact ht
  | cons c s ih =>
    rw [List.forall_mem_cons] at hs
    refine (ih hs.2).cons fun d _ hpair => ?_
    rw [not_high_of_plain hs.1] at hpair
    exact absurd hpair.1 (by decide)

theorem unpaired_of_noSurrogate {s : Text} (h : ∀ c ∈ s, isSurrogate c = false) : Unpaired s := by
  have happend := Unpaired.append h List.isChain_nil
  rw [List.append_nil] at happend
  exact happend

theorem unpaired_text (s : String) : Unpaired (text s) :=
  unpaired_of_noSurrogate fun _ => isSurrogate_of_mem_text

/-! ### Strings of a value -/

/-- The strings of a value, without the keys of its objects, are good. -/
inductive Texts (good : Text → Prop) : Json → Prop
  | null : Texts good .null
  | bool (b : Bool) : Texts good (.bool b)
  | int (n : Int) : Texts good (.int n)
  | float (literal : Text) : Texts good (.float literal)
  | str {s : Text} (h : good s) : Texts good (.str s)
  | arr {items : List Json} (h : ∀ item ∈ items, Texts good item) : Texts good (.arr items)
  | obj {fields : List (Text × Json)} (h : ∀ f ∈ fields, Texts good f.2) : Texts good (.obj fields)

/-- The strings of a container that is open. -/
def Frame.Texts (good : Text → Prop) : Frame → Prop
  | .arr items => ∀ item ∈ items, JsonText.Texts good item
  | .obj fields _ => ∀ f ∈ fields, JsonText.Texts good f.2

/-- The characters of a string that is being read, last first: `high` says whether the last one is
    a high surrogate, and no low one stands after a high one. -/
structure Pending (acc : Text) (high : Bool) : Prop where
  unpaired : Unpaired acc.reverse
  last : ∀ c ∈ acc.head?, isHigh c = high
  empty : acc = [] → high = false

/-- What the scanner expects next goes on with good strings. -/
def Mode.Unpaired : Mode → Prop
  | .string _ acc high part => Pending acc high
      ∧ ∀ owed bits, part = .hex owed bits → (bits + 1) * 16 ^ owed ≤ 0x10000
  | .word _ result | .done result => Texts JsonText.Unpaired result
  | _ => True

/-- Everything the scanner has read is good. -/
structure Scan.Clean (st : Scan) : Prop where
  stack : ∀ frame ∈ st.stack, frame.Texts Unpaired
  mode : st.mode.Unpaired

section Clean

variable {limits : Limits} {stack : List Frame} {acc : Text} {high : Bool} {st st' : Scan}

theorem pending_nil : Pending [] false :=
  ⟨List.isChain_nil, fun _ hc => (Option.not_mem_none _ hc).elim, fun _ => rfl⟩

/-- A character that completes no pair. -/
theorem Pending.push (h : Pending acc high) {c : CodePoint} (hc : high = true → isLow c = false) :
    Pending (c :: acc) (isHigh c) := by
  refine ⟨?_, ?_, fun hnil => by cases hnil⟩
  · unfold Unpaired
    rw [List.reverse_cons, List.isChain_append]
    refine ⟨h.unpaired, List.isChain_singleton _, ?_⟩
    intro a ha b hb hpair
    rw [List.getLast?_reverse] at ha
    have hhigh := h.last a ha
    cases hb
    have hlow := hc (hhigh.symm.trans hpair.1)
    rw [hlow] at hpair
    cases hpair.2
  · intro d hd
    cases hd
    rfl

/-- The characters before the last one. -/
theorem Pending.tail {c : CodePoint} (h : Pending (c :: acc) high) : Unpaired acc.reverse := by
  have hchain := h.unpaired
  unfold Unpaired at hchain
  rw [List.reverse_cons] at hchain
  exact (List.isChain_append.mp hchain).1

theorem texts_setField {fields : List (Text × Json)} {key : Text} {v : Json}
    (h : ∀ f ∈ fields, Texts Unpaired f.2) (hv : Texts Unpaired v) :
    ∀ f ∈ setField fields key v, Texts Unpaired f.2 := by
  induction fields with
  | nil =>
    intro f hf
    rw [List.mem_singleton.mp hf]
    exact hv
  | cons g fields ih =>
    rw [List.forall_mem_cons] at h
    unfold setField
    split
    · rw [List.forall_mem_cons]
      exact ⟨hv, h.2⟩
    · rw [List.forall_mem_cons]
      exact ⟨h.1, ih h.2⟩

/-- A complete value goes into the innermost container. -/
theorem clean_deliver {v : Json} (hstack : ∀ frame ∈ stack, frame.Texts Unpaired)
    (hv : Texts Unpaired v) : (deliver stack v).Clean := by
  cases stack with
  | nil => exact ⟨hstack, hv⟩
  | cons frame rest =>
    rw [List.forall_mem_cons] at hstack
    cases frame with
    | arr items =>
      refine ⟨?_, trivial⟩
      show ∀ frame ∈ Frame.arr (v :: items) :: rest, frame.Texts Unpaired
      rw [List.forall_mem_cons]
      refine ⟨?_, hstack.2⟩
      show ∀ item ∈ v :: items, Texts Unpaired item
      rw [List.forall_mem_cons]
      exact ⟨hv, hstack.1⟩
    | obj fields key =>
      refine ⟨?_, trivial⟩
      show ∀ frame ∈ Frame.obj (setField fields key v) key :: rest, frame.Texts Unpaired
      rw [List.forall_mem_cons]
      exact ⟨texts_setField hstack.1 hv, hstack.2⟩

theorem texts_endNumber {part : NumPart} {literal : Text} {v : Json}
    (h : endNumber limits part literal = .ok v) : Texts Unpaired v := by
  have hint : ∀ literal, intOf limits literal = .ok v → Texts Unpaired v := by
    intro literal h
    unfold intOf at h
    simp only at h
    split at h
    · cases h
    · cases h
      exact .int _
  unfold endNumber at h
  split at h
  · cases h
  · exact hint _ h
  · exact hint _ h
  · cases h
    exact .float _
  · cases h
    exact .float _
  · cases h
  · cases h
  all_goals
    cases hvalue : intOf limits literal with
    | error e => simp [hvalue, bind, Except.bind] at h
    | ok v' => simp [hvalue, bind, Except.bind] at h

/-- The value of a one-letter escape is no surrogate. -/
theorem escapeValue_plain {c e : CodePoint} (h : escapeValue c = some e)
    (hc : isSurrogate c = false) : isSurrogate e = false := by
  unfold escapeValue at h
  split at h
  · cases h
    exact hc
  split at h
  · cases h
    decide
  split at h
  · cases h
    decide
  split at h
  · cases h
    decide
  split at h
  · cases h
    decide
  split at h
  · cases h
    decide
  · cases h

theorem not_low_of_plain {c : CodePoint} (h : isSurrogate c = false) : isLow c = false := by
  simp only [isSurrogate, isLow, Bool.and_eq_false_iff, decide_eq_false_iff_not] at h ⊢
  omega

/-- A character outside the escapes. -/
theorem Pending.pushPlain (h : Pending acc high) {c : CodePoint} (hc : isSurrogate c = false) :
    Pending (c :: acc) false := by
  rw [← not_high_of_plain hc]
  exact h.push fun _ => not_low_of_plain hc

/-- Another last character. -/
theorem Pending.replace {c w : CodePoint} {rest : Text} (h : Pending (c :: rest) high)
    (hw : isSurrogate w = false) : Pending (w :: rest) false := by
  refine ⟨?_, fun d hd => ?_, fun hnil => by cases hnil⟩
  · unfold Unpaired
    rw [List.reverse_cons, List.isChain_append]
    refine ⟨h.tail, List.isChain_singleton _, fun a _ b hb hpair => ?_⟩
    cases hb
    rw [not_low_of_plain hw] at hpair
    cases hpair.2
  · cases hd
    exact not_high_of_plain hw

/-- An escape, which may complete a pair. -/
theorem Pending.pushEscape (h : Pending acc high) {bits : Nat} (hbits : bits < 0x110000) :
    Pending (pushEscape acc high bits).1 (pushEscape acc high bits).2 := by
  have hval : (Fin.ofNat 0x110000 bits).val = bits := by
    rw [Fin.val_ofNat, Nat.mod_eq_of_lt hbits]
  have hsingle : (high = true → ¬ (0xDC00 ≤ bits ∧ bits ≤ 0xDFFF)) →
      Pending (Fin.ofNat 0x110000 bits :: acc) (decide (0xD800 ≤ bits ∧ bits ≤ 0xDBFF)) := by
    intro hnot
    have hhigh : isHigh (Fin.ofNat 0x110000 bits)
        = decide (0xD800 ≤ bits ∧ bits ≤ 0xDBFF) := by
      simp only [isHigh, hval, Bool.decide_and]
    rw [← hhigh]
    refine h.push fun htrue => ?_
    have hlow := hnot htrue
    simp only [isLow, hval, Bool.and_eq_false_iff, decide_eq_false_iff_not]
    omega
  cases high with
  | false =>
    rw [pushEscape_single (fun hfalse => by cases hfalse)]
    exact hsingle fun hfalse => by cases hfalse
  | true =>
    by_cases hlow : 0xDC00 ≤ bits ∧ bits ≤ 0xDFFF
    · cases acc with
      | nil => cases h.empty rfl
      | cons c rest =>
        -- the two halves make one character, which is no surrogate
        have hhigh : isHigh c = true := h.last c rfl
        simp only [isHigh, Bool.and_eq_true, decide_eq_true_eq] at hhigh
        have hwhole : isSurrogate (Fin.ofNat 0x110000
            (0x10000 + (c.val - 0xD800) * 0x400 + (bits - 0xDC00))) = false := by
          refine Utf8.isSurrogate_ofNat ?_
          unfold Utf8.IsScalar
          omega
        simp only [JsonText.pushEscape]
        rw [if_pos hlow]
        exact h.replace hwhole
    · rw [pushEscape_single fun _ => hlow]
      exact hsingle fun _ => hlow

theorem clean_string {isKey : Bool} {part : StrPart}
    (hstack : ∀ frame ∈ stack, frame.Texts Unpaired) (h : Pending acc high)
    (hpart : ∀ owed bits, part = .hex owed bits → (bits + 1) * 16 ^ owed ≤ 0x10000) :
    Scan.Clean ⟨stack, .string isKey acc high part⟩ := ⟨hstack, h, hpart⟩

/-- One character inside a string. -/
theorem clean_stepString {isKey : Bool} {part : StrPart} {c : CodePoint}
    (hc : isSurrogate c = false) (hstack : ∀ frame ∈ stack, frame.Texts Unpaired)
    (h : Pending acc high)
    (hpart : ∀ owed bits, part = .hex owed bits → (bits + 1) * 16 ^ owed ≤ 0x10000)
    (hstep : stepString stack isKey acc high part c = .ok st') : st'.Clean := by
  have hplain : ∀ owed bits, StrPart.plain = .hex owed bits →
      (bits + 1) * 16 ^ owed ≤ 0x10000 := fun _ _ hfalse => by cases hfalse
  unfold stepString at hstep
  split at hstep
  · split at hstep
    · -- the closing quote
      unfold endString at hstep
      split at hstep
      · split at hstep
        · rename_i fields key rest
          cases hstep
          refine ⟨?_, trivial⟩
          rw [List.forall_mem_cons] at hstack
          show ∀ frame ∈ Frame.obj fields acc.reverse :: rest, frame.Texts Unpaired
          rw [List.forall_mem_cons]
          exact hstack
        · cases hstep
      · cases hstep
        exact clean_deliver hstack (.str h.unpaired)
    split at hstep
    · cases hstep
      exact clean_string hstack h fun _ _ hfalse => by cases hfalse
    split at hstep
    · cases hstep
    · cases hstep
      exact clean_string hstack (h.pushPlain hc) hplain
  · split at hstep
    · cases hstep
      refine clean_string hstack h fun owed bits heq => ?_
      cases heq
      decide
    · split at hstep
      · rename_i e hescape
        cases hstep
        exact clean_string hstack (h.pushPlain (escapeValue_plain hescape hc)) hplain
      · cases hstep
  · rename_i owed bits
    have hbound := hpart owed bits rfl
    split at hstep
    · cases hstep
    · rename_i d hd
      have hdigit : d < 16 := by
        unfold hexValue at hd
        split at hd
        · cases hd
          omega
        split at hd
        · cases hd
          omega
        split at hd
        · cases hd
          omega
        · cases hd
      simp only at hstep
      split at hstep
      · rename_i hlast
        cases hstep
        have hbits : bits * 16 + d < 0x110000 := by
          have hone : 1 ≤ 16 ^ owed := Nat.one_le_pow _ _ (by decide)
          have hle : (bits + 1) * 1 ≤ (bits + 1) * 16 ^ owed := Nat.mul_le_mul_left _ hone
          omega
        exact clean_string hstack (h.pushEscape hbits) hplain
      · rename_i hmore
        cases hstep
        refine clean_string hstack h fun owed' bits' heq => ?_
        cases heq
        obtain ⟨n, rfl⟩ : ∃ n, owed = n + 1 := ⟨owed - 1, by omega⟩
        have hstep : (bits * 16 + d + 1) * 16 ^ n ≤ (bits + 1) * 16 * 16 ^ n :=
          Nat.mul_le_mul_right _ (by omega)
        rw [Nat.pow_succ] at hbound
        have hsame : (bits + 1) * 16 * 16 ^ n = (bits + 1) * (16 ^ n * 16) := by
          rw [Nat.mul_comm (16 ^ n) 16, Nat.mul_assoc]
        rw [Nat.add_sub_cancel]
        omega

/-- The end of a value that is not a container, or what may follow one. -/
theorem clean_stepAfter {c : CodePoint} (h : st.Clean) (hstep : stepAfter st c = .ok st') :
    st'.Clean := by
  unfold stepAfter at hstep
  split at hstep
  · split at hstep
    · cases hstep
      exact h
    · cases hstep
  · have hstack := h.stack
    unfold afterValue at hstep
    split at hstep
    · rename_i items rest heq
      rw [heq, List.forall_mem_cons] at hstack
      split at hstep
      · cases hstep
        exact ⟨h.stack, trivial⟩
      split at hstep
      · cases hstep
        exact ⟨h.stack, trivial⟩
      split at hstep
      · cases hstep
        exact clean_deliver hstack.2 (.arr fun item hitem => hstack.1 item (List.mem_reverse.mp hitem))
      · cases hstep
    · rename_i fields key rest heq
      rw [heq, List.forall_mem_cons] at hstack
      split at hstep
      · cases hstep
        exact ⟨h.stack, trivial⟩
      split at hstep
      · cases hstep
        exact ⟨h.stack, trivial⟩
      split at hstep
      · cases hstep
        exact clean_deliver hstack.2 (.obj hstack.1)
      · cases hstep
    · cases hstep

/-- The start of a value. -/
theorem clean_beginValue {c : CodePoint} (hstack : ∀ frame ∈ stack, frame.Texts Unpaired)
    (hstep : beginValue limits stack c = .ok st') : st'.Clean := by
  have hopen : ∀ frame : Frame, frame.Texts Unpaired →
      ∀ f ∈ frame :: stack, f.Texts Unpaired := by
    intro frame hframe
    rw [List.forall_mem_cons]
    exact ⟨hframe, hstack⟩
  have hnone : ∀ {α : Type} {p : α → Prop}, ∀ x ∈ ([] : List α), p x :=
    fun _ hx => (List.not_mem_nil hx).elim
  unfold beginValue at hstep
  -- one character after the other, so that the chain is never rewritten as a whole
  rcases ite_eq_iff.mp hstep with ⟨-, hstep⟩ | ⟨-, hstep⟩
  · cases hstep
    exact clean_string hstack pending_nil fun _ _ hfalse => by cases hfalse
  rcases ite_eq_iff.mp hstep with ⟨-, hstep⟩ | ⟨-, hstep⟩
  · split at hstep
    · cases hstep
      exact ⟨hopen _ hnone, trivial⟩
    · cases hstep
  rcases ite_eq_iff.mp hstep with ⟨-, hstep⟩ | ⟨-, hstep⟩
  · split at hstep
    · cases hstep
      exact ⟨hopen _ hnone, trivial⟩
    · cases hstep
  rcases ite_eq_iff.mp hstep with ⟨-, hstep⟩ | ⟨-, hstep⟩
  · cases hstep
    exact ⟨hstack, trivial⟩
  rcases ite_eq_iff.mp hstep with ⟨-, hstep⟩ | ⟨-, hstep⟩
  · cases hstep
    exact ⟨hstack, trivial⟩
  rcases ite_eq_iff.mp hstep with ⟨-, hstep⟩ | ⟨-, hstep⟩
  · cases hstep
    exact ⟨hstack, trivial⟩
  rcases ite_eq_iff.mp hstep with ⟨-, hstep⟩ | ⟨-, hstep⟩
  · cases hstep
    exact ⟨hstack, .bool true⟩
  rcases ite_eq_iff.mp hstep with ⟨-, hstep⟩ | ⟨-, hstep⟩
  · cases hstep
    exact ⟨hstack, .bool false⟩
  rcases ite_eq_iff.mp hstep with ⟨-, hstep⟩ | ⟨-, hstep⟩
  · cases hstep
    exact ⟨hstack, .null⟩
  rcases ite_eq_iff.mp hstep with ⟨-, hstep⟩ | ⟨-, hstep⟩
  · cases hstep
    exact ⟨hstack, .float _⟩
  rcases ite_eq_iff.mp hstep with ⟨-, hstep⟩ | ⟨-, hstep⟩
  · cases hstep
    exact ⟨hstack, .float _⟩
  · cases hstep

/-- **Scanning.** A character that is no surrogate keeps everything that was read good. -/
theorem Scan.Clean.step (h : st.Clean) {c : CodePoint} (hc : isSurrogate c = false)
    (hstep : Scan.step limits st c = .ok st') : st'.Clean := by
  have hstack := h.stack
  have hmode := h.mode
  unfold Scan.step at hstep
  split at hstep
  · -- a value
    split at hstep
    · cases hstep
      exact h
    split at hstep
    · split at hstep
      · rename_i items rest heq
        rw [heq, List.forall_mem_cons] at hstack
        cases hstep
        exact clean_deliver hstack.2 (.arr fun _ hx => (List.not_mem_nil hx).elim)
      · cases hstep
    · exact clean_beginValue hstack hstep
  · -- a key
    split at hstep
    · cases hstep
      exact h
    split at hstep
    · cases hstep
      exact clean_string hstack pending_nil fun _ _ hfalse => by cases hfalse
    split at hstep
    · split at hstep
      · rename_i fields key rest heq
        rw [heq, List.forall_mem_cons] at hstack
        cases hstep
        exact clean_deliver hstack.2 (.obj fun _ hx => (List.not_mem_nil hx).elim)
      · cases hstep
    · cases hstep
  · -- a colon
    split at hstep
    · cases hstep
      exact h
    split at hstep
    · cases hstep
      exact ⟨hstack, trivial⟩
    · cases hstep
  · -- inside a string
    rename_i isKey acc high part heq
    rw [heq] at hmode
    exact clean_stepString hc hstack hmode.1 hmode.2 hstep
  · -- inside a number
    rename_i part literal heq
    split at hstep
    · cases hstep
      exact ⟨hstack, trivial⟩
    split at hstep
    · cases hstep
      exact ⟨hstack, .float _⟩
    · cases hvalue : endNumber limits part literal with
      | error e => simp [hvalue, bind, Except.bind] at hstep
      | ok v =>
        rw [hvalue] at hstep
        exact clean_stepAfter (clean_deliver hstack (texts_endNumber hvalue)) hstep
  · rename_i result heq
    rw [heq] at hmode
    exact clean_stepAfter (clean_deliver hstack hmode) hstep
  · rename_i w rest result heq
    rw [heq] at hmode
    split at hstep
    · split at hstep
      · cases hstep
        exact clean_deliver hstack hmode
      · cases hstep
        exact ⟨hstack, hmode⟩
    · cases hstep
  · exact clean_stepAfter h hstep
  · exact clean_stepAfter h hstep

end Clean

/-- **Decoded strings.** No string of a decoded value holds a high surrogate before a low one. -/
theorem texts_loads {limits : Limits} {raw : List UInt8} {v : Json}
    (h : loads limits raw = .ok v) : Texts Unpaired v := by
  have hfold : ∀ (s : Text) (st st' : Scan), (∀ c ∈ s, isSurrogate c = false) → st.Clean →
      s.foldlM (Scan.step limits) st = .ok st' → st'.Clean := by
    intro s
    induction s with
    | nil =>
      intro st st' _ hst hfold
      cases hfold
      exact hst
    | cons c s ih =>
      intro st st' hs hst hfold
      rw [List.forall_mem_cons] at hs
      rw [List.foldlM_cons] at hfold
      cases hnext : Scan.step limits st c with
      | error e =>
        rw [hnext] at hfold
        cases hfold
      | ok next =>
        rw [hnext] at hfold
        exact ih next st' hs.2 (hst.step hs.1 hnext) hfold
  have hstart : Scan.Clean ⟨[], .value false⟩ :=
    ⟨fun _ hframe => (List.not_mem_nil hframe).elim, trivial⟩
  unfold loads at h
  split at h
  · cases h
  · rename_i s hs
    unfold parse at h
    cases hscan : s.foldlM (Scan.step limits) ⟨[], .value false⟩ with
    | error e =>
      rw [hscan] at h
      cases h
    | ok st =>
      have hst : st.Clean := hfold s _ st (Utf8.decode_noSurrogate hs) hstart hscan
      rw [hscan] at h
      have hfinish : st.finish limits = .ok v := h
      have hmode := hst.mode
      unfold Scan.finish at hfinish
      split at hfinish
      · rename_i result heq
        rw [heq] at hmode
        cases hfinish
        exact hmode
      · rename_i part literal heq
        cases hvalue : endNumber limits part literal with
        | error e => simp [hvalue, bind, Except.bind] at hfinish
        | ok value =>
          simp only [hvalue, bind, Except.bind] at hfinish
          split at hfinish
          · cases hfinish
            exact texts_endNumber hvalue
          · cases hfinish
      · cases hfinish

/-! ### Surrogates that are written -/

/-- A text that UTF-8 has octets for. -/
def NoSurrogate (s : Text) : Prop := ∀ c ∈ s, isSurrogate c = false

instance (s : Text) : Decidable (NoSurrogate s) := inferInstanceAs (Decidable (∀ c ∈ s, _))

theorem noSurrogate_text (s : String) : NoSurrogate (text s) := fun _ => isSurrogate_of_mem_text

theorem noSurrogate_append {s t : Text} :
    NoSurrogate (s ++ t) ↔ NoSurrogate s ∧ NoSurrogate t := List.forall_mem_append

section Written

variable {style : Style} {level : Nat}

theorem plainEscape_of_surrogate {c : CodePoint} (h : isSurrogate c = true) : plainEscape c = [c] := by
  simp only [isSurrogate, Bool.and_eq_true, decide_eq_true_eq] at h
  have hshort : shortEscape c = none := by
    have hquote : c ≠ codePoint '"' := by
      rintro rfl
      exact absurd h (by decide)
    have hslash : c ≠ codePoint '\\' := by
      rintro rfl
      exact absurd h (by decide)
    simp only [shortEscape, if_neg hquote, if_neg hslash]
    rw [if_neg (by omega), if_neg (by omega), if_neg (by omega), if_neg (by omega),
      if_neg (by omega)]
  unfold plainEscape
  rw [hshort]
  exact if_neg (by omega)

/-- A character is not escaped, or escaped as in ASCII. -/
theorem plainEscape_eq (c : CodePoint) : plainEscape c = [c] ∨ plainEscape c = asciiEscape c := by
  unfold plainEscape asciiEscape
  cases shortEscape c with
  | some letter => exact .inr rfl
  | none =>
    by_cases hlow : c.val < 0x20
    · simp only [if_pos hlow]
      rw [if_neg (by omega), if_pos (by omega)]
      exact .inr rfl
    · exact .inl (if_neg hlow)

/-- A surrogate stays in the text of its string. -/
theorem mem_dumpString_compact {s : Text} {c : CodePoint} (hc : c ∈ s) (h : isSurrogate c = true) :
    c ∈ dumpString compact s := by
  have hmem : c ∈ s.flatMap plainEscape :=
    List.mem_flatMap.mpr ⟨c, hc, by simp [plainEscape_of_surrogate h]⟩
  exact List.mem_cons_of_mem _ (List.mem_append_left _ hmem)

theorem mem_dumpFields {fields : List (Text × Json)} {f : Text × Json} (hf : f ∈ fields)
    {c : CodePoint} (hc : c ∈ dump style level f.2) : c ∈ dumpFields style level fields := by
  induction fields with
  | nil => exact (List.not_mem_nil hf).elim
  | cons g fields ih =>
    obtain ⟨key, value⟩ := g
    rcases List.mem_cons.mp hf with rfl | hf
    · simp [dumpFields, hc]
    · simp [dumpFields, ih hf]

/-- The text of an object holds the texts of its members. -/
theorem mem_dump_obj {fields : List (Text × Json)} {f : Text × Json} (hf : f ∈ fields)
    {c : CodePoint} (hc : c ∈ dump style (level + 1) f.2) : c ∈ dump style level (.obj fields) := by
  cases fields with
  | nil => exact (List.not_mem_nil hf).elim
  | cons g fields =>
    obtain ⟨key, value⟩ := g
    rcases List.mem_cons.mp hf with rfl | hf
    · simp [dump, hc]
    · simp [dump, mem_dumpFields hf hc]

theorem mem_dump_sortKeys_obj {fields : List (Text × Json)} {f : Text × Json} (hf : f ∈ fields)
    {c : CodePoint} (hc : c ∈ dump style (level + 1) (sortKeys f.2)) :
    c ∈ dump style level (sortKeys (.obj fields)) := by
  have hsorted := (sortedFields_perm fields).mem_iff.mpr
    (List.mem_map.mpr ⟨f, hf, rfl⟩ : (f.1, sortKeys f.2) ∈ fields.map fun f => (f.1, sortKeys f.2))
  exact mem_dump_obj hsorted hc

/-- The text of an object holds its keys. -/
theorem mem_dumpFields_key {fields : List (Text × Json)} {f : Text × Json} (hf : f ∈ fields)
    {c : CodePoint} (hc : c ∈ dumpString style f.1) : c ∈ dumpFields style level fields := by
  induction fields with
  | nil => exact (List.not_mem_nil hf).elim
  | cons g fields ih =>
    obtain ⟨key, value⟩ := g
    rcases List.mem_cons.mp hf with rfl | hf
    · simp [dumpFields, hc]
    · simp [dumpFields, ih hf]

theorem mem_dump_sortKeys_key {fields : List (Text × Json)} {f : Text × Json} (hf : f ∈ fields)
    {c : CodePoint} (hc : c ∈ dumpString style f.1) :
    c ∈ dump style level (sortKeys (.obj fields)) := by
  have hsorted := (sortedFields_perm fields).mem_iff.mpr
    (List.mem_map.mpr ⟨f, hf, rfl⟩ : (f.1, sortKeys f.2) ∈ fields.map fun f => (f.1, sortKeys f.2))
  show c ∈ dump style level (.obj ((sortFields fields).mergeSort fun f g => textLe f.1 g.1))
  revert hsorted
  cases (sortFields fields).mergeSort fun f g => textLe f.1 g.1 with
  | nil => exact fun hsorted => (List.not_mem_nil hsorted).elim
  | cons g others =>
    intro hsorted
    obtain ⟨key, value⟩ := g
    rcases List.mem_cons.mp hsorted with hfirst | hsorted
    · cases hfirst
      simp [dump, hc]
    · simp [dump, mem_dumpFields_key hsorted hc]

/-- The text of an array holds the texts of its items. -/
theorem mem_dumpItems {items : List Json} {v : Json} (hv : v ∈ items) {c : CodePoint}
    (hc : c ∈ dump style level v) : c ∈ dumpItems style level items := by
  induction items with
  | nil => exact (List.not_mem_nil hv).elim
  | cons item items ih =>
    rcases List.mem_cons.mp hv with rfl | hv
    · simp [dumpItems, hc]
    · simp [dumpItems, ih hv]

theorem mem_dump_sortKeys_arr {items : List Json} {v : Json} (hv : v ∈ items) {c : CodePoint}
    (hc : c ∈ dump style (level + 1) (sortKeys v)) :
    c ∈ dump style level (sortKeys (.arr items)) := by
  have hmem : sortKeys v ∈ sortItems items := by
    rw [sortItems_eq]
    exact List.mem_map_of_mem hv
  show c ∈ dump style level (.arr (sortItems items))
  revert hmem
  cases sortItems items with
  | nil => exact fun hmem => (List.not_mem_nil hmem).elim
  | cons item others =>
    intro hmem
    rcases List.mem_cons.mp hmem with rfl | hmem
    · simp [dump, hc]
    · simp [dump, mem_dumpItems hmem hc]

/-- A text in the compact style has no surrogate if its string has none. -/
theorem noSurrogate_of_dumpString {s : Text}
    (h : ∀ c ∈ dumpString compact s, isSurrogate c = false) : NoSurrogate s := by
  intro c hc
  by_contra hsurrogate
  rw [Bool.not_eq_false] at hsurrogate
  have hnone := h c (mem_dumpString_compact hc hsurrogate)
  rw [hnone] at hsurrogate
  cases hsurrogate

/-- The compact style writes surrogates only where the texts of a value have them. -/
theorem writesOf_compact : compact.WritesOf NoSurrogate fun c => isSurrogate c = false where
  string s hs d hd := by
    simp only [dumpString, List.mem_cons, List.mem_append, List.mem_flatMap, List.not_mem_nil,
      or_false] at hd
    rcases hd with rfl | ⟨c, hc, hd⟩ | rfl
    · decide
    · -- an escape is ASCII, and a character that is not escaped is one of the text
      change d ∈ plainEscape c at hd
      rcases plainEscape_eq c with hplain | hplain
      · have hsame : d = c := List.mem_singleton.mp (hplain ▸ hd)
        rw [hsame]
        exact hs c hc
      · exact isSurrogate_of_printable (isPrintable_asciiEscape (hplain ▸ hd))
    · decide
  newline _ _ hd := (List.not_mem_nil hd).elim
  gap _ hd := (List.not_mem_nil hd).elim
  printable _ h := isSurrogate_of_printable h

/-- The compact text of a value has no surrogate if and only if its texts have none. -/
theorem plain_noSurrogate_iff {good : Text → Prop} {v : Json} (h : Plain good v) (level : Nat) :
    Plain NoSurrogate v ↔ ∀ c ∈ dump compact level (sortKeys v), isSurrogate c = false := by
  refine ⟨fun hplain => forall_mem_dump writesOf_compact hplain.sortKeys level, ?_⟩
  induction h generalizing level with
  | null => exact fun _ => .null
  | bool b => exact fun _ => .bool b
  | int n => exact fun _ => .int n
  | float hliteral => exact fun _ => .float hliteral
  | str hgood => exact fun hclean => .str (noSurrogate_of_dumpString hclean)
  | arr hitems ih =>
    intro hclean
    refine .arr fun item hitem => ih item hitem (level + 1) ?_
    exact fun c hc => hclean c (mem_dump_sortKeys_arr hitem hc)
  | obj hnodup hkeys hfields ih =>
    intro hclean
    refine .obj hnodup (fun f hf => ?_) fun f hf => ih f hf (level + 1) ?_
    · exact noSurrogate_of_dumpString fun c hc => hclean c (mem_dump_sortKeys_key hf hc)
    · exact fun c hc => hclean c (mem_dump_sortKeys_obj hf hc)

end Written

end JsonText
