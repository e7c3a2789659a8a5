import Mathlib.Data.List.DropRight
import Mathlib.Data.List.Infix
import Mathlib.Tactic.Common

namespace Lines

/-!
# Lines of a text, each with its end

A text over any alphabet is cut behind every line break; two breaks that form one line end
(carriage return, line feed) stay together.

* `Breaks` / `splitLines`: the convention, and the lines of a text.
* `flatten_splitLines`: the lines are the text.
* `splitLines_append`: two texts that meet at a line end are split apart.
* `tail_splitLines_suffix`: a text and each of its ends agree on all lines but the first of the end.
* `count_lt_length`: line feeds bound the number of lines from below.
-/

/-- What ends a line.  `cr` and `lf` side by side end one line together. -/
structure Breaks (α : Type*) where
  cr : α
  lf : α
  isBreak : α → Bool
  lf_isBreak : isBreak lf = true
  cr_ne_lf : cr ≠ lf

variable {α : Type*} [DecidableEq α] (br : Breaks α)

/-- The line ends behind `c` when `rest` follows. -/
def Breaks.ends (c : α) (rest : List α) : Bool :=
  br.isBreak c && !(decide (c = br.cr) && decide (rest.head? = some br.lf))

/-- `splitlines(keepends=True)`. -/
def splitLines : List α → List (List α)
  | [] => []
  | c :: rest =>
    if br.ends c rest then [c] :: splitLines rest
    else match splitLines rest with
      | [] => [[c]]
      | line :: lines => (c :: line) :: lines

variable {br}

/-! ### The lines are the text -/

theorem splitLines_of_ends {c : α} {rest : List α} (h : br.ends c rest = true) :
    splitLines br (c :: rest) = [c] :: splitLines br rest := by
  rw [splitLines, if_pos h]

theorem flatten_splitLines (s : List α) : (splitLines br s).flatten = s := by
  induction s with
  | nil => rfl
  | cons c rest ih =>
    rw [splitLines]
    split
    case isTrue => rw [List.flatten_cons, ih, List.singleton_append]
    case isFalse =>
      split
      case h_1 hnil =>
        rw [hnil] at ih
        rw [← ih]
        rfl
      case h_2 line lines hcons =>
        rw [hcons, List.flatten_cons] at ih
        rw [List.flatten_cons, List.cons_append, ih]

theorem splitLines_eq_nil {s : List α} : splitLines br s = [] ↔ s = [] := by
  constructor
  · intro h
    rw [← @flatten_splitLines _ _ br s, h]
    rfl
  · rintro rfl
    rfl

/-- Without an end behind it, a character joins the line that follows. -/
theorem splitLines_of_not_ends {c : α} {rest : List α} (h : br.ends c rest = false)
    {line : List α} {lines : List (List α)} (hrest : splitLines br rest = line :: lines) :
    splitLines br (c :: rest) = (c :: line) :: lines := by
  rw [splitLines, if_neg (by simp [h]), hrest]

/-! ### Texts that meet at a line end -/

/-- A text stops where a line ends, whatever follows: it is empty, or its last character is a break
    that starts no pair. -/
def Breaks.Whole (br : Breaks α) (s : List α) : Prop :=
  ∀ c ∈ s.getLast?, br.isBreak c = true ∧ c ≠ br.cr

omit [DecidableEq α] in
theorem Breaks.Whole.of_append {s t : List α} (h : br.Whole (s ++ t)) (ht : t ≠ []) :
    br.Whole t := by
  intro c hc
  refine h c ?_
  rw [List.getLast?_append_of_ne_nil _ ht]
  exact hc

omit [DecidableEq α] in
theorem Breaks.whole_concat_lf (s : List α) : br.Whole (s ++ [br.lf]) := by
  intro c hc
  have heq : br.lf = c := by simpa using hc
  subst heq
  exact ⟨br.lf_isBreak, br.cr_ne_lf.symm⟩

/-- What follows a character decides only whether a pair is formed. -/
theorem Breaks.ends_append {c d : α} {s : List α} (t : List α) :
    br.ends c (d :: s ++ t) = br.ends c (d :: s) := by
  simp [Breaks.ends]

theorem Breaks.ends_of_whole {c : α} (h : br.Whole [c]) (t : List α) : br.ends c t = true := by
  obtain ⟨hbreak, hcr⟩ := h c rfl
  simp [Breaks.ends, hbreak, hcr]

theorem splitLines_append {s : List α} (h : br.Whole s) (t : List α) :
    splitLines br (s ++ t) = splitLines br s ++ splitLines br t := by
  induction s with
  | nil => rfl
  | cons c s ih =>
    cases s with
    | nil =>
      have hends := Breaks.ends_of_whole h
      rw [List.singleton_append, splitLines_of_ends (hends t), splitLines_of_ends (hends [])]
      rfl
    | cons d s =>
      have htail : br.Whole (d :: s) := h.of_append (s := [c]) (List.cons_ne_nil d s)
      have hsame : br.ends c (d :: s ++ t) = br.ends c (d :: s) := Breaks.ends_append t
      have hne : splitLines br (d :: s) ≠ [] := by simp [splitLines_eq_nil]
      obtain ⟨line, lines, hlines⟩ := List.exists_cons_of_ne_nil hne
      cases hends : br.ends c (d :: s) with
      | true =>
        rw [List.cons_append, splitLines_of_ends (hsame.trans hends), ih htail,
          splitLines_of_ends hends]
        rfl
      | false =>
        have happ : splitLines br (d :: s ++ t) = line :: (lines ++ splitLines br t) := by
          rw [ih htail, hlines]
          rfl
        rw [List.cons_append, splitLines_of_not_ends (hsame.trans hends) happ,
          splitLines_of_not_ends hends hlines]
        rfl

theorem Breaks.ends_of_not_break {c : α} (h : br.isBreak c = false) (t : List α) :
    br.ends c t = false := by
  simp [Breaks.ends, h]

/-- A text with no break but at its end is one line. -/
theorem splitLines_eq_singleton {s : List α} (hne : s ≠ [])
    (h : ∀ c ∈ s.dropLast, br.isBreak c = false) : splitLines br s = [s] := by
  induction s with
  | nil => exact absurd rfl hne
  | cons c s ih =>
    cases s with
    | nil =>
      rw [splitLines]
      split <;> rfl
    | cons d s =>
      have hc := Breaks.ends_of_not_break (h c (by simp)) (d :: s)
      refine splitLines_of_not_ends hc (ih (List.cons_ne_nil d s) fun x hx => h x ?_)
      rw [List.dropLast_cons_cons]
      exact List.mem_cons_of_mem _ hx

/-- Characters that are no breaks join the line that follows. -/
theorem splitLines_append_of_not_break {s t line : List α} {lines : List (List α)}
    (h : ∀ c ∈ s, br.isBreak c = false) (ht : splitLines br t = line :: lines) :
    splitLines br (s ++ t) = (s ++ line) :: lines := by
  induction s with
  | nil => exact ht
  | cons c s ih =>
    have hc := Breaks.ends_of_not_break (h c List.mem_cons_self) (s ++ t)
    exact splitLines_of_not_ends hc (ih fun x hx => h x (List.mem_cons_of_mem _ hx))

/-- A line that is ended by a line feed stands alone at the head of a text. -/
theorem splitLines_line {s : List α} (h : ∀ c ∈ s, br.isBreak c = false) (t : List α) :
    splitLines br (s ++ br.lf :: t) = (s ++ [br.lf]) :: splitLines br t := by
  have hone : splitLines br (s ++ [br.lf]) = [s ++ [br.lf]] :=
    splitLines_eq_singleton (by simp) (by simpa using h)
  rw [List.append_cons, splitLines_append (Breaks.whole_concat_lf s), hone]
  rfl

/-! ### The end of a text -/

/-- Reading from anywhere inside a text gives the lines of the whole text, the first one apart. -/
theorem tail_splitLines_suffix (s t : List α) :
    (splitLines br t).tail <:+ (splitLines br (s ++ t)).tail := by
  induction s with
  | nil => exact List.suffix_rfl
  | cons c s ih =>
    rw [List.cons_append, splitLines]
    split
    case isTrue => exact ih.trans (List.tail_suffix _)
    case isFalse =>
      split
      case h_1 hnil =>
        rw [hnil] at ih
        exact ih
      case h_2 hcons =>
        rw [hcons] at ih
        exact ih

/-- The last lines of a text are among the lines of an end that has more lines than that. -/
theorem rtake_splitLines (s t : List α) {n : Nat} (h : n < (splitLines br t).length ∨ s = []) :
    (splitLines br t).rtake n = (splitLines br (s ++ t)).rtake n := by
  obtain hlt | rfl := h
  · obtain ⟨front, hfront⟩ := (@tail_splitLines_suffix _ _ br s t).trans (List.tail_suffix _)
    have hlength : n ≤ (splitLines br t).tail.length := by
      rw [List.length_tail]
      omega
    obtain ⟨first, hfirst⟩ := List.tail_suffix (splitLines br t)
    have hrtake : ∀ (xs ys : List (List α)), n ≤ ys.length → (xs ++ ys).rtake n = ys.rtake n := by
      intro xs ys hle
      have hsplit : (xs ++ ys).length - n = xs.length + (ys.length - n) := by
        rw [List.length_append]
        omega
      rw [List.rtake, List.rtake, hsplit, List.drop_length_add_append]
    rw [← hfront, hrtake _ _ hlength, ← hrtake first _ hlength, hfirst]
  · rfl

/-- Every line feed ends a line. -/
theorem count_le_length (s : List α) : s.count br.lf ≤ (splitLines br s).length := by
  induction s with
  | nil => simp
  | cons c s ih =>
    rw [splitLines]
    split
    case isTrue =>
      rw [List.count_cons, List.length_cons]
      split <;> omega
    case isFalse hends =>
      have hne : c ≠ br.lf := by
        rintro rfl
        exact hends (by simp [Breaks.ends, br.lf_isBreak, br.cr_ne_lf.symm])
      rw [List.count_cons_of_ne hne]
      split
      case h_1 hnil =>
        rw [hnil] at ih
        exact ih.trans (by simp)
      case h_2 hcons =>
        rw [hcons] at ih
        exact ih

/-- What stands behind the last line feed is one more line. -/
theorem count_lt_length {s : List α} (hne : s ≠ []) (hlast : s.getLast? ≠ some br.lf) :
    s.count br.lf < (splitLines br s).length := by
  induction s with
  | nil => exact absurd rfl hne
  | cons c s ih =>
    cases s with
    | nil =>
      have hc : c ≠ br.lf := by simpa using hlast
      rw [List.count_cons_of_ne hc]
      exact List.length_pos_of_ne_nil (by simp [splitLines_eq_nil])
    | cons d s =>
      have hrest := ih (List.cons_ne_nil d s) (by simpa using hlast)
      have hlines : splitLines br (d :: s) ≠ [] := by simp [splitLines_eq_nil]
      obtain ⟨line, lines, hcons⟩ := List.exists_cons_of_ne_nil hlines
      cases hends : br.ends c (d :: s) with
      | true =>
        rw [List.count_cons, splitLines_of_ends hends, List.length_cons]
        split <;> omega
      | false =>
        have hc : c ≠ br.lf := by
          rintro rfl
          simp [Breaks.ends, br.lf_isBreak, br.cr_ne_lf.symm] at hends
        rw [List.count_cons_of_ne hc, splitLines_of_not_ends hends hcons]
        rw [hcons] at hrest
        exact hrest

end Lines
