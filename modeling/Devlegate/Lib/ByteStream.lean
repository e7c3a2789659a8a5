import Mathlib.Tactic.Common

namespace ByteStream

/-!
# Reading a byte stream line by line with a size limit

* `takeLine` / `splitLines`: the lines of a stream, each with its line end; the last one may
  lack it.
* `readline`: one `stream.readline(limit)` of a buffered reader.
* `discard`: reading on until the end of the current line.

The facts a reader loop needs: a short read is a whole line (`readline_eq_takeLine`), and after a
full read that stops inside a line the rest of that line is what `discard` drops
(`takeLine_readline_snd`, `discard_eq`).  So a loop over reads is a loop over lines.
-/

/-- The line end. -/
def newline : UInt8 := 10

/-- The first line of a stream, and what follows it. -/
def takeLine : List UInt8 → List UInt8 × List UInt8
  | [] => ([], [])
  | b :: bs => if b = newline then ([b], bs) else (b :: (takeLine bs).1, (takeLine bs).2)

/-- All lines of a stream. -/
def splitLines : List UInt8 → List (List UInt8)
  | [] => []
  | b :: bs =>
    if b = newline then [b] :: splitLines bs
    else match splitLines bs with
      | [] => [[b]]
      | line :: lines => (b :: line) :: lines

/-- `stream.readline(limit)`: at most `limit` octets, never past a line end; empty only at the
    end of the stream. -/
def readline : Nat → List UInt8 → List UInt8 × List UInt8
  | 0, bs => ([], bs)
  | _ + 1, [] => ([], [])
  | n + 1, b :: bs =>
    if b = newline then ([b], bs) else (b :: (readline n bs).1, (readline n bs).2)

/-- `chunk.endswith(b"\n")`. -/
def endsLine (chunk : List UInt8) : Bool := chunk.getLast? == some newline

theorem splitLines_eq_cons {bs : List UInt8} (h : bs ≠ []) :
    splitLines bs = (takeLine bs).1 :: splitLines (takeLine bs).2 := by
  induction bs with
  | nil => exact absurd rfl h
  | cons b bs ih =>
    by_cases hb : b = newline
    · simp [splitLines, takeLine, hb]
    · cases bs with
      | nil => simp [splitLines, takeLine, hb]
      | cons c cs =>
        have ht : takeLine (b :: c :: cs) = (b :: (takeLine (c :: cs)).1, (takeLine (c :: cs)).2) := by
          rw [takeLine, if_neg hb]
        rw [splitLines, if_neg hb, ih (by simp), ht]

theorem length_takeLine_snd_lt {bs : List UInt8} (h : bs ≠ []) :
    (takeLine bs).2.length < bs.length := by
  induction bs with
  | nil => exact absurd rfl h
  | cons b bs ih =>
    by_cases hb : b = newline
    · simp [takeLine, hb]
    · cases bs with
      | nil => simp [takeLine, hb]
      | cons c cs =>
        have hih := ih (by simp)
        simp only [takeLine, hb, if_false, List.length_cons] at hih ⊢
        omega

/-! ### One read against one line -/

theorem length_readline_snd_lt {n : Nat} {bs : List UInt8} (h : bs ≠ []) :
    (readline (n + 1) bs).2.length < bs.length := by
  induction bs generalizing n with
  | nil => exact absurd rfl h
  | cons b bs ih =>
    by_cases hb : b = newline
    · simp [readline, hb]
    · cases n with
      | zero => simp [readline, hb]
      | succ n =>
        cases bs with
        | nil => simp [readline, hb]
        | cons c cs =>
          have hih := ih (n := n) (by simp)
          rw [readline, if_neg hb]
          simp only [List.length_cons] at hih ⊢
          omega

/-- A read that returns fewer octets than it may is the whole line. -/
theorem readline_eq_takeLine {n : Nat} {bs : List UInt8} (h : (readline n bs).1.length < n) :
    readline n bs = takeLine bs := by
  induction bs generalizing n with
  | nil => cases n <;> simp [readline, takeLine]
  | cons b bs ih =>
    cases n with
    | zero => simp at h
    | succ n =>
      by_cases hb : b = newline
      · simp [readline, takeLine, hb]
      · simp only [readline, hb, if_false, List.length_cons, Nat.add_lt_add_iff_right] at h
        simp [readline, takeLine, hb, ih h]

/-- A read never goes past the line. -/
theorem length_readline_fst_le (n : Nat) (bs : List UInt8) :
    (readline n bs).1.length ≤ (takeLine bs).1.length := by
  induction bs generalizing n with
  | nil => cases n <;> simp [readline]
  | cons b bs ih =>
    cases n with
    | zero => simp [readline]
    | succ n => by_cases hb : b = newline <;> simp [readline, takeLine, hb, ih]

private theorem endsLine_cons {b : UInt8} {l : List UInt8} (h : endsLine l) :
    endsLine (b :: l) := by
  cases l with
  | nil => simp [endsLine] at h
  | cons c cs => simpa [endsLine, List.getLast?_cons_cons] using h

/-- A read that returns a line end has read the whole line. -/
theorem readline_snd_of_endsLine {n : Nat} {bs : List UInt8} (h : endsLine (readline n bs).1) :
    (readline n bs).2 = (takeLine bs).2 := by
  induction bs generalizing n with
  | nil => cases n <;> simp [readline, takeLine]
  | cons b bs ih =>
    cases n with
    | zero => simp [readline, endsLine] at h
    | succ n =>
      by_cases hb : b = newline
      · simp [readline, takeLine, hb]
      · simp only [readline, hb, if_false] at h
        simp only [readline, takeLine, hb, if_false]
        refine ih ?_
        cases hl : (readline n bs).1 with
        | nil => simp [hl, endsLine, hb] at h
        | cons c cs => simpa [hl, endsLine, List.getLast?_cons_cons] using h

/-- A read that stops inside a line leaves the rest of that line. -/
theorem takeLine_readline_snd {n : Nat} {bs : List UInt8} (h : ¬ endsLine (readline n bs).1) :
    (takeLine (readline n bs).2).2 = (takeLine bs).2 := by
  induction bs generalizing n with
  | nil => cases n <;> simp [readline]
  | cons b bs ih =>
    cases n with
    | zero => simp [readline]
    | succ n =>
      by_cases hb : b = newline
      · simp [readline, hb, endsLine] at h
      · simp only [readline, hb, if_false] at h
        simp only [readline, takeLine, hb, if_false]
        exact ih fun hl => h (endsLine_cons hl)

/-! ### Dropping the rest of a line -/

/-- Read with `limit` until a read ends the line or the stream is at its end. -/
def discard (limit : Nat) (bs : List UInt8) : List UInt8 :=
  if h : bs = [] then []
  else
    if endsLine (readline (limit + 1) bs).1 then (readline (limit + 1) bs).2
    else discard limit (readline (limit + 1) bs).2
termination_by bs.length
decreasing_by exact length_readline_snd_lt h

theorem discard_eq (limit : Nat) (bs : List UInt8) : discard limit bs = (takeLine bs).2 := by
  induction hn : bs.length using Nat.strongRecOn generalizing bs with
  | ind n ih =>
    rw [discard]
    split
    case isTrue h => simp [h, takeLine]
    case isFalse h =>
      split
      case isTrue hend => exact readline_snd_of_endsLine hend
      case isFalse hend =>
        have hlt := length_readline_snd_lt (n := limit) h
        rw [ih _ (hn ▸ hlt) _ rfl, takeLine_readline_snd hend]

end ByteStream
