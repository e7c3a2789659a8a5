import Devlegate.Lib.Json
import Devlegate.Lib.Lines

namespace Devlegate

open JsonText Lines

/-!
# Lines of a Python text

* `isLineBoundary` / `strBreaks`: the line boundaries of `str.splitlines`.
* `pythonLines`: `splitlines()`, without the ends.
* `pythonLines_append_cons` / `pythonLines_flatMap`: lines without a boundary are read back.
* `stripLineEnds` / `rstripLineEnds`: `strip("\r\n")` and `rstrip("\r\n")`.
* `not_lineEnd_stripLineEnds`: no line end is left at the end.
-/

def lineFeed : CodePoint := ofCode 0x0a

def carriageReturn : CodePoint := ofCode 0x0d

/-- The characters behind which `str.splitlines` ends a line. -/
def isLineBoundary (c : CodePoint) : Bool :=
  (0x0a ≤ c.val && c.val ≤ 0x0d) || (0x1c ≤ c.val && c.val ≤ 0x1e) || c.val == 0x85
    || c.val == 0x2028 || c.val == 0x2029

/-- The line ends of `str.splitlines`. -/
def strBreaks : Breaks CodePoint where
  cr := carriageReturn
  lf := lineFeed
  isBreak := isLineBoundary
  lf_isBreak := by decide
  cr_ne_lf := by decide

/-- `text.splitlines()`. -/
def pythonLines (s : Text) : List Text :=
  (splitLines strBreaks s).map fun line => line.rdropWhile isLineBoundary

/-- `\r` or `\n`. -/
def isLineEnd (c : CodePoint) : Bool := c = lineFeed || c = carriageReturn

/-- `text.rstrip("\r\n")`. -/
def rstripLineEnds (s : Text) : Text := s.rdropWhile isLineEnd

/-- `text.strip("\r\n")`. -/
def stripLineEnds (s : Text) : Text := rstripLineEnds (s.dropWhile isLineEnd)

/-- A line is what stands before a boundary that starts no pair. -/
theorem pythonLines_append_cons {line : Text} {b : CodePoint} (rest : Text)
    (hline : ∀ c ∈ line, isLineBoundary c = false) (hb : isLineBoundary b = true)
    (hcr : b ≠ carriageReturn) :
    pythonLines (line ++ b :: rest) = line :: pythonLines rest := by
  have hwhole : strBreaks.Whole (line ++ [b]) := by
    intro c hc
    have heq : b = c := by simpa using hc
    subst heq
    exact ⟨hb, hcr⟩
  have hone : splitLines strBreaks (line ++ [b]) = [line ++ [b]] :=
    splitLines_eq_singleton (by simp) (by simpa [strBreaks] using hline)
  have hbody : (line ++ [b]).rdropWhile isLineBoundary = line := by
    rw [List.rdropWhile_concat_pos _ _ _ hb, List.rdropWhile_eq_self_iff]
    intro hne hlast
    rw [hline _ (List.getLast_mem hne)] at hlast
    cases hlast
  rw [List.append_cons, pythonLines, splitLines_append hwhole, hone, List.map_append,
    List.map_singleton, hbody]
  rfl

theorem pythonLines_line {line : Text} (rest : Text)
    (hline : ∀ c ∈ line, isLineBoundary c = false) :
    pythonLines (line ++ lineFeed :: rest) = line :: pythonLines rest :=
  pythonLines_append_cons rest hline (by decide) (by decide)

/-- Lines without a boundary inside are read back. -/
theorem pythonLines_flatMap {lines : List Text}
    (h : ∀ line ∈ lines, ∀ c ∈ line, isLineBoundary c = false) :
    pythonLines (lines.flatMap fun line => line ++ [lineFeed]) = lines := by
  induction lines with
  | nil => rfl
  | cons line lines ih =>
    rw [List.flatMap_cons, List.append_assoc, List.singleton_append,
      pythonLines_line _ (h line List.mem_cons_self)]
    exact congrArg (line :: ·) (ih fun l hl => h l (List.mem_cons_of_mem _ hl))

theorem not_lineEnd_stripLineEnds {s : Text} {c : CodePoint} (h : (stripLineEnds s).getLast? = some c) :
    isLineEnd c = false := by
  have hne : stripLineEnds s ≠ [] := by
    intro hnil
    rw [hnil] at h
    cases h
  have hlast := List.rdropWhile_last_not isLineEnd (s.dropWhile isLineEnd) hne
  rw [List.getLast?_eq_getLast_of_ne_nil hne] at h
  obtain rfl := Option.some.inj h
  exact (Bool.not_eq_true _).mp hlast

end Devlegate
