import Devlegate.PythonText

namespace Devlegate.Prompt

open JsonText Lines

/-!
# The worker prompt

`build_worker_prompt` puts the text of a ticket, which is not trusted, behind two packaged texts.
The fence around it has one tilde more than any run of tildes inside.

* `buildWorkerPrompt`: the prompt.
* `LineRule` / `readFences`: a reader that knows fences, for any convention about line ends.
* `le_longestRun`: a line inside the assignment has too few tildes to close the fence.
* `readFences_prompt`: the reader finds the packaged lines and one block, the assignment.
* `buildWorkerPrompt_sections`: so its headings are the three of the prompt, and the prompt
  determines the directive and the assignment.
-/

/-! ### The packaged texts -/

inductive WorkDirective where
  | fresh
  | resume
  | rework
  deriving DecidableEq, Repr

/-- `core_contract.txt`, line by line. -/
def coreContractFile : List String :=
  [ "You are an implementation worker.",
    "",
    "Implement the assigned work in the current repository workspace.",
    "Work only on the assigned task.",
    "Inspect source code and tests as needed.",
    "Preserve unrelated behavior.",
    "Run focused validation as appropriate.",
    "The worker owns implementation edits and the semantic claim only. Do not commit,",
    "push, merge, rebase, checkout, switch branches, create or delete branches,",
    "modify workflow or ticket state, write ExecutionReport artifacts, or integrate",
    "implementation changes into a product branch. Devlegate owns Git lifecycle,",
    "execution reports, ticket movement, and product integration.",
    "",
    "Before finishing, call the devlegate_report tool exactly once. Report one of",
    "these worker claims: completed when you believe the assigned work is complete,",
    "incomplete when useful work remains, or blocked when safe progress needs",
    "external information or action.",
    "",
    "The devlegate_report fields have distinct meanings:",
    "- summary is a concise human-readable description of the implemented changes,",
    "  normally one to three short sentences. Do not put test counts, validation",
    "  status, remaining work, questions, execution IDs, or other provenance in it.",
    "- remaining is a list of concrete unfinished work. Use an empty list when no",
    "  unfinished work remains.",
    "- questions is a list of external questions or decisions required to proceed.",
    "  Use an empty list when no decision is needed." ]

/-- `fresh.txt`. -/
def freshFile : List String :=
  [ "Implement the assigned work in the current workspace." ]

/-- `resume.txt`. -/
def resumeFile : List String :=
  [ "Continue the existing implementation in the current workspace. Inspect the "
      ++ "existing workspace and current changes before editing. Preserve useful existing "
      ++ "changes and do not discard valid partial work. Continue the same assigned work." ]

/-- `rework.txt`. -/
def reworkFile : List String :=
  [ "Revise the existing implementation according to the supplied feedback while "
      ++ "preserving correct work already present." ]

/-- `_prompt_text`. -/
def promptText (file : List String) : Text :=
  rstripLineEnds (file.flatMap fun line => text line ++ [lineFeed])

/-- `_CORE_CONTRACT`. -/
def coreContract : Text := promptText coreContractFile

/-- `_DIRECTIVES`. -/
def directiveText : WorkDirective → Text
  | .fresh => promptText freshFile
  | .resume => promptText resumeFile
  | .rework => promptText reworkFile

/-! ### The prompt -/

structure WorkerPromptInput where
  assignment : Text
  directive : WorkDirective

def tilde : CodePoint := codePoint '~'

/-- The lengths of the matches of `~+`, after `run` tildes. -/
def tildeRuns (run : Nat) : Text → List Nat
  | [] => if run = 0 then [] else [run]
  | c :: s =>
    if c = tilde then tildeRuns (run + 1) s
    else (if run = 0 then [] else [run]) ++ tildeRuns 0 s

/-- `max((len(run) for run in runs), default=0)`. -/
def longestRun (value : Text) : Nat := (tildeRuns 0 value).foldr max 0

/-- The fence of `_fenced_content`. -/
def fence (value : Text) : Text := List.replicate (max 3 (longestRun value + 1)) tilde

/-- `_fenced_content`. -/
def fencedContent (value : Text) : Text :=
  fence value ++ text "text\n" ++ value ++ text "\n" ++ fence value

/-- `_content`. -/
def content (value : Text) : Text := stripLineEnds value

/-- The sections: title, text, and whether the text is not trusted. -/
def sections (directive : WorkDirective) (assignment : Text) : List (Text × Text × Bool) :=
  [(text "Core Worker Contract", coreContract, false),
    (text "Work Directive", directiveText directive, false),
    (text "Assigned Work", assignment, true)]

/-- One section. -/
def renderSection : Text × Text × Bool → Text
  | (title, value, untrusted) =>
    text "## " ++ title ++ text "\n" ++ if untrusted then fencedContent value else value

/-- `build_worker_prompt`. -/
def buildWorkerPrompt (promptInput : WorkerPromptInput) : Except String Text :=
  if content promptInput.assignment = [] then .error "assigned work must not be empty"
  else
    .ok (List.intercalate (text "\n\n")
      ((sections promptInput.directive (content promptInput.assignment)).map renderSection)
      ++ text "\n")

/-! ### Reading fences -/

/-- What ends a line for a reader: at least the line feed, and at most what ends a line in
    Python. -/
structure LineRule where
  breaks : Breaks CodePoint
  lf_eq : breaks.lf = lineFeed
  cr_eq : breaks.cr = carriageReturn
  boundary : ∀ c, breaks.isBreak c = true → isLineBoundary c = true

/-- `str.splitlines`. -/
def LineRule.python : LineRule := ⟨strBreaks, rfl, rfl, fun _ h => h⟩

/-- A piece of a text: a line outside fences, a fenced block, or a block that is never closed. -/
inductive Piece where
  | line (line : Text)
  | block (content : Text)
  | unclosed (content : Text)
  deriving DecidableEq, Repr

/-- A line without its end and without up to three spaces before it. -/
def unindented (rule : LineRule) (line : Text) : Text :=
  let body := line.rdropWhile rule.breaks.isBreak
  body.drop (min 3 (body.takeWhile (· = codePoint ' ')).length)

/-- The tildes of an opening fence. -/
def openingFence (rule : LineRule) (line : Text) : Option Nat :=
  let tildes := ((unindented rule line).takeWhile (· = tilde)).length
  if 3 ≤ tildes then some tildes else none

/-- The line closes a fence of `tildes` tildes. -/
def closesFence (rule : LineRule) (tildes : Nat) (line : Text) : Bool :=
  (unindented rule line).all (· = tilde) && tildes ≤ (unindented rule line).length

/-- A block without the line end before the closing fence. -/
def withoutLastEnd (rule : LineRule) (block : Text) : Text :=
  if rule.breaks.isBreak carriageReturn && (text "\r\n").isSuffixOf block
  then block.dropLast.dropLast else block.dropLast

/-- The fenced blocks of some lines; `fenced` holds the tildes and the lines of the open block. -/
def readFences (rule : LineRule) : Option (Nat × List Text) → List Text → List Piece
  | none, [] => []
  | some (_, block), [] => [.unclosed block.flatten]
  | none, line :: lines =>
    match openingFence rule line with
    | some tildes => readFences rule (some (tildes, [])) lines
    | none => .line line :: readFences rule none lines
  | some (tildes, block), line :: lines =>
    if closesFence rule tildes line then
      .block (withoutLastEnd rule block.flatten) :: readFences rule none lines
    else readFences rule (some (tildes, block ++ [line])) lines

/-- A text as a reader sees it. -/
def readText (rule : LineRule) (s : Text) : List Piece := readFences rule none (splitLines rule.breaks s)

/-- The headings outside blocks. -/
def headings (pieces : List Piece) : List Text :=
  pieces.filterMap fun
    | .line line => if (text "## ").isPrefixOf line then some line else none
    | _ => none

/-! ### Runs of tildes -/

theorem foldr_max_append (runs runs' : List Nat) :
    (runs ++ runs').foldr max 0 = max (runs.foldr max 0) (runs'.foldr max 0) := by
  induction runs with
  | nil => simp
  | cons run runs ih => rw [List.cons_append, List.foldr_cons, ih, List.foldr_cons, max_assoc]

theorem foldr_max_run (run : Nat) : (if run = 0 then [] else [run] : List Nat).foldr max 0 = run := by
  split
  case isTrue h => exact h.symm
  case isFalse => simp

/-- What was counted already is a lower bound. -/
theorem le_tildeRuns (run : Nat) (s : Text) : run ≤ (tildeRuns run s).foldr max 0 := by
  induction s generalizing run with
  | nil => rw [tildeRuns, foldr_max_run]
  | cons c s ih =>
    rw [tildeRuns]
    split
    · exact (Nat.le_succ run).trans (ih (run + 1))
    · rw [foldr_max_append, foldr_max_run]
      exact Nat.le_max_left _ _

theorem tildeRuns_mono (s : Text) {run run' : Nat} (h : run ≤ run') :
    (tildeRuns run s).foldr max 0 ≤ (tildeRuns run' s).foldr max 0 := by
  induction s generalizing run run' with
  | nil => rw [tildeRuns, tildeRuns, foldr_max_run, foldr_max_run]; exact h
  | cons c s ih =>
    rw [tildeRuns, tildeRuns]
    split
    · exact ih (Nat.succ_le_succ h)
    · rw [foldr_max_append, foldr_max_append, foldr_max_run, foldr_max_run]
      omega

/-- Tildes at the head of a text continue the run before it. -/
theorem le_tildeRuns_replicate (n run : Nat) (s : Text) :
    run + n ≤ (tildeRuns run (List.replicate n tilde ++ s)).foldr max 0 := by
  induction n generalizing run with
  | zero => exact le_tildeRuns run s
  | succ n ih =>
    rw [List.replicate_succ, List.cons_append, tildeRuns, if_pos rfl]
    have hrest := ih (run + 1)
    omega

/-- The longest run of a part is no longer than that of the whole. -/
theorem longestRun_suffix (s t : Text) (run : Nat) :
    longestRun t ≤ (tildeRuns run (s ++ t)).foldr max 0 := by
  induction s generalizing run with
  | nil => exact tildeRuns_mono t (Nat.zero_le run)
  | cons c s ih =>
    rw [List.cons_append, tildeRuns]
    split
    · exact ih (run + 1)
    · rw [foldr_max_append]
      exact (ih 0).trans (Nat.le_max_right _ _)

/-- **Runs.** A run of tildes inside a text is no longer than the longest. -/
theorem le_longestRun {n : Nat} {s : Text} (h : List.replicate n tilde <:+: s) :
    n ≤ longestRun s := by
  obtain ⟨front, back, rfl⟩ := h
  have hrun := le_tildeRuns_replicate n 0 back
  rw [List.append_assoc]
  refine le_trans ?_ (longestRun_suffix front (List.replicate n tilde ++ back) 0)
  rw [longestRun]
  omega

theorem longestRun_concat {s : Text} {c : CodePoint} (hc : c ≠ tilde) :
    longestRun (s ++ [c]) = longestRun s := by
  have hruns : ∀ run, tildeRuns run (s ++ [c]) = tildeRuns run s := by
    intro run
    induction s generalizing run with
    | nil => simp [tildeRuns, hc]
    | cons d s ih =>
      rw [List.cons_append, tildeRuns, tildeRuns, ih, ih]
  rw [longestRun, longestRun, hruns]

/-! ### Lines of the prompt -/

section Reading

variable {rule : LineRule}

theorem LineRule.not_break {c : CodePoint} (h : isLineBoundary c = false) :
    rule.breaks.isBreak c = false := by
  cases hbreak : rule.breaks.isBreak c with
  | false => rfl
  | true =>
    rw [rule.boundary c hbreak] at h
    cases h

theorem LineRule.isBreak_lineFeed : rule.breaks.isBreak lineFeed = true := by
  rw [← rule.lf_eq]
  exact rule.breaks.lf_isBreak

theorem LineRule.whole_concat (s : Text) : rule.breaks.Whole (s ++ [lineFeed]) := by
  rw [← rule.lf_eq]
  exact Breaks.whole_concat_lf s

theorem LineRule.whole_of_last {s : Text} (h : s.getLast? = some lineFeed) : rule.breaks.Whole s := by
  intro c hc
  obtain rfl : lineFeed = c := Option.some.inj (h.symm.trans hc)
  refine ⟨LineRule.isBreak_lineFeed, ?_⟩
  rw [rule.cr_eq]
  decide

theorem LineRule.splitLines_line {s : Text} (h : ∀ c ∈ s, isLineBoundary c = false) (t : Text) :
    splitLines rule.breaks (s ++ lineFeed :: t)
      = (s ++ [lineFeed]) :: splitLines rule.breaks t := by
  rw [← rule.lf_eq]
  exact Lines.splitLines_line (fun c hc => LineRule.not_break (h c hc)) t

theorem unindented_isInfix (line : Text) : unindented rule line <:+: line := by
  refine (List.drop_suffix _ _).isInfix.trans ?_
  exact (List.rdropWhile_prefix _ _).isInfix

theorem openingFence_eq_none {line : Text} (h : tilde ∉ line) : openingFence rule line = none := by
  have hnil : (unindented rule line).takeWhile (· = tilde) = [] := by
    rw [List.takeWhile_eq_nil_iff]
    intro hlength hhead
    have hmem := (@unindented_isInfix rule line).subset (List.getElem_mem hlength)
    exact h (of_decide_eq_true hhead ▸ hmem)
  rw [openingFence, hnil]
  rfl

/-- A line that closes a fence holds its tildes. -/
theorem replicate_infix_of_closesFence {tildes : Nat} {line : Text}
    (h : closesFence rule tildes line = true) : List.replicate tildes tilde <:+: line := by
  rw [closesFence, Bool.and_eq_true, List.all_eq_true, decide_eq_true_eq] at h
  obtain ⟨hall, hlength⟩ := h
  have htake : (unindented rule line).take tildes = List.replicate tildes tilde := by
    rw [List.eq_replicate_iff]
    refine ⟨List.length_take_of_le hlength, fun c hc => ?_⟩
    exact of_decide_eq_true (hall c (List.mem_of_mem_take hc))
  rw [← htake]
  exact (List.take_prefix _ _).isInfix.trans (unindented_isInfix line)

/-- Lines that open no fence are read as they are. -/
theorem readFences_lines {lines : List Text} (h : ∀ line ∈ lines, openingFence rule line = none)
    (more : List Text) :
    readFences rule none (lines ++ more) = lines.map .line ++ readFences rule none more := by
  induction lines with
  | nil => rfl
  | cons line lines ih =>
    rw [List.cons_append, readFences, h line List.mem_cons_self]
    dsimp only
    rw [ih fun l hl => h l (List.mem_cons_of_mem _ hl)]
    rfl

/-- Lines that do not close the fence are the block. -/
theorem readFences_block {tildes : Nat} {lines : List Text}
    (h : ∀ line ∈ lines, closesFence rule tildes line = false) {last : Text}
    (hlast : closesFence rule tildes last = true) (block more : List Text) :
    readFences rule (some (tildes, block)) (lines ++ last :: more)
      = .block (withoutLastEnd rule (block ++ lines).flatten) :: readFences rule none more := by
  induction lines generalizing block with
  | nil => rw [List.nil_append, readFences, if_pos hlast, List.append_nil]
  | cons line lines ih =>
    rw [List.cons_append, readFences, if_neg (by simp [h line]),
      ih fun l hl => h l (List.mem_cons_of_mem _ hl), List.append_assoc]
    rfl

/-! ### The prompt is read back -/

/-- The prompt up to its fence. -/
def promptHead (directive : WorkDirective) : Text :=
  text "## Core Worker Contract" ++ lineFeed :: (coreContract ++ [lineFeed] ++ [lineFeed]
    ++ (text "## Work Directive" ++ lineFeed :: (directiveText directive ++ [lineFeed] ++ [lineFeed]
      ++ (text "## Assigned Work" ++ lineFeed :: []))))

theorem text_coreTitle :
    text "## Core Worker Contract" = text "## " ++ text "Core Worker Contract" := by
  rw [@text_eq "## Core Worker Contract" _ rfl, @text_eq "## " _ rfl,
    @text_eq "Core Worker Contract" _ rfl]
  rfl

theorem text_directiveTitle :
    text "## Work Directive" = text "## " ++ text "Work Directive" := by
  rw [@text_eq "## Work Directive" _ rfl, @text_eq "## " _ rfl, @text_eq "Work Directive" _ rfl]
  rfl

theorem text_workTitle : text "## Assigned Work" = text "## " ++ text "Assigned Work" := by
  rw [@text_eq "## Assigned Work" _ rfl, @text_eq "## " _ rfl, @text_eq "Assigned Work" _ rfl]
  rfl

theorem intercalate_three {α : Type*} (sep a b c : List α) :
    List.intercalate sep [a, b, c] = a ++ sep ++ b ++ sep ++ c := by
  simp [List.intercalate]

theorem renderSection_trusted (title value : Text) :
    renderSection (title, value, false) = text "## " ++ title ++ text "\n" ++ value := rfl

theorem renderSection_untrusted (title value : Text) :
    renderSection (title, value, true) = text "## " ++ title ++ text "\n" ++ fencedContent value :=
  rfl

/-- The pieces of a prompt, from section by section to line by line. -/
theorem regroup (hash coreTitle core directiveTitle directive workTitle mark info value : Text) :
    hash ++ coreTitle ++ [lineFeed] ++ core ++ [lineFeed, lineFeed]
        ++ (hash ++ directiveTitle ++ [lineFeed] ++ directive) ++ [lineFeed, lineFeed]
        ++ (hash ++ workTitle ++ [lineFeed]
          ++ (mark ++ (info ++ [lineFeed]) ++ value ++ [lineFeed] ++ mark)) ++ [lineFeed]
      = hash ++ coreTitle ++ lineFeed :: (core ++ [lineFeed] ++ [lineFeed]
          ++ (hash ++ directiveTitle ++ lineFeed :: (directive ++ [lineFeed] ++ [lineFeed]
            ++ (hash ++ workTitle ++ lineFeed :: []))))
        ++ ((mark ++ info) ++ lineFeed :: (value ++ [lineFeed] ++ (mark ++ lineFeed :: []))) := by
  simp only [List.append_assoc, List.cons_append, List.nil_append]

theorem buildWorkerPrompt_eq {promptInput : WorkerPromptInput}
    (h : content promptInput.assignment ≠ []) :
    buildWorkerPrompt promptInput = .ok (promptHead promptInput.directive
      ++ ((fence (content promptInput.assignment) ++ text "text") ++ lineFeed ::
        (content promptInput.assignment ++ [lineFeed]
          ++ (fence (content promptInput.assignment) ++ lineFeed :: [])))) := by
  have hend : text "\n" = [lineFeed] := by decide
  have hsep : text "\n\n" = [lineFeed, lineFeed] := by decide
  have hinfo : text "text\n" = text "text" ++ [lineFeed] := by
    rw [@text_eq "text\n" _ rfl, @text_eq "text" _ rfl]
    rfl
  rw [buildWorkerPrompt, if_neg h, sections, List.map_cons, List.map_cons, List.map_cons,
    List.map_nil, intercalate_three, renderSection_trusted, renderSection_trusted,
    renderSection_untrusted, fencedContent, hend, hsep, hinfo, promptHead, text_coreTitle,
    text_directiveTitle, text_workTitle]
  exact congrArg Except.ok (regroup _ _ _ _ _ _ _ _ _)

/-- No character is a tilde or a number sign. -/
def Plain (s : Text) : Prop := tilde ∉ s ∧ codePoint '#' ∉ s

def PlainFile (file : List String) : Prop := ∀ line ∈ file, Plain (text line)

/-- The text of a file has no characters but those of its lines. -/
theorem plain_promptText {file : List String} (h : PlainFile file) : Plain (promptText file) := by
  have hmem : ∀ c, c ≠ lineFeed → (∀ line ∈ file, c ∉ text line) → c ∉ promptText file := by
    intro c hc hlines hin
    have hin := (List.rdropWhile_prefix _ _).subset hin
    obtain ⟨line, hline, hchar⟩ := List.mem_flatMap.mp hin
    obtain hchar | hchar := List.mem_append.mp hchar
    · exact hlines line hline hchar
    · exact hc (List.mem_singleton.mp hchar)
  exact ⟨hmem _ (by decide) fun line hline => (h line hline).1,
    hmem _ (by decide) fun line hline => (h line hline).2⟩

/-- A literal is plain if its characters are. -/
theorem plain_literal {line : String} {chars : List Char} (hline : line = String.ofList chars)
    (h : (chars.all fun c => c != '~' && c != '#') = true) : Plain (text line) := by
  have hchars : ∀ c ∈ chars, c ≠ '~' ∧ c ≠ '#' := by simpa using h
  rw [text_eq hline]
  constructor
  · intro hmem
    obtain ⟨c, hc, heq⟩ := List.mem_map.mp hmem
    exact (hchars c hc).1 (codePoint_injective heq)
  · intro hmem
    obtain ⟨c, hc, heq⟩ := List.mem_map.mp hmem
    exact (hchars c hc).2 (codePoint_injective heq)

theorem plainFile_nil : PlainFile [] := nofun

theorem plainFile_cons {line : String} {file : List String} (hline : Plain (text line))
    (hfile : PlainFile file) : PlainFile (line :: file) := by
  intro l hl
  obtain rfl | hl := List.mem_cons.mp hl
  · exact hline
  · exact hfile l hl

theorem plain_append {s t : String} (hs : Plain (text s)) (ht : Plain (text t)) :
    Plain (text (s ++ t)) := by
  rw [text_append]
  exact ⟨fun h => (List.mem_append.mp h).elim hs.1 ht.1,
    fun h => (List.mem_append.mp h).elim hs.2 ht.2⟩

theorem plain_coreContract : Plain coreContract := by
  apply plain_promptText
  unfold coreContractFile
  -- line by line
  repeat
    refine plainFile_cons ?_ ?_
    · exact plain_literal rfl (by decide)
  exact plainFile_nil

theorem plain_directiveText (directive : WorkDirective) : Plain (directiveText directive) := by
  cases directive with
  | fresh =>
    exact plain_promptText (plainFile_cons (plain_literal rfl (by decide)) plainFile_nil)
  | resume =>
    refine plain_promptText (plainFile_cons (plain_append (plain_append ?_ ?_) ?_) plainFile_nil)
    · exact plain_literal rfl (by decide)
    · exact plain_literal rfl (by decide)
    · exact plain_literal rfl (by decide)
  | rework =>
    refine plain_promptText (plainFile_cons (plain_append ?_ ?_) plainFile_nil)
    · exact plain_literal rfl (by decide)
    · exact plain_literal rfl (by decide)

/-- The first character of a file's text. -/
theorem head_promptText {line : String} {c : CodePoint} {rest : Text}
    (hline : text line = c :: rest) (hc : isLineEnd c = false) (file : List String) :
    (promptText (line :: file)).head? = some c := by
  have hfile : (line :: file).flatMap (fun line => text line ++ [lineFeed])
      = c :: (rest ++ [lineFeed] ++ file.flatMap fun line => text line ++ [lineFeed]) := by
    rw [List.flatMap_cons, hline]
    rfl
  rw [promptText, rstripLineEnds, hfile]
  obtain ⟨dropped, hdropped⟩ := List.rdropWhile_prefix isLineEnd
    (c :: (rest ++ [lineFeed] ++ file.flatMap fun line => text line ++ [lineFeed]))
  cases hkept : List.rdropWhile isLineEnd
      (c :: (rest ++ [lineFeed] ++ file.flatMap fun line => text line ++ [lineFeed])) with
  | nil =>
    have hend := List.rdropWhile_eq_nil_iff.mp hkept c List.mem_cons_self
    rw [hc] at hend
    cases hend
  | cons d kept =>
    rw [hkept, List.cons_append] at hdropped
    rw [List.head?_cons, (List.cons.inj hdropped).1]

theorem text_cons_append {s t : String} {c : CodePoint} {rest : Text} (h : text s = c :: rest) :
    text (s ++ t) = c :: (rest ++ text t) := by
  rw [text_append, h]
  rfl

theorem head_directiveText (directive : WorkDirective) :
    (directiveText directive).head? = some (codePoint (match directive with
      | .fresh => 'I'
      | .resume => 'C'
      | .rework => 'R')) := by
  cases directive with
  | fresh => exact head_promptText (text_eq rfl) (by decide) []
  | resume =>
    exact head_promptText (text_cons_append (text_cons_append (text_eq rfl))) (by decide) []
  | rework => exact head_promptText (text_cons_append (text_eq rfl)) (by decide) []

theorem directiveText_injective : Function.Injective directiveText := by
  intro directive directive' h
  have hhead := congrArg List.head? h
  rw [head_directiveText, head_directiveText, Option.some_inj] at hhead
  have hchar := codePoint_injective hhead
  revert hchar
  cases directive <;> cases directive' <;> decide

theorem promptHead_injective : Function.Injective promptHead := by
  intro directive directive' h
  rw [promptHead, promptHead, List.append_right_inj, List.cons_inj_right, List.append_right_inj,
    List.append_right_inj, List.cons_inj_right, List.append_left_inj, List.append_left_inj,
    List.append_left_inj] at h
  exact directiveText_injective h

theorem not_mem_promptHead {c : CodePoint} (hcore : c ∉ coreContract) (hfeed : c ≠ lineFeed)
    {directive : WorkDirective} (hdirective : c ∉ directiveText directive)
    (htitles : c ∉ text "## Core Worker Contract" ∧ c ∉ text "## Work Directive"
      ∧ c ∉ text "## Assigned Work") : c ∉ promptHead directive := by
  simp [promptHead, hcore, hfeed, hdirective, htitles]

theorem noTilde_promptHead (directive : WorkDirective) : tilde ∉ promptHead directive :=
  not_mem_promptHead plain_coreContract.1 (by decide) (plain_directiveText directive).1 (by decide)

/-! ### The fence -/

/-- A line that starts with a tilde and has no end inside. -/
theorem unindented_line {s : Text} (h : ∀ c ∈ s, isLineBoundary c = false) :
    unindented rule (tilde :: s ++ [lineFeed]) = tilde :: s := by
  have hbody : (tilde :: s ++ [lineFeed]).rdropWhile rule.breaks.isBreak = tilde :: s := by
    rw [List.rdropWhile_concat_pos _ _ _ LineRule.isBreak_lineFeed, List.rdropWhile_eq_self_iff]
    intro hne hbreak
    have hboundary := rule.boundary _ hbreak
    obtain htilde | hmem := List.mem_cons.mp (List.getLast_mem hne)
    · rw [htilde] at hboundary
      exact absurd hboundary (by decide)
    · rw [h _ hmem] at hboundary
      cases hboundary
  have hspace : ¬ tilde = codePoint ' ' := by decide
  simp only [unindented, hbody, List.takeWhile_cons, hspace, decide_false, Bool.false_eq_true,
    if_false, List.length_nil, Nat.min_zero, List.drop_zero]

/-- The number of tildes of the fence. -/
def fenceLength (value : Text) : Nat := max 3 (longestRun value + 1)

theorem fence_eq_cons (value : Text) :
    fence value = tilde :: List.replicate (fenceLength value - 1) tilde := by
  have hpos : 0 < max 3 (longestRun value + 1) := by omega
  rw [fence, fenceLength, ← List.replicate_succ, Nat.sub_add_cancel hpos]

theorem not_boundary_of_mem_replicate {n : Nat} {c : CodePoint} (h : c ∈ List.replicate n tilde) :
    isLineBoundary c = false := by
  rw [List.eq_of_mem_replicate h]
  decide

theorem not_boundary_info : ∀ c ∈ text "text", isLineBoundary c = false := by
  have hall : (text "text").all (fun c => !isLineBoundary c) = true := by decide
  simpa [List.all_eq_true] using hall

/-- The line that opens the fence. -/
theorem openingFence_fence (value : Text) :
    openingFence rule ((fence value ++ text "text") ++ [lineFeed]) = some (fenceLength value) := by
  have hline : unindented rule ((fence value ++ text "text") ++ [lineFeed])
      = fence value ++ text "text" := by
    rw [fence_eq_cons, List.cons_append]
    apply unindented_line
    intro c hc
    obtain hc | hc := List.mem_append.mp hc
    · exact not_boundary_of_mem_replicate hc
    · exact not_boundary_info c hc
  have htildes : (fence value ++ text "text").takeWhile (· = tilde) = fence value := by
    have hinfo : (text "text").takeWhile (fun c => decide (c = tilde)) = [] := by decide
    rw [List.takeWhile_append_of_pos fun c hc => decide_eq_true (List.eq_of_mem_replicate hc), hinfo,
      List.append_nil]
  rw [openingFence, hline, htildes, fence, List.length_replicate, if_pos (Nat.le_max_left _ _)]
  rfl

/-- The line that closes it. -/
theorem closesFence_fence (value : Text) :
    closesFence rule (fenceLength value) (fence value ++ [lineFeed]) = true := by
  have hline : unindented rule (fence value ++ [lineFeed]) = fence value := by
    rw [fence_eq_cons]
    exact unindented_line fun c hc => not_boundary_of_mem_replicate hc
  rw [closesFence, hline, fence, List.length_replicate, Bool.and_eq_true, List.all_eq_true]
  refine ⟨fun c hc => decide_eq_true (List.eq_of_mem_replicate hc), decide_eq_true (le_refl _)⟩

/-- **Fence.** No line of the text inside closes the fence around it. -/
theorem closesFence_of_mem (value : Text) {line : Text}
    (h : line ∈ splitLines rule.breaks (value ++ [lineFeed])) :
    closesFence rule (fenceLength value) line = false := by
  cases hcloses : closesFence rule (fenceLength value) line with
  | false => rfl
  | true =>
    have hline : line <:+: value ++ [lineFeed] := by
      rw [← @flatten_splitLines _ _ rule.breaks (value ++ [lineFeed])]
      exact List.infix_of_mem_flatten h
    -- a closing line holds more tildes in a row than there are anywhere in the value
    have hrun := le_longestRun ((replicate_infix_of_closesFence hcloses).trans hline)
    rw [longestRun_concat (by decide), fenceLength] at hrun
    omega

theorem withoutLastEnd_concat {value : Text}
    (h : value.getLast? ≠ some carriageReturn) : withoutLastEnd rule (value ++ [lineFeed]) = value := by
  have hsuffix : ¬ (text "\r\n").isSuffixOf (value ++ [lineFeed]) = true := by
    intro hsuffix
    rw [List.isSuffixOf_iff_suffix] at hsuffix
    obtain ⟨front, hfront⟩ := hsuffix
    have hpair : text "\r\n" = [carriageReturn] ++ [lineFeed] := by decide
    rw [hpair, ← List.append_assoc] at hfront
    have hvalue := List.append_cancel_right hfront
    exact h (by rw [← hvalue, List.getLast?_concat])
  have hcond : (rule.breaks.isBreak carriageReturn && (text "\r\n").isSuffixOf (value ++ [lineFeed]))
      = false := by
    rw [(Bool.not_eq_true _).mp hsuffix, Bool.and_false]
  rw [withoutLastEnd, hcond]
  exact List.dropLast_concat

/-- **Block.** The reader finds the packaged lines and one block, the assignment. -/
theorem readText_prompt {promptInput : WorkerPromptInput} {prompt : Text}
    (h : buildWorkerPrompt promptInput = .ok prompt) :
    readText rule prompt = (splitLines rule.breaks (promptHead promptInput.directive)).map .line
      ++ [.block (content promptInput.assignment)] := by
  have hcontent : content promptInput.assignment ≠ [] := by
    intro hnil
    rw [buildWorkerPrompt, if_pos hnil] at h
    cases h
  rw [buildWorkerPrompt_eq hcontent] at h
  obtain rfl := Except.ok.inj h
  have hhead : rule.breaks.Whole (promptHead promptInput.directive) :=
    LineRule.whole_of_last (by simp [promptHead, List.getLast?_append, List.getLast?_cons])
  have hlines : ∀ line ∈ splitLines rule.breaks (promptHead promptInput.directive),
      openingFence rule line = none := by
    intro line hline
    refine openingFence_eq_none fun htilde => noTilde_promptHead promptInput.directive ?_
    rw [← @flatten_splitLines _ _ rule.breaks (promptHead promptInput.directive)]
    exact List.mem_flatten_of_mem hline htilde
  have hinfo : ∀ c ∈ fence (content promptInput.assignment) ++ text "text",
      isLineBoundary c = false := by
    intro c hc
    obtain hc | hc := List.mem_append.mp hc
    · exact not_boundary_of_mem_replicate hc
    · exact not_boundary_info c hc
  have hclosing : splitLines rule.breaks (fence (content promptInput.assignment) ++ lineFeed :: [])
      = [fence (content promptInput.assignment) ++ [lineFeed]] :=
    LineRule.splitLines_line (fun c hc => not_boundary_of_mem_replicate hc) []
  have hlast : (content promptInput.assignment).getLast? ≠ some carriageReturn := by
    intro hlast
    exact absurd (not_lineEnd_stripLineEnds hlast) (by decide)
  -- the packaged lines, the fence, the lines of the assignment and the fence again
  rw [readText, splitLines_append hhead, LineRule.splitLines_line hinfo,
    splitLines_append (LineRule.whole_concat _), hclosing, readFences_lines hlines, readFences,
    openingFence_fence]
  dsimp only
  rw [readFences_block (fun line hline => closesFence_of_mem _ hline) (closesFence_fence _),
    List.nil_append, flatten_splitLines, withoutLastEnd_concat hlast]
  rfl

/-! ### The headings -/

theorem headings_append (pieces pieces' : List Piece) :
    headings (pieces ++ pieces') = headings pieces ++ headings pieces' :=
  List.filterMap_append

/-- A packaged text has no heading. -/
theorem headings_body {s : Text} (h : codePoint '#' ∉ s) :
    headings ((splitLines rule.breaks (s ++ [lineFeed] ++ [lineFeed])).map .line) = [] := by
  rw [headings, List.filterMap_map, List.filterMap_eq_nil_iff]
  intro line hline
  have hnone : ¬ (text "## ").isPrefixOf line = true := by
    intro hstart
    have hmem : codePoint '#' ∈ line :=
      (List.isPrefixOf_iff_prefix.mp hstart).subset (by decide)
    have hflat : codePoint '#' ∈ s ++ [lineFeed] ++ [lineFeed] := by
      rw [← @flatten_splitLines _ _ rule.breaks (s ++ [lineFeed] ++ [lineFeed])]
      exact List.mem_flatten_of_mem hline hmem
    have hfeed : codePoint '#' ≠ lineFeed := by decide
    simp [h, hfeed] at hflat
  exact if_neg hnone

/-- A title is one heading. -/
theorem headings_title {title : Text} (htitle : (text "## ").isPrefixOf title = true)
    (h : title.all (fun c => !isLineBoundary c) = true) (t : Text) :
    headings ((splitLines rule.breaks (title ++ lineFeed :: t)).map .line)
      = (title ++ [lineFeed]) :: headings ((splitLines rule.breaks t).map .line) := by
  have hplain : ∀ c ∈ title, isLineBoundary c = false := by
    simpa [List.all_eq_true] using h
  have hstart : (text "## ").isPrefixOf (title ++ [lineFeed]) = true := by
    rw [List.isPrefixOf_iff_prefix] at htitle ⊢
    exact htitle.trans (List.prefix_append _ _)
  rw [LineRule.splitLines_line hplain, List.map_cons, headings, List.filterMap_cons]
  simp only [hstart, if_true]
  rfl

theorem headings_promptHead (directive : WorkDirective) :
    headings ((splitLines rule.breaks (promptHead directive)).map .line)
      = [text "## Core Worker Contract\n", text "## Work Directive\n",
        text "## Assigned Work\n"] := by
  rw [promptHead, headings_title (by decide) (by decide),
    splitLines_append (LineRule.whole_concat _), List.map_append, headings_append,
    headings_body plain_coreContract.2, List.nil_append,
    headings_title (by decide) (by decide), splitLines_append (LineRule.whole_concat _),
    List.map_append, headings_append, headings_body (plain_directiveText directive).2,
    List.nil_append, headings_title (by decide) (by decide)]
  rfl

/-! ### The sections of a prompt -/

/-- The blocks among the pieces, also one that is not closed. -/
def blocks (pieces : List Piece) : List Piece :=
  pieces.filter fun
    | .line _ => false
    | _ => true

/-- **Sections.** For every reader, a prompt holds one fenced block, the stripped assignment, and its
    headings outside are the three of the prompt.  So a prompt determines its directive and its
    stripped assignment. -/
theorem buildWorkerPrompt_sections (rule : LineRule) (promptInput : WorkerPromptInput)
    (h : content promptInput.assignment ≠ []) :
    ∃ prompt, buildWorkerPrompt promptInput = .ok prompt
      ∧ blocks (readText rule prompt) = [.block (content promptInput.assignment)]
      ∧ headings (readText rule prompt) = [text "## Core Worker Contract\n",
        text "## Work Directive\n", text "## Assigned Work\n"]
      ∧ ∀ other, buildWorkerPrompt other = .ok prompt →
        other.directive = promptInput.directive
          ∧ content other.assignment = content promptInput.assignment := by
  have hprompt := buildWorkerPrompt_eq h
  refine ⟨_, hprompt, ?_, ?_, ?_⟩
  · rw [readText_prompt hprompt, blocks, List.filter_append]
    have hlines : ((splitLines rule.breaks (promptHead promptInput.directive)).map
        Piece.line).filter (fun | .line _ => false | _ => true) = [] := by
      rw [List.filter_eq_nil_iff]
      intro piece hpiece
      obtain ⟨line, -, rfl⟩ := List.mem_map.mp hpiece
      exact Bool.false_ne_true
    rw [hlines]
    rfl
  · rw [readText_prompt hprompt, headings_append, headings_promptHead]
    rfl
  · intro other hother
    have hread := (@readText_prompt rule _ _ hother).symm.trans (readText_prompt hprompt)
    obtain ⟨hlines, hblock⟩ := List.append_inj' hread rfl
    have hcontent : content other.assignment = content promptInput.assignment := by
      simpa using hblock
    refine ⟨?_, hcontent⟩
    have hsplit := List.map_injective_iff.mpr (fun _ _ => Piece.line.inj) hlines
    have hhead : promptHead other.directive = promptHead promptInput.directive := by
      rw [← @flatten_splitLines _ _ rule.breaks (promptHead other.directive), hsplit,
        flatten_splitLines]
    exact promptHead_injective hhead

/-- An assignment with headings and fences of its own. -/
theorem buildWorkerPrompt_sections_fences : ∃ prompt,
    buildWorkerPrompt ⟨text "~~~\n## Work Directive\n~~~~", .rework⟩ = .ok prompt
      ∧ blocks (readText .python prompt) = [.block (content (text "~~~\n## Work Directive\n~~~~"))]
      ∧ headings (readText .python prompt) = [text "## Core Worker Contract\n",
        text "## Work Directive\n", text "## Assigned Work\n"]
      ∧ ∀ other, buildWorkerPrompt other = .ok prompt →
        other.directive = .rework
          ∧ content other.assignment = content (text "~~~\n## Work Directive\n~~~~") :=
  buildWorkerPrompt_sections .python ⟨text "~~~\n## Work Directive\n~~~~", .rework⟩ (by decide)

end Reading

end Devlegate.Prompt
