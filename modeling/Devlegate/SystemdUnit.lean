import Devlegate.Lib.Crash
import Devlegate.PythonText
import Devlegate.ReportJson

namespace Devlegate.Systemd

open JsonText Lines Crash

/-!
# The systemd unit of a project

* `renderUnit`: the text of a unit, the paths quoted in directives and plain in the identity
  comments.
* `UnitDirectory`: the user unit directory, its files as `read_text` meets them.
* `classify` / `managedUnitFor` / `allocateUnitName`: who owns a unit, and which name a project
  gets.
* `install`: the program that converges a unit; `systemctl` does what it is asked.
* `install_agrees_iff`: for which arguments the unit that is written is the unit that is recognised.

`str.isalnum` is computed for ASCII; `beyond` is what it answers for other characters.  A path that
is not UTF-8 is a text with surrogates, and such a text is not encoded.
-/

variable (beyond : CodePoint → Bool)

/-! ### Rendering -/

/-- `character.isalnum()`. -/
def isAlnum (c : CodePoint) : Bool :=
  if c.val < 0x80 then
    (0x30 ≤ c.val && c.val ≤ 0x39) || (0x41 ≤ c.val && c.val ≤ 0x5a)
      || (0x61 ≤ c.val && c.val ≤ 0x7a)
  else beyond c

/-- `value.replace(old, new)` for a single character. -/
def replaceChar (old : Char) (new : String) (value : Text) : Text :=
  value.flatMap fun c => if c = codePoint old then text new else [c]

/-- `_systemd_quote`. -/
def systemdQuote (value : Text) : Text :=
  if value ≠ [] ∧ value.all (fun c => isAlnum beyond c || (text "_+-./:").contains c) = true then
    value
  else
    let escaped := replaceChar '"' "\\\"" (replaceChar '\\' "\\\\" value)
    let escaped := replaceChar '\t' "\\t" (replaceChar '\n' "\\n" escaped)
    text "\"" ++ escaped ++ text "\""

/-- `_systemd_unit_value`. -/
def systemdUnitValue (value : Text) : Text := systemdQuote beyond (replaceChar '%' "%%" value)

/-- `_systemd_exec_argument`. -/
def systemdExecArgument (value : Text) : Text :=
  systemdQuote beyond (replaceChar '$' "$$" (replaceChar '%' "%%" value))

/-- `[0-9a-f]`. -/
def isLowerHex (c : CodePoint) : Bool :=
  (0x30 ≤ c.val && c.val ≤ 0x39) || (0x61 ≤ c.val && c.val ≤ 0x66)

/-- A registered project as the supervisor sees it: `str(locator.repo.resolve())`,
    `locator.state_key` (a SHA-256 digest) and `str(env_file.resolve())`. -/
structure Project where
  repository : Text
  stateKey : Text
  envFile : Text
  stateKey_hex : stateKey.all isLowerHex = true
  stateKey_length : stateKey.length = 64

/-- `MANAGED_MARKER`. -/
def managedMarker : Text := text "# Managed by Devlegate systemd backend"

def stateKeyComment : Text := text "# state_key="

def repositoryComment : Text := text "# repository="

def envFileComment : Text := text "# env_file="

/-- `launcher.argv("--env", env_file, "foreground")`. -/
def launchArgv (launcher : List Text) (project : Project) : List Text :=
  launcher ++ [text "--env", project.envFile, text "foreground"]

/-- The lines that `render_unit` joins. -/
def unitLines (launcher : List Text) (project : Project) : List Text :=
  let command := (text " ").intercalate
    ((launchArgv launcher project).map (systemdExecArgument beyond))
  [managedMarker,
    stateKeyComment ++ project.stateKey,
    repositoryComment ++ project.repository,
    envFileComment ++ project.envFile,
    text "[Unit]",
    text "Description=Devlegate project " ++ project.stateKey,
    text "After=default.target",
    [],
    text "[Service]",
    text "Type=notify",
    text "NotifyAccess=main",
    text "WorkingDirectory=" ++ systemdUnitValue beyond project.repository,
    text "ExecStart=" ++ command,
    text "Environment=DEVLEGATE_HOST_MODE=external",
    text "Environment=DEVLEGATE_REQUIRE_NOTIFY=1",
    text "StandardOutput=journal",
    text "StandardError=journal",
    text "KillMode=mixed",
    text "TimeoutStopSec=infinity",
    text "Restart=no",
    text "Delegate=yes",
    [],
    text "[Install]",
    text "WantedBy=default.target",
    []]

/-- `render_unit`. -/
def renderUnit (launcher : List Text) (project : Project) : Text :=
  [lineFeed].intercalate (unitLines beyond launcher project)

/-! ### The unit directory -/

/-- A file of the unit directory: text, bytes that are not UTF-8, or nothing that opens. -/
inductive UnitFile where
  | content (raw : Text)
  | undecodable
  | unreadable
  deriving DecidableEq

/-- `SystemdSupervisorError`, and the two errors of the codec that pass through. -/
inductive UnitError where
  | unsafeName (name : Text)
  | unreadable (name : Text)
  | unexpectedIdentity (name : Text)
  | unmanaged (name : Text)
  | multipleUnits (stateKey : Text) (names : List Text)
  | noSafeName (stateKey : Text)
  | undecodable
  | unencodable
  deriving DecidableEq

/-- The files of the user unit directory. -/
@[ext] structure UnitDirectory where
  entries : List (Text × UnitFile)
  nodup : (entries.map Prod.fst).Nodup

/-- The file at a name, if it exists. -/
def UnitDirectory.file? (directory : UnitDirectory) (name : Text) : Option UnitFile :=
  directory.entries.lookup name

def UnitDirectory.erase (directory : UnitDirectory) (name : Text) : UnitDirectory where
  entries := directory.entries.filter fun entry => entry.1 != name
  nodup := (List.filter_sublist.map Prod.fst).nodup directory.nodup

def UnitDirectory.put (directory : UnitDirectory) (name : Text) (file : UnitFile) :
    UnitDirectory where
  entries := (name, file) :: (directory.erase name).entries
  nodup := by
    rw [List.map_cons, List.nodup_cons]
    refine ⟨?_, (directory.erase name).nodup⟩
    simp [UnitDirectory.erase]

def UnitDirectory.empty : UnitDirectory := ⟨[], List.nodup_nil⟩

/-- `path.read_text(encoding="utf-8")`. -/
def UnitFile.readText (name : Text) : UnitFile → Except UnitError Text
  | .content raw => .ok (translateNewlines raw)
  | .undecodable => .error .undecodable
  | .unreadable => .error (.unreadable name)

/-- `devlegate-[0-9a-f]{8,64}\.service`. -/
def isUnitName (name : Text) : Bool :=
  let key := (name.drop 10).take (name.length - 18)
  name = text "devlegate-" ++ key ++ text ".service" && key.all isLowerHex
    && decide (8 ≤ key.length) && decide (key.length ≤ 64)

/-- `_validate_unit_name`. -/
def validateUnitName (name : Text) : Except UnitError Text :=
  if isUnitName name then .ok name else .error (.unsafeName name)

/-- `unit_name`. -/
def unitName (project : Project) (prefixLength : Nat) : Text :=
  text "devlegate-" ++ project.stateKey.take prefixLength ++ text ".service"

/-- `unit_path`, as the name of the file. -/
def unitPath (project : Project) : Option Text → Except UnitError Text
  | none => .ok (unitName project 8)
  | some name => validateUnitName name

/-- `_managed_for_state`. -/
def managedForState (stateKey : Text) (entry : Text × UnitFile) : Except UnitError Bool := do
  let content ← entry.2.readText entry.1
  let lines := pythonLines content
  return lines.take 1 = [managedMarker] && lines.contains (stateKeyComment ++ stateKey)

/-- `^# state_key=[0-9a-f]{64}$` on a line. -/
def isStateKeyLine (line : Text) : Bool :=
  stateKeyComment.isPrefixOf line && (line.drop stateKeyComment.length).all isLowerHex
    && decide ((line.drop stateKeyComment.length).length = 64)

/-- `MANAGED_MARKER in content` and the search for a state key. -/
def isManaged (entry : Text × UnitFile) : Except UnitError Bool := do
  let content ← entry.2.readText entry.1
  return decide (managedMarker <:+: content) && (content.splitOn lineFeed).any isStateKeyLine

/-- Those elements of a list that a test which can raise selects. -/
def selectM {α : Type} (test : α → Except UnitError Bool) : List α → Except UnitError (List α)
  | [] => .ok []
  | x :: xs => do
    let keep ← test x
    let rest ← selectM test xs
    return if keep then x :: rest else rest

/-- `devlegate-*.service`. -/
def isUnitFile (entry : Text × UnitFile) : Bool :=
  (text "devlegate-").isPrefixOf entry.1 && (text ".service").isSuffixOf (entry.1.drop 10)

/-- `sorted(root.glob("devlegate-*.service"))`. -/
def UnitDirectory.glob (directory : UnitDirectory) : List (Text × UnitFile) :=
  (directory.entries.filter isUnitFile).mergeSort fun a b => decide (a.1 ≤ b.1)

/-- `managed_unit_paths`. -/
def managedUnitPaths (directory : UnitDirectory) : Except UnitError (List (Text × UnitFile)) :=
  selectM isManaged directory.glob

/-- `SystemdSupervisor.managed_unit_for`. -/
def managedUnitFor (directory : UnitDirectory) (project : Project) :
    Except UnitError (Option Text) := do
  let paths ← managedUnitPaths directory
  let found ← selectM (managedForState project.stateKey) paths
  match found.map Prod.fst with
  | [] => .ok none
  | [name] => .ok (some name)
  | names => .error (.multipleUnits project.stateKey names)

/-- `(8, 16, *range(20, 65, 4))`. -/
def prefixLengths : List Nat := [8, 16, 20, 24, 28, 32, 36, 40, 44, 48, 52, 56, 60, 64]

/-- The loop of `SystemdSupervisor.allocate_unit_name`. -/
def allocateAmong (directory : UnitDirectory) (project : Project) :
    List Nat → Except UnitError Text
  | [] => .error (.noSafeName project.stateKey)
  | length :: rest => do
    let candidate := unitName project length
    match directory.file? candidate with
    | none => return candidate
    | some file =>
      if ← managedForState project.stateKey (candidate, file) then return candidate
      else allocateAmong directory project rest

/-- `SystemdSupervisor.allocate_unit_name`. -/
def allocateUnitName (directory : UnitDirectory) (project : Project) : Except UnitError Text :=
  allocateAmong directory project prefixLengths

/-! ### Ownership -/

inductive UnitClassification where
  | current
  | reconcilable
  | ambiguousForeign
  deriving DecidableEq

/-- What follows a prefix in the first line that starts with it. -/
def bindingOf (comment : Text) (lines : List Text) : Option Text :=
  (lines.find? comment.isPrefixOf).map (List.drop comment.length)

/-- A binding comment says what is expected, or is missing where that is allowed. -/
def bindingAccepted (allowLegacy : Bool) (lines : List Text) (binding : Text × Text) : Bool :=
  match bindingOf binding.1 lines with
  | none => allowLegacy
  | some actual => actual = binding.2

/-- The identity part of `SystemdSupervisor.classify`: marker, state key and bindings. -/
def isOwned (project : Project) (withEnv allowLegacy : Bool) (content : Text) : Bool :=
  let lines := pythonLines content
  let bindings := (repositoryComment, project.repository)
    :: (if withEnv then [(envFileComment, project.envFile)] else [])
  lines.head? = some managedMarker && lines.contains (stateKeyComment ++ project.stateKey)
    && bindings.all (bindingAccepted allowLegacy lines)

/-- `SystemdSupervisor.classify`.  Without a configuration file (`withEnv`), an owned unit is
    current. -/
def classify (launcher : List Text) (directory : UnitDirectory) (project : Project)
    (withEnv : Bool) (name : Option Text) (allowLegacy : Bool) :
    Except UnitError UnitClassification := do
  let path ← unitPath project name
  match directory.file? path with
  | none => return .ambiguousForeign
  | some file =>
    let content ← file.readText path
    if !isOwned project withEnv allowLegacy content then return .ambiguousForeign
    else if !withEnv then return .current
    else if content = renderUnit beyond launcher project then return .current
    else return .reconcilable

/-- `SystemdSupervisor.inspect`. -/
def inspect (launcher : List Text) (directory : UnitDirectory) (project : Project)
    (withEnv : Bool) (name : Option Text) (allowLegacy : Bool) : Except UnitError Bool := do
  let path ← unitPath project name
  match directory.file? path with
  | none => return false
  | some _ =>
    match ← classify beyond launcher directory project withEnv name allowLegacy with
    | .ambiguousForeign => .error (.unmanaged path)
    | _ => return true

/-! ### Installing a unit -/

/-- The name that `SystemdSupervisor.install` uses. -/
def installName (directory : UnitDirectory) (project : Project) :
    Option Text → Except UnitError Text
  | some name => .ok name
  | none => do
    match ← managedUnitFor directory project with
    | some name => return name
    | none => allocateUnitName directory project

/-- What `SystemdSupervisor.install` finds before it writes: the path, and what is there. -/
def installPlan (launcher : List Text) (project : Project) (name : Option Text)
    (allowLegacy : Bool) (directory : UnitDirectory) :
    Except UnitError (Text × UnitClassification) := do
  let selected ← installName directory project name
  let path ← unitPath project (some selected)
  match directory.file? path with
  | none => return (path, .reconcilable)
  | some _ =>
    match ← classify beyond launcher directory project true (some path) allowLegacy with
    | .ambiguousForeign => .error (.unexpectedIdentity path)
    | classification => return (path, classification)

/-- `content.encode("utf-8")`, on the way to the file. -/
def encodable (content : Text) : Except UnitError Unit :=
  if content.any isSurrogate then .error .unencodable else .ok ()

/-- `_write_atomic`. -/
def writeAtomic (path content : Text) : Program UnitDirectory UnitError Unit := do
  Program.observe fun _ => encodable content
  Program.effect fun directory => directory.put path (.content content)

/-- `SystemdSupervisor.install`. -/
def install (launcher : List Text) (project : Project) (name : Option Text) (allowLegacy : Bool) :
    Program UnitDirectory UnitError Text := do
  let (path, classification) ←
    Program.observe (installPlan beyond launcher project name allowLegacy)
  if classification = .current then return path
  writeAtomic path (renderUnit beyond launcher project)
  return path

/-! ### Characters that are written as they are -/

/-- A character that ends no line of a file and can be encoded. -/
def isClean (c : CodePoint) : Bool := c ≠ lineFeed && c ≠ carriageReturn && !isSurrogate c

def Clean (s : Text) : Prop := ∀ c ∈ s, isClean c = true

/-- A text whose only unclean characters are line feeds, as a quoted argument may be. -/
def CleanOrFeed (s : Text) : Prop := ∀ c ∈ s, c = lineFeed ∨ isClean c = true

theorem clean_literal {s : String} {chars : List Char} (h : s = String.ofList chars)
    (hall : (chars.all fun c => isClean (codePoint c)) = true) : Clean (text s) := by
  intro c hc
  rw [text_eq h] at hc
  obtain ⟨d, hd, rfl⟩ := List.mem_map.mp hc
  exact List.all_eq_true.mp hall d hd

theorem Clean.append {s t : Text} (hs : Clean s) (ht : Clean t) : Clean (s ++ t) := by
  intro c hc
  rcases List.mem_append.mp hc with hc | hc
  · exact hs c hc
  · exact ht c hc

theorem clean_nil : Clean [] := nofun

theorem Clean.intercalate {sep : Text} (hsep : Clean sep) {parts : List Text}
    (h : ∀ part ∈ parts, Clean part) : Clean (sep.intercalate parts) := by
  induction parts with
  | nil => exact clean_nil
  | cons part parts ih =>
    have hrest := ih fun p hp => h p (List.mem_cons_of_mem _ hp)
    cases parts with
    | nil =>
      rw [List.intercalate_singleton]
      exact h part List.mem_cons_self
    | cons next parts =>
      rw [List.intercalate_cons_cons]
      exact ((h part List.mem_cons_self).append hsep).append hrest

theorem mem_replaceChar {old : Char} {new : String} {value : Text} {c : CodePoint}
    (h : c ∈ replaceChar old new value) :
    (c ∈ value ∧ c ≠ codePoint old) ∨ c ∈ text new := by
  obtain ⟨d, hd, hc⟩ := List.mem_flatMap.mp h
  split at hc
  case isTrue => exact .inr hc
  case isFalse hne =>
    obtain rfl := List.mem_singleton.mp hc
    exact .inl ⟨hd, hne⟩

theorem mem_replaceChar_of_ne {old : Char} {new : String} {value : Text} {c : CodePoint}
    (h : c ∈ value) (hne : c ≠ codePoint old) : c ∈ replaceChar old new value := by
  refine List.mem_flatMap.mpr ⟨c, h, ?_⟩
  rw [if_neg hne]
  exact List.mem_singleton_self c

theorem CleanOrFeed.replaceChar {old : Char} {new : String} {value : Text}
    (h : CleanOrFeed value) (hnew : Clean (text new)) : CleanOrFeed (replaceChar old new value) := by
  intro c hc
  rcases mem_replaceChar hc with ⟨hc, -⟩ | hc
  · exact h c hc
  · exact .inr (hnew c hc)

/-- Quoting leaves no line feed: it is no plain character, and it is escaped. -/
theorem CleanOrFeed.systemdQuote {value : Text} (h : CleanOrFeed value) :
    Clean (systemdQuote beyond value) := by
  unfold Systemd.systemdQuote
  split
  case isTrue hplain =>
    intro c hc
    rcases h c hc with rfl | hclean
    · -- a line feed is not alphanumeric
      have hlf := List.all_eq_true.mp hplain.2 lineFeed hc
      simp [isAlnum, lineFeed, ofCode, text, codePoint] at hlf
    · exact hclean
  case isFalse =>
    have hquote : Clean (text "\"") := clean_literal rfl (by decide)
    have hescaped : CleanOrFeed (Systemd.replaceChar '"' "\\\"" (Systemd.replaceChar '\\' "\\\\" value)) :=
      (h.replaceChar (clean_literal rfl (by decide))).replaceChar (clean_literal rfl (by decide))
    refine (hquote.append ?_).append hquote
    intro c hc
    -- after the replacement of the line feeds none is left
    rcases mem_replaceChar hc with ⟨hc, -⟩ | hc
    · rcases mem_replaceChar hc with ⟨hc, hne⟩ | hc
      · rcases hescaped c hc with rfl | hclean
        · exact absurd rfl hne
        · exact hclean
      · exact clean_literal rfl (by decide) c hc
    · exact clean_literal rfl (by decide) c hc

theorem CleanOrFeed.systemdExecArgument {value : Text} (h : CleanOrFeed value) :
    Clean (systemdExecArgument beyond value) :=
  CleanOrFeed.systemdQuote beyond
    ((h.replaceChar (clean_literal rfl (by decide))).replaceChar (clean_literal rfl (by decide)))

theorem CleanOrFeed.systemdUnitValue {value : Text} (h : CleanOrFeed value) :
    Clean (systemdUnitValue beyond value) :=
  CleanOrFeed.systemdQuote beyond (h.replaceChar (clean_literal rfl (by decide)))

theorem Clean.orFeed {s : Text} (h : Clean s) : CleanOrFeed s := fun c hc => .inr (h c hc)

/-- What the quoting does not escape is still there. -/
theorem mem_systemdExecArgument {value : Text} {c : CodePoint} (h : c ∈ value)
    (hc : c = carriageReturn ∨ isSurrogate c = true) : c ∈ systemdExecArgument beyond value := by
  have hne : ∀ d : Char, isClean (codePoint d) = true ∨ codePoint d = lineFeed →
      c ≠ codePoint d := by
    rintro d hd rfl
    rcases hd with hd | hd
    · rcases hc with hc | hc <;> simp [isClean, hc] at hd
    · rw [hd] at hc
      revert hc
      decide
  unfold systemdExecArgument Systemd.systemdQuote
  have hin : c ∈ replaceChar '$' "$$" (replaceChar '%' "%%" value) :=
    mem_replaceChar_of_ne (mem_replaceChar_of_ne h (hne _ (by decide))) (hne _ (by decide))
  split
  case isTrue => exact hin
  case isFalse =>
    refine List.mem_append_left _ (List.mem_append_right _ ?_)
    refine mem_replaceChar_of_ne (mem_replaceChar_of_ne ?_ (hne _ (by decide))) (hne _ (by decide))
    exact mem_replaceChar_of_ne (mem_replaceChar_of_ne hin (hne _ (by decide))) (hne _ (by decide))

/-! ### The text of a unit -/

/-- The arguments whose unit is recognised:  the two paths that stand in comments have no line
    boundary, the launcher has no carriage return, and everything can be encoded. -/
structure Faithful (launcher : List Text) (project : Project) : Prop where
  repository : ∀ c ∈ project.repository, isLineBoundary c = false ∧ isSurrogate c = false
  envFile : ∀ c ∈ project.envFile, isLineBoundary c = false ∧ isSurrogate c = false
  launcher : ∀ argument ∈ launcher, ∀ c ∈ argument, c ≠ carriageReturn ∧ isSurrogate c = false

theorem isClean_of_not_boundary {c : CodePoint}
    (h : isLineBoundary c = false ∧ isSurrogate c = false) : isClean c = true := by
  obtain ⟨hboundary, hsurrogate⟩ := h
  have hlf : c ≠ lineFeed := by
    rintro rfl
    exact absurd hboundary (by decide)
  have hcr : c ≠ carriageReturn := by
    rintro rfl
    exact absurd hboundary (by decide)
  simp [isClean, hlf, hcr, hsurrogate]

theorem not_boundary_of_isLowerHex {c : CodePoint} (h : isLowerHex c = true) :
    isLineBoundary c = false ∧ isSurrogate c = false := by
  simp only [isLowerHex, Bool.or_eq_true, Bool.and_eq_true, decide_eq_true_eq] at h
  simp only [isLineBoundary, isSurrogate, Bool.or_eq_false_iff, Bool.and_eq_false_iff,
    decide_eq_false_iff_not, beq_eq_false_iff_ne]
  omega

variable {launcher : List Text} {project : Project}

theorem Project.not_boundary_stateKey {c : CodePoint} (hc : c ∈ project.stateKey) :
    isLineBoundary c = false ∧ isSurrogate c = false :=
  not_boundary_of_isLowerHex (List.all_eq_true.mp project.stateKey_hex c hc)

theorem Project.clean_stateKey : Clean project.stateKey :=
  fun _ hc => isClean_of_not_boundary (project.not_boundary_stateKey hc)

theorem Faithful.clean_command (h : Faithful launcher project) :
    Clean ((text " ").intercalate
      ((launchArgv launcher project).map (systemdExecArgument beyond))) := by
  refine Clean.intercalate (clean_literal rfl (by decide)) fun part hpart => ?_
  obtain ⟨argument, hargument, rfl⟩ := List.mem_map.mp hpart
  refine CleanOrFeed.systemdExecArgument beyond fun c hc => ?_
  rcases List.mem_append.mp hargument with hargument | hargument
  · obtain ⟨hcr, hsurrogate⟩ := h.launcher argument hargument c hc
    by_cases hlf : c = lineFeed
    · exact .inl hlf
    · exact .inr (by simp [isClean, hlf, hcr, hsurrogate])
  · simp only [List.mem_cons, List.not_mem_nil, or_false] at hargument
    rcases hargument with rfl | rfl | rfl
    · exact .inr (clean_literal rfl (by decide) c hc)
    · exact .inr (isClean_of_not_boundary (h.envFile c hc))
    · exact .inr (clean_literal rfl (by decide) c hc)

/-- Every line that `render_unit` joins is clean. -/
theorem Faithful.clean_unitLines (h : Faithful launcher project) :
    ∀ line ∈ unitLines beyond launcher project, Clean line := by
  have hrepository : Clean project.repository :=
    fun c hc => isClean_of_not_boundary (h.repository c hc)
  have henv : Clean project.envFile := fun c hc => isClean_of_not_boundary (h.envFile c hc)
  have hcommand := h.clean_command beyond
  have hdirectory : Clean (systemdUnitValue beyond project.repository) :=
    CleanOrFeed.systemdUnitValue beyond hrepository.orFeed
  unfold unitLines
  simp only [List.forall_mem_cons, List.not_mem_nil, false_imp_iff, implies_true, and_true]
  refine ⟨?_, ?_, ?_, ?_, ?_, ?_, ?_, clean_nil, ?_, ?_, ?_, ?_, ?_, ?_, ?_, ?_, ?_, ?_, ?_, ?_, ?_,
    clean_nil, ?_, ?_, clean_nil⟩
  case refine_2 => exact (clean_literal rfl (by decide)).append project.clean_stateKey
  case refine_3 => exact (clean_literal rfl (by decide)).append hrepository
  case refine_4 => exact (clean_literal rfl (by decide)).append henv
  case refine_6 => exact (clean_literal rfl (by decide)).append project.clean_stateKey
  case refine_11 => exact (clean_literal rfl (by decide)).append hdirectory
  case refine_12 => exact (clean_literal rfl (by decide)).append hcommand
  all_goals exact clean_literal rfl (by decide)

/-- The lines of a file, whichever convention ends them. -/
def fileLines (raw : Text) : List Text := (translateNewlines raw).splitOn lineFeed

theorem mem_intercalate_feed {lines : List Text} {c : CodePoint}
    (h : c ∈ [lineFeed].intercalate lines) : c = lineFeed ∨ ∃ line ∈ lines, c ∈ line := by
  induction lines with
  | nil => exact absurd h List.not_mem_nil
  | cons line lines ih =>
    cases lines with
    | nil =>
      rw [List.intercalate_singleton] at h
      exact .inr ⟨line, List.mem_cons_self, h⟩
    | cons next lines =>
      rw [List.intercalate_cons_cons, List.mem_append, List.mem_append, List.mem_singleton] at h
      rcases h with (h | h) | h
      · exact .inr ⟨line, List.mem_cons_self, h⟩
      · exact .inl h
      · rcases ih h with hlf | ⟨other, hother, hc⟩
        · exact .inl hlf
        · exact .inr ⟨other, List.mem_cons_of_mem _ hother, hc⟩

theorem Faithful.clean_renderUnit (h : Faithful launcher project) {c : CodePoint}
    (hc : c ∈ renderUnit beyond launcher project) : c ≠ carriageReturn ∧ isSurrogate c = false := by
  rcases mem_intercalate_feed hc with rfl | ⟨line, hline, hc⟩
  · decide
  · have hclean := h.clean_unitLines beyond line hline c hc
    simp only [isClean, Bool.and_eq_true, decide_eq_true_eq, Bool.not_eq_true'] at hclean
    exact ⟨hclean.1.2, hclean.2⟩

theorem Faithful.translateNewlines_renderUnit (h : Faithful launcher project) :
    translateNewlines (renderUnit beyond launcher project) = renderUnit beyond launcher project :=
  translateNewlines_eq_self fun hc => (h.clean_renderUnit beyond hc).1 rfl

theorem Faithful.encodable (h : Faithful launcher project) :
    encodable (renderUnit beyond launcher project) = .ok () := by
  have hnone : (renderUnit beyond launcher project).any isSurrogate = false := by
    rw [List.any_eq_false]
    intro c hc
    rw [(h.clean_renderUnit beyond hc).2]
    exact Bool.false_ne_true
  unfold Systemd.encodable
  rw [hnone]
  rfl

/-- Each directive is a line of its own, and there is no other line. -/
theorem Faithful.fileLines_renderUnit (h : Faithful launcher project) :
    fileLines (renderUnit beyond launcher project) = unitLines beyond launcher project := by
  unfold fileLines
  rw [h.translateNewlines_renderUnit]
  refine List.splitOn_intercalate lineFeed (fun line hline hlf => ?_) (List.cons_ne_nil _ _)
  have hclean := h.clean_unitLines beyond line hline lineFeed hlf
  exact absurd hclean (by decide)

/-! ### The identity comments are read back -/

/-- What stands behind the identity comments. -/
def directives (launcher : List Text) (project : Project) : Text :=
  [lineFeed].intercalate ((unitLines beyond launcher project).drop 4)

theorem renderUnit_eq : renderUnit beyond launcher project
    = managedMarker ++ lineFeed :: (stateKeyComment ++ project.stateKey ++ lineFeed
      :: (repositoryComment ++ project.repository ++ lineFeed
        :: (envFileComment ++ project.envFile ++ lineFeed
          :: directives beyond launcher project))) := by
  unfold renderUnit directives unitLines
  simp only [List.intercalate_cons_cons, List.append_assoc, List.singleton_append, List.drop_succ_cons,
    List.drop_zero]

theorem not_boundary_literal {s : String} {chars : List Char} (h : s = String.ofList chars)
    (hall : (chars.all fun c => !isLineBoundary (codePoint c)) = true) :
    ∀ c ∈ text s, isLineBoundary c = false := by
  intro c hc
  rw [text_eq h] at hc
  obtain ⟨d, hd, rfl⟩ := List.mem_map.mp hc
  simpa using List.all_eq_true.mp hall d hd

theorem not_boundary_append {s t : Text} (hs : ∀ c ∈ s, isLineBoundary c = false)
    (ht : ∀ c ∈ t, isLineBoundary c = false) : ∀ c ∈ s ++ t, isLineBoundary c = false := by
  intro c hc
  rcases List.mem_append.mp hc with hc | hc
  · exact hs c hc
  · exact ht c hc

theorem not_boundary_repositoryComment : ∀ c ∈ repositoryComment, isLineBoundary c = false :=
  not_boundary_literal rfl (by decide)

theorem not_boundary_envFileComment : ∀ c ∈ envFileComment, isLineBoundary c = false :=
  not_boundary_literal rfl (by decide)

/-- The marker and the state key are lines, whatever the paths hold. -/
theorem pythonLines_renderUnit : pythonLines (renderUnit beyond launcher project)
    = managedMarker :: (stateKeyComment ++ project.stateKey)
      :: pythonLines (repositoryComment ++ project.repository ++ lineFeed
        :: (envFileComment ++ project.envFile ++ lineFeed
          :: directives beyond launcher project)) := by
  have hmarker : ∀ c ∈ managedMarker, isLineBoundary c = false :=
    not_boundary_literal rfl (by decide)
  have hkey : ∀ c ∈ stateKeyComment ++ project.stateKey, isLineBoundary c = false :=
    not_boundary_append (not_boundary_literal rfl (by decide))
      fun c hc => (project.not_boundary_stateKey hc).1
  rw [renderUnit_eq, pythonLines_line _ hmarker, pythonLines_line _ hkey]

theorem not_repositoryComment_prefix (line : Text) :
    repositoryComment.isPrefixOf managedMarker = false
      ∧ repositoryComment.isPrefixOf (stateKeyComment ++ line) = false := by
  constructor <;> rfl

theorem not_envFileComment_prefix (line : Text) :
    envFileComment.isPrefixOf managedMarker = false
      ∧ envFileComment.isPrefixOf (stateKeyComment ++ line) = false
      ∧ envFileComment.isPrefixOf (repositoryComment ++ line) = false := by
  refine ⟨?_, ?_, ?_⟩ <;> rfl

theorem bindingOf_cons_of_not {comment line : Text} {lines : List Text}
    (h : comment.isPrefixOf line = false) :
    bindingOf comment (line :: lines) = bindingOf comment lines := by
  unfold bindingOf
  rw [List.find?_cons_of_neg (by simp [h])]

theorem bindingOf_cons {comment value : Text} {lines : List Text} :
    bindingOf comment ((comment ++ value) :: lines) = some value := by
  unfold bindingOf
  rw [List.find?_cons_of_pos (by simp)]
  simp

/-- A first boundary cuts a text. -/
theorem exists_first_boundary {s : Text} (h : ¬ ∀ c ∈ s, isLineBoundary c = false) :
    ∃ front b rest, s = front ++ b :: rest ∧ (∀ c ∈ front, isLineBoundary c = false)
      ∧ isLineBoundary b = true := by
  induction s with
  | nil => exact absurd (fun c hc => absurd hc List.not_mem_nil) h
  | cons c s ih =>
    cases hc : isLineBoundary c with
    | true => exact ⟨[], c, s, rfl, nofun, hc⟩
    | false =>
      have hrest : ¬ ∀ d ∈ s, isLineBoundary d = false := by
        intro hall
        exact h (List.forall_mem_cons.mpr ⟨hc, hall⟩)
      obtain ⟨front, b, rest, rfl, hfront, hb⟩ := ih hrest
      exact ⟨c :: front, b, rest, rfl, List.forall_mem_cons.mpr ⟨hc, hfront⟩, hb⟩

/-- **Reading a binding.** Behind a comment a value is read back exactly when no boundary cuts
    it. -/
theorem exists_bindingOf {comment value rest : Text}
    (hcomment : ∀ c ∈ comment, isLineBoundary c = false) (hcr : carriageReturn ∉ value) :
    ∃ actual, bindingOf comment (pythonLines (comment ++ value ++ lineFeed :: rest)) = some actual
      ∧ (actual = value ↔ ∀ c ∈ value, isLineBoundary c = false) := by
  by_cases hvalue : ∀ c ∈ value, isLineBoundary c = false
  · refine ⟨value, ?_, fun _ => hvalue, fun _ => rfl⟩
    rw [pythonLines_line _ (not_boundary_append hcomment hvalue), bindingOf_cons]
  · obtain ⟨front, b, back, rfl, hfront, hb⟩ := exists_first_boundary hvalue
    have hne : b ≠ carriageReturn := by
      rintro rfl
      exact hcr (by simp)
    have hregroup : comment ++ (front ++ b :: back) ++ lineFeed :: rest
        = (comment ++ front) ++ b :: (back ++ lineFeed :: rest) := by simp
    refine ⟨front, ?_, fun h => ?_, fun h => absurd h hvalue⟩
    · rw [hregroup, pythonLines_append_cons _ (not_boundary_append hcomment hfront) hb hne,
        bindingOf_cons]
    · have hlength := congrArg List.length h
      simp at hlength

/-- **Recognition.** With or without leave for legacy units, the rendered unit is owned exactly when
    no boundary cuts a path. -/
theorem isOwned_renderUnit (hrepository : carriageReturn ∉ project.repository)
    (henv : carriageReturn ∉ project.envFile) (allowLegacy : Bool) :
    isOwned project true allowLegacy (renderUnit beyond launcher project) = true
      ↔ (∀ c ∈ project.repository, isLineBoundary c = false)
        ∧ ∀ c ∈ project.envFile, isLineBoundary c = false := by
  have hlines := @pythonLines_renderUnit beyond launcher project
  obtain ⟨hrm, hrs⟩ := not_repositoryComment_prefix project.stateKey
  obtain ⟨hem, hes, -⟩ := not_envFileComment_prefix project.stateKey
  obtain ⟨repository, hbinding, hsame⟩ := @exists_bindingOf _ _
    (envFileComment ++ project.envFile ++ lineFeed :: directives beyond launcher project)
    not_boundary_repositoryComment hrepository
  have hrepo : bindingAccepted allowLegacy (pythonLines (renderUnit beyond launcher project))
      (repositoryComment, project.repository) = true
        ↔ ∀ c ∈ project.repository, isLineBoundary c = false := by
    unfold bindingAccepted
    rw [hlines, bindingOf_cons_of_not hrm, bindingOf_cons_of_not hrs, hbinding, ← hsame]
    exact decide_eq_true_iff
  have hfile : (∀ c ∈ project.repository, isLineBoundary c = false) →
      (bindingAccepted allowLegacy (pythonLines (renderUnit beyond launcher project))
        (envFileComment, project.envFile) = true
          ↔ ∀ c ∈ project.envFile, isLineBoundary c = false) := by
    intro hwhole
    -- the repository is one line, so that the next comment starts a line
    obtain ⟨-, -, her⟩ := not_envFileComment_prefix project.repository
    obtain ⟨env, hbinding, hsame⟩ := @exists_bindingOf _ _
      (directives beyond launcher project) not_boundary_envFileComment henv
    unfold bindingAccepted
    rw [hlines, bindingOf_cons_of_not hem, bindingOf_cons_of_not hes,
      pythonLines_line _ (not_boundary_append not_boundary_repositoryComment hwhole),
      bindingOf_cons_of_not her, hbinding, ← hsame]
    exact decide_eq_true_iff
  have hmarker : (pythonLines (renderUnit beyond launcher project)).head? = some managedMarker := by
    rw [hlines, List.head?_cons]
  have hkey : (pythonLines (renderUnit beyond launcher project)).contains
      (stateKeyComment ++ project.stateKey) = true := by
    rw [hlines, List.contains_iff_mem]
    exact List.mem_cons_of_mem _ List.mem_cons_self
  unfold isOwned
  simp only [hmarker, hkey, decide_true, Bool.true_and, if_true, List.all_cons, List.all_nil,
    Bool.and_true, Bool.and_eq_true]
  constructor
  · intro ⟨h, h'⟩
    exact ⟨hrepo.mp h, (hfile (hrepo.mp h)).mp h'⟩
  · intro ⟨h, h'⟩
    exact ⟨hrepo.mpr h, (hfile h).mpr h'⟩

/-! ### The units of a project -/

/-- A test that answered yes. -/
def holds : Except UnitError Bool → Bool
  | .ok answer => answer
  | .error _ => false

theorem selectM_eq_ok {α : Type} {test : α → Except UnitError Bool} {xs ys : List α} :
    selectM test xs = .ok ys
      ↔ (∀ x ∈ xs, ∃ answer, test x = .ok answer) ∧ ys = xs.filter fun x => holds (test x) := by
  induction xs generalizing ys with
  | nil => simp [selectM, eq_comm]
  | cons x xs ih =>
    rw [selectM, List.forall_mem_cons, List.filter_cons]
    cases hx : test x with
    | error e =>
      constructor
      · intro h
        cases h
      · rintro ⟨⟨⟨answer, h⟩, -⟩, -⟩
        cases h
    | ok keep =>
      have hstep : (do
          let keep ← (.ok keep : Except UnitError Bool)
          let rest ← selectM test xs
          return if keep then x :: rest else rest)
          = (selectM test xs).map fun rest => if keep then x :: rest else rest := by
        cases selectM test xs <;> rfl
      rw [hstep]
      constructor
      · intro h
        cases hrest : selectM test xs with
        | error e =>
          rw [hrest] at h
          cases h
        | ok rest =>
          rw [hrest] at h
          obtain ⟨hall, rfl⟩ := ih.mp hrest
          exact ⟨⟨⟨keep, rfl⟩, hall⟩, (Except.ok.inj h).symm⟩
      · rintro ⟨⟨-, hall⟩, rfl⟩
        rw [ih.mpr ⟨hall, rfl⟩]
        rfl

def UnitFile.readable : UnitFile → Bool
  | .content _ => true
  | _ => false

theorem readText_eq_ok {file : UnitFile} {name : Text} :
    (∃ content, file.readText name = .ok content) ↔ file.readable = true := by
  cases file <;> simp [UnitFile.readText, UnitFile.readable]

theorem isManaged_eq_ok {entry : Text × UnitFile} :
    (∃ answer, isManaged entry = .ok answer) ↔ entry.2.readable = true := by
  rw [← @readText_eq_ok _ entry.1, isManaged]
  cases entry.2.readText entry.1 <;> simp [bind, Except.bind, pure, Except.pure]

theorem managedForState_eq_ok {stateKey : Text} {entry : Text × UnitFile} :
    (∃ answer, managedForState stateKey entry = .ok answer) ↔ entry.2.readable = true := by
  rw [← @readText_eq_ok _ entry.1, managedForState]
  cases entry.2.readText entry.1 <;> simp [bind, Except.bind, pure, Except.pure]

/-- A unit that both readings, by lines of a file and by lines of a text, give to a state key. -/
def describes (stateKey : Text) (entry : Text × UnitFile) : Bool :=
  holds (isManaged entry) && holds (managedForState stateKey entry)

theorem UnitDirectory.glob_perm (directory : UnitDirectory) :
    directory.glob.Perm (directory.entries.filter isUnitFile) := List.mergeSort_perm _ _

theorem toList_of_perm {α : Type} {xs ys : List α} (h : xs.Perm ys) (found : Option α) :
    xs = found.toList ↔ ys = found.toList := by
  cases found with
  | none =>
    constructor
    · rintro rfl
      exact h.nil_eq.symm
    · rintro rfl
      exact h.eq_nil
  | some x =>
    constructor
    · rintro rfl
      exact h.symm.eq_singleton
    · rintro rfl
      exact h.eq_singleton

theorem managedUnitFor_eq_ok {directory : UnitDirectory} {found : Option Text} :
    managedUnitFor directory project = .ok found
      ↔ (∀ entry ∈ directory.entries, isUnitFile entry = true → entry.2.readable = true)
        ∧ ((directory.entries.filter isUnitFile).filter (describes project.stateKey)).map Prod.fst
          = found.toList := by
  have hmem : (∀ entry ∈ directory.entries, isUnitFile entry = true → entry.2.readable = true)
      ↔ ∀ entry ∈ directory.glob, entry.2.readable = true := by
    simp only [directory.glob_perm.mem_iff, List.mem_filter, and_imp]
  rw [hmem, ← toList_of_perm ((directory.glob_perm.filter (describes project.stateKey)).map Prod.fst)]
  unfold managedUnitFor managedUnitPaths
  cases hpaths : selectM isManaged directory.glob with
  | error e =>
    have hsome : ¬ ∀ entry ∈ directory.glob, entry.2.readable = true := by
      intro hall
      rw [selectM_eq_ok.mpr ⟨fun entry h => isManaged_eq_ok.mpr (hall entry h), rfl⟩] at hpaths
      cases hpaths
    constructor
    · intro h
      cases h
    · exact fun h => absurd h.1 hsome
  | ok paths =>
    obtain ⟨hall, rfl⟩ := selectM_eq_ok.mp hpaths
    have hreadable : ∀ entry ∈ directory.glob, entry.2.readable = true :=
      fun entry h => isManaged_eq_ok.mp (hall entry h)
    have hfound : selectM (managedForState project.stateKey)
        (directory.glob.filter fun entry => holds (isManaged entry))
        = .ok (directory.glob.filter (describes project.stateKey)) := by
      refine selectM_eq_ok.mpr ⟨fun entry h => ?_, ?_⟩
      · exact managedForState_eq_ok.mpr (hreadable entry (List.mem_of_mem_filter h))
      · rw [List.filter_filter]
        exact List.filter_congr fun entry _ => Bool.and_comm _ _
    simp only [bind, Except.bind, hfound]
    rw [and_iff_right hreadable]
    generalize (directory.glob.filter (describes project.stateKey)).map Prod.fst = names
    cases found <;> rcases names with _ | ⟨name, _ | ⟨other, names⟩⟩ <;> simp

theorem UnitDirectory.file?_put (directory : UnitDirectory) (name : Text) (file : UnitFile) :
    (directory.put name file).file? name = some file := by
  simp [UnitDirectory.file?, UnitDirectory.put]

theorem isUnitFile_of_isUnitName {name : Text} {file : UnitFile} (h : isUnitName name = true) :
    isUnitFile (name, file) = true := by
  unfold isUnitName at h
  simp only [Bool.and_eq_true, decide_eq_true_eq] at h
  obtain ⟨⟨⟨hname, -⟩, -⟩, -⟩ := h
  generalize (name.drop 10).take (name.length - 18) = key at hname
  have hlength : (text "devlegate-").length = 10 := rfl
  have hdrop : name.drop 10 = key ++ text ".service" := by
    rw [hname, List.append_assoc, ← hlength, List.drop_left]
  unfold isUnitFile
  rw [Bool.and_eq_true, hdrop]
  refine ⟨?_, ?_⟩
  · rw [List.isPrefixOf_iff_prefix, hname, List.append_assoc]
    exact List.prefix_append _ _
  · rw [List.isSuffixOf_iff_suffix]
    exact List.suffix_append _ _

/-- When no other unit is the project's, the one that is written is found. -/
theorem managedUnitFor_put {directory : UnitDirectory} {name raw : Text} {found : Option Text}
    (h : managedUnitFor directory project = .ok found) (hfound : ∀ other ∈ found, other = name)
    (hname : isUnitName name = true)
    (hours : describes project.stateKey (name, .content raw) = true) :
    managedUnitFor (directory.put name (.content raw)) project = .ok (some name) := by
  obtain ⟨hreadable, hnames⟩ := managedUnitFor_eq_ok.mp h
  have hunit : isUnitFile (name, .content raw) = true := isUnitFile_of_isUnitName hname
  refine managedUnitFor_eq_ok.mpr ⟨?_, ?_⟩
  · show ∀ entry ∈ (name, .content raw) :: (directory.erase name).entries, _
    rw [List.forall_mem_cons]
    exact ⟨fun _ => rfl, fun entry h => hreadable entry (List.mem_of_mem_filter h)⟩
  · show ((((name, UnitFile.content raw) :: (directory.erase name).entries).filter isUnitFile).filter
      (describes project.stateKey)).map Prod.fst = [name]
    rw [List.filter_cons_of_pos hunit, List.filter_cons_of_pos hours, List.map_cons]
    congr 1
    rw [List.map_eq_nil_iff, List.filter_eq_nil_iff]
    intro entry hentry hdescribes
    obtain ⟨hmem, hisUnit⟩ := List.mem_filter.mp hentry
    obtain ⟨hmem, hne⟩ := List.mem_filter.mp hmem
    have hin : entry.1 ∈ found.toList := by
      rw [← hnames]
      exact List.mem_map_of_mem (List.mem_filter.mpr ⟨List.mem_filter.mpr ⟨hmem, hisUnit⟩, hdescribes⟩)
    have hsame := hfound entry.1 (Option.mem_toList.mp hin)
    simp [hsame] at hne

/-! ### Installing twice -/

theorem Faithful.describes_renderUnit (h : Faithful launcher project) (name : Text) :
    describes project.stateKey (name, .content (renderUnit beyond launcher project)) = true := by
  have htext : (UnitFile.content (renderUnit beyond launcher project)).readText name
      = .ok (renderUnit beyond launcher project) := by
    rw [UnitFile.readText, h.translateNewlines_renderUnit]
  have hmarker : managedMarker <:+: renderUnit beyond launcher project := by
    rw [renderUnit_eq]
    exact (List.prefix_append _ _).isInfix
  have hkeyLine : isStateKeyLine (stateKeyComment ++ project.stateKey) = true := by
    have hhex := project.stateKey_hex
    rw [isStateKeyLine, List.drop_left, hhex, project.stateKey_length]
    simp
  have hsearch : ((renderUnit beyond launcher project).splitOn lineFeed).any isStateKeyLine
      = true := by
    have hlines := h.fileLines_renderUnit beyond
    unfold fileLines at hlines
    rw [h.translateNewlines_renderUnit] at hlines
    rw [hlines, List.any_eq_true]
    exact ⟨_, List.mem_cons_of_mem _ List.mem_cons_self, hkeyLine⟩
  unfold describes isManaged managedForState
  rw [htext]
  simp [bind, Except.bind, pure, Except.pure, holds, hmarker, hsearch, pythonLines_renderUnit]

theorem Faithful.isOwned_renderUnit (h : Faithful launcher project) (allowLegacy : Bool) :
    isOwned project true allowLegacy (renderUnit beyond launcher project) = true := by
  have hfree : ∀ path : Text, (∀ c ∈ path, isLineBoundary c = false ∧ isSurrogate c = false) →
      carriageReturn ∉ path :=
    fun path hpath hmem => absurd (hpath _ hmem).1 (by decide)
  exact (Systemd.isOwned_renderUnit beyond (hfree _ h.repository) (hfree _ h.envFile) allowLegacy).mpr
    ⟨fun c hc => (h.repository c hc).1, fun c hc => (h.envFile c hc).1⟩

theorem unitPath_eq_ok {selected path : Text} :
    unitPath project (some selected) = .ok path ↔ isUnitName selected = true ∧ selected = path := by
  simp only [unitPath, validateUnitName]
  split
  case isTrue h => simp [h]
  case isFalse h => simp [h]

/-- A file that holds the rendered unit is current. -/
theorem classify_put {path : Text} (hpath : isUnitName path = true) (allowLegacy : Bool)
    (directory : UnitDirectory) :
    classify beyond launcher (directory.put path (.content (renderUnit beyond launcher project)))
        project true (some path) allowLegacy
      = .ok (if isOwned project true allowLegacy
            (translateNewlines (renderUnit beyond launcher project)) = true then
          if translateNewlines (renderUnit beyond launcher project)
            = renderUnit beyond launcher project then .current else .reconcilable
        else .ambiguousForeign) := by
  have hname : unitPath project (some path) = .ok path := unitPath_eq_ok.mpr ⟨hpath, rfl⟩
  unfold classify
  rw [hname]
  simp only [bind, Except.bind, UnitDirectory.file?_put, UnitFile.readText, Bool.not_eq_true',
    Bool.not_true, Bool.false_eq_true, if_false]
  cases isOwned project true allowLegacy (translateNewlines (renderUnit beyond launcher project))
  · rfl
  · simp only [Bool.true_eq_false, if_false, if_true]
    split <;> rfl

theorem Faithful.classify_put (h : Faithful launcher project) {path : Text}
    (hpath : isUnitName path = true) (allowLegacy : Bool) (directory : UnitDirectory) :
    classify beyond launcher (directory.put path (.content (renderUnit beyond launcher project)))
      project true (some path) allowLegacy = .ok .current := by
  rw [Systemd.classify_put beyond hpath, h.translateNewlines_renderUnit,
    if_pos (h.isOwned_renderUnit beyond allowLegacy), if_pos rfl]

variable {name : Option Text} {allowLegacy : Bool} {directory : UnitDirectory} {path : Text}

/-- What comes before the classification: the name is chosen, and it is safe. -/
theorem installPlan_path {classification : UnitClassification}
    (h : installPlan beyond launcher project name allowLegacy directory
      = .ok (path, classification)) :
    installName directory project name = .ok path ∧ isUnitName path = true := by
  unfold installPlan at h
  cases hname : installName directory project name with
  | error e =>
    rw [hname] at h
    cases h
  | ok selected =>
    rw [hname] at h
    cases hpath : unitPath project (some selected) with
    | error e =>
      simp [bind, Except.bind, hpath] at h
    | ok found =>
      obtain ⟨hunit, rfl⟩ := unitPath_eq_ok.mp hpath
      have hsame : selected = path := by
        simp only [bind, Except.bind, hpath] at h
        split at h
        · exact congrArg Prod.fst (Except.ok.inj h)
        · split at h
          · cases h
          · split at h
            · cases h
            · exact congrArg Prod.fst (Except.ok.inj h)
      exact ⟨congrArg Except.ok hsame, hsame ▸ hunit⟩

/-- A second install chooses the name of the first. -/
theorem Faithful.installName_put (h : Faithful launcher project) (hpath : isUnitName path = true)
    (hname : installName directory project name = .ok path) :
    installName (directory.put path (.content (renderUnit beyond launcher project))) project name
      = .ok path := by
  cases name with
  | some selected => exact hname
  | none =>
    have hours := h.describes_renderUnit beyond path
    unfold installName at hname ⊢
    cases hfound : managedUnitFor directory project with
    | error e =>
      rw [hfound] at hname
      cases hname
    | ok found =>
      have hsame : ∀ other ∈ found, other = path := by
        rintro other rfl
        rw [hfound] at hname
        exact Except.ok.inj hname
      rw [managedUnitFor_put hfound hsame hpath hours]
      rfl

theorem Faithful.installPlan_put (h : Faithful launcher project) (hpath : isUnitName path = true)
    (hname : installName directory project name = .ok path) :
    installPlan beyond launcher project name allowLegacy
        (directory.put path (.content (renderUnit beyond launcher project)))
      = .ok (path, .current) := by
  have hfound : unitPath project (some path) = .ok path := unitPath_eq_ok.mpr ⟨hpath, rfl⟩
  unfold installPlan
  rw [h.installName_put beyond hpath hname]
  simp only [bind, Except.bind, hfound, UnitDirectory.file?_put, h.classify_put beyond hpath]
  rfl

theorem install_of_current
    (h : installPlan beyond launcher project name allowLegacy directory = .ok (path, .current)) :
    install beyond launcher project name allowLegacy directory = ⟨[], .ok path⟩ := by
  unfold install
  rw [Program.observe_bind h]
  rfl

/-- Where a unit is to be written, the encoding decides. -/
theorem install_of_reconcilable
    (h : installPlan beyond launcher project name allowLegacy directory
      = .ok (path, .reconcilable)) :
    install beyond launcher project name allowLegacy directory
      = match encodable (renderUnit beyond launcher project) with
        | .ok () => ⟨[directory.put path (.content (renderUnit beyond launcher project))], .ok path⟩
        | .error e => ⟨[], .error e⟩ := by
  unfold install
  rw [Program.observe_bind h]
  show (writeAtomic path (renderUnit beyond launcher project) >>= fun _ => pure path) directory = _
  unfold writeAtomic
  cases hencoded : encodable (renderUnit beyond launcher project) with
  | ok u => simp [bind, Program.bind, Program.observe, Program.effect, Outcome.last, pure]
  | error e => simp [bind, Program.bind, Program.observe]

/-- The unit that `install` writes and the unit that is recognised agree:  the file has the lines of
    `render_unit` and no others, it is classified as current, and a second `install` returns without
    a write. -/
def InstallAgrees (launcher : List Text) (project : Project) (name : Option Text)
    (allowLegacy : Bool) (directory : UnitDirectory) : Prop :=
  ∃ path written raw,
    install beyond launcher project name allowLegacy directory = ⟨[written], .ok path⟩
      ∧ written.file? path = some (.content raw)
      ∧ fileLines raw = unitLines beyond launcher project
      ∧ (∀ legacy, classify beyond launcher written project true (some path) legacy = .ok .current)
      ∧ install beyond launcher project name allowLegacy written = ⟨[], .ok path⟩

theorem Faithful.installAgrees (h : Faithful launcher project)
    (hplan : installPlan beyond launcher project name allowLegacy directory
      = .ok (path, .reconcilable)) :
    InstallAgrees beyond launcher project name allowLegacy directory := by
  obtain ⟨hname, hpath⟩ := installPlan_path beyond hplan
  have hinstall := install_of_reconcilable beyond hplan
  rw [h.encodable beyond] at hinstall
  exact ⟨path, _, _, hinstall, UnitDirectory.file?_put _ _ _, h.fileLines_renderUnit beyond,
    fun legacy => h.classify_put beyond hpath legacy directory,
    install_of_current beyond (h.installPlan_put beyond hpath hname)⟩

/-! ### Only faithful arguments agree -/

theorem mem_intercalate {sep line : Text} {lines : List Text} {c : CodePoint} (hline : line ∈ lines)
    (hc : c ∈ line) : c ∈ sep.intercalate lines := by
  induction lines with
  | nil => exact absurd hline List.not_mem_nil
  | cons first lines ih =>
    cases lines with
    | nil =>
      rw [List.intercalate_singleton, ← List.mem_singleton.mp hline]
      exact hc
    | cons next lines =>
      rw [List.intercalate_cons_cons]
      rcases List.mem_cons.mp hline with rfl | hline
      · exact List.mem_append_left _ (List.mem_append_left _ hc)
      · exact List.mem_append_right _ (ih hline)

theorem mem_renderUnit_repository {c : CodePoint} (hc : c ∈ project.repository) :
    c ∈ renderUnit beyond launcher project := by
  refine @mem_intercalate _ (repositoryComment ++ project.repository) _ _ ?_
    (List.mem_append_right _ hc)
  unfold unitLines
  simp

theorem mem_renderUnit_envFile {c : CodePoint} (hc : c ∈ project.envFile) :
    c ∈ renderUnit beyond launcher project := by
  refine @mem_intercalate _ (envFileComment ++ project.envFile) _ _ ?_
    (List.mem_append_right _ hc)
  unfold unitLines
  simp

theorem mem_renderUnit_launcher {argument : Text} {c : CodePoint} (hargument : argument ∈ launcher)
    (hc : c ∈ argument) (hbad : c = carriageReturn ∨ isSurrogate c = true) :
    c ∈ renderUnit beyond launcher project := by
  refine @mem_intercalate _ (text "ExecStart=" ++ (text " ").intercalate
      ((launchArgv launcher project).map (systemdExecArgument beyond))) _ _ ?_ ?_
  · unfold unitLines
    simp
  · refine List.mem_append_right _ (mem_intercalate ?_ (mem_systemdExecArgument beyond hc hbad))
    exact List.mem_map_of_mem (List.mem_append_left _ hargument)

theorem faithful_of_installAgrees
    (hplan : installPlan beyond launcher project name allowLegacy directory
      = .ok (path, .reconcilable))
    (h : InstallAgrees beyond launcher project name allowLegacy directory) :
    Faithful launcher project := by
  obtain ⟨path', written, raw, hinstall, -, -, hclassify, -⟩ := h
  obtain ⟨-, hpath⟩ := installPlan_path beyond hplan
  rw [install_of_reconcilable beyond hplan] at hinstall
  -- the write took place, so that everything was encoded
  have hencodable : encodable (renderUnit beyond launcher project) = .ok () := by
    cases he : encodable (renderUnit beyond launcher project) with
    | ok u => rfl
    | error e =>
      rw [he] at hinstall
      cases hinstall
  rw [hencodable] at hinstall
  simp only [Outcome.mk.injEq, List.cons.injEq, and_true, Except.ok.injEq] at hinstall
  obtain ⟨rfl, rfl⟩ := hinstall
  have hsurrogate : ∀ c ∈ renderUnit beyond launcher project, isSurrogate c = false := by
    unfold encodable at hencodable
    split at hencodable
    case isTrue => cases hencodable
    case isFalse hnone => simpa using hnone
  -- the text is read as it was written, so that it holds no carriage return
  have hcurrent := hclassify true
  rw [classify_put beyond hpath, Except.ok.injEq] at hcurrent
  split at hcurrent
  case isFalse => cases hcurrent
  case isTrue howned =>
    split at hcurrent
    case isFalse => cases hcurrent
    case isTrue hsame =>
      have hcr : carriageReturn ∉ renderUnit beyond launcher project :=
        translateNewlines_eq_iff.mp hsame
      rw [hsame, isOwned_renderUnit beyond
        (fun hc => hcr (mem_renderUnit_repository beyond hc))
        (fun hc => hcr (mem_renderUnit_envFile beyond hc))] at howned
      refine ⟨fun c hc => ⟨howned.1 c hc, hsurrogate c (mem_renderUnit_repository beyond hc)⟩,
        fun c hc => ⟨howned.2 c hc, hsurrogate c (mem_renderUnit_envFile beyond hc)⟩,
        fun argument hargument c hc => ⟨?_, ?_⟩⟩
      · rintro rfl
        exact hcr (mem_renderUnit_launcher beyond hargument hc (.inl rfl))
      · by_contra hbad
        have hbad : isSurrogate c = true := by simpa using hbad
        have hnot := hsurrogate c (mem_renderUnit_launcher beyond hargument hc (.inr hbad))
        rw [hbad] at hnot
        cases hnot

/-- **Rendering and recognition.** Whenever `install` comes to write a unit, the written unit is the
    recognised one if and only if the arguments are faithful:  no line boundary of `str.splitlines`
    in the repository and configuration paths, no carriage return in the launcher, and no character
    that UTF-8 cannot encode. -/
theorem install_agrees_iff
    (hplan : installPlan beyond launcher project name allowLegacy directory
      = .ok (path, .reconcilable)) :
    InstallAgrees beyond launcher project name allowLegacy directory
      ↔ Faithful launcher project :=
  ⟨faithful_of_installAgrees beyond hplan, fun h => h.installAgrees beyond hplan⟩

/-! ### A fresh directory -/

theorem installPlan_empty (hname : isUnitName (unitName project 8) = true) :
    installPlan beyond launcher project none false .empty
      = .ok (unitName project 8, .reconcilable) := by
  have hfound : unitPath project (some (unitName project 8)) = .ok (unitName project 8) :=
    unitPath_eq_ok.mpr ⟨hname, rfl⟩
  have hfree : managedUnitFor .empty project = .ok none :=
    managedUnitFor_eq_ok.mpr ⟨nofun, rfl⟩
  have hnone : installName .empty project none = .ok (unitName project 8) := by
    unfold installName
    rw [hfree]
    rfl
  unfold installPlan
  rw [hnone]
  simp only [bind, Except.bind, hfound]
  rfl

def sampleProject (repository : Text) : Project where
  repository := repository
  stateKey := List.replicate 64 (codePoint 'a')
  envFile := text "/srv/.env"
  stateKey_hex := by decide
  stateKey_length := rfl

theorem isUnitName_sampleProject (repository : Text) :
    isUnitName (unitName (sampleProject repository) 8) = true := by
  show isUnitName (text "devlegate-aaaaaaaa.service") = true
  decide

theorem install_agrees_iff_fresh :
    InstallAgrees (fun _ => false) [text "/opt/app%/$x"] (sampleProject (text "/srv/a b")) none false
        .empty
      ↔ Faithful [text "/opt/app%/$x"] (sampleProject (text "/srv/a b")) :=
  install_agrees_iff (fun _ => false) (installPlan_empty _ (isUnitName_sampleProject _))

/-- A repository whose path holds a line feed: `/srv/a`, and on the next line of the unit `b`. -/
theorem FeedInPath.not_agrees :
    installPlan (fun _ => false) [text "/opt/app"] (sampleProject (text "/srv/a\nb")) none false
        .empty = .ok (text "devlegate-aaaaaaaa.service", .reconcilable)
      ∧ ¬ InstallAgrees (fun _ => false) [text "/opt/app"] (sampleProject (text "/srv/a\nb")) none
        false .empty := by
  have hplan : installPlan (fun _ => false) [text "/opt/app"] (sampleProject (text "/srv/a\nb")) none
      false .empty = .ok (unitName (sampleProject (text "/srv/a\nb")) 8, .reconcilable) :=
    installPlan_empty _ (isUnitName_sampleProject _)
  refine ⟨hplan, fun h => ?_⟩
  have hfaithful := faithful_of_installAgrees _ hplan h
  exact absurd (hfaithful.repository lineFeed (by decide)).1 (by decide)

end Devlegate.Systemd
