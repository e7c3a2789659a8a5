import Mathlib.Data.List.AList
import Devlegate.ReportJson
import Devlegate.Lib.Crash
import Devlegate.Lib.Loops

namespace Devlegate

open JsonText Crash Loops

/-!
# The store of execution reports

`ExecutionReportStore` keeps a report as a JSON file, with the long report of its claim in a file
beside it.  Each file is written under a temporary name and then linked, the long report first: the
JSON file is the commit marker.

* `Files`: what stands at each place below the control worktree.
* `ReportStore.write`, `ReportStore.read`, `ReportStore.list`.
* `Grown`: what a run of `write`, finished or killed, does to the files.
* `Intact`: every file of a report holds what was written.
* `reportStore_faithful_iff`: replays succeed, linked reports stay and written reports are read
  back, exactly when no long report holds a carriage return.
-/

/-! ### Files -/

/-- The names in a ticket's directory. -/
inductive FileName where
  | report (stem : Text)
  | artifact (stem : Text)
  | temporary (stem random : Text)
  deriving DecidableEq

/-- The places below a control worktree. -/
inductive Location where
  | control
  | root
  | ticket (ticketId : Text)
  | entry (ticketId : Text) (name : FileName)
  deriving DecidableEq

/-- Where a symbolic link leads. -/
inductive Target where
  | directory
  | file
  | nowhere
  deriving DecidableEq

/-- What stands at a place. -/
inductive Node where
  | directory
  | file (raw : List UInt8)
  | symlink (target : Target)
  deriving DecidableEq

/-- `path.is_dir()`. -/
def Node.isDir : Node → Bool
  | .directory | .symlink .directory => true
  | _ => false

/-- `path.is_file()`. -/
def Node.isFile : Node → Bool
  | .file _ | .symlink .file => true
  | _ => false

/-- `path.is_symlink()`. -/
def Node.isSymlink : Node → Bool
  | .symlink _ => true
  | _ => false

/-- `path.exists()`. -/
def Node.exists : Node → Bool
  | .symlink .nowhere => false
  | _ => true

/-- The files below a control worktree. -/
abbrev Files := AList fun _ : Location => Node

namespace Files

variable (files : Files) (location : Location)

/-- A test on what stands at a place, false if nothing does. -/
def test (p : Node → Bool) : Bool := (files.lookup location).any p

end Files

namespace Wire.ReportStore

/-- How the store raises. -/
inductive StoreError where
  /-- `ExecutionReportError`. -/
  | report (message : String)
  /-- `ExecutionReportError(f"cannot read execution report: {path}")`. -/
  | cannotRead (path : Location)
  /-- `ExecutionReportError(f"cannot persist execution report: {error}")`. -/
  | cannotPersist
  /-- A text that has no bytes, or bytes that are no text. -/
  | unicode
  /-- The interpreter's limits on JSON. -/
  | load (e : LoadError)
  deriving DecidableEq

/-- The error of `from_dict`. -/
def ofBuild : BuildError → StoreError
  | .reportError message => .report message
  | .unicodeEncodeError => .unicode

/-- Raise an `ExecutionReportError` unless the check holds. -/
def check (p : Bool) (message : String) : Except StoreError Unit :=
  if p then .ok () else .error (.report message)

/-! ### Reading -/

/-- `_validate_roots`. -/
def validateRoots (files : Files) : Except StoreError Unit := do
  check (!files.test .control Node.isSymlink) "control worktree root is a symlink"
  check (!files.test .root Node.isSymlink) "execution report root is a symlink"

/-- `_path`. -/
def pathOf (ticketId executionId : Text) : Except StoreError Location := do
  check (isIdentifier ticketId && isIdentifier executionId) "invalid execution report identity"
  return .entry ticketId (.report executionId)

/-- `path.read_text()` of a file. -/
def readText (files : Files) (path : Location) : Except StoreError Text :=
  match files.lookup path with
  | some (.file raw) =>
    match Utf8.decode raw with
    | some s => .ok (translateNewlines s)
    | none => .error .unicode
  | _ => .error (.cannotRead path)

section Decoding

variable [Sha256]

/-- `ExecutionReport.from_dict(json.loads(path.read_text()))`, where a missing file and a text that
    is no JSON cannot be read. -/
def loadReport (files : Files) (path : Location) : Except StoreError ExecutionReport := do
  let s ← readText files path
  match parse defaultLimits s with
  | .error .decode => .error (.cannotRead path)
  | .error e => .error (.load e)
  | .ok payload =>
    match ExecutionReport.fromDict payload with
    | .ok report => .ok report
    | .error e => .error (ofBuild e)

/-- The artifact of a report is there, with the digest of the report. -/
def checkArtifact (files : Files) (artifact : Location) (report : ExecutionReport) :
    Except StoreError Unit := do
  if report.reportArtifact.isSome then
    check (!files.test artifact Node.isSymlink && files.test artifact Node.isFile)
      "execution report artifact is unavailable"
    let content ← readText files artifact
    match digestOf (some content) with
    | .ok digest =>
      check (digest == report.reportSha256) "execution report artifact integrity mismatch"
    | .error e => .error (ofBuild e)

/-- `ExecutionReportStore.read`. -/
def read (files : Files) (ticketId executionId : Text) : Except StoreError ExecutionReport := do
  let path ← pathOf ticketId executionId
  validateRoots files
  check (!files.test path Node.isSymlink && !files.test (.ticket ticketId) Node.isSymlink)
    "execution report path is a symlink"
  let report ← loadReport files path
  check (report.ticketId == ticketId && report.executionId == executionId)
    "execution report identity does not match path"
  checkArtifact files (.entry ticketId (.artifact executionId)) report
  return report

/-- A report that is refused cannot be read. -/
def orCannotRead (path : Location) : Except StoreError ExecutionReport → Except StoreError ExecutionReport
  | .error (.report _) => .error (.cannotRead path)
  | result => result

/-- One file of `list`. -/
def listReport (files : Files) (ticketId executionId : Text) : Except StoreError ExecutionReport := do
  let path := Location.entry ticketId (.report executionId)
  check (!files.test path Node.isSymlink && files.test path Node.isFile)
    "execution report path is a symlink"
  let report ← orCannotRead path (loadReport files path)
  check (report.ticketId == ticketId && report.executionId == executionId)
    "execution report identity does not match path"
  checkArtifact files (.entry ticketId (.artifact executionId)) report
  return report

/-- The stems of `root.glob("*.json")`, in the order of the names. -/
def reportStems (files : Files) (ticketId : Text) : List Text :=
  (files.keys.filterMap fun
    | .entry t (.report stem) => if t = ticketId then some stem else none
    | _ => none).mergeSort fun a b => textLe (a ++ text ".json") (b ++ text ".json")

/-- One directory of `list`. -/
def listTicket (files : Files) (ticketId : Text) : Except StoreError (List ExecutionReport) := do
  check (!files.test (.ticket ticketId) Node.isSymlink && files.test (.ticket ticketId) Node.isDir)
    "execution report ticket directory is unsafe"
  (reportStems files ticketId).mapM (listReport files ticketId)

/-- The directories of `self.root.iterdir()`, in the order of the names. -/
def ticketDirectories (files : Files) : List Text :=
  (files.keys.filterMap fun
    | .ticket t => if files.test (.ticket t) Node.isDir then some t else none
    | _ => none).mergeSort textLe

/-- The directories that `list` reads. -/
def listRoots (files : Files) : Option Text → Except StoreError (List Text)
  | some ticketId => do
    check (isIdentifier ticketId) "invalid execution report identity"
    check (!files.test (.ticket ticketId) Node.isSymlink)
      "execution report ticket directory is unsafe"
    check (!(files.test .root Node.exists && !files.test .root Node.isDir))
      "execution report root is unsafe"
    return if files.test (.ticket ticketId) Node.exists then [ticketId] else []
  | none => return if files.test .root Node.isDir then ticketDirectories files else []

/-- `ExecutionReportStore.list`. -/
def list (files : Files) (ticketId : Option Text) : Except StoreError (List ExecutionReport) := do
  validateRoots files
  let roots ← listRoots files ticketId
  let reports ← roots.mapM (listTicket files)
  return reports.flatten

/-! ### Writing -/

/-- The random parts that `NamedTemporaryFile` takes for the artifact and for the report. -/
structure Names where
  artifact : Text
  report : Text

/-- `FileExistsError`. -/
def alreadyExists : StoreError := .report "execution report already exists"

/-- The parent of a new directory. -/
def makeParent (parent : Location) : Program Files StoreError Unit := do
  let files ← Program.get
  match files.lookup parent with
  | some node => Program.ensure (node.isDir = true) .cannotPersist
  | none => Program.effect (AList.insert parent .directory)

/-- `location.mkdir(parents=True, exist_ok=True)`, where at most `parent` is missing too. -/
def makeDirectory (parent location : Location) : Program Files StoreError Unit := do
  let files ← Program.get
  match files.lookup location with
  | some node => Program.ensure (node.isDir = true) alreadyExists
  | none => do
    makeParent parent
    Program.effect (AList.insert location .directory)

/-- `os.unlink`, where a missing file is passed over. -/
def unlink (path : Location) : Program Files StoreError Unit := do
  let files ← Program.get
  if (files.lookup path).isSome then Program.effect (AList.erase path) else pure ()

/-- `os.link`: whether the new name was free. -/
def link (source target : Location) : Program Files StoreError Bool := do
  let files ← Program.get
  match files.lookup source, files.lookup target with
  | _, some _ => return false
  | none, none => Program.raise .cannotPersist
  | some node, none => do
    Program.effect (AList.insert target node)
    return true

/-- Fill the temporary file; a text in UTF-8. -/
def writeText (path : Location) (content : Text) : Program Files StoreError Unit :=
  match Utf8.encode content with
  | some raw => Program.effect (AList.insert path (.file raw))
  | none => Program.raise .unicode

/-- The directories of a report. -/
def makeDirectories (ticketId : Text) : Program Files StoreError Unit := do
  Program.observe validateRoots
  makeDirectory .control .root
  Program.observe validateRoots
  Program.observe fun files =>
    check (!(files.test (.ticket ticketId) Node.exists && files.test (.ticket ticketId) Node.isSymlink))
      "execution report ticket directory is a symlink"
  makeDirectory .root (.ticket ticketId)

/-- An artifact that is there already must hold the same content. -/
def compareArtifact (artifact : Location) (content : Text) (files : Files) :
    Except StoreError Unit := do
  let message := "execution report artifact already exists"
  check (!files.test artifact Node.isSymlink && files.test artifact Node.isFile) message
  let present ← readText files artifact
  check (present == content) message

/-- The artifact, published before the report. -/
def publishArtifact (ticketId executionId random content : Text) :
    Program Files StoreError Unit := do
  let temporary := Location.entry ticketId (.temporary executionId random)
  let artifact := Location.entry ticketId (.artifact executionId)
  Program.effect (AList.insert temporary (.file []))
  Program.afterwards (do
    writeText temporary content
    let linked ← link temporary artifact
    if linked then pure () else Program.observe (compareArtifact artifact content))
    (unlink temporary)

/-- The report, the commit marker. -/
def publishReport (report : ExecutionReport) (random : Text) : Program Files StoreError Unit := do
  let temporary := Location.entry report.ticketId (.temporary report.executionId random)
  Program.effect (AList.insert temporary (.file []))
  match report.toJson defaultLimits with
  | .error e => Program.raise (.load e)
  | .ok json => do
    writeText temporary json
    let linked ← link temporary (.entry report.ticketId (.report report.executionId))
    Program.ensure (linked = true) alreadyExists

/-- The long report, if the claim has one. -/
def publishLong (report : ExecutionReport) (names : Names) : Program Files StoreError Unit :=
  match longReport report.result.claim with
  | some content =>
    publishArtifact report.ticketId report.executionId names.artifact content
  | none => pure ()

/-- The body of `write`: the long report first, the report as the commit marker. -/
def publish (report : ExecutionReport) (names : Names) : Program Files StoreError Location := do
  makeDirectories report.ticketId
  publishLong report names
  publishReport report names.report
  return .entry report.ticketId (.report report.executionId)

/-- The `finally` of `write`. -/
def cleanup (report : ExecutionReport) (names : Names) : Program Files StoreError Unit := do
  unlink (.entry report.ticketId (.temporary report.executionId names.report))
  unlink (.entry report.ticketId (.temporary report.executionId names.artifact))

/-- `ExecutionReportStore.write`. -/
def write (report : ExecutionReport) (names : Names) : Program Files StoreError Location := do
  Program.observe fun _ =>
    match ExecutionReport.fromDict report.asDict with
    | .ok _ => .ok ()
    | .error e => .error (ofBuild e)
  let _path ← Program.observe fun _ => pathOf report.ticketId report.executionId
  Program.afterwards (publish report names) (cleanup report names)

end Decoding

/-! ### What a run of `write` changes -/

/-- The places of directories. -/
def isPlace : Location → Bool
  | .entry _ _ => false
  | _ => true

/-- The names that nobody reads. -/
def isTemporary : Location → Bool
  | .entry _ (.temporary _ _) => true
  | _ => false

section Files

variable [Sha256]

/-- The JSON file of a report. -/
abbrev jsonAt (r : BuiltReport) : Location := .entry r.report.ticketId (.report r.report.executionId)

/-- The file of its long report. -/
abbrev artifactAt (r : BuiltReport) : Location :=
  .entry r.report.ticketId (.artifact r.report.executionId)

/-- A temporary file of its. -/
abbrev temporaryAt (r : BuiltReport) (random : Text) : Location :=
  .entry r.report.ticketId (.temporary r.report.executionId random)

/-- What the JSON file of a report holds. -/
def IsJson (r : BuiltReport) (raw : List UInt8) : Prop :=
  ∃ json, r.report.toJson defaultLimits = .ok json ∧ Utf8.encode json = some raw

/-- What the file of its long report holds. -/
def IsArtifact (r : BuiltReport) (raw : List UInt8) : Prop :=
  ∃ long, longReport r.report.result.claim = some long ∧ Utf8.encode long = some raw

/-- The directories of a report are there. -/
structure Placed (r : BuiltReport) (s : Files) : Prop where
  root : s.lookup .root = some .directory
  ticket : s.lookup (.ticket r.report.ticketId) = some .directory

/-- Its long report is there, too. -/
structure Published (r : BuiltReport) (s : Files) : Prop extends Placed r s where
  artifact : ∀ long, longReport r.report.result.claim = some long →
    ∃ raw, Utf8.encode long = some raw ∧ s.lookup (artifactAt r) = some (.file raw)

/-- The report is there. -/
structure Written (r : BuiltReport) (s : Files) : Prop extends Published r s where
  json : ∃ raw, IsJson r raw ∧ s.lookup (jsonAt r) = some (.file raw)

/-- What is there stays, temporary files apart. -/
def Kept (s t : Files) : Prop :=
  ∀ location node, isTemporary location = false → s.lookup location = some node →
    t.lookup location = some node

/-- The effects that a run of `write` may have. -/
inductive Change (r : BuiltReport) : Files → Files → Prop
  | directory {s : Files} {location : Location} (h : isPlace location = true)
      (hfree : s.lookup location = none) : Change r s (s.insert location .directory)
  | temporary {s : Files} (random : Text) (node : Node) :
      Change r s (s.insert (temporaryAt r random) node)
  | unlinked {s : Files} (random : Text) : Change r s (s.erase (temporaryAt r random))
  | artifact {s : Files} {raw : List UInt8} (h : IsArtifact r raw)
      (hfree : s.lookup (artifactAt r) = none) : Change r s (s.insert (artifactAt r) (.file raw))
  | report {s : Files} {raw : List UInt8} (h : IsJson r raw) (hpublished : Published r s)
      (hfree : s.lookup (jsonAt r) = none) : Change r s (s.insert (jsonAt r) (.file raw))

/-- What a run leaves behind, wherever it is killed. -/
abbrev Grown (r : BuiltReport) : Files → Files → Prop := Relation.ReflTransGen (Change r)

variable {r : BuiltReport} {s t : Files}

theorem Change.kept (h : Change r s t) : Kept s t := by
  intro location node hname hnode
  have hinsert : ∀ {other : Location} {value : Node}, s.lookup other = none →
      (s.insert other value).lookup location = some node := by
    intro other value hfree
    rw [AList.lookup_insert_ne, hnode]
    rintro rfl
    rw [hnode] at hfree
    cases hfree
  have htemporary : ∀ random, location ≠ temporaryAt r random := by
    rintro random rfl
    cases hname
  cases h with
  | directory h hfree => exact hinsert hfree
  | temporary random value => rw [AList.lookup_insert_ne (htemporary random), hnode]
  | unlinked random => rw [AList.lookup_erase_ne (htemporary random), hnode]
  | artifact h hfree => exact hinsert hfree
  | report h hpublished hfree => exact hinsert hfree

/-- Where a node comes from. -/
theorem Change.origin (h : Change r s t) {location : Location} {node : Node}
    (hnode : t.lookup location = some node) :
    s.lookup location = some node ∨ (isPlace location = true ∧ node = .directory)
      ∨ isTemporary location = true ∨ (location = artifactAt r ∧ ∃ raw, IsArtifact r raw ∧ node = .file raw)
      ∨ (location = jsonAt r ∧ Published r s ∧ ∃ raw, IsJson r raw ∧ node = .file raw) := by
  have hinsert : ∀ {other : Location} {value : Node},
      (s.insert other value).lookup location = some node →
        s.lookup location = some node ∨ location = other ∧ node = value := by
    intro other value h
    by_cases heq : location = other
    · rw [heq, AList.lookup_insert] at h
      exact .inr ⟨heq, (Option.some.inj h).symm⟩
    · rw [AList.lookup_insert_ne heq] at h
      exact .inl h
  cases h with
  | directory h hfree =>
    rcases hinsert hnode with hold | ⟨rfl, rfl⟩
    · exact .inl hold
    · exact .inr (.inl ⟨h, rfl⟩)
  | temporary random value =>
    rcases hinsert hnode with hold | ⟨rfl, -⟩
    · exact .inl hold
    · exact .inr (.inr (.inl rfl))
  | unlinked random =>
    by_cases heq : location = temporaryAt r random
    · exact .inr (.inr (.inl (by rw [heq]; rfl)))
    · rw [AList.lookup_erase_ne heq] at hnode
      exact .inl hnode
  | artifact h hfree =>
    rcases hinsert hnode with hold | ⟨rfl, rfl⟩
    · exact .inl hold
    · exact .inr (.inr (.inr (.inl ⟨rfl, _, h, rfl⟩)))
  | report h hpublished hfree =>
    rcases hinsert hnode with hold | ⟨rfl, rfl⟩
    · exact .inl hold
    · exact .inr (.inr (.inr (.inr ⟨rfl, hpublished, _, h, rfl⟩)))

theorem Grown.kept (h : Grown r s t) : Kept s t := by
  intro location node hname hnode
  induction h with
  | refl => exact hnode
  | tail _ hchange ih => exact hchange.kept _ _ hname ih

theorem Placed.mono (h : Placed r s) (hkept : Kept s t) : Placed r t where
  root := hkept _ _ rfl h.root
  ticket := hkept _ _ rfl h.ticket

theorem Published.mono (h : Published r s) (hkept : Kept s t) : Published r t where
  toPlaced := h.toPlaced.mono hkept
  artifact long hlong := by
    obtain ⟨raw, hraw, hnode⟩ := h.artifact long hlong
    exact ⟨raw, hraw, hkept _ _ rfl hnode⟩

theorem Written.mono (h : Written r s) (hkept : Kept s t) : Written r t where
  toPublished := h.toPublished.mono hkept
  json := by
    obtain ⟨raw, hraw, hnode⟩ := h.json
    exact ⟨raw, hraw, hkept _ _ rfl hnode⟩

end Files

/-- Directories, where there are any. -/
def Tidy (s : Files) : Prop :=
  ∀ location node, isPlace location = true → s.lookup location = some node → node = .directory

/-! ### Stores of reports -/

section Sets

variable [Sha256]

/-- The reports that are written to a store: an execution has one. -/
structure ReportSet where
  member : BuiltReport → Prop
  unique : ∀ r r', member r → member r' → r.report.ticketId = r'.report.ticketId →
    r.report.executionId = r'.report.executionId → r.report = r'.report

instance : Membership BuiltReport ReportSet := ⟨fun reports r => reports.member r⟩

/-- Every file of a report holds what was written, and the files of its JSON are there. -/
structure Intact (reports : ReportSet) (s : Files) : Prop where
  directories : Tidy s
  report : ∀ ticketId executionId node,
    s.lookup (.entry ticketId (.report executionId)) = some node →
      ∃ r ∈ reports, r.report.ticketId = ticketId ∧ r.report.executionId = executionId
        ∧ Written r s
  artifact : ∀ ticketId executionId node,
    s.lookup (.entry ticketId (.artifact executionId)) = some node →
      ∃ r ∈ reports, r.report.ticketId = ticketId ∧ r.report.executionId = executionId
        ∧ ∃ raw, IsArtifact r raw ∧ node = .file raw

variable {reports : ReportSet} {r : BuiltReport} {s t : Files}

theorem Intact.change (h : Intact reports s) (hr : r ∈ reports) (hchange : Change r s t) :
    Intact reports t := by
  refine ⟨?_, ?_, ?_⟩
  · intro location node hplace hnode
    rcases hchange.origin hnode with hold | ⟨-, hnew⟩ | htemporary | ⟨rfl, -⟩ | ⟨rfl, -⟩
    · exact h.directories _ _ hplace hold
    · exact hnew
    · cases location <;> cases hplace <;> cases htemporary
    · cases hplace
    · cases hplace
  · intro ticketId executionId node hnode
    rcases hchange.origin hnode with hold | ⟨hplace, -⟩ | htemporary | ⟨heq, -⟩ | ⟨heq, hnew, raw, hraw, rfl⟩
    · obtain ⟨r', hr', hticket, hexecution, hwritten⟩ := h.report _ _ _ hold
      exact ⟨r', hr', hticket, hexecution, hwritten.mono hchange.kept⟩
    · cases hplace
    · cases htemporary
    · cases heq
    · cases heq
      exact ⟨r, hr, rfl, rfl, hnew.mono hchange.kept, raw, hraw, hnode⟩
  · intro ticketId executionId node hnode
    rcases hchange.origin hnode with hold | ⟨hplace, -⟩ | htemporary | ⟨heq, hnew⟩ | ⟨heq, -⟩
    · exact h.artifact _ _ _ hold
    · cases hplace
    · cases htemporary
    · cases heq
      exact ⟨r, hr, rfl, rfl, hnew⟩
    · cases heq

theorem Intact.grown (h : Intact reports s) (hr : r ∈ reports) (hgrown : Grown r s t) :
    Intact reports t := by
  induction hgrown with
  | refl => exact h
  | tail _ hchange ih => exact ih.change hr hchange

/-! ### The stages of `write` -/

/-- The files are the same. -/
def SameEntries (s t : Files) : Prop :=
  ∀ ticketId name, t.lookup (.entry ticketId name) = s.lookup (.entry ticketId name)

omit [Sha256] in
theorem Tidy.not_symlink (h : Tidy s) {location : Location} (hplace : isPlace location = true) :
    s.test location Node.isSymlink = false := by
  unfold Files.test
  cases hnode : s.lookup location with
  | none => rfl
  | some node =>
    rw [h location node hplace hnode]
    rfl

omit [Sha256] in
theorem Tidy.validateRoots (h : Tidy s) : validateRoots s = .ok () := by
  unfold ReportStore.validateRoots
  rw [h.not_symlink rfl, h.not_symlink rfl]
  rfl

omit [Sha256] in
theorem Tidy.insert (h : Tidy s) (location : Location) : Tidy (s.insert location .directory) := by
  intro other node hplace hnode
  by_cases heq : other = location
  · rw [heq, AList.lookup_insert] at hnode
    exact (Option.some.inj hnode).symm
  · rw [AList.lookup_insert_ne heq] at hnode
    exact h other node hplace hnode

/-- A new directory changes nothing else. -/
theorem grown_directory {s₀ : Files} {location : Location} (hplace : isPlace location = true)
    (hfree : s.lookup location = none) (hgrown : Grown r s₀ s) :
    Grown r s₀ (s.insert location .directory) ∧ SameEntries s (s.insert location .directory) := by
  refine ⟨hgrown.tail (.directory hplace hfree), fun ticketId name => ?_⟩
  rw [AList.lookup_insert_ne]
  rintro rfl
  cases hplace

/-- One directory, with its parent. -/
theorem sat_makeDirectory {Q : Unit → Files → Prop} {E : StoreError → Files → Prop} {s₀ : Files}
    {parent location : Location} (hparent : isPlace parent = true)
    (hplace : isPlace location = true) (hne : location ≠ parent) (hs : Tidy s)
    (hgrown : Grown r s₀ s)
    (hQ : ∀ t, Tidy t → Grown r s₀ t → Grown r s t → SameEntries s t →
      t.lookup location = some .directory → Q () t) :
    Sat (Grown r s₀) (makeDirectory parent location) Q E s := by
  refine .bind (.get ?_)
  cases hnode : s.lookup location with
  | some node =>
    cases hs location node hplace hnode
    exact .ensure (fun _ => hQ s hs hgrown .refl (fun _ _ => rfl) hnode) (fun h => absurd rfl h)
  | none =>
    refine .bind (.bind (.get ?_))
    cases hup : s.lookup parent with
    | some node =>
      cases hs parent node hparent hup
      obtain ⟨hmade, hsame⟩ := grown_directory hplace hnode hgrown
      refine .ensure (fun _ => .effect hmade ?_) (fun h => absurd rfl h)
      exact hQ _ (hs.insert location) hmade (grown_directory hplace hnode .refl).1 hsame
        (AList.lookup_insert s)
    | none =>
      -- both are new
      have hnode' : (s.insert parent .directory).lookup location = none := by
        rw [AList.lookup_insert_ne hne, hnode]
      obtain ⟨hup', hsame⟩ := grown_directory hparent hup hgrown
      obtain ⟨hmade, hsame'⟩ := grown_directory hplace hnode' hup'
      refine .effect hup' (.effect hmade ?_)
      exact hQ _ ((hs.insert parent).insert location) hmade
        (grown_directory hplace hnode' (grown_directory hparent hup .refl).1).1
        (fun ticketId name => (hsame' ticketId name).trans (hsame ticketId name))
        (AList.lookup_insert _)

/-- The directories of the report. -/
theorem sat_makeDirectories {E : StoreError → Files → Prop} {s₀ : Files} (hs : Tidy s)
    (hgrown : Grown r s₀ s) :
    Sat (Grown r s₀) (makeDirectories r.report.ticketId)
      (fun _ t => Grown r s₀ t ∧ Placed r t ∧ SameEntries s t) E s := by
  refine .bind (.observe hs.validateRoots ?_)
  refine .bind (sat_makeDirectory rfl rfl nofun hs hgrown fun t ht hgrown' _ hsame hroot => ?_)
  refine .bind (.observe ht.validateRoots ?_)
  refine .bind (.observe (a := ()) ?_ ?_)
  · rw [ht.not_symlink rfl, Bool.and_false]
    rfl
  refine sat_makeDirectory rfl rfl nofun ht hgrown' fun u _ hgrown'' hnew hsame' hticket => ?_
  exact ⟨hgrown'', ⟨hnew.kept _ _ rfl hroot, hticket⟩,
    fun ticketId name => (hsame' ticketId name).trans (hsame ticketId name)⟩

omit [Sha256] in
/-- Cleaning up after a temporary file. -/
theorem sat_unlink {I : Files → Prop} {Q : Unit → Files → Prop} {E : StoreError → Files → Prop}
    {path : Location} (hI : I (s.erase path)) (hsame : Q () s) (hQ : Q () (s.erase path)) :
    Sat I (unlink path) Q E s := by
  refine .bind (.get ?_)
  split
  · exact .effect hI hQ
  · exact .pure hsame

/-- The files with names that are read are the same. -/
def SameFiles (s t : Files) : Prop :=
  ∀ location, isTemporary location = false → t.lookup location = s.lookup location

omit [Sha256] in
theorem SameFiles.kept (h : SameFiles s t) : Kept s t := by
  intro location node hname hnode
  rw [h location hname, hnode]

omit [Sha256] in
theorem SameFiles.trans {u : Files} (h : SameFiles s t) (h' : SameFiles t u) : SameFiles s u :=
  fun location hname => (h' location hname).trans (h location hname)

theorem sameFiles_insert (r : BuiltReport) (s : Files) (random : Text) (node : Node) :
    SameFiles s (s.insert (temporaryAt r random) node) := by
  intro location hname
  rw [AList.lookup_insert_ne]
  rintro rfl
  cases hname

theorem sameFiles_erase (r : BuiltReport) (s : Files) (random : Text) :
    SameFiles s (s.erase (temporaryAt r random)) := by
  intro location hname
  rw [AList.lookup_erase_ne]
  rintro rfl
  cases hname

/-- A temporary file is made and filled. -/
theorem sameFiles_filled (r : BuiltReport) (s : Files) (random : Text) (raw : List UInt8) :
    SameFiles s ((s.insert (temporaryAt r random) (.file [])).insert (temporaryAt r random)
      (.file raw)) :=
  (sameFiles_insert r s random _).trans (sameFiles_insert r _ random _)

omit [Sha256] in
/-- The new name is linked if it is free. -/
theorem sat_link {I : Files → Prop} {Q : Bool → Files → Prop} {E : StoreError → Files → Prop}
    {source target : Location} {node : Node} (hsource : s.lookup source = some node)
    (hfree : s.lookup target = none → I (s.insert target node) ∧ Q true (s.insert target node))
    (htaken : ∀ other, s.lookup target = some other → Q false s) :
    Sat I (link source target) Q E s := by
  refine .bind (.get ?_)
  rw [hsource]
  cases htarget : s.lookup target with
  | none =>
    obtain ⟨hI, hQ⟩ := hfree htarget
    exact .bind (.effect hI (.pure hQ))
  | some other => exact .pure (htaken other htarget)

omit [Sha256] in
theorem sat_writeText {I : Files → Prop} {Q : Unit → Files → Prop} {E : StoreError → Files → Prop}
    {path : Location} {content : Text} {raw : List UInt8} (hraw : Utf8.encode content = some raw)
    (hI : I (s.insert path (.file raw))) (hQ : Q () (s.insert path (.file raw))) :
    Sat I (writeText path content) Q E s := by
  unfold writeText
  rw [hraw]
  exact .effect hI hQ

omit [Sha256] in
/-- An artifact is accepted if line ends are not translated. -/
theorem compareArtifact_eq {artifact : Location} {content : Text} {raw : List UInt8}
    (hnode : s.lookup artifact = some (.file raw)) (hraw : Utf8.encode content = some raw) :
    compareArtifact artifact content s = if translateNewlines content = content then .ok ()
      else .error (.report "execution report artifact already exists") := by
  unfold compareArtifact readText Files.test
  rw [hnode]
  simp only [Utf8.decode_encode hraw]
  show (check (translateNewlines content == content) _ : Except StoreError Unit) = _
  unfold check
  simp only [beq_iff_eq]

/-- The artifact of a report is published, or was. -/
theorem sat_publishArtifact {E : StoreError → Files → Prop} {s₀ : Files} {long random : Text}
    {raw : List UInt8} (hlong : longReport r.report.result.claim = some long)
    (hraw : Utf8.encode long = some raw)
    (hartifact : s.lookup (artifactAt r) = none
      ∨ s.lookup (artifactAt r) = some (.file raw) ∧ translateNewlines long = long)
    (hplaced : Placed r s) (hgrown : Grown r s₀ s) :
    Sat (Grown r s₀) (publishArtifact r.report.ticketId r.report.executionId random long)
      (fun _ t => Grown r s₀ t ∧ Published r t ∧ t.lookup (jsonAt r) = s.lookup (jsonAt r)) E s := by
  -- cleaning up keeps what has been reached
  have hclean : ∀ {u : Files}, Grown r s₀ u → Published r u →
      u.lookup (jsonAt r) = s.lookup (jsonAt r) →
      Sat (Grown r s₀) (unlink (temporaryAt r random))
        (fun _ t => Grown r s₀ t ∧ Published r t ∧ t.lookup (jsonAt r) = s.lookup (jsonAt r)) E u := by
    intro u hu hpublished hjson
    have hsame := sameFiles_erase r u random
    exact sat_unlink (hu.tail (.unlinked random)) ⟨hu, hpublished, hjson⟩
      ⟨hu.tail (.unlinked random), hpublished.mono hsame.kept, (hsame _ rfl).trans hjson⟩
  have hempty : Grown r s₀ (s.insert (temporaryAt r random) (.file [])) :=
    hgrown.tail (.temporary random _)
  refine .bind (.effect hempty ?_)
  refine .afterwards (.bind ?_)
  have hfilled := hempty.tail (.temporary random (.file raw))
  refine sat_writeText hraw hfilled ?_
  have hsame := sameFiles_filled r s random raw
  refine .bind (sat_link (AList.lookup_insert _) (fun hfree => ?_) fun other htaken => ?_)
  · -- the new name was free
    have hart : IsArtifact r raw := ⟨long, hlong, hraw⟩
    have hlinked := hfilled.tail (.artifact hart hfree)
    refine ⟨hlinked, .pure (hclean hlinked ?_ ?_)⟩
    · refine ⟨hplaced.mono fun location node hname hnode => ?_, fun other hother => ?_⟩
      · exact (Change.artifact hart hfree).kept _ _ hname (hsame.kept _ _ hname hnode)
      · rw [hlong] at hother
        cases hother
        exact ⟨raw, hraw, AList.lookup_insert _⟩
    · rw [AList.lookup_insert_ne (by simp), hsame _ rfl]
  · -- an artifact was there
    rw [hsame _ rfl] at htaken
    rcases hartifact with hnone | ⟨hnode, htranslate⟩
    · rw [hnone] at htaken
      cases htaken
    · refine .observe (a := ()) ?_ (hclean hfilled ?_ (hsame _ rfl))
      · rw [compareArtifact_eq ((hsame _ rfl).trans hnode) hraw, if_pos htranslate]
      · refine ⟨hplaced.mono hsame.kept, fun other hother => ?_⟩
        rw [hlong] at hother
        cases hother
        exact ⟨raw, hraw, (hsame _ rfl).trans hnode⟩

/-- The report is published, unless there is one. -/
theorem sat_publishReport {s₀ : Files} {random : Text} (hpublished : Published r s)
    (hgrown : Grown r s₀ s) :
    Sat (Grown r s₀) (publishReport r.report random) (fun _ t => Grown r s₀ t ∧ Written r t)
      (fun _ t => Grown r s₀ t ∧ (s.lookup (jsonAt r)).isSome = true) s := by
  obtain ⟨json, hjson, hplain, -, -⟩ := r.exists_toJson
  obtain ⟨raw, hraw⟩ := Option.isSome_iff_exists.mp (Utf8.encode_isSome.mpr hplain)
  have hempty := hgrown.tail (.temporary random (.file []))
  refine .bind (.effect hempty ?_)
  rw [hjson]
  have hfilled := hempty.tail (.temporary random (.file raw))
  refine .bind (sat_writeText hraw hfilled ?_)
  have hsame := sameFiles_filled r s random raw
  have hpublished' := hpublished.mono hsame.kept
  refine .bind (sat_link (AList.lookup_insert _) (fun hfree => ?_) fun other htaken => ?_)
  · have hchange := Change.report ⟨json, hjson, hraw⟩ hpublished' hfree
    refine ⟨hfilled.tail hchange, .ensure (fun _ => ⟨hfilled.tail hchange, ?_⟩) (fun h => absurd rfl h)⟩
    exact ⟨hpublished'.mono hchange.kept, raw, ⟨json, hjson, hraw⟩, AList.lookup_insert _⟩
  · refine .ensure (fun h => by cases h) fun _ => ⟨hfilled, ?_⟩
    rw [hsame _ rfl] at htaken
    rw [htaken]
    rfl

/-- The long report of a report that was built has bytes. -/
theorem exists_encode {long : Text} (hlong : longReport r.report.result.claim = some long) :
    ∃ raw, Utf8.encode long = some raw := by
  have hdigest := r.consistent.digest
  rw [hlong] at hdigest
  exact Option.isSome_iff_exists.mp
    (Utf8.encode_isSome.mpr (digestOf_ok_iff.mp ⟨_, hdigest⟩ long rfl))

/-- What stands under the name of the artifact does not get in the way. -/
def Replayable (r : BuiltReport) (s : Files) : Prop :=
  ∀ long, longReport r.report.result.claim = some long → ∃ raw, Utf8.encode long = some raw
    ∧ (s.lookup (artifactAt r) = none
      ∨ s.lookup (artifactAt r) = some (.file raw) ∧ translateNewlines long = long)

/-- The long report, if there is one, is published. -/
theorem sat_publishLong {E : StoreError → Files → Prop} {s₀ : Files} {names : Names}
    (hartifact : Replayable r s) (hplaced : Placed r s) (hgrown : Grown r s₀ s) :
    Sat (Grown r s₀) (publishLong r.report names)
      (fun _ t => Grown r s₀ t ∧ Published r t ∧ t.lookup (jsonAt r) = s.lookup (jsonAt r)) E s := by
  unfold publishLong
  cases hlong : longReport r.report.result.claim with
  | none =>
    refine .pure ⟨hgrown, ⟨hplaced, fun long h => ?_⟩, rfl⟩
    rw [hlong] at h
    cases h
  | some long =>
    obtain ⟨raw, hraw, hnode⟩ := hartifact long hlong
    exact sat_publishArtifact hlong hraw hnode hplaced hgrown

/-- The temporary files are gone at the end. -/
theorem sat_cleanup {Q : Files → Prop} {E : StoreError → Files → Prop} {s₀ : Files} {names : Names}
    (hgrown : Grown r s₀ s) (hQ : Q s) (hmono : ∀ t u, SameFiles t u → Q t → Q u) :
    Sat (Grown r s₀) (cleanup r.report names) (fun _ t => Grown r s₀ t ∧ Q t) E s := by
  have hsecond : ∀ {t : Files}, Grown r s₀ t → Q t →
      Sat (Grown r s₀) (unlink (temporaryAt r names.artifact)) (fun _ u => Grown r s₀ u ∧ Q u) E t := by
    intro t ht hQt
    have hchange := ht.tail (.unlinked names.artifact)
    exact sat_unlink hchange ⟨ht, hQt⟩ ⟨hchange, hmono _ _ (sameFiles_erase r t names.artifact) hQt⟩
  have hchange := hgrown.tail (.unlinked names.report)
  exact .bind (sat_unlink hchange (hsecond hgrown hQ)
    (hsecond hchange (hmono _ _ (sameFiles_erase r s names.report) hQ)))

/-- The checks on a report that was built pass. -/
theorem write_eq (r : BuiltReport) (names : Names) : write r.report names
    = Program.afterwards (publish r.report names) (cleanup r.report names) := by
  have hdict : ExecutionReport.fromDict r.report.asDict = .ok r.report :=
    fromDict_eq_ok.mpr ⟨_, rfl, dictOf_members r.isIdentifier_executionId r.isIdentifier_ticketId,
      r.consistent⟩
  have hpath : pathOf r.report.ticketId r.report.executionId = .ok (jsonAt r) := by
    unfold pathOf check
    rw [r.isIdentifier_ticketId, r.isIdentifier_executionId]
    rfl
  funext s
  unfold write
  refine (Program.observe_bind (a := ()) (by rw [hdict]) _).trans ?_
  exact Program.observe_bind (f := fun _ : Files =>
    pathOf r.report.ticketId r.report.executionId) hpath _

/-- The report is written, unless there is one. -/
theorem sat_write {names : Names} (hs : Tidy s) (hartifact : Replayable r s) :
    Sat (Grown r s) (write r.report names)
      (fun path t => path = jsonAt r ∧ Grown r s t ∧ Written r t)
      (fun _ t => Grown r s t ∧ (s.lookup (jsonAt r)).isSome = true) s := by
  rw [write_eq]
  refine .afterwards (.bind ((sat_makeDirectories hs .refl).mono (fun _ h => h) ?_ fun _ _ h => h))
  rintro - t ⟨ht, hplaced, hentries⟩
  have hartifact' : Replayable r t := by
    intro long hlong
    obtain ⟨raw, hraw, hnode⟩ := hartifact long hlong
    exact ⟨raw, hraw, by rw [hentries]; exact hnode⟩
  refine .bind ((sat_publishLong hartifact' hplaced ht).mono (fun _ h => h) ?_ fun _ _ h => h)
  rintro - u ⟨hu, hpublished, hjson⟩
  rw [hentries] at hjson
  refine .bind ((sat_publishReport hpublished hu).mono (fun _ h => h) ?_ ?_)
  · rintro - v ⟨hv, hwritten⟩
    refine .pure ((sat_cleanup hv hwritten fun _ _ hsame h => h.mono hsame.kept).mono
      (fun _ h => h) ?_ fun _ _ h => h)
    exact fun _ w hw => ⟨rfl, hw⟩
  · rintro e v ⟨hv, hsome⟩
    rw [hjson] at hsome
    exact sat_cleanup hv hsome fun _ _ _ h => h

/-! ### What is read back -/

/-- The line ends of the long report are as they were. -/
def KeepsLines (r : BuiltReport) : Prop :=
  ∀ long, longReport r.report.result.claim = some long → translateNewlines long = long

/-- The file of a report holds it. -/
theorem loadReport_of_json {raw : List UInt8} {path : Location} (hraw : IsJson r raw)
    (hnode : s.lookup path = some (.file raw)) : loadReport s path = .ok r.report := by
  obtain ⟨json, hjson, hencode⟩ := hraw
  obtain ⟨json', hjson', -, htranslate, payload, hparse, hdict⟩ := r.exists_toJson
  rw [hjson'] at hjson
  cases hjson
  have hread : readText s path = .ok json := by
    unfold readText
    rw [hnode]
    simp only [Utf8.decode_encode hencode, htranslate]
  unfold loadReport
  rw [hread]
  show (match parse defaultLimits json with | .error .decode => _ | .error e => _ | .ok payload => _) = _
  rw [hparse]
  show (match ExecutionReport.fromDict payload with | .ok report => _ | .error e => _) = _
  rw [hdict]

/-- The artifact is what the report says. -/
theorem checkArtifact_of_published (hpublished : Published r s) (hlines : KeepsLines r) :
    checkArtifact s (artifactAt r) r.report = .ok () := by
  have hconsistent := r.consistent
  unfold checkArtifact
  cases hlong : longReport r.report.result.claim with
  | none =>
    rw [hconsistent.artifact, hlong]
    rfl
  | some long =>
    obtain ⟨raw, hraw, hnode⟩ := hpublished.artifact long hlong
    have hdigest := hconsistent.digest
    rw [hlong] at hdigest
    have hread : readText s (artifactAt r) = .ok long := by
      unfold readText
      rw [hnode]
      simp only [Utf8.decode_encode hraw, hlines long hlong]
    rw [hconsistent.artifact, hlong]
    simp only [Option.map_some, Option.isSome_some, if_true, Files.test, hnode, hread, bind,
      Except.bind, hdigest, check]
    simp [Node.isSymlink, Node.isFile]

/-- One file of a list. -/
theorem listReport_of_written (hwritten : Written r s) (hlines : KeepsLines r) :
    listReport s r.report.ticketId r.report.executionId = .ok r.report := by
  obtain ⟨raw, hraw, hnode⟩ := hwritten.json
  unfold listReport
  simp only [Files.test, hnode, bind, Except.bind, check, loadReport_of_json hraw hnode,
    orCannotRead, checkArtifact_of_published hwritten.toPublished hlines]
  simp [Node.isSymlink, Node.isFile, pure, Except.pure]

theorem read_of_written (hs : Tidy s) (hwritten : Written r s) (hlines : KeepsLines r) :
    read s r.report.ticketId r.report.executionId = .ok r.report := by
  obtain ⟨raw, hraw, hnode⟩ := hwritten.json
  have hpath : pathOf r.report.ticketId r.report.executionId = .ok (jsonAt r) := by
    unfold pathOf check
    rw [r.isIdentifier_ticketId, r.isIdentifier_executionId]
    rfl
  unfold read
  rw [hpath, hs.validateRoots]
  simp only [bind, Except.bind, loadReport_of_json hraw hnode, Files.test, hnode,
    hwritten.ticket, check, checkArtifact_of_published hwritten.toPublished hlines]
  simp [Node.isSymlink, pure, Except.pure]

omit [Sha256] in
/-- The stems of a directory are the reports in it. -/
theorem mem_reportStems {ticketId stem : Text} :
    stem ∈ reportStems s ticketId ↔ (s.lookup (.entry ticketId (.report stem))).isSome = true := by
  unfold reportStems
  rw [(List.mergeSort_perm _ _).mem_iff, List.mem_filterMap, AList.lookup_isSome, AList.mem_keys]
  constructor
  · rintro ⟨location, hmem, h⟩
    split at h
    · split at h
      · rename_i heq
        cases h
        exact heq ▸ hmem
      · cases h
    · cases h
  · exact fun hmem => ⟨_, hmem, by simp⟩

omit [Sha256] in
theorem mem_ticketDirectories {ticketId : Text} :
    ticketId ∈ ticketDirectories s ↔ s.test (.ticket ticketId) Node.isDir = true := by
  unfold ticketDirectories
  rw [(List.mergeSort_perm _ _).mem_iff, List.mem_filterMap]
  constructor
  · rintro ⟨location, -, h⟩
    split at h
    · split at h
      · rename_i heq
        cases h
        exact heq
      · cases h
    · cases h
  · intro h
    refine ⟨.ticket ticketId, ?_, by simp [h]⟩
    rw [← AList.mem_keys, ← AList.lookup_isSome]
    unfold Files.test at h
    cases hnode : s.lookup (.ticket ticketId) with
    | none =>
      rw [hnode] at h
      cases h
    | some node => rfl

/-- The reports of a directory are read, and a written report is among them. -/
theorem listTicket_of_intact (hs : Intact reports s) (hlines : ∀ r ∈ reports, KeepsLines r)
    {ticketId : Text} (hplace : s.test (.ticket ticketId) Node.isDir = true) :
    ∃ found, listTicket s ticketId = .ok found
      ∧ ∀ r, Written r s → KeepsLines r → r.report.ticketId = ticketId → r.report ∈ found := by
  have hfile : ∀ stem ∈ reportStems s ticketId, ∃ report, listReport s ticketId stem = .ok report := by
    intro stem hstem
    obtain ⟨node, hnode⟩ := Option.isSome_iff_exists.mp (mem_reportStems.mp hstem)
    obtain ⟨r, hr, rfl, rfl, hwritten⟩ := hs.report _ _ _ hnode
    exact ⟨r.report, listReport_of_written hwritten (hlines r hr)⟩
  obtain ⟨found, hfound, hmem⟩ := exists_mapM_eq_ok hfile
  refine ⟨found, ?_, ?_⟩
  · unfold listTicket
    rw [hs.directories.not_symlink rfl, hplace]
    exact hfound
  · rintro r hwritten hkeeps rfl
    obtain ⟨raw, -, hnode⟩ := hwritten.json
    refine hmem r.report.executionId (mem_reportStems.mpr ?_) _ (listReport_of_written hwritten hkeeps)
    rw [hnode]
    rfl

/-- The directory of a written report. -/
theorem Written.test_ticket (hwritten : Written r s) (p : Node → Bool) :
    s.test (.ticket r.report.ticketId) p = p .directory := by
  unfold Files.test
  rw [hwritten.ticket]
  rfl

/-- The directory that holds the directories of the tickets. -/
theorem Written.test_root (hwritten : Written r s) (p : Node → Bool) :
    s.test .root p = p .directory := by
  unfold Files.test
  rw [hwritten.root]
  rfl

theorem listRoots_of_written (hwritten : Written r s) :
    listRoots s (some r.report.ticketId) = .ok [r.report.ticketId] := by
  unfold listRoots
  dsimp only
  rw [r.isIdentifier_ticketId, hwritten.test_ticket, hwritten.test_root, hwritten.test_root,
    hwritten.test_ticket]
  rfl

/-- Every listing of a store whose files are intact succeeds, and a written report is in it. -/
theorem list_of_intact (hs : Intact reports s) (hlines : ∀ r ∈ reports, KeepsLines r)
    (hwritten : Written r s) (hkeeps : KeepsLines r) :
    (∃ found, list s none = .ok found ∧ r.report ∈ found)
      ∧ ∃ found, list s (some r.report.ticketId) = .ok found ∧ r.report ∈ found := by
  have hplace : s.test (.ticket r.report.ticketId) Node.isDir = true := hwritten.test_ticket _
  have hvalid := hs.directories.validateRoots
  constructor
  · have hall : ∀ ticketId ∈ ticketDirectories s, ∃ found, listTicket s ticketId = .ok found := by
      intro ticketId hticket
      obtain ⟨found, hfound, -⟩ := listTicket_of_intact hs hlines (mem_ticketDirectories.mp hticket)
      exact ⟨found, hfound⟩
    obtain ⟨found, hfound, hmem⟩ := exists_mapM_eq_ok hall
    obtain ⟨own, hown, hin⟩ := listTicket_of_intact hs hlines hplace
    refine ⟨found.flatten, ?_, ?_⟩
    · have hroots : listRoots s none = .ok (ticketDirectories s) := by
        show Except.ok (if s.test .root Node.isDir then _ else _) = _
        rw [hwritten.test_root]
        rfl
      unfold list
      rw [hvalid, hroots]
      simp only [bind, Except.bind, hfound, pure, Except.pure]
    · exact List.mem_flatten.mpr
        ⟨own, hmem _ (mem_ticketDirectories.mpr hplace) own hown, hin r hwritten hkeeps rfl⟩
  · obtain ⟨own, hown, hin⟩ := listTicket_of_intact hs hlines hplace
    refine ⟨[own].flatten, ?_, by simpa using hin r hwritten hkeeps rfl⟩
    unfold list
    rw [hvalid, listRoots_of_written hwritten]
    simp only [bind, Except.bind, List.mapM_cons, List.mapM_nil, hown, pure, Except.pure]

/-- A directory with one report is listed as that report. -/
theorem list_of_single (hs : Tidy s) (hwritten : Written r s) (hkeeps : KeepsLines r)
    (hstems : reportStems s r.report.ticketId = [r.report.executionId]) :
    list s (some r.report.ticketId) = .ok [r.report] := by
  have hticket : listTicket s r.report.ticketId = .ok [r.report] := by
    unfold listTicket
    rw [hwritten.test_ticket, hwritten.test_ticket, hstems, List.mapM_cons,
      listReport_of_written hwritten hkeeps]
    rfl
  unfold list
  rw [hs.validateRoots, listRoots_of_written hwritten]
  simp only [bind, Except.bind, List.mapM_cons, List.mapM_nil, hticket, pure, Except.pure]
  rfl

/-! ### Whole runs -/

/-- A call of `write`: the report and the names of its temporary files. -/
structure Call (reports : ReportSet) where
  report : BuiltReport
  member : report ∈ reports
  names : Names

/-- The call can be made: the random names are not taken. -/
def Possible (s : Files) (call : Call reports) : Prop :=
  ∀ random ∈ [call.names.artifact, call.names.report],
    s.lookup (temporaryAt call.report random) = none

/-- The program of a call. -/
def Call.run (call : Call reports) : Program Files StoreError Location :=
  write call.report.report call.names

/-- What calls can leave behind, each finished or killed after any effect. -/
abbrev Later (reports : ReportSet) : Files → Files → Prop := Interrupted Possible (@Call.run _ reports)

/-- A control worktree without reports. -/
def emptyStore : Files := AList.singleton .control .directory

/-- The store is faithful and crash safe. -/
structure Faithful (reports : ReportSet) : Prop where
  /-- Writing a report succeeds as long as its JSON file is not linked. -/
  replay : ∀ s, Later reports emptyStore s → ∀ call : Call reports, Possible s call →
    s.lookup (jsonAt call.report) = none → (call.run s).result = .ok (jsonAt call.report)
  /-- A linked report is never replaced. -/
  immutable : ∀ s t, Later reports emptyStore s → Later reports s t → ∀ ticketId executionId node,
    s.lookup (.entry ticketId (.report executionId)) = some node →
      t.lookup (.entry ticketId (.report executionId)) = some node
  /-- A report whose `write` returned is read and listed from then on. -/
  readable : ∀ s, Later reports emptyStore s → ∀ call : Call reports, Possible s call →
    ∀ path, (call.run s).result = .ok path → ∀ t, Later reports ((call.run s).last s) t →
      read t call.report.report.ticketId call.report.report.executionId = .ok call.report.report
        ∧ (∃ found, list t none = .ok found ∧ call.report.report ∈ found)
        ∧ ∃ found, list t (some call.report.report.ticketId) = .ok found
          ∧ call.report.report ∈ found

/-- What a long report of a report whose lines are kept meets under the name of its artifact. -/
theorem Intact.replayable (hs : Intact reports s) (hr : r ∈ reports) (hlines : KeepsLines r) :
    Replayable r s := by
  intro long hlong
  obtain ⟨raw, hraw⟩ := exists_encode hlong
  refine ⟨raw, hraw, ?_⟩
  cases hnode : s.lookup (artifactAt r) with
  | none => exact .inl rfl
  | some node =>
    obtain ⟨r', hr', hticket, hexecution, other, ⟨long', hlong', hraw'⟩, rfl⟩ :=
      hs.artifact _ _ _ hnode
    rw [reports.unique r' r hr' hr hticket hexecution, hlong] at hlong'
    cases hlong'
    rw [hraw] at hraw'
    cases hraw'
    exact .inr ⟨rfl, hlines long hlong⟩

omit [Sha256] in
theorem tidy_emptyStore : Tidy emptyStore := by
  intro location node _ hnode
  have hmem := AList.mem_lookup_iff.mp (Option.mem_def.mpr hnode)
  cases List.mem_singleton.mp hmem
  rfl

theorem intact_emptyStore : Intact reports emptyStore where
  directories := tidy_emptyStore
  report _ _ _ hnode := by cases hnode
  artifact _ _ _ hnode := by cases hnode

/-- One call keeps the files intact, whatever it was killed at. -/
theorem Intact.run (hs : Intact reports s) (hlines : ∀ r ∈ reports, KeepsLines r)
    (call : Call reports) :
    Sat (fun t => Intact reports t ∧ Kept s t) call.run
      (fun path t => path = jsonAt call.report ∧ Intact reports t ∧ Kept s t ∧ Written call.report t)
      (fun _ t => Intact reports t ∧ Kept s t ∧ (s.lookup (jsonAt call.report)).isSome = true) s := by
  have hgrown : ∀ {t : Files}, Grown call.report s t → Intact reports t ∧ Kept s t :=
    fun h => ⟨hs.grown call.member h, h.kept⟩
  refine (sat_write hs.directories (hs.replayable call.member (hlines _ call.member))).mono
    (fun _ h => hgrown h) ?_ ?_
  · rintro path t ⟨hpath, ht, hwritten⟩
    exact ⟨hpath, (hgrown ht).1, ht.kept, hwritten⟩
  · rintro e t ⟨ht, hsome⟩
    exact ⟨(hgrown ht).1, ht.kept, hsome⟩

/-- Any number of calls keep the files intact. -/
theorem Intact.later (hs : Intact reports s) (hlines : ∀ r ∈ reports, KeepsLines r)
    (h : Later reports s t) : Intact reports t ∧ Kept s t := by
  refine h.invariant (I := fun u => Intact reports u ∧ Kept s u) ⟨hs, fun _ _ _ h => h⟩
    fun call u hu _ v hv => ?_
  obtain ⟨hintact, hkept⟩ := (hu.1.run hlines call).1 v hv
  exact ⟨hintact, fun location node hname hnode => hkept _ _ hname (hu.2 _ _ hname hnode)⟩

/-- Without carriage returns the store is faithful. -/
theorem faithful_of_keepsLines (hlines : ∀ r ∈ reports, KeepsLines r) : Faithful reports where
  replay s hs call _ hfree := by
    obtain ⟨-, hresult⟩ := (intact_emptyStore.later hlines hs).1.run hlines call
    cases hrun : (call.run s).result with
    | ok path =>
      rw [hrun] at hresult
      rw [hresult.1]
    | error e =>
      rw [hrun] at hresult
      obtain ⟨-, -, hsome⟩ := hresult
      rw [hfree] at hsome
      cases hsome
  immutable s t hs ht ticketId executionId node hnode :=
    ((intact_emptyStore.later hlines hs).1.later hlines ht).2 _ _ rfl hnode
  readable s hs call _ path hpath t ht := by
    obtain ⟨-, hresult⟩ := (intact_emptyStore.later hlines hs).1.run hlines call
    rw [hpath] at hresult
    obtain ⟨-, hintact, -, hwritten⟩ := hresult
    obtain ⟨hintact', hkept⟩ := hintact.later hlines ht
    have hkeeps := hlines _ call.member
    have hwritten' := hwritten.mono hkept
    exact ⟨read_of_written hintact'.directories hwritten' hkeeps,
      list_of_intact hintact' hlines hwritten' hkeeps⟩

/-! ### Carriage returns -/

omit [Sha256] in
/-- There is always a name that is not taken. -/
theorem exists_fresh (s : Files) (ticketId executionId : Text) :
    ∃ random, s.lookup (.entry ticketId (.temporary executionId random)) = none := by
  have hfinite : {random : Text | Location.entry ticketId (.temporary executionId random) ∈
      s.keys}.Finite := by
    refine Set.Finite.preimage (f := fun random => Location.entry ticketId
      (.temporary executionId random)) ?_ (List.finite_toSet s.keys)
    intro a _ b _ h
    simpa using h
  obtain ⟨random, hrandom⟩ := hfinite.exists_notMem
  exact ⟨random, AList.lookup_eq_none.mpr hrandom⟩

/-- A long report with a carriage return is refused when its artifact is there. -/
theorem write_refused {long : Text} {raw : List UInt8} {names : Names} (hs : Tidy s)
    (hlong : longReport r.report.result.claim = some long) (hraw : Utf8.encode long = some raw)
    (hnode : s.lookup (artifactAt r) = some (.file raw)) (hlines : translateNewlines long ≠ long) :
    Sat (fun _ => True) (write r.report names) (fun _ _ => False) (fun _ _ => True) s := by
  have hclean : ∀ (t : Files) (path : Location), Sat (fun _ => True) (unlink path) (fun _ _ => True)
      (fun (_ : StoreError) _ => True) t := fun t path => sat_unlink trivial trivial trivial
  have hcleanup : ∀ t, Sat (fun _ => True) (cleanup r.report names) (fun _ _ => True)
      (fun (_ : StoreError) _ => True) t := fun t =>
    .bind ((hclean t _).mono (fun _ h => h) (fun _ u _ => hclean u _) fun _ _ h => h)
  rw [write_eq]
  refine .afterwards (.bind ((sat_makeDirectories (r := r) hs .refl).mono (fun _ _ => trivial) ?_
    fun _ _ h => h))
  rintro - t ⟨-, -, hentries⟩
  refine .bind ?_
  unfold publishLong
  rw [hlong]
  refine .bind (.effect trivial (.afterwards (.bind (sat_writeText hraw trivial ?_))))
  have hsame := sameFiles_filled r t names.artifact raw
  have hthere := (hsame (artifactAt r) rfl).trans ((hentries _ _).trans hnode)
  refine .bind (sat_link (AList.lookup_insert _) (fun hfree => ?_) fun _ _ => ?_)
  · rw [hthere] at hfree
    cases hfree
  · refine .refused (by rw [compareArtifact_eq hthere hraw, if_neg hlines]) ?_
    exact (hclean _ _).mono (fun _ h => h) (fun _ u _ => hcleanup u) fun _ u _ => hcleanup u

/-- A run that is killed after the artifact leaves it without its report. -/
theorem exists_orphan {long : Text} (hr : r ∈ reports)
    (hlong : longReport r.report.result.claim = some long) :
    ∃ s, Later reports emptyStore s ∧ Tidy s ∧ Published r s ∧ s.lookup (jsonAt r) = none := by
  have hempty : ∀ ticketId name, emptyStore.lookup (.entry ticketId name) = none := fun _ _ => rfl
  obtain ⟨random, hrandom⟩ := exists_fresh emptyStore r.report.ticketId r.report.executionId
  obtain ⟨raw, hraw⟩ := exists_encode hlong
  -- the stages before the report, and where each ends
  obtain ⟨_, hmade, hgrown, hplaced, hentries⟩ :=
    (sat_makeDirectories (r := r) (E := fun _ _ => False) tidy_emptyStore .refl).returns
  have hreplayable : Replayable r ((makeDirectories r.report.ticketId emptyStore).last emptyStore) := by
    intro other hother
    rw [hlong] at hother
    cases hother
    exact ⟨raw, hraw, .inl ((hentries _ _).trans (hempty _ _))⟩
  obtain ⟨-, -, hgrown', hpublished, hjson⟩ := (@sat_publishLong _ r _ (fun _ _ => False) _
    ⟨random, random⟩ hreplayable hplaced hgrown).returns
  refine ⟨_, ?_, (intact_emptyStore.grown hr hgrown').directories, hpublished,
    hjson.trans ((hentries _ _).trans (hempty _ _))⟩
  let call : Call reports := ⟨r, hr, ⟨random, random⟩⟩
  have hpossible : Possible emptyStore call := by
    intro name hname
    simp only [call, List.mem_cons, List.not_mem_nil, or_false, or_self] at hname
    rw [hname]
    exact hrandom
  refine .single ⟨call, hpossible, ?_⟩
  show _ ∈ (write r.report ⟨random, random⟩ emptyStore).visited
  rw [write_eq]
  refine visited_afterwards (visited_bind_ok hmade (visited_bind (last_mem_visited _ ?_)))
  -- the artifact is new
  intro heq
  obtain ⟨raw', -, hnode⟩ := hpublished.artifact long hlong
  rw [heq, hentries, hempty] at hnode
  cases hnode

/-- A report whose lines are not kept makes the store unfaithful. -/
theorem not_faithful (hr : r ∈ reports) (hlines : ¬ KeepsLines r) : ¬ Faithful reports := by
  intro hfaithful
  simp only [KeepsLines, not_forall] at hlines
  obtain ⟨long, hlong, hne⟩ := hlines
  obtain ⟨s, hs, htidy, hpublished, hfree⟩ := exists_orphan hr hlong
  obtain ⟨raw, hraw, hnode⟩ := hpublished.artifact long hlong
  obtain ⟨random, hrandom⟩ := exists_fresh s r.report.ticketId r.report.executionId
  have hreplay := hfaithful.replay s hs ⟨r, hr, ⟨random, random⟩⟩ (by
    intro name hname
    simp only [List.mem_cons, List.not_mem_nil, or_false, or_self] at hname
    rw [hname]
    exact hrandom) hfree
  have hrefused := (@write_refused _ r s long raw ⟨random, random⟩ htidy hlong hraw hnode hne).2
  have hresult : (write r.report ⟨random, random⟩ s).result = .ok (jsonAt r) := hreplay
  rw [hresult] at hrefused
  exact hrefused

/-- **Faithful store.** Writing a report again succeeds until its JSON file is linked, a linked report
    is never replaced, and a written report is read and listed, after any number of killed runs,
    exactly when no long report holds a carriage return. -/
theorem reportStore_faithful_iff (reports : ReportSet) : Faithful reports ↔
    ∀ r ∈ reports, ∀ claim ∈ r.run.claim, ∀ long ∈ claim.report, codePoint '\r' ∉ long := by
  have hkeeps : ∀ r : BuiltReport, KeepsLines r ↔
      ∀ claim ∈ r.run.claim, ∀ long ∈ claim.report, codePoint '\r' ∉ long := by
    intro r
    have hclaim : r.report.result.claim = r.run.claim := congrArg RunResult.claim r.run_eq
    unfold KeepsLines longReport
    rw [hclaim]
    simp only [Option.bind_eq_some_iff, forall_exists_index, and_imp, translateNewlines_eq_iff,
      Option.mem_def]
    exact ⟨fun h claim hc long hl => h long claim hc hl, fun h long claim hc hl => h claim hc long hl⟩
  constructor
  · intro hfaithful r hr
    by_contra hnot
    exact not_faithful hr (fun h => hnot ((hkeeps r).mp h)) hfaithful
  · exact fun h => faithful_of_keepsLines fun r hr => (hkeeps r).mpr (h r hr)

end Sets

/-- The line of a worker whose long report holds a carriage return. -/
def returnLine : List UInt8 :=
  octets ("\x7b\"type\":\"tool_use\",\"part\":\x7b\"type\":\"tool\",\"tool\":\"devlegate_report\"," ++
    "\"state\":\x7b\"status\":\"completed\",\"input\":\x7b\"outcome\":\"completed\"," ++
    "\"summary\":\"done\",\"remaining\":[],\"questions\":[],\"report\":\"a\\rb\"\x7d\x7d\x7d\x7d\n")

theorem accepted_returnLine : Accepted ⟨.completed, text "done", [], [], some (text "a\rb")⟩ := by
  have hline : ((loads defaultLimits returnLine).toOption.map fun event =>
      (WorkerEgressParser.consumeAll {} [event]).finish)
        = some (some ⟨.completed, text "done", [], [], some (text "a\rb")⟩, none) := by
    unfold returnLine
    rw [octets_append, octets_append, octets_ofList, octets_ofList, octets_ofList]
    decide +kernel
  obtain ⟨event, hload, hfinish⟩ := Option.map_eq_some_iff.mp hline
  refine ⟨[event], fun event' hevent => ?_, hfinish⟩
  rw [List.mem_singleton.mp hevent]
  exact ⟨returnLine, toOption_eq_some.mp hload⟩

/-- The report of that worker. -/
def returnReport : letI : Sha256 := ⟨fun _ => ""⟩
    BuiltReport :=
  letI : Sha256 := ⟨fun _ => ""⟩
  { identity := sampleIdentity
    run := sampleRun (text "a\rb")
    report := {
      toIdentity := sampleIdentity
      result := {
        processReturncode := 0
        transportError := none
        egressError := none
        claim := (sampleRun (text "a\rb")).claim
        conclusion := .completed
        questions := []
        remaining := []
        reason := text "valid worker claim" }
      reportArtifact := some (artifactPath sampleIdentity.ticketId sampleIdentity.executionId)
      reportSha256 := some (text "") }
    executionIdentifier := by decide
    ticketIdentifier := by decide
    own := by decide
    optional := by decide
    status := by decide
    accepted := by
      intro claim hclaim
      cases hclaim
      exact accepted_returnLine
    built := by rfl }

/-- The only report of a store. -/
def onlyReport : letI : Sha256 := ⟨fun _ => ""⟩
    ReportSet :=
  letI : Sha256 := ⟨fun _ => ""⟩
  { member := fun r => r = returnReport
    unique := fun r r' hr hr' _ _ => by rw [hr, hr'] }

/-- The store is not faithful to a report with a carriage return. -/
theorem returnReport_not_faithful :
    letI : Sha256 := ⟨fun _ => ""⟩
    ¬ Faithful onlyReport := by
  let _ : Sha256 := ⟨fun _ => ""⟩
  refine not_faithful (r := returnReport) rfl fun hkeeps => ?_
  have htranslated : translateNewlines (text "a\rb") = text "a\rb" := hkeeps _ rfl
  exact absurd htranslated (by decide)

end Wire.ReportStore

end Devlegate
