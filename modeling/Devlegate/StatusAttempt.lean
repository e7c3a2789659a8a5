import Devlegate.StatusSnapshot
import Devlegate.ReportDict
import Devlegate.Lib.JsonStyle
import Devlegate.Lib.Looking

namespace Devlegate

open JsonText Looking

/-!
# Collecting a status snapshot

The state, the two checkouts and the ticket files are read one after the other while others write
them.  An attempt reads the state, the Git observations and a fingerprint of the ticket files, then
the tickets, then the three again in the opposite order, and gives up unless they agree.

* `StatusWorld`: everything that an attempt looks at, as it is at one moment.
* `workflowFingerprint`, `loadTicketStore`, `statusGitObservation`, `statusStateObservation`: the
  four readers, look by look.
* `observeStatus`, `collectStatusAttempt`: the attempt.
-/

/-! ### The project -/

/-- The answers of one checkout to the commands of an observation; none where a command fails. -/
structure Checkout where
  branch : Option String
  localHead : Option String
  remoteHead : Option String
  status : Option String
  deriving DecidableEq, Repr

/-- What stands under a name in a workflow directory. -/
inductive WorkflowEntry where
  | file (raw : List UInt8)
  | symlink
  | other
  deriving DecidableEq, Repr

/-- A workflow directory: its entries with canonical ticket names, by name.  Both readers sort the
    names and pass over the others. -/
@[ext]
structure Folder where
  entries : List (String × WorkflowEntry)
  sorted : entries.Pairwise fun a b => a.1 < b.1
  canonical : ∀ entry ∈ entries, (canonicalTicketId entry.1).isSome

/-- What stands at the configured path of a state. -/
inductive WorkflowPath where
  | missing
  | notDirectory
  | directory (folder : Folder)

/-- The managed workflow. -/
abbrev WorkflowFiles := TicketState → WorkflowPath

/-- Everything that an attempt looks at. -/
structure StatusWorld where
  /-- The row of the runtime database with its revision. -/
  stored : Option (RuntimeState × Nat)
  code : Checkout
  control : Checkout
  /-- `control_worktree.is_dir()`. -/
  controlFound : Bool
  /-- The control worktree is registered and resolves to its checkout, or why it is not. -/
  controlRegistered : Except String Unit
  /-- A configured workflow path exists in the product checkout. -/
  productWorkflow : Bool
  files : WorkflowFiles

/-- What is raised while the project is read. -/
inductive Raised where
  | snapshotChanged
  | devlegate (message : String)
  | fileNotFound
  | osError (message : String)
  | other (message : String)
  deriving DecidableEq, Repr

namespace WorkflowFiles

/-- `path.exists()` and `path.is_dir()` of a configured directory. -/
def isDir (files : WorkflowFiles) (state : TicketState) : Bool :=
  match files state with
  | .directory _ => true
  | .missing | .notDirectory => false

def pathExists (files : WorkflowFiles) (state : TicketState) : Bool :=
  match files state with
  | .directory _ | .notDirectory => true
  | .missing => false

/-- `sorted(directory.iterdir())`. -/
def iterdir (files : WorkflowFiles) (state : TicketState) : Except Raised (List String) :=
  match files state with
  | .directory folder => .ok (folder.entries.map (·.1))
  | .notDirectory => .error (.osError "not a directory")
  | .missing => .error .fileNotFound

/-- What stands under a name. -/
def entry (files : WorkflowFiles) (state : TicketState) (name : String) : Option WorkflowEntry :=
  match files state with
  | .directory folder => folder.entries.lookup name
  | .missing | .notDirectory => none

def isSymlink (files : WorkflowFiles) (state : TicketState) (name : String) : Bool :=
  files.entry state name = some .symlink

/-- `path.is_file()`, asked where `is_symlink` says no. -/
def isFile (files : WorkflowFiles) (state : TicketState) (name : String) : Bool :=
  match files.entry state name with
  | some (.file _) => true
  | _ => false

/-- `path.read_bytes()`. -/
def readBytes (files : WorkflowFiles) (state : TicketState) (name : String) :
    Except Raised (List UInt8) :=
  match files.entry state name with
  | some (.file raw) => .ok raw
  | none => .error .fileNotFound
  | some .symlink | some .other => .error (.osError "not a regular file")

end WorkflowFiles

/-! ### The fingerprint of the ticket files -/

/-- A line of the text behind the fingerprint. -/
inductive FingerprintLine where
  | folder (state : TicketState) (kind : String)
  | ticket (state : TicketState) (name kind digest : String)
  deriving DecidableEq, Repr

/-- The characters of a line, with its end. -/
def FingerprintLine.chars : FingerprintLine → List Char
  | .folder state kind => state.word.toList ++ '\x00' :: kind.toList ++ ['\n']
  | .ticket state name kind digest =>
    state.word.toList ++ '/' :: name.toList ++ '\x00' :: kind.toList ++ '\x00' :: digest.toList
      ++ ['\n']

section Fingerprint

variable [Sha256]

/-- The line of one entry. -/
def ticketLine (state : TicketState) (name : String) :
    Attempt Raised WorkflowFiles FingerprintLine := do
  if ← Attempt.view (·.isSymlink state name) then
    return .ticket state name "symlink" ""
  else if ← Attempt.view (·.isFile state name) then
    let raw ← Attempt.ask (·.readBytes state name)
    return .ticket state name "file" (Sha256.hexdigest raw)
  else
    return .ticket state name "other" ""

/-- The word for what stands at the path of a state. -/
def folderKind (state : TicketState) : Attempt Raised WorkflowFiles String := do
  if ← Attempt.view (·.isDir state) then
    return "dir"
  else if ← Attempt.view (·.pathExists state) then
    return "non-directory"
  else
    return "missing"

/-- The lines of one state. -/
def folderLines (state : TicketState) : Attempt Raised WorkflowFiles (List FingerprintLine) := do
  let kind ← folderKind state
  if ← Attempt.view (·.isDir state) then
    let names ← Attempt.ask (·.iterdir state)
    let tickets ← names.mapM (ticketLine state)
    return .folder state kind :: tickets
  else
    return [.folder state kind]

/-- The lines of all states. -/
def workflowLines : Attempt Raised WorkflowFiles (List FingerprintLine) := do
  let lines ← workflowStates.mapM folderLines
  return lines.flatten

/-- The octets of the text. -/
def lineOctets (lines : List FingerprintLine) : List UInt8 :=
  (String.ofList (lines.flatMap (·.chars))).toUTF8.data.toList

/-- `_workflow_fingerprint`. -/
def workflowFingerprint : Attempt Raised WorkflowFiles String := do
  let lines ← workflowLines
  return Sha256.hexdigest (lineOctets lines)

end Fingerprint

/-! ### The tickets -/

/-- `path.read_text()`: UTF-8 with universal line ends; none if it is no UTF-8. -/
def readText (raw : List UInt8) : Option String :=
  (Utf8.decode raw).map fun s => String.ofList (universal (s.map fun c => Char.ofNat c.val))
where
  universal : List Char → List Char
    | '\r' :: '\n' :: rest => '\n' :: universal rest
    | '\r' :: rest => '\n' :: universal rest
    | c :: rest => c :: universal rest
    | [] => []

/-- The configuration that a status is collected with. -/
structure StatusSite [Sha256] where
  service : StatusService
  remoteName : String
  path : TicketState → String

section Attempt

variable [Sha256] [NanoYaml]

/-- One entry as it is read: an entry that is no regular file has no text. -/
def readEntry (state : TicketState) (name : String) :
    Attempt Raised WorkflowFiles DirectoryEntry := do
  if ← Attempt.view (·.isSymlink state name) then
    return ⟨name, none⟩
  else if ← Attempt.view (·.isFile state name) then
    let raw ← Attempt.ask (·.readBytes state name)
    match readText raw with
    | none => throw (.other "UnicodeDecodeError")
    | some text => return ⟨name, some text⟩
  else
    return ⟨name, none⟩

/-- A value, or its message as a `DevlegateError`. -/
def orDevlegateError {W α : Type} (value : Except String α) : Attempt Raised W α :=
  Attempt.ofExcept (value.mapError .devlegate)

/-- The entry of a ticket, which is parsed as soon as it is read. -/
def loadTicketEntry (workflow : Workflow) (state : TicketState) (name : String) :
    Attempt Raised WorkflowFiles DirectoryEntry := do
  let entry ← readEntry state name
  let _ ← orDevlegateError (workflow.loadEntry state entry)
  return entry

/-- The directory of a state, as it is read. -/
def readDirectory (workflow : Workflow) (state : TicketState) :
    Attempt Raised WorkflowFiles WorkflowDirectory := do
  if ← Attempt.view (·.pathExists state) then
    if ← Attempt.view (·.isDir state) then
      let names ← Attempt.ask (·.iterdir state)
      return .entries (← names.mapM (loadTicketEntry workflow state))
    else
      throw (.devlegate ("managed workflow path is not a directory: " ++ workflow.path state))
  else
    return .missing

/-- `load_ticket_store` while others write the files; the checks on the whole store are those of
    `Workflow.loadTicketStore`, on what was read. -/
def loadTicketStore (path : TicketState → String) :
    Attempt Raised WorkflowFiles TicketStore := do
  let directories ← workflowStates.mapM fun state => do
    return (state, ← readDirectory ⟨path, fun _ => .missing⟩ state)
  orDevlegateError (Workflow.loadTicketStore
    ⟨path, fun state => (directories.lookup state).getD .missing⟩)

/-! ### The Git observations and the state -/

/-- `_validate_control_worktree`. -/
def validateControlWorktree (site : StatusSite) : Attempt Raised StatusWorld Unit := do
  if ← Attempt.view (·.controlFound) then
    let registered ← Attempt.view (·.controlRegistered)
    orDevlegateError registered
    let branch ← Attempt.view (·.control.branch)
    orDevlegateError (require (branch = some site.service.controlBranch)
      ("control worktree is not on configured branch " ++ site.service.controlBranch))
  else
    throw (.devlegate ("control worktree is missing; run 'devlegate control init' to attach "
      ++ site.service.controlBranch))

/-- The standard output of a command that is checked. -/
def checked (answer : Option String) : Except Raised String :=
  match answer with
  | some text => .ok text
  | none => .error (.other "CalledProcessError")

/-- `_git_observation`. -/
def observeGit (checkout : StatusWorld → Checkout) (remoteRef : String) :
    Attempt Raised StatusWorld GitObservation := do
  let branch ← Attempt.view fun w => (checkout w).branch
  let localHead ← Attempt.ask fun w => checked (checkout w).localHead
  let remoteHead ← Attempt.view fun w => (checkout w).remoteHead
  let status ← Attempt.ask fun w => checked (checkout w).status
  return {
    branch := branch
    detached := branch.isNone
    localHead := localHead
    remoteRef := remoteRef
    remoteHead := remoteHead
    workingTreeClean := status = ""
    workingTreeFingerprint := Sha256.hexdigest status.toUTF8.data.toList }

/-- The control side of `_status_git_observation`. -/
def observeControl (site : StatusSite) : Attempt Raised StatusWorld (Option GitObservation) := do
  if ← Attempt.view (·.controlFound) then
    let validated ← (validateControlWorktree site).outcome
    match validated with
    | .ok _ =>
      let control ← observeGit (·.control) (site.remoteName ++ "/" ++ site.service.controlBranch)
      return some control
    | .error (.devlegate _) => return none
    | .error raised => throw raised
  else
    return none

/-- `_status_git_observation`: the code and the control checkout. -/
def statusGitObservation (site : StatusSite) :
    Attempt Raised StatusWorld (GitObservation × Option GitObservation) := do
  let control ← observeControl site
  let code ← observeGit (·.code) (site.remoteName ++ "/" ++ site.service.remoteBranch)
  return (code, control)

/-- The state in the database; without a row it is the idle one. -/
def storedState (w : StatusWorld) : RuntimeState := (w.stored.map (·.1)).getD {}

/-- The token of the store. -/
def stateToken (w : StatusWorld) : String :=
  match w.stored with
  | none => "missing"
  | some (_, revision) => "sqlite:" ++ toString revision

/-- `_status_state_observation`. -/
def statusStateObservation : Attempt Raised StatusWorld (RuntimeState × String) := do
  let observed ← Attempt.view fun w => (storedState w, stateToken w)
  orDevlegateError (validateStateInvariant observed.1)
  return observed

/-! ### The attempt -/

/-- `_ticket_store`. -/
def ticketStore (site : StatusSite) : Attempt Raised StatusWorld TicketStore := do
  if ← Attempt.view (·.productWorkflow) then
    throw (.devlegate ("configured managed workflow path exists in the product checkout; "
      ++ "canonical workflow belongs only to the control plane; resolve the conflicting project "
      ++ "path explicitly"))
  else
    validateControlWorktree site
    workflowStates.forM fun state => do
      let found ← Attempt.view (·.files.isDir state)
      orDevlegateError (require found
        ("managed workflow directory is unavailable: " ++ site.path state
          ++ " (" ++ state.word ++ ")"))
    let loaded ← ((loadTicketStore site.path).focus (·.files)).outcome
    match loaded with
    | .ok store => return store
    | .error .fileNotFound =>
      throw (.devlegate "managed workflow changed while it was being observed")
    | .error raised => throw raised

/-- `_workflow_fingerprint` as the attempt calls it. -/
def workflowToken : Attempt Raised StatusWorld String := do
  let token ← (workflowFingerprint.focus (·.files)).outcome
  match token with
  | .ok token => return token
  | .error .fileNotFound => throw .snapshotChanged
  | .error (.osError message) =>
    throw (.devlegate ("cannot observe workflow files: " ++ message))
  | .error raised => throw raised

/-- The ticket store, or the error that is reported in its place. -/
def readTickets (site : StatusSite) : Attempt Raised StatusWorld (Except String TicketStore) := do
  let read ← (ticketStore site).outcome
  match read with
  | .ok store => return .ok store
  | .error (.devlegate message) => return .error message
  | .error .fileNotFound => throw .snapshotChanged
  | .error (.osError message) => return .error ("cannot read ticket storage: " ++ message)
  | .error raised => throw raised

/-- What a snapshot is made of. -/
structure Seen where
  state : RuntimeState
  code : GitObservation
  control : Option GitObservation
  tickets : Except String TicketStore

/-- The looks of `_collect_status_attempt`, in two passes around the tickets. -/
def observeStatus (site : StatusSite) : Attempt Raised StatusWorld Seen := do
  let before ← statusStateObservation
  let gitBefore ← statusGitObservation site
  let workflowBefore ← workflowToken
  let tickets ← readTickets site
  let workflowAfter ← workflowToken
  let gitAfter ← statusGitObservation site
  let after ← statusStateObservation
  if before.2 = after.2 ∧ gitBefore = gitAfter ∧ workflowBefore = workflowAfter then
    return ⟨after.1, gitAfter.1, gitAfter.2, tickets⟩
  else
    throw .snapshotChanged

/-- The snapshot of what was seen; a workflow error is reported only where it is allowed. -/
def Seen.snapshot (site : StatusSite) (allowWorkflowBlocked : Bool) (seen : Seen) :
    Except Raised StatusSnapshot :=
  match seen.tickets with
  | .ok store =>
    (makeStatusSnapshot site.service seen.state seen.code seen.control (some store) none).mapError
      .other
  | .error message =>
    if allowWorkflowBlocked then
      (makeStatusSnapshot site.service seen.state seen.code seen.control none
        (some message)).mapError .other
    else .error (.devlegate message)

/-- `_collect_status_attempt`. -/
def collectStatusAttempt (site : StatusSite) (allowWorkflowBlocked : Bool) :
    Attempt Raised StatusWorld StatusSnapshot := do
  let seen ← observeStatus site
  Attempt.ofExcept (seen.snapshot site allowWorkflowBlocked)

end Attempt

end Devlegate
