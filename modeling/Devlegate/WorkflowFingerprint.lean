import Devlegate.StatusMoment
import Devlegate.TicketGraph

namespace Devlegate

open JsonText Looking Loops

/-!
# The fingerprint of a workflow and its tickets

`_workflow_fingerprint` and `load_ticket_store` list the workflow directories each for itself: each
sorts the names, passes over those that are no ticket's, and asks a path whether it is a link or a
file.  A snapshot is believed because the first did not change while the second ran.

* `ControlWorktree`: what stands at each configured path, listed in no order.
* `workflowFingerprint`, `loadTicketStore`: the two readers of one worktree that stands still.
* `files`: the part of a worktree that is managed; `eval_workflowFingerprint` is the fingerprint that
  a status attempt takes of it.
* `files_of_fingerprint`: the fingerprint determines the managed part.
* `toOption_loadTicketStore`: the managed part determines the tickets.
* `sameTickets_of_fingerprint`: worktrees with one fingerprint have the same tickets, or are both
  refused.
-/

/-! ### Control worktrees -/

/-- A path in a workflow directory: whether it is a symbolic link, and the octets of the regular
    file that it leads to. -/
structure ListedPath where
  name : String
  isSymlink : Bool
  file : Option (List UInt8)
  deriving DecidableEq

/-- What stands at a configured path; a directory lists its names in no order. -/
inductive ListedDirectory where
  | missing
  | notDirectory
  | directory (listing : List ListedPath) (distinct : (listing.map (·.name)).Nodup)

/-- A control worktree: where it is, and what stands at the paths in it. -/
structure ControlWorktree where
  repo : String
  listed : String → ListedDirectory

/-- The configured paths of the states. -/
abbrev WorkflowPaths := TicketState → String

/-- `sorted(directory.iterdir(), key=lambda item: item.name)`. -/
def sortedPaths (listing : List ListedPath) : List ListedPath :=
  listing.insertionSort fun a b => a.name ≤ b.name

/-- `is_canonical_ticket_name`. -/
def isCanonicalTicketName (name : String) : Bool := (canonicalTicketId name).isSome

/-! ### The fingerprint -/

section Fingerprint

variable [Sha256]

/-- The line of a path; a path without a ticket's name has none. -/
def pathLine (state : TicketState) (path : ListedPath) : Option FingerprintLine :=
  if isCanonicalTicketName path.name then
    if path.isSymlink then some (.ticket state path.name "symlink" "")
    else
      match path.file with
      | some raw => some (.ticket state path.name "file" (Sha256.hexdigest raw))
      | none => some (.ticket state path.name "other" "")
  else none

/-- The lines of one state. -/
def ControlWorktree.stateLines (worktree : ControlWorktree) (paths : WorkflowPaths)
    (state : TicketState) : List FingerprintLine :=
  match worktree.listed (paths state) with
  | .directory listing _ =>
    .folder state "dir" :: (sortedPaths listing).filterMap (pathLine state)
  | .notDirectory => [.folder state "non-directory"]
  | .missing => [.folder state "missing"]

/-- The text that is hashed. -/
def ControlWorktree.fingerprintText (worktree : ControlWorktree) (paths : WorkflowPaths) :
    List UInt8 :=
  lineOctets (workflowStates.map (worktree.stateLines paths)).flatten

/-- `_workflow_fingerprint`. -/
def ControlWorktree.workflowFingerprint (worktree : ControlWorktree) (paths : WorkflowPaths) :
    String :=
  Sha256.hexdigest (worktree.fingerprintText paths)

end Fingerprint

/-! ### The tickets -/

/-- What `load_ticket_store` raises. -/
inductive LoadRaised where
  | failed (failure : LoadFailure)
  | unicodeDecodeError
  deriving DecidableEq, Repr

namespace ControlWorktree

/-- The configured paths in this worktree. -/
def workflow (worktree : ControlWorktree) (paths : WorkflowPaths) : Workflow where
  path state := worktree.repo ++ "/" ++ paths state
  directory state :=
    match worktree.listed (paths state) with
    | .missing => .missing
    | .notDirectory => .notDirectory
    | .directory listing _ => .entries (listing.map fun path =>
        ⟨path.name, if path.isSymlink then none else path.file.bind readText⟩)

variable [NanoYaml]

/-- One path of a workflow directory. -/
def loadPath (worktree : ControlWorktree) (paths : WorkflowPaths) (state : TicketState)
    (path : ListedPath) : Except LoadRaised (Option Ticket) :=
  let workflow := worktree.workflow paths
  match canonicalTicketId path.name with
  | none => .ok none
  | some ticketId =>
    match path.isSymlink, path.file with
    | false, some raw =>
      match readText raw with
      | none => .error .unicodeDecodeError
      | some text =>
        match parseTicket ticketId state text with
        | .error reason => .error (.failed (.ticketError
            ("invalid ticket " ++ workflow.ticketPath state ticketId ++ ": " ++ reason)))
        | .ok ticket => .ok (some ticket)
    | _, _ => .error (.failed (.ticketError
        ("invalid managed ticket entry: " ++ workflow.path state ++ "/" ++ path.name)))

/-- The tickets of one state. -/
def loadDirectory (worktree : ControlWorktree) (paths : WorkflowPaths) (state : TicketState) :
    Except LoadRaised (List Ticket) :=
  match worktree.listed (paths state) with
  | .missing => .ok []
  | .notDirectory => .error (.failed (.ticketError
      ("managed workflow path is not a directory: " ++ (worktree.workflow paths).path state)))
  | .directory listing _ => do
    let loaded ← (sortedPaths listing).mapM (worktree.loadPath paths state)
    return loaded.filterMap id

/-- `load_ticket_store`, on an interpreter that admits so many nested calls. -/
def loadTicketStore (worktree : ControlWorktree) (paths : WorkflowPaths) (frames : Nat) :
    Except LoadRaised TicketStore := do
  let loaded ← workflowStates.mapM (worktree.loadDirectory paths)
  ((worktree.workflow paths).acceptTickets frames loaded.flatten).mapError .failed

end ControlWorktree

/-! ### The managed part -/

/-- What stands under the name of a path. -/
def ListedPath.entry (path : ListedPath) : WorkflowEntry :=
  if path.isSymlink then .symlink
  else
    match path.file with
    | some raw => .file raw
    | none => .other

/-- A path with a ticket's name. -/
def ListedPath.managed (path : ListedPath) : Option (String × WorkflowEntry) :=
  if isCanonicalTicketName path.name then some (path.name, path.entry) else none

/-- The paths with tickets' names, by name. -/
def managedEntries (listing : List ListedPath) : List (String × WorkflowEntry) :=
  (sortedPaths listing).filterMap ListedPath.managed

theorem managed_eq_some {path : ListedPath} {entry : String × WorkflowEntry}
    (h : path.managed = some entry) :
    isCanonicalTicketName path.name = true ∧ entry = (path.name, path.entry) := by
  unfold ListedPath.managed at h
  split at h
  · next hname => exact ⟨hname, (Option.some.inj h).symm⟩
  · cases h

/-- A listing without repeated names is sorted strictly. -/
theorem pairwise_sortedPaths {listing : List ListedPath} (h : (listing.map (·.name)).Nodup) :
    (sortedPaths listing).Pairwise fun a b => a.name < b.name := by
  have hperm := List.perm_insertionSort (fun a b : ListedPath => a.name ≤ b.name) listing
  have htotal : Std.Total fun a b : ListedPath => a.name ≤ b.name :=
    ⟨fun a b => le_total a.name b.name⟩
  have htrans : IsTrans ListedPath fun a b => a.name ≤ b.name :=
    ⟨fun _ _ _ hab hbc => le_trans hab hbc⟩
  have hsorted := List.pairwise_insertionSort (fun a b : ListedPath => a.name ≤ b.name) listing
  have hnames : ((sortedPaths listing).map (·.name)).Nodup :=
    (hperm.map ListedPath.name).nodup_iff.mpr h
  have hnodup : (sortedPaths listing).Pairwise fun a b => a.name ≠ b.name :=
    List.pairwise_map.mp hnames
  exact (hsorted.and hnodup).imp fun h => lt_of_le_of_ne h.1 h.2

theorem pairwise_managedEntries {listing : List ListedPath} (h : (listing.map (·.name)).Nodup) :
    (managedEntries listing).Pairwise fun a b => a.1 < b.1 := by
  refine List.pairwise_filterMap.mpr ((pairwise_sortedPaths h).imp ?_)
  intro a b hlt entry hentry entry' hentry'
  obtain ⟨-, rfl⟩ := managed_eq_some hentry
  obtain ⟨-, rfl⟩ := managed_eq_some hentry'
  exact hlt

theorem canonical_managedEntries {listing : List ListedPath} :
    ∀ entry ∈ managedEntries listing, (canonicalTicketId entry.1).isSome := by
  intro entry hentry
  obtain ⟨path, -, hmanaged⟩ := List.mem_filterMap.mp hentry
  obtain ⟨hname, rfl⟩ := managed_eq_some hmanaged
  exact hname

/-- The managed part of a worktree, which a status attempt looks at. -/
def ControlWorktree.files (worktree : ControlWorktree) (paths : WorkflowPaths) : WorkflowFiles :=
  fun state =>
    match worktree.listed (paths state) with
    | .missing => .missing
    | .notDirectory => .notDirectory
    | .directory listing distinct => .directory {
        entries := managedEntries listing
        sorted := pairwise_managedEntries distinct
        canonical := canonical_managedEntries }

/-! ### The fingerprint determines the managed part -/

section Sound

variable [Sha256]

/-- The word for what stands under a name. -/
def entryWord : WorkflowEntry → String
  | .symlink => "symlink"
  | .file _ => "file"
  | .other => "other"

/-- The digest of what stands under a name; only a file has one. -/
def entryDigest : WorkflowEntry → String
  | .file raw => Sha256.hexdigest raw
  | .symlink | .other => ""

/-- The line of what stands under a name. -/
def entryLine (state : TicketState) (entry : String × WorkflowEntry) : FingerprintLine :=
  .ticket state entry.1 (entryWord entry.2) (entryDigest entry.2)

theorem pathLine_eq (state : TicketState) (path : ListedPath) :
    pathLine state path = path.managed.map (entryLine state) := by
  unfold pathLine ListedPath.managed ListedPath.entry
  split
  · cases path.isSymlink
    · cases path.file <;> rfl
    · rfl
  · rfl

/-- The word for what stands at the path of a state. -/
def kindWord : WorkflowPath → String
  | .missing => "missing"
  | .notDirectory => "non-directory"
  | .directory _ => "dir"

/-- The entries that stand at the path of a state. -/
def managedAt : WorkflowPath → List (String × WorkflowEntry)
  | .directory folder => folder.entries
  | .missing | .notDirectory => []

theorem stateLines_eq (worktree : ControlWorktree) (paths : WorkflowPaths) (state : TicketState) :
    worktree.stateLines paths state
      = .folder state (kindWord (worktree.files paths state))
        :: (managedAt (worktree.files paths state)).map (entryLine state) := by
  unfold ControlWorktree.stateLines ControlWorktree.files
  cases worktree.listed (paths state) with
  | directory listing distinct =>
    show _ :: (sortedPaths listing).filterMap (pathLine state)
      = _ :: (managedEntries listing).map (entryLine state)
    rw [managedEntries, List.map_filterMap, funext (pathLine_eq state)]
    rfl
  | notDirectory => rfl
  | missing => rfl

/-- The octets that are hashed for the fingerprints of two worktrees: ticket files and texts. -/
inductive FingerprintOctets (paths : WorkflowPaths) (worktree worktree' : ControlWorktree) :
    List UInt8 → Prop
  | file {w : ControlWorktree} (hw : w = worktree ∨ w = worktree') {state : TicketState}
    {name : String} {raw : List UInt8} (h : (name, .file raw) ∈ managedAt (w.files paths state)) :
    FingerprintOctets paths worktree worktree' raw
  | text {w : ControlWorktree} (hw : w = worktree ∨ w = worktree') :
    FingerprintOctets paths worktree worktree' (w.fingerprintText paths)

/-- A digest is written in one line, and none collides among those that two fingerprints are made
    of. -/
structure CollisionFree (paths : WorkflowPaths) (worktree worktree' : ControlWorktree) : Prop where
  oneLine : ∀ raw, '\n' ∉ (Sha256.hexdigest raw).toList
  free : ∀ raw raw', FingerprintOctets paths worktree worktree' raw →
    FingerprintOctets paths worktree worktree' raw' →
    Sha256.hexdigest raw = Sha256.hexdigest raw' → raw = raw'

variable {paths : WorkflowPaths} {worktree worktree' : ControlWorktree}

omit [Sha256] in
theorem separable_kindWord (path : WorkflowPath) : Separable (kindWord path).toList := by
  cases path with
  | missing => decide
  | notDirectory => decide
  | directory folder => exact (by decide : Separable "dir".toList)

omit [Sha256] in
theorem canonical_managedAt {path : WorkflowPath} {entry : String × WorkflowEntry}
    (h : entry ∈ managedAt path) : (canonicalTicketId entry.1).isSome := by
  cases path with
  | directory folder => exact folder.canonical entry h
  | missing => exact absurd h List.not_mem_nil
  | notDirectory => exact absurd h List.not_mem_nil

theorem proper_entryLine (hline : ∀ raw, '\n' ∉ (Sha256.hexdigest raw).toList)
    (state : TicketState) {entry : String × WorkflowEntry}
    (h : (canonicalTicketId entry.1).isSome) : (entryLine state entry).Proper := by
  refine ⟨separable_name h, ?_, ?_⟩
  · cases entry.2 with
    | symlink => exact (by decide : Separable "symlink".toList)
    | file raw => exact (by decide : Separable "file".toList)
    | other => exact (by decide : Separable "other".toList)
  · cases entry.2 with
    | symlink => exact List.not_mem_nil
    | file raw => exact hline raw
    | other => exact List.not_mem_nil

theorem proper_stateLines (hline : ∀ raw, '\n' ∉ (Sha256.hexdigest raw).toList)
    (state : TicketState) : ∀ line ∈ worktree.stateLines paths state, line.Proper := by
  rw [stateLines_eq]
  intro line hmem
  rcases List.mem_cons.mp hmem with rfl | hmem
  · exact separable_kindWord _
  · obtain ⟨entry, hentry, rfl⟩ := List.mem_map.mp hmem
    exact proper_entryLine hline state (canonical_managedAt hentry)

theorem about_stateLines (state : TicketState) :
    ∀ line ∈ worktree.stateLines paths state, line.about = state := by
  rw [stateLines_eq]
  intro line hmem
  rcases List.mem_cons.mp hmem with rfl | hmem
  · rfl
  · obtain ⟨entry, -, rfl⟩ := List.mem_map.mp hmem
    rfl

/-- What stands under a name is told by its word and its digest, where digests do not collide. -/
theorem entry_eq {entry entry' : WorkflowEntry}
    (hfree : ∀ raw raw', entry = .file raw → entry' = .file raw' →
      Sha256.hexdigest raw = Sha256.hexdigest raw' → raw = raw')
    (hword : entryWord entry = entryWord entry') (hdigest : entryDigest entry = entryDigest entry') :
    entry = entry' := by
  cases entry with
  | symlink =>
    cases entry' with
    | symlink => rfl
    | file raw' => exact absurd hword (by decide : "symlink" ≠ "file")
    | other => exact absurd hword (by decide)
  | file raw =>
    cases entry' with
    | symlink => exact absurd hword (by decide : "file" ≠ "symlink")
    | file raw' => rw [hfree raw raw' rfl rfl hdigest]
    | other => exact absurd hword (by decide : "file" ≠ "other")
  | other =>
    cases entry' with
    | symlink => exact absurd hword (by decide)
    | file raw' => exact absurd hword (by decide : "other" ≠ "file")
    | other => rfl

omit [Sha256] in
/-- Lists with equal images are equal, where the function tells their members apart. -/
theorem map_inj_on {α β : Type} {f : α → β} {xs ys : List α}
    (hinj : ∀ x ∈ xs, ∀ y ∈ ys, f x = f y → x = y) (heq : xs.map f = ys.map f) : xs = ys := by
  induction xs generalizing ys with
  | nil => exact (List.map_eq_nil_iff.mp heq.symm).symm
  | cons x xs ih =>
    cases ys with
    | nil => cases heq
    | cons y ys =>
      obtain ⟨hhead, htail⟩ := List.cons.inj heq
      rw [hinj x List.mem_cons_self y List.mem_cons_self hhead,
        ih (fun a ha b hb => hinj a (List.mem_cons_of_mem _ ha) b (List.mem_cons_of_mem _ hb)) htail]

omit [Sha256] in
/-- What stands at a path is told by its word and its entries. -/
theorem path_eq {path path' : WorkflowPath} (hkind : kindWord path = kindWord path')
    (hentries : managedAt path = managedAt path') : path = path' := by
  cases path with
  | missing =>
    cases path' with
    | missing => rfl
    | notDirectory => exact absurd hkind (by decide)
    | directory folder => exact absurd hkind (by decide : "missing" ≠ "dir")
  | notDirectory =>
    cases path' with
    | missing => exact absurd hkind (by decide)
    | notDirectory => rfl
    | directory folder => exact absurd hkind (by decide : "non-directory" ≠ "dir")
  | directory folder =>
    cases path' with
    | missing => exact absurd hkind (by decide : "dir" ≠ "missing")
    | notDirectory => exact absurd hkind (by decide : "dir" ≠ "non-directory")
    | directory folder' => exact congrArg _ (Folder.ext hentries)

theorem stateLines_of_fingerprint (hfree : CollisionFree paths worktree worktree')
    (heq : worktree.workflowFingerprint paths = worktree'.workflowFingerprint paths) :
    workflowStates.map (worktree.stateLines paths)
      = workflowStates.map (worktree'.stateLines paths) := by
  have htext : worktree.fingerprintText paths = worktree'.fingerprintText paths :=
    hfree.free _ _ (.text (.inl rfl)) (.text (.inr rfl)) heq
  have hproper : ∀ w : ControlWorktree,
      ∀ line ∈ (workflowStates.map (w.stateLines paths)).flatten, line.Proper := by
    intro w line hline
    obtain ⟨lines, hlines, hline⟩ := List.mem_flatten.mp hline
    obtain ⟨state, -, rfl⟩ := List.mem_map.mp hlines
    exact proper_stateLines hfree.oneLine state line hline
  have hlines := lineOctets_inj (hproper worktree) (hproper worktree') htext
  -- the lines of a state are those about it
  have habout : ∀ w : ControlWorktree, List.Forall₂
      (fun state lines => ∀ line ∈ lines, FingerprintLine.about line = state) workflowStates
      (workflowStates.map (w.stateLines paths)) := by
    intro w
    rw [List.forall₂_map_right_iff, List.forall₂_same]
    exact fun state _ => about_stateLines state
  exact lines_eq_of_flatten (by decide) (habout worktree) (habout worktree') hlines

/-- **Files.** Worktrees with one fingerprint have the same managed files. -/
theorem files_of_fingerprint (hfree : CollisionFree paths worktree worktree')
    (heq : worktree.workflowFingerprint paths = worktree'.workflowFingerprint paths) :
    worktree.files paths = worktree'.files paths := by
  ext state
  have hstates := List.map_inj_left.mp (stateLines_of_fingerprint hfree heq)
  have hlines := hstates state (by cases state <;> decide)
  rw [stateLines_eq, stateLines_eq] at hlines
  obtain ⟨hkind, hentries⟩ := List.cons.inj hlines
  refine path_eq (FingerprintLine.folder.inj hkind).2 (map_inj_on ?_ hentries)
  rintro ⟨name, entry⟩ hentry ⟨name', entry'⟩ hentry' hline
  obtain ⟨-, hname, hword, hdigest⟩ := FingerprintLine.ticket.inj hline
  refine Prod.ext hname (entry_eq ?_ hword hdigest)
  rintro raw raw' rfl rfl hsame
  exact hfree.free raw raw' (.file (.inl rfl) hentry) (.file (.inr rfl) hentry') hsame

/-! ### The fingerprint of a status attempt -/

omit [Sha256] in
theorem entry_files_of_mem {files : WorkflowFiles} {state : TicketState} {folder : Folder}
    {entry : String × WorkflowEntry} (hfolder : files state = .directory folder)
    (h : entry ∈ folder.entries) : files.entry state entry.1 = some entry.2 := by
  unfold WorkflowFiles.entry
  rw [hfolder]
  exact Dict.get_of_mem folder.sorted h

theorem eval_ticketLine {files : WorkflowFiles} {state : TicketState} {folder : Folder}
    {entry : String × WorkflowEntry} (hfolder : files state = .directory folder)
    (h : entry ∈ folder.entries) :
    (ticketLine state entry.1).eval files = .ok (entryLine state entry) := by
  have hentry := entry_files_of_mem hfolder h
  unfold ticketLine
  rw [Attempt.eval_view_bind]
  cases hkind : entry.2 with
  | symlink =>
    have hlink : files.isSymlink state entry.1 = true := by
      simp [WorkflowFiles.isSymlink, hentry, hkind]
    rw [if_pos hlink, entryLine, hkind]
    rfl
  | file raw =>
    have hlink : files.isSymlink state entry.1 = false := by
      simp [WorkflowFiles.isSymlink, hentry, hkind]
    have hfile : files.isFile state entry.1 = true := by
      simp [WorkflowFiles.isFile, hentry, hkind]
    have hraw : files.readBytes state entry.1 = .ok raw := by
      simp [WorkflowFiles.readBytes, hentry, hkind]
    rw [hlink, if_neg Bool.false_ne_true, Attempt.eval_view_bind, if_pos hfile, Attempt.eval_bind,
      Attempt.eval_ask, hraw, entryLine, hkind]
    rfl
  | other =>
    have hlink : files.isSymlink state entry.1 = false := by
      simp [WorkflowFiles.isSymlink, hentry, hkind]
    have hfile : files.isFile state entry.1 = false := by
      simp [WorkflowFiles.isFile, hentry, hkind]
    rw [hlink, if_neg Bool.false_ne_true, Attempt.eval_view_bind, hfile,
      if_neg Bool.false_ne_true, entryLine, hkind]
    rfl

omit [Sha256] in
theorem isDir_eq (files : WorkflowFiles) (state : TicketState) :
    files.isDir state = true ↔ kindWord (files state) = "dir" := by
  unfold WorkflowFiles.isDir
  cases files state with
  | missing => exact iff_of_false Bool.false_ne_true (by decide)
  | notDirectory => exact iff_of_false Bool.false_ne_true (by decide)
  | directory folder => exact iff_of_true rfl rfl

omit [Sha256] in
theorem eval_folderKind (files : WorkflowFiles) (state : TicketState) :
    (folderKind state).eval files = .ok (kindWord (files state)) := by
  unfold folderKind
  rw [Attempt.eval_view_bind]
  unfold WorkflowFiles.isDir
  cases hfolder : files state with
  | directory folder => rfl
  | notDirectory =>
    rw [if_neg Bool.false_ne_true, Attempt.eval_view_bind, WorkflowFiles.pathExists, hfolder]
    rfl
  | missing =>
    rw [if_neg Bool.false_ne_true, Attempt.eval_view_bind, WorkflowFiles.pathExists, hfolder]
    rfl

theorem eval_folderLines (files : WorkflowFiles) (state : TicketState) :
    (folderLines state).eval files = .ok (.folder state (kindWord (files state))
      :: (managedAt (files state)).map (entryLine state)) := by
  unfold folderLines
  rw [Attempt.eval_bind, eval_folderKind]
  show Attempt.eval files (Attempt.view (·.isDir state) >>= _) = _
  rw [Attempt.eval_view_bind]
  cases hfolder : files state with
  | missing =>
    rw [if_neg (by rw [isDir_eq, hfolder]; decide)]
    rfl
  | notDirectory =>
    rw [if_neg (by rw [isDir_eq, hfolder]; decide)]
    rfl
  | directory folder =>
    have hnames : files.iterdir state = .ok (folder.entries.map (·.1)) := by
      rw [WorkflowFiles.iterdir, hfolder]
    have htickets : (folder.entries.map (·.1)).mapM (fun name => (ticketLine state name).eval files)
        = .ok (folder.entries.map (entryLine state)) := by
      rw [List.mapM_map]
      exact mapM_eq_ok fun entry hentry => eval_ticketLine hfolder hentry
    rw [if_pos (by rw [isDir_eq, hfolder]; rfl), Attempt.eval_bind, Attempt.eval_ask, hnames]
    show Attempt.eval files ((folder.entries.map (·.1)).mapM (ticketLine state) >>= _) = _
    rw [Attempt.eval_bind, Attempt.eval_mapM, htickets]
    rfl

/-- **One fingerprint.** A status attempt takes this fingerprint of a worktree that stands still. -/
theorem eval_workflowFingerprint (worktree : ControlWorktree) (paths : WorkflowPaths) :
    workflowFingerprint.eval (worktree.files paths)
      = .ok (worktree.workflowFingerprint paths) := by
  unfold workflowFingerprint workflowLines
  rw [Attempt.eval_bind, Attempt.eval_bind, Attempt.eval_mapM,
    mapM_eq_ok fun state _ => (eval_folderLines _ state).trans
      (congrArg Except.ok (stateLines_eq worktree paths state).symm)]
  rfl

end Sound

/-! ### The managed part determines the tickets -/

section Tickets

/-- The octets of a file that is no link. -/
def WorkflowEntry.octets : WorkflowEntry → Option (List UInt8)
  | .file raw => some raw
  | .symlink | .other => none

/-- Where the directories are does not matter to the checks on the whole store. -/
theorem toOption_acceptTickets (workflow workflow' : Workflow) (frames : Nat)
    (tickets : List Ticket) : (workflow.acceptTickets frames tickets).toOption
      = (workflow'.acceptTickets frames tickets).toOption := by
  ext store
  rw [toOption_eq_some, toOption_eq_some, Workflow.acceptTickets_ok_iff,
    Workflow.acceptTickets_ok_iff]

variable [NanoYaml]

/-- The ticket of what stands under a name; none where the loader refuses it. -/
def managedTicket (state : TicketState) (entry : String × WorkflowEntry) : Option Ticket := do
  let ticketId ← canonicalTicketId entry.1
  let raw ← entry.2.octets
  let text ← readText raw
  (parseTicket ticketId state text).toOption

/-- The tickets of a state; none where the loader refuses the directory. -/
def managedTickets (files : WorkflowFiles) (state : TicketState) : Option (List Ticket) :=
  match files state with
  | .missing => some []
  | .notDirectory => none
  | .directory folder => folder.entries.mapM (managedTicket state)

variable (worktree : ControlWorktree) (paths : WorkflowPaths)

theorem toOption_loadPath (state : TicketState) (path : ListedPath) :
    (worktree.loadPath paths state path).toOption
      = match path.managed with
        | none => some none
        | some entry => (managedTicket state entry).map some := by
  unfold ControlWorktree.loadPath ListedPath.managed isCanonicalTicketName managedTicket
    ListedPath.entry
  cases hid : canonicalTicketId path.name with
  | none => rfl
  | some ticketId =>
    cases path.isSymlink with
    | true => simp [hid, WorkflowEntry.octets, Except.toOption]
    | false =>
      cases path.file with
      | none => simp [hid, WorkflowEntry.octets, Except.toOption]
      | some raw =>
        cases htext : readText raw with
        | none => simp [hid, htext, WorkflowEntry.octets, Except.toOption]
        | some text =>
          cases hticket : parseTicket ticketId state text with
          | error reason => simp [hid, htext, hticket, WorkflowEntry.octets, Except.toOption]
          | ok ticket => simp [hid, htext, hticket, WorkflowEntry.octets, Except.toOption]

/-- A path that is passed over leaves no trace in the tickets of its directory. -/
theorem mapM_loadPath (state : TicketState) (listing : List ListedPath) :
    (listing.mapM fun path => (worktree.loadPath paths state path).toOption).map
        (·.filterMap id)
      = (listing.filterMap ListedPath.managed).mapM (managedTicket state) := by
  induction listing with
  | nil => rfl
  | cons path listing ih =>
    rw [List.mapM_cons, toOption_loadPath]
    cases hmanaged : path.managed with
    | none =>
      rw [List.filterMap_cons_none hmanaged, ← ih]
      cases listing.mapM fun path => (worktree.loadPath paths state path).toOption <;> rfl
    | some entry =>
      rw [List.filterMap_cons_some hmanaged, List.mapM_cons, ← ih]
      dsimp only
      cases managedTicket state entry with
      | none => rfl
      | some ticket =>
        cases listing.mapM fun path => (worktree.loadPath paths state path).toOption <;> rfl

theorem toOption_loadDirectory (state : TicketState) :
    (worktree.loadDirectory paths state).toOption = managedTickets (worktree.files paths) state := by
  unfold ControlWorktree.loadDirectory managedTickets ControlWorktree.files
  cases worktree.listed (paths state) with
  | missing => rfl
  | notDirectory => rfl
  | directory listing distinct =>
    refine Eq.trans ?_ (mapM_loadPath worktree paths state (sortedPaths listing))
    rw [← toOption_mapM]
    dsimp only
    cases (sortedPaths listing).mapM (worktree.loadPath paths state) <;> rfl

/-- **Tickets.** The tickets that are loaded are those of the managed files. -/
theorem toOption_loadTicketStore (frames : Nat) :
    (worktree.loadTicketStore paths frames).toOption
      = (workflowStates.mapM (managedTickets (worktree.files paths))).bind fun loaded =>
        ((worktree.workflow paths).acceptTickets frames loaded.flatten).toOption := by
  have hdirectories := toOption_mapM (worktree.loadDirectory paths) workflowStates
  simp only [toOption_loadDirectory] at hdirectories
  unfold ControlWorktree.loadTicketStore
  rw [← hdirectories]
  cases workflowStates.mapM (worktree.loadDirectory paths) with
  | error raised => rfl
  | ok loaded =>
    show Except.toOption (Except.mapError _ ((worktree.workflow paths).acceptTickets ..))
      = Except.toOption ((worktree.workflow paths).acceptTickets frames loaded.flatten)
    cases (worktree.workflow paths).acceptTickets frames loaded.flatten <;> rfl

/-! ### Where every managed file is text -/

/-- The readers of a path find text in it, where they read it at all. -/
def ListedPath.Decodes (path : ListedPath) : Prop :=
  isCanonicalTicketName path.name = true → path.isSymlink = false →
    ∀ raw, path.file = some raw → (readText raw).isSome

/-- The entry of a path in `Workflow`. -/
def ListedPath.directoryEntry (path : ListedPath) : DirectoryEntry :=
  ⟨path.name, if path.isSymlink then none else path.file.bind readText⟩

theorem loadPath_of_decodes {state : TicketState} {path : ListedPath} (h : path.Decodes) :
    worktree.loadPath paths state path
      = ((worktree.workflow paths).loadEntry state path.directoryEntry).mapError
          fun message => .failed (.ticketError message) := by
  unfold ControlWorktree.loadPath Workflow.loadEntry ListedPath.directoryEntry
  cases hid : canonicalTicketId path.name with
  | none => rfl
  | some ticketId =>
    have hname : isCanonicalTicketName path.name = true := by
      rw [isCanonicalTicketName, hid]
      rfl
    cases hlink : path.isSymlink with
    | true => rfl
    | false =>
      cases hfile : path.file with
      | none => rfl
      | some raw =>
        obtain ⟨text, htext⟩ := Option.isSome_iff_exists.mp (h hname hlink raw hfile)
        simp only [htext, Option.bind_some]
        cases hticket : parseTicket ticketId state text with
        | error reason => simp [hticket, Except.mapError]
        | ok ticket => simp [hticket, Except.mapError]

theorem loadDirectory_of_decodes {state : TicketState}
    (h : ∀ listing distinct, worktree.listed (paths state) = .directory listing distinct →
      ∀ path ∈ listing, path.Decodes) :
    worktree.loadDirectory paths state
      = ((worktree.workflow paths).loadDirectory state).mapError
          fun message => .failed (.ticketError message) := by
  have hdirectory : (worktree.workflow paths).directory state
      = match worktree.listed (paths state) with
        | .missing => .missing
        | .notDirectory => .notDirectory
        | .directory listing _ => .entries (listing.map ListedPath.directoryEntry) := rfl
  unfold ControlWorktree.loadDirectory Workflow.loadDirectory
  rw [hdirectory]
  cases hlisted : worktree.listed (paths state) with
  | missing => rfl
  | notDirectory => rfl
  | directory listing distinct =>
    have hsorted : (listing.map ListedPath.directoryEntry).insertionSort (fun a b => a.name ≤ b.name)
        = (sortedPaths listing).map ListedPath.directoryEntry :=
      (List.map_insertionSort (fun a b => a.name ≤ b.name) (fun a b => a.name ≤ b.name)
        ListedPath.directoryEntry listing fun _ _ _ _ => Iff.rfl).symm
    have hloaded : (sortedPaths listing).mapM (worktree.loadPath paths state)
        = ((sortedPaths listing).mapM
            ((worktree.workflow paths).loadEntry state ∘ ListedPath.directoryEntry)).mapError
              fun message => .failed (.ticketError message) := by
      rw [mapError_mapM]
      refine mapM_congr_mem fun path hpath => loadPath_of_decodes worktree paths ?_
      exact h listing distinct hlisted path ((List.mem_insertionSort _).mp hpath)
    dsimp only
    rw [hsorted, List.mapM_map, hloaded]
    cases (sortedPaths listing).mapM
      ((worktree.workflow paths).loadEntry state ∘ ListedPath.directoryEntry) <;> rfl

/-- **One loader.** Where every managed file is text, this is the loader of `TicketGraph`. -/
theorem loadTicketStore_of_decodes (frames : Nat)
    (h : ∀ state listing distinct, worktree.listed (paths state) = .directory listing distinct →
      ∀ path ∈ listing, path.Decodes) :
    worktree.loadTicketStore paths frames
      = ((worktree.workflow paths).loadTicketStoreWithin frames).mapError .failed := by
  have hloaded : workflowStates.mapM (worktree.loadDirectory paths)
      = (workflowStates.mapM (worktree.workflow paths).loadDirectory).mapError
          fun message => .failed (.ticketError message) := by
    rw [mapError_mapM]
    exact mapM_congr_mem fun state _ => loadDirectory_of_decodes worktree paths (h state)
  unfold ControlWorktree.loadTicketStore Workflow.loadTicketStoreWithin Workflow.parsedTickets
  rw [hloaded]
  cases workflowStates.mapM (worktree.workflow paths).loadDirectory <;> rfl

end Tickets

/-! ### One fingerprint, the same tickets -/

section Agreement

variable [Sha256] [NanoYaml]

/-- **Same tickets.** On worktrees with one fingerprint the loader returns the same tickets, or
    refuses both. -/
theorem sameTickets_of_fingerprint {paths : WorkflowPaths} {worktree worktree' : ControlWorktree}
    (hfree : CollisionFree paths worktree worktree')
    (heq : worktree.workflowFingerprint paths = worktree'.workflowFingerprint paths)
    (frames : Nat) : (worktree.loadTicketStore paths frames).toOption
      = (worktree'.loadTicketStore paths frames).toOption := by
  have hfiles := files_of_fingerprint hfree heq
  rw [toOption_loadTicketStore, toOption_loadTicketStore, hfiles]
  congr 1
  ext1 loaded
  exact toOption_acceptTickets _ _ _ _

end Agreement

namespace Noted

/-- The ticket files of a project with one ticket. -/
def listing : List ListedPath := [⟨"t1.md", false, some Torn.file⟩]

/-- The same with a note beside the ticket, which neither reader looks at. -/
def notedListing : List ListedPath := [⟨"t1.md", false, some Torn.file⟩, ⟨"README", true, none⟩]

def worktree : ControlWorktree where
  repo := "/srv/control"
  listed path := .directory (if path = "todo" then listing else []) (by split <;> decide)

def notedWorktree : ControlWorktree where
  repo := "/srv/noted"
  listed path := .directory (if path = "todo" then notedListing else []) (by split <;> decide)

theorem managedAt_files {w : ControlWorktree} (hw : w = worktree ∨ w = notedWorktree)
    (state : TicketState) : managedAt (w.files TicketState.word state)
      = if state = .todo then [("t1.md", .file Torn.file)] else [] := by
  rcases hw with rfl | rfl <;> cases state <;> rfl

/-- Both texts are that of a pass over the files with the ticket. -/
theorem fingerprintText_eq {w : ControlWorktree} (hw : w = worktree ∨ w = notedWorktree) :
    @ControlWorktree.fingerprintText Torn.sha w TicketState.word
      = lineOctets (Torn.lines true) := by
  have hlines : workflowStates.map (@ControlWorktree.stateLines Torn.sha w TicketState.word)
      = workflowStates.map (Torn.linesOf true) := by
    refine List.map_congr_left fun state _ => ?_
    have hkind : kindWord (w.files TicketState.word state) = "dir" := by
      rcases hw with rfl | rfl <;> rfl
    rw [@stateLines_eq Torn.sha, hkind, managedAt_files hw]
    refine congrArg _ ?_
    by_cases htodo : state = .todo
    · rw [if_pos htodo, if_pos ⟨htodo, rfl⟩]
      exact congrArg (fun digest => [FingerprintLine.ticket state "t1.md" "file" digest])
        Torn.digest_file
    · rw [if_neg htodo, if_neg fun h => htodo h.1]
      rfl
  exact congrArg (fun lines => lineOctets lines.flatten) hlines

theorem collisionFree : @CollisionFree Torn.sha TicketState.word worktree notedWorktree := by
  have hknown : ∀ raw, @FingerprintOctets Torn.sha TicketState.word worktree notedWorktree raw →
      raw ∈ Torn.digests.map (·.1) := by
    intro raw hraw
    rw [Torn.digests_fst]
    cases hraw with
    | file hw hentry =>
      rw [managedAt_files hw] at hentry
      split at hentry
      · obtain ⟨-, hraw⟩ := Prod.mk.inj (List.mem_singleton.mp hentry)
        rw [WorkflowEntry.file.inj hraw]
        exact .head _
      · exact absurd hentry List.not_mem_nil
    | text hw =>
      rw [fingerprintText_eq hw]
      simp
  exact @CollisionFree.mk Torn.sha _ _ _ Torn.digest_oneLine fun raw raw' h h' =>
    Torn.digests_free raw (hknown raw h) raw' (hknown raw' h')

end Noted

/-- A note beside a ticket changes neither the fingerprint nor the tickets. -/
theorem sameTickets_of_fingerprint_noted :
    (@ControlWorktree.loadTicketStore Torn.yaml Noted.worktree TicketState.word 10).toOption
      = (@ControlWorktree.loadTicketStore Torn.yaml Noted.notedWorktree TicketState.word
        10).toOption :=
  @sameTickets_of_fingerprint Torn.sha Torn.yaml _ _ _ Noted.collisionFree
    (congrArg Torn.sha.hexdigest ((Noted.fingerprintText_eq (.inl rfl)).trans
      (Noted.fingerprintText_eq (.inr rfl)).symm)) 10

end Devlegate
