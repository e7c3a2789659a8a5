import Devlegate.ReportWrite
import Devlegate.TicketStorage

namespace Devlegate

open JsonText Crash

namespace Wire

/-!
# Applying a lifecycle to the control worktree

`_apply_lifecycle_once` writes the execution report, moves the ticket to `review` and commits.  It
checks some things before it writes and some after, and it puts nothing back when it raises.

* `ControlWorktree`: the files, the index and the commit that is checked out.
* `applyLifecycleOnce`: the function, effect by effect.
* `Clean`: `git status --porcelain` prints nothing; `Restored`: nothing is left behind.
* `FailsLate`: the function raises after its first effect.
* `applyLifecycleOnce_restores_iff`: an attempt from a clean worktree that raises leaves it clean and
  unchanged exactly when it does not fail late.
-/

open ReportStore (StoreError SameVisible visible FreshNames Accepts Orphans jsonAt artifactAt)

/-! ### The control worktree -/

/-- The files of the control worktree: the ticket files, and those below `executions`. -/
structure ControlTree where
  workflow : Workflow
  reports : Files

/-- A path of the control worktree. -/
inductive ControlPath where
  | ticket (state : TicketState) (name : String)
  | report (location : Location)

/-- What Git keeps of a path: the text of a ticket file, or an entry that is no file, or a node
    below `executions`. -/
inductive Tracked where
  | ticket (content : Option String)
  | report (node : Node)
  deriving DecidableEq

/-- What Git keeps of a tree. -/
abbrev Content := ControlPath → Option Tracked

/-- The entry of that name. -/
def WorkflowDirectory.entry (directory : WorkflowDirectory) (name : String) :
    Option DirectoryEntry :=
  match directory with
  | .entries entries => entries.find? (·.name = name)
  | _ => none

/-- `directory.is_dir()`. -/
def WorkflowDirectory.isDir : WorkflowDirectory → Bool
  | .entries _ => true
  | _ => false

/-- What Git sees of the files. -/
def ControlTree.content (tree : ControlTree) : Content
  | .ticket state name =>
    (WorkflowDirectory.entry (tree.workflow.directory state) name).map fun entry => .ticket entry.text
  | .report location => (visible tree.reports location).map .report

/-- The control worktree: the files, the index and the commit that is checked out. -/
structure ControlWorktree where
  tree : ControlTree
  index : Content
  head : Content

/-- `git status --porcelain` prints nothing. -/
structure Clean (w : ControlWorktree) : Prop where
  tree : w.tree.content = w.index
  index : w.index = w.head

/-- Nothing is left behind: the worktree is clean, and the same as before. -/
structure Restored (w w' : ControlWorktree) : Prop where
  clean : Clean w'
  tree : w'.tree.content = w.tree.content
  head : w'.head = w.head

/-! ### The function -/

/-- How the function raises. -/
inductive LifecycleError where
  /-- `WorkflowBlockedError`. -/
  | blocked (message : String)
  /-- An error of the report store. -/
  | report (e : StoreError)
  /-- `DevlegateError`. -/
  | git (message : String)
  deriving DecidableEq

/-- What the function meets outside the files: why `_ticket_store` refuses before it looks at the
    workflow directories, and how the Git commands end. -/
structure ApplySite where
  unavailable : Option String := none
  addRefused : Option String := none
  commitRefused : Option String := none
  revParse : Except String String

section Function

variable [NanoYaml]

/-- `_ticket_store`. -/
def ApplySite.loadStore (site : ApplySite) (workflow : Workflow) :
    Except LifecycleError TicketStore :=
  match site.unavailable with
  | some message => .error (.blocked message)
  | none =>
    match workflowStates.find? fun state => !(WorkflowDirectory.isDir (workflow.directory state)) with
    | some state => .error (.blocked ("managed workflow directory is unavailable: "
        ++ workflow.path state ++ " (" ++ state.word ++ ")"))
    | none =>
      match workflow.loadTicketStore with
      | .ok store => .ok store
      | .error message => .error (.blocked message)

/-- `ticket_store.by_id.get(report.ticket_id)`, in `todo`. -/
def todoTicket (store : TicketStore) (ticketId : Text) : Option Ticket :=
  (store.tickets.find? fun ticket => text ticket.id = ticketId).filter (·.state = .todo)

/-- Another ticket is in `review` or `accepted`. -/
def boundaryConflict (store : TicketStore) (ticket : Ticket) : Bool :=
  store.boundary.any (·.id ≠ ticket.id)

/-- The name of a ticket's file. -/
def ticketFile (ticket : Ticket) : String := ticket.id ++ ".md"

/-- `ticket.path.rename(review)`. -/
def moveToReview (ticket : Ticket) (workflow : Workflow) : Workflow where
  path := workflow.path
  directory state :=
    match state, workflow.directory state with
    | .todo, .entries entries => .entries (entries.filter (·.name ≠ ticketFile ticket))
    | .review, .entries entries =>
      .entries (entries ++
        (WorkflowDirectory.entry (workflow.directory .todo) (ticketFile ticket)).toList)
    | _, directory => directory

/-- Something stands under the ticket's name in `review`. -/
def reviewTaken (workflow : Workflow) (ticket : Ticket) : Bool :=
  (WorkflowDirectory.entry (workflow.directory .review) (ticketFile ticket)).isSome

/-- The checks on the store before the first effect: the ticket, if they pass. -/
def admitted (store : TicketStore) (ticketId : Text) (moves : Bool) :
    Except LifecycleError Ticket :=
  match todoTicket store ticketId with
  | none => .error (.blocked "execution ticket is not in its expected todo state")
  | some ticket =>
    if moves && boundaryConflict store ticket then
      .error (.blocked "review/accepted serial boundary conflicts with lifecycle replay")
    else .ok ticket

/-- The second load, of the files that are to be committed. -/
def checkResult (workflow : Workflow) : Except LifecycleError Unit :=
  match workflow.loadTicketStore with
  | .ok _ => .ok ()
  | .error message => .error (.blocked ("resulting ticket store is invalid: " ++ message))

variable [Sha256]

/-- The conclusion is applied: the ticket moves. -/
def movesTicket (report : ExecutionReport) (applyConclusion : Bool) : Bool :=
  applyConclusion && report.result.conclusion ≠ .failed

/-- A Git command that may be refused. -/
def gitCommand (refused : Option String) (effect : ControlWorktree → ControlWorktree) :
    Program ControlWorktree LifecycleError Unit :=
  match refused with
  | some message => Program.raise (.git message)
  | none => Program.effect effect

/-- The move of the ticket, if there is one. -/
def moveTicket (ticket : Ticket) (moves : Bool) : Program ControlWorktree LifecycleError Unit :=
  if moves then do
    Program.observe fun w =>
      if reviewTaken w.tree.workflow ticket then .error (.blocked "review ticket already exists")
      else .ok ()
    Program.effect fun w =>
      { w with tree := { w.tree with workflow := moveToReview ticket w.tree.workflow } }
  else pure ()

/-- The files below `executions`. -/
def setReports (reports : Files) (w : ControlWorktree) : ControlWorktree :=
  { w with tree := { w.tree with reports := reports } }

/-- `_apply_lifecycle_once`. -/
def applyLifecycleOnce (site : ApplySite) (report : ExecutionReport) (names : ReportStore.Names)
    (applyConclusion : Bool) : Program ControlWorktree LifecycleError String := do
  let moves := movesTicket report applyConclusion
  let store ← Program.observe fun w => site.loadStore w.tree.workflow
  let ticket ← Program.observe fun _ => admitted store report.ticketId moves
  let _path ← Program.zoom (fun w => w.tree.reports) setReports .report
    (ReportStore.write report names)
  moveTicket ticket moves
  Program.observe fun w => checkResult w.tree.workflow
  gitCommand site.addRefused fun w => { w with index := w.tree.content }
  gitCommand site.commitRefused fun w => { w with head := w.index }
  Program.observe fun _ => site.revParse.mapError .git

end Function

/-! ### What Git sees of the effects -/

section Contents

variable {w : ControlWorktree} {reports : Files}

theorem content_setReports_ticket (state : TicketState) (name : String) :
    (setReports reports w).tree.content (.ticket state name) = w.tree.content (.ticket state name) :=
  rfl

theorem content_report (tree : ControlTree) (location : Location) :
    tree.content (.report location) = (visible tree.reports location).map .report := rfl

/-- Git sees the same tree exactly when it sees the same below `executions`. -/
theorem content_setReports_eq_iff :
    (setReports reports w).tree.content = w.tree.content ↔ SameVisible w.tree.reports reports := by
  constructor
  · intro h
    show visible reports = visible w.tree.reports
    ext1 location
    have hat := congrFun h (.report location)
    rw [content_report, content_report] at hat
    exact Option.map_injective (fun _ _ h => by simpa using h) hat
  · intro h
    ext1 path
    cases path with
    | ticket state name => exact content_setReports_ticket state name
    | report location =>
      rw [content_report, content_report]
      exact congrArg (Option.map Tracked.report) (congrFun h location)

/-- A clean worktree is restored when only the reports may have changed and Git sees the same. -/
theorem restored_setReports_iff (hclean : Clean w) :
    Restored w (setReports reports w) ↔ SameVisible w.tree.reports reports := by
  rw [← content_setReports_eq_iff]
  constructor
  · exact fun h => h.tree
  · exact fun h => ⟨⟨h.trans hclean.tree, hclean.index⟩, h, rfl⟩

theorem Restored.refl (hclean : Clean w) : Restored w w := ⟨hclean, rfl, rfl⟩

end Contents

/-! ### Failing late -/

section Late

variable [NanoYaml] [Sha256]

/-- The workflow that is to be committed. -/
def resultingWorkflow (ticket : Ticket) (moves : Bool) (workflow : Workflow) : Workflow :=
  if moves then moveToReview ticket workflow else workflow

/-- Something refuses after the report is written. -/
def RefusedLate (site : ApplySite) (workflow : Workflow) (ticket : Ticket) (moves : Bool) : Prop :=
  moves = true ∧ reviewTaken workflow ticket = true
    ∨ checkResult (resultingWorkflow ticket moves workflow) ≠ .ok ()
    ∨ site.addRefused.isSome = true ∨ site.commitRefused.isSome = true
    ∨ ∃ message, site.revParse = .error message

/-- The checks before the first effect pass, and then the long report is orphaned, or the report is
    written and something refuses after that. -/
def FailsLate (site : ApplySite) (r : BuiltReport) (moves : Bool) (w : ControlWorktree) : Prop :=
  ∃ store ticket, site.loadStore w.tree.workflow = .ok store
    ∧ admitted store r.report.ticketId moves = .ok ticket
    ∧ (Orphans r w.tree.reports
      ∨ Accepts r w.tree.reports ∧ RefusedLate site w.tree.workflow ticket moves)

variable {site : ApplySite} {r : BuiltReport} {names : ReportStore.Names} {moves : Bool}
  {w : ControlWorktree}

theorem failsLate_iff {store : TicketStore} {ticket : Ticket}
    (hstore : site.loadStore w.tree.workflow = .ok store)
    (hticket : admitted store r.report.ticketId moves = .ok ticket) :
    FailsLate site r moves w ↔ Orphans r w.tree.reports
      ∨ Accepts r w.tree.reports ∧ RefusedLate site w.tree.workflow ticket moves := by
  constructor
  · rintro ⟨store', ticket', hstore', hticket', h⟩
    rw [hstore] at hstore'
    cases hstore'
    rw [hticket] at hticket'
    cases hticket'
    exact h
  · exact fun h => ⟨store, ticket, hstore, hticket, h⟩

omit [NanoYaml] in
/-- Once the report is written the worktree is not what it was. -/
theorem not_restored_of_written {w' : ControlWorktree} {raw : List UInt8}
    (hfree : w.tree.reports.lookup (jsonAt r) = none)
    (hwritten : visible w'.tree.reports (jsonAt r) = some (.file raw)) : ¬ Restored w w' := by
  intro h
  have hat := congrFun h.tree (.report (jsonAt r))
  rw [content_report, content_report, hwritten] at hat
  unfold visible at hat
  rw [hfree] at hat
  cases hat

omit [NanoYaml] [Sha256] in
/-- A Git command that may be refused. -/
theorem sat_gitCommand {refused : Option String} {effect : ControlWorktree → ControlWorktree}
    {Q : Unit → ControlWorktree → Prop} {E : LifecycleError → ControlWorktree → Prop}
    (hrefused : ∀ message, refused = some message → E (.git message) w)
    (hdone : refused = none → Q () (effect w)) :
    Sat (fun _ => True) (gitCommand refused effect) Q E w := by
  unfold gitCommand
  cases hcase : refused with
  | some message => exact .raise (hrefused message hcase)
  | none => exact .effect trivial (hdone hcase)

omit [NanoYaml] [Sha256] in
/-- The move of the ticket. -/
theorem sat_moveTicket {ticket : Ticket} {Q : Unit → ControlWorktree → Prop}
    {E : LifecycleError → ControlWorktree → Prop}
    (htaken : moves = true → reviewTaken w.tree.workflow ticket = true → ∀ e, E e w)
    (hmoved : ¬ (moves = true ∧ reviewTaken w.tree.workflow ticket = true) →
      Q () { w with tree := { w.tree with
        workflow := resultingWorkflow ticket moves w.tree.workflow } }) :
    Sat (fun _ => True) (moveTicket ticket moves) Q E w := by
  unfold moveTicket
  unfold resultingWorkflow at hmoved
  cases hmoves : moves with
  | false =>
    rw [hmoves] at hmoved
    exact .pure (hmoved nofun)
  | true =>
    rw [hmoves] at hmoved
    rw [if_pos rfl]
    cases hreview : reviewTaken w.tree.workflow ticket with
    | true =>
      refine .bind (.refused (e := .blocked "review ticket already exists") ?_ (htaken hmoves hreview _))
      rw [if_pos hreview]
    | false =>
      refine .bind (.observe (a := ()) ?_ (.effect trivial (hmoved fun h => ?_)))
      swap
      · rw [hreview] at h
        cases h.2
      rw [if_neg (by rw [hreview]; exact Bool.false_ne_true)]

/-- The whole function: when it returns it does not fail late, and when it raises it restores the
    worktree exactly when it does not. -/
theorem sat_applyLifecycleOnce {applyConclusion : Bool} (hclean : Clean w)
    (hfresh : FreshNames r names w.tree.reports) :
    Sat (fun _ => True) (applyLifecycleOnce site r.report names applyConclusion)
      (fun _ _ => ¬ FailsLate site r (movesTicket r.report applyConclusion) w)
      (fun _ w' => Restored w w' ↔ ¬ FailsLate site r (movesTicket r.report applyConclusion) w)
      w := by
  unfold applyLifecycleOnce
  generalize movesTicket r.report applyConclusion = moves
  cases hstore : site.loadStore w.tree.workflow with
  | error e =>
    refine .bind (.refused hstore (iff_of_true (Restored.refl hclean) ?_))
    rintro ⟨store, ticket, hother, -⟩
    rw [hstore] at hother
    cases hother
  | ok store =>
  refine .bind (.observe hstore ?_)
  cases hticket : admitted store r.report.ticketId moves with
  | error e =>
    refine .bind (.refused (e := e) rfl (iff_of_true (Restored.refl hclean) ?_))
    rintro ⟨store', ticket, hother, hadmitted, -⟩
    rw [hstore] at hother
    cases hother
    rw [hticket] at hadmitted
    cases hadmitted
  | ok ticket =>
  have hlate := failsLate_iff hstore hticket
  refine .bind (.observe (a := ticket) rfl ?_)
  refine .bind (.zoom rfl ((ReportStore.sat_write_cases hfresh).mono (fun _ _ => trivial) ?_ ?_))
  swap
  · -- the report is refused
    rintro e reports ⟨hnot, hshown⟩
    rw [restored_setReports_iff hclean, hshown, hlate, not_iff_not]
    exact ⟨.inl, fun h => h.elim id fun h => absurd h.1 hnot⟩
  rintro path reports ⟨haccepts, raw, -, hshown⟩
  -- from here on the report is there, so whatever raises fails late
  have hwritten : visible reports (jsonAt r) = some (.file raw) := by
    rw [congrFun hshown (jsonAt r)]
    unfold visible
    rw [AList.lookup_insert]
    rfl
  have hraise : ∀ w' : ControlWorktree, w'.tree.reports = reports →
      RefusedLate site w.tree.workflow ticket moves →
      (Restored w w' ↔ ¬ FailsLate site r moves w) := by
    intro w' hreports hrefused
    have hfails : FailsLate site r moves w := hlate.mpr (.inr ⟨haccepts, hrefused⟩)
    have hnot : ¬ Restored w w' :=
      not_restored_of_written haccepts.json (by rw [hreports]; exact hwritten)
    exact ⟨fun h => absurd h hnot, fun h => absurd hfails h⟩
  refine .bind (sat_moveTicket (fun hmoves htaken _ => hraise _ rfl (.inl ⟨hmoves, htaken⟩))
    fun hfree => ?_)
  cases hresult : checkResult (resultingWorkflow ticket moves w.tree.workflow) with
  | error e =>
    refine .bind (.refused hresult (hraise _ rfl (.inr (.inl ?_))))
    rw [hresult]
    nofun
  | ok u =>
  refine .bind (.observe hresult ?_)
  refine .bind (sat_gitCommand (fun message hrefused => hraise _ rfl ?_) fun hadd => ?_)
  · exact .inr (.inr (.inl (by rw [hrefused]; rfl)))
  refine .bind (sat_gitCommand (fun message hrefused => hraise _ rfl ?_) fun hcommit => ?_)
  · exact .inr (.inr (.inr (.inl (by rw [hrefused]; rfl))))
  cases hhead : site.revParse with
  | error message =>
    refine .refused (e := .git message) rfl (hraise _ rfl ?_)
    exact .inr (.inr (.inr (.inr ⟨message, hhead⟩)))
  | ok head =>
    refine .observe (a := head) rfl ?_
    rw [hlate]
    rintro (horphans | ⟨-, hrefused⟩)
    · exact horphans.json haccepts.json
    · rcases hrefused with ⟨hmoves, htaken⟩ | hinvalid | hsome | hsome | ⟨message, herror⟩
      · exact hfree ⟨hmoves, htaken⟩
      · exact hinvalid hresult
      · rw [hadd] at hsome
        cases hsome
      · rw [hcommit] at hsome
        cases hsome
      · rw [hhead] at herror
        cases herror

/-- The state an attempt leaves. -/
def leaves (site : ApplySite) (report : ExecutionReport) (names : ReportStore.Names)
    (applyConclusion : Bool) (w : ControlWorktree) : ControlWorktree :=
  (applyLifecycleOnce site report names applyConclusion w).last w

/-- **Failed attempts.** An attempt from a clean worktree that raises leaves the worktree clean and
    unchanged exactly when it does not fail late. -/
theorem applyLifecycleOnce_restores_iff (site : ApplySite) (r : BuiltReport)
    (names : ReportStore.Names) (applyConclusion : Bool) (w : ControlWorktree) (hclean : Clean w)
    (hfresh : FreshNames r names w.tree.reports) :
    (∀ e, (applyLifecycleOnce site r.report names applyConclusion w).result = .error e →
        Restored w (leaves site r.report names applyConclusion w))
      ↔ ¬ FailsLate site r (movesTicket r.report applyConclusion) w := by
  have hends := (@sat_applyLifecycleOnce _ _ site r names w applyConclusion hclean hfresh).2
  unfold leaves
  cases hresult : (applyLifecycleOnce site r.report names applyConclusion w).result with
  | ok head =>
    rw [hresult] at hends
    exact iff_of_true nofun hends
  | error e =>
    rw [hresult] at hends
    exact ⟨fun h => hends.mp (h e rfl), fun h _ _ => hends.mpr h⟩

/-- An attempt that fails late raises, and leaves something behind. -/
theorem not_restores_of_failsLate {applyConclusion : Bool} (hclean : Clean w)
    (hfresh : FreshNames r names w.tree.reports)
    (hfails : FailsLate site r (movesTicket r.report applyConclusion) w) :
    ¬ ∀ e, (applyLifecycleOnce site r.report names applyConclusion w).result = .error e →
      Restored w (leaves site r.report names applyConclusion w) := by
  intro h
  have hends := (@sat_applyLifecycleOnce _ _ site r names w applyConclusion hclean hfresh).2
  cases hresult : (applyLifecycleOnce site r.report names applyConclusion w).result with
  | ok head =>
    rw [hresult] at hends
    exact hends hfails
  | error e =>
    rw [hresult] at hends
    exact hends.mp (h e hresult) hfails

end Late

/-! ### When it returns -/

section Returns

variable [NanoYaml] [Sha256]

/-- When a lifecycle is committed: what is checked passes, the report is written and Git does what
    it is asked. -/
structure Commitable (site : ApplySite) (report : ExecutionReport) (names : ReportStore.Names)
    (moves : Bool) (tree : ControlTree) (ticket : Ticket) (reports : Files) (name : String) : Prop
    where
  loads : ∃ store, site.loadStore tree.workflow = .ok store
    ∧ admitted store report.ticketId moves = .ok ticket
  writes : ∃ path, Runs (ReportStore.write report names) tree.reports path reports
  free : moves = true → reviewTaken tree.workflow ticket = false
  result : checkResult (resultingWorkflow ticket moves tree.workflow) = .ok ()
  add : site.addRefused = none
  commit : site.commitRefused = none
  revParse : site.revParse = .ok name

omit [NanoYaml] [Sha256] in
/-- A rename, unless something is in its place. -/
theorem runs_unlessTaken {σ ε : Type} {taken : σ → Bool} {e : ε} {rename : σ → σ} {moves : Bool}
    {s t : σ} {u : Unit} :
    Runs (if moves then do
        Program.observe fun s => if taken s then .error e else .ok ()
        Program.effect rename
      else pure ()) s u t
      ↔ (moves = true → taken s = false) ∧ t = if moves then rename s else s := by
  cases moves with
  | false =>
    rw [if_neg Bool.false_ne_true, if_neg Bool.false_ne_true]
    refine runs_pure.trans ⟨fun h => ⟨fun hmoves => ?_, h.2.symm⟩, fun h => ⟨rfl, h.2.symm⟩⟩
    cases hmoves
  | true =>
    rw [if_pos rfl, if_pos rfl, runs_bind]
    constructor
    · rintro ⟨_, _, hlook, heffect⟩
      obtain ⟨hfree, rfl⟩ := runs_observe.mp hlook
      refine ⟨fun _ => ?_, runs_effect.mp heffect⟩
      cases htaken : taken s with
      | true =>
        rw [htaken] at hfree
        cases hfree
      | false => rfl
    · rintro ⟨hfree, ht⟩
      refine ⟨(), s, runs_observe.mpr ⟨?_, rfl⟩, runs_effect.mpr ht⟩
      rw [hfree rfl]
      rfl

omit [NanoYaml] [Sha256] in
theorem runs_moveTicket {ticket : Ticket} {moves : Bool} {w w' : ControlWorktree} {u : Unit} :
    Runs (moveTicket ticket moves) w u w'
      ↔ (moves = true → reviewTaken w.tree.workflow ticket = false)
        ∧ w' = { w with tree := { w.tree with
          workflow := resultingWorkflow ticket moves w.tree.workflow } } := by
  unfold moveTicket resultingWorkflow
  rw [runs_unlessTaken]
  cases moves <;> rfl

omit [NanoYaml] [Sha256] in
theorem runs_gitCommand {refused : Option String} {effect : ControlWorktree → ControlWorktree}
    {w w' : ControlWorktree} {u : Unit} :
    Runs (gitCommand refused effect) w u w' ↔ refused = none ∧ w' = effect w := by
  unfold gitCommand
  cases refused with
  | none => exact runs_effect.trans ⟨fun h => ⟨rfl, h⟩, fun h => h.2⟩
  | some message => exact iff_of_false runs_raise fun h => Option.some_ne_none _ h.1

/-- When `_apply_lifecycle_once` returns, and what it leaves. -/
theorem runs_applyLifecycleOnce {site : ApplySite} {report : ExecutionReport}
    {names : ReportStore.Names} {applyConclusion : Bool} {w w' : ControlWorktree} {name : String} :
    Runs (applyLifecycleOnce site report names applyConclusion) w name w' ↔ ∃ ticket reports,
      Commitable site report names (movesTicket report applyConclusion) w.tree ticket reports name
        ∧ w' = ⟨⟨resultingWorkflow ticket (movesTicket report applyConclusion) w.tree.workflow,
            reports⟩,
          ControlTree.content ⟨resultingWorkflow ticket (movesTicket report applyConclusion)
            w.tree.workflow, reports⟩,
          ControlTree.content ⟨resultingWorkflow ticket (movesTicket report applyConclusion)
            w.tree.workflow, reports⟩⟩ := by
  unfold applyLifecycleOnce
  generalize movesTicket report applyConclusion = moves
  have hput : setReports w.tree.reports w = w := rfl
  constructor
  · intro h
    -- the steps of the source in order; the tree changes at the write, the move, the index and the
    -- commit only
    obtain ⟨store, _, hstore, h⟩ := runs_bind.mp h
    obtain ⟨hloads, rfl⟩ := runs_observe.mp hstore
    obtain ⟨ticket, _, hticket, h⟩ := runs_bind.mp h
    obtain ⟨hadmitted, rfl⟩ := runs_observe.mp hticket
    obtain ⟨path, _, hwrite, h⟩ := runs_bind.mp h
    obtain ⟨reports, hwritten, rfl⟩ := (runs_zoom hput).mp hwrite
    obtain ⟨_, _, hmove, h⟩ := runs_bind.mp h
    obtain ⟨hfree, rfl⟩ := runs_moveTicket.mp hmove
    obtain ⟨_, _, hcheck, h⟩ := runs_bind.mp h
    obtain ⟨hresult, rfl⟩ := runs_observe.mp hcheck
    obtain ⟨_, _, hindex, h⟩ := runs_bind.mp h
    obtain ⟨hadd, rfl⟩ := runs_gitCommand.mp hindex
    obtain ⟨_, _, hhead, h⟩ := runs_bind.mp h
    obtain ⟨hcommit, rfl⟩ := runs_gitCommand.mp hhead
    obtain ⟨hparse, rfl⟩ := runs_observe.mp h
    have hname : site.revParse = .ok name := by
      cases hcase : site.revParse with
      | error message =>
        rw [hcase] at hparse
        cases hparse
      | ok other =>
        rw [hcase] at hparse
        cases hparse
        rfl
    exact ⟨ticket, reports, ⟨⟨store, hloads, hadmitted⟩, ⟨path, hwritten⟩, hfree, hresult, hadd,
      hcommit, hname⟩, rfl⟩
  · rintro ⟨ticket, reports, h, rfl⟩
    obtain ⟨store, hloads, hadmitted⟩ := h.loads
    obtain ⟨path, hwritten⟩ := h.writes
    refine runs_bind.mpr ⟨store, _, runs_observe.mpr ⟨hloads, rfl⟩, ?_⟩
    refine runs_bind.mpr ⟨ticket, _, runs_observe.mpr ⟨hadmitted, rfl⟩, ?_⟩
    refine runs_bind.mpr ⟨path, _, (runs_zoom hput).mpr ⟨reports, hwritten, rfl⟩, ?_⟩
    refine runs_bind.mpr ⟨(), _, runs_moveTicket.mpr ⟨h.free, rfl⟩, ?_⟩
    refine runs_bind.mpr ⟨(), _, runs_observe.mpr ⟨h.result, rfl⟩, ?_⟩
    refine runs_bind.mpr ⟨(), _, runs_gitCommand.mpr ⟨h.add, rfl⟩, ?_⟩
    refine runs_bind.mpr ⟨(), _, runs_gitCommand.mpr ⟨h.commit, rfl⟩, ?_⟩
    exact runs_observe.mpr ⟨congrArg (Except.mapError LifecycleError.git) h.revParse, rfl⟩

end Returns

/-! ### A commit that is refused -/

namespace RefusedCommit

/-- The metadata of one ticket. -/
abbrev yaml : NanoYaml :=
  ⟨fun _ => .ok [("type", .string "devlegate.ticket"), ("title", .string "t")]⟩

abbrev sha : Sha256 := ⟨fun _ => ""⟩

/-- The ticket `t1` is in `todo`. -/
def workflow : Workflow where
  path state := "kanban/" ++ state.word
  directory state :=
    if state = .todo then
      .entries [⟨"t1.md", some "---\ntype: devlegate.ticket\ntitle: t\n---\nbody\n"⟩]
    else .entries []

def tree : ControlTree := ⟨workflow, ReportStore.emptyStore⟩

/-- The worktree as it was checked out. -/
def worktree : ControlWorktree := ⟨tree, tree.content, tree.content⟩

/-- A hook refuses the commit. -/
def site : ApplySite := { commitRefused := some "rejected by the pre-commit hook", revParse := .ok "" }

def names : ReportStore.Names := ⟨[], []⟩

theorem clean : Clean worktree := ⟨rfl, rfl⟩

theorem freshNames : @FreshNames sha ReportStore.returnReport names worktree.tree.reports := by
  rintro location (rfl | rfl) <;> rfl

theorem loads : @ApplySite.loadStore yaml site workflow
    = .ok ⟨[⟨"t1", .todo, "t", [], "body\n"⟩]⟩ := by
  decide +kernel

theorem admits : admitted ⟨[⟨"t1", .todo, "t", [], "body\n"⟩]⟩
    (@BuiltReport.report sha ReportStore.returnReport).ticketId true
      = .ok ⟨"t1", .todo, "t", [], "body\n"⟩ := by
  decide

theorem makeable : ReportStore.Makeable (@BuiltReport.report sha ReportStore.returnReport).ticketId
    ReportStore.emptyStore := by
  refine ⟨rfl, rfl, ?_, ?_⟩
  · intro node hnode
    cases hnode
    rfl
  · intro node hnode
    cases hnode

theorem accepts : @Accepts sha ReportStore.returnReport ReportStore.emptyStore :=
  @Accepts.mk sha _ _ makeable (fun _ _ => .inl rfl) rfl

/-- The checks pass, the report is written, and then the commit is refused. -/
theorem failsLate : @FailsLate yaml sha site ReportStore.returnReport true worktree :=
  ⟨_, _, loads, admits, .inr ⟨accepts, .inr (.inr (.inr (.inl rfl)))⟩⟩

/-- The attempt raises, and the worktree is not what it was. -/
theorem not_restored :
    ¬ ∀ e, (@applyLifecycleOnce yaml sha site (@BuiltReport.report sha ReportStore.returnReport) names
        true worktree).result = .error e →
      Restored worktree (@leaves yaml sha site (@BuiltReport.report sha ReportStore.returnReport) names
        true worktree) := by
  apply @not_restores_of_failsLate yaml sha site ReportStore.returnReport names worktree true clean
    freshNames
  have hmoves : @movesTicket (@BuiltReport.report sha ReportStore.returnReport) true = true := by
    decide
  rw [hmoves]
  exact failsLate

/-! #### A boundary conflict -/

/-- Another ticket is in `review`. -/
def busyWorkflow : Workflow where
  path state := "kanban/" ++ state.word
  directory state :=
    if state = .todo then
      .entries [⟨"t1.md", some "---\ntype: devlegate.ticket\ntitle: t\n---\nbody\n"⟩]
    else if state = .review then
      .entries [⟨"t2.md", some "---\ntype: devlegate.ticket\ntitle: t\n---\nmore\n"⟩]
    else .entries []

def busyTree : ControlTree := ⟨busyWorkflow, ReportStore.emptyStore⟩

def busyWorktree : ControlWorktree := ⟨busyTree, busyTree.content, busyTree.content⟩

def busyStore : TicketStore :=
  ⟨[⟨"t1", .todo, "t", [], "body\n"⟩, ⟨"t2", .review, "t", [], "more\n"⟩]⟩

/-- Git does what it is asked. -/
def willing : ApplySite := { revParse := .ok "" }

theorem busy_loads : @ApplySite.loadStore yaml willing busyWorktree.tree.workflow
    = .ok busyStore := by
  decide +kernel

theorem busy_admits : admitted busyStore (@BuiltReport.report sha ReportStore.returnReport).ticketId
    true = .error (.blocked "review/accepted serial boundary conflicts with lifecycle replay") := by
  decide

/-- The attempt raises before its first effect, and the worktree is as it was. -/
theorem busy_restored :
    (@applyLifecycleOnce yaml sha willing (@BuiltReport.report sha ReportStore.returnReport) names
          true busyWorktree).result
        = .error (.blocked "review/accepted serial boundary conflicts with lifecycle replay")
      ∧ Restored busyWorktree (@leaves yaml sha willing
        (@BuiltReport.report sha ReportStore.returnReport) names true busyWorktree) := by
  have hmoves : @movesTicket (@BuiltReport.report sha ReportStore.returnReport) true = true := by
    decide
  have hraises : (@applyLifecycleOnce yaml sha willing
        (@BuiltReport.report sha ReportStore.returnReport) names true busyWorktree).result
      = .error (.blocked "review/accepted serial boundary conflicts with lifecycle replay") := by
    have hstart : @applyLifecycleOnce yaml sha willing
        (@BuiltReport.report sha ReportStore.returnReport) names true busyWorktree = _ :=
      Program.observe_bind (f := fun w : ControlWorktree =>
        @ApplySite.loadStore yaml willing w.tree.workflow) busy_loads _
    rw [hstart, hmoves, Program.observe_bind_error (f := fun _ : ControlWorktree =>
      admitted busyStore (@BuiltReport.report sha ReportStore.returnReport).ticketId true)
      busy_admits]
  refine ⟨hraises, (@applyLifecycleOnce_restores_iff yaml sha willing ReportStore.returnReport names true busyWorktree ⟨rfl, rfl⟩ freshNames).mpr ?_ _ hraises⟩
  rw [hmoves]
  rintro ⟨store, ticket, hstore, hadmitted, -⟩
  obtain rfl := Except.ok.inj (busy_loads.symm.trans hstore)
  exact absurd (busy_admits.symm.trans hadmitted) nofun

/-! #### A commit that is made -/

theorem willing_loads : @ApplySite.loadStore yaml willing worktree.tree.workflow
    = .ok ⟨[⟨"t1", .todo, "t", [], "body\n"⟩]⟩ := by
  decide +kernel

theorem reviewed : @checkResult yaml
    (resultingWorkflow ⟨"t1", .todo, "t", [], "body\n"⟩ true worktree.tree.workflow) = .ok () := by
  decide +kernel

/-- The file is no longer in `todo`. -/
theorem content_moved (reports : Files) : ControlTree.content
      ⟨resultingWorkflow ⟨"t1", .todo, "t", [], "body\n"⟩ true worktree.tree.workflow, reports⟩
    ≠ worktree.head := by
  have hgone : WorkflowDirectory.entry ((resultingWorkflow ⟨"t1", .todo, "t", [], "body\n"⟩ true
      worktree.tree.workflow).directory .todo) "t1.md" = none := by decide
  have hthere : (worktree.head (.ticket .todo "t1.md")).isSome = true := by decide
  intro hsame
  rw [← hsame, ControlTree.content, hgone] at hthere
  exact Bool.false_ne_true hthere

/-- The lifecycle is committed. -/
theorem returns_committed : ∃ name w',
    Runs (@applyLifecycleOnce yaml sha willing (@BuiltReport.report sha ReportStore.returnReport)
        names true) worktree name w'
      ∧ w'.head ≠ worktree.head := by
  obtain ⟨path, reports, hwritten⟩ : ∃ path reports, Runs (@ReportStore.write sha
      (@BuiltReport.report sha ReportStore.returnReport) names) worktree.tree.reports path
      reports := by
    rcases (@ReportStore.sat_write_cases sha ReportStore.returnReport _ _ freshNames).ends with
      ⟨visited, path, heq, -⟩ | ⟨visited, e, -, -, hnot, -⟩
    · refine ⟨path, _, ?_, rfl⟩
      rw [heq]
    · exact absurd accepts hnot
  have hmoves : @movesTicket (@BuiltReport.report sha ReportStore.returnReport) true = true := by
    decide
  have hcommitable : @Commitable yaml sha willing
      (@BuiltReport.report sha ReportStore.returnReport) names true worktree.tree
      ⟨"t1", .todo, "t", [], "body\n"⟩ reports "" :=
    @Commitable.mk yaml sha _ _ _ _ _ _ _ _ ⟨_, willing_loads, admits⟩ ⟨path, hwritten⟩
      (fun _ => by decide) reviewed rfl rfl rfl
  rw [← hmoves] at hcommitable
  refine ⟨"", _, (@runs_applyLifecycleOnce yaml sha _ _ _ _ _ _ _).mpr
    ⟨_, reports, hcommitable, rfl⟩, ?_⟩
  rw [hmoves]
  exact content_moved reports

end RefusedCommit

end Wire

end Devlegate
