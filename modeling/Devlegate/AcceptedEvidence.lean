import Devlegate.LifecycleApply
import Devlegate.Lib.Timeline
import Devlegate.Lib.Loops

namespace Devlegate

open JsonText Loops

namespace Wire

/-!
# The evidence of an accepted ticket

Before an accepted ticket is integrated, and again when an interrupted integration is taken up, the
execution that was accepted is looked up in the history of the control branch: the commit that moved
the ticket to `accepted` is found from HEAD backwards, then, from its parent backwards, the commit
that put the ticket into `review`, and the report that was committed with it.

* `ControlFiles`, `EvidenceSite`: a commit of the control branch, and what the lookup reads.
* `acceptedExecutionReport`: `_accepted_execution_report`, step by step.
* `AcceptedHistory`: a ticket is admitted to review, accepted, and left alone.
* `acceptedExecutionReport_stable_iff`: the lookup answers the same before and after the integration
  commit exactly when that commit follows the acceptance, or there is no report to find.
-/

open ReportStore (StoreError)

/-! ### Commits of the control branch -/

/-- The files of a commit: those of the workflow directories, and those below `executions`. -/
structure ControlFiles where
  tickets : List (TicketState × DirectoryEntry)
  reports : Files
  deriving DecidableEq

namespace ControlFiles

/-- A checkout of the files. -/
def tree (files : ControlFiles) : ControlTree where
  workflow := {
    path := TicketState.word
    directory := fun state =>
      .entries ((files.tickets.filter (·.1 = state)).map (·.2)) }
  reports := files.reports

/-- What Git keeps at a path. -/
def blob (files : ControlFiles) : ControlPath → Option Tracked := files.tree.content

end ControlFiles

/-- `{state path}/{ticket_id}.md`. -/
def ticketAt (state : TicketState) (ticketId : String) : ControlPath :=
  .ticket state (ticketId ++ ".md")

/-- `executions/{ticket_id}/{execution_id}.json`. -/
def reportAt (ticketId : String) (executionId : Text) : ControlPath :=
  .report (.entry (text ticketId) (.report executionId))

/-- A path of the ticket: its file in some directory, or one of its reports. -/
inductive OfTicket (ticketId : String) : ControlPath → Prop where
  | file (state : TicketState) : OfTicket ticketId (ticketAt state ticketId)
  | report (executionId : Text) : OfTicket ticketId (reportAt ticketId executionId)

/-- A commit of the control branch. -/
abbrev ControlCommit := Timeline ControlFiles

namespace ControlCommit

variable (commit : ControlCommit)

/-- What is at a path of a commit. -/
abbrev fileAt (path : ControlPath) : Option Tracked := Timeline.fileAt ControlFiles.blob commit path

/-- The commit changes the path. -/
abbrev Touches (path : ControlPath) : Prop := Timeline.Touches ControlFiles.blob path commit

/-- `rev-parse commit^`. -/
abbrev parent : Option ControlCommit := Timeline.parent commit

/-- `log -1 --format=%H commit -- path`. -/
abbrev lastTouching (path : ControlPath) : Option ControlCommit :=
  Timeline.lastTouching ControlFiles.blob path commit

end ControlCommit

/-! ### The lookup -/

/-- How an integration raises. -/
inductive IntegrationError where
  /-- `WorkflowBlockedError`. -/
  | blocked (message : String)
  /-- `DevlegateError`. -/
  | failed (message : String)
  /-- What the report store raises besides its own error. -/
  | store (e : StoreError)
  deriving DecidableEq

/-- What the lookup reads: HEAD of the control worktree, the reports in the worktree, and what
    `ls-remote` says about the branch of the execution. -/
structure EvidenceSite where
  head : ControlCommit
  reports : Files
  executionRemoteHead : Except String (Option Text)

/-- A value, or `WorkflowBlockedError`. -/
def orBlocked {α : Type} (value : Option α) (message : String) : Except IntegrationError α :=
  match value with
  | some a => .ok a
  | none => .error (.blocked message)

/-- `WorkflowBlockedError` unless the condition holds. -/
def unlessBlocked (p : Prop) [Decidable p] (message : String) : Except IntegrationError Unit :=
  if p then .ok () else .error (.blocked message)

/-- Forty hexadecimal digits. -/
def isCommitName (value : Text) : Bool :=
  value.length == 40 && value.all fun c => (text "0123456789abcdefABCDEF").contains c

section Lookup

variable [Sha256] (site : EvidenceSite) (ticketId : String)

/-- The reports of the ticket whose execution has not failed. -/
def completedReports : Except IntegrationError (List ExecutionReport) := do
  unlessBlocked (site.reports.test (.ticket (text ticketId)) Node.isDir
      && !site.reports.test (.ticket (text ticketId)) Node.isSymlink)
    ("accepted ticket " ++ ticketId ++ " has no durable execution evidence")
  match ReportStore.list site.reports (some (text ticketId)) with
  | .ok reports => return reports.filter fun report => report.result.conclusion ≠ .failed
  | .error (.report _) | .error (.cannotRead _) | .error .cannotPersist =>
    throw (.blocked ("malformed execution evidence for accepted ticket " ++ ticketId))
  | .error e => throw (.store e)

omit [Sha256] in
/-- The commit that accepted the ticket; where the last commit that touches the accepted file deletes
    it, the commit before that one. -/
def acceptedRevision (head : ControlCommit) : Except IntegrationError ControlCommit := do
  let commit ← orBlocked (head.lastTouching (ticketAt .accepted ticketId))
    "accepted ticket transition is unavailable"
  if (commit.fileAt (ticketAt .accepted ticketId)).isSome then return commit
  else orBlocked commit.parent "accepted ticket transition parent is unavailable"

omit [Sha256] in
/-- The parent of that commit, and the commit that put the ticket into review. -/
def reviewAdmission (head : ControlCommit) :
    Except IntegrationError (ControlCommit × ControlCommit) := do
  let revision ← acceptedRevision ticketId head
  let parent ← orBlocked revision.parent "accepted ticket transition parent is unavailable"
  let review ← orBlocked (parent.lastTouching (ticketAt .review ticketId))
    "review admission transition is unavailable"
  return (parent, review)

omit [Sha256] in
/-- The report was committed with the admission to review. -/
def isAdmitted (parent review : ControlCommit) (report : ExecutionReport) : Bool :=
  parent.lastTouching (reportAt ticketId report.executionId) = some review

omit [Sha256] in
/-- The workspace head of the report is published, or it is the base and nothing is published. -/
def isPublished (remoteHead : Option Text) (report : ExecutionReport) : Bool :=
  report.executionBranch == text (executionBranchOf ticketId)
    && match report.workspaceHead with
      | none => false
      | some head => remoteHead == some head || (remoteHead == none && head == report.codeBaseHead)

omit [Sha256] in
/-- The reports that are evidence of the acceptance. -/
def matchingReports (parent review : ControlCommit) (remoteHead : Option Text)
    (reports : List ExecutionReport) : List ExecutionReport :=
  (reports.filter (isAdmitted ticketId parent review)).filter (isPublished ticketId remoteHead)

omit [Sha256] in
/-- The only one of them, with heads that name commits. -/
def onlyMatch (found : List ExecutionReport) : Except IntegrationError ExecutionReport :=
  match found with
  | [report] => do
    unlessBlocked (report.workspaceHead.any isCommitName && isCommitName report.codeBaseHead
        && isCommitName report.controlHead)
      "accepted execution evidence has invalid Git identity"
    return report
  | _ => .error (.blocked ("accepted ticket " ++ ticketId
      ++ " has ambiguous or missing completed execution evidence"))

/-- `_accepted_execution_report`. -/
def acceptedExecutionReport : Except IntegrationError ExecutionReport := do
  let reports ← completedReports site ticketId
  let (parent, review) ← reviewAdmission ticketId site.head
  let remoteHead ← site.executionRemoteHead.mapError .failed
  onlyMatch ticketId (matchingReports ticketId parent review remoteHead reports)

end Lookup

/-! ### The integration commit -/

/-- The files once `{accepted}/{ticket_id}.md` has been renamed to `{done}/{ticket_id}.md`. -/
def moveToDone (ticketId : String) (files : ControlFiles) : ControlFiles :=
  { files with
    tickets := (files.tickets.filter fun entry =>
        ¬ (entry.2.name = ticketId ++ ".md" ∧ (entry.1 = .accepted ∨ entry.1 = .done)))
      ++ (WorkflowDirectory.entry (files.tree.workflow.directory .accepted)
          (ticketId ++ ".md")).toList.map fun entry => (.done, entry) }

/-- The child of `head` that moves the ticket to `done`. -/
def integrationCommit (ticketId : String) (head : ControlCommit) : ControlCommit :=
  match head with
  | [] => []
  | files :: _ => moveToDone ticketId files :: head

theorem blob_ticket {files : ControlFiles} {state : TicketState} {ticketId : String} :
    files.blob (ticketAt state ticketId)
      = (((files.tickets.filter (·.1 = state)).map (·.2)).find?
          (·.name = ticketId ++ ".md")).map fun entry => Tracked.ticket entry.text := rfl

@[simp] theorem moveToDone_reports (ticketId : String) (files : ControlFiles) :
    (moveToDone ticketId files).reports = files.reports := rfl

/-- The accepted file is gone. -/
theorem blob_moveToDone_accepted (ticketId : String) (files : ControlFiles) :
    (moveToDone ticketId files).blob (ticketAt .accepted ticketId) = none := by
  rw [blob_ticket, Option.map_eq_none_iff, List.find?_eq_none]
  intro entry hentry
  obtain ⟨⟨state, _⟩, hmem, rfl⟩ := List.mem_map.mp hentry
  obtain ⟨hmem, hstate⟩ := List.mem_filter.mp hmem
  have haccepted : state = .accepted := by simpa using hstate
  subst haccepted
  rcases List.mem_append.mp hmem with hkept | hmoved
  · have hkept := (List.mem_filter.mp hkept).2
    simpa using hkept
  · obtain ⟨_, -, heq⟩ := List.mem_map.mp hmoved
    cases heq

/-! ### Histories of a ticket -/

/-- Commit `V` admitted the ticket to review, where it stayed until commit `A` moved it to
    `accepted`, and no commit from `A` to `R` concerns the ticket. -/
structure AcceptedHistory (ticketId : String) (V A R : ControlCommit) : Prop where
  admission : V.Touches (ticketAt .review ticketId)
  admitted : V <:+ A.tail
  reviewed : ∀ commit : ControlCommit, V <:+ commit → commit <:+ A.tail →
    (commit.fileAt (ticketAt .review ticketId)).isSome
  accepted : (A.fileAt (ticketAt .accepted ticketId)).isSome
  notAccepted : ControlCommit.fileAt A.tail (ticketAt .accepted ticketId) = none
  leftReview : A.fileAt (ticketAt .review ticketId) = none
  keepsReports : ∀ executionId, ¬ A.Touches (reportAt ticketId executionId)
  later : A <:+ R
  unrelated : ∀ path, OfTicket ticketId path → Timeline.Untouched ControlFiles.blob path A R

/-- The site of the lookup where a commit is checked out. -/
def siteAt (head : ControlCommit) (executionRemoteHead : Except String (Option Text)) :
    EvidenceSite where
  head := head
  reports := (head.head?.map (·.reports)).getD ∅
  executionRemoteHead := executionRemoteHead

/-- At a commit there is exactly one report that was committed with the last change of the review
    file before `A` and that matches the branch of the execution. -/
def SoleEvidence [Sha256] (ticketId : String) (A : ControlCommit) (site : EvidenceSite) : Prop :=
  ∃ reports remoteHead review report, completedReports site ticketId = .ok reports
    ∧ site.executionRemoteHead = .ok remoteHead
    ∧ ControlCommit.lastTouching A.tail (ticketAt .review ticketId) = some review
    ∧ matchingReports ticketId A.tail review remoteHead reports = [report]

namespace AcceptedHistory

variable {ticketId : String} {V A R : ControlCommit}

theorem tail_ne_nil (h : AcceptedHistory ticketId V A R) : A.tail ≠ [] := by
  intro hnil
  have hpresent := h.reviewed _ h.admitted List.suffix_rfl
  rw [hnil] at hpresent
  cases hpresent

theorem parent_eq (h : AcceptedHistory ticketId V A R) : A.parent = some A.tail := by
  have hne := h.tail_ne_nil
  cases A with
  | nil => exact absurd rfl hne
  | cons files rest => exact Timeline.parent_cons hne

theorem touches_accepted (h : AcceptedHistory ticketId V A R) :
    A.Touches (ticketAt .accepted ticketId) := by
  intro heq
  have haccepted := h.accepted
  have hbefore := h.notAccepted
  unfold ControlCommit.fileAt at haccepted hbefore
  rw [heq, hbefore] at haccepted
  cases haccepted

theorem touches_review (h : AcceptedHistory ticketId V A R) :
    A.Touches (ticketAt .review ticketId) := by
  intro heq
  have hreviewed := h.reviewed _ h.admitted List.suffix_rfl
  have hleft := h.leftReview
  unfold ControlCommit.fileAt at hreviewed hleft
  rw [← heq, hleft] at hreviewed
  cases hreviewed

/-- At `R` the lookup finds `A`, and the last change of the review file before it. -/
theorem reviewAdmission_eq (h : AcceptedHistory ticketId V A R) :
    ∃ review, ControlCommit.lastTouching A.tail (ticketAt .review ticketId) = some review
      ∧ reviewAdmission ticketId R = .ok (A.tail, review) := by
  obtain ⟨review, hreview⟩ := Option.isSome_iff_exists.mp
    (Timeline.lastTouching_isSome (h.reviewed _ h.admitted List.suffix_rfl))
  refine ⟨review, hreview, ?_⟩
  have hlast : R.lastTouching (ticketAt .accepted ticketId) = some A :=
    (Timeline.lastTouching_of_untouched h.later (h.unrelated _ (.file _))).trans
      (Timeline.lastTouching_of_touches h.touches_accepted)
  unfold reviewAdmission acceptedRevision
  rw [hlast]
  simp only [orBlocked, bind, Except.bind, h.accepted, if_true, pure, Except.pure, h.parent_eq,
    hreview]

theorem ne_nil (h : AcceptedHistory ticketId V A R) : A ≠ [] := by
  rintro rfl
  exact h.tail_ne_nil rfl

theorem head_ne_nil (h : AcceptedHistory ticketId V A R) : R ≠ [] := by
  rintro rfl
  exact h.ne_nil (List.suffix_nil.mp h.later)

/-- The acceptance is before `R`, or it is `R`. -/
theorem before_or_eq (h : AcceptedHistory ticketId V A R) : R = A ∨ A <:+ R.tail := by
  have hlater := h.later
  cases R with
  | nil => exact absurd rfl h.head_ne_nil
  | cons files rest =>
    rcases List.suffix_cons_iff.mp hlater with heq | hbefore
    · exact .inl heq.symm
    · exact .inr hbefore

theorem parent_head (h : AcceptedHistory ticketId V A R) : R.parent = some R.tail := by
  have hne : R.tail ≠ [] := by
    rcases h.before_or_eq with rfl | hbefore
    · exact h.tail_ne_nil
    · intro hnil
      exact h.ne_nil (List.suffix_nil.mp (hnil ▸ hbefore))
  cases R with
  | nil => exact absurd rfl hne
  | cons files rest => exact Timeline.parent_cons hne

/-- At the integration commit the lookup steps back to `R`, whether `R` accepted the ticket or not. -/
theorem acceptedRevision_integrated (h : AcceptedHistory ticketId V A R) :
    acceptedRevision ticketId (integrationCommit ticketId R) = .ok R := by
  have haccepted : (R.fileAt (ticketAt .accepted ticketId)).isSome := by
    unfold ControlCommit.fileAt
    rw [Timeline.Untouched.fileAt_eq h.later (h.unrelated _ (.file _))]
    exact h.accepted
  have hnil := h.head_ne_nil
  cases R with
  | nil => exact absurd rfl hnil
  | cons files rest =>
    have hgone : ControlCommit.fileAt (integrationCommit ticketId (files :: rest))
        (ticketAt .accepted ticketId) = none := blob_moveToDone_accepted ticketId files
    have hlast : ControlCommit.lastTouching (integrationCommit ticketId (files :: rest))
        (ticketAt .accepted ticketId) = some (integrationCommit ticketId (files :: rest)) := by
      refine Timeline.lastTouching_of_touches fun heq => ?_
      unfold ControlCommit.fileAt at hgone haccepted
      rw [hgone] at heq
      change none = Timeline.fileAt ControlFiles.blob (files :: rest) _ at heq
      rw [← heq] at haccepted
      cases haccepted
    have hparent : ControlCommit.parent (integrationCommit ticketId (files :: rest))
        = some (files :: rest) := rfl
    unfold acceptedRevision
    rw [hlast]
    simp only [orBlocked, bind, Except.bind, hgone, hparent, Option.isSome_none,
      Bool.false_eq_true, if_false]

/-- So it takes the acceptance for the admission to review when anything came between. -/
theorem reviewAdmission_integrated (h : AcceptedHistory ticketId V A R) (hbefore : A <:+ R.tail) :
    reviewAdmission ticketId (integrationCommit ticketId R) = .ok (R.tail, A) := by
  have hreview : ControlCommit.lastTouching R.tail (ticketAt .review ticketId) = some A := by
    have huntouched : Timeline.Untouched ControlFiles.blob (ticketAt .review ticketId) A R.tail :=
      fun commit hbase hhead => h.unrelated _ (.file _) commit hbase (hhead.trans (List.tail_suffix R))
    exact (Timeline.lastTouching_of_untouched hbefore huntouched).trans
      (Timeline.lastTouching_of_touches h.touches_review)
  unfold reviewAdmission
  rw [h.acceptedRevision_integrated]
  simp only [orBlocked, bind, Except.bind, pure, Except.pure, h.parent_head, hreview]

theorem reviewAdmission_integrated_self (h : AcceptedHistory ticketId V A A) :
    reviewAdmission ticketId (integrationCommit ticketId A) = reviewAdmission ticketId A := by
  obtain ⟨review, hreview, heq⟩ := h.reviewAdmission_eq
  rw [heq]
  unfold reviewAdmission
  rw [h.acceptedRevision_integrated]
  simp only [orBlocked, bind, Except.bind, pure, Except.pure, h.parent_eq, hreview]

/-- The acceptance committed no report. -/
theorem matchingReports_acceptance (h : AcceptedHistory ticketId V A R) (parent : ControlCommit)
    (remoteHead : Option Text) (reports : List ExecutionReport) :
    matchingReports ticketId parent A remoteHead reports = [] := by
  have hnone : reports.filter (isAdmitted ticketId parent A) = [] := by
    rw [List.filter_eq_nil_iff]
    intro report _ hadmitted
    unfold isAdmitted at hadmitted
    rw [decide_eq_true_eq] at hadmitted
    exact h.keepsReports _ (Timeline.lastTouching_eq_some hadmitted).2
  unfold matchingReports
  rw [hnone]
  rfl

end AcceptedHistory

/-! ### Stability -/

theorem onlyMatch_of_ne {ticketId : String} {found : List ExecutionReport}
    (h : ∀ report, found ≠ [report]) : onlyMatch ticketId found = onlyMatch ticketId [] := by
  match found, h with
  | [], _ => rfl
  | [report], h => exact absurd rfl (h report)
  | _ :: _ :: _, _ => rfl

theorem onlyMatch_single_ne (ticketId : String) (report : ExecutionReport) :
    onlyMatch ticketId [report] ≠ onlyMatch ticketId [] := by
  unfold onlyMatch unlessBlocked
  dsimp only
  split
  · nofun
  · intro h
    -- the two messages differ in their tenth character
    have hmessage := IntegrationError.blocked.inj (Except.error.inj h)
    have hlist := congrArg String.toList hmessage
    simp only [String.toList_append] at hlist
    have htenth := congrArg (fun l => l.getD 9 'x') hlist
    revert htenth
    show 'e' = 't' → False
    decide

section Stability

variable [Sha256] {ticketId : String} {V A R : ControlCommit}
  {executionRemoteHead : Except String (Option Text)}

theorem completedReports_siteAt (head : ControlCommit) :
    completedReports (siteAt (integrationCommit ticketId head) executionRemoteHead) ticketId
      = completedReports (siteAt head executionRemoteHead) ticketId := by
  cases head <;> rfl

/-- What the lookup answers once the history has been read. -/
theorem acceptedExecutionReport_of_admission {site : EvidenceSite} {parent review : ControlCommit}
    (h : reviewAdmission ticketId site.head = .ok (parent, review)) :
    acceptedExecutionReport site ticketId
      = (completedReports site ticketId).bind fun reports =>
          (site.executionRemoteHead.mapError .failed).bind fun remoteHead =>
            onlyMatch ticketId (matchingReports ticketId parent review remoteHead reports) := by
  unfold acceptedExecutionReport
  rw [h]
  rfl

omit [Sha256] in
theorem ne_of_before (h : AcceptedHistory ticketId V A R) (hbefore : A <:+ R.tail) : R ≠ A := by
  rintro rfl
  refine Timeline.not_suffix_of_longer ?_ hbefore
  have hpos := List.length_pos_iff.mpr h.ne_nil
  simp only [List.length_tail]
  omega

/-- After a commit between the acceptance and `R`, the sole report is not found again. -/
theorem acceptedExecutionReport_unstable (h : AcceptedHistory ticketId V A R)
    (hbefore : A <:+ R.tail) (hsole : SoleEvidence ticketId A (siteAt R executionRemoteHead)) :
    acceptedExecutionReport (siteAt (integrationCommit ticketId R) executionRemoteHead) ticketId
      ≠ acceptedExecutionReport (siteAt R executionRemoteHead) ticketId := by
  obtain ⟨reports, remoteHead, review, report, hreports, hremote, hreview, hmatch⟩ := hsole
  obtain ⟨review', hreview', hat⟩ := h.reviewAdmission_eq
  cases hreview.symm.trans hreview'
  have hsame : (siteAt (integrationCommit ticketId R) executionRemoteHead).executionRemoteHead
      = .ok remoteHead := hremote
  rw [acceptedExecutionReport_of_admission (h.reviewAdmission_integrated hbefore),
    acceptedExecutionReport_of_admission hat, completedReports_siteAt, hreports, hremote, hsame]
  simp only [Except.bind, Except.mapError, h.matchingReports_acceptance, hmatch]
  exact (onlyMatch_single_ne ticketId report).symm

/-- Where there is no sole report, both lookups fail alike. -/
theorem acceptedExecutionReport_stable_of_not_sole (h : AcceptedHistory ticketId V A R)
    (hbefore : A <:+ R.tail) (hnone : ¬ SoleEvidence ticketId A (siteAt R executionRemoteHead)) :
    acceptedExecutionReport (siteAt (integrationCommit ticketId R) executionRemoteHead) ticketId
      = acceptedExecutionReport (siteAt R executionRemoteHead) ticketId := by
  obtain ⟨review, hreview, hat⟩ := h.reviewAdmission_eq
  have hsame : (siteAt (integrationCommit ticketId R) executionRemoteHead).executionRemoteHead
      = (siteAt R executionRemoteHead).executionRemoteHead := rfl
  rw [acceptedExecutionReport_of_admission (h.reviewAdmission_integrated hbefore),
    acceptedExecutionReport_of_admission hat, completedReports_siteAt, hsame]
  cases hreports : completedReports (siteAt R executionRemoteHead) ticketId with
  | error e => rfl
  | ok reports =>
    cases hremote : (siteAt R executionRemoteHead).executionRemoteHead with
    | error message => rfl
    | ok remoteHead =>
      simp only [Except.bind, Except.mapError, h.matchingReports_acceptance]
      refine (onlyMatch_of_ne fun report hmatch => hnone ?_).symm
      exact ⟨reports, remoteHead, review, report, hreports, hremote, hreview, hmatch⟩

/-- **Stability of the evidence.** The lookup answers the same at `R` and at the integration commit
    on top of it if and only if nothing was committed between the acceptance and `R`, or there is no
    sole report to find. -/
theorem acceptedExecutionReport_stable_iff (h : AcceptedHistory ticketId V A R) :
    acceptedExecutionReport (siteAt (integrationCommit ticketId R) executionRemoteHead) ticketId
        = acceptedExecutionReport (siteAt R executionRemoteHead) ticketId
      ↔ R = A ∨ ¬ SoleEvidence ticketId A (siteAt R executionRemoteHead) := by
  rcases h.before_or_eq with rfl | hbefore
  · obtain ⟨review, -, hat⟩ := h.reviewAdmission_eq
    refine ⟨fun _ => .inl rfl, fun _ => ?_⟩
    rw [acceptedExecutionReport_of_admission (h.reviewAdmission_integrated_self.trans hat),
      acceptedExecutionReport_of_admission hat, completedReports_siteAt]
    rfl
  · constructor
    · intro heq
      exact .inr fun hsole => acceptedExecutionReport_unstable h hbefore hsole heq
    · rintro (heq | hnone)
      · exact absurd heq (ne_of_before h hbefore)
      · exact acceptedExecutionReport_stable_of_not_sole h hbefore hnone

end Stability

/-! ### A ticket with a commit after its acceptance -/

/-- The line of a worker that has completed its ticket. -/
def deliveredLine : List UInt8 :=
  octets ("\x7b\"type\":\"tool_use\",\"part\":\x7b\"type\":\"tool\",\"tool\":\"devlegate_report\"," ++
    "\"state\":\x7b\"status\":\"completed\",\"input\":\x7b\"outcome\":\"completed\"," ++
    "\"summary\":\"done\",\"remaining\":[],\"questions\":[]\x7d\x7d\x7d\x7d\n")

/-- Its claim. -/
def deliveredClaim : WorkerClaim := ⟨.completed, text "done", [], [], none⟩

theorem accepted_deliveredClaim : Accepted deliveredClaim := by
  have hline : ((loads defaultLimits deliveredLine).toOption.map fun event =>
      (WorkerEgressParser.consumeAll {} [event]).finish)
        = some (some deliveredClaim, none) := by
    unfold deliveredLine
    rw [octets_append, octets_append, octets_ofList, octets_ofList, octets_ofList]
    decide +kernel
  obtain ⟨event, hload, hfinish⟩ := Option.map_eq_some_iff.mp hline
  refine ⟨[event], fun event' hevent => ?_, hfinish⟩
  rw [List.mem_singleton.mp hevent]
  exact ⟨deliveredLine, toOption_eq_some.mp hload⟩

/-- Its execution, from one product commit to another. -/
def deliveredIdentity (base head : String) : Identity where
  executionId := text "e1"
  ticketId := text "t1"
  codeBaseHead := text base
  controlHead := text "cccccccccccccccccccccccccccccccccccccccc"
  executionBranch := text "devlegate/work/t1"
  executionPath := text "/work/t1"
  workspaceHead := some (text head)

/-- How it ended. -/
def deliveredRun : RunResult where
  processReturncode := 0
  transportError := none
  claim := some deliveredClaim
  egressError := none

/-- Its report. -/
def deliveredReport [Sha256] (base head : String) : BuiltReport where
  identity := deliveredIdentity base head
  run := deliveredRun
  report := {
    toIdentity := deliveredIdentity base head
    result := {
      processReturncode := 0
      transportError := none
      egressError := none
      claim := some deliveredClaim
      conclusion := .completed
      questions := []
      remaining := []
      reason := text "valid worker claim" } }
  executionIdentifier := by
    show isIdentifier (text "e1") = true
    decide
  ticketIdentifier := by
    show isIdentifier (text "t1") = true
    decide
  own := by
    intro s hs
    simp only [deliveredIdentity, List.mem_cons, List.not_mem_nil, or_false] at hs
    rcases hs with rfl | rfl | rfl | rfl <;> exact unpaired_text _
  optional := by
    intro x hx s hs
    simp only [deliveredIdentity, deliveredRun, List.mem_cons, List.not_mem_nil, or_false] at hx
    rcases hx with rfl | rfl | rfl
    · cases hs
      exact unpaired_text _
    · cases hs
    · cases hs
  status := by decide
  accepted := by
    intro claim hclaim
    cases hclaim
    exact accepted_deliveredClaim
  built := by rfl

/-- Two product commits. -/
def deliveredBase : String := "aaaaaaaaaaaaaaaaaaaaaaaaaaaaaaaaaaaaaaaa"

def deliveredHead : String := "bbbbbbbbbbbbbbbbbbbbbbbbbbbbbbbbbbbbbbbb"

section Delivered

variable [Sha256] (base head : String)

/-- The octets of the report's file. -/
def deliveredRaw : List UInt8 :=
  match (deliveredReport base head).report.toJson defaultLimits with
  | .ok json => (Utf8.encode json).getD []
  | .error _ => []

/-- The files below `executions` once the report is committed. -/
def deliveredFiles : Files :=
  ((ReportStore.emptyStore.insert .root .directory).insert (.ticket (text "t1")) .directory).insert
    (.entry (text "t1") (.report (text "e1"))) (.file (deliveredRaw base head))

theorem isJson_deliveredRaw :
    ReportStore.IsJson (deliveredReport base head) (deliveredRaw base head) := by
  obtain ⟨json, hjson, hplain, -, -⟩ := (deliveredReport base head).exists_toJson
  obtain ⟨raw, hraw⟩ := Option.isSome_iff_exists.mp (Utf8.encode_isSome.mpr hplain)
  refine ⟨json, hjson, ?_⟩
  unfold deliveredRaw
  rw [hjson]
  simp [hraw]

theorem tidy_deliveredFiles : ReportStore.Tidy (deliveredFiles base head) := by
  have hplaces := (ReportStore.tidy_emptyStore.insert .root).insert (.ticket (text "t1"))
  intro location node hplace hnode
  refine hplaces location node hplace ?_
  have hne : location ≠ .entry (text "t1") (.report (text "e1")) := by
    rintro rfl
    cases hplace
  unfold deliveredFiles at hnode
  rwa [AList.lookup_insert_ne hne] at hnode

theorem written_deliveredFiles :
    ReportStore.Written (deliveredReport base head) (deliveredFiles base head) where
  root := rfl
  ticket := rfl
  artifact := by
    intro long hlong
    cases hlong
  json := ⟨_, isJson_deliveredRaw base head, rfl⟩

theorem completedReports_delivered {site : EvidenceSite}
    (hreports : site.reports = deliveredFiles base head) :
    completedReports site "t1" = .ok [(deliveredReport base head).report] := by
  have hstems : ReportStore.reportStems (deliveredFiles base head) (text "t1") = [text "e1"] := by
    unfold ReportStore.reportStems
    exact List.mergeSort_singleton _
  have hlist : ReportStore.list site.reports (some (text "t1"))
      = .ok [(deliveredReport base head).report] := by
    rw [hreports]
    exact ReportStore.list_of_single (tidy_deliveredFiles base head)
      (written_deliveredFiles base head) (fun _ hlong => by cases hlong) hstems
  have hplace : ∀ p, site.reports.test (.ticket (text "t1")) p = p .directory := by
    rw [hreports]
    exact (written_deliveredFiles base head).test_ticket
  unfold completedReports unlessBlocked
  rw [hplace, hplace, hlist]
  rfl

/-- The ticket file. -/
def deliveredTicket : DirectoryEntry := ⟨"t1.md", some "---\ntype: devlegate.ticket\ntitle: t\n---\nbody\n"⟩

/-- The commits of the ticket: planned, admitted to review, accepted. -/
def plannedCommit : ControlCommit := [⟨[(.todo, deliveredTicket)], ReportStore.emptyStore⟩]

def reviewCommit : ControlCommit :=
  ⟨[(.review, deliveredTicket)], deliveredFiles base head⟩ :: plannedCommit

def acceptedCommit : ControlCommit :=
  ⟨[(.accepted, deliveredTicket)], deliveredFiles base head⟩ :: reviewCommit base head

/-- A commit that adds another ticket. -/
def unrelatedCommit : ControlCommit :=
  ⟨[(.accepted, deliveredTicket), (.backlog, ⟨"t2.md", some "---\ntype: devlegate.ticket\ntitle: u\n---\nbody\n"⟩)],
    deliveredFiles base head⟩ :: acceptedCommit base head

/-- Such a history, up to a commit that leaves the ticket alone. -/
theorem acceptedHistory_delivered {R : ControlCommit} (hlater : acceptedCommit base head <:+ R)
    (hunrelated : ∀ path, OfTicket "t1" path →
      Timeline.Untouched ControlFiles.blob path (acceptedCommit base head) R) :
    AcceptedHistory "t1" (reviewCommit base head) (acceptedCommit base head) R where
  admission := by
    intro heq
    cases heq
  admitted := List.suffix_rfl
  reviewed := by
    intro commit hafter hbefore
    rw [List.IsSuffix.eq_of_length hbefore (Nat.le_antisymm hbefore.length_le hafter.length_le)]
    rfl
  accepted := rfl
  notAccepted := rfl
  leftReview := rfl
  keepsReports := fun executionId htouches => htouches rfl
  later := hlater
  unrelated := hunrelated

theorem acceptedHistory_self :
    AcceptedHistory "t1" (reviewCommit base head) (acceptedCommit base head)
      (acceptedCommit base head) := by
  refine acceptedHistory_delivered base head List.suffix_rfl fun path _ commit hbase hhead hne => ?_
  exact absurd (hhead.eq_of_length (Nat.le_antisymm hhead.length_le hbase.length_le)) hne

theorem acceptedHistory_unrelated :
    AcceptedHistory "t1" (reviewCommit base head) (acceptedCommit base head)
      (unrelatedCommit base head) := by
  refine acceptedHistory_delivered base head (List.suffix_cons _ _)
    fun path hpath commit hbase hhead hne htouches => ?_
  rcases List.suffix_cons_iff.mp hhead with rfl | hbefore
  · cases hpath with
    | file state => cases state <;> exact htouches rfl
    | report executionId => exact htouches rfl
  · exact hne (hbefore.eq_of_length (Nat.le_antisymm hbefore.length_le hbase.length_le))

/-- The report matches where its branch is at its head, and where the branch is retired and the
    execution has not changed the product. -/
theorem matchingReports_delivered {remoteHead : Option Text}
    (hremote : remoteHead = some (text head) ∨ (remoteHead = none ∧ base = head)) :
    matchingReports "t1" (reviewCommit base head) (reviewCommit base head) remoteHead
      [(deliveredReport base head).report] = [(deliveredReport base head).report] := by
  have hadmitted : isAdmitted "t1" (reviewCommit base head) (reviewCommit base head)
      (deliveredReport base head).report = true := by
    unfold isAdmitted
    rw [decide_eq_true_eq]
    exact Timeline.lastTouching_of_touches (by intro heq; cases heq)
  have hbranch : (text "devlegate/work/t1" == text (executionBranchOf "t1")) = true := by rfl
  have hpublished : isPublished "t1" remoteHead (deliveredReport base head).report = true := by
    show (text "devlegate/work/t1" == text (executionBranchOf "t1")
      && (remoteHead == some (text head) || (remoteHead == none && text head == text base))) = true
    rw [hbranch, Bool.true_and]
    rcases hremote with rfl | ⟨rfl, rfl⟩
    · rw [beq_self_eq_true, Bool.true_or]
    · rw [beq_self_eq_true, beq_self_eq_true, Bool.and_true, Bool.or_true]
  unfold matchingReports
  rw [List.filter_cons_of_pos hadmitted, List.filter_nil, List.filter_cons_of_pos hpublished,
    List.filter_nil]

theorem lastTouching_delivered :
    (reviewCommit base head).lastTouching (ticketAt .review "t1") = some (reviewCommit base head) :=
  Timeline.lastTouching_of_touches (by intro heq; cases heq)

/-- The report is the sole evidence where the branch of the execution is at its head. -/
theorem soleEvidence_delivered {site : EvidenceSite}
    (hreports : site.reports = deliveredFiles base head)
    (hremote : site.executionRemoteHead = .ok (some (text head))) :
    SoleEvidence "t1" (acceptedCommit base head) site :=
  ⟨_, _, reviewCommit base head, (deliveredReport base head).report,
    completedReports_delivered base head hreports, hremote, lastTouching_delivered base head,
    matchingReports_delivered base head (.inl rfl)⟩

/-- The lookup finds the report at the acceptance and at the integration commit on top of it. -/
theorem acceptedExecutionReport_delivered {site : EvidenceSite} {remoteHead : Option Text}
    (hhead : site.head = acceptedCommit base head
      ∨ site.head = integrationCommit "t1" (acceptedCommit base head))
    (hreports : site.reports = deliveredFiles base head)
    (hsite : site.executionRemoteHead = .ok remoteHead)
    (hremote : remoteHead = some (text head) ∨ (remoteHead = none ∧ base = head))
    (hnames : isCommitName (text base) = true ∧ isCommitName (text head) = true) :
    acceptedExecutionReport site "t1" = .ok (deliveredReport base head).report := by
  have hadmission : reviewAdmission "t1" site.head
      = .ok (reviewCommit base head, reviewCommit base head) := by
    obtain ⟨review, hreview, hat⟩ := (acceptedHistory_self base head).reviewAdmission_eq
    cases hreview.symm.trans (lastTouching_delivered base head)
    rcases hhead with heq | heq
    · rw [heq]
      exact hat
    · rw [heq, (acceptedHistory_self base head).reviewAdmission_integrated_self]
      exact hat
  rw [acceptedExecutionReport_of_admission hadmission, completedReports_delivered base head hreports,
    hsite]
  simp only [Except.bind, Except.mapError]
  rw [matchingReports_delivered base head hremote]
  have hvalid : ((deliveredReport base head).report.workspaceHead.any isCommitName
      && isCommitName (deliveredReport base head).report.codeBaseHead
      && isCommitName (deliveredReport base head).report.controlHead) = true := by
    show (isCommitName (text head) && isCommitName (text base)
      && isCommitName (text "cccccccccccccccccccccccccccccccccccccccc")) = true
    rw [hnames.1, hnames.2]
    decide
  unfold onlyMatch unlessBlocked
  dsimp only
  rw [if_pos hvalid]
  rfl

end Delivered

/-- With nothing in between, the lookup answers the same. -/
theorem acceptedExecutionReport_stable_sample :
    letI : Sha256 := ⟨fun _ => ""⟩
    acceptedExecutionReport (siteAt (integrationCommit "t1" (acceptedCommit deliveredBase deliveredHead))
        (.ok (some (text deliveredHead)))) "t1"
      = acceptedExecutionReport (siteAt (acceptedCommit deliveredBase deliveredHead) (.ok (some (text deliveredHead))))
          "t1" := by
  let _ : Sha256 := ⟨fun _ => ""⟩
  exact (acceptedExecutionReport_stable_iff (acceptedHistory_self deliveredBase deliveredHead)).mpr (.inl rfl)

/-- After an unrelated commit it does not. -/
theorem acceptedExecutionReport_not_stable :
    letI : Sha256 := ⟨fun _ => ""⟩
    ¬ ∀ (ticketId : String) (V A R : ControlCommit) (remoteHead : Except String (Option Text)),
      AcceptedHistory ticketId V A R →
        acceptedExecutionReport (siteAt (integrationCommit ticketId R) remoteHead) ticketId
          = acceptedExecutionReport (siteAt R remoteHead) ticketId := by
  let _ : Sha256 := ⟨fun _ => ""⟩
  intro h
  exact acceptedExecutionReport_unstable (acceptedHistory_unrelated deliveredBase deliveredHead) List.suffix_rfl
    (soleEvidence_delivered deliveredBase deliveredHead rfl rfl)
    (h "t1" _ _ _ (.ok (some (text deliveredHead))) (acceptedHistory_unrelated deliveredBase deliveredHead))

end Wire


end Devlegate
