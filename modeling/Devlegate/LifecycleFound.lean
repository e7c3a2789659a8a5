import Devlegate.LifecycleReplay
import Devlegate.StatusWire

namespace Devlegate

open JsonText Crash

namespace Wire

/-!
# Finding a lifecycle again

`_remote_lifecycle_commit` looks for the lifecycle commit of a report among those of the control
branch.  It finds what `_apply_lifecycle_once` commits, unless the long report was there before or
has a carriage return: what Git prints is read with universal newlines.

* `Committed`: what a lifecycle commit has done to the tree of its parent.
* `committed_of_runs`: `commitLifecycle` makes such a commit.
* `Findable`: what the long report has to be like.
* `published_lifecycle_found_iff`: the commit is found exactly then.
* `unfound_lifecycle_blocks`: otherwise no application returns once the commit is on the remote.
-/

open ReportStore (jsonAt artifactAt Accepts ArtifactFits FreshNames visible withArtifact SameVisible
  IsJson)

/-! ### The long report -/

section Artifact

variable [Sha256] {r : BuiltReport} {reports : Files} {location : Location} {long : Text}

theorem artifactAt_ne_jsonAt (r : BuiltReport) : artifactAt r ≠ jsonAt r := by
  intro h
  cases h

theorem withArtifact_of_none (h : longReport r.report.result.claim = none) :
    withArtifact r reports = reports := by
  unfold withArtifact
  rw [h]

/-- The long report is the only file that is added. -/
theorem visible_withArtifact (hne : location ≠ artifactAt r) :
    visible (withArtifact r reports) location = visible reports location := by
  unfold withArtifact
  split
  · unfold visible
    rw [AList.lookup_insert_ne hne]
  · rfl

/-- The long report is added, or it was there. -/
theorem visible_artifactAt (hfits : ArtifactFits r reports)
    (hlong : longReport r.report.result.claim = some long) :
    (visible reports (artifactAt r) = none ∧ ∃ raw, Utf8.encode long = some raw
        ∧ visible (withArtifact r reports) (artifactAt r) = some (.file raw))
      ∨ (visible reports (artifactAt r)).isSome ∧ withArtifact r reports = reports := by
  unfold visible withArtifact
  rw [hlong]
  cases hnode : reports.lookup (artifactAt r) with
  | none =>
    obtain ⟨raw, hraw⟩ := ReportStore.exists_encode hlong
    refine .inl ⟨rfl, raw, hraw, ?_⟩
    dsimp only
    rw [AList.lookup_insert, hraw]
    rfl
  | some node =>
    have hsame := (hfits long hlong).resolve_left (by rw [hnode]; exact Option.some_ne_none node)
    unfold ReportStore.compareArtifact ReportStore.readText Files.test at hsame
    rw [hnode] at hsame
    refine .inr ⟨?_, rfl⟩
    cases node with
    | file raw => rfl
    | _ => cases hsame

end Artifact

/-! ### The lines of a commit -/

section Lines

theorem nameStatus_self (x : Option Tracked) : nameStatus x x = none := if_pos rfl

theorem nameStatus_added {x y : Option Tracked} (hx : x = none) (hy : y.isSome) :
    nameStatus x y = some .added := by
  subst hx
  cases y with
  | none => cases hy
  | some y => rfl

theorem nameStatus_deleted {x y : Option Tracked} (hx : x.isSome) (hy : y = none) :
    nameStatus x y = some .deleted := by
  subst hy
  cases x with
  | none => cases hx
  | some x => rfl

end Lines

/-! ### What is committed -/

section Committed

variable [Sha256] {c : Replay} {before before' after : ControlFiles}

/-- The paths of a lifecycle commit, as they are before and after it. -/
structure Committed (c : Replay) (before after : ControlFiles) : Prop where
  jsonFree : before.blob c.json = none
  json : ∃ raw, IsJson c.built raw ∧ after.blob c.json = some (.report (.file raw))
  /-- The long report was written, or it was there. -/
  artifact : ∀ long, longReport c.report.result.claim = some long →
    (before.blob c.artifact = none ∧ ∃ raw, Utf8.encode long = some raw
        ∧ after.blob c.artifact = some (.report (.file raw)))
      ∨ (before.blob c.artifact).isSome ∧ after.blob c.artifact = before.blob c.artifact
  tickets : c.moves = true → MovesFile (c.ticketId ++ ".md") .todo .review before.blob after.blob
  stays : c.moves = false → ∀ state name,
    after.blob (.ticket state name) = before.blob (.ticket state name)
  others : ∀ location, location ≠ jsonAt c.built →
    (longReport c.report.result.claim = none ∨ location ≠ artifactAt c.built) →
    after.blob (.report location) = before.blob (.report location)

theorem Committed.congr (h : Committed c before after)
    (hsame : ∀ path, before'.blob path = before.blob path) : Committed c before' after := by
  have heq : before'.blob = before.blob := funext hsame
  exact ⟨heq ▸ h.jsonFree, h.json, heq ▸ h.artifact, heq ▸ h.tickets, heq ▸ h.stays,
    heq ▸ h.others⟩

/-- The long report, if there is one, is new below `executions`, and the ends of its lines are those
    that reading keeps. -/
def Findable (c : Replay) (parent : ControlCommit) : Prop :=
  ∀ long, longReport c.report.result.claim = some long →
    parent.fileAt c.artifact = none ∧ codePoint '\r' ∉ long

theorem reportArtifact_isSome (c : Replay) :
    c.report.reportArtifact.isSome = (longReport c.report.result.claim).isSome := by
  rw [show c.report.reportArtifact = _ from c.built.consistent.artifact, Option.isSome_map]
  rfl

theorem json_ne_artifact (c : Replay) : c.json ≠ c.artifact := by
  intro h
  cases h

/-- The lines of `diff-tree` are those of a lifecycle commit exactly when the long report is new. -/
theorem Committed.changesExpected_iff (h : Committed c before after) :
    c.changesExpected before after = true ↔ ∀ long,
      longReport c.report.result.claim = some long → before.blob c.artifact = none := by
  unfold Replay.changesExpected
  rw [List.all_eq_true]
  constructor
  · -- an artifact that was there is no added line
    intro hall long hlong
    have hat := of_decide_eq_true (hall c.artifact (List.mem_append_right _ (by simp)))
    have hexpected : c.expectedStatus c.artifact = some .added := by
      unfold Replay.expectedStatus
      have hhas : c.report.reportArtifact.isSome = true := by
        rw [reportArtifact_isSome, hlong]
        rfl
      rw [if_neg (json_ne_artifact c).symm, if_pos ⟨hhas, rfl⟩]
    rcases h.artifact long hlong with ⟨hfree, -⟩ | ⟨-, hsame⟩
    · exact hfree
    · rw [hsame, nameStatus_self, hexpected] at hat
      cases hat
  · -- path by path: the report, its artifact, the two places of the ticket, and the rest
    intro hnew path _
    refine decide_eq_true ?_
    unfold Replay.expectedStatus
    by_cases hjson : path = c.json
    · obtain ⟨raw, -, hafter⟩ := h.json
      rw [if_pos hjson, hjson]
      exact nameStatus_added h.jsonFree (by rw [hafter]; rfl)
    rw [if_neg hjson]
    by_cases hartifact : path = c.artifact
    · subst hartifact
      cases hlong : longReport c.report.result.claim with
      | some long =>
        rw [if_pos ⟨by rw [reportArtifact_isSome, hlong]; rfl, rfl⟩]
        rcases h.artifact long hlong with ⟨hfree, raw, -, hafter⟩ | ⟨hthere, -⟩
        · exact nameStatus_added hfree (by rw [hafter]; rfl)
        · rw [hnew long hlong] at hthere
          cases hthere
      | none =>
        have hnot : ¬ (c.report.reportArtifact.isSome = true ∧ c.artifact = c.artifact) := by
          rw [reportArtifact_isSome, hlong]
          exact fun hboth => Bool.false_ne_true hboth.1
        have hticket : ∀ state, c.artifact ≠ ticketAt state c.ticketId := by
          intro state heq
          cases heq
        rw [if_neg hnot, if_neg fun hboth => hticket _ hboth.2,
          if_neg fun hboth => hticket _ hboth.2]
        rw [show after.blob c.artifact = before.blob c.artifact from h.others _ (by
          intro heq
          exact json_ne_artifact c (congrArg ControlPath.report heq.symm)) (.inl hlong)]
        exact nameStatus_self _
    rw [if_neg fun hboth => hartifact hboth.2]
    cases hmoves : c.moves with
    | false =>
      rw [if_neg fun hboth => Bool.false_ne_true hboth.1,
        if_neg fun hboth => Bool.false_ne_true hboth.1]
      have hsame : after.blob path = before.blob path := by
        cases path with
        | ticket state name => exact h.stays hmoves state name
        | report location =>
          exact h.others location (fun heq => hjson (congrArg _ heq))
            (.inr fun heq => hartifact (congrArg _ heq))
      rw [hsame]
      exact nameStatus_self _
    | true =>
      have hmove := h.tickets hmoves
      by_cases htodo : path = ticketAt .todo c.ticketId
      · rw [if_pos ⟨rfl, htodo⟩, htodo]
        exact nameStatus_deleted hmove.present hmove.gone
      rw [if_neg fun hboth => htodo hboth.2]
      by_cases hreview : path = ticketAt .review c.ticketId
      · rw [if_pos ⟨rfl, hreview⟩, hreview]
        refine nameStatus_added hmove.free ?_
        show (after.blob (.ticket .review (c.ticketId ++ ".md"))).isSome = true
        rw [hmove.same]
        exact hmove.present
      rw [if_neg fun hboth => hreview hboth.2]
      have hsame : after.blob path = before.blob path := by
        cases path with
        | ticket state name =>
          refine hmove.others state name ?_
          rintro ⟨rfl, rfl | rfl⟩
          · exact htodo rfl
          · exact hreview rfl
        | report location =>
          exact h.others location (fun heq => hjson (congrArg _ heq))
            (.inr fun heq => hartifact (congrArg _ heq))
      rw [hsame]
      exact nameStatus_self _

/-- The report that was committed is read back. -/
theorem Committed.isReportAt (h : Committed c before after) (rest : ControlCommit) :
    c.isReportAt (after :: rest) = .ok true ∧ c.jsonFits (after :: rest) = .ok true := by
  obtain ⟨raw, ⟨json, hjson, hencode⟩, hafter⟩ := h.json
  obtain ⟨json', hjson', -, htranslate, payload, hparse, hdict⟩ := c.built.exists_toJson
  rw [hjson'] at hjson
  cases hjson
  have hshown : Replay.shown (after :: rest) c.json = .ok (some json) := by
    unfold Replay.shown
    rw [show ControlCommit.fileAt (after :: rest) c.json = some (.report (.file raw)) from hafter]
    simp only [Utf8.decode_encode hencode, htranslate]
  constructor
  · unfold Replay.isReportAt
    rw [hshown]
    simp only [bind, Except.bind, hparse, hdict, pure, Except.pure, Replay.report]
    exact congrArg Except.ok (decide_eq_true trivial)
  · unfold Replay.jsonFits
    rw [hshown]
    simp only [bind, Except.bind, Replay.report, hjson', pure, Except.pure]
    exact congrArg Except.ok (decide_eq_true trivial)

/-- The long report that was committed is read back exactly when its lines keep their ends. -/
theorem Committed.artifactFits (h : Committed c before after) (rest : ControlCommit)
    (hnew : ∀ long, longReport c.report.result.claim = some long →
      before.blob c.artifact = none) :
    ∃ fits, c.artifactFits (after :: rest) = .ok fits ∧ (fits = true ↔ ∀ long,
      longReport c.report.result.claim = some long → codePoint '\r' ∉ long) := by
  unfold Replay.artifactFits
  rw [reportArtifact_isSome]
  cases hlong : longReport c.report.result.claim with
  | none =>
    refine ⟨true, rfl, iff_of_true rfl fun long h => ?_⟩
    cases h
  | some long =>
    rcases h.artifact long hlong with ⟨-, raw, hencode, hafter⟩ | ⟨hthere, -⟩
    swap
    · rw [hnew long hlong] at hthere
      cases hthere
    have hshown : Replay.shown (after :: rest) c.artifact
        = .ok (some (translateNewlines long)) := by
      unfold Replay.shown
      rw [show ControlCommit.fileAt (after :: rest) c.artifact = some (.report (.file raw))
        from hafter]
      simp only [Utf8.decode_encode hencode]
    have hclaim : c.report.result.claim.isSome = true := by
      cases hcase : c.report.result.claim with
      | none =>
        rw [hcase] at hlong
        cases hlong
      | some claim => rfl
    rw [if_pos Option.isSome_some, hshown]
    refine ⟨_, rfl, ?_⟩
    rw [decide_eq_true_iff, hclaim]
    constructor
    · rintro ⟨-, -, hsame⟩ other hother
      cases hother
      exact translateNewlines_eq_iff.mp (Option.some.inj hsame)
    · intro hall
      exact ⟨rfl, rfl, congrArg some (translateNewlines_eq_iff.mpr (hall long rfl))⟩

theorem Committed.ticketFits (h : Committed c before after) : c.ticketFits before after = true := by
  unfold Replay.ticketFits
  cases hmoves : c.moves with
  | false => rfl
  | true =>
    have hmove := h.tickets hmoves
    have hsame : after.blob (ticketAt .review c.ticketId)
        = before.blob (ticketAt .todo c.ticketId) := hmove.same
    have hpresent : (before.blob (ticketAt .todo c.ticketId)).isSome = true := hmove.present
    rw [hsame, hpresent, decide_eq_true rfl]
    rfl

/-- A lifecycle commit is exact when its long report is findable. -/
theorem Committed.isExactLifecycle (h : Committed c before after) {rest : ControlCommit}
    (hadmitted : c.admitted <:+ before :: rest) :
    ∃ found, c.isExactLifecycle (after :: before :: rest) = .ok found
      ∧ (found = true ↔ Findable c (before :: rest)) := by
  obtain ⟨hreport, hjson⟩ := h.isReportAt (before :: rest)
  unfold Replay.isExactLifecycle
  simp only [hadmitted, not_true_eq_false, if_false, hreport, hjson, bind, Except.bind, pure,
    Except.pure, Bool.not_true, Bool.false_eq_true]
  cases hchanges : c.changesExpected before after with
  | false =>
    refine ⟨false, rfl, iff_of_false Bool.false_ne_true fun hfindable => ?_⟩
    have htrue := h.changesExpected_iff.mpr fun long hlong => (hfindable long hlong).1
    exact Bool.false_ne_true (hchanges.symm.trans htrue)
  | true =>
    have hnew := h.changesExpected_iff.mp hchanges
    obtain ⟨fits, hfits, hends⟩ := h.artifactFits (before :: rest) hnew
    have hfindable : Findable c (before :: rest) ↔ fits = true :=
      ⟨fun hall => hends.mpr fun long hlong => (hall long hlong).2,
        fun htrue long hlong => ⟨hnew long hlong, hends.mp htrue long hlong⟩⟩
    simp only [Bool.not_true, Bool.false_eq_true, if_false, h.ticketFits, hfits, hfindable]
    cases fits with
    | true => exact ⟨true, rfl, Iff.rfl⟩
    | false => exact ⟨false, rfl, Iff.rfl⟩

/-- A lifecycle commit is the newest of the report. -/
theorem Committed.reportCommits (h : Committed c before after) {rest : ControlCommit} :
    c.reportCommits (after :: before :: rest)
      = (after :: before :: rest) :: c.reportCommits (before :: rest) := by
  obtain ⟨raw, -, hafter⟩ := h.json
  refine Timeline.log_cons_of_touches fun heq => ?_
  exact Option.some_ne_none _ (hafter.symm.trans (heq.trans h.jsonFree))

/-- A lifecycle commit with a findable report is found. -/
theorem Committed.remoteLifecycleCommit (h : Committed c before after) {rest : ControlCommit}
    (hadmitted : c.admitted <:+ before :: rest)
    (hfindable : Findable c (before :: rest)) :
    c.isExactLifecycle (after :: before :: rest) = .ok true ∧
      c.remoteLifecycleCommit (after :: before :: rest) = .ok (some (after :: before :: rest)) := by
  obtain ⟨found, hexact, hfound⟩ := h.isExactLifecycle hadmitted
  rw [hfound.mpr hfindable] at hexact
  refine ⟨hexact, ?_⟩
  unfold Replay.remoteLifecycleCommit
  rw [h.reportCommits, Replay.firstExact, hexact]
  rfl

/-- Without a commit of the report, the report is not there. -/
theorem fileAt_of_reportCommits {history : ControlCommit} (h : c.reportCommits history = []) :
    history.fileAt c.json = none := by
  induction history with
  | nil => rfl
  | cons files rest ih =>
    unfold Replay.reportCommits Timeline.log at h
    split at h
    · cases h
    · rename_i hsame
      exact (not_not.mp hsame).trans (ih h)

/-- A commit of the report is one of the history. -/
theorem suffix_of_mem_reportCommits {head commit : ControlCommit}
    (h : commit ∈ c.reportCommits head) : commit <:+ head := by
  induction head with
  | nil => cases h
  | cons files rest ih =>
    unfold Replay.reportCommits Timeline.log at h
    split at h
    · rcases List.mem_cons.mp h with rfl | hrest
      · exact List.suffix_rfl
      · exact (ih hrest).trans (List.suffix_cons _ _)
    · exact (ih h).trans (List.suffix_cons _ _)

end Committed

/-! ### What is found -/

section Found

theorem admitted_id {store : TicketStore} {ticketId : Text} {moves : Bool} {ticket : Ticket}
    (h : admitted store ticketId moves = .ok ticket) : text ticket.id = ticketId := by
  unfold admitted todoTicket at h
  split at h
  · cases h
  · rename_i found hfound
    split at h
    · cases h
    · cases h
      have hid := List.find?_some (Option.filter_eq_some_iff.mp hfound).1
      exact of_decide_eq_true hid

variable [NanoYaml] [Sha256] {c : Replay} {turn : Turn} {s t : ReplaySite} {head : ControlCommit}

/-- What the write and the rename leave is what is committed. -/
theorem committed_of_write {store : TicketStore} {ticket : Ticket} {reports : Files}
    {raw : List UInt8} (hstore : turn.site.loadStore s.files.tree.workflow = .ok store)
    (hticket : admitted store c.report.ticketId c.moves = .ok ticket)
    (haccepts : Accepts c.built s.files.reports) (hjson : IsJson c.built raw)
    (hshown : SameVisible
      ((withArtifact c.built s.files.reports).insert (jsonAt c.built) (.file raw)) reports) :
    Committed c s.files (resultingFiles ticket c.moves { s.files with reports := reports }) := by
  obtain ⟨hload, hdirectories⟩ := loadStore_eq_ok hstore
  obtain ⟨hmem, hstate, -⟩ := admitted_eq_ok hticket
  -- below `executions` the commit has what the write left, whether or not the ticket moves
  have hafter : ∀ location, (resultingFiles ticket c.moves
      { s.files with reports := reports }).blob (.report location)
        = (visible ((withArtifact c.built s.files.reports).insert (jsonAt c.built) (.file raw))
          location).map .report := by
    intro location
    rw [← congrFun hshown location]
    unfold resultingFiles
    cases c.moves <;> rfl
  have hother : ∀ location, location ≠ jsonAt c.built → (resultingFiles ticket c.moves
      { s.files with reports := reports }).blob (.report location)
        = (visible (withArtifact c.built s.files.reports) location).map .report := by
    intro location hne
    rw [hafter]
    unfold visible
    rw [AList.lookup_insert_ne hne]
  have hbefore : ∀ location, s.files.blob (.report location)
      = (visible s.files.reports location).map .report := fun _ => rfl
  constructor
  · exact blob_json_of_accepts haccepts
  · refine ⟨raw, hjson, (hafter (jsonAt c.built)).trans ?_⟩
    rw [← congrFun hshown, visible_jsonAt hshown]
    rfl
  · intro long hlong
    have hartifact := hother _ (artifactAt_ne_jsonAt c.built)
    rcases visible_artifactAt haccepts.artifact hlong with ⟨hfree, bytes, hbytes, hwritten⟩ | h
    · refine .inl ⟨(hbefore (artifactAt c.built)).trans ?_, bytes, hbytes, hartifact.trans ?_⟩
      · rw [hfree]
        rfl
      · rw [hwritten]
        rfl
    · refine .inr ⟨?_, hartifact.trans (by rw [h.2]; rfl)⟩
      exact (congrArg Option.isSome (hbefore (artifactAt c.built))).trans
        (Option.isSome_map.trans h.1)
  · intro hmoves
    obtain ⟨others, hreview⟩ := hdirectories .review
    have hne : ticket.state ≠ .review := by
      rw [hstate]
      decide
    obtain ⟨-, hmove, -⟩ := renameTicket_loaded hload hmem hne hreview s.files.reports reports
    have htree : (resultingFiles ticket c.moves { s.files with reports := reports }).tree
        = ⟨renameTicket (ticketFile ticket) .todo .review s.files.tree.workflow, reports⟩ := by
      rw [← moveToReview_eq]
      have hworkflow := tree_resultingFiles ticket c.moves { s.files with reports := reports }
      rw [hmoves] at hworkflow ⊢
      exact congrArg (ControlTree.mk · reports) hworkflow
    have hname : ticketFile ticket = c.ticketId ++ ".md" :=
      congrArg (· ++ ".md") (StatusWire.text_injective ((admitted_id hticket).trans c.ticket_id))
    rw [hstate] at hmove
    unfold ControlFiles.blob
    rw [htree, ← hname]
    exact hmove
  · intro hmoves state name
    rw [hmoves]
    rfl
  · intro location hjsonAt hartifactAt
    rw [hother location hjsonAt, hbefore]
    rcases hartifactAt with hclaim | hne
    · rw [withArtifact_of_none hclaim]
    · rw [visible_withArtifact hne]

/-- What `_apply_lifecycle_once` commits. -/
theorem committed_of_runs
    (hfresh : FreshNames c.built (turn.names s.files.reports) s.files.reports)
    (h : Runs (commitLifecycle c turn) s head t) :
    ∃ after, head = after :: s.control ∧ Committed c s.files after := by
  obtain ⟨ticket, reports, name, hcommitable, hhead, -⟩ := runs_commitLifecycle.mp h
  obtain ⟨store, hstore, hticket⟩ := hcommitable.loads
  obtain ⟨path, hwritten⟩ := hcommitable.writes
  obtain ⟨-, hcases⟩ := ReportStore.sat_write_cases hfresh
  have hresult : (ReportStore.write c.built.report (turn.names s.files.reports)
      s.files.reports).result = .ok path := hwritten.1
  have hlast : (ReportStore.write c.built.report (turn.names s.files.reports)
      s.files.reports).last s.files.reports = reports := hwritten.2
  rw [hresult, hlast] at hcases
  obtain ⟨haccepts, raw, hjson, hshown⟩ := hcases
  exact ⟨_, hhead, committed_of_write hstore hticket haccepts hjson hshown⟩

/-- The lifecycle commit is the first that is looked at. -/
theorem remoteLifecycleCommit_of_runs (hclean : s.isClean = true)
    (hadmitted : c.admitted <:+ s.control)
    (hfresh : FreshNames c.built (turn.names s.files.reports) s.files.reports)
    (h : Runs (commitLifecycle c turn) s head t) :
    (head.fileAt c.json).isSome = true
      ∧ (Findable c s.control → c.remoteLifecycleCommit head = .ok (some head))
      ∧ (¬ Findable c s.control →
        c.remoteLifecycleCommit head = c.remoteLifecycleCommit s.control) := by
  obtain ⟨after, rfl, hmade⟩ := committed_of_runs hfresh h
  have hsame := fileAt_of_isClean hclean
  cases hcontrol : s.control with
  | nil =>
    unfold ReplaySite.isClean at hclean
    rw [hcontrol] at hclean
    cases hclean
  | cons before rest =>
    rw [hcontrol] at hsame hadmitted
    have hcommitted : Committed c before after := hmade.congr hsame
    obtain ⟨raw, -, hafter⟩ := hcommitted.json
    obtain ⟨found, hexact, hfindable⟩ := hcommitted.isExactLifecycle hadmitted
    refine ⟨congrArg Option.isSome hafter, ?_⟩
    rw [← hfindable]
    unfold Replay.remoteLifecycleCommit
    rw [hcommitted.reportCommits, Replay.firstExact, hexact]
    cases found with
    | true => exact ⟨fun _ => rfl, fun h => absurd rfl h⟩
    | false => exact ⟨fun h => absurd h Bool.false_ne_true, fun _ => rfl⟩

/-- **Whether a published lifecycle is found again.** When `_apply_lifecycle_once` has committed the
    lifecycle of a report from a clean control worktree that has the admission, then the commit is
    found exactly when the report is not long, or its long report was not yet below `executions` and
    has no carriage return. -/
theorem published_lifecycle_found_iff (hclean : s.isClean = true)
    (hadmitted : c.admitted <:+ s.control)
    (hfresh : FreshNames c.built (turn.names s.files.reports) s.files.reports)
    (h : Runs (commitLifecycle c turn) s head t) :
    c.remoteLifecycleCommit head = .ok (some head) ↔ Findable c s.control := by
  obtain ⟨-, hfound, hunfound⟩ := remoteLifecycleCommit_of_runs hclean hadmitted hfresh h
  refine ⟨fun heq => ?_, hfound⟩
  by_contra hnot
  -- what is found otherwise is an older commit
  rw [hunfound hnot] at heq
  have hsuffix := suffix_of_mem_reportCommits (mem_of_firstExact heq)
  obtain ⟨after, rfl, -⟩ := committed_of_runs hfresh h
  exact absurd hsuffix.length_le (Nat.not_succ_le_self _)

end Found

/-! ### A report that is not found -/

section Stuck

variable [Sha256] {c : Replay} {turn : Turn} {s t : ReplaySite}

/-- The report is on the remote, and no commit of it is recognised. -/
structure Unfound (c : Replay) (remote : ControlCommit) : Prop where
  present : (remote.fileAt c.json).isSome
  unfound : c.remoteLifecycleCommit remote = .ok none

theorem Unfound.arrive {edits : List Edit} {remote : ControlCommit} (h : Unfound c remote)
    (hspares : c.Spares edits) : Unfound c (arrive edits remote) := by
  obtain ⟨-, hcommits, hfile⟩ := arrive_spares hspares remote
  refine ⟨hfile ▸ h.present, ?_⟩
  unfold Replay.remoteLifecycleCommit
  rw [hcommits]
  exact h.unfound

/-- The attempt fetches what others have pushed. -/
theorem sat_fetchControl_unfound (hfair : Fair c turn) (h : Unfound c s.remote) :
    Sat (fun t => Unfound c t.remote) (fetchControl turn)
      (fun head t => Unfound c head ∧ t = { s with remote := head } ∧ head ≠ [])
      (fun _ t => Unfound c t.remote) s := by
  have harrived := h.arrive hfair.before
  unfold fetchControl
  refine .bind (.effect harrived ?_)
  cases turn.fetchRefused with
  | some message => exact .raise harrived
  | none => exact .bind (.get (.bind (.ensure (fun hne => .pure ⟨harrived, rfl, hne⟩)
      fun _ => harrived)))

/-- The attempt raises: to commit the report once more is refused. -/
theorem sat_attemptLifecycle_unfound [NanoYaml] (hfair : Fair c turn) (h : Unfound c s.remote) :
    Sat (fun t => Unfound c t.remote) (attemptLifecycle c turn) (fun _ _ => False)
      (fun _ t => Unfound c t.remote) s := by
  unfold attemptLifecycle
  refine .bind (.get (.bind (.ensure (fun hclean => ?_) fun _ => h)))
  refine .bind ((sat_fetchControl_unfound hfair h).mono (fun _ h => h) ?_ fun _ _ h => h)
  rintro R _ ⟨hR, rfl, hne⟩
  refine .bind (.observe hR.unfound ?_)
  have hway : ∀ t, c.Kept { s with remote := R } t ∧ t.remote = R → Unfound c t.remote :=
    fun t ht => ht.2 ▸ hR
  refine .bind ((sat_alignControl (.refl { s with remote := R }) rfl hne hclean).mono hway ?_
    fun _ => hway)
  rintro _ t haligned
  refine .bind ((sat_commitLifecycle haligned (hfair.names _)).mono hway ?_ fun _ => hway)
  rintro _ u ⟨-, -, -, hfree, -⟩
  have hpresent := hR.present
  rw [hfree] at hpresent
  cases hpresent

/-- One application. -/
theorem sat_applyExecutionLifecycle_unfound [NanoYaml] {turns : Turn × Turn × Turn}
    (hfair : FairTurns c turns) (h : Unfound c s.remote) :
    Sat (fun t => Unfound c t.remote) (applyExecutionLifecycle c turns) (fun _ _ => False)
      (fun _ t => Unfound c t.remote) s := by
  unfold applyExecutionLifecycle
  cases c.refused with
  | some e => exact .raise h
  | none =>
    exact .bind ((sat_attemptLifecycle_unfound hfair.1 h).mono (fun _ h => h)
      (fun _ _ h => h.elim) fun _ _ h => h)

/-- Any number of applications. -/
theorem not_runs_of_unfound [NanoYaml] (h : Unfound c s.remote) (hkilled : Killed c s t)
    {turns : Turn × Turn × Turn} (hfair : FairTurns c turns) {head : ControlCommit}
    {u : ReplaySite} : ¬ Runs (applyExecutionLifecycle c turns) t head u := by
  intro hruns
  have hstuck : Unfound c t.remote := hkilled.invariant h fun _ _ hu hfair _ hv =>
    (sat_applyExecutionLifecycle_unfound hfair hu).1 _ hv
  obtain ⟨-, hend⟩ := sat_applyExecutionLifecycle_unfound hfair hstuck
  rw [hruns.1] at hend
  exact hend

/-- A report that was committed and is not findable is not found. -/
theorem unfound_of_runs [NanoYaml] {head : ControlCommit} (hclean : s.isClean = true)
    (hadmitted : c.admitted <:+ s.control) (hnone : c.reportCommits s.control = [])
    (hfresh : FreshNames c.built (turn.names s.files.reports) s.files.reports)
    (h : Runs (commitLifecycle c turn) s head t) (hnot : ¬ Findable c s.control) :
    Unfound c head := by
  obtain ⟨hpresent, -, hunfound⟩ := remoteLifecycleCommit_of_runs hclean hadmitted hfresh h
  refine ⟨hpresent, (hunfound hnot).trans ?_⟩
  unfold Replay.remoteLifecycleCommit
  rw [hnone]
  rfl

/-- **A lifecycle that is not found is in the way.** When the first commit of such a report is the
    head of the remote, then no application returns any more: not after any number of others, each
    killed at any point, and not while others push. -/
theorem unfound_lifecycle_blocks [NanoYaml] {head : ControlCommit} {made v : ReplaySite}
    (hclean : s.isClean = true) (hadmitted : c.admitted <:+ s.control)
    (hnone : c.reportCommits s.control = [])
    (hfresh : FreshNames c.built (turn.names s.files.reports) s.files.reports)
    (h : Runs (commitLifecycle c turn) s head made) (hnot : ¬ Findable c s.control)
    (hremote : t.remote = head) (hkilled : Killed c t v) :
    ∀ turns, FairTurns c turns → ∀ head' u,
      ¬ Runs (applyExecutionLifecycle c turns) v head' u := by
  have hstuck : Unfound c t.remote :=
    hremote ▸ unfound_of_runs hclean hadmitted hnone hfresh h hnot
  exact fun turns hfair head' u => not_runs_of_unfound hstuck hkilled hfair

end Stuck

/-! ### A long report with a carriage return -/

namespace ReturnedReplay

open RefusedCommit (sha yaml)
open RacedReplay (files site clean)

theorem ticketId_returnReport :
    (@BuiltReport.report sha ReportStore.returnReport).ticketId = text "t1" := rfl

/-- The execution of `t1` has reported two lines, between them a carriage return. -/
def replay : @Replay sha :=
  @Replay.mk sha ReportStore.returnReport "t1" ticketId_returnReport [files] "body\n" true none

def turn (names : Files → ReportStore.Names) : Turn :=
  { before := [], fetchRefused := none, mergeRefused := false, resetRefused := false,
    site := { revParse := .ok "" }, names := names, during := [], push := .lost }

theorem loads : @ApplySite.loadStore yaml { revParse := .ok "" } files.tree.workflow
    = .ok ⟨[⟨"t1", .todo, "t", [], "body\n"⟩]⟩ := by
  decide +kernel

theorem moves : @Replay.moves sha replay = true := by decide

theorem reviewed : @checkResult yaml
    (resultingWorkflow ⟨"t1", .todo, "t", [], "body\n"⟩ true files.tree.workflow) = .ok () := by
  decide +kernel

/-- The lifecycle is committed. -/
theorem commits (names : Files → ReportStore.Names)
    (hfresh : @FreshNames sha ReportStore.returnReport (names files.reports) files.reports) :
    ∃ head t, Runs (@commitLifecycle sha replay (turn names) yaml) site head t := by
  have hwrite : ∃ path reports, Runs (@ReportStore.write sha
      (@BuiltReport.report sha ReportStore.returnReport) (names files.reports)) files.reports path
      reports := by
    rcases (@ReportStore.sat_write_cases sha ReportStore.returnReport _ _ hfresh).ends with
      ⟨visited, path, heq, -⟩ | ⟨visited, e, -, -, hnot, -⟩
    · refine ⟨path, _, ?_, rfl⟩
      rw [heq]
    · exact absurd RefusedCommit.accepts hnot
  obtain ⟨path, reports, hwritten⟩ := hwrite
  refine ⟨_, _, (@runs_commitLifecycle yaml sha _ _ _ _ _).mpr
    ⟨⟨"t1", .todo, "t", [], "body\n"⟩, reports, "", ?_, rfl, rfl⟩⟩
  rw [moves]
  exact @Commitable.mk yaml sha _ _ _ _ _ _ _ _ ⟨_, loads, RefusedCommit.admits⟩ ⟨path, hwritten⟩
    (fun _ => by decide) reviewed rfl rfl rfl

theorem reportCommits_site : @Replay.reportCommits sha replay site.control = [] :=
  Timeline.log_cons_of_not fun htouches => htouches rfl

theorem not_findable : ¬ @Findable sha replay site.control := by
  intro h
  exact absurd (h _ rfl).2 (by decide)

theorem published_lifecycle_found_iff_returned : ∃ turn head t,
    Runs (@commitLifecycle sha replay turn yaml) site head t
      ∧ (@Replay.remoteLifecycleCommit sha replay head = .ok (some head)
        ↔ @Findable sha replay site.control) := by
  choose names hnames using @RacedReplay.exists_freshNames sha ReportStore.returnReport
  obtain ⟨head, t, h⟩ := commits names (hnames files.reports)
  exact ⟨turn names, head, t, h, @published_lifecycle_found_iff yaml sha replay (turn names) site t
    head clean List.suffix_rfl (hnames files.reports) h⟩

theorem unfound_lifecycle_blocks_returned : ∃ head t,
    Runs (@commitLifecycle sha replay (turn fun _ => ⟨[], []⟩) yaml) site head t
      ∧ ∀ turns, @FairTurns sha replay turns → ∀ head' u,
        ¬ Runs (@applyExecutionLifecycle sha replay yaml turns) ⟨[files], files, head⟩ head' u := by
  have hfresh : @FreshNames sha ReportStore.returnReport ⟨[], []⟩ files.reports :=
    RefusedCommit.freshNames
  obtain ⟨head, t, h⟩ := commits (fun _ => ⟨[], []⟩) hfresh
  exact ⟨head, t, h, @unfound_lifecycle_blocks sha replay (turn fun _ => ⟨[], []⟩) site
    ⟨[files], files, head⟩ yaml head t _ clean List.suffix_rfl reportCommits_site hfresh h
    not_findable rfl .refl⟩

end ReturnedReplay

end Wire

end Devlegate
