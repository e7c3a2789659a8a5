import Devlegate.LifecycleFound

namespace Devlegate

open JsonText Crash

namespace Wire

/-!
# Applying a lifecycle exactly once

However often `_apply_execution_lifecycle` is killed, and whatever others push: what becomes of the
lifecycle of a report?

* `Settles`: what is asked of an application.
* `Orderly`: it starts from a clean control worktree, and others leave the report alone.
* `Progress`: how far the publication is, in every state of a run of orderly applications.
* `orderly_lifecycle_settles`: each of them settles, where the long report is findable.
* `returned_not_settles`: with a carriage return in the long report none does any more, once its
  commit is on the remote and the answer is lost.
-/

open ReportStore (FreshNames)

/-! ### What is asked -/

section Settles

variable [Sha256]

/-- The report was committed once, and its commit is found, whatever others push on top. -/
structure PublishedOnce (c : Replay) (remote : ControlCommit) : Prop where
  one : (c.reportCommits remote).length = 1
  found : ∃ commit, ∀ edits, c.Spares edits →
    c.remoteLifecycleCommit (arrive edits remote) = .ok (some commit)

variable [NanoYaml]

/-- What stands in the control worktree once it is at a commit: it is checked out, unless it is
    there. -/
def ReplaySite.landing (t : ReplaySite) (R : ControlCommit) : ControlFiles :=
  if t.control = R then t.files else R.headD t.files

/-- An attempt in which nothing is in the way: Git does what it is asked; and if the report is not
    on the fetched branch yet, the ticket is there as it was admitted and the lifecycle can be
    applied to the files. -/
structure Unhindered (c : Replay) (turn : Turn) (t : ReplaySite) : Prop where
  fetch : turn.fetchRefused = none
  merge : turn.mergeRefused = false
  reset : turn.resetRefused = false
  during : turn.during = []
  push : turn.push = .accepted
  ticket : c.reportCommits (arrive turn.before t.remote) = [] →
    c.proveControlDescendant (arrive turn.before t.remote) = .ok ()
  applies : c.reportCommits (arrive turn.before t.remote) = [] →
    ∃ ticket reports name, Commitable turn.site c.report
      (turn.names (t.landing (arrive turn.before t.remote)).reports) c.moves
      (t.landing (arrive turn.before t.remote)).tree ticket reports name

/-- What is asked of an application: if it returns, the report is published once; and it returns, if
    the checks before it pass and nothing is in the way. -/
structure Settles (c : Replay) (turns : Turn × Turn × Turn) (t : ReplaySite) : Prop where
  returned : ∀ head u, Runs (applyExecutionLifecycle c turns) t head u →
    u.remote = head ∧ PublishedOnce c u.remote
  returns : c.refused = none → Unhindered c turns.1 t →
    ∃ head u, Runs (applyExecutionLifecycle c turns) t head u

/-- The first application starts: the control worktree is at a commit of the remote that has the
    admission, and the report is not committed. -/
structure Admitted (c : Replay) (s : ReplaySite) : Prop where
  admission : c.admitted <:+ s.control
  remote : s.control <:+ s.remote
  none : c.reportCommits s.remote = []

/-- The commits of somebody else leave the file of the long report as it is. -/
def Replay.SparesArtifact (c : Replay) (edits : List Edit) : Prop :=
  ∀ edit ∈ edits, ∀ files, (edit files).blob c.artifact = files.blob c.artifact

/-- Others leave the long report alone, too. -/
structure Careful (c : Replay) (turn : Turn) : Prop extends Fair c turn where
  artifactBefore : c.SparesArtifact turn.before
  artifactDuring : c.SparesArtifact turn.during

/-- An application that starts from a clean control worktree, beside others who leave both files of
    the report alone. -/
structure Orderly (c : Replay) (s : ReplaySite) (turns : Turn × Turn × Turn) : Prop where
  clean : s.isClean = true
  first : Careful c turns.1
  second : Careful c turns.2.1
  third : Careful c turns.2.2

/-- Applications that are killed, and each of them is orderly. -/
abbrev KilledOrderly (c : Replay) : ReplaySite → ReplaySite → Prop :=
  Interrupted (Orderly c) (applyExecutionLifecycle c)

end Settles

/-! ### The invariant -/

section Invariant

variable [Sha256] {c : Replay} {s t : ReplaySite} {R : ControlCommit} {turn : Turn}

/-- What is checked out: a commit of the remote, or the lifecycle commit on top of one. -/
inductive Local (c : Replay) (control remote : ControlCommit) : Prop where
  | behind (admission : c.admitted <:+ control) (remote : control <:+ remote)
  | unpublished (exact : c.isExactLifecycle control = .ok true) (parent : control.tail <:+ remote)

/-- The state of the publication. -/
inductive Progress (c : Replay) (t : ReplaySite) : Prop where
  | waiting (none : c.reportCommits t.remote = []) (findable : Findable c t.remote)
      (control : Local c t.control t.remote)
  | published (one : (c.reportCommits t.remote).length = 1)
      (present : (t.remote.fileAt c.json).isSome) (commit parent : ControlCommit)
      (found : c.remoteLifecycleCommit t.remote = .ok (some commit))
      (above : commit.parent = some parent) (ticket : c.proveControlDescendant parent = .ok ())
      (control : t.control <:+ t.remote)

theorem Local.mono (h : Local c t.control t.remote) (hsuffix : t.remote <:+ R) :
    Local c t.control R := by
  cases h with
  | behind hadmission hremote => exact .behind hadmission (hremote.trans hsuffix)
  | unpublished hexact hparent => exact .unpublished hexact (hparent.trans hsuffix)

/-- The long report arrives with none of the commits. -/
theorem artifact_arrive {edits : List Edit} (h : c.SparesArtifact edits)
    (history : ControlCommit) :
    (arrive edits history).fileAt c.artifact = history.fileAt c.artifact := by
  induction edits generalizing history with
  | nil => rfl
  | cons edit edits ih =>
    have hrest := ih fun other hother => h other (List.mem_cons_of_mem _ hother)
    cases history with
    | nil => exact hrest []
    | cons tree rest =>
      exact (hrest (edit tree :: tree :: rest)).trans (h edit List.mem_cons_self tree)

/-- What others push changes nothing. -/
theorem Progress.arrive {edits : List Edit} (h : Progress c t) (hspares : c.Spares edits)
    (hartifact : c.SparesArtifact edits) :
    Progress c { t with remote := arrive edits t.remote } := by
  obtain ⟨hsuffix, hcommits, hfile⟩ := arrive_spares hspares t.remote
  cases h with
  | waiting hnone hfindable hcontrol =>
    refine .waiting (hcommits.trans hnone) (fun long hlong => ?_) (hcontrol.mono hsuffix)
    exact ⟨(artifact_arrive hartifact _).trans (hfindable long hlong).1, (hfindable long hlong).2⟩
  | published hone hpresent commit parent hfound habove hticket hcontrol =>
    refine .published ?_ ?_ commit parent ?_ habove hticket (hcontrol.trans hsuffix)
    · show (c.reportCommits (Wire.arrive edits t.remote)).length = 1
      rw [hcommits]
      exact hone
    · show ((Wire.arrive edits t.remote).fileAt c.json).isSome
      rw [hfile]
      exact hpresent
    · unfold Replay.remoteLifecycleCommit at hfound ⊢
      show c.firstExact (c.reportCommits (Wire.arrive edits t.remote)) = _
      rw [hcommits]
      exact hfound

theorem Progress.publishedOnce (h : Progress c t) (hne : c.reportCommits t.remote ≠ []) :
    PublishedOnce c t.remote := by
  cases h with
  | waiting hnone => exact absurd hnone hne
  | published hone _ commit _ hfound =>
    refine ⟨hone, commit, fun edits hspares => ?_⟩
    obtain ⟨-, hcommits, -⟩ := arrive_spares hspares t.remote
    unfold Replay.remoteLifecycleCommit at hfound ⊢
    rw [hcommits]
    exact hfound

end Invariant

/-! ### The programs -/

section Programs

variable [Sha256] {c : Replay} {s t : ReplaySite} {R : ControlCommit} {turn : Turn}

omit [Sha256] in
theorem exists_error {ε : Type} {x : Except ε Unit} (h : x ≠ .ok ()) : ∃ e, x = .error e := by
  cases x with
  | error e => exact ⟨e, rfl⟩
  | ok u => exact absurd rfl h

/-- An exact commit is on top of another, which has the admission. -/
theorem exact_cases {control : ControlCommit} (h : c.isExactLifecycle control = .ok true) :
    ∃ after before rest, control = after :: before :: rest ∧ c.admitted <:+ before :: rest := by
  cases control with
  | nil => cases h
  | cons after parent =>
    cases parent with
    | nil => cases h
    | cons before rest =>
      refine ⟨after, before, rest, rfl, ?_⟩
      by_contra hnot
      unfold Replay.isExactLifecycle at h
      simp only [hnot, not_false_eq_true, if_true] at h
      cases h

theorem proveUnpublished_of_exact {control : ControlCommit}
    (h : c.isExactLifecycle control = .ok true) (hparent : control.tail <:+ R) :
    c.proveUnpublishedLifecycleLineage control R = .ok () := by
  obtain ⟨after, before, rest, rfl, -⟩ := exact_cases h
  have hsuffix : before :: rest <:+ R := hparent
  unfold Replay.proveUnpublishedLifecycleLineage
  rw [show ControlCommit.parent (after :: before :: rest) = some (before :: rest) from rfl]
  simp only [hsuffix, not_true_eq_false, if_false, h]

omit [Sha256] in
theorem sat_fastForward_checkout {message : String} :
    Sat (fun t => t = s.checkout R) (fastForward turn R message) (fun _ t => t = s.checkout R)
      (fun _ t => t = s ∧ ¬ (turn.mergeRefused = false ∧ s.control <:+ R)) s :=
  .bind (.get (.bind (.ensure (fun _ => .effect rfl rfl) fun h => ⟨rfl, h⟩)))

/-- The control worktree stays where it is, or it is brought to the head. -/
def Aligning (c : Replay) (s : ReplaySite) (R : ControlCommit) (t : ReplaySite) : Prop :=
  t = s ∨ t = s.checkout R ∧ c.proveControlDescendant R = .ok ()

/-- The control worktree is at the head. -/
def Landed (s : ReplaySite) (R : ControlCommit) (t : ReplaySite) : Prop :=
  (t = s ∧ s.control = R) ∨ (t = s.checkout R ∧ s.control ≠ R)

/-- The alignment ends at the head, unless something is in the way. -/
theorem sat_alignControl_checkout (hlocal : Local c s.control R) :
    Sat (Aligning c s R) (alignControl c turn R)
      (fun _ t => Landed s R t ∧ c.proveControlDescendant R = .ok ())
      (fun _ t => Aligning c s R t ∧ ¬ (turn.mergeRefused = false
        ∧ turn.resetRefused = false ∧ c.proveControlDescendant R = .ok ())) s := by
  have hforward : ∀ message, c.proveControlDescendant R = .ok () → s.control <:+ R →
      s.control ≠ R → Sat (Aligning c s R) (fastForward turn R message)
        (fun _ t => Landed s R t ∧ c.proveControlDescendant R = .ok ())
        (fun _ t => Aligning c s R t ∧ ¬ (turn.mergeRefused = false
          ∧ turn.resetRefused = false ∧ c.proveControlDescendant R = .ok ())) s := by
    intro message hproof hsuffix hne
    refine sat_fastForward_checkout.mono (fun _ h => .inr ⟨h, hproof⟩) ?_ ?_
    · rintro _ t rfl
      exact ⟨.inr ⟨rfl, hne⟩, hproof⟩
    · rintro _ t ⟨rfl, hnot⟩
      exact ⟨.inl rfl, fun h => hnot ⟨h.1, hsuffix⟩⟩
  unfold alignControl
  refine .bind (.get ?_)
  by_cases hadmitted : s.control = c.admitted
  · rw [if_pos hadmitted]
    by_cases hproof : c.proveControlDescendant R = .ok ()
    · refine .bind (.observe hproof ?_)
      by_cases hsame : R = c.admitted
      · rw [if_pos hsame]
        exact .pure ⟨.inl ⟨rfl, hadmitted.trans hsame.symm⟩, hproof⟩
      · rw [if_neg hsame]
        exact hforward _ hproof (hadmitted ▸ admitted_of_descendant hproof)
          fun heq => hsame (heq.symm.trans hadmitted)
    · obtain ⟨e, he⟩ := exists_error hproof
      exact .bind (.refused he ⟨.inl rfl, fun h => hproof h.2.2⟩)
  rw [if_neg hadmitted]
  by_cases hbehind : c.admitted <:+ s.control ∧ s.control <:+ R
  · rw [if_pos hbehind]
    by_cases hproof : c.proveControlDescendant R = .ok ()
    · refine .bind (.observe hproof ?_)
      by_cases hsame : s.control = R
      · rw [if_pos hsame]
        exact .pure ⟨.inl ⟨rfl, hsame⟩, hproof⟩
      · rw [if_neg hsame]
        exact hforward _ hproof hbehind.2 hsame
    · obtain ⟨e, he⟩ := exists_error hproof
      exact .bind (.refused he ⟨.inl rfl, fun h => hproof h.2.2⟩)
  -- what is not behind is the lifecycle commit of an earlier attempt
  rw [if_neg hbehind]
  cases hlocal with
  | behind hadmission hremote => exact absurd ⟨hadmission, hremote⟩ hbehind
  | unpublished hexact hparent =>
    refine .bind (.observe (proveUnpublished_of_exact hexact hparent) ?_)
    by_cases hproof : c.proveControlDescendant R = .ok ()
    · refine .bind (.observe hproof (.bind (.ensure (fun _ => ?_) fun hnot =>
        ⟨.inl rfl, fun h => hnot h.2.1⟩)))
      refine .bind (.effect (.inr ⟨rfl, hproof⟩) ?_)
      obtain ⟨after, before, rest, hcontrol, hadmission⟩ := exact_cases hexact
      have hnot : ¬ (s.control <:+ R ∧ s.control ≠ R) := fun h =>
        hbehind ⟨hcontrol ▸ hadmission.trans (List.suffix_cons _ _), h.1⟩
      rw [if_neg hnot]
      refine .pure ⟨.inr ⟨rfl, fun heq => hbehind ⟨?_, heq ▸ List.suffix_rfl⟩⟩, hproof⟩
      exact hcontrol ▸ hadmission.trans (List.suffix_cons _ _)
    · obtain ⟨e, he⟩ := exists_error hproof
      exact .bind (.refused he ⟨.inl rfl, fun h => hproof h.2.2⟩)

omit [Sha256] in
/-- A program raises only where nothing says that it returns. -/
theorem sat_error_of_runs {σ ε α : Type} {I : σ → Prop} {Q : α → σ → Prop} {E : ε → σ → Prop}
    {program : Program σ ε α} {s : σ} {P : Prop} (h : Sat I program Q E s)
    (hruns : P → ∃ a t, Runs program s a t) :
    Sat I program Q (fun e t => E e t ∧ ¬ P) s := by
  obtain ⟨hvisited, hend⟩ := h
  refine ⟨hvisited, ?_⟩
  cases hresult : (program s).result with
  | ok a =>
    rw [hresult] at hend
    exact hend
  | error e =>
    rw [hresult] at hend
    refine ⟨hend, fun hp => ?_⟩
    obtain ⟨a, t, hok, -⟩ := hruns hp
    rw [hresult] at hok
    cases hok

/-- The control worktree between the start and the end of `_apply_lifecycle_once`. -/
structure Making (c : Replay) (before : ControlFiles) (R : ControlCommit) (t : ReplaySite) :
    Prop where
  remote : t.remote = R
  control : t.control = R ∨ ∃ after, t.control = after :: R ∧ Committed c before after

/-- The commit of the lifecycle, at every effect. -/
theorem sat_commitLifecycle_committed [NanoYaml] (hcontrol : s.control = R) (hremote : s.remote = R)
    (hfresh : FreshNames c.built (turn.names s.files.reports) s.files.reports) :
    Sat (Making c s.files R) (commitLifecycle c turn)
      (fun head t => t.remote = R ∧ head = t.control
        ∧ ∃ after, t.control = after :: R ∧ t.files = after ∧ Committed c s.files after)
      (fun _ t => Making c s.files R t) s := by
  unfold commitLifecycle
  have hput : ∀ files, Making c s.files R { s with files := files } :=
    fun _ => ⟨hremote, .inl hcontrol⟩
  cases hstore : turn.site.loadStore s.files.tree.workflow with
  | error e =>
    exact .bind (.refused (congrArg (Except.mapError ReplayError.lifecycle) hstore) (hput s.files))
  | ok store =>
  refine .bind (.observe (congrArg (Except.mapError ReplayError.lifecycle) hstore) ?_)
  cases hticket : admitted store c.report.ticketId c.moves with
  | error e => exact .bind (.refused (e := .lifecycle e) rfl (hput s.files))
  | ok ticket =>
  refine .bind (.observe (a := ticket) rfl (.bind (.get ?_)))
  refine .bind (.zoom rfl ((ReportStore.sat_write_cases hfresh).mono (fun _ _ => hput _)
    ?_ fun _ _ _ => hput _))
  rintro path reports ⟨haccepts, raw, hjson, hshown⟩
  have hmade := committed_of_write hstore hticket haccepts hjson hshown
  have hmove : Sat (Making c s.files R) (moveTicketFile ticket c.moves)
      (fun _ t => t = { s with
        files := resultingFiles ticket c.moves { s.files with reports := reports } })
      (fun _ t => Making c s.files R t) (putReports reports s) :=
    sat_moveTicketFile fun _ => hput _
  refine .bind (hmove.mono (fun _ h => h) ?_ fun _ _ h => h)
  rintro _ t rfl
  generalize resultingFiles ticket c.moves { s.files with reports := reports } = after at hmade
  cases hresult : checkResult after.tree.workflow with
  | error e =>
    exact .bind (.refused (congrArg (Except.mapError ReplayError.lifecycle) hresult) (hput _))
  | ok u =>
  refine .bind (.observe (congrArg (Except.mapError ReplayError.lifecycle) hresult) ?_)
  cases hadd : turn.site.addRefused with
  | some message => exact .bind (.raise (hput _))
  | none =>
  refine .bind (.pure ?_)
  cases hcommit : turn.site.commitRefused with
  | some message => exact .bind (.raise (hput _))
  | none =>
  refine .bind (.pure ?_)
  have hcommitted : Making c s.files R { s with control := after :: s.control, files := after } :=
    ⟨hremote, .inr ⟨after, congrArg (after :: ·) hcontrol, hmade⟩⟩
  refine .bind (.effect hcommitted ?_)
  cases hparse : turn.site.revParse with
  | error message => exact .refused (e := .lifecycle (.git message)) rfl hcommitted
  | ok name =>
    exact .observe (a := after :: s.control) rfl
      ⟨hremote, rfl, after, congrArg (after :: ·) hcontrol, rfl, hmade⟩

/-- What an interrupted lifecycle leaves is progress. -/
theorem Making.progress {tree : ControlFiles} {rest : ControlCommit}
    (h : Making c tree (tree :: rest) t) (hnone : c.reportCommits (tree :: rest) = [])
    (hfindable : Findable c (tree :: rest)) (hadmission : c.admitted <:+ tree :: rest) :
    Progress c t := by
  refine .waiting (h.remote ▸ hnone) (h.remote ▸ hfindable) ?_
  rw [h.remote]
  rcases h.control with hcontrol | ⟨after, hcontrol, hmade⟩
  · rw [hcontrol]
    exact .behind hadmission List.suffix_rfl
  · rw [hcontrol]
    exact .unpublished (hmade.remoteLifecycleCommit hadmission hfindable).1 List.suffix_rfl

/-- The push. -/
theorem sat_pushControl_published {tree after : ControlFiles} {rest : ControlCommit}
    (hremote : s.remote = tree :: rest) (hcontrol : s.control = after :: tree :: rest)
    (hmade : Committed c tree after) (hnone : c.reportCommits (tree :: rest) = [])
    (hfindable : Findable c (tree :: rest))
    (hproof : c.proveControlDescendant (tree :: rest) = .ok ()) (hcareful : Careful c turn) :
    Sat (Progress c) (pushControl turn)
      (fun done t => Progress c t ∧ t.control = s.control ∧ t.files = s.files
        ∧ (done = true → t.remote = s.control ∧ c.reportCommits t.remote ≠ [])
        ∧ (done = false → ¬ (turn.during = [] ∧ turn.push = .accepted)))
      (fun _ _ => False) s := by
  have hadmission := admitted_of_descendant hproof
  have hwaiting : Progress c s := by
    exact Making.progress ⟨hremote, .inr ⟨after, hcontrol, hmade⟩⟩ hnone hfindable hadmission
  have harrived := hwaiting.arrive hcareful.during hcareful.artifactDuring
  obtain ⟨hexact, hfound⟩ := hmade.remoteLifecycleCommit hadmission hfindable
  obtain ⟨raw, -, hafter⟩ := hmade.json
  have hpresent : (after.blob c.json).isSome = true := congrArg Option.isSome hafter
  obtain ⟨hone, -⟩ := once_commit (.unpublished hnone) hmade.jsonFree hpresent
  unfold pushControl
  refine .bind (.effect harrived (.bind (.get ?_)))
  by_cases hrefused : turn.push = .refused ∨ ¬ arrive turn.during s.remote <:+ s.control
  · rw [if_pos hrefused]
    refine .pure ⟨harrived, rfl, rfl, fun h => ?_, ?_⟩
    · cases h
    · rintro - ⟨hduring, hpush⟩
      rcases hrefused with hrefused | hmoved
      · rw [hpush] at hrefused
        cases hrefused
      · rw [hduring, hremote, hcontrol] at hmoved
        exact hmoved (List.suffix_cons _ _)
  · rw [if_neg hrefused]
    have hpublished : Progress c { s with remote := s.control } := by
      rw [hcontrol]
      exact .published hone hpresent _ _ hfound rfl hproof (hcontrol ▸ List.suffix_rfl)
    have hne : c.reportCommits s.control ≠ [] := by
      rw [hcontrol]
      intro hnil
      rw [hnil] at hone
      cases hone
    refine .bind (.effect hpublished (.pure ⟨hpublished, rfl, rfl, fun _ => ⟨rfl, hne⟩, ?_⟩))
    rintro hlost ⟨-, hpush⟩
    rw [hpush] at hlost
    cases hlost

/-- The remote has a commit. -/
theorem Progress.remote_ne (h : Progress c t) (hclean : t.isClean = true) :
    t.remote ≠ [] := by
  have hne : t.control ≠ [] := by
    intro hnil
    unfold ReplaySite.isClean at hclean
    rw [hnil] at hclean
    cases hclean
  have hbehind : ∀ commit : ControlCommit, commit ≠ [] → commit <:+ t.remote → t.remote ≠ [] := by
    intro commit hcommit hsuffix hnil
    rw [hnil] at hsuffix
    exact hcommit (List.suffix_nil.mp hsuffix)
  cases h with
  | waiting _ _ hlocal =>
    cases hlocal with
    | behind _ hremote => exact hbehind _ hne hremote
    | unpublished hexact hparent =>
      obtain ⟨after, before, rest, hcontrol, -⟩ := exact_cases hexact
      rw [hcontrol] at hparent
      exact hbehind _ (List.cons_ne_nil _ _) hparent
  | published _ _ _ _ _ _ _ hcontrol => exact hbehind _ hne hcontrol

/-- The attempt fetches what others have pushed. -/
theorem sat_fetchControl_progress (h : Progress c s) (hclean : s.isClean = true)
    (hcareful : Careful c turn) :
    Sat (Progress c) (fetchControl turn)
      (fun head t => head = arrive turn.before s.remote ∧ t = { s with remote := head }
        ∧ Progress c t)
      (fun _ t => Progress c t ∧ turn.fetchRefused ≠ none) s := by
  have harrived := h.arrive hcareful.before hcareful.artifactBefore
  unfold fetchControl
  refine .bind (.effect harrived ?_)
  cases turn.fetchRefused with
  | some message => exact .raise ⟨harrived, Option.some_ne_none _⟩
  | none =>
    refine .bind (.get (.bind (.ensure (fun _ => .pure ⟨rfl, rfl, harrived⟩) fun hempty => ?_)))
    exact absurd (harrived.remote_ne hclean) hempty

/-- The worktree follows the published commit. -/
theorem sat_followPublished_progress {commit parent : ControlCommit} (h : Progress c s)
    (hs : s.remote = R) (hcontrol : s.control <:+ R)
    (hfollowed : Progress c (s.checkout R)) (habove : commit.parent = some parent)
    (hproof : c.proveControlDescendant parent = .ok ()) :
    Sat (Progress c) (followPublished c turn R commit)
      (fun head t => Progress c t ∧ head = R ∧ t.remote = R)
      (fun _ t => Progress c t ∧ turn.mergeRefused ≠ false) s := by
  unfold followPublished
  rw [habove]
  refine .bind (.observe hproof (.bind (.get ?_)))
  by_cases hsame : s.control = R
  · rw [if_pos hsame]
    exact .pure ⟨h, rfl, hs⟩
  · rw [if_neg hsame]
    refine .bind (.ensure (fun _ => .bind ?_) fun hnot => absurd hcontrol hnot)
    refine sat_fastForward_checkout.mono ?_ ?_ ?_
    · rintro t rfl
      exact hfollowed
    · rintro _ t rfl
      exact .pure ⟨hfollowed, rfl, hs⟩
    · rintro _ t ⟨rfl, hnot⟩
      exact ⟨h, fun hmerge => hnot ⟨hmerge, hcontrol⟩⟩

theorem Making.congr {before before' : ControlFiles} (h : Making c before R t)
    (hsame : ∀ path, before'.blob path = before.blob path) : Making c before' R t := by
  refine ⟨h.remote, h.control.imp_right ?_⟩
  rintro ⟨after, hcontrol, hmade⟩
  exact ⟨after, hcontrol, hmade.congr hsame⟩

omit [Sha256] in
/-- What the alignment leaves is what is checked out. -/
theorem Landed.landing {tree : ControlFiles} {rest : ControlCommit} {u : ReplaySite}
    (h : Landed u (tree :: rest) t) (hclean : u.isClean = true) :
    t.control = tree :: rest ∧ t.remote = u.remote ∧ t.files = u.landing (tree :: rest)
      ∧ ∀ path, tree.blob path = t.files.blob path := by
  unfold ReplaySite.landing
  rcases h with ⟨rfl, hcontrol⟩ | ⟨rfl, hne⟩
  · rw [if_pos hcontrol]
    refine ⟨hcontrol, rfl, rfl, fun path => ?_⟩
    rw [← fileAt_of_isClean hclean, hcontrol]
    rfl
  · rw [if_neg hne]
    exact ⟨rfl, rfl, rfl, fun _ => rfl⟩

/-- **One attempt.** It makes progress, and it returns a head unless something is in the way. -/
theorem sat_attemptLifecycle_progress [NanoYaml] (h : Progress c s)
    (hclean : s.isClean = true) (hcareful : Careful c turn) :
    Sat (Progress c) (attemptLifecycle c turn)
      (fun found t => Progress c t ∧ (found = none → t.isClean = true ∧ ¬ Unhindered c turn s)
        ∧ ∀ head ∈ found, t.remote = head ∧ c.reportCommits t.remote ≠ [])
      (fun _ t => Progress c t ∧ ¬ Unhindered c turn s) s := by
  unfold attemptLifecycle
  refine .bind (.get (.bind (.ensure (fun _ => ?_) fun hdirty => absurd hclean hdirty)))
  refine .bind ((sat_fetchControl_progress h hclean hcareful).mono (fun _ h => h) ?_
    fun _ t ht => ⟨ht.1, fun hun => ht.2 hun.fetch⟩)
  rintro R _ ⟨hR, rfl, hfetched⟩
  have hne : R ≠ [] := hfetched.remote_ne hclean
  -- the commit is on the remote and found, or it is on no remote yet
  cases hfetched with
  | published hone hpresent commit parent hfound habove hproof hcontrol =>
    refine .bind (.observe hfound ?_)
    have hprogress : ∀ control files, control <:+ R → Progress c ⟨control, files, R⟩ :=
      fun control files hsuffix =>
        .published hone hpresent commit parent hfound habove hproof hsuffix
    refine .bind ((sat_followPublished_progress (hprogress _ _ hcontrol) rfl hcontrol
      (hprogress _ _ List.suffix_rfl) habove hproof).mono (fun _ h => h) ?_
      fun _ t ht => ⟨ht.1, fun hun => ht.2 hun.merge⟩)
    rintro head t ⟨ht, hhead, hremote⟩
    refine .pure ⟨ht, fun hnone => ?_, fun other hother => ?_⟩
    · cases hnone
    · cases hother
      refine ⟨hremote.trans hhead.symm, fun hnil => ?_⟩
      rw [hremote] at hnil
      rw [show c.reportCommits R = [] from hnil] at hone
      cases hone
  | waiting hnone hfindable hlocal =>
    have hlost : c.remoteLifecycleCommit R = .ok none := by
      unfold Replay.remoteLifecycleCommit
      rw [show c.reportCommits R = [] from hnone]
      rfl
    refine .bind (.observe hlost ?_)
    obtain ⟨tree, rest, rfl⟩ := List.exists_cons_of_ne_nil hne
    let u : ReplaySite := { s with remote := tree :: rest }
    have hwaiting : Progress c u := .waiting hnone hfindable hlocal
    have haligning : ∀ t, Aligning c u (tree :: rest) t → Progress c t := by
      rintro t (rfl | ⟨rfl, hproof⟩)
      · exact hwaiting
      · exact .waiting hnone hfindable (.behind (admitted_of_descendant hproof) List.suffix_rfl)
    have hticket : Unhindered c turn s →
        c.proveControlDescendant (tree :: rest) = .ok () := by
      intro hun
      have hproof := hun.ticket
      rw [← hR] at hproof
      exact hproof hnone
    have happlies : Unhindered c turn s → ∃ ticket reports name, Commitable turn.site c.report
        (turn.names (u.landing (tree :: rest)).reports) c.moves (u.landing (tree :: rest)).tree
        ticket reports name := by
      intro hun
      have happlies := hun.applies
      rw [← hR] at happlies
      exact happlies hnone
    -- the checkout is brought to the fetched head, then the commit is made and pushed
    have halign : Sat (Aligning c u (tree :: rest)) (alignControl c turn (tree :: rest)) _ _ u :=
      sat_alignControl_checkout hlocal
    refine .bind (halign.mono haligning ?_ fun _ t ht =>
      ⟨haligning t ht.1, fun hun => ht.2 ⟨hun.merge, hun.reset, hticket hun⟩⟩)
    rintro _ t ⟨ht, hproof⟩
    obtain ⟨hcontrol, hremote, hlanding, hsame⟩ := ht.landing hclean
    have hadmission := admitted_of_descendant hproof
    have hmaking : ∀ v, Making c t.files (tree :: rest) v → Progress c v :=
      fun v hv => (hv.congr hsame).progress hnone hfindable hadmission
    have hreturns : Unhindered c turn s → ∃ head v, Runs (commitLifecycle c turn) t head v := by
      intro hun
      obtain ⟨ticket, reports, name, hcommitable⟩ := happlies hun
      rw [← hlanding] at hcommitable
      exact ⟨_, _, runs_commitLifecycle.mpr ⟨ticket, reports, name, hcommitable, rfl, rfl⟩⟩
    have hmade : Sat _ (commitLifecycle c turn) _ _ t :=
      sat_commitLifecycle_committed hcontrol hremote (hcareful.names t.files.reports)
    have hcommit := sat_error_of_runs hmade hreturns
    refine .bind (hcommit.mono hmaking ?_ fun _ v hv => ⟨hmaking v hv.1, hv.2⟩)
    rintro head v ⟨hv, rfl, after, hmade, hafter, hcommitted⟩
    refine .bind ((sat_pushControl_published hv hmade (hcommitted.congr hsame) hnone hfindable
      hproof hcareful).mono (fun _ h => h) ?_ fun _ _ h => h.elim)
    rintro done w ⟨hw, hwcontrol, hwfiles, hdone, hnot⟩
    refine .pure ⟨hw, fun hlost => ?_, fun head hhead => ?_⟩
    · cases done with
      | true => cases hlost
      | false =>
        refine ⟨?_, fun hun => hnot rfl ⟨hun.during, hun.push⟩⟩
        unfold ReplaySite.isClean
        rw [hwcontrol, hwfiles, hmade, hafter]
        exact List.all_eq_true.mpr fun path _ => decide_eq_true rfl
    · cases done with
      | false => cases hhead
      | true =>
        cases hhead
        exact hdone rfl

/-- The attempts, one after the other. -/
theorem sat_attemptLifecycles_progress [NanoYaml] {turns : List Turn}
    (hcareful : ∀ turn ∈ turns, Careful c turn) (h : Progress c s) (hclean : s.isClean = true) :
    Sat (Progress c) (attemptLifecycles c turns)
      (fun head t => Progress c t ∧ t.remote = head ∧ c.reportCommits t.remote ≠ [])
      (fun _ t => Progress c t ∧ ∀ turn ∈ turns.head?, ¬ Unhindered c turn s) s := by
  induction turns generalizing s with
  | nil =>
    refine .raise ⟨h, fun turn hturn => ?_⟩
    cases hturn
  | cons turn turns ih =>
    have hfirst : ∀ {t : ReplaySite}, Progress c t ∧ ¬ Unhindered c turn s →
        Progress c t ∧ ∀ other ∈ (turn :: turns).head?, ¬ Unhindered c other s := by
      rintro t ⟨ht, hnot⟩
      refine ⟨ht, fun other hother => ?_⟩
      cases hother
      exact hnot
    refine .bind ((sat_attemptLifecycle_progress h hclean (hcareful turn List.mem_cons_self)).mono
      (fun _ h => h) ?_ fun _ _ h => hfirst h)
    rintro found t ⟨ht, hlost, hfound⟩
    cases found with
    | some head => exact .pure ⟨ht, hfound head rfl⟩
    | none =>
      obtain ⟨hclean', hnot⟩ := hlost rfl
      refine (ih (fun other h => hcareful other (List.mem_cons_of_mem _ h)) ht hclean').mono
        (fun _ h => h) (fun _ _ h => h) fun _ _ h => hfirst ⟨h.1, hnot⟩

/-- One application. -/
theorem sat_applyExecutionLifecycle_progress [NanoYaml] {turns : Turn × Turn × Turn}
    (horderly : Orderly c s turns) (h : Progress c s) :
    Sat (Progress c) (applyExecutionLifecycle c turns)
      (fun head t => Progress c t ∧ t.remote = head ∧ c.reportCommits t.remote ≠ [])
      (fun _ t => Progress c t ∧ ¬ (c.refused = none ∧ Unhindered c turns.1 s)) s := by
  unfold applyExecutionLifecycle
  cases c.refused with
  | some e =>
    refine .raise ⟨h, fun hboth => ?_⟩
    cases hboth.1
  | none =>
    refine (sat_attemptLifecycles_progress (fun turn hturn => ?_) h horderly.clean).mono
      (fun _ h => h) (fun _ _ h => h) fun _ _ h => ⟨h.1, fun hboth => h.2 turns.1 rfl hboth.2⟩
    simp only [List.mem_cons, List.not_mem_nil, or_false] at hturn
    rcases hturn with rfl | rfl | rfl
    · exact horderly.first
    · exact horderly.second
    · exact horderly.third

/-- **An application settles.** -/
theorem settles_of_progress [NanoYaml] {turns : Turn × Turn × Turn} (horderly : Orderly c s turns)
    (h : Progress c s) : Settles c turns s := by
  have hsat := sat_applyExecutionLifecycle_progress horderly h
  constructor
  · intro head u hruns
    obtain ⟨hprogress, hhead, hne⟩ := hsat.of_runs hruns
    exact ⟨hhead, hprogress.publishedOnce hne⟩
  · intro hrefused hun
    rcases hsat.ends with ⟨visited, head, heq, -⟩ | ⟨visited, e, -, -, -, hnot⟩
    · refine ⟨head, _, ?_, rfl⟩
      rw [heq]
    · exact absurd ⟨hrefused, hun⟩ hnot

/-- **A lifecycle is published exactly once.** From the admission of a report whose long text has no
    carriage return and is not yet below `executions`, after any number of orderly applications,
    each killed at any point: the next orderly application settles. -/
theorem orderly_lifecycle_settles [NanoYaml] (h : Admitted c s) (hfindable : Findable c s.remote)
    (hkilled : KilledOrderly c s t) {turns : Turn × Turn × Turn} (horderly : Orderly c t turns) :
    Settles c turns t := by
  refine settles_of_progress horderly ?_
  refine hkilled.invariant (.waiting h.none hfindable (.behind h.admission h.remote)) ?_
  exact fun _ _ hu hok v hv => (sat_applyExecutionLifecycle_progress hok hu).1 v hv

end Programs

namespace ReturnedReplay

open RefusedCommit (sha yaml)
open RacedReplay (files site clean ticketText)

theorem admitted_site : @Admitted sha replay site :=
  @Admitted.mk sha replay site List.suffix_rfl List.suffix_rfl reportCommits_site

theorem todoText_files : @Replay.todoText sha replay [files] = some ticketText := rfl

theorem descends : @Replay.proveControlDescendant sha replay [files] = .ok () := by
  unfold Replay.proveControlDescendant
  rw [if_neg (not_not_intro (show @Replay.admitted sha replay <:+ [files] from List.suffix_rfl)),
    show @Replay.admitted sha replay = [files] from rfl, todoText_files]
  simp only [Option.bind_some, RacedReplay.body]
  rfl

/-- The lifecycle was pushed, and the application is killed. -/
theorem killed_site : ∃ head t, t.remote = head ∧ @Unfound sha replay head
    ∧ @Killed sha yaml replay site t := by
  choose names hnames using @RacedReplay.exists_freshNames sha ReportStore.returnReport
  obtain ⟨head, t, h⟩ := commits names (hnames files.reports)
  have hunfound := @unfound_of_runs sha replay (turn names) site t yaml head clean List.suffix_rfl
    reportCommits_site (hnames files.reports) h not_findable
  obtain ⟨after, hhead, -⟩ := @committed_of_runs yaml sha replay (turn names) site t head
    (hnames files.reports) h
  have hmade : t.control = head ∧ t.remote = [files] := by
    obtain ⟨_, _, _, -, -, ht⟩ := (@runs_commitLifecycle yaml sha _ _ _ _ _).mp h
    exact ⟨by rw [ht], by rw [ht]; rfl⟩
  have hfair : @Fair sha replay (turn names) :=
    @Fair.mk sha replay (turn names) (fun _ h => absurd h List.not_mem_nil)
      (fun _ h => absurd h List.not_mem_nil) hnames
  have halign := @runs_alignControl_admitted sha replay (turn names) site [files] rfl descends rfl
  have hadmitted : [files] = @Replay.admitted sha replay := rfl
  rw [if_pos hadmitted] at halign
  have hnone : @Replay.remoteLifecycleCommit sha replay [files] = .ok none := by
    unfold Replay.remoteLifecycleCommit
    rw [show @Replay.reportCommits sha replay [files] = [] from reportCommits_site]
    rfl
  have hpush : { t with remote := t.control } ∈ (pushControl (turn names) t).visited := by
    refine visited_pushControl nofun ?_
    rw [hmade.1, hhead]
    exact hmade.2 ▸ List.suffix_cons _ _
  exact ⟨head, { t with remote := t.control }, hmade.1, hunfound,
    .single ⟨(turn names, turn names, turn names), ⟨hfair, hfair, hfair⟩,
      @visited_applyExecutionLifecycle sha replay site _ [files] yaml _ _ _ _ _ rfl clean
        (runs_fetchControl rfl (List.cons_ne_nil _ _)) hnone halign h hpush⟩⟩

/-- The next application does not return, though nothing is in the way. -/
theorem returned_not_settles : ¬ ∀ (c : @Replay sha) (s t : ReplaySite)
    (turns : Turn × Turn × Turn), @Admitted sha c s → @Killed sha yaml c s t →
      @FairTurns sha c turns → @Settles sha yaml c turns t := by
  intro hall
  choose names hnames using @RacedReplay.exists_freshNames sha ReportStore.returnReport
  let free : Turn := { turn names with push := .accepted }
  have hfair : @Fair sha replay free :=
    @Fair.mk sha replay free (fun _ h => absurd h List.not_mem_nil)
      (fun _ h => absurd h List.not_mem_nil) hnames
  obtain ⟨head, t, hremote, hunfound, hkilled⟩ := killed_site
  have hsettles := hall replay site t (free, free, free) admitted_site hkilled ⟨hfair, hfair, hfair⟩
  have hpublished : @Replay.reportCommits sha replay (arrive free.before t.remote) ≠ [] := by
    intro hnil
    have hpresent := @Unfound.present sha replay head hunfound
    rw [← hremote, show t.remote.fileAt (@Replay.json sha replay) = none from
      @fileAt_of_reportCommits sha replay _ hnil] at hpresent
    cases hpresent
  have hun : @Unhindered sha yaml replay free t :=
    @Unhindered.mk sha yaml replay free t rfl rfl rfl rfl rfl (fun h => absurd h hpublished)
      fun h => absurd h hpublished
  obtain ⟨head', u, hruns⟩ := @Settles.returns sha yaml replay (free, free, free) t hsettles rfl hun
  exact @not_runs_of_unfound sha replay t t yaml (hremote ▸ hunfound) .refl (free, free, free)
    ⟨hfair, hfair, hfair⟩ head' u hruns

end ReturnedReplay

/-! ### A report that is not long -/

namespace RacedReplay

open RefusedCommit (sha yaml)

theorem findable_site : @Findable sha replay site.remote := by
  intro long hlong
  have hnone : (@Replay.report sha replay).reportArtifact = none := rfl
  have hsome := @reportArtifact_isSome sha replay
  rw [hlong, hnone] at hsome
  exact absurd hsome Bool.false_ne_true

theorem admitted_site : @Admitted sha replay site :=
  @Admitted.mk sha replay site List.suffix_rfl List.suffix_rfl reportCommits_site

/-- Nobody pushes, and the push of the lifecycle is accepted. -/
def quiet (names : Files → ReportStore.Names) : Turn := { turn names with before := [] }

section Names

variable {names : Files → ReportStore.Names}
  (hnames : ∀ reports, @FreshNames sha built (names reports) reports)

include hnames

theorem careful_turn : @Careful sha replay (turn names) := by
  refine @Careful.mk sha replay (turn names) (fair hnames) ?_ fun _ h => absurd h List.not_mem_nil
  intro edit hedit files
  rw [List.mem_singleton.mp hedit]
  rfl

theorem careful_quiet : @Careful sha replay (quiet names) :=
  @Careful.mk sha replay (quiet names)
    (@Fair.mk sha replay (quiet names) (fun _ h => absurd h List.not_mem_nil)
      (fun _ h => absurd h List.not_mem_nil) hnames)
    (fun _ h => absurd h List.not_mem_nil) fun _ h => absurd h List.not_mem_nil

/-- The application is killed between its commit and its push. -/
theorem killed_unpublished {after : ControlFiles}
    (hcommit : Runs (@commitLifecycle sha replay (turn names) yaml) landed (after :: raced)
      ⟨after :: raced, after, raced⟩) :
    @KilledOrderly sha yaml replay site ⟨after :: raced, after, raced⟩ := by
  have hcareful := careful_turn hnames
  exact .single ⟨_, @Orderly.mk sha replay site (turn names, turn names, turn names) clean hcareful
    hcareful hcareful, visited_of_push hcommit (visited_bind (List.mem_singleton.mpr rfl))⟩

/-- Nothing is in the way of the next one. -/
theorem unhindered {after : ControlFiles} :
    @Unhindered sha yaml replay (quiet names) ⟨after :: raced, after, raced⟩ := by
  refine @Unhindered.mk sha yaml replay (quiet names) _ rfl rfl rfl rfl rfl (fun _ => descends)
    fun _ => ?_
  have hmoved : after :: raced ≠ raced := List.cons_ne_self _ _
  have hlanding : ReplaySite.landing ⟨after :: raced, after, raced⟩ raced = addTicket files := by
    unfold ReplaySite.landing
    rw [if_neg hmoved]
    rfl
  show ∃ ticket reports name, @Commitable yaml sha _ _ (names (ReplaySite.landing _ raced).reports) _
    (ReplaySite.landing _ raced).tree ticket reports name
  rw [hlanding]
  exact commitable (hnames _)

end Names

/-- The application that was killed is replayed beside the ticket: the next one returns, with one
    commit of the report on the remote. -/
theorem orderly_lifecycle_settles_killed : ∃ after turns,
    @KilledOrderly sha yaml replay site ⟨after :: raced, after, raced⟩
      ∧ @Orderly sha replay ⟨after :: raced, after, raced⟩ turns
      ∧ ∃ head u, Runs (@applyExecutionLifecycle sha replay yaml turns)
          ⟨after :: raced, after, raced⟩ head u
        ∧ u.remote = head ∧ @PublishedOnce sha replay u.remote := by
  choose names hnames using @exists_freshNames sha built
  obtain ⟨after, hcommit⟩ := commits hnames
  have hkilled := killed_unpublished hnames hcommit
  have hcareful := careful_quiet hnames
  have hclean : ReplaySite.isClean ⟨after :: raced, after, raced⟩ = true := by
    show sameFiles after after = true
    simp [sameFiles]
  have horderly : @Orderly sha replay ⟨after :: raced, after, raced⟩
      (quiet names, quiet names, quiet names) :=
    @Orderly.mk sha replay _ (quiet names, quiet names, quiet names) hclean hcareful hcareful
      hcareful
  have hsettles := @orderly_lifecycle_settles sha replay site _ yaml admitted_site findable_site
    hkilled _ horderly
  obtain ⟨head, u, hruns⟩ :=
    @Settles.returns sha yaml replay _ _ hsettles rfl (unhindered hnames)
  exact ⟨after, _, hkilled, horderly, head, u, hruns,
    @Settles.returned sha yaml replay _ _ hsettles head u hruns⟩

end RacedReplay

end Wire

end Devlegate
