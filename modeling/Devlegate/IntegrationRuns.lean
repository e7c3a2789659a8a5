import Devlegate.ControlCommits

namespace Devlegate

open JsonText Crash

namespace Wire.IntegrationSite

/-!
# Integrations that are killed

The integration of a checkpoint is a record, a push of the product branch, a fast-forward of the
checkout, a rename, a commit and a push of the control branch.  A process may be killed after any of
these, and so may each process that takes the integration up again.

* `Admission`: the state in which an iteration admits the integration.
* `Underway`: what every state on the way looks like, whoever was killed where.
* `sat_integrateAccepted`: from a clean state on the way an integration arrives at its end.
* `killed_underway`: one commit is made at most, and the remotes move forward to the recorded heads.
* `resumes_iff`: a recovery arrives exactly when the control worktree is clean.
-/

/-! ### The states on the way -/

section Way

variable [NanoYaml] [Sha256]

/-- The state in which the integration is admitted: both worktrees are clean, nothing was committed
    on the control branch after the acceptance, and the checkpoint can be published. -/
structure Admission (history : History Text) (intent : AcceptedIntent) (V : ControlCommit)
    (report : ExecutionReport) (s : IntegrationSite) : Prop where
  named : intent.ticketId ≠ ""
  recorded : s.control = intent.controlHead
  level : s.controlRemote = s.control
  clean : s.ControlClean
  productClean : s.productClean = true
  transitions : AcceptedHistory intent.ticketId V s.control s.control
  accepted : ticketState intent.ticketId s.files = .ok (some .accepted)
  evidence : acceptedExecutionReport s.evidence intent.ticketId = .ok report
  delta : ¬ IsZeroDelta report
  settles : Settles history report s

/-- The end: the integration commit is on both sides, and the product branch has the checkpoint. -/
structure Arrived (history : History Text) (intent : AcceptedIntent) (report : ExecutionReport)
    (s t : IntegrationSite) : Prop where
  control : t.control = created intent.ticketId s
  controlRemote : t.controlRemote = created intent.ticketId s
  clean : t.ControlClean
  product : ∃ head, t.productRemote = some head
    ∧ history.isAncestor (checkpointOf report) head = true

/-- A state on the way: the control branch is where it was or at the one integration commit, which
    is published only when it is here, the product side is where it was or further, and the record
    is there until the end. -/
structure Underway (history : History Text) (intent : AcceptedIntent) (report : ExecutionReport)
    (s t : IntegrationSite) : Prop where
  heads : (t.control = s.control ∧ t.controlRemote = s.control
        ∧ (t.files = s.files ∨ t.files = moveToDone intent.ticketId s.files))
    ∨ (t.control = created intent.ticketId s ∧ t.files = moveToDone intent.ticketId s.files
        ∧ (t.controlRemote = s.control ∨ t.controlRemote = created intent.ticketId s))
  record : t.pending = some intent
    ∨ t.pending = none ∧ Arrived history intent report s t
  execution : t.executionRemote = s.executionRemote
  productClean : t.productClean = true
  product : t.productRemote = s.productRemote ∨ t.productRemote = some (checkpointOf report)
  settles : Settles history report t

end Way

section Product

variable {history : History Text} {report : ExecutionReport} {s t u : IntegrationSite}

/-- What the product side of an integration with a delta may change. -/
structure Forward (history : History Text) (report : ExecutionReport) (s t : IntegrationSite) :
    Prop where
  same : SameControl s t
  execution : t.executionRemote = s.executionRemote
  productClean : t.productClean = s.productClean
  product : t.productRemote = s.productRemote ∨ t.productRemote = some (checkpointOf report)
  settles : Settles history report t

theorem isAncestor_publishedHead (checkpoint productHead : Text) :
    history.isAncestor checkpoint (publishedHead history checkpoint productHead) = true := by
  unfold publishedHead
  split
  · assumption
  · exact history.refl checkpoint

theorem publishedHead_publishedHead (checkpoint productHead : Text) :
    publishedHead history checkpoint (publishedHead history checkpoint productHead)
      = publishedHead history checkpoint productHead :=
  if_pos (isAncestor_publishedHead checkpoint productHead)

/-- The checkout that was fast-forwarded can be fast-forwarded again. -/
theorem fastForward_again {head target product : Text}
    (h : history.fastForward head target = some product) :
    (history.fastForward product target).isSome := by
  unfold History.fastForward at h
  split at h
  · cases h
    rw [History.fastForward_of_ancestor (history.refl target)]
    rfl
  · split at h
    · cases h
      rename_i hahead
      unfold History.fastForward
      rw [if_neg ‹_›, if_pos hahead]
      rfl
    · cases h

/-- The product side can be settled from a head of the product branch, with a delta. -/
structure Publishable (history : History Text) (report : ExecutionReport) (productHead : Text)
    (s : IntegrationSite) : Prop where
  remote : s.productRemote = some productHead
  publishes : history.isAncestor (checkpointOf report) productHead = true
    ∨ history.isAncestor productHead (checkpointOf report) = true
  clean : s.productClean = true
  forward : s.product = checkpointOf report ∨ (history.fastForward s.product
    (publishedHead history (checkpointOf report) productHead)).isSome

theorem Settles.publishable (h : Settles history report s) (hdelta : ¬ IsZeroDelta report) :
    ∃ productHead, Publishable history report productHead s := by
  obtain ⟨productHead, hremote, hfrom⟩ := h
  unfold SettlesFrom at hfrom
  rw [if_neg hdelta] at hfrom
  exact ⟨productHead, hremote, hfrom.1, hfrom.2.1, hfrom.2.2⟩

/-- The control side does not decide whether the product side can be settled. -/
theorem Settles.of_product (h : Settles history report s) (hdelta : ¬ IsZeroDelta report)
    (hremote : t.productRemote = s.productRemote) (hclean : t.productClean = s.productClean)
    (hproduct : t.product = s.product) : Settles history report t := by
  obtain ⟨productHead, hhead, hfrom⟩ := h
  refine ⟨productHead, hremote.trans hhead, ?_⟩
  unfold SettlesFrom at hfrom ⊢
  rw [if_neg hdelta] at hfrom ⊢
  rwa [hclean, hproduct]

variable {productHead : Text}

/-- The site with the checkpoint on the product branch. -/
def published (history : History Text) (report : ExecutionReport) (productHead product : Text)
    (s : IntegrationSite) : IntegrationSite :=
  { s with
    productRemote := some (publishedHead history (checkpointOf report) productHead)
    product := product }

theorem Publishable.forward_published (h : Publishable history report productHead s)
    (hdelta : ¬ IsZeroDelta report) {product : Text}
    (hproduct : product = checkpointOf report ∨ (history.fastForward product
      (publishedHead history (checkpointOf report) productHead)).isSome) :
    Forward history report s (published history report productHead product s) := by
  refine ⟨⟨rfl, rfl, rfl, rfl⟩, rfl, rfl, ?_, _, rfl, ?_⟩
  · show some (publishedHead history (checkpointOf report) productHead) = _
      ∨ some (publishedHead history (checkpointOf report) productHead) = _
    unfold publishedHead
    split
    · exact .inl h.remote.symm
    · exact .inr rfl
  · unfold SettlesFrom
    rw [if_neg hdelta, publishedHead_publishedHead]
    exact ⟨.inl (isAncestor_publishedHead _ _), h.clean, hproduct⟩

theorem Publishable.sat_publishCheckpoint (h : Publishable history report productHead s)
    (hdelta : ¬ IsZeroDelta report) :
    Sat (Forward history report s) (publishCheckpoint history (checkpointOf report) productHead)
      (fun _ t => t = published history report productHead s.product s) (fun _ _ => False) s := by
  unfold publishCheckpoint
  by_cases hthere : history.isAncestor (checkpointOf report) productHead = true
  · rw [if_pos hthere]
    refine .pure ?_
    unfold published publishedHead
    rw [if_pos hthere, ← h.remote]
  · rw [if_neg hthere]
    have hhead : publishedHead history (checkpointOf report) productHead = checkpointOf report :=
      if_neg hthere
    have hat := h.forward_published hdelta h.forward
    unfold published at hat ⊢
    rw [hhead] at hat ⊢
    exact .bind (.ensure (fun _ => .effect hat rfl)
      fun hnot => hnot (h.publishes.resolve_left hthere))

theorem Publishable.sat_synchronizeCheckout (h : Publishable history report productHead s)
    (hdelta : ¬ IsZeroDelta report) :
    Sat (Forward history report s) (synchronizeCheckout history (checkpointOf report))
      (fun _ t => ∃ product, t = published history report productHead product s
        ∧ Forward history report s t) (fun _ _ => False)
      (published history report productHead s.product s) := by
  unfold synchronizeCheckout
  refine .bind (.get (.bind (.ensure (fun _ => ?_) fun hnot => hnot h.clean)))
  show Sat _ (if s.product = checkpointOf report then _ else _) _ _ _
  by_cases hthere : s.product = checkpointOf report
  · rw [if_pos hthere]
    exact .pure ⟨s.product, rfl, h.forward_published hdelta h.forward⟩
  · rw [if_neg hthere]
    obtain ⟨product, hproduct⟩ := Option.isSome_iff_exists.mp (h.forward.resolve_left hthere)
    have hforward : (published history report productHead s.product s).productRemote.bind
        (history.fastForward (published history report productHead s.product s).product)
          = some product := hproduct
    rw [hforward]
    have hagain := h.forward_published hdelta (.inr (fastForward_again hproduct))
    exact .effect hagain ⟨product, rfl, hagain⟩

/-- The product side, state by state. -/
theorem sat_settleProduct_forward (hdelta : ¬ IsZeroDelta report)
    (hsettles : Settles history report s) :
    Sat (Forward history report s) (settleProduct history report)
      (fun head t => head = expectedHead report s ∧ Forward history report s t
        ∧ ∃ productHead, t.productRemote = some productHead
          ∧ history.isAncestor (checkpointOf report) productHead = true)
      (fun _ _ => False) s := by
  obtain ⟨productHead, h⟩ := hsettles.publishable hdelta
  unfold settleProduct
  refine .bind (.get ?_)
  rw [h.remote]
  dsimp only
  rw [if_neg hdelta]
  refine .bind ((h.sat_publishCheckpoint hdelta).mono (fun _ h => h) ?_ fun _ _ h => h)
  rintro _ _ rfl
  refine .bind ((h.sat_synchronizeCheckout hdelta).mono (fun _ h => h) ?_ fun _ _ h => h)
  rintro _ _ ⟨product, rfl, hforward⟩
  exact .pure ⟨(if_neg hdelta).symm, hforward, _, rfl, isAncestor_publishedHead _ _⟩

end Product

/-! ### The control side -/

section Control

/-- HEAD of a clean worktree has the files that are in it. -/
theorem exists_of_clean {s : IntegrationSite} (h : s.ControlClean) :
    ∃ rest, s.control = s.files :: rest := by
  unfold ControlClean at h
  cases hcontrol : s.control with
  | nil =>
    rw [hcontrol] at h
    cases h
  | cons files rest =>
    rw [hcontrol] at h
    exact ⟨rest, by rw [Option.some.inj h]⟩

variable [NanoYaml] [Sha256] {history : History Text} {intent : AcceptedIntent}
  {V : ControlCommit} {report : ExecutionReport} {s t u : IntegrationSite}

/-- The evidence is found at the integration commit as at the acceptance. -/
theorem Admission.evidence_created (h : Admission history intent V report s) {files : ControlFiles}
    (hreports : files.reports = s.files.reports) :
    acceptedExecutionReport
        ⟨created intent.ticketId s, files.reports, .ok s.executionRemote⟩ intent.ticketId
      = .ok report := by
  obtain ⟨rest, hcontrol⟩ := exists_of_clean h.clean
  have hcommit : created intent.ticketId s = integrationCommit intent.ticketId s.control := by
    unfold created integrationCommit
    rw [hcontrol]
  obtain ⟨review, -, hadmission⟩ := h.transitions.reviewAdmission_eq
  have hevidence := h.evidence
  rw [acceptedExecutionReport_of_admission
    (show reviewAdmission _ s.evidence.head = .ok (_, review) from hadmission)] at hevidence
  have hintegrated := h.transitions.reviewAdmission_integrated_self.trans hadmission
  rw [hcommit, acceptedExecutionReport_of_admission
    (show reviewAdmission _ (EvidenceSite.head ⟨integrationCommit intent.ticketId s.control,
      files.reports, .ok s.executionRemote⟩) = .ok (_, review) from hintegrated), hreports]
  exact hevidence

/-- The evidence is found in every state on the way. -/
theorem Underway.evidence (h : Admission history intent V report s)
    (hway : Underway history intent report s t) :
    acceptedExecutionReport t.evidence intent.ticketId = .ok report := by
  unfold IntegrationSite.evidence
  rw [hway.execution]
  rcases hway.heads with ⟨hcontrol, -, hfiles⟩ | ⟨hcontrol, hfiles, -⟩
  · rw [hcontrol]
    have hsame : t.files.reports = s.files.reports := by
      rcases hfiles with hfiles | hfiles <;> rw [hfiles]
      rfl
    rw [hsame]
    exact h.evidence
  · rw [hcontrol]
    exact h.evidence_created (by rw [hfiles]; rfl)

/-- A clean state at the recorded head has its ticket accepted. -/
theorem Underway.files_of_clean (h : Admission history intent V report s)
    (hclean : t.ControlClean) (hcontrol : t.control = s.control) : t.files = s.files := by
  have hstart := h.clean
  unfold ControlClean at hstart hclean
  rw [hcontrol] at hclean
  exact Option.some.inj (hclean.symm.trans hstart)

omit [NanoYaml] [Sha256] in
/-- The product side keeps a state on the way. -/
theorem Underway.forward (hway : Underway history intent report s t)
    (hpending : t.pending = some intent) (h : Forward history report t u) :
    Underway history intent report s u where
  heads := by
    rw [h.same.control, h.same.controlRemote, h.same.files]
    exact hway.heads
  record := .inl (h.same.pending.trans hpending)
  execution := h.execution.trans hway.execution
  productClean := h.productClean.trans hway.productClean
  product := by
    rcases h.product with hsame | hcheckpoint
    · rw [hsame]
      exact hway.product
    · exact .inr hcheckpoint
  settles := h.settles

/-- The integration commit is exact. -/
theorem Admission.exact (h : Admission history intent V report s) :
    isExactIntegration intent.ticketId s.control (created intent.ticketId s) = true := by
  obtain ⟨rest, hcontrol⟩ := exists_of_clean h.clean
  exact isExactIntegration_iff.mpr ⟨_, _, _, hcontrol, rfl, isMove_of_accepted h.accepted⟩

/-- A state at its end, but for the record. -/
structure Integrated (history : History Text) (intent : AcceptedIntent) (report : ExecutionReport)
    (s t u : IntegrationSite) : Prop where
  way : Underway history intent report s u
  control : u.control = created intent.ticketId s
  controlRemote : u.controlRemote = created intent.ticketId s
  productRemote : u.productRemote = t.productRemote

/-- The control side, effect by effect. -/
theorem Underway.sat_completeAccepted (h : Admission history intent V report s)
    (hway : Underway history intent report s t) (hclean : t.ControlClean)
    (hpending : t.pending = some intent) :
    Sat (Underway history intent report s) (completeAccepted intent.ticketId s.control)
      (fun _ u => Integrated history intent report s t u) (fun _ _ => False) t := by
  rcases hway.heads with ⟨hcontrol, hremote, -⟩ | ⟨hcontrol, hfiles, hremote⟩
  · -- at the recorded head, the commit is made
    have hfiles := Underway.files_of_clean h hclean hcontrol
    have hcreated : created intent.ticketId t = created intent.ticketId s := by
      unfold created
      rw [hcontrol, hfiles]
    have hcreates : Creates intent.ticketId s.control t := by
      refine ⟨?_, ⟨report, hway.evidence h⟩, hcontrol⟩
      rw [hfiles]
      exact h.accepted
    obtain ⟨visited, result, heq, hends⟩ := completeAccepted_creates hcreates
    rw [hcreated, hremote] at hends
    obtain ⟨-, -, hnot⟩ | ⟨rfl, rfl, -⟩ := hends
    · exact absurd ⟨h.exact, List.suffix_cons _ _⟩ hnot
    have hsettles : ∀ u : IntegrationSite, u.productRemote = t.productRemote →
        u.productClean = t.productClean → u.product = t.product → Settles history report u :=
      fun u => hway.settles.of_product h.delta
    have hrenamed : Underway history intent report s (renamed intent.ticketId t) :=
      ⟨.inl ⟨hcontrol, hremote, .inr (by rw [← hfiles]; rfl)⟩, .inl hpending, hway.execution,
        hway.productClean, hway.product, hsettles _ rfl rfl rfl⟩
    have hcommitted : Underway history intent report s (committed intent.ticketId t) :=
      ⟨.inr ⟨hcreated, by rw [← hfiles]; rfl, .inl hremote⟩, .inl hpending, hway.execution,
        hway.productClean, hway.product, hsettles _ rfl rfl rfl⟩
    have hintegrated : Underway history intent report s (integrated intent.ticketId t) :=
      ⟨.inr ⟨hcreated, by rw [← hfiles]; rfl, .inr hcreated⟩, .inl hpending, hway.execution,
        hway.productClean, hway.product, hsettles _ rfl rfl rfl⟩
    unfold Sat
    rw [heq]
    refine ⟨?_, hintegrated, hcreated, hcreated, rfl⟩
    simpa using ⟨hrenamed, hcommitted, hintegrated⟩
  · -- the commit was made before, and its ticket is in `done`
    have hdone : ticketState intent.ticketId t.files = .ok (some .done) := by
      rw [hfiles]
      exact ticketState_moveToDone h.accepted
    rcases hremote with hremote | hremote
    · -- the commit is only here
      have hpublished : Underway history intent report s { t with controlRemote := t.control } :=
        ⟨.inr ⟨hcontrol, hfiles, .inr hcontrol⟩, .inl hpending, hway.execution, hway.productClean,
          hway.product, hway.settles.of_product h.delta rfl rfl rfl⟩
      have hobserved : observeControlIntegration intent.ticketId s.control t.control t.controlRemote
          = .localExactUnpublished t.control := by
        rw [hremote, hcontrol]
        exact observe_localExact h.exact
      unfold Sat
      rw [completeAccepted_unpublished hdone hobserved]
      refine ⟨?_, hpublished, hcontrol, hcontrol, rfl⟩
      intro u hu
      exact List.mem_singleton.mp hu ▸ hpublished
    · -- the commit is on the remote
      have hobserved : observeControlIntegration intent.ticketId s.control t.control t.controlRemote
          = .remoteExactPublished t.control := by
        rw [hremote, hcontrol]
        exact observe_remoteExact h.exact List.suffix_rfl
      unfold Sat
      rw [completeAccepted_published hdone hobserved]
      exact ⟨fun _ hu => (List.not_mem_nil hu).elim, hway, hcontrol, hremote, rfl⟩

/-- From a clean state on the way an integration arrives, and stays on the way before. -/
theorem Underway.sat_integrateAccepted (h : Admission history intent V report s)
    (hway : Underway history intent report s t) (hclean : t.ControlClean)
    (hpending : t.pending = some intent) :
    Sat (Underway history intent report s) (integrateAccepted history intent.ticketId)
      (fun _ u => Underway history intent report s u ∧ Arrived history intent report s u)
      (fun _ _ => False) t := by
  unfold integrateAccepted
  refine .bind (.get (.bind (.ensure (fun _ => ?_) fun hnot => hnot ⟨hway.productClean, hclean⟩)))
  refine .bind (.observe (hway.evidence h) ?_)
  refine .bind ((sat_settleProduct_forward h.delta hway.settles).mono
    (fun u hu => hway.forward hpending hu) ?_ fun _ _ h => h)
  rintro _ u ⟨rfl, hforward, productHead, hremote, hcontains⟩
  have hexpected : expectedHead report t = s.control := by
    unfold expectedHead
    rw [if_neg h.delta, hpending]
    exact h.recorded.symm
  have hclean' : u.ControlClean := by
    unfold ControlClean at hclean ⊢
    rw [hforward.same.control, hforward.same.files]
    exact hclean
  rw [hexpected]
  refine (Underway.sat_completeAccepted h (hway.forward hpending hforward) hclean'
    (hforward.same.pending.trans hpending)).mono (fun _ h => h) ?_ fun _ _ h => h
  intro _ v hv
  refine ⟨hv.way, hv.control, hv.controlRemote, ?_, productHead, hv.productRemote.trans hremote,
    hcontains⟩
  rcases hv.way.heads with ⟨hhead, -, -⟩ | ⟨hhead, hfiles, -⟩
  · have hboth := hhead.symm.trans hv.control
    exact absurd hboth.symm (Timeline.cons_append_ne _ [] _)
  · unfold ControlClean
    rw [hhead, hfiles]
    rfl

/-! ### The two programs -/

variable {todoFingerprint : ControlFiles → String}

variable (todoFingerprint) in
omit [NanoYaml] [Sha256] in
/-- At the end the record is taken back. -/
theorem Underway.recorded (hway : Underway history intent report s t)
    (harrived : Arrived history intent report s t) (hdelta : ¬ IsZeroDelta report)
    (remoteHead : Text) (controlHead : ControlCommit) :
    Underway history intent report s
        (recordIntegration todoFingerprint remoteHead controlHead t)
      ∧ Arrived history intent report s
        (recordIntegration todoFingerprint remoteHead controlHead t) :=
  have harrived' : Arrived history intent report s
      (recordIntegration todoFingerprint remoteHead controlHead t) :=
    ⟨harrived.control, harrived.controlRemote, harrived.clean, harrived.product⟩
  ⟨⟨hway.heads, .inr ⟨rfl, harrived'⟩, hway.execution, hway.productClean, hway.product,
    hway.settles.of_product hdelta rfl rfl rfl⟩, harrived'⟩

/-- Nothing has to be fast-forwarded in a clean state on the way. -/
theorem Underway.syncControl_eq (h : Admission history intent V report s)
    (hway : Underway history intent report s t) (hclean : t.ControlClean)
    (hpending : t.pending = some intent) : syncControl t = ⟨[], .ok t.control⟩ := by
  have hstart : syncControl t = _ := Program.ensure_bind hclean _ _ t
  rw [hstart]
  have hstay : t.control = t.controlRemote ∨ t.control = created intent.ticketId s
      ∧ t.controlRemote = s.control := by
    rcases hway.heads with ⟨hcontrol, hremote, -⟩ | ⟨hcontrol, -, hremote⟩
    · exact .inl (hcontrol.trans hremote.symm)
    · rcases hremote with hremote | hremote
      · exact .inr ⟨hcontrol, hremote⟩
      · exact .inl (hcontrol.trans hremote.symm)
  rcases hstay with hsame | ⟨hcontrol, hremote⟩
  · rw [if_pos hsame]
    rfl
  · have hahead : ¬ created intent.ticketId s <:+ s.control :=
      Timeline.not_suffix_of_longer (Nat.lt_succ_self _)
    have hne : created intent.ticketId s ≠ s.control := Timeline.cons_append_ne _ [] _
    rw [hcontrol, hremote, if_neg hne, if_neg hahead, hpending]
    dsimp only
    rw [← h.recorded, observe_localExact (h.recorded ▸ h.exact)]
    rfl

/-- **A recovery.** From a clean state on the way a recovery arrives, and stays on the way before. -/
theorem Underway.sat_recover (h : Admission history intent V report s)
    (hway : Underway history intent report s t) (hclean : t.ControlClean)
    (hpending : t.pending = some intent) :
    Sat (Underway history intent report s) (recoverAcceptedIntegration history todoFingerprint)
      (fun _ u => Arrived history intent report s u ∧ u.pending = none) (fun _ _ => False) t := by
  obtain ⟨productHead, hremote, -⟩ := hway.settles
  unfold recoverAcceptedIntegration
  refine .bind (.get ?_)
  rw [hpending]
  dsimp only
  refine .bind (.ensure (fun _ => ?_) fun hnot => hnot h.named)
  have hsync : Sat (Underway history intent report s) syncControl
      (fun head u => head = t.control ∧ u = t) (fun _ _ => False) t := by
    unfold Sat
    rw [hway.syncControl_eq h hclean hpending]
    exact ⟨fun _ hu => (List.not_mem_nil hu).elim, rfl, rfl⟩
  refine .bind (hsync.mono (fun _ h => h) ?_ fun _ _ h => h)
  rintro _ u ⟨rfl, rfl⟩
  refine .bind (.get ?_)
  rw [hremote]
  refine .bind ((hway.sat_integrateAccepted h hclean hpending).mono (fun _ h => h) ?_
    fun _ _ h => h)
  rintro _ v ⟨hway', harrived⟩
  have hrecord := hway'.recorded todoFingerprint harrived h.delta productHead
    u.control
  exact .effect hrecord.1 ⟨hrecord.2, rfl⟩

/-- A recovery does nothing in a dirty worktree. -/
theorem recover_of_dirty (hpending : t.pending = some intent) (hdirty : ¬ t.ControlClean) :
    ∃ e, recoverAcceptedIntegration history todoFingerprint t = ⟨[], .error e⟩ := by
  unfold recoverAcceptedIntegration
  rw [Program.get_bind, hpending]
  dsimp only
  by_cases hnamed : intent.ticketId ≠ ""
  · have hsync : syncControl t = ⟨[], .error (.blocked "control working tree is dirty")⟩ :=
      Program.ensure_bind_of_not hdirty _ _ t
    rw [Program.ensure_bind hnamed, Program.bind_of_error hsync]
    exact ⟨_, rfl⟩
  · exact ⟨_, Program.ensure_bind_of_not hnamed _ _ t⟩

/-- **The direct path.** From the admission it arrives, and stays on the way before. -/
theorem Admission.sat_runIntegration (h : Admission history intent V report s) (remoteHead : Text) :
    Sat (Underway history intent report s)
      (runIntegration history todoFingerprint intent remoteHead)
      (fun _ u => Arrived history intent report s u ∧ u.pending = none) (fun _ _ => False) s := by
  have hway : Underway history intent report s { s with pending := some intent } :=
    ⟨.inl ⟨rfl, h.level, .inl rfl⟩, .inl rfl, rfl, h.productClean, .inl rfl,
      h.settles.of_product h.delta rfl rfl rfl⟩
  unfold runIntegration
  refine .bind (.effect hway ?_)
  refine .bind ((hway.sat_integrateAccepted h h.clean rfl).mono (fun _ h => h) ?_ fun _ _ h => h)
  rintro head v ⟨hway', harrived⟩
  have hrecord := hway'.recorded todoFingerprint harrived h.delta remoteHead head
  exact .effect hrecord.1 ⟨hrecord.2, rfl⟩

/-! ### Killed runs -/

/-- Whenever the integration and any number of recoveries are killed, the state is on the way. -/
theorem killed_underway (h : Admission history intent V report s) {remoteHead : Text}
    (hfirst : t ∈ (runIntegration history todoFingerprint intent remoteHead s).visited)
    (hruns : Interrupted (fun _ _ => True)
      (fun _ : Unit => recoverAcceptedIntegration history todoFingerprint) t u) :
    Underway history intent report s u := by
  refine hruns.invariant ((h.sat_runIntegration remoteHead).1 t hfirst) fun _ v hway _ => ?_
  rcases hway.record with hpending | ⟨hnone, -⟩
  · by_cases hclean : v.ControlClean
    · exact (hway.sat_recover h hclean hpending).1
    · obtain ⟨e, heq⟩ := @recover_of_dirty _ _ history intent v todoFingerprint hpending hclean
      rw [heq]
      exact fun _ hw => (List.not_mem_nil hw).elim
  · have heq : recoverAcceptedIntegration history todoFingerprint v
        = ⟨[], .error (.failed "invalid accepted integration state")⟩ := by
      unfold recoverAcceptedIntegration
      rw [Program.get_bind, hnone]
      rfl
    rw [heq]
    exact fun _ hw => (List.not_mem_nil hw).elim

/-! #### Where they are killed -/

/-- An integration may be killed between its commit and the push. -/
theorem Admission.committed_visited (h : Admission history intent V report s) (remoteHead : Text) :
    ∃ u ∈ (runIntegration history todoFingerprint intent remoteHead s).visited,
      u.control = created intent.ticketId s ∧ u.controlRemote = s.control
        ∧ u.ControlClean ∧ u.pending = some intent := by
  have hsettles : Settles history report { s with pending := some intent } :=
    h.settles.of_product h.delta rfl rfl rfl
  have hexpected : expectedHead report { s with pending := some intent } = s.control := by
    unfold expectedHead
    rw [if_neg h.delta]
    exact h.recorded.symm
  obtain ⟨u, hu, hcontrol, hremote, hclean, hpending⟩ := IntegrationSite.committed_visited
    (s := { s with pending := some intent }) h.productClean h.clean h.evidence hsettles h.delta
    hexpected h.accepted
  exact ⟨u, visited_bind_runs (a := ()) (runs_effect.mpr rfl) (visited_bind hu), hcontrol,
    hremote.trans h.level, hclean, hpending⟩

/-- A recovery of that may be killed between the push and the record. -/
theorem Underway.published_visited (h : Admission history intent V report s)
    (hway : Underway history intent report s t) (hclean : t.ControlClean)
    (hpending : t.pending = some intent) (hcontrol : t.control = created intent.ticketId s)
    (hremote : t.controlRemote = s.control) :
    ∃ u ∈ (recoverAcceptedIntegration history todoFingerprint t).visited,
      u.controlRemote = created intent.ticketId s ∧ u.ControlClean ∧ u.pending = some intent := by
  obtain ⟨productHead, hproduct, -⟩ := hway.settles
  obtain ⟨visited, -, hsettled, heq⟩ := integrateAccepted_of_settles hway.productClean hclean
    (hway.evidence h) hway.settles
  have hexpected : expectedHead report t = s.control := by
    unfold expectedHead
    rw [if_neg h.delta, hpending]
    exact h.recorded.symm
  have hfiles : t.files = moveToDone intent.ticketId s.files := by
    rcases hway.heads with ⟨hhead, -, -⟩ | ⟨-, hfiles, -⟩
    · exact absurd (hcontrol.symm.trans hhead) (Timeline.cons_append_ne _ [] _)
    · exact hfiles
  have hdone : ticketState intent.ticketId (visited.getLastD t).files = .ok (some .done) := by
    rw [hsettled.same.files, hfiles]
    exact ticketState_moveToDone h.accepted
  have hobserved : observeControlIntegration intent.ticketId s.control (visited.getLastD t).control
      (visited.getLastD t).controlRemote = .localExactUnpublished (created intent.ticketId s) := by
    rw [hsettled.same.control, hsettled.same.controlRemote, hcontrol, hremote]
    exact observe_localExact h.exact
  -- the push of the commit is the one effect left; the kill comes right after it
  have hcomplete := completeAccepted_unpublished hdone hobserved
  rw [hexpected, hcomplete] at heq
  refine ⟨{ visited.getLastD t with controlRemote := (visited.getLastD t).control }, ?_,
    hsettled.same.control.trans hcontrol, ?_, hsettled.same.pending.trans hpending⟩
  case refine_2 =>
    unfold ControlClean at hclean ⊢
    rwa [hsettled.same.control, hsettled.same.files]
  unfold recoverAcceptedIntegration
  rw [Program.get_bind, hpending]
  dsimp only
  rw [Program.ensure_bind h.named]
  have hsync : Runs syncControl t t.control t := by
    unfold Runs
    rw [hway.syncControl_eq h hclean hpending]
    exact ⟨rfl, rfl⟩
  refine visited_bind_runs hsync (visited_bind_runs (runs_get.mpr ⟨rfl, rfl⟩) ?_)
  rw [hproduct]
  refine visited_bind ?_
  rw [heq]
  exact List.mem_append_right _ (.head _)

/-! #### What they leave -/

/-- **One commit.** Whenever the integration and any number of recoveries are killed, the control
    branch is where it was or has the one integration commit on top, on the remote only if it has it
    here; the product branch is where it was or at the checkpoint; and the record is taken back only
    when both have arrived. -/
theorem killed_oneCommit (h : Admission history intent V report s) {remoteHead : Text}
    (hfirst : t ∈ (runIntegration history todoFingerprint intent remoteHead s).visited)
    (hruns : Interrupted (fun _ _ => True)
      (fun _ : Unit => recoverAcceptedIntegration history todoFingerprint) t u) :
    (u.control = s.control ∧ u.controlRemote = s.control
        ∨ u.control = created intent.ticketId s
          ∧ (u.controlRemote = s.control ∨ u.controlRemote = created intent.ticketId s))
      ∧ (u.productRemote = s.productRemote ∨ u.productRemote = some (checkpointOf report))
      ∧ (u.pending = some intent ∨ u.pending = none ∧ Arrived history intent report s u) := by
  have hway := killed_underway h hfirst hruns
  refine ⟨?_, hway.product, hway.record⟩
  rcases hway.heads with ⟨hcontrol, hremote, -⟩ | ⟨hcontrol, -, hremote⟩
  · exact .inl ⟨hcontrol, hremote⟩
  · exact .inr ⟨hcontrol, hremote⟩

/-- **Resumption.** After any such kills a recovery that finds the record arrives if and only if the
    control worktree is clean; otherwise it changes nothing. -/
theorem resumes_iff (h : Admission history intent V report s) {remoteHead : Text}
    (hfirst : t ∈ (runIntegration history todoFingerprint intent remoteHead s).visited)
    (hruns : Interrupted (fun _ _ => True)
      (fun _ : Unit => recoverAcceptedIntegration history todoFingerprint) t u)
    (hpending : u.pending = some intent) :
    ((recoverAcceptedIntegration history todoFingerprint u).result = .ok ()
          ∧ Arrived history intent report s
            ((recoverAcceptedIntegration history todoFingerprint u).last u)
          ∧ ((recoverAcceptedIntegration history todoFingerprint u).last u).pending = none
        ↔ u.ControlClean)
      ∧ (¬ u.ControlClean → (recoverAcceptedIntegration history todoFingerprint u).visited = []) := by
  have hway := killed_underway h hfirst hruns
  have hdirty : ¬ u.ControlClean →
      ∃ e, recoverAcceptedIntegration history todoFingerprint u = ⟨[], .error e⟩ :=
    recover_of_dirty hpending
  refine ⟨⟨?_, fun hclean => ?_⟩, fun hnot => ?_⟩
  · rintro ⟨hok, -⟩
    by_contra hnot
    obtain ⟨e, heq⟩ := hdirty hnot
    rw [heq] at hok
    cases hok
  · obtain ⟨_, hok, harrived, hnone⟩ := (@Underway.sat_recover _ _ history intent V report s u
      todoFingerprint h hway hclean hpending).returns
    exact ⟨hok, harrived, hnone⟩
  · obtain ⟨e, heq⟩ := hdirty hnot
    rw [heq]

end Control

/-! ### One integration -/

/-- The ticket `t1` can be integrated. -/
theorem admission_delivered : @Admission titledYaml emptySha256 flatHistory
    (@deliveredIntent emptySha256 deliveredBase deliveredHead)
    (@reviewCommit emptySha256 deliveredBase deliveredHead)
    (@BuiltReport.report emptySha256 (@deliveredReport emptySha256 deliveredBase deliveredHead))
    admittedSite :=
  @Admission.mk titledYaml emptySha256 _ _ _ _ _ (by decide) rfl rfl rfl rfl
    (@acceptedHistory_self emptySha256 deliveredBase deliveredHead) ticketState_admitted
    (@Ready.evidence _ emptySha256 _ _ _ _ ready_admitted) delivered_delta
    (@Ready.settles _ emptySha256 _ _ _ _ ready_admitted)

/-- The integration is killed between its commit and the push, and the recovery after it between the
    push and the record. -/
theorem exists_killed_delivered :
    ∃ t ∈ (@runIntegration flatHistory titledYaml emptySha256 (fun _ => "")
        (@deliveredIntent emptySha256 deliveredBase deliveredHead) (text deliveredBase)
        admittedSite).visited,
      ∃ u, Interrupted (fun _ _ => True) (fun _ : Unit =>
          @recoverAcceptedIntegration flatHistory titledYaml emptySha256 (fun _ => "")) t u
        ∧ t.control = created "t1" admittedSite ∧ t.controlRemote = admittedSite.control
        ∧ u.controlRemote = created "t1" admittedSite ∧ u.ControlClean
        ∧ u.pending = some (@deliveredIntent emptySha256 deliveredBase deliveredHead) := by
  obtain ⟨t, ht, hcontrol, hremote, hclean, hpending⟩ :=
    @Admission.committed_visited titledYaml emptySha256 _ _ _ _ _ (fun _ => "")
      admission_delivered (text deliveredBase)
  have hway := @killed_underway titledYaml emptySha256 _ _ _ _ _ _ _ (fun _ => "")
    admission_delivered _ ht .refl
  obtain ⟨u, hu, hpublished, hclean', hpending'⟩ :=
    @Underway.published_visited titledYaml emptySha256 _ _ _ _ _ _ (fun _ => "")
      admission_delivered hway hclean hpending hcontrol hremote
  exact ⟨t, ht, u, .single ⟨(), trivial, hu⟩, hcontrol, hremote, hpublished, hclean', hpending'⟩

theorem killed_oneCommit_delivered :
    ∃ u : IntegrationSite, u.controlRemote = created "t1" admittedSite
      ∧ u.pending = some (@deliveredIntent emptySha256 deliveredBase deliveredHead)
      ∧ (u.control = admittedSite.control ∧ u.controlRemote = admittedSite.control
        ∨ u.control = created "t1" admittedSite
          ∧ (u.controlRemote = admittedSite.control
            ∨ u.controlRemote = created "t1" admittedSite)) := by
  obtain ⟨t, ht, u, hkilled, -, -, hremote, -, hpending⟩ := exists_killed_delivered
  exact ⟨u, hremote, hpending, (@killed_oneCommit titledYaml emptySha256 flatHistory _ _ _ _ _ _
    (fun _ => "") admission_delivered _ ht hkilled).1⟩

/-- The next process takes it up and arrives. -/
theorem resumes_delivered :
    ∃ u : IntegrationSite, u.controlRemote = created "t1" admittedSite
      ∧ u.pending = some (@deliveredIntent emptySha256 deliveredBase deliveredHead)
      ∧ (@recoverAcceptedIntegration flatHistory titledYaml emptySha256 (fun _ => "") u).result
        = .ok () := by
  obtain ⟨t, ht, u, hkilled, -, -, hremote, hclean, hpending⟩ := exists_killed_delivered
  exact ⟨u, hremote, hpending, ((@resumes_iff titledYaml emptySha256 flatHistory _ _ _ _ _ _
    (fun _ => "") admission_delivered _ ht hkilled hpending).1.mpr hclean).1⟩

end Wire.IntegrationSite

end Devlegate
