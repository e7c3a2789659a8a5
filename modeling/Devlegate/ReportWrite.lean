import Devlegate.ReportStore

namespace Devlegate

open JsonText Crash

namespace Wire.ReportStore

/-!
# What writing a report leaves

`ExecutionReportStore.write` can raise at many places.  This file says, for every state of the files
below the control worktree, whether it raises and what it leaves then.

* `SameVisible`: Git shows the same of two states, for it does not show directories.
* `Makeable`: the directories of the report are there or can be made.
* `Accepts`: the report can be written.
* `Orphans`: the long report is linked although the report itself cannot be.
* `sat_write_cases`: what `write` leaves in each case.
-/

/-! ### What Git shows -/

/-- What Git shows of a place: a directory has no entry of its own. -/
def visible (files : Files) (location : Location) : Option Node :=
  (files.lookup location).filter (· ≠ .directory)

/-- Git shows the same of both states. -/
def SameVisible (s t : Files) : Prop := visible t = visible s

/-- What is made for a report: nothing that Git shows, and no file. -/
structure Made (s t : Files) : Prop where
  entries : SameEntries s t
  shown : SameVisible s t

section Directories

variable {s t u : Files}

theorem Made.refl (s : Files) : Made s s := ⟨fun _ _ => rfl, rfl⟩

theorem Made.trans (h : Made s t) (h' : Made t u) : Made s u where
  entries ticketId name := (h'.entries ticketId name).trans (h.entries ticketId name)
  shown := Eq.trans h'.shown h.shown

theorem made_insert {location : Location} (hplace : isPlace location = true)
    (hfree : s.lookup location = none) : Made s (s.insert location .directory) := by
  constructor
  · intro ticketId name
    rw [AList.lookup_insert_ne]
    rintro rfl
    cases hplace
  · show visible _ = visible s
    ext1 other
    unfold visible
    by_cases heq : other = location
    · rw [heq, AList.lookup_insert, hfree]
      rfl
    · rw [AList.lookup_insert_ne heq]

/-- A link is shown, so none is new. -/
theorem Made.test_isSymlink (h : Made s t) (location : Location) :
    t.test location Node.isSymlink = s.test location Node.isSymlink := by
  have hshown : ∀ files : Files, files.test location Node.isSymlink
      = (visible files location).any Node.isSymlink := by
    intro files
    unfold Files.test visible
    cases files.lookup location with
    | none => rfl
    | some node => cases node <;> simp [Node.isSymlink, Option.filter]
  rw [hshown t, hshown s, show visible t = visible s from h.shown]

/-! ### The directories -/

/-- A directory is there, or can be made with its parent. -/
def Open (s : Files) (parent location : Location) : Prop :=
  match s.lookup location with
  | some node => node.isDir = true
  | none => ∀ node ∈ s.lookup parent, node.isDir = true

/-- A new directory, with its parent. -/
theorem sat_mkdir {parent location : Location} (hparent : isPlace parent = true)
    (hplace : isPlace location = true) (hne : location ≠ parent) :
    Sat (fun _ => True) (makeDirectory parent location)
      (fun _ t => Made s t ∧ Open s parent location
        ∧ (∃ node, t.lookup location = some node ∧ node.isDir = true)
        ∧ ∀ other, other ≠ parent → other ≠ location → t.lookup other = s.lookup other)
      (fun _ t => t = s ∧ ¬ Open s parent location) s := by
  refine .bind (.get ?_)
  unfold Open
  cases hnode : s.lookup location with
  | some node =>
    refine .ensure (fun hdir => ?_) fun hdir => ⟨rfl, hdir⟩
    exact ⟨Made.refl s, hdir, ⟨node, hnode, hdir⟩, fun _ _ _ => rfl⟩
  | none =>
    refine .bind (.bind (.get ?_))
    cases hup : s.lookup parent with
    | some node =>
      refine .ensure (fun hdir => .effect trivial ?_) fun hdir => ⟨rfl, fun h => hdir (h node rfl)⟩
      refine ⟨made_insert hplace hnode, ?_, ⟨_, AList.lookup_insert _, rfl⟩, ?_⟩
      · intro other hother
        cases hother
        exact hdir
      · exact fun other _ h => AList.lookup_insert_ne h
    | none =>
      -- both are new
      have hnode' : (s.insert parent .directory).lookup location = none := by
        rw [AList.lookup_insert_ne hne, hnode]
      refine .effect trivial (.effect trivial ?_)
      refine ⟨(made_insert hparent hup).trans (made_insert hplace hnode'), nofun,
        ⟨_, AList.lookup_insert _, rfl⟩, fun other hparent' hlocation => ?_⟩
      rw [AList.lookup_insert_ne hlocation, AList.lookup_insert_ne hparent']

/-- The directories of a report are there, or can be made: none of them is a link or a file. -/
structure Makeable (ticketId : Text) (s : Files) : Prop where
  control : s.test .control Node.isSymlink = false
  root : s.test .root Node.isSymlink = false
  parent : Open s .control .root
  ticket : ∀ node ∈ s.lookup (.ticket ticketId), node = .directory

theorem validateRoots_cases (s : Files) :
    validateRoots s = .ok () ∧ s.test .control Node.isSymlink = false
        ∧ s.test .root Node.isSymlink = false
      ∨ ∃ e, validateRoots s = .error e ∧ ¬ (s.test .control Node.isSymlink = false
        ∧ s.test .root Node.isSymlink = false) := by
  unfold validateRoots check
  cases s.test .control Node.isSymlink <;> cases s.test .root Node.isSymlink <;>
    simp [bind, Except.bind]

theorem test_isSymlink_of_isDir {location : Location} {node : Node}
    (h : s.lookup location = some node) (hdir : node.isDir = true)
    (hlink : s.test location Node.isSymlink = false) : node = .directory := by
  unfold Files.test at hlink
  rw [h] at hlink
  cases node with
  | directory => rfl
  | file raw => cases hdir
  | symlink target => cases hlink

/-- The directories of a report, made or refused. -/
theorem sat_makeDirectories_cases (s : Files) (ticketId : Text) :
    Sat (fun _ => True) (makeDirectories ticketId)
      (fun _ t => Made s t ∧ Makeable ticketId s)
      (fun _ t => Made s t ∧ ¬ Makeable ticketId s) s := by
  rcases validateRoots_cases s with ⟨hroots, hcontrol, hroot⟩ | ⟨e, hroots, hnot⟩
  swap
  · exact .bind (.refused hroots ⟨Made.refl s, fun h => hnot ⟨h.control, h.root⟩⟩)
  have hmkdir := @sat_mkdir s .control .root rfl rfl nofun
  refine .bind (.observe hroots (.bind (hmkdir.mono (fun _ h => h) ?_ ?_)))
  swap
  · rintro _ t ⟨ht, hopen⟩
    rw [ht]
    exact ⟨Made.refl s, fun h => hopen h.parent⟩
  rintro _ t ⟨hmade, hopen, ⟨node, hnode, hdir⟩, hothers⟩
  have hlinks : t.test .control Node.isSymlink = false ∧ t.test .root Node.isSymlink = false := by
    rw [hmade.test_isSymlink, hmade.test_isSymlink]
    exact ⟨hcontrol, hroot⟩
  rcases validateRoots_cases t with ⟨hroots', -⟩ | ⟨_, -, hnot⟩
  swap
  · exact absurd hlinks hnot
  refine .bind (.observe hroots' ?_)
  have hplain : node = .directory := test_isSymlink_of_isDir hnode hdir hlinks.2
  have hticket : t.lookup (.ticket ticketId) = s.lookup (.ticket ticketId) :=
    hothers _ nofun nofun
  have hmakeable : Makeable ticketId s ↔ ∀ node ∈ t.lookup (.ticket ticketId), node = .directory := by
    rw [hticket]
    exact ⟨fun h => h.ticket, fun h => ⟨hcontrol, hroot, hopen, h⟩⟩
  by_cases hlink : (t.test (.ticket ticketId) Node.exists
      && t.test (.ticket ticketId) Node.isSymlink) = true
  · refine .bind (.refused (e := .report "execution report ticket directory is a symlink") ?_
      ⟨hmade, fun h => ?_⟩)
    · unfold check
      rw [hlink]
      rfl
    · have hall := hmakeable.mp h
      have hsymlink := (Bool.and_eq_true_iff.mp hlink).2
      unfold Files.test at hsymlink
      cases hat : t.lookup (.ticket ticketId) with
      | none => simp [hat] at hsymlink
      | some other =>
        rw [hat, hall other hat] at hsymlink
        cases hsymlink
  · refine .bind (.observe (a := ()) ?_ ?_)
    · unfold check
      rw [Bool.not_eq_true _ |>.mp hlink]
      rfl
    · refine (@sat_mkdir t .root (.ticket ticketId) rfl rfl nofun).mono (fun _ h => h) ?_ ?_
      · rintro _ u ⟨hmade', hopen', -, -⟩
        refine ⟨hmade.trans hmade', hmakeable.mpr fun other hother => ?_⟩
        unfold Open at hopen'
        rw [Option.mem_def.mp hother] at hopen'
        cases other with
        | directory => rfl
        | file raw => cases hopen'
        | symlink target =>
          -- a link to a directory is seen before
          cases target with
          | directory => exact absurd (by simp [Files.test, Option.mem_def.mp hother, Node.exists, Node.isSymlink]) hlink
          | file => cases hopen'
          | nowhere => cases hopen'
      · rintro _ u ⟨hu, hopen'⟩
        rw [hu]
        refine ⟨hmade, fun h => hopen' ?_⟩
        have hall := hmakeable.mp h
        unfold Open
        cases hat : t.lookup (.ticket ticketId) with
        | none =>
          intro other hother
          rw [hnode] at hother
          cases hother
          exact hdir
        | some other =>
          rw [hall other hat]
          rfl

end Directories

/-! ### The files -/

section Publishing

variable [Sha256] {r : BuiltReport} {names : Names} {s t u : Files}

/-- The temporary files of a run. -/
def IsOwn (r : BuiltReport) (names : Names) (location : Location) : Prop :=
  location = temporaryAt r names.artifact ∨ location = temporaryAt r names.report

/-- The temporary files of a run apart, the files are the same and Git shows the same. -/
structure Near (r : BuiltReport) (names : Names) (s t : Files) : Prop where
  entries : ∀ location, isPlace location = false → ¬ IsOwn r names location →
    t.lookup location = s.lookup location
  shown : ∀ location, ¬ IsOwn r names location → visible t location = visible s location

theorem Near.trans (h : Near r names s t) (h' : Near r names t u) : Near r names s u where
  entries location hplace hown :=
    (h'.entries location hplace hown).trans (h.entries location hplace hown)
  shown location hown := (h'.shown location hown).trans (h.shown location hown)

theorem Made.near (h : Made s t) : Near r names s t where
  entries location hplace _ := by
    cases location with
    | entry ticketId name => exact h.entries ticketId name
    | control => cases hplace
    | root => cases hplace
    | ticket ticketId => cases hplace
  shown location _ := congrFun h.shown location

theorem near_of_lookup (h : ∀ location, ¬ IsOwn r names location →
    t.lookup location = s.lookup location) : Near r names s t where
  entries location _ hown := h location hown
  shown location hown := by
    unfold visible
    rw [h location hown]

theorem Near.refl (s : Files) : Near r names s s := near_of_lookup fun _ _ => rfl

theorem near_insert {location : Location} (hown : IsOwn r names location) (node : Node) :
    Near r names s (s.insert location node) :=
  near_of_lookup fun _ hother => AList.lookup_insert_ne fun heq => hother (heq ▸ hown)

theorem near_erase {location : Location} (hown : IsOwn r names location) :
    Near r names s (s.erase location) :=
  near_of_lookup fun _ hother => AList.lookup_erase_ne fun heq => hother (heq ▸ hown)

/-- The same file in both. -/
theorem Near.insert (h : Near r names s t) (location : Location) (node : Node) :
    Near r names (s.insert location node) (t.insert location node) := by
  constructor
  · intro other hplace hown
    by_cases heq : other = location
    · rw [heq, AList.lookup_insert, AList.lookup_insert]
    · rw [AList.lookup_insert_ne heq, AList.lookup_insert_ne heq, h.entries other hplace hown]
  · intro other hown
    have hshown := h.shown other hown
    unfold visible at hshown ⊢
    by_cases heq : other = location
    · rw [heq, AList.lookup_insert, AList.lookup_insert]
    · rw [AList.lookup_insert_ne heq, AList.lookup_insert_ne heq, hshown]

theorem not_isOwn_json : ¬ IsOwn r names (jsonAt r) := by
  rintro (h | h) <;> cases h

theorem not_isOwn_artifact : ¬ IsOwn r names (artifactAt r) := by
  rintro (h | h) <;> cases h

theorem Near.json (h : Near r names s t) : t.lookup (jsonAt r) = s.lookup (jsonAt r) :=
  h.entries _ rfl not_isOwn_json

theorem Near.artifact (h : Near r names s t) : t.lookup (artifactAt r) = s.lookup (artifactAt r) :=
  h.entries _ rfl not_isOwn_artifact

/-! ### The long report -/

/-- The file of the long report is free, or holds what it is to hold. -/
def ArtifactFits (r : BuiltReport) (s : Files) : Prop :=
  ∀ long, longReport r.report.result.claim = some long →
    s.lookup (artifactAt r) = none ∨ compareArtifact (artifactAt r) long s = .ok ()

/-- The files with the long report. -/
def withArtifact (r : BuiltReport) (s : Files) : Files :=
  match longReport r.report.result.claim, s.lookup (artifactAt r) with
  | some long, none => s.insert (artifactAt r) (.file ((Utf8.encode long).getD []))
  | _, _ => s

omit [Sha256] in
theorem compareArtifact_congr {artifact : Location} {content : Text}
    (h : t.lookup artifact = s.lookup artifact) :
    compareArtifact artifact content t = compareArtifact artifact content s := by
  unfold compareArtifact readText Files.test
  rw [h]

theorem ArtifactFits.congr (h : Near r names s t) : ArtifactFits r t ↔ ArtifactFits r s := by
  unfold ArtifactFits
  simp only [h.artifact, compareArtifact_congr h.artifact]

theorem withArtifact_near (h : Near r names s t) :
    Near r names (withArtifact r s) (withArtifact r t) := by
  unfold withArtifact
  rw [h.artifact]
  split
  · exact h.insert _ _
  · exact h

theorem withArtifact_json : (withArtifact r s).lookup (jsonAt r) = s.lookup (jsonAt r) := by
  unfold withArtifact
  split
  · exact AList.lookup_insert_ne (by simp)
  · rfl

/-- A temporary file is removed. -/
theorem sat_unlink_own {E : StoreError → Files → Prop} {location : Location}
    (hown : IsOwn r names location) :
    Sat (fun _ => True) (unlink location)
      (fun _ u => Near r names s u ∧ u.lookup location = none
        ∧ ∀ other, s.lookup other = none → u.lookup other = none) E s := by
  refine .bind (.get ?_)
  split
  · refine .effect trivial ⟨near_erase hown, AList.lookup_erase _ _, fun other hother => ?_⟩
    by_cases heq : other = location
    · rw [heq, AList.lookup_erase]
    · rw [AList.lookup_erase_ne heq, hother]
  · rename_i hnone
    have hfree : s.lookup location = none := by simpa using hnone
    exact .pure ⟨Near.refl s, hfree, fun _ h => h⟩

/-- The long report, published or refused. -/
theorem sat_publishLong_cases (r : BuiltReport) (names : Names) (s : Files) :
    Sat (fun _ => True) (publishLong r.report names)
      (fun _ u => ArtifactFits r s ∧ Near r names (withArtifact r s) u)
      (fun _ u => ¬ ArtifactFits r s ∧ Near r names s u) s := by
  unfold publishLong
  cases hlong : longReport r.report.result.claim with
  | none =>
    refine .pure ⟨fun long h => ?_, ?_⟩
    · rw [hlong] at h
      cases h
    · unfold withArtifact
      rw [hlong]
      exact Near.refl s
  | some long =>
    obtain ⟨raw, hraw⟩ := exists_encode hlong
    have hown : IsOwn r names (temporaryAt r names.artifact) := .inl rfl
    refine .bind (.effect trivial (.afterwards (.bind (sat_writeText hraw trivial ?_))))
    have hfilled := (near_insert hown (.file []) (s := s)).trans (near_insert hown (.file raw))
    refine .bind (sat_link (AList.lookup_insert _) (fun hfree => ?_) fun other htaken => ?_)
    · -- the name was free
      rw [hfilled.artifact] at hfree
      refine ⟨trivial, .pure ((sat_unlink_own hown).mono (fun _ h => h) ?_ fun _ _ h => h)⟩
      rintro _ u ⟨hnear, -, -⟩
      refine ⟨fun _ _ => .inl hfree, ?_⟩
      have hwith : withArtifact r s = s.insert (artifactAt r) (.file raw) := by
        unfold withArtifact
        rw [hlong, hfree]
        simp only [hraw, Option.getD_some]
      rw [hwith]
      exact (hfilled.insert _ _).trans hnear
    · rw [hfilled.artifact] at htaken
      have hwith : withArtifact r s = s := by
        unfold withArtifact
        rw [hlong, htaken]
      have hcompare := @compareArtifact_congr s _ (artifactAt r) long hfilled.artifact
      have hfits : ArtifactFits r s ↔ compareArtifact (artifactAt r) long s = .ok () := by
        constructor
        · intro h
          rcases h long hlong with hfree | hsame
          · rw [htaken] at hfree
            cases hfree
          · exact hsame
        · intro h other hother
          rw [hlong] at hother
          cases hother
          exact .inr h
      cases hresult : compareArtifact (artifactAt r) long s with
      | ok u =>
        refine .observe (a := ()) (by rw [hcompare, hresult]) ?_
        refine (sat_unlink_own hown).mono (fun _ h => h) ?_ fun _ _ h => h
        rintro _ u ⟨hnear, -, -⟩
        rw [hwith]
        exact ⟨hfits.mpr hresult, hfilled.trans hnear⟩
      | error e =>
        refine .refused (by rw [hcompare, hresult]) ?_
        refine (sat_unlink_own hown).mono (fun _ h => h) ?_ fun _ _ h => h
        rintro _ u ⟨hnear, -, -⟩
        refine ⟨fun h => ?_, hfilled.trans hnear⟩
        rw [hfits.mp h] at hresult
        cases hresult

/-- The report, published unless its name is taken. -/
theorem sat_publishReport_cases (r : BuiltReport) (names : Names) (s : Files) :
    Sat (fun _ => True) (publishReport r.report names.report)
      (fun _ u => s.lookup (jsonAt r) = none
        ∧ ∃ raw, IsJson r raw ∧ Near r names (s.insert (jsonAt r) (.file raw)) u)
      (fun _ u => s.lookup (jsonAt r) ≠ none ∧ Near r names s u) s := by
  obtain ⟨json, hjson, hplain, -, -⟩ := r.exists_toJson
  obtain ⟨raw, hraw⟩ := Option.isSome_iff_exists.mp (Utf8.encode_isSome.mpr hplain)
  have hown : IsOwn r names (temporaryAt r names.report) := .inr rfl
  refine .bind (.effect trivial ?_)
  rw [hjson]
  refine .bind (sat_writeText hraw trivial ?_)
  have hfilled := (near_insert hown (.file []) (s := s)).trans (near_insert hown (.file raw))
  refine .bind (sat_link (AList.lookup_insert _) (fun hfree => ?_) fun other htaken => ?_)
  · rw [hfilled.json] at hfree
    refine ⟨trivial, .ensure (fun _ => ⟨hfree, raw, ⟨json, hjson, hraw⟩, hfilled.insert _ _⟩)
      fun h => absurd rfl h⟩
  · rw [hfilled.json] at htaken
    refine .ensure (fun h => by cases h) fun _ => ⟨?_, hfilled⟩
    rw [htaken]
    nofun

/-- The temporary files are gone. -/
theorem sat_cleanup_cases {E : StoreError → Files → Prop} (r : BuiltReport) (names : Names)
    (s : Files) :
    Sat (fun _ => True) (cleanup r.report names)
      (fun _ u => Near r names s u ∧ ∀ location, IsOwn r names location → u.lookup location = none)
      E s := by
  refine .bind ((sat_unlink_own (.inr rfl)).mono (fun _ h => h) ?_ fun _ _ h => h)
  rintro _ t ⟨hnear, hgone, -⟩
  refine (sat_unlink_own (.inl rfl)).mono (fun _ h => h) ?_ fun _ _ h => h
  rintro _ u ⟨hnear', hgone', hkept⟩
  refine ⟨hnear.trans hnear', ?_⟩
  rintro location (rfl | rfl)
  · exact hgone'
  · exact hkept _ hgone

/-! ### `write` -/

/-- The report can be written. -/
structure Accepts (r : BuiltReport) (s : Files) : Prop where
  directories : Makeable r.report.ticketId s
  artifact : ArtifactFits r s
  json : s.lookup (jsonAt r) = none

/-- The report cannot be written, and its long report is linked before that is seen. -/
structure Orphans (r : BuiltReport) (s : Files) : Prop where
  directories : Makeable r.report.ticketId s
  long : (longReport r.report.result.claim).isSome = true
  artifact : s.lookup (artifactAt r) = none
  json : s.lookup (jsonAt r) ≠ none

/-- No temporary file of the run is there before it. -/
def FreshNames (r : BuiltReport) (names : Names) (s : Files) : Prop :=
  ∀ location, IsOwn r names location → s.lookup location = none

/-- Git shows the same of two states that are the same apart from temporary files, when there are
    none. -/
theorem Near.sameVisible (h : Near r names s t) (hs : FreshNames r names s)
    (ht : FreshNames r names t) : SameVisible s t := by
  show visible t = visible s
  ext1 location
  by_cases hown : IsOwn r names location
  · unfold visible
    rw [hs location hown, ht location hown]
  · exact h.shown location hown

theorem FreshNames.insert {location : Location} {node : Node} (h : FreshNames r names s)
    (hown : ¬ IsOwn r names location) : FreshNames r names (s.insert location node) := by
  intro other hother
  have hne : other ≠ location := by
    rintro rfl
    exact hown hother
  rw [AList.lookup_insert_ne hne, h other hother]

theorem FreshNames.withArtifact (h : FreshNames r names s) :
    FreshNames r names (withArtifact r s) := by
  unfold ReportStore.withArtifact
  split
  · exact h.insert not_isOwn_artifact
  · exact h

/-- What a linked long report changes. -/
theorem sameVisible_withArtifact_iff :
    SameVisible s (withArtifact r s)
      ↔ ¬ ((longReport r.report.result.claim).isSome = true ∧ s.lookup (artifactAt r) = none) := by
  unfold SameVisible withArtifact
  cases hlong : longReport r.report.result.claim with
  | none => simp
  | some long =>
    cases hnode : s.lookup (artifactAt r) with
    | some node => simp
    | none =>
      simp only [Option.isSome_some, and_self, not_true_eq_false, iff_false]
      intro h
      have hat := congrFun h (artifactAt r)
      unfold visible at hat
      rw [AList.lookup_insert, hnode] at hat
      simp at hat

/-- **Writing a report.** `write` returns exactly when the report can be written, and Git then shows
    its files besides what it showed before; when it raises, Git shows what it showed before unless
    the long report is orphaned. -/
theorem sat_write_cases (hfresh : FreshNames r names s) :
    Sat (fun _ => True) (write r.report names)
      (fun _ u => Accepts r s
        ∧ ∃ raw, IsJson r raw ∧ SameVisible ((withArtifact r s).insert (jsonAt r) (.file raw)) u)
      (fun _ u => ¬ Accepts r s ∧ (SameVisible s u ↔ ¬ Orphans r s)) s := by
  rw [write_eq]
  -- what holds before the cleanup, and what the cleanup makes of it
  have hrefused : ∀ t, Near r names s t → ¬ Accepts r s → ¬ Orphans r s →
      Sat (fun _ => True) (cleanup r.report names)
        (fun _ u => ¬ Accepts r s ∧ (SameVisible s u ↔ ¬ Orphans r s))
        (fun _ u => ¬ Accepts r s ∧ (SameVisible s u ↔ ¬ Orphans r s)) t := by
    intro t hnear hnot horphans
    refine (sat_cleanup_cases r names t).mono (fun _ h => h) ?_ fun _ _ h => h
    rintro _ u ⟨hnear', hgone⟩
    exact ⟨hnot, fun _ => horphans, fun _ => (hnear.trans hnear').sameVisible hfresh hgone⟩
  refine .afterwards (.bind ((sat_makeDirectories_cases s r.report.ticketId).mono (fun _ h => h)
    ?_ ?_))
  swap
  · rintro e t ⟨hmade, hnot⟩
    exact hrefused t hmade.near (fun h => hnot h.directories) fun h => hnot h.directories
  rintro _ t ⟨hmade, hmakeable⟩
  have hst : Near r names s t := hmade.near
  refine .bind ((sat_publishLong_cases r names t).mono (fun _ h => h) ?_ ?_)
  swap
  · rintro e u ⟨hnot, hnear⟩
    rw [ArtifactFits.congr hst] at hnot
    refine hrefused u (hst.trans hnear) (fun h => hnot h.artifact) fun h => hnot ?_
    exact fun _ _ => .inl h.artifact
  rintro _ u ⟨hfits, hnear⟩
  rw [ArtifactFits.congr hst] at hfits
  have hsu : Near r names (withArtifact r s) u := (withArtifact_near hst).trans hnear
  have hjson : u.lookup (jsonAt r) = s.lookup (jsonAt r) := hsu.json.trans withArtifact_json
  refine .bind ((sat_publishReport_cases r names u).mono (fun _ h => h) ?_ ?_)
  · rintro _ v ⟨hfree, raw, hraw, hnear'⟩
    rw [hjson] at hfree
    refine .pure ((sat_cleanup_cases r names v).mono (fun _ h => h) ?_ fun _ _ h => h)
    rintro _ w ⟨hnear'', hgone⟩
    refine ⟨⟨hmakeable, hfits, hfree⟩, raw, hraw, ?_⟩
    exact (((hsu.insert _ _).trans hnear').trans hnear'').sameVisible
      (hfresh.withArtifact.insert not_isOwn_json) hgone
  · rintro e v ⟨htaken, hnear'⟩
    rw [hjson] at htaken
    refine (sat_cleanup_cases r names v).mono (fun _ h => h) ?_ fun _ _ h => h
    rintro _ w ⟨hnear'', hgone⟩
    have hshown : SameVisible (withArtifact r s) w :=
      ((hsu.trans hnear').trans hnear'').sameVisible hfresh.withArtifact hgone
    refine ⟨fun h => htaken h.json, ?_⟩
    have hsame : SameVisible s w ↔ SameVisible s (withArtifact r s) := by
      unfold SameVisible at hshown ⊢
      rw [hshown]
    rw [hsame, sameVisible_withArtifact_iff, not_iff_not]
    exact ⟨fun h => ⟨hmakeable, h.1, h.2, htaken⟩, fun h => ⟨h.long, h.artifact⟩⟩

end Publishing

end Wire.ReportStore

end Devlegate
