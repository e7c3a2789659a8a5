import Devlegate.WorkflowMove
import Devlegate.LifecycleApply
import Devlegate.AcceptedIntegration

namespace Devlegate

open JsonText Crash

namespace Wire

/-!
# The commits on the control branch

Devlegate commits on the control branch in two places: when it applies the lifecycle of an execution
and when it completes an accepted integration.  Both rename a ticket file and commit whatever stands
in the control worktree then.

* `renameTicket`: the rename, which both places are an instance of.
* `MovesFile` / `LegalCommit`: what a commit may do to the tickets and the reports.
* `Commits`: the commits that the two programs make, at whatever effect they are stopped.
* `commits_legal`: each of them is legal.
-/

open ReportStore (FreshNames jsonAt artifactAt visible SameVisible withArtifact)

/-! ### The rename -/

/-- `ticket.path.rename(target)`. -/
def renameTicket (fileName : String) (source target : TicketState) (workflow : Workflow) :
    Workflow where
  path := workflow.path
  directory state :=
    match workflow.directory state with
    | .entries entries =>
      if state = source then .entries (entries.filter (·.name ≠ fileName))
      else if state = target then .entries (entries
        ++ (WorkflowDirectory.entry (workflow.directory source) fileName).toList)
      else .entries entries
    | directory => directory

/-- One file has moved, with its content, and no other ticket file has changed. -/
structure MovesFile (fileName : String) (source target : TicketState) (before after : Content) :
    Prop where
  present : (before (.ticket source fileName)).isSome
  free : before (.ticket target fileName) = none
  gone : after (.ticket source fileName) = none
  same : after (.ticket target fileName) = before (.ticket source fileName)
  others : ∀ state name, ¬ (name = fileName ∧ (state = source ∨ state = target)) →
    after (.ticket state name) = before (.ticket state name)

section Rename

variable {workflow : Workflow} {fileName : String} {source target : TicketState}

theorem moveToReview_eq (ticket : Ticket) (workflow : Workflow) :
    moveToReview ticket workflow = renameTicket (ticketFile ticket) .todo .review workflow := by
  unfold moveToReview renameTicket
  congr 1
  ext1 state
  cases workflow.directory state <;> cases state <;> rfl

theorem directory_renameTicket_source {entries : List DirectoryEntry}
    (h : workflow.directory source = .entries entries) :
    (renameTicket fileName source target workflow).directory source
      = .entries (entries.filter (·.name ≠ fileName)) := by
  unfold renameTicket
  dsimp only
  rw [h]
  exact if_pos rfl

theorem directory_renameTicket_target {others : List DirectoryEntry} (hne : source ≠ target)
    (h : workflow.directory target = .entries others) :
    (renameTicket fileName source target workflow).directory target
      = .entries (others
        ++ (WorkflowDirectory.entry (workflow.directory source) fileName).toList) := by
  unfold renameTicket
  dsimp only
  rw [h]
  dsimp only
  rw [if_neg hne.symm, if_pos rfl]

theorem directory_renameTicket_other {state : TicketState} (hsource : state ≠ source)
    (htarget : state ≠ target) :
    (renameTicket fileName source target workflow).directory state = workflow.directory state := by
  unfold renameTicket
  dsimp only
  cases workflow.directory state with
  | entries entries =>
    dsimp only
    rw [if_neg hsource, if_neg htarget]
  | missing => rfl
  | notDirectory => rfl

/-- The rename of an accepted ticket whose place in `done` is free. -/
theorem moveToDone_eq {ticketId : String} {files : ControlFiles}
    (hfree : ∀ entry ∈ files.tickets, entry.1 = .done → entry.2.name ≠ ticketId ++ ".md") :
    (moveToDone ticketId files).tree.workflow
      = renameTicket (ticketId ++ ".md") .accepted .done files.tree.workflow := by
  -- state by state: the source loses the file, the target gains it, the others keep theirs
  have hstate : ∀ state, (moveToDone ticketId files).tree.workflow.directory state
      = (renameTicket (ticketId ++ ".md") .accepted .done files.tree.workflow).directory state := by
    intro state
    have hmoved : (((WorkflowDirectory.entry (files.tree.workflow.directory .accepted)
          (ticketId ++ ".md")).toList.map fun entry => (TicketState.done, entry)).filter
            (·.1 = state)).map (·.2)
        = if state = .done then (WorkflowDirectory.entry (files.tree.workflow.directory .accepted)
          (ticketId ++ ".md")).toList else [] := by
      cases WorkflowDirectory.entry (files.tree.workflow.directory .accepted)
          (ticketId ++ ".md") <;> cases state <;> rfl
    have hdirectory : (moveToDone ticketId files).tree.workflow.directory state
        = .entries (((files.tickets.filter fun entry => ¬ (entry.2.name = ticketId ++ ".md"
              ∧ (entry.1 = .accepted ∨ entry.1 = .done))).filter (·.1 = state)).map (·.2)
            ++ if state = .done then (WorkflowDirectory.entry
              (files.tree.workflow.directory .accepted) (ticketId ++ ".md")).toList else []) := by
      rw [← hmoved, ← List.map_append, ← List.filter_append]
      rfl
    rw [hdirectory]
    by_cases haccepted : state = .accepted
    · subst haccepted
      rw [directory_renameTicket_source rfl, if_neg nofun, List.append_nil, List.filter_filter,
        List.filter_map, List.filter_filter]
      congr 2
      refine List.filter_congr fun entry _ => ?_
      rw [Bool.eq_iff_iff]
      simp
      tauto
    · have hkept : (files.tickets.filter fun entry => ¬ (entry.2.name = ticketId ++ ".md"
            ∧ (entry.1 = .accepted ∨ entry.1 = .done))).filter (·.1 = state)
          = files.tickets.filter (·.1 = state) := by
        rw [List.filter_filter]
        refine List.filter_congr fun entry hentry => ?_
        rw [Bool.eq_iff_iff]
        simp only [Bool.and_eq_true, decide_eq_true_eq]
        refine ⟨fun h => h.1, fun h => ⟨h, ?_⟩⟩
        rintro ⟨hname, h' | h'⟩
        · exact haccepted (h.symm.trans h')
        · exact hfree entry hentry h' hname
      rw [hkept]
      by_cases hdone : state = .done
      · subst hdone
        rw [@directory_renameTicket_target _ _ .accepted .done _ (by decide) rfl, if_pos rfl]
      · rw [directory_renameTicket_other haccepted hdone, if_neg hdone, List.append_nil]
        rfl
  have hpath : (moveToDone ticketId files).tree.workflow.path
      = (renameTicket (ticketId ++ ".md") .accepted .done files.tree.workflow).path := rfl
  have hext : ∀ a b : Workflow, a.path = b.path → (∀ state, a.directory state = b.directory state) →
      a = b := by
    rintro ⟨path, directory⟩ ⟨path', directory'⟩ rfl h
    exact congrArg (Workflow.mk path) (funext h)
  exact hext _ _ hpath hstate

/-- The one file of its name is found. -/
theorem entry_of_perm {entries rest : List DirectoryEntry} {entry : DirectoryEntry}
    (hperm : entries.Perm (entry :: rest)) (hname : entry.name = fileName)
    (hrest : ∀ other ∈ rest, other.name ≠ fileName) :
    WorkflowDirectory.entry (.entries entries) fileName = some entry := by
  show entries.find? (·.name = fileName) = some entry
  cases hfound : entries.find? (·.name = fileName) with
  | none =>
    have hmem : entry ∈ entries := hperm.mem_iff.mpr List.mem_cons_self
    simpa [hname] using List.find?_eq_none.mp hfound entry hmem
  | some found =>
    have hfoundName : found.name = fileName := by simpa using List.find?_some hfound
    rcases List.mem_cons.mp (hperm.mem_iff.mp (List.mem_of_find?_eq_some hfound)) with rfl | hother
    · rfl
    · exact absurd hfoundName (hrest found hother)

/-- A rename moves the entry. -/
theorem moved_renameTicket {entries others rest : List DirectoryEntry} {entry : DirectoryEntry}
    (hne : source ≠ target) (hsource : workflow.directory source = .entries entries)
    (htarget : workflow.directory target = .entries others)
    (hperm : entries.Perm (entry :: rest)) (hname : entry.name = fileName)
    (hrest : ∀ other ∈ rest, other.name ≠ fileName) :
    Workflow.Moved entry source target workflow (renameTicket fileName source target workflow) := by
  have hentry : WorkflowDirectory.entry (workflow.directory source) fileName = some entry :=
    hsource ▸ entry_of_perm hperm hname hrest
  have htarget' := @directory_renameTicket_target workflow fileName source target others hne htarget
  rw [hentry] at htarget'
  refine ⟨hne, rfl, ⟨entries, _, hsource, directory_renameTicket_source hsource, ?_⟩,
    ⟨others, _, htarget, htarget', List.perm_append_singleton _ _⟩,
    fun state => directory_renameTicket_other⟩
  have hkept : (entry :: rest).filter (·.name ≠ fileName) = rest := by
    rw [List.filter_cons_of_neg (by simp [hname]), List.filter_eq_self]
    simpa using hrest
  refine hperm.trans (.cons _ ?_)
  rw [← hkept]
  exact (hperm.filter _).symm

/-- What Git sees of the rename. -/
theorem movesFile_renameTicket {entries others : List DirectoryEntry} {entry : DirectoryEntry}
    (hne : source ≠ target) (hsource : workflow.directory source = .entries entries)
    (htarget : workflow.directory target = .entries others)
    (hentry : WorkflowDirectory.entry (.entries entries) fileName = some entry)
    (hothers : ∀ other ∈ others, other.name ≠ fileName) (reports reports' : Files) :
    MovesFile fileName source target (ControlTree.content ⟨workflow, reports⟩)
      (ControlTree.content ⟨renameTicket fileName source target workflow, reports'⟩) := by
  have hfound : entries.find? (·.name = fileName) = some entry := hentry
  have hfree : others.find? (·.name = fileName) = none := by
    rw [List.find?_eq_none]
    simpa using hothers
  have hat : ∀ (workflow : Workflow) (reports : Files) (state : TicketState) (name : String),
      ControlTree.content ⟨workflow, reports⟩ (.ticket state name)
        = (WorkflowDirectory.entry (workflow.directory state) name).map
            fun entry => Tracked.ticket entry.text := fun _ _ _ _ => rfl
  have hlist : ∀ (entries : List DirectoryEntry) (name : String),
      WorkflowDirectory.entry (.entries entries) name = entries.find? (·.name = name) :=
    fun _ _ => rfl
  -- the four ends of the rename, and every other tracked path
  constructor
  · rw [hat, hsource, hlist, hfound]
    rfl
  · rw [hat, htarget, hlist, hfree]
    rfl
  · rw [hat, directory_renameTicket_source hsource, hlist, List.find?_filter]
    rw [Option.map_eq_none_iff, List.find?_eq_none]
    simp
  · rw [hat, hat, directory_renameTicket_target hne htarget, hsource, hlist, hlist,
      List.find?_append, hfree, hfound, Option.none_or]
    have hname : entry.name = fileName := by simpa using List.find?_some hfound
    simp [hname]
  · intro state name hother
    rw [hat, hat]
    by_cases hs : state = source
    · subst hs
      have hname : name ≠ fileName := fun heq => hother ⟨heq, .inl rfl⟩
      rw [directory_renameTicket_source hsource, hsource, hlist, hlist, List.find?_filter]
      refine congrArg (Option.map _) (congrArg (List.find? · entries) ?_)
      funext e
      rw [Bool.eq_iff_iff]
      simp only [decide_eq_true_eq, and_iff_right_iff_imp]
      rintro rfl
      exact hname
    · by_cases ht : state = target
      · subst ht
        have hname : name ≠ fileName := fun heq => hother ⟨heq, .inr rfl⟩
        rw [directory_renameTicket_target hne htarget, htarget, hsource, hlist, hlist, hlist,
          List.find?_append, hfound]
        have hentryName : entry.name = fileName := by simpa using List.find?_some hfound
        have hnone : [entry].find? (·.name = name) = none := by
          simp [hentryName, hname.symm]
        show Option.map _ ((others.find? (·.name = name)).or ([entry].find? (·.name = name))) = _
        rw [hnone, Option.or_none]
      · rw [directory_renameTicket_other hs ht]

end Rename

/-! ### Legal commits -/

/-- The legal moves of a ticket. -/
inductive LegalMove : TicketState → TicketState → Prop where
  | review : LegalMove .todo .review
  | done : LegalMove .accepted .done

/-- What a commit may do: one ticket file moves as it is, or none; of the reports nothing changes but
    that the given ones are added; and the tickets load, with one of them at the serial boundary at
    most. -/
structure LegalCommit [NanoYaml] (before after : ControlTree) (added : List Location) : Prop where
  tickets : (∀ state name, after.content (.ticket state name) = before.content (.ticket state name))
    ∨ ∃ fileName source target, LegalMove source target
      ∧ MovesFile fileName source target before.content after.content
  reports : ∀ location, after.content (.report location) = before.content (.report location)
    ∨ location ∈ added ∧ before.content (.report location) = none
  loads : ∃ store, after.workflow.loadTicketStore = .ok store ∧ store.boundary.length ≤ 1

section Legal

variable [NanoYaml] {workflow : Workflow} {store : TicketStore} {ticket : Ticket}

omit [NanoYaml] in
/-- The tickets at the boundary, without their order. -/
theorem boundary_perm {store store' : TicketStore} (h : store.tickets.Perm store'.tickets) :
    store.boundary.length = store'.boundary.length :=
  (h.filter _).length_eq

omit [NanoYaml] in
theorem boundary_cons (ticket : Ticket) (rest : List Ticket) :
    (TicketStore.boundary ⟨ticket :: rest⟩).length
      = (if ticket.state = .review ∨ ticket.state = .accepted then 1 else 0)
        + (TicketStore.boundary ⟨rest⟩).length := by
  unfold TicketStore.boundary
  rw [List.filter_cons]
  by_cases h : ticket.state = .review ∨ ticket.state = .accepted
  · rw [if_pos (by simpa using h), if_pos h, List.length_cons, Nat.add_comm]
  · rw [if_neg (by simpa using h), if_neg h, Nat.zero_add]

/-- The rename of a loaded ticket into a directory that is there. -/
theorem renameTicket_loaded {target : TicketState} (hload : workflow.loadTicketStore = .ok store)
    (hticket : ticket ∈ store.tickets) (hne : ticket.state ≠ target) {others : List DirectoryEntry}
    (htarget : workflow.directory target = .entries others) (reports reports' : Files) :
    (∀ entry ∈ others, entry.name ≠ ticketFile ticket)
      ∧ MovesFile (ticketFile ticket) ticket.state target (ControlTree.content ⟨workflow, reports⟩)
        (ControlTree.content ⟨renameTicket (ticketFile ticket) ticket.state target workflow, reports'⟩)
      ∧ ∃ rest store', store.tickets.Perm (ticket :: rest)
        ∧ (renameTicket (ticketFile ticket) ticket.state target workflow).loadTicketStore = .ok store'
        ∧ store'.tickets.Perm ({ ticket with state := target } :: rest) := by
  obtain ⟨tickets, hparsed, hvalid, -, rfl⟩ := Workflow.loadTicketStore_ok_iff.mp hload
  have hmem : ticket ∈ tickets := (List.perm_insertionSort _ _).mem_iff.mp hticket
  obtain ⟨entries, rest, entry, hsource, hperm, hof, hname, hrest⟩ :=
    Workflow.exists_entry hparsed hvalid.unique hmem
  have hothers : ∀ entry ∈ others, entry.name ≠ ticketFile ticket :=
    Workflow.name_ne_of_loaded hparsed hvalid.unique hmem hne.symm htarget
  refine ⟨hothers, ?_, ?_⟩
  · exact movesFile_renameTicket hne hsource htarget (entry_of_perm hperm hname hrest) hothers _ _
  · exact Workflow.loadTicketStore_moved
      (moved_renameTicket hne hsource htarget hperm hname hrest) hof hload

/-! ### The two commits -/

/-- At most one ticket is at the serial boundary, if the tickets load. -/
def Serial (workflow : Workflow) : Prop :=
  ∀ store, workflow.loadTicketStore = .ok store → store.boundary.length ≤ 1

/-- The integration of an accepted ticket. -/
theorem moveToDone_renames {ticketId : String} {files : ControlFiles}
    (hstate : ticketState ticketId files = .ok (some .accepted)) :
    MovesFile (ticketId ++ ".md") .accepted .done files.tree.content
        (moveToDone ticketId files).tree.content
      ∧ ∃ ticket rest store store', ticket.id = ticketId ∧ ticket.state = .accepted
        ∧ files.tree.workflow.loadTicketStore = .ok store
        ∧ store.tickets.Perm (ticket :: rest)
        ∧ (moveToDone ticketId files).tree.workflow.loadTicketStore = .ok store'
        ∧ store'.tickets.Perm ({ ticket with state := .done } :: rest) := by
  unfold ticketState at hstate
  cases hload : files.tree.workflow.loadTicketStore with
  | error message =>
    rw [hload] at hstate
    cases hstate
  | ok store =>
    rw [hload] at hstate
    obtain ⟨ticket, hticket, haccepted⟩ := Option.map_eq_some_iff.mp (Except.ok.inj hstate)
    have hid : ticket.id = ticketId := TicketStore.byId_id hticket
    obtain ⟨hothers, hmoves, rest, store', hperm, hload', hperm'⟩ :=
      renameTicket_loaded hload (TicketStore.mem_of_byId hticket)
        (by rw [haccepted]; nofun : ticket.state ≠ TicketState.done) rfl files.reports files.reports
    rw [haccepted] at hmoves hload'
    have hfree : ∀ entry ∈ files.tickets, entry.1 = .done → entry.2.name ≠ ticketId ++ ".md" := by
      intro entry hentry hdone
      rw [← hid]
      exact hothers entry.2 (List.mem_map_of_mem (List.mem_filter.mpr
        ⟨hentry, decide_eq_true hdone⟩))
    have htree : (moveToDone ticketId files).tree
        = ⟨renameTicket (ticketFile ticket) .accepted .done files.tree.workflow, files.reports⟩ := by
      unfold ticketFile
      rw [hid, ← moveToDone_eq hfree]
      rfl
    rw [htree]
    refine ⟨?_, ticket, rest, store, store', hid, haccepted, rfl, hperm, hload', hperm'⟩
    rw [← hid]
    exact hmoves

/-- An integration commit is legal. -/
theorem moveToDone_legal {ticketId : String} {files : ControlFiles}
    (hstate : ticketState ticketId files = .ok (some .accepted)) (hserial : Serial files.tree.workflow) :
    LegalCommit files.tree (moveToDone ticketId files).tree [] := by
  obtain ⟨hmoves, ticket, rest, store, store', -, haccepted, hload, hperm, hload', hperm'⟩ :=
    moveToDone_renames hstate
  refine ⟨.inr ⟨_, _, _, .done, hmoves⟩, fun location => .inl rfl, store', hload', ?_⟩
  have hbefore : store.boundary.length = (TicketStore.boundary ⟨ticket :: rest⟩).length :=
    boundary_perm hperm
  have hafter : store'.boundary.length
      = (TicketStore.boundary ⟨{ ticket with state := .done } :: rest⟩).length := boundary_perm hperm'
  have hle := hserial store hload
  rw [boundary_cons, if_pos (.inr haccepted)] at hbefore
  rw [boundary_cons, if_neg (by simp)] at hafter
  omega

/-- Behind an integration commit the ticket is done. -/
theorem ticketState_moveToDone {ticketId : String} {files : ControlFiles}
    (hstate : ticketState ticketId files = .ok (some .accepted)) :
    ticketState ticketId (moveToDone ticketId files) = .ok (some .done) := by
  obtain ⟨-, ticket, rest, store, store', hid, -, -, -, hload', hperm'⟩ := moveToDone_renames hstate
  have hmem : { ticket with state := .done } ∈ store'.tickets :=
    hperm'.mem_iff.mpr List.mem_cons_self
  have hfound := TicketStore.byId_of_mem (Workflow.loadTicketStore_loaded hload').ids_nodup hmem
  unfold ticketState
  rw [hload', ← hid]
  exact congrArg (fun found => Except.ok (Option.map (·.state) found)) hfound

/-- The integration commit of an accepted ticket is exact. -/
theorem isMove_of_accepted {ticketId : String} {files : ControlFiles}
    (hstate : ticketState ticketId files = .ok (some .accepted)) :
    isMove ticketId files (moveToDone ticketId files) = true :=
  isMove_moveToDone (moveToDone_renames hstate).1.present (moveToDone_renames hstate).1.free

/-- **What an integration releases.** Behind the integration commit of a ticket those tickets in `todo`
    can run whose dependencies were all done before, but for that ticket. -/
theorem runnable_moveToDone {ticketId : String} {files : ControlFiles}
    (hstate : ticketState ticketId files = .ok (some .accepted)) :
    ∃ store store', files.tree.workflow.loadTicketStore = .ok store
      ∧ (moveToDone ticketId files).tree.workflow.loadTicketStore = .ok store'
      ∧ ∀ ticket, ticket ∈ store'.runnable ↔ ticket ∈ store.tickets ∧ ticket.state = .todo
        ∧ ∀ id ∈ ticket.dependsOn, id = ticketId ∨ (store.byId id).any (·.state = .done) = true := by
  obtain ⟨-, moved, rest, store, store', rfl, haccepted, hload, hperm, hload', hperm'⟩ :=
    moveToDone_renames hstate
  have hids := (Workflow.loadTicketStore_loaded hload).ids_nodup
  have hids' := (Workflow.loadTicketStore_loaded hload').ids_nodup
  have hdone : { moved with state := .done } ∈ store'.tickets :=
    hperm'.mem_iff.mpr List.mem_cons_self
  have hmem : ∀ ticket, ticket.id ≠ moved.id → (ticket ∈ store'.tickets ↔ ticket ∈ store.tickets) := by
    intro ticket hne
    rw [hperm.mem_iff, hperm'.mem_iff, List.mem_cons, List.mem_cons]
    refine or_congr_left (iff_of_false ?_ ?_) <;> rintro rfl <;> exact hne rfl
  -- only the lookup of the moved ticket changes
  have hnotDone : ∀ id, id ≠ moved.id → store'.byId id = store.byId id := by
    intro id hne
    ext ticket
    rw [TicketStore.byId_eq_some_iff hids', TicketStore.byId_eq_some_iff hids]
    refine and_congr_left fun hid => hmem ticket ?_
    rw [hid]
    exact hne
  have hdependency : ∀ id, (store'.byId id).any (·.state = .done) = true
      ↔ id = moved.id ∨ (store.byId id).any (·.state = .done) = true := by
    intro id
    by_cases hid : id = moved.id
    · have hfound := TicketStore.byId_of_mem hids' hdone
      rw [hid]
      exact iff_of_true (hfound ▸ rfl) (.inl rfl)
    · rw [hnotDone id hid]
      exact ⟨.inr, fun h => h.resolve_left hid⟩
  refine ⟨store, store', hload, hload', fun ticket => ?_⟩
  have hrunnable : ticket ∈ store'.runnable ↔ ticket ∈ store'.tickets ∧ ticket.state = .todo
      ∧ ∀ id ∈ ticket.dependsOn, (store'.byId id).any (·.state = .done) = true := by
    unfold TicketStore.runnable TicketStore.isRunnable
    rw [List.mem_insertionSort, List.mem_filter]
    simp
  simp only [hrunnable, hdependency]
  refine and_congr_left fun hrest => ?_
  by_cases hid : ticket.id = moved.id
  · -- the moved ticket was not in `todo` and is not
    refine iff_of_false (fun h => ?_) fun h => ?_
    · obtain rfl := List.inj_on_of_nodup_map hids' h hdone hid
      cases hrest.1
    · obtain rfl := List.inj_on_of_nodup_map hids h (hperm.mem_iff.mpr List.mem_cons_self) hid
      rw [haccepted] at hrest
      cases hrest.1
  · exact hmem ticket hid

theorem loadStore_eq_ok {site : ApplySite} (h : site.loadStore workflow = .ok store) :
    workflow.loadTicketStore = .ok store
      ∧ ∀ state, ∃ entries, workflow.directory state = .entries entries := by
  unfold ApplySite.loadStore at h
  split at h
  · cases h
  · split at h
    · cases h
    · rename_i hdirectories
      refine ⟨?_, fun state => ?_⟩
      · split at h
        · rename_i hload
          rw [hload]
          cases h
          rfl
        · cases h
      · have hstate : state ∈ workflowStates := by cases state <;> decide
        have hdir := List.find?_eq_none.mp hdirectories state hstate
        cases hdirectory : workflow.directory state with
        | entries entries => exact ⟨entries, rfl⟩
        | missing =>
          rw [hdirectory] at hdir
          exact absurd rfl hdir
        | notDirectory =>
          rw [hdirectory] at hdir
          exact absurd rfl hdir

omit [NanoYaml] in
theorem admitted_eq_ok {ticketId : Text} {moves : Bool}
    (h : admitted store ticketId moves = .ok ticket) :
    ticket ∈ store.tickets ∧ ticket.state = .todo
      ∧ (moves = true → boundaryConflict store ticket = false) := by
  unfold admitted todoTicket at h
  split at h
  · cases h
  · rename_i found hfound
    split at h
    · cases h
    · rename_i hconflict
      cases h
      obtain ⟨hfound, hstate⟩ := Option.filter_eq_some_iff.mp hfound
      refine ⟨List.mem_of_find?_eq_some hfound, by simpa using hstate, fun hmoves => ?_⟩
      rw [hmoves, Bool.true_and, Bool.not_eq_true] at hconflict
      exact hconflict

omit [NanoYaml] in
/-- Where no other ticket is at the boundary and this one is not, the boundary is empty. -/
theorem boundary_eq_nil (hids : (store.tickets.map (·.id)).Nodup) (hticket : ticket ∈ store.tickets)
    (hstate : ticket.state = .todo) (hconflict : boundaryConflict store ticket = false) :
    store.boundary = [] := by
  rw [List.eq_nil_iff_forall_not_mem]
  intro other hother
  obtain ⟨hmem, hboundary⟩ := List.mem_filter.mp hother
  have hid : other.id = ticket.id := by
    simpa using List.any_eq_false.mp hconflict other hother
  obtain rfl := List.inj_on_of_nodup_map hids hmem hticket hid
  rw [hstate] at hboundary
  cases hboundary

variable [Sha256] {site : ApplySite} {r : BuiltReport} {names : ReportStore.Names}
  {w t : ControlWorktree}

omit [NanoYaml] in
/-- The reports of a commit: those that were there, and the two files of the new one. -/
theorem content_written {reports reports' : Files} {raw : List UInt8}
    (hfree : reports.lookup (jsonAt r) = none)
    (hshown : SameVisible ((withArtifact r reports).insert (jsonAt r) (.file raw)) reports')
    (before after : Workflow) (location : Location) :
    ControlTree.content ⟨after, reports'⟩ (.report location)
        = ControlTree.content ⟨before, reports⟩ (.report location)
      ∨ location ∈ [jsonAt r, artifactAt r]
        ∧ ControlTree.content ⟨before, reports⟩ (.report location) = none := by
  rw [content_report, content_report]
  show Option.map _ (visible reports' location) = Option.map _ (visible reports location) ∨ _
  rw [congrFun hshown location]
  by_cases hjson : location = jsonAt r
  · subst hjson
    refine .inr ⟨List.mem_cons_self, ?_⟩
    unfold visible
    rw [hfree]
    rfl
  · have hinsert : visible ((withArtifact r reports).insert (jsonAt r) (.file raw)) location
        = visible (withArtifact r reports) location := by
      unfold visible
      rw [AList.lookup_insert_ne hjson]
    rw [hinsert]
    unfold withArtifact
    split
    · rename_i hnone
      by_cases hartifact : location = artifactAt r
      · subst hartifact
        refine .inr ⟨by simp, ?_⟩
        unfold visible
        rw [hnone]
        rfl
      · left
        unfold visible
        rw [AList.lookup_insert_ne hartifact]
    · exact .inl rfl

/-- A lifecycle commit is legal. -/
theorem lifecycle_legal {moves : Bool} (hstore : site.loadStore w.tree.workflow = .ok store)
    (hticket : admitted store r.report.ticketId moves = .ok ticket)
    (hserial : Serial w.tree.workflow) {reports : Files} {raw : List UInt8}
    (hfree : w.tree.reports.lookup (jsonAt r) = none)
    (hshown : SameVisible ((withArtifact r w.tree.reports).insert (jsonAt r) (.file raw)) reports) :
    LegalCommit w.tree ⟨resultingWorkflow ticket moves w.tree.workflow, reports⟩
      [jsonAt r, artifactAt r] := by
  obtain ⟨hload, hdirectories⟩ := loadStore_eq_ok hstore
  obtain ⟨hmem, hstate, hconflict⟩ := admitted_eq_ok hticket
  unfold resultingWorkflow
  cases moves with
  | false =>
    exact ⟨.inl fun _ _ => rfl, content_written hfree hshown _ _, store, hload, hserial store hload⟩
  | true =>
    obtain ⟨others, hreview⟩ := hdirectories .review
    obtain ⟨-, hmoves, rest, store', hperm, hload', hperm'⟩ := renameTicket_loaded hload hmem
      (by rw [hstate]; nofun : ticket.state ≠ TicketState.review) hreview w.tree.reports reports
    have hids := (Workflow.loadTicketStore_loaded hload).ids_nodup
    have hempty := boundary_eq_nil hids hmem hstate (hconflict rfl)
    rw [if_pos rfl, moveToReview_eq]
    rw [hstate] at hmoves hload'
    refine ⟨.inr ⟨_, _, _, .review, hmoves⟩, content_written hfree hshown _ _, store', hload', ?_⟩
    have hbefore : store.boundary.length = (TicketStore.boundary ⟨ticket :: rest⟩).length :=
      boundary_perm hperm
    have hafter : store'.boundary.length
        = (TicketStore.boundary ⟨{ ticket with state := .review } :: rest⟩).length :=
      boundary_perm hperm'
    rw [hempty, List.length_nil, boundary_cons, hstate, if_neg (by simp)] at hbefore
    rw [boundary_cons, if_pos (.inl rfl)] at hafter
    omega

/-! ### The two programs -/

/-- Every state of a lifecycle has the commit it started from, or a legal commit on top. -/
theorem sat_applyLifecycleOnce_legal {applyConclusion : Bool} (hfresh : FreshNames r names w.tree.reports)
    (hserial : Serial w.tree.workflow) :
    Sat (fun t => t.head = w.head ∨ ∃ after, t.head = after.content
        ∧ LegalCommit w.tree after [jsonAt r, artifactAt r])
      (applyLifecycleOnce site r.report names applyConclusion) (fun _ _ => True) (fun _ _ => True)
      w := by
  unfold applyLifecycleOnce
  generalize movesTicket r.report applyConclusion = moves
  cases hstore : site.loadStore w.tree.workflow with
  | error e => exact .bind (.refused hstore trivial)
  | ok store =>
  refine .bind (.observe hstore ?_)
  cases hticket : admitted store r.report.ticketId moves with
  | error e => exact .bind (.refused (e := e) rfl trivial)
  | ok ticket =>
  refine .bind (.observe (a := ticket) rfl ?_)
  refine .bind (.zoom rfl ((ReportStore.sat_write_cases hfresh).mono (fun _ _ => .inl rfl) ?_
    fun _ _ _ => trivial))
  rintro path reports ⟨haccepts, raw, -, hshown⟩
  have hlegal := lifecycle_legal hstore hticket hserial haccepts.json hshown
  -- the move, which leaves what is to be committed
  have hmove : Sat (fun t : ControlWorktree => t.head = w.head ∨ ∃ after, t.head = after.content
        ∧ LegalCommit w.tree after [jsonAt r, artifactAt r]) (moveTicket ticket moves)
      (fun _ t => t.head = w.head
        ∧ t.tree = ⟨resultingWorkflow ticket moves w.tree.workflow, reports⟩) (fun _ _ => True)
      (setReports reports w) := by
    unfold moveTicket resultingWorkflow
    cases moves with
    | false => exact .pure ⟨rfl, rfl⟩
    | true =>
      cases htaken : reviewTaken w.tree.workflow ticket with
      | true => exact .bind (.refused (e := .blocked "review ticket already exists")
          (if_pos htaken) trivial)
      | false => exact .bind (.observe (a := ()) (if_neg (by
          show ¬ reviewTaken w.tree.workflow ticket = true
          rw [htaken]
          exact Bool.false_ne_true)) (.effect (.inl rfl) ⟨rfl, rfl⟩))
  refine .bind (hmove.mono (fun _ h => h) ?_ fun _ _ _ => trivial)
  rintro _ t ⟨hhead, htree⟩
  cases hresult : checkResult t.tree.workflow with
  | error e => exact .bind (.refused hresult trivial)
  | ok u =>
  refine .bind (.observe hresult ?_)
  cases hadd : site.addRefused with
  | some message => exact .bind (.raise trivial)
  | none =>
  refine .bind (.effect (.inl hhead) ?_)
  cases hcommit : site.commitRefused with
  | some message => exact .bind (.raise trivial)
  | none =>
  refine .bind (.effect (.inr ⟨t.tree, rfl, htree ▸ hlegal⟩) ?_)
  cases hparse : site.revParse with
  | error message => exact .refused (e := .git message) rfl trivial
  | ok head => exact .observe (a := head) rfl trivial

end Legal

namespace IntegrationSite

section Heads

variable [NanoYaml] [Sha256] {history : History Text} {ticketId : String}
  {expected : ControlCommit} {report : ExecutionReport} {s t u : IntegrationSite}

/-- A completion leaves the control head, or makes the integration commit of an accepted ticket. -/
theorem completeAccepted_heads (hu : u ∈ (completeAccepted ticketId expected t).visited) :
    u.control = t.control ∨ u.control = created ticketId t
      ∧ ticketState ticketId t.files = .ok (some .accepted) := by
  by_cases hcreates : Creates ticketId expected t
  · obtain ⟨visited, result, heq, hends⟩ := completeAccepted_creates hcreates
    rw [heq] at hu
    rcases List.mem_cons.mp hu with rfl | hu
    · exact .inl rfl
    · rcases List.mem_cons.mp hu with rfl | hu
      · exact .inr ⟨rfl, hcreates.accepted⟩
      · rcases hends with ⟨rfl, -⟩ | ⟨rfl, -⟩
        · cases hu
        · rw [List.mem_singleton.mp hu]
          exact .inr ⟨rfl, hcreates.accepted⟩
  · by_cases hfound : ticketState ticketId t.files = .ok (some .done) ∧ ∃ commit,
        observeControlIntegration ticketId expected t.control t.controlRemote
            = .localExactUnpublished commit
          ∨ observeControlIntegration ticketId expected t.control t.controlRemote
            = .remoteExactPublished commit
    · obtain ⟨hdone, commit, hlocal | hremote⟩ := hfound
      · rw [completeAccepted_unpublished hdone hlocal] at hu
        rw [List.mem_singleton.mp hu]
        exact .inl rfl
      · rw [completeAccepted_published hdone hremote] at hu
        cases hu
    · obtain ⟨e, heq⟩ := completeAccepted_refused hcreates fun hdone commit =>
        ⟨fun h => hfound ⟨hdone, commit, .inl h⟩, fun h => hfound ⟨hdone, commit, .inr h⟩⟩
      rw [heq] at hu
      cases hu

/-- An integration leaves the control head, or makes the integration commit of an accepted ticket in
    a clean worktree. -/
theorem integrateAccepted_heads (hu : u ∈ (integrateAccepted history ticketId s).visited) :
    u.control = s.control ∨ s.ControlClean ∧ u.control = created ticketId s
      ∧ ticketState ticketId s.files = .ok (some .accepted) := by
  by_cases hready : s.ControlClean ∧ ∃ report, s.productClean = true
      ∧ acceptedExecutionReport s.evidence ticketId = .ok report ∧ Settles history report s
  · obtain ⟨hclean, report, hproduct, hevidence, hsettles⟩ := hready
    obtain ⟨visited, hvisited, hsettled, heq⟩ :=
      integrateAccepted_of_settles hproduct hclean hevidence hsettles
    rw [heq] at hu
    rcases List.mem_append.mp hu with hu | hu
    · exact .inl (hvisited u hu).control
    · have hsame := hsettled.same
      have hcreated : created ticketId (visited.getLastD s) = created ticketId s := by
        unfold created
        rw [hsame.control, hsame.files]
      rcases completeAccepted_heads hu with hhead | ⟨hhead, hstate⟩
      · exact .inl (hhead.trans hsame.control)
      · rw [hsame.files] at hstate
        exact .inr ⟨hclean, hhead.trans hcreated, hstate⟩
  · by_cases hclean : s.ControlClean
    · obtain ⟨visited, e, heq, hvisited⟩ := @integrateAccepted_refused s history _ _ ticketId hclean
        fun report hproduct hevidence hsettles =>
          hready ⟨hclean, report, hproduct, hevidence, hsettles⟩
      rw [heq] at hu
      exact .inl (hvisited u hu).control
    · have heq : integrateAccepted history ticketId s = _ :=
        Program.ensure_bind_of_not (fun hall => hclean hall.2) _ _ s
      rw [heq] at hu
      cases hu

omit [NanoYaml] [Sha256] in
/-- The evidence that is looked up does not depend on a product side that is settled with a delta. -/
theorem Settled.evidence_eq (h : Settled history report s t) (hdelta : ¬ IsZeroDelta report) :
    t.evidence = s.evidence := by
  have hremote := h.execution
  rw [if_neg hdelta] at hremote
  unfold IntegrationSite.evidence
  rw [h.same.control, h.same.files, hremote]

/-- The integration of a delta whose ticket is accepted comes through the state with its commit,
    before it is published. -/
theorem committed_visited (hproduct : s.productClean = true) (hclean : s.ControlClean)
    (hevidence : acceptedExecutionReport s.evidence ticketId = .ok report)
    (hsettles : Settles history report s) (hdelta : ¬ IsZeroDelta report)
    (hexpected : expectedHead report s = s.control)
    (haccepted : ticketState ticketId s.files = .ok (some .accepted)) :
    ∃ t ∈ (integrateAccepted history ticketId s).visited,
      t.control = created ticketId s ∧ t.controlRemote = s.controlRemote ∧ t.ControlClean
        ∧ t.pending = s.pending := by
  obtain ⟨visited, -, hsettled, heq⟩ := integrateAccepted_of_settles hproduct hclean hevidence hsettles
  have hsame := hsettled.same
  have hcreates : Creates ticketId s.control (visited.getLastD s) := by
    refine ⟨?_, ⟨report, ?_⟩, hsame.control⟩
    · rw [hsame.files]
      exact haccepted
    · rw [hsettled.evidence_eq hdelta]
      exact hevidence
  obtain ⟨published, result, hcomplete, -⟩ := completeAccepted_creates hcreates
  rw [hexpected, hcomplete] at heq
  refine ⟨committed ticketId (visited.getLastD s), ?_, ?_, hsame.controlRemote, rfl, hsame.pending⟩
  · rw [heq]
    exact List.mem_append_right _ (.tail _ (.head _))
  · show created ticketId (visited.getLastD s) = _
    unfold created
    rw [hsame.control, hsame.files]

end Heads

end IntegrationSite

section Commits

variable [NanoYaml] [Sha256]

/-- A commit that one of the programs makes: the control worktree it starts from, the tree of the
    parent, the tree of the commit, and the reports that it may add. -/
inductive Commits : ControlTree → Content → Content → List Location → Prop where
  | lifecycle (site : ApplySite) (r : BuiltReport) (names : ReportStore.Names)
      (applyConclusion : Bool) {w t : ControlWorktree} (hclean : Clean w)
      (hfresh : FreshNames r names w.tree.reports)
      (hvisited : t ∈ (applyLifecycleOnce site r.report names applyConclusion w).visited)
      (hcommitted : t.head ≠ w.head) :
      Commits w.tree w.head t.head [jsonAt r, artifactAt r]
  | integration (history : History Text) (ticketId : String) {s t : IntegrationSite}
      {parent files : ControlFiles} {rest : ControlCommit} (hparent : s.control = parent :: rest)
      (hvisited : t ∈ (integrateAccepted history ticketId s).visited)
      (hcommitted : t.control = files :: s.control) :
      Commits s.files.tree parent.tree.content files.tree.content []

/-- **Control commits.** From a worktree whose tickets load, with one of them in `review` or
    `accepted` at most, each commit that Devlegate makes moves at most one ticket, as it is, changes
    no other, adds at most its report and the long report of it, and leaves tickets that load, with
    one of them in `review` or `accepted` at most. -/
theorem commits_legal {before : ControlTree} {parent content : Content} {added : List Location}
    (h : Commits before parent content added) (hserial : Serial before.workflow) :
    before.content = parent
      ∧ ∃ after, content = after.content ∧ LegalCommit before after added := by
  cases h with
  | lifecycle site r names applyConclusion hclean hfresh hvisited hcommitted =>
    refine ⟨hclean.tree.trans hclean.index, ?_⟩
    exact ((sat_applyLifecycleOnce_legal hfresh hserial).1 _ hvisited).resolve_left hcommitted
  | @integration history ticketId s t files₀ files rest hparent hvisited hcommitted =>
    rcases IntegrationSite.integrateAccepted_heads hvisited with hhead | ⟨hclean, hhead, hstate⟩
    · rw [hcommitted] at hhead
      exact absurd hhead (Timeline.cons_append_ne _ [] _)
    · have hfiles : files₀ = s.files := by
        unfold IntegrationSite.ControlClean at hclean
        rw [hparent] at hclean
        exact Option.some.inj hclean
      rw [hcommitted] at hhead
      obtain ⟨rfl, -⟩ := List.cons.inj hhead
      exact ⟨hfiles ▸ rfl, _, rfl, moveToDone_legal hstate hserial⟩

end Commits

/-! ### The commit of one integration -/

namespace IntegrationSite

/-- The tickets of the site load, with one at the boundary. -/
theorem serial_admitted : @Serial titledYaml admittedSite.files.tree.workflow := by
  have hclosed : (@Workflow.loadTicketStore titledYaml
      (ControlFiles.tree ⟨[(.accepted, deliveredTicket)], ∅⟩).workflow).map
        (fun store => decide (store.boundary.length ≤ 1)) = .ok true := by
    decide +kernel
  have hsame : admittedSite.files.tree.workflow
      = (ControlFiles.tree ⟨[(.accepted, deliveredTicket)], ∅⟩).workflow := rfl
  intro store hload
  rw [hsame] at hload
  rw [hload] at hclosed
  exact of_decide_eq_true (Except.ok.inj hclosed)

/-- The tickets of a lifecycle load, with none at the boundary. -/
theorem serial_todo : @Serial RefusedCommit.yaml RefusedCommit.worktree.tree.workflow := by
  have hclosed : (@Workflow.loadTicketStore RefusedCommit.yaml
      RefusedCommit.worktree.tree.workflow).map (fun store => decide (store.boundary.length ≤ 1))
        = .ok true := by
    decide +kernel
  intro store hload
  rw [hload] at hclosed
  exact of_decide_eq_true (Except.ok.inj hclosed)

/-- A lifecycle and an integration are committed, and both commits are legal. -/
theorem commits_legal_both :
    (∃ content, content ≠ RefusedCommit.worktree.head
        ∧ RefusedCommit.worktree.tree.content = RefusedCommit.worktree.head
        ∧ ∃ after : ControlTree, content = after.content
          ∧ @LegalCommit RefusedCommit.yaml RefusedCommit.worktree.tree after
            [@jsonAt RefusedCommit.sha ReportStore.returnReport,
              @artifactAt RefusedCommit.sha ReportStore.returnReport])
      ∧ ∃ after : ControlTree, (moveToDone "t1" admittedSite.files).tree.content = after.content
        ∧ @LegalCommit titledYaml admittedSite.files.tree after [] := by
  constructor
  · obtain ⟨name, w, hruns, hmoved⟩ := RefusedCommit.returns_committed
    have hvisited := mem_visited_of_runs hruns fun h => hmoved (congrArg ControlWorktree.head h)
    have hcommits := @Commits.lifecycle RefusedCommit.yaml RefusedCommit.sha RefusedCommit.willing
      ReportStore.returnReport RefusedCommit.names true _ w RefusedCommit.clean
      RefusedCommit.freshNames hvisited hmoved
    exact ⟨w.head, hmoved,
      @commits_legal RefusedCommit.yaml RefusedCommit.sha _ _ _ _ hcommits serial_todo⟩
  · have hdelta : ¬ IsZeroDelta
        (@BuiltReport.report emptySha256 (@deliveredReport emptySha256 deliveredBase deliveredHead)) :=
      delivered_delta
    have hexpected : expectedHead
        (@BuiltReport.report emptySha256 (@deliveredReport emptySha256 deliveredBase deliveredHead))
        admittedSite = admittedSite.control := by
      unfold expectedHead
      rw [if_neg hdelta]
      rfl
    have hclean : admittedSite.ControlClean := rfl
    obtain ⟨t, hvisited, hcreated, -⟩ :=
      @committed_visited titledYaml emptySha256 flatHistory "t1" _ admittedSite rfl hclean
        (@Ready.evidence _ emptySha256 _ _ _ _ ready_admitted)
        (@Ready.settles _ emptySha256 _ _ _ _ ready_admitted) hdelta hexpected ticketState_admitted
    exact (@commits_legal titledYaml emptySha256 _ _ _ _
      (@Commits.integration titledYaml emptySha256 flatHistory "t1" _ t _ _ _ rfl hvisited hcreated)
      serial_admitted).2

/-! ### A ticket that is released -/

/-- The metadata of `t1`, and of a ticket that depends on it. -/
abbrev dependentYaml : NanoYaml :=
  ⟨fun text =>
    if text = "type: devlegate.ticket\ntitle: u\ndepends_on:\n  - t1\n" then
      .ok [("type", .string "devlegate.ticket"), ("title", .string "u"),
        ("depends_on", .sequence [some "t1"])]
    else .ok [("type", .string "devlegate.ticket"), ("title", .string "t")]⟩

/-- `t1` is accepted, and `t2` waits for it in `todo`. -/
def dependentFiles : ControlFiles where
  tickets := [(.accepted, ⟨"t1.md", some "---\ntype: devlegate.ticket\ntitle: t\n---\nbody\n"⟩),
    (.todo, ⟨"t2.md", some ("---\ntype: devlegate.ticket\ntitle: u\ndepends_on:\n  - t1\n---\n"
      ++ "more\n")⟩)]
  reports := ∅

def dependent : Ticket := ⟨"t2", .todo, "u", ["t1"], "more\n"⟩

theorem dependent_loads : @Workflow.loadTicketStore dependentYaml dependentFiles.tree.workflow
    = .ok ⟨[⟨"t1", .accepted, "t", [], "body\n"⟩, dependent]⟩ := by
  decide +kernel

/-- Before the integration `t2` cannot run, and behind it it can. -/
theorem runnable_moveToDone_dependent : ∃ store store',
    @Workflow.loadTicketStore dependentYaml dependentFiles.tree.workflow = .ok store
      ∧ dependent ∉ store.runnable
      ∧ @Workflow.loadTicketStore dependentYaml (moveToDone "t1" dependentFiles).tree.workflow
        = .ok store'
      ∧ dependent ∈ store'.runnable := by
  have haccepted : @ticketState dependentYaml "t1" dependentFiles = .ok (some .accepted) := by
    unfold ticketState
    rw [dependent_loads]
    decide
  obtain ⟨store, store', hload, hload', hrunnable⟩ :=
    @runnable_moveToDone dependentYaml "t1" dependentFiles haccepted
  obtain rfl := Except.ok.inj (dependent_loads.symm.trans hload)
  refine ⟨_, store', dependent_loads, by decide, hload', (hrunnable dependent).mpr
    ⟨.tail _ (.head _), rfl, fun id hid => .inl (List.mem_singleton.mp hid)⟩⟩

end IntegrationSite

end Wire

end Devlegate
