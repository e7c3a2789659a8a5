import Devlegate.TicketGraph

namespace Devlegate

/-!
# Moving a ticket file

A ticket changes its state when its file is renamed from one workflow directory to another.  This
file says what `load_ticket_store` makes of the directories after such a move.

* `Moved`: the directories before and after the move of one entry.
* `loadDirectory_ok_iff` / `loadTicketStore_ok_iff`: when the loader accepts, without its order.
* `exists_entry`: the one file of a ticket that was loaded.
* `loadTicketStore_moved`: a workflow that loads still loads, with that ticket in the other state.
-/

open Loops

/-! ### One more ticket in one of the directories -/

section Lists

variable {ι β : Type}

/-- A flat map whose row at one index has one more element. -/
theorem flatMap_perm_cons {l : List ι} {f g : ι → List β} {i : ι} {b : β} (hnodup : l.Nodup)
    (hmem : i ∈ l) (hsame : ∀ j ∈ l, j ≠ i → f j = g j) (hrow : (f i).Perm (b :: g i)) :
    (l.flatMap f).Perm (b :: l.flatMap g) := by
  induction l with
  | nil => cases hmem
  | cons j l ih =>
    rw [List.nodup_cons] at hnodup
    rw [List.flatMap_cons, List.flatMap_cons]
    by_cases hji : j = i
    · subst hji
      have hrest : l.flatMap f = l.flatMap g := by
        apply List.flatMap_congr
        intro k hk
        exact hsame k (List.mem_cons_of_mem _ hk) fun heq => hnodup.1 (heq ▸ hk)
      rw [hrest]
      exact hrow.append_right _
    · have hmem' : i ∈ l := (List.mem_cons.mp hmem).resolve_left fun heq => hji heq.symm
      have hrest := ih hnodup.2 hmem' fun k hk => hsame k (List.mem_cons_of_mem _ hk)
      rw [hsame j List.mem_cons_self hji]
      exact (hrest.append_left _).trans List.perm_middle

end Lists

/-! ### The loader without its order -/

namespace Workflow

variable [NanoYaml] {workflow : Workflow} {state : TicketState} {entries : List DirectoryEntry}

/-- The ticket of an entry, if it has one. -/
def ticketOf (workflow : Workflow) (state : TicketState) (entry : DirectoryEntry) : Option Ticket :=
  (workflow.loadEntry state entry).toOption.join

/-- The entry is passed over or parses. -/
def Parses (workflow : Workflow) (state : TicketState) (entry : DirectoryEntry) : Prop :=
  ∃ ticket, workflow.loadEntry state entry = .ok ticket

theorem Parses.loadEntry {entry : DirectoryEntry} (h : workflow.Parses state entry) :
    workflow.loadEntry state entry = .ok (workflow.ticketOf state entry) := by
  obtain ⟨ticket, hticket⟩ := h
  unfold ticketOf
  rw [hticket]
  rfl

/-- A directory is loaded when each of its entries parses. -/
theorem loadDirectory_ok_iff (hdirectory : workflow.directory state = .entries entries)
    {tickets : List Ticket} :
    workflow.loadDirectory state = .ok tickets
      ↔ (∀ entry ∈ entries, workflow.Parses state entry)
        ∧ tickets = (entries.insertionSort fun a b => a.name ≤ b.name).filterMap
            (workflow.ticketOf state) := by
  have hloaded : (∀ entry ∈ entries, workflow.Parses state entry) →
      workflow.loadDirectory state = .ok ((entries.insertionSort fun a b => a.name ≤ b.name).filterMap
        (workflow.ticketOf state)) := by
    intro hparses
    have hall : (entries.insertionSort fun a b => a.name ≤ b.name).mapM (workflow.loadEntry state)
        = .ok ((entries.insertionSort fun a b => a.name ≤ b.name).map (workflow.ticketOf state)) :=
      mapM_eq_ok fun entry hentry =>
        (hparses entry ((List.mem_insertionSort _).mp hentry)).loadEntry
    unfold Workflow.loadDirectory
    rw [hdirectory]
    dsimp only
    rw [hall]
    show Except.ok (((entries.insertionSort fun a b => a.name ≤ b.name).map
      (workflow.ticketOf state)).filterMap id) = _
    rw [List.filterMap_map]
    rfl
  constructor
  · intro h
    have hparses : ∀ entry ∈ entries, workflow.Parses state entry := by
      unfold Workflow.loadDirectory at h
      rw [hdirectory] at h
      dsimp only at h
      cases hall : (entries.insertionSort fun a b => a.name ≤ b.name).mapM
          (workflow.loadEntry state) with
      | error message =>
        rw [hall] at h
        cases h
      | ok loaded =>
        intro entry hentry
        exact exists_of_mapM_ok hall ((List.mem_insertionSort _).mpr hentry)
    refine ⟨hparses, ?_⟩
    have h' := hloaded hparses
    rw [h] at h'
    exact Except.ok.inj h'
  · rintro ⟨hparses, rfl⟩
    exact hloaded hparses

/-- The tickets of a directory that loads. -/
def ticketsIn (workflow : Workflow) (state : TicketState) : List Ticket :=
  (workflow.loadDirectory state).toOption.getD []

theorem loadDirectory_of_parsed {tickets : List Ticket} (h : workflow.parsedTickets = .ok tickets)
    (state : TicketState) : workflow.loadDirectory state = .ok (workflow.ticketsIn state) := by
  unfold Workflow.parsedTickets at h
  cases hall : workflowStates.mapM workflow.loadDirectory with
  | error message =>
    rw [hall] at h
    cases h
  | ok loaded =>
    have hmem : state ∈ workflowStates := by cases state <;> decide
    obtain ⟨tickets, htickets⟩ := exists_of_mapM_ok hall hmem
    unfold ticketsIn
    rw [htickets]
    rfl

/-- All the directories load, and the tickets are those of the directories. -/
theorem parsedTickets_ok_iff {tickets : List Ticket} :
    workflow.parsedTickets = .ok tickets
      ↔ (∀ state, ∃ tickets, workflow.loadDirectory state = .ok tickets)
        ∧ tickets = workflowStates.flatMap workflow.ticketsIn := by
  have hparsed : (∀ state, ∃ tickets, workflow.loadDirectory state = .ok tickets) →
      workflow.parsedTickets = .ok (workflowStates.flatMap workflow.ticketsIn) := by
    intro h
    have hall : workflowStates.mapM workflow.loadDirectory
        = .ok (workflowStates.map workflow.ticketsIn) := by
      refine mapM_eq_ok fun state _ => ?_
      obtain ⟨tickets, htickets⟩ := h state
      unfold ticketsIn
      rw [htickets]
      rfl
    unfold Workflow.parsedTickets
    rw [hall]
    show Except.ok (workflowStates.map workflow.ticketsIn).flatten = _
    rw [List.flatMap_def]
  constructor
  · intro h
    have hall : ∀ state, ∃ tickets, workflow.loadDirectory state = .ok tickets :=
      fun state => ⟨_, loadDirectory_of_parsed h state⟩
    refine ⟨hall, ?_⟩
    have h' := hparsed hall
    rw [h] at h'
    exact Except.ok.inj h'
  · rintro ⟨hall, rfl⟩
    exact hparsed hall

/-- The tickets of a directory, without their order. -/
theorem ticketsIn_perm (hdirectory : workflow.directory state = .entries entries)
    (hparses : ∀ entry ∈ entries, workflow.Parses state entry) :
    (workflow.ticketsIn state).Perm (entries.filterMap (workflow.ticketOf state)) := by
  unfold ticketsIn
  rw [(loadDirectory_ok_iff hdirectory).mpr ⟨hparses, rfl⟩]
  exact (List.perm_insertionSort _ entries).filterMap _

end Workflow

/-! ### Tickets with the same graph -/

/-- What the graph of the dependencies takes from a ticket. -/
def Ticket.node (ticket : Ticket) : String × List String := (ticket.id, ticket.dependsOn)

section Graph

variable {tickets tickets' : List Ticket}

theorem ids_of_nodes (h : tickets.map Ticket.node = tickets'.map Ticket.node) :
    tickets.map (·.id) = tickets'.map (·.id) := by
  have hfst := congrArg (List.map Prod.fst) h
  rwa [List.map_map, List.map_map] at hfst

theorem mem_node_iff {node : String × List String} :
    node ∈ tickets.map Ticket.node ↔ ∃ ticket ∈ tickets, ticket.id = node.1
      ∧ ticket.dependsOn = node.2 := by
  rw [List.mem_map]
  refine exists_congr fun ticket => and_congr_right fun _ => ?_
  unfold Ticket.node
  rw [Prod.ext_iff]

/-- Validity is a property of the graph. -/
theorem ValidTickets.of_nodes (h : ValidTickets tickets)
    (hnodes : tickets.map Ticket.node = tickets'.map Ticket.node) : ValidTickets tickets' := by
  have hback : ∀ ticket ∈ tickets', ∃ other ∈ tickets, other.id = ticket.id
      ∧ other.dependsOn = ticket.dependsOn := by
    intro ticket hticket
    exact mem_node_iff.mp (hnodes ▸ List.mem_map_of_mem hticket)
  have hids : ∀ id, (∃ other ∈ tickets, other.id = id) → ∃ other ∈ tickets', other.id = id := by
    intro id hid
    have hmem : id ∈ tickets'.map (·.id) := by
      rw [← ids_of_nodes hnodes]
      simpa using hid
    simpa using hmem
  refine ⟨ids_of_nodes hnodes ▸ h.unique, fun ticket hticket id hid => ?_, fun id hcycle => ?_⟩
  · obtain ⟨other, hother, -, hdepends⟩ := hback ticket hticket
    exact hids id (h.defined other hother id (hdepends ▸ hid))
  · have hedges : DependsOn tickets' ≤ DependsOn tickets := by
      rintro a b ⟨ticket, hticket, rfl, hb⟩
      obtain ⟨other, hother, hid, hdepends⟩ := hback ticket hticket
      exact ⟨other, hother, hid, hdepends ▸ hb⟩
    exact h.acyclic id (Relation.TransGen.mono hedges id id hcycle)

/-- The walk sees the graph only. -/
theorem next_of_nodes (hnodes : tickets.map Ticket.node = tickets'.map Ticket.node) :
    TicketStore.next ⟨tickets⟩ = TicketStore.next ⟨tickets'⟩ := by
  have hrow : ∀ (tickets : List Ticket) (id : String), TicketStore.next ⟨tickets⟩ id
      = ((tickets.map Ticket.node).find? (·.1 = id)).elim []
          fun node => node.2.insertionSort (· ≤ ·) := by
    intro tickets id
    unfold TicketStore.next TicketStore.byId
    rw [List.find?_map]
    show _ = (Option.map Ticket.node (tickets.find? fun ticket => ticket.id = id)).elim _ _
    cases tickets.find? fun ticket => ticket.id = id <;> rfl
  ext1 id
  rw [hrow, hrow, hnodes]

theorem FitsFrames.of_nodes {frames : Nat} (h : TicketStore.FitsFrames ⟨tickets⟩ frames)
    (hnodes : tickets.map Ticket.node = tickets'.map Ticket.node) :
    TicketStore.FitsFrames ⟨tickets'⟩ frames := by
  have hsorted : TicketStore.sortedIds ⟨tickets⟩ = TicketStore.sortedIds ⟨tickets'⟩ := by
    unfold TicketStore.sortedIds
    rw [ids_of_nodes hnodes]
  unfold TicketStore.FitsFrames at h ⊢
  rwa [← next_of_nodes hnodes, ← hsorted]

end Graph

/-! ### The loader on a whole store -/

namespace Workflow

variable [NanoYaml] {workflow workflow' : Workflow} {store : TicketStore}

/-- What the loader accepts, without its order. -/
theorem loadTicketStore_ok_iff :
    workflow.loadTicketStore = .ok store
      ↔ ∃ tickets, workflow.parsedTickets = .ok tickets ∧ ValidTickets tickets
        ∧ TicketStore.FitsFrames ⟨tickets⟩ (tickets.length + 1) ∧ store = sortedStore tickets := by
  cases hparsed : workflow.parsedTickets with
  | error message =>
    have hload : ∃ message, workflow.loadTicketStore = .error message := by
      have hwithin := @loadTicketStoreWithin_eq _ workflow 0 (by rw [hparsed]; nofun)
      rw [← hwithin]
      unfold loadTicketStoreWithin
      rw [hparsed]
      exact ⟨_, rfl⟩
    obtain ⟨message', herror⟩ := hload
    rw [herror]
    constructor
    · nofun
    · rintro ⟨tickets, hok, -⟩
      cases hok
  | ok tickets =>
    have hload : workflow.loadTicketStore
        = (workflow.acceptTickets (tickets.length + 1) tickets).mapError LoadFailure.text := by
      have hframes : ∀ tickets', workflow.parsedTickets = .ok tickets' →
          tickets'.length < tickets.length + 1 := by
        intro tickets' hok
        rw [hparsed] at hok
        cases hok
        exact Nat.lt_succ_self _
      rw [← loadTicketStoreWithin_eq hframes]
      unfold loadTicketStoreWithin
      rw [hparsed]
      rfl
    have haccept := @acceptTickets_ok_iff workflow (tickets.length + 1) tickets store
    rw [hload]
    constructor
    · intro hok
      have hstore : workflow.acceptTickets (tickets.length + 1) tickets = .ok store := by
        cases hcase : workflow.acceptTickets (tickets.length + 1) tickets with
        | error e =>
          rw [hcase] at hok
          cases hok
        | ok store' =>
          rw [hcase] at hok
          cases hok
          rfl
      obtain ⟨hvalid, hfits, rfl⟩ := haccept.mp hstore
      exact ⟨tickets, rfl, hvalid, hfits, rfl⟩
    · rintro ⟨tickets', hok, hvalid, hfits, rfl⟩
      cases hok
      rw [haccept.mpr ⟨hvalid, hfits, rfl⟩]
      rfl

/-- A directory where the canonical entry `moved` is one of the entries. -/
theorem ticketsIn_of_cons {state : TicketState} {entries rest : List DirectoryEntry}
    {moved : DirectoryEntry} {ticket : Ticket}
    (hdirectory : workflow.directory state = .entries entries) (hperm : entries.Perm (moved :: rest))
    (hparses : ∀ entry ∈ entries, workflow.Parses state entry)
    (hticket : workflow.ticketOf state moved = some ticket) :
    (workflow.ticketsIn state).Perm (ticket :: rest.filterMap (workflow.ticketOf state)) := by
  refine (ticketsIn_perm hdirectory hparses).trans ((hperm.filterMap _).trans ?_)
  rw [List.filterMap_cons_some hticket]

/-- The id of a ticket is that of its file, its state that of its directory, and nothing else
    depends on the state. -/
theorem parseTicket_state (ticketId text : String) (state state' : TicketState) :
    parseTicket ticketId state' text = (parseTicket ticketId state text).map
      fun ticket => { ticket with id := ticketId, state := state' } := by
  unfold parseTicket
  simp only [bind, Except.bind]
  cases splitTicket text with
  | error message => rfl
  | ok parts =>
    dsimp only
    cases NanoYaml.loads parts.1 with
    | error message => rfl
    | ok metadata =>
      dsimp only
      cases ((metadata.map (·.1)).filter fun key =>
          !(["type", "title", "depends_on"].contains key)).insertionSort (· ≤ ·) with
      | cons key keys => rfl
      | nil =>
        dsimp only
        cases require (metadata.get "type").isSome "missing required metadata key \"type\"" with
        | error message => rfl
        | ok _ =>
          dsimp only
          cases require (metadata.get "title").isSome "missing required metadata key \"title\"" with
          | error message => rfl
          | ok _ =>
            dsimp only
            cases require (metadata.get "type" == some (.string "devlegate.ticket"))
                "metadata \"type\" must be \"devlegate.ticket\"" with
            | error message => rfl
            | ok _ =>
              dsimp only
              cases ticketTitle metadata with
              | error message => rfl
              | ok title => cases ticketDependencies ticketId metadata <;> rfl

theorem parseTicket_fields {ticketId text : String} {state : TicketState} {ticket : Ticket}
    (h : parseTicket ticketId state text = .ok ticket) :
    ticket.id = ticketId ∧ ticket.state = state := by
  have hsame := parseTicket_state ticketId text state state
  rw [h] at hsame
  have hticket : ticket = { ticket with id := ticketId, state := state } := Except.ok.inj hsame
  rw [hticket]
  exact ⟨rfl, rfl⟩

/-- The tickets of a directory are in its state, under the name of their file. -/
theorem ticketOf_eq_some {state : TicketState} {entry : DirectoryEntry} {ticket : Ticket} :
    workflow.ticketOf state entry = some ticket
      ↔ ∃ text, entry.text = some text ∧ canonicalTicketId entry.name = some ticket.id
        ∧ parseTicket ticket.id state text = .ok ticket := by
  unfold ticketOf Workflow.loadEntry
  cases hname : canonicalTicketId entry.name with
  | none => exact iff_of_false nofun fun ⟨_, _, h, _⟩ => nomatch h
  | some ticketId =>
    cases htext : entry.text with
    | none => exact iff_of_false nofun fun ⟨_, h, _⟩ => nomatch h
    | some text =>
      dsimp only
      constructor
      · intro h
        cases hparsed : parseTicket ticketId state text with
        | error message =>
          rw [hparsed] at h
          cases h
        | ok parsed =>
          rw [hparsed] at h
          cases h
          obtain ⟨rfl, -⟩ := parseTicket_fields hparsed
          exact ⟨text, rfl, rfl, hparsed⟩
      · rintro ⟨text', htext', hname', hparsed⟩
        cases htext'
        cases hname'
        rw [hparsed]
        rfl

/-- A canonical entry that parses has a ticket. -/
theorem exists_ticketOf {state : TicketState} {entry : DirectoryEntry} {ticketId : String}
    (hname : canonicalTicketId entry.name = some ticketId) (hparses : workflow.Parses state entry) :
    ∃ ticket, workflow.ticketOf state entry = some ticket ∧ ticket.id = ticketId := by
  have hentry := hparses.loadEntry
  unfold Workflow.loadEntry at hentry
  rw [hname] at hentry
  cases htext : entry.text with
  | none =>
    rw [htext] at hentry
    cases hentry
  | some text =>
    rw [htext] at hentry
    dsimp only at hentry
    cases hparsed : parseTicket ticketId state text with
    | error message =>
      rw [hparsed] at hentry
      cases hentry
    | ok ticket =>
      rw [hparsed] at hentry
      exact ⟨ticket, (Except.ok.inj hentry).symm, (parseTicket_fields hparsed).1⟩

/-! ### The file of a ticket -/

/-- The files of one directory, in a store that loads. -/
theorem parses_of_parsed {tickets : List Ticket} (h : workflow.parsedTickets = .ok tickets)
    {state : TicketState} {entries : List DirectoryEntry}
    (hdirectory : workflow.directory state = .entries entries) :
    ∀ entry ∈ entries, workflow.Parses state entry :=
  ((loadDirectory_ok_iff hdirectory).mp (loadDirectory_of_parsed h state)).1

theorem mem_parsedTickets_iff {tickets : List Ticket} (h : workflow.parsedTickets = .ok tickets)
    {ticket : Ticket} :
    ticket ∈ tickets ↔ ∃ state entries, workflow.directory state = .entries entries
      ∧ ∃ entry ∈ entries, workflow.ticketOf state entry = some ticket := by
  obtain ⟨-, rfl⟩ := parsedTickets_ok_iff.mp h
  rw [List.mem_flatMap]
  constructor
  · rintro ⟨state, -, hticket⟩
    have hload := loadDirectory_of_parsed h state
    cases hdirectory : workflow.directory state with
    | missing =>
      unfold Workflow.loadDirectory at hload
      rw [hdirectory] at hload
      rw [← Except.ok.inj hload] at hticket
      cases hticket
    | notDirectory =>
      unfold Workflow.loadDirectory at hload
      rw [hdirectory] at hload
      cases hload
    | entries entries =>
      have hmem := (ticketsIn_perm hdirectory (parses_of_parsed h hdirectory)).mem_iff.mp hticket
      obtain ⟨entry, hentry, hof⟩ := List.mem_filterMap.mp hmem
      exact ⟨state, entries, hdirectory, entry, hentry, hof⟩
  · rintro ⟨state, entries, hdirectory, entry, hentry, hof⟩
    have hstate : state ∈ workflowStates := by cases state <;> decide
    refine ⟨state, hstate, ?_⟩
    exact (ticketsIn_perm hdirectory (parses_of_parsed h hdirectory)).mem_iff.mpr
      (List.mem_filterMap.mpr ⟨entry, hentry, hof⟩)

omit [NanoYaml] in
/-- The name of a canonical file. -/
theorem canonicalTicketId_eq_some {name ticketId : String}
    (h : canonicalTicketId name = some ticketId) : name = ticketId ++ ".md" := by
  unfold canonicalTicketId at h
  dsimp only at h
  split at h
  · rename_i hname
    rw [Bool.and_eq_true, decide_eq_true_eq] at hname
    have hid : String.ofList (name.toList.take (name.toList.length - 3)) = ticketId :=
      Option.some.inj h
    rw [← hid, ← String.toList_inj, String.toList_append, String.toList_ofList, ← hname.1,
      List.take_append_drop]
  · cases h

section File

variable {tickets : List Ticket} {ticket : Ticket}

theorem nodup_ticketsIn (hparsed : workflow.parsedTickets = .ok tickets)
    (hids : (tickets.map (·.id)).Nodup) (state : TicketState) :
    ((workflow.ticketsIn state).map (·.id)).Nodup := by
  obtain ⟨-, rfl⟩ := parsedTickets_ok_iff.mp hparsed
  rw [List.map_flatMap, List.nodup_flatMap] at hids
  have hstate : state ∈ workflowStates := by cases state <;> decide
  exact hids.1 state hstate

/-- A loaded ticket has one file, in the directory of its state. -/
theorem exists_entry (hparsed : workflow.parsedTickets = .ok tickets)
    (hids : (tickets.map (·.id)).Nodup) (hticket : ticket ∈ tickets) :
    ∃ entries rest entry, workflow.directory ticket.state = .entries entries
      ∧ entries.Perm (entry :: rest) ∧ workflow.ticketOf ticket.state entry = some ticket
      ∧ entry.name = ticket.id ++ ".md" ∧ ∀ other ∈ rest, other.name ≠ ticket.id ++ ".md" := by
  obtain ⟨state, entries, hdirectory, entry, hentry, hof⟩ :=
    (mem_parsedTickets_iff hparsed).mp hticket
  obtain ⟨text, -, hname, hparse⟩ := ticketOf_eq_some.mp hof
  obtain rfl := (parseTicket_fields hparse).2
  have hperm := List.perm_cons_erase hentry
  refine ⟨entries, entries.erase entry, entry, hdirectory, hperm, hof,
    canonicalTicketId_eq_some hname, fun other hother heq => ?_⟩
  have hparses := parses_of_parsed hparsed hdirectory
  have hcanonical : canonicalTicketId other.name = some ticket.id := by
    rw [heq, ← canonicalTicketId_eq_some hname, hname]
  obtain ⟨twin, htwin, hid⟩ := exists_ticketOf hcanonical
    (hparses other (List.mem_of_mem_erase hother))
  -- The two files would give two tickets of one id.
  have hnodup := nodup_ticketsIn hparsed hids ticket.state
  rw [((ticketsIn_of_cons hdirectory hperm hparses hof).map (·.id)).nodup_iff, List.map_cons,
    List.nodup_cons] at hnodup
  apply hnodup.1
  rw [← hid]
  exact List.mem_map_of_mem (List.mem_filterMap.mpr ⟨other, hother, htwin⟩)

/-- No other directory has a file of its name. -/
theorem name_ne_of_loaded (hparsed : workflow.parsedTickets = .ok tickets)
    (hids : (tickets.map (·.id)).Nodup) (hticket : ticket ∈ tickets) {state : TicketState}
    (hstate : state ≠ ticket.state) {entries : List DirectoryEntry}
    (hdirectory : workflow.directory state = .entries entries) :
    ∀ entry ∈ entries, entry.name ≠ ticket.id ++ ".md" := by
  intro entry hentry heq
  obtain ⟨-, -, own, -, -, hof, hname, -⟩ := exists_entry hparsed hids hticket
  obtain ⟨text, -, hcanonical, -⟩ := ticketOf_eq_some.mp hof
  have hcanonical' : canonicalTicketId entry.name = some ticket.id := by
    rw [heq, ← hname, hcanonical]
  obtain ⟨twin, htwin, hid⟩ := exists_ticketOf hcanonical'
    (parses_of_parsed hparsed hdirectory entry hentry)
  have hmem : twin ∈ tickets :=
    (mem_parsedTickets_iff hparsed).mpr ⟨state, entries, hdirectory, entry, hentry, htwin⟩
  obtain rfl := List.inj_on_of_nodup_map hids hmem hticket hid
  obtain ⟨text, -, -, hparse⟩ := ticketOf_eq_some.mp htwin
  exact hstate (parseTicket_fields hparse).2.symm

end File

/-! ### A move -/

/-- The entry stands in another directory, as it was. -/
structure Moved (entry : DirectoryEntry) (source target : TicketState)
    (workflow workflow' : Workflow) : Prop where
  ne : source ≠ target
  path : workflow'.path = workflow.path
  taken : ∃ entries entries', workflow.directory source = .entries entries
    ∧ workflow'.directory source = .entries entries' ∧ entries.Perm (entry :: entries')
  placed : ∃ entries entries', workflow.directory target = .entries entries
    ∧ workflow'.directory target = .entries entries' ∧ entries'.Perm (entry :: entries)
  other : ∀ state, state ≠ source → state ≠ target →
    workflow'.directory state = workflow.directory state

section Move

variable {entry : DirectoryEntry} {source target : TicketState} {ticket : Ticket}

theorem loadEntry_congr (h : workflow'.path = workflow.path) :
    workflow'.loadEntry = workflow.loadEntry := by
  ext state entry
  unfold Workflow.loadEntry Workflow.ticketPath
  rw [h]

theorem ticketOf_congr (h : workflow'.path = workflow.path) :
    workflow'.ticketOf = workflow.ticketOf := by
  ext state entry
  unfold ticketOf
  rw [loadEntry_congr h]

theorem loadDirectory_congr (h : workflow'.path = workflow.path) {state : TicketState}
    (hdirectory : workflow'.directory state = workflow.directory state) :
    workflow'.loadDirectory state = workflow.loadDirectory state := by
  unfold Workflow.loadDirectory
  rw [hdirectory, h, loadEntry_congr h]

/-- The entry gives the same ticket in the other state. -/
theorem ticketOf_target (hticket : workflow.ticketOf source entry = some ticket)
    (target : TicketState) :
    workflow.ticketOf target entry = some { ticket with state := target } := by
  obtain ⟨text, htext, hname, hparse⟩ := ticketOf_eq_some.mp hticket
  refine ticketOf_eq_some.mpr ⟨text, htext, hname, ?_⟩
  rw [parseTicket_state ticket.id text source target, hparse]
  rfl

theorem parses_of_ticketOf {state : TicketState}
    (h : workflow.ticketOf state entry = some ticket) : workflow.Parses state entry := by
  unfold ticketOf at h
  unfold Parses
  cases hentry : workflow.loadEntry state entry with
  | error message =>
    rw [hentry] at h
    cases h
  | ok parsed => exact ⟨parsed, rfl⟩

/-- The tickets after a move: one of them has changed its state. -/
theorem Moved.parsedTickets (h : Moved entry source target workflow workflow')
    (hticket : workflow.ticketOf source entry = some ticket) {tickets : List Ticket}
    (hparsed : workflow.parsedTickets = .ok tickets) :
    ∃ rest tickets', tickets.Perm (ticket :: rest) ∧ workflow'.parsedTickets = .ok tickets'
      ∧ tickets'.Perm ({ ticket with state := target } :: rest) := by
  obtain ⟨hloads, rfl⟩ := parsedTickets_ok_iff.mp hparsed
  obtain ⟨entries, entries', hsource, hsource', hperm⟩ := h.taken
  obtain ⟨others, others', htarget, htarget', hperm'⟩ := h.placed
  have hof := ticketOf_congr h.path
  have hparses := parses_of_parsed hparsed hsource
  have hparsesTarget := parses_of_parsed hparsed htarget
  have hsame : ∀ state e, workflow'.Parses state e ↔ workflow.Parses state e := by
    intro state e
    unfold Parses
    rw [loadEntry_congr h.path]
  have hparses' : ∀ e ∈ entries', workflow'.Parses source e := fun e he =>
    (hsame source e).mpr (hparses e (hperm.mem_iff.mpr (List.mem_cons_of_mem _ he)))
  have hparsesTarget' : ∀ e ∈ others', workflow'.Parses target e := by
    intro e he
    refine (hsame target e).mpr ?_
    rcases List.mem_cons.mp (hperm'.mem_iff.mp he) with rfl | he
    · exact parses_of_ticketOf (ticketOf_target hticket target)
    · exact hparsesTarget e he
  have hloads' : ∀ state, ∃ tickets, workflow'.loadDirectory state = .ok tickets := by
    intro state
    by_cases hs : state = source
    · subst hs
      exact ⟨_, (loadDirectory_ok_iff hsource').mpr ⟨hparses', rfl⟩⟩
    · by_cases ht : state = target
      · subst ht
        exact ⟨_, (loadDirectory_ok_iff htarget').mpr ⟨hparsesTarget', rfl⟩⟩
      · rw [loadDirectory_congr h.path (h.other state hs ht)]
        exact hloads state
  have hnodup : workflowStates.Nodup := by decide
  have hmem : ∀ state, state ∈ workflowStates := fun state => by cases state <;> decide
  -- the tickets that neither directory list has for the moved entry
  let common : TicketState → List Ticket := fun state =>
    if state = target then workflow.ticketsIn target else workflow'.ticketsIn state
  have hkept : ∀ state, state ≠ source → state ≠ target →
      workflow'.ticketsIn state = workflow.ticketsIn state := by
    intro state hs ht
    unfold ticketsIn
    rw [loadDirectory_congr h.path (h.other state hs ht)]
  refine ⟨workflowStates.flatMap common, workflowStates.flatMap workflow'.ticketsIn, ?_,
    parsedTickets_ok_iff.mpr ⟨hloads', rfl⟩, ?_⟩
  · refine flatMap_perm_cons hnodup (hmem source) (fun state _ hs => ?_) ?_
    · show workflow.ticketsIn state = if state = target then _ else _
      by_cases ht : state = target
      · rw [if_pos ht, ht]
      · rw [if_neg ht, hkept state hs ht]
    · show (workflow.ticketsIn source).Perm (ticket :: if source = target then _ else _)
      rw [if_neg h.ne]
      refine (ticketsIn_of_cons hsource hperm hparses hticket).trans (.cons _ ?_)
      rw [← hof]
      exact (ticketsIn_perm hsource' hparses').symm
  · refine flatMap_perm_cons hnodup (hmem target) (fun state _ ht => ?_) ?_
    · show workflow'.ticketsIn state = if state = target then _ else _
      rw [if_neg ht]
    · show (workflow'.ticketsIn target).Perm (_ :: if target = target then _ else _)
      rw [if_pos rfl]
      refine (ticketsIn_of_cons htarget' hperm' hparsesTarget'
        (by rw [hof]; exact ticketOf_target hticket target)).trans (.cons _ ?_)
      rw [hof]
      exact (ticketsIn_perm htarget hparsesTarget).symm

/-- **A moved ticket.** A workflow that loads still loads when a ticket file has moved, with that
    ticket in the other state and all others as they were. -/
theorem loadTicketStore_moved (h : Moved entry source target workflow workflow')
    (hticket : workflow.ticketOf source entry = some ticket)
    (hload : workflow.loadTicketStore = .ok store) :
    ∃ rest store', store.tickets.Perm (ticket :: rest) ∧ workflow'.loadTicketStore = .ok store'
      ∧ store'.tickets.Perm ({ ticket with state := target } :: rest) := by
  obtain ⟨tickets, hparsed, hvalid, hfits, rfl⟩ := loadTicketStore_ok_iff.mp hload
  obtain ⟨rest, tickets', hperm, hparsed', hperm'⟩ := h.parsedTickets hticket hparsed
  have hnodes : (ticket :: rest).map Ticket.node
      = ({ ticket with state := target } :: rest).map Ticket.node := rfl
  have hvalid' := (hvalid.perm hperm).of_nodes hnodes
  have hlength : tickets'.length = tickets.length := by
    rw [hperm.length_eq, hperm'.length_eq]
    rfl
  have hfits' : TicketStore.FitsFrames ⟨tickets'⟩ (tickets'.length + 1) := by
    rw [hlength]
    exact (FitsFrames.of_nodes (hfits.perm hvalid.unique hperm) hnodes).perm hvalid'.unique
      hperm'.symm
  refine ⟨rest, sortedStore tickets', (List.perm_insertionSort _ _).trans hperm,
    loadTicketStore_ok_iff.mpr ⟨tickets', hparsed', hvalid'.perm hperm'.symm, hfits', rfl⟩,
    (List.perm_insertionSort _ _).trans hperm'⟩

end Move

end Workflow

end Devlegate
