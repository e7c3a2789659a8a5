import Devlegate.TicketStorage
import Devlegate.Lib.DepthFirst
import Devlegate.Lib.Loops
import Mathlib.Data.List.Perm.Basic
import Mathlib.Data.Nat.Digits.Defs
import Mathlib.Data.String.Basic

namespace Devlegate

/-!
# What the ticket loader accepts

`load_ticket_store` walks the dependencies by a recursive function, and the interpreter admits only
so many nested calls.  This file follows the loader with the calls it has left.

* `visitWithin` / `validateCyclesWithin` / `acceptTickets` / `loadTicketStoreWithin`: the loader, on
  an interpreter with a number of frames left.
* `loadTicketStoreWithin_eq`: with more frames than tickets it is `load_ticket_store` of
  `TicketStorage`.
* `ValidTickets`: the ids are unique, the dependencies are defined and nothing depends on itself.
* `acceptTickets_isOk_iff`: a valid set of tickets is accepted exactly when the first path to each
  ticket fits into the frames.
* `accepted_iff`: for which sets of tickets the loader does all that is asked of it.
-/

open DepthFirst (FirstPath)
open Loops

/-! ### The loader and its frames -/

/-- How the loader fails on tickets that are parsed. -/
inductive LoadFailure where
  | ticketError (message : String)
  | keyError (ticketId : String)
  | recursionError
  deriving DecidableEq, Repr

namespace LoadFailure

/-- The text of the exception. -/
def text : LoadFailure → String
  | .ticketError message => message
  | .keyError ticketId => "KeyError: " ++ pythonRepr ticketId
  | .recursionError => "maximum recursion depth exceeded"

/-- The text a cycle is reported with. -/
def cycleMessage (path : List String) : String := "dependency cycle: " ++ " -> ".intercalate path

/-- The failure of a walk that stops early. -/
def ofStop : DepthFirst.Stop String → LoadFailure
  | .cycle path => .ticketError (cycleMessage path)
  | .frames => .recursionError

end LoadFailure

namespace TicketStore

/-- `visit` of `_validate_cycles`, with the nested calls the interpreter still admits. -/
def visitWithin (store : TicketStore) : Nat → List String → List String → String →
    Except LoadFailure (List String)
  | 0, _, _, _ => .error .recursionError
  | frames + 1, stack, visited, ticketId =>
    if visited.contains ticketId then .ok visited
    else if stack.contains ticketId then
      .error (.ticketError ("dependency cycle: "
        ++ " -> ".intercalate (stack.dropWhile (· != ticketId) ++ [ticketId])))
    else
      match store.byId ticketId with
      | none => .error (.keyError ticketId)
      | some ticket => do
        let visited ← (ticket.dependsOn.insertionSort (· ≤ ·)).foldlM
          (visitWithin store frames (stack ++ [ticketId])) visited
        return ticketId :: visited

/-- The ids in the order the walk starts from them. -/
def sortedIds (store : TicketStore) : List String :=
  (store.tickets.map (·.id)).insertionSort (· ≤ ·)

/-- `_validate_cycles`. -/
def validateCyclesWithin (store : TicketStore) (frames : Nat) : Except LoadFailure Unit := do
  let _ ← store.sortedIds.foldlM (store.visitWithin frames []) []
  return ()

end TicketStore

namespace Workflow

/-- `load_ticket_store`, after the files are parsed. -/
def acceptTickets (workflow : Workflow) (frames : Nat) (tickets : List Ticket) :
    Except LoadFailure TicketStore := do
  let store : TicketStore := ⟨tickets⟩
  match store.duplicateId with
  | some id =>
    let paths := (store.tickets.filter (·.id = id)).map fun ticket =>
      "  " ++ workflow.ticketPath ticket.state id
    .error (.ticketError ("duplicate ticket ID " ++ id ++ ":\n" ++ "\n".intercalate paths))
  | none => .ok ()
  match store.missingDependency with
  | some (id, dependency) =>
    .error (.ticketError ("missing dependency: " ++ id ++ " depends on " ++ dependency))
  | none => .ok ()
  store.validateCyclesWithin frames
  return ⟨store.tickets.insertionSort (fun a b => a.id ≤ b.id)⟩

/-- The tickets of the workflow directories. -/
def parsedTickets [NanoYaml] (workflow : Workflow) : Except String (List Ticket) := do
  let loaded ← workflowStates.mapM workflow.loadDirectory
  return loaded.flatten

/-- `load_ticket_store`. -/
def loadTicketStoreWithin [NanoYaml] (workflow : Workflow) (frames : Nat) :
    Except LoadFailure TicketStore := do
  let tickets ← workflow.parsedTickets.mapError .ticketError
  workflow.acceptTickets frames tickets

end Workflow

/-! ### The dependency graph -/

/-- One ticket depends on the other. -/
def DependsOn (tickets : List Ticket) (id dependency : String) : Prop :=
  ∃ ticket ∈ tickets, ticket.id = id ∧ dependency ∈ ticket.dependsOn

/-- The ids are unique, every dependency names a ticket, and no ticket depends on itself, directly
    or through others. -/
structure ValidTickets (tickets : List Ticket) : Prop where
  unique : (tickets.map (·.id)).Nodup
  defined : ∀ ticket ∈ tickets, ∀ id ∈ ticket.dependsOn, ∃ other ∈ tickets, other.id = id
  acyclic : ∀ id, ¬ Relation.TransGen (DependsOn tickets) id id

/-- A path of dependencies that ends with the ticket it starts from. -/
structure DependencyCycle (tickets : List Ticket) (path : List String) : Prop where
  edges : path.IsChain (DependsOn tickets)
  closed : path.head? = path.getLast?
  long : 2 ≤ path.length

namespace TicketStore

/-- The dependencies of a ticket, in the order the walk takes them. -/
def next (store : TicketStore) (id : String) : List String :=
  match store.byId id with
  | none => []
  | some ticket => ticket.dependsOn.insertionSort (· ≤ ·)

/-- The frames suffice for the walk: the first path to each ticket fits, with one more call below
    a ticket that has dependencies. -/
def FitsFrames (store : TicketStore) (frames : Nat) : Prop :=
  ∀ id n, FirstPath store.next id store.sortedIds n → n + min 1 (store.next id).length ≤ frames

/-- Where ids are unique the graph of the walk is the dependency relation. -/
theorem edge_iff {store : TicketStore} (hids : (store.tickets.map (·.id)).Nodup)
    {id dependency : String} :
    DepthFirst.Edge store.next id dependency ↔ DependsOn store.tickets id dependency := by
  unfold DepthFirst.Edge next DependsOn
  constructor
  · intro h
    cases hticket : store.byId id with
    | none => simp [hticket] at h
    | some ticket =>
      rw [hticket] at h
      exact ⟨ticket, mem_of_byId hticket, byId_id hticket, (List.mem_insertionSort _).mp h⟩
  · rintro ⟨ticket, hmem, rfl, hdependency⟩
    rw [byId_of_mem hids hmem]
    exact (List.mem_insertionSort _).mpr hdependency

theorem edge_eq {store : TicketStore} (hids : (store.tickets.map (·.id)).Nodup) :
    DepthFirst.Edge store.next = DependsOn store.tickets := by
  ext id dependency
  exact edge_iff hids

theorem loaded_iff {store : TicketStore} :
    store.Loaded ↔ (store.tickets.map (·.id)).Nodup
      ∧ ∀ ticket ∈ store.tickets, ∀ id ∈ ticket.dependsOn, ∃ other ∈ store.tickets, other.id = id := by
  constructor
  · intro h
    refine ⟨h.ids_nodup, fun ticket hticket id hid => ?_⟩
    simpa using byId_isSome.mp (h.defined ticket hticket id hid)
  · rintro ⟨hids, hdefined⟩
    refine ⟨hids, fun ticket hticket id hid => byId_isSome.mpr ?_⟩
    simpa using hdefined ticket hticket id hid

theorem mem_ids_of_next {store : TicketStore} (hstore : store.Loaded) {id dependency : String}
    (h : dependency ∈ store.next id) : dependency ∈ store.tickets.map (·.id) := by
  obtain ⟨ticket, hmem, _, hdependency⟩ := (edge_iff hstore.ids_nodup).mp h
  exact byId_isSome.mp (hstore.defined ticket hmem dependency hdependency)

theorem mem_sortedIds {store : TicketStore} {id : String} :
    id ∈ store.sortedIds ↔ id ∈ store.tickets.map (·.id) :=
  List.mem_insertionSort _

/-! ### The walk is a depth-first walk -/

/-- The calls of a row agree when each of them does. -/
theorem foldlM_visitWithin {store : TicketStore} {frames : Nat} {stack row : List String}
    (hcall : ∀ id ∈ row, ∀ visited, store.visitWithin frames stack visited id
      = (DepthFirst.visit store.next frames stack visited id).mapError LoadFailure.ofStop) :
    ∀ visited, row.foldlM (store.visitWithin frames stack) visited
      = (DepthFirst.walk store.next frames stack visited row).mapError LoadFailure.ofStop := by
  induction row with
  | nil =>
    intro visited
    rfl
  | cons id row ih =>
    intro visited
    rw [List.foldlM_cons, hcall id (by simp) visited, DepthFirst.walk_cons]
    cases DepthFirst.visit store.next frames stack visited id with
    | error stop => rfl
    | ok visited' => exact ih (fun id hid => hcall id (by simp [hid])) visited'

theorem visitWithin_eq {store : TicketStore} (hstore : store.Loaded) (frames : Nat) :
    ∀ (stack visited : List String) (id : String), id ∈ store.tickets.map (·.id) →
      store.visitWithin frames stack visited id
        = (DepthFirst.visit store.next frames stack visited id).mapError LoadFailure.ofStop := by
  induction frames with
  | zero =>
    intro stack visited id _
    rfl
  | succ frames ih =>
    intro stack visited id hid
    by_cases hvisited : id ∈ visited
    · rw [DepthFirst.visit_of_visited hvisited]
      unfold visitWithin
      simp [hvisited, Except.mapError]
    by_cases hstack : id ∈ stack
    · have hdrop : (fun u => u != id) = fun u => decide (u ≠ id) := by
        ext u
        by_cases hu : u = id <;> simp [hu]
      unfold visitWithin DepthFirst.visit
      rw [if_neg (by simpa using hvisited), if_pos (by simpa using hstack), if_neg hvisited,
        if_pos hstack, hdrop]
      rfl
    obtain ⟨ticket, hticket⟩ := Option.isSome_iff_exists.mp (byId_isSome.mpr hid)
    have hnext : store.next id = ticket.dependsOn.insertionSort (· ≤ ·) := by
      unfold next
      rw [hticket]
    have hrow := @foldlM_visitWithin store frames (stack ++ [id]) (store.next id)
      (fun d hd visited => ih _ visited d (mem_ids_of_next hstore hd)) visited
    rw [DepthFirst.visit_of_new hvisited hstack]
    unfold visitWithin
    rw [if_neg (by simpa using hvisited), if_neg (by simpa using hstack)]
    simp only [hticket]
    rw [← hnext, hrow]
    cases DepthFirst.walk store.next frames (stack ++ [id]) visited (store.next id) <;> rfl

/-- The walk of `_validate_cycles`. -/
theorem validateCyclesWithin_eq {store : TicketStore} (hstore : store.Loaded) (frames : Nat) :
    store.validateCyclesWithin frames
      = ((DepthFirst.walk store.next frames [] [] store.sortedIds).mapError LoadFailure.ofStop).map
          fun _ => () := by
  unfold validateCyclesWithin
  rw [foldlM_visitWithin fun id hid visited =>
    visitWithin_eq hstore frames [] visited id (mem_sortedIds.mp hid)]
  cases DepthFirst.walk store.next frames [] [] store.sortedIds <;> rfl

end TicketStore

/-! ### What is accepted -/

namespace TicketStore

theorem duplicateId_eq_none {store : TicketStore} :
    store.duplicateId = none ↔ (store.tickets.map (·.id)).Nodup := by
  constructor
  · exact ids_nodup_of_duplicateId
  · intro hids
    apply List.find?_eq_none.mpr
    intro id _
    have hcount := List.nodup_iff_count_le_one.mp hids id
    simp only [decide_eq_true_eq]
    omega

theorem missingDependency_eq_none {store : TicketStore} :
    store.missingDependency = none
      ↔ ∀ ticket ∈ store.tickets, ∀ id ∈ ticket.dependsOn, (store.byId id).isSome := by
  constructor
  · exact defined_of_missingDependency
  · intro hdefined
    apply List.find?_eq_none.mpr
    rintro ⟨id, dependency⟩ hmem
    rw [List.mem_flatMap] at hmem
    obtain ⟨ticket, hticket, hdependency⟩ := hmem
    rw [List.mem_map] at hdependency
    obtain ⟨d, hd, heq⟩ := hdependency
    cases heq
    have hsome := hdefined ticket ((List.mem_insertionSort _).mp hticket) _ hd
    simpa [Option.isSome_iff_ne_none] using hsome

theorem acyclic_iff {store : TicketStore} (hids : (store.tickets.map (·.id)).Nodup) :
    DepthFirst.Acyclic store.next
      ↔ ∀ id, ¬ Relation.TransGen (DependsOn store.tickets) id id := by
  unfold DepthFirst.Acyclic
  rw [edge_eq hids]

/-- A walk that ends has started from every ticket, so no ticket is on a cycle. -/
theorem acyclic_of_walk {store : TicketStore} {frames : Nat} {visited : List String}
    (h : DepthFirst.walk store.next frames [] [] store.sortedIds = .ok visited) :
    DepthFirst.Acyclic store.next := by
  intro id hcycle
  obtain ⟨dependency, hedge, _⟩ := Relation.TransGen.head'_iff.mp hcycle
  have hsome : (store.byId id).isSome := by
    unfold DepthFirst.Edge next at hedge
    cases hticket : store.byId id with
    | none => simp [hticket] at hedge
    | some ticket => rfl
  have hmem : id ∈ store.sortedIds := mem_sortedIds.mpr (byId_isSome.mp hsome)
  exact DepthFirst.acyclic_of_walk h hmem hcycle

end TicketStore

theorem validTickets_iff {tickets : List Ticket} :
    ValidTickets tickets
      ↔ TicketStore.Loaded ⟨tickets⟩ ∧ DepthFirst.Acyclic (TicketStore.next ⟨tickets⟩) := by
  rw [TicketStore.loaded_iff]
  constructor
  · rintro ⟨hids, hdefined, hacyclic⟩
    exact ⟨⟨hids, hdefined⟩, (@TicketStore.acyclic_iff ⟨tickets⟩ hids).mpr hacyclic⟩
  · rintro ⟨⟨hids, hdefined⟩, hacyclic⟩
    exact ⟨hids, hdefined, (@TicketStore.acyclic_iff ⟨tickets⟩ hids).mp hacyclic⟩

namespace Workflow

variable {workflow : Workflow} {frames : Nat} {tickets : List Ticket}

/-- The store of a set of tickets: they are kept by id. -/
def sortedStore (tickets : List Ticket) : TicketStore :=
  ⟨tickets.insertionSort (fun a b => a.id ≤ b.id)⟩

/-- Where ids are unique and dependencies defined, the walk alone decides. -/
theorem acceptTickets_of_loaded (h : TicketStore.Loaded ⟨tickets⟩) :
    workflow.acceptTickets frames tickets
      = ((DepthFirst.walk (TicketStore.next ⟨tickets⟩) frames [] []
          (TicketStore.sortedIds ⟨tickets⟩)).mapError LoadFailure.ofStop).map
            fun _ => sortedStore tickets := by
  have hduplicate := TicketStore.duplicateId_eq_none.mpr h.ids_nodup
  have hmissing := TicketStore.missingDependency_eq_none.mpr h.defined
  unfold acceptTickets
  simp only [hduplicate, hmissing, bind, Except.bind]
  rw [TicketStore.validateCyclesWithin_eq h]
  cases DepthFirst.walk (TicketStore.next ⟨tickets⟩) frames [] []
    (TicketStore.sortedIds ⟨tickets⟩) <;> rfl

/-- Otherwise the tickets are refused before the walk. -/
theorem acceptTickets_of_not_loaded (h : ¬ TicketStore.Loaded ⟨tickets⟩) :
    ∃ message, workflow.acceptTickets frames tickets = .error (.ticketError message) := by
  unfold acceptTickets
  cases hduplicate : TicketStore.duplicateId ⟨tickets⟩ with
  | some id =>
    simp only [hduplicate, bind, Except.bind]
    exact ⟨_, rfl⟩
  | none =>
    cases hmissing : TicketStore.missingDependency ⟨tickets⟩ with
    | some missing =>
      simp only [hduplicate, hmissing, bind, Except.bind]
      exact ⟨_, rfl⟩
    | none =>
      exact absurd ⟨TicketStore.duplicateId_eq_none.mp hduplicate,
        TicketStore.missingDependency_eq_none.mp hmissing⟩ h

/-- **What the loader accepts.** A set of tickets is accepted, as the store sorted by id, exactly
    when it is valid and the walk fits into the frames. -/
theorem acceptTickets_ok_iff {store : TicketStore} :
    workflow.acceptTickets frames tickets = .ok store
      ↔ ValidTickets tickets ∧ TicketStore.FitsFrames ⟨tickets⟩ frames
        ∧ store = sortedStore tickets := by
  by_cases hloaded : TicketStore.Loaded ⟨tickets⟩
  · rw [acceptTickets_of_loaded hloaded, validTickets_iff]
    have hexact := fun hacyclic => @DepthFirst.walk_isOk_iff _ _ (TicketStore.next ⟨tickets⟩)
      hacyclic frames (TicketStore.sortedIds ⟨tickets⟩)
    cases hwalk : DepthFirst.walk (TicketStore.next ⟨tickets⟩) frames [] []
        (TicketStore.sortedIds ⟨tickets⟩) with
    | ok visited =>
      have hacyclic := TicketStore.acyclic_of_walk hwalk
      have hfits := (hexact hacyclic).mp (by rw [hwalk]; rfl)
      constructor
      · intro h
        cases h
        exact ⟨⟨hloaded, hacyclic⟩, hfits, rfl⟩
      · rintro ⟨_, _, rfl⟩
        rfl
    | error stop =>
      constructor
      · intro h
        cases h
      · rintro ⟨⟨_, hacyclic⟩, hfits, _⟩
        have hok := (hexact hacyclic).mpr hfits
        rw [hwalk] at hok
        cases hok
  · obtain ⟨message, herror⟩ := @acceptTickets_of_not_loaded workflow frames tickets hloaded
    constructor
    · intro h
      rw [herror] at h
      cases h
    · rintro ⟨hvalid, _, _⟩
      exact absurd (validTickets_iff.mp hvalid).1 hloaded

/-- **Reported cycles.** Tickets that are refused although ids are unique and dependencies defined
    are refused with a cycle of their dependencies. -/
theorem acceptTickets_cycle (hloaded : TicketStore.Loaded ⟨tickets⟩) {message : String}
    (h : workflow.acceptTickets frames tickets = .error (.ticketError message)) :
    ∃ path, DependencyCycle tickets path ∧ message = LoadFailure.cycleMessage path := by
  rw [acceptTickets_of_loaded hloaded] at h
  cases hwalk : DepthFirst.walk (TicketStore.next ⟨tickets⟩) frames [] []
      (TicketStore.sortedIds ⟨tickets⟩) with
  | ok visited =>
    rw [hwalk] at h
    cases h
  | error stop =>
    rw [hwalk] at h
    cases stop with
    | frames => cases h
    | cycle path =>
      cases h
      obtain ⟨hedges, hclosed, hlong⟩ := DepthFirst.walk_cycle hwalk
      rw [TicketStore.edge_eq hloaded.ids_nodup] at hedges
      exact ⟨path, ⟨hedges, hclosed, hlong⟩, rfl⟩

end Workflow

/-! ### More frames than tickets -/

namespace TicketStore

/-- A row of calls with frames is a row of calls with a depth when each of them is. -/
theorem foldlM_visit {store : TicketStore} {frames depth : Nat} {stack row : List String}
    (hcall : ∀ id ∈ row, ∀ visited, (store.visitWithin frames stack visited id).mapError
      LoadFailure.text = store.visit depth stack visited id) :
    ∀ visited, (row.foldlM (store.visitWithin frames stack) visited).mapError LoadFailure.text
      = row.foldlM (store.visit depth stack) visited := by
  induction row with
  | nil =>
    intro visited
    rfl
  | cons id row ih =>
    intro visited
    rw [List.foldlM_cons, List.foldlM_cons, ← hcall id (by simp) visited]
    cases store.visitWithin frames stack visited id with
    | error failure => rfl
    | ok visited' => exact ih (fun id hid => hcall id (by simp [hid])) visited'

/-- A frame is there for each ticket that is not on the stack, and one for the call that finds the
    last of them visited. -/
theorem visitWithin_visit {store : TicketStore} (hstore : store.Loaded) (depth : Nat) :
    ∀ (stack visited : List String) (id : String), stack.Nodup →
      stack ⊆ store.tickets.map (·.id) → id ∈ store.tickets.map (·.id) →
      store.tickets.length ≤ depth + stack.length →
      (store.visitWithin (depth + 1) stack visited id).mapError LoadFailure.text
        = store.visit depth stack visited id := by
  induction depth with
  | zero =>
    intro stack visited id hstack hsub hid hlen
    unfold visitWithin visit
    by_cases hvisited : id ∈ visited
    · simp [hvisited, Except.mapError]
    have hmem : id ∈ stack := mem_stack_of_length_le hstack hsub (by omega) hid
    rw [if_neg (by simpa using hvisited), if_pos (by simpa using hmem),
      if_neg (by simpa using hvisited), if_pos (by simpa using hmem)]
    rfl
  | succ depth ih =>
    intro stack visited id hstack hsub hid hlen
    unfold visitWithin visit
    by_cases hvisited : id ∈ visited
    · simp [hvisited, Except.mapError]
    by_cases hmem : id ∈ stack
    · rw [if_neg (by simpa using hvisited), if_pos (by simpa using hmem),
        if_neg (by simpa using hvisited), if_pos (by simpa using hmem)]
      rfl
    rw [if_neg (by simpa using hvisited), if_neg (by simpa using hmem),
      if_neg (by simpa using hvisited), if_neg (by simpa using hmem)]
    obtain ⟨ticket, hticket⟩ := Option.isSome_iff_exists.mp (byId_isSome.mpr hid)
    have hrow := @foldlM_visit store (depth + 1) depth (stack ++ [id])
      (ticket.dependsOn.insertionSort (· ≤ ·)) (fun d hd visited => by
        have hdefined := hstore.defined ticket (mem_of_byId hticket) d
          ((List.mem_insertionSort _).mp hd)
        apply ih
        · simpa [List.nodup_append] using ⟨hstack, fun a ha h => hmem (h ▸ ha)⟩
        · simpa using ⟨hsub, by simpa using hid⟩
        · exact byId_isSome.mp hdefined
        · simp only [List.length_append, List.length_singleton]
          omega) visited
    simp only [hticket]
    rw [← hrow]
    cases (ticket.dependsOn.insertionSort (· ≤ ·)).foldlM
      (store.visitWithin (depth + 1) (stack ++ [id])) visited <;> rfl

theorem visit_of_le {store : TicketStore} (hstore : store.Loaded) {depth : Nat}
    (hdepth : store.tickets.length ≤ depth) {visited : List String} {id : String}
    (hid : id ∈ store.tickets.map (·.id)) :
    store.visit depth [] visited id = store.visit store.tickets.length [] visited id := by
  induction depth, hdepth using Nat.le_induction with
  | base => rfl
  | succ depth hdepth ih =>
    rw [← ih, ← visit_depth hstore depth [] visited id (by simp) (by simp) hid (by simpa)]

/-- With more frames than tickets the frames do not matter. -/
theorem validateCyclesWithin_of_lt {store : TicketStore} (hstore : store.Loaded) {frames : Nat}
    (hframes : store.tickets.length < frames) :
    (store.validateCyclesWithin frames).mapError LoadFailure.text = store.validateCycles := by
  obtain ⟨depth, rfl⟩ : ∃ depth, frames = depth + 1 := ⟨frames - 1, by omega⟩
  have hrow := @foldlM_visit store (depth + 1) store.tickets.length []
    store.sortedIds (fun id hid visited => by
      have hmem := mem_sortedIds.mp hid
      rw [visitWithin_visit hstore depth [] visited id (by simp) (by simp) hmem
        (by simp only [List.length_nil]; omega)]
      exact visit_of_le hstore (by omega) hmem) []
  unfold validateCyclesWithin validateCycles
  unfold sortedIds at hrow ⊢
  rw [← hrow]
  cases ((store.tickets.map (·.id)).insertionSort (· ≤ ·)).foldlM
    (store.visitWithin (depth + 1) []) [] <;> rfl

end TicketStore

/-- **The loader without a limit.** With more frames than there are tickets the loader is the one
    of `TicketStorage`. -/
theorem Workflow.loadTicketStoreWithin_eq [NanoYaml] {workflow : Workflow} {frames : Nat}
    (hframes : ∀ tickets, workflow.parsedTickets = .ok tickets → tickets.length < frames) :
    (workflow.loadTicketStoreWithin frames).mapError LoadFailure.text
      = workflow.loadTicketStore := by
  unfold Workflow.loadTicketStoreWithin Workflow.loadTicketStore
  unfold Workflow.parsedTickets at hframes ⊢
  cases hloaded : workflowStates.mapM workflow.loadDirectory with
  | error message => rfl
  | ok loaded =>
    have hlength := hframes loaded.flatten (by rw [hloaded]; rfl)
    simp only [bind, Except.bind, Except.mapError, pure, Except.pure]
    unfold Workflow.acceptTickets
    cases hduplicate : TicketStore.duplicateId ⟨loaded.flatten⟩ with
    | some id =>
      simp only [hduplicate, bind, Except.bind, LoadFailure.text]
    | none =>
      cases hmissing : TicketStore.missingDependency ⟨loaded.flatten⟩ with
      | some missing =>
        simp only [hduplicate, hmissing, bind, Except.bind, LoadFailure.text]
      | none =>
        have hstore : TicketStore.Loaded ⟨loaded.flatten⟩ :=
          ⟨TicketStore.duplicateId_eq_none.mp hduplicate,
            TicketStore.missingDependency_eq_none.mp hmissing⟩
        simp only [hduplicate, hmissing, bind, Except.bind]
        rw [← TicketStore.validateCyclesWithin_of_lt hstore hlength]
        cases TicketStore.validateCyclesWithin ⟨loaded.flatten⟩ frames <;> rfl

/-! ### The order of the directories -/

section Order

variable {tickets tickets' : List Ticket}

theorem DependsOn.perm (hperm : tickets.Perm tickets') : DependsOn tickets = DependsOn tickets' := by
  ext id dependency
  unfold DependsOn
  simp [hperm.mem_iff]

theorem ValidTickets.perm (h : ValidTickets tickets) (hperm : tickets.Perm tickets') :
    ValidTickets tickets' := by
  refine ⟨(hperm.map (·.id)).nodup_iff.mp h.unique, ?_, ?_⟩
  · intro ticket hticket id hid
    obtain ⟨other, hother, hname⟩ := h.defined ticket (hperm.mem_iff.mpr hticket) id hid
    exact ⟨other, hperm.mem_iff.mp hother, hname⟩
  · rw [← DependsOn.perm hperm]
    exact h.acyclic

namespace TicketStore

theorem byId_eq_some_iff {store : TicketStore} (hids : (store.tickets.map (·.id)).Nodup)
    {id : String} {ticket : Ticket} :
    store.byId id = some ticket ↔ ticket ∈ store.tickets ∧ ticket.id = id := by
  constructor
  · exact fun h => ⟨mem_of_byId h, byId_id h⟩
  · rintro ⟨hmem, rfl⟩
    exact byId_of_mem hids hmem

theorem byId_perm (hids : (tickets.map (·.id)).Nodup) (hperm : tickets.Perm tickets') :
    byId ⟨tickets⟩ = byId ⟨tickets'⟩ := by
  have hids' : (tickets'.map (·.id)).Nodup := (hperm.map (·.id)).nodup_iff.mp hids
  ext id ticket
  rw [@byId_eq_some_iff ⟨tickets⟩ hids, @byId_eq_some_iff ⟨tickets'⟩ hids', hperm.mem_iff]

theorem sortedIds_perm (hperm : tickets.Perm tickets') :
    sortedIds ⟨tickets⟩ = sortedIds ⟨tickets'⟩ := by
  unfold sortedIds
  apply List.Perm.eq_of_pairwise' (r := (· ≤ ·))
  · exact List.pairwise_insertionSort _ _
  · exact List.pairwise_insertionSort _ _
  · exact (List.perm_insertionSort _ _).trans
      ((hperm.map (·.id)).trans (List.perm_insertionSort _ _).symm)

theorem FitsFrames.perm {frames : Nat} (h : FitsFrames ⟨tickets⟩ frames)
    (hids : (tickets.map (·.id)).Nodup) (hperm : tickets.Perm tickets') :
    FitsFrames ⟨tickets'⟩ frames := by
  have hnext : next ⟨tickets⟩ = next ⟨tickets'⟩ := by
    ext1 id
    unfold next
    rw [byId_perm hids hperm]
  unfold FitsFrames at h ⊢
  rwa [← hnext, ← sortedIds_perm hperm]

end TicketStore

theorem pairwise_sortedStore (tickets : List Ticket) :
    (Workflow.sortedStore tickets).tickets.Pairwise fun a b => a.id ≤ b.id := by
  have htotal : Std.Total fun a b : Ticket => a.id ≤ b.id := ⟨fun a b => le_total a.id b.id⟩
  have htrans : IsTrans Ticket fun a b => a.id ≤ b.id := ⟨fun a b c => le_trans⟩
  exact List.pairwise_insertionSort _ _

theorem sortedStore_perm (hids : (tickets.map (·.id)).Nodup) (hperm : tickets.Perm tickets') :
    Workflow.sortedStore tickets = Workflow.sortedStore tickets' := by
  have hsorted := List.perm_insertionSort (fun a b : Ticket => a.id ≤ b.id) tickets
  have hsorted' := List.perm_insertionSort (fun a b : Ticket => a.id ≤ b.id) tickets'
  have heq : (Workflow.sortedStore tickets).tickets = (Workflow.sortedStore tickets').tickets := by
    refine List.Perm.eq_of_pairwise ?_ (pairwise_sortedStore tickets) (pairwise_sortedStore tickets')
      (hsorted.trans (hperm.trans hsorted'.symm))
    intro a b ha hb hab hba
    have hb' : b ∈ tickets := hperm.mem_iff.mpr (hsorted'.mem_iff.mp hb)
    exact List.inj_on_of_nodup_map hids (hsorted.mem_iff.mp ha) hb' (le_antisymm hab hba)
  exact congrArg TicketStore.mk heq

end Order

/-! ### Directories listed in another order -/

/-- The same entries stand in the directories, perhaps listed in another order. -/
structure Workflow.Relisted (workflow workflow' : Workflow) : Prop where
  path : workflow.path = workflow'.path
  directory : ∀ state, workflow.directory state = workflow'.directory state
    ∨ ∃ entries entries', workflow.directory state = .entries entries
      ∧ workflow'.directory state = .entries entries' ∧ entries.Perm entries'

namespace Workflow

variable [NanoYaml] {workflow workflow' : Workflow}

theorem Relisted.loadEntry (h : Relisted workflow workflow') :
    workflow.loadEntry = workflow'.loadEntry := by
  ext state entry
  unfold Workflow.loadEntry Workflow.ticketPath
  rw [h.path]

theorem Relisted.loadDirectory (h : Relisted workflow workflow') {state : TicketState}
    {tickets : List Ticket} (hload : workflow.loadDirectory state = .ok tickets) :
    ∃ tickets', workflow'.loadDirectory state = .ok tickets' ∧ tickets.Perm tickets' := by
  rcases h.directory state with hsame | ⟨entries, entries', hleft, hright, hperm⟩
  · refine ⟨tickets, ?_, List.Perm.refl _⟩
    unfold Workflow.loadDirectory at hload ⊢
    rw [← hsame, ← h.path, ← h.loadEntry]
    exact hload
  · unfold Workflow.loadDirectory at hload ⊢
    simp only [hleft] at hload
    simp only [hright, ← h.loadEntry]
    cases hloaded : (entries.insertionSort (fun a b => a.name ≤ b.name)).mapM
        (workflow.loadEntry state) with
    | error message =>
      rw [hloaded] at hload
      cases hload
    | ok loaded =>
      rw [hloaded] at hload
      cases hload
      have hsorted : (entries'.insertionSort (fun a b => a.name ≤ b.name)).Perm
          (entries.insertionSort (fun a b => a.name ≤ b.name)) :=
        (List.perm_insertionSort _ _).trans (hperm.symm.trans (List.perm_insertionSort _ _).symm)
      obtain ⟨loaded', hall, hperm'⟩ :=
        List.perm_comp_forall₂ hsorted (mapM_ok_iff_forall₂.mp hloaded)
      rw [mapM_ok_iff_forall₂.mpr hall]
      exact ⟨_, rfl, (hperm'.filterMap id).symm⟩

theorem Relisted.parsedTickets (h : Relisted workflow workflow') {tickets : List Ticket}
    (hparsed : workflow.parsedTickets = .ok tickets) :
    ∃ tickets', workflow'.parsedTickets = .ok tickets' ∧ tickets.Perm tickets' := by
  unfold Workflow.parsedTickets at hparsed ⊢
  cases hloaded : workflowStates.mapM workflow.loadDirectory with
  | error message =>
    rw [hloaded] at hparsed
    cases hparsed
  | ok loaded =>
    rw [hloaded] at hparsed
    cases hparsed
    -- Each directory loads the same tickets, up to their order.
    have hall : ∀ (states : List TicketState) (loaded : List (List Ticket)),
        List.Forall₂ (fun state tickets => workflow.loadDirectory state = .ok tickets)
          states loaded →
        ∃ loaded', List.Forall₂ (fun state tickets => workflow'.loadDirectory state = .ok tickets)
          states loaded' ∧ List.Forall₂ List.Perm loaded loaded' := by
      intro states loaded hforall
      induction hforall with
      | nil => exact ⟨[], .nil, .nil⟩
      | cons hfirst _ ih =>
        obtain ⟨tickets', hfirst', hperm⟩ := h.loadDirectory hfirst
        obtain ⟨loaded', hrest, hperms⟩ := ih
        exact ⟨tickets' :: loaded', .cons hfirst' hrest, .cons hperm hperms⟩
    obtain ⟨loaded', hrest, hperms⟩ := hall _ _ (mapM_ok_iff_forall₂.mp hloaded)
    rw [mapM_ok_iff_forall₂.mpr hrest]
    exact ⟨_, rfl, List.Perm.flatten_congr hperms⟩

/-- **Enumeration order.** A workflow that is accepted is accepted with the same store when its
    directories list their entries in another order. -/
theorem loadTicketStoreWithin_relisted (h : Relisted workflow workflow') {frames : Nat}
    {store : TicketStore} (hload : workflow.loadTicketStoreWithin frames = .ok store) :
    workflow'.loadTicketStoreWithin frames = .ok store := by
  unfold loadTicketStoreWithin at hload ⊢
  cases hparsed : workflow.parsedTickets with
  | error message =>
    rw [hparsed] at hload
    cases hload
  | ok tickets =>
    rw [hparsed] at hload
    obtain ⟨tickets', hparsed', hperm⟩ := h.parsedTickets hparsed
    rw [hparsed']
    obtain ⟨hvalid, hfits, rfl⟩ := acceptTickets_ok_iff.mp hload
    exact acceptTickets_ok_iff.mpr ⟨hvalid.perm hperm, hfits.perm hvalid.unique hperm,
      sortedStore_perm hvalid.unique hperm⟩

end Workflow

/-! ### What can run -/

/-- The ticket is in `todo`, and all it depends on is done. -/
def ReadyTicket (tickets : List Ticket) (ticket : Ticket) : Prop :=
  ticket ∈ tickets ∧ ticket.state = .todo
    ∧ ∀ id ∈ ticket.dependsOn, ∃ other ∈ tickets, other.id = id ∧ other.state = .done

theorem mem_sortedStore {tickets : List Ticket} {ticket : Ticket} :
    ticket ∈ (Workflow.sortedStore tickets).tickets ↔ ticket ∈ tickets :=
  List.mem_insertionSort _

theorem sortedStore_ids {tickets : List Ticket} (hids : (tickets.map (·.id)).Nodup) :
    ((Workflow.sortedStore tickets).tickets.map (·.id)).Nodup :=
  ((List.perm_insertionSort (fun a b : Ticket => a.id ≤ b.id) tickets).map (·.id)).nodup_iff.mpr
    hids

/-- The runnable tickets of a store are the ready ones. -/
theorem mem_runnable_sortedStore {tickets : List Ticket} (hids : (tickets.map (·.id)).Nodup)
    {ticket : Ticket} :
    ticket ∈ (Workflow.sortedStore tickets).runnable ↔ ReadyTicket tickets ticket := by
  have hdone : ∀ id, ((Workflow.sortedStore tickets).byId id).any (·.state = .done) = true
      ↔ ∃ other ∈ tickets, other.id = id ∧ other.state = .done := by
    intro id
    rw [Option.any_eq_true]
    constructor
    · rintro ⟨other, hother, hstate⟩
      have hfound := (TicketStore.byId_eq_some_iff (sortedStore_ids hids)).mp hother
      exact ⟨other, mem_sortedStore.mp hfound.1, hfound.2, by simpa using hstate⟩
    · rintro ⟨other, hmem, hid, hstate⟩
      refine ⟨other, ?_, by simpa using hstate⟩
      exact (TicketStore.byId_eq_some_iff (sortedStore_ids hids)).mpr
        ⟨mem_sortedStore.mpr hmem, hid⟩
  unfold TicketStore.runnable ReadyTicket
  rw [List.mem_insertionSort, List.mem_filter, mem_sortedStore]
  unfold TicketStore.isRunnable
  simp [hdone]

/-- The runnable tickets stand in increasing order of their ids. -/
theorem pairwise_runnable_sortedStore {tickets : List Ticket}
    (hids : (tickets.map (·.id)).Nodup) :
    ((Workflow.sortedStore tickets).runnable.map (·.id)).Pairwise (· < ·) := by
  have htotal : Std.Total fun a b : Ticket => a.id ≤ b.id := ⟨fun a b => le_total a.id b.id⟩
  have htrans : IsTrans Ticket fun a b => a.id ≤ b.id := ⟨fun a b c => le_trans⟩
  have hle : (Workflow.sortedStore tickets).runnable.Pairwise fun a b => a.id ≤ b.id :=
    List.pairwise_insertionSort _ _
  have hsub : ((Workflow.sortedStore tickets).runnable.map (·.id)).Nodup := by
    have hperm := List.perm_insertionSort (fun a b : Ticket => a.id ≤ b.id)
      ((Workflow.sortedStore tickets).tickets.filter (Workflow.sortedStore tickets).isRunnable)
    refine (hperm.map (·.id)).nodup_iff.mpr ?_
    exact (sortedStore_ids hids).sublist ((List.filter_sublist).map _)
  rw [List.pairwise_map]
  have hne := List.pairwise_map.mp hsub
  exact (hle.and hne).imp fun h => lt_of_le_of_ne h.1 h.2

/-! ### All that is asked of the loader -/

/-- The loader does what it is there for: it accepts exactly the valid sets of tickets, the cycle it
    reports is one, and what can run in a store it returns are the ready tickets by id, in whatever
    order the directories list the tickets. -/
structure Workflow.Accepted (workflow : Workflow) (frames : Nat) (tickets : List Ticket) :
    Prop where
  accepts : (∃ store, workflow.acceptTickets frames tickets = .ok store) ↔ ValidTickets tickets
  cycles : ∀ message, workflow.acceptTickets frames tickets = .error (.ticketError message) →
    TicketStore.Loaded ⟨tickets⟩ →
    ∃ path, DependencyCycle tickets path ∧ message = LoadFailure.cycleMessage path
  runnable : ∀ store, workflow.acceptTickets frames tickets = .ok store → ∀ ticket,
    ticket ∈ store.runnable ↔ ReadyTicket tickets ticket
  increasing : ∀ store, workflow.acceptTickets frames tickets = .ok store →
    (store.runnable.map (·.id)).Pairwise (· < ·)
  enumeration : ∀ store, workflow.acceptTickets frames tickets = .ok store →
    ∀ tickets', tickets.Perm tickets' → workflow.acceptTickets frames tickets' = .ok store

/-- **The ticket loader.** On every set of tickets that is not valid the loader does all that is
    asked of it, and on a valid set exactly when the first path to each ticket fits into the frames
    the interpreter has left. -/
theorem Workflow.accepted_iff (workflow : Workflow) (frames : Nat) (tickets : List Ticket) :
    workflow.Accepted frames tickets
      ↔ (ValidTickets tickets → TicketStore.FitsFrames ⟨tickets⟩ frames) := by
  constructor
  · intro h hvalid
    obtain ⟨store, hstore⟩ := h.accepts.mpr hvalid
    exact (acceptTickets_ok_iff.mp hstore).2.1
  · intro h
    refine ⟨?_, fun message herror hloaded => acceptTickets_cycle hloaded herror, ?_, ?_, ?_⟩
    · constructor
      · rintro ⟨store, hstore⟩
        exact (acceptTickets_ok_iff.mp hstore).1
      · intro hvalid
        exact ⟨_, acceptTickets_ok_iff.mpr ⟨hvalid, h hvalid, rfl⟩⟩
    · intro store hstore ticket
      obtain ⟨hvalid, _, rfl⟩ := acceptTickets_ok_iff.mp hstore
      exact mem_runnable_sortedStore hvalid.unique
    · intro store hstore
      obtain ⟨hvalid, _, rfl⟩ := acceptTickets_ok_iff.mp hstore
      exact pairwise_runnable_sortedStore hvalid.unique
    · intro store hstore tickets' hperm
      obtain ⟨hvalid, hfits, rfl⟩ := acceptTickets_ok_iff.mp hstore
      exact acceptTickets_ok_iff.mpr ⟨hvalid.perm hperm, hfits.perm hvalid.unique hperm,
        sortedStore_perm hvalid.unique hperm⟩

/-! ### A chain that is too long -/

/-- The name of the `i`-th ticket of a chain: its decimal digits, the last one first. -/
def linkName (i : Nat) : String :=
  String.ofList ('T' :: (Nat.digits 10 i).map fun d => Char.ofNat (48 + d))

theorem linkName_injective : Function.Injective linkName := by
  -- The number is read back from the characters behind the letter.
  have hread : Function.LeftInverse
      (fun name => Nat.ofDigits 10 ((name.toList.drop 1).map fun c => c.toNat - 48)) linkName := by
    intro i
    have hdigits : ((Nat.digits 10 i).map fun d => Char.ofNat (48 + d)).map (fun c => c.toNat - 48)
        = Nat.digits 10 i := by
      have hdigit : ∀ d < 10, (Char.ofNat (48 + d)).toNat - 48 = d := by decide
      rw [List.map_map]
      refine (List.map_congr_left fun d hd => ?_).trans (List.map_id _)
      exact hdigit d (Nat.digits_lt_base (by omega) hd)
    simp only [linkName, String.toList_ofList, List.drop_succ_cons, List.drop_zero, hdigits]
    exact Nat.ofDigits_digits 10 i
  exact hread.injective

/-- A ticket of the chain depends on the next one; the last depends on nothing. -/
def link (length i : Nat) : Ticket where
  id := linkName i
  state := .todo
  title := "A link of the chain"
  dependsOn := if i + 1 < length then [linkName (i + 1)] else []
  body := "Do the work.\n"

/-- A chain of tickets. -/
def chain (length : Nat) : List Ticket := (List.range length).map (link length)

theorem chain_ids (length : Nat) : (chain length).map (·.id) = (List.range length).map linkName := by
  unfold chain
  rw [List.map_map]
  rfl

theorem chain_unique (length : Nat) : ((chain length).map (·.id)).Nodup := by
  rw [chain_ids]
  exact List.nodup_range.map linkName_injective

theorem mem_chain {length : Nat} {ticket : Ticket} :
    ticket ∈ chain length ↔ ∃ i < length, ticket = link length i := by
  simp [chain, eq_comm]

/-- Dependencies go up the chain. -/
theorem dependsOn_chain {length : Nat} {id dependency : String}
    (h : DependsOn (chain length) id dependency) :
    ∃ i, id = linkName i ∧ dependency = linkName (i + 1) ∧ i + 1 < length := by
  obtain ⟨ticket, hmem, rfl, hdependency⟩ := h
  obtain ⟨i, _, rfl⟩ := mem_chain.mp hmem
  by_cases hi : i + 1 < length
  · have heq : dependency = linkName (i + 1) := by simpa [link, hi] using hdependency
    exact ⟨i, rfl, heq, hi⟩
  · simp [link, hi] at hdependency

theorem transGen_chain {length : Nat} {id dependency : String}
    (h : Relation.TransGen (DependsOn (chain length)) id dependency) :
    ∃ i j, id = linkName i ∧ dependency = linkName j ∧ i < j := by
  induction h with
  | single hedge =>
    obtain ⟨i, hid, hdependency, _⟩ := dependsOn_chain hedge
    exact ⟨i, i + 1, hid, hdependency, Nat.lt_succ_self i⟩
  | tail _ hedge ih =>
    obtain ⟨i, j, hid, hmiddle, hlt⟩ := ih
    obtain ⟨k, hk, hdependency, _⟩ := dependsOn_chain hedge
    obtain rfl : j = k := linkName_injective (hmiddle ▸ hk)
    exact ⟨i, j + 1, hid, hdependency, by omega⟩

theorem validTickets_chain (length : Nat) : ValidTickets (chain length) := by
  refine ⟨chain_unique length, ?_, ?_⟩
  · intro ticket hticket id hid
    have hedge : DependsOn (chain length) ticket.id id := ⟨ticket, hticket, rfl, hid⟩
    obtain ⟨i, _, rfl, hi⟩ := dependsOn_chain hedge
    exact ⟨link length (i + 1), mem_chain.mpr ⟨i + 1, hi, rfl⟩, rfl⟩
  · intro id hcycle
    obtain ⟨i, j, hi, hj, hlt⟩ := transGen_chain hcycle
    have heq : i = j := linkName_injective (hi ▸ hj)
    omega

theorem next_chain {length i : Nat} (hi : i + 1 < length) :
    TicketStore.next ⟨chain length⟩ (linkName i) = [linkName (i + 1)] := by
  have hfound := (@TicketStore.byId_eq_some_iff ⟨chain length⟩ (chain_unique length)
    (linkName i) _).mpr ⟨mem_chain.mpr ⟨i, by omega, rfl⟩, rfl⟩
  unfold TicketStore.next
  rw [hfound]
  simp [link, hi]

/-- The walk starts from the first ticket of the chain. -/
theorem sortedIds_chain (length : Nat) :
    ∃ row, TicketStore.sortedIds ⟨chain (length + 1)⟩ = linkName 0 :: row := by
  have hfirst : ∀ i, linkName 0 ≤ linkName i := by
    intro i
    apply le_of_not_gt
    intro hlt
    rw [String.lt_iff_toList_lt] at hlt
    simp [linkName] at hlt
  have hmem : linkName 0 ∈ TicketStore.sortedIds ⟨chain (length + 1)⟩ := by
    rw [TicketStore.mem_sortedIds, chain_ids]
    exact List.mem_map_of_mem (List.mem_range.mpr (Nat.succ_pos length))
  have hsorted : (TicketStore.sortedIds ⟨chain (length + 1)⟩).Pairwise (· ≤ ·) :=
    List.pairwise_insertionSort _ _
  cases hids : TicketStore.sortedIds ⟨chain (length + 1)⟩ with
  | nil =>
    rw [hids] at hmem
    cases hmem
  | cons id row =>
    have hid : id ∈ (List.range (length + 1)).map linkName := by
      rw [← chain_ids, ← @TicketStore.mem_sortedIds ⟨chain (length + 1)⟩, hids]
      simp
    obtain ⟨i, _, rfl⟩ := List.mem_map.mp hid
    rw [hids] at hmem hsorted
    have hle : linkName i ≤ linkName 0 := by
      rcases List.mem_cons.mp hmem with heq | hrow
      · exact le_of_eq heq.symm
      · exact (List.pairwise_cons.mp hsorted).1 _ hrow
    exact ⟨row, by rw [le_antisymm hle (hfirst i)]⟩

/-- From the `i`-th ticket of a chain the first path to the last one goes over all between. -/
theorem firstPath_chain {length : Nat} (n : Nat) : ∀ {i : Nat} {row : List String},
    i + n + 1 = length →
    FirstPath (TicketStore.next ⟨chain length⟩) (linkName (i + n)) (linkName i :: row) (n + 1) := by
  induction n with
  | zero =>
    intro i row _
    exact .here
  | succ n ih =>
    intro i row hlength
    have hne : linkName i ≠ linkName (i + (n + 1)) := by
      intro heq
      have := linkName_injective heq
      omega
    apply FirstPath.down hne
    rw [next_chain (by omega)]
    have hbelow := @ih (i + 1) [] (by omega)
    rwa [show i + 1 + n = i + (n + 1) by omega] at hbelow

/-- A chain that is longer than the frames is not accepted. -/
theorem not_fitsFrames_chain {frames length : Nat} (h : frames ≤ length) :
    ¬ TicketStore.FitsFrames ⟨chain (length + 1)⟩ frames := by
  intro hfits
  obtain ⟨row, hrow⟩ := sortedIds_chain length
  have hpath := @firstPath_chain (length + 1) length 0 row (by omega)
  rw [← hrow] at hpath
  have hbound := hfits _ _ hpath
  omega

/-- A chain of a thousand and one tickets is valid, and an interpreter that admits a thousand nested
    calls does not accept it. -/
theorem longChain_refused : ¬ Workflow.Accepted ⟨TicketState.word, fun _ => .missing⟩ 1000
    (chain 1001) := by
  intro h
  obtain ⟨store, hstore⟩ := h.accepts.mpr (validTickets_chain 1001)
  exact not_fitsFrames_chain (Nat.le_refl 1000) (Workflow.acceptTickets_ok_iff.mp hstore).2.1

end Devlegate
