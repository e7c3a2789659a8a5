import Devlegate.Tickets
import Devlegate.Lib.Dict

namespace Devlegate

/-!
# Ticket storage

`load_ticket_store` reads the five workflow directories into one store.  It parses every canonical
ticket file, refuses a repeated id and a dependency that no file defines, and walks the dependency
graph for cycles.

* `splitTicket` / `parseTicket`: one file, with the text of every refusal.
* `visit` / `validateCycles`: the walk, with the stack it reports a cycle from.
* `loadTicketStore`: the directories, then the three checks on the whole store.
* `loadTicketStore_loaded`: a loaded store has one ticket for each id and for each dependency.
-/

/-! ### Text -/

/-- The characters `str.strip` removes. -/
def isPythonSpace (c : Char) : Bool :=
  [0x20, 0x85, 0xa0, 0x1680, 0x2028, 0x2029, 0x202f, 0x205f, 0x3000].contains c.toNat
    || (0x09 ≤ c.toNat && c.toNat ≤ 0x0d) || (0x1c ≤ c.toNat && c.toNat ≤ 0x1f)
    || (0x2000 ≤ c.toNat && c.toNat ≤ 0x200a)

/-- `str.strip()`. -/
def pythonStrip (text : String) : String :=
  String.ofList (((text.toList.dropWhile isPythonSpace).reverse.dropWhile isPythonSpace).reverse)

/-- `line.rstrip("\r\n")`. -/
def stripLineEnd (line : List Char) : List Char :=
  (line.reverse.dropWhile fun c => c = '\r' || c = '\n').reverse

/-- The characters that end a line for `str.splitlines`. -/
def isLineBreak (c : Char) : Bool :=
  [0x85, 0x2028, 0x2029].contains c.toNat || (0x0a ≤ c.toNat && c.toNat ≤ 0x0d)
    || (0x1c ≤ c.toNat && c.toNat ≤ 0x1e)

/-- `text.splitlines(keepends=True)`, with the line read so far in reverse. -/
def splitKeepingEnds (line : List Char) : List Char → List (List Char)
  | [] => if line.isEmpty then [] else [line.reverse]
  | '\r' :: '\n' :: rest => ('\n' :: '\r' :: line).reverse :: splitKeepingEnds [] rest
  | c :: rest =>
    if isLineBreak c then (c :: line).reverse :: splitKeepingEnds [] rest
    else splitKeepingEnds (c :: line) rest

/-- `repr` of a string of printable characters and common escapes. -/
def pythonRepr (text : String) : String :=
  let apostrophe := Char.ofNat 39
  let quote := if text.toList.contains apostrophe && !text.toList.contains (Char.ofNat 34)
    then Char.ofNat 34 else apostrophe
  let escape (c : Char) : String :=
    match c with
    | '\\' => "\\\\"
    | '\n' => "\\n"
    | '\r' => "\\r"
    | '\t' => "\\t"
    | c => if c = apostrophe && quote = apostrophe then "\\" ++ String.singleton c
      else String.singleton c
  String.singleton quote ++ String.join (text.toList.map escape) ++ String.singleton quote

/-- `_ID.fullmatch`. -/
def isTicketId (id : List Char) : Bool :=
  match id with
  | [] => false
  | c :: rest =>
    isAsciiAlphanumeric c && rest.all fun c => isAsciiAlphanumeric c || c = '_' || c = '-'
where
  isAsciiAlphanumeric (c : Char) : Bool :=
    ('A' ≤ c && c ≤ 'Z') || ('a' ≤ c && c ≤ 'z') || ('0' ≤ c && c ≤ '9')

/-- The id of a canonical file name: `is_canonical_ticket_name` with `path.stem`. -/
def canonicalTicketId (name : String) : Option String :=
  let stem := name.toList.take (name.toList.length - 3)
  if name.toList.drop (name.toList.length - 3) = ".md".toList && isTicketId stem
  then some (String.ofList stem) else none

/-! ### One ticket file -/

/-- A value of the metadata block: a string, a sequence with its string entries, or another value. -/
inductive MetadataValue where
  | string (text : String)
  | sequence (items : List (Option String))
  | other
  deriving DecidableEq, Repr

/-- The metadata parser: the mapping it reads, or the text of its error. -/
class NanoYaml where
  loads : String → Except String (Dict MetadataValue)

/-- `_split_ticket`: the metadata and the body. -/
def splitTicket (text : String) : Except String (String × String) :=
  match splitKeepingEnds [] text.toList with
  | [] => .error "missing opening frontmatter delimiter"
  | first :: lines =>
    if stripLineEnd first ≠ "---".toList then .error "missing opening frontmatter delimiter"
    else
      match lines.dropWhile fun line => stripLineEnd line ≠ "---".toList with
      | [] => .error "missing closing frontmatter delimiter"
      | _ :: body =>
        let metadata := lines.takeWhile fun line => stripLineEnd line ≠ "---".toList
        if pythonStrip (String.ofList body.flatten) = "" then .error "ticket body is empty"
        else .ok (String.ofList metadata.flatten, String.ofList body.flatten)

/-- The checks on the `title`, and the title a ticket gets. -/
def ticketTitle (metadata : Dict MetadataValue) : Except String String :=
  match metadata.get "title" with
  | some (.string title) => do
    require (pythonStrip title != "") "metadata \"title\" must be a non-empty string"
    require (!(160 < title.length
        || title.toList.any fun c => c.toNat < 32 || (0x7f ≤ c.toNat && c.toNat ≤ 0x9f)))
      "metadata \"title\" must be one readable line of at most 160 characters"
    return pythonStrip title
  | _ => .error "metadata \"title\" must be a non-empty string"

/-- The checks on one entry of `depends_on`. -/
def checkDependency (ticketId dependency : String) : Except String Unit := do
  require (isTicketId dependency.toList) ("invalid dependency ID " ++ pythonRepr dependency)
  require (dependency != ticketId) "ticket cannot depend on itself"

/-- The checks on `depends_on`, and the dependencies a ticket gets. -/
def ticketDependencies (ticketId : String) (metadata : Dict MetadataValue) :
    Except String (List String) :=
  match metadata.get "depends_on" with
  | none => .ok []
  | some (.sequence items) => do
    require (!items.isEmpty) "metadata \"depends_on\" must be a non-empty sequence"
    require (items.all Option.isSome) "metadata \"depends_on\" entries must be strings"
    let dependencies := items.filterMap id
    require dependencies.Nodup "metadata contains duplicate dependency IDs"
    dependencies.forM (checkDependency ticketId)
    return dependencies
  | some _ => .error "metadata \"depends_on\" must be a non-empty sequence"

/-- `_parse_ticket`, on the text of a canonical file. -/
def parseTicket [NanoYaml] (ticketId : String) (state : TicketState) (text : String) :
    Except String Ticket := do
  let (metadataText, body) ← splitTicket text
  let metadata ← match NanoYaml.loads metadataText with
    | .ok metadata => .ok metadata
    | .error message => .error ("invalid NanoYAML metadata: " ++ message)
  let unknown := (metadata.map (·.1)).filter (fun key => !(["type", "title", "depends_on"].contains key))
  match unknown.insertionSort (· ≤ ·) with
  | key :: _ => .error ("unknown metadata key " ++ pythonRepr key)
  | [] => .ok ()
  require (metadata.get "type").isSome "missing required metadata key \"type\""
  require (metadata.get "title").isSome "missing required metadata key \"title\""
  require (metadata.get "type" == some (.string "devlegate.ticket"))
    "metadata \"type\" must be \"devlegate.ticket\""
  let title ← ticketTitle metadata
  let dependencies ← ticketDependencies ticketId metadata
  return { id := ticketId, state := state, title := title, dependsOn := dependencies, body := body }

/-! ### The dependency graph -/

namespace TicketStore

/-- `visit` of `_validate_cycles`.  The stack holds the tickets being visited, the result the
    visited ones.  Every call below the first has one more ticket on the stack, so the number of
    tickets bounds the depth. -/
def visit (store : TicketStore) : Nat → List String → List String → String →
    Except String (List String)
  | depth, stack, visited, ticketId =>
    if visited.contains ticketId then .ok visited
    else if stack.contains ticketId then
      .error ("dependency cycle: "
        ++ " -> ".intercalate (stack.dropWhile (· != ticketId) ++ [ticketId]))
    else
      match depth, store.byId ticketId with
      | 0, _ => .error "maximum recursion depth exceeded"
      | _, none => .error ("KeyError: " ++ pythonRepr ticketId)
      | depth + 1, some ticket => do
        let visited ← (ticket.dependsOn.insertionSort (· ≤ ·)).foldlM
          (visit store depth (stack ++ [ticketId])) visited
        return ticketId :: visited

/-- `_validate_cycles`. -/
def validateCycles (store : TicketStore) : Except String Unit := do
  let _ ← ((store.tickets.map (·.id)).insertionSort (· ≤ ·)).foldlM
    (store.visit store.tickets.length []) []
  return ()

/-- The first dependency, by the id of the ticket that has it, that no ticket defines. -/
def missingDependency (store : TicketStore) : Option (String × String) :=
  let tickets := store.tickets.insertionSort (fun a b => a.id ≤ b.id)
  (tickets.flatMap fun ticket => ticket.dependsOn.map fun id => (ticket.id, id)).find?
    fun dependency => (store.byId dependency.2).isNone

/-- The first id, in order, that two tickets have. -/
def duplicateId (store : TicketStore) : Option String :=
  let ids := store.tickets.map (·.id)
  (ids.insertionSort (· ≤ ·)).find? fun id => 1 < ids.count id

end TicketStore

/-! ### The store -/

/-- An entry of a workflow directory; a symbolic link or an entry that is no file has no text. -/
structure DirectoryEntry where
  name : String
  text : Option String
  deriving DecidableEq, Repr

inductive WorkflowDirectory where
  | missing
  | notDirectory
  | entries (entries : List DirectoryEntry)
  deriving DecidableEq, Repr

/-- The workflow directories: the path of each, and what stands there. -/
structure Workflow where
  path : TicketState → String
  directory : TicketState → WorkflowDirectory

/-- `_WORKFLOW_STATES`. -/
def workflowStates : List TicketState := [.backlog, .todo, .review, .accepted, .done]

namespace Workflow

/-- The path of a ticket's file. -/
def ticketPath (workflow : Workflow) (state : TicketState) (ticketId : String) : String :=
  workflow.path state ++ "/" ++ ticketId ++ ".md"

/-- One entry of a workflow directory; an entry without a canonical name is passed over. -/
def loadEntry [NanoYaml] (workflow : Workflow) (state : TicketState) (entry : DirectoryEntry) :
    Except String (Option Ticket) :=
  match canonicalTicketId entry.name with
  | none => .ok none
  | some ticketId =>
    match entry.text with
    | none => .error ("invalid managed ticket entry: " ++ workflow.path state ++ "/" ++ entry.name)
    | some text =>
      match parseTicket ticketId state text with
      | .error reason =>
        .error ("invalid ticket " ++ workflow.ticketPath state ticketId ++ ": " ++ reason)
      | .ok ticket => .ok (some ticket)

/-- The tickets of one state. -/
def loadDirectory [NanoYaml] (workflow : Workflow) (state : TicketState) :
    Except String (List Ticket) :=
  match workflow.directory state with
  | .missing => .ok []
  | .notDirectory =>
    .error ("managed workflow path is not a directory: " ++ workflow.path state)
  | .entries entries => do
    let loaded ← (entries.insertionSort (fun a b => a.name ≤ b.name)).mapM
      (workflow.loadEntry state)
    return loaded.filterMap id

/-- `load_ticket_store`. -/
def loadTicketStore [NanoYaml] (workflow : Workflow) : Except String TicketStore := do
  let loaded ← workflowStates.mapM workflow.loadDirectory
  let store : TicketStore := ⟨loaded.flatten⟩
  match store.duplicateId with
  | some id =>
    let paths := (store.tickets.filter (·.id = id)).map fun ticket =>
      "  " ++ workflow.ticketPath ticket.state id
    .error ("duplicate ticket ID " ++ id ++ ":\n" ++ "\n".intercalate paths)
  | none => .ok ()
  match store.missingDependency with
  | some (id, dependency) =>
    .error ("missing dependency: " ++ id ++ " depends on " ++ dependency)
  | none => .ok ()
  store.validateCycles
  return ⟨store.tickets.insertionSort (fun a b => a.id ≤ b.id)⟩

end Workflow

/-! ### What a loaded store satisfies -/

namespace TicketStore

/-- What the checks of the loader leave true of a store. -/
structure Loaded (store : TicketStore) : Prop where
  ids_nodup : (store.tickets.map (·.id)).Nodup
  defined : ∀ ticket ∈ store.tickets, ∀ id ∈ ticket.dependsOn, (store.byId id).isSome

theorem byId_isSome {store : TicketStore} {id : String} :
    (store.byId id).isSome ↔ id ∈ store.tickets.map (·.id) := by
  simp [byId]

/-- Where ids do not repeat, a ticket is found under its own id. -/
theorem byId_of_mem {store : TicketStore} (hids : (store.tickets.map (·.id)).Nodup)
    {ticket : Ticket} (h : ticket ∈ store.tickets) : store.byId ticket.id = some ticket := by
  have hsome : (store.byId ticket.id).isSome := byId_isSome.mpr (List.mem_map_of_mem h)
  obtain ⟨found, hfound⟩ := Option.isSome_iff_exists.mp hsome
  have hmem : found ∈ store.tickets := List.mem_of_find?_eq_some hfound
  have hid : found.id = ticket.id := byId_id hfound
  rw [hfound, List.inj_on_of_nodup_map hids hmem h hid]

theorem mem_of_byId {store : TicketStore} {id : String} {ticket : Ticket}
    (h : store.byId id = some ticket) : ticket ∈ store.tickets :=
  List.mem_of_find?_eq_some h

/-- No duplicate is found only where ids do not repeat. -/
theorem ids_nodup_of_duplicateId {store : TicketStore} (h : store.duplicateId = none) :
    (store.tickets.map (·.id)).Nodup := by
  rw [List.nodup_iff_count_le_one]
  intro id
  by_cases hmem : id ∈ store.tickets.map (·.id)
  · have hchecked := List.find?_eq_none.mp h id ((List.mem_insertionSort _).mpr hmem)
    simpa using hchecked
  · rw [List.count_eq_zero_of_not_mem hmem]
    omega

/-- No dependency is missed only where every one is defined. -/
theorem defined_of_missingDependency {store : TicketStore} (h : store.missingDependency = none) :
    ∀ ticket ∈ store.tickets, ∀ id ∈ ticket.dependsOn, (store.byId id).isSome := by
  intro ticket hticket id hid
  have hmem : (ticket.id, id) ∈ (store.tickets.insertionSort (fun a b => a.id ≤ b.id)).flatMap
      fun ticket => ticket.dependsOn.map fun id => (ticket.id, id) := by
    rw [List.mem_flatMap]
    refine ⟨ticket, (List.mem_insertionSort _).mpr hticket, ?_⟩
    exact List.mem_map_of_mem hid
  have hchecked := List.find?_eq_none.mp h _ hmem
  simpa [Option.isSome_iff_ne_none] using hchecked

/-- The order of the tickets does not matter to a store that was loaded. -/
theorem Loaded.sorted {store : TicketStore} (h : store.Loaded) :
    Loaded ⟨store.tickets.insertionSort (fun a b => a.id ≤ b.id)⟩ := by
  have hperm := List.perm_insertionSort (fun a b : Ticket => a.id ≤ b.id) store.tickets
  constructor
  · exact (hperm.map (·.id)).nodup_iff.mpr h.ids_nodup
  · intro ticket hticket id hid
    have hdefined := h.defined ticket (hperm.mem_iff.mp hticket) id hid
    rw [byId_isSome] at hdefined ⊢
    exact (hperm.map (·.id)).mem_iff.mpr hdefined

end TicketStore

/-- **Loaded stores.** A store that `load_ticket_store` returns has no repeated id and defines every
    dependency. -/
theorem Workflow.loadTicketStore_loaded [NanoYaml] {workflow : Workflow} {store : TicketStore}
    (h : workflow.loadTicketStore = .ok store) : store.Loaded := by
  unfold Workflow.loadTicketStore at h
  cases hloaded : workflowStates.mapM workflow.loadDirectory with
  | error message => simp [hloaded, bind, Except.bind] at h
  | ok loaded =>
    simp only [hloaded, bind, Except.bind] at h
    split at h
    · cases h
    · rename_i hnodup
      split at h
      · cases h
      · rename_i hdefined
        split at h
        · cases h
        · have hraw : TicketStore.Loaded ⟨loaded.flatten⟩ :=
            ⟨TicketStore.ids_nodup_of_duplicateId hnodup,
              TicketStore.defined_of_missingDependency hdefined⟩
          cases h
          exact hraw.sorted

/-! ### The depth of the walk -/

namespace TicketStore

/-- A stack of different tickets that holds as many as there are holds every ticket. -/
theorem mem_stack_of_length_le {store : TicketStore} {stack : List String} (hstack : stack.Nodup)
    (hsub : stack ⊆ store.tickets.map (·.id)) (hlen : store.tickets.length ≤ stack.length)
    {id : String} (hid : id ∈ store.tickets.map (·.id)) : id ∈ stack := by
  have hperm : stack.Subperm (store.tickets.map (·.id)) := List.subperm_of_subset hstack hsub
  have heq : stack.Perm (store.tickets.map (·.id)) :=
    hperm.perm_of_length_le (by simpa using hlen)
  exact heq.mem_iff.mpr hid

theorem visit_of_visited {store : TicketStore} {stack visited : List String} {id : String}
    (h : id ∈ visited) (depth : Nat) : store.visit depth stack visited id = .ok visited := by
  unfold visit
  simp [h]

/-- A ticket that is being visited closes a cycle, at every depth. -/
theorem visit_of_stack {store : TicketStore} {stack visited : List String} {id : String}
    (hvisited : id ∉ visited) (h : id ∈ stack) (depth depth' : Nat) :
    store.visit depth stack visited id = store.visit depth' stack visited id := by
  unfold visit
  simp [hvisited, h]

/-- The depth `_validate_cycles` gives `visit` is enough: one more changes nothing. -/
theorem visit_depth {store : TicketStore} (hstore : store.Loaded) (depth : Nat) :
    ∀ (stack visited : List String) (id : String), stack.Nodup →
      stack ⊆ store.tickets.map (·.id) → id ∈ store.tickets.map (·.id) →
      store.tickets.length ≤ depth + stack.length →
      store.visit depth stack visited id = store.visit (depth + 1) stack visited id := by
  induction depth with
  | zero =>
    intro stack visited id hstack hsub hid hlen
    by_cases hvisited : id ∈ visited
    · rw [visit_of_visited hvisited, visit_of_visited hvisited]
    have hmem : id ∈ stack := mem_stack_of_length_le hstack hsub (by omega) hid
    exact visit_of_stack hvisited hmem 0 1
  | succ depth ih =>
    intro stack visited id hstack hsub hid hlen
    by_cases hvisited : id ∈ visited
    · rw [visit_of_visited hvisited, visit_of_visited hvisited]
    by_cases hmem : id ∈ stack
    · exact visit_of_stack hvisited hmem _ _
    obtain ⟨ticket, hticket⟩ := Option.isSome_iff_exists.mp (byId_isSome.mpr hid)
    -- One ticket deeper the stack is one longer, so the depth left is still enough.
    have hdeeper : ∀ dependency ∈ ticket.dependsOn.insertionSort (· ≤ ·), ∀ visited,
        store.visit depth (stack ++ [id]) visited dependency
          = store.visit (depth + 1) (stack ++ [id]) visited dependency := by
      intro dependency hdependency visited
      have hdefined := hstore.defined ticket (mem_of_byId hticket) dependency
        ((List.mem_insertionSort _).mp hdependency)
      apply ih
      · simpa [List.nodup_append] using ⟨hstack, fun a ha h => hmem (h ▸ ha)⟩
      · simpa using ⟨hsub, by simpa using hid⟩
      · exact byId_isSome.mp hdefined
      · simp only [List.length_append, List.length_singleton]
        omega
    have hfold : ∀ (dependencies : List String),
        (∀ d ∈ dependencies, d ∈ ticket.dependsOn.insertionSort (· ≤ ·)) → ∀ visited,
        dependencies.foldlM (store.visit depth (stack ++ [id])) visited
          = dependencies.foldlM (store.visit (depth + 1) (stack ++ [id])) visited := by
      intro dependencies
      induction dependencies with
      | nil =>
        intro _ visited
        rfl
      | cons d dependencies ihd =>
        intro hall visited
        rw [List.foldlM_cons, List.foldlM_cons, hdeeper d (hall d (by simp)) visited]
        congr 1
        funext visited'
        exact ihd (fun d hd => hall d (by simp [hd])) visited'
    unfold visit
    simp only [hticket]
    rw [hfold _ (fun d hd => hd) visited]

end TicketStore

end Devlegate
