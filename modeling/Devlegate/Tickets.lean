import Devlegate.State
import Mathlib.Data.List.Sort

namespace Devlegate

/-!
# Tickets and the execution plan

The control plane holds the tickets; a control revision determines them.  `makeExecutionPlan` turns
the tickets and the durable state into the one action the next iteration may take.

* `TicketStore.runnable`: the todo tickets whose dependencies are done, by id.
* `Project`: the control plane by revision, and the configuration the engine reads.
* `makeExecutionPlan`: barriers first, then the bound execution, then the next runnable ticket.
-/

/-! ### Tickets -/

inductive TicketState where
  | backlog
  | todo
  | review
  | accepted
  | done
  deriving DecidableEq, Repr

/-- The state's word, which names its directory in the configuration. -/
def TicketState.word : TicketState → String
  | .backlog => "backlog"
  | .todo => "todo"
  | .review => "review"
  | .accepted => "accepted"
  | .done => "done"

/-- `Ticket`, without its path. -/
structure Ticket where
  id : String
  state : TicketState
  title : String
  dependsOn : List String := []
  body : String
  deriving DecidableEq, Repr

/-- `TicketStore`. -/
structure TicketStore where
  tickets : List Ticket
  deriving DecidableEq, Repr

namespace TicketStore

/-- `by_id.get`. -/
def byId (store : TicketStore) (id : String) : Option Ticket := store.tickets.find? (·.id = id)

/-- The ticket is in `todo` and all it depends on is done. -/
def isRunnable (store : TicketStore) (ticket : Ticket) : Bool :=
  ticket.state = .todo
    && ticket.dependsOn.all fun id => (store.byId id).any (·.state = .done)

/-- `runnable`. -/
def runnable (store : TicketStore) : List Ticket :=
  (store.tickets.filter store.isRunnable).insertionSort (fun a b => a.id ≤ b.id)

/-- `selected`. -/
def selected (store : TicketStore) : Option Ticket := store.runnable.head?

/-- The tickets in `review` or `accepted`. -/
def boundary (store : TicketStore) : List Ticket :=
  store.tickets.filter fun ticket => ticket.state = .review || ticket.state = .accepted

/-- The check made before every retry: the ticket is a runnable todo ticket. -/
def executable (store : TicketStore) (id : String) : Option Ticket :=
  (store.byId id).filter fun ticket => ticket.state = .todo && store.runnable.contains ticket

theorem byId_id {store : TicketStore} {id : String} {ticket : Ticket}
    (h : store.byId id = some ticket) : ticket.id = id := by
  have hfound := List.find?_some h
  simpa using hfound

theorem executable_id {store : TicketStore} {id : String} {ticket : Ticket}
    (h : store.executable id = some ticket) : ticket.id = id :=
  byId_id (Option.filter_eq_some_iff.mp h).1

end TicketStore

/-- What a run of the engine takes as given: the tickets and the fingerprint of the todo directory
    at each control revision, and the root of the execution worktrees. -/
class Project where
  tickets : String → TicketStore
  todoFingerprint : String → String
  executionWorktreeRoot : String

/-- `devlegate/work/{id}`. -/
def executionBranchOf (ticketId : String) : String := "devlegate/work/" ++ ticketId

/-- `execution_worktree_root / "work" / id`. -/
def executionPathOf [Project] (ticketId : String) : String :=
  Project.executionWorktreeRoot ++ "/work/" ++ ticketId

/-! ### The plan -/

inductive PlanAction where
  | runWorker
  | integrate
  | none
  | blocked
  deriving DecidableEq, Repr

/-- `ExecutionPlan`, without the Git observations it carries along. -/
structure ExecutionPlan where
  action : PlanAction
  reason : String
  ticketId : Option String := none
  bound : Bool := false
  deriving DecidableEq, Repr

inductive WorkspaceClass where
  | reusable
  | recoverable
  | unsafeBinding
  deriving DecidableEq, Repr

/-- The classification's word, in lower case. -/
def WorkspaceClass.word : WorkspaceClass → String
  | .reusable => "reusable"
  | .recoverable => "recoverable"
  | .unsafeBinding => "unsafe"

/-- `WorkspaceInspection`. -/
structure WorkspaceInspection where
  classification : WorkspaceClass
  reason : String
  deriving DecidableEq, Repr

/-- `_admission_barrier` in a clean checkout on the right branch. -/
def admissionBarrier (s : RuntimeState) (store : TicketStore) : Option ExecutionPlan :=
  match s.reconciliation.filter (·.status ≠ .resolved) with
  | some r => some {
      action := .blocked
      reason := if r.status = .resolving
        then "reconciliation recovery in progress: ticket " ++ r.ticketId ++ "; resolution resume"
        else "reconciliation required: ticket " ++ r.ticketId
          ++ "; original base " ++ r.originalBase ++ "; observed product " ++ r.observedProduct
          ++ "; worker checkpoint " ++ r.workerCheckpoint
      ticketId := (store.byId r.ticketId).map (·.id) }
  | none =>
    match s.acceptedIntegration with
    | some a =>
      match store.byId a.ticketId with
      | none => some {
          action := .blocked
          reason := "accepted integration ticket is no longer observable" }
      | some ticket => some {
          action := .none
          reason := "accepted integration recovery in progress: " ++ ticket.id
          ticketId := some ticket.id }
    | none =>
      if store.boundary.length > 1 then some {
        action := .blocked
        reason := "multiple tickets occupy the review/accepted serial boundary" }
      else none

/-- The plan for a pending execution. -/
def boundPlan (s : RuntimeState) (store : TicketStore) (inspection : WorkspaceInspection) :
    ExecutionPlan :=
  match s.selectedTicketId.bind store.byId with
  | none => {
      action := .blocked
      reason := "persisted selected ticket is not in managed storage" }
  | some ticket =>
    if ticket.state ≠ .todo && ticket.state ≠ .review then {
      action := .blocked
      reason := "selected ticket " ++ ticket.id ++ " has unexpected bound execution state "
        ++ ticket.state.word }
    else if inspection.classification ≠ .reusable then {
      action := .blocked
      reason := "bound execution workspace is " ++ inspection.classification.word ++ ": "
        ++ inspection.reason
      ticketId := some ticket.id
      bound := true }
    else {
      action := .runWorker
      reason := "resume persisted bound execution"
      ticketId := some ticket.id
      bound := true }

/-- The plan without a pending execution: the serial boundary, then the next runnable ticket. -/
def freePlan (store : TicketStore) : ExecutionPlan :=
  match store.boundary with
  | ticket :: _ =>
    if ticket.state = .review then {
      action := .none
      reason := "waiting for review: " ++ ticket.id
      ticketId := some ticket.id }
    else {
      action := .integrate
      reason := "accepted, ready for integration: " ++ ticket.id
      ticketId := some ticket.id }
  | [] =>
    match store.selected with
    | none => { action := .none, reason := "no runnable tickets" }
    | some ticket => {
        action := .runWorker
        reason := "deterministic runnable ticket selection"
        ticketId := some ticket.id }

/-- `_make_execution_plan`, in a clean checkout on the right branch.  An iteration never plans for a
    running execution: it has recovered or normalised it before. -/
def makeExecutionPlan (s : RuntimeState) (store : TicketStore) (inspection : WorkspaceInspection) :
    ExecutionPlan :=
  match admissionBarrier s store with
  | some plan => plan
  | none =>
    match s.phase with
    | .agentPending => boundPlan s store inspection
    | .agentRunning => {
        action := .blocked
        reason := "interrupted execution has ambiguous outcome; explicit operator handling is required" }
    | .idle | .mergePending => freePlan store

/-! ### What a plan can be -/

/-- A barrier never runs a worker. -/
theorem admissionBarrier_action {s : RuntimeState} {store : TicketStore} {plan : ExecutionPlan}
    (h : admissionBarrier s store = some plan) : plan.action ≠ .runWorker := by
  unfold admissionBarrier at h
  grind

/-- A plan is bound only to a pending execution. -/
theorem makeExecutionPlan_bound {s : RuntimeState} {store : TicketStore}
    {inspection : WorkspaceInspection}
    (h : (makeExecutionPlan s store inspection).bound = true) : s.phase = .agentPending := by
  have hbarrier : ∀ plan, admissionBarrier s store = some plan → plan.bound = false := by
    intro plan hplan
    unfold admissionBarrier at hplan
    grind
  have hfree : (freePlan store).bound = false := by
    unfold freePlan
    grind
  unfold makeExecutionPlan at h
  split at h
  · rename_i plan hplan
    rw [hbarrier plan hplan] at h
    cases h
  · split at h
    · assumption
    · cases h
    · rw [hfree] at h
      cases h
    · rw [hfree] at h
      cases h

/-- A worker plan for a pending execution is bound to it. -/
theorem boundPlan_bound {s : RuntimeState} {store : TicketStore} {inspection : WorkspaceInspection}
    (h : (boundPlan s store inspection).action = .runWorker) :
    (boundPlan s store inspection).bound = true := by
  unfold boundPlan at h ⊢
  grind

end Devlegate
