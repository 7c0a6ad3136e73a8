import FixLoop.Library.Machine
import FixLoop.Collaboration.Contracts

namespace FixLoop
namespace Collaboration

open Library

/-!
# The task store

`claim_task` and `request_cancel_task` read and write in one transaction.
`heartbeat` and `complete_task` read a task, work on their copy and replace
the stored task later, in a transaction of their own, if it still has the
version they read.  Each of these steps is one action here, so the list of
actions fixes how any number of workers interleave and what the clock showed
each of them.
-/

inductive TaskFault where
  | missing (key : String)
  | lease (message : String)
  | value (message : String)
  | integrity
  deriving DecidableEq

/-- A row of `task_records`. -/
structure TaskRow where
  runId : String
  payload : AgentTask
  version : Nat
  status : TaskStatus
  leaseOwner : String
  leaseExpiresAt : ℚ

/-- `UPDATE task_records SET payload, version, status, lease_owner,
lease_expires_at`. -/
def TaskRow.holding (task : AgentTask) (row : TaskRow) : TaskRow :=
  { row with
    payload := task
    version := task.version
    status := task.status
    leaseOwner := task.leaseOwner
    leaseExpiresAt := task.leaseExpiresAt }

/-- A row of `collaboration_events`. -/
structure TaskEvent where
  objectId : String
  eventType : String
  payload : AgentTask

structure Store where
  rows : Table TaskRow
  events : List TaskEvent

namespace AgentTask

def created (now : ℚ) (task : AgentTask) : AgentTask :=
  { task with
    version := 1
    createdAt := if task.createdAt = 0 then now else task.createdAt
    updatedAt := now }

def claimed (worker : String) (version : Nat) (now leaseSeconds : ℚ) (task : AgentTask) : AgentTask :=
  { task with
    status := .running
    attempt := task.attempt + 1
    leaseOwner := worker
    leaseExpiresAt := now + max (1 / 10) leaseSeconds
    version := version + 1
    updatedAt := now }

def requested (requestId : String) (now : ℚ) (task : AgentTask) : AgentTask :=
  { task.withMember "cancel_request_id" (.str requestId) with
    status := if task.status ∈ [.pending, .ready] then .cancelled else task.status
    updatedAt := now
    version := task.version + 1 }

end AgentTask

namespace Store

def empty : Store := ⟨∅, []⟩

def event (eventType : String) (task : AgentTask) (store : Store) : Store :=
  { store with events := store.events ++ [⟨task.taskId, eventType, task⟩] }

def update (task : AgentTask) (store : Store) : Store :=
  { store with rows := store.rows.modify task.taskId (TaskRow.holding task) }

def createTask (task : AgentTask) (now : ℚ) (store : Store) : Except TaskFault (Store × AgentTask) :=
  if task.validate ≠ [] then .error (.value (String.intercalate "; " task.validate))
  else
    match store.rows.lookup task.taskId with
    | some existing => .ok (store, existing.payload)
    | none =>
      .ok (({ store with
          rows := store.rows.insert task.taskId
            { runId := task.runId
              payload := task.created now
              version := 1
              status := task.status
              leaseOwner := ""
              leaseExpiresAt := 0 } }).event "task_created" (task.created now), task.created now)

def getTask (taskId : String) (store : Store) : Option AgentTask :=
  (store.rows.lookup taskId).map TaskRow.payload

def claimTask (taskId worker : String) (now leaseSeconds : ℚ) (store : Store) :
    Except TaskFault (Store × AgentTask) :=
  match store.rows.lookup taskId with
  | none => .error (.missing taskId)
  | some row =>
    if row.payload.cancelRecorded then .error (.lease "task cancellation is pending")
    else if row.payload.status ∉ [.pending, .ready, .running] then
      .error (.lease ("task is not claimable: " ++ row.payload.status.value))
    else if row.payload.retryAt ≠ 0 ∧ now < row.payload.retryAt then
      .error (.lease "task retry backoff is active")
    else if row.payload.deadlineAt ≠ 0 ∧ row.payload.deadlineAt ≤ now then
      .error (.lease "task deadline has expired")
    else if row.payload.status = .running ∧ ¬row.leaseExpiresAt ≤ now ∧ row.leaseOwner ≠ worker then
      .error (.lease "task lease is held by another worker")
    else
      .ok ((store.update (row.payload.claimed worker row.version now leaseSeconds)).event "task_claimed"
          (row.payload.claimed worker row.version now leaseSeconds),
        row.payload.claimed worker row.version now leaseSeconds)

/-- Stop new claims without treating a running worker as terminated. -/
def requestCancelTask (taskId requestId : String) (now : ℚ) (store : Store) : Store × Option AgentTask :=
  match store.rows.lookup taskId with
  | none => (store, none)
  | some row =>
    if row.payload.cancelRecorded ∨ row.payload.status ∈ [.completed, .failed, .cancelled] then
      (store, some row.payload)
    else
      -- the columns of the lease are not among those that are set
      (({ store with
          rows := store.rows.modify row.payload.taskId (fun stored =>
            { stored with
              payload := row.payload.requested requestId now
              version := row.payload.version + 1
              status := (row.payload.requested requestId now).status }) }).event "task_cancel_requested"
          (row.payload.requested requestId now),
        some (row.payload.requested requestId now))

def replaceTask (task : AgentTask) (worker eventType : String) (store : Store) :
    Except TaskFault Store :=
  match store.rows.lookup task.taskId with
  | none => .error (.lease "task changed while updating")
  | some row =>
    if row.version ≠ task.version ∨ row.leaseOwner ≠ worker then
      .error (.lease "task changed while updating")
    else
      .ok ((store.update { task with version := row.version + 1 }).event eventType
        { task with version := row.version + 1 })

end Store

/-! ## Calls that read first -/

/-- The two calls that replace a task they have read, with what the clock
shows them. -/
inductive Request where
  | heartbeat (leaseSeconds checkedAt extendedAt updatedAt : ℚ)
  | complete (result : AgentResult) (checkedAt retriedAt updatedAt : ℚ)

/-- What both calls check of the task they have read. -/
def checkLease (worker : String) (checkedAt : ℚ) (task : AgentTask) : Except TaskFault Unit :=
  if task.status ≠ .running ∨ task.leaseOwner ≠ worker then
    .error (.lease "worker does not own task lease")
  else if task.leaseExpiresAt ≠ 0 ∧ task.leaseExpiresAt ≤ checkedAt then
    .error (.lease "task lease has expired")
  else .ok ()

/-- A failed result of a task that has attempts left. -/
def retried (result : AgentResult) (task : AgentTask) : Prop :=
  result.status = .failed ∧ task.attempt < task.maxAttempts

instance (result : AgentResult) (task : AgentTask) : Decidable (retried result task) :=
  inferInstanceAs (Decidable (_ ∧ _))

/-- The task that the call writes, from the task it has read. -/
def Request.edit (taskId worker : String) (task : AgentTask) : Request -> Except TaskFault AgentTask
  | heartbeat leaseSeconds checkedAt extendedAt updatedAt => do
      checkLease worker checkedAt task
      .ok { task with leaseExpiresAt := extendedAt + max (1 / 10) leaseSeconds, updatedAt := updatedAt }
  | complete result checkedAt retriedAt updatedAt => do
      checkLease worker checkedAt task
      if result.taskId ≠ taskId then .error (.value "result task_id mismatch")
      else
        .ok { task.withMember "result" result.toDict with
          status := if retried result task then .ready else result.status
          retryAt :=
            if retried result task then retriedAt + min 60 (2 ^ (task.attempt - 1)) else 0
          leaseOwner := ""
          leaseExpiresAt := 0
          updatedAt := updatedAt }

def Request.eventType : Request -> String
  | heartbeat .. => "task_heartbeat"
  | complete .. => "task_completed"

/-- A call between its read and its write. -/
structure Pending where
  taskId : String
  worker : String
  request : Request
  base : AgentTask
  task : AgentTask
  computed : request.edit taskId worker base = .ok task

/-! ## Runs -/

structure Tasks where
  store : Store
  pending : Nat -> Option Pending

inductive Action where
  | create (task : AgentTask) (now : ℚ)
  | claim (taskId worker : String) (now leaseSeconds : ℚ)
  | requestCancel (taskId requestId : String) (now : ℚ)
  | read (call : Nat) (taskId worker : String) (request : Request)
  | replace (call : Nat)

namespace Tasks

def start : Tasks := ⟨Store.empty, fun _ => none⟩

/-- The state with the store of a call that returned; a transaction that
raises is rolled back. -/
def committed (tasks : Tasks) : Except TaskFault (Store × AgentTask) -> Tasks
  | .ok (store, _) => { tasks with store := store }
  | .error _ => tasks

def read (call : Nat) (taskId worker : String) (request : Request) (tasks : Tasks) : Tasks :=
  match tasks.store.getTask taskId with
  | none => tasks
  | some base =>
    match computed : request.edit taskId worker base with
    | .ok task =>
      { tasks with
        pending := Function.update tasks.pending call
          (some ⟨taskId, worker, request, base, task, computed⟩) }
    | .error _ => tasks

def replace (call : Nat) (tasks : Tasks) : Tasks :=
  match tasks.pending call with
  | none => tasks
  | some pending =>
    { store := match tasks.store.replaceTask pending.task pending.worker pending.request.eventType with
        | .ok store => store
        | .error _ => tasks.store
      pending := Function.update tasks.pending call none }

def step (tasks : Tasks) : Action -> Tasks
  | .create task now => tasks.committed (tasks.store.createTask task now)
  | .claim taskId worker now leaseSeconds =>
    tasks.committed (tasks.store.claimTask taskId worker now leaseSeconds)
  | .requestCancel taskId requestId now =>
    { tasks with store := (tasks.store.requestCancelTask taskId requestId now).1 }
  | .read call taskId worker request => tasks.read call taskId worker request
  | .replace call => tasks.replace call

end Tasks

/-- Any number of workers on one store. -/
def taskMachine : Machine Tasks Action := ⟨Tasks.step⟩

end Collaboration
end FixLoop
