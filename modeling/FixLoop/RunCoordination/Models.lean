import Mathlib.Algebra.Order.Ring.Unbundled.Rat
import Mathlib.Data.List.AList
import FixLoop.Library.Json

namespace FixLoop
namespace RunCoordination

open Library

/-!
# Rows and values of the coordination database

The three tables of `coordination.sqlite3`.  `run_key` is the text
`workspace_id:run_id`; the workspace identifier is a hexadecimal digest of
fixed length, so the text and the pair of its parts determine each other and
the pair is used.  Stores of several workspaces may share one database.
-/

/-- Texts of `uuid.uuid4().hex`.  A released owner is stored as the empty
string, so no issued token can be mistaken for one. -/
structure Uuid where
  hex : String
  nonempty : hex ≠ ""

inductive RunStatus where
  | new
  | acquiring
  | reconciling
  | active
  | cancelRequested
  | cancelling
  | cancelled
  | recoveryRequired
  | failed
  | released
deriving DecidableEq

def RunStatus.text : RunStatus -> String
  | new => "new"
  | acquiring => "acquiring"
  | reconciling => "reconciling"
  | active => "active"
  | cancelRequested => "cancel_requested"
  | cancelling => "cancelling"
  | cancelled => "cancelled"
  | recoveryRequired => "recovery_required"
  | failed => "failed"
  | released => "released"

/-- The statuses that `acquire` counts as occupying a workspace. -/
def RunStatus.occupies (status : RunStatus) : Bool :=
  status ∈ [.acquiring, .reconciling, .active, .cancelRequested, .cancelling, .recoveryRequired]

/-- The statuses in which `finish` leaves a run that has ended. -/
def RunStatus.terminal (status : RunStatus) : Bool :=
  status ∈ [.cancelled, .failed, .released]

inductive ResourceStatus where
  | planned
  | running
  | completed
  | failed
  | cancelRequested
  | cancelled
  | notStarted
  | unknown
deriving DecidableEq

def ResourceStatus.text : ResourceStatus -> String
  | planned => "planned"
  | running => "running"
  | completed => "completed"
  | failed => "failed"
  | cancelRequested => "cancel_requested"
  | cancelled => "cancelled"
  | notStarted => "not_started"
  | unknown => "unknown"

def ResourceStatus.ended (status : ResourceStatus) : Bool :=
  status ∈ [.completed, .failed, .cancelled, .notStarted]

def ResourceStatus.dispatching (status : ResourceStatus) : Bool :=
  status ∈ [.planned, .running]

structure RunKey where
  workspaceId : String
  runId : String
deriving DecidableEq

/-- A row of `runs`. -/
structure RunRow where
  taskId : String
  runId : String
  workspaceId : String
  workspace : String
  status : RunStatus
  generation : Nat
  ownerToken : String
  ownerIdentity : Json
  leaseExpiresAt : ℚ
  cancelRequestId : String
  coordinationRevision : Nat
  terminalStatus : String
  createdAt : ℚ
  updatedAt : ℚ

/-- A row of `resources`. -/
structure ResourceRecord where
  resourceId : String
  taskId : String
  runId : String
  workspaceId : String
  parentId : String
  kind : String
  effect : String
  status : ResourceStatus
  generation : Nat
  ownerToken : String
  receiptRef : String
  cleanup : String
  errorCode : String
  payload : Json
  createdAt : ℚ
  updatedAt : ℚ

/-- The `run_key` column, written from the run row at registration. -/
def ResourceRecord.runKey (record : ResourceRecord) : RunKey :=
  ⟨record.workspaceId, record.runId⟩

/-- The judgement of `finish`: the execution has ended and its cleanup is
confirmed. -/
def ResourceRecord.settled (record : ResourceRecord) : Bool :=
  record.status.ended && record.cleanup == "confirmed"

def ResourceRecord.toDict (record : ResourceRecord) : Json :=
  .obj [("resource_id", .str record.resourceId), ("task_id", .str record.taskId),
    ("run_id", .str record.runId), ("workspace_id", .str record.workspaceId),
    ("parent_id", .str record.parentId), ("kind", .str record.kind),
    ("effect", .str record.effect), ("status", .str record.status.text),
    ("generation", .int record.generation), ("owner_token", .str record.ownerToken),
    ("receipt_ref", .str record.receiptRef), ("cleanup", .str record.cleanup),
    ("error_code", .str record.errorCode), ("payload", record.payload),
    ("created_at", .float record.createdAt), ("updated_at", .float record.updatedAt)]

/-- A row of `coordination_events`.  Rows are kept in the order of their
automatic `event_id`. -/
structure EventRow where
  runKey : RunKey
  eventType : String
  payload : Json
  createdAt : ℚ

structure Database where
  runs : AList (fun _ : RunKey => RunRow)
  resources : AList (fun _ : String => ResourceRecord)
  events : List EventRow

def Database.empty : Database := ⟨∅, ∅, []⟩

/-- The lease handed to an owner.  Its token was drawn by `acquire`. -/
structure OwnerLease where
  taskId : String
  runId : String
  workspaceId : String
  ownerToken : Uuid
  generation : Nat
  coordinationRevision : Nat
  leaseExpiresAt : ℚ
  status : RunStatus

/-- The exceptions of the store with their codes and messages. -/
inductive CoordinationFault where
  | coordination (code : String)
  | ownerConflict (message : String) (runStatus : String)
  | staleGeneration (message : String)
  | integrity (code : String)
  | value (message : String)

namespace CoordinationFault

/-- The default message of `StaleGenerationError`. -/
def stale : CoordinationFault := .staleGeneration "owner generation is stale"

end CoordinationFault

end RunCoordination
end FixLoop
