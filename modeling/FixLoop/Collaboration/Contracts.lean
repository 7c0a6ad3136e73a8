import Mathlib.Algebra.Order.Ring.Unbundled.Rat
import FixLoop.Library.Record
import FixLoop.Library.Table

namespace FixLoop
namespace Collaboration

open Library

/-!
# Tasks, results and explorations
-/

inductive TaskStatus where
  | pending
  | ready
  | running
  | blocked
  | completed
  | failed
  | cancelled
  | expired
  deriving DecidableEq

def TaskStatus.value : TaskStatus -> String
  | pending => "pending"
  | ready => "ready"
  | running => "running"
  | blocked => "blocked"
  | completed => "completed"
  | failed => "failed"
  | cancelled => "cancelled"
  | expired => "expired"

/-! ## Explorations -/

def KINDS : List String := ["implementation_location", "related_tests"]

def ACTIVE : List String := ["queued", "running", "worker_lost"]

def TERMINAL : List String := ["completed", "partial", "failed", "cancelled", "timed_out", "stale"]

structure Usage where
  tokens : Option Int := none
  inputTokens : Option Int := none
  outputTokens : Option Int := none
  modelTurns : Option Int := none
  toolCalls : Option Int := none
  deriving DecidableEq

/-- What a worker reports; the findings are kept as they are given. -/
structure ExplorationResult where
  status : String
  usage : Usage := {}
  findings : String := ""
  deriving DecidableEq

/-- One receipt.  The receipt of a retry has no counts of turns and calls. -/
structure Receipt where
  attemptId : String
  leaseGeneration : Nat
  reservedTokens : Int
  chargedTokens : Int
  usageKnown : Bool
  inputTokens : Option Int := none
  outputTokens : Option Int := none
  modelTurns : Option Int := none
  toolCalls : Option Int := none
  deriving DecidableEq

/-- `payload["exploration"]`.  A flag that is missing is only ever tested and
reads as false; a missing list of receipts reads as the empty one. -/
structure Exploration where
  status : String
  leaseGeneration : Nat
  chargedTokens : Int
  attemptId : Option String := none
  lostAttemptId : Option String := none
  cancelRequested : Option String := none
  cleanupConfirmed : Bool := false
  reservationSettled : Bool := false
  receipts : List Receipt := []
  result : Option ExplorationResult := none
  resultRef : Option String := none
  workspaceRevision : String := ""
  owner : String := ""
  startedAt : Option ℚ := none
  endedAt : Option ℚ := none
  deriving DecidableEq

/-! ## Tasks -/

/-- The payload of a task: its exploration, if it is one, and the other
members. -/
structure TaskPayload where
  exploration : Option Exploration := none
  members : Record := []

/-- A durable unit of work; agents never mutate it directly. -/
structure AgentTask where
  taskId : String
  runId : String := ""
  role : String := ""
  kind : String := ""
  payload : TaskPayload := {}
  dependsOn : List String := []
  deadlineAt : ℚ := 0
  tokenBudget : Option Int := none
  attempt : Nat := 0
  maxAttempts : Nat := 1
  status : TaskStatus := .pending
  version : Nat := 0
  leaseOwner : String := ""
  leaseExpiresAt : ℚ := 0
  retryAt : ℚ := 0
  createdAt : ℚ
  updatedAt : ℚ

namespace AgentTask

def validate (task : AgentTask) : List String :=
  (if task.taskId = "" then ["task_id is required"] else []) ++
    (if task.role = "" then ["role is required"] else []) ++
    (if task.kind = "" then ["kind is required"] else []) ++
    (if task.maxAttempts < task.attempt then ["attempt must be <= max_attempts"] else []) ++
    (if task.deadlineAt ≠ 0 ∧ task.deadlineAt < task.createdAt then
      ["deadline_at must not precede created_at"] else []) ++
    (if task.taskId ∈ task.dependsOn then ["task cannot depend on itself"] else [])

/-- A cancel request is recorded: `payload.get("cancel_request_id")` holds. -/
def cancelRecorded (task : AgentTask) : Bool :=
  (task.payload.members.get "cancel_request_id").truthy

/-- `payload = {**payload, key: value}`. -/
def withMember (key : String) (value : Json) (task : AgentTask) : AgentTask :=
  { task with payload := { task.payload with members := task.payload.members.set key value } }

end AgentTask

structure AgentResult where
  taskId : String
  status : TaskStatus := .completed
  output : Record := []
  evidenceRefs : List String := []
  sideEffectIds : List String := []
  error : String := ""
  attempt : Nat := 0
  producedAt : ℚ := 0
  consumedBy : List String := []

def AgentResult.toDict (result : AgentResult) : Json :=
  .obj [("task_id", .str result.taskId), ("status", .str result.status.value),
    ("output", .obj result.output), ("evidence_refs", .arr (result.evidenceRefs.map .str)),
    ("side_effect_ids", .arr (result.sideEffectIds.map .str)), ("error", .str result.error),
    ("attempt", .int result.attempt), ("produced_at", .float result.producedAt),
    ("consumed_by", .arr (result.consumedBy.map .str))]

end Collaboration
end FixLoop
