import Mathlib.Data.List.Induction
import Mathlib.Data.List.Sort
import FixLoop.PlanRuntime.Models

namespace FixLoop
namespace PlanRuntime

open Library

/-!
# The journal

The facts of `journal.py` in the order in which they are appended.  The
sequence number of an event is its position, and its checksum is chained to
those before it, so a list of entries determines the table.  What no modelled
function reads of a payload is left out.
-/

/-- The files of a workspace with their digests, ordered by path. -/
abbrev Snapshot := List (String × String)

def Snapshot.toDict (snapshot : Snapshot) : Json :=
  .obj (snapshot.map fun file => (file.1, .str file.2))

def changes (before after : Snapshot) : List String :=
  (((before ++ after).map Prod.fst).dedup.filter
    (fun path => before.lookup path ≠ after.lookup path)).insertionSort fun left right => left ≤ right

inductive Phase where
  | prepared
  | dispatched
  | resultRecorded
  | reconciled
deriving DecidableEq

def Phase.rank : Phase -> Nat
  | prepared => 0
  | dispatched => 1
  | resultRecorded => 2
  | reconciled => 3

def Phase.text : Phase -> String
  | prepared => "prepared"
  | dispatched => "dispatched"
  | resultRecorded => "result_recorded"
  | reconciled => "reconciled"

/-- The result of a callback, as far as it is read.  A missing status or
approval is the empty text, which is none of those compared with. -/
structure NodeResult where
  status : String
  evidenceRefs : List String
  approvalId : String
  reason : Option String

def NodeResult.none : NodeResult := ⟨"", [], "", Option.none⟩

def NodeResult.toDict (result : NodeResult) : Json :=
  .obj ([("status", .str result.status), ("evidence_refs", texts result.evidenceRefs),
    ("approval_id", .str result.approvalId)] ++
    (match result.reason with
      | some reason => [("reason", .str reason)]
      | Option.none => []))

/-- `NodeAttempt`, with the member that `settle` adds for a pause. -/
structure Attempt where
  attemptId : String
  planId : String
  planVersion : Int
  nodeId : String
  stateRevisionAtDispatch : Int
  workspaceBefore : Snapshot
  allowedTools : List String
  idempotencyKey : String
  phase : Phase
  kind : NodeKind
  owner : Json
  workspaceAfter : Snapshot
  result : NodeResult
  terminalStatus : String
  waitingApproval : Option Bool

def Attempt.toDict (attempt : Attempt) : Json :=
  .obj ([("attempt_id", .str attempt.attemptId), ("plan_id", .str attempt.planId),
    ("plan_version", .int attempt.planVersion), ("node_id", .str attempt.nodeId),
    ("state_revision_at_dispatch", .int attempt.stateRevisionAtDispatch),
    ("workspace_before", attempt.workspaceBefore.toDict),
    ("allowed_tools", texts attempt.allowedTools),
    ("idempotency_key", .str attempt.idempotencyKey), ("phase", .str attempt.phase.text),
    ("kind", .str attempt.kind.text), ("owner", attempt.owner),
    ("workspace_after", attempt.workspaceAfter.toDict), ("result", attempt.result.toDict),
    ("terminal_status", .str attempt.terminalStatus)] ++
    (match attempt.waitingApproval with
      | some waiting => [("waiting_approval", .bool waiting)]
      | none => []))

/-- The attempt as it is recorded when it is settled. -/
def Attempt.reconciled (attempt : Attempt) (terminalStatus : String) : Attempt :=
  { attempt with phase := .reconciled, terminalStatus := terminalStatus }

/-- What a recorded tool result adds to an operation. -/
structure OperationOutcome where
  status : String
  errorCode : String
  executionStopped : Bool
  workspaceAfter : Snapshot
  changedPaths : List String
  evidenceRefs : List String
  receipt : Json
  observationId : String
  approvalId : String
  notStarted : Bool

structure Operation where
  operationId : String
  attemptId : String
  planVersion : Int
  nodeId : String
  callId : String
  tool : String
  argsHash : String
  effect : ToolEffect
  workspaceBefore : Snapshot
  phase : Phase
  outcome : Option OperationOutcome

namespace Operation

def executionStopped (operation : Operation) : Bool :=
  (operation.outcome.map OperationOutcome.executionStopped).getD false

def status (operation : Operation) : String :=
  (operation.outcome.map OperationOutcome.status).getD ""

def changedPaths (operation : Operation) : List String :=
  (operation.outcome.map OperationOutcome.changedPaths).getD []

def evidenceRefs (operation : Operation) : List String :=
  (operation.outcome.map OperationOutcome.evidenceRefs).getD []

def approvalId (operation : Operation) : String :=
  (operation.outcome.map OperationOutcome.approvalId).getD ""

def notStarted (operation : Operation) : Bool :=
  (operation.outcome.map OperationOutcome.notStarted).getD false

/-- The receipt of the operation if there is one. -/
def receipt? (operation : Operation) : Option Json :=
  (operation.outcome.map OperationOutcome.receipt).filter Json.truthy

/-- The result is recorded and the execution has stopped. -/
def settled (operation : Operation) : Bool :=
  operation.phase = .resultRecorded && operation.executionStopped

/-- The outcome of the operation does not allow its node to be judged. -/
def unknown (operation : Operation) : Bool :=
  !operation.settled || (operation.changedPaths ≠ [] && operation.status ≠ "success")

def toDict (operation : Operation) : Json :=
  .obj ([("operation_id", .str operation.operationId), ("attempt_id", .str operation.attemptId),
    ("plan_version", .int operation.planVersion), ("node_id", .str operation.nodeId),
    ("call_id", .str operation.callId), ("tool", .str operation.tool),
    ("args_hash", .str operation.argsHash), ("effect", .str operation.effect.text),
    ("workspace_before", operation.workspaceBefore.toDict), ("phase", .str operation.phase.text)] ++
    (match operation.outcome with
      | none => []
      | some outcome =>
        [("status", .str outcome.status), ("error_code", .str outcome.errorCode),
          ("execution_stopped", .bool outcome.executionStopped),
          ("workspace_after", outcome.workspaceAfter.toDict),
          ("changed_paths", texts outcome.changedPaths),
          ("evidence_refs", texts outcome.evidenceRefs), ("receipt", outcome.receipt),
          ("observation_id", .str outcome.observationId),
          ("approval_id", .str outcome.approvalId), ("not_started", .bool outcome.notStarted)]))

end Operation

structure Rollback where
  planVersion : Int
  completed : Bool
  workspaceAfter : Option Snapshot
  expectedAfter : Option Snapshot

/-- The rollback has ended in the expected workspace, and that is the given one. -/
def Rollback.confirmed (rollback : Rollback) (current : Snapshot) : Bool :=
  rollback.completed && rollback.workspaceAfter = rollback.expectedAfter &&
    rollback.workspaceAfter = some current

/-- The state of the long task.  The constraints agree when no configuration
is recorded or the hard constraints are the active ones of the records. -/
structure LongTaskState where
  taskId : String
  runId : String
  members : List (String × Json)
  constraintsAgree : Bool

def LongTaskState.toDict (state : LongTaskState) : Json :=
  .obj ([("task_id", .str state.taskId), ("run_id", .str state.runId)] ++ state.members)

/-- A state of the long task as it is recorded, with its checksum. -/
structure LongTaskRecord where
  state : LongTaskState
  stateId : Option String
  checksum : String

namespace LongTaskRecord

/-- What the checksum covers. -/
def unsealed (record : LongTaskRecord) : Json :=
  match record.stateId with
  | none => record.state.toDict
  | some stateId => record.state.toDict.merge (.obj [("state_id", .str stateId)])

def toDict (record : LongTaskRecord) : Json :=
  record.unsealed.merge (.obj [("state_checksum", .str record.checksum)])

/-- `seal`, with the identifier under which a state is persisted. -/
def ofState [Hashing] (state : LongTaskState) (stateId : Option String) : LongTaskRecord :=
  { state := state, stateId := stateId,
    checksum := Hashing.digest (unsealed ⟨state, stateId, ""⟩) }

def verify [Hashing] (record : LongTaskRecord) : Except Fault LongTaskState := do
  raiseIf (record.checksum = "" ∨ record.checksum ≠ Hashing.digest record.unsealed)
    "long_task_state_checksum_invalid"
  raiseIf (record.state.taskId = "" ∨ record.state.runId = "") "long_task_state_identity_missing"
  raiseIf (record.state.constraintsAgree = false) "constraint_projection_mismatch"
  .ok record.state

end LongTaskRecord

structure CheckpointSeal where
  schemaVersion : String
  identity : Identity
  planChecksum : String
  planVersion : Int
  stateRevision : Int
  journalSequence : Nat
  journalChecksum : String
  activeAttempts : List String
  longTaskState : LongTaskRecord
  coordinationSeal : Option Json
  checksum : String

def CheckpointSeal.payload (record : CheckpointSeal) : List (String × Json) :=
  [("schema_version", .str record.schemaVersion), ("identity", record.identity.toDict),
    ("plan_checksum", .str record.planChecksum), ("plan_version", .int record.planVersion),
    ("state_revision", .int record.stateRevision), ("journal_sequence", .int record.journalSequence),
    ("journal_checksum", .str record.journalChecksum), ("active_attempts", texts record.activeAttempts),
    ("long_task_state", record.longTaskState.toDict)] ++
    (match record.coordinationSeal with
      | some coordination => [("coordination_seal", coordination)]
      | none => [])

/-- The events of a journal by their kinds. -/
inductive Entry where
  | identity (identity : Identity)
  | plan (plan : Plan)
  | attempt (attempt : Attempt)
  | operation (operation : Operation)
  | evidence (evidenceId kind attemptId : String)
  | rollback (rollback : Rollback)
  | longTaskState (record : LongTaskRecord)
  | trace (event : String) (payload : Json)
  | checkpoint (record : CheckpointSeal)
  | other (kind : String) (payload : Json)

def Entry.kind : Entry -> String
  | identity _ => "identity"
  | plan _ => "plan"
  | attempt _ => "attempt"
  | operation _ => "operation"
  | evidence _ _ _ => "evidence"
  | rollback _ => "rollback"
  | longTaskState _ => "long_task_state"
  | trace _ _ => "trace"
  | checkpoint _ => "checkpoint"
  | other kind _ => kind

def optionalDict (snapshot : Option Snapshot) : Json :=
  match snapshot with
  | some files => files.toDict
  | none => .null

def Entry.payload : Entry -> Json
  | identity value => value.toDict
  | plan value => value.toDict
  | attempt value => value.toDict
  | operation value => value.toDict
  | evidence evidenceId kind attemptId =>
    .obj [("evidence_id", .str evidenceId), ("kind", .str kind), ("attempt_id", .str attemptId)]
  | rollback value =>
    .obj [("plan_version", .int value.planVersion), ("completed", .bool value.completed),
      ("workspace_after", optionalDict value.workspaceAfter),
      ("expected_after", optionalDict value.expectedAfter)]
  | longTaskState record => record.toDict
  | trace event payload => .obj [("event", .str event), ("payload", payload)]
  | checkpoint record => .obj (record.payload ++ [("checksum", .str record.checksum)])
  | other _ payload => payload

abbrev Journal := List Entry

/-! ## Reading the journal -/

def Entry.plan? : Entry -> Option Plan
  | plan value => some value
  | _ => none

def Entry.attempt? : Entry -> Option Attempt
  | attempt value => some value
  | _ => none

def Entry.operation? : Entry -> Option Operation
  | operation value => some value
  | _ => none

def Entry.rollback? : Entry -> Option Rollback
  | rollback value => some value
  | _ => none

def Entry.longTaskState? : Entry -> Option LongTaskRecord
  | longTaskState record => some record
  | _ => none

def Entry.checkpoint? : Entry -> Option CheckpointSeal
  | checkpoint record => some record
  | _ => none

namespace Journal

/-- The plans of a journal in the order of their commits. -/
def plans (journal : Journal) : List Plan := journal.filterMap Entry.plan?

/-- The plan that was saved last. -/
def plan? (journal : Journal) : Option Plan := (journal.filterMap Entry.plan?).getLast?

def attempts (journal : Journal) : List Attempt := journal.filterMap Entry.attempt?

def operations (journal : Journal) : List Operation := journal.filterMap Entry.operation?

def rollbacks (journal : Journal) : List Rollback := journal.filterMap Entry.rollback?

def longTaskStates (journal : Journal) : List LongTaskRecord :=
  journal.filterMap Entry.longTaskState?

def checkpoints (journal : Journal) : List CheckpointSeal := journal.filterMap Entry.checkpoint?

end Journal

/-- Enter a value into a dictionary: an old value of its key is replaced in
its place. -/
def enter {Value : Type} (key : Value -> String) (value : Value) : List Value -> List Value
  | [] => [value]
  | first :: rest =>
    if key first = key value then value :: rest else first :: enter key value rest

/-- `latest`: the last value of each key, in the order of the first ones. -/
def latest {Value : Type} (key : Value -> String) (values : List Value) : List Value :=
  values.foldl (fun found value => enter key value found) []

/-- `PlanSession.operations`. -/
def Journal.operationsOf (journal : Journal) (attemptId : String) : List Operation :=
  (latest Operation.operationId journal.operations).filter
    (fun operation => operation.attemptId = attemptId)

variable {Value : Type} {values : List Value} (key : Value -> String)

theorem mem_enter {key : Value -> String} {value found : Value} (member : found ∈ enter key value values) :
    found = value ∨ found ∈ values := by
  induction values with
  | nil => exact Or.inl (List.mem_singleton.mp member)
  | cons first rest ih =>
    rw [enter] at member
    split at member
    · rcases List.mem_cons.mp member with same | later
      · exact Or.inl same
      · exact Or.inr (List.mem_cons_of_mem first later)
    · rcases List.mem_cons.mp member with same | later
      · exact Or.inr (same ▸ List.mem_cons_self)
      · rcases ih later with same | inside
        · exact Or.inl same
        · exact Or.inr (List.mem_cons_of_mem first inside)

theorem exists_mem_enter (value : Value) {name : String}
    (known : name = key value ∨ ∃ found ∈ values, key found = name) :
    ∃ found ∈ enter key value values, key found = name := by
  induction values with
  | nil =>
    rcases known with rfl | ⟨found, member, _⟩
    · exact ⟨value, List.mem_cons_self, rfl⟩
    · exact False.elim (List.not_mem_nil member)
  | cons first rest ih =>
    rw [enter]
    split
    · rename_i same
      rcases known with rfl | ⟨found, member, named⟩
      · exact ⟨value, List.mem_cons_self, rfl⟩
      · rcases List.mem_cons.mp member with rfl | later
        · exact ⟨value, List.mem_cons_self, same.symm.trans named⟩
        · exact ⟨found, List.mem_cons_of_mem value later, named⟩
    · rcases known with new | ⟨found, member, named⟩
      · rcases ih (Or.inl new) with ⟨found, inside, same⟩
        exact ⟨found, List.mem_cons_of_mem first inside, same⟩
      · rcases List.mem_cons.mp member with rfl | later
        · exact ⟨found, List.mem_cons_self, named⟩
        · rcases ih (Or.inr ⟨found, later, named⟩) with ⟨other, inside, same⟩
          exact ⟨other, List.mem_cons_of_mem first inside, same⟩

theorem mem_enter_self (value : Value) (values : List Value) : value ∈ enter key value values := by
  induction values with
  | nil => exact List.mem_cons_self
  | cons first rest ih =>
    rw [enter]
    split
    · exact List.mem_cons_self
    · exact List.mem_cons_of_mem first ih

theorem mem_enter_of_ne {key : Value -> String} {value found : Value} (member : found ∈ values)
    (other : key found ≠ key value) : found ∈ enter key value values := by
  induction values with
  | nil => exact False.elim (List.not_mem_nil member)
  | cons first rest ih =>
    rw [enter]
    split
    · rename_i same
      rcases List.mem_cons.mp member with rfl | later
      · exact absurd same other
      · exact List.mem_cons_of_mem value later
    · rcases List.mem_cons.mp member with rfl | later
      · exact List.mem_cons_self
      · exact List.mem_cons_of_mem first (ih later)

/-- The keys of a dictionary stay distinct. -/
theorem nodup_enter {key : Value -> String} (value : Value) (distinct : (values.map key).Nodup) :
    ((enter key value values).map key).Nodup := by
  induction values with
  | nil => exact List.nodup_singleton _
  | cons first rest ih =>
    rw [List.map_cons, List.nodup_cons] at distinct
    rw [enter]
    split
    · rename_i same
      rw [List.map_cons, List.nodup_cons, ← same]
      exact distinct
    · rename_i other
      rw [List.map_cons, List.nodup_cons]
      refine ⟨?_, ih distinct.2⟩
      intro repeated
      rcases List.mem_map.mp repeated with ⟨found, member, same⟩
      rcases mem_enter member with rfl | inside
      · exact other same.symm
      · exact distinct.1 (same ▸ List.mem_map_of_mem inside)

theorem latest_append (values : List Value) (value : Value) :
    latest key (values ++ [value]) = enter key value (latest key values) := by
  rw [latest, List.foldl_append]
  rfl

/-- Every value is represented by the last one of its key. -/
theorem exists_mem_latest {value : Value} (member : value ∈ values) :
    ∃ found ∈ latest key values, key found = key value := by
  induction values using List.reverseRecOn with
  | nil => exact False.elim (List.not_mem_nil member)
  | append_singleton values last ih =>
    rw [latest_append]
    refine exists_mem_enter key last ?_
    rcases List.mem_append.mp member with inside | here
    · exact Or.inr (ih inside)
    · exact Or.inl (congrArg key (List.mem_singleton.mp here))

theorem nodup_latest (values : List Value) : ((latest key values).map key).Nodup := by
  induction values using List.reverseRecOn with
  | nil => exact List.nodup_nil
  | append_singleton values value ih =>
    rw [latest_append]
    exact nodup_enter value ih

namespace Journal

@[simp] theorem operations_append (first second : Journal) :
    operations (first ++ second) = operations first ++ operations second :=
  List.filterMap_append

@[simp] theorem attempts_append (first second : Journal) :
    attempts (first ++ second) = attempts first ++ attempts second :=
  List.filterMap_append

theorem plan?_append_plan (journal : Journal) (plan : Plan) :
    plan? (journal ++ [.plan plan]) = some plan := by
  rw [plan?, List.filterMap_append]
  exact @List.getLast?_concat _ (journal.filterMap Entry.plan?) plan

theorem plan?_append_of_none (journal : Journal) {entry : Entry} (other : entry.plan? = none) :
    plan? (journal ++ [entry]) = plan? journal := by
  rw [plan?, List.filterMap_append, List.filterMap_cons_none other, List.filterMap_nil,
    List.append_nil, plan?]

end Journal

end PlanRuntime
end FixLoop
