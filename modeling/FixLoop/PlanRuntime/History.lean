import FixLoop.PlanRuntime.Journal

namespace FixLoop
namespace PlanRuntime

open Library

/-!
# The checks of a journal

`validate_execution_history` follows the phases of attempts and operations,
and `verify_checkpoint` compares a seal with the part of the journal that it
covers.  An operation keeps its identity, so the last record of an operation
belongs to the attempt of all the others.
-/

/-- The fields that no later record of an attempt may change. -/
def Attempt.sameIdentity (value previous : Attempt) : Bool :=
  value.attemptId = previous.attemptId && value.planId = previous.planId &&
    value.planVersion = previous.planVersion && value.nodeId = previous.nodeId &&
    value.allowedTools = previous.allowedTools &&
    value.idempotencyKey = previous.idempotencyKey &&
    value.workspaceBefore = previous.workspaceBefore && value.owner.same previous.owner

/-- The fields that no later record of an operation may change. -/
def Operation.sameIdentity (value previous : Operation) : Bool :=
  value.operationId = previous.operationId && value.attemptId = previous.attemptId &&
    value.nodeId = previous.nodeId && value.planVersion = previous.planVersion &&
    value.tool = previous.tool && value.callId = previous.callId &&
    value.argsHash = previous.argsHash && value.effect = previous.effect &&
    value.workspaceBefore = previous.workspaceBefore

/-- The phase and the identity of a record against the one before. -/
def checkPhase (previous : Option (Phase × Bool)) (phase : Phase) : Except Fault Unit := do
  raiseIf (previous = none ∧ phase ≠ .prepared) "journal_execution_phase_invalid"
  match previous with
  | none => .ok ()
  | some (before, same) => do
      raiseIf (phase.rank < before.rank) "journal_execution_phase_invalid"
      raiseIf (same = false) "journal_execution_identity_invalid"

def checkAttempt (attempts : List Attempt) (value : Attempt) : Except Fault Unit :=
  checkPhase ((attempts.find? fun attempt => attempt.attemptId = value.attemptId).map
    (fun previous => (previous.phase, value.sameIdentity previous))) value.phase

/-- A text member of a dictionary. -/
def member? (key : String) (dict : Json) : Option String := (dict.get? key).bind Json.str?

section Sealing

variable [Hashing]

/-- The identifier that a receipt has to carry. -/
def receiptId (receipt : Json) : String :=
  let body : List (String × Json) :=
    match receipt with
    | .obj members => members.filter fun entry => entry.1 != "receipt_id"
    | _ => []
  "receipt-" ++ String.ofList ((Hashing.encodedDigest (.obj body)).toList.take 20)

def checkReceipt (identity : Identity) (value : Operation) (receipt : Json) : Except Fault Unit := do
  raiseIf (member? "call_id" receipt ≠ some value.callId ∨
      member? "tool" receipt ≠ some value.tool ∨ member? "run_id" receipt ≠ some identity.runId)
    "journal_receipt_identity_invalid"
  raiseIf (member? "receipt_id" receipt ≠ some (receiptId receipt))
    "journal_receipt_checksum_invalid"

def checkOperation (identity : Identity) (attempts : List Attempt) (operations : List Operation)
    (value : Operation) : Except Fault Unit := do
  checkPhase ((operations.find? fun operation => operation.operationId = value.operationId).map
    (fun previous => (previous.phase, value.sameIdentity previous))) value.phase
  match attempts.find? (fun attempt => attempt.attemptId = value.attemptId) with
  | none => .error "journal_operation_attempt_mismatch"
  | some attempt =>
    raiseIf (value.nodeId ≠ attempt.nodeId ∨ value.planVersion ≠ attempt.planVersion)
      "journal_operation_attempt_mismatch"
  match value.receipt? with
  | none => .ok ()
  | some receipt => checkReceipt identity value receipt

/-- The loop of `validate_execution_history` over the events. -/
def checkHistory (identity : Identity) (attempts : List Attempt) (operations : List Operation) :
    Journal -> Except Fault Unit
  | [] => .ok ()
  | .attempt value :: rest => do
      checkAttempt attempts value
      checkHistory identity (enter Attempt.attemptId value attempts) operations rest
  | .operation value :: rest => do
      checkOperation identity attempts operations value
      checkHistory identity attempts (enter Operation.operationId value operations) rest
  | _ :: rest => checkHistory identity attempts operations rest

def validateExecutionHistory (identity : Identity) (journal : Journal) : Except Fault Unit :=
  checkHistory identity [] [] journal

def Journal.checksum (journal : Journal) : String :=
  journal.zipIdx.foldl (fun previous event => Hashing.digest (.obj [("seq", .int (event.2 + 1)),
    ("kind", .str event.1.kind), ("payload", event.1.payload), ("previous", .str previous)])) ""

def Journal.activeAttempts (journal : Journal) : List String :=
  (((latest Attempt.attemptId journal.attempts).filter
    (fun attempt => attempt.phase ≠ .reconciled)).map Attempt.attemptId).insertionSort
      (fun left right => left ≤ right)

/-- The payload of `_checkpoint` with its checksum. -/
def checkpointSeal (identity : Identity) (journal : Journal) (plan : Option Plan)
    (state : LongTaskState) (coordination : Option Json) : CheckpointSeal :=
  let record : CheckpointSeal :=
    { schemaVersion := if (coordination.map Json.truthy).getD false then "2" else "1",
      identity := identity, planChecksum := (plan.map Plan.planChecksum).getD "",
      planVersion := (plan.map Plan.planVersion).getD 0,
      stateRevision := (plan.map Plan.stateRevision).getD 0, journalSequence := journal.length,
      journalChecksum := journal.checksum, activeAttempts := journal.activeAttempts,
      longTaskState := .ofState state none, coordinationSeal := coordination, checksum := "" }
  { record with checksum := Hashing.digest (.obj record.payload) }

/-- The long-task state of a seal against the one recorded last before it. -/
def checkLongTaskState (identity : Identity) (covered : Journal) (record : LongTaskRecord) :
    Except Fault Unit := do
  let saved <- record.verify
  match covered.longTaskStates.getLast? with
  | none => .error "checkpoint_long_task_journal_mismatch"
  | some last => do
      let held <- last.verify
      raiseIf (saved.toDict.same held.toDict = false ∨ saved.taskId ≠ identity.taskId ∨
          saved.runId ≠ identity.runId)
        "checkpoint_long_task_journal_mismatch"

def verifyCheckpoint (identity : Identity) (journal : Journal) (record : CheckpointSeal) :
    Except Fault Unit := do
  raiseIf (record.checksum ≠ Hashing.digest (.obj record.payload) ∨ record.identity ≠ identity)
    "checkpoint_identity_or_checksum_invalid"
  raiseIf (¬ (1 ≤ record.journalSequence ∧ record.journalSequence ≤ journal.length))
    "checkpoint_journal_mismatch"
  let covered : Journal := journal.take record.journalSequence
  raiseIf (covered.checksum ≠ record.journalChecksum) "checkpoint_journal_mismatch"
  raiseIf (record.planChecksum ≠ (covered.plan?.map Plan.planChecksum).getD "" ∨
      record.planVersion ≠ (covered.plan?.map Plan.planVersion).getD 0 ∨
      record.stateRevision ≠ (covered.plan?.map Plan.stateRevision).getD 0)
    "checkpoint_plan_mismatch"
  raiseIf (record.activeAttempts ≠ covered.activeAttempts) "checkpoint_attempt_mismatch"
  checkLongTaskState identity covered record.longTaskState

/-! ## Operations keep their attempts -/

/-- The last record of every operation belongs to the operation's attempt. -/
def Represented (operations : List Operation) : Prop :=
  ∀ operation ∈ operations, ∃ last ∈ latest Operation.operationId operations, last.attemptId = operation.attemptId

variable {result : Unit} {identity : Identity} {attempts : List Attempt} {seen : List Operation}

omit [Hashing] in
theorem checkPhase_same {before phase : Phase} {same : Bool}
    (passed : checkPhase (some (before, same)) phase = .ok result) : same = true := by
  rcases bind_ok passed with ⟨_, _, passed⟩
  rcases bind_ok passed with ⟨_, _, identical⟩
  exact Bool.eq_true_of_not_eq_false (raiseIf_ok identical)

theorem checkOperation_attempt {operations : List Operation} {value previous : Operation}
    (passed : checkOperation identity attempts operations value = .ok result)
    (found : operations.find? (fun operation => operation.operationId = value.operationId) = some previous) :
    value.attemptId = previous.attemptId := by
  rcases bind_ok passed with ⟨_, phase, _⟩
  rw [found] at phase
  have same := checkPhase_same phase
  simp only [Operation.sameIdentity, Bool.and_eq_true, decide_eq_true_eq] at same
  exact same.1.1.1.1.1.1.1.2

omit [Hashing] in
/-- A dictionary finds its entry under the entry's key. -/
theorem find?_latest {last : Operation} {name : String} (member : last ∈ latest Operation.operationId seen)
    (named : last.operationId = name) :
    (latest Operation.operationId seen).find? (fun operation => operation.operationId = name) =
      some last := by
  cases found : (latest Operation.operationId seen).find?
      (fun operation => operation.operationId = name) with
  | none => exact absurd (decide_eq_true named) (List.find?_eq_none.mp found last member)
  | some other =>
    have same := @List.find?_some _ (fun operation : Operation =>
      decide (operation.operationId = name)) _ _ found
    have equal := List.inj_on_of_nodup_map (nodup_latest Operation.operationId seen)
      (List.mem_of_find?_eq_some found) member ((of_decide_eq_true same).trans named.symm)
    rw [equal]

/-- A checked record keeps the operations represented. -/
theorem Represented.append {value : Operation} (represented : Represented seen)
    (passed : checkOperation identity attempts (latest Operation.operationId seen) value = .ok result) :
    Represented (seen ++ [value]) := by
  intro operation member
  rw [latest_append]
  rcases List.mem_append.mp member with earlier | new
  · rcases represented operation earlier with ⟨last, listed, same⟩
    by_cases named : last.operationId = value.operationId
    · have kept := checkOperation_attempt passed (find?_latest listed named)
      exact ⟨value, mem_enter_self _ value _, kept.trans same⟩
    · exact ⟨last, mem_enter_of_ne listed named, same⟩
  · rw [List.mem_singleton.mp new]
    exact ⟨value, mem_enter_self _ value _, rfl⟩

theorem checkHistory_represented {journal : Journal} (represented : Represented seen)
    (passed : checkHistory identity attempts (latest Operation.operationId seen) journal = .ok result) :
    Represented (seen ++ journal.operations) := by
  induction journal generalizing attempts seen with
  | nil => exact (List.append_nil seen).symm ▸ represented
  | cons entry rest ih =>
    cases entry with
    | attempt value =>
      rcases bind_ok passed with ⟨_, _, passed⟩
      exact ih represented passed
    | operation value =>
      rcases bind_ok passed with ⟨_, checked, passed⟩
      rw [← latest_append] at passed
      have later := ih (represented.append checked) passed
      rw [List.append_assoc] at later
      exact later
    | _ => exact ih represented passed

/-- A journal that is accepted represents its operations. -/
theorem validateExecutionHistory_ok {journal : Journal}
    (passed : validateExecutionHistory identity journal = .ok result) : Represented journal.operations := by
  have none : Represented [] := fun _ member => False.elim (List.not_mem_nil member)
  have all := checkHistory_represented none passed
  rw [List.nil_append] at all
  exact all

end Sealing

end PlanRuntime
end FixLoop
