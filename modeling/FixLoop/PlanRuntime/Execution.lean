import FixLoop.PlanRuntime.Session

namespace FixLoop
namespace PlanRuntime

open Library Program

/-!
# Operations and settlement

The parts of `tool_operation`, which runs in the threads of parallel reads and
whose cuts separate them, and `settle`, which judges an attempt by its
operations and its evidence.
-/

inductive ToolStatus where
  | success
  | noChange
  | rejected
  | error
  | cancelled
  | uncertain
  | dryRun
  | incomplete
deriving DecidableEq

def ToolStatus.text : ToolStatus -> String
  | success => "success"
  | noChange => "no_change"
  | rejected => "rejected"
  | error => "error"
  | cancelled => "cancelled"
  | uncertain => "uncertain"
  | dryRun => "dry_run"
  | incomplete => "partial"

structure ToolResult where
  status : ToolStatus
  errorCode : String
  retryable : Bool
  durationMs : Int
  changedFiles : List String
  metadata : Json
  receipt : Json

/-- The value is the truth value true itself. -/
def isTrue : Json -> Bool
  | .bool value => value
  | _ => false

namespace ToolResult

def ok (result : ToolResult) : Bool := result.status ∈ [.success, .dryRun]

/-- The execution has stopped, as far as the result says. -/
def stopped (result : ToolResult) : Bool :=
  if result.status = .uncertain then false
  else if result.errorCode ∈ ["tool_timeout", "tool_cancelled", "deadline_exceeded"] then
    isTrue ((result.metadata.get? "termination_guaranteed").getD .null)
  else isTrue ((result.metadata.get? "termination_guaranteed").getD (.bool true))

def awaitsApproval (result : ToolResult) : Bool :=
  result.errorCode ∈ ["approval_required", "approval_pending"]

end ToolResult

def buildToolReceipt [Hashing] (name : String) (result : ToolResult) (argsHash runId callId : String) :
    Json :=
  let body : List (String × Json) :=
    [("schema_version", .str "1"), ("tool", .str name), ("call_id", .str callId),
      ("args_hash", .str argsHash), ("status", .str result.status.text),
      ("error_code", .str result.errorCode), ("retryable", .bool result.retryable),
      ("duration_ms", .int result.durationMs), ("affected_paths", texts result.changedFiles),
      ("run_id", .str runId)]
  .obj (body ++ [("receipt_id", .str (receiptId (.obj body)))])

/-- The workspace in which the next operation of an attempt has to start. -/
def expectedWorkspace (attempt : Attempt) (prior : List Operation) : Option Snapshot :=
  match prior.getLast? with
  | none => some attempt.workspaceBefore
  | some last =>
    match last.outcome with
    | some outcome => some outcome.workspaceAfter
    | none =>
      if last.effect = .read ∧ last.phase ∈ [.prepared, .dispatched] then
        some last.workspaceBefore
      else none

/-- The result of a node that has run its tools: `tool_result`. -/
def toolResult (ledger : Ledger) (attempt : Attempt) (operations : List Operation) : NodeResult :=
  let pending := operations.getLast?.filter (fun last =>
    last.approvalId ≠ "" && last.notStarted && last.changedPaths = [])
  match pending with
  | some last => { NodeResult.none with status := "waiting_approval", approvalId := last.approvalId }
  | none =>
    let refs := (operations.filter fun operation => operation.approvalId = "").flatMap
      Operation.evidenceRefs
    let current := if attempt.kind = .edit then
        refs.filter (fun ref => ledger.kind ref == some "patch_applied" && ledger.valid ref)
      else refs
    { NodeResult.none with status := "success", evidenceRefs := current }

/-- The status that an attempt ends with. -/
def judgement (ledger : Ledger) (node : PlanNode) (attempt : Attempt) (operations : List Operation) :
    NodeStatus :=
  if operations.any Operation.unknown = true ∨ attempt.result.status = "uncertain" then .uncertain
  else if attempt.result.status = "cancelled" then .cancelled
  else if attempt.result.status = "success" ∧
      ledger.completion node attempt.result.evidenceRefs attempt.attemptId = true then .succeeded
  else .failed

theorem judgement_mem (ledger : Ledger) (node : PlanNode) (attempt : Attempt)
    (operations : List Operation) :
    judgement ledger node attempt operations ∈
      [NodeStatus.uncertain, .cancelled, .succeeded, .failed] := by
  unfold judgement
  split
  · decide
  split
  · decide
  split
  · decide
  · decide

/-- The identifiers of the receipts of operations. -/
def receiptRefs (operations : List Operation) : Except Fault (List String) :=
  (operations.filterMap Operation.receipt?).mapM (fun receipt =>
    match member? "receipt_id" receipt with
    | some receiptId => .ok receiptId
    | none => .error "KeyError")

def settledPlan [Hashing] (ledger : Ledger) (attempt : Attempt) (status : NodeStatus)
    (receipts : List String) (now : ℚ) (plan : Plan) : Except Fault Plan :=
  transition plan attempt.nodeId status
    { attemptId := attempt.attemptId, expectedVersion := some attempt.planVersion,
      evidence := some ledger, outputEvidenceRefs := some attempt.result.evidenceRefs,
      receiptRefs := some receipts, now := now,
      failure := some (if status = .succeeded then ""
        else attempt.result.reason.getD "completion_unsatisfied") }

/-- `_tool_plan_view`, of which only the checks are kept. -/
def toolPlanView [Hashing] (attempt : Attempt) : SessionM Unit := do
  let current <- currentPlan
  if attempt.planVersion = 0 then
    refuseIf (current.isSome = true) "preplan_attempt_after_plan_created"
  else
    match current with
    | none => .fail "plan_view_not_created"
    | some plan => do
        refuseIf (plan.verify = false) "plan_view_checksum_invalid"
        refuseIf (attempt.nodeId ≠ "" ∧ attempt.nodeId ∉ plan.nodes.map PlanNode.nodeId)
          "plan_view_node_missing"
        let node <- ofExcept (plan.node attempt.nodeId)
        refuseIf (attempt.planId ≠ plan.planId ∨ attempt.planVersion ≠ plan.planVersion ∨
            node.attemptId ≠ attempt.attemptId ∨ node.status ≠ .running)
          "plan_tool_attempt_stale"

/-- The identifier of a call, drawn where the caller has none. -/
def newCallId (callId? : Option String) : SessionM String :=
  match callId? with
  | some callId => pure callId
  | none => newId "call"

/-- The evidence that the result of an operation leaves. -/
def recordEvidence (operation : Operation) (changed : List String) (result : ToolResult) :
    SessionM (List String) := do
  let observed <- newId "E"
  write (.evidence observed "observation_present" operation.attemptId)
  if operation.effect = .write ∧ changed ≠ [] ∧ result.ok = true ∧ result.stopped = true then do
    let patched <- newId "E"
    write (.evidence patched "patch_applied" operation.attemptId)
    pure [observed, patched]
  else pure [observed]

def Operation.withResult (operation : Operation) (result : ToolResult) (receipt : Json)
    (after : Snapshot) (observationId : String) (refs : List String) : Operation :=
  let changed := changes operation.workspaceBefore after
  let intruded := decide (operation.effect = .read ∧ changed ≠ [])
  { operation with
    phase := .resultRecorded,
    outcome := some
      { status := result.status.text,
        errorCode := if intruded then "readonly_workspace_changed" else result.errorCode,
        executionStopped := !intruded && result.stopped, workspaceAfter := after,
        changedPaths := changed, evidenceRefs := refs, receipt := receipt,
        observationId := observationId,
        approvalId := if result.awaitsApproval then
            (member? "approval_id" result.metadata).getD "" else "",
        notStarted := result.awaitsApproval &&
          member? "sandbox_mutation_status" result.metadata == some "not_started" } }

namespace PlanSession

variable (session : PlanSession)

section Sealing

variable [Hashing]

/-- The operation for a tool that the attempt allows, recorded as prepared. -/
def prepareOperation (attempt : Attempt) (name : String) (arguments : Json)
    (callId? : Option String) : SessionM Operation := do
  let effect <- ofExcept (toolEffect name session.registry)
  checkIf (effect ≠ .read) "extraction_resolved"
  refuseIf (attempt.kind = .explore ∧ effect ≠ .read) "readonly_tool_violation"
  let operationId <- newId "op"
  let callId <- newCallId callId?
  let before <- snapshotWorkspace
  let prior <- operationsOf attempt.attemptId
  refuseIf (expectedWorkspace attempt prior ≠ some before)
    "external_workspace_change_requires_replan"
  let operation : Operation :=
    { operationId := operationId, attemptId := attempt.attemptId,
      planVersion := attempt.planVersion, nodeId := attempt.nodeId, callId := callId, tool := name,
      argsHash := Hashing.digest arguments, effect := effect, workspaceBefore := before,
      phase := .prepared, outcome := none }
  let journal <- Program.journal
  refuseIf (50 ≤ (latest Operation.operationId (Journal.operations journal)).length)
    "plan_tool_budget_exceeded"
  write (.operation operation)
  cut "tool_prepared"
  pure operation

/-- `tool_operation` up to the cut `tool_prepared`.  A tool that the attempt
does not allow is rejected without an operation. -/
def toolPrepare (attempt : Attempt) (name : String) (arguments : Json) (callId? : Option String) :
    SessionM (Option Operation) := do
  check "execution_allowed"
  check "context_commit_resolved"
  toolPlanView attempt
  if name ∉ attempt.allowedTools then pure none
  else do
    let operation <- session.prepareOperation attempt name arguments callId?
    pure (some operation)

/-- `tool_operation` from there up to the point where the tool runs. -/
def toolDispatch (attempt : Attempt) (operation : Operation) : SessionM Unit := do
  let plan <- currentPlan
  refuseIf (operation.effect ≠ .read ∧
      plan.any (fun plan => plan.nodes.any fun node => node.status = .uncertain) = true)
    "workspace_execution_uncertain"
  let again <- snapshotWorkspace
  refuseIf (operation.workspaceBefore ≠ again) "workspace_changed_before_dispatch"
  toolPlanView attempt
  write (.operation { operation with phase := .dispatched })
  cut "tool_dispatched"

/-- `tool_operation` from the result of the tool on. -/
def toolSettle (operation : Operation) (arguments : Json) (result : ToolResult) :
    SessionM ToolResult := do
  let receipt := if result.receipt.truthy then result.receipt
    else buildToolReceipt operation.tool result (Hashing.digest arguments) session.identity.runId
      operation.callId
  let after <- snapshotWorkspace
  refuseIf (member? "call_id" receipt ≠ some operation.callId ∨
      member? "run_id" receipt ≠ some session.identity.runId ∨
      member? "tool" receipt ≠ some operation.tool)
    "tool_receipt_identity_mismatch"
  let observationId <- .ask (.observation operation.tool) ofExcept
  let refs <- recordEvidence operation (changes operation.workspaceBefore after) result
  write (.operation (operation.withResult result receipt after observationId refs))
  cut "tool_result_recorded"
  pure { result with
    receipt := receipt,
    metadata := result.metadata.merge (.obj
      [("plan_operation_id", .str operation.operationId),
        ("plan_attempt_id", .str operation.attemptId), ("observation_id", .str observationId),
        ("plan_evidence_refs", texts refs)]) }

section Decoded

variable [Decoding]

/-- A completed read whose evidence an edit has changed becomes stale. -/
def staleRead (prior : PlanNode) : SessionM Unit := do
  let ledger <- evidence
  whenever (prior.kind ∈ [.explore, .analyze] ∧ prior.status = .succeeded ∧
      prior.outputEvidenceRefs.all ledger.valid = false) do
    session.commitChange (fun plan => transition plan prior.nodeId .stale
      { attemptId := prior.attemptId, failure := some "patch_changed_source_version" })
    session.emit "node_stale"
      [("node_id", .str prior.nodeId), ("reason", .str "patch_changed_source_version")]

def staleReads : SessionM Unit := do
  let plan <- requirePlan
  plan.nodes.forM session.staleRead

/-- An attempt that waits for an approval stays open. -/
def pauseAttempt (attempt : Attempt) : SessionM String := do
  write (.attempt { attempt with waitingApproval := some true })
  session.emit "node_waiting_approval"
    [("node_id", .str attempt.nodeId), ("attempt_id", .str attempt.attemptId),
      ("approval_id", .str attempt.result.approvalId)]
  session.checkpoint
  pure "waiting_approval"

/-- The node is moved to the status that its attempt ends with. -/
def closeNode (node : PlanNode) (attempt : Attempt) (operations : List Operation) (ledger : Ledger)
    (status : NodeStatus) : SessionM Unit :=
  whenever (node.status ≠ status) do
    let receipts <- ofExcept (receiptRefs operations)
    let now <- time
    session.commitChange (settledPlan ledger attempt status receipts now)

def settle (attempt : Attempt) : SessionM String := do
  check "execution_allowed"
  let plan <- requirePlan
  let node <- ofExcept (plan.node attempt.nodeId)
  refuseIf (attempt.planVersion ≠ plan.planVersion ∨ node.attemptId ≠ attempt.attemptId)
    "late_attempt_result"
  let operations <- operationsOf attempt.attemptId
  if attempt.result.status = "waiting_approval" ∧ operations.any Operation.unknown = false then
    session.pauseAttempt attempt
  else do
    let ledger <- evidence
    let status := judgement ledger node attempt operations
    session.closeNode node attempt operations ledger status
    cut "reducer_saved"
    write (.attempt (attempt.reconciled status.text))
    check "transition_resource"
    cut "reconciled"
    whenever (status = .succeeded ∧ node.kind = .edit) session.staleReads
    session.refresh
    let _ <- session.persistLongTaskState
    session.emit ("node_" ++ status.text)
      [("node_id", .str node.nodeId), ("attempt_id", .str attempt.attemptId),
        ("evidence_refs", texts attempt.result.evidenceRefs)]
    session.checkpoint
    pure status.text

/-- `replan`, with one reading of the evidence and of the workspace. -/
def replan (candidate : Plan) (reason : String) (evidenceRefs : List String) : SessionM Plan := do
  check "execution_allowed"
  let old <- requirePlan
  let journal <- Program.journal
  let ledger <- evidence
  let workspace <- snapshotWorkspace
  let facts : ReplanFacts :=
    { attempts := latest Attempt.attemptId (Journal.attempts journal),
      rollbacks := Journal.rollbacks journal, ledger := ledger, workspace := workspace }
  let after <- ofExcept
    (replanned facts session.registry session.identity old candidate reason evidenceRefs)
  session.commit after
  let triggered := if verificationPrefix.toList.isPrefixOf reason.toList then
      String.ofList (reason.toList.drop verificationPrefix.toList.length) else ""
  session.emit "replan_committed"
    [("reason", .str reason), ("trigger_ref", .str triggered), ("evidence_refs", texts evidenceRefs),
      ("parent_plan_checksum", .str old.planChecksum)]
  session.checkpoint
  pure after

end Decoded

end Sealing

end PlanSession

end PlanRuntime
end FixLoop
