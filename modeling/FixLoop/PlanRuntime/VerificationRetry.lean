import FixLoop.PlanRuntime.Execution
import FixLoop.RepairLoop.Verification

namespace FixLoop
namespace PlanRuntime

open Library Program

/-!
# The retry after a failed verification

`_retry_from_verification` of the plan binding, with what it calls: it names
the failure by a trigger, decides whether the plan is replaced, records a
request, lets the planner propose a new graph, and records how the request
ended.  `_reconcile_replans` looks at the requests that a crash has left open.
-/

inductive RequestStatus where
  | started
  | rejected
  | committed
deriving DecidableEq

def RequestStatus.text : RequestStatus -> String
  | started => "started"
  | rejected => "rejected"
  | committed => "committed"

def RequestStatus.ofText? (text : String) : Option RequestStatus :=
  [started, rejected, committed].find? fun status => status.text = text

/-- A record of the kind `replan_request`. -/
structure ReplanRequest where
  triggerRef : String
  planVersion : Int
  planChecksum : String
  status : RequestStatus
  committedVersion : Option Int
  reason : Option String

namespace ReplanRequest

def toDict (request : ReplanRequest) : Json :=
  .obj ([("trigger_ref", .str request.triggerRef), ("plan_version", .int request.planVersion),
    ("plan_checksum", .str request.planChecksum), ("status", .str request.status.text)] ++
    (request.committedVersion.map fun version => ("committed_version", Json.int version)).toList ++
    (request.reason.map fun reason => ("reason", Json.str reason)).toList)

/-- The record as it is read back. -/
def ofDict? (dict : Json) : Option ReplanRequest := do
  let triggerRef <- (dict.get? "trigger_ref").bind Json.str?
  let planVersion <- (dict.get? "plan_version").bind Json.int?
  let planChecksum <- (dict.get? "plan_checksum").bind Json.str?
  let status <- ((dict.get? "status").bind Json.str?).bind RequestStatus.ofText?
  pure ⟨triggerRef, planVersion, planChecksum, status, (dict.get? "committed_version").bind Json.int?,
    (dict.get? "reason").bind Json.str?⟩

def entry (request : ReplanRequest) : Entry := .other "replan_request" request.toDict

theorem ofDict?_toDict (request : ReplanRequest) : ofDict? request.toDict = some request := by
  rcases request with ⟨triggerRef, planVersion, planChecksum, status, committedVersion, reason⟩
  have read : RequestStatus.ofText? status.text = some status := by
    cases status with
    | _ => rfl
  cases committedVersion with
  | none | some version =>
    cases reason with
    | none | some reason => simp [ofDict?, toDict, Json.get?, Json.str?, Json.int?, read]

end ReplanRequest

/-- The request that an event records. -/
def Entry.request? : Entry -> Option ReplanRequest
  | other kind payload => if kind = "replan_request" then ReplanRequest.ofDict? payload else none
  | _ => none

namespace Journal

def requests (journal : Journal) : List ReplanRequest := journal.filterMap Entry.request?

/-- `latest("replan_request", "trigger_ref")`. -/
def lastRequests (journal : Journal) : List ReplanRequest :=
  latest ReplanRequest.triggerRef journal.requests

/-- The commit of a replan for the trigger has been traced. -/
def traced (journal : Journal) (triggerRef : String) : Bool :=
  journal.any (fun entry =>
    match entry with
    | .trace event payload =>
      event == "replan_committed" && member? "trigger_ref" payload == some triggerRef
    | _ => false)

end Journal

/-- The reason that a plan carries for a trigger. -/
def verificationReason (triggerRef : String) : String := verificationPrefix ++ triggerRef

/-- The plan is the one that a request asked for. -/
def ReplanRequest.answeredBy (request : ReplanRequest) (plan : Plan) : Bool :=
  plan.planVersion = request.planVersion + 1 && plan.parentPlanChecksum = request.planChecksum &&
    plan.replanReason = verificationReason request.triggerRef

/-- A record of the evidence ledger about a run of the tests. -/
structure EvidenceRecord where
  kind : String
  attemptId : String
  executionStopped : Bool
  receipt : Json

/-- A tool call of a child agent that rereads a source. -/
inductive ChildCall where
  | refused (errorCode : String)
  | ran (result : ToolResult)

/-- What the planner gives for a graph.  A rejected proposal is one that fails
the planner's own checks, and any other fault passes through. -/
inductive Generation where
  | proposed (nodes : List PlanNode) (conclusion : String)
  | rejected (reason : String)
  | raised (fault : Fault)

/-- What a retry reads apart from the journal and the ledger. -/
structure RetryReading where
  record : String -> Option EvidenceRecord
  verificationResult : Except Fault RepairLoop.VerificationResult
  retryAllowed : Bool
  reread : String -> ChildCall
  generation : Generation

/-- What `_verification_trigger` returns.  The versions of the failed files go
into the prompt only. -/
structure VerificationFailure where
  triggerRef : String
  result : Option RepairLoop.VerificationResult
  receipt : Json
  evidenceRef : String

def VerificationFailure.absent : VerificationFailure := ⟨"", none, .obj [], ""⟩

/-- `_kind`. -/
def Plan.ofKind (plan : Plan) (kind : NodeKind) : Except Fault PlanNode :=
  match plan.nodes.find? (fun node => node.kind = kind) with
  | some node => .ok node
  | none => .error "StopIteration"

/-- The record belongs to the failed attempt, and its execution has stopped. -/
def EvidenceRecord.confirms (record : EvidenceRecord) (identity : Identity) (plan : Plan)
    (node : PlanNode) (attempt : Attempt) : Bool :=
  record.kind = "tests_passed" && record.attemptId = node.attemptId &&
    member? "attempt_id" record.receipt = some node.attemptId &&
    member? "run_id" record.receipt = some identity.runId && record.executionStopped &&
    attempt.planVersion = plan.planVersion && attempt.phase = .reconciled

/-- The files of the source whose reading is recorded and current. -/
def sourceRefs (ledger : Ledger) (operations : List Operation) : List String :=
  ((((operations.filter (fun operation => operation.effect = .read &&
      operation.phase = .resultRecorded && operation.executionStopped)).flatMap
        Operation.evidenceRefs).dedup.insertionSort fun left right => left ≤ right).filter
          (fun ref => ledger.kind ref == some "observation_present" && ledger.valid ref))

/-! ## The decision -/

inductive ReplanAction where
  | keepPlan
  | block
  | stop
  | needsEvidence
  | replan
deriving DecidableEq

def ReplanAction.text : ReplanAction -> String
  | keepPlan => "keep_plan"
  | block => "block"
  | stop => "stop"
  | needsEvidence => "needs_evidence"
  | replan => "replan"

structure ReplanDecision where
  action : ReplanAction
  reason : String
  triggerRef : String
  planId : String
  planVersion : Int
  stateRevision : Int
  evidenceRefs : List String

def ReplanDecision.members (decision : ReplanDecision) : List (String × Json) :=
  [("action", .str decision.action.text), ("reason", .str decision.reason),
    ("trigger_ref", .str decision.triggerRef), ("plan_id", .str decision.planId),
    ("plan_version", .int decision.planVersion), ("state_revision", .int decision.stateRevision),
    ("evidence_refs", texts decision.evidenceRefs)]

def bucketText : RepairLoop.VerifyBucket -> String
  | .env => "env"
  | .collect => "collect"
  | .logic => "logic"
  | .unknown => "unknown"

/-- The facts besides the plan on which a retry is decided. -/
structure RetryFacts where
  failure : VerificationFailure
  evidenceRefs : List String
  safetyReason : String
  stopReason : String
  retryAllowed : Bool

section Deciding

variable [RepairLoop.Texts]

/-- What `decide_replan` makes of a failed verification. -/
def judgeFailure (facts : RetryFacts) (result : RepairLoop.VerificationResult) :
    ReplanAction × String :=
  let bucket := (RepairLoop.diagnoseVerification (some result)).1
  if facts.failure.triggerRef = "" ∨
      isTrue ((facts.failure.receipt.get? "completed").getD .null) = false ∨
      ((facts.failure.receipt.get? "command").getD .null).truthy = false then
    (.block, "verification_receipt_unconfirmed")
  else if result.totalTests ≤ 0 then (.keepPlan, "verification_empty_collection")
  else if bucket ≠ .logic then (.keepPlan, "verification_" ++ bucketText bucket)
  else if facts.retryAllowed = false then (.stop, "orchestrator_retry_not_allowed")
  else if facts.evidenceRefs = [] then (.needsEvidence, "fresh_repository_evidence_required")
  else (.replan, "confirmed_code_verification_failure")

def judgeReplan (plan : Plan) (facts : RetryFacts) : ReplanAction × String :=
  if facts.safetyReason ≠ "" ∨ plan.quiescent = false then
    (.block, if facts.safetyReason = "" then "replan_requires_quiescence" else facts.safetyReason)
  else if facts.stopReason ≠ "" ∨ maxReplans < plan.planVersion then
    (.stop, if facts.stopReason = "" then "replan_budget_exceeded" else facts.stopReason)
  else
    match facts.failure.result.filter (fun result => !result.allPassed) with
    | none => (.keepPlan, "no_confirmed_code_verification_failure")
    | some result => judgeFailure facts result

def decideReplan (plan : Plan) (facts : RetryFacts) : ReplanDecision :=
  let judged := judgeReplan plan facts
  { action := judged.1, reason := judged.2, triggerRef := facts.failure.triggerRef,
    planId := plan.planId, planVersion := plan.planVersion, stateRevision := plan.stateRevision,
    evidenceRefs := facts.evidenceRefs }

end Deciding

/-- The node under the name that it has in the plan of the version. -/
def PlanNode.renamed (version : Int) (node : PlanNode) : PlanNode :=
  { node with
    nodeId := node.nodeId ++ "-v" ++ toString version,
    dependsOn := node.dependsOn.map (fun nodeId => nodeId ++ "-v" ++ toString version) }

namespace PlanSession

variable (session : PlanSession)

/-- `plan_view`, of which the plan itself stands for the copy. -/
def planView [Hashing] : SessionM Plan := do
  let held <- currentPlan
  match held with
  | none => .fail "plan_view_not_created"
  | some plan => do
      refuseIf (plan.verify = false) "plan_view_checksum_invalid"
      pure plan

/-- `check_replan` on the session; the exception is handed on. -/
def preflight : SessionM (Except Fault Unit) := do
  check "execution_allowed"
  let old <- requirePlan
  let journal <- Program.journal
  let ledger <- evidence
  let workspace <- snapshotWorkspace
  pure (checkReplan
    { attempts := latest Attempt.attemptId (Journal.attempts journal),
      rollbacks := Journal.rollbacks journal, ledger := ledger, workspace := workspace } old)

/-- `_replan_safety_reason`.  Cancellation, the tool context and the resources
of the run are asked for at once. -/
def replanSafetyReason : SessionM String :=
  .ask (.check "replan_safety") (fun reply =>
    match reply with
    | some reason => .halt reason
    | none => do
        let checked <- preflight
        match checked with
        | .error reason => pure (if reason = "replan_budget_exceeded" then "" else reason)
        | .ok _ => pure "")

/-- The reason to stop that the deadline, the budgets and the stop loss give. -/
def stopReason : SessionM String :=
  .ask (.check "replan_stop") fun reply => .halt (reply.getD "")

def freshSourceRefs : SessionM (List String) := do
  let journal <- Program.journal
  let ledger <- evidence
  pure (sourceRefs ledger (latest Operation.operationId (Journal.operations journal)))

section Sealing

variable [Hashing]

/-- The name of a failure. -/
def triggerOf (planVersion : Int) (attemptId ref : String) : String :=
  Hashing.digest (.arr [.str session.identity.runId, .int planVersion, .str attemptId, .str ref])

def verificationTrigger (reading : RetryReading) : SessionM VerificationFailure := do
  let plan <- requirePlan
  let node <- ofExcept (plan.ofKind .verify)
  let journal <- Program.journal
  match (attemptNamed journal node.attemptId).filter
      (fun attempt => node.status = .failed && attempt.result.status = "failed") with
  | none => pure .absent
  | some attempt =>
    match attempt.result.evidenceRefs.findSome? (fun ref =>
        ((reading.record ref).filter (fun record =>
          record.confirms session.identity plan node attempt)).map fun record => (ref, record)) with
    | none => .fail "verification_failure_receipt_missing"
    | some (ref, record) => do
        let result <- ofExcept reading.verificationResult
        pure ⟨session.triggerOf plan.planVersion node.attemptId ref, some result, record.receipt, ref⟩

/-- What `_reconcile_replans` does with one of the last requests. -/
def reconcileRequest (events : Journal) (request : ReplanRequest) : SessionM Unit :=
  if request.status ≠ .started then pure ()
  else
    match (Journal.plans events).find? request.answeredBy with
    | none => .fail "replan_attempt_outcome_unconfirmed"
    | some committed => do
        write { request with
          status := .committed, committedVersion := some committed.planVersion : ReplanRequest }.entry
        whenever (Journal.traced events request.triggerRef = false)
          (session.emit "replan_committed"
            [("trigger_ref", .str request.triggerRef), ("reason", .str "recovered_durable_commit")])

def reconcileReplans : SessionM Unit := do
  let events <- Program.journal
  (Journal.lastRequests events).forM (session.reconcileRequest events)

section Decoded

variable [Decoding]

def isolatedRead (attempt : Attempt) (node : PlanNode) (arguments : Json) :
    ChildCall -> SessionM NodeResult
  | .refused errorCode => do
      let operations <- operationsOf attempt.attemptId
      let ledger <- evidence
      pure { toolResult ledger attempt operations with
        status := "failed", approvalId := "", reason := some errorCode }
  | .ran result => do
      let prepared <- session.toolPrepare attempt node.toolName arguments none
      match prepared with
      | none => do
          let operations <- operationsOf attempt.attemptId
          let ledger <- evidence
          pure { toolResult ledger attempt operations with
            status := "failed", approvalId := "", reason := some "policy_denied" }
      | some operation => do
          toolDispatch attempt operation
          let settled <- session.toolSettle operation arguments result
          let operations <- operationsOf attempt.attemptId
          let ledger <- evidence
          let found := toolResult ledger attempt operations
          pure (if settled.ok then found
            else { found with status := "failed", approvalId := "", reason := some settled.errorCode })

/-- `invoke` with the callback of a reread. -/
def invokeRead (attempt : Attempt) (node : PlanNode) (arguments : Json) (call : ChildCall) :
    SessionM Attempt := do
  check "transition_resource"
  let result <- session.isolatedRead attempt node arguments call
  recordResult attempt result

/-- `run_node` for a reread.  A fault of the callback leaves the result
uncertain. -/
def runRead (node : PlanNode) (arguments : Json) (call : ChildCall) : SessionM Unit := do
  let attempt <- session.runNode node.nodeId
  let ended <- (session.invokeRead attempt node arguments call).caught
  let recorded <- (match ended with
    | .ok recorded => pure recorded
    | .error fault => recordResult attempt
        { NodeResult.none with status := "uncertain", reason := some fault })
  let _ <- session.settle recorded

/-- One turn of the loop of `_refresh_replan_evidence`. -/
def rereadNode (reading : RetryReading) (node : PlanNode) : SessionM Unit :=
  whenever (node.kind = .explore ∧ node.status ∈ [.stale, .succeeded, .ready]) do
    check "read_budget"
    whenever (node.status = .succeeded) (session.commitChange (fun plan =>
      transition plan node.nodeId .stale
        { attemptId := node.attemptId, failure := some "replan_source_refresh" }))
    let plan <- requirePlan
    let current <- ofExcept (plan.node node.nodeId)
    whenever (current.status = .stale) (session.commitChange (fun plan =>
      transition plan node.nodeId .ready { attemptId := node.attemptId }))
    match Decoding.loads node.argumentsJson with
    | none => .fail "JSONDecodeError"
    | some arguments => session.runRead node arguments (reading.reread node.nodeId)

def refreshReplanEvidence (reading : RetryReading) : SessionM Unit := do
  let plan <- requirePlan
  plan.nodes.forM (session.rereadNode reading)

/-! ## The new graph -/

/-- A plan on which nothing has been executed. -/
def plannedOn (planId : String) (nodes : List PlanNode) (createdAt : ℚ) : Plan :=
  { planId := planId, taskId := session.identity.taskId, runId := session.identity.runId,
    workspaceId := session.identity.workspaceId, sessionId := session.identity.sessionId,
    nodes := nodes, schemaVersion := "1", planVersion := 1, stateRevision := 0,
    createdAt := createdAt, status := .active, planChecksum := "", parentPlanChecksum := "",
    replanReason := "", replanEvidenceRefs := [] : Plan }.sealed

/-- `grounded_plan` for a replan. -/
def groundedPlan (planId : String) (evidenceRefs : List String) : Generation -> SessionM Plan
  | .raised fault => .fail fault
  | .rejected reason => do
      session.emit "plan_candidate_rejected" [("reason", .str reason)]
      .fail ("replan_candidate_rejected: " ++ reason)
  | .proposed nodes conclusion => do
      let now <- time
      let plan := session.plannedOn planId nodes now
      ofExcept (validatePlan plan session.registry session.identity)
      let held <- currentPlan
      write (.other "planning" (.obj
        [("plan_version", .int ((held.map fun plan => plan.planVersion + 1).getD 1)),
          ("conclusion", .str conclusion), ("evidence_refs", texts evidenceRefs)]))
      pure plan

def beforeCommit (request : ReplanRequest) : SessionM Unit := do
  let reason <- replanSafetyReason
  refuseIf (reason ≠ "") reason
  let plan <- requirePlan
  refuseIf (plan.planChecksum ≠ request.planChecksum) "replan_source_plan_changed"
  check "stop_loss"
  check "plan_generation_deadline_exceeded"

/-- `retry_plan` up to the replan: the candidate under new names. -/
def retryCandidate (request : ReplanRequest) (evidenceRefs : List String) (generation : Generation) :
    SessionM Plan := do
  let checked <- preflight
  ofExcept checked
  let plan <- requirePlan
  let candidate <- session.groundedPlan plan.planId evidenceRefs generation
  let plan <- requirePlan
  let fresh := candidate.nodes.map (PlanNode.renamed (plan.planVersion + 1))
  let ledger <- evidence
  refuseIf (evidenceRefs.all ledger.valid = false) "replan_source_evidence_became_stale"
  beforeCommit request
  pure { candidate with nodes := fresh : Plan }.sealed

def retryPlan (request : ReplanRequest) (evidenceRefs : List String) (generation : Generation) :
    SessionM Unit := do
  let candidate <- session.retryCandidate request evidenceRefs generation
  let _ <- session.replan candidate (verificationReason request.triggerRef) evidenceRefs

/-- What the handler does before it raises again. -/
def abandonReplan (request : ReplanRequest) (fault : Fault) : SessionM Unit := do
  let plan <- requirePlan
  if plan.planVersion ≠ request.planVersion then session.reconcileReplans
  else do
    let reason := String.ofList (fault.toList.take 200)
    write { request with status := .rejected, reason := some reason : ReplanRequest }.entry
    session.emit "replan_rejected"
      [("trigger_ref", .str request.triggerRef), ("reason", .str reason)]

/-- `_retry_from_verification` from its `try` on, with how the call ends. -/
def submitReplan (request : ReplanRequest) (evidenceRefs : List String) (generation : Generation) :
    SessionM (Except Fault Unit) := do
  let ended <- (session.retryPlan request evidenceRefs generation).caught
  match ended with
  | .ok _ => do
      let plan <- requirePlan
      write { request with
        status := .committed, committedVersion := some plan.planVersion : ReplanRequest }.entry
      pure (.ok ())
  | .error fault => do
      session.abandonReplan request fault
      pure (.error fault)

/-- The part between the decision and the `try`. -/
def requestReplan (failure : VerificationFailure) : SessionM ReplanRequest := do
  let checked <- preflight
  ofExcept checked
  let view <- planView
  let _ <- ofExcept (view.ofKind .verify)
  let _ <- snapshotWorkspace
  let plan <- requirePlan
  let request : ReplanRequest :=
    { triggerRef := failure.triggerRef, planVersion := plan.planVersion,
      planChecksum := plan.planChecksum, status := .started, committedVersion := none, reason := none }
  write request.entry
  cut "replan_requested"
  session.emit "replan_started" [("trigger_ref", .str failure.triggerRef)]
  pure request

section Deciding

variable [RepairLoop.Texts]

/-- `evaluate`. -/
def evaluateReplan (facts : RetryFacts) : SessionM ReplanDecision := do
  let view <- planView
  let decision := decideReplan view facts
  session.emit "replan_decided" decision.members
  pure decision

/-- The decision, made again where the sources have to be read first. -/
def decideRetry (reading : RetryReading) (failure : VerificationFailure) :
    SessionM ReplanDecision := do
  let safety <- replanSafetyReason
  let stop <- stopReason
  let refs <- freshSourceRefs
  let decision <- session.evaluateReplan ⟨failure, refs, safety, stop, reading.retryAllowed⟩
  if decision.action = .needsEvidence then do
    session.refreshReplanEvidence reading
    let refs <- freshSourceRefs
    let safety <- replanSafetyReason
    session.evaluateReplan ⟨failure, refs, safety, stop, reading.retryAllowed⟩
  else pure decision

/-- `_retry_from_verification`.  The exceptions that its own statements raise
are handed on as the end of the call; those of its callees cut it short. -/
def retryFromVerification (reading : RetryReading) : SessionM (Except Fault Unit) := do
  session.reconcileReplans
  let failure <- session.verificationTrigger reading
  let journal <- Program.journal
  match (Journal.lastRequests journal).find?
      (fun request => request.triggerRef = failure.triggerRef) with
  | some handled => pure (.error ("replan_trigger_already_processed:" ++ handled.status.text))
  | none => do
      let decision <- session.decideRetry reading failure
      if decision.action ≠ .replan then
        pure (.error ("replan_" ++ decision.action.text ++ ":" ++ decision.reason))
      else do
        let request <- session.requestReplan failure
        session.submitReplan request decision.evidenceRefs reading.generation

end Deciding

end Decoded

end Sealing

end PlanSession

end PlanRuntime
end FixLoop
