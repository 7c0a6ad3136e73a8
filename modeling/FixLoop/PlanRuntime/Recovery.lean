import FixLoop.PlanRuntime.Execution

namespace FixLoop
namespace PlanRuntime

open Library Program

/-!
# Recovery

`recover` goes through the last record of every attempt that has not been
reconciled.  It adopts a result that is complete, restarts what certainly has
not run or has only read and certainly stopped, keeps what waits for an
approval, and leaves everything else uncertain.  Then it checks the evidence of
the nodes that have succeeded.
-/

def confirmedExited (owner : Json) : SessionM Bool :=
  match owner.get? "generation", (owner.get? "pid").bind Json.int? with
  | none, _ => pure false
  | _, none => pure false
  | some generation, some pid =>
    if generation.same .null = true ∨ generation.same (.str "unknown") = true ∨ pid ≤ 0 then
      pure false
    else do
      let current <- question (Query.process pid)
      pure (match current with
        | none => true
        | some identity =>
          !((identity.get? "generation").getD .null).same (.str "unknown") &&
            !identity.same owner)

/-- The answer of the probe if there is one, and else whether the process that
owned the attempt has exited. -/
def askStopped (probed : Bool) (attempt : Attempt) : SessionM Bool :=
  if probed then question (Query.stoppedProbe attempt) else confirmedExited attempt.owner

/-- An entry of the report for a node that is uncertain. -/
structure UncertainNode where
  nodeId : String
  changed : Option (String × List String)

def UncertainNode.toDict (node : UncertainNode) : Json :=
  match node.changed with
  | none => .str node.nodeId
  | some (attemptId, paths) =>
    .obj [("node_id", .str node.nodeId), ("attempt_id", .str attemptId),
      ("changed_paths", texts paths)]

structure RecoveryReport where
  adopted : List String := []
  restartedRead : List String := []
  rerunVerify : List String := []
  stale : List String := []
  uncertain : List UncertainNode := []
  blocked : List String := []
  resumeRejected : List String := []
  waitingApproval : List String := []

namespace RecoveryReport

def toDict (report : RecoveryReport) : Json :=
  .obj [("adopted", texts report.adopted), ("restarted_read", texts report.restartedRead),
    ("rerun_verify", texts report.rerunVerify), ("stale", texts report.stale),
    ("uncertain", .arr (report.uncertain.map UncertainNode.toDict)),
    ("blocked", texts report.blocked), ("resume_rejected", texts report.resumeRejected),
    ("waiting_approval", texts report.waitingApproval)]

/-- The report with a node that starts anew. -/
def restarted (report : RecoveryReport) (node : PlanNode) : RecoveryReport :=
  if node.kind = .verify then { report with rerunVerify := report.rerunVerify ++ [node.nodeId] }
  else { report with restartedRead := report.restartedRead ++ [node.nodeId] }

def withUncertain (report : RecoveryReport) (nodeId : String)
    (changed : Option (String × List String)) : RecoveryReport :=
  { report with uncertain := report.uncertain ++ [⟨nodeId, changed⟩] }

end RecoveryReport

/-- The tools whose execution ends with the process that runs it. -/
def processBound (tool : String) : Bool := tool ∈ ["read_file", "list_files"]

/-- An attempt that waits for an approval can be resumed. -/
def resumable (attempt : Attempt) (operations : List Operation) (current : Snapshot) : Bool :=
  attempt.waitingApproval = some true && attempt.workspaceAfter = current &&
    operations.getLast?.any (fun last => last.notStarted && last.approvalId ≠ "") &&
    operations.all Operation.settled

/-- The execution of an attempt has stopped, given the answer to `askStopped`. -/
def executionStopped (probed answer : Bool) (node : PlanNode) (attempt : Attempt)
    (operations : List Operation) : Bool :=
  if attempt.phase = .resultRecorded then
    operations.all Operation.settled && attempt.result.status ≠ "uncertain"
  else if probed = false ∧ (node.kind = .verify ∨ operations.any (fun operation =>
      operation.phase = .dispatched && operation.effect = .read && !processBound operation.tool) =
        true) then
    false
  else answer

/-- The same for an attempt that preceded the plan. -/
def preplanStopped (probed answer : Bool) (attempt : Attempt) (operations : List Operation) : Bool :=
  if probed = false ∧ operations.any (fun operation =>
      operation.phase = .dispatched && !processBound operation.tool) = true then false
  else if attempt.phase = .resultRecorded then operations.all Operation.executionStopped
  else answer

namespace PlanSession

variable (session : PlanSession)

section Sealing

variable [Hashing]

/-- `verify_checkpoint` for every seal of the journal. -/
def verifyCheckpoints : SessionM Unit := do
  let journal <- Program.journal
  (Journal.checkpoints journal).forM (fun record =>
    ofExcept (verifyCheckpoint session.identity journal record))

/-- The record with which `recover` closes an attempt that is given up. -/
def giveUp (attempt : Attempt) : SessionM Unit := write (.attempt (attempt.reconciled "cancelled"))

/-- An attempt that preceded the plan. -/
def recoverPreplan (probed : Bool) (report : RecoveryReport) (attempt : Attempt) :
    SessionM RecoveryReport := do
  let operations <- operationsOf attempt.attemptId
  let answer <- askStopped probed attempt
  if attempt.phase = .prepared ∨ preplanStopped probed answer attempt operations = true then do
    giveUp attempt
    pure { report with restartedRead := report.restartedRead ++ [attempt.nodeId] }
  else pure (report.withUncertain attempt.nodeId none)

section Decoded

variable [Decoding]

/-- The node of an attempt goes back to its beginning. -/
def restart (report : RecoveryReport) (node : PlanNode) (attempt : Attempt) (reason : String) :
    SessionM RecoveryReport := do
  session.commitChange (fun plan => restartSafe plan node.nodeId attempt.attemptId reason)
  giveUp attempt
  pure (report.restarted node)

/-- A node that waits is moved to the status of a dispatched one. -/
def startNode (node : PlanNode) (attempt : Attempt) : SessionM Unit := do
  let now <- time
  session.commitChange (fun plan =>
    transition plan node.nodeId .running { attemptId := attempt.attemptId, now := now })

/-- A node that waits is made ready and started for its attempt. -/
def resumeNode (node : PlanNode) (attempt : Attempt) : SessionM Unit := do
  whenever (node.status = .pending)
    (session.commitChange fun plan => transition plan node.nodeId .ready {})
  session.startNode node attempt

/-- A recorded result is settled as it would have been. -/
def adopt (report : RecoveryReport) (node : PlanNode) (attempt : Attempt) :
    SessionM RecoveryReport := do
  whenever (node.status ∈ [.ready, .pending]) (session.resumeNode node attempt)
  let _ <- session.settle attempt
  pure { report with adopted := report.adopted ++ [node.nodeId] }

/-- A running node becomes uncertain. -/
def loseNode (node : PlanNode) (attempt : Attempt) : SessionM Unit := do
  let now <- time
  session.commitChange (fun plan => transition plan node.nodeId .uncertain
    { attemptId := attempt.attemptId, failure := some "write_or_execution_outcome_unconfirmed",
      now := now })

/-- Nothing is known of the outcome of an attempt. -/
def leaveUncertain (report : RecoveryReport) (current : Snapshot) (node : PlanNode)
    (attempt : Attempt) : SessionM RecoveryReport := do
  whenever (node.status = .ready) (session.startNode node attempt)
  whenever (node.status = .running) (session.loseNode node attempt)
  pure (report.withUncertain node.nodeId
    (some (attempt.attemptId, changes attempt.workspaceBefore current)))

/-- A write whose operations are complete and whose evidence is valid has a
result even if none was recorded. -/
def completeWrite (node : PlanNode) (attempt : Attempt) (operations : List Operation)
    (stopped : Bool) : SessionM Attempt :=
  if node.kind = .edit ∧ operations ≠ [] ∧ operations.all Operation.settled = true ∧
      stopped = true then do
    let ledger <- evidence
    let refs := (toolResult ledger attempt operations).evidenceRefs
    if ledger.completion node refs attempt.attemptId = true then
      recordResult attempt { NodeResult.none with status := "success", evidenceRefs := refs }
    else pure attempt
  else pure attempt

/-- An attempt that has been dispatched. -/
def recoverDispatched (probed : Bool) (current : Snapshot) (report : RecoveryReport)
    (node : PlanNode) (attempt : Attempt) (operations : List Operation) :
    SessionM RecoveryReport := do
  let answer <- askStopped probed attempt
  let stopped := executionStopped probed answer node attempt operations
  let attempt <- completeWrite node attempt operations stopped
  let ledger <- evidence
  if attempt.phase = .resultRecorded ∧ stopped = true ∧ (attempt.result.status ≠ "success" ∨
      ledger.completion node attempt.result.evidenceRefs attempt.attemptId = true) then
    session.adopt report node attempt
  else if node.kind ∈ [.explore, .analyze, .verify] ∧ stopped = true then
    session.restart report node attempt "old_execution_stopped"
  else session.leaveUncertain report current node attempt

/-- An attempt of the plan. -/
def recoverPlanned (probed : Bool) (current : Snapshot) (report : RecoveryReport)
    (attempt : Attempt) : SessionM RecoveryReport := do
  let held <- currentPlan
  refuseIf (held.isSome = false) "resume_plan_missing"
  let plan <- requirePlan
  refuseIf (attempt.planId ≠ plan.planId ∨ attempt.planVersion ≠ plan.planVersion)
    "resume_attempt_identity_mismatch"
  let node <- ofExcept (plan.node attempt.nodeId)
  refuseIf (node.attemptId ≠ "" ∧ node.attemptId ≠ attempt.attemptId)
    "resume_attempt_identity_mismatch"
  let operations <- operationsOf attempt.attemptId
  if resumable attempt operations current = true then
    pure { report with waitingApproval := report.waitingApproval ++ [node.nodeId] }
  else if attempt.phase = .prepared ∧ operations = [] then
    session.restart report node attempt "prepared_not_dispatched"
  else session.recoverDispatched probed current report node attempt operations

/-- One turn of the loop of `recover` over the attempts. -/
def recoverAttempt (probed : Bool) (current : Snapshot) (report : RecoveryReport)
    (attempt : Attempt) : SessionM RecoveryReport :=
  if attempt.phase = .reconciled then pure report
  else if attempt.planVersion = 0 then recoverPreplan probed report attempt
  else session.recoverPlanned probed current report attempt

/-- The last rollback of the plan version has restored the workspace. -/
def rolledBack (journal : Journal) (plan : Option Plan) (current : Snapshot) : Bool :=
  ((Journal.rollbacks journal).filter (fun rollback =>
    plan.any fun plan => rollback.planVersion = plan.planVersion)).getLast?.any
      (fun rollback => rollback.confirmed current)

/-- A completed node loses its standing. -/
def retire (node : PlanNode) (status : NodeStatus) : SessionM Unit := do
  let now <- time
  session.commitChange (fun plan => transition plan node.nodeId status
    { attemptId := node.attemptId, failure := some "completed_evidence_no_longer_current",
      now := now })

/-- One turn of the loop of `recover` over the nodes of the plan. -/
def recheckNode (current : Snapshot) (report : RecoveryReport) (node : PlanNode) :
    SessionM RecoveryReport := do
  let ledger <- evidence
  if node.status ≠ .succeeded ∨ node.outputEvidenceRefs.all ledger.valid = true then pure report
  else if node.kind = .edit then do
    let journal <- Program.journal
    if rolledBack journal (Journal.plan? journal) current = true then pure report
    else do
      session.retire node .uncertain
      pure (report.withUncertain node.nodeId none)
  else do
    session.retire node .stale
    pure { report with stale := report.stale ++ [node.nodeId] }

/-- The nodes that end up blocked or uncertain. -/
def finishReport (report : RecoveryReport) (plan : Plan) : RecoveryReport :=
  { report with
    blocked := (plan.nodes.filter fun node => node.status = .blocked).map PlanNode.nodeId,
    uncertain := report.uncertain ++ ((plan.nodes.filter (fun node => node.status = .uncertain &&
      node.nodeId ∉ report.uncertain.map UncertainNode.nodeId)).map
        (fun node => ⟨node.nodeId, none⟩)) }

/-- The part of `recover` about the nodes of the plan. -/
def recheckNodes (current : Snapshot) (report : RecoveryReport) : SessionM RecoveryReport := do
  let held <- currentPlan
  match held with
  | none => pure report
  | some plan => do
      let report <- plan.nodes.foldlM (session.recheckNode current) report
      session.refresh
      let settled <- requirePlan
      pure (finishReport report settled)

/-- `recover`, with or without a probe for attempts that have stopped. -/
def recover (probed : Bool) : SessionM RecoveryReport := do
  let journal <- Program.journal
  ofExcept (validateExecutionHistory session.identity journal)
  session.verifyCheckpoints
  let current <- snapshotWorkspace
  let report <- (latest Attempt.attemptId (Journal.attempts journal)).foldlM
    (session.recoverAttempt probed current) {}
  let report <- session.recheckNodes current report
  session.emit "plan_resume_reconciled" [("report", report.toDict)]
  session.checkpoint
  pure report

end Decoded

end Sealing

end PlanSession

end PlanRuntime
end FixLoop
