import FixLoop.Library.JournalProgram
import FixLoop.PlanRuntime.History
import FixLoop.PlanRuntime.Reducer

namespace FixLoop
namespace PlanRuntime

open Library Program

/-!
# The plan session

The methods of `session.py` as programs over the journal.  The plan that a
session holds is the one it saved last, so a method that uses it reads the
journal.  Everything else that a method consults is a question: the workspace,
the evidence ledger, fresh identifiers, the clock, processes, the state of the
long task, and every check that may raise an exception, among them the calls
of the run coordination store and the faults injected at the cuts.
-/

inductive Query where
  | check (point : String)
  | snapshotWorkspace
  | evidence
  | uuid
  | process (pid : Int)
  | ownProcess
  | stoppedProbe (attempt : Attempt)
  | time
  | longTaskState
  | coordinationSeal
  | observation (tool : String)

abbrev Query.Reply : Query -> Type
  | check _ => Option Fault
  | snapshotWorkspace => Except Fault Snapshot
  | evidence => Ledger
  | uuid => String
  | process _ => Option Json
  | ownProcess => Json
  | stoppedProbe _ => Bool
  | time => ℚ
  | longTaskState => LongTaskState
  | coordinationSeal => Except Fault (Option Json)
  | observation _ => Except Fault String

abbrev SessionM := Program Entry Query Query.Reply Fault

/-- Raise the exception if the check fails. -/
def check (point : String) : SessionM Unit :=
  .ask (.check point) (fun reply =>
    match reply with
    | some fault => .fail fault
    | none => .halt ())

/-- Raise the exception if the condition holds. -/
def refuseIf (condition : Prop) [Decidable condition] (fault : Fault) : SessionM Unit :=
  ofExcept (raiseIf condition fault)

def whenever (condition : Prop) [Decidable condition] (program : SessionM Unit) : SessionM Unit :=
  if condition then program else pure ()

def checkIf (condition : Prop) [Decidable condition] (point : String) : SessionM Unit :=
  whenever condition (check point)

def snapshotWorkspace : SessionM Snapshot := .ask .snapshotWorkspace ofExcept

def evidence : SessionM Ledger := question Query.evidence

def newId (stem : String) : SessionM String :=
  .ask .uuid fun random => .halt (stem ++ "-" ++ random)

def time : SessionM ℚ := question Query.time

def longTaskState : SessionM LongTaskState := question Query.longTaskState

/-- The last record of an attempt. -/
def attemptNamed (journal : Journal) (attemptId : String) : Option Attempt :=
  (latest Attempt.attemptId journal.attempts).find? fun attempt => attempt.attemptId = attemptId

/-- What a session is opened with. -/
structure PlanSession where
  registry : Registry
  identity : Identity

def currentPlan : SessionM (Option Plan) := .read fun journal => .halt (Journal.plan? journal)

/-- The plan of the session where the source uses it without a test. -/
def requirePlan : SessionM Plan :=
  .read (fun journal =>
    match Journal.plan? journal with
    | some plan => .halt plan
    | none => .fail "AttributeError")

def operationsOf (attemptId : String) : SessionM (List Operation) :=
  .read fun journal => .halt (Journal.operationsOf journal attemptId)

def cut (point : String) : SessionM Unit := do
  check "execution_allowed"
  check point

def savePlan [Hashing] (plan : Plan) : SessionM Unit := do
  refuseIf (plan.verify = false) "plan_checksum_invalid"
  write (.plan plan)

namespace PlanSession

variable (session : PlanSession)

def emit (event : String) (payload : List (String × Json)) : SessionM Unit := do
  let plan <- currentPlan
  let body := session.identity.toDict.merge (.obj
    [("plan_id", .str ((plan.map Plan.planId).getD "")),
      ("plan_version", .int ((plan.map Plan.planVersion).getD 0)),
      ("state_revision", .int ((plan.map Plan.stateRevision).getD 0))])
  write (.trace event (body.merge (.obj payload)))
  check "event_sink"

def recordResult (attempt : Attempt) (result : NodeResult) : SessionM Attempt := do
  check "execution_allowed"
  let after <- snapshotWorkspace
  let raw := { attempt with phase := .resultRecorded, workspaceAfter := after, result := result }
  write (.attempt raw)
  cut "result_recorded"
  pure raw

section Sealing

variable [Hashing]

/-- `_persist_long_task_state`, with the state that is persisted. -/
def persistLongTaskState : SessionM LongTaskState := do
  check "context_commit_pending"
  let state <- longTaskState
  write (.longTaskState (.ofState state (some session.identity.sessionId)))
  pure state

def checkpoint : SessionM Unit := do
  check "execution_allowed"
  cut "before_checkpoint"
  let state <- session.persistLongTaskState
  let coordination <- .ask .coordinationSeal ofExcept
  let journal <- Program.journal
  write (.checkpoint
    (checkpointSeal session.identity journal (Journal.plan? journal) state coordination))
  cut "checkpoint_saved"

section Decoded

variable [Decoding]

def commit (plan : Plan) : SessionM Unit := do
  check "context_commit_resolved"
  check "execution_allowed"
  ofExcept (validatePlan plan session.registry session.identity)
  savePlan plan
  cut "plan_saved"

def commitChange (change : Plan -> Except Fault Plan) : SessionM Unit := do
  let plan <- requirePlan
  let after <- ofExcept (change plan)
  session.commit after

/-- An empty journal is given its identity, and any other one has to carry it. -/
def openJournal : SessionM Unit := do
  let journal <- Program.journal
  match journal with
  | [] => write (.identity session.identity)
  | .identity identity :: _ => refuseIf (identity ≠ session.identity) "resume_identity_mismatch"
  | _ :: _ => .fail "resume_identity_mismatch"

/-- The plan that was saved last is checked. -/
def loadPlan : SessionM Unit := do
  let plan <- currentPlan
  match plan with
  | some plan => do
      refuseIf (plan.verify = false) "plan_checksum_invalid"
      ofExcept (validatePlan plan session.registry session.identity)
  | none => pure ()

def openSession : SessionM Unit := do
  session.openJournal
  session.loadPlan
  check "long_task_state"
  check "context_provenance"

/-- What makes a plan one that claims no execution. -/
def unexecuted (node : PlanNode) : Bool :=
  node.status = .pending && node.attemptId = "" && node.outputEvidenceRefs = [] &&
    node.receiptRefs = []

def create (plan : Plan) : SessionM Unit := do
  let current <- currentPlan
  refuseIf (current.isSome = true) "plan_already_created"
  refuseIf (plan.nodes.all unexecuted = false) "initial_plan_cannot_claim_execution"
  session.commit plan
  session.emit "plan_created" [("nodes", texts (plan.nodes.map PlanNode.nodeId))]
  session.checkpoint

/-- The event for a node whose status has changed. -/
def emitChange (old : Plan) (node : PlanNode) : SessionM Unit := do
  let before <- ofExcept (old.node node.nodeId)
  whenever (node.status ≠ before.status)
    (session.emit ("node_" ++ node.status.text)
      [("node_id", .str node.nodeId), ("reason", .str node.failure)])

def refresh : SessionM Unit := do
  let old <- requirePlan
  let ledger <- evidence
  let candidate <- ofExcept (PlanRuntime.refresh ledger old)
  whenever (candidate.planChecksum ≠ old.planChecksum) do
    session.commit candidate
    candidate.nodes.forM (session.emitChange old)

/-- The running nodes forbid another one. -/
def executionConflict (node : PlanNode) (running : List PlanNode) : Bool :=
  !running.isEmpty && (node.kind ≠ .explore || decide (2 ≤ running.length) ||
    running.any fun other => other.kind ≠ .explore)

def prepare (nodeId : String) : SessionM Attempt := do
  check "execution_allowed"
  check "context_commit_resolved"
  session.refresh
  let plan <- requirePlan
  let node <- ofExcept (plan.node nodeId)
  checkIf (node.kind ∈ [.edit, .verify]) "extraction_resolved"
  refuseIf (node.status ≠ .ready ∨ plan.nodes.any (fun other => other.status = .uncertain) = true)
    "node_not_ready_or_workspace_uncertain"
  refuseIf (executionConflict node
      (plan.nodes.filter fun other => other.status = .running) = true)
    "node_execution_conflict"
  checkIf (node.kind ≠ .explore) "owner_thread"
  let attemptId <- newId "attempt"
  let before <- snapshotWorkspace
  let key <- newId "dispatch"
  let owner <- question Query.ownProcess
  let attempt : Attempt :=
    { attemptId := attemptId, planId := plan.planId, planVersion := plan.planVersion,
      nodeId := nodeId, stateRevisionAtDispatch := plan.stateRevision, workspaceBefore := before,
      allowedTools := node.toolAllowlist, idempotencyKey := key, phase := .prepared,
      kind := node.kind, owner := owner, workspaceAfter := [], result := .none,
      terminalStatus := "", waitingApproval := none }
  check "register_resource"
  let _ <- session.persistLongTaskState
  write (.attempt attempt)
  cut "prepared"
  let now <- time
  session.commitChange (fun plan =>
    transition plan nodeId .running { attemptId := attemptId, now := now })
  write (.attempt { attempt with phase := .dispatched })
  cut "dispatched"
  session.emit "node_started" [("node_id", .str nodeId), ("attempt_id", .str attemptId)]
  pure { attempt with phase := .dispatched }

/-- `run_node` up to its callback: a node that waits for an approval goes on
with its attempt, any other one is prepared. -/
def runNode (nodeId : String) : SessionM Attempt := do
  let plan <- requirePlan
  let node <- ofExcept (plan.node nodeId)
  let journal <- Program.journal
  match (attemptNamed journal node.attemptId).filter
      (fun attempt => node.status = .running && attempt.waitingApproval = some true) with
  | some attempt => do
      let current <- snapshotWorkspace
      refuseIf (attempt.workspaceAfter ≠ current) "external_workspace_change_requires_replan"
      pure { attempt with waitingApproval := some false }
  | none => session.prepare nodeId

/-- `preplan_read` up to its callback. -/
def preplanRead (allowedTools : List String) : SessionM Attempt := do
  check "execution_allowed"
  let plan <- currentPlan
  refuseIf (plan.isSome = true) "preplan_after_plan_created"
  let journal <- Program.journal
  refuseIf (4 ≤ ((latest Attempt.attemptId (Journal.attempts journal)).filter
      (fun attempt => attempt.planVersion = 0)).length)
    "preplan_budget_exceeded"
  let attemptId <- newId "attempt"
  let nodeId <- newId "preplan"
  let before <- snapshotWorkspace
  let key <- newId "dispatch"
  let owner <- question Query.ownProcess
  let attempt : Attempt :=
    { attemptId := attemptId, planId := "preplan", planVersion := 0, nodeId := nodeId,
      stateRevisionAtDispatch := 0, workspaceBefore := before, allowedTools := allowedTools,
      idempotencyKey := key, phase := .prepared, kind := .explore, owner := owner,
      workspaceAfter := [], result := .none, terminalStatus := "", waitingApproval := none }
  check "register_resource"
  write (.attempt attempt)
  cut "prepared"
  write (.attempt { attempt with phase := .dispatched })
  cut "dispatched"
  pure { attempt with phase := .dispatched }

end Decoded

/-- `preplan_read` after its callback. -/
def preplanSettle (attempt : Attempt) : SessionM NodeResult := do
  let operations <- operationsOf attempt.attemptId
  refuseIf (operations.any (fun operation => !operation.executionStopped) = true)
    "preplan_execution_uncertain"
  write (.attempt (attempt.reconciled "succeeded"))
  check "transition_resource"
  session.checkpoint
  pure attempt.result

end Sealing

end PlanSession

end PlanRuntime
end FixLoop
