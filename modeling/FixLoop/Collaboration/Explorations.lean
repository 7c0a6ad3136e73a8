import FixLoop.Collaboration.Store

namespace FixLoop
namespace Collaboration
namespace Explorations

open Library

/-!
# The exploration store

Every call is one transaction on the rows of `task_records`: `mutate` hands
the stored task to a callback, and stores what the callback made of it unless
it returned `False` or raised.  The progress events are left out.
-/

/-- `payload["exploration"]`. -/
def explorationOf (task : AgentTask) : Except TaskFault Exploration :=
  match task.payload.exploration with
  | some data => .ok data
  | none => .error (.missing "exploration")

/-- `budget["tokens"]`. -/
def tokensOf (task : AgentTask) : Except TaskFault Int :=
  match task.tokenBudget with
  | some tokens => .ok tokens
  | none => .error (.missing "tokens")

def withExploration (data : Exploration) (task : AgentTask) : AgentTask :=
  { task with payload := { task.payload with exploration := some data } }

/-- The explorations among the tasks of a run. -/
def explorations (runId : String) (rows : Table TaskRow) : List Exploration :=
  (rows.values.filter fun row => row.runId == runId).filterMap fun row => row.payload.payload.exploration

def active (data : Exploration) : Bool := data.status ∈ ACTIVE && !data.cleanupConfirmed

/-- What the run has been charged. -/
def charged (runId : String) (rows : Table TaskRow) : Int :=
  ((explorations runId rows).map Exploration.chargedTokens).sum

/-- `data.get("cancel_requested")` as a truth value. -/
def cancelled (data : Exploration) : Bool := data.cancelRequested.getD "" != ""

/-- The checks of `submit_batch` that do not read the store. -/
def validBatch (tasks : List AgentTask) : Except TaskFault String :=
  match tasks with
  | [] => .error (.value "invalid_exploration_batch")
  | first :: rest =>
    if 2 < tasks.length ∨ ¬(tasks.map AgentTask.taskId).Nodup then
      .error (.value "invalid_exploration_batch")
    else if ¬(tasks.map AgentTask.kind).Nodup ∨ rest.any (fun task => task.runId != first.runId) then
      .error (.value "invalid_exploration_batch_identity")
    else if tasks.any (fun task =>
        !task.validate.isEmpty || task.role != "explorer" || !task.dependsOn.isEmpty || task.kind ∉ KINDS) then
      .error (.value "invalid_exploration_task")
    else .ok first.runId

/-- `INSERT INTO task_records` for each task. -/
def insertTasks (rows : Table TaskRow) : List AgentTask -> Except TaskFault (Table TaskRow)
  | [] => .ok rows
  | task :: rest =>
    match rows.lookup task.taskId, task.payload.exploration with
    | some _, _ => .error .integrity
    | none, none => .error (.missing "exploration")
    | none, some _ =>
      insertTasks (rows.insert task.taskId
        { runId := task.runId
          payload := { task with version := 1 }
          version := 1
          status := task.status
          leaseOwner := ""
          leaseExpiresAt := 0 }) rest

def submitBatch (tasks : List AgentTask) (runTokenLimit : Int) (rows : Table TaskRow) :
    Except TaskFault (Table TaskRow) := do
  let runId <- validBatch tasks
  if 2 < ((explorations runId rows).filter active).length + tasks.length then
    .error (.value "exploration_concurrency_limit")
  else do
    let reserved <- tasks.mapM tokensOf
    if runTokenLimit < charged runId rows + reserved.sum then
      .error (.value "exploration_run_budget_exhausted")
    else insertTasks rows tasks

/-! ## Callbacks -/

/-- What a callback makes of a task; nothing, where it returns `False`. -/
abbrev Callback := AgentTask -> Except TaskFault (Option AgentTask)

def released (status : TaskStatus) (task : AgentTask) : AgentTask :=
  { task with status := status, leaseOwner := "", leaseExpiresAt := 0 }

def claim (owner attemptId : String) (checkedAt startedAt : ℚ) : Callback := fun task => do
  let data <- explorationOf task
  if data.status ≠ "queued" ∨ cancelled data then .error (.lease "exploration_not_claimable")
  else if task.deadlineAt ≤ checkedAt then .error (.lease "exploration_deadline_expired")
  else
    .ok (some (withExploration
      { data with
        status := "running"
        attemptId := some attemptId
        leaseGeneration := data.leaseGeneration + 1
        owner := owner
        startedAt := some startedAt
        cleanupConfirmed := false }
      { task with
        status := .running
        attempt := task.attempt + 1
        maxAttempts := max task.maxAttempts (task.attempt + 1)
        leaseOwner := attemptId
        leaseExpiresAt := task.deadlineAt + 5 }))

/-- `data["attempt_id"]`. -/
def attemptOf (data : Exploration) : Except TaskFault String :=
  match data.attemptId with
  | some attemptId => .ok attemptId
  | none => .error (.missing "attempt_id")

/-- The tokens charged for a result: all that are reserved if it does not
say. -/
def charge (tokens : Int) (usage : Usage) : Int :=
  match usage.tokens with
  | none => tokens
  | some used => max 0 used

def finishedReceipt (attemptId : String) (tokens : Int) (usage : Usage) (data : Exploration) : Receipt :=
  { attemptId := attemptId
    leaseGeneration := data.leaseGeneration
    reservedTokens := tokens
    chargedTokens := charge tokens usage
    usageKnown := usage.tokens.isSome
    inputTokens := usage.inputTokens
    outputTokens := usage.outputTokens
    modelTurns := some (usage.modelTurns.getD 3)
    toolCalls := some (usage.toolCalls.getD 4) }

/-- A result that arrives after a cancel request is cancelled. -/
def settledResult (result : ExplorationResult) (data : Exploration) : ExplorationResult :=
  if cancelled data then { result with status := "cancelled" } else result

def finished (attemptId : String) (tokens : Int) (result : ExplorationResult) (resultRef : String)
    (endedAt : ℚ) (data : Exploration) : Exploration :=
  { data with
    chargedTokens := data.chargedTokens + (charge tokens result.usage - tokens)
    reservationSettled := true
    receipts := data.receipts ++ [finishedReceipt attemptId tokens result.usage data]
    status := result.status
    result := some result
    resultRef := some resultRef
    cleanupConfirmed := true
    endedAt := some endedAt }

def finish (claimed : AgentTask) (result : ExplorationResult) (resultRef : String) (endedAt : ℚ) :
    Callback := fun task => do
  let data <- explorationOf task
  let expected <- explorationOf claimed
  if data.status ≠ "running" then .error (.lease "exploration_attempt_fenced")
  else do
    let attemptId <- attemptOf data
    let expectedId <- attemptOf expected
    if attemptId ≠ expectedId ∨ data.leaseGeneration ≠ expected.leaseGeneration then
      .error (.lease "exploration_attempt_fenced")
    else do
      let tokens <- tokensOf task
      .ok (some (withExploration (finished attemptId tokens (settledResult result data) resultRef endedAt data)
        (released
          (if (settledResult result data).status ∈ ["completed", "partial"] then .completed
            else if (settledResult result data).status = "cancelled" then .cancelled
            else .failed) task)))

/-- The receipt of an attempt that ends without a result. -/
def lostReceipt (queued : Bool) (tokens : Int) (data : Exploration) : Receipt :=
  { attemptId := data.attemptId.getD ""
    leaseGeneration := data.leaseGeneration
    reservedTokens := tokens
    chargedTokens := if queued then 0 else tokens
    usageKnown := queued
    modelTurns := some (if queued then 0 else 3)
    toolCalls := some (if queued then 0 else 4) }

/-- The attempt is given up, or its worker is lost. -/
def invalidated (reason : String) (stopped : Bool) (data : Exploration) : Exploration :=
  { data with
    cancelRequested := some reason
    lostAttemptId := some (data.attemptId.getD "")
    leaseGeneration := data.leaseGeneration + 1
    status := if data.status = "queued" ∨ stopped then reason else "worker_lost"
    cleanupConfirmed := data.status = "queued" ∨ stopped }

/-- Settle an open reservation: what was queued costs nothing. -/
def settle (queued : Bool) (tokens : Int) (data : Exploration) : Exploration :=
  { data with
    reservationSettled := true
    chargedTokens := data.chargedTokens + ((if queued then 0 else tokens) - tokens)
    receipts := data.receipts ++ [lostReceipt queued tokens data] }

def invalidate (reason : String) (stopped : Bool) : Callback := fun task => do
  let data <- explorationOf task
  if data.status ∉ ACTIVE then .ok none
  else if data.reservationSettled then
    .ok (some (withExploration (invalidated reason stopped data)
      (released (if data.status = "queued" ∨ stopped then .cancelled else .expired) task)))
  else do
    let tokens <- tokensOf task
    .ok (some (withExploration (settle (data.status = "queued") tokens (invalidated reason stopped data))
      (released (if data.status = "queued" ∨ stopped then .cancelled else .expired) task)))

def confirm (attemptId : String) : Callback := fun task => do
  let data <- explorationOf task
  if data.lostAttemptId ≠ some attemptId then .ok none
  else
    .ok (some (withExploration
      { data with cleanupConfirmed := true, status := data.cancelRequested.getD "cancelled" } task))

/-- The receipt of an attempt that is retried while its reservation is open. -/
def retriedReceipt (attemptId : String) (tokens : Int) (data : Exploration) : Receipt :=
  { attemptId := attemptId
    leaseGeneration := data.leaseGeneration
    reservedTokens := tokens
    chargedTokens := tokens
    usageKnown := false }

def retriedReceipts (tokens : Int) (data : Exploration) : Except TaskFault (List Receipt) :=
  if data.reservationSettled then .ok data.receipts
  else do
    let attemptId <- attemptOf data
    .ok (data.receipts ++ [retriedReceipt attemptId tokens data])

def requeued (versions : String) (tokens : Int) (receipts : List Receipt) (data : Exploration) : Exploration :=
  { data with
    receipts := receipts
    chargedTokens := data.chargedTokens + tokens
    status := "queued"
    leaseGeneration := data.leaseGeneration + 1
    workspaceRevision := versions
    reservationSettled := false
    cleanupConfirmed := false
    cancelRequested := some ""
    result := none }

/-- `stopped` is what the callback of that name answers for the task. -/
def retry (versions : String) (deadlineS : ℚ) (runTokenLimit : Int) (stopped : Bool) (now : ℚ)
    (rows : Table TaskRow) : Callback := fun task => do
  let data <- explorationOf task
  if data.status ∉ ["running", "worker_lost"] then .ok none
  else if stopped = false then .error (.lease "old_exploration_worker_unconfirmed")
  else do
    let tokens <- tokensOf task
    if runTokenLimit < charged task.runId rows + tokens then
      .error (.value "exploration_run_budget_exhausted")
    else do
      let receipts <- retriedReceipts tokens data
      .ok (some (withExploration (requeued versions tokens receipts data)
        (released .ready { task with deadlineAt := now + deadlineS })))

/-! ## Runs -/

def save (savedAt : ℚ) (task : AgentTask) (rows : Table TaskRow) : Table TaskRow :=
  rows.modify task.taskId (TaskRow.holding { task with version := task.version + 1, updatedAt := savedAt })

def mutate (taskId : String) (callback : Callback) (savedAt : ℚ) (rows : Table TaskRow) :
    Except TaskFault (Table TaskRow) :=
  match rows.lookup taskId with
  | none => .error (.missing taskId)
  | some row =>
    match callback row.payload with
    | .error fault => .error fault
    | .ok none => .ok rows
    | .ok (some task) => .ok (save savedAt task rows)

/-- A call with what the clock, the identifiers and the callbacks answer. -/
inductive Call where
  | submitBatch (tasks : List AgentTask) (runTokenLimit : Int)
  | claim (taskId owner attemptId : String) (checkedAt startedAt savedAt : ℚ)
  | finish (claimed : AgentTask) (result : ExplorationResult) (resultRef : String) (endedAt savedAt : ℚ)
  | invalidateWorker (taskId reason : String) (stopped : Bool) (savedAt : ℚ)
  | confirmCleanup (taskId attemptId : String) (savedAt : ℚ)
  | retry (taskId versions : String) (deadlineS : ℚ) (runTokenLimit : Int) (stopped : Bool) (now savedAt : ℚ)

def perform (rows : Table TaskRow) : Call -> Except TaskFault (Table TaskRow)
  | .submitBatch tasks runTokenLimit => submitBatch tasks runTokenLimit rows
  | .claim taskId owner attemptId checkedAt startedAt savedAt =>
    mutate taskId (claim owner attemptId checkedAt startedAt) savedAt rows
  | .finish claimed result resultRef endedAt savedAt =>
    mutate claimed.taskId (finish claimed result resultRef endedAt) savedAt rows
  | .invalidateWorker taskId reason stopped savedAt => mutate taskId (invalidate reason stopped) savedAt rows
  | .confirmCleanup taskId attemptId savedAt => mutate taskId (confirm attemptId) savedAt rows
  | .retry taskId versions deadlineS runTokenLimit stopped now savedAt =>
    mutate taskId (retry versions deadlineS runTokenLimit stopped now rows) savedAt rows

/-- A call that raises is rolled back. -/
def step (rows : Table TaskRow) (call : Call) : Table TaskRow :=
  match perform rows call with
  | .ok after => after
  | .error _ => rows

/-- The explorations of any number of runs, under calls of any callers. -/
def machine : Machine (Table TaskRow) Call := ⟨step⟩

end Explorations
end Collaboration
end FixLoop
