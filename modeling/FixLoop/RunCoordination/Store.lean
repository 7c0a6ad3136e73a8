import Mathlib.Data.List.Sort
import FixLoop.Library.Machine
import FixLoop.RunCoordination.Models

namespace FixLoop
namespace RunCoordination

open Library

/-!
# The transactions of `RunCoordinationStore`

Every method runs in one SQLite transaction, so it is a function from the
database to a reply and the committed database, or to the exception it
raises; an exception rolls the transaction back.  A clock supplies the
successive readings of `time.time()` during one call.
-/

abbrev Transaction (Reply : Type) := Except CoordinationFault (Reply × Database)

/-- Successive readings of the system clock; nothing orders them. -/
abbrev Clock := Nat -> ℚ

/-- The store object of one process, bound to its workspace. -/
structure RunCoordinationStore where
  workspaceId : String
  workspace : String
deriving DecidableEq

namespace Database

def run? (db : Database) (key : RunKey) : Option RunRow := db.runs.lookup key

def resource? (db : Database) (resourceId : String) : Option ResourceRecord :=
  db.resources.lookup resourceId

/-- `UPDATE runs ... WHERE run_key=?`. -/
def putRun (db : Database) (key : RunKey) (row : RunRow) : Database :=
  { db with runs := db.runs.insert key row }

def putResource (db : Database) (resourceId : String) (record : ResourceRecord) : Database :=
  { db with resources := db.resources.insert resourceId record }

/-- `_event`. -/
def addEvent (db : Database) (key : RunKey) (eventType : String) (payload : Json)
    (createdAt : ℚ) : Database :=
  { db with events := db.events ++ [⟨key, eventType, payload, createdAt⟩] }

/-- The order `created_at, resource_id`. -/
def precedes (left right : ResourceRecord) : Prop :=
  left.createdAt < right.createdAt ∨
    (left.createdAt = right.createdAt ∧ left.resourceId ≤ right.resourceId)

instance : DecidableRel precedes := fun _ _ => inferInstanceAs (Decidable (_ ∨ _))

/-- `SELECT * FROM resources WHERE run_key=? ORDER BY created_at,resource_id`. -/
def resourcesOf (db : Database) (key : RunKey) : List ResourceRecord :=
  ((db.resources.entries.map Sigma.snd).filter fun record => record.runKey = key).insertionSort
    precedes

/-- The rows of `finish`'s residue check. -/
def residual (db : Database) (key : RunKey) : List ResourceRecord :=
  (db.resourcesOf key).filter fun record => !record.settled

def eventsOf (db : Database) (key : RunKey) : List EventRow :=
  db.events.filter fun event => event.runKey = key

end Database

namespace RunRow

/-- `coordination_revision=coordination_revision+1`. -/
def touch (row : RunRow) : RunRow :=
  { row with coordinationRevision := row.coordinationRevision + 1 }

/-- The update that clears the owner token and ends the lease. -/
def release (row : RunRow) (status : RunStatus) (terminalStatus : String) (now : ℚ) : RunRow :=
  { row with
    status := status, terminalStatus := terminalStatus, ownerToken := "", leaseExpiresAt := 0,
    coordinationRevision := row.coordinationRevision + 1, updatedAt := now }

end RunRow

/-- The owner fence: token and generation both match the row. -/
def OwnerLease.owns (lease : OwnerLease) (row : RunRow) : Bool :=
  row.ownerToken == lease.ownerToken.hex && row.generation == lease.generation

namespace RunCoordinationStore

def key (store : RunCoordinationStore) (runId : String) : RunKey := ⟨store.workspaceId, runId⟩

def row (store : RunCoordinationStore) (runId : String) (db : Database) :
    Except CoordinationFault RunRow :=
  match db.run? (store.key runId) with
  | some row => .ok row
  | none => .error (.integrity "run_registry_missing")

/-- The opening of every method that takes a lease: read the row, then
compare its token and generation with the lease. -/
def owned {Reply : Type} (store : RunCoordinationStore) (lease : OwnerLease) (db : Database)
    (body : RunRow -> Transaction Reply) : Transaction Reply :=
  match store.row lease.runId db with
  | .error fault => .error fault
  | .ok row => if lease.owns row then body row else .error .stale

/-- What `acquire` reads of `sandbox-lifecycle.json`. -/
inductive SandboxLifecycle where
  | absent
  | unreadable
  | recorded (state : Option String)
deriving DecidableEq

structure AcquireArgs where
  taskId : String
  runId : String
  leaseSeconds : ℚ
  ownerIdentity : Json
  token : Uuid
  lifecycle : SandboxLifecycle
  confirmedExited : Json -> Bool

def leaseFrom (args : AcquireArgs) (workspaceId : String) (generation revision : Nat)
    (expires : ℚ) : OwnerLease :=
  { taskId := args.taskId, runId := args.runId, workspaceId := workspaceId,
    ownerToken := args.token, generation := generation, coordinationRevision := revision,
    leaseExpiresAt := expires, status := .reconciling }

def acquiredPayload (args : AcquireArgs) (generation : Nat) : Json :=
  .obj [("task_id", .str args.taskId), ("run_id", .str args.runId),
    ("generation", .int generation), ("owner_token", .str args.token.hex)]

/-- Another run of the workspace holds an occupying status. -/
def busy (store : RunCoordinationStore) (db : Database) (runId : String) : Bool :=
  db.runs.entries.any (fun entry => entry.2.workspaceId == store.workspaceId &&
    entry.2.status.occupies && !(entry.1 == store.key runId))

/-- The row of a resumed run: a new generation under a new token. -/
def reacquiredRow (args : AcquireArgs) (now expires : ℚ) (row : RunRow) : RunRow :=
  { row with
    taskId := args.taskId, status := .reconciling, generation := row.generation + 1,
    ownerToken := args.token.hex, ownerIdentity := args.ownerIdentity, leaseExpiresAt := expires,
    coordinationRevision := row.coordinationRevision + 1, updatedAt := now }

def freshRow (store : RunCoordinationStore) (args : AcquireArgs) (now expires : ℚ) : RunRow :=
  { taskId := args.taskId, runId := args.runId, workspaceId := store.workspaceId,
    workspace := store.workspace, status := .reconciling, generation := 1,
    ownerToken := args.token.hex, ownerIdentity := args.ownerIdentity, leaseExpiresAt := expires,
    cancelRequestId := "", coordinationRevision := 1, terminalStatus := "", createdAt := now,
    updatedAt := now }

def acquire (store : RunCoordinationStore) (clock : Clock) (args : AcquireArgs) (db : Database) :
    Transaction OwnerLease :=
  let now := clock 0
  let expires := now + max (1 / 10) args.leaseSeconds
  let key := store.key args.runId
  if args.lifecycle = .unreadable then .error (.value "receipt_invalid")
  else if args.lifecycle ≠ .absent ∧ args.lifecycle ≠ .recorded (some "active") then
    .error (.coordination "sandbox_task_retired")
  else if store.busy db args.runId then .error (.coordination "workspace_busy")
  else
    match db.run? key with
    | some row =>
      if row.taskId ≠ args.taskId then .error (.integrity "resume_task_identity_mismatch")
      else if row.status ∈ [RunStatus.cancelled, .failed] then
        .error (.ownerConflict "run is terminal; create a new run identity" row.status.text)
      else if row.leaseExpiresAt > now ∧ row.ownerToken ≠ "" ∧
          ¬ args.confirmedExited row.ownerIdentity then
        .error (.ownerConflict "owner is held by another execution" "")
      else
        let next := reacquiredRow args now expires row
        .ok (leaseFrom args store.workspaceId next.generation next.coordinationRevision expires,
          (db.putRun key next).addEvent key "resume_owner_acquired"
            (acquiredPayload args next.generation) (clock 1))
    | none =>
      .ok (leaseFrom args store.workspaceId 1 1 expires,
        (db.putRun key (store.freshRow args now expires)).addEvent key "resume_owner_acquired"
          (acquiredPayload args 1) (clock 1))

/-- `assert_request_owner`: the gate immediately before a dispatch. -/
def assertRequestOwner (store : RunCoordinationStore) (clock : Clock) (runId ownerToken : String)
    (generation coordinationRevision : Nat) (db : Database) : Except CoordinationFault Unit :=
  if ownerToken = "" ∨ generation = 0 then .error (.staleGeneration "owner envelope is incomplete")
  else
    match store.row runId db with
    | .error fault => .error fault
    | .ok row =>
      if row.ownerToken ≠ ownerToken ∨ row.generation ≠ generation ∨
          coordinationRevision > row.coordinationRevision ∨ row.status ≠ .active ∨
          row.leaseExpiresAt ≤ clock 0 ∨ row.cancelRequestId ≠ "" then
        .error (.staleGeneration "dispatch owner envelope is stale")
      else .ok ()

def assertLease (store : RunCoordinationStore) (clock : Clock) (lease : OwnerLease)
    (allowCancelling : Bool) (db : Database) : Except CoordinationFault RunRow :=
  match store.row lease.runId db with
  | .error fault => .error fault
  | .ok row =>
    if row.ownerToken ≠ lease.ownerToken.hex ∨ row.generation ≠ lease.generation ∨
        row.workspaceId ≠ lease.workspaceId ∨
        ¬ (row.status = .active ∨
          (allowCancelling = true ∧ row.status ∈ [RunStatus.cancelling, .cancelRequested])) ∨
        row.leaseExpiresAt ≤ clock 0 then .error .stale
    else .ok row

def activate (store : RunCoordinationStore) (clock : Clock) (lease : OwnerLease) (db : Database) :
    Transaction OwnerLease :=
  store.owned lease db fun row =>
    if row.status ∉ [RunStatus.reconciling, .cancelRequested] then
      .error (.coordination "resume_activation_invalid")
    else if row.leaseExpiresAt ≤ clock 0 then
      .error (.staleGeneration "expired owner cannot activate")
    else if row.cancelRequestId ≠ "" then .error (.coordination "cancel_in_progress")
    else
      let next := { row with
        status := .active, coordinationRevision := row.coordinationRevision + 1,
        leaseExpiresAt := max row.leaseExpiresAt (clock 0 + 1 / 10), updatedAt := clock 1 }
      .ok ({ lease with coordinationRevision := next.coordinationRevision, status := .active },
        (db.putRun (store.key lease.runId) next).addEvent (store.key lease.runId)
          "resume_activated" (.obj [("generation", .int lease.generation)]) (clock 2))

def heartbeat (store : RunCoordinationStore) (clock : Clock) (lease : OwnerLease)
    (leaseSeconds : ℚ) (db : Database) : Transaction OwnerLease :=
  store.owned lease db fun row =>
    if row.status ∉ [RunStatus.reconciling, .active, .cancelRequested, .cancelling] then
      .error .stale
    else if row.leaseExpiresAt ≤ clock 0 then .error (.staleGeneration "expired owner cannot renew")
    else
      let next := { row with
        leaseExpiresAt := clock 0 + max (1 / 10) leaseSeconds,
        coordinationRevision := row.coordinationRevision + 1, updatedAt := clock 0 }
      .ok ({ lease with
          leaseExpiresAt := next.leaseExpiresAt, coordinationRevision := next.coordinationRevision },
        db.putRun (store.key lease.runId) next)

/-- `request_id or f"cancel-{uuid.uuid4().hex}"`. -/
def cancelRequestText (requestId : String) (fresh : Uuid) : String :=
  if requestId = "" then "cancel-" ++ fresh.hex else requestId

def requestCancel (store : RunCoordinationStore) (clock : Clock) (lease : OwnerLease)
    (requestId : String) (fresh : Uuid) (db : Database) : Transaction String :=
  store.owned lease db fun row =>
    if row.cancelRequestId ≠ "" then
      if row.status = .reconciling then
        .ok (row.cancelRequestId, db.putRun (store.key lease.runId)
          { row with
            status := .cancelRequested, coordinationRevision := row.coordinationRevision + 1,
            updatedAt := clock 0 })
      else .ok (row.cancelRequestId, db)
    else if row.status.terminal then .ok (cancelRequestText requestId fresh, db)
    else
      let recorded := cancelRequestText requestId fresh
      let next := { row with
        status := .cancelRequested, cancelRequestId := recorded,
        coordinationRevision := row.coordinationRevision + 1, updatedAt := clock 0 }
      .ok (recorded, (db.putRun (store.key lease.runId) next).addEvent (store.key lease.runId)
        "cancel_requested" (.obj [("request_id", .str recorded)]) (clock 1))

def beginCancelling (store : RunCoordinationStore) (clock : Clock) (lease : OwnerLease)
    (db : Database) : Transaction OwnerLease :=
  store.owned lease db fun row =>
    if row.status = .cancelling then
      .ok ({ lease with
        coordinationRevision := row.coordinationRevision, status := .cancelling }, db)
    else if row.status ≠ .cancelRequested then .error (.coordination "cancel_transition_invalid")
    else
      let next := { row with
        status := .cancelling, coordinationRevision := row.coordinationRevision + 1,
        updatedAt := clock 0 }
      .ok ({ lease with coordinationRevision := next.coordinationRevision, status := .cancelling },
        (db.putRun (store.key lease.runId) next).addEvent (store.key lease.runId)
          "cancelling_started" (.obj [("request_id", .str row.cancelRequestId)]) (clock 1))

def resources (store : RunCoordinationStore) (runId : String) (db : Database) :
    List ResourceRecord :=
  db.resourcesOf (store.key runId)

/-- `mark_recovery_required`; the snapshot it returns afterwards is a
separate read. -/
def markRecoveryRequired (store : RunCoordinationStore) (clock : Clock) (lease : OwnerLease)
    (errorCode : String) (db : Database) : Transaction Unit :=
  store.owned lease db fun row =>
    .ok ((), (db.putRun (store.key lease.runId)
        (row.release .recoveryRequired errorCode (clock 0))).addEvent (store.key lease.runId)
      "recovery_required" (.obj [("error_code", .str errorCode)]) (clock 1))

structure RegisterArgs where
  resourceId : String
  kind : String
  effect : String
  parentId : String
  receiptRef : String
  payload : Json
  allowReconciling : Bool

def plannedRecord (args : RegisterArgs) (lease : OwnerLease) (row : RunRow) (now : ℚ) :
    ResourceRecord :=
  { resourceId := args.resourceId, taskId := row.taskId, runId := row.runId,
    workspaceId := row.workspaceId, parentId := args.parentId, kind := args.kind,
    effect := args.effect, status := .planned, generation := lease.generation,
    ownerToken := lease.ownerToken.hex, receiptRef := args.receiptRef, cleanup := "unverified",
    errorCode := "", payload := args.payload, createdAt := now, updatedAt := now }

/-- The statuses in which `register_resource` is open. -/
def registrationOpen (allowReconciling : Bool) (row : RunRow) : Bool :=
  if allowReconciling then
    row.status ∈ [RunStatus.active, .reconciling, .cancelRequested, .cancelling]
  else row.status == .active && row.cancelRequestId == ""

def registerResource (store : RunCoordinationStore) (clock : Clock) (lease : OwnerLease)
    (args : RegisterArgs) (db : Database) : Transaction ResourceRecord :=
  store.owned lease db fun row =>
    if ¬ registrationOpen args.allowReconciling row then .error (.coordination "dispatch_closed")
    else if row.leaseExpiresAt ≤ clock 0 then .error .stale
    else if args.parentId ≠ "" ∧
        ¬ (db.resource? args.parentId).any (fun parent => parent.runKey = store.key lease.runId) then
      .error (.integrity "resource_parent_missing")
    else if (db.resource? args.resourceId).isSome then .error (.coordination "resource_duplicate")
    else
      let record := plannedRecord args lease row (clock 1)
      .ok (record, ((db.putResource args.resourceId record).addEvent (store.key lease.runId)
        "resource_planned" record.toDict (clock 2)).putRun (store.key lease.runId) row.touch)

structure TransitionArgs where
  resourceId : String
  status : ResourceStatus
  cleanup : String
  receiptRef : String
  errorCode : String
  payload : Json
  adoptGeneration : Bool

/-- The checks of `transition_resource` on the run row. -/
def transitionOpen (clock : Clock) (status : ResourceStatus) (row : RunRow) :
    Except CoordinationFault Unit :=
  if row.status ∉ [RunStatus.active, .reconciling, .cancelRequested, .cancelling] then .error .stale
  else if status.dispatching = true ∧
      (row.status ≠ .active ∨ row.cancelRequestId ≠ "" ∨ row.leaseExpiresAt ≤ clock 0) then
    .error (.coordination "dispatch_closed")
  else .ok ()

/-- A replacement owner may take over a resource of an earlier generation
while its run is fenced. -/
def adoptable (lease : OwnerLease) (args : TransitionArgs) (row : RunRow)
    (item : ResourceRecord) : Bool :=
  args.adoptGeneration && (row.status ∈ [RunStatus.reconciling, .cancelRequested]) &&
    decide (item.generation < lease.generation)

/-- The resource that `transition_resource` is about to update, after all of
its checks on the run row and the resource row. -/
def transitionTarget (clock : Clock) (lease : OwnerLease) (args : TransitionArgs) (row : RunRow)
    (db : Database) : Except CoordinationFault ResourceRecord :=
  match transitionOpen clock args.status row with
  | .error fault => .error fault
  | .ok () =>
    match db.resource? args.resourceId with
    | none => .error (.integrity "resource_identity_mismatch")
    | some item =>
      if item.runId ≠ lease.runId then .error (.integrity "resource_identity_mismatch")
      else if item.generation ≠ lease.generation ∧ ¬ adoptable lease args row item then
        .error .stale
      else .ok item

/-- The updated resource row; an adopted one passes to the lease. -/
def transitionedRecord (lease : OwnerLease) (args : TransitionArgs) (now : ℚ)
    (item : ResourceRecord) : ResourceRecord :=
  let adopted := item.generation ≠ lease.generation
  { item with
    status := args.status, cleanup := args.cleanup,
    receiptRef := if args.receiptRef = "" then item.receiptRef else args.receiptRef,
    errorCode := args.errorCode, payload := item.payload.merge args.payload,
    generation := if adopted then lease.generation else item.generation,
    ownerToken := if adopted then lease.ownerToken.hex else item.ownerToken, updatedAt := now }

def transitionResource (store : RunCoordinationStore) (clock : Clock) (lease : OwnerLease)
    (args : TransitionArgs) (db : Database) : Transaction ResourceRecord :=
  store.owned lease db fun row =>
    match transitionTarget clock lease args row db with
    | .error fault => .error fault
    | .ok item =>
      let record := transitionedRecord lease args (clock 1) item
      .ok (record, ((db.putResource args.resourceId record).addEvent
        (store.key lease.runId) ("resource_" ++ args.status.text)
        (.obj [("resource_id", .str args.resourceId), ("cleanup", .str args.cleanup),
          ("error_code", .str args.errorCode)]) (clock 2)).putRun (store.key lease.runId) row.touch)

def recordEvent (store : RunCoordinationStore) (clock : Clock) (lease : OwnerLease)
    (eventType : String) (payload : Json) (db : Database) : Transaction Unit :=
  store.owned lease db fun _ =>
    .ok ((), db.addEvent (store.key lease.runId) eventType payload (clock 0))

def sealedColumns (item : ResourceRecord) : Json :=
  .obj [("resource_id", .str item.resourceId), ("parent_id", .str item.parentId),
    ("kind", .str item.kind), ("effect", .str item.effect), ("status", .str item.status.text),
    ("cleanup", .str item.cleanup), ("receipt_ref", .str item.receiptRef),
    ("generation", .int item.generation), ("owner_token", .str item.ownerToken)]

variable [Hashing]

def sealOf (lease : OwnerLease) (row : RunRow) (resources : List ResourceRecord) : Json :=
  .obj [("run_id", .str lease.runId), ("workspace_id", .str lease.workspaceId),
    ("owner_token", .str lease.ownerToken.hex), ("generation", .int lease.generation),
    ("coordination_revision", .int row.coordinationRevision),
    ("resource_ref_checksum", .str (Hashing.encodedDigest (.arr (resources.map sealedColumns)))),
    ("status", .str row.status.text)]

def checkpointSeal (store : RunCoordinationStore) (clock : Clock) (lease : OwnerLease)
    (db : Database) : Transaction Json :=
  store.owned lease db fun row =>
    if row.status ∉ [RunStatus.reconciling, .active, .cancelRequested, .cancelling] ∨
        row.leaseExpiresAt ≤ clock 0 then .error .stale
    else
      let sealed := sealOf lease row (store.resources lease.runId db)
      .ok (sealed, db.addEvent (store.key lease.runId) "checkpoint_sealed" sealed (clock 1))

section

omit [Hashing]

/-- The shape test of `verify_checkpoint_seal` on the seal alone. -/
def sealFits (lease : OwnerLease) (sealed : Json) : Bool :=
  (sealed.get? "run_id").any (fun value => value.same (.str lease.runId)) &&
    (sealed.get? "workspace_id").any (fun value => value.same (.str lease.workspaceId)) &&
    ((sealed.get? "generation").bind Json.int?).any
      (fun generation => decide (0 < generation ∧ generation ≤ (lease.generation : Int))) &&
    (sealed.get? "owner_token").any Json.truthy &&
    ((sealed.get? "coordination_revision").bind Json.int?).isSome

/-- The event hands the seal's generation to the seal's owner.  A seal that
reaches this test has both members, and neither equals a missing one. -/
def acquiredFor (sealed : Json) (event : EventRow) : Bool :=
  event.eventType == "resume_owner_acquired" &&
    ["generation", "owner_token"].all (fun name =>
      match event.payload.get? name, sealed.get? name with
      | some left, some right => left.same right
      | _, _ => false)

def verifyCheckpointSeal (store : RunCoordinationStore) (lease : OwnerLease) (sealed : Json)
    (db : Database) : Except CoordinationFault Unit :=
  let events := db.eventsOf (store.key lease.runId)
  if ¬ sealFits lease sealed then .error (.integrity "checkpoint_coordination_mismatch")
  else if ¬ events.any (fun event =>
      event.eventType == "checkpoint_sealed" && event.payload.same sealed) then
    .error (.integrity "checkpoint_coordination_unverified")
  else if ¬ events.any (acquiredFor sealed) then .error (.integrity "checkpoint_owner_unverified")
  else .ok ()

/-- `finish`: residual resources turn every ending but `recovery_required`
into a blocked one.  The snapshot it returns afterwards is a separate read. -/
def finish (store : RunCoordinationStore) (clock : Clock) (lease : OwnerLease)
    (status : RunStatus) (errorCode : String) (db : Database) : Transaction Unit :=
  if status ∉ [RunStatus.cancelled, .failed, .released, .recoveryRequired] then
    .error (.value "terminal_status_invalid")
  else
    store.owned lease db fun row =>
      let key := store.key lease.runId
      let residual := db.residual key
      if residual ≠ [] ∧ status ≠ .recoveryRequired then
        .ok ((), (db.putRun key (row.release .recoveryRequired
            "finish_blocked_by_residual_resources" (clock 0))).addEvent key "recovery_required"
          (.obj [("error_code", .str "finish_blocked_by_residual_resources"),
            ("resource_count", .int residual.length)]) (clock 1))
      else
        let ended := (db.putRun key (row.release status errorCode (clock 0))).addEvent key
          ("run_" ++ status.text)
          (.obj [("generation", .int lease.generation), ("error_code", .str errorCode)]) (clock 1)
        .ok ((), if status = .cancelled then
            ended.addEvent key "cancel_completed" (.obj [("generation", .int lease.generation)])
              (clock 2)
          else ended)

end

end RunCoordinationStore

/-!
# Interleavings of store calls

SQLite serialises the transactions of all processes, so an execution of any
number of owners is a list of calls, each with its own store object, clock
readings and lease.  A rejected call leaves the database as it found it.
-/

/-- The methods that take a lease. -/
inductive OwnerOp where
  | activate
  | heartbeat (leaseSeconds : ℚ)
  | requestCancel (requestId : String) (fresh : Uuid)
  | beginCancelling
  | markRecoveryRequired (errorCode : String)
  | registerResource (args : RunCoordinationStore.RegisterArgs)
  | transitionResource (args : RunCoordinationStore.TransitionArgs)
  | recordEvent (eventType : String) (payload : Json)
  | checkpointSeal
  | finish (status : RunStatus) (errorCode : String)

structure OwnerCall where
  store : RunCoordinationStore
  clock : Clock
  lease : OwnerLease
  op : OwnerOp

inductive StoreCall where
  | acquire (store : RunCoordinationStore) (clock : Clock) (args : RunCoordinationStore.AcquireArgs)
  | owner (call : OwnerCall)

inductive Reply where
  | lease (lease : OwnerLease)
  | requestId (text : String)
  | record (record : ResourceRecord)
  | sealed (value : Json)
  | done

def Reply.sealed? : Reply -> Option Json
  | sealed value => some value
  | _ => none

/-- Name the kind of value that a transaction returns. -/
def Transaction.answer {Result : Type} (wrap : Result -> Reply)
    (transaction : Transaction Result) : Transaction Reply :=
  match transaction with
  | .error fault => .error fault
  | .ok result => .ok (wrap result.1, result.2)

theorem Transaction.answer_ok {Result : Type} {wrap : Result -> Reply}
    {transaction : Transaction Result} {reply : Reply} {after : Database}
    (accepted : transaction.answer wrap = .ok (reply, after)) :
    ∃ result, transaction = .ok (result, after) ∧ reply = wrap result := by
  cases transaction with
  | error fault => cases accepted
  | ok result =>
    cases accepted
    exact ⟨result.1, rfl, rfl⟩

/-- The key of the run that a lease addresses through this store. -/
def OwnerCall.key (call : OwnerCall) : RunKey := call.store.key call.lease.runId

def StoreCall.key : StoreCall -> RunKey
  | acquire store _ args => store.key args.runId
  | owner call => call.key

variable [Hashing]

def OwnerCall.apply (call : OwnerCall) (db : Database) : Transaction Reply :=
  match call.op with
  | .activate => (call.store.activate call.clock call.lease db).answer .lease
  | .heartbeat leaseSeconds =>
    (call.store.heartbeat call.clock call.lease leaseSeconds db).answer .lease
  | .requestCancel requestId fresh =>
    (call.store.requestCancel call.clock call.lease requestId fresh db).answer .requestId
  | .beginCancelling => (call.store.beginCancelling call.clock call.lease db).answer .lease
  | .markRecoveryRequired errorCode =>
    (call.store.markRecoveryRequired call.clock call.lease errorCode db).answer fun _ => .done
  | .registerResource args =>
    (call.store.registerResource call.clock call.lease args db).answer .record
  | .transitionResource args =>
    (call.store.transitionResource call.clock call.lease args db).answer .record
  | .recordEvent eventType payload =>
    (call.store.recordEvent call.clock call.lease eventType payload db).answer fun _ => .done
  | .checkpointSeal => (call.store.checkpointSeal call.clock call.lease db).answer .sealed
  | .finish status errorCode =>
    (call.store.finish call.clock call.lease status errorCode db).answer fun _ => .done

def StoreCall.apply (call : StoreCall) (db : Database) : Transaction Reply :=
  match call with
  | acquire store clock args => (store.acquire clock args db).answer .lease
  | owner call => call.apply db

/-- Commit an accepted call, roll back a rejected one. -/
def commit (transaction : Transaction Reply) (db : Database) : Database :=
  match transaction with
  | .ok (_, after) => after
  | .error _ => db

/-- Any number of processes calling any stores in any order. -/
def storeMachine : Machine Database StoreCall := ⟨fun db call => commit (call.apply db) db⟩

/-- The databases that executions of store calls reach from the empty one. -/
def Reachable (db : Database) : Prop :=
  ∃ calls : List StoreCall, db = storeMachine.run Database.empty calls

theorem Reachable.run {db : Database} (reachable : Reachable db) (calls : List StoreCall) :
    Reachable (storeMachine.run db calls) := by
  rcases reachable with ⟨before, rfl⟩
  exact ⟨before ++ calls, (storeMachine.run_append _ _ _).symm⟩

omit [Hashing] in
theorem commit_cases (transaction : Transaction Reply) (db : Database) :
    (∃ fault, transaction = .error fault ∧ commit transaction db = db) ∨
      ∃ reply, transaction = .ok (reply, commit transaction db) := by
  cases transaction with
  | error fault => exact Or.inl ⟨fault, rfl, rfl⟩
  | ok result => exact Or.inr ⟨result.1, rfl⟩

end RunCoordination
end FixLoop
