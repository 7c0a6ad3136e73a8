import FixLoop.Library.Process
import FixLoop.RunCoordination.Store

namespace FixLoop
namespace RunCoordination

open Library RunCoordinationStore

/-!
# `RunCoordinator.cancel`

The coordinator makes one store call after another, so it is a process whose
atomic actions are transactions and reads.  An exception of a store call ends
it.  Adapters are arbitrary: each of their answers is a result or an
exception, and may differ from turn to turn.
-/

structure ResourceResult where
  resourceId : String
  status : String
  cleanup : String
  errorCode : String
  receiptRef : String
  details : Json

def ResourceResult.confirmed (result : ResourceResult) : Bool :=
  result.cleanup == "confirmed" &&
    result.status ∈ ["cancelled", "completed", "failed", "not_started"]

structure CancelReport where
  runId : String
  requestId : String
  status : RunStatus
  resources : List ResourceResult
  errorCode : String

/-- An adapter, with the name of the exception's type where it raises one.
The number counts the resources that the caller has handled before. -/
structure ResourceAdapter where
  cancel : Nat -> ResourceRecord -> String -> Except String ResourceResult

/-- `UnknownResourceAdapter`. -/
def unknownResourceAdapter : ResourceAdapter :=
  ⟨fun _ resource _ => .ok ⟨resource.resourceId, "unknown", "unknown", "resource_adapter_missing", "",
    .obj []⟩⟩

/-- A coordinator holds a lease of its own run only. -/
structure RunCoordinator where
  runId : String
  store : RunCoordinationStore
  adapters : List (String × ResourceAdapter)
  lease : Option OwnerLease
  ownLease : ∀ held, lease = some held -> held.runId = runId

/-- The atomic actions of `cancel`, in the order of the source. -/
inductive CancelAction where
  | readRun
  | readResources
  | requestCancel
  | beginCancelling
  | listResources
  | recordSent
  | transitionResource
  | recordOutcome
  | finish
  | markRecoveryRequired
deriving DecidableEq

/-- What `cancel` reads from its surroundings: the clock of each action, by
the number of resources handled before, and a fresh identifier. -/
structure CancelInputs where
  clock : CancelAction -> Nat -> Clock
  fresh : Uuid

abbrev CancelProcess := Process Database CancelAction (Except CoordinationFault CancelReport)

/-- Perform a transaction and go on with its reply. -/
def transact {Answer : Type} (label : CancelAction) (method : Database -> Transaction Answer)
    (next : Answer -> CancelProcess) : CancelProcess :=
  .atomic label
    (fun db =>
      match method db with
      | .ok result => result.2
      | .error _ => db)
    (fun db =>
      match method db with
      | .ok result => next result.1
      | .error fault => .halt (.error fault))

/-- Read the database and go on with what was found. -/
def inspect {Answer : Type} (label : CancelAction)
    (read : Database -> Except CoordinationFault Answer) (next : Answer -> CancelProcess) :
    CancelProcess :=
  transact label (fun db => (read db).map fun answer => (answer, db)) next

namespace RunCoordinator

def adapter (coordinator : RunCoordinator) (resource : ResourceRecord) : ResourceAdapter :=
  ((coordinator.adapters.lookup resource.kind).or (coordinator.adapters.lookup "*")).getD
    unknownResourceAdapter

def recordedResult (resource : ResourceRecord) (cleanup errorCode : String) : ResourceResult :=
  ⟨resource.resourceId, resource.status.text, cleanup, errorCode, resource.receiptRef, .obj []⟩

/-- The result that stands for an exception. -/
def raisedResult (resource : ResourceRecord) (exception : String) : ResourceResult :=
  ⟨resource.resourceId, "unknown", "unknown", "resource_cleanup_exception", "",
    .obj [("exception", .str exception)]⟩

/-- `_safe_result` of the method `cancel`. -/
def safeResult (coordinator : RunCoordinator) (turn : Nat) (resource : ResourceRecord)
    (requestId : String) : ResourceResult :=
  match (coordinator.adapter resource).cancel turn resource requestId with
  | .error exception => raisedResult resource exception
  | .ok result =>
    if result.resourceId ∉ ["", resource.resourceId] then
      raisedResult resource "CoordinationIntegrityError"
    else result

/-- The number of ancestors of a resource among the given ones, where
`unseen` holds the identifiers that the walk has not met. -/
def ancestors (resources : List ResourceRecord) (unseen : List String) (parent : String) : Nat :=
  if parent ≠ "" ∧ parent ∈ unseen then
    match resources.find? (fun resource => resource.resourceId = parent) with
    | some resource => 1 + ancestors resources (unseen.erase parent) resource.parentId
    | none => 1
  else 0
termination_by unseen.length
decreasing_by
  rename_i member
  rw [List.length_erase_of_mem member.2]
  exact Nat.sub_lt (List.length_pos_of_mem member.2) Nat.one_pos

def depth (resources : List ResourceRecord) (resource : ResourceRecord) : Nat :=
  ancestors resources (resources.map ResourceRecord.resourceId) resource.parentId

/-- The order `-depth, created_at, resource_id`. -/
def precedesByDepth (resources : List ResourceRecord) (left right : ResourceRecord) : Prop :=
  depth resources right < depth resources left ∨
    (depth resources left = depth resources right ∧ Database.precedes left right)

instance (resources : List ResourceRecord) : DecidableRel (precedesByDepth resources) :=
  fun _ _ => inferInstanceAs (Decidable (_ ∨ _))

def reverseDepth (resources : List ResourceRecord) : List ResourceRecord :=
  resources.insertionSort (precedesByDepth resources)

/-- The status that an adapter's answer is stored under. -/
def targetStatus (result : ResourceResult) : ResourceStatus :=
  (([.cancelled, .completed, .failed, .notStarted, .unknown] : List ResourceStatus).find?
    (fun status => status.text = result.status)).getD .unknown

def transitionArgs (resource : ResourceRecord) (result : ResourceResult) : TransitionArgs :=
  { resourceId := resource.resourceId, status := targetStatus result, cleanup := result.cleanup,
    receiptRef := result.receiptRef, errorCode := result.errorCode, payload := result.details,
    adoptGeneration := false }

/-- The end of `cancel`: judge the collected results and close the run. -/
def conclude (coordinator : RunCoordinator) (inputs : CancelInputs) (finalize : Bool)
    (lease : OwnerLease) (requestId : String) (results : List ResourceResult) : CancelProcess :=
  if results.all ResourceResult.confirmed then
    let report : CancelReport := ⟨coordinator.runId, requestId, .cancelled, results, ""⟩
    if finalize then
      transact .finish (coordinator.store.finish (inputs.clock .finish 0) lease .cancelled "")
        (fun _ => .halt (.ok report))
    else .halt (.ok report)
  else
    transact .markRecoveryRequired (coordinator.store.markRecoveryRequired
        (inputs.clock .markRecoveryRequired 0) lease "resource_cleanup_failed")
      (fun _ => .halt (.ok ⟨coordinator.runId, requestId, .recoveryRequired, results,
        "resource_cleanup_failed"⟩))

/-- The loop of `cancel` over the listed resources. -/
def cancelEach (coordinator : RunCoordinator) (inputs : CancelInputs) (finalize : Bool)
    (lease : OwnerLease) (requestId : String) (turn : Nat) (results : List ResourceResult) :
    List ResourceRecord -> CancelProcess
  | [] => coordinator.conclude inputs finalize lease requestId results
  | resource :: rest =>
    if resource.settled then
      coordinator.cancelEach inputs finalize lease requestId (turn + 1)
        (results ++ [recordedResult resource "confirmed" ""]) rest
    else
      transact .recordSent (coordinator.store.recordEvent (inputs.clock .recordSent turn) lease
          "resource_cancel_sent" (.obj [("resource_id", .str resource.resourceId),
            ("kind", .str resource.kind), ("request_id", .str requestId)])) fun _ =>
        let result := coordinator.safeResult turn resource requestId
        transact .transitionResource (coordinator.store.transitionResource
            (inputs.clock .transitionResource turn) lease (transitionArgs resource result)) fun _ =>
          transact .recordOutcome (coordinator.store.recordEvent (inputs.clock .recordOutcome turn)
              lease (if result.confirmed then "resource_cleanup_confirmed"
                else "resource_cleanup_failed")
              (.obj [("resource_id", .str resource.resourceId),
                ("error_code", .str result.errorCode)])) fun _ =>
            coordinator.cancelEach inputs finalize lease requestId (turn + 1) (results ++ [result])
              rest

/-- `cancel` after the snapshot has shown a run that is still open. -/
def cancelOpen (coordinator : RunCoordinator) (inputs : CancelInputs) (finalize : Bool)
    (requestId : String) (lease : OwnerLease) : CancelProcess :=
  transact .requestCancel (coordinator.store.requestCancel (inputs.clock .requestCancel 0) lease
      requestId inputs.fresh) fun requestId =>
    transact .beginCancelling (coordinator.store.beginCancelling (inputs.clock .beginCancelling 0)
        lease) fun lease =>
      inspect .listResources (fun db => .ok (coordinator.store.resources coordinator.runId db))
        fun resources =>
          coordinator.cancelEach inputs finalize lease requestId 0 [] (reverseDepth resources)

/-- The decision of `cancel` on the snapshot of the run. -/
def cancelFrom (coordinator : RunCoordinator) (inputs : CancelInputs) (finalize : Bool)
    (requestId : String) (current : RunRow) (resources : List ResourceRecord) : CancelProcess :=
  if current.status = .cancelled then
    .halt (.ok ⟨coordinator.runId,
      if current.cancelRequestId = "" then requestId else current.cancelRequestId, .cancelled,
      resources.map (fun resource => recordedResult resource "confirmed" ""), ""⟩)
  else
    match coordinator.lease with
    | none => .halt (.error (.coordination "resume_owner_missing"))
    | some lease =>
      if current.status = .recoveryRequired ∧ current.cancelRequestId ≠ "" ∧
          current.ownerToken = "" ∧ current.generation = lease.generation then
        .halt (.ok ⟨coordinator.runId, current.cancelRequestId, current.status,
          resources.map (fun resource =>
            recordedResult resource resource.cleanup resource.errorCode), "resource_cleanup_failed"⟩)
      else coordinator.cancelOpen inputs finalize requestId lease

/-- `cancel`.  The snapshot is two reads, of the run row and of its
resources. -/
def cancel (coordinator : RunCoordinator) (inputs : CancelInputs) (requestId : String)
    (finalize : Bool) : CancelProcess :=
  inspect .readRun (coordinator.store.row coordinator.runId) fun current =>
    inspect .readResources (fun db => .ok (coordinator.store.resources coordinator.runId db))
      fun resources => coordinator.cancelFrom inputs finalize requestId current resources

end RunCoordinator

end RunCoordination
end FixLoop
