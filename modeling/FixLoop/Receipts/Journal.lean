import FixLoop.Library.Durable
import FixLoop.Library.Machine

namespace FixLoop
namespace Receipts

open Library
open Durable (Fate Ending Program raise look write handling)

/-!
# The receipt journal of a workspace

The registry holds the record of the last call, and every call that ended has
a receipt of its own.  Each write is atomic; ending a call takes two of them.
-/

abbrev Text := List Char

inductive Fault where
  | value (text : String)
  | os
deriving DecidableEq

inductive Stage where
  | planned
  | running
  | terminal
deriving DecidableEq

/-- The digest of the policy, the environment and the mapping of a task. -/
structure Binding where
  policyDigest : Text
  environmentId : Text
  mappingId : Text
deriving DecidableEq

/-- The fields of a `SandboxResult` that the journal reads. -/
structure SandboxResult where
  executionStatus : String
  errorCode : String
  cleanup : String
  mutationStatus : String
deriving DecidableEq

/-- What the native side says of an execution key. -/
structure Evidence (Key : Type) where
  key : Key
  cleanup : String
deriving DecidableEq

/-- A record; the envelope is what a request and its permission add to it. -/
structure Record (Envelope Mutation Key : Type) where
  callId : Text
  stage : Stage
  sequence : Nat
  binding : Binding
  envelope : Envelope
  mutationEvents : List Mutation
  result : Option SandboxResult
  noTargetStarted : Bool
  recovery : Option (Evidence Key)
  interruptedResult : Option SandboxResult
deriving DecidableEq

/-- The files of the journal, and every record the registry held, the last first. -/
structure Journal (Envelope Mutation Key : Type) where
  registry : Option (Record Envelope Mutation Key)
  receipts : Text -> Option (Record Envelope Mutation Key)
  history : List (Record Envelope Mutation Key)

def Journal.empty {Envelope Mutation Key : Type} : Journal Envelope Mutation Key := ⟨none, fun _ => none, []⟩

/-- `[a-zA-Z0-9][a-zA-Z0-9_.-]{0,79}`. -/
def validCallId : Text -> Bool
  | [] => false
  | first :: rest =>
    first.isAlphanum && decide (rest.length ≤ 79) &&
      rest.all fun char => char.isAlphanum || char == '_' || char == '.' || char == '-'

section Store

variable {Envelope Mutation Key : Type} [DecidableEq Envelope] [DecidableEq Mutation] [DecidableEq Key]

abbrev Act (Envelope Mutation Key Value : Type) := Program (Journal Envelope Mutation Key) Fault Value

def saveRegistry (record : Record Envelope Mutation Key) (journal : Journal Envelope Mutation Key) :
    Journal Envelope Mutation Key :=
  { journal with registry := some record, history := record :: journal.history }

def saveReceipt (record : Record Envelope Mutation Key) (journal : Journal Envelope Mutation Key) :
    Journal Envelope Mutation Key :=
  { journal with receipts := fun callId => if callId = record.callId then some record else journal.receipts callId }

def current : Act Envelope Mutation Key (Option (Record Envelope Mutation Key)) := do
  let data <- look Journal.registry
  if data.any (fun record => !validCallId record.callId) then raise (.value "receipt_invalid: workspace identity")
  else pure data

def receipt (callId : Text) : Act Envelope Mutation Key (Option (Record Envelope Mutation Key)) :=
  look fun journal => journal.receipts callId

def inspect (callId : Text) : Act Envelope Mutation Key (Option (Record Envelope Mutation Key)) :=
  if !validCallId callId then raise (.value "receipt_invalid: call_id")
  else do
    let now <- current
    let saved <- receipt callId
    match now with
    | some record =>
      if record.callId = callId then
        if record.stage = .terminal ∧ saved ≠ some record then raise (.value "receipt_invalid: terminal pair")
        else pure (some record)
      else if saved.any (fun receipt => decide (receipt.callId ≠ callId ∨ receipt.stage ≠ .terminal)) then
        raise (.value "receipt_invalid: historical receipt")
      else pure saved
    | none =>
      if saved.any (fun receipt => decide (receipt.callId ≠ callId ∨ receipt.stage ≠ .terminal)) then
        raise (.value "receipt_invalid: historical receipt")
      else pure saved

/-- `transition(call_id, "planned")`. -/
def plan (callId : Text) (envelope : Envelope) (binding : Binding) (fate : Fate) : Act Envelope Mutation Key Unit :=
  if !validCallId callId then raise (.value "policy_denied: call_id")
  else do
    let previous <- current
    if previous.any (fun record => decide (record.stage ≠ .terminal)) then
      raise (.value "execution_uncertain: previous call has no terminal receipt")
    else
      let saved <- receipt callId
      if saved.isSome then raise (.value "policy_denied: duplicate call_id")
      else
        write .os fate (saveRegistry ⟨callId, .planned, (previous.map Record.sequence).getD 0 + 1, binding, envelope,
          [], none, false, none, none⟩)

/-- `transition(call_id, "running")`. -/
def begin (callId : Text) (fate : Fate) : Act Envelope Mutation Key Unit :=
  if !validCallId callId then raise (.value "policy_denied: call_id")
  else do
    let previous <- current
    match previous with
    | none => raise (.value "receipt_invalid: call mismatch")
    | some record =>
      if record.callId ≠ callId then raise (.value "receipt_invalid: call mismatch")
      else if record.stage ≠ .planned then raise (.value "receipt_invalid: invalid transition")
      else write .os fate (saveRegistry { record with stage := .running })

/-- The fields of a terminal transition. -/
structure Ended (Key : Type) where
  result : SandboxResult
  noTargetStarted : Bool
  recovery : Option (Evidence Key)
  interruptedResult : Option SandboxResult

/-- The result of an interrupted call may be replaced once its cleanup is confirmed. -/
def reconciles (record : Record Envelope Mutation Key) (ended : Ended Key) : Bool :=
  decide (record.stage = .terminal) &&
    record.result.any (fun result => decide (result.executionStatus = "uncertain" ∧ result.cleanup ≠ "confirmed")) &&
    ended.recovery.any (fun evidence => decide (evidence.cleanup = "confirmed")) &&
    decide (ended.interruptedResult = record.result)

/-- `data.update(fields)`. -/
def Record.finished (record : Record Envelope Mutation Key) (ended : Ended Key) : Record Envelope Mutation Key :=
  { record with
      stage := .terminal,
      result := some ended.result,
      noTargetStarted := ended.noTargetStarted,
      recovery := ended.recovery.orElse (fun _ => record.recovery),
      interruptedResult := ended.interruptedResult.orElse (fun _ => record.interruptedResult) }

/-- Replacing an interrupted result looks at its pair first. -/
def reopens (callId : Text) (record : Record Envelope Mutation Key) (ended : Ended Key) :
    Act Envelope Mutation Key Bool :=
  if reconciles record ended then do
    let _ <- inspect callId
    pure true
  else pure false

/-- `transition(call_id, "terminal")`: the registry first, then the receipt. -/
def finish (callId : Text) (ended : Ended Key) (registryFate receiptFate : Fate) : Act Envelope Mutation Key Unit :=
  if !validCallId callId then raise (.value "policy_denied: call_id")
  else do
    let previous <- current
    match previous with
    | none => raise (.value "receipt_invalid: call mismatch")
    | some record =>
      if record.callId ≠ callId then raise (.value "receipt_invalid: call mismatch")
      else do
        let again <- reopens callId record ended
        if record.stage = .running ∨ (record.stage = .terminal ∧ again) ∨
            (record.stage = .planned ∧ ended.noTargetStarted) then do
          write .os registryFate (saveRegistry (record.finished ended))
          write .os receiptFate (saveReceipt (record.finished ended))
        else raise (.value "receipt_invalid: invalid transition")

def recordMutation (callId : Text) (event : Mutation) (fate : Fate) : Act Envelope Mutation Key Unit := do
  let now <- current
  match now with
  | none => raise (.value "receipt_invalid: mutation outside running call")
  | some record =>
    if record.callId ≠ callId ∨ record.stage ≠ .running then
      raise (.value "receipt_invalid: mutation outside running call")
    else if 384 < record.mutationEvents.length + 1 then raise (.value "receipt_invalid: too many mutation events")
    else write .os fate (saveRegistry { record with mutationEvents := record.mutationEvents ++ [event] })

/-- Whether a terminal result lets the journal go on. -/
def settled (result : SandboxResult) : Except Fault Unit :=
  if result.executionStatus = "uncertain" then
    .error (.value "execution_uncertain: terminal mutation or execution unverified")
  else if result.cleanup ≠ "confirmed" ∧ result.executionStatus ≠ "start_failed" then
    .error (.value "execution_uncertain: cleanup unverified")
  else .ok ()

def reconcile (policyDigest : Text) : Act Envelope Mutation Key (Option (Record Envelope Mutation Key)) := do
  let data <- current
  match data with
  | none => pure none
  | some record =>
    if record.binding.policyDigest ≠ policyDigest then raise (.value "resume_policy_mismatch")
    else if record.stage ≠ .terminal then raise (.value "execution_uncertain: identity unverified; inspect workspace")
    else do
      let saved <- receipt record.callId
      if saved ≠ some record then raise (.value "receipt_invalid")
      else
        match settled (record.result.getD ⟨"", "", "", ""⟩) with
        | .error fault => raise fault
        | .ok () => pure (some record)

/-! ## The backend -/

/-- What the native side makes of the identity of a call, and its answers. -/
structure Native (Envelope Key : Type) where
  executionKey : Envelope -> Text -> Key
  answer : Key -> Option (Evidence Key)

/-- The result of a call that was interrupted. -/
def recoveredResult (mutations : Bool) : SandboxResult :=
  if mutations then ⟨"uncertain", "execution_uncertain", "confirmed", "unknown"⟩
  else ⟨"cancelled", "recovered_interruption", "confirmed", "not_started"⟩

/-- The last part of `_recover_locked`. -/
def recoverRecord (binding : Binding) (native : Native Envelope Key) (registryFate receiptFate outcomeFate : Fate)
    (record : Record Envelope Mutation Key) : Act Envelope Mutation Key Unit :=
  if record.binding ≠ binding then raise (.value "resume_policy_mismatch")
  else
    match native.answer (native.executionKey record.envelope record.callId) with
    | none => raise (.value "execution_uncertain: maintenance failed")
    | some evidence =>
      if evidence.key ≠ native.executionKey record.envelope record.callId ∨ evidence.cleanup ≠ "confirmed" then
        raise (.value "execution_uncertain: native recovery unconfirmed")
      else do
        finish record.callId ⟨recoveredResult (!record.mutationEvents.isEmpty), decide (record.stage = .planned),
          some evidence, if record.stage = .terminal then record.result else none⟩ registryFate receiptFate
        -- The permission service notes the outcome in a file of its own.
        write .os outcomeFate id

def recoverLocked (binding : Binding) (native : Native Envelope Key) (registryFate receiptFate outcomeFate : Fate) :
    Act Envelope Mutation Key Unit := do
  let now <- current
  match now with
  | none => pure ()
  | some record =>
    if record.stage = .terminal then do
      let _ <- inspect record.callId
      if record.result.any (fun prior => decide (prior.executionStatus ≠ "uncertain" ∨ prior.cleanup = "confirmed"))
      then pure ()
      else recoverRecord binding native registryFate receiptFate outcomeFate record
    else recoverRecord binding native registryFate receiptFate outcomeFate record

/-- How `_execute_locked` describes what it saw, before its own cleanup. -/
inductive Conclusion where
  | unfinished
  | startFailed (errorCode : String)
  | cancelled
  | replied (executionStatus errorCode mutationStatus : String)
  | refused (errorCode : String)

def Conclusion.result : Conclusion -> SandboxResult
  | unfinished => ⟨"uncertain", "execution_uncertain", "unverified", "unknown"⟩
  | startFailed errorCode => ⟨"start_failed", errorCode, "confirmed", "not_started"⟩
  | cancelled => ⟨"cancelled", "cancelled", "confirmed", "not_started"⟩
  | replied executionStatus errorCode mutationStatus => ⟨executionStatus, errorCode, "confirmed", mutationStatus⟩
  | refused errorCode => ⟨"completed", errorCode, "confirmed", "not_started"⟩

/-- A failed cleanup overrides the description. -/
def executionResult (conclusion : Conclusion) (cleanupFailed : Bool) : SandboxResult :=
  if cleanupFailed then
    { conclusion.result with executionStatus := "uncertain", errorCode := "execution_uncertain", cleanup := "unverified" }
  else conclusion.result

/-- Two writes of a terminal transition. -/
structure Fates where
  registry : Fate
  receipt : Fate

/-- An execution: what its surroundings do, and the fate of each of its writes.
The target is the process that is started; events are recorded while it runs. -/
structure Execution (Envelope Mutation Key : Type) where
  native : Native Envelope Key
  recovery : Fates
  outcome : Fate
  callId : Text
  envelope : Envelope
  refused : Option Fault
  planning : Fate
  beginning : Fate
  targetStarted : Bool
  startError : String
  events : List (Mutation × Fate)
  conclusion : Conclusion
  cleanupFailed : Bool
  ending : Fates

/-- The events are recorded one after the other; who records them goes on. -/
def recordAll (callId : Text) : List (Mutation × Fate) -> Act Envelope Mutation Key Unit
  | [] => pure ()
  | (event, fate) :: rest => do
      handling (recordMutation callId event fate) (fun _ => pure ())
      recordAll callId rest

def executeLocked (execution : Execution Envelope Mutation Key) : Act Envelope Mutation Key Unit := do
  let started <- handling (do begin execution.callId execution.beginning; pure execution.targetStarted)
    (fun _ => pure false)
  recordAll execution.callId (if started then execution.events else [])
  let conclusion := if started then execution.conclusion else .startFailed execution.startError
  handling (finish execution.callId ⟨executionResult conclusion execution.cleanupFailed, !started, none, none⟩
    execution.ending.registry execution.ending.receipt) fun _ => pure ()

def execute (binding : Binding) (execution : Execution Envelope Mutation Key) : Act Envelope Mutation Key Unit := do
  recoverLocked binding execution.native execution.recovery.registry execution.recovery.receipt execution.outcome
  let _ <- reconcile binding.policyDigest
  let now <- current
  if 8192 ≤ (now.map Record.sequence).getD 0 then raise (.value "resource_limit_exceeded: receipt budget")
  else
    match execution.refused with
    | some fault => raise fault
    | none => do
        plan execution.callId execution.envelope binding execution.planning
        executeLocked execution

/-- A recovery under the reconciliation fence, or an execution. -/
inductive Operation (Envelope Mutation Key : Type) where
  | recover (native : Native Envelope Key) (fates : Fates) (outcome : Fate)
  | execute (execution : Execution Envelope Mutation Key)

def perform (binding : Binding) : Operation Envelope Mutation Key -> Act Envelope Mutation Key Unit
  | .recover native fates outcome => do
      recoverLocked binding native fates.registry fates.receipt outcome
      let _ <- reconcile binding.policyDigest
      pure ()
  | .execute execution => execute binding execution

/-- Operations hold the lock, so they come one after the other; a crash releases it. -/
def machine (binding : Binding) : Machine (Journal Envelope Mutation Key) (Operation Envelope Mutation Key) where
  step journal operation := (perform binding operation journal).2

end Store

end Receipts
end FixLoop
