import FixLoop.Library.Json
import FixLoop.Library.Machine
import FixLoop.Library.Recent
import FixLoop.Library.Strings

namespace FixLoop
namespace ActionLedger

open Library

/-!
# The action ledger of a session

An action is recorded before or after it is carried out and its record is
replaced when more is known.  After an interruption the ledger is asked what
may be done about a call.  The ledger keeps the last hundred records.
-/

/-- The texts that identify a call: its arguments serialised with sorted
keys, and hexadecimal SHA-256. -/
class Texts (Args : Type) where
  raw : Args -> String
  hexdigest : String -> String

/-- An `ActionRecord`; `updatedAt` is a key of stored records only. -/
structure ActionRecord where
  actionId : String
  tool : String
  argsHash : String
  preconditionRevision : Int
  resultRef : String := ""
  sideEffect : String := "none"
  replayPolicy : String := "revalidate"
  status : String := "planned"
  idempotencyKey : String := ""
  receipt : Json := .str ""
  postcondition : List (String × Json) := []
  uncertainReason : String := ""
  updatedAt : Option ℚ := none

/-- `ACTION_TRANSITIONS.get(status, frozenset())`. -/
def actionTransitions : String -> List String
  | "planned" => ["dispatched", "cancelled"]
  | "dispatched" => ["acknowledged", "verified", "uncertain", "failed", "cancelled"]
  | "acknowledged" => ["verified", "uncertain", "failed"]
  | "uncertain" => ["reconciled", "retryable", "failed", "verified"]
  | "reconciled" => ["verified", "failed", "retryable"]
  | "retryable" => ["dispatched", "failed"]
  | _ => []

/-- The record after a transition, or the text of the `ValueError`. -/
def transitionAction (action : ActionRecord) (status reason : String) (receipt : List (String × Json)) (now : ℚ) :
    Except String ActionRecord :=
  if status != action.status && !(actionTransitions action.status).contains status then
    .error ("invalid action transition: " ++ action.status ++ " -> " ++ status)
  else
    .ok { action with
      status := status
      uncertainReason := if reason = "" then action.uncertainReason else reason
      receipt := if receipt.isEmpty then action.receipt else .obj receipt
      updatedAt := some now }

/-- The side effects that must not be replayed. -/
def writeEffects : List String :=
  ["write", "external", "local_write", "remote_write", "external_write", "destructive"]

section

variable {Args : Type} [Texts Args]

def argsDigest (args : Args) : String := Strings.first 16 (Texts.hexdigest Args (Texts.raw args))

def buildActionRecord (tool : String) (args : Args) (revision : Int) (resultRef sideEffect idempotencyKey : String)
    (status : String) : ActionRecord where
  actionId := "ACT-" ++ Strings.first 12 (Texts.hexdigest Args (tool ++ ":" ++ Texts.raw args))
  tool := tool
  argsHash := argsDigest args
  preconditionRevision := revision
  resultRef := resultRef
  sideEffect := sideEffect
  replayPolicy := if writeEffects.contains sideEffect then "never_replay" else "revalidate"
  status := status
  idempotencyKey := idempotencyKey

end

/-- `append_action`, on the ledger of the state. -/
def appendAction (ledger : List ActionRecord) (action : ActionRecord) : List ActionRecord :=
  (ledger ++ [action]).rtake 100

def findActionByIdempotency (ledger : List ActionRecord) (key : String) : Option ActionRecord :=
  if key = "" then none else (ledger.filter fun item => item.idempotencyKey == key).getLast?

inductive Decision where
  | execute
  | reuse
  | revalidate
  | block
  | retry
deriving DecidableEq

structure Recovery where
  decision : Decision
  reason : String
  action : Option ActionRecord

/-- What is answered about the latest record of a call. -/
def recovery (latest : ActionRecord) : Recovery :=
  if latest.status = "verified" ∨ latest.status = "succeeded" then ⟨.reuse, "already_verified", some latest⟩
  else if latest.status = "acknowledged" then ⟨.revalidate, "acknowledged_needs_postcondition", some latest⟩
  else if latest.status = "dispatched" ∨ latest.status = "uncertain" then
    ⟨.revalidate, "side_effect_uncertain", some latest⟩
  else if latest.replayPolicy = "never_replay" then ⟨.block, "never_replay", some latest⟩
  else if latest.replayPolicy = "retry_idempotent" ∧ latest.idempotencyKey ≠ "" then
    ⟨.retry, "idempotent_retry", some latest⟩
  else ⟨.revalidate, "policy_revalidate", some latest⟩

section

variable {Args : Type} [Texts Args]

def ActionRecord.isOf (record : ActionRecord) (tool : String) (args : Args) : Bool :=
  record.tool == tool && record.argsHash == argsDigest args

def actionRecoveryDecision (ledger : List ActionRecord) (tool : String) (args : Args) : Recovery :=
  match (ledger.filter fun item => item.isOf tool args).getLast? with
  | none => ⟨.execute, "no_prior_action", none⟩
  | some latest => recovery latest

end

/-! ## Histories -/

/-- A record is appended, or the one in a place is replaced by a transition
of it; a refused transition replaces nothing. -/
inductive Operation where
  | append (action : ActionRecord)
  | replace (place : Nat) (status reason : String) (receipt : List (String × Json)) (now : ℚ)

def replaceAt (ledger : List ActionRecord) (place : Nat) (status reason : String) (receipt : List (String × Json))
    (now : ℚ) : List ActionRecord :=
  match ledger[place]? with
  | none => ledger
  | some action =>
    match transitionAction action status reason receipt now with
    | .ok updated => ledger.set place updated
    | .error _ => ledger

def machine : Machine (List ActionRecord) Operation where
  step ledger
    | .append action => appendAction ledger action
    | .replace place status reason receipt now => replaceAt ledger place status reason receipt now

def Operation.appended : Operation -> List ActionRecord
  | .append action => [action]
  | .replace .. => []

/-- The records appended in a history, in their order. -/
def appended (operations : List Operation) : List ActionRecord := operations.flatMap Operation.appended

theorem appended_map (actions : List ActionRecord) : appended (actions.map .append) = actions := by
  induction actions with
  | nil => rfl
  | cons action rest ih => exact congrArg (List.cons action) ih

/-! ## What a transition leaves alone -/

/-- The record without what transitions change. -/
def ActionRecord.identity (record : ActionRecord) : ActionRecord :=
  { record with status := "", uncertainReason := "", receipt := .null, updatedAt := none }

/-- No transition leads out of the status. -/
def Final (status : String) : Prop := status = "verified" ∨ status = "failed" ∨ status = "cancelled"

theorem actionTransitions_final {status : String} (final : Final status) : actionTransitions status = [] := by
  rcases final with rfl | rfl | rfl <;> rfl

variable {action updated : ActionRecord} {status reason : String} {receipt : List (String × Json)} {now : ℚ}

theorem transition_identity (made : transitionAction action status reason receipt now = .ok updated) :
    updated.identity = action.identity := by
  unfold transitionAction at made
  split at made
  · cases made
  · cases made
    rfl

theorem transition_final (made : transitionAction action status reason receipt now = .ok updated)
    (final : Final action.status) : updated.status = action.status := by
  rw [transitionAction, actionTransitions_final final] at made
  split at made
  · cases made
  · rename_i allowed
    cases made
    simpa using allowed

variable (ledger : List ActionRecord)

theorem replaceAt_cases (place : Nat) (status reason : String) (receipt : List (String × Json)) (now : ℚ) :
    replaceAt ledger place status reason receipt now = ledger ∨
      ∃ action updated, ledger[place]? = some action ∧
        transitionAction action status reason receipt now = .ok updated ∧
        replaceAt ledger place status reason receipt now = ledger.set place updated := by
  unfold replaceAt
  cases held : ledger[place]? with
  | none => exact .inl rfl
  | some action =>
    cases made : transitionAction action status reason receipt now with
    | error text =>
      left
      simp only [made]
    | ok updated =>
      right
      refine ⟨action, updated, rfl, made, ?_⟩
      simp only [made]

theorem replaceAt_identities (place : Nat) (status reason : String) (receipt : List (String × Json))
    (now : ℚ) :
    (replaceAt ledger place status reason receipt now).map ActionRecord.identity = ledger.map ActionRecord.identity := by
  rcases replaceAt_cases ledger place status reason receipt now with same | ⟨action, updated, held, made, replaced⟩
  · rw [same]
  · obtain ⟨within, here⟩ := List.getElem?_eq_some_iff.mp held
    rw [replaced, List.map_set, transition_identity made, ← here]
    apply List.ext_getElem?
    intro index
    by_cases equal : place = index
    · subst index
      simp [within]
    · simp [List.getElem?_set_ne equal]

variable (operation : Operation) (operations : List Operation)

theorem step_length (bounded : ledger.length ≤ 100) : (machine.step ledger operation).length ≤ 100 := by
  cases operation with
  | append action =>
    change ((ledger ++ [action]).rtake 100).length ≤ 100
    rw [Recent.length_rtake]
    exact Nat.min_le_left _ _
  | replace place status reason receipt now =>
    have same := congrArg List.length (replaceAt_identities ledger place status reason receipt now)
    rw [List.length_map, List.length_map] at same
    exact same ▸ bounded

theorem step_identities (bounded : ledger.length ≤ 100) :
    (machine.step ledger operation).map ActionRecord.identity =
      ((ledger ++ operation.appended).map ActionRecord.identity).rtake 100 := by
  cases operation with
  | append action =>
    change ((ledger ++ [action]).rtake 100).map _ = _
    rw [Recent.map_rtake]
    rfl
  | replace place status reason receipt now =>
    change (replaceAt ledger place status reason receipt now).map _ = _
    rw [replaceAt_identities, Operation.appended, List.append_nil, Recent.rtake_of_length_le]
    rwa [List.length_map]

/-- But for what transitions change, the ledger is the last hundred records. -/
theorem run_identities (ledger : List ActionRecord) (bounded : ledger.length ≤ 100) :
    (machine.run ledger operations).map ActionRecord.identity =
      ((ledger ++ appended operations).map ActionRecord.identity).rtake 100 := by
  induction operations generalizing ledger with
  | nil =>
    rw [Machine.run_nil, appended, List.flatMap_nil, List.append_nil, Recent.rtake_of_length_le]
    rwa [List.length_map]
  | cons operation rest ih =>
    have once := step_identities ledger operation bounded
    calc
      (machine.run (machine.step ledger operation) rest).map ActionRecord.identity =
          ((machine.step ledger operation ++ appended rest).map ActionRecord.identity).rtake 100 :=
        ih _ (step_length ledger operation bounded)
      _ = ((((ledger ++ operation.appended).map ActionRecord.identity).rtake 100 ++
            (appended rest).map ActionRecord.identity)).rtake 100 := by
        rw [List.map_append, once]
      _ = ((ledger ++ appended (operation :: rest)).map ActionRecord.identity).rtake 100 := by
        rw [Recent.rtake_append_rtake, ← List.map_append, List.append_assoc]
        rfl

theorem ledger_identities :
    (machine.run [] operations).map ActionRecord.identity =
      ((appended operations).rtake 100).map ActionRecord.identity := by
  rw [run_identities operations [] (Nat.zero_le 100), List.nil_append, Recent.map_rtake]

/-- How many records of the ledger are dropped in the rest of a history. -/
def dropped (ledger : List ActionRecord) (later : List Operation) : Nat :=
  ledger.length + (appended later).length - 100

/-- The record in the place is dropped later, or it has only moved and keeps its
status. -/
def Settled (ledger : List ActionRecord) (later : List Operation) (place : Nat) (action : ActionRecord) : Prop :=
  place < dropped ledger later ∨
    ∃ kept, (machine.run ledger later)[place - dropped ledger later]? = some kept ∧
      kept.status = action.status ∧ kept.identity = action.identity

theorem dropped_append {ledger : List ActionRecord} (appendedRecord : ActionRecord) (later : List Operation)
    (bounded : ledger.length ≤ 100) :
    dropped ledger (.append appendedRecord :: later) =
      (ledger.length + 1 - 100) + dropped (appendAction ledger appendedRecord) later := by
  have length : (appendAction ledger appendedRecord).length = min 100 (ledger.length + 1) := by
    rw [appendAction, Recent.length_rtake, List.length_append, List.length_singleton]
  have counted : (appended (.append appendedRecord :: later)).length = 1 + (appended later).length := by
    rw [appended, List.flatMap_cons, List.length_append]
    rfl
  rw [dropped, dropped, counted, length]
  omega

theorem replaceAt_final {ledger : List ActionRecord} {index : Nat} (held : ledger[index]? = some action)
    (final : Final action.status) (place : Nat) (status reason : String) (receipt : List (String × Json)) (now : ℚ) :
    ∃ kept, (replaceAt ledger place status reason receipt now)[index]? = some kept ∧
      kept.status = action.status ∧ kept.identity = action.identity := by
  rcases replaceAt_cases ledger place status reason receipt now with same | ⟨old, updated, there, made, replaced⟩
  · rw [same]
    exact ⟨action, held, rfl, rfl⟩
  · rw [replaced]
    by_cases equal : place = index
    · subst index
      rw [there] at held
      cases held
      have within := (List.getElem?_eq_some_iff.mp there).1
      exact ⟨updated, List.getElem?_set_self within, transition_final made final, transition_identity made⟩
    · rw [List.getElem?_set_ne equal]
      exact ⟨action, held, rfl, rfl⟩

/-- The induction is on the operations; a step drops at most the first record
and moves the others up by one. -/
theorem final_settled (later : List Operation) {ledger : List ActionRecord} {place : Nat} (bounded : ledger.length ≤ 100)
    (held : ledger[place]? = some action) (final : Final action.status) : Settled ledger later place action := by
  induction later generalizing ledger place action with
  | nil =>
    have none_dropped : dropped ledger [] = 0 := by
      simp only [dropped, appended, List.flatMap_nil, List.length_nil]
      omega
    right
    rw [none_dropped]
    exact ⟨action, held, rfl, rfl⟩
  | cons operation rest ih =>
    have shorter := step_length ledger operation bounded
    cases operation with
    | append added =>
      have total := dropped_append added rest bounded
      by_cases gone : place < ledger.length + 1 - 100
      · left
        omega
      · have within := (List.getElem?_eq_some_iff.mp held).1
        have moved : (appendAction ledger added)[place - (ledger.length + 1 - 100)]? = some action := by
          rw [appendAction, Recent.getElem?_rtake, List.length_append, List.length_singleton,
            Nat.sub_add_cancel (Nat.le_of_not_lt gone), List.getElem?_append_left within, held]
        rcases ih shorter moved final with later | ⟨kept, there, same, whole⟩
        · left
          change _ < dropped (appendAction ledger added) rest at later
          omega
        · right
          refine ⟨kept, ?_, same, whole⟩
          rw [total, ← Nat.sub_sub]
          exact there
    | replace target status reason receipt now =>
      obtain ⟨kept, there, same, whole⟩ := replaceAt_final held final target status reason receipt now
      have unchanged : (replaceAt ledger target status reason receipt now).length = ledger.length := by
        simpa using congrArg List.length (replaceAt_identities ledger target status reason receipt now)
      have total : dropped ledger (.replace target status reason receipt now :: rest) =
          dropped (replaceAt ledger target status reason receipt now) rest := by
        rw [dropped, dropped, unchanged]
        rfl
      rcases ih shorter there (same.symm ▸ final) with later | ⟨last, found, status', whole'⟩
      · left
        rw [total]
        exact later
      · right
        refine ⟨last, ?_, status'.trans same, whole'.trans whole⟩
        rw [total]
        exact found

/-! ## What the ledger answers -/

theorem recovery_ne_execute (latest : ActionRecord) : (recovery latest).decision ≠ .execute := by
  unfold recovery
  split_ifs <;> simp

theorem recovery_retry {latest : ActionRecord} (retried : (recovery latest).decision = .retry) :
    latest.replayPolicy = "retry_idempotent" := by
  unfold recovery at retried
  split_ifs at retried with _ _ _ _ idempotent
  exact idempotent.1

section

variable {Args : Type} [Texts Args] {ledger : List ActionRecord} {tool : String} {args : Args}

theorem decision_execute_iff :
    (actionRecoveryDecision ledger tool args).decision = .execute <->
      ∀ item ∈ ledger, item.isOf tool args = false := by
  unfold actionRecoveryDecision
  cases last : (ledger.filter fun item => item.isOf tool args).getLast? with
  | none =>
    have nothing := List.filter_eq_nil_iff.mp (List.getLast?_eq_none_iff.mp last)
    simpa using nothing
  | some latest =>
    have member := List.mem_filter.mp (List.mem_of_getLast? last)
    constructor
    · intro executed
      exact absurd executed (recovery_ne_execute latest)
    · intro none_recorded
      rw [none_recorded latest member.1] at member
      exact absurd member.2 Bool.false_ne_true

theorem decision_retry (retried : (actionRecoveryDecision ledger tool args).decision = .retry) :
    ∃ item ∈ ledger, item.isOf tool args = true ∧ item.replayPolicy = "retry_idempotent" := by
  unfold actionRecoveryDecision at retried
  cases last : (ledger.filter fun item => item.isOf tool args).getLast? with
  | none => simp only [last, reduceCtorEq] at retried
  | some latest =>
    have member := List.mem_filter.mp (List.mem_of_getLast? last)
    simp only [last] at retried
    exact ⟨latest, member.1, member.2, recovery_retry retried⟩

/-- What two lists of records with the same identities have in common. -/
theorem exists_of_identities {first second : List ActionRecord}
    (same : first.map ActionRecord.identity = second.map ActionRecord.identity) {item : ActionRecord}
    (member : item ∈ first) : ∃ other ∈ second, other.identity = item.identity := by
  have listed : item.identity ∈ second.map ActionRecord.identity := same ▸ List.mem_map_of_mem member
  exact List.mem_map.mp listed

theorem isOf_identity {first second : ActionRecord} (same : first.identity = second.identity) :
    first.isOf tool args = second.isOf tool args := by
  change first.identity.isOf tool args = second.identity.isOf tool args
  rw [same]

theorem policy_identity {first second : ActionRecord} (same : first.identity = second.identity) :
    first.replayPolicy = second.replayPolicy := by
  change first.identity.replayPolicy = second.identity.replayPolicy
  rw [same]

variable (operations : List Operation)

theorem run_execute_iff :
    (actionRecoveryDecision (machine.run [] operations) tool args).decision = .execute <->
      ∀ record ∈ (appended operations).rtake 100, record.isOf tool args = false := by
  have same := ledger_identities operations
  rw [decision_execute_iff]
  constructor
  · intro none_held record member
    obtain ⟨item, held, equal⟩ := exists_of_identities same.symm member
    exact (isOf_identity equal).symm.trans (none_held item held)
  · intro none_recorded item member
    obtain ⟨record, recorded, equal⟩ := exists_of_identities same member
    exact (isOf_identity equal).symm.trans (none_recorded record recorded)

theorem run_retry
    (retried : (actionRecoveryDecision (machine.run [] operations) tool args).decision = .retry) :
    ∃ record ∈ (appended operations).rtake 100, record.isOf tool args = true ∧
      record.replayPolicy = "retry_idempotent" := by
  obtain ⟨item, held, call, policy⟩ := decision_retry retried
  obtain ⟨record, recorded, equal⟩ := exists_of_identities (ledger_identities operations) held
  exact ⟨record, recorded, (isOf_identity equal).trans call, (policy_identity equal).trans policy⟩

theorem built_policy (tool : String) (args : Args) (revision : Int)
    (resultRef sideEffect idempotencyKey status : String) :
    (buildActionRecord tool args revision resultRef sideEffect idempotencyKey status).replayPolicy ≠
      "retry_idempotent" := by
  change (if writeEffects.contains sideEffect = true then "never_replay" else "revalidate") ≠ "retry_idempotent"
  split_ifs <;> decide

end

/-- An action is offered for execution exactly when it is not among the last
hundred recorded ones, whatever became of it, and for a retry only when one of
its records was given a policy that no built record has.  A final status stays. -/
theorem recorded_action_not_reoffered {Args : Type} [Texts Args] (operations : List Operation) :
    (∀ (tool : String) (args : Args),
      ((actionRecoveryDecision (machine.run [] operations) tool args).decision = .execute <->
        ∀ record ∈ (appended operations).rtake 100, record.isOf tool args = false) ∧
      ((actionRecoveryDecision (machine.run [] operations) tool args).decision = .retry ->
        ∃ record ∈ (appended operations).rtake 100, record.isOf tool args = true ∧
          record.replayPolicy = "retry_idempotent")) ∧
    (∀ (tool : String) (args : Args) revision resultRef sideEffect idempotencyKey status,
      (buildActionRecord tool args revision resultRef sideEffect idempotencyKey status).replayPolicy ≠
        "retry_idempotent") ∧
    ∀ later place action, (machine.run [] operations)[place]? = some action -> Final action.status ->
      Settled (machine.run [] operations) later place action := by
  refine ⟨?_, built_policy, ?_⟩
  · intro tool args
    exact ⟨run_execute_iff operations, run_retry operations⟩
  · intro later place action held final
    have bounded : (machine.run [] operations).length ≤ 100 := by
      have same := congrArg List.length (ledger_identities operations)
      rw [List.length_map, List.length_map, Recent.length_rtake] at same
      exact same ▸ Nat.min_le_left _ _
    exact final_settled later bounded held final

/-- The arguments are a path; the digests of the texts below are the actual
ones. -/
@[reducible] def Texts.paths : Texts String where
  raw path := "\x7b\"path\": \"" ++ path ++ "\"\x7d"
  hexdigest text :=
    if text = "\x7b\"path\": \"a.txt\"\x7d" then "8c5e6208b7730a5e1d4193f254d102d7339d476175ea02f86b689e737778102c"
    else if text = "write_file:\x7b\"path\": \"a.txt\"\x7d" then
      "d75090a676b246614a07cbd2027b7f970b10786325fc9999b982f977a5b49462"
    else "26e521568426f7b1e12b81c8ec1495b8be59dc087eda58da5ded866054588637"

section

attribute [local instance] Texts.paths

/-- A write that has been dispatched. -/
def write : ActionRecord := buildActionRecord "write_file" "a.txt" 1 "" "write" "" "dispatched"

def read : ActionRecord := buildActionRecord "read_file" "a.txt" 1 "" "read" "" "planned"

/-- After a hundred reads the dispatched write may be executed again. -/
theorem forgotten_write_executes :
    (write ∈ machine.run [] [.append write] ∧ write.isOf "write_file" "a.txt" = true ∧
      write.sideEffect = "write" ∧ write.status = "dispatched") ∧
    (actionRecoveryDecision (machine.run [] ((write :: List.replicate 100 read).map .append))
      "write_file" "a.txt").decision = .execute := by
  constructor
  · exact ⟨List.mem_singleton.mpr rfl, by decide +kernel, rfl, rfl⟩
  · have recent : (write :: List.replicate 100 read).rtake 100 = List.replicate 100 read := by
      rw [List.rtake, List.length_cons, List.length_replicate, Nat.add_sub_cancel_left, List.drop_one, List.tail_cons]
    rw [run_execute_iff, appended_map, recent]
    intro record member
    rw [(List.mem_replicate.mp member).2]
    rfl

end

end ActionLedger
end FixLoop
