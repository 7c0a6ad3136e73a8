import FixLoop.Library.Record
import FixLoop.PlanRuntime.EventTable

namespace FixLoop
namespace PlanRuntime

open Library
open Dynamic

/-!
# The evidence ledger

`inspect` of `evidence.py` over the events of a journal.  The workspace, the
environment and the archives of observations answer as they do at the moment
of the call.
-/

/-- What a provider answers: a value, an exception that the caller catches
(`OSError` or `ValueError`), or another one. -/
inductive Provided (Value : Type) where
  | given (value : Value)
  | refused
  | raised (fault : Fault)

structure StoredObservation where
  observationId : Json
  runId : Json
  sessionId : Json
  checksum : Json

/-- `EvidenceLedger`: the store with its identity, the providers, and the two
archives that the texts of observations are read from. -/
structure EvidenceLedger where
  rows : List Row
  identity : Json
  snapshot : Provided Record
  environment : Option (Provided Json)
  blob : Json -> Provided String
  observation : Json -> Except Fault (Option StoredObservation)
  expand : Json -> Except Fault String
  sha256 : String -> String

inductive EvidenceStatus where
  | valid
  | invalid
  | unknown
  | stale
deriving DecidableEq

structure Finding where
  status : EvidenceStatus
  reason : String

/-- What `inspect` returns.  A member that is not set is `none`. -/
inductive Inspection where
  | mk (evidenceRef : Json) (kind : Json) (finding : Finding) (historical : Bool)
      (recordChecksum observationId : Option Json) (dependencies : List Inspection)
      (failedDependency : Option Json)

namespace Inspection

def evidenceRef : Inspection -> Json
  | mk ref _ _ _ _ _ _ _ => ref

def finding : Inspection -> Finding
  | mk _ _ finding _ _ _ _ _ => finding

def status (inspection : Inspection) : EvidenceStatus := inspection.finding.status

end Inspection

/-- What the predicates of a kind say of a record. -/
inductive Examined where
  | failed (finding : Finding)
  | passed

/-- `latest`: the newest events come first. -/
def latestRecords (kind key : String) (found : List Event) : Except Fault (List (Hashed × Record)) :=
  found.foldlM (fun table event =>
    if event.kind = kind then do
      let name <- hashed (<- subscript key event.payload)
      match event.payload with
      | .obj record => .ok ((name, record) :: table)
      | _ => .error "TypeError"
    else .ok table) []

section Ledger

variable [Hashing]

def recordDigest (record : Record) : Json := .str (Hashing.digest (.obj (record.without "checksum")))

namespace EvidenceLedger

variable (ledger : EvidenceLedger)

/-- `store.latest("evidence", "evidence_id")`. -/
def records : Except Fault (List (Hashed × Record)) := do
  latestRecords "evidence" "evidence_id" (<- events ledger.rows)

/-- The newest record of an identifier. -/
def record? (key : Hashed) : Except Fault (Option Record) :=
  ledger.records.map fun table => (table.find? fun entry => entry.1 = key).map Prod.snd

/-- The record as a whole. -/
def integrity (record : Record) : Option Finding :=
  if (record.get "checksum").same (recordDigest record) = false then
    some ⟨.invalid, "evidence_checksum_mismatch"⟩
  else if (record.get "identity").same ledger.identity = false then
    some ⟨.invalid, "evidence_scope_mismatch"⟩
  else none

omit [Hashing]

def checkEnvironment (record : Record) : Except Fault Examined := do
  let kind <- hashed (<- subscript "kind" (.obj record))
  match ledger.environment with
  | none => .ok .passed
  | some provider =>
    if kind ∉ [Hashed.text "tests_passed", .text "static_checked"] then .ok .passed
    else
      let receipt := (record.get? "receipt").getD (.obj [])
      let expected <- member "verification_binding" .null receipt
      if expected.truthy = false then
        .ok (.failed ⟨.unknown, "verification_environment_binding_missing"⟩)
      else
        match provider with
        | .raised fault => .error fault
        | .refused => .ok (.failed ⟨.unknown, "verification_environment_unverifiable"⟩)
        | .given actual =>
          if actual.same expected = false then
            .ok (.failed ⟨.stale, "verification_environment_changed"⟩)
          else .ok .passed

/-- The record against the workspace. -/
def checkCurrent (record : Record) : Except Fault Examined :=
  match record.get "file_versions" with
  | .obj versions =>
    match ledger.snapshot with
    | .raised fault => .error fault
    | .refused => .ok (.failed ⟨.unknown, "workspace_unverifiable"⟩)
    | .given current =>
      if ((record.get "whole_workspace").truthy = true ∧
            (Json.obj versions).same (.obj current) = false) ∨
          versions.any (fun entry => !(Record.get entry.1 current).same entry.2) = true then
        .ok (.failed ⟨.stale, "source_changed"⟩)
      else ledger.checkEnvironment record
  | _ => .ok (.failed ⟨.unknown, "file_versions_missing"⟩)

/-- The text of an observation, its checksum and whether it is in scope, or the
reason why there is none. -/
def observedText (record : Record) : Except Fault (Finding ⊕ (String × Json × Bool)) :=
  let archived := record.get "observation_record"
  if archived.truthy = true ∧ (record.get "blob_ref").truthy = true then
    match ledger.blob (record.get "blob_ref") with
    | .raised fault => .error fault
    | .refused => .ok (.inl ⟨.invalid, "blob_unavailable"⟩)
    | .given text => do
        let expected := (record.get? "observation_checksum").getD (.str "")
        let identified <- Dynamic.all [
          (member "observation_id" .null archived).map (fun id => id.same (record.get "observation_id")),
          do .ok ((<- member "run_id" .null archived).same (<- subscript "run_id" ledger.identity)),
          do .ok ((<- member "session_id" .null archived).same (<- subscript "session_id" ledger.identity)),
          (member "checksum" .null archived).map fun checksum => checksum.same expected]
        .ok (.inr (text, expected, identified))
  else do
    let session <- subscript "session_id" ledger.identity
    match <- ledger.observation ((record.get? "observation_id").getD (.str "")) with
    | none => .ok (.inl ⟨.invalid, "observation_missing"⟩)
    | some observation => do
        let run <- subscript "run_id" ledger.identity
        let text <- ledger.expand observation.observationId
        .ok (.inr (text, observation.checksum,
          observation.runId.same run && observation.sessionId.same session &&
            observation.checksum.same (record.get "observation_checksum")))

/-- An observation is archived as it was recorded. -/
def checkObservation (record : Record) : Except Fault Examined := do
  match <- ledger.observedText record with
  | .inl finding => .ok (.failed finding)
  | .inr (text, expected, identified) =>
    if identified = false then .ok (.failed ⟨.invalid, "observation_scope_or_checksum_mismatch"⟩)
    else if expected.truthy = false ∨ (Json.str (ledger.sha256 text)).same expected = false then
      .ok (.failed ⟨.invalid, "blob_checksum_mismatch"⟩)
    else .ok .passed

def checkAnalysis (record : Record) : Examined :=
  if (record.get "conclusion").truthy = false ∨ (record.get "input_refs").truthy = false then
    .failed ⟨.invalid, "analysis_inputs_or_conclusion_missing"⟩
  else .passed

def checkPatch (record : Record) : Except Fault Examined := do
  let receipt := (record.get? "receipt").getD (.obj [])
  let sound <- Dynamic.all [
    (member "status" .null receipt).map (fun status => status.same (.str "success")),
    .ok (record.get "changed_paths").truthy,
    do .ok ((<- member "run_id" .null receipt).same (<- subscript "run_id" ledger.identity)),
    (member "call_id" .null receipt).map Json.truthy,
    (member "receipt_id" .null receipt).map Json.truthy,
    .ok (isTrue (record.get "execution_stopped")),
    .ok (record.get "observation_refs").truthy]
  if sound = false then .ok (.failed ⟨.invalid, "patch_receipt_invalid"⟩) else .ok .passed

/-- The receipt of a verification; `isTests` is whether its kind is `tests_passed`. -/
def checkVerification (isTests : Bool) (record : Record) : Except Fault Examined := do
  let receipt := (record.get? "receipt").getD (.obj [])
  let sound <- Dynamic.all [
    (member (if isTests then "command" else "operation") .null receipt).map Json.truthy,
    (member "completed" .null receipt).map isTrue,
    (member "all_passed" .null receipt).map isTrue,
    if isTests then Dynamic.all [
      do positive (<- member "total_tests" (.int 0) receipt),
      (member "mode" (.str "tests") receipt).map fun mode => mode.same (.str "tests")]
    else Dynamic.all [
      (member "mode" .null receipt).map (fun mode => mode.same (.str "static")),
      (member "category" .null receipt).map fun category => category.same (.str "static_passed")],
    do .ok ((<- member "run_id" .null receipt).same (<- subscript "run_id" ledger.identity)),
    do .ok ((<- member "attempt_id" .null receipt).same (<- subscript "attempt_id" (.obj record))),
    .ok (isTrue (record.get "execution_stopped"))]
  if sound = false then .ok (.failed ⟨.invalid, "verification_receipt_invalid"⟩) else .ok .passed

def checkKind (record : Record) : Except Fault Examined := do
  let kind <- subscript "kind" (.obj record)
  if kind.same (.str "observation_present") then ledger.checkObservation record
  else if kind.same (.str "analysis_recorded") then .ok (checkAnalysis record)
  else if kind.same (.str "patch_applied") then ledger.checkPatch record
  else
    let name <- hashed kind
    if name = .text "tests_passed" then ledger.checkVerification true record
    else if name = .text "static_checked" then ledger.checkVerification false record
    else .ok (.failed ⟨.invalid, "evidence_kind_unsupported"⟩)

/-- The checks of a record that do not depend on its kind. -/
def checkRecord (historical : Bool) (record : Record) : Except Fault Examined :=
  if (record.get "status").same (.str "success") = false then
    .ok (.failed ⟨.invalid, "evidence_not_successful"⟩)
  else if historical then .ok .passed
  else ledger.checkCurrent record

end EvidenceLedger

/-- The references that a record of this kind is inspected with, and whether
they are inspected as history. -/
def followed (historical : Bool) (record : Record) : Except Fault (List (Json × Bool)) :=
  let kind := record.get "kind"
  if kind.same (.str "analysis_recorded") then
    (iterate (record.get "input_refs")).map (List.map (·, historical))
  else if kind.same (.str "patch_applied") then
    (iterate (record.get "observation_refs")).map (List.map (·, true))
  else .ok []

/-- The finding of a record that passed, given its dependencies. -/
def concluded (historical : Bool) (dependencies : List Inspection) : Finding × Option Json :=
  match dependencies.find? (fun dependency => dependency.status ≠ .valid) with
  | some failed =>
    (⟨failed.status, "dependency_unusable:" ++ failed.finding.reason⟩, some failed.evidenceRef)
  | none =>
    (⟨.valid, if historical then "historical_integrity_checked" else "current_predicate_checked"⟩, none)

/-- The record of an observation is returned with its identifier. -/
def observationId (record : Record) : Option Json :=
  if (record.get "kind").same (.str "observation_present") then
    some ((record.get? "observation_id").getD (.str ""))
  else none

namespace EvidenceLedger

variable (ledger : EvidenceLedger)

/-- The entries of the ledger whose names are not on a path. -/
def unseen (path : List Hashed) : Nat :=
  match ledger.records with
  | .error _ => 0
  | .ok table => (table.filter fun entry => entry.1 ∉ path).length

/-- A record that is found takes its name out of those that are left. -/
theorem unseen_lt {path : List Hashed} {key : Hashed} {record : Record} (fresh : key ∉ path)
    (found : ledger.record? key = .ok (some record)) : ledger.unseen (key :: path) < ledger.unseen path := by
  unfold record? at found
  unfold unseen
  cases known : ledger.records with
  | error fault =>
    rw [known] at found
    cases found
  | ok table =>
    rw [known] at found
    rcases Option.map_eq_some_iff.mp (Except.ok.inj found) with ⟨entry, located, _⟩
    have member := List.mem_of_find?_eq_some located
    have named : decide (entry.1 = key) = true :=
      List.find?_some (p := fun entry : Hashed × Record => decide (entry.1 = key)) located
    have fewer : table.filter (fun entry => entry.1 ∉ key :: path) =
        (table.filter fun entry => entry.1 ∉ path).filter (fun entry => entry.1 ≠ key) := by
      rw [List.filter_filter]
      apply List.filter_congr
      intro other _
      simp
    dsimp only
    rw [fewer, List.length_filter_lt_length_iff_exists]
    have named : entry.1 = key := of_decide_eq_true named
    refine ⟨entry, List.mem_filter.mpr ⟨member, ?_⟩, ?_⟩
    · simp [named, fresh]
    · simp [named]

/-- `inspect`.  Its calls go along a path of different records, and their number
is bounded by that of the records. -/
def inspect (ref : Json) (historical : Bool) (path : List Hashed) : Except Fault Inspection :=
  match hashed ref with
  | .error fault => .error fault
  | .ok key =>
    if _fresh : key ∈ path then
      .ok (.mk ref (.str "") ⟨.invalid, "evidence_cycle"⟩ historical none none [] none)
    else
      match _found : ledger.record? key with
      | .error fault => .error fault
      | .ok none =>
        .ok (.mk ref (.str "") ⟨.invalid, "evidence_missing"⟩ historical none none [] none)
      | .ok (some record) =>
        match ledger.integrity record with
        | some finding => .ok (.mk ref (.str "") finding historical none none [] none)
        | none =>
          let kind := (record.get? "kind").getD (.str "")
          let checksum := record.get? "checksum"
          match ledger.checkRecord historical record with
          | .error fault => .error fault
          | .ok (.failed finding) => .ok (.mk ref kind finding historical checksum none [] none)
          | .ok .passed =>
            match ledger.checkKind record with
            | .error fault => .error fault
            | .ok (.failed finding) =>
              .ok (.mk ref kind finding historical checksum (observationId record) [] none)
            | .ok .passed =>
              match followed historical record with
              | .error fault => .error fault
              | .ok visits =>
                match visits.mapM (fun visit => inspect visit.1 visit.2 (key :: path)) with
                | .error fault => .error fault
                | .ok dependencies =>
                  let concluded := concluded historical dependencies
                  .ok (.mk ref kind concluded.1 historical checksum (observationId record)
                    dependencies concluded.2)
termination_by ledger.unseen path
decreasing_by exact ledger.unseen_lt _fresh _found

end EvidenceLedger

end Ledger

end PlanRuntime
end FixLoop
