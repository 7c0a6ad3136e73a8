import FixLoop.Library.Relations
import FixLoop.Library.Fallible
import FixLoop.PlanRuntime.EvidenceRecords

namespace FixLoop
namespace PlanRuntime

open Library
open Dynamic
open Fallible (bind_ok mapM_ok_iff)

/-!
# Valid evidence

An inspection that ends as valid has gone through everything that the record
refers to, and rejects a path that comes back to a record.
-/

section Soundness

variable [Hashing] {ledger : EvidenceLedger}

/-- The record that an inspection visits, and whether it visits it as history. -/
abbrev Visit := Hashed × Bool

/-- A record that is inspected with another one. -/
def EvidenceLedger.Refers (ledger : EvidenceLedger) (first second : Visit) : Prop :=
  ∃ record visits ref,
    ledger.record? first.1 = .ok (some record) ∧ followed first.2 record = .ok visits ∧
      (ref, second.2) ∈ visits ∧ hashed ref = .ok second.1

/-- The record is the one that was written, it belongs to the ledger, and it
reports a success. -/
structure EvidenceLedger.Intact (ledger : EvidenceLedger) (record : Record) : Prop where
  checksum : (record.get "checksum").same (recordDigest record) = true
  identity : (record.get "identity").same ledger.identity = true
  successful : (record.get "status").same (.str "success") = true

/-- The workspace has the versions of the record, and no other files where the
record is about the whole workspace. -/
def EvidenceLedger.Current (ledger : EvidenceLedger) (record : Record) : Prop :=
  ∃ versions current, record.get "file_versions" = .obj versions ∧
    ledger.snapshot = .given current ∧
    (∀ path version, (path, version) ∈ versions -> (Record.get path current).same version = true) ∧
    ((record.get "whole_workspace").truthy = true -> (Json.obj versions).same (.obj current) = true)

/-- What a valid inspection says of a record that it visits. -/
structure EvidenceLedger.Sound (ledger : EvidenceLedger) (visit : Visit) (record : Record) : Prop where
  exists_ : ledger.record? visit.1 = .ok (some record)
  intact : ledger.Intact record
  current : visit.2 = false -> ledger.Current record
  /-- Its references are names of records. -/
  named : ∃ visits, followed visit.2 record = .ok visits ∧
    ∀ ref historical, (ref, historical) ∈ visits -> ∃ key, hashed ref = .ok key

/-! ## Rejections -/

/-- A check that fails does not fail as valid. -/
def Rejects (check : Except Fault Examined) : Prop :=
  ∀ finding, check = .ok (.failed finding) -> finding.status ≠ .valid

section Rejections

omit [Hashing]

theorem rejects_passed : Rejects (.ok .passed) := by
  intro finding failed
  cases failed

theorem rejects_error (fault : Fault) : Rejects (.error fault) := by
  intro finding failed
  cases failed

variable {finding : Finding}

theorem rejects_failed (bad : finding.status ≠ .valid) : Rejects (.ok (.failed finding)) := by
  intro other failed
  cases failed
  exact bad

theorem rejects_bind {Value : Type} {first : Except Fault Value} {next : Value -> Except Fault Examined}
    (rejects : ∀ value, Rejects (next value)) : Rejects (first >>= next) := by
  cases first with
  | error fault => exact rejects_error fault
  | ok value => exact rejects value

theorem rejects_ite {condition : Prop} [Decidable condition] {first second : Except Fault Examined}
    (holds : Rejects first) (fails : Rejects second) : Rejects (if condition then first else second) := by
  split
  · exact holds
  · exact fails

variable (record : Record)

theorem rejects_checkEnvironment : Rejects (ledger.checkEnvironment record) := by
  apply rejects_bind
  intro kind
  apply rejects_bind
  intro name
  dsimp only
  split
  · exact rejects_passed
  apply rejects_ite rejects_passed
  apply rejects_bind
  intro expected
  apply rejects_ite (rejects_failed (by decide))
  split
  · exact rejects_error _
  · exact rejects_failed (by decide)
  · exact rejects_ite (rejects_failed (by decide)) rejects_passed

theorem rejects_checkRecord (historical : Bool) (record : Record) :
    Rejects (ledger.checkRecord historical record) := by
  unfold EvidenceLedger.checkRecord EvidenceLedger.checkCurrent
  apply rejects_ite (rejects_failed (by decide))
  apply rejects_ite rejects_passed
  split
  · split
    · exact rejects_error _
    · exact rejects_failed (by decide)
    · exact rejects_ite (rejects_failed (by decide)) (rejects_checkEnvironment record)
  · exact rejects_failed (by decide)

theorem observedText_failed {record : Record} (failed : ledger.observedText record = .ok (.inl finding)) :
    finding.status ≠ .valid := by
  unfold EvidenceLedger.observedText at failed
  dsimp only at failed
  split at failed
  · split at failed
    · cases failed
    · cases failed
      decide
    · rcases bind_ok failed with ⟨_, _, impossible⟩
      cases impossible
  · rcases bind_ok failed with ⟨_, _, failed⟩
    rcases bind_ok failed with ⟨observation, _, failed⟩
    cases observation with
    | none =>
      cases failed
      decide
    | some observation =>
      rcases bind_ok failed with ⟨_, _, failed⟩
      rcases bind_ok failed with ⟨_, _, impossible⟩
      cases impossible

theorem rejects_checkObservation : Rejects (ledger.checkObservation record) := by
  unfold EvidenceLedger.checkObservation
  cases observed : ledger.observedText record with
  | error fault => exact rejects_error fault
  | ok outcome =>
    cases outcome with
    | inl finding => exact rejects_failed (observedText_failed observed)
    | inr text =>
      exact rejects_ite (rejects_failed (by decide)) (rejects_ite (rejects_failed (by decide)) rejects_passed)

theorem rejects_checkVerification (isTests : Bool) (record : Record) :
    Rejects (ledger.checkVerification isTests record) := by
  apply rejects_bind
  intro sound
  exact rejects_ite (rejects_failed (by decide)) rejects_passed

theorem rejects_checkKind : Rejects (ledger.checkKind record) := by
  apply rejects_bind
  intro kind
  apply rejects_ite (rejects_checkObservation record)
  apply rejects_ite
  · unfold EvidenceLedger.checkAnalysis
    split
    · exact rejects_failed (by decide)
    · exact rejects_passed
  apply rejects_ite
  · apply rejects_bind
    intro sound
    exact rejects_ite (rejects_failed (by decide)) rejects_passed
  apply rejects_bind
  intro name
  apply rejects_ite (rejects_checkVerification true record)
  apply rejects_ite (rejects_checkVerification false record)
  exact rejects_failed (by decide)

end Rejections

/-! ## One inspection -/

/-- What a valid inspection has found. -/
structure Inspected (ledger : EvidenceLedger) (ref : Json) (historical : Bool) (path : List Hashed)
    (key : Hashed) (record : Record) : Prop where
  named : hashed ref = .ok key
  fresh : key ∉ path
  present : ledger.record? key = .ok (some record)
  integral : ledger.integrity record = none
  checked : ledger.checkRecord historical record = .ok .passed
  inspected : ∃ visits, followed historical record = .ok visits ∧
    ∀ other mode, (other, mode) ∈ visits -> ∃ dependency,
      ledger.inspect other mode (key :: path) = .ok dependency ∧ dependency.status = .valid

variable {historical : Bool} {path : List Hashed} {record : Record} {key : Hashed}

variable {dependencies : List Inspection} {ref : Json} {result : Inspection}

omit [Hashing] in
theorem concluded_valid (valid : (concluded historical dependencies).1.status = .valid) :
    ∀ dependency ∈ dependencies, dependency.status = .valid := by
  unfold concluded at valid
  split at valid
  · rename_i failed located
    have bad := List.find?_some located
    exact absurd valid (of_decide_eq_true bad)
  · rename_i none
    intro dependency member
    have good := List.find?_eq_none.mp none dependency member
    exact not_not.mp fun bad => good (decide_eq_true bad)

theorem inspected_of_valid (returned : ledger.inspect ref historical path = .ok result)
    (valid : result.status = .valid) :
    ∃ key record, Inspected ledger ref historical path key record := by
  rw [EvidenceLedger.inspect] at returned
  cases named : hashed ref with
  | error fault =>
    rw [named] at returned
    cases returned
  | ok key =>
  rw [named] at returned
  dsimp only at returned
  split at returned
  · cases returned
    cases valid
  rename_i fresh
  split at returned
  · cases returned
  · cases returned
    cases valid
  rename_i record present
  split at returned
  · rename_i finding broken
    cases returned
    unfold EvidenceLedger.integrity at broken
    split at broken
    · cases broken
      cases valid
    · split at broken
      · cases broken
        cases valid
      · cases broken
  rename_i integral
  split at returned
  · cases returned
  · rename_i finding failed
    cases returned
    exact absurd valid (rejects_checkRecord historical record finding failed)
  rename_i checked
  split at returned
  · cases returned
  · rename_i finding failed
    cases returned
    exact absurd valid (rejects_checkKind record finding failed)
  split at returned
  · cases returned
  rename_i visits follows
  split at returned
  · cases returned
  rename_i dependencies inspected
  cases returned
  refine ⟨key, record, named, fresh, present, integral, checked, visits, follows, ?_⟩
  intro other mode member
  rcases List.forall₂_iff_get.mp (mapM_ok_iff.mp inspected) with ⟨length, each⟩
  rcases List.mem_iff_get.mp member with ⟨index, same⟩
  refine ⟨dependencies.get ⟨index, length ▸ index.isLt⟩, ?_, ?_⟩
  · have here := each index index.isLt (length ▸ index.isLt)
    rw [same] at here
    exact here
  · exact concluded_valid valid _ (List.get_mem _ _)

omit [Hashing] in
theorem current_of_checked
    (checked : (if false = true then .ok .passed else ledger.checkCurrent record) = .ok .passed) :
    ledger.Current record := by
  rw [if_neg Bool.false_ne_true] at checked
  unfold EvidenceLedger.checkCurrent at checked
  split at checked
  · rename_i versions versioned
    split at checked
    · cases checked
    · cases checked
    rename_i current taken
    split at checked
    · cases checked
    rename_i same
    have same := not_or.mp same
    refine ⟨versions, current, versioned, taken, ?_, ?_⟩
    · intro path version member
      by_contra differs
      refine same.2 (List.any_eq_true.mpr ⟨(path, version), member, ?_⟩)
      rw [Bool.eq_false_of_not_eq_true differs]
      rfl
    · intro whole
      by_contra differs
      exact same.1 ⟨whole, Bool.eq_false_of_not_eq_true differs⟩
  · cases checked

/-- What the checks of a record that passes have found. -/
theorem Inspected.sound (inspected : Inspected ledger ref historical path key record) :
    ledger.Sound (key, historical) record := by
  have integral := inspected.integral
  have checked := inspected.checked
  unfold EvidenceLedger.integrity at integral
  unfold EvidenceLedger.checkRecord at checked
  split at integral
  · cases integral
  rename_i checksum
  split at integral
  · cases integral
  rename_i identity
  split at checked
  · cases checked
  rename_i successful
  refine ⟨inspected.present, ⟨?_, ?_, ?_⟩, ?_, ?_⟩
  · exact Bool.not_eq_false _ ▸ checksum
  · exact Bool.not_eq_false _ ▸ identity
  · exact Bool.not_eq_false _ ▸ successful
  · rintro ⟨⟩
    exact current_of_checked checked
  · rcases inspected.inspected with ⟨visits, follows, each⟩
    refine ⟨visits, follows, ?_⟩
    intro other mode member
    rcases each other mode member with ⟨dependency, returned, valid⟩
    rcases inspected_of_valid returned valid with ⟨name, _, found⟩
    exact ⟨name, found.named⟩

/-- A valid inspection has searched everything that the record refers to. -/
theorem explored_of_valid (returned : ledger.inspect ref historical path = .ok result)
    (valid : result.status = .valid) (named : hashed ref = .ok key) :
    Explored Prod.fst ledger.Refers (fun visit => ∃ record, ledger.Sound visit record)
      path (key, historical) := by
  induction left : ledger.unseen path using Nat.strong_induction_on
    generalizing ref historical path result key with
  | _ count ih =>
    rcases inspected_of_valid returned valid with ⟨name, record, inspected⟩
    cases inspected.named.symm.trans named
    refine .visit inspected.fresh ⟨record, inspected.sound⟩ ?_
    rintro ⟨other, mode⟩ ⟨found, visits, reference, present, follows, member, called⟩
    cases Except.ok.inj (inspected.present.symm.trans present)
    rcases inspected.inspected with ⟨inspections, followed, each⟩
    cases followed.symm.trans follows
    rcases each reference mode member with ⟨dependency, inspection, good⟩
    have fewer := ledger.unseen_lt inspected.fresh inspected.present
    exact ih _ (left ▸ fewer) inspection good called rfl

/-- What a current inspection that ends as valid says. -/
structure EvidenceLedger.Supported (ledger : EvidenceLedger) (key : Hashed) : Prop where
  /-- Every record that can be reached is there, as it was written, and current
  unless it is reached as history. -/
  sound : ∀ visit, Relation.ReflTransGen ledger.Refers (key, false) visit ->
    ∃ record, ledger.Sound visit record
  acyclic : ∀ first second, Relation.ReflTransGen ledger.Refers (key, false) first ->
    Relation.TransGen ledger.Refers first second -> second.1 ≠ first.1

/-- Evidence that is found valid is supported by everything that it refers to. -/
theorem inspect_sound (ledger : EvidenceLedger) (ref : Json) {result : Inspection}
    (returned : ledger.inspect ref false [] = .ok result) (valid : result.status = .valid) :
    ∃ key, hashed ref = .ok key ∧ ledger.Supported key := by
  rcases inspected_of_valid returned valid with ⟨key, _, inspected⟩
  have explored := explored_of_valid returned valid inspected.named
  refine ⟨key, inspected.named, ?_, ?_⟩
  · intro visit reached
    exact explored.good_of_reached reached
  · intro first second reached cycle
    rcases explored.along reached with ⟨_, here, _⟩
    exact here.name_ne cycle

/-! ## Two records -/

/-- A record that passes every check is as valid as its dependencies. -/
theorem inspect_passes (ref : Json) (historical : Bool) {visits : List (Json × Bool)}
    (named : hashed ref = .ok key) (fresh : key ∉ path) (present : ledger.record? key = .ok (some record))
    (integral : ledger.integrity record = none)
    (checked : ledger.checkRecord historical record = .ok .passed)
    (kind : ledger.checkKind record = .ok .passed) (follows : followed historical record = .ok visits)
    (inspected : visits.mapM (fun visit => ledger.inspect visit.1 visit.2 (key :: path)) = .ok dependencies) :
    ∃ result, ledger.inspect ref historical path = .ok result ∧
      result.finding = (concluded historical dependencies).1 := by
  rw [EvidenceLedger.inspect, named]
  dsimp only
  rw [dif_neg fresh]
  split
  · rename_i failed
    cases present.symm.trans failed
  · rename_i missing
    cases present.symm.trans missing
  · rename_i other found
    cases present.symm.trans found
    rw [integral, checked, kind, follows]
    dsimp only
    rw [inspected]
    exact ⟨_, rfl, rfl⟩

end Soundness

section Examples

attribute [local instance] Hashing.constant

/-- A verification that has passed; it carries references, which `inspect` does
not follow for its kind. -/
def verifiedRecord : Record :=
  [("attempt_id", .str "A"), ("checksum", .str "0"), ("evidence_id", .str "E-1"),
    ("execution_stopped", .bool true), ("file_versions", .obj []),
    ("identity", .obj [("run_id", .str "run")]), ("input_refs", .arr [.str "E-0"]),
    ("kind", .str "tests_passed"),
    ("receipt", .obj [("all_passed", .bool true), ("attempt_id", .str "A"), ("command", .str "pytest"),
      ("completed", .bool true), ("run_id", .str "run"), ("total_tests", .int 1)]),
    ("status", .str "success"), ("whole_workspace", .bool true)]

def analysisRecord : Record :=
  [("attempt_id", .str "A"), ("checksum", .str "0"), ("conclusion", .str "fixed"),
    ("evidence_id", .str "E-2"), ("file_versions", .obj []), ("identity", .obj [("run_id", .str "run")]),
    ("input_refs", .arr [.str "E-1"]), ("kind", .str "analysis_recorded"), ("status", .str "success"),
    ("whole_workspace", .bool true)]

/-- A ledger of both records over an empty workspace. -/
def twoRecords : EvidenceLedger where
  rows := [⟨1, "evidence", some (.obj verifiedRecord), "", "0"⟩,
    ⟨2, "evidence", some (.obj analysisRecord), "0", "0"⟩]
  identity := .obj [("run_id", .str "run")]
  snapshot := .given []
  environment := none
  blob _ := .refused
  observation _ := .ok none
  expand _ := .error "KeyError"
  sha256 text := text

theorem verified_valid (path : List Hashed) (fresh : Hashed.text "E-1" ∉ path) :
    ∃ result, twoRecords.inspect (.str "E-1") false path = .ok result ∧
      result.status = .valid := by
  have present : twoRecords.record? (.text "E-1") = .ok (some verifiedRecord) := rfl
  have checked : twoRecords.checkRecord false verifiedRecord = .ok .passed := rfl
  have kind : twoRecords.checkKind verifiedRecord = .ok .passed := rfl
  rcases inspect_passes (.str "E-1") false rfl fresh present rfl checked kind rfl rfl with
    ⟨result, returned, finding⟩
  exact ⟨result, returned, congrArg Finding.status finding⟩

theorem inspect_sound_analysis : twoRecords.Supported (.text "E-2") := by
  rcases verified_valid [.text "E-2"] (by decide) with ⟨verified, returned, valid⟩
  have present : twoRecords.record? (.text "E-2") = .ok (some analysisRecord) := rfl
  have inspected : [(Json.str "E-1", false)].mapM (fun visit =>
      twoRecords.inspect visit.1 visit.2 [.text "E-2"]) = .ok [verified] := by
    rw [List.mapM_cons, returned]
    rfl
  have checked : twoRecords.checkRecord false analysisRecord = .ok .passed := rfl
  have kind : twoRecords.checkKind analysisRecord = .ok .passed := rfl
  rcases inspect_passes (.str "E-2") false rfl List.not_mem_nil present rfl checked kind rfl inspected with
    ⟨result, accepted, finding⟩
  have good : result.status = .valid := by
    rw [Inspection.status, finding, concluded, List.find?_cons_of_neg (by simp [valid]), List.find?_nil]
  rcases inspect_sound twoRecords (.str "E-2") accepted good with ⟨key, named, supported⟩
  cases named
  exact supported

/-- A valid record names a record that is missing, in a member that `inspect` does
not look at for its kind. -/
theorem inspect_stray_reference : ∃ result record,
    twoRecords.inspect (.str "E-1") false [] = .ok result ∧ result.status = .valid ∧
      twoRecords.record? (.text "E-1") = .ok (some record) ∧
      iterate (record.get "input_refs") = .ok [.str "E-0"] ∧
      twoRecords.record? (.text "E-0") = .ok none := by
  rcases verified_valid [] List.not_mem_nil with ⟨result, returned, valid⟩
  exact ⟨result, verifiedRecord, returned, valid, rfl, rfl, rfl⟩

end Examples

end PlanRuntime
end FixLoop
