import FixLoop.Library.Machine
import FixLoop.Library.Record
import FixLoop.Library.Revisions
import FixLoop.Library.Strings
import FixLoop.PlanRuntime.Models

namespace FixLoop
namespace PlanRuntime

open Library

/-!
# Explicit decision revisions

`decisions.py`: the validator of the append-only history of decisions and the
calls that produce the records to append.  A record is a dictionary.  The
validator's `latest` maps each identifier to the newest record under it, which
is the same object as the entry of the history.
-/

/-! ## Values of a record -/

/-- `value in {...}` for a set of texts.  A list or a dictionary is no
possible member of a set. -/
def isOneOf (names : List String) : Json -> Except Fault Bool
  | .arr _ => .error "unhashable type: 'list'"
  | .obj _ => .error "unhashable type: 'dict'"
  | .str name => .ok (decide (name ∈ names))
  | _ => .ok false

/-- `type(value) is int and value == number`. -/
def isInt (number : Int) : Json -> Bool
  | .int value => value == number
  | _ => false

/-- `isinstance(value, str) and value.strip()`. -/
def notBlank : Json -> Bool
  | .str value => Strings.strip value != ""
  | _ => false

def isText : Json -> Bool
  | .str _ => true
  | _ => false

/-- `isinstance(ref, str) and ref`. -/
def isReference : Json -> Bool
  | .str ref => ref != ""
  | _ => false

/-- `type(value) is int and value >= 1`. -/
def isVersion : Json -> Bool
  | .int value => decide (1 ≤ value)
  | _ => false

/-- A checksum as the validator asks for it. -/
def isChecksum : Json -> Bool
  | .str value => value.length == 64
  | _ => false

/-- `record.get("source_kind", "technical")`. -/
def sourceKind (record : Record) : Json := (record.get? "source_kind").getD (.str "technical")

/-- `new_id`, given the hex digits of a fresh `uuid4`. -/
def generatedId (start uuid : String) : String := start ++ "-" ++ uuid

theorem generatedId_ne_empty (start uuid : String) : generatedId start uuid ≠ "" := by
  intro empty
  have length := congrArg String.length empty
  rw [generatedId, String.length_append, String.length_append] at length
  exact absurd length (by simp)

/-! ## `decision_history` -/

def decisionId (record : Record) : String := record.text "decision_id"

def revision (record : Record) : Int := record.number "revision"

def superseded (record : Record) : Record := record.set "status" (.str "superseded")

def revoked (record : Record) : Prop := record.get "status" = .str "revoked"

/-- `{"decision_id": key, "revision": revision}`. -/
def decisionRef (key : String) (revision : Int) : Json :=
  .obj [("decision_id", .str key), ("revision", .int revision)]

/-- The evidence of a decision: references with the checksums of what they
refer to.  Only a decision of the user needs none. -/
def evidenceFits (kind refs checksums : Json) : Bool :=
  match refs, checksums with
  | .arr refs, .obj checksums =>
    (kind.same (.str "user") || !refs.isEmpty) && refs.all isReference &&
      checksums.all (fun entry => refs.any fun ref => ref.same (.str entry.1)) &&
      refs.all (fun ref => checksums.any fun entry => ref.same (.str entry.1)) &&
      checksums.all fun entry => isChecksum entry.2
  | _, _ => false

/-- The revision that a record must have after the newest one of its chain. -/
def nextRevision (previous : Option Record) : Int :=
  match previous with
  | some previous => revision previous + 1
  | none => 1

/-- The reference by which a record names the record it supersedes. -/
def supersedes (ref : Int -> Json) (previous : Option Record) : Json :=
  match previous with
  | some previous => ref (revision previous)
  | none => .null

/-- `previous and previous["status"] == "revoked"`. -/
def wasRevoked (previous : Option Record) : Bool :=
  previous.any fun previous => (previous.get "status").same (.str "revoked")

/-- A later revision stays in the scope of the one before it. -/
def checkScope (previous : Option Record) (record : Record) : Except Fault Unit :=
  match previous with
  | none => .ok ()
  | some previous =>
    raiseIf ((previous.get "node_id").same (record.get "node_id") = false ∨
        (previous.get "plan_id").same (record.get "plan_id") = false ∨
        record.number "plan_version" < previous.number "plan_version" ∨
        (sourceKind previous).same (sourceKind record) = false)
      "decision_chain_scope_invalid"

def checkDecision (previous : Option Record) (key : String) (record : Record) : Except Fault Unit := do
  raiseIf (isInt (nextRevision previous) (record.get "revision") = false) "decision_chain_invalid"
  raiseIf ((record.get "supersedes_ref").same (supersedes (decisionRef key) previous) = false)
    "decision_chain_invalid"
  let known <- isOneOf ["active", "revoked"] (record.get "status")
  raiseIf (known = false) "decision_chain_invalid"
  raiseIf ((record.get "status").same (.str "revoked") = true ∧ previous.isNone) "decision_chain_invalid"
  raiseIf (wasRevoked previous = true) "decision_chain_invalid"
  raiseIf (["statement", "source", "node_id", "plan_id"].all
    (fun name => notBlank (record.get name)) = false) "decision_chain_invalid"
  raiseIf (isText (record.get "rationale") = false) "decision_chain_invalid"
  raiseIf (isVersion (record.get "plan_version") = false) "decision_chain_invalid"
  raiseIf (evidenceFits (sourceKind record) (record.get "evidence_refs")
    (record.get "evidence_checksums") = false) "decision_chain_invalid"
  let sourced <- isOneOf ["user", "technical"] (sourceKind record)
  raiseIf (sourced = false) "decision_source_invalid"
  raiseIf ((sourceKind record).same (.str "user") = true ∧ (record.get "source_refs").truthy = false)
    "decision_source_invalid"
  checkScope previous record

/-- One record of the history, which is kept newest first. -/
def admitDecision [Hashing] (history : List Record) (record : Record) : Except Fault (List Record) :=
  if (record.get "record_type").same (.str "decision") = false then .ok history
  else do
    raiseIf (((record.get? "checksum").getD (.str "")).same
      (.str (Hashing.digest (.obj (record.without "checksum")))) = false) "decision_checksum_invalid"
    match record.get "decision_id" with
    | .str key =>
      raiseIf (key = "") "decision_chain_invalid"
      checkDecision (Revisions.newest decisionId key history) key record
      return Revisions.receive decisionId superseded record history
    | _ => .error "decision_chain_invalid"

/-- The history of the records, newest first. -/
def decisionsOf [Hashing] (records : List Record) : Except Fault (List Record) :=
  records.foldlM admitDecision []

/-- `decision_history`, whose second result is read off the first by
`Revisions.newest`. -/
def decisionHistory [Hashing] (records : List Record) : Except Fault (List Record) :=
  (decisionsOf records).map List.reverse

/-! ## `new_decision` -/

/-- What `evidence.inspect` says of one reference. -/
structure EvidenceCheck where
  status : String
  recordChecksum : Option Json

abbrev Evidence := String -> EvidenceCheck

structure DecisionArgs where
  statement : Json
  rationale : Json
  source : Json
  evidenceRefs : Json
  nodeId : Json
  decisionId : Json
  expectedRevision : Json
  sourceKind : Json
  sourceRefs : Json
  /-- The hex digits that a new identifier would get. -/
  uuid : String

/-- `list(value)`. -/
def listOf : Json -> Except Fault (List Json)
  | .arr items => .ok items
  | .str value => .ok (value.toList.map fun char => .str (String.singleton char))
  | .obj members => .ok (members.map fun entry => .str entry.1)
  | _ => .error "object is not iterable"

/-- The record that a call means to follow. -/
def previousDecision (history : List Record) (decisionId expectedRevision : Json) :
    Except Fault (Option Record) :=
  match decisionId, expectedRevision with
  | .null, .null => .ok none
  | .str key, .int expected => do
      raiseIf (key = "" ∨ expected < 1) "decision_revision_conflict"
      match Revisions.newest PlanRuntime.decisionId key history with
      | none => .error "decision_revision_conflict"
      | some previous =>
        raiseIf (revision previous ≠ expected) "decision_revision_conflict"
        return some previous
  | _, _ => .error "decision_revision_conflict"

/-- The checks of the content of a new decision; the references on return. -/
def checkContent (args : DecisionArgs) : Except Fault (List Json) := do
  raiseIf (notBlank args.statement = false ∨ notBlank args.source = false ∨
    isText args.rationale = false) "decision_content_or_source_missing"
  match args.evidenceRefs with
  | .arr refs =>
    raiseIf (args.sourceKind.same (.str "user") = false ∧ refs = [])
      "decision_content_or_source_missing"
    let known <- isOneOf ["user", "technical"] args.sourceKind
    raiseIf (known = false) "decision_content_or_source_missing"
    raiseIf (args.sourceKind.same (.str "user") = true ∧ args.sourceRefs.truthy = false)
      "decision_content_or_source_missing"
    raiseIf (refs.all isReference = false) "decision_content_or_source_missing"
    return refs
  | _ => .error "decision_content_or_source_missing"

/-- `dict.fromkeys(refs)` of texts. -/
def distinctRefs (refs : List Json) : List String := (refs.filterMap Json.str?).eraseDups

/-- `given or new_id(start)`. -/
def keyOfCall (given : Json) (start uuid : String) : String :=
  match given with
  | .str key => if key = "" then generatedId start uuid else key
  | _ => generatedId start uuid

theorem keyOfCall_str {key : String} (nonempty : key ≠ "") (start uuid : String) :
    keyOfCall (.str key) start uuid = key :=
  if_neg nonempty

/-- The record of a new decision before it gets its checksum. -/
def decisionBody (plan : Plan) (args : DecisionArgs) (previous : Option Record) (refs : List String)
    (checksums : Record) (sourceRefs : List Json) : Record :=
  let key := keyOfCall args.decisionId "decision" args.uuid
  [("record_type", .str "decision"), ("decision_id", .str key),
    ("revision", .int (nextRevision previous)), ("status", .str "active"),
    ("statement", args.statement), ("rationale", args.rationale), ("source", args.source),
    ("source_kind", args.sourceKind), ("source_refs", .arr sourceRefs),
    ("evidence_refs", texts refs), ("evidence_checksums", .obj checksums),
    ("node_id", args.nodeId), ("plan_id", .str plan.planId), ("plan_version", .int plan.planVersion),
    ("supersedes_ref", supersedes (decisionRef key) previous)]

/-- The record with the digest of its other members. -/
def sealed [Hashing] (body : Record) : Record :=
  body ++ [("checksum", .str (Hashing.digest (.obj body)))]

/-- `ref: check["record_checksum"]`. -/
def checksumEntry (evidence : Evidence) (ref : String) : Except Fault (String × Json) :=
  match (evidence ref).recordChecksum with
  | some checksum => .ok (ref, checksum)
  | none => .error "record_checksum"

def newDecision [Hashing] (records : List Record) (plan : Plan) (evidence : Evidence)
    (args : DecisionArgs) : Except Fault Record := do
  let history <- decisionsOf records
  raiseIf ((Revisions.latest decisionId history).any
      (fun record => !(record.get "plan_id").same (.str plan.planId)) = true)
    "decision_plan_identity_mismatch"
  let previous <- previousDecision history args.decisionId args.expectedRevision
  raiseIf (previous.any (fun previous =>
      !(previous.get "node_id").same args.nodeId || !(sourceKind previous).same args.sourceKind ||
        (previous.get "status").same (.str "revoked")) = true)
    "decision_scope_change_requires_new_id"
  let given <- checkContent args
  let refs := distinctRefs given
  raiseIf (refs.all (fun ref => (evidence ref).status == "valid") = false) "decision_evidence_unusable"
  let sourceRefs <- listOf args.sourceRefs
  let checksums <- refs.mapM (checksumEntry evidence)
  return sealed (decisionBody plan args previous refs checksums sourceRefs)

structure RevokeArgs where
  decisionId : Json
  expectedRevision : Json
  sourceRefs : Json

/-- The active record that a call names. -/
def activeDecision (history : List Record) (args : RevokeArgs) (planId : String) :
    Except Fault (String × Record) :=
  match args.decisionId, args.expectedRevision with
  | .str key, .int expected =>
    match Revisions.newest decisionId key history with
    | none => .error "decision_revision_conflict"
    | some previous => do
        raiseIf ((previous.get "status").same (.str "active") = false ∨ revision previous ≠ expected ∨
          (previous.get "plan_id").same (.str planId) = false) "decision_revision_conflict"
        return (key, previous)
  | _, _ => .error "decision_revision_conflict"

/-- The record of a revocation before it gets its checksum. -/
def revocationBody (plan : Plan) (args : RevokeArgs) (key : String) (previous : Record) : Record :=
  (((((previous.set "revision" (.int (revision previous + 1))).set "status" (.str "revoked")).set
    "plan_version" (.int plan.planVersion)).set "source_refs" args.sourceRefs).set
      "supersedes_ref" (decisionRef key (revision previous))).without "checksum"

def revokedDecision [Hashing] (records : List Record) (plan : Plan) (args : RevokeArgs) :
    Except Fault Record := do
  let history <- decisionsOf records
  let (key, previous) <- activeDecision history args plan.planId
  let record := sealed (revocationBody plan args key previous)
  let _ <- decisionHistory (records ++ [record])
  return record

end PlanRuntime
end FixLoop
