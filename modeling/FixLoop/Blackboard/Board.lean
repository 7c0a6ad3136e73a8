import Mathlib.Algebra.Order.Ring.Unbundled.Rat
import FixLoop.Library.Keyed
import FixLoop.Library.Record
import FixLoop.Library.Strings

namespace FixLoop
namespace Blackboard

open Library

/-!
# The blackboard

Entries under keys, each with the agent that owns it and the revision that it
got, beside proposals, conflicts and a log of events.  Proposals, conflicts and
the payloads of events are dictionaries; their members have the types that the
board itself gives them.
-/

/-- A reading of `time.time()`. -/
structure Moment where
  time : ℚ
  positive : 0 < time

/-- `uuid.uuid4().hex[:12]`. -/
structure Identifier where
  text : String
  nonempty : text ≠ ""

structure BlackboardEntry where
  key : String
  value : Json
  sourceAgent : String
  createdAt : ℚ
  ttl : Option ℚ := none
  status : String := "accepted"
  evidenceRefs : List String := []
  baseRevision : Int := 0
  revision : Nat := 0
  entryId : String

def BlackboardEntry.expired (now : Moment) (entry : BlackboardEntry) : Bool :=
  match entry.ttl with
  | none => false
  | some ttl => decide (ttl < now.time - entry.createdAt)

/-- A validator that raises refuses the value. -/
structure NamespacePolicy where
  namePrefix : String
  allowedSources : List String
  validator : Option (Json -> Bool)
  defaultTtl : Option ℚ

structure Event where
  sequence : Nat
  eventType : String
  payload : Record

@[ext] structure Board where
  entries : List BlackboardEntry := []
  conflicts : List Record := []
  conflictHistory : List Record := []
  revision : Nat := 0
  proposals : List (String × Record) := []
  events : List Event := []
  eventSequence : Nat := 0
  namespacePolicies : List NamespacePolicy

/-- `del events[:-1000]`. -/
@[irreducible] def lastEvents (events : List Event) : List Event := events.drop (events.length - 1000)

def optional {Value : Type} (encode : Value -> Json) : Option Value -> Json
  | none => .null
  | some value => encode value

/-- The policy of the longest prefix; of several, the first. -/
def longest : List NamespacePolicy -> Option NamespacePolicy
  | [] => none
  | policy :: rest =>
    match longest rest with
    | none => some policy
    | some other => if policy.namePrefix.length < other.namePrefix.length then some other else some policy

namespace Board

variable (board : Board)

def find? (key : String) : Option BlackboardEntry := Keyed.find? BlackboardEntry.key key board.entries

def store (entry : BlackboardEntry) : Board :=
  { board with entries := Keyed.store BlackboardEntry.key entry board.entries }

/-- The revision of the entry of a key, zero without one. -/
def entryRevision (key : String) : Nat := ((board.find? key).map BlackboardEntry.revision).getD 0

def policyFor (key : String) : Option NamespacePolicy :=
  longest (board.namespacePolicies.filter fun policy => Strings.startsWith policy.namePrefix key)

def validateWrite (key : String) (value : Json) (sourceAgent : String) : Bool × String :=
  match board.policyFor key with
  | none => (true, "")
  | some policy =>
    if policy.allowedSources ≠ [] ∧ sourceAgent ∉ policy.allowedSources then (false, "source_not_allowed")
    else if (policy.validator.map fun validator => validator value).getD true then (true, "")
    else (false, "value_schema_invalid")

/-- The time to live of a new entry: the one that is asked for or the default
of the namespace. -/
def ttlFor (key : String) (ttl : Option ℚ) : Option ℚ :=
  ttl.or ((board.policyFor key).bind NamespacePolicy.defaultTtl)

def purgeExpired (now : Moment) : Board :=
  { board with entries := board.entries.filter (fun entry => !entry.expired now) }

def appendEvent (eventType : String) (payload : Record) : Board :=
  { board with
    eventSequence := board.eventSequence + 1
    events := lastEvents (board.events ++ [⟨board.eventSequence + 1, eventType, payload⟩]) }

def recordConflict (conflict : Record) : Board :=
  let item := Record.update conflict [("lifecycle", .str "pending")]
  { board with
    conflicts := board.conflicts ++ [item]
    conflictHistory := board.conflictHistory ++ [item] }.appendEvent "conflict_detected" item

/-! ## Proposals -/

def propose (proposalId : Identifier) (key : String) (value : Json) (sourceAgent : String)
    (evidenceRefs : List String) (baseRevision baseEntryRevision : Option Int) (ttl : Option ℚ) : Board × Record :=
  let verdict := board.validateWrite key value sourceAgent
  let proposal : Record :=
    [("proposal_id", .str proposalId.text), ("key", .str key), ("value", value),
      ("source_agent", .str sourceAgent),
      ("evidence_refs", .arr (evidenceRefs.eraseDups.map Json.str)),
      ("base_revision", .int (baseRevision.getD board.revision)),
      ("base_entry_revision", optional Json.int baseEntryRevision), ("ttl", optional Json.float ttl),
      ("status", .str (if verdict.1 then "proposal" else "rejected")), ("reason", .str verdict.2)]
  ({ board with proposals := Keyed.store Prod.fst (proposalId.text, proposal) board.proposals }.appendEvent
    "proposal_created" proposal, proposal)

/-- How a merge ends. -/
inductive MergeOutcome where
  | rejected
  | staleEntry
  | staleBoard
  | conflicted (existing : BlackboardEntry)
  | confirmed (existing : BlackboardEntry)
  | created

def mergeValue (proposal : Record) : MergeOutcome :=
  match board.find? (proposal.text "key") with
  | none => .created
  | some existing =>
    if existing.value.same (proposal.get "value") then .confirmed existing else .conflicted existing

def mergeOutcome (proposal : Record) : MergeOutcome :=
  if (proposal.get "status").str? = some "rejected" then .rejected
  else
    match proposal.get "base_entry_revision" with
    | .null => if proposal.number "base_revision" ≠ board.revision then .staleBoard else board.mergeValue proposal
    | _ =>
      if proposal.number "base_entry_revision" ≠ board.entryRevision (proposal.text "key") then .staleEntry
      else board.mergeValue proposal

/-- The entry gets the next revision, and the proposal is closed. -/
def acceptMerge (proposal : Record) (entry : BlackboardEntry) : Board × Record :=
  let accepted := (proposal.set "status" (.str "accepted")).set "revision" (.int (board.revision + 1))
  let merged := board.store { entry with revision := board.revision + 1 }
  ({ merged with
      revision := board.revision + 1
      proposals := Keyed.without Prod.fst (proposal.text "proposal_id") board.proposals }.appendEvent
    "blackboard_merge" accepted, accepted)

def mergeInto (created : Moment) (proposal : Record) : Board × Record :=
  match board.mergeOutcome proposal with
  | .rejected =>
    let rejected := proposal.set "status" (.str "rejected")
    ((board.recordConflict rejected).appendEvent "proposal_rejected" proposal, rejected)
  | .staleEntry =>
    let conflict := (proposal.set "status" (.str "stale")).set "current_entry_revision"
      (.int (board.entryRevision (proposal.text "key")))
    ((board.recordConflict conflict).appendEvent "proposal_stale" conflict, conflict)
  | .staleBoard =>
    let conflict := (proposal.set "status" (.str "stale")).set "current_revision" (.int board.revision)
    ((board.recordConflict conflict).appendEvent "proposal_conflicted" conflict, conflict)
  | .conflicted existing =>
    let conflict := ((proposal.set "status" (.str "conflicted")).set "existing_source"
      (.str existing.sourceAgent)).set "existing_value" existing.value
    (board.recordConflict conflict, conflict)
  | .confirmed existing =>
    board.acceptMerge proposal { existing with
      evidenceRefs := (existing.evidenceRefs ++ proposal.texts "evidence_refs").eraseDups }
  | .created =>
    board.acceptMerge proposal
      { key := proposal.text "key"
        value := proposal.get "value"
        sourceAgent := proposal.text "source_agent"
        createdAt := created.time
        ttl := board.ttlFor (proposal.text "key") (proposal.get "ttl").number?
        evidenceRefs := proposal.texts "evidence_refs"
        baseRevision := proposal.number "base_revision"
        entryId := proposal.text "proposal_id" }

def mergeProposal (now created : Moment) (proposal : Record) : Board × Record :=
  (board.purgeExpired now).mergeInto created proposal

inductive WriteOutcome where
  | rejected
  | stale (expected : Int)
  | conflicted (existing : BlackboardEntry)
  | accepted (existing : Option BlackboardEntry)

def writeOutcome (key : String) (value : Json) (sourceAgent : String) (expectedRevision : Option Int) :
    WriteOutcome :=
  if !(board.validateWrite key value sourceAgent).1 then .rejected
  else
    match expectedRevision.filter (fun expected => expected != (board.entryRevision key : Int)) with
    | some expected => .stale expected
    | none =>
      match board.find? key with
      | none => .accepted none
      | some existing => if existing.sourceAgent ≠ sourceAgent then .conflicted existing else .accepted existing

def writeInto (created : Moment) (entryId : Identifier) (key : String) (value : Json) (sourceAgent : String)
    (ttl : Option ℚ) (expectedRevision : Option Int) (evidenceRefs : List String) : Board × Bool :=
  match board.writeOutcome key value sourceAgent expectedRevision with
  | .rejected =>
    ((board.recordConflict
        [("key", .str key), ("source_agent", .str sourceAgent), ("value", value),
          ("status", .str "rejected")]).appendEvent
      "write_rejected" [("key", .str key), ("source_agent", .str sourceAgent)], false)
  | .stale expected =>
    ((board.recordConflict
        [("key", .str key), ("source_agent", .str sourceAgent), ("status", .str "stale"),
          ("expected_entry_revision", .int expected),
          ("current_entry_revision", .int (board.entryRevision key))]).appendEvent
      "write_stale" [("key", .str key), ("source_agent", .str sourceAgent)], false)
  | .conflicted existing =>
    ((board.recordConflict
        [("key", .str key), ("sources", .arr [.str existing.sourceAgent, .str sourceAgent]),
          ("values", .arr [existing.value, value]),
          ("key_revision", .int (board.entryRevision key))]).appendEvent
      "write_conflicted" [("key", .str key), ("source_agent", .str sourceAgent)], false)
  | .accepted existing =>
    let written := board.store
      { key := key
        value := value
        sourceAgent := sourceAgent
        createdAt := created.time
        ttl := board.ttlFor key ttl
        evidenceRefs := evidenceRefs.eraseDups
        baseRevision := board.entryRevision key
        revision := board.revision + 1
        entryId := (existing.map BlackboardEntry.entryId).getD entryId.text }
    ({ written with revision := board.revision + 1 }.appendEvent "blackboard_write"
      [("key", .str key), ("value", value), ("source_agent", .str sourceAgent),
        ("ttl", optional Json.float (board.ttlFor key ttl)),
        ("evidence_refs", .arr (evidenceRefs.eraseDups.map Json.str)),
        ("revision", .int (board.revision + 1))], true)

def write (now created : Moment) (entryId : Identifier) (key : String) (value : Json) (sourceAgent : String)
    (ttl : Option ℚ) (expectedRevision : Option Int) (evidenceRefs : List String) : Board × Bool :=
  (board.purgeExpired now).writeInto created entryId key value sourceAgent ttl expectedRevision evidenceRefs

def read (now : Moment) (key : String) : Board × Json :=
  (board.purgeExpired now, (((board.purgeExpired now).find? key).map BlackboardEntry.value).getD .null)

/-! ## Conflicts -/

/-- The winner settles the conflict. -/
def settles (winnerSource : String) (conflict : Record) : Bool :=
  let sources := conflict.texts "sources"
  let existing := conflict.get "existing_source"
  let neutral := decide (winnerSource = "merge") || decide (winnerSource = "manual")
  if sources ≠ [] then neutral || sources.contains winnerSource
  else if existing.truthy then
    neutral || decide (existing.str? = some winnerSource) ||
      decide ((conflict.get "source_agent").str? = some winnerSource)
  else true

def about (key : String) (conflict : Record) : Bool := decide ((conflict.get "key").str? = some key)

def resolveConflict (key winnerSource : String) : Board :=
  { board with
    conflicts := board.conflicts.filter (fun conflict => !(about key conflict && settles winnerSource conflict))
    conflictHistory := board.conflictHistory ++
      (board.conflicts.filter fun conflict => about key conflict && settles winnerSource conflict).map
        (fun conflict => (conflict.set "lifecycle" (.str "resolved")).set "winner_source" (.str winnerSource)) }

def applyWinner (created : Moment) (entryId : Identifier) (key : String) (value : Json)
    (winnerSource : String) : Board :=
  let materialised := board.store
    { key := key
      value := value
      sourceAgent := winnerSource
      createdAt := created.time
      baseRevision := board.entryRevision key
      revision := board.revision + 1
      entryId := ((board.find? key).map BlackboardEntry.entryId).getD entryId.text }
  { materialised with revision := board.revision + 1 }.resolveConflict key winnerSource

def applyConflictWinner (now created : Moment) (entryId : Identifier) (key : String) (value : Json)
    (winnerSource : String) : Board :=
  (board.purgeExpired now).applyWinner created entryId key value winnerSource

def rejectConflict (key reason : String) : Board :=
  { board with
    conflicts := board.conflicts.filter (fun conflict => !about key conflict)
    conflictHistory := board.conflictHistory ++ (board.conflicts.filter (about key)).map
      (fun conflict => (conflict.set "lifecycle" (.str "rejected")).set "reason" (.str reason)) }

end Board

end Blackboard
end FixLoop
