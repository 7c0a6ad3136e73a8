import FixLoop.Library.Machine
import FixLoop.Blackboard.Board

namespace FixLoop
namespace Blackboard

open Library

/-!
# Snapshots, replays and runs
-/

def BLACKBOARD_SCHEMA_VERSION : String := "2.0"

/-- The persisted form.  A missing member reads as the default here. -/
structure Snapshot where
  schemaVersion : String := ""
  entries : List (String × Json) := []
  entryRecords : List BlackboardEntry := []
  conflicts : List Record := []
  conflictHistory : List Record := []
  revision : Nat := 0
  proposals : List Record := []
  events : List Event := []
  eventSequence : Nat := 0

/-- `BlackboardEntry.from_dict(record)`. -/
def BlackboardEntry.fromDict (now : Moment) (fresh : String -> Identifier) (record : BlackboardEntry) :
    BlackboardEntry :=
  { record with
    createdAt := if record.createdAt = 0 then now.time else record.createdAt
    entryId := if record.entryId = "" then (fresh record.key).text else record.entryId }

namespace Snapshot

def version (data : Snapshot) : String := if data.schemaVersion = "" then "1.0" else data.schemaVersion

/-- `data.get("entry_records")`, or records for the plain entries. -/
def records (data : Snapshot) : List BlackboardEntry :=
  if data.entryRecords ≠ [] then data.entryRecords
  else data.entries.mapIdx (fun index entry =>
    { key := entry.1
      value := entry.2
      sourceAgent := "restored"
      createdAt := 0
      revision := index + 1
      entryId := "" })

def restoredEntries (now : Moment) (fresh : String -> Identifier) (data : Snapshot) : List BlackboardEntry :=
  Keyed.ofItems BlackboardEntry.key
    ((data.records.map (BlackboardEntry.fromDict now fresh)).filter
      (fun entry => decide (entry.key ≠ "") && !entry.expired now))

end Snapshot

/-- `max(numbers, default=0)`. -/
def largest (numbers : List Nat) : Nat := numbers.foldl max 0

namespace Board

def snapshot (now : Moment) (board : Board) : Board × Snapshot :=
  let purged := board.purgeExpired now
  (purged,
    { schemaVersion := BLACKBOARD_SCHEMA_VERSION
      entries := purged.entries.map (fun entry => (entry.key, entry.value))
      entryRecords := purged.entries
      conflicts := purged.conflicts
      conflictHistory := purged.conflictHistory
      revision := purged.revision
      proposals := purged.proposals.map Prod.snd
      events := purged.events
      eventSequence := purged.eventSequence })

/-- The board once everything is taken from the data. -/
def restored (now : Moment) (fresh : String -> Identifier) (data : Snapshot) (board : Board) : Board :=
  let entries := data.restoredEntries now fresh
  { board with
    entries := entries
    conflicts := data.conflicts
    conflictHistory := if data.conflictHistory ≠ [] then data.conflictHistory else data.conflicts
    revision := max data.revision (largest (entries.map BlackboardEntry.revision))
    proposals := Keyed.ofItems Prod.fst ((data.proposals.filter
      (fun proposal => decide (proposal.text "proposal_id" ≠ ""))).map
        (fun proposal => (proposal.text "proposal_id", proposal)))
    events := data.events
    eventSequence :=
      if data.eventSequence ≠ 0 then data.eventSequence
      else largest (data.events.map Event.sequence) }

def restoreSnapshot (now : Moment) (fresh : String -> Identifier) (data : Snapshot) (board : Board) :
    Except String Board :=
  if data.version ≠ "1.0" ∧ data.version ≠ BLACKBOARD_SCHEMA_VERSION then
    .error ("unsupported Blackboard schema_version: " ++ data.version)
  else .ok (board.restored now fresh data)

/-- `with board.transaction(): body`, where the body may end with an
`Exception`; the flag says so. -/
def transaction (now later : Moment) (fresh : String -> Identifier) (body : Board -> Board × Bool)
    (board : Board) : Board :=
  let before := board.snapshot now
  let after := body before.1
  if after.2 then
    match after.1.restoreSnapshot later fresh before.2 with
    | .ok restored => restored
    | .error _ => after.1
  else after.1

/-- What the clock and the identifiers answer during one write. -/
structure Reading where
  now : Moment
  created : Moment
  entryId : Identifier

def replayEvent (readings : Event -> Reading) (board : Board) (event : Event) : Board :=
  if event.eventType = "blackboard_write" then
    (board.write (readings event).now (readings event).created (readings event).entryId
      (event.payload.text "key") (event.payload.get "value") (event.payload.text "source_agent")
      (event.payload.get "ttl").number? none (event.payload.texts "evidence_refs")).1
  else board

def replayEvents (readings : Event -> Reading) (policies : List NamespacePolicy) (events : List Event) : Board :=
  (events.mergeSort fun first second => first.sequence ≤ second.sequence).foldl (replayEvent readings)
    { namespacePolicies := policies }

end Board

inductive Operation where
  | registerNamespace (policy : NamespacePolicy)
  | propose (proposalId : Identifier) (key : String) (value : Json) (sourceAgent : String)
      (evidenceRefs : List String) (baseRevision baseEntryRevision : Option Int) (ttl : Option ℚ)
  | mergeProposal (now created : Moment) (proposal : Record)
  | write (now created : Moment) (entryId : Identifier) (key : String) (value : Json) (sourceAgent : String)
      (ttl : Option ℚ) (expectedRevision : Option Int) (evidenceRefs : List String)
  | read (now : Moment) (key : String)
  | snapshot (now : Moment)
  | restoreSnapshot (now : Moment) (fresh : String -> Identifier) (data : Snapshot)
  | resolveConflict (key winnerSource : String)
  | applyConflictWinner (now created : Moment) (entryId : Identifier) (key : String) (value : Json)
      (winnerSource : String)
  | rejectConflict (key reason : String)

def step (board : Board) : Operation -> Board
  | .registerNamespace policy => { board with namespacePolicies := board.namespacePolicies ++ [policy] }
  | .propose proposalId key value sourceAgent evidenceRefs baseRevision baseEntryRevision ttl =>
    (board.propose proposalId key value sourceAgent evidenceRefs baseRevision baseEntryRevision ttl).1
  | .mergeProposal now created proposal => (board.mergeProposal now created proposal).1
  | .write now created entryId key value sourceAgent ttl expectedRevision evidenceRefs =>
    (board.write now created entryId key value sourceAgent ttl expectedRevision evidenceRefs).1
  | .read now key => (board.read now key).1
  | .snapshot now => (board.snapshot now).1
  | .restoreSnapshot now fresh data =>
    match board.restoreSnapshot now fresh data with
    | .ok restored => restored
    | .error _ => board
  | .resolveConflict key winnerSource => board.resolveConflict key winnerSource
  | .applyConflictWinner now created entryId key value winnerSource =>
    board.applyConflictWinner now created entryId key value winnerSource
  | .rejectConflict key reason => board.rejectConflict key reason

def machine : Machine Board Operation := ⟨step⟩

end Blackboard
end FixLoop
