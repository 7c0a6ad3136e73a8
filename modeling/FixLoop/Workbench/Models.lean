import FixLoop.Library.Json
import FixLoop.Library.Table

namespace FixLoop
namespace Workbench

open Library

/-!
# Rows of the workbench database

The tables of `schema.py` without the time columns.  A row does not repeat
its key.  Columns that a `CHECK` constraint ties together are one value: the
kind of a node carries the mode of a turn or the snapshot of a checkpoint.
-/

abbrev Id := String

/-- A decoded JSON dictionary. -/
abbrev Dict := List (String × Json)

inductive RunStatus where
  | queued
  | running
  | succeeded
  | failed
  | cancelled
  | interrupted
deriving DecidableEq

def RunStatus.text : RunStatus -> String
  | queued => "queued"
  | running => "running"
  | succeeded => "succeeded"
  | failed => "failed"
  | cancelled => "cancelled"
  | interrupted => "interrupted"

/-- `status IN ('queued', 'running')`. -/
def RunStatus.active (status : RunStatus) : Bool :=
  status ∈ [.queued, .running]

/-- `_TERMINAL`. -/
def RunStatus.terminal (status : RunStatus) : Bool :=
  status ∈ [.succeeded, .failed, .cancelled, .interrupted]

theorem RunStatus.terminal_iff {status : RunStatus} :
    status.terminal = true <-> status.active = false := by
  cases status <;> decide

inductive TurnMode where
  | chat
  | projectChat
  | repair
deriving DecidableEq

def TurnMode.text : TurnMode -> String
  | chat => "chat"
  | projectChat => "project_chat"
  | repair => "repair"

/-- `_MODES`. -/
def TurnMode.all : List TurnMode := [.chat, .projectChat, .repair]

def TurnMode.ofText (text : String) : Option TurnMode :=
  TurnMode.all.find? fun mode => mode.text == text

inductive NodeKind where
  | turn (mode : TurnMode)
  | localCheckpoint (snapshotId : Id)
deriving DecidableEq

def NodeKind.isTurn : NodeKind -> Bool
  | turn _ => true
  | localCheckpoint _ => false

structure Conversation where
  title : String
  projectPath : Option String
  baseSnapshotId : Option Id
  activeBranchId : Id
  viewNodeId : Option Id
  revision : Int

structure Branch where
  conversationId : Id
  name : String
  forkNodeId : Option Id
  headNodeId : Option Id

structure Node where
  conversationId : Id
  parentId : Option Id
  kind : NodeKind
  userText : String
  inputSnapshotId : Option Id

structure Run where
  conversationId : Id
  nodeId : Id
  status : RunStatus
  answer : String
  error : Option String
  artifacts : Dict
  outputSnapshotId : Option Id

structure Snapshot where
  conversationId : Id
  storageKey : String
  manifest : Dict

inductive EventKind where
  | runQueued
  | runStarted
  | runFinished
  | candidateApplied
  | candidateDiscarded
deriving DecidableEq

/-- The payload of an event: the row of its run, the operation that applied a
candidate, or the run of a discarded one. -/
inductive EventPayload where
  | run (id : Id) (row : Run)
  | operation (id : Id)
  | discarded (runId : Id)

structure Event where
  runId : Id
  sequence : Nat
  kind : EventKind
  payload : EventPayload

structure Project where
  path : String
  revision : Int
  rootIdentity : Json

inductive CandidateStatus where
  | ready
  | applied
  | discarded
deriving DecidableEq

structure Candidate where
  projectId : Id
  projectRevision : Int
  inputKey : String
  outputKey : String
  status : CandidateStatus
  operationId : Option Id

/-- What `commit_restore` reads of a restore plan. -/
structure Plan where
  id : Id
  root : String
  conversationId : Id
  revision : Int
  projectRevision : Int
  action : String
  manual : Bool
  beforeKey : String
  before : Dict
  targetKey : String
  target : Dict
  branchId : Option Id
  destinationNode : Option Id
  name : String
  runId : Id
  status : String

structure Operation where
  root : String
  payload : Plan

structure Database where
  conversations : Table Conversation
  branches : Table Branch
  nodes : Table Node
  snapshots : Table Snapshot
  runs : Table Run
  events : List Event
  operations : Table Operation
  projects : Table Project
  projectConversations : Table Id
  executionResources : Table Json
  candidates : Table Candidate

def Database.fresh : Database :=
  { conversations := ∅, branches := ∅, nodes := ∅, snapshots := ∅, runs := ∅, events := [],
    operations := ∅, projects := ∅, projectConversations := ∅, executionResources := ∅,
    candidates := ∅ }

/-- The exceptions a store operation raises; `diverges` stands for a call
that does not end. -/
inductive Fault where
  | notFound (text : String)
  | conflict (text : String)
  | value (text : String)
  | integrity (text : String)
  | typeError
  | diverges
deriving DecidableEq

/-- How paths are resolved and how a project is named after its path. -/
class Projects where
  resolve : String -> String
  projectId : String -> Id

/-! ## References between rows -/

namespace Database

def hasNode (db : Database) (conversationId identity : Id) : Bool :=
  (db.nodes.lookup identity).any fun node => node.conversationId == conversationId

def hasBranch (db : Database) (conversationId identity : Id) : Bool :=
  (db.branches.lookup identity).any fun branch => branch.conversationId == conversationId

def hasSnapshot (db : Database) (conversationId identity : Id) : Bool :=
  (db.snapshots.lookup identity).any fun snapshot => snapshot.conversationId == conversationId

/-- A turn of the conversation is queued or running. -/
def busy (db : Database) (conversationId : Id) : Bool :=
  db.runs.rows.any fun run => run.2.conversationId == conversationId && run.2.status.active

/-- `SELECT ... FROM runs WHERE node_id = ?`. -/
def runOf (db : Database) (nodeId : Id) : Option (Id × Run) :=
  db.runs.rows.find? fun run => run.2.nodeId == nodeId

def eventsOf (db : Database) (runId : Id) : List Event :=
  db.events.filter fun event => event.runId == runId

/-- `COALESCE(MAX(sequence),0)+1`. -/
def nextSequence (db : Database) (runId : Id) : Nat :=
  ((db.eventsOf runId).map Event.sequence).foldr max 0 + 1

def projectOf (db : Database) (conversationId : Id) : Option Project :=
  (db.projectConversations.lookup conversationId).bind db.projects.lookup

variable {db : Database} {conversationId : Id}

theorem hasNode_iff {identity : Id} :
    db.hasNode conversationId identity = true <-> ∃ node,
      db.nodes.lookup identity = some node ∧ node.conversationId = conversationId := by
  rw [hasNode, Option.any_eq_true]
  simp only [beq_iff_eq]

theorem hasBranch_iff {identity : Id} :
    db.hasBranch conversationId identity = true <-> ∃ branch,
      db.branches.lookup identity = some branch ∧ branch.conversationId = conversationId := by
  rw [hasBranch, Option.any_eq_true]
  simp only [beq_iff_eq]

theorem busy_iff :
    db.busy conversationId = true <-> ∃ runId run,
      db.runs.lookup runId = some run ∧ run.conversationId = conversationId ∧
        run.status.active = true := by
  rw [busy, List.any_eq_true]
  constructor
  · rintro ⟨⟨runId, run⟩, listed, here⟩
    rw [Bool.and_eq_true, beq_iff_eq] at here
    exact ⟨runId, run, Table.mem_rows.mp listed, here.1, here.2⟩
  · rintro ⟨runId, run, stored, here, active⟩
    refine ⟨(runId, run), Table.mem_rows.mpr stored, ?_⟩
    rw [Bool.and_eq_true, beq_iff_eq]
    exact ⟨here, active⟩

end Database

end Workbench
end FixLoop
