import FixLoop.Library.Machine
import FixLoop.Workbench.Store

namespace FixLoop
namespace Workbench

open Library

/-!
# Sequences of store calls

Writers are serialised, so any interleaving of callers is a list of calls.  A
call that fails for a reason outside the store, such as a busy database, rolls
back and is the list without it.
-/

inductive Call where
  | createConversation (uuids : Uuids) (title : String) (projectPath : Option String)
      (baseline : Option (String × Dict))
  | renameConversation (conversationId : Id) (title : String) (expectedRevision : Option Int)
  | viewNode (conversationId : Id) (nodeId : Option Id) (expectedRevision : Option Int)
  | switchBranch (conversationId branchId : Id) (expectedRevision : Option Int)
  | forkAt (uuids : Uuids) (conversationId : Id) (nodeId : Option Id) (name : String)
      (expectedRevision : Option Int)
  | appendTurn (uuids : Uuids) (conversationId : Id) (userText mode : String)
      (inputSnapshotId : Option Id) (expectedRevision : Option Int)
  | appendProjectTurn (uuids : Uuids) (conversationId : Id) (userText mode key : String)
      (manifest : Dict) (manual : Bool) (expectedRevision : Option Int)
  | editTurn (uuids : Uuids) (conversationId nodeId : Id) (userText name : String)
      (expectedRevision : Option Int)
  | regenerateTurn (uuids : Uuids) (conversationId nodeId : Id) (name : String)
      (expectedRevision : Option Int)
  | startRun (conversationId runId : Id)
  | finishRun (uuids : Uuids) (conversationId runId : Id) (args : FinishArgs)
  | discardCandidate (conversationId runId : Id)
  | saveResource (runId : Id) (payload : Json)
  | interruptPendingRuns (conversationId : Id)
  | recordSnapshot (uuids : Uuids) (conversationId : Id) (storageKey : String)
      (manifest : Option Dict) (asBaseline : Bool)
  | appendLocalCheckpoint (uuids : Uuids) (conversationId : Id) (snapshotId : Option Id)
      (label : String) (expectedRevision : Option Int)
  | saveCheckpoint (uuids : Uuids) (conversationId : Id) (key : String) (manifest : Dict)
      (label : String) (expectedRevision : Option Int)
  | commitRestore (uuids : Uuids) (plan : Plan)

namespace Call

/-- The conversation that the call is made on. -/
def conversationId : Call -> Option Id
  | createConversation .. | saveResource .. => none
  | renameConversation identity .. | viewNode identity .. | switchBranch identity ..
  | forkAt _ identity .. | appendTurn _ identity .. | appendProjectTurn _ identity ..
  | editTurn _ identity .. | regenerateTurn _ identity .. | startRun identity ..
  | finishRun _ identity .. | discardCandidate identity .. | interruptPendingRuns identity
  | recordSnapshot _ identity .. | appendLocalCheckpoint _ identity ..
  | saveCheckpoint _ identity .. => some identity
  | commitRestore _ plan => some plan.conversationId

/-- The revision that the caller expects; a restore expects that of its plan. -/
def expectedRevision : Call -> Option Int
  | renameConversation _ _ expected | viewNode _ _ expected | switchBranch _ _ expected
  | forkAt _ _ _ _ expected | appendTurn _ _ _ _ _ expected
  | appendProjectTurn _ _ _ _ _ _ _ expected | editTurn _ _ _ _ _ expected
  | regenerateTurn _ _ _ _ expected | appendLocalCheckpoint _ _ _ _ expected
  | saveCheckpoint _ _ _ _ _ expected => expected
  | commitRestore _ plan => some plan.revision
  | createConversation .. | startRun .. | finishRun .. | discardCandidate .. | saveResource ..
  | interruptPendingRuns _ | recordSnapshot .. => none

/-- Run the operation and forget its reply. -/
def perform [Projects] : Call -> Sql Unit
  | createConversation uuids title projectPath baseline =>
    (fun _ => ()) <$> Workbench.createConversation uuids title projectPath baseline
  | renameConversation identity title expected =>
    (fun _ => ()) <$> Workbench.renameConversation identity title expected
  | viewNode identity nodeId expected =>
    (fun _ => ()) <$> Workbench.viewNode identity nodeId expected
  | switchBranch identity branchId expected =>
    (fun _ => ()) <$> Workbench.switchBranch identity branchId expected
  | forkAt uuids identity nodeId name expected =>
    (fun _ => ()) <$> Workbench.forkAt uuids identity nodeId name expected
  | appendTurn uuids identity userText mode snapshotId expected =>
    (fun _ => ()) <$> Workbench.appendTurn uuids identity userText mode snapshotId expected
  | appendProjectTurn uuids identity userText mode key manifest manual expected =>
    (fun _ => ()) <$>
      Workbench.appendProjectTurn uuids identity userText mode key manifest manual expected
  | editTurn uuids identity nodeId userText name expected =>
    (fun _ => ()) <$> Workbench.editTurn uuids identity nodeId userText name expected
  | regenerateTurn uuids identity nodeId name expected =>
    (fun _ => ()) <$> Workbench.regenerateTurn uuids identity nodeId name expected
  | startRun identity runId => (fun _ => ()) <$> Workbench.startRun identity runId
  | finishRun uuids identity runId args =>
    (fun _ => ()) <$> Workbench.finishRun uuids identity runId args
  | discardCandidate identity runId => Workbench.discardCandidate identity runId
  | saveResource runId payload => Workbench.saveResource runId payload
  | interruptPendingRuns identity => (fun _ => ()) <$> Workbench.interruptPendingRuns identity
  | recordSnapshot uuids identity storageKey manifest asBaseline =>
    (fun _ => ()) <$> Workbench.recordSnapshot uuids identity storageKey manifest asBaseline
  | appendLocalCheckpoint uuids identity snapshotId label expected =>
    (fun _ => ()) <$> Workbench.appendLocalCheckpoint uuids identity snapshotId label expected
  | saveCheckpoint uuids identity key manifest label expected =>
    (fun _ => ()) <$> Workbench.saveCheckpoint uuids identity key manifest label expected
  | commitRestore uuids plan => (fun _ => ()) <$> Workbench.commitRestore uuids plan

end Call

variable [Projects]

def Database.after (db : Database) (call : Call) : Database :=
  match call.perform db with
  | .ok _ after => after
  | .error _ after => after

/-- The database that the call commits, if it does not raise. -/
def Database.commit? (db : Database) (call : Call) : Option Database :=
  match call.perform db with
  | .ok _ after => some after
  | .error _ _ => none

/-- The store, driven by the calls of its users. -/
def workbenchStore : Machine Database Call where
  step := Database.after

theorem commit?_eq_some {db after : Database} {call : Call} :
    db.commit? call = some after <-> call.perform db = .ok () after := by
  cases ran : call.perform db with
  | ok value committed =>
    simp only [Database.commit?, ran, Option.some.injEq, EStateM.Result.ok.injEq, true_and]
  | error fault left => simp only [Database.commit?, ran, reduceCtorEq]

section Atomicity

open Statement

omit [Projects] in
theorem atomic_inTransaction {Value : Type} (body : Sql Value) : Atomic (inTransaction body) :=
  atomic_transaction _ _ body

omit [Projects] in
theorem atomic_checked {Value : Type} {value field : String} {next : Sql Value}
    (later : Atomic next) : Atomic (text value field >>= fun _ => next) :=
  atomic_after_query fun _ => later

/-- An operation that raises leaves the database unchanged. -/
theorem atomic_perform (call : Call) : Atomic call.perform := by
  cases call with
  | createConversation uuids title projectPath baseline =>
    refine atomic_map (atomic_checked ?_)
    cases projectPath with
    | none => exact fun store fault after raised => atomic_inTransaction _ store fault after raised
    | some given => exact atomic_checked (atomic_inTransaction _)
  | renameConversation
  | editTurn
  | recordSnapshot
  | appendLocalCheckpoint
  | saveCheckpoint => exact atomic_map (atomic_checked (atomic_inTransaction _))
  | finishRun => exact atomic_map (atomic_after_query fun _ => atomic_inTransaction _)
  | discardCandidate | saveResource => exact atomic_inTransaction _
  | _ => exact atomic_map (atomic_inTransaction _)

end Atomicity

/-- A call commits, or it raises and changes nothing. -/
theorem after_cases (db : Database) (call : Call) :
    (∃ after, db.commit? call = some after ∧ db.after call = after) ∨
      (db.commit? call = none ∧ db.after call = db) := by
  cases ran : call.perform db with
  | ok value committed =>
    refine Or.inl ⟨committed, ?_, ?_⟩
    · simp only [Database.commit?, ran]
    · simp only [Database.after, ran]
  | error fault left =>
    refine Or.inr ⟨?_, ?_⟩
    · simp only [Database.commit?, ran]
    · simp only [Database.after, ran]
      exact atomic_perform call db fault left ran

end Workbench
end FixLoop
