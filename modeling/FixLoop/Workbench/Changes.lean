import FixLoop.Workbench.Calls

namespace FixLoop
namespace Workbench

open Library
open Library.Statement

/-!
# Changes of the history

The abstract view of the store: the few kinds of change that its history can
undergo, each with the condition under which it may happen.  Every operation
that commits is a sequence of such changes, and the invariants of the history
are proved for one change at a time.
-/

/-- The database after an event of the run. -/
def Database.logged (db : Database) (runId : Id) (kind : EventKind) (payload : EventPayload) :
    Database :=
  { db with events := db.events ++ [⟨runId, db.nextSequence runId, kind, payload⟩] }

/-- A revision that does not go back, by project. -/
def ProjectsAdvance (before after : Table Project) : Prop :=
  ∀ identity project, before.lookup identity = some project ->
    ∃ later, after.lookup identity = some later ∧ project.revision ≤ later.revision

inductive Change (db : Database) : Database -> Prop
  /-- A conversation with its first branch. -/
  | conversationAdded {identity branchId : Id} {row : Conversation} {branch : Branch}
      (fresh : identity ∉ db.conversations) (freshBranch : branchId ∉ db.branches)
      (active : row.activeBranchId = branchId) (unviewed : row.viewNodeId = none)
      (owner : branch.conversationId = identity) (empty : branch.headNodeId = none) :
      Change db { db with
        conversations := db.conversations.insert identity row
        branches := db.branches.insert branchId branch }
  /-- The cursors of a conversation move to a branch and a node of it. -/
  | conversationMoved {identity : Id} {row moved : Conversation}
      (stored : db.conversations.lookup identity = some row)
      (later : row.revision ≤ moved.revision)
      (active : moved.activeBranchId = row.activeBranchId ∨
        db.hasBranch identity moved.activeBranchId = true)
      (view : moved.viewNodeId = row.viewNodeId ∨
        moved.viewNodeId.all (db.hasNode identity) = true) :
      Change db { db with conversations := db.conversations.insert identity moved }
  /-- A branch that starts at a node of its conversation. -/
  | branchAdded {branchId : Id} {branch : Branch} (fresh : branchId ∉ db.branches)
      (head : branch.headNodeId.all (db.hasNode branch.conversationId) = true) :
      Change db { db with branches := db.branches.insert branchId branch }
  | snapshotAdded {snapshotId : Id} {snapshot : Snapshot} (fresh : snapshotId ∉ db.snapshots) :
      Change db { db with snapshots := db.snapshots.insert snapshotId snapshot }
  /-- A checkpoint as the new head of a branch. -/
  | checkpointAdded {nodeId branchId : Id} {node : Node} {branch : Branch}
      (fresh : nodeId ∉ db.nodes) (kind : node.kind.isTurn = false)
      (parent : node.parentId.all (db.hasNode node.conversationId) = true)
      (stored : db.branches.lookup branchId = some branch)
      (owner : branch.conversationId = node.conversationId) :
      Change db { db with
        nodes := db.nodes.insert nodeId node
        branches := db.branches.insert branchId { branch with headNodeId := some nodeId } }
  /-- A turn as the new head of a branch, with its queued run. -/
  | turnAdded {nodeId runId branchId : Id} {node : Node} {branch : Branch}
      (fresh : nodeId ∉ db.nodes) (freshRun : runId ∉ db.runs) (kind : node.kind.isTurn = true)
      (home : node.conversationId ∈ db.conversations)
      (parent : node.parentId.all (db.hasNode node.conversationId) = true)
      (idle : db.busy node.conversationId = false)
      (stored : db.branches.lookup branchId = some branch)
      (owner : branch.conversationId = node.conversationId) :
      Change db (Database.logged { db with
        nodes := db.nodes.insert nodeId node
        runs := db.runs.insert runId (queuedRun node.conversationId nodeId)
        branches := db.branches.insert branchId { branch with headNodeId := some nodeId } }
        runId .runQueued (.run runId (queuedRun node.conversationId nodeId)))
  | runStarted {runId : Id} {run : Run} (stored : db.runs.lookup runId = some run)
      (queued : run.status = .queued) :
      Change db (Database.logged { db with
        runs := db.runs.insert runId { run with status := .running } }
        runId .runStarted (.run runId { run with status := .running }))
  /-- A run ends; one that was never started is cancelled or interrupted. -/
  | runFinished {runId : Id} {run finished : Run} (stored : db.runs.lookup runId = some run)
      (active : run.status.active = true) (ended : finished.status.terminal = true)
      (started : run.status = .queued -> finished.status ∈ [.cancelled, .interrupted])
      (home : finished.conversationId = run.conversationId) (node : finished.nodeId = run.nodeId) :
      Change db (Database.logged { db with runs := db.runs.insert runId finished }
        runId .runFinished (.run runId finished))
  /-- A run that succeeded leaves a candidate. -/
  | candidateAdded {runId : Id} {run : Run} {candidate : Candidate}
      (stored : db.runs.lookup runId = some run) (succeeded : run.status = .succeeded)
      (fresh : runId ∉ db.candidates) (ready : candidate.status = .ready) :
      Change db { db with candidates := db.candidates.insert runId candidate }
  | candidateApplied {runId operationId : Id} {candidate settled : Candidate}
      (stored : db.candidates.lookup runId = some candidate) (ready : candidate.status = .ready)
      (applied : settled.status = .applied) :
      Change db (Database.logged { db with candidates := db.candidates.insert runId settled }
        runId .candidateApplied (.operation operationId))
  | candidateDiscarded {runId : Id} {candidate settled : Candidate}
      (stored : db.candidates.lookup runId = some candidate) (ready : candidate.status = .ready)
      (discarded : settled.status = .discarded) :
      Change db (Database.logged { db with candidates := db.candidates.insert runId settled }
        runId .candidateDiscarded (.discarded runId))
  /-- Projects, their conversations, the operations and the resources. -/
  | aside {projects : Table Project} {bindings : Table Id} {operations : Table Operation}
      {resources : Table Json} (advance : ProjectsAdvance db.projects projects)
      (kept : Table.Keeps db.projectConversations bindings) :
      Change db { db with
        projects := projects, projectConversations := bindings, operations := operations,
        executionResources := resources }

def Changes : Database -> Database -> Prop := Relation.ReflTransGen Change

theorem Changes.refl (db : Database) : Changes db db := Relation.ReflTransGen.refl

theorem Changes.trans {first second third : Database} (earlier : Changes first second)
    (later : Changes second third) : Changes first third :=
  Relation.ReflTransGen.trans earlier later

variable {after : Database} {identity : Id}

variable {before db : Database}

theorem Changes.single (change : Change before after) : Changes before after :=
  Relation.ReflTransGen.single change

theorem Changes.keeps {invariant : Database -> Prop}
    (kept : ∀ before after, invariant before -> Change before after -> invariant after)
    {before after : Database} (changes : Changes before after) (holds : invariant before) :
    invariant after := by
  induction changes with
  | refl => exact holds
  | tail _ change ih => exact kept _ _ ih change

section Inversion

variable {db after : Database}

theorem get_ok {Row : Type} {name : String} {rows : Database -> Table Row} {owner : Row -> Id}
    {identity : Id} {conversationId : Option Id} {row : Row}
    (returned : get name rows owner identity conversationId db = .ok row after) :
    ((rows db).lookup identity = some row ∧
      ∀ required, conversationId = some required -> owner row = required) ∧ db = after := by
  rcases query_ok returned with ⟨found, same⟩
  cases stored : (rows db).lookup identity with
  | none =>
    simp only [stored] at found
    cases found
  | some other =>
    simp only [stored] at found
    by_cases here : conversationId.all (fun required => owner other == required) = true
    · rw [if_pos here] at found
      cases found
      refine ⟨⟨rfl, fun required same => ?_⟩, same⟩
      rw [same, Option.all_some, beq_iff_eq] at here
      exact here
    · rw [if_neg here] at found
      cases found

variable {value : Unit} {row : Conversation} {conversationId : Id}

variable {linked : Database -> Bool} {change : Database -> Database}

theorem insert_ok {key : String} {taken : Database -> Bool}
    (returned : insert key taken linked change db = .ok value after) :
    taken db = false ∧ linked db = true ∧ after = change db := by
  rcases reads_ok returned require_ok with ⟨_, free, returned⟩
  rcases reads_ok returned require_ok with ⟨_, linked, returned⟩
  exact ⟨Bool.not_eq_true' _ |>.mp free, linked, write_ok returned⟩

theorem update_ok (returned : update linked change db = .ok value after) :
    linked db = true ∧ after = change db := by
  rcases reads_ok returned require_ok with ⟨_, linked, returned⟩
  exact ⟨linked, write_ok returned⟩

theorem text_ok {value field : String} {result : Unit}
    (returned : text value field db = .ok result after) : db = after :=
  (require_ok returned).2

theorem conversation_ok {identity : Id} {revision : Option Int}
    (returned : conversation identity revision db = .ok row after) :
    (db.conversations.lookup identity = some row ∧
      ∀ expected, revision = some expected -> row.revision = expected) ∧ db = after := by
  rcases query_ok returned with ⟨found, same⟩
  cases stored : db.conversations.lookup identity with
  | none =>
    simp only [stored] at found
    cases found
  | some other =>
    simp only [stored] at found
    cases revision with
    | none =>
      cases found
      exact ⟨⟨rfl, nofun⟩, same⟩
    | some expected =>
      dsimp only at found
      by_cases current : other.revision = expected
      · rw [if_pos current] at found
        cases found
        refine ⟨⟨rfl, fun required given => ?_⟩, same⟩
        cases given
        exact current
      · rw [if_neg current] at found
        cases found

theorem idle_ok (returned : idle conversationId db = .ok value after) :
    db.busy conversationId = false ∧ db = after := by
  rcases require_ok returned with ⟨free, same⟩
  exact ⟨Bool.not_eq_true' _ |>.mp free, same⟩

theorem nodeNamed_ok {nodeId : Option Id} (returned : nodeNamed conversationId nodeId db = .ok value after) :
    nodeId.all (db.hasNode conversationId) = true ∧ db = after := by
  rcases query_ok returned with ⟨found, same⟩
  refine ⟨?_, same⟩
  cases nodeId with
  | none => rfl
  | some identity =>
    by_cases present : db.hasNode conversationId identity = true
    · exact present
    · simp only [if_neg present] at found
      cases found

theorem validateMode_ok {mode : String} {parsed : TurnMode}
    (returned : validateMode row mode db = .ok parsed after) : db = after :=
  (query_ok returned).2

theorem snapshotRef_ok {snapshotId : Option Id}
    (returned : snapshotRef conversationId row snapshotId db = .ok value after) : db = after :=
  (query_ok returned).2

theorem onlyIf_ok {condition : Bool} {program : Sql Unit}
    (returned : onlyIf condition program db = .ok value after) :
    (condition = false ∧ db = after) ∨ (condition = true ∧ program db = .ok () after) := by
  cases condition with
  | false => exact Or.inl ⟨rfl, (pure_ok returned).2⟩
  | true => exact Or.inr ⟨rfl, returned⟩

end Inversion

/-! ## Shared parts of the operations -/

/-- A commit of an operation on the conversation: among its changes is one
that raises the revision of the conversation. -/
def Commits (identity : Id) (db after : Database) : Prop :=
  ∃ before row moved, Changes db before ∧ before.conversations.lookup identity = some row ∧
      row.revision < moved.revision ∧
        Change before { before with conversations := before.conversations.insert identity moved } ∧
          Changes { before with conversations := before.conversations.insert identity moved } after

theorem Commits.changes (commits : Commits identity db after) : Changes db after := by
  rcases commits with ⟨before, row, moved, earlier, _, _, raised, later⟩
  exact earlier.trans ((Changes.single raised).trans later)

theorem Commits.of_before {middle : Database} (earlier : Changes db middle)
    (commits : Commits identity middle after) : Commits identity db after := by
  rcases commits with ⟨before, row, moved, first, stored, raised, change, later⟩
  exact ⟨before, row, moved, earlier.trans first, stored, raised, change, later⟩

theorem Commits.of_after {middle : Database} (commits : Commits identity db middle)
    (later : Changes middle after) : Commits identity db after := by
  rcases commits with ⟨before, row, moved, first, stored, raised, change, rest⟩
  exact ⟨before, row, moved, first, stored, raised, change, rest.trans later⟩

theorem Change.present (change : Change before after) (present : identity ∈ before.conversations) :
    identity ∈ after.conversations := by
  cases change with
  | conversationAdded => exact (AList.mem_insert _).mpr (Or.inr present)
  | conversationMoved => exact (AList.mem_insert _).mpr (Or.inr present)
  | _ => exact present

/-- A conversation is never removed. -/
theorem Changes.present (changes : Changes before after) (present : identity ∈ before.conversations) :
    identity ∈ after.conversations :=
  changes.keeps (fun _ _ present change => change.present present) present

section Parts

variable {db after : Database} {identity : Id}

theorem stored_of_present (present : identity ∈ db.conversations) :
    ∃ row, db.conversations.lookup identity = some row :=
  Option.isSome_iff_exists.mp (AList.lookup_isSome.mpr present)

/-- The cursors of a conversation move and its revision is raised. -/
theorem moved_commits {change : Conversation -> Conversation}
    (present : identity ∈ db.conversations)
    (raised : ∀ row, row.revision < (change row).revision)
    (active : ∀ row, (change row).activeBranchId = row.activeBranchId ∨
      db.hasBranch identity (change row).activeBranchId = true)
    (view : ∀ row, (change row).viewNodeId = row.viewNodeId ∨
      (change row).viewNodeId.all (db.hasNode identity) = true) :
    Commits identity db { db with conversations := db.conversations.modify identity change } := by
  rcases stored_of_present present with ⟨row, stored⟩
  rw [Table.modify_of_some stored]
  exact ⟨db, row, change row, Changes.refl db, stored, raised row,
    Change.conversationMoved stored (Int.le_of_lt (raised row)) (active row) (view row), Changes.refl _⟩

variable {value : Unit} {branchId : Id}

theorem touch_ok (returned : touch identity db = .ok value after) :
    after = { db with conversations := db.conversations.modify identity Conversation.touched } :=
  (update_ok returned).2

theorem touched_commits (present : identity ∈ db.conversations) :
    Commits identity db { db with
      conversations := db.conversations.modify identity Conversation.touched } :=
  moved_commits present (fun row => Int.lt_succ row.revision) (fun _ => Or.inl rfl)
    (fun _ => Or.inl rfl)

theorem touch_commits (present : identity ∈ db.conversations)
    (returned : touch identity db = .ok value after) : Commits identity db after := by
  rw [touch_ok returned]
  exact touched_commits present

/-- Two updates of one row. -/
theorem modify_modify {Row : Type} (table : Table Row) (key : String) (first second : Row -> Row) :
    (table.modify key first).modify key second = table.modify key (fun row => second (first row)) := by
  cases stored : table.lookup key with
  | none => rw [Table.modify_of_none stored, Table.modify_of_none stored, Table.modify_of_none stored]
  | some row =>
    rw [Table.modify_of_some stored, Table.modify_of_some stored,
      Table.modify_of_some (AList.lookup_insert table), AList.insert_insert]

theorem select_ok {head : Option Id} (returned : select identity branchId head db = .ok value after) :
    head.all (db.hasNode identity) = true ∧
      after = { db with conversations := db.conversations.modify identity (fun row =>
        { row with
          activeBranchId := branchId, viewNodeId := head, revision := row.revision + 1 }) } := by
  rcases bind_ok returned with ⟨_, _, moved, touched⟩
  rcases update_ok moved with ⟨linked, rfl⟩
  refine ⟨linked, ?_⟩
  rw [touch_ok touched]
  dsimp only
  rw [modify_modify]
  rfl

theorem select_commits {head : Option Id} (present : identity ∈ db.conversations)
    (branch : db.hasBranch identity branchId = true)
    (returned : select identity branchId head db = .ok value after) : Commits identity db after := by
  rcases select_ok returned with ⟨linked, rfl⟩
  exact moved_commits present (fun row => Int.lt_succ row.revision) (fun _ => Or.inr branch)
    (fun _ => Or.inr linked)

variable {uuid : String}

theorem insertSnapshot_ok {storageKey : String} {manifest : Dict} {snapshotId : Id}
    (returned : insertSnapshot uuid identity storageKey manifest db = .ok snapshotId after) :
    Change db after ∧ after.runs = db.runs := by
  rcases skips_ok returned text_ok with ⟨_, returned⟩
  rcases bind_ok returned with ⟨_, _, inserted, returned⟩
  rcases insert_ok inserted with ⟨fresh, -, rfl⟩
  rcases pure_ok returned with ⟨-, rfl⟩
  exact ⟨Change.snapshotAdded (of_decide_eq_false fresh), rfl⟩

theorem fork_ok {name : String} {nodeId : Option Id} {forked : Id × Branch}
    (returned : fork uuid identity nodeId name db = .ok forked after) :
    Change db after ∧ after.hasBranch identity forked.1 = true ∧ after.runs = db.runs := by
  rcases skips_ok returned text_ok with ⟨_, returned⟩
  rcases reads_ok returned nodeNamed_ok with ⟨_, _, returned⟩
  rcases bind_ok returned with ⟨_, _, inserted, returned⟩
  rcases insert_ok inserted with ⟨fresh, linked, rfl⟩
  rcases reads_ok returned get_ok with ⟨branch, ⟨stored, owned⟩, returned⟩
  rcases pure_ok returned with ⟨rfl, rfl⟩
  rw [Bool.and_eq_true] at linked
  exact ⟨Change.branchAdded (of_decide_eq_false fresh) linked.2,
    Database.hasBranch_iff.mpr ⟨branch, stored, owned identity rfl⟩, rfl⟩

theorem setHead_ok {head : Id} {branch : Branch} (returned : setHead branchId head db = .ok value after)
    (stored : db.branches.lookup branchId = some branch) :
    after = { db with branches := db.branches.insert branchId { branch with headNodeId := some head } } := by
  rw [(update_ok returned).2, Table.modify_of_some stored]

/-- A checkpoint is saved and the branch it is on is selected. -/
theorem checkpoint_commits {label : String} {snapshotId : Id} {node : Node}
    (present : identity ∈ db.conversations)
    (returned : checkpoint uuid identity branchId snapshotId label db = .ok node after) :
    Commits identity db after ∧ after.runs = db.runs := by
  rcases reads_ok returned get_ok with ⟨branch, ⟨stored, owned⟩, returned⟩
  rcases reads_ok returned query_ok with ⟨input, -, returned⟩
  rcases bind_ok returned with ⟨_, _, inserted, returned⟩
  rcases insert_ok inserted with ⟨fresh, linked, rfl⟩
  rcases bind_ok returned with ⟨_, _, headed, returned⟩
  have moved := setHead_ok headed stored
  rcases bind_ok returned with ⟨_, _, selected, returned⟩
  rcases get_ok returned with ⟨-, rfl⟩
  simp only [Bool.and_eq_true] at linked
  have owner := owned identity rfl
  have added := @Change.checkpointAdded db (newId "node" uuid) branchId
    ⟨identity, branch.headNodeId, .localCheckpoint snapshotId, label, input⟩ branch
    (of_decide_eq_false fresh) rfl linked.1.1.2 stored owner
  rw [moved] at selected
  refine ⟨(select_commits ?_ ?_ selected).of_before (Changes.single added), ?_⟩
  · exact (Changes.single added).present present
  · exact Database.hasBranch_iff.mpr ⟨_, AList.lookup_insert db.branches, owner⟩
  · rw [(select_ok selected).2]

theorem appendTurnTo_commits {nodeUuid runUuid userText mode : String} {row : Conversation}
    {branch : Branch} {snapshotId : Option Id} {turn : Node × Run} (present : identity ∈ db.conversations)
    (idle : db.busy identity = false) (stored : db.branches.lookup branchId = some branch)
    (owner : branch.conversationId = identity)
    (returned : appendTurnTo nodeUuid runUuid identity row branchId branch userText mode snapshotId db = .ok turn after) :
    Commits identity db after := by
  rcases skips_ok returned text_ok with ⟨_, returned⟩
  rcases skips_ok returned validateMode_ok with ⟨parsed, returned⟩
  rcases skips_ok returned snapshotRef_ok with ⟨_, returned⟩
  rcases bind_ok returned with ⟨_, _, inserted, returned⟩
  rcases insert_ok inserted with ⟨fresh, linked, rfl⟩
  rcases bind_ok returned with ⟨_, _, queued, returned⟩
  rcases insert_ok queued with ⟨freshRun, -, rfl⟩
  rcases bind_ok returned with ⟨_, _, headed, returned⟩
  have moved := setHead_ok headed stored
  rcases bind_ok returned with ⟨_, _, selected, returned⟩
  rcases reads_ok returned get_ok with ⟨_, ⟨_, _⟩, returned⟩
  rcases reads_ok returned get_ok with ⟨run, ⟨found, _⟩, returned⟩
  rcases bind_ok returned with ⟨_, _, logged, returned⟩
  rcases pure_ok returned with ⟨-, rfl⟩
  have logged := (update_ok logged).2
  rw [moved] at selected
  have picked := (select_ok selected).2
  rw [picked] at found logged
  have same : queuedRun identity (newId "node" nodeUuid) = run :=
    Option.some.inj ((AList.lookup_insert db.runs).symm.trans found)
  simp only [Bool.and_eq_true] at linked
  have added := @Change.turnAdded db (newId "node" nodeUuid) (newId "run" runUuid) branchId
    ⟨identity, branch.headNodeId, .turn parsed, userText, snapshotId⟩ branch
    (of_decide_eq_false fresh) (of_decide_eq_false (Bool.or_eq_false_iff.mp freshRun).1) rfl present
    linked.1.1.2 idle stored owner
  rw [logged, <- same]
  refine Commits.of_before (Changes.single added) (moved_commits present (fun row => Int.lt_succ row.revision)
    (fun _ => Or.inr ?_) fun _ => Or.inr ?_)
  · exact Database.hasBranch_iff.mpr ⟨_, AList.lookup_insert db.branches, owner⟩
  · exact Database.hasNode_iff.mpr ⟨_, AList.lookup_insert db.nodes, rfl⟩

end Parts

end Workbench
end FixLoop
