import FixLoop.Workbench.Committed

namespace FixLoop
namespace Workbench

open Library

/-!
# The invariants of the history

A conversation is a tree of immutable nodes under movable cursors.  The tree
is well founded because every node is inserted below a node that is already
there; its turns and the runs correspond; at most one run of a conversation
has not ended.
-/

/-! ## Paths -/

variable {identity nodeId : Id} {path : List (Id × Node)} {before db : Database} {node : Node}
  {branch : Branch}

/-- A path survives the insertion of nodes, and more steps than needed do not
change it. -/
theorem walk_grows {nodes grown : Table Node} (keeps : Table.Keeps nodes grown) {fuel more : Nat}
    (enough : fuel ≤ more) {start : Option Id} (ends : walk nodes identity fuel start = .ok path) :
    walk grown identity more start = .ok path := by
  induction fuel generalizing more start path with
  | zero =>
    cases start with
    | none =>
      cases more with
      | zero => exact ends
      | succ more => exact ends
    | some nodeId => cases ends
  | succ fuel ih =>
    cases start with
    | none =>
      cases more with
      | zero => exact ends
      | succ more => exact ends
    | some nodeId =>
      cases more with
      | zero => exact absurd enough (Nat.not_succ_le_zero fuel)
      | succ more =>
        cases stored : nodes.lookup nodeId with
        | none =>
          simp only [walk, stored] at ends
          cases ends
        | some node =>
          simp only [walk, stored] at ends
          simp only [walk, keeps nodeId node stored]
          by_cases here : node.conversationId = identity
          · rw [if_pos here] at ends
            rw [if_pos here]
            cases walked : walk nodes identity fuel node.parentId with
            | error fault =>
              rw [walked] at ends
              cases ends
            | ok rest =>
              rw [walked] at ends
              rw [ih (Nat.le_of_succ_le_succ enough) walked]
              exact ends
          · rw [if_neg here] at ends
            cases ends

/-- The nodes of a database: parents stay in the conversation and every path
reaches the root. -/
structure TreeOk (db : Database) : Prop where
  parents : ∀ nodeId node, db.nodes.lookup nodeId = some node ->
    node.parentId.all (db.hasNode node.conversationId) = true
  paths : ∀ nodeId node, db.nodes.lookup nodeId = some node ->
    ∃ path, db.ancestors node.conversationId (some nodeId) = .ok path

theorem hasNode_grows {after : Database} (keeps : Table.Keeps before.nodes after.nodes)
    (here : before.hasNode identity nodeId = true) : after.hasNode identity nodeId = true := by
  rcases Database.hasNode_iff.mp here with ⟨node, stored, owner⟩
  exact Database.hasNode_iff.mpr ⟨node, keeps nodeId node stored, owner⟩

theorem allNodes_grow {after : Database} (keeps : Table.Keeps before.nodes after.nodes) {nodeId : Option Id}
    (here : nodeId.all (before.hasNode identity) = true) : nodeId.all (after.hasNode identity) = true := by
  cases nodeId with
  | none => rfl
  | some named => exact hasNode_grows keeps here

/-- A path ends where it would end in a database with fewer nodes. -/
theorem ancestors_grow {after : Database} (keeps : Table.Keeps before.nodes after.nodes)
    (larger : before.nodes.entries.length ≤ after.nodes.entries.length) {nodeId : Option Id}
    (ends : before.ancestors identity nodeId = .ok path) : after.ancestors identity nodeId = .ok path :=
  walk_grows keeps larger ends

theorem length_insert {table : Table Node} (fresh : nodeId ∉ table) (node : Node) :
    (table.insert nodeId node).entries.length = table.entries.length + 1 := by
  rw [AList.entries_insert_of_notMem fresh]
  rfl

/-- A node is inserted below a node of its conversation. -/
theorem TreeOk.insert {after : Database} (ok : TreeOk db) (fresh : nodeId ∉ db.nodes)
    (parent : node.parentId.all (db.hasNode node.conversationId) = true)
    (inserted : after.nodes = db.nodes.insert nodeId node) : TreeOk after := by
  have keeps : Table.Keeps db.nodes after.nodes := by
    rw [inserted]
    exact Table.keeps_insert fresh node
  have grown : after.nodes.entries.length = db.nodes.entries.length + 1 := by
    rw [inserted]
    exact length_insert fresh node
  constructor
  · intro other row stored
    rw [inserted] at stored
    rcases Table.lookup_insert_some stored with ⟨-, rfl⟩ | ⟨-, stored⟩
    · exact allNodes_grow keeps parent
    · exact allNodes_grow keeps (ok.parents other row stored)
  · intro other row stored
    rw [inserted] at stored
    rcases Table.lookup_insert_some stored with ⟨rfl, rfl⟩ | ⟨-, stored⟩
    · have above : ∃ path,
          walk db.nodes row.conversationId db.nodes.entries.length row.parentId = .ok path := by
        cases named : row.parentId with
        | none =>
          refine ⟨[], ?_⟩
          cases db.nodes.entries.length <;> rfl
        | some parentId =>
          rw [named] at parent
          rcases Database.hasNode_iff.mp parent with ⟨up, listed, owner⟩
          rcases ok.paths parentId up listed with ⟨path, ends⟩
          rw [owner] at ends
          exact ⟨path, ends⟩
      rcases above with ⟨path, ends⟩
      refine ⟨(other, row) :: path, ?_⟩
      have found : after.nodes.lookup other = some row := by
        rw [inserted]
        exact AList.lookup_insert db.nodes
      simp only [Database.ancestors, grown, walk, found, if_pos, walk_grows keeps (Nat.le_refl _) ends]
      rfl
    · rcases ok.paths other row stored with ⟨path, ends⟩
      exact ⟨path, ancestors_grow keeps (by rw [grown]; exact Nat.le_succ _) ends⟩

theorem TreeOk.same {after : Database} (ok : TreeOk db) (same : after.nodes = db.nodes) : TreeOk after := by
  have keeps : Table.Keeps db.nodes after.nodes := by
    rw [same]
    exact Table.Keeps.refl _
  constructor
  · intro nodeId node stored
    rw [same] at stored
    exact allNodes_grow keeps (ok.parents nodeId node stored)
  · intro nodeId node stored
    rw [same] at stored
    rcases ok.paths nodeId node stored with ⟨path, ends⟩
    exact ⟨path, ancestors_grow keeps (by rw [same]) ends⟩

/-- Runs and turns correspond, and no conversation has two active runs. -/
structure RunsOk (db : Database) : Prop where
  homed : RunsHomed db
  oneActive : ∀ first second one other, db.runs.lookup first = some one ->
    db.runs.lookup second = some other -> one.conversationId = other.conversationId ->
      one.status.active = true -> other.status.active = true -> first = second
  onTurn : ∀ runId run, db.runs.lookup runId = some run -> ∃ node,
    db.nodes.lookup run.nodeId = some node ∧ node.kind.isTurn = true
  ofTurn : ∀ nodeId node, db.nodes.lookup nodeId = some node -> node.kind.isTurn = true ->
    ∃ runId run, db.runs.lookup runId = some run ∧ run.nodeId = nodeId
  single : ∀ first second one other, db.runs.lookup first = some one ->
    db.runs.lookup second = some other -> one.nodeId = other.nodeId -> first = second

/-- Changes that leave the runs alone and only insert checkpoints. -/
theorem RunsOk.same {after : Database} (ok : RunsOk db) (runs : after.runs = db.runs)
    (homes : ∀ identity ∈ db.conversations, identity ∈ after.conversations)
    (keeps : Table.Keeps db.nodes after.nodes)
    (turns : ∀ nodeId node, after.nodes.lookup nodeId = some node -> node.kind.isTurn = true -> db.nodes.lookup nodeId = some node) :
    RunsOk after := by
  constructor
  · intro runId run stored
    rw [runs] at stored
    exact homes _ (ok.homed runId run stored)
  · rw [runs]
    exact ok.oneActive
  · intro runId run stored
    rw [runs] at stored
    rcases ok.onTurn runId run stored with ⟨node, listed, turn⟩
    exact ⟨node, keeps _ _ listed, turn⟩
  · intro nodeId node stored turn
    rw [runs]
    exact ok.ofTurn nodeId node (turns nodeId node stored turn) turn
  · rw [runs]
    exact ok.single

/-- A run moves on without leaving its node. -/
theorem RunsOk.replace {db after : Database} (ok : RunsOk db) {runId : Id} {run moved : Run}
    (stored : db.runs.lookup runId = some run) (home : moved.conversationId = run.conversationId)
    (node : moved.nodeId = run.nodeId)
    (active : moved.status.active = true -> run.status.active = true)
    (replaced : after.runs = db.runs.insert runId moved) (nodes : after.nodes = db.nodes)
    (homes : after.conversations = db.conversations) : RunsOk after := by
  -- A row after the replacement stands for the row before it.
  have origin : ∀ other row, after.runs.lookup other = some row -> ∃ old,
      db.runs.lookup other = some old ∧ row.conversationId = old.conversationId ∧
        row.nodeId = old.nodeId ∧ (row.status.active = true -> old.status.active = true) := by
    intro other row listed
    rw [replaced] at listed
    rcases Table.lookup_insert_some listed with ⟨rfl, rfl⟩ | ⟨-, listed⟩
    · exact ⟨run, stored, home, node, active⟩
    · exact ⟨row, listed, rfl, rfl, id⟩
  constructor
  · intro other row listed
    rcases origin other row listed with ⟨old, listed, same, -, -⟩
    rw [homes, same]
    exact ok.homed other old listed
  · intro first second one other firstListed secondListed same firstActive secondActive
    rcases origin first one firstListed with ⟨old, firstListed, sameOne, -, oneActive⟩
    rcases origin second other secondListed with ⟨older, secondListed, sameOther, -, otherActive⟩
    exact ok.oneActive first second old older firstListed secondListed
      (sameOne.symm.trans (same.trans sameOther)) (oneActive firstActive) (otherActive secondActive)
  · intro other row listed
    rcases origin other row listed with ⟨old, listed, -, same, -⟩
    rw [nodes, same]
    exact ok.onTurn other old listed
  · intro nodeId row listed turn
    rw [nodes] at listed
    rcases ok.ofTurn nodeId row listed turn with ⟨other, old, found, held⟩
    by_cases same : other = runId
    · subst same
      cases Option.some.inj (stored.symm.trans found)
      refine ⟨other, moved, ?_, node.trans held⟩
      rw [replaced]
      exact AList.lookup_insert db.runs
    · refine ⟨other, old, ?_, held⟩
      rw [replaced, AList.lookup_insert_ne same]
      exact found
  · intro first second one other firstListed secondListed same
    rcases origin first one firstListed with ⟨old, firstListed, -, sameOne, -⟩
    rcases origin second other secondListed with ⟨older, secondListed, -, sameOther, -⟩
    exact ok.single first second old older firstListed secondListed
      (sameOne.symm.trans (same.trans sameOther))

theorem RunsOk.turn {after : Database} (ok : RunsOk db) {runId : Id} (fresh : nodeId ∉ db.nodes)
    (freshRun : runId ∉ db.runs) (kind : node.kind.isTurn = true)
    (home : node.conversationId ∈ db.conversations) (idle : db.busy node.conversationId = false)
    (runs : after.runs = db.runs.insert runId (queuedRun node.conversationId nodeId))
    (nodes : after.nodes = db.nodes.insert nodeId node) (homes : after.conversations = db.conversations) :
    RunsOk after := by
  have unused : ∀ other row, db.runs.lookup other = some row -> row.nodeId ≠ nodeId := by
    intro other row listed same
    rcases ok.onTurn other row listed with ⟨old, found, -⟩
    exact Table.ne_of_stored fresh found same
  have free : ∀ other row, db.runs.lookup other = some row ->
      row.conversationId = node.conversationId -> row.status.active = false := by
    intro other row listed here
    by_contra active
    rw [Bool.not_eq_false] at active
    rw [Database.busy_iff.mpr ⟨other, row, listed, here, active⟩] at idle
    cases idle
  constructor
  · intro other row listed
    rw [runs] at listed
    rw [homes]
    rcases Table.lookup_insert_some listed with ⟨-, rfl⟩ | ⟨-, listed⟩
    · exact home
    · exact ok.homed other row listed
  · intro first second one other firstListed secondListed same firstActive secondActive
    rw [runs] at firstListed secondListed
    rcases Table.lookup_insert_some firstListed with ⟨rfl, rfl⟩ | ⟨-, oldFirst⟩
    · rcases Table.lookup_insert_some secondListed with ⟨rfl, -⟩ | ⟨-, oldSecond⟩
      · rfl
      · rw [free second other oldSecond same.symm] at secondActive
        cases secondActive
    · rcases Table.lookup_insert_some secondListed with ⟨rfl, rfl⟩ | ⟨-, oldSecond⟩
      · rw [free first one oldFirst same] at firstActive
        cases firstActive
      · exact ok.oneActive first second one other oldFirst oldSecond same firstActive
          secondActive
  · intro other row listed
    rw [runs] at listed
    rw [nodes]
    rcases Table.lookup_insert_some listed with ⟨-, rfl⟩ | ⟨-, listed⟩
    · exact ⟨node, AList.lookup_insert db.nodes, kind⟩
    · rcases ok.onTurn other row listed with ⟨old, found, turn⟩
      exact ⟨old, Table.keeps_insert fresh node _ _ found, turn⟩
  · intro other row listed turn
    rw [nodes] at listed
    rw [runs]
    rcases Table.lookup_insert_some listed with ⟨rfl, rfl⟩ | ⟨-, listed⟩
    · exact ⟨runId, _, AList.lookup_insert db.runs, rfl⟩
    · rcases ok.ofTurn other row listed turn with ⟨old, run, found, held⟩
      exact ⟨old, run, Table.keeps_insert freshRun _ _ _ found, held⟩
  · intro first second one other firstListed secondListed same
    rw [runs] at firstListed secondListed
    rcases Table.lookup_insert_some firstListed with ⟨rfl, rfl⟩ | ⟨-, oldFirst⟩
    · rcases Table.lookup_insert_some secondListed with ⟨rfl, -⟩ | ⟨-, oldSecond⟩
      · rfl
      · exact absurd same.symm (unused second other oldSecond)
    · rcases Table.lookup_insert_some secondListed with ⟨rfl, rfl⟩ | ⟨-, oldSecond⟩
      · exact absurd same (unused first one oldFirst)
      · exact ok.single first second one other oldFirst oldSecond same

/-! ## Cursors -/

/-- Every cursor stands on a branch or a node of its conversation. -/
structure CursorsOk (db : Database) : Prop where
  active : ∀ identity row, db.conversations.lookup identity = some row ->
    db.hasBranch identity row.activeBranchId = true
  view : ∀ identity row, db.conversations.lookup identity = some row ->
    row.viewNodeId.all (db.hasNode identity) = true
  heads : ∀ branchId branch, db.branches.lookup branchId = some branch ->
    branch.headNodeId.all (db.hasNode branch.conversationId) = true

/-- The nodes and branches grow under unchanged conversations. -/
theorem CursorsOk.grow {after : Database} (ok : CursorsOk db) (nodes : Table.Keeps db.nodes after.nodes)
    (branches : ∀ identity branchId, db.hasBranch identity branchId = true -> after.hasBranch identity branchId = true)
    (same : after.conversations = db.conversations)
    (heads : ∀ branchId branch, after.branches.lookup branchId = some branch -> db.branches.lookup branchId = some branch ∨ branch.headNodeId.all (after.hasNode branch.conversationId) = true) :
    CursorsOk after := by
  constructor
  · intro identity row stored
    rw [same] at stored
    exact branches _ _ (ok.active identity row stored)
  · intro identity row stored
    rw [same] at stored
    exact allNodes_grow nodes (ok.view identity row stored)
  · intro branchId branch stored
    rcases heads branchId branch stored with old | new
    · exact allNodes_grow nodes (ok.heads branchId branch old)
    · exact new

theorem CursorsOk.move {after : Database} (ok : CursorsOk db) {moved : Conversation}
    (nodes : after.nodes = db.nodes)
    (branches : ∀ other branchId, db.hasBranch other branchId = true -> after.hasBranch other branchId = true)
    (conversations : after.conversations = db.conversations.insert identity moved)
    (active : after.hasBranch identity moved.activeBranchId = true)
    (view : moved.viewNodeId.all (after.hasNode identity) = true)
    (heads : ∀ branchId branch, after.branches.lookup branchId = some branch -> db.branches.lookup branchId = some branch ∨ branch.headNodeId.all (after.hasNode branch.conversationId) = true) :
    CursorsOk after := by
  have keeps : Table.Keeps db.nodes after.nodes := by
    rw [nodes]
    exact Table.Keeps.refl _
  constructor
  · intro other row stored
    rw [conversations] at stored
    rcases Table.lookup_insert_some stored with ⟨rfl, rfl⟩ | ⟨-, stored⟩
    · exact active
    · exact branches _ _ (ok.active other row stored)
  · intro other row stored
    rw [conversations] at stored
    rcases Table.lookup_insert_some stored with ⟨rfl, rfl⟩ | ⟨-, stored⟩
    · exact view
    · exact allNodes_grow keeps (ok.view other row stored)
  · intro branchId branch stored
    rcases heads branchId branch stored with old | new
    · exact allNodes_grow keeps (ok.heads branchId branch old)
    · exact new

theorem hasBranch_fresh {after : Database} {branchId : Id} (fresh : branchId ∉ db.branches)
    (inserted : after.branches = db.branches.insert branchId branch) (identity other : Id)
    (here : db.hasBranch identity other = true) : after.hasBranch identity other = true := by
  rcases Database.hasBranch_iff.mp here with ⟨row, stored, owner⟩
  refine Database.hasBranch_iff.mpr ⟨row, ?_, owner⟩
  rw [inserted]
  exact Table.keeps_insert fresh branch other row stored

theorem hasBranch_headed {after : Database} {branchId head : Id}
    (stored : db.branches.lookup branchId = some branch)
    (headed : after.branches = db.branches.insert branchId { branch with headNodeId := some head })
    (identity other : Id) (here : db.hasBranch identity other = true) :
    after.hasBranch identity other = true := by
  rcases Database.hasBranch_iff.mp here with ⟨row, listed, owner⟩
  by_cases same : other = branchId
  · subst same
    cases Option.some.inj (stored.symm.trans listed)
    refine Database.hasBranch_iff.mpr ⟨{ branch with headNodeId := some head }, ?_, owner⟩
    rw [headed]
    exact AList.lookup_insert db.branches
  · refine Database.hasBranch_iff.mpr ⟨row, ?_, owner⟩
    rw [headed, AList.lookup_insert_ne same]
    exact listed

/-- A node is inserted as the head of a branch. -/
theorem CursorsOk.headed {after : Database} (ok : CursorsOk db) {branchId : Id} (fresh : nodeId ∉ db.nodes)
    (stored : db.branches.lookup branchId = some branch)
    (owner : branch.conversationId = node.conversationId)
    (nodes : after.nodes = db.nodes.insert nodeId node)
    (headed : after.branches = db.branches.insert branchId { branch with headNodeId := some nodeId })
    (same : after.conversations = db.conversations) : CursorsOk after := by
  have keeps : Table.Keeps db.nodes after.nodes := by
    rw [nodes]
    exact Table.keeps_insert fresh node
  refine ok.grow keeps (hasBranch_headed stored headed) same fun other row listed => ?_
  rw [headed] at listed
  rcases Table.lookup_insert_some listed with ⟨-, rfl⟩ | ⟨-, listed⟩
  · refine Or.inr (Database.hasNode_iff.mpr ⟨node, ?_, owner.symm⟩)
    rw [nodes]
    exact AList.lookup_insert db.nodes
  · exact Or.inl listed

/-! ## Every change keeps the invariants -/

/-- The invariant of the history. -/
structure Consistent (db : Database) : Prop where
  tree : TreeOk db
  runs : RunsOk db
  cursors : CursorsOk db

theorem CursorsOk.still {after : Database} (ok : CursorsOk db) (nodes : after.nodes = db.nodes)
    (branches : after.branches = db.branches) (same : after.conversations = db.conversations) :
    CursorsOk after := by
  refine ok.grow ?_ ?_ same ?_
  · rw [nodes]
    exact Table.Keeps.refl _
  · intro identity branchId here
    rw [Database.hasBranch, branches]
    exact here
  · intro branchId branch stored
    rw [branches] at stored
    exact Or.inl stored

/-- Changes that touch neither nodes nor runs. -/
theorem RunsOk.still {after : Database} (ok : RunsOk db) (runs : after.runs = db.runs)
    (nodes : after.nodes = db.nodes)
    (homes : ∀ identity ∈ db.conversations, identity ∈ after.conversations) :
    RunsOk after := by
  refine ok.same runs homes ?_ ?_
  · rw [nodes]
    exact Table.Keeps.refl _
  · intro nodeId node stored _
    rw [nodes] at stored
    exact stored

theorem RunsOk.checkpoint {after : Database} (ok : RunsOk db) (fresh : nodeId ∉ db.nodes)
    (kind : node.kind.isTurn = false) (nodes : after.nodes = db.nodes.insert nodeId node)
    (runs : after.runs = db.runs) (homes : after.conversations = db.conversations) : RunsOk after := by
  refine ok.same runs ?_ ?_ ?_
  · intro identity present
    rw [homes]
    exact present
  · rw [nodes]
    exact Table.keeps_insert fresh node
  · intro other row stored turn
    rw [nodes] at stored
    rcases Table.lookup_insert_some stored with ⟨-, rfl⟩ | ⟨-, stored⟩
    · rw [kind] at turn
      cases turn
    · exact stored

theorem Consistent.change {after : Database} (ok : Consistent db) (change : Change db after) :
    Consistent after := by
  have homes : ∀ identity ∈ db.conversations, identity ∈ after.conversations :=
    fun _ present => change.present present
  cases change with
  | conversationAdded fresh freshBranch active unviewed owner empty =>
    refine ⟨ok.tree.same rfl, ok.runs.still rfl rfl homes,
      ok.cursors.move rfl (hasBranch_fresh freshBranch rfl) rfl ?_ ?_ ?_⟩
    · rw [active]
      exact Database.hasBranch_iff.mpr ⟨_, AList.lookup_insert db.branches, owner⟩
    · rw [unviewed]
      rfl
    · intro other row stored
      rcases Table.lookup_insert_some stored with ⟨-, rfl⟩ | ⟨-, stored⟩
      · rw [empty]
        exact Or.inr rfl
      · exact Or.inl stored
  | conversationMoved stored later active view =>
    refine ⟨ok.tree.same rfl, ok.runs.still rfl rfl homes,
      ok.cursors.move rfl (fun _ _ here => here) rfl ?_ ?_ fun _ _ listed => Or.inl listed⟩
    · rcases active with same | here
      · rw [same]
        exact ok.cursors.active _ _ stored
      · exact here
    · rcases view with same | here
      · rw [same]
        exact ok.cursors.view _ _ stored
      · exact here
  | branchAdded fresh head =>
    refine ⟨ok.tree.same rfl, ok.runs.still rfl rfl homes,
      ok.cursors.grow (Table.Keeps.refl _) (hasBranch_fresh fresh rfl) rfl ?_⟩
    intro other row stored
    rcases Table.lookup_insert_some stored with ⟨-, rfl⟩ | ⟨-, stored⟩
    · exact Or.inr head
    · exact Or.inl stored
  | checkpointAdded fresh kind parent stored owner =>
    exact ⟨ok.tree.insert fresh parent rfl, ok.runs.checkpoint fresh kind rfl rfl rfl,
      ok.cursors.headed fresh stored owner rfl rfl rfl⟩
  | turnAdded fresh freshRun kind home parent idle stored owner =>
    exact ⟨ok.tree.insert fresh parent rfl, ok.runs.turn fresh freshRun kind home idle rfl rfl rfl,
      ok.cursors.headed fresh stored owner rfl rfl rfl⟩
  | @runStarted runId run stored queued =>
    refine ⟨ok.tree.same rfl, ?_, ok.cursors.still rfl rfl rfl⟩
    refine @RunsOk.replace _ _ ok.runs runId run { run with status := .running } stored rfl rfl
      (fun _ => ?_) rfl rfl rfl
    rw [queued]
    rfl
  | runFinished stored active ended started home node =>
    exact ⟨ok.tree.same rfl, ok.runs.replace stored home node (fun _ => active) rfl rfl rfl,
      ok.cursors.still rfl rfl rfl⟩
  | _ =>
    exact ⟨ok.tree.same rfl, ok.runs.still rfl rfl homes, ok.cursors.still rfl rfl rfl⟩

theorem consistent_fresh : Consistent Database.fresh := by
  refine ⟨⟨?_, ?_⟩, ⟨?_, ?_, ?_, ?_, ?_⟩, ⟨?_, ?_, ?_⟩⟩ <;> intro _ _ <;> intros <;>
    contradiction

variable [Projects]

theorem Consistent.after (ok : Consistent db) (call : Call) : Consistent (db.after call) := by
  rcases after_cases db call with ⟨committed, commits, same⟩ | ⟨-, same⟩
  · rw [same]
    exact (call_changes ok.runs.homed commits).keeps (fun _ _ ok change => ok.change change) ok
  · rw [same]
    exact ok

theorem Consistent.run (ok : Consistent db) (calls : List Call) : Consistent (workbenchStore.run db calls) :=
  workbenchStore.invariant_run (fun _ call ok => ok.after call) ok calls

/-! ## What every reachable database has -/

omit [Projects] in
theorem ancestors_step (stored : db.nodes.lookup nodeId = some node)
    (ends : db.ancestors identity (some nodeId) = .ok path) :
    ∃ rest, path = (nodeId, node) :: rest ∧
      db.ancestors identity node.parentId = .ok rest := by
  unfold Database.ancestors at ends
  cases size : db.nodes.entries.length with
  | zero =>
    rw [size] at ends
    cases ends
  | succ fuel =>
    simp only [size, walk, stored] at ends
    by_cases here : node.conversationId = identity
    · rw [if_pos here] at ends
      cases walked : walk db.nodes identity fuel node.parentId with
      | error fault =>
        rw [walked] at ends
        cases ends
      | ok rest =>
        rw [walked] at ends
        cases ends
        refine ⟨rest, rfl, ?_⟩
        exact walk_grows (Table.Keeps.refl _) (by rw [size]; exact Nat.le_succ fuel) walked
    · rw [if_neg here] at ends
      cases ends

/-- The first node is the parent of the second. -/
def Database.ParentOf (db : Database) (parentId nodeId : Id) : Prop :=
  ∃ node, db.nodes.lookup nodeId = some node ∧ node.parentId = some parentId

/-- The number of nodes on the path of a node. -/
def Database.depth (db : Database) (nodeId : Id) : Nat :=
  match db.nodes.lookup nodeId with
  | none => 0
  | some node =>
    match db.ancestors node.conversationId (some nodeId) with
    | .ok path => path.length
    | .error _ => 0

omit [Projects] in
theorem depth_of_ancestors (stored : db.nodes.lookup nodeId = some node)
    (ends : db.ancestors node.conversationId (some nodeId) = .ok path) : db.depth nodeId = path.length := by
  simp only [Database.depth, stored, ends]

omit [Projects] in
theorem depth_parent (ok : TreeOk db) {parentId : Id} (parentOf : db.ParentOf parentId nodeId) :
    db.depth parentId < db.depth nodeId := by
  rcases parentOf with ⟨node, stored, named⟩
  rcases ok.paths nodeId node stored with ⟨path, ends⟩
  rcases ancestors_step stored ends with ⟨rest, rfl, above⟩
  have home := ok.parents nodeId node stored
  rw [named] at home above
  rcases Database.hasNode_iff.mp home with ⟨parent, listed, owner⟩
  rw [<- owner] at above
  rw [depth_of_ancestors stored ends, depth_of_ancestors listed above]
  exact Nat.lt_succ_self rest.length

/-- What is promised of the history in every database. -/
structure HistoryHolds (db : Database) : Prop where
  oneActive : ∀ first second one other, db.runs.lookup first = some one ->
    db.runs.lookup second = some other -> one.conversationId = other.conversationId ->
      one.status.active = true -> other.status.active = true -> first = second
  turnRun : ∀ nodeId node, db.nodes.lookup nodeId = some node -> node.kind.isTurn = true ->
    ExistsUnique fun runId => ∃ run, db.runs.lookup runId = some run ∧ run.nodeId = nodeId
  checkpointRun : ∀ nodeId node, db.nodes.lookup nodeId = some node ->
    node.kind.isTurn = false ->
      ∀ runId run, db.runs.lookup runId = some run -> run.nodeId ≠ nodeId
  parentHome : ∀ nodeId node parentId, db.nodes.lookup nodeId = some node ->
    node.parentId = some parentId -> db.hasNode node.conversationId parentId = true
  acyclic : ∀ nodeId, ¬Relation.TransGen db.ParentOf nodeId nodeId
  pathEnds : ∀ identity nodeId, identity ∈ db.conversations ->
    db.hasNode identity nodeId = true ->
      ∃ path, getPath identity (some nodeId) db = .ok path db
  activeHome : ∀ identity row, db.conversations.lookup identity = some row ->
    db.hasBranch identity row.activeBranchId = true
  viewHome : ∀ identity row nodeId, db.conversations.lookup identity = some row ->
    row.viewNodeId = some nodeId -> db.hasNode identity nodeId = true
  headHome : ∀ branchId branch nodeId, db.branches.lookup branchId = some branch ->
    branch.headNodeId = some nodeId -> db.hasNode branch.conversationId nodeId = true

/-- Every path to a node of the first database is the same in the second. -/
def PathsKept (db later : Database) : Prop :=
  ∀ identity nodeId, identity ∈ db.conversations -> db.hasNode identity nodeId = true ->
    ∃ path, getPath identity (some nodeId) db = .ok path db ∧
      getPath identity (some nodeId) later = .ok path later

section

omit [Projects]

theorem getPath_of_ancestors {nodeId : Option Id} (present : identity ∈ db.conversations)
    (ends : db.ancestors identity nodeId = .ok path) : getPath identity nodeId db = .ok path.reverse db := by
  rcases stored_of_present present with ⟨row, stored⟩
  have read : conversation identity none db = .ok row db := by
    simp only [conversation, Statement.query, stored]
  rw [getPath, Statement.bind_of_ok read]
  simp only [Workbench.path, Statement.query, ends]
  rfl

theorem Consistent.ancestors (ok : Consistent db) (here : db.hasNode identity nodeId = true) :
    ∃ path, db.ancestors identity (some nodeId) = .ok path := by
  rcases Database.hasNode_iff.mp here with ⟨node, stored, owner⟩
  rcases ok.tree.paths nodeId node stored with ⟨path, ends⟩
  rw [owner] at ends
  exact ⟨path, ends⟩

theorem all_some {named : Option Id} (all : named.all (db.hasNode identity) = true)
    (same : named = some nodeId) : db.hasNode identity nodeId = true := by
  rw [same] at all
  exact all

theorem Consistent.holds (ok : Consistent db) : HistoryHolds db where
  oneActive := ok.runs.oneActive
  turnRun := by
    intro nodeId node stored turn
    rcases ok.runs.ofTurn nodeId node stored turn with ⟨runId, run, listed, held⟩
    refine ⟨runId, ⟨run, listed, held⟩, ?_⟩
    rintro other ⟨row, found, same⟩
    exact ok.runs.single other runId row run found listed (same.trans held.symm)
  checkpointRun := by
    intro nodeId node stored checkpoint runId run listed same
    rcases ok.runs.onTurn runId run listed with ⟨turn, found, isTurn⟩
    rw [same, stored] at found
    cases found
    rw [checkpoint] at isTurn
    cases isTurn
  parentHome := fun nodeId node parentId stored named =>
    all_some (ok.tree.parents nodeId node stored) named
  acyclic := by
    intro nodeId cycle
    have climbs : ∀ first second, Relation.TransGen db.ParentOf first second ->
        db.depth first < db.depth second := by
      intro first second chain
      induction chain with
      | single step => exact depth_parent ok.tree step
      | tail _ step ih => exact Nat.lt_trans ih (depth_parent ok.tree step)
    exact Nat.lt_irrefl _ (climbs nodeId nodeId cycle)
  pathEnds := by
    intro identity nodeId present here
    rcases ok.ancestors here with ⟨path, ends⟩
    exact ⟨path.reverse, getPath_of_ancestors present ends⟩
  activeHome := ok.cursors.active
  viewHome := fun identity row nodeId stored named =>
    all_some (ok.cursors.view identity row stored) named
  headHome := fun branchId branch nodeId stored named =>
    all_some (ok.cursors.heads branchId branch stored) named

end

/-! ## Nodes are immutable -/

/-- The nodes of the first database are in the second one. -/
structure NodesGrow (before after : Database) : Prop where
  kept : Table.Keeps before.nodes after.nodes
  larger : before.nodes.entries.length ≤ after.nodes.entries.length
  homes : ∀ identity ∈ before.conversations, identity ∈ after.conversations

section

omit [Projects]

theorem NodesGrow.refl (db : Database) : NodesGrow db db :=
  ⟨Table.Keeps.refl _, Nat.le_refl _, fun _ present => present⟩

theorem NodesGrow.trans {first second third : Database} (earlier : NodesGrow first second)
    (later : NodesGrow second third) : NodesGrow first third :=
  ⟨earlier.kept.trans later.kept, Nat.le_trans earlier.larger later.larger,
    fun identity present => later.homes identity (earlier.homes identity present)⟩

theorem nodesGrow_change {after : Database} (change : Change before after) : NodesGrow before after := by
  have homes : ∀ identity ∈ before.conversations, identity ∈ after.conversations :=
    fun _ present => change.present present
  cases change with
  | checkpointAdded fresh kind parent stored owner =>
    exact ⟨Table.keeps_insert fresh _, by rw [length_insert fresh]; exact Nat.le_succ _, homes⟩
  | turnAdded fresh freshRun kind home parent idle stored owner =>
    exact ⟨Table.keeps_insert fresh _,
      by rw [Database.logged, length_insert fresh]; exact Nat.le_succ _, homes⟩
  | _ => exact ⟨Table.Keeps.refl _, Nat.le_refl _, homes⟩

end

theorem nodesGrow_after (ok : Consistent db) (call : Call) : NodesGrow db (db.after call) := by
  rcases after_cases db call with ⟨committed, commits, same⟩ | ⟨-, same⟩
  · rw [same]
    exact (call_changes ok.runs.homed commits).keeps
      (fun _ _ grown change => grown.trans (nodesGrow_change change)) (NodesGrow.refl db)
  · rw [same]
    exact NodesGrow.refl db

theorem nodesGrow_run (ok : Consistent db) (calls : List Call) : NodesGrow db (workbenchStore.run db calls) :=
  (@Machine.invariant_run _ _ workbenchStore (fun later => Consistent later ∧ NodesGrow db later)
    (fun _ call known => ⟨known.1.after call, known.2.trans (nodesGrow_after known.1 call)⟩) db
    ⟨ok, NodesGrow.refl db⟩ calls).2

omit [Projects] in
theorem Consistent.pathsKept {later : Database} (ok : Consistent db) (grow : NodesGrow db later) :
    PathsKept db later := by
  intro identity nodeId present here
  rcases ok.ancestors here with ⟨path, ends⟩
  exact ⟨path.reverse, getPath_of_ancestors present ends,
    getPath_of_ancestors (grow.homes identity present) (ancestors_grow grow.kept grow.larger ends)⟩

/-- After any sequence of store calls the history is sound, no later call
changes the path of a node, and a call that raises changes nothing. -/
theorem history_sound (calls later : List Call) :
    HistoryHolds (workbenchStore.run Database.fresh calls) ∧
      PathsKept (workbenchStore.run Database.fresh calls)
        (workbenchStore.run Database.fresh (calls ++ later)) ∧
        ∀ call : Call, Statement.Atomic call.perform := by
  have ok := consistent_fresh.run calls
  refine ⟨ok.holds, ?_, atomic_perform⟩
  rw [Machine.run_append]
  exact ok.pathsKept (nodesGrow_run ok later)

end Workbench
end FixLoop
