import FixLoop.Library.Strings
import FixLoop.Library.Transaction
import FixLoop.Workbench.Models

namespace FixLoop
namespace Workbench

open Library
open Library.Statement

/-!
# The operations of `WorkbenchStore`

Every operation is one transaction on its own connection: `BEGIN IMMEDIATE`
serialises writers, an exception rolls back, and the deferred foreign key of
a conversation on its active branch is checked at the commit.  Foreign keys,
primary keys and triggers of the schema raise at the statement that violates
them.  The identifiers an operation draws from `uuid.uuid4()` are the values
of a sequence it is given.
-/

abbrev Sql (Value : Type) := Statement Database Fault Value

/-- The texts of the identifiers that one call draws. -/
abbrev Uuids := Nat -> String

/-- `_id`. -/
def newId (kind uuid : String) : Id := kind ++ "-" ++ uuid

def text (value field : String) : Sql Unit :=
  require (fun _ => Strings.strip value != "") (.value (field ++ " must be a non-empty string"))

/-- The deferred foreign key `(active_branch_id, id)` of the conversations. -/
def Database.activeBranchesExist (db : Database) : Bool :=
  db.conversations.rows.all fun row => db.hasBranch row.1 row.2.activeBranchId

/-- `_transaction`. -/
def inTransaction {Value : Type} (body : Sql Value) : Sql Value :=
  transaction Database.activeBranchesExist (.integrity "FOREIGN KEY constraint failed") body

/-! ## Single statements -/

/-- `_get` on a table whose rows belong to conversations; `NotFoundError`
names the table and the key. -/
def get {Row : Type} (name : String) (rows : Database -> Table Row) (owner : Row -> Id)
    (identity : Id) (conversationId : Option Id) : Sql Row :=
  query (fun db =>
    match (rows db).lookup identity with
    | some row =>
      if conversationId.all (fun required => owner row == required) then .ok row
      else .error (.notFound (name ++ ": " ++ identity))
    | none => .error (.notFound (name ++ ": " ++ identity)))

def getBranch := get "branches" Database.branches Branch.conversationId
def getNode := get "nodes" Database.nodes Node.conversationId
def getRun := get "runs" Database.runs Run.conversationId
def getSnapshot := get "snapshots" Database.snapshots Snapshot.conversationId

/-- `INSERT`: the primary key must be new and the references must exist. -/
def insert (key : String) (taken linked : Database -> Bool) (change : Database -> Database) :
    Sql Unit := do
  require (fun db => !taken db) (.integrity ("UNIQUE constraint failed: " ++ key))
  require linked (.integrity "FOREIGN KEY constraint failed")
  write change

/-- `UPDATE`: the new references must exist. -/
def update (linked : Database -> Bool) (change : Database -> Database) : Sql Unit := do
  require linked (.integrity "FOREIGN KEY constraint failed")
  write change

def insertConversation (identity : Id) (row : Conversation) : Sql Unit :=
  insert "conversations.id" (fun db => identity ∈ db.conversations) (fun _ => true)
    (fun db => { db with conversations := db.conversations.insert identity row })

def insertBranch (identity : Id) (row : Branch) : Sql Unit :=
  insert "branches.id" (fun db => identity ∈ db.branches)
    (fun db => decide (row.conversationId ∈ db.conversations) &&
      row.forkNodeId.all (db.hasNode row.conversationId) &&
        row.headNodeId.all (db.hasNode row.conversationId))
    (fun db => { db with branches := db.branches.insert identity row })

def NodeKind.checkpoint? : NodeKind -> Option Id
  | turn _ => none
  | localCheckpoint snapshotId => some snapshotId

def insertNode (identity : Id) (row : Node) : Sql Unit :=
  insert "nodes.id" (fun db => identity ∈ db.nodes)
    (fun db => decide (row.conversationId ∈ db.conversations) &&
      row.parentId.all (db.hasNode row.conversationId) &&
        row.inputSnapshotId.all (db.hasSnapshot row.conversationId) &&
          row.kind.checkpoint?.all (db.hasSnapshot row.conversationId))
    (fun db => { db with nodes := db.nodes.insert identity row })

def insertRun (identity : Id) (row : Run) : Sql Unit :=
  insert "runs.id" (fun db => decide (identity ∈ db.runs) || (db.runOf row.nodeId).isSome)
    (fun db => decide (row.conversationId ∈ db.conversations) &&
      db.hasNode row.conversationId row.nodeId &&
        row.outputSnapshotId.all (db.hasSnapshot row.conversationId))
    (fun db => { db with runs := db.runs.insert identity row })

def event (runId : Id) (kind : EventKind) (payload : EventPayload) : Sql Unit :=
  update (fun db => decide (runId ∈ db.runs))
    (fun db => { db with events := db.events ++ [⟨runId, db.nextSequence runId, kind, payload⟩] })

/-- An update of `runs`; the trigger `terminal_run_immutable` refuses it for
a run that has ended. -/
def updateRun (identity : Id) (change : Run -> Run) : Sql Unit := do
  require (fun db => (db.runs.lookup identity).all fun run => run.status.active)
    (.integrity "terminal run is immutable")
  update
    (fun db => (db.runs.lookup identity).all (fun run =>
      (change run).outputSnapshotId.all (db.hasSnapshot run.conversationId)))
    (fun db => { db with runs := db.runs.modify identity change })

def updateConversation (identity : Id) (linked : Database -> Bool)
    (change : Conversation -> Conversation) : Sql Unit :=
  update linked fun db => { db with conversations := db.conversations.modify identity change }

/-- `UPDATE branches SET head_node_id = ? WHERE id = ?`. -/
def setHead (branchId : Id) (head : Id) : Sql Unit :=
  update
    (fun db => (db.branches.lookup branchId).all fun branch => db.hasNode branch.conversationId head)
    (fun db => { db with
      branches := db.branches.modify branchId (fun branch => { branch with headNodeId := some head }) })

/-- `UPDATE projects SET revision=revision+1` for the project of a conversation. -/
def bumpProject (conversationId : Id) : Sql Unit :=
  write (fun db =>
    match db.projectConversations.lookup conversationId with
    | some projectId => { db with
        projects := db.projects.modify projectId
          (fun project => { project with revision := project.revision + 1 }) }
    | none => db)

def operation (plan : Plan) : Sql Unit :=
  write (fun db => { db with
    operations :=
      match db.operations.lookup plan.id with
      | some row => db.operations.insert plan.id { row with payload := plan }
      | none => db.operations.insert plan.id ⟨plan.root, plan⟩ })

/-! ## Shared parts of the operations -/

def conversation (identity : Id) (revision : Option Int) : Sql Conversation :=
  query (fun db =>
    match db.conversations.lookup identity with
    | none => .error (.notFound ("conversations: " ++ identity))
    | some row =>
      match revision with
      | none => .ok row
      | some expected =>
        if row.revision = expected then .ok row
        else .error (.conflict ("stale conversation revision: expected " ++ toString expected)))

def idle (conversationId : Id) : Sql Unit :=
  require (fun db => !db.busy conversationId)
    (.conflict "finish or cancel the active turn before changing history")

/-- `revision = revision + 1`. -/
def Conversation.touched (row : Conversation) : Conversation :=
  { row with revision := row.revision + 1 }

def touch (conversationId : Id) : Sql Unit :=
  updateConversation conversationId (fun _ => true) Conversation.touched

def select (conversationId branchId : Id) (head : Option Id) : Sql Unit := do
  updateConversation conversationId (fun db => head.all (db.hasNode conversationId))
    (fun row => { row with activeBranchId := branchId, viewNodeId := head })
  touch conversationId

def nodeNamed (conversationId : Id) (nodeId : Option Id) : Sql Unit :=
  query (fun db =>
    match nodeId with
    | none => .ok ()
    | some identity =>
      if db.hasNode conversationId identity then .ok ()
      else .error (.notFound ("nodes: " ++ identity)))

def fork (uuid : String) (conversationId : Id) (nodeId : Option Id) (name : String) :
    Sql (Id × Branch) := do
  text name "branch name"
  nodeNamed conversationId nodeId
  insertBranch (newId "branch" uuid) ⟨conversationId, name, nodeId, nodeId⟩
  let branch <- getBranch (newId "branch" uuid) (some conversationId)
  return (newId "branch" uuid, branch)

def validateMode (conversation : Conversation) (mode : String) : Sql TurnMode :=
  query (fun _ =>
    match TurnMode.ofText mode with
    | none => .error (.value ("invalid turn mode: " ++ mode))
    | some mode =>
      if mode ≠ .chat ∧ conversation.projectPath = none then
        .error (.value "project_chat and repair require a project")
      else .ok mode)

def snapshotRef (conversationId : Id) (conversation : Conversation) (snapshotId : Option Id) :
    Sql Unit :=
  query (fun db =>
    match snapshotId with
    | none => .ok ()
    | some identity =>
      if conversation.projectPath = none then
        .error (.value "snapshot references require a project")
      else if db.hasSnapshot conversationId identity then .ok ()
      else .error (.notFound ("snapshots: " ++ identity)))

def insertSnapshot (uuid : String) (conversationId : Id) (storageKey : String) (manifest : Dict) :
    Sql Id := do
  text storageKey "storage_key"
  insert "snapshots.id" (fun db => newId "snapshot" uuid ∈ db.snapshots)
    (fun db => conversationId ∈ db.conversations)
    (fun db => { db with
      snapshots := db.snapshots.insert (newId "snapshot" uuid) ⟨conversationId, storageKey, manifest⟩ })
  return newId "snapshot" uuid

/-! ## Paths -/

/-- The loop of `_path`, the chosen node first.  A loop that takes more steps
than there are nodes has come back to a node and does not end. -/
def walk (nodes : Table Node) (conversationId : Id) : Nat -> Option Id ->
    Except Fault (List (Id × Node))
  | _, none => .ok []
  | 0, some _ => .error .diverges
  | fuel + 1, some identity =>
    match nodes.lookup identity with
    | none => .error (.notFound ("nodes: " ++ identity))
    | some node =>
      if node.conversationId = conversationId then
        (walk nodes conversationId fuel node.parentId).map ((identity, node) :: ·)
      else .error (.notFound ("nodes: " ++ identity))

/-- The nodes up to the root, the chosen node first. -/
def Database.ancestors (db : Database) (conversationId : Id) (nodeId : Option Id) :
    Except Fault (List (Id × Node)) :=
  walk db.nodes conversationId db.nodes.entries.length nodeId

def path (conversationId : Id) (nodeId : Option Id) : Sql (List (Id × Node)) :=
  query fun db => (db.ancestors conversationId nodeId).map List.reverse

/-- `get_path`, a transaction that only reads. -/
def getPath (conversationId : Id) (nodeId : Option Id) : Sql (List (Id × Node)) := do
  let _ <- conversation conversationId none
  path conversationId nodeId

/-- `artifacts.get("isolated")`. -/
def Run.isolated (run : Run) : Bool :=
  ((Json.obj run.artifacts).get? "isolated").any Json.truthy

/-- The loop of `_effective_snapshot` over the nodes from the newest on. -/
def effectiveFrom (db : Database) (conversationId : Id) :
    List (Id × Node) -> Except Fault (Option Id)
  | [] =>
    match db.conversations.lookup conversationId with
    | none => .error (.notFound ("conversations: " ++ conversationId))
    | some row => .ok row.baseSnapshotId
  | (identity, node) :: rest =>
    match node.kind with
    | .localCheckpoint snapshotId => .ok (some snapshotId)
    | .turn _ =>
      match db.runOf identity with
      | none => .error .typeError
      | some (_, run) =>
        match if run.isolated then none else run.outputSnapshotId with
        | some output => .ok (some output)
        | none =>
          match node.inputSnapshotId with
          | some input => .ok (some input)
          | none => effectiveFrom db conversationId rest

def effectiveSnapshot (conversationId : Id) (nodeId : Option Id) : Sql (Option Id) :=
  query fun db => db.ancestors conversationId nodeId >>= effectiveFrom db conversationId

def queuedRun (conversationId nodeId : Id) : Run :=
  { conversationId := conversationId, nodeId := nodeId, status := .queued, answer := "",
    error := none, artifacts := [], outputSnapshotId := none }

/-- `_append_turn`. -/
def appendTurnTo (nodeUuid runUuid : String) (conversationId : Id) (row : Conversation)
    (branchId : Id) (branch : Branch) (userText mode : String) (snapshotId : Option Id) :
    Sql (Node × Run) := do
  text userText "user_text"
  let mode <- validateMode row mode
  snapshotRef conversationId row snapshotId
  insertNode (newId "node" nodeUuid)
    { conversationId := conversationId, parentId := branch.headNodeId, kind := .turn mode,
      userText := userText, inputSnapshotId := snapshotId }
  insertRun (newId "run" runUuid) (queuedRun conversationId (newId "node" nodeUuid))
  setHead branchId (newId "node" nodeUuid)
  select conversationId branchId (some (newId "node" nodeUuid))
  let node <- getNode (newId "node" nodeUuid) none
  let run <- getRun (newId "run" runUuid) none
  event (newId "run" runUuid) .runQueued (.run (newId "run" runUuid) run)
  return (node, run)

def checkpoint (uuid : String) (conversationId branchId snapshotId : Id) (label : String) :
    Sql Node := do
  let branch <- getBranch branchId (some conversationId)
  let input <- effectiveSnapshot conversationId branch.headNodeId
  insertNode (newId "node" uuid)
    { conversationId := conversationId, parentId := branch.headNodeId,
      kind := .localCheckpoint snapshotId, userText := label, inputSnapshotId := input }
  setHead branchId (newId "node" uuid)
  select conversationId branchId (some (newId "node" uuid))
  getNode (newId "node" uuid) none

def repeatTurn (uuids : Uuids) (conversationId nodeId : Id) (userText : Option String)
    (name : String) (expectedRevision : Option Int) : Sql (Node × Run) :=
  inTransaction (do
    let row <- conversation conversationId expectedRevision
    idle conversationId
    let original <- getNode nodeId (some conversationId)
    let mode <- query (fun _ =>
      match original.kind with
      | .turn mode => .ok mode
      | .localCheckpoint _ => .error (.value "only turn nodes can be edited or regenerated"))
    let forked <- fork (uuids 0) conversationId original.parentId name
    let branch <- getBranch forked.1 none
    appendTurnTo (uuids 1) (uuids 2) conversationId row forked.1 branch
      (userText.getD original.userText) mode.text original.inputSnapshotId)

/-! ## Conversations -/

def bindProject [Projects] (conversationId : Id) (projectPath : String) (rootIdentity : Json) :
    Sql Unit := do
  let found <- query (fun db =>
    .ok (db.projects.rows.find? fun project => project.2.path == projectPath))
  let projectId := (found.map Prod.fst).getD (Projects.projectId projectPath)
  onlyIf found.isNone
    (insert "projects.id" (fun db => projectId ∈ db.projects) (fun _ => true)
      (fun db => { db with projects := db.projects.insert projectId ⟨projectPath, 0, rootIdentity⟩ }))
  insert "project_conversations.conversation_id"
    (fun db => conversationId ∈ db.projectConversations)
    (fun db => decide (conversationId ∈ db.conversations) && decide (projectId ∈ db.projects))
    (fun db => { db with
      projectConversations := db.projectConversations.insert conversationId projectId })

/-- The part of `create_conversation` that stores the baseline. -/
def storeBaseline (uuid : String) (conversationId : Id) (projectPath : Option String) :
    Option (String × Dict) -> Sql Unit
  | none => pure ()
  | some (storageKey, manifest) => do
      require (fun _ => projectPath.isSome) (.value "baseline requires a project")
      let snapshot <- insertSnapshot uuid conversationId storageKey manifest
      updateConversation conversationId (fun db => db.hasSnapshot conversationId snapshot)
        (fun row => { row with baseSnapshotId := some snapshot })

def createConversation [Projects] (uuids : Uuids) (title : String) (projectPath : Option String)
    (baseline : Option (String × Dict)) : Sql Conversation := do
  text title "title"
  ifGiven projectPath fun given => text given "project_path"
  let resolved := projectPath.map Projects.resolve
  let identity := newId "conversation" (uuids 0)
  let branchId := newId "branch" (uuids 1)
  inTransaction (do
    insertConversation identity
      { title := title, projectPath := resolved, baseSnapshotId := none, activeBranchId := branchId,
        viewNodeId := none, revision := 0 }
    insertBranch branchId ⟨identity, "main", none, none⟩
    storeBaseline (uuids 2) identity resolved baseline
    ifGiven resolved (fun root => bindProject identity root
      ((baseline.bind fun given => (Json.obj given.2).get? "root_identity").getD (.arr [])))
    conversation identity none)

def renameConversation (conversationId : Id) (title : String) (expectedRevision : Option Int) :
    Sql Conversation := do
  text title "title"
  inTransaction (do
    let _ <- conversation conversationId expectedRevision
    updateConversation conversationId (fun _ => true) (fun row => { row with title := title })
    touch conversationId
    conversation conversationId none)

def viewNode (conversationId : Id) (nodeId : Option Id) (expectedRevision : Option Int) :
    Sql Conversation :=
  inTransaction (do
    let _ <- conversation conversationId expectedRevision
    nodeNamed conversationId nodeId
    updateConversation conversationId (fun db => nodeId.all (db.hasNode conversationId))
      (fun row => { row with viewNodeId := nodeId })
    touch conversationId
    conversation conversationId none)

def switchBranch (conversationId branchId : Id) (expectedRevision : Option Int) : Sql Branch :=
  inTransaction (do
    let _ <- conversation conversationId expectedRevision
    idle conversationId
    let branch <- getBranch branchId (some conversationId)
    select conversationId branchId branch.headNodeId
    return branch)

def forkAt (uuids : Uuids) (conversationId : Id) (nodeId : Option Id) (name : String)
    (expectedRevision : Option Int) : Sql Branch :=
  inTransaction (do
    let _ <- conversation conversationId expectedRevision
    idle conversationId
    let forked <- fork (uuids 0) conversationId nodeId name
    select conversationId forked.1 nodeId
    return forked.2)

/-- `input_snapshot_id or self._effective_snapshot(...)`. -/
def inputSnapshot (conversationId : Id) (head given : Option Id) : Sql (Option Id) :=
  match given.filter (fun snapshot => snapshot != "") with
  | some snapshot => pure (some snapshot)
  | none => effectiveSnapshot conversationId head

def appendTurn (uuids : Uuids) (conversationId : Id) (userText mode : String)
    (inputSnapshotId : Option Id) (expectedRevision : Option Int) : Sql (Node × Run) :=
  inTransaction (do
    let row <- conversation conversationId expectedRevision
    idle conversationId
    let branch <- getBranch row.activeBranchId (some conversationId)
    let snapshot <- inputSnapshot conversationId branch.headNodeId inputSnapshotId
    appendTurnTo (uuids 0) (uuids 1) conversationId row row.activeBranchId branch userText mode
      snapshot)

def editTurn (uuids : Uuids) (conversationId nodeId : Id) (userText name : String)
    (expectedRevision : Option Int) : Sql (Node × Run) := do
  text userText "user_text"
  repeatTurn uuids conversationId nodeId (some userText) name expectedRevision

def regenerateTurn (uuids : Uuids) (conversationId nodeId : Id) (name : String)
    (expectedRevision : Option Int) : Sql (Node × Run) :=
  repeatTurn uuids conversationId nodeId none name expectedRevision

/-- The checkpoint of manual changes before a turn or a restore. -/
def manualCheckpoint (uuid : String) (conversationId branchId snapshotId : Id) : Sql Unit := do
  let _ <- checkpoint uuid conversationId branchId snapshotId "本地修改"

def appendProjectTurn (uuids : Uuids) (conversationId : Id) (userText mode key : String)
    (manifest : Dict) (manual : Bool) (expectedRevision : Option Int) : Sql (Node × Run) :=
  inTransaction (do
    let row <- conversation conversationId expectedRevision
    idle conversationId
    let _ <- validateMode row mode
    text userText "user_text"
    let snapshot <- insertSnapshot (uuids 0) conversationId key manifest
    onlyIf manual (manualCheckpoint (uuids 1) conversationId row.activeBranchId snapshot)
    let branch <- getBranch row.activeBranchId (some conversationId)
    appendTurnTo (uuids 2) (uuids 3) conversationId row row.activeBranchId branch userText mode
      (some snapshot))

/-! ## Runs and candidates -/

def startRun (conversationId runId : Id) : Sql Run :=
  inTransaction (do
    let run <- getRun runId (some conversationId)
    require (fun _ => run.status == .queued) (.conflict "only a queued run can be started")
    updateRun runId (fun run => { run with status := .running })
    touch conversationId
    let started <- getRun runId (some conversationId)
    event runId .runStarted (.run runId started)
    return started)

/-- The arguments of `finish_run`; a candidate brings the project revision
and the key of its input. -/
structure FinishArgs where
  status : RunStatus
  answer : String
  error : Option String
  artifacts : Option Dict
  outputSnapshotId : Option Id
  outputSnapshot : Option (String × Dict)
  candidate : Option (Int × String)

/-- `INSERT INTO candidates` in `finish_run`. -/
def insertCandidate (conversationId runId : Id) (args : FinishArgs) : Sql Unit :=
  match args.candidate with
  | none => pure ()
  | some (projectRevision, inputKey) =>
    match if args.status = .succeeded then args.outputSnapshot else none with
    | none => query (fun _ =>
      .error (.value "only a successful captured run can produce a candidate"))
    | some (outputKey, _) => do
        let projectId <- query (fun db =>
          match db.projectConversations.lookup conversationId with
          | none => .error .typeError
          | some projectId => .ok projectId)
        insert "candidates.run_id" (fun db => runId ∈ db.candidates)
          (fun db => decide (runId ∈ db.runs) && decide (projectId ∈ db.projects))
          (fun db => { db with
            candidates := db.candidates.insert runId
              { projectId := projectId, projectRevision := projectRevision, inputKey := inputKey,
                outputKey := outputKey, status := .ready, operationId := none } })

/-- The columns that `finish_run` sets. -/
def FinishArgs.set (args : FinishArgs) (output : Option Id) (run : Run) : Run :=
  { run with
    status := args.status, answer := args.answer, error := args.error,
    artifacts := args.artifacts.getD [], outputSnapshotId := output }

/-- The output snapshot of a finished run, stored first if it is given as
contents. -/
def outputOf (uuid : String) (conversationId : Id) (args : FinishArgs) : Sql (Option Id) :=
  match args.outputSnapshot with
  | none => pure args.outputSnapshotId
  | some (storageKey, manifest) => some <$> insertSnapshot uuid conversationId storageKey manifest

def finishRun (uuids : Uuids) (conversationId runId : Id) (args : FinishArgs) : Sql Run := do
  require (fun _ => args.status.terminal)
    (.value ("invalid terminal status: " ++ args.status.text))
  inTransaction (do
    let row <- conversation conversationId none
    snapshotRef conversationId row args.outputSnapshotId
    let run <- getRun runId (some conversationId)
    require (fun _ => run.status.active) (.conflict "a terminal run cannot be changed")
    require (fun _ => !(run.status == .queued && !(args.status ∈ [.cancelled, .interrupted])))
      (.conflict "start the run before finishing execution")
    let output <- outputOf (uuids 0) conversationId args
    updateRun runId (args.set output)
    touch conversationId
    insertCandidate conversationId runId args
    let finished <- getRun runId (some conversationId)
    event runId .runFinished (.run runId finished)
    return finished)

/-- The two updates of a ready candidate: exactly one row must change. -/
def settleCandidate (runId : Id) (status : CandidateStatus) (operationId : Option Id) : Sql Unit := do
  require (fun db => (db.candidates.lookup runId).any fun candidate => candidate.status == .ready)
    (.conflict "candidate is not ready")
  write (fun db => { db with
    candidates := db.candidates.modify runId (fun candidate => { candidate with
      status := status, operationId := operationId.orElse (fun _ => candidate.operationId) }) })

def discardCandidate (conversationId runId : Id) : Sql Unit :=
  inTransaction (do
    let _ <- getRun runId (some conversationId)
    idle conversationId
    settleCandidate runId .discarded none
    touch conversationId
    event runId .candidateDiscarded (.discarded runId))

def saveResource (runId : Id) (payload : Json) : Sql Unit :=
  inTransaction (update (fun db => decide (runId ∈ db.runs))
    (fun db => { db with executionResources := db.executionResources.insert runId payload }))

def Database.pending (db : Database) (conversationId : Id) : List (Id × Run) :=
  db.runs.rows.filter fun run => run.2.conversationId == conversationId && run.2.status.active

/-- One round of `interrupt_pending_runs`. -/
def interruptRun (runId : Id) : Sql Unit := do
  updateRun runId (fun run => { run with
    status := .interrupted
    error := some "execution interrupted; reconcile workspace before continuing" })
  let interrupted <- getRun runId none
  event runId .runFinished (.run runId interrupted)

def interruptAll : List (Id × Run) -> Sql Unit
  | [] => pure ()
  | run :: rest => do
      interruptRun run.1
      interruptAll rest

def interruptPendingRuns (conversationId : Id) : Sql (List Run) :=
  inTransaction (do
    let _ <- conversation conversationId none
    let rows <- query (fun db => .ok (db.pending conversationId))
    interruptAll rows
    onlyIf (!rows.isEmpty) (touch conversationId)
    query fun db => .ok (rows.filterMap fun run => db.runs.lookup run.1))

/-! ## Snapshots, checkpoints and restores -/

def recordSnapshot (uuids : Uuids) (conversationId : Id) (storageKey : String)
    (manifest : Option Dict) (asBaseline : Bool) : Sql Snapshot := do
  text storageKey "storage_key"
  inTransaction (do
    let row <- conversation conversationId none
    require (fun _ => row.projectPath.isSome) (.value "snapshots require a project")
    require
      (fun db => !(asBaseline && (row.baseSnapshotId.isSome ||
        db.nodes.rows.any fun node => node.2.conversationId == conversationId)))
      (.conflict "set the immutable baseline before the first history node")
    let identity <- insertSnapshot (uuids 0) conversationId storageKey (manifest.getD [])
    onlyIf asBaseline
      (updateConversation conversationId (fun db => db.hasSnapshot conversationId identity)
        (fun row => { row with baseSnapshotId := some identity }))
    touch conversationId
    getSnapshot identity none)

def appendLocalCheckpoint (uuids : Uuids) (conversationId : Id) (snapshotId : Option Id)
    (label : String) (expectedRevision : Option Int) : Sql Node := do
  text label "label"
  inTransaction (do
    let row <- conversation conversationId expectedRevision
    idle conversationId
    snapshotRef conversationId row snapshotId
    let snapshot <- query (fun _ =>
      match snapshotId with
      | none => .error (.value "local checkpoint requires a snapshot")
      | some snapshot => .ok snapshot)
    checkpoint (uuids 0) conversationId row.activeBranchId snapshot label)

def saveCheckpoint (uuids : Uuids) (conversationId : Id) (key : String) (manifest : Dict)
    (label : String) (expectedRevision : Option Int) : Sql Node := do
  text label "label"
  inTransaction (do
    let row <- conversation conversationId expectedRevision
    idle conversationId
    require (fun _ => row.baseSnapshotId.isSome) (.value "checkpoint requires a project baseline")
    let snapshot <- insertSnapshot (uuids 0) conversationId key manifest
    let saved <- checkpoint (uuids 1) conversationId row.activeBranchId snapshot label
    bumpProject conversationId
    return saved)

/-- The comparison of a plan with the revision of its project. -/
def projectAt (plan : Plan) (stale : String) : Sql Unit :=
  query (fun db =>
    match db.projectOf plan.conversationId with
    | none => .error .typeError
    | some project =>
      if project.revision = plan.projectRevision then .ok () else .error (.conflict stale))

/-- The branch that a restore continues on: the source branch when it applies
a candidate, the stored branch when it switches, else a new fork. -/
def restoreBranch (uuids : Uuids) (plan : Plan) (sourceBranch : Id) : Sql Id :=
  if plan.action = "candidate" then do
    projectAt plan "project changed since candidate was produced"
    settleCandidate plan.runId .applied (some plan.id)
    event plan.runId .candidateApplied (.operation plan.id)
    return sourceBranch
  else if plan.action = "switch" ∧ ¬(plan.manual = true ∧ plan.branchId = some sourceBranch) then do
    let branchId <- query (fun _ =>
      match plan.branchId with
      | none => .error (.notFound "branches: None")
      | some branchId => .ok branchId)
    let branch <- getBranch branchId (some plan.conversationId)
    select plan.conversationId branchId branch.headNodeId
    return branchId
  else do
    let forked <- fork (uuids 2) plan.conversationId plan.destinationNode plan.name
    select plan.conversationId forked.1 plan.destinationNode
    return forked.1

/-- `{**plan["target"], "restore_operation": plan["id"]}`. -/
def Plan.receipt (plan : Plan) : Dict :=
  plan.target.filter (fun entry => entry.1 != "restore_operation") ++
    [("restore_operation", .str plan.id)]

/-- The manual changes of the source are saved first. -/
def saveManual (uuids : Uuids) (plan : Plan) (sourceBranch : Id) : Sql Unit := do
  let snapshot <- insertSnapshot (uuids 0) plan.conversationId plan.beforeKey plan.before
  manualCheckpoint (uuids 1) plan.conversationId sourceBranch snapshot

def commitRestore (uuids : Uuids) (plan : Plan) : Sql Branch :=
  inTransaction (do
    let row <- conversation plan.conversationId (some plan.revision)
    idle plan.conversationId
    projectAt plan "project version changed during application"
    onlyIf plan.manual (saveManual uuids plan row.activeBranchId)
    let branchId <- restoreBranch uuids plan row.activeBranchId
    let snapshot <- insertSnapshot (uuids 3) plan.conversationId plan.targetKey plan.receipt
    let _ <- checkpoint (uuids 4) plan.conversationId branchId snapshot "恢复检查点"
    operation { plan with status := "history_committed" }
    bumpProject plan.conversationId
    getBranch branchId (some plan.conversationId))

end Workbench
end FixLoop
