import FixLoop.Collaboration.Store

namespace FixLoop
namespace Collaboration

open Library

/-!
# Leases of tasks

What one action can do to the store, and from it what holds in every run:
versions only grow, a task is replaced only by a change of the version it
has, and its owner is the worker of the latest claim.
-/

/-! ## Stored tasks -/

/-- The row after an accepted change of its task. -/
structure Advance (before after : TaskRow) : Prop where
  sameTask : after.payload.taskId = before.payload.taskId
  version : after.version = before.version + 1
  filed : after.version = after.payload.version

namespace Store

def put (row : TaskRow) (eventType : String) (store : Store) : Store :=
  ({ store with rows := store.rows.insert row.payload.taskId row }).event eventType row.payload

def latestClaim (taskId : String) (store : Store) : Option String :=
  ((store.events.filter fun event => event.objectId == taskId && event.eventType == "task_claimed").getLast?).map
    (fun event => event.payload.leaseOwner)

/-- Every row is filed under the identifier and the version of its task. -/
def Filed (store : Store) : Prop :=
  ∀ taskId row, store.rows.lookup taskId = some row ->
    row.payload.taskId = taskId ∧ row.version = row.payload.version

variable {store after : Store} {taskId worker : String} {row : TaskRow}

theorem lookup_put (row : TaskRow) (eventType : String) (store : Store) (taskId : String) :
    (store.put row eventType).rows.lookup taskId =
      if taskId = row.payload.taskId then some row else store.rows.lookup taskId := by
  rw [put, event]
  by_cases here : taskId = row.payload.taskId
  · rw [if_pos here, here, AList.lookup_insert]
  · rw [if_neg here, AList.lookup_insert_ne here]

theorem latestClaim_put (row : TaskRow) (eventType : String) (store : Store) (taskId : String) :
    (store.put row eventType).latestClaim taskId =
      if row.payload.taskId = taskId ∧ eventType = "task_claimed" then some row.payload.leaseOwner
      else store.latestClaim taskId := by
  rw [put, event, latestClaim, List.filter_append]
  by_cases here : row.payload.taskId = taskId ∧ eventType = "task_claimed"
  · rw [if_pos here, List.filter_cons_of_pos (by simp [here.1, here.2]), List.filter_nil,
      List.getLast?_concat]
    rfl
  · rw [if_neg here, List.filter_cons_of_neg (by simpa using here), List.filter_nil, List.append_nil]
    rfl

theorem update_of_stored (task : AgentTask) (stored : store.rows.lookup task.taskId = some row) :
    store.update task =
      { store with rows := store.rows.insert task.taskId (row.holding task) } := by
  rw [update, Table.modify_of_some stored]

theorem Filed.put {store : Store} (filed : store.Filed) {row : TaskRow}
    (matched : row.version = row.payload.version) (eventType : String) :
    (store.put row eventType).Filed := by
  intro taskId other stored
  rw [lookup_put] at stored
  by_cases here : taskId = row.payload.taskId
  · rw [if_pos here] at stored
    cases stored
    exact ⟨here.symm, matched⟩
  · rw [if_neg here] at stored
    exact filed taskId other stored

/-! ## What each call does -/

variable {task : AgentTask}

theorem createTask_ok {stored : AgentTask} {now : ℚ}
    (returned : store.createTask task now = .ok (after, stored)) :
    after = store ∨ ∃ row : TaskRow,
      store.rows.lookup row.payload.taskId = none ∧ row.payload.taskId = task.taskId ∧
        row.version = row.payload.version ∧ row.leaseOwner = "" ∧
        row.payload.payload = task.payload ∧ row.payload.status = task.status ∧
        after = store.put row "task_created" := by
  unfold createTask at returned
  split at returned
  · cases returned
  · split at returned
    · cases returned
      exact Or.inl rfl
    · rename_i missing
      cases returned
      exact Or.inr ⟨⟨task.runId, task.created now, 1, task.status, "", 0⟩, missing, rfl, rfl, rfl, rfl, rfl, rfl⟩

theorem createTask_valid {now : ℚ} {result : Store × AgentTask}
    (returned : store.createTask task now = .ok result) : task.validate = [] := by
  unfold createTask at returned
  split at returned
  · cases returned
  · rename_i valid
    exact not_not.mp valid

theorem claimTask_ok (filed : store.Filed) {now leaseSeconds : ℚ} {claimed : AgentTask}
    (returned : store.claimTask taskId worker now leaseSeconds = .ok (after, claimed)) :
    ∃ row : TaskRow, ∃ next : TaskRow,
      store.rows.lookup taskId = some row ∧ row.payload.cancelRecorded = false ∧ Advance row next ∧
        next.leaseOwner = worker ∧ next.payload = claimed ∧ claimed.leaseOwner = worker ∧
        claimed.payload = row.payload.payload ∧ after = store.put next "task_claimed" := by
  unfold claimTask at returned
  split at returned
  · cases returned
  · rename_i row stored
    rcases filed taskId row stored with ⟨rfl, -⟩
    split at returned
    · cases returned
    · rename_i unrequested
      iterate 4 (split at returned; · cases returned)
      cases returned
      refine ⟨row, row.holding (row.payload.claimed worker row.version now leaseSeconds), stored,
        Bool.eq_false_iff.mpr unrequested, ⟨rfl, rfl, rfl⟩, rfl, rfl, rfl, rfl, ?_⟩
      rw [update_of_stored (row.payload.claimed worker row.version now leaseSeconds) stored]
      rfl

theorem requestCancelTask_cases (filed : store.Filed) (taskId requestId : String) (now : ℚ) :
    ((store.requestCancelTask taskId requestId now).1 = store ∧
        ∀ row, store.rows.lookup taskId = some row ->
          row.payload.cancelRecorded = true ∨ row.payload.status ∈ [.completed, .failed, .cancelled]) ∨
      ∃ row : TaskRow, ∃ next : TaskRow,
        store.rows.lookup taskId = some row ∧ row.payload.cancelRecorded = false ∧
          row.payload.status ∉ [.completed, .failed, .cancelled] ∧ Advance row next ∧
          next.leaseOwner = row.leaseOwner ∧ next.payload = row.payload.requested requestId now ∧
          (store.requestCancelTask taskId requestId now).1 = store.put next "task_cancel_requested" := by
  unfold requestCancelTask
  split
  · rename_i missing
    refine Or.inl ⟨rfl, fun row stored => ?_⟩
    rw [missing] at stored
    cases stored
  · rename_i row stored
    rcases filed taskId row stored with ⟨rfl, version⟩
    split
    · rename_i closed
      refine Or.inl ⟨rfl, fun other same => ?_⟩
      rw [stored] at same
      cases same
      exact closed
    · rename_i opened
      rw [not_or] at opened
      refine Or.inr ⟨row, ⟨row.runId, row.payload.requested requestId now, row.payload.version + 1,
          (row.payload.requested requestId now).status, row.leaseOwner, row.leaseExpiresAt⟩, stored,
        Bool.eq_false_iff.mpr opened.1, opened.2, ⟨rfl, by rw [version], rfl⟩, rfl, rfl, ?_⟩
      rw [Table.modify_of_some stored]
      rfl

theorem replaceTask_returns (eventType : String) (stored : store.rows.lookup task.taskId = some row)
    (version : row.version = task.version) (owner : row.leaseOwner = worker) :
    ∃ after, store.replaceTask task worker eventType = .ok after := by
  rw [replaceTask, stored]
  dsimp only
  rw [if_neg (not_or.mpr ⟨not_not.mpr version, not_not.mpr owner⟩)]
  exact ⟨_, rfl⟩

theorem replaceTask_ok {eventType : String} (returned : store.replaceTask task worker eventType = .ok after) :
    ∃ row : TaskRow, ∃ next : TaskRow,
      store.rows.lookup task.taskId = some row ∧ row.version = task.version ∧ row.leaseOwner = worker ∧
        next.version = row.version + 1 ∧ next.leaseOwner = task.leaseOwner ∧
        next.payload = { task with version := row.version + 1 } ∧ after = store.put next eventType := by
  unfold replaceTask at returned
  split at returned
  · cases returned
  · rename_i row stored
    split at returned
    · cases returned
    · rename_i matched
      rw [not_or, not_not, not_not] at matched
      cases returned
      refine ⟨row, row.holding { task with version := row.version + 1 }, stored, matched.1, matched.2, rfl,
        rfl, rfl, ?_⟩
      rw [update_of_stored { task with version := row.version + 1 } stored]
      rfl

end Store

/-! ## What a call computes -/

theorem checkLease_ok {worker : String} {checkedAt : ℚ} {task : AgentTask}
    (passed : checkLease worker checkedAt task = .ok ()) :
    task.status = .running ∧ task.leaseOwner = worker := by
  unfold checkLease at passed
  split at passed
  · cases passed
  · rename_i holds
    rwa [not_or, not_not, not_not] at holds

theorem cancelRecorded_withMember (task : AgentTask) (value : Json) :
    (task.withMember "result" value).cancelRecorded = task.cancelRecorded := by
  rw [AgentTask.cancelRecorded, AgentTask.withMember, Record.get_set_ne (by decide)]
  rfl

theorem cancelRecorded_requested (task : AgentTask) (requestId : String) (now : ℚ) :
    (task.requested requestId now).cancelRecorded = (requestId != "") := by
  show (Record.get "cancel_request_id" (Record.set _ _ _)).truthy = _
  rw [Record.get_set_self]
  rfl

theorem Request.not_claimed (request : Request) : request.eventType ≠ "task_claimed" := by
  cases request with
  | heartbeat => exact (by decide : "task_heartbeat" ≠ "task_claimed")
  | complete => exact (by decide : "task_completed" ≠ "task_claimed")

/-- What a call makes of the task that it has read. -/
structure Edited (request : Request) (worker : String) (base task : AgentTask) : Prop where
  running : base.status = .running
  owner : base.leaseOwner = worker
  sameTask : task.taskId = base.taskId
  version : task.version = base.version
  leaseOwner : task.leaseOwner = worker ∨ task.leaseOwner = ""
  cancelRecorded : task.cancelRecorded = base.cancelRecorded
  status : task.status =
    match request with
    | .heartbeat .. => .running
    | .complete result .. => if retried result base then .ready else result.status

theorem edit_ok {request : Request} {taskId worker : String} {base task : AgentTask}
    (computed : request.edit taskId worker base = .ok task) : Edited request worker base task := by
  cases request with
  | heartbeat leaseSeconds checkedAt extendedAt updatedAt =>
    rw [Request.edit] at computed
    cases checked : checkLease worker checkedAt base with
    | error fault =>
      rw [checked] at computed
      cases computed
    | ok _ =>
      rw [checked] at computed
      rcases checkLease_ok checked with ⟨running, owner⟩
      cases computed
      exact ⟨running, owner, rfl, rfl, Or.inl owner, rfl, running⟩
  | complete result checkedAt retriedAt updatedAt =>
    rw [Request.edit] at computed
    cases checked : checkLease worker checkedAt base with
    | error fault =>
      rw [checked] at computed
      cases computed
    | ok _ =>
      rw [checked] at computed
      rcases checkLease_ok checked with ⟨running, owner⟩
      change (if result.taskId ≠ taskId then _ else _) = _ at computed
      split at computed
      · cases computed
      · cases computed
        exact ⟨running, owner, rfl, rfl, Or.inr rfl, cancelRecorded_withMember base _, rfl⟩

/-! ## What holds in every run -/

/-- The owner of a row is the worker of the latest claim, and a pending call
knows the task whenever the row still has the version that it read. -/
structure Sound (tasks : Tasks) : Prop where
  filed : tasks.store.Filed
  owner : ∀ taskId row, tasks.store.rows.lookup taskId = some row -> row.leaseOwner ≠ "" ->
    tasks.store.latestClaim taskId = some row.leaseOwner
  known : ∀ call pending, tasks.pending call = some pending -> ∃ row : TaskRow,
    tasks.store.rows.lookup pending.base.taskId = some row ∧ pending.base.version ≤ row.version ∧
      (row.version = pending.base.version -> row.payload = pending.base)

namespace Sound

variable {tasks : Tasks} {next : TaskRow} {eventType : String}

theorem start : Sound Tasks.start where
  filed := by
    intro taskId row stored
    cases stored
  owner := by
    intro taskId row stored
    cases stored
  known := by
    intro call pending stored
    cases stored

/-- A row of a later version keeps the invariant if its owner is the worker
of the latest claim. -/
theorem put (sound : Sound tasks) (filed : next.version = next.payload.version)
    (later : ∀ row, tasks.store.rows.lookup next.payload.taskId = some row -> row.version < next.version)
    (owner : next.leaseOwner ≠ "" ->
      (tasks.store.put next eventType).latestClaim next.payload.taskId = some next.leaseOwner) :
    Sound { tasks with store := tasks.store.put next eventType } where
  filed := sound.filed.put filed eventType
  owner := by
    intro taskId row stored owned
    change (tasks.store.put next eventType).rows.lookup taskId = some row at stored
    rw [Store.lookup_put] at stored
    by_cases here : taskId = next.payload.taskId
    · rw [if_pos here] at stored
      cases stored
      rw [here]
      exact owner owned
    · rw [if_neg here] at stored
      show (tasks.store.put next eventType).latestClaim taskId = _
      rw [Store.latestClaim_put, if_neg fun claimed => here claimed.1.symm]
      exact sound.owner taskId row stored owned
  known := by
    intro call pending waiting
    rcases sound.known call pending waiting with ⟨row, stored, below, known⟩
    show ∃ row, (tasks.store.put next eventType).rows.lookup pending.base.taskId = some row ∧ _
    by_cases here : pending.base.taskId = next.payload.taskId
    · rw [here] at stored
      have above := later row stored
      refine ⟨next, by rw [Store.lookup_put, if_pos here], by omega, fun same => by omega⟩
    · exact ⟨row, by rw [Store.lookup_put, if_neg here, stored], below, known⟩

/-- The next version of a stored row. -/
theorem advanced (sound : Sound tasks) {taskId : String} {row : TaskRow}
    (stored : tasks.store.rows.lookup taskId = some row) (advance : Advance row next)
    (owner : next.leaseOwner ≠ "" ->
      (tasks.store.put next eventType).latestClaim taskId = some next.leaseOwner) :
    Sound { tasks with store := tasks.store.put next eventType } := by
  have sameTask := advance.sameTask.trans (sound.filed taskId row stored).1
  refine sound.put advance.filed (fun other found => ?_) fun owned => ?_
  · rw [sameTask, stored] at found
    cases found
    rw [advance.version]
    exact Nat.lt_succ_self _
  · rw [sameTask]
    exact owner owned

/-- Calls that are forgotten or have just read a task. -/
theorem pending (sound : Sound tasks) {pending : Nat -> Option Pending}
    (waiting : ∀ call entry, pending call = some entry -> tasks.pending call = some entry ∨
      ∃ row : TaskRow, tasks.store.rows.lookup entry.taskId = some row ∧ row.payload = entry.base) :
    Sound { tasks with pending := pending } where
  filed := sound.filed
  owner := sound.owner
  known := by
    intro call entry here
    rcases waiting call entry here with before | ⟨row, stored, same⟩
    · exact sound.known call entry before
    · rcases sound.filed _ _ stored with ⟨sameTask, version⟩
      refine ⟨row, ?_, by rw [<- same, version], fun _ => same⟩
      rw [<- same, sameTask]
      exact stored

/-- An accepted replacement is made from the stored task, by its owner. -/
theorem replaced (sound : Sound tasks) {call : Nat} {pending : Pending} {after : Store}
    (waiting : tasks.pending call = some pending)
    (returned : tasks.store.replaceTask pending.task pending.worker pending.request.eventType = .ok after) :
    ∃ row : TaskRow, ∃ next : TaskRow,
      tasks.store.rows.lookup pending.base.taskId = some row ∧ row.payload = pending.base ∧
        row.leaseOwner = pending.worker ∧ Advance row next ∧ next.leaseOwner = pending.task.leaseOwner ∧
        next.payload = { pending.task with version := row.version + 1 } ∧
        after = tasks.store.put next pending.request.eventType := by
  have edited := edit_ok pending.computed
  rcases Store.replaceTask_ok returned with
    ⟨row, next, stored, version, owner, nextVersion, nextOwner, payload, rfl⟩
  rw [edited.sameTask] at stored
  rw [edited.version] at version
  rcases sound.known call pending waiting with ⟨known, knownStored, -, same⟩
  rw [stored] at knownStored
  cases knownStored
  have read := same version
  refine ⟨row, next, stored, read, owner, ⟨?_, nextVersion, ?_⟩, nextOwner, payload, rfl⟩
  · rw [payload, read]
    exact edited.sameTask
  · rw [payload, nextVersion]

end Sound

/-- What an action does to the rows. -/
inductive RowsEffect (tasks : Tasks) (action : Action) : Prop where
  | idle : (taskMachine.step tasks action).store = tasks.store -> RowsEffect tasks action
  | created (task : AgentTask) (now : ℚ) (row : TaskRow) : action = .create task now -> task.validate = [] ->
      tasks.store.rows.lookup task.taskId = none -> row.payload.taskId = task.taskId ->
      row.version = row.payload.version -> row.leaseOwner = "" -> row.payload.payload = task.payload -> row.payload.status = task.status ->
      (taskMachine.step tasks action).store = tasks.store.put row "task_created" -> RowsEffect tasks action
  | claimed (taskId worker : String) (now leaseSeconds : ℚ) (row next : TaskRow) :
      action = .claim taskId worker now leaseSeconds ->
      tasks.store.rows.lookup taskId = some row -> row.payload.cancelRecorded = false -> Advance row next ->
      next.leaseOwner = worker -> next.payload.leaseOwner = worker ->
      next.payload.payload = row.payload.payload ->
      (taskMachine.step tasks action).store = tasks.store.put next "task_claimed" -> RowsEffect tasks action
  | requested (taskId requestId : String) (now : ℚ) (row next : TaskRow) :
      action = .requestCancel taskId requestId now -> tasks.store.rows.lookup taskId = some row ->
      row.payload.cancelRecorded = false -> row.payload.status ∉ [.completed, .failed, .cancelled] ->
      Advance row next -> next.leaseOwner = row.leaseOwner ->
      next.payload = row.payload.requested requestId now ->
      (taskMachine.step tasks action).store = tasks.store.put next "task_cancel_requested" ->
      RowsEffect tasks action
  | replaced (call : Nat) (pending : Pending) (row next : TaskRow) : action = .replace call ->
      tasks.pending call = some pending -> tasks.store.rows.lookup pending.base.taskId = some row ->
      row.payload = pending.base -> row.leaseOwner = pending.worker -> Advance row next ->
      next.leaseOwner = pending.task.leaseOwner -> next.payload = { pending.task with version := row.version + 1 } ->
      (taskMachine.step tasks action).store = tasks.store.put next pending.request.eventType ->
      RowsEffect tasks action

variable (tasks : Tasks)

theorem step_effect (action : Action) (sound : Sound tasks) : RowsEffect tasks action := by
  cases action with
  | create task now =>
    cases returned : tasks.store.createTask task now with
    | error fault =>
      refine .idle ?_
      show (tasks.committed (tasks.store.createTask task now)).store = _
      rw [returned, Tasks.committed]
    | ok result =>
      have after : (taskMachine.step tasks (.create task now)).store = result.1 := by
        show (tasks.committed (tasks.store.createTask task now)).store = _
        rw [returned, Tasks.committed]
      rcases Store.createTask_ok returned with same | ⟨row, fresh, named, filed, unowned, payload, status, put⟩
      · exact .idle (after.trans same)
      · rw [named] at fresh
        exact .created task now row rfl (Store.createTask_valid returned) fresh named filed unowned
          payload status (after.trans put)
  | claim taskId worker now leaseSeconds =>
    cases returned : tasks.store.claimTask taskId worker now leaseSeconds with
    | error fault =>
      refine .idle ?_
      show (tasks.committed (tasks.store.claimTask taskId worker now leaseSeconds)).store = _
      rw [returned, Tasks.committed]
    | ok result =>
      have after : (taskMachine.step tasks (.claim taskId worker now leaseSeconds)).store = result.1 := by
        show (tasks.committed (tasks.store.claimTask taskId worker now leaseSeconds)).store = _
        rw [returned, Tasks.committed]
      rcases Store.claimTask_ok sound.filed returned with
        ⟨row, next, stored, unrequested, advance, owner, payload, claimed, kept, put⟩
      exact .claimed taskId worker now leaseSeconds row next rfl stored unrequested advance owner
        (by rw [payload, claimed]) (by rw [payload, kept]) (after.trans put)
  | requestCancel taskId requestId now =>
    rcases Store.requestCancelTask_cases sound.filed taskId requestId now with
      ⟨same, _⟩ | ⟨row, next, stored, unrequested, opened, advance, owner, payload, put⟩
    · exact .idle same
    · exact .requested taskId requestId now row next rfl stored unrequested opened advance owner
        payload put
  | read call taskId worker request =>
    refine .idle ?_
    show (tasks.read call taskId worker request).store = _
    unfold Tasks.read
    split
    · rfl
    · split
      · rfl
      · rfl
  | replace call =>
    cases waiting : tasks.pending call with
    | none =>
      refine .idle ?_
      show (tasks.replace call).store = _
      rw [Tasks.replace, waiting]
    | some pending =>
      cases returned : tasks.store.replaceTask pending.task pending.worker pending.request.eventType with
      | error fault =>
        refine .idle ?_
        show (tasks.replace call).store = _
        simp only [Tasks.replace, waiting, returned]
      | ok store =>
        rcases sound.replaced waiting returned with
          ⟨row, next, stored, read, owner, advance, nextOwner, payload, put⟩
        refine .replaced call pending row next rfl waiting stored read owner advance nextOwner payload ?_
        show (tasks.replace call).store = _
        simp only [Tasks.replace, waiting, returned, put]

/-- A pending call was pending before or has just read its task. -/
theorem step_pending (action : Action) (call : Nat) (entry : Pending)
    (waiting : (taskMachine.step tasks action).pending call = some entry) :
    tasks.pending call = some entry ∨ ∃ row : TaskRow,
      tasks.store.rows.lookup entry.taskId = some row ∧ row.payload = entry.base := by
  cases action with
  | create task now =>
    change (tasks.committed (tasks.store.createTask task now)).pending call = _ at waiting
    unfold Tasks.committed at waiting
    split at waiting
    · exact Or.inl waiting
    · exact Or.inl waiting
  | claim taskId worker now leaseSeconds =>
    change (tasks.committed (tasks.store.claimTask taskId worker now leaseSeconds)).pending call = _ at waiting
    unfold Tasks.committed at waiting
    split at waiting
    · exact Or.inl waiting
    · exact Or.inl waiting
  | requestCancel taskId requestId now => exact Or.inl waiting
  | read reader taskId worker request =>
    change (tasks.read reader taskId worker request).pending call = _ at waiting
    unfold Tasks.read at waiting
    split at waiting
    · exact Or.inl waiting
    · rename_i base found
      rcases Option.map_eq_some_iff.mp found with ⟨row, stored, same⟩
      split at waiting
      · dsimp only at waiting
        by_cases this : call = reader
        · rw [this, Function.update_self] at waiting
          cases waiting
          exact Or.inr ⟨row, stored, same⟩
        · rw [Function.update_of_ne this] at waiting
          exact Or.inl waiting
      · exact Or.inl waiting
  | replace writer =>
    change (tasks.replace writer).pending call = _ at waiting
    unfold Tasks.replace at waiting
    split at waiting
    · exact Or.inl waiting
    · dsimp only at waiting
      by_cases this : call = writer
      · rw [this, Function.update_self] at waiting
        cases waiting
      · rw [Function.update_of_ne this] at waiting
        exact Or.inl waiting

theorem step_sound (action : Action) (sound : Sound tasks) : Sound (taskMachine.step tasks action) := by
  have waiting := sound.pending (step_pending tasks action)
  have rebuilt (store : Store) (same : (taskMachine.step tasks action).store = store)
      (holds : Sound ⟨store, (taskMachine.step tasks action).pending⟩) :
      Sound (taskMachine.step tasks action) := by
    rw [<- same] at holds
    exact holds
  cases step_effect tasks action sound with
  | idle same => exact rebuilt _ same waiting
  | created task now row _ _ fresh named filed unowned _ _ put =>
    refine rebuilt _ put (waiting.put filed (fun other stored => ?_) fun owned => absurd unowned owned)
    rw [named, fresh] at stored
    cases stored
  | claimed taskId worker now leaseSeconds row next _ stored _ advance owner claimed _ put =>
    refine rebuilt _ put (waiting.advanced stored advance fun _ => ?_)
    rw [Store.latestClaim_put, advance.sameTask, if_pos ⟨(sound.filed _ _ stored).1, rfl⟩, claimed, owner]
  | requested taskId requestId now row next _ stored _ _ advance owner _ put =>
    refine rebuilt _ put (waiting.advanced stored advance fun owned => ?_)
    rw [owner] at owned ⊢
    rw [Store.latestClaim_put, if_neg fun claimed => absurd claimed.2 (by decide)]
    exact sound.owner taskId row stored owned
  | replaced call pending row next _ _ stored _ owner advance nextOwner _ put =>
    refine rebuilt _ put (waiting.advanced stored advance fun owned => ?_)
    rw [nextOwner] at owned ⊢
    rcases (edit_ok pending.computed).leaseOwner with mine | free
    · rw [Store.latestClaim_put, if_neg (fun claimed => pending.request.not_claimed claimed.2), mine, <- owner]
      exact sound.owner _ row stored (by rw [owner, <- mine]; exact owned)
    · exact absurd free owned

end Collaboration
end FixLoop
