import FixLoop.Collaboration.Leases

namespace FixLoop
namespace Collaboration

open Library

/-!
# Leases and cancel requests

The guarantees of every single action, and the runs in which a task with a
recorded cancel request is never open again.
-/

/-- What one action leaves as it is: versions do not fall behind, a call
replaces the task that it has read and is the latest claimant's, and a
recorded cancel request stays and refuses claims. -/
structure Leased (tasks : Tasks) (action : Action) : Prop where
  versions : ∀ taskId row, tasks.store.rows.lookup taskId = some row -> ∃ next : TaskRow,
    (taskMachine.step tasks action).store.rows.lookup taskId = some next ∧
      (next = row ∨ row.version < next.version)
  current : ∀ call pending after, action = .replace call -> tasks.pending call = some pending ->
    tasks.store.replaceTask pending.task pending.worker pending.request.eventType = .ok after ->
      tasks.store.getTask pending.base.taskId = some pending.base
  owner : ∀ call pending after, action = .replace call -> tasks.pending call = some pending ->
    tasks.store.replaceTask pending.task pending.worker pending.request.eventType = .ok after ->
      pending.worker ≠ "" -> tasks.store.latestClaim pending.base.taskId = some pending.worker
  claims : ∀ taskId worker now leaseSeconds result,
    action = .claim taskId worker now leaseSeconds ->
      tasks.store.claimTask taskId worker now leaseSeconds = .ok result ->
        ∀ row, tasks.store.rows.lookup taskId = some row -> row.payload.cancelRecorded = false
  recorded : ∀ taskId row, tasks.store.rows.lookup taskId = some row ->
    row.payload.cancelRecorded = true -> ∃ next : TaskRow,
      (taskMachine.step tasks action).store.rows.lookup taskId = some next ∧
        next.payload.cancelRecorded = true

/-- A row that is stored anew or left as it is. -/
theorem put_row {store : Store} {taskId : String} {row stored next : TaskRow} (eventType : String)
    (here : store.rows.lookup taskId = some row) (placed : store.rows.lookup next.payload.taskId = some stored) :
    (store.put next eventType).rows.lookup taskId = some row ∨
      row = stored ∧ (store.put next eventType).rows.lookup taskId = some next := by
  by_cases same : taskId = next.payload.taskId
  · rw [same, placed] at here
    cases here
    exact Or.inr ⟨rfl, by rw [Store.lookup_put, if_pos same]⟩
  · exact Or.inl (by rw [Store.lookup_put, if_neg same, here])

/-- A row is left as it is or advances and keeps its cancel request. -/
theorem row_step {tasks : Tasks} (sound : Sound tasks) (action : Action) {taskId : String} {row : TaskRow}
    (stored : tasks.store.rows.lookup taskId = some row) :
    (taskMachine.step tasks action).store.rows.lookup taskId = some row ∨ ∃ next : TaskRow,
      (taskMachine.step tasks action).store.rows.lookup taskId = some next ∧ Advance row next ∧
        (row.payload.cancelRecorded = true -> next.payload.cancelRecorded = true) := by
  have advanced {held next : TaskRow} {other eventType : String}
      (put : (taskMachine.step tasks action).store = tasks.store.put next eventType)
      (placed : tasks.store.rows.lookup other = some held) (advance : Advance held next)
      (kept : held.payload.cancelRecorded = true -> next.payload.cancelRecorded = true) :
      (taskMachine.step tasks action).store.rows.lookup taskId = some row ∨ ∃ next : TaskRow,
        (taskMachine.step tasks action).store.rows.lookup taskId = some next ∧ Advance row next ∧
          (row.payload.cancelRecorded = true -> next.payload.cancelRecorded = true) := by
    rw [put]
    rw [<- (sound.filed _ _ placed).1, <- advance.sameTask] at placed
    rcases put_row eventType stored placed with same | ⟨rfl, changed⟩
    · exact Or.inl same
    · exact Or.inr ⟨next, changed, advance, kept⟩
  cases step_effect tasks action sound with
  | idle same => exact Or.inl (by rw [same, stored])
  | created task now fresh _ _ missing named _ _ _ _ put =>
    refine Or.inl ?_
    rw [put, Store.lookup_put, if_neg, stored]
    rintro rfl
    rw [named, missing] at stored
    cases stored
  | claimed _ _ _ _ held next _ placed unrequested advance _ _ _ put
  | requested _ _ _ held next _ placed unrequested _ advance _ _ put =>
    exact advanced put placed advance fun requested => absurd requested (by rw [unrequested]; decide)
  | replaced call pending held next _ _ placed read _ advance _ payload put =>
    refine advanced put placed advance fun requested => ?_
    rw [payload]
    exact (edit_ok pending.computed).cancelRecorded.trans (by rw [<- read, requested])

theorem leased {tasks : Tasks} (sound : Sound tasks) (action : Action) : Leased tasks action where
  versions := by
    intro taskId row stored
    rcases row_step sound action stored with same | ⟨next, changed, advance, _⟩
    · exact ⟨row, same, Or.inl rfl⟩
    · exact ⟨next, changed, Or.inr (by rw [advance.version]; exact Nat.lt_succ_self _)⟩
  current := by
    rintro call pending after - waiting returned
    rcases sound.replaced waiting returned with ⟨row, next, stored, read, _⟩
    rw [Store.getTask, stored, Option.map_some, read]
  owner := by
    rintro call pending after - waiting returned named
    rcases sound.replaced waiting returned with ⟨row, next, stored, _, owner, _⟩
    rw [<- owner] at named ⊢
    exact sound.owner _ row stored named
  claims := by
    rintro taskId worker now leaseSeconds ⟨after, claimed⟩ - returned row stored
    rcases Store.claimTask_ok sound.filed returned with ⟨held, _, placed, unrequested, _⟩
    rw [stored] at placed
    cases placed
    exact unrequested
  recorded := by
    intro taskId row stored requested
    rcases row_step sound action stored with same | ⟨next, changed, _, kept⟩
    · exact ⟨row, same, requested⟩
    · exact ⟨next, changed, kept requested⟩

/-! ## Tasks with a recorded cancel request -/

/-- A task with a recorded cancel request is running or final. -/
def AgentTask.Settled (task : AgentTask) : Prop :=
  task.cancelRecorded = true -> task.status ∈ [.running, .completed, .failed, .cancelled]

def CancelSettled (tasks : Tasks) : Prop :=
  ∀ taskId row, tasks.store.rows.lookup taskId = some row -> row.payload.Settled

/-- The result of the call ends the task: it is no failure with attempts
left, and its status is final or running. -/
def Request.Ends (task : AgentTask) : Request -> Prop
  | heartbeat .. => True
  | complete result .. =>
    ¬retried result task ∧ result.status ∈ [.running, .completed, .failed, .cancelled]

/-- No new task brings a cancel request along unless it is settled, none is
requested for a blocked or expired task, and a completion that meets one
ends the task. -/
def EndsCancelled (tasks : Tasks) : Action -> Prop
  | .create task _ => task.validate = [] -> tasks.store.rows.lookup task.taskId = none -> task.Settled
  | .requestCancel taskId requestId _ => ∀ row, tasks.store.rows.lookup taskId = some row ->
      requestId ≠ "" -> row.payload.status ≠ .blocked ∧ row.payload.status ≠ .expired
  | .replace call => ∀ pending row, tasks.pending call = some pending ->
      tasks.store.rows.lookup pending.base.taskId = some row -> row.version = pending.base.version ->
      row.leaseOwner = pending.worker -> row.payload.cancelRecorded = true -> pending.request.Ends row.payload
  | _ => True

theorem settled_requested {task : AgentTask} {requestId : String} {now : ℚ}
    (opened : task.status ∉ [.completed, .failed, .cancelled]) :
    (task.requested requestId now).Settled <->
      (requestId ≠ "" -> task.status ≠ .blocked ∧ task.status ≠ .expired) := by
  rw [AgentTask.Settled, cancelRecorded_requested, bne_iff_ne]
  refine forall_congr' fun _ => ?_
  show (if task.status ∈ [.pending, .ready] then TaskStatus.cancelled else task.status) ∈ _ <-> _
  revert opened
  cases task.status <;> decide

theorem settled_edited {request : Request} {worker : String} {base task : AgentTask} (version : Nat)
    (edited : Edited request worker base task) :
    ({ task with version := version } : AgentTask).Settled <->
      (base.cancelRecorded = true -> request.Ends base) := by
  show (task.cancelRecorded = true -> task.status ∈ _) <-> _
  rw [edited.cancelRecorded, edited.status]
  refine forall_congr' fun _ => ?_
  cases request with
  | heartbeat => exact ⟨fun _ => True.intro, fun _ => List.mem_cons_self⟩
  | complete result checkedAt retriedAt updatedAt =>
    by_cases again : retried result base
    · simp [Request.Ends, again]
    · simp [Request.Ends, again]

theorem cancelSettled_put {tasks : Tasks} {next : TaskRow} {eventType : String} (before : CancelSettled tasks) :
    (∀ taskId row, (tasks.store.put next eventType).rows.lookup taskId = some row -> row.payload.Settled) <->
      next.payload.Settled := by
  constructor
  · intro after
    exact after next.payload.taskId next (by rw [Store.lookup_put, if_pos rfl])
  · intro settled taskId row stored
    rw [Store.lookup_put] at stored
    by_cases here : taskId = next.payload.taskId
    · rw [if_pos here] at stored
      cases stored
      exact settled
    · rw [if_neg here] at stored
      exact before taskId row stored

/-- From settled tasks an action leads to settled tasks exactly when it meets
the condition. -/
theorem settled_step (tasks : Tasks) (action : Action) (sound : Sound tasks) (settled : CancelSettled tasks) :
    CancelSettled (taskMachine.step tasks action) <-> EndsCancelled tasks action := by
  have after (next : TaskRow) (eventType : String)
      (put : (taskMachine.step tasks action).store = tasks.store.put next eventType) :
      CancelSettled (taskMachine.step tasks action) <-> next.payload.Settled := by
    rw [CancelSettled, put]
    exact cancelSettled_put settled
  cases action with
  | create task now =>
    cases step_effect tasks (.create task now) sound with
    | created _ _ row same valid fresh _ _ _ payload status put =>
      cases same
      rw [after row _ put, AgentTask.Settled, AgentTask.cancelRecorded, payload, status]
      exact ⟨fun holds _ _ => holds, fun holds => holds valid fresh⟩
    | idle same =>
      refine ⟨fun _ valid fresh => ?_, fun _ => by rw [CancelSettled, same]; exact settled⟩
      -- a valid task with a new name would have been stored
      have stored : (taskMachine.step tasks (.create task now)).store.rows.lookup task.taskId ≠ none := by
        show (tasks.committed (tasks.store.createTask task now)).store.rows.lookup task.taskId ≠ none
        rw [Store.createTask, if_neg (not_not.mpr valid), fresh]
        exact fun absent => Option.some_ne_none _ ((AList.lookup_insert _).symm.trans absent)
      rw [same, fresh] at stored
      exact absurd rfl stored
    | claimed _ _ _ _ _ _ impossible => cases impossible
    | requested _ _ _ _ _ impossible => cases impossible
    | replaced _ _ _ _ impossible => cases impossible
  | claim taskId worker now leaseSeconds =>
    refine ⟨fun _ => True.intro, fun _ => ?_⟩
    cases step_effect tasks (.claim taskId worker now leaseSeconds) sound with
    | claimed _ _ _ _ row next _ _ unrequested _ _ _ payload put =>
      rw [after next _ put, AgentTask.Settled, AgentTask.cancelRecorded, payload]
      intro requested
      rw [AgentTask.cancelRecorded] at unrequested
      rw [unrequested] at requested
      cases requested
    | idle same => rw [CancelSettled, same]; exact settled
    | created _ _ _ impossible
    | requested _ _ _ _ _ impossible
    | replaced _ _ _ _ impossible => cases impossible
  | requestCancel taskId requestId now =>
    rcases Store.requestCancelTask_cases sound.filed taskId requestId now with
      ⟨same, closed⟩ | ⟨row, next, stored, _, opened, _, _, payload, put⟩
    · have still : CancelSettled (taskMachine.step tasks (.requestCancel taskId requestId now)) := by
        show ∀ taskId row, (tasks.store.requestCancelTask _ _ now).1.rows.lookup taskId = some row -> _
        rw [same]
        exact settled
      refine ⟨fun _ row stored _ => ?_, fun _ => still⟩
      have status : row.payload.status ∈ [.running, .completed, .failed, .cancelled] := by
        rcases closed row stored with requested | final
        · exact settled taskId row stored requested
        · exact List.mem_cons_of_mem _ final
      revert status
      cases row.payload.status <;> decide
    · rw [after next _ put, payload, settled_requested opened]
      constructor
      · intro holds other found
        rw [stored] at found
        cases found
        exact holds
      · intro holds
        exact holds row stored
  | read call taskId worker request =>
    refine ⟨fun _ => True.intro, fun _ => ?_⟩
    cases step_effect tasks (.read call taskId worker request) sound with
    | idle same => rw [CancelSettled, same]; exact settled
    | created _ _ _ impossible
    | claimed _ _ _ _ _ _ impossible
    | requested _ _ _ _ _ impossible
    | replaced _ _ _ _ impossible => cases impossible
  | replace call =>
    cases step_effect tasks (.replace call) sound with
    | replaced _ pending row next same waiting stored read owner _ _ payload put =>
      cases same
      rw [after next _ put, payload, settled_edited _ (edit_ok pending.computed), <- read]
      constructor
      · intro holds other found otherWaiting otherStored _ _
        rw [waiting] at otherWaiting
        cases otherWaiting
        rw [stored] at otherStored
        cases otherStored
        exact holds
      · intro holds
        refine holds pending row waiting stored ?_ owner
        rw [<- read]
        exact (sound.filed _ _ stored).2
    | idle same =>
      refine ⟨fun _ pending row waiting stored version owner => ?_,
        fun _ => by rw [CancelSettled, same]; exact settled⟩
      -- a call with the stored version would have replaced the task
      have edited := edit_ok pending.computed
      rw [<- edited.sameTask] at stored
      rw [<- edited.version] at version
      rcases Store.replaceTask_returns pending.request.eventType stored version owner with ⟨store, returned⟩
      rcases sound.replaced waiting returned with ⟨held, next, placed, _, _, advance, _, _, put⟩
      have stays : (tasks.replace call).store = tasks.store := same
      rw [Tasks.replace, waiting] at stays
      simp only [returned] at stays
      rw [put] at stays
      have changed := congrArg (fun store : Store => store.rows.lookup next.payload.taskId) stays
      simp only [Store.lookup_put, if_pos] at changed
      rw [advance.sameTask, (sound.filed _ _ placed).1, placed] at changed
      cases changed
      exact absurd advance.version (Nat.ne_of_lt (Nat.lt_succ_self _))
    | created _ _ _ impossible => cases impossible
    | claimed _ _ _ _ _ _ impossible => cases impossible
    | requested _ _ _ _ _ impossible => cases impossible

/-- In every run every action keeps the leases; and every state of the run
has its cancelled tasks settled exactly when every action ends the cancelled
task that it completes. -/
theorem cancelled_tasks_settled (actions : List Action) :
    (∀ before action rest, actions = before ++ action :: rest ->
      Leased (taskMachine.run Tasks.start before) action) ∧
    (taskMachine.Visits CancelSettled Tasks.start actions <->
      taskMachine.Along EndsCancelled Tasks.start actions) := by
  constructor
  · intro before action rest _
    exact leased (taskMachine.invariant_run step_sound Sound.start before) action
  · refine taskMachine.visits_iff_along step_sound settled_step Sound.start ?_ actions
    intro taskId row stored
    cases stored

/-- A failed attempt of a task that is to be cancelled opens it again, and no
later cancel request closes it. -/
theorem cancelled_task_reopened :
    let task : AgentTask :=
      { taskId := "t", role := "patcher", kind := "patch", maxAttempts := 2, createdAt := 1, updatedAt := 1 }
    let actions : List Action :=
      [.create task 1, .claim "t" "w" 2 60, .requestCancel "t" "r" 3,
        .read 0 "t" "w" (.complete { taskId := "t", status := .failed } 4 4 4), .replace 0,
        .requestCancel "t" "s" 5]
    (((taskMachine.run Tasks.start actions).store.getTask "t").map
        (fun task => (task.status, task.cancelRecorded))) = some (.ready, true) ∧
      ¬taskMachine.Visits CancelSettled Tasks.start actions := by
  intro task actions
  have reopened : ((taskMachine.run Tasks.start actions).store.getTask "t").map
      (fun task => (task.status, task.cancelRecorded)) = some (.ready, true) := by
    decide +kernel
  refine ⟨reopened, fun visits => ?_⟩
  have settled := taskMachine.visits_last visits
  rcases Option.map_eq_some_iff.mp reopened with ⟨stored, found, shown⟩
  rcases Option.map_eq_some_iff.mp found with ⟨row, placed, rfl⟩
  have final := settled "t" row placed (congrArg Prod.snd shown)
  rw [show row.payload.status = .ready from congrArg Prod.fst shown] at final
  exact absurd final (by decide)

end Collaboration
end FixLoop
