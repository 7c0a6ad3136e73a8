import FixLoop.Collaboration.Attempts

namespace FixLoop
namespace Collaboration
namespace Explorations

open Library

/-!
# Runs of the exploration store

What a call does to the rows, and the invariant that every row keeps.
-/

def rowOf (task : AgentTask) : TaskRow :=
  { runId := task.runId
    payload := { task with version := 1 }
    version := 1
    status := task.status
    leaseOwner := ""
    leaseExpiresAt := 0 }

variable {rows : Table TaskRow} {tasks : List AgentTask} {data : Exploration}

variable {after start : Table TaskRow} {call : Call} {calls : List Call}

theorem insertTasks_ok (returned : insertTasks rows tasks = .ok after) :
    (∀ taskId row, after.lookup taskId = some row -> rows.lookup taskId = some row ∨
      rows.lookup taskId = none ∧ ∃ task ∈ tasks, taskId = task.taskId ∧ row = rowOf task) ∧
    (∀ taskId row, rows.lookup taskId = some row -> after.lookup taskId = some row) ∧
    after.values = (tasks.map rowOf).reverse ++ rows.values := by
  induction tasks generalizing rows with
  | nil =>
    cases returned
    exact ⟨fun _ _ stored => Or.inl stored, fun _ _ stored => stored, rfl⟩
  | cons task rest ih =>
    rw [insertTasks] at returned
    split at returned
    · cases returned
    · cases returned
    · rename_i fresh _
      rcases ih returned with ⟨origin, kept, values⟩
      refine ⟨fun taskId row stored => ?_, fun taskId row stored => ?_, ?_⟩
      · rcases origin taskId row stored with before | ⟨missing, later, member, named, same⟩
        · rcases Table.lookup_insert_some before with ⟨rfl, rfl⟩ | ⟨_, old⟩
          · exact Or.inr ⟨fresh, task, List.mem_cons_self, rfl, rfl⟩
          · exact Or.inl old
        · refine Or.inr ⟨?_, later, List.mem_cons_of_mem _ member, named, same⟩
          by_cases here : taskId = task.taskId
          · rw [here, fresh]
          · rwa [AList.lookup_insert_ne here] at missing
      · refine kept taskId row ?_
        rw [AList.lookup_insert_ne, stored]
        rintro rfl
        rw [fresh] at stored
        cases stored
      · rw [values, Table.values_insert_fresh fresh, List.map_cons, List.reverse_cons, List.append_assoc]
        rfl

theorem validBatch_ok {runId : String} (valid : validBatch tasks = .ok runId) :
    tasks.length ≤ 2 ∧ ∀ task ∈ tasks, task.runId = runId := by
  unfold validBatch at valid
  split at valid
  · cases valid
  · rename_i first rest
    split at valid
    · cases valid
    · rename_i few
      split at valid
      · cases valid
      · rename_i together
        split at valid
        · cases valid
        · cases valid
          rw [not_or] at few together
          refine ⟨not_lt.mp few.1, fun task member => ?_⟩
          rcases List.mem_cons.mp member with rfl | later
          · rfl
          · have same := List.any_eq_false.mp (Bool.not_eq_true _ ▸ together.2) task later
            exact not_not.mp fun apart => same (bne_iff_ne.mpr apart)

theorem submitBatch_ok {runTokenLimit : Int} (returned : submitBatch tasks runTokenLimit rows = .ok after) :
    ∃ runId reserved,
      validBatch tasks = .ok runId ∧ ((explorations runId rows).filter active).length + tasks.length ≤ 2 ∧
        tasks.mapM tokensOf = .ok reserved ∧ charged runId rows + reserved.sum ≤ runTokenLimit ∧
          insertTasks rows tasks = .ok after := by
  rcases Fallible.bind_ok returned with ⟨runId, valid, returned⟩
  split at returned
  · cases returned
  · rename_i few
    rcases Fallible.bind_ok returned with ⟨reserved, tokens, returned⟩
    split at returned
    · cases returned
    · rename_i within
      exact ⟨runId, reserved, valid, not_lt.mp few, tokens, not_lt.mp within, returned⟩

/-! ## What a call does to the rows -/

/-- The task whose row a call changes. -/
def Call.target : Call -> Option String
  | .submitBatch .. => none
  | .claim taskId .. | .invalidateWorker taskId .. | .confirmCleanup taskId .. | .retry taskId .. => some taskId
  | .finish claimed .. => some claimed.taskId

/-- The run of the task stays within its limit after a retry. -/
def Within (rows : Table TaskRow) (task : AgentTask) : Call -> Prop
  | .retry _ _ _ runTokenLimit .. =>
    ∃ tokens, task.tokenBudget = some tokens ∧ charged task.runId rows + tokens ≤ runTokenLimit
  | _ => True

inductive Effect (rows : Table TaskRow) (call : Call) : Prop where
  | idle : step rows call = rows -> Effect rows call
  | submitted (tasks : List AgentTask) (runTokenLimit : Int) (runId : String) (reserved : List Int) :
      call = .submitBatch tasks runTokenLimit -> validBatch tasks = .ok runId ->
      ((explorations runId rows).filter active).length + tasks.length ≤ 2 ->
      tasks.mapM tokensOf = .ok reserved -> charged runId rows + reserved.sum ≤ runTokenLimit ->
      insertTasks rows tasks = .ok (step rows call) -> Effect rows call
  | turned (taskId : String) (row next : TaskRow) : call.target = some taskId ->
      rows.lookup taskId = some row -> next.runId = row.runId -> Turned call row.payload next.payload ->
      Within rows row.payload call -> step rows call = rows.insert taskId next -> Effect rows call

/-- Every row is filed under the identifier and the run of its task. -/
def Filed (rows : Table TaskRow) : Prop :=
  ∀ taskId row, rows.lookup taskId = some row -> row.payload.taskId = taskId ∧ row.payload.runId = row.runId

theorem Turned.saved {task next : AgentTask} (turned : Turned call task next) (version : Nat) (savedAt : ℚ) :
    Turned call task { next with version := version, updatedAt := savedAt } :=
  ⟨turned.sameTask, turned.sameRun, turned.sameBudget, turned.turn⟩

/-- A call that hands its task to a callback. -/
theorem mutate_effect (filed : Filed rows) {taskId : String} {callback : Callback} {savedAt : ℚ}
    (performed : perform rows call = mutate taskId callback savedAt rows)
    (target : call.target = some taskId)
    (turned : ∀ task next, callback task = .ok (some next) -> Turned call task next ∧ Within rows task call) :
    Effect rows call := by
  cases stored : rows.lookup taskId with
  | none =>
    refine .idle ?_
    rw [step, performed, mutate, stored]
  | some row =>
    rcases filed taskId row stored with ⟨named, _⟩
    cases made : callback row.payload with
    | error fault =>
      refine .idle ?_
      rw [step, performed, mutate, stored]
      simp only [made]
    | ok result =>
      cases result with
      | none =>
        refine .idle ?_
        rw [step, performed, mutate, stored]
        simp only [made]
      | some next =>
        rcases turned row.payload next made with ⟨turn, within⟩
        refine .turned taskId row
          (row.holding { next with version := next.version + 1, updatedAt := savedAt }) target stored rfl
          (turn.saved _ _) within ?_
        have placed : rows.lookup next.taskId = some row := by rw [turn.sameTask, named, stored]
        rw [step, performed, mutate, stored]
        simp only [made]
        rw [save, Table.modify_of_some placed, turn.sameTask, named]

theorem step_effect (rows : Table TaskRow) (call : Call) (filed : Filed rows) : Effect rows call := by
  cases call with
  | submitBatch tasks runTokenLimit =>
    cases returned : submitBatch tasks runTokenLimit rows with
    | error fault =>
      refine .idle ?_
      simp only [step, perform, returned]
    | ok after =>
      have same : step rows (.submitBatch tasks runTokenLimit) = after := by
        simp only [step, perform, returned]
      rcases submitBatch_ok returned with ⟨runId, reserved, valid, few, tokens, within, inserted⟩
      exact .submitted tasks runTokenLimit runId reserved rfl valid few tokens within
        (by rw [same]; exact inserted)
  | claim taskId owner attemptId checkedAt startedAt savedAt =>
    exact mutate_effect filed rfl rfl fun task next made => ⟨claim_turned savedAt made, True.intro⟩
  | finish claimed result resultRef endedAt savedAt =>
    exact mutate_effect filed rfl rfl fun task next made => ⟨finish_turned savedAt made, True.intro⟩
  | invalidateWorker taskId reason stopped savedAt =>
    exact mutate_effect filed rfl rfl fun task next made => ⟨invalidate_turned savedAt made, True.intro⟩
  | confirmCleanup taskId attemptId savedAt =>
    exact mutate_effect filed rfl rfl fun task next made => ⟨confirm_turned savedAt made, True.intro⟩
  | retry taskId versions deadlineS runTokenLimit stopped now savedAt =>
    exact mutate_effect filed rfl rfl fun task next made => retry_turned savedAt made

/-! ## The invariant of the rows -/

/-- An exploration as it is submitted: queued, with its budget charged and
nothing recorded yet. -/
structure Fresh (tokens : Int) (data : Exploration) : Prop where
  queued : data.status = "queued"
  charged : data.chargedTokens = tokens
  receipts : data.receipts = []
  unsettled : data.reservationSettled = false
  unclaimed : data.attemptId = none
  unlost : data.lostAttemptId = none
  uncancelled : data.cancelRequested = none
  uncleaned : data.cleanupConfirmed = false

/-- Submitted tasks are new, identifiers of attempts are new, and reported
statuses are final. -/
def Proper (rows : Table TaskRow) (call : Call) : Prop :=
  (∀ tasks runTokenLimit, call = .submitBatch tasks runTokenLimit -> ∀ task ∈ tasks, ∃ data tokens,
      task.payload.exploration = some data ∧ task.tokenBudget = some tokens ∧ Fresh tokens data) ∧
  (∀ taskId row data, call.target = some taskId -> rows.lookup taskId = some row ->
    row.payload.payload.exploration = some data -> Admissible data call)

structure Sound (rows : Table TaskRow) : Prop where
  filed : Filed rows
  attempted : ∀ taskId row data, rows.lookup taskId = some row ->
    row.payload.payload.exploration = some data ->
      Attempted data ∧ ∃ tokens, row.payload.tokenBudget = some tokens ∧ Balanced tokens data

/-- Tasks of other kinds may be there before the first exploration. -/
structure Bare (rows : Table TaskRow) : Prop where
  filed : Filed rows
  none_ : ∀ taskId row, rows.lookup taskId = some row -> row.payload.payload.exploration = none

theorem Bare.sound (bare : Bare rows) : Sound rows where
  filed := bare.filed
  attempted taskId row data stored found := by
    rw [bare.none_ taskId row stored] at found
    cases found

theorem Fresh.attempted {tokens : Int} (fresh : Fresh tokens data) : Attempted data where
  uncleaned _ := fresh.uncleaned
  reserved _ := ⟨fresh.unsettled, by rw [cancelled, fresh.uncancelled]; rfl⟩
  running same := absurd (fresh.queued.symm.trans same) (by decide)
  queued _ := Or.inl ⟨fresh.unclaimed, fresh.receipts⟩
  lost same := absurd (fresh.queued.symm.trans same) (by decide)
  reason attemptId lost := by
    rw [fresh.unlost] at lost
    cases lost

theorem Fresh.balanced {tokens : Int} (fresh : Fresh tokens data) : Balanced tokens data := by
  rw [Balanced, fresh.charged, fresh.receipts, fresh.unsettled]
  exact (zero_add tokens).symm

theorem sound_step (rows : Table TaskRow) (call : Call) (sound : Sound rows) (proper : Proper rows call) :
    Sound (step rows call) := by
  cases step_effect rows call sound.filed with
  | idle same =>
    rw [same]
    exact sound
  | submitted tasks runTokenLimit runId reserved same valid _ _ _ inserted =>
    rcases insertTasks_ok inserted with ⟨origin, _, _⟩
    constructor
    · intro taskId row stored
      rcases origin taskId row stored with before | ⟨_, task, member, named, rfl⟩
      · exact sound.filed taskId row before
      · exact ⟨named.symm, rfl⟩
    · intro taskId row data stored found
      rcases origin taskId row stored with before | ⟨_, task, member, named, rfl⟩
      · exact sound.attempted taskId row data before found
      · rcases proper.1 tasks runTokenLimit same task member with ⟨_, tokens, given, budget, fresh⟩
        cases given.symm.trans found
        exact ⟨fresh.attempted, tokens, budget, fresh.balanced⟩
  | turned taskId row next target stored sameRun turned _ same =>
    rcases sound.filed taskId row stored with ⟨named, run⟩
    rw [same]
    constructor
    · intro other changed placed
      rcases Table.lookup_insert_some placed with ⟨rfl, rfl⟩ | ⟨_, before⟩
      · exact ⟨turned.sameTask.trans named, by rw [turned.sameRun, run, sameRun]⟩
      · exact sound.filed other changed before
    · intro other changed data placed found
      rcases Table.lookup_insert_some placed with ⟨rfl, rfl⟩ | ⟨_, before⟩
      · rcases turned.turn with ⟨held, after, heldFound, afterFound, turn⟩
        cases afterFound.symm.trans found
        rcases sound.attempted other row held stored heldFound with ⟨attempted, tokens, budget, balanced⟩
        rw [budget] at turn
        exact ⟨attempted_turn turn (proper.2 other row held target stored heldFound) attempted, tokens,
          by rw [turned.sameBudget, budget], balanced_turn turn attempted balanced⟩
      · exact sound.attempted other changed data before found

theorem sound_run (bare : Bare start) (proper : machine.Along Proper start calls) :
    Sound (machine.run start calls) :=
  machine.invariant_along (fun rows call sound proper => sound_step rows call sound proper) bare.sound calls proper

/-! ## The explorations of a run -/

def pick (runId : String) (row : TaskRow) : Option Exploration :=
  if row.runId = runId then row.payload.payload.exploration else none

theorem explorations_eq (runId : String) (rows : Table TaskRow) :
    explorations runId rows = rows.values.filterMap (pick runId) := by
  rw [explorations, List.filterMap_filter]
  congr 1
  funext row
  by_cases here : row.runId = runId
  · simp [pick, here]
  · simp [pick, here]

theorem explorations_turned {taskId : String} {row next : TaskRow} {after : Exploration} (runId : String)
    (stored : rows.lookup taskId = some row) (sameRun : next.runId = row.runId)
    (found : row.payload.payload.exploration = some data)
    (turned : next.payload.payload.exploration = some after) : ∃ rest : List Exploration,
      (row.runId = runId ∧ (explorations runId rows).Perm (data :: rest) ∧
        explorations runId (rows.insert taskId next) = after :: rest) ∨
      (row.runId ≠ runId ∧ (explorations runId rows).Perm (explorations runId (rows.insert taskId next))) := by
  rcases Table.values_insert_stored stored next with ⟨rest, before, changed⟩
  refine ⟨rest.filterMap (pick runId), ?_⟩
  rw [explorations_eq, explorations_eq, changed]
  have exchanged := before.filterMap (pick runId)
  by_cases here : row.runId = runId
  · refine Or.inl ⟨here, ?_, ?_⟩
    · rwa [List.filterMap_cons_some (b := data) (by rw [pick, if_pos here, found])] at exchanged
    · exact List.filterMap_cons_some (by rw [pick, if_pos (sameRun.trans here), turned])
  · refine Or.inr ⟨here, ?_⟩
    rw [List.filterMap_cons_none (by rw [pick, if_neg here])] at exchanged
    rwa [List.filterMap_cons_none (by rw [pick, if_neg fun same => here (sameRun.symm.trans same)])]

theorem explorations_submitted {runId : String} (inserted : insertTasks rows tasks = .ok after)
    (together : ∀ task ∈ tasks, task.runId = runId) (other : String) :
    explorations other after =
      (if other = runId then tasks.reverse.filterMap (fun task => task.payload.exploration) else []) ++
        explorations other rows := by
  rw [explorations_eq, explorations_eq, (insertTasks_ok inserted).2.2, List.filterMap_append,
    <- List.map_reverse, List.filterMap_map]
  refine congrArg (fun front => front ++ rows.values.filterMap (pick other)) ?_
  by_cases here : other = runId
  · rw [if_pos here]
    refine List.filterMap_congr fun task member => ?_
    exact if_pos ((together task (List.mem_reverse.mp member)).trans here.symm)
  · rw [if_neg here]
    refine List.filterMap_eq_nil_iff.mpr fun task member => ?_
    exact if_neg fun same => here (same.symm.trans (together task (List.mem_reverse.mp member)))

theorem active_of_turn {budget : Option Int} {after : Exploration} (turn : Turn budget call data after)
    (admissible : Admissible data call) (attempted : Attempted data) (open_ : active after = true) :
    active data = true := by
  have started (running : data.status ∈ ACTIVE) : active data = true := by
    rw [active, attempted.uncleaned running, decide_eq_true running]
    rfl
  cases turn with
  | claimed queued => exact started (by rw [queued]; decide)
  | finished running => exact started (by rw [running]; decide)
  | invalidated running | abandoned running => exact started running
  | confirmed =>
    rw [active, Bool.and_eq_true] at open_
    exact absurd open_.2 Bool.false_ne_true
  | retriedLost retriable
  | retriedRunning retriable => exact started (active_of_retriable retriable)

/-- At most two explorations of a run are active. -/
theorem active_step (rows : Table TaskRow) (call : Call) (sound : Sound rows) (proper : Proper rows call)
    (runId : String) (few : ((explorations runId rows).filter active).length ≤ 2) :
    ((explorations runId (step rows call)).filter active).length ≤ 2 := by
  cases step_effect rows call sound.filed with
  | idle same =>
    rw [same]
    exact few
  | submitted tasks runTokenLimit batch reserved same valid fits _ _ inserted =>
    rw [explorations_submitted inserted (validBatch_ok valid).2, List.filter_append, List.length_append]
    by_cases here : runId = batch
    · subst here
      rw [if_pos rfl]
      have added : ((tasks.reverse.filterMap fun task => task.payload.exploration).filter active).length ≤
          tasks.length :=
        (List.length_filter_le _ _).trans ((List.length_filterMap_le _ _).trans (le_of_eq List.length_reverse))
      omega
    · rw [if_neg here]
      rw [List.filter_nil, List.length_nil, Nat.zero_add]
      exact few
  | turned taskId row next target stored sameRun turned _ same =>
    rcases turned.turn with ⟨data, after, found, changed, turn⟩
    have kept := active_of_turn turn (proper.2 taskId row data target stored found)
      (sound.attempted taskId row data stored found).1
    rw [same]
    rcases explorations_turned runId stored sameRun found changed with
      ⟨rest, ⟨_, before, now⟩ | ⟨_, unchanged⟩⟩
    · have counted := (before.filter active).length_eq
      rw [now, List.filter_cons]
      rw [List.filter_cons] at counted
      by_cases open_ : active after = true
      · rw [if_pos (kept open_)] at counted
        rw [if_pos open_, List.length_cons]
        rw [List.length_cons] at counted
        omega
      · rw [if_neg open_]
        split at counted
        · rw [List.length_cons] at counted
          omega
        · omega
    · rw [<- (unchanged.filter active).length_eq]
      exact few

theorem Bare.explorations (bare : Bare rows) (runId : String) : explorations runId rows = [] := by
  rw [explorations_eq]
  refine List.filterMap_eq_nil_iff.mpr fun row member => ?_
  rcases List.mem_map.mp member with ⟨entry, listed, rfl⟩
  rw [pick, bare.none_ entry.1 entry.2 (AList.mem_lookup_iff.mpr listed), ite_self]

theorem active_run (bare : Bare start) (proper : machine.Along Proper start calls) (runId : String) :
    ((explorations runId (machine.run start calls)).filter active).length ≤ 2 := by
  refine (@Machine.invariant_along _ _ machine
    (fun rows => Sound rows ∧ ((explorations runId rows).filter active).length ≤ 2) Proper
    (fun rows call holds proper => ⟨sound_step rows call holds.1 proper, active_step rows call holds.1 proper
      runId holds.2⟩) start ⟨bare.sound, ?_⟩ calls proper).2
  rw [bare.explorations]
  exact Nat.zero_le 2

end Explorations
end Collaboration
end FixLoop
