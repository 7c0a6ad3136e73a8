import FixLoop.Collaboration.Batches

namespace FixLoop
namespace Collaboration
namespace Explorations

open Library

/-!
# Fenced attempts

An attempt is behind once its exploration has been put back in the queue or
claimed again.  From then on its result is refused by the generation of the
lease.  The confirmation of its cleanup is told from a current one by the
identifier of the lost attempt alone, which a retry keeps.
-/

/-- The exploration of a task. -/
def dataOf (taskId : String) (rows : Table TaskRow) : Option Exploration :=
  (rows.lookup taskId).bind fun row => row.payload.payload.exploration

variable {taskId attemptId : String} {rows : Table TaskRow} {data after : Exploration} {call : Call}
  {budget : Option Int} {generation : Nat}

theorem dataOf_stored (found : dataOf taskId rows = some data) : ∃ row,
      rows.lookup taskId = some row ∧ row.payload.payload.exploration = some data :=
  Option.bind_eq_some_iff.mp found

theorem dataOf_insert {other : String} (next : TaskRow) :
    dataOf other (rows.insert taskId next) =
      if other = taskId then next.payload.payload.exploration else dataOf other rows := by
  by_cases here : other = taskId
  · rw [if_pos here, dataOf, here, AList.lookup_insert, Option.bind_some]
  · rw [if_neg here, dataOf, AList.lookup_insert_ne here, dataOf]

/-- A call leaves the data of an exploration or turns them. -/
theorem data_step (sound : Sound rows) (proper : Proper rows call) (found : dataOf taskId rows = some data) :
    dataOf taskId (step rows call) = some data ∨ ∃ after budget,
      dataOf taskId (step rows call) = some after ∧ call.target = some taskId ∧
        Turn budget call data after ∧ Admissible data call ∧ Attempted data := by
  rcases dataOf_stored found with ⟨row, stored, given⟩
  cases step_effect rows call sound.filed with
  | idle same => exact Or.inl (by rw [same, found])
  | submitted _ _ _ _ _ _ _ _ _ inserted =>
    rw [dataOf, (insertTasks_ok inserted).2.1 taskId row stored, Option.bind_some, given]
    exact Or.inl rfl
  | turned other held next target placed _ turned _ same =>
    rw [same, dataOf_insert]
    by_cases here : taskId = other
    · subst here
      rw [if_pos rfl]
      rw [stored] at placed
      cases placed
      rcases turned.turn with ⟨before, after, beforeFound, afterFound, turn⟩
      cases beforeFound.symm.trans given
      exact Or.inr ⟨after, _, afterFound, target, turn, proper.2 taskId row data target stored given,
        (sound.attempted taskId row data stored given).1⟩
    · rw [if_neg here, found]
      exact Or.inl rfl

/-- Only a submission brings an exploration to a task that has none. -/
theorem data_submitted (sound : Sound rows) (proper : Proper rows call)
    (missing : dataOf taskId rows = none) (found : dataOf taskId (step rows call) = some data) :
    ∃ tokens, Fresh tokens data := by
  cases step_effect rows call sound.filed with
  | idle same =>
    rw [same, missing] at found
    cases found
  | submitted tasks runTokenLimit runId reserved same valid _ _ _ inserted =>
    rcases dataOf_stored found with ⟨row, stored, given⟩
    rcases (insertTasks_ok inserted).1 taskId row stored with before | ⟨_, task, member, _, rfl⟩
    · rw [dataOf, before, Option.bind_some, given] at missing
      cases missing
    · rcases proper.1 tasks runTokenLimit same task member with ⟨_, tokens, submitted, _, fresh⟩
      cases submitted.symm.trans given
      exact ⟨tokens, fresh⟩
  | turned other row next target stored _ turned _ same =>
    rw [same, dataOf_insert] at found
    by_cases here : taskId = other
    · subst here
      rcases turned.turn with ⟨before, _, beforeFound, _⟩
      rw [dataOf, stored, Option.bind_some, beforeFound] at missing
      cases missing
    · rw [if_neg here, missing] at found
      cases found

/-! ## Attempts that are behind -/

/-- The attempt has been claimed, and the generation is not behind it. -/
def Begun (attemptId : String) (generation : Nat) (data : Exploration) : Prop :=
  generation ≤ data.leaseGeneration ∧
    (data.attemptId = some attemptId ∨ attemptId ∈ receipted data)

/-- The generation is ahead of the attempt, which is not the open one. -/
structure Behind (attemptId : String) (generation : Nat) (data : Exploration) : Prop where
  generation : generation < data.leaseGeneration
  receipt : attemptId ∈ receipted data
  closed : data.attemptId = some attemptId -> data.status ≠ "running" ∧ data.status ≠ "worker_lost"

theorem turn_generation (turn : Turn budget call data after) :
    data.leaseGeneration ≤ after.leaseGeneration := by
  cases turn with
  | finished | confirmed => exact Nat.le_refl _
  | _ => exact Nat.le_succ _

theorem turn_receipted (turn : Turn budget call data after) (receipt : attemptId ∈ receipted data) :
    attemptId ∈ receipted after := by
  have longer (added : Receipt) : attemptId ∈ (data.receipts ++ [added]).map Receipt.attemptId := by
    rw [List.map_append]
    exact List.mem_append_left _ receipt
  cases turn with
  | finished | abandoned | retriedRunning => exact longer _
  | _ => exact receipt

/-- Only a claim names a new attempt. -/
theorem turn_attempt (turn : Turn budget call data after) :
    after.attemptId = data.attemptId ∨ data.status = "queued" := by
  cases turn with
  | claimed queued => exact Or.inr queued
  | _ => exact Or.inl rfl

theorem Attempted.receipted_of_queued (attempted : Attempted data) (queued : data.status = "queued")
    (attempt : data.attemptId = some attemptId) : attemptId ∈ receipted data := by
  rcases attempted.queued queued with ⟨unclaimed, _⟩ | ⟨known, same, receipt⟩
  · rw [unclaimed] at attempt
    cases attempt
  · rw [attempt] at same
    cases same
    exact receipt

theorem Begun.turn (begun : Begun attemptId generation data) (turn : Turn budget call data after)
    (attempted : Attempted data) : Begun attemptId generation after := by
  refine ⟨Nat.le_trans begun.1 (turn_generation turn), ?_⟩
  rcases begun.2 with current | receipt
  · rcases turn_attempt turn with same | queued
    · exact Or.inl (by rw [same, current])
    · exact Or.inr (turn_receipted turn (attempted.receipted_of_queued queued current))
  · exact Or.inr (turn_receipted turn receipt)

/-- Confirming a cleanup never opens an exploration. -/
theorem confirmed_inactive (attempted : Attempted data) (lost : data.lostAttemptId = some attemptId) :
    data.cancelRequested.getD "cancelled" ∉ ACTIVE := by
  rcases attempted.reason attemptId lost with ⟨reason, requested, rfl | ⟨final, -⟩⟩
  · rw [requested]
    decide
  · rw [requested]
    exact terminal_inactive final

theorem Behind.turn (behind : Behind attemptId generation data) (turn : Turn budget call data after)
    (admissible : Admissible data call) (attempted : Attempted data) : Behind attemptId generation after := by
  have inactive {status : String} (outside : status ∉ ACTIVE) : status ≠ "running" ∧ status ≠ "worker_lost" :=
    ⟨fun same => outside (by rw [same]; decide), fun same => outside (by rw [same]; decide)⟩
  refine ⟨Nat.lt_of_lt_of_le behind.generation (turn_generation turn), turn_receipted turn behind.receipt, ?_⟩
  cases turn with
  | claimed =>
    intro current
    cases current
    exact absurd behind.receipt admissible.2
  | finished running =>
    intro current
    exact absurd running (behind.closed current).1
  | invalidated running settled =>
    intro current
    exact absurd (attempted.lost_of_settled running settled) (behind.closed current).2
  | abandoned running unsettled =>
    intro current
    rcases attempted.open_of_unsettled running unsettled with queued | same
    · show (if data.status = "queued" ∨ _ then _ else _) ≠ _ ∧ (if data.status = "queued" ∨ _ then _ else _) ≠ _
      rw [if_pos (Or.inl queued)]
      exact inactive (terminal_inactive admissible)
    · exact absurd same (behind.closed current).1
  | confirmed lost => exact fun _ => inactive (confirmed_inactive attempted lost)
  | retriedLost => exact fun _ => ⟨(by decide : "queued" ≠ "running"), (by decide : "queued" ≠ "worker_lost")⟩
  | retriedRunning =>
    exact fun _ => ⟨(by decide : "queued" ≠ "running"), (by decide : "queued" ≠ "worker_lost")⟩

/-- The calls that start a new attempt or make room for one. -/
def Call.restarts : Call -> Bool
  | .claim .. | .retry .. => true
  | _ => false

/-- A retry or a claim leaves every attempt behind that had begun. -/
theorem behind_of_restart (begun : Begun attemptId generation data) (turn : Turn budget call data after)
    (admissible : Admissible data call) (attempted : Attempted data) (restarts : call.restarts = true) :
    Behind attemptId generation after := by
  have requeued_apart : ("queued" : String) ≠ "running" ∧ ("queued" : String) ≠ "worker_lost" := by decide
  cases turn with
  | claimed queued =>
    have receipt : attemptId ∈ receipted data :=
      begun.2.elim (attempted.receipted_of_queued queued) fun receipt => receipt
    refine ⟨Nat.lt_succ_of_le begun.1, receipt, fun current => ?_⟩
    cases current
    exact absurd receipt admissible.2
  | retriedLost retriable settled =>
    refine ⟨Nat.lt_succ_of_le begun.1, ?_, fun _ => requeued_apart⟩
    rcases begun.2 with current | receipt
    · have lost := attempted.lost_of_settled (active_of_retriable retriable) settled
      rcases (attempted.lost lost).2 with ⟨known, same, _, receipt, _⟩
      cases current.symm.trans same
      exact receipt
    · exact receipt
  | retriedRunning _ _ attempt =>
    refine ⟨Nat.lt_succ_of_le begun.1, ?_, fun _ => requeued_apart⟩
    rw [receipted, requeued, List.map_append]
    rcases begun.2 with current | receipt
    · cases current.symm.trans attempt
      exact List.mem_append_right _ List.mem_cons_self
    · exact List.mem_append_left _ receipt
  | _ => cases restarts

/-- The call is made on the task and changes its data. -/
def Accepted (rows : Table TaskRow) (taskId : String) (call : Call) : Prop :=
  call.target = some taskId ∧ dataOf taskId (step rows call) ≠ dataOf taskId rows

/-- In the run, the attempt was claimed under the generation, and later its
task was retried or claimed again. -/
def Earlier (start : Table TaskRow) (calls : List Call) (taskId attemptId : String) (generation : Nat) : Prop :=
  ∃ before claim middle restart rest claimed,
      calls = before ++ claim :: (middle ++ restart :: rest) ∧
        Accepted (machine.run start before) taskId claim ∧
        dataOf taskId (machine.run start (before ++ [claim])) = some claimed ∧
        claimed.attemptId = some attemptId ∧ claimed.leaseGeneration = generation ∧
        restart.restarts = true ∧ Accepted (machine.run start (before ++ claim :: middle)) taskId restart

theorem Accepted.turn (accepted : Accepted rows taskId call) (sound : Sound rows)
    (proper : Proper rows call) (found : dataOf taskId rows = some data) :
    ∃ after budget, dataOf taskId (step rows call) = some after ∧
      Turn budget call data after ∧ Admissible data call ∧ Attempted data := by
  rcases data_step sound proper found with same | ⟨after, budget, changed, _, turn, admissible, attempted⟩
  · exact absurd (same.trans found.symm) accepted.2
  · exact ⟨after, budget, changed, turn, admissible, attempted⟩

/-- What every turn keeps of the data of a task holds after a run. -/
theorem kept_run (property : Exploration -> Prop)
    (turned : ∀ budget call data after, property data -> Turn budget call data after -> Admissible data call -> Attempted data -> property after)
    (sound : Sound rows) (found : dataOf taskId rows = some data) (holds : property data)
    (calls : List Call) (proper : machine.Along Proper rows calls) :
    ∃ after, dataOf taskId (machine.run rows calls) = some after ∧ property after := by
  induction calls generalizing rows data with
  | nil => exact ⟨data, found, holds⟩
  | cons call rest ih =>
    have next := sound_step rows call sound proper.1
    rcases data_step sound proper.1 found with same | ⟨after, budget, changed, _, turn, admissible, attempted⟩
    · exact ih next same holds proper.2
    · exact ih next changed (turned budget call data after holds turn admissible attempted) proper.2

/-- The data of a task whose attempt is an earlier one are ahead of it. -/
theorem behind_of_earlier {start : Table TaskRow} (bare : Bare start) {calls : List Call}
    (proper : machine.Along Proper start calls) (earlier : Earlier start calls taskId attemptId generation) :
    ∃ data, dataOf taskId (machine.run start calls) = some data ∧
      Behind attemptId generation data := by
  rcases earlier with
    ⟨before, claim, middle, restart, rest, claimed, rfl, _, found, attempt, rfl, restarts, accepted⟩
  have split : before ++ claim :: (middle ++ restart :: rest) =
      (before ++ [claim]) ++ (middle ++ restart :: rest) := by simp
  have joined : before ++ claim :: middle = (before ++ [claim]) ++ middle := by simp
  rw [split, machine.along_append] at proper
  rw [joined] at accepted
  have claimedSound := sound_run bare proper.1
  have along := proper.2
  rw [machine.along_append] at along
  rcases kept_run (Begun attemptId claimed.leaseGeneration)
      (fun _ _ _ _ begun turn _ attempted => begun.turn turn attempted) claimedSound found
      ⟨Nat.le_refl _, Or.inl attempt⟩ middle along.1 with ⟨open_, openFound, begun⟩
  rw [machine.run_append] at accepted
  have openSound : Sound (machine.run (machine.run start (before ++ [claim])) middle) :=
    machine.invariant_along (fun rows call sound proper => sound_step rows call sound proper) claimedSound
      middle along.1
  rcases accepted.turn openSound along.2.1 openFound with ⟨after, budget, changed, turn, admissible, attempted⟩
  have behind := behind_of_restart begun turn admissible attempted restarts
  rcases kept_run (Behind attemptId claimed.leaseGeneration)
      (fun _ _ _ _ behind turn admissible attempted => behind.turn turn admissible attempted)
      (sound_step _ _ openSound along.2.1) changed behind rest along.2.2 with ⟨last, lastFound, lastBehind⟩
  refine ⟨last, ?_, lastBehind⟩
  rw [split, machine.run_append, machine.run_append, machine.run_cons]
  exact lastFound

/-- A result of a generation that is behind is refused. -/
theorem finish_behind (filed : Filed rows) {claimed : AgentTask} {expected : Exploration}
    (given : claimed.payload.exploration = some expected) (found : dataOf claimed.taskId rows = some data)
    (behind : Behind attemptId expected.leaseGeneration data) (result : ExplorationResult)
    (resultRef : String) (endedAt savedAt : ℚ) :
    step rows (.finish claimed result resultRef endedAt savedAt) = rows := by
  cases step_effect rows (.finish claimed result resultRef endedAt savedAt) filed with
  | idle same => exact same
  | submitted _ _ _ _ impossible => cases impossible
  | turned taskId row next target stored _ turned _ _ =>
    cases target
    rcases dataOf_stored found with ⟨held, placed, heldFound⟩
    cases stored.symm.trans placed
    rcases turned.turn with ⟨before, after, beforeFound, _, turn⟩
    cases beforeFound.symm.trans heldFound
    cases turn with
    | finished _ claimedFound _ _ generation =>
      cases claimedFound.symm.trans given
      exact absurd behind.generation (by rw [generation]; exact Nat.lt_irrefl _)

theorem dataOf_confirmed (filed : Filed rows) (attemptId : String) (savedAt : ℚ)
    (found : dataOf taskId rows = some data) :
    dataOf taskId (step rows (.confirmCleanup taskId attemptId savedAt)) =
      some (if data.lostAttemptId = some attemptId then
        { data with cleanupConfirmed := true, status := data.cancelRequested.getD "cancelled" } else data) := by
  rcases dataOf_stored found with ⟨row, stored, given⟩
  have named := (filed taskId row stored).1
  have loaded : explorationOf row.payload = .ok data := by rw [explorationOf, given]
  by_cases lost : data.lostAttemptId = some attemptId
  · have made : confirm attemptId row.payload = .ok (some (withExploration
        { data with cleanupConfirmed := true, status := data.cancelRequested.getD "cancelled" } row.payload)) := by
      rw [confirm, loaded]
      exact if_neg (not_not.mpr lost)
    rw [if_pos lost, step, perform, mutate, stored]
    simp only [made]
    rw [save, show (withExploration _ row.payload).taskId = taskId from named, Table.modify_of_some stored,
      dataOf_insert, if_pos rfl]
    rfl
  · have made : confirm attemptId row.payload = .ok none := by
      rw [confirm, loaded]
      exact if_pos lost
    rw [if_neg lost, step, perform, mutate, stored]
    simp only [made]
    exact found

/-- The loss of the attempt has been withdrawn: the identifier of the lost
attempt is still there, the request to cancel it is not. -/
def Withdrawn (attemptId : String) (data : Exploration) : Prop :=
  data.lostAttemptId = some attemptId ∧ data.cancelRequested = some ""

/-- What is shown of an exploration: its status, its cleanup, its result and
its charge. -/
def shown (data : Exploration) : String × Bool × Option ExplorationResult × Int :=
  (data.status, data.cleanupConfirmed, data.result, data.chargedTokens)

/-- The cleanup of an attempt that is behind changes nothing that is shown,
unless the loss of that attempt has been withdrawn. -/
theorem confirm_behind (sound : Sound rows) {savedAt : ℚ} (found : dataOf taskId rows = some data)
    (behind : Behind attemptId generation data) (kept : ¬Withdrawn attemptId data) :
    (dataOf taskId (step rows (.confirmCleanup taskId attemptId savedAt))).map shown = some (shown data) := by
  rw [dataOf_confirmed sound.filed attemptId savedAt found, Option.map_some]
  by_cases lost : data.lostAttemptId = some attemptId
  · rw [if_pos lost]
    rcases dataOf_stored found with ⟨row, stored, given⟩
    have attempted := (sound.attempted taskId row data stored given).1
    rcases attempted.reason attemptId lost with ⟨reason, requested, rfl | ⟨_, same | ⟨status, cleaned⟩⟩⟩
    · exact absurd ⟨lost, requested⟩ kept
    · rcases (attempted.lost same).2 with ⟨known, current, _, _, knownLost⟩
      rw [lost] at knownLost
      cases knownLost
      exact absurd same (behind.closed current).2
    · rw [shown, shown, cleaned, status, requested, Option.getD_some]
  · rw [if_neg lost]

def Named (rows : Table TaskRow) : Prop :=
  ∀ taskId data, dataOf taskId rows = some data -> data.status ∈ ACTIVE ++ TERMINAL

/-- No confirmation reaches an exploration that has withdrawn the loss. -/
def Unwithdrawn (rows : Table TaskRow) : Call -> Prop
  | .confirmCleanup taskId attemptId _ =>
    ∀ data, dataOf taskId rows = some data -> ¬Withdrawn attemptId data
  | _ => True

theorem named_turn (turn : Turn budget call data after) (admissible : Admissible data call)
    (attempted : Attempted data)
    (kept : ∀ taskId attemptId savedAt, call = .confirmCleanup taskId attemptId savedAt -> data.lostAttemptId = some attemptId -> data.cancelRequested ≠ some "") :
    after.status ∈ ACTIVE ++ TERMINAL := by
  have invalidated_named (reason : String) (stopped : Bool) (final : reason ∈ TERMINAL) :
      (invalidated reason stopped data).status ∈ ACTIVE ++ TERMINAL := by
    show (if _ then _ else _) ∈ _
    split
    · exact List.mem_append_right _ final
    · decide
  cases turn with
  | claimed => exact (by decide : "running" ∈ ACTIVE ++ TERMINAL)
  | finished running =>
    rw [finished, settledResult, (attempted.reserved (Or.inr running)).2]
    exact List.mem_append_right _ admissible
  | invalidated | abandoned => exact invalidated_named _ _ admissible
  | confirmed lost =>
    rcases attempted.reason _ lost with ⟨reason, requested, rfl | ⟨final, _⟩⟩
    · exact absurd requested (kept _ _ _ rfl lost)
    · show data.cancelRequested.getD "cancelled" ∈ _
      rw [requested, Option.getD_some]
      exact List.mem_append_right _ final
  | retriedLost | retriedRunning => exact (by decide : "queued" ∈ ACTIVE ++ TERMINAL)

theorem named_step (rows : Table TaskRow) (call : Call) (sound : Sound rows) (proper : Proper rows call)
    (named : Named rows) : Named (step rows call) <-> Unwithdrawn rows call := by
  constructor
  · intro after
    cases call with
    | confirmCleanup taskId attemptId savedAt =>
      rintro data found ⟨lost, withdrawn⟩
      have empty := after taskId _ (dataOf_confirmed sound.filed attemptId savedAt found)
      rw [if_pos lost] at empty
      change data.cancelRequested.getD "cancelled" ∈ _ at empty
      rw [withdrawn] at empty
      exact absurd empty (by decide)
    | _ => exact True.intro
  · intro kept taskId data found
    cases known : dataOf taskId rows with
    | some before =>
      rcases data_step sound proper known with same | ⟨after, budget, changed, target, turn, admissible, attempted⟩
      · cases same.symm.trans found
        exact named taskId data known
      · cases changed.symm.trans found
        refine named_turn turn admissible attempted ?_
        rintro other attemptId savedAt rfl lost withdrawn
        cases target
        exact kept before known ⟨lost, withdrawn⟩
    | none =>
      rcases data_submitted sound proper known found with ⟨tokens, fresh⟩
      rw [fresh.queued]
      decide

/-- Explorations are fenced.  Once an attempt is an earlier one, its result
changes nothing, and the confirmation of its cleanup nothing that is shown,
unless a retry has withdrawn the loss of that very attempt; every status is a
named one exactly in the runs without such a confirmation; and at most two
explorations of a run are active. -/
theorem exploration_attempts_fenced (start : Table TaskRow) (bare : Bare start) (calls : List Call)
    (proper : machine.Along Proper start calls) :
    (∀ taskId attemptId generation, Earlier start calls taskId attemptId generation ->
      (∀ claimed expected result resultRef endedAt savedAt, claimed.taskId = taskId ->
        claimed.payload.exploration = some expected -> expected.leaseGeneration = generation ->
          step (machine.run start calls) (.finish claimed result resultRef endedAt savedAt) =
            machine.run start calls) ∧
      (∀ savedAt, Unwithdrawn (machine.run start calls) (.confirmCleanup taskId attemptId savedAt) ->
        (dataOf taskId (step (machine.run start calls) (.confirmCleanup taskId attemptId savedAt))).map shown =
          (dataOf taskId (machine.run start calls)).map shown)) ∧
    (machine.Visits Named start calls <-> machine.Along Unwithdrawn start calls) ∧
    (∀ runId, ((explorations runId (machine.run start calls)).filter active).length ≤ 2) := by
  have sound := sound_run bare proper
  refine ⟨fun taskId attemptId generation earlier => ?_, ?_, active_run bare proper⟩
  · rcases behind_of_earlier bare proper earlier with ⟨data, found, behind⟩
    constructor
    · rintro claimed expected result resultRef endedAt savedAt rfl given rfl
      exact finish_behind sound.filed given found behind result resultRef endedAt savedAt
    · intro savedAt unwithdrawn
      rw [confirm_behind sound found behind (unwithdrawn data found), found, Option.map_some]
  · refine machine.visits_iff_along_under sound_step named_step bare.sound ?_ calls proper
    intro taskId data found
    rcases dataOf_stored found with ⟨row, stored, given⟩
    rw [bare.none_ taskId row stored] at given
    cases given

/-! ## A retried exploration -/

def explorer : AgentTask where
  taskId := "t"
  runId := "r"
  role := "explorer"
  kind := "related_tests"
  tokenBudget := some 100
  status := .ready
  deadlineAt := 60
  createdAt := 1
  updatedAt := 1
  payload := { exploration := some { status := "queued", leaseGeneration := 0, chargedTokens := 100 } }

/-- The worker of an attempt is lost, and its task is retried and claimed
again. -/
def retriedCalls : List Call :=
  [.submitBatch [explorer] 1000, .claim "t" "p" "a" 2 2 2, .invalidateWorker "t" "timed_out" false 3,
    .retry "t" "v" 60 1000 true 4 4, .claim "t" "p" "b" 5 5 5]

theorem bare_empty : Bare ∅ where
  filed _ _ stored := by cases stored
  none_ _ _ stored := by cases stored

theorem proper_of_target (target : call.target = some taskId)
    (admissible : ∀ data, dataOf taskId rows = some data -> Admissible data call) :
    Proper rows call where
  left := by
    rintro tasks runTokenLimit rfl
    cases target
  right := by
    intro other row data same stored given
    cases target.symm.trans same
    exact admissible data (by rw [dataOf, stored, Option.bind_some, given])

theorem proper_retried : machine.Along Proper ∅ retriedCalls := by
  refine ⟨⟨?_, fun _ _ _ impossible => by cases impossible⟩, ?_, ?_, ?_, ?_, True.intro⟩
  · intro tasks runTokenLimit same task member
    cases same
    rw [List.mem_singleton.mp member]
    exact ⟨_, 100, rfl, rfl, ⟨rfl, rfl, rfl, rfl, rfl, rfl, rfl, rfl⟩⟩
  · refine proper_of_target rfl fun data found => ⟨by decide, ?_⟩
    have receipts : (dataOf "t" (machine.run ∅ (retriedCalls.take 1))).map receipted = some [] := by
      decide +kernel
    rw [show dataOf "t" (machine.run ∅ (retriedCalls.take 1)) = some data from found] at receipts
    rw [Option.some.inj receipts]
    exact List.not_mem_nil
  · exact proper_of_target rfl fun _ _ => (by decide : "timed_out" ∈ TERMINAL)
  · exact proper_of_target rfl fun _ _ => True.intro
  · refine proper_of_target rfl fun data found => ⟨by decide, ?_⟩
    have receipts : (dataOf "t" (machine.run ∅ (retriedCalls.take 4))).map receipted = some ["a"] := by
      decide +kernel
    rw [show dataOf "t" (machine.run ∅ (retriedCalls.take 4)) = some data from found] at receipts
    rw [Option.some.inj receipts]
    decide

theorem earlier_retried : Earlier ∅ retriedCalls "t" "a" 1 := by
  have claimed : (dataOf "t" (machine.run ∅ (retriedCalls.take 2))).map
      (fun data => (data.attemptId, data.leaseGeneration)) = some (some "a", 1) := by
    decide +kernel
  rcases Option.map_eq_some_iff.mp claimed with ⟨data, found, same⟩
  refine ⟨retriedCalls.take 1, .claim "t" "p" "a" 2 2 2, [.invalidateWorker "t" "timed_out" false 3],
    .retry "t" "v" 60 1000 true 4 4, [.claim "t" "p" "b" 5 5 5], data, rfl, ⟨rfl, ?_⟩, found,
    congrArg Prod.fst same, congrArg Prod.snd same, rfl, ⟨rfl, ?_⟩⟩
  · decide +kernel
  · decide +kernel

/-- The lost worker's result is refused. -/
theorem exploration_attempts_fenced_retried :
    step (machine.run ∅ retriedCalls)
        (.finish
          { explorer with
            payload :=
              { exploration := some
                  { status := "running", leaseGeneration := 1, chargedTokens := 100, attemptId := some "a" } } }
          { status := "completed" } "x" 6 6) =
      machine.run ∅ retriedCalls :=
  ((exploration_attempts_fenced ∅ bare_empty retriedCalls proper_retried).1 "t" "a" 1 earlier_retried).1
    _ _ _ _ _ _ rfl rfl rfl

/-- The lost worker's confirmation is accepted: the exploration that another
worker is running is left without a status. -/
theorem late_cleanup_accepted :
    Earlier ∅ retriedCalls "t" "a" 1 ∧
      (dataOf "t" (machine.run ∅ retriedCalls)).map shown = some ("running", false, none, 200) ∧
      (dataOf "t" (machine.run ∅ (retriedCalls ++ [.confirmCleanup "t" "a" 6]))).map shown =
        some ("", true, none, 200) ∧
      ¬Named (machine.run ∅ (retriedCalls ++ [.confirmCleanup "t" "a" 6])) := by
  have ended : (dataOf "t" (machine.run ∅ (retriedCalls ++ [.confirmCleanup "t" "a" 6]))).map shown =
      some ("", true, none, 200) := by
    decide +kernel
  refine ⟨earlier_retried, by decide +kernel, ended, fun named => ?_⟩
  rcases Option.map_eq_some_iff.mp ended with ⟨data, found, same⟩
  have empty := named "t" data found
  rw [show data.status = "" from congrArg Prod.fst same] at empty
  exact absurd empty (by decide)

end Explorations
end Collaboration
end FixLoop
