import FixLoop.Library.Fallible
import FixLoop.Collaboration.Explorations

namespace FixLoop
namespace Collaboration
namespace Explorations

open Library

/-!
# What a call does to an exploration

The turns that a call makes of one exploration, and the invariant of an
exploration that every turn keeps: which attempt is open, what has been
settled, and that the charge is what the receipts and the open reservation
add up to.
-/

/-! ## Turns -/

/-- What a call that stores something makes of the data of its task. -/
inductive Turn (budget : Option Int) : Call -> Exploration -> Exploration -> Prop where
  | claimed {data : Exploration} {taskId owner attemptId : String} {checkedAt startedAt savedAt : ℚ} :
      data.status = "queued" -> cancelled data = false ->
      Turn budget (.claim taskId owner attemptId checkedAt startedAt savedAt) data
        { data with
          status := "running"
          attemptId := some attemptId
          leaseGeneration := data.leaseGeneration + 1
          owner := owner
          startedAt := some startedAt
          cleanupConfirmed := false }
  | finished {data expected : Exploration} {claimed : AgentTask} {result : ExplorationResult}
      {resultRef attemptId : String} {endedAt savedAt : ℚ} {tokens : Int} :
      data.status = "running" -> claimed.payload.exploration = some expected ->
      data.attemptId = some attemptId -> expected.attemptId = some attemptId ->
      data.leaseGeneration = expected.leaseGeneration -> budget = some tokens ->
      Turn budget (.finish claimed result resultRef endedAt savedAt) data
        (finished attemptId tokens (settledResult result data) resultRef endedAt data)
  | invalidated {data : Exploration} {taskId reason : String} {stopped : Bool} {savedAt : ℚ} :
      data.status ∈ ACTIVE -> data.reservationSettled = true ->
      Turn budget (.invalidateWorker taskId reason stopped savedAt) data (invalidated reason stopped data)
  | abandoned {data : Exploration} {taskId reason : String} {stopped : Bool} {savedAt : ℚ} {tokens : Int} :
      data.status ∈ ACTIVE -> data.reservationSettled = false -> budget = some tokens ->
      Turn budget (.invalidateWorker taskId reason stopped savedAt) data
        (settle (data.status = "queued") tokens (invalidated reason stopped data))
  | confirmed {data : Exploration} {taskId attemptId : String} {savedAt : ℚ} :
      data.lostAttemptId = some attemptId ->
      Turn budget (.confirmCleanup taskId attemptId savedAt) data
        { data with cleanupConfirmed := true, status := data.cancelRequested.getD "cancelled" }
  | retriedLost {data : Exploration} {taskId versions : String} {deadlineS now savedAt : ℚ}
      {runTokenLimit tokens : Int} :
      data.status ∈ ["running", "worker_lost"] -> data.reservationSettled = true -> budget = some tokens ->
      Turn budget (.retry taskId versions deadlineS runTokenLimit true now savedAt) data
        (requeued versions tokens data.receipts data)
  | retriedRunning {data : Exploration} {taskId versions attemptId : String} {deadlineS now savedAt : ℚ}
      {runTokenLimit tokens : Int} :
      data.status ∈ ["running", "worker_lost"] -> data.reservationSettled = false ->
      data.attemptId = some attemptId -> budget = some tokens ->
      Turn budget (.retry taskId versions deadlineS runTokenLimit true now savedAt) data
        (requeued versions tokens (data.receipts ++ [retriedReceipt attemptId tokens data]) data)

/-- The call turns the exploration of a task; what the other fields of the
task are is not said. -/
structure Turned (call : Call) (task next : AgentTask) : Prop where
  sameTask : next.taskId = task.taskId
  sameRun : next.runId = task.runId
  sameBudget : next.tokenBudget = task.tokenBudget
  turn : ∃ data after,
    task.payload.exploration = some data ∧ next.payload.exploration = some after ∧
      Turn task.tokenBudget call data after

variable {task next : AgentTask} {data after : Exploration} {tokens : Int} {attemptId taskId status : String}
  (savedAt : ℚ) {stopped : Bool}

theorem explorationOf_ok (found : explorationOf task = .ok data) : task.payload.exploration = some data := by
  unfold explorationOf at found
  split at found
  · cases found
    assumption
  · cases found

theorem tokensOf_ok (found : tokensOf task = .ok tokens) : task.tokenBudget = some tokens := by
  unfold tokensOf at found
  split at found
  · cases found
    assumption
  · cases found

theorem attemptOf_ok (found : attemptOf data = .ok attemptId) : data.attemptId = some attemptId := by
  unfold attemptOf at found
  split at found
  · cases found
    assumption
  · cases found

theorem claim_turned {owner : String} {checkedAt startedAt : ℚ}
    (made : claim owner attemptId checkedAt startedAt task = .ok (some next)) :
    Turned (.claim taskId owner attemptId checkedAt startedAt savedAt) task next := by
  rcases Fallible.bind_ok made with ⟨data, found, rest⟩
  split at rest
  · cases rest
  · rename_i claimable
    rw [not_or, not_not, Bool.not_eq_true] at claimable
    split at rest
    · cases rest
    · cases rest
      exact ⟨rfl, rfl, rfl, data, _, explorationOf_ok found, rfl, .claimed claimable.1 claimable.2⟩

theorem finish_turned {claimed : AgentTask} {result : ExplorationResult} {resultRef : String} {endedAt : ℚ}
    (made : finish claimed result resultRef endedAt task = .ok (some next)) :
    Turned (.finish claimed result resultRef endedAt savedAt) task next := by
  rcases Fallible.bind_ok made with ⟨data, found, made⟩
  rcases Fallible.bind_ok made with ⟨expected, expectedFound, made⟩
  split at made
  · cases made
  · rename_i running
    rcases Fallible.bind_ok made with ⟨attemptId, attempt, made⟩
    rcases Fallible.bind_ok made with ⟨expectedId, expectedAttempt, made⟩
    split at made
    · cases made
    · rename_i fenced
      rw [not_or, not_not, not_not] at fenced
      rcases Fallible.bind_ok made with ⟨tokens, budget, made⟩
      cases made
      refine ⟨rfl, rfl, rfl, data, _, explorationOf_ok found, rfl, ?_⟩
      exact .finished (not_not.mp running) (explorationOf_ok expectedFound) (attemptOf_ok attempt)
        (by rw [fenced.1]; exact attemptOf_ok expectedAttempt) fenced.2 (tokensOf_ok budget)

theorem invalidate_turned {reason : String} (made : invalidate reason stopped task = .ok (some next)) :
    Turned (.invalidateWorker taskId reason stopped savedAt) task next := by
  rcases Fallible.bind_ok made with ⟨data, found, made⟩
  split at made
  · cases made
  · rename_i running
    split at made
    · rename_i settled
      cases made
      exact ⟨rfl, rfl, rfl, data, _, explorationOf_ok found, rfl, .invalidated (not_not.mp running) settled⟩
    · rename_i settled
      rcases Fallible.bind_ok made with ⟨tokens, budget, made⟩
      cases made
      exact ⟨rfl, rfl, rfl, data, _, explorationOf_ok found, rfl,
        .abandoned (not_not.mp running) (Bool.not_eq_true _ ▸ settled) (tokensOf_ok budget)⟩

theorem confirm_turned (made : confirm attemptId task = .ok (some next)) :
    Turned (.confirmCleanup taskId attemptId savedAt) task next := by
  rcases Fallible.bind_ok made with ⟨data, found, made⟩
  split at made
  · cases made
  · rename_i lost
    cases made
    exact ⟨rfl, rfl, rfl, data, _, explorationOf_ok found, rfl, .confirmed (not_not.mp lost)⟩

theorem retry_turned {versions : String} {deadlineS now : ℚ} {runTokenLimit : Int} {rows : Table TaskRow}
    (made : retry versions deadlineS runTokenLimit stopped now rows task = .ok (some next)) :
    Turned (.retry taskId versions deadlineS runTokenLimit stopped now savedAt) task next ∧
      ∃ tokens, task.tokenBudget = some tokens ∧ charged task.runId rows + tokens ≤ runTokenLimit := by
  rcases Fallible.bind_ok made with ⟨data, found, made⟩
  split at made
  · cases made
  · rename_i running
    split at made
    · cases made
    · rename_i halted
      rw [Bool.not_eq_false] at halted
      rcases Fallible.bind_ok made with ⟨tokens, budget, made⟩
      split at made
      · cases made
      · rename_i within
        rcases Fallible.bind_ok made with ⟨receipts, settled, made⟩
        cases made
        refine ⟨⟨rfl, rfl, rfl, data, _, explorationOf_ok found, rfl, ?_⟩, tokens, tokensOf_ok budget,
          not_lt.mp within⟩
        subst halted
        unfold retriedReceipts at settled
        split at settled
        · rename_i closed
          cases settled
          exact .retriedLost (not_not.mp running) closed (tokensOf_ok budget)
        · rename_i closed
          rcases Fallible.bind_ok settled with ⟨attemptId, attempt, settled⟩
          cases settled
          exact .retriedRunning (not_not.mp running) (Bool.not_eq_true _ ▸ closed) (attemptOf_ok attempt)
            (tokensOf_ok budget)

/-! ## The invariant of an exploration -/

def receipted (data : Exploration) : List String := data.receipts.map Receipt.attemptId

/-- The charge is what the receipts and the open reservation add up to. -/
def Balanced (tokens : Int) (data : Exploration) : Prop :=
  data.chargedTokens =
    (data.receipts.map Receipt.chargedTokens).sum + if data.reservationSettled then 0 else tokens

/-- Which attempt is open, and what has been settled, in each status. -/
structure Attempted (data : Exploration) : Prop where
  uncleaned : data.status ∈ ACTIVE -> data.cleanupConfirmed = false
  reserved : data.status = "queued" ∨ data.status = "running" ->
    data.reservationSettled = false ∧ cancelled data = false
  running : data.status = "running" -> ∃ attemptId,
    data.attemptId = some attemptId ∧ attemptId ≠ "" ∧ attemptId ∉ receipted data
  queued : data.status = "queued" -> data.attemptId = none ∧ data.receipts = [] ∨ ∃ attemptId,
    data.attemptId = some attemptId ∧ attemptId ∈ receipted data
  lost : data.status = "worker_lost" -> data.reservationSettled = true ∧ ∃ attemptId,
    data.attemptId = some attemptId ∧ attemptId ≠ "" ∧ attemptId ∈ receipted data ∧
      data.lostAttemptId = some attemptId
  -- a loss is withdrawn by a retry, pending or settled under its reason
  reason : ∀ attemptId, data.lostAttemptId = some attemptId -> ∃ reason,
    data.cancelRequested = some reason ∧ (reason = "" ∨ reason ∈ TERMINAL ∧
      (data.status = "worker_lost" ∨ data.status = reason ∧ data.cleanupConfirmed = true))

/-- What callers and generators of identifiers keep to: final statuses are
reported, and the identifier of an attempt is new. -/
def Admissible (data : Exploration) : Call -> Prop
  | .claim _ _ attemptId .. => attemptId ≠ "" ∧ attemptId ∉ receipted data
  | .finish _ result .. => result.status ∈ TERMINAL
  | .invalidateWorker _ reason .. => reason ∈ TERMINAL
  | _ => True

theorem terminal_inactive (final : status ∈ TERMINAL) : status ∉ ACTIVE := by
  simp only [TERMINAL, List.mem_cons, List.not_mem_nil, or_false] at final
  rcases final with rfl | rfl | rfl | rfl | rfl | rfl <;> decide

theorem terminal_ne_empty (final : status ∈ TERMINAL) : status ≠ "" := by
  rintro rfl
  exact absurd final (by decide)

theorem active_cases (running : status ∈ ACTIVE) :
    status = "queued" ∨ status = "running" ∨ status = "worker_lost" := by
  simpa only [ACTIVE, List.mem_cons, List.not_mem_nil, or_false] using running

/-- Nothing but the record of its loss is known of an exploration that is not
active. -/
theorem Attempted.of_inactive (inactive : data.status ∉ ACTIVE)
    (reason : ∀ attemptId, data.lostAttemptId = some attemptId -> ∃ reason, data.cancelRequested = some reason ∧ (reason = "" ∨ reason ∈ TERMINAL ∧ (data.status = "worker_lost" ∨ data.status = reason ∧ data.cleanupConfirmed = true))) :
    Attempted data where
  uncleaned running := absurd running inactive
  reserved open_ := by
    rcases open_ with same | same
    · exact absurd (by rw [same]; decide) inactive
    · exact absurd (by rw [same]; decide) inactive
  running same := absurd (by rw [same]; decide) inactive
  queued same := absurd (by rw [same]; decide) inactive
  lost same := absurd (by rw [same]; decide) inactive
  reason := reason

/-- While an attempt is open, an earlier loss has been withdrawn. -/
theorem Attempted.withdrawn (attempted : Attempted data)
    (open_ : data.status = "queued" ∨ data.status = "running") (lost : data.lostAttemptId = some attemptId) :
    data.cancelRequested = some "" := by
  rcases attempted.reason attemptId lost with ⟨reason, requested, rfl | ⟨final, -⟩⟩
  · exact requested
  · have uncancelled := (attempted.reserved open_).2
    rw [cancelled, requested, Option.getD_some, bne_eq_false_iff_eq] at uncancelled
    exact absurd uncancelled (terminal_ne_empty final)

/-- An active exploration with a settled reservation has lost its worker. -/
theorem Attempted.lost_of_settled (attempted : Attempted data) (running : data.status ∈ ACTIVE)
    (settled : data.reservationSettled = true) : data.status = "worker_lost" := by
  rcases active_cases running with same | same | same
  · exact absurd settled (by rw [(attempted.reserved (Or.inl same)).1]; decide)
  · exact absurd settled (by rw [(attempted.reserved (Or.inr same)).1]; decide)
  · exact same

theorem Attempted.open_of_unsettled (attempted : Attempted data) (running : data.status ∈ ACTIVE)
    (unsettled : data.reservationSettled = false) : data.status = "queued" ∨ data.status = "running" := by
  rcases active_cases running with same | same | same
  · exact Or.inl same
  · exact Or.inr same
  · exact absurd (attempted.lost same).1 (by rw [unsettled]; decide)

theorem active_of_retriable (retriable : status ∈ ["running", "worker_lost"]) : status ∈ ACTIVE :=
  List.mem_cons_of_mem _ retriable

/-- An invalidation ends the exploration or loses the worker of its attempt. -/
theorem attempted_invalidated (before : Exploration) {reason : String} (final : reason ∈ TERMINAL)
    (status : after.status = if before.status = "queued" ∨ stopped = true then reason else "worker_lost")
    (cleaned : after.cleanupConfirmed = decide (before.status = "queued" ∨ stopped = true))
    (requested : after.cancelRequested = some reason) (settled : after.reservationSettled = true)
    (attempt : ¬(before.status = "queued" ∨ stopped = true) -> ∃ attemptId, after.attemptId = some attemptId ∧ attemptId ≠ "" ∧ attemptId ∈ receipted after ∧ after.lostAttemptId = some attemptId) :
    Attempted after := by
  by_cases given : before.status = "queued" ∨ stopped = true
  · rw [if_pos given] at status
    rw [decide_eq_true given] at cleaned
    exact .of_inactive (by rw [status]; exact terminal_inactive final)
      (fun _ _ => ⟨reason, requested, Or.inr ⟨final, Or.inr ⟨status, cleaned⟩⟩⟩)
  · rw [if_neg given] at status
    rw [decide_eq_false given] at cleaned
    exact
      { uncleaned := fun _ => cleaned
        reserved := by
          rw [status]
          rintro (same | same)
          · exact absurd same (by decide)
          · exact absurd same (by decide)
        running := fun same => absurd (status.symm.trans same) (by decide)
        queued := fun same => absurd (status.symm.trans same) (by decide)
        lost := fun _ => ⟨settled, attempt given⟩
        reason := fun _ _ => ⟨reason, requested, Or.inr ⟨final, Or.inl status⟩⟩ }

/-- A retried exploration is queued, and its last attempt has a receipt. -/
theorem attempted_requeued {versions : String} {receipts : List Receipt}
    (attempt : data.attemptId = some attemptId) (receipt : attemptId ∈ receipts.map Receipt.attemptId) :
    Attempted (requeued versions tokens receipts data) where
  uncleaned _ := rfl
  reserved _ := ⟨rfl, rfl⟩
  running same := absurd same (by decide : "queued" ≠ "running")
  queued _ := Or.inr ⟨attemptId, attempt, receipt⟩
  lost same := absurd same (by decide : "queued" ≠ "worker_lost")
  reason _ _ := ⟨"", rfl, Or.inl rfl⟩

theorem attempted_turn {budget : Option Int} {call : Call} (turn : Turn budget call data after)
    (admissible : Admissible data call) (attempted : Attempted data) : Attempted after := by
  cases turn with
  | claimed queued uncancelled =>
    exact
      { uncleaned := fun _ => rfl
        reserved := fun _ => attempted.reserved (Or.inl queued)
        running := fun _ => ⟨_, rfl, admissible⟩
        queued := fun same => absurd same (by decide : "running" ≠ "queued")
        lost := fun same => absurd same (by decide : "running" ≠ "worker_lost")
        reason := fun attemptId lost => ⟨"", attempted.withdrawn (Or.inl queued) lost, Or.inl rfl⟩ }
  | finished running _ _ _ _ _ =>
    refine .of_inactive ?_ fun attemptId lost => ⟨"", attempted.withdrawn (Or.inr running) lost, Or.inl rfl⟩
    rw [finished, settledResult, (attempted.reserved (Or.inr running)).2]
    exact terminal_inactive admissible
  | invalidated running settled =>
    have lost := attempted.lost_of_settled running settled
    refine attempted_invalidated data admissible rfl rfl rfl settled fun _ => ?_
    rcases (attempted.lost lost).2 with ⟨attemptId, attempt, named, receipt, _⟩
    have known : data.attemptId.getD "" = attemptId := by rw [attempt, Option.getD_some]
    exact ⟨attemptId, attempt, named, receipt, congrArg some known⟩
  | abandoned running unsettled _ =>
    refine attempted_invalidated data admissible rfl rfl rfl rfl fun given => ?_
    rcases attempted.open_of_unsettled running unsettled with same | same
    · exact absurd (Or.inl same) given
    · rcases attempted.running same with ⟨attemptId, attempt, named, _⟩
      have known : data.attemptId.getD "" = attemptId := by rw [attempt, Option.getD_some]
      refine ⟨attemptId, attempt, named, ?_, congrArg some known⟩
      rw [receipted, settle, List.map_append]
      exact List.mem_append_right _ (List.mem_singleton.mpr known.symm)
  | confirmed lost =>
    rcases attempted.reason _ lost with ⟨reason, requested, known⟩
    have status : data.cancelRequested.getD "cancelled" = reason := by rw [requested, Option.getD_some]
    refine .of_inactive ?_ fun _ _ => ⟨reason, requested, ?_⟩
    · show data.cancelRequested.getD "cancelled" ∉ ACTIVE
      rw [status]
      rcases known with rfl | ⟨final, -⟩
      · decide
      · exact terminal_inactive final
    · rcases known with empty | ⟨final, -⟩
      · exact Or.inl empty
      · exact Or.inr ⟨final, Or.inr ⟨status, rfl⟩⟩
  | retriedLost retriable settled _ =>
    have lost := attempted.lost_of_settled (active_of_retriable retriable) settled
    rcases (attempted.lost lost).2 with ⟨attemptId, attempt, _, receipt, _⟩
    exact attempted_requeued attempt receipt
  | retriedRunning retriable unsettled attempt _ =>
    refine attempted_requeued attempt ?_
    rw [List.map_append]
    exact List.mem_append_right _ List.mem_cons_self

theorem balanced_turn {call : Call} (turn : Turn (some tokens) call data after) (attempted : Attempted data)
    (balanced : Balanced tokens data) : Balanced tokens after := by
  rw [Balanced] at balanced ⊢
  cases turn with
  | finished running _ _ _ _ budget =>
    cases budget
    rw [(attempted.reserved (Or.inr running)).1] at balanced
    simp only [finished, finishedReceipt, List.map_append, List.sum_append, List.map_cons, List.map_nil,
      List.sum_cons, List.sum_nil, balanced, if_true, Bool.false_eq_true, if_false]
    omega
  | abandoned _ unsettled budget =>
    cases budget
    rw [unsettled] at balanced
    simp only [settle, invalidated, lostReceipt, List.map_append, List.sum_append, List.map_cons,
      List.map_nil, List.sum_cons, List.sum_nil, balanced, if_true, Bool.false_eq_true, if_false]
    omega
  | retriedLost _ settled budget =>
    cases budget
    rw [settled] at balanced
    simp only [requeued, balanced, if_true, Bool.false_eq_true, if_false]
    omega
  | retriedRunning _ unsettled _ budget =>
    cases budget
    rw [unsettled] at balanced
    simp only [requeued, retriedReceipt, List.map_append, List.sum_append, List.map_cons, List.map_nil,
      List.sum_cons, List.sum_nil, balanced, Bool.false_eq_true, if_false]
    omega
  | _ => exact balanced

end Explorations
end Collaboration
end FixLoop
