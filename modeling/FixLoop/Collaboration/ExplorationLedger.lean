import Mathlib.Algebra.BigOperators.Group.List.Basic
import FixLoop.Collaboration.ExplorationFencing

namespace FixLoop
namespace Collaboration
namespace Explorations

open Library

/-!
# The token ledger

The charge of an exploration is what its receipts and its open reservation
add up to, and a run stays within its limit whenever tokens are reserved.
An attempt has one receipt unless its task, back in the queue after a retry,
is given up before it is claimed again: that receipt names the last attempt.
-/

variable {rows : Table TaskRow} {data : Exploration}

theorem charged_turned {taskId : String} {row next : TaskRow} {after : Exploration}
    (stored : rows.lookup taskId = some row) (sameRun : next.runId = row.runId)
    (found : row.payload.payload.exploration = some data)
    (turned : next.payload.payload.exploration = some after) :
    charged row.runId (rows.insert taskId next) =
      charged row.runId rows - data.chargedTokens + after.chargedTokens := by
  rcases explorations_turned row.runId stored sameRun found turned with
    ⟨rest, ⟨_, before, now⟩ | ⟨impossible, _⟩⟩
  · have total := (before.map Exploration.chargedTokens).sum_eq
    rw [charged, charged, now, total, List.map_cons, List.map_cons, List.sum_cons, List.sum_cons]
    omega
  · exact absurd rfl impossible

theorem charged_fresh {tasks : List AgentTask} {reserved : List Int}
    (fresh : ∀ task ∈ tasks, ∃ data tokens,
      task.payload.exploration = some data ∧ task.tokenBudget = some tokens ∧ Fresh tokens data)
    (tokens : tasks.mapM tokensOf = .ok reserved) :
    ((tasks.filterMap fun task => task.payload.exploration).map Exploration.chargedTokens).sum = reserved.sum := by
  have each := Fallible.mapM_ok_iff.mp tokens
  clear tokens
  induction each with
  | nil => rfl
  | cons budget later ih =>
    rename_i task amount rest amounts
    rcases fresh task List.mem_cons_self with ⟨data, given, found, known, fresh'⟩
    have same := known.symm.trans (tokensOf_ok budget)
    cases same
    rw [List.filterMap_cons_some (f := fun task : AgentTask => task.payload.exploration) found,
      List.map_cons, List.sum_cons, List.sum_cons, fresh'.charged,
      ih fun task member => fresh task (List.mem_cons_of_mem _ member)]

/-- What the run has been charged after tokens were reserved for it. -/
def KeepsLimit (rows : Table TaskRow) : Call -> Prop
  | .submitBatch tasks runTokenLimit => ∀ after, submitBatch tasks runTokenLimit rows = .ok after ->
      ∀ task ∈ tasks, charged task.runId after ≤ runTokenLimit
  | .retry taskId versions deadlineS runTokenLimit stopped now savedAt => ∀ row,
      rows.lookup taskId = some row ->
      Accepted rows taskId (.retry taskId versions deadlineS runTokenLimit stopped now savedAt) ->
        charged row.runId (step rows (.retry taskId versions deadlineS runTokenLimit stopped now savedAt)) ≤
          runTokenLimit
  | _ => True

theorem keepsLimit (sound : Sound rows) (call : Call) (proper : Proper rows call) : KeepsLimit rows call := by
  cases call with
  | submitBatch tasks runTokenLimit =>
    intro after returned task member
    rcases submitBatch_ok returned with ⟨runId, reserved, valid, _, tokens, within, inserted⟩
    have together := (validBatch_ok valid).2
    rw [together task member, charged, explorations_submitted inserted together, if_pos rfl, List.map_append,
      List.sum_append]
    have added := (((List.reverse_perm tasks).filterMap fun task => task.payload.exploration).map
      Exploration.chargedTokens).sum_eq
    rw [added, charged_fresh (proper.1 tasks runTokenLimit rfl) tokens]
    rw [charged] at within
    omega
  | retry taskId versions deadlineS runTokenLimit stopped now savedAt =>
    intro row stored accepted
    cases step_effect rows (.retry taskId versions deadlineS runTokenLimit stopped now savedAt) sound.filed with
    | idle same => exact absurd (by rw [same]) accepted.2
    | submitted _ _ _ _ impossible => cases impossible
    | turned other held next target placed sameRun turned within same =>
      cases target
      cases stored.symm.trans placed
      rcases turned.turn with ⟨data, after, found, changed, turn⟩
      rcases within with ⟨tokens, budget, within⟩
      rw [same, charged_turned stored sameRun found changed]
      rw [(sound.filed taskId row stored).2] at within
      have more : after.chargedTokens = data.chargedTokens + tokens := by
        cases turn with
        | retriedLost _ _ given | retriedRunning _ _ _ given => cases given.symm.trans budget; rfl
      omega
  | _ => exact True.intro

/-! ## One receipt for each attempt -/

def ReceiptedOnce (rows : Table TaskRow) : Prop :=
  ∀ taskId data, dataOf taskId rows = some data -> (receipted data).Nodup

/-- No exploration is given up while it is queued after an attempt. -/
def Unqueued (rows : Table TaskRow) : Call -> Prop
  | .invalidateWorker taskId .. => ∀ data, dataOf taskId rows = some data ->
      data.status = "queued" -> data.attemptId = none
  | _ => True

/-- Invalidating a queued exploration adds a receipt for the attempt it
names, or for none. -/
theorem dataOf_abandoned (sound : Sound rows) {taskId : String} (reason : String) (stopped : Bool)
    (savedAt : ℚ) (found : dataOf taskId rows = some data) (queued : data.status = "queued") :
    (dataOf taskId (step rows (.invalidateWorker taskId reason stopped savedAt))).map receipted =
      some (receipted data ++ [data.attemptId.getD ""]) := by
  rcases dataOf_stored found with ⟨row, stored, given⟩
  have named := (sound.filed taskId row stored).1
  rcases sound.attempted taskId row data stored given with ⟨attempted, tokens, budget, _⟩
  have unsettled := (attempted.reserved (Or.inl queued)).1
  have loaded : explorationOf row.payload = .ok data := by rw [explorationOf, given]
  have charge : tokensOf row.payload = .ok tokens := by rw [tokensOf, budget]
  have made : invalidate reason stopped row.payload =
      .ok (some (withExploration (settle (data.status = "queued") tokens (invalidated reason stopped data))
        (released (if data.status = "queued" ∨ stopped then .cancelled else .expired) row.payload))) := by
    rw [invalidate, loaded]
    show (if data.status ∉ ACTIVE then _ else if data.reservationSettled then _ else _) = _
    rw [if_neg (by rw [queued]; decide), unsettled, charge]
    rfl
  rw [step, perform, mutate, stored]
  simp only [made]
  rw [save, show (withExploration _ (released _ row.payload)).taskId = taskId from named,
    Table.modify_of_some stored, dataOf_insert, if_pos rfl]
  show some ((data.receipts ++ [_]).map Receipt.attemptId) = _
  rw [List.map_append]
  rfl

/-- A turn keeps the receipts apart unless it gives up what is queued after
an attempt. -/
theorem receipted_turn {budget : Option Int} {call : Call} {after : Exploration}
    (turn : Turn budget call data after) (attempted : Attempted data) (once : (receipted data).Nodup)
    (kept : ∀ taskId reason stopped savedAt, call = .invalidateWorker taskId reason stopped savedAt -> data.status = "queued" -> data.attemptId = none) :
    (receipted after).Nodup := by
  have added (receipt : Receipt) (fresh : receipt.attemptId ∉ receipted data) :
      ((data.receipts ++ [receipt]).map Receipt.attemptId).Nodup := by
    rw [List.map_append, List.map_singleton, <- List.concat_eq_append]
    exact once.concat fresh
  have running_fresh (running : data.status = "running") {attemptId : String}
      (attempt : data.attemptId = some attemptId) : attemptId ∉ receipted data := by
    rcases attempted.running running with ⟨known, same, _, fresh⟩
    cases same.symm.trans attempt
    exact fresh
  cases turn with
  | finished running _ attempt => exact added _ (running_fresh running attempt)
  | abandoned running unsettled =>
    refine added (lostReceipt _ _ (invalidated _ _ data)) ?_
    show data.attemptId.getD "" ∉ receipted data
    rcases attempted.open_of_unsettled running unsettled with queued | same
    · have none_ := kept _ _ _ _ rfl queued
      rcases attempted.queued queued with ⟨_, empty⟩ | ⟨known, same, _⟩
      · rw [receipted, empty]
        exact List.not_mem_nil
      · rw [none_] at same
        cases same
    · rcases attempted.running same with ⟨known, attempt, _, fresh⟩
      rw [attempt]
      exact fresh
  | retriedRunning retriable unsettled attempt =>
    refine added (retriedReceipt _ _ data) (running_fresh ?_ attempt)
    rcases attempted.open_of_unsettled (active_of_retriable retriable) unsettled with queued | running
    · rw [queued] at retriable
      exact absurd retriable (by decide)
    · exact running
  | _ => exact once

theorem receipted_step (rows : Table TaskRow) (call : Call) (sound : Sound rows) (proper : Proper rows call)
    (once : ReceiptedOnce rows) : ReceiptedOnce (step rows call) <-> Unqueued rows call := by
  constructor
  · intro after
    cases call with
    | invalidateWorker taskId reason stopped savedAt =>
      intro data found queued
      by_contra named
      rcases Option.ne_none_iff_exists'.mp named with ⟨attemptId, attempt⟩
      rcases Option.map_eq_some_iff.mp
          (dataOf_abandoned sound reason stopped savedAt found queued) with
        ⟨later, laterFound, receipts⟩
      have twice := after taskId later laterFound
      rcases dataOf_stored found with ⟨row, stored, given⟩
      have receipt := (sound.attempted taskId row data stored given).1.receipted_of_queued queued attempt
      rw [receipts, attempt, Option.getD_some] at twice
      exact (List.nodup_append.mp twice).2.2 attemptId receipt attemptId List.mem_cons_self rfl
    | _ => exact True.intro
  · intro kept taskId data found
    cases known : dataOf taskId rows with
    | some before =>
      rcases data_step sound proper known with same | ⟨after, budget, changed, target, turn, _, attempted⟩
      · cases same.symm.trans found
        exact once taskId data known
      · cases changed.symm.trans found
        refine receipted_turn turn attempted (once taskId before known) ?_
        rintro other reason stopped savedAt rfl queued
        cases target
        exact kept before known queued
    | none =>
      rcases data_submitted sound proper known found with ⟨tokens, fresh⟩
      rw [receipted, fresh.receipts]
      exact List.nodup_nil

/-- In every run of the exploration store a charge is what the receipts and
the open reservation add up to, no attempt has two receipts exactly when no
exploration is given up while it is queued after an attempt, and a run stays
within its limit when a batch is submitted or a task retried. -/
theorem exploration_ledger (start : Table TaskRow) (bare : Bare start) (calls : List Call)
    (proper : machine.Along Proper start calls) :
    (∀ taskId row data tokens, (machine.run start calls).lookup taskId = some row ->
      row.payload.payload.exploration = some data -> row.payload.tokenBudget = some tokens ->
        Balanced tokens data) ∧
    (machine.Visits ReceiptedOnce start calls <-> machine.Along Unqueued start calls) ∧
    (∀ before call rest, calls = before ++ call :: rest -> KeepsLimit (machine.run start before) call) := by
  refine ⟨fun taskId row data tokens stored found budget => ?_, ?_, ?_⟩
  · rcases (sound_run bare proper).attempted taskId row data stored found with ⟨_, known, same, balanced⟩
    cases same.symm.trans budget
    exact balanced
  · refine machine.visits_iff_along_under sound_step receipted_step bare.sound ?_ calls proper
    intro taskId data found
    rcases dataOf_stored found with ⟨row, stored, given⟩
    rw [bare.none_ taskId row stored] at given
    cases given
  · rintro before call rest rfl
    rw [machine.along_append] at proper
    exact keepsLimit (sound_run bare proper.1) call proper.2.1

/-- A retried exploration whose attempts have one receipt each. -/
theorem exploration_ledger_retried : machine.Visits ReceiptedOnce ∅ retriedCalls := by
  refine (exploration_ledger ∅ bare_empty retriedCalls proper_retried).2.1.mpr
    ⟨True.intro, True.intro, fun data found queued => ?_, True.intro, True.intro, True.intro⟩
  have running : (dataOf "t" (machine.run ∅ (retriedCalls.take 2))).map Exploration.status = some "running" := by
    decide +kernel
  rw [show dataOf "t" (machine.run ∅ (retriedCalls.take 2)) = some data from found] at running
  rw [Option.map_some, queued] at running
  exact absurd running (by decide)

/-- An attempt gets a second receipt when its task, queued after a retry, is
cancelled. -/
theorem second_receipt :
    (dataOf "t" (machine.run ∅ (retriedCalls.take 4 ++ [.invalidateWorker "t" "cancelled" false 5]))).map
        receipted = some ["a", "a"] ∧
      ¬ReceiptedOnce (machine.run ∅ (retriedCalls.take 4 ++ [.invalidateWorker "t" "cancelled" false 5])) := by
  have twice : (dataOf "t" (machine.run ∅ (retriedCalls.take 4 ++
      [.invalidateWorker "t" "cancelled" false 5]))).map receipted = some ["a", "a"] := by
    decide +kernel
  refine ⟨twice, fun once => ?_⟩
  rcases Option.map_eq_some_iff.mp twice with ⟨data, found, same⟩
  have apart := once "t" data found
  rw [same] at apart
  exact absurd apart (by decide)

end Explorations
end Collaboration
end FixLoop
