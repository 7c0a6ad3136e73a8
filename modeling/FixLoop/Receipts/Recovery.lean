import FixLoop.Receipts.Crashes

namespace FixLoop
namespace Receipts

open Library
open Durable (Fate Ending Program raise look write handling)

/-!
# Recovery of the receipt journal

A recovery whose native side confirms the cleanup ends the current call, and
every known call can be inspected, wherever the run was cut off, if no terminal
transition of the run was cut off between its two writes.
-/

section Store

set_option linter.unusedSectionVars false

variable {Envelope Mutation Key : Type} [DecidableEq Envelope] [DecidableEq Mutation] [DecidableEq Key]
  {binding : Binding} {journal : Journal Envelope Mutation Key}

/-- The native side finds the call it is asked about and confirms its cleanup. -/
def Native.Confirms (native : Native Envelope Key) : Prop :=
  ∀ envelope callId, native.answer (native.executionKey envelope callId) =
    some ⟨native.executionKey envelope callId, "confirmed"⟩

theorem inspect_eq (sound : Sound binding journal) {callId : Text} (valid : validCallId callId = true)
    {found : Option (Record Envelope Mutation Key)}
    (now : ∀ record, journal.registry = some record -> record.callId = callId ->
      found = some record ∧ (record.stage = .terminal -> journal.receipts callId = some record))
    (apart : (∀ record, journal.registry = some record -> record.callId ≠ callId) ->
      journal.receipts callId = found) :
    inspect callId journal = (.returned found, journal) := by
  have historical (saved : Option (Record Envelope Mutation Key)) (same : journal.receipts callId = saved) :
      saved.any (fun receipt => decide (receipt.callId ≠ callId ∨ receipt.stage ≠ .terminal)) = false := by
    cases saved with
    | none => rfl
    | some record =>
      have named := sound.named callId record same
      simp [named.1, named.2]
  simp only [inspect, valid, Bool.not_true, Bool.false_eq_true, if_false]
  rw [Durable.bind_of_returned (current_eq sound)]
  rw [Durable.bind_of_returned (show receipt callId journal = (.returned (journal.receipts callId), journal) from rfl)]
  cases registry : journal.registry with
  | none =>
    have nothing := apart fun record same => by rw [registry] at same; cases same
    simp only [historical _ rfl, Bool.false_eq_true, if_false]
    rw [nothing]
    rfl
  | some record =>
    dsimp only
    by_cases same : record.callId = callId
    · have matched := now record registry same
      have pair : ¬(record.stage = .terminal ∧ journal.receipts callId ≠ some record) :=
        fun torn => torn.2 (matched.2 torn.1)
      rw [if_pos same, if_neg pair, matched.1]
      rfl
    · have past := apart (fun other held => by
        rw [registry] at held
        cases held
        exact same)
      rw [if_neg same]
      simp only [historical _ rfl, Bool.false_eq_true, if_false]
      rw [past]
      rfl

theorem inspect_lastOf (sound : Sound binding journal) (paired : Paired journal) {callId : Text}
    (valid : validCallId callId = true) : inspect callId journal = (.returned (lastOf journal.history callId), journal) := by
  apply inspect_eq sound valid
  · rintro record current rfl
    exact ⟨sound.lastOf_now current, paired record current⟩
  · intro apart
    cases last : lastOf journal.history callId with
    | none => exact sound.unknown callId last
    | some record => exact (sound.past callId record last apart).2

variable {record : Record Envelope Mutation Key}

theorem reopens_eq (sound : Sound binding journal) (paired : Paired journal)
    (current : journal.registry = some record) (ended : Ended Key) :
    reopens record.callId record ended journal = (.returned (reconciles record ended), journal) := by
  have valid := (sound.valid record (lastOf_mem (sound.lastOf_now current)).1).1
  unfold reopens
  cases allowed : reconciles record ended with
  | true =>
    rw [if_pos rfl, Durable.bind_of_returned (inspect_lastOf sound paired valid)]
    rfl
  | false =>
    rw [if_neg Bool.false_ne_true]
    rfl

/-- A terminal transition none of whose writes fails. -/
theorem finish_done (sound : Sound binding journal) (paired : Paired journal)
    (current : journal.registry = some record) {ended : Ended Key}
    (allowed : record.stage = .running ∨ (record.stage = .terminal ∧ reconciles record ended) ∨ (record.stage = .planned ∧ ended.noTargetStarted)) :
    finish record.callId ended .done .done journal =
      (.returned (), saveReceipt (record.finished ended) (saveRegistry (record.finished ended) journal)) := by
  have valid := (sound.valid record (lastOf_mem (sound.lastOf_now current)).1).1
  simp only [finish, valid, Bool.not_true, Bool.false_eq_true, if_false]
  rw [Durable.bind_of_returned (current_eq sound), current]
  dsimp only
  rw [if_neg (not_not.mpr rfl), Durable.bind_of_returned (reopens_eq sound paired current ended), if_pos allowed]
  rfl

/-- The result of the record is final: a recovery leaves it. -/
def Record.Final (record : Record Envelope Mutation Key) : Prop :=
  record.stage = .terminal ∧
    record.result.any (fun prior => decide (prior.executionStatus ≠ "uncertain" ∨ prior.cleanup = "confirmed")) = true

/-- The recovery of a call that is not final ends it. -/
theorem recoverRecord_done (sound : Sound binding journal) (paired : Paired journal)
    (current : journal.registry = some record) (open' : ¬record.Final) {native : Native Envelope Key}
    (confirms : native.Confirms) :
    ∃ ended, recoverRecord binding native .done .done .done record journal =
      (.returned (), saveReceipt (record.finished ended) (saveRegistry (record.finished ended) journal)) := by
  have member := (lastOf_mem (sound.lastOf_now current)).1
  refine ⟨⟨recoveredResult (!record.mutationEvents.isEmpty), decide (record.stage = .planned),
    some ⟨native.executionKey record.envelope record.callId, "confirmed"⟩,
    if record.stage = .terminal then record.result else none⟩, ?_⟩
  unfold recoverRecord
  rw [if_neg (not_not.mpr (sound.valid record member).2), confirms]
  dsimp only
  rw [if_neg (by simp)]
  rw [Durable.bind_of_returned (finish_done sound paired current ?_)]
  · rfl
  · cases stage : record.stage with
    | planned => exact .inr (.inr ⟨rfl, rfl⟩)
    | running => exact .inl rfl
    | terminal =>
      rcases sound.fine record member stage with ⟨result, known, _⟩
      have interrupted : result.executionStatus = "uncertain" ∧ result.cleanup ≠ "confirmed" := by
        by_contra final
        refine open' ⟨stage, ?_⟩
        rw [known, Option.any_some, decide_eq_true_iff]
        by_cases uncertain : result.executionStatus = "uncertain"
        · right
          by_contra unconfirmed
          exact final ⟨uncertain, unconfirmed⟩
        · exact .inl uncertain
      refine .inr (.inl ⟨rfl, ?_⟩)
      simp [reconciles, stage, known, interrupted]

/-- A recovery that returned, what it left, and what is possible after it. -/
structure Recovered (binding : Binding) (native : Native Envelope Key) (before after : Journal Envelope Mutation Key) :
    Prop where
  returned : recoverLocked binding native .done .done .done before = (.returned (), after)
  call : after.registry.map Record.callId = before.registry.map Record.callId
  ended : ∀ record, after.registry = some record ->
    record.stage = .terminal ∧ after.receipts record.callId = some record
  inspected : ∀ callId, validCallId callId = true ->
    inspect callId after = (.returned (lastOf after.history callId), after)
  kept : ∀ callId, (∀ record, before.registry = some record -> record.callId ≠ callId) ->
    lastOf after.history callId = lastOf before.history callId
  proceeds : (∀ record, after.registry = some record -> ∀ result, record.result = some result ->
      result.executionStatus ≠ "uncertain") ->
    reconcile binding.policyDigest after = (.returned after.registry, after) ∧
      ∀ callId envelope, validCallId callId = true -> lastOf after.history callId = none ->
        ∃ planned, plan callId envelope binding .done after = (.returned (), saveRegistry planned after) ∧
          planned.callId = callId ∧ planned.stage = .planned

/-- A journal whose call ended with a result that is not uncertain lets the next call start. -/
theorem proceeds_of_paired (sound : Sound binding journal) (paired : Paired journal)
    (ended : ∀ record, journal.registry = some record -> record.stage = .terminal)
    (certain : ∀ record, journal.registry = some record -> ∀ result, record.result = some result ->
      result.executionStatus ≠ "uncertain") :
    reconcile binding.policyDigest journal = (.returned journal.registry, journal) ∧
      ∀ callId envelope, validCallId callId = true -> lastOf journal.history callId = none ->
        ∃ planned, plan callId envelope binding .done journal = (.returned (), saveRegistry planned journal) ∧
          planned.callId = callId ∧ planned.stage = .planned := by
  constructor
  · rw [reconcile, Durable.bind_of_returned (current_eq sound)]
    cases current : journal.registry with
    | none => rfl
    | some record =>
      have member := (lastOf_mem (sound.lastOf_now current)).1
      have terminal := ended record current
      rcases sound.fine record member terminal with ⟨result, known, fine⟩
      have status := certain record current result known
      have cleaned : result.cleanup = "confirmed" := fine.resolve_left status
      have lets : settled result = .ok () := by
        simp [settled, status, cleaned]
      have bound := (sound.valid record member).2
      simp only [bound, ne_eq, not_true_eq_false, if_false, terminal]
      rw [Durable.bind_of_returned (show receipt record.callId journal = (.returned (some record), journal) by
        rw [<- paired record current terminal]
        rfl)]
      simp only [not_true_eq_false, if_false, known, Option.getD_some, lets]
      rfl
  · intro callId envelope valid new
    refine ⟨⟨callId, .planned, (journal.registry.map Record.sequence).getD 0 + 1, binding, envelope, [], none, false,
      none, none⟩, ?_, rfl, rfl⟩
    simp only [plan, valid, Bool.not_true, Bool.false_eq_true, if_false]
    rw [Durable.bind_of_returned (current_eq sound)]
    have over' : journal.registry.any (fun record => decide (record.stage ≠ .terminal)) = false := by
      cases current : journal.registry with
      | none => rfl
      | some record => simp [ended record current]
    rw [if_neg (by rw [over']; exact Bool.false_ne_true)]
    rw [Durable.bind_of_returned (show receipt callId journal = (.returned none, journal) by
      rw [<- sound.unknown callId new]
      rfl)]
    rfl

/-- The recovery of a sound journal in which the pairs match. -/
theorem recovers (sound : Sound binding journal) (paired : Paired journal) {native : Native Envelope Key}
    (confirms : native.Confirms) : ∃ after, Recovered binding native journal after := by
  have kept : Kept binding True (recoverLocked binding native .done .done .done journal).2 :=
    (recoverLocked_triple native ⟨.done, .done⟩ .done fun _ _ => ⟨rfl, rfl⟩).leaves ⟨sound, fun _ => paired⟩
  -- The result in every case, from which the rest follows.
  have whole (after : Journal Envelope Mutation Key)
      (returned : recoverLocked binding native .done .done .done journal = (.returned (), after))
      (call : after.registry.map Record.callId = journal.registry.map Record.callId)
      (ended : ∀ record, after.registry = some record -> record.stage = .terminal)
      (older : ∀ callId, (∀ record, journal.registry = some record -> record.callId ≠ callId) ->
        lastOf after.history callId = lastOf journal.history callId) : Recovered binding native journal after := by
    rw [returned] at kept
    have matched := kept.2 True.intro
    exact ⟨returned, call, fun record current => ⟨ended record current, matched record current (ended record current)⟩,
      fun callId valid => inspect_lastOf kept.1 matched valid, older,
      fun certain => proceeds_of_paired kept.1 matched ended certain⟩
  cases current : journal.registry with
  | none =>
    refine ⟨journal, whole journal ?_ rfl (fun record same => by rw [current] at same; cases same) fun _ _ => rfl⟩
    rw [recoverLocked, Durable.bind_of_returned (current_eq sound), current]
    rfl
  | some record =>
    have valid := (sound.valid record (lastOf_mem (sound.lastOf_now current)).1).1
    by_cases final : record.Final
    · refine ⟨journal, whole journal ?_ rfl (fun other same => ?_) fun _ _ => rfl⟩
      · rw [recoverLocked, Durable.bind_of_returned (current_eq sound), current]
        dsimp only
        rw [if_pos final.1, Durable.bind_of_returned (inspect_lastOf sound paired valid), if_pos final.2]
        rfl
      · rw [current] at same
        cases same
        exact final.1
    · rcases recoverRecord_done sound paired current final confirms with ⟨ended, recovered⟩
      refine ⟨saveReceipt (record.finished ended) (saveRegistry (record.finished ended) journal),
        whole _ ?_ ?_ ?_ ?_⟩
      · rw [recoverLocked, Durable.bind_of_returned (current_eq sound), current]
        dsimp only
        split
        · next terminal =>
            rw [Durable.bind_of_returned (inspect_lastOf sound paired valid)]
            rw [if_neg fun settled => final ⟨terminal, settled⟩]
            exact recovered
        · exact recovered
      · rw [current]
        rfl
      · intro other same
        cases same
        rfl
      · intro callId apart
        have different : record.callId ≠ callId := apart record current
        exact (lastOf_cons (record.finished ended) journal.history callId).trans (if_neg different)

/-! ## Runs -/

/-- One call at a time, in order, each planned once and each receipt kept. -/
structure Orderly (journal : Journal Envelope Mutation Key) : Prop where
  single : ∀ callId record, lastOf journal.history callId = some record -> record.stage ≠ .terminal ->
    journal.registry = some record
  increasing : journal.history.Pairwise (fun newer older => older.sequence < newer.sequence ∨
    older.callId = newer.callId ∧ older.sequence = newer.sequence)
  plannedOnce : ((journal.history.filter fun record => decide (record.stage = .planned)).map Record.callId).Nodup
  superseded : ∀ callId record, lastOf journal.history callId = some record ->
    (∀ now, journal.registry = some now -> now.callId ≠ callId) -> journal.receipts callId = some record

theorem Sound.orderly (sound : Sound binding journal) : Orderly journal where
  single callId record known open' := by
    by_contra other
    refine open' (sound.past callId record known fun now current same => other ?_).1
    rw [<- same, sound.lastOf_now current] at known
    cases known
    exact current
  increasing := sound.ordered
  plannedOnce := sound.plannedOnce
  superseded callId record known apart := (sound.past callId record known apart).2

/-- Whatever was cut off, the journal is orderly; where no terminal transition
was cut off between its writes, it can be recovered. -/
theorem run_recovers (binding : Binding) (operations : List (Operation Envelope Mutation Key)) :
    Orderly ((machine binding).run Journal.empty operations) ∧
      ((∀ operation ∈ operations, operation.Whole) -> ∀ native : Native Envelope Key,
        native.Confirms -> ∃ after,
          Recovered binding native ((machine binding).run Journal.empty operations) after) := by
  constructor
  · exact (kept_run binding False operations fun impossible => impossible.elim).1.orderly
  · intro paired native confirms
    have kept := kept_run binding True operations fun _ => paired
    exact recovers kept.1 (kept.2 True.intro) confirms

end Store

section Examples

/-- The native side of a workspace whose processes have all ended. -/
def quiet : Native Unit Unit := ⟨fun _ _ => (), fun _ => some ⟨(), "confirmed"⟩⟩

def trusted : Binding := ⟨['d'], ['e'], ['m']⟩

/-- An edit that is committed; the fates of the two last writes are open. -/
def edit (callId : Char) (beginning : Fate) (ending : Fates) : Execution Unit Unit Unit :=
  ⟨quiet, ⟨.done, .done⟩, .done, [callId], (), none, .done, beginning, true, "", [((), .done)],
    .replied "completed" "" "committed", false, ending⟩

/-- An execution cut off right after its target was started. -/
theorem recovers_started : ∃ after,
    Recovered trusted quiet ((machine trusted).run Journal.empty [.execute (edit 'a' .crashedLate ⟨.done, .done⟩)]) after := by
  refine (run_recovers trusted [.execute (edit 'a' .crashedLate ⟨.done, .done⟩)]).2 (fun operation member => ?_) quiet
    (fun _ _ => rfl)
  rw [List.mem_singleton] at member
  rw [member]
  exact ⟨fun _ => ⟨rfl, rfl⟩, fun _ => ⟨rfl, rfl⟩⟩

/-- A crash between the two writes of an edit that was committed: every
recovery raises, and the call can no longer be inspected. -/
theorem torn_pair_raises :
    (recoverLocked trusted quiet .done .done .done
        ((machine trusted).run Journal.empty [.execute (edit 'a' .done ⟨.crashedLate, .done⟩)])).1 =
      .raised (.value "receipt_invalid: terminal pair") ∧
    (inspect ['a'] ((machine trusted).run Journal.empty [.execute (edit 'a' .done ⟨.crashedLate, .done⟩)])).1 =
      .raised (.value "receipt_invalid: terminal pair") := by
  constructor <;> rfl

end Examples

end Receipts
end FixLoop
