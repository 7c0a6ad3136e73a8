import FixLoop.RunCoordination.Store

namespace FixLoop
namespace RunCoordination

open Library RunCoordinationStore

/-!
# What an accepted call can do

Each method is inverted once.  An accepted `acquire` creates a run row or
gives one a new generation.  An accepted owner call finds the row of its run
under its own token and generation, and then has one of four effects.  The
invariants of the database are proved from these effects alone.
-/

section Lookups

variable (db : Database) (key : RunKey)

variable {before after : Database}

theorem run?_congr (runs : after.runs = before.runs) (key : RunKey) : after.run? key = before.run? key := by
  rw [Database.run?, runs, Database.run?]

theorem run?_of_insert {key : RunKey} {row : RunRow} (runs : after.runs = before.runs.insert key row) :
    after.run? key = some row := by
  rw [Database.run?, runs, AList.lookup_insert]

theorem run?_of_insert_ne {key other : RunKey} {row : RunRow}
    (runs : after.runs = before.runs.insert key row) (different : other ≠ key) :
    after.run? other = before.run? other := by
  rw [Database.run?, runs, AList.lookup_insert_ne different, Database.run?]

theorem resource?_congr (resources : after.resources = before.resources) (resourceId : String) :
    after.resource? resourceId = before.resource? resourceId := by
  rw [Database.resource?, resources, Database.resource?]

variable {record : ResourceRecord}

theorem resource?_of_insert {resourceId : String}
    (resources : after.resources = before.resources.insert resourceId record) :
    after.resource? resourceId = some record := by
  rw [Database.resource?, resources, AList.lookup_insert]

theorem resource?_of_insert_ne {resourceId other : String}
    (resources : after.resources = before.resources.insert resourceId record)
    (different : other ≠ resourceId) : after.resource? other = before.resource? other := by
  rw [Database.resource?, resources, AList.lookup_insert_ne different, Database.resource?]

theorem mem_resourcesOf (record : ResourceRecord) :
    record ∈ db.resourcesOf key <->
      (∃ resourceId, db.resource? resourceId = some record) ∧ record.runKey = key := by
  rw [Database.resourcesOf, List.mem_insertionSort, List.mem_filter, List.mem_map,
    decide_eq_true_eq]
  constructor
  · rintro ⟨⟨entry, member, rfl⟩, same⟩
    exact ⟨⟨entry.1, AList.mem_lookup_iff.mpr member⟩, same⟩
  · rintro ⟨⟨resourceId, found⟩, same⟩
    exact ⟨⟨⟨resourceId, record⟩, AList.mem_lookup_iff.mp found, rfl⟩, same⟩

/-- No residue means that every resource of the run is settled. -/
theorem residual_eq_nil_iff :
    db.residual key = [] <->
      ∀ resourceId record, db.resource? resourceId = some record -> record.runKey = key ->
        record.settled = true := by
  rw [Database.residual, List.filter_eq_nil_iff]
  constructor
  · intro clean resourceId record found same
    have kept := clean record ((mem_resourcesOf db key record).mpr ⟨⟨resourceId, found⟩, same⟩)
    simpa only [Bool.not_eq_true', Bool.not_eq_false] using kept
  · intro settled record member
    rcases (mem_resourcesOf db key record).mp member with ⟨⟨resourceId, found⟩, same⟩
    simp only [settled resourceId record found same, Bool.not_true, Bool.false_eq_true,
      not_false_eq_true]

theorem busy_eq_false_iff (store : RunCoordinationStore) (runId : String) :
    store.busy db runId = false <->
      ∀ other row, db.run? other = some row -> row.workspaceId = store.workspaceId ->
        row.status.occupies = true -> other = store.key runId := by
  rw [RunCoordinationStore.busy, List.any_eq_false]
  constructor
  · intro idle other row found workspace occupies
    have entry := idle ⟨other, row⟩ (AList.mem_lookup_iff.mp found)
    simpa only [workspace, occupies, beq_self_eq_true, Bool.and_true, Bool.true_and,
      Bool.not_eq_true', Bool.not_eq_false, beq_iff_eq] using entry
  · intro unique entry member
    have found : db.run? entry.1 = some entry.2 := AList.mem_lookup_iff.mpr member
    simp only [Bool.and_eq_true, beq_iff_eq, Bool.not_eq_true', not_and, Bool.not_eq_false]
    rintro ⟨workspace, occupies⟩
    exact unique entry.1 entry.2 found workspace occupies

end Lookups

/-! ## The effects -/

/-- The updates of a run row under the fence of its owner, `residual` being
the resources of the run that are not settled. -/
inductive OwnerMove (residual : List ResourceRecord) (row : RunRow) : RunRow -> Prop
  | activated (expires updated : ℚ) (fenced : row.status ∈ [RunStatus.reconciling, .cancelRequested])
      (unrecorded : row.cancelRequestId = "") :
      OwnerMove residual row { row with
        status := .active, coordinationRevision := row.coordinationRevision + 1,
        leaseExpiresAt := expires, updatedAt := updated }
  | renewed (expires updated : ℚ) :
      OwnerMove residual row { row with
        leaseExpiresAt := expires, coordinationRevision := row.coordinationRevision + 1,
        updatedAt := updated }
  | cancelRecorded (recorded : String) (updated : ℚ) (unrecorded : row.cancelRequestId = "")
      (nonempty : recorded ≠ "") :
      OwnerMove residual row { row with
        status := .cancelRequested, cancelRequestId := recorded,
        coordinationRevision := row.coordinationRevision + 1, updatedAt := updated }
  | cancelResumed (updated : ℚ) (recorded : row.cancelRequestId ≠ "") :
      OwnerMove residual row { row with
        status := .cancelRequested, coordinationRevision := row.coordinationRevision + 1,
        updatedAt := updated }
  | cancelling (updated : ℚ) :
      OwnerMove residual row { row with
        status := .cancelling, coordinationRevision := row.coordinationRevision + 1,
        updatedAt := updated }
  | released (status : RunStatus) (terminalStatus : String) (updated : ℚ)
      (ending : status ∈ [RunStatus.cancelled, .failed, .released, .recoveryRequired])
      (clean : status.terminal = true -> residual = []) :
      OwnerMove residual row (row.release status terminalStatus updated)

variable [Hashing]

/-- The events that a call appends.  Only a seal and an event recorded under
that very name are of the type `checkpoint_sealed`. -/
structure Logged (call : OwnerCall) (row : RunRow) (before : Database) (event : EventRow) : Prop where
  own : event.runKey = call.key
  sealed : event.eventType = "checkpoint_sealed" ->
    (call.op = .checkpointSeal ∧
        event.payload = sealOf call.lease row (before.resourcesOf call.key)) ∨
      call.op = .recordEvent "checkpoint_sealed" event.payload

/-- What an owner call does to the database once its lease has matched the
run row. -/
inductive OwnerEffect (call : OwnerCall) (row : RunRow) (before after : Database) : Prop
  | kept (runs : after.runs = before.runs) (resources : after.resources = before.resources)
      (new : List EventRow) (events : after.events = before.events ++ new)
      (logged : ∀ event ∈ new, Logged call row before event)
  | moved (next : RunRow) (move : OwnerMove (before.residual call.key) row next)
      (runs : after.runs = before.runs.insert call.key next)
      (resources : after.resources = before.resources)
      (new : List EventRow) (events : after.events = before.events ++ new)
      (logged : ∀ event ∈ new, Logged call row before event)
  | registered (args : RegisterArgs) (now : ℚ) (op : call.op = .registerResource args)
      (opened : registrationOpen args.allowReconciling row = true)
      (fresh : before.resource? args.resourceId = none)
      (runs : after.runs = before.runs.insert call.key row.touch)
      (resources : after.resources =
        before.resources.insert args.resourceId (plannedRecord args call.lease row now))
      (new : List EventRow) (events : after.events = before.events ++ new)
      (logged : ∀ event ∈ new, Logged call row before event)
  | transitioned (args : TransitionArgs) (item : ResourceRecord) (now : ℚ)
      (op : call.op = .transitionResource args)
      (target : transitionTarget call.clock call.lease args row before = .ok item)
      (runs : after.runs = before.runs.insert call.key row.touch)
      (resources : after.resources =
        before.resources.insert args.resourceId (transitionedRecord call.lease args now item))
      (new : List EventRow) (events : after.events = before.events ++ new)
      (logged : ∀ event ∈ new, Logged call row before event)

variable {lease : OwnerLease} {row : RunRow} {call : OwnerCall} {before : Database}

variable {store : RunCoordinationStore}

section

omit [Hashing]

theorem owned_ok {Result : Type} {db : Database} {body : RunRow -> Transaction Result}
    {result : Result × Database} (accepted : store.owned lease db body = .ok result) :
    ∃ row, db.run? (store.key lease.runId) = some row ∧ lease.owns row = true ∧
      body row = .ok result := by
  unfold owned RunCoordinationStore.row at accepted
  cases found : db.run? (store.key lease.runId) with
  | none => simp only [found, reduceCtorEq] at accepted
  | some row =>
    simp only [found] at accepted
    by_cases owner : lease.owns row = true
    · rw [if_pos owner] at accepted
      exact ⟨row, rfl, owner, accepted⟩
    · rw [if_neg owner] at accepted
      cases accepted

theorem OwnerLease.owns_iff (lease : OwnerLease) (row : RunRow) :
    lease.owns row = true <->
      row.ownerToken = lease.ownerToken.hex ∧ row.generation = lease.generation := by
  rw [OwnerLease.owns, Bool.and_eq_true, beq_iff_eq, beq_iff_eq]

/-- A row that some lease owns has not been released. -/
theorem ownerToken_ne_empty (owner : lease.owns row = true) : row.ownerToken ≠ "" := by
  rw [((OwnerLease.owns_iff lease row).mp owner).1]
  exact lease.ownerToken.nonempty

end

/-- A single event under the key of the call, of some other type. -/
theorem logged_single {key : RunKey} {eventType : String} {payload : Json} {createdAt : ℚ}
    (own : key = call.key) (other : eventType ≠ "checkpoint_sealed") :
    ∀ event ∈ [(⟨key, eventType, payload, createdAt⟩ : EventRow)],
      Logged call row before event := by
  intro event member
  rw [List.mem_singleton] at member
  subst member
  exact ⟨own, fun same => False.elim (other same)⟩

theorem logged_nil : ∀ event ∈ ([] : List EventRow), Logged call row before event :=
  fun _ impossible => False.elim (List.not_mem_nil impossible)

theorem OwnerEffect.unchanged (call : OwnerCall) (row : RunRow) (db : Database) :
    OwnerEffect call row db db :=
  .kept rfl rfl [] (List.append_nil _).symm logged_nil

/-- The call finds a row that its lease owns, and has its effect there. -/
def OwnerCall.Acts (call : OwnerCall) (before after : Database) : Prop :=
  ∃ row, before.run? call.key = some row ∧ call.lease.owns row = true ∧ OwnerEffect call row before after

theorem owned_acts {after : Database} {Result : Type} {body : RunRow -> Transaction Result} {result : Result × Database}
    (accepted : call.store.owned call.lease before body = .ok result)
    (effect : ∀ row, body row = .ok result -> OwnerEffect call row before after) : call.Acts before after := by
  rcases owned_ok accepted with ⟨row, found, owner, returned⟩
  exact ⟨row, found, owner, effect row returned⟩

section Methods

variable {call : OwnerCall} {row : RunRow} {before after : Database} {store : RunCoordinationStore}
  {clock : Clock} {lease : OwnerLease}

variable {next : OwnerLease}

theorem activate_effect (accepted : store.activate clock lease before = .ok (next, after)) :
    OwnerCall.Acts ⟨store, clock, lease, .activate⟩ before after := by
  refine owned_acts accepted fun row body => ?_
  split at body
  · cases body
  rename_i fenced
  split at body
  · cases body
  split at body
  · cases body
  rename_i unrecorded
  cases body
  exact .moved _ (.activated _ _ (not_not.mp fenced) (not_not.mp unrecorded)) rfl rfl _ rfl
    (logged_single rfl (by decide))

theorem heartbeat_effect {leaseSeconds : ℚ}
    (accepted : store.heartbeat clock lease leaseSeconds before = .ok (next, after)) :
    OwnerCall.Acts ⟨store, clock, lease, .heartbeat leaseSeconds⟩ before after := by
  refine owned_acts accepted fun row body => ?_
  split at body
  · cases body
  split at body
  · cases body
  cases body
  exact .moved _ (.renewed _ _) rfl rfl [] (List.append_nil _).symm logged_nil

omit [Hashing] in
theorem cancelRequestText_ne_empty (requestId : String) (fresh : Uuid) :
    cancelRequestText requestId fresh ≠ "" := by
  unfold cancelRequestText
  split
  · intro impossible
    have lengths := congrArg String.length impossible
    rw [String.length_append] at lengths
    exact absurd lengths (by simp)
  · assumption

theorem requestCancel_effect {recorded requestId : String} {fresh : Uuid}
    (accepted : store.requestCancel clock lease requestId fresh before = .ok (recorded, after)) :
    OwnerCall.Acts ⟨store, clock, lease, .requestCancel requestId fresh⟩ before after := by
  refine owned_acts accepted fun row body => ?_
  split at body
  · rename_i recorded
    split at body
    · cases body
      exact .moved _ (.cancelResumed _ recorded) rfl rfl [] (List.append_nil _).symm logged_nil
    · cases body
      exact .unchanged _ row before
  · rename_i unrecorded
    split at body
    · cases body
      exact .unchanged _ row before
    · cases body
      exact .moved _ (.cancelRecorded _ _ (not_not.mp unrecorded)
        (cancelRequestText_ne_empty requestId fresh)) rfl rfl _ rfl (logged_single rfl (by decide))

theorem beginCancelling_effect (accepted : store.beginCancelling clock lease before = .ok (next, after)) :
    OwnerCall.Acts ⟨store, clock, lease, .beginCancelling⟩ before after := by
  refine owned_acts accepted fun row body => ?_
  split at body
  · cases body
    exact .unchanged _ row before
  split at body
  · cases body
  cases body
  exact .moved _ (.cancelling _) rfl rfl _ rfl (logged_single rfl (by decide))

variable {errorCode : String} {record : ResourceRecord}

theorem markRecoveryRequired_effect
    (accepted : store.markRecoveryRequired clock lease errorCode before = .ok ((), after)) :
    OwnerCall.Acts ⟨store, clock, lease, .markRecoveryRequired errorCode⟩ before after := by
  refine owned_acts accepted fun row body => ?_
  cases body
  exact .moved _ (.released .recoveryRequired _ _ (by decide) fun impossible => by cases impossible)
    rfl rfl _ rfl (logged_single rfl (by decide))

theorem registerResource_effect {args : RegisterArgs}
    (accepted : store.registerResource clock lease args before = .ok (record, after)) :
    OwnerCall.Acts ⟨store, clock, lease, .registerResource args⟩ before after := by
  refine owned_acts accepted fun row body => ?_
  split at body
  · cases body
  rename_i opened
  split at body
  · cases body
  split at body
  · cases body
  split at body
  · cases body
  rename_i fresh
  cases body
  exact .registered args (clock 1) rfl (not_not.mp opened) (Option.not_isSome_iff_eq_none.mp fresh)
    rfl rfl _ rfl (logged_single rfl (by decide))

omit [Hashing] in
theorem resource_event_ne (status : ResourceStatus) :
    "resource_" ++ status.text ≠ "checkpoint_sealed" := by
  cases status <;> decide

theorem transitionResource_effect {args : TransitionArgs}
    (accepted : store.transitionResource clock lease args before = .ok (record, after)) :
    OwnerCall.Acts ⟨store, clock, lease, .transitionResource args⟩ before after := by
  refine owned_acts accepted fun row body => ?_
  cases target : transitionTarget clock lease args row before with
  | error fault => simp only [target, reduceCtorEq] at body
  | ok item =>
    simp only [target] at body
    cases body
    exact .transitioned args item (clock 1) rfl target rfl rfl _ rfl
      (logged_single rfl (resource_event_ne args.status))

theorem recordEvent_effect {eventType : String} {payload : Json}
    (accepted : store.recordEvent clock lease eventType payload before = .ok ((), after)) :
    OwnerCall.Acts ⟨store, clock, lease, .recordEvent eventType payload⟩ before after := by
  refine owned_acts accepted fun row body => ?_
  cases body
  refine .kept rfl rfl _ rfl ?_
  intro event member
  rw [List.mem_singleton] at member
  subst member
  exact ⟨rfl, fun same => Or.inr (by rw [← same])⟩

theorem checkpointSeal_effect {sealed : Json}
    (accepted : store.checkpointSeal clock lease before = .ok (sealed, after)) :
    OwnerCall.Acts ⟨store, clock, lease, .checkpointSeal⟩ before after := by
  refine owned_acts accepted fun row body => ?_
  split at body
  · cases body
  cases body
  refine .kept rfl rfl _ rfl ?_
  intro event member
  rw [List.mem_singleton] at member
  subst member
  exact ⟨rfl, fun _ => Or.inl ⟨rfl, rfl⟩⟩

theorem finish_effect {status : RunStatus}
    (accepted : store.finish clock lease status errorCode before = .ok ((), after)) :
    OwnerCall.Acts ⟨store, clock, lease, .finish status errorCode⟩ before after := by
  unfold finish at accepted
  split at accepted
  · cases accepted
  rename_i ending
  refine owned_acts accepted fun row body => ?_
  have ends : status ∈ [RunStatus.cancelled, .failed, .released, .recoveryRequired] := not_not.mp ending
  dsimp only at body
  by_cases blocked : before.residual (store.key lease.runId) ≠ [] ∧ status ≠ .recoveryRequired
  · rw [if_pos blocked] at body
    cases body
    exact .moved _ (.released .recoveryRequired _ _ (by decide)
      (fun impossible => by cases impossible)) rfl rfl _ rfl (logged_single rfl (by decide))
  · rw [if_neg blocked] at body
    cases body
    have clean : status.terminal = true -> before.residual (store.key lease.runId) = [] := by
      intro terminal
      by_contra residual
      exact blocked ⟨residual, fun same => by rw [same] at terminal; cases terminal⟩
    have runEvent : "run_" ++ status.text ≠ "checkpoint_sealed" := by
      cases status <;> decide
    by_cases cancelled : status = .cancelled
    · rw [if_pos cancelled]
      let ended : EventRow := ⟨store.key lease.runId, "run_" ++ status.text,
        .obj [("generation", .int lease.generation), ("error_code", .str errorCode)], clock 1⟩
      let completed : EventRow := ⟨store.key lease.runId, "cancel_completed",
        .obj [("generation", .int lease.generation)], clock 2⟩
      refine .moved _ (.released status errorCode _ ends clean) rfl rfl ([ended] ++ [completed])
        (List.append_assoc before.events [ended] [completed]) ?_
      intro event member
      rcases List.mem_append.mp member with first | second
      · exact logged_single rfl runEvent event first
      · exact logged_single rfl (by decide) event second
    · rw [if_neg cancelled]
      exact .moved _ (.released status errorCode _ ends clean) rfl rfl _ rfl (logged_single rfl runEvent)

end Methods

theorem OwnerCall.apply_effect {after : Database} {reply : Reply}
    (accepted : call.apply before = .ok (reply, after)) :
    ∃ row, before.run? call.key = some row ∧ call.lease.owns row = true ∧
      OwnerEffect call row before after := by
  rcases call with ⟨store, clock, lease, op⟩
  cases op with
  | activate =>
    rcases Transaction.answer_ok accepted with ⟨_, inner, _⟩
    exact activate_effect inner
  | heartbeat leaseSeconds =>
    rcases Transaction.answer_ok accepted with ⟨_, inner, _⟩
    exact heartbeat_effect inner
  | requestCancel requestId fresh =>
    rcases Transaction.answer_ok accepted with ⟨_, inner, _⟩
    exact requestCancel_effect inner
  | beginCancelling =>
    rcases Transaction.answer_ok accepted with ⟨_, inner, _⟩
    exact beginCancelling_effect inner
  | markRecoveryRequired errorCode =>
    unfold OwnerCall.apply at accepted
    rcases Transaction.answer_ok accepted with ⟨_, inner, _⟩
    exact markRecoveryRequired_effect inner
  | registerResource args =>
    rcases Transaction.answer_ok accepted with ⟨_, inner, _⟩
    exact registerResource_effect inner
  | transitionResource args =>
    rcases Transaction.answer_ok accepted with ⟨_, inner, _⟩
    exact transitionResource_effect inner
  | recordEvent eventType payload =>
    unfold OwnerCall.apply at accepted
    rcases Transaction.answer_ok accepted with ⟨_, inner, _⟩
    exact recordEvent_effect inner
  | checkpointSeal =>
    rcases Transaction.answer_ok accepted with ⟨_, inner, _⟩
    exact checkpointSeal_effect inner
  | finish status errorCode =>
    unfold OwnerCall.apply at accepted
    rcases Transaction.answer_ok accepted with ⟨_, inner, _⟩
    exact finish_effect inner

/-- What an accepted `acquire` does. -/
inductive AcquireEffect (store : RunCoordinationStore) (clock : Clock) (args : AcquireArgs)
    (before after : Database) (lease : OwnerLease) : Prop
  | created (now expires : ℚ) (absent : before.run? (store.key args.runId) = none)
      (issued : lease = leaseFrom args store.workspaceId 1 1 expires)
      (runs : after.runs =
        before.runs.insert (store.key args.runId) (store.freshRow args now expires))
      (events : after.events = before.events ++ [⟨store.key args.runId, "resume_owner_acquired",
        acquiredPayload args 1, clock 1⟩])
  | resumed (row : RunRow) (now expires : ℚ) (found : before.run? (store.key args.runId) = some row)
      (resumable : row.status ∉ [RunStatus.cancelled, .failed])
      (issued : lease = leaseFrom args store.workspaceId (row.generation + 1)
        (row.coordinationRevision + 1) expires)
      (runs : after.runs =
        before.runs.insert (store.key args.runId) (reacquiredRow args now expires row))
      (events : after.events = before.events ++ [⟨store.key args.runId, "resume_owner_acquired",
        acquiredPayload args (row.generation + 1), clock 1⟩])

omit [Hashing] in
theorem acquire_effect {clock : Clock} {args : AcquireArgs} {after : Database}
    (accepted : store.acquire clock args before = .ok (lease, after)) :
    store.busy before args.runId = false ∧ after.resources = before.resources ∧
      AcquireEffect store clock args before after lease := by
  unfold acquire at accepted
  dsimp only at accepted
  split at accepted
  · cases accepted
  split at accepted
  · cases accepted
  split at accepted
  · cases accepted
  rename_i idle
  refine ⟨Bool.eq_false_iff.mpr idle, ?_⟩
  split at accepted
  · rename_i row found
    split at accepted
    · cases accepted
    split at accepted
    · cases accepted
    rename_i resumable
    split at accepted
    · cases accepted
    cases accepted
    exact ⟨rfl, .resumed row _ _ found resumable rfl rfl rfl⟩
  · rename_i absent
    cases accepted
    exact ⟨rfl, .created _ _ absent rfl rfl rfl⟩

end RunCoordination
end FixLoop
