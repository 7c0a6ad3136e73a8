import FixLoop.RunCoordination.Fencing

namespace FixLoop
namespace RunCoordination

open Library RunCoordinationStore

/-!
# A recorded cancel request

`request_cancel` writes an identifier into the run row.  Re-acquisition
copies it, no owner call replaces it, and activation refuses a row that
carries one, so from then on the run is never active and every gate of a
dispatch is shut.
-/

/-- No run with a cancel request on record is active. -/
def CancelFenced (db : Database) : Prop :=
  ∀ key row, db.run? key = some row -> row.cancelRequestId ≠ "" -> row.status ≠ .active

/-- The run carries this cancel request. -/
def CancelRecorded (key : RunKey) (requestId : String) (db : Database) : Prop :=
  ∃ row, db.run? key = some row ∧ row.cancelRequestId = requestId

/-- Every way to open a dispatch of the run is rejected, whichever store,
clock and lease are used. -/
structure DispatchShut (key : RunKey) (requestId : String) (db : Database) : Prop where
  recorded : ∃ row, db.run? key = some row ∧ row.cancelRequestId = requestId ∧
    row.status ≠ .active
  assertLease : ∀ (store : RunCoordinationStore) clock lease, store.key lease.runId = key ->
    ∃ fault, store.assertLease clock lease false db = .error fault
  assertRequestOwner : ∀ (store : RunCoordinationStore) clock runId token generation revision,
    store.key runId = key ->
    ∃ fault, store.assertRequestOwner clock runId token generation revision db = .error fault
  registerResource : ∀ (store : RunCoordinationStore) clock lease args,
    store.key lease.runId = key -> args.allowReconciling = false ->
    ∃ fault, store.registerResource clock lease args db = .error fault
  transitionResource : ∀ (store : RunCoordinationStore) clock lease args,
    store.key lease.runId = key -> args.status.dispatching = true ->
    ∃ fault, store.transitionResource clock lease args db = .error fault

/-- No resource of the run has been moved to a dispatching status. -/
def NoDispatch (key : RunKey) (before after : Database) : Prop :=
  ∀ resourceId item next, before.resource? resourceId = some item -> item.runKey = key ->
    after.resource? resourceId = some next -> next.status.dispatching = true -> next = item

theorem transitionOpen_dispatching {clock : Clock} {status : ResourceStatus} {row : RunRow}
    (opened : transitionOpen clock status row = .ok ()) (dispatching : status.dispatching = true) :
    row.status = .active ∧ row.cancelRequestId = "" := by
  unfold transitionOpen at opened
  split at opened
  · cases opened
  split at opened
  · cases opened
  · rename_i closed
    constructor
    · by_contra other
      exact closed ⟨dispatching, Or.inl other⟩
    · by_contra recorded
      exact closed ⟨dispatching, Or.inr (Or.inl recorded)⟩

section Gates

variable {db : Database} {row : RunRow} {store : RunCoordinationStore} {clock : Clock}

variable {lease : OwnerLease}

theorem assertLease_shut (found : db.run? (store.key lease.runId) = some row)
    (inactive : row.status ≠ .active) :
    ∃ fault, store.assertLease clock lease false db = .error fault := by
  refine ⟨.stale, ?_⟩
  simp only [RunCoordinationStore.assertLease, RunCoordinationStore.row, found]
  exact if_pos (Or.inr (Or.inr (Or.inr (Or.inl (by simp only [inactive, Bool.false_eq_true,
    false_and, or_self, not_false_eq_true])))))

theorem assertRequestOwner_shut {runId token : String} {generation revision : Nat}
    (found : db.run? (store.key runId) = some row) (inactive : row.status ≠ .active) :
    ∃ fault, store.assertRequestOwner clock runId token generation revision db = .error fault := by
  unfold RunCoordinationStore.assertRequestOwner
  split
  · exact ⟨_, rfl⟩
  · refine ⟨.staleGeneration "dispatch owner envelope is stale", ?_⟩
    simp only [RunCoordinationStore.row, found]
    exact if_pos (Or.inr (Or.inr (Or.inr (Or.inl inactive))))

theorem registerResource_shut {args : RegisterArgs} (found : db.run? (store.key lease.runId) = some row)
    (inactive : row.status ≠ .active) (dispatch : args.allowReconciling = false) :
    ∃ fault, store.registerResource clock lease args db = .error fault := by
  cases outcome : store.registerResource clock lease args db with
  | error fault => exact ⟨fault, rfl⟩
  | ok result =>
    rcases owned_ok outcome with ⟨existing, lookup, _, body⟩
    cases Option.some.inj (found.symm.trans lookup)
    have closed : registrationOpen args.allowReconciling row = false := by
      simp only [registrationOpen, dispatch, Bool.false_eq_true, if_false,
        beq_eq_false_iff_ne.mpr inactive, Bool.false_and]
    simp only [closed, Bool.false_eq_true, not_false_eq_true, if_true, reduceCtorEq] at body

theorem transitionResource_shut {args : TransitionArgs} (found : db.run? (store.key lease.runId) = some row)
    (inactive : row.status ≠ .active) (dispatching : args.status.dispatching = true) :
    ∃ fault, store.transitionResource clock lease args db = .error fault := by
  cases outcome : store.transitionResource clock lease args db with
  | error fault => exact ⟨fault, rfl⟩
  | ok result =>
    rcases owned_ok outcome with ⟨existing, lookup, _, body⟩
    cases Option.some.inj (found.symm.trans lookup)
    cases target : transitionTarget clock lease args row db with
    | error fault => simp only [target, reduceCtorEq] at body
    | ok item =>
      exact absurd (transitionOpen_dispatching (transitionTarget_found target).2 dispatching).1
        inactive

theorem CancelFenced.shut {key : RunKey} {requestId : String} (fenced : CancelFenced db)
    (recorded : CancelRecorded key requestId db) (nonempty : requestId ≠ "") :
    DispatchShut key requestId db := by
  rcases recorded with ⟨row, found, rfl⟩
  have inactive := fenced key row found nonempty
  refine ⟨⟨row, found, rfl, inactive⟩, ?_, ?_, ?_, ?_⟩
  · rintro store clock lease rfl
    exact assertLease_shut found inactive
  · rintro store clock runId token generation revision rfl
    exact assertRequestOwner_shut found inactive
  · rintro store clock lease args rfl dispatch
    exact registerResource_shut found inactive dispatch
  · rintro store clock lease args rfl dispatching
    exact transitionResource_shut found inactive dispatching

end Gates

section Runs

variable [Hashing]

variable {db : Database}

theorem CancelFenced.step (fenced : CancelFenced db) (coordinated : Coordinated db) (call : StoreCall) :
    CancelFenced (storeMachine.step db call) := by
  intro key row lookup recorded active
  cases row_change coordinated call key with
  | same kept => exact fenced key row (kept.symm.trans lookup) recorded active
  | created store args now expires absent later =>
    cases Option.some.inj (later.symm.trans lookup)
    exact recorded rfl
  | reacquired args now expires existing found resumable later =>
    cases Option.some.inj (later.symm.trans lookup)
    cases active
  | updated existing next found later update =>
    cases Option.some.inj (later.symm.trans lookup)
    have before := update.cancelFirst recorded active
    exact fenced key existing found before.1 before.2

/-- No call removes or replaces a cancel request. -/
theorem CancelRecorded.step {key : RunKey} {requestId : String} (recorded : CancelRecorded key requestId db)
    (nonempty : requestId ≠ "") (coordinated : Coordinated db) (call : StoreCall) :
    CancelRecorded key requestId (storeMachine.step db call) := by
  rcases recorded with ⟨row, found, rfl⟩
  cases row_change coordinated call key with
  | same kept => exact ⟨row, kept.trans found, rfl⟩
  | created store args now expires absent later => cases absent.symm.trans found
  | reacquired args now expires existing lookup resumable later =>
    cases Option.some.inj (found.symm.trans lookup)
    exact ⟨_, later, rfl⟩
  | updated existing next lookup later update =>
    cases Option.some.inj (found.symm.trans lookup)
    exact ⟨next, later, update.cancelKept nonempty⟩

/-- While a cancel request is on record, a call moves no resource of the run
to a dispatching status, unless it belongs to another run. -/
theorem noDispatch_step {key : RunKey} {requestId : String} (recorded : CancelRecorded key requestId db)
    (nonempty : requestId ≠ "") {call : StoreCall} (keeps : call.keepsToRun db = true) :
    NoDispatch key db (storeMachine.step db call) := by
  rcases recorded with ⟨row, found, rfl⟩
  intro resourceId item next before own later dispatching
  change (commit (call.apply db) db).resource? resourceId = some next at later
  have unchanged : ∀ {after : Database}, after.resource? resourceId = some next ->
      after.resource? resourceId = db.resource? resourceId -> next = item := fun lookup same =>
    Option.some.inj (lookup.symm.trans (same.trans before))
  rcases commit_cases (call.apply db) db with ⟨fault, _, same⟩ | ⟨reply, accepted⟩
  · rw [same] at later
    exact unchanged later rfl
  generalize commit (call.apply db) db = after at accepted later
  cases call with
  | acquire store clock args =>
    rcases Transaction.answer_ok accepted with ⟨lease, inner, _⟩
    exact unchanged later (resource?_congr (acquire_effect inner).2.1 resourceId)
  | owner call =>
    rcases call.apply_effect accepted with ⟨owned, lookup, owner, effect⟩
    cases effect with
    | kept runs resources new events logged | moved next move runs resources new events logged =>
      exact unchanged later (resource?_congr resources resourceId)
    | registered args now op opened fresh runs resources new events logged =>
      refine unchanged later (resource?_of_insert_ne resources ?_)
      rintro rfl
      cases before.symm.trans fresh
    | transitioned args target now op accepted runs resources new events logged =>
      by_cases same : resourceId = args.resourceId
      · subst resourceId
        have checks := transitionTarget_found accepted
        cases Option.some.inj (before.symm.trans checks.1)
        have here := own.symm.trans (call.keepsToRun_item keeps op lookup owner accepted)
        rw [here] at found
        cases Option.some.inj (found.symm.trans lookup)
        cases Option.some.inj ((resource?_of_insert resources).symm.trans later)
        exact absurd (transitionOpen_dispatching checks.2 dispatching).2 nonempty
      · exact unchanged later (resource?_of_insert_ne resources same)

theorem Reachable.cancelFenced (reachable : Reachable db) : CancelFenced db := by
  rcases reachable with ⟨calls, rfl⟩
  have stepwise : ∀ db call, Coordinated db ∧ CancelFenced db ->
      Coordinated (storeMachine.step db call) ∧ CancelFenced (storeMachine.step db call) :=
    fun db call holds => ⟨holds.1.step call, holds.2.step holds.1 call⟩
  have initially : CancelFenced Database.empty := by
    intro _ _ impossible
    cases impossible
  exact (storeMachine.invariant_run stepwise ⟨Coordinated.empty, initially⟩ calls).2

/-- From the moment a run carries a cancel request on, through every
execution whose transitions keep to the resources of their own run: the
request stays, the run is never active, every gate of a dispatch is shut at
every point, and no step moves a resource of the run to `planned` or
`running`. -/
theorem cancel_request_kept (past later : List StoreCall) (key : RunKey) (row : RunRow)
    (kept : storeMachine.Along (fun db call => call.keepsToRun db = true) Database.empty
      (past ++ later))
    (found : (storeMachine.run Database.empty past).run? key = some row)
    (recorded : row.cancelRequestId ≠ "") :
    let start := storeMachine.run Database.empty past
    storeMachine.Along (fun db call => DispatchShut key row.cancelRequestId db ∧
        NoDispatch key db (storeMachine.step db call)) start later ∧
      DispatchShut key row.cancelRequestId (storeMachine.run start later) := by
  intro start
  have reachable : Reachable start := ⟨past, rfl⟩
  have onRecord : CancelRecorded key row.cancelRequestId start := ⟨row, found, rfl⟩
  have keeps := ((storeMachine.along_append _ _ _).mp kept).2
  change storeMachine.Along _ start later at keeps
  clear_value start
  clear kept found
  induction later generalizing start with
  | nil => exact ⟨True.intro, reachable.cancelFenced.shut onRecord recorded⟩
  | cons call rest ih =>
    have next := ih (storeMachine.step start call) (reachable.run [call])
      (onRecord.step recorded reachable.coordinated call) keeps.2
    exact ⟨⟨⟨reachable.cancelFenced.shut onRecord recorded,
      noDispatch_step onRecord recorded keeps.1⟩, next.1⟩, next.2⟩

end Runs

attribute [local instance] Hashing.constant

namespace SharedRoot

/-- The owner in `a` records a cancel request for its run. -/
def cancelledRun : List StoreCall :=
  leftRun ++ [.owner (ownerCall "a" left (.requestCancel "stop" left))]

end SharedRoot

/-- The cancel request in `a` is on record, and the owner of the run of the
same `run_id` in `b` starts a resource of the run in `a`. -/
theorem cancel_request_crossed :
    let key : RunKey := ⟨"a", "run"⟩
    let db := storeMachine.run Database.empty (SharedRoot.cancelledRun ++ SharedRoot.rightRun)
    let call := SharedRoot.ownerCall "b" SharedRoot.right (SharedRoot.transition "x" .running "")
    (db.run? key).map (fun row => (row.status, row.cancelRequestId)) =
        some (.cancelRequested, "stop") ∧
      (db.resource? "x").map ResourceRecord.runKey = some key ∧
      (db.resource? "x").map ResourceRecord.status = some .planned ∧
      ((storeMachine.step db (.owner call)).resource? "x").map ResourceRecord.status = some .running ∧
      ¬ NoDispatch key db (storeMachine.step db (.owner call)) := by
  intro key db call
  have own : (db.resource? "x").map ResourceRecord.runKey = some key := by decide +kernel
  have planned : (db.resource? "x").map ResourceRecord.status = some .planned := by decide +kernel
  have running : ((storeMachine.step db (.owner call)).resource? "x").map ResourceRecord.status =
      some .running := by decide +kernel
  refine ⟨by decide +kernel, own, planned, running, ?_⟩
  intro kept
  rcases Option.map_eq_some_iff.mp own with ⟨item, found, keyed⟩
  rcases Option.map_eq_some_iff.mp running with ⟨next, later, moved⟩
  have same := kept "x" item next found keyed later (by rw [moved]; rfl)
  rw [found, ← same, Option.map_some, moved] at planned
  exact absurd planned (by decide)

theorem cancel_request_kept_reacquired :
    DispatchShut ⟨"a", "run"⟩ "stop" (storeMachine.run
      (storeMachine.run Database.empty SharedRoot.cancelledRun)
      [.owner (SharedRoot.ownerCall "a" SharedRoot.left (.markRecoveryRequired "")),
        SharedRoot.acquireCall "a" SharedRoot.right]) := by
  have onRecord : ((storeMachine.run Database.empty SharedRoot.cancelledRun).run? ⟨"a", "run"⟩).map
      RunRow.cancelRequestId = some "stop" := by decide +kernel
  rcases Option.map_eq_some_iff.mp onRecord with ⟨row, found, recorded⟩
  have shut := (cancel_request_kept SharedRoot.cancelledRun
    [.owner (SharedRoot.ownerCall "a" SharedRoot.left (.markRecoveryRequired "")),
      SharedRoot.acquireCall "a" SharedRoot.right] ⟨"a", "run"⟩ row
    ⟨rfl, rfl, rfl, rfl, rfl, rfl, True.intro⟩ found (by rw [recorded]; decide)).2
  rwa [recorded] at shut

/-!
# Terminal runs have no residue

`finish` looks at the resources of the run in the transaction that ends it,
and the same transaction clears the owner token, so nothing can be registered
or moved afterwards.
-/

/-- If the run has ended, its resources are settled. -/
def TerminalSettled (key : RunKey) (db : Database) : Prop :=
  ∀ row, db.run? key = some row -> row.status.terminal = true ->
    ∀ resourceId record, db.resource? resourceId = some record -> record.runKey = key ->
      record.settled = true

theorem TerminalSettled.of_sameRun {key : RunKey} {before after : Database}
    (settled : TerminalSettled key before) (same : SameRun key before after) :
    TerminalSettled key after := by
  intro row found terminal resourceId record lookup own
  exact settled row (same.row.symm.trans found) terminal resourceId record
    ((same.resources resourceId record own).mp lookup) own

theorem RunStatus.not_terminal_of_held {status : RunStatus} (held : status.held = true) :
    status.terminal = false := by
  cases status <;> first | rfl | cases held

theorem ResourceRecord.settled_iff (record : ResourceRecord) :
    record.settled = true <->
      record.status ∈ [ResourceStatus.completed, .failed, .cancelled, .notStarted] ∧
        record.cleanup = "confirmed" := by
  rw [ResourceRecord.settled, Bool.and_eq_true, beq_iff_eq, ResourceStatus.ended, decide_eq_true_eq]

theorem Coordinated.released_of_terminal {db : Database} (coordinated : Coordinated db) {key : RunKey}
    {row : RunRow} (found : db.run? key = some row) (terminal : row.status.terminal = true) :
    Released key db := by
  refine ⟨row, found, ?_⟩
  by_contra token
  have held := coordinated.owned key row found token
  rw [RunStatus.not_terminal_of_held held] at terminal
  cases terminal

section Runs

variable [Hashing]

/-- An owner call can end its run only when nothing is left over. -/
theorem OwnerEffect.terminalSettled {call : OwnerCall} {row : RunRow} {before after : Database}
    (effect : OwnerEffect call row before after) (found : before.run? call.key = some row)
    (held : row.status.held = true) : TerminalSettled call.key after := by
  have going := RunStatus.not_terminal_of_held held
  intro next later terminal
  have touched : after.runs = before.runs.insert call.key row.touch -> False := by
    intro runs
    cases Option.some.inj ((run?_of_insert runs).symm.trans later)
    exact absurd terminal (Bool.eq_false_iff.mp going)
  cases effect with
  | kept runs resources new events logged =>
    cases Option.some.inj (((run?_congr runs call.key).trans found).symm.trans later)
    exact absurd terminal (Bool.eq_false_iff.mp going)
  | moved moved move runs resources new events logged =>
    cases Option.some.inj ((run?_of_insert runs).symm.trans later)
    cases move with
    | renewed expires updated => exact absurd terminal (Bool.eq_false_iff.mp going)
    | released status terminalStatus updated ending clean =>
      intro resourceId record lookup own
      rw [resource?_congr resources] at lookup
      exact (residual_eq_nil_iff before call.key).mp (clean terminal) resourceId record lookup own
    | _ => cases terminal
  | registered args now op opened fresh runs resources new events logged
  | transitioned args item now op target runs resources new events logged =>
    exact False.elim (touched runs)

theorem TerminalSettled.step {key : RunKey} {db : Database} (settled : TerminalSettled key db)
    (coordinated : Coordinated db) {call : StoreCall} (keeps : call.keepsToRun db = true) :
    TerminalSettled key (storeMachine.step db call) := by
  cases call with
  | acquire store clock args =>
    by_cases claimed : (StoreCall.acquire store clock args).acquires key db = true
    · intro row lookup terminal
      rcases reconciling_of_acquire claimed with ⟨next, later, reconciling⟩
      cases Option.some.inj (later.symm.trans lookup)
      rw [reconciling] at terminal
      cases terminal
    · exact settled.of_sameRun (sameRun_of_acquire store clock args (Bool.eq_false_iff.mpr claimed))
  | owner call =>
    by_cases here : key = call.key
    · subst key
      change TerminalSettled call.key (commit (call.apply db) db)
      rcases commit_cases (call.apply db) db with ⟨fault, _, same⟩ | ⟨reply, accepted⟩
      · rw [same]
        exact settled
      · rcases call.apply_effect accepted with ⟨row, found, owner, effect⟩
        exact effect.terminalSettled found
          (coordinated.owned call.key row found (ownerToken_ne_empty owner))
    · exact settled.of_sameRun (call.sameRun_elsewhere coordinated keeps here)

theorem TerminalSettled.run {key : RunKey} (calls : List StoreCall)
    (kept : storeMachine.Along (fun db call => call.keepsToRun db = true) Database.empty calls) :
    TerminalSettled key (storeMachine.run Database.empty calls) := by
  have stepwise : ∀ db (call : StoreCall), Coordinated db ∧ TerminalSettled key db ->
      call.keepsToRun db = true -> Coordinated (storeMachine.step db call) ∧
        TerminalSettled key (storeMachine.step db call) :=
    fun db call holds keeps => ⟨holds.1.step call, holds.2.step holds.1 keeps⟩
  have initially : TerminalSettled key Database.empty := by
    intro _ impossible
    cases impossible
  exact (storeMachine.invariant_along stepwise ⟨Coordinated.empty, initially⟩ calls kept).2

/-- Through every execution whose transitions keep to the resources of their
own run: the resources of a run that is `cancelled`, `failed` or `released`
have ended with confirmed cleanup, and until the run is acquired again its
row, its resources and its events stay as they are. -/
theorem terminal_run_settled (past later : List StoreCall) (key : RunKey) (row : RunRow)
    (kept : storeMachine.Along (fun db call => call.keepsToRun db = true) Database.empty
      (past ++ later))
    (found : (storeMachine.run Database.empty past).run? key = some row)
    (terminal : row.status ∈ [RunStatus.cancelled, .failed, .released])
    (unclaimed : storeMachine.Along (fun db call => call.acquires key db = false)
      (storeMachine.run Database.empty past) later) :
    let ended := storeMachine.run Database.empty past
    let db := storeMachine.run ended later
    SameRun key ended db ∧
      ∀ resourceId record, db.resource? resourceId = some record -> record.runKey = key ->
        record.status ∈ [ResourceStatus.completed, .failed, .cancelled, .notStarted] ∧
          record.cleanup = "confirmed" := by
  intro ended db
  have keeps := (storeMachine.along_append _ _ _).mp kept
  have coordinated : Coordinated ended := Reachable.coordinated ⟨past, rfl⟩
  have closed : row.status.terminal = true := decide_eq_true terminal
  have still : SameRun key ended db :=
    (coordinated.released_of_terminal found closed).run coordinated later keeps.2 unclaimed
  refine ⟨still, ?_⟩
  intro resourceId record lookup own
  exact record.settled_iff.mp (TerminalSettled.run past keeps.1 row found closed resourceId record
    ((still.resources resourceId record own).mp lookup) own)

end Runs

attribute [local instance] Hashing.constant

namespace SharedRoot

/-- The owner in `a` completes its resource and ends its run. -/
def endedRun : List StoreCall :=
  leftRun ++ [.owner (ownerCall "a" left (transition "x" .completed "confirmed")),
    .owner (ownerCall "a" left (.finish .released ""))]

end SharedRoot

/-- The run in `a` has ended, and the owner of the run of the same `run_id`
in `b` reopens a resource of it. -/
theorem terminal_run_crossed :
    let key : RunKey := ⟨"a", "run"⟩
    let db := storeMachine.run Database.empty (SharedRoot.endedRun ++ SharedRoot.rightRun ++
      [.owner (SharedRoot.ownerCall "b" SharedRoot.right (SharedRoot.transition "x" .unknown ""))])
    (db.run? key).map RunRow.status = some .released ∧
      (db.resource? "x").map ResourceRecord.runKey = some key ∧
      (db.resource? "x").map ResourceRecord.status = some .unknown ∧
      (db.resource? "x").map ResourceRecord.cleanup = some "" := by
  intro key db
  refine ⟨?_, ?_, ?_, ?_⟩ <;> decide +kernel

theorem terminal_run_settled_released :
    SameRun ⟨"a", "run"⟩ (storeMachine.run Database.empty SharedRoot.endedRun)
      (storeMachine.run (storeMachine.run Database.empty SharedRoot.endedRun) SharedRoot.rightRun) := by
  have ended : ((storeMachine.run Database.empty SharedRoot.endedRun).run? ⟨"a", "run"⟩).map
      RunRow.status = some .released := by decide +kernel
  rcases Option.map_eq_some_iff.mp ended with ⟨row, found, released⟩
  exact (terminal_run_settled SharedRoot.endedRun SharedRoot.rightRun ⟨"a", "run"⟩ row
    ⟨rfl, rfl, rfl, by decide +kernel, rfl, rfl, rfl, True.intro⟩ found (by rw [released]; decide)
    ⟨rfl, rfl, True.intro⟩).1

end RunCoordination
end FixLoop
