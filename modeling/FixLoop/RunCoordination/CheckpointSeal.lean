import FixLoop.RunCoordination.CancelRequest

namespace FixLoop
namespace RunCoordination

open Library RunCoordinationStore

/-!
# Checkpoint seals

A seal is verified against the event log of its run: it must have been
written there as a seal, and the log must show that its owner acquired its
generation.  The log is append-only, so both facts stay true once they hold.
`record_event` writes events of any type, the type of the seals included.
-/

/-- The log of a run shows that a token acquired a generation. -/
def AcquiredBy (key : RunKey) (generation : Nat) (token : String) (db : Database) : Prop :=
  ∃ event ∈ db.eventsOf key, event.eventType = "resume_owner_acquired" ∧
    ∃ args : AcquireArgs, event.payload = acquiredPayload args generation ∧ args.token.hex = token

/-- Every run with an owner shows the acquisition of its generation. -/
def AcquireLogged (db : Database) : Prop :=
  ∀ key row, db.run? key = some row -> row.ownerToken ≠ "" ->
    0 < row.generation ∧ AcquiredBy key row.generation row.ownerToken db

/-- The events of a run that can vouch for a seal. -/
def SealLogged (key : RunKey) (db : Database) (payload : Json) : Prop :=
  ∃ event ∈ db.eventsOf key, event.eventType = "checkpoint_sealed" ∧
    event.payload = payload

variable {key : RunKey} {event : EventRow}

theorem mem_eventsOf {db : Database} :
    event ∈ db.eventsOf key <-> event ∈ db.events ∧ event.runKey = key := by
  rw [Database.eventsOf, List.mem_filter, decide_eq_true_eq]

theorem eventsOf_mono {before after : Database} (events : before.events <+: after.events)
    (member : event ∈ before.eventsOf key) : event ∈ after.eventsOf key := by
  rcases mem_eventsOf.mp member with ⟨logged, own⟩
  exact mem_eventsOf.mpr ⟨events.subset logged, own⟩

theorem AcquiredBy.mono {before after : Database} (events : before.events <+: after.events)
    {generation : Nat} {token : String} (acquired : AcquiredBy key generation token before) :
    AcquiredBy key generation token after := by
  rcases acquired with ⟨event, member, rest⟩
  exact ⟨event, eventsOf_mono events member, rest⟩

theorem acquiredFor_acquiredPayload {args : AcquireArgs} {generation : Nat} {sealed : Json}
    (type : event.eventType = "resume_owner_acquired")
    (payload : event.payload = acquiredPayload args generation)
    (sealedGeneration : sealed.get? "generation" = some (.int generation))
    (sealedToken : sealed.get? "owner_token" = some (.str args.token.hex)) :
    acquiredFor sealed event = true := by
  have generation' : event.payload.get? "generation" = some (.int generation) := by
    rw [payload]
    rfl
  have token' : event.payload.get? "owner_token" = some (.str args.token.hex) := by
    rw [payload]
    rfl
  rw [acquiredFor, type, beq_self_eq_true, Bool.true_and, List.all_eq_true]
  intro name member
  rcases List.mem_cons.mp member with rfl | member
  · simp only [generation', sealedGeneration, Json.same_int, beq_self_eq_true]
  · rcases List.mem_singleton.mp member with rfl
    simp only [token', sealedToken, Json.same_str, beq_self_eq_true]

theorem verifyCheckpointSeal_ok_iff (store : RunCoordinationStore) (lease : OwnerLease)
    (sealed : Json) (db : Database) :
    store.verifyCheckpointSeal lease sealed db = .ok () <->
      sealFits lease sealed = true ∧
        (∃ payload, SealLogged (store.key lease.runId) db payload ∧
          payload.same sealed = true) ∧
        ∃ event ∈ db.eventsOf (store.key lease.runId),
          acquiredFor sealed event = true := by
  have sealed_iff : ((db.eventsOf (store.key lease.runId)).any (fun event =>
      event.eventType == "checkpoint_sealed" && event.payload.same sealed) = true) <->
      ∃ payload, SealLogged (store.key lease.runId) db payload ∧
        payload.same sealed = true := by
    simp only [List.any_eq_true, Bool.and_eq_true, beq_iff_eq]
    constructor
    · rintro ⟨event, member, type, same⟩
      exact ⟨event.payload, ⟨event, member, type, rfl⟩, same⟩
    · rintro ⟨payload, ⟨event, member, type, rfl⟩, same⟩
      exact ⟨event, member, type, same⟩
  unfold RunCoordinationStore.verifyCheckpointSeal
  rw [← sealed_iff, ← List.any_eq_true]
  dsimp only
  split
  · rename_i unfit
    exact ⟨nofun, fun all => False.elim (unfit all.1)⟩
  rename_i fits
  split
  · rename_i unverified
    exact ⟨nofun, fun all => False.elim (unverified all.2.1)⟩
  rename_i verified
  split
  · rename_i unowned
    exact ⟨nofun, fun all => False.elim (unowned all.2.2)⟩
  · rename_i owned
    exact ⟨fun _ => ⟨not_not.mp fits, not_not.mp verified, not_not.mp owned⟩, fun _ => rfl⟩

section Seals

variable [Hashing]

theorem same_sealOf (lease : OwnerLease) (row : RunRow) (resources : List ResourceRecord) :
    (sealOf lease row resources).same (sealOf lease row resources) = true := by
  simp [sealOf, Json.same, Json.sameMembers, Json.number?]

theorem sealFits_sealOf {sealing lease : OwnerLease} (row : RunRow) (resources : List ResourceRecord)
    (run : lease.runId = sealing.runId) (workspace : lease.workspaceId = sealing.workspaceId)
    (positive : 0 < sealing.generation) (later : sealing.generation ≤ lease.generation) :
    sealFits lease (sealOf sealing row resources) = true := by
  have token : (Json.str sealing.ownerToken.hex).truthy = true :=
    bne_iff_ne.mpr sealing.ownerToken.nonempty
  simp [sealFits, sealOf, Json.get?, Json.int?, run, workspace, token, positive, later]

/-! ## The log over a run -/

variable {call : OwnerCall} {after db : Database}

theorem OwnerEffect.log {row : RunRow} {before : Database} (effect : OwnerEffect call row before after) :
    ∃ new, after.events = before.events ++ new ∧ ∀ event ∈ new, Logged call row before event := by
  cases effect with
  | kept runs resources new events logged
  | moved next move runs resources new events logged => exact ⟨new, events, logged⟩
  | registered args now op opened fresh runs resources new events logged
  | transitioned args item now op target runs resources new events logged =>
    exact ⟨new, events, logged⟩

omit [Hashing] in
theorem AcquireEffect.log {store : RunCoordinationStore} {clock : Clock} {args : AcquireArgs}
    {before : Database} {lease : OwnerLease} (effect : AcquireEffect store clock args before after lease) :
    ∃ generation, after.events = before.events ++
      [⟨store.key args.runId, "resume_owner_acquired", acquiredPayload args generation, clock 1⟩] := by
  cases effect with
  | created now expires absent issued runs events => exact ⟨1, events⟩
  | resumed row now expires found resumable issued runs events => exact ⟨row.generation + 1, events⟩

/-- The log is append-only. -/
theorem events_step (db : Database) (call : StoreCall) :
    db.events <+: (storeMachine.step db call).events := by
  change db.events <+: (commit (call.apply db) db).events
  rcases commit_cases (call.apply db) db with ⟨fault, _, same⟩ | ⟨reply, accepted⟩
  · exact same.symm ▸ List.prefix_rfl
  generalize commit (call.apply db) db = after at accepted
  cases call with
  | acquire store clock args =>
    rcases Transaction.answer_ok accepted with ⟨lease, inner, _⟩
    rcases (acquire_effect inner).2.2.log with ⟨generation, events⟩
    exact ⟨_, events.symm⟩
  | owner call =>
    rcases call.apply_effect accepted with ⟨row, found, owner, effect⟩
    rcases effect.log with ⟨new, events, _⟩
    exact ⟨new, events.symm⟩

theorem events_run (db : Database) (calls : List StoreCall) :
    db.events <+: (storeMachine.run db calls).events :=
  storeMachine.related_run (fun before after => before.events <+: after.events)
    (fun _ => List.prefix_rfl) (fun _ _ _ => List.IsPrefix.trans) events_step db calls

theorem AcquireLogged.step (logged : AcquireLogged db) (coordinated : Coordinated db) (call : StoreCall) :
    AcquireLogged (storeMachine.step db call) := by
  have older := events_step db call
  have kept : ∀ {key row}, db.run? key = some row -> row.ownerToken ≠ "" ->
      0 < row.generation ∧ AcquiredBy key row.generation row.ownerToken (storeMachine.step db call) :=
    fun found token => ⟨(logged _ _ found token).1, (logged _ _ found token).2.mono older⟩
  change AcquireLogged (commit (call.apply db) db)
  change ∀ {key row}, _ -> _ -> _ ∧ AcquiredBy _ _ _ (commit (call.apply db) db) at kept
  rcases commit_cases (call.apply db) db with ⟨fault, _, same⟩ | ⟨reply, accepted⟩
  · rw [same]
    exact logged
  generalize commit (call.apply db) db = after at accepted kept
  intro key row lookup token
  cases call with
  | acquire store clock args =>
    rcases Transaction.answer_ok accepted with ⟨lease, inner, _⟩
    rcases acquire_effect inner with ⟨idle, _, effect⟩
    have shown : ∀ generation, after.events = db.events ++ [⟨store.key args.runId,
        "resume_owner_acquired", acquiredPayload args generation, clock 1⟩] ->
        AcquiredBy (store.key args.runId) generation args.token.hex after := by
      intro generation events
      refine ⟨⟨store.key args.runId, "resume_owner_acquired", acquiredPayload args generation,
        clock 1⟩, mem_eventsOf.mpr ⟨?_, rfl⟩, rfl, args, rfl, rfl⟩
      rw [events]
      exact List.mem_append_right _ (List.mem_singleton_self _)
    by_cases here : key = store.key args.runId
    · subst key
      cases effect with
      | created now expires absent issued runs events =>
        cases Option.some.inj ((run?_of_insert runs).symm.trans lookup)
        exact ⟨Nat.one_pos, shown 1 events⟩
      | resumed existing now expires found resumable issued runs events =>
        cases Option.some.inj ((run?_of_insert runs).symm.trans lookup)
        exact ⟨Nat.succ_pos _, shown _ events⟩
    · cases effect with
      | created now expires absent issued runs events
      | resumed existing now expires found resumable issued runs events =>
        exact kept ((run?_of_insert_ne runs here).symm.trans lookup) token
  | owner call =>
    rcases call.apply_effect accepted with ⟨existing, found, owner, effect⟩
    have held := coordinated.owned call.key existing found (ownerToken_ne_empty owner)
    rcases effect.runs_cases held with runs | ⟨next, update, runs⟩
    · exact kept ((run?_congr runs key).symm.trans lookup) token
    · by_cases here : key = call.key
      · subst key
        cases Option.some.inj ((run?_of_insert runs).symm.trans lookup)
        rcases update.token with same | cleared
        · rw [update.sameGeneration, same]
          exact kept found (ownerToken_ne_empty owner)
        · exact False.elim (token cleared)
      · exact kept ((run?_of_insert_ne runs here).symm.trans lookup) token

theorem Reachable.acquireLogged (reachable : Reachable db) : AcquireLogged db := by
  rcases reachable with ⟨calls, rfl⟩
  have stepwise : ∀ db call, Coordinated db ∧ AcquireLogged db ->
      Coordinated (storeMachine.step db call) ∧ AcquireLogged (storeMachine.step db call) :=
    fun db call holds => ⟨holds.1.step call, holds.2.step holds.1 call⟩
  have initially : AcquireLogged Database.empty := by
    intro _ _ impossible
    cases impossible
  exact (storeMachine.invariant_run stepwise ⟨Coordinated.empty, initially⟩ calls).2

/-- The seals that `checkpoint_seal` returned for a run during an execution. -/
def Returned (key : RunKey) (calls : List StoreCall) (sealed : Json) : Prop :=
  ∃ before, ∃ call : OwnerCall, ∃ rest after,
    calls = before ++ .owner call :: rest ∧ call.key = key ∧
      call.apply (storeMachine.run Database.empty before) = .ok (.sealed sealed, after)

/-- The payloads that `record_event` wrote for a run under the type of the
seals. -/
def RecordedAsSeal (key : RunKey) (calls : List StoreCall) (payload : Json) : Prop :=
  ∃ before, ∃ call : OwnerCall, ∃ rest after,
    calls = before ++ .owner call :: rest ∧ call.key = key ∧
      call.op = .recordEvent "checkpoint_sealed" payload ∧
      call.apply (storeMachine.run Database.empty before) = .ok (.done, after)

theorem checkpointSeal_reply {row : RunRow} {reply : Reply} (op : call.op = .checkpointSeal)
    (found : db.run? call.key = some row) (accepted : call.apply db = .ok (reply, after)) :
    reply = .sealed (sealOf call.lease row (db.resourcesOf call.key)) := by
  rcases call with ⟨store, clock, lease, called⟩
  subst op
  rcases Transaction.answer_ok accepted with ⟨sealed, inner, rfl⟩
  rcases owned_ok inner with ⟨existing, lookup, _, body⟩
  cases Option.some.inj (found.symm.trans lookup)
  split at body
  · cases body
  cases body
  rfl

theorem recordEvent_reply {reply : Reply} {eventType : String} {payload : Json}
    (op : call.op = .recordEvent eventType payload) (accepted : call.apply db = .ok (reply, after)) :
    reply = .done := by
  rcases call with ⟨store, clock, lease, called⟩
  subst op
  unfold OwnerCall.apply at accepted
  rcases Transaction.answer_ok accepted with ⟨_, _, rfl⟩
  rfl

/-- Each step that adds a sealing event to the log of a run is a seal or a
recorded event. -/
theorem sealLogged_step (key : RunKey) (db : Database) (call : StoreCall) (payload : Json)
    (logged : SealLogged key (storeMachine.step db call) payload) :
    SealLogged key db payload ∨ ∃ owner : OwnerCall, ∃ after,
      call = .owner owner ∧ owner.key = key ∧
        (owner.apply db = .ok (.sealed payload, after) ∨
          (owner.op = .recordEvent "checkpoint_sealed" payload ∧
            owner.apply db = .ok (.done, after))) := by
  rcases logged with ⟨event, member, type, rfl⟩
  change event ∈ (commit (call.apply db) db).eventsOf key at member
  rcases commit_cases (call.apply db) db with ⟨fault, _, same⟩ | ⟨reply, accepted⟩
  · rw [same] at member
    exact Or.inl ⟨event, member, type, rfl⟩
  generalize commit (call.apply db) db = after at accepted member
  rcases mem_eventsOf.mp member with ⟨logged, own⟩
  cases call with
  | acquire store clock args =>
    rcases Transaction.answer_ok accepted with ⟨lease, inner, _⟩
    rcases (acquire_effect inner).2.2.log with ⟨generation, events⟩
    rw [events] at logged
    rcases List.mem_append.mp logged with earlier | new
    · exact Or.inl ⟨event, mem_eventsOf.mpr ⟨earlier, own⟩, type, rfl⟩
    · rw [List.mem_singleton.mp new] at type
      have different : "resume_owner_acquired" ≠ "checkpoint_sealed" := by decide
      exact absurd type different
  | owner call =>
    change call.apply db = .ok (reply, after) at accepted
    rcases call.apply_effect accepted with ⟨row, found, owner, effect⟩
    rcases effect.log with ⟨added, events, origin⟩
    rw [events] at logged
    rcases List.mem_append.mp logged with earlier | new
    · exact Or.inl ⟨event, mem_eventsOf.mpr ⟨earlier, own⟩, type, rfl⟩
    · have fresh := origin event new
      refine Or.inr ⟨call, after, rfl, fresh.own.symm.trans own, ?_⟩
      rcases fresh.sealed type with ⟨op, payload⟩ | op
      · rw [payload, accepted, checkpointSeal_reply op found accepted]
        exact Or.inl rfl
      · rw [accepted, recordEvent_reply op accepted]
        exact Or.inr ⟨op, rfl⟩

theorem sealLogged_run {key : RunKey} {calls : List StoreCall} {payload : Json}
    (logged : SealLogged key (storeMachine.run Database.empty calls) payload) :
    Returned key calls payload ∨ RecordedAsSeal key calls payload := by
  rcases storeMachine.traced_run (sealLogged_step key) Database.empty calls payload logged with ⟨event, impossible, _⟩ | ⟨before, call, rest, split, owner, after, rfl, own, made⟩
  · cases impossible
  · rcases made with sealed | ⟨op, recorded⟩
    · exact Or.inl ⟨before, owner, rest, after, split, own, sealed⟩
    · exact Or.inr ⟨before, owner, rest, after, split, own, op, recorded⟩

/-- What an accepted `checkpoint_seal` leaves behind. -/
theorem checkpointSeal_logged {sealed : Json} (accepted : call.apply db = .ok (.sealed sealed, after)) :
    SealLogged call.key after sealed ∧ ∃ row,
      db.run? call.key = some row ∧ call.lease.owns row = true ∧
        sealed = sealOf call.lease row (db.resourcesOf call.key) := by
  rcases call with ⟨store, clock, lease, op⟩
  cases op with
  | checkpointSeal =>
    rcases Transaction.answer_ok accepted with ⟨value, inner, same⟩
    cases same
    rcases owned_ok inner with ⟨row, found, owner, body⟩
    split at body
    · cases body
    cases body
    refine ⟨⟨⟨store.key lease.runId, "checkpoint_sealed",
      sealOf lease row (db.resourcesOf (store.key lease.runId)), clock 1⟩,
      mem_eventsOf.mpr ⟨?_, rfl⟩, rfl, rfl⟩, row, found, owner, rfl⟩
    exact List.mem_append_right _ (List.mem_singleton_self _)
  | markRecoveryRequired errorCode | recordEvent eventType payload | finish status errorCode =>
    unfold OwnerCall.apply at accepted
    rcases Transaction.answer_ok accepted with ⟨_, _, impossible⟩
    cases impossible
  | _ =>
    rcases Transaction.answer_ok accepted with ⟨_, _, impossible⟩
    cases impossible

/-- Every seal that `checkpoint_seal` has returned verifies after any later
calls, for every lease of the same run and workspace whose generation is not
smaller; and what equals neither a returned seal of the run nor a payload
recorded under the type of the seals is rejected, for every lease. -/
theorem checkpoint_seal_verifies (calls : List StoreCall) (store : RunCoordinationStore)
    (lease : OwnerLease) :
    let db := storeMachine.run Database.empty calls
    let key := store.key lease.runId
    (∀ before (call : OwnerCall) rest sealed after, calls = before ++ .owner call :: rest ->
      call.apply (storeMachine.run Database.empty before) = .ok (.sealed sealed, after) ->
      call.key = key -> call.lease.workspaceId = lease.workspaceId ->
      call.lease.generation ≤ lease.generation ->
      store.verifyCheckpointSeal lease sealed db = .ok ()) ∧
    ∀ sealed, (∀ returned, Returned key calls returned -> returned.same sealed = false) ->
      (∀ payload, RecordedAsSeal key calls payload -> payload.same sealed = false) ->
      ∃ fault, store.verifyCheckpointSeal lease sealed db = .error fault := by
  intro db key
  constructor
  · intro before call rest sealed after split accepted own workspace later
    rcases checkpointSeal_logged accepted with ⟨⟨event, member, type, payload⟩, row, found, owner, rfl⟩
    rcases (OwnerLease.owns_iff call.lease row).mp owner with ⟨token, generation⟩
    rcases (Reachable.acquireLogged ⟨before, rfl⟩) call.key row found (ownerToken_ne_empty owner) with
      ⟨positive, acquired⟩
    have since : storeMachine.run after rest = db := by
      change _ = storeMachine.run Database.empty calls
      rw [split, storeMachine.run_append, storeMachine.run_cons]
      change _ = storeMachine.run (commit (call.apply _) _) rest
      rw [accepted]
      rfl
    have whole : storeMachine.run (storeMachine.run Database.empty before) (.owner call :: rest) =
        db := by
      rw [← storeMachine.run_append, ← split]
    rw [generation] at positive acquired
    rw [token] at acquired
    rw [verifyCheckpointSeal_ok_iff, ← (show call.key = store.key lease.runId from own)]
    refine ⟨sealFits_sealOf row _ (congrArg RunKey.runId own).symm workspace.symm positive later,
      ⟨_, ⟨event, eventsOf_mono (since ▸ events_run after rest) member, type, payload⟩,
        same_sealOf _ _ _⟩, ?_⟩
    rcases acquired.mono (whole ▸ events_run _ _) with ⟨event, member, type, args, payload, hex⟩
    exact ⟨event, member, acquiredFor_acquiredPayload type payload rfl (by rw [hex]; rfl)⟩
  · intro sealed different unrecorded
    cases outcome : store.verifyCheckpointSeal lease sealed db with
    | error fault => exact ⟨fault, rfl⟩
    | ok done =>
      rcases ((verifyCheckpointSeal_ok_iff store lease sealed db).mp outcome).2.1 with
        ⟨payload, logged, same⟩
      rcases sealLogged_run logged with returned | recorded
      · exact absurd same (Bool.eq_false_iff.mp (different payload returned))
      · exact absurd same (Bool.eq_false_iff.mp (unrecorded payload recorded))

end Seals

attribute [local instance] Hashing.constant

namespace SharedRoot

/-- A seal that nobody issued. -/
def forged : Json :=
  .obj [("run_id", .str "run"), ("workspace_id", .str "a"), ("owner_token", .str left.hex),
    ("generation", .int 1), ("coordination_revision", .int 7)]

/-- The owner in `a` records an event under the type of the seals. -/
def forgingRun : List StoreCall :=
  [acquireCall "a" left, .owner (ownerCall "a" left (.recordEvent "checkpoint_sealed" forged))]

end SharedRoot

/-- No seal was ever returned for the run, so this one differs from all of
them, and it is accepted. -/
theorem recorded_seal_accepted :
    (∀ returned, ¬ Returned ⟨"a", "run"⟩ SharedRoot.forgingRun returned) ∧
      ((SharedRoot.store "a").verifyCheckpointSeal (SharedRoot.lease "a" SharedRoot.left)
        SharedRoot.forged (storeMachine.run Database.empty SharedRoot.forgingRun)).toBool = true := by
  refine ⟨?_, by decide +kernel⟩
  rintro returned ⟨before, call, rest, after, split, _, accepted⟩
  have only : call = SharedRoot.ownerCall "a" SharedRoot.left
      (.recordEvent "checkpoint_sealed" SharedRoot.forged) := by
    have member : StoreCall.owner call ∈ SharedRoot.forgingRun := by
      rw [split]
      exact List.mem_append_right _ List.mem_cons_self
    rcases List.mem_cons.mp member with impossible | member
    · cases impossible
    · exact StoreCall.owner.inj (List.mem_singleton.mp member)
  subst only
  cases recordEvent_reply rfl accepted

end RunCoordination
end FixLoop
