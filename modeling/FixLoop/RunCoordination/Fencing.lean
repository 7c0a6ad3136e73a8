import FixLoop.RunCoordination.Exclusion

namespace FixLoop
namespace RunCoordination

open Library RunCoordinationStore

/-!
# The owner fence

A lease is current for a run while the run row carries its token and its
generation.  A call through a lease that is not current is rejected, and a
call of another run leaves this run alone, with one exception: a resource is
addressed by its identifier and compared with the lease by `run_id` only, so
a lease of another workspace's run with the same `run_id` can reach it.
-/

/-- The run row, the resource rows and the event log of a run are the same. -/
structure SameRun (key : RunKey) (before after : Database) : Prop where
  row : after.run? key = before.run? key
  resources : ∀ resourceId record, record.runKey = key ->
    (after.resource? resourceId = some record <-> before.resource? resourceId = some record)
  events : after.eventsOf key = before.eventsOf key

theorem SameRun.refl (key : RunKey) (db : Database) : SameRun key db db :=
  ⟨rfl, fun _ _ _ => Iff.rfl, rfl⟩

variable {key : RunKey}

theorem SameRun.trans {first second third : Database} (left : SameRun key first second)
    (right : SameRun key second third) : SameRun key first third :=
  ⟨right.row.trans left.row, fun resourceId record own =>
    (right.resources resourceId record own).trans (left.resources resourceId record own),
    right.events.trans left.events⟩

/-- The resource that a call updates, if it is a transition that passes all
checks, was registered under the run of the call.  Other calls meet this
trivially. -/
def OwnerCall.keepsToRun (call : OwnerCall) (db : Database) : Bool :=
  match call.op, db.run? call.key with
  | .transitionResource args, some row =>
    !call.lease.owns row ||
      match transitionTarget call.clock call.lease args row db with
      | .ok item => decide (item.runKey = call.key)
      | .error _ => true
  | _, _ => true

def StoreCall.keepsToRun (db : Database) : StoreCall -> Bool
  | acquire _ _ _ => true
  | owner call => call.keepsToRun db

variable {item : ResourceRecord}

theorem OwnerCall.keepsToRun_item {call : OwnerCall} {db : Database} {args : TransitionArgs} {row : RunRow}
    (keeps : call.keepsToRun db = true) (op : call.op = .transitionResource args)
    (found : db.run? call.key = some row) (owner : call.lease.owns row = true)
    (target : transitionTarget call.clock call.lease args row db = .ok item) : item.runKey = call.key := by
  simp only [OwnerCall.keepsToRun, op, found, owner, target, Bool.not_true, Bool.false_or,
    decide_eq_true_eq] at keeps
  exact keeps

theorem transitionTarget_found {clock : Clock} {lease : OwnerLease} {args : TransitionArgs} {row : RunRow}
    {db : Database} (target : transitionTarget clock lease args row db = .ok item) :
    db.resource? args.resourceId = some item ∧ transitionOpen clock args.status row = .ok () := by
  unfold transitionTarget at target
  cases opened : transitionOpen clock args.status row with
  | error fault => simp only [opened, reduceCtorEq] at target
  | ok done =>
    simp only [opened] at target
    cases found : db.resource? args.resourceId with
    | none => simp only [found, reduceCtorEq] at target
    | some record =>
      simp only [found] at target
      split at target
      · cases target
      split at target
      · cases target
      cases target
      exact ⟨rfl, rfl⟩

theorem plannedRecord_runKey (args : RegisterArgs) (lease : OwnerLease) (row : RunRow) (now : ℚ) :
    (plannedRecord args lease row now).runKey = ⟨row.workspaceId, row.runId⟩ := rfl

theorem transitionedRecord_runKey (lease : OwnerLease) (args : TransitionArgs) (now : ℚ)
    (item : ResourceRecord) : (transitionedRecord lease args now item).runKey = item.runKey := rfl

/-- Events appended under another key do not enter the log of a run. -/
theorem eventsOf_append_of_ne {before after : Database} {new : List EventRow}
    (events : after.events = before.events ++ new) (other : ∀ event ∈ new, event.runKey ≠ key) :
    after.eventsOf key = before.eventsOf key := by
  rw [Database.eventsOf, events, List.filter_append, Database.eventsOf]
  have none : new.filter (fun event => event.runKey = key) = [] := by
    apply List.filter_eq_nil_iff.mpr
    intro event member
    simpa only [decide_eq_true_eq] using other event member
  rw [none, List.append_nil]

/-- Replacing a resource of another run by one of that run again. -/
theorem resources_of_insert_ne {before after : Database} {resourceId : String} {record : ResourceRecord}
    (resources : after.resources = before.resources.insert resourceId record) (other : record.runKey ≠ key)
    (old : ∀ item, before.resource? resourceId = some item -> item.runKey ≠ key) :
    ∀ name item, item.runKey = key ->
      (after.resource? name = some item <-> before.resource? name = some item) := by
  intro name item own
  by_cases same : name = resourceId
  · subst name
    rw [resource?_of_insert resources]
    constructor
    · intro equal
      cases Option.some.inj equal
      exact False.elim (other own)
    · intro found
      exact False.elim (old item found own)
  · rw [resource?_of_insert_ne resources same]

section Fence

variable [Hashing]

variable {call : OwnerCall} {key : RunKey} {db : Database}

variable {before after : Database}

/-- The calls of one run leave every other run alone, as long as they keep to
the resources of their own run. -/
theorem OwnerEffect.sameRun {row : RunRow} (effect : OwnerEffect call row before after)
    (coordinated : Coordinated before) (found : before.run? call.key = some row)
    (owner : call.lease.owns row = true) (keeps : call.keepsToRun before = true)
    (different : key ≠ call.key) : SameRun key before after := by
  have foreign : ∀ {new : List EventRow}, (∀ event ∈ new, Logged call row before event) ->
      ∀ event ∈ new, event.runKey ≠ key := by
    intro new logged event member equal
    exact different (equal.symm.trans (logged event member).own)
  cases effect with
  | kept runs resources new events logged =>
    exact ⟨run?_congr runs key, fun name item _ => by rw [resource?_congr resources],
      eventsOf_append_of_ne events (foreign logged)⟩
  | moved next move runs resources new events logged =>
    exact ⟨run?_of_insert_ne runs different, fun name item _ => by rw [resource?_congr resources],
      eventsOf_append_of_ne events (foreign logged)⟩
  | registered args now op opened fresh runs resources new events logged =>
    rcases coordinated.keyed call.key row found with ⟨workspace, run⟩
    refine ⟨run?_of_insert_ne runs different, resources_of_insert_ne resources ?_ ?_,
      eventsOf_append_of_ne events (foreign logged)⟩
    · rw [plannedRecord_runKey, workspace, run]
      exact different.symm
    · intro item impossible
      rw [fresh] at impossible
      cases impossible
  | transitioned args item now op target runs resources new events logged =>
    have own := call.keepsToRun_item keeps op found owner target
    refine ⟨run?_of_insert_ne runs different, resources_of_insert_ne resources ?_ ?_,
      eventsOf_append_of_ne events (foreign logged)⟩
    · rw [transitionedRecord_runKey, own]
      exact different.symm
    · intro other lookup
      cases Option.some.inj ((transitionTarget_found target).1.symm.trans lookup)
      rw [own]
      exact different.symm

theorem OwnerCall.rejected (stale : ∀ row, db.run? call.key = some row -> call.lease.owns row = false) :
    (∃ fault, call.apply db = .error fault) ∧ storeMachine.step db (.owner call) = db := by
  change (∃ fault, call.apply db = .error fault) ∧ commit (call.apply db) db = db
  rcases commit_cases (call.apply db) db with ⟨fault, rejected, same⟩ | ⟨reply, accepted⟩
  · exact ⟨⟨fault, rejected⟩, same⟩
  · rcases call.apply_effect accepted with ⟨row, found, owner, _⟩
    rw [stale row found] at owner
    cases owner

theorem OwnerCall.sameRun_elsewhere (coordinated : Coordinated db) (keeps : call.keepsToRun db = true)
    (different : key ≠ call.key) : SameRun key db (storeMachine.step db (.owner call)) := by
  change SameRun key db (commit (call.apply db) db)
  rcases commit_cases (call.apply db) db with ⟨fault, _, unchanged⟩ | ⟨reply, accepted⟩
  · rw [unchanged]
    exact SameRun.refl _ db
  · rcases call.apply_effect accepted with ⟨row, found, owner, effect⟩
    exact effect.sameRun coordinated found owner keeps different

/-- Whoever calls without the current lease of a run leaves the run alone. -/
theorem sameRun_of_stale (coordinated : Coordinated db) (keeps : call.keepsToRun db = true)
    (stale : call.key = key -> ∀ row, db.run? key = some row -> call.lease.owns row = false) :
    SameRun key db (storeMachine.step db (.owner call)) := by
  by_cases same : call.key = key
  · subst key
    rw [(call.rejected (stale rfl)).2]
    exact SameRun.refl _ db
  · exact call.sameRun_elsewhere coordinated keeps fun equal => same equal.symm

/-! ## A superseded lease stays superseded -/

/-- The run has reached the generation, and within it carries the token that
was issued with it or none. -/
def Issued (key : RunKey) (generation : Nat) (token : String) (db : Database) : Prop :=
  ∃ row, db.run? key = some row ∧
    (generation < row.generation ∨
      (row.generation = generation ∧ (row.ownerToken = token ∨ row.ownerToken = "")))

theorem Issued.step {generation : Nat} {token : String} (coordinated : Coordinated db)
    (issued : Issued key generation token db) (call : StoreCall) :
    Issued key generation token (storeMachine.step db call) := by
  rcases issued with ⟨row, found, reached⟩
  cases row_change coordinated call key with
  | same kept => exact ⟨row, kept.trans found, reached⟩
  | created store args now expires absent later => cases absent.symm.trans found
  | reacquired args now expires existing lookup resumable later =>
    cases Option.some.inj (found.symm.trans lookup)
    refine ⟨_, later, Or.inl ?_⟩
    rcases reached with beyond | ⟨equal, _⟩
    · exact Nat.lt_succ_of_lt beyond
    · exact equal ▸ Nat.lt_succ_self _
  | updated existing next lookup later update =>
    cases Option.some.inj (found.symm.trans lookup)
    refine ⟨next, later, ?_⟩
    rw [update.sameGeneration]
    rcases reached with beyond | ⟨equal, fenced⟩
    · exact Or.inl beyond
    · refine Or.inr ⟨equal, ?_⟩
      rcases update.token with kept | cleared
      · rw [kept]
        exact fenced
      · exact Or.inr cleared

theorem Issued.run {generation : Nat} {token : String} (coordinated : Coordinated db)
    (issued : Issued key generation token db) (calls : List StoreCall) :
    Issued key generation token (storeMachine.run db calls) := by
  induction calls generalizing db with
  | nil => exact issued
  | cons call rest ih => exact ih (coordinated.step call) (issued.step coordinated call)

omit [Hashing] in
theorem acquire_issued {store : RunCoordinationStore} {clock : Clock} {args : AcquireArgs}
    {lease : OwnerLease} (accepted : store.acquire clock args before = .ok (lease, after)) :
    Issued (store.key args.runId) lease.generation lease.ownerToken.hex after := by
  rcases acquire_effect accepted with ⟨idle, _, effect⟩
  cases effect with
  | created now expires absent issued runs events
  | resumed row now expires found resumable issued runs events =>
    subst lease
    exact ⟨_, run?_of_insert runs, Or.inr ⟨rfl, Or.inl rfl⟩⟩

/-- The lease is of an earlier generation, or of this one with another token. -/
def OwnerLease.supersededBy (lease current : OwnerLease) : Prop :=
  lease.generation < current.generation ∨
    (lease.generation = current.generation ∧ lease.ownerToken.hex ≠ current.ownerToken.hex)

omit [Hashing] in
theorem Issued.not_owns {current lease : OwnerLease}
    (issued : Issued key current.generation current.ownerToken.hex db)
    (superseded : lease.supersededBy current) :
    ∀ row, db.run? key = some row -> lease.owns row = false := by
  intro row found
  apply Bool.eq_false_iff.mpr
  intro owner
  rcases (OwnerLease.owns_iff lease row).mp owner with ⟨token, generation⟩
  rcases issued with ⟨existing, lookup, reached⟩
  cases Option.some.inj (found.symm.trans lookup)
  rcases superseded with earlier | ⟨equal, different⟩
  · rcases reached with later | ⟨here, _⟩ <;> omega
  · rcases reached with later | ⟨_, same | cleared⟩
    · omega
    · exact different (token.symm.trans same)
    · exact lease.ownerToken.nonempty (token.symm.trans cleared)

/-! ## From a release to the next acquisition -/

/-- The call gives the run a new owner. -/
def StoreCall.acquires (key : RunKey) (db : Database) : StoreCall -> Bool
  | acquire store clock args =>
    store.key args.runId = key && (store.acquire clock args db).toBool
  | owner _ => false

/-- The run exists and its owner token has been cleared. -/
def Released (key : RunKey) (db : Database) : Prop :=
  ∃ row, db.run? key = some row ∧ row.ownerToken = ""

omit [Hashing] in
theorem Released.not_owns (released : Released key db) (lease : OwnerLease) :
    ∀ row, db.run? key = some row -> lease.owns row = false := by
  intro row found
  apply Bool.eq_false_iff.mpr
  intro owner
  rcases released with ⟨existing, lookup, cleared⟩
  cases Option.some.inj (found.symm.trans lookup)
  exact ownerToken_ne_empty owner cleared

omit [Hashing] in
theorem Released.of_sameRun (released : Released key before) (same : SameRun key before after) :
    Released key after := by
  rcases released with ⟨row, found, cleared⟩
  exact ⟨row, same.row.trans found, cleared⟩

theorem reconciling_of_acquire {store : RunCoordinationStore} {clock : Clock} {args : AcquireArgs}
    (claimed : (StoreCall.acquire store clock args).acquires key db = true) :
    ∃ row, (storeMachine.step db (.acquire store clock args)).run? key = some row ∧
      row.status = .reconciling := by
  rw [StoreCall.acquires, Bool.and_eq_true, decide_eq_true_eq] at claimed
  rcases claimed with ⟨rfl, accepted⟩
  change ∃ row, (commit ((store.acquire clock args db).answer .lease) db).run? _ =
    some row ∧ row.status = .reconciling
  cases outcome : store.acquire clock args db with
  | error fault =>
    rw [outcome] at accepted
    cases accepted
  | ok result =>
    rcases acquire_effect outcome with ⟨idle, _, effect⟩
    cases effect with
    | created now expires absent issued runs events => exact ⟨_, run?_of_insert runs, rfl⟩
    | resumed row now expires found resumable issued runs events =>
      exact ⟨_, run?_of_insert runs, rfl⟩

theorem sameRun_of_acquire (store : RunCoordinationStore) (clock : Clock) (args : AcquireArgs)
    (elsewhere : (StoreCall.acquire store clock args).acquires key db = false) :
    SameRun key db (storeMachine.step db (.acquire store clock args)) := by
  change SameRun key db (commit ((StoreCall.acquire store clock args).apply db) db)
  rcases commit_cases ((StoreCall.acquire store clock args).apply db) db with
    ⟨fault, _, unchanged⟩ | ⟨reply, accepted⟩
  · rw [unchanged]
    exact SameRun.refl key db
  generalize commit ((StoreCall.acquire store clock args).apply db) db = after at accepted
  rcases Transaction.answer_ok accepted with ⟨lease, inner, _⟩
  have different : key ≠ store.key args.runId := by
    intro equal
    rw [StoreCall.acquires, inner, equal] at elsewhere
    simp only [decide_true, Except.toBool, Bool.and_self, Bool.true_eq_false] at elsewhere
  rcases acquire_effect inner with ⟨idle, resources, effect⟩
  cases effect with
  | created now expires absent issued runs events
  | resumed row now expires found resumable issued runs events =>
    refine ⟨run?_of_insert_ne runs different, fun name item _ => by rw [resource?_congr resources],
      eventsOf_append_of_ne events ?_⟩
    intro event member equal
    rw [List.mem_singleton.mp member] at equal
    exact different equal.symm

/-- A released run stands still until it is acquired again. -/
theorem Released.step (released : Released key db) (coordinated : Coordinated db) {call : StoreCall}
    (keeps : call.keepsToRun db = true) (elsewhere : call.acquires key db = false) :
    SameRun key db (storeMachine.step db call) := by
  cases call with
  | acquire store clock args => exact sameRun_of_acquire store clock args elsewhere
  | owner call =>
    exact sameRun_of_stale coordinated keeps fun _ => released.not_owns call.lease

theorem Released.run (released : Released key db) (coordinated : Coordinated db) (calls : List StoreCall)
    (kept : storeMachine.Along (fun db call => call.keepsToRun db = true) db calls)
    (unclaimed : storeMachine.Along (fun db call => call.acquires key db = false) db calls) :
    SameRun key db (storeMachine.run db calls) := by
  induction calls generalizing db with
  | nil => exact SameRun.refl key db
  | cons call rest ih =>
    have first := released.step coordinated kept.1 unclaimed.1
    exact first.trans (ih (released.of_sameRun first) (coordinated.step call) kept.2 unclaimed.2)

/-- The fence over whole executions whose transitions keep to the resources
of their own run.  Let `acquire` have issued a lease of some run.  A later
call of any lease holder that does not present the current lease, in
particular one whose lease is superseded by the issued one, leaves the run
alone, and is rejected without effect if it addresses the run.  After a
release this holds of every lease until the run is acquired again: the run
is then still what it was at the release. -/
theorem owner_fencing (past later : List StoreCall) (store : RunCoordinationStore) (clock : Clock)
    (args : AcquireArgs) (lease : OwnerLease) (after : Database) (call : OwnerCall)
    (kept : storeMachine.Along (fun db call => call.keepsToRun db = true) Database.empty
      (past ++ .acquire store clock args :: later ++ [.owner call]))
    (issued : store.acquire clock args (storeMachine.run Database.empty past) = .ok (lease, after)) :
    let key := store.key args.runId
    let db := storeMachine.run after later
    ((call.key = key -> call.lease.supersededBy lease ∨
        ∀ row, db.run? key = some row -> call.lease.owns row = false) ->
      SameRun key db (storeMachine.step db (.owner call)) ∧
        (call.key = key -> (∃ fault, call.apply db = .error fault) ∧
          storeMachine.step db (.owner call) = db)) ∧
    ∀ before since, later = before ++ since -> Released key (storeMachine.run after before) ->
      storeMachine.Along (fun db call => call.acquires key db = false)
        (storeMachine.run after before) since ->
      SameRun key (storeMachine.run after before) (storeMachine.step db (.owner call)) ∧
        (call.key = key -> (∃ fault, call.apply db = .error fault) ∧
          storeMachine.step db (.owner call) = db) := by
  intro key db
  have acquired : storeMachine.step (storeMachine.run Database.empty past)
      (.acquire store clock args) = after := by
    change commit ((store.acquire clock args _).answer .lease) _ = after
    rw [issued]
    rfl
  have reached : storeMachine.run Database.empty (past ++ .acquire store clock args :: later) = db := by
    rw [storeMachine.run_append, storeMachine.run_cons, acquired]
  have parts := (storeMachine.along_append _ _ _).mp kept
  rw [reached] at parts
  have keeps : call.keepsToRun db = true := parts.2.1
  have coordinatedAfter : Coordinated after := by
    rw [← acquired]
    exact (Reachable.coordinated ⟨past, rfl⟩).step _
  have coordinated : Coordinated db :=
    storeMachine.invariant_run (fun _ call holds => holds.step call) coordinatedAfter later
  constructor
  · intro stale
    have notOwner : call.key = key -> ∀ row, db.run? key = some row ->
        call.lease.owns row = false := by
      intro same
      rcases stale same with superseded | other
      · exact ((acquire_issued issued).run coordinatedAfter later).not_owns superseded
      · exact other
    refine ⟨sameRun_of_stale coordinated keeps notOwner, ?_⟩
    intro same
    exact call.rejected (same ▸ notOwner same)
  · intro before since split released unclaimed
    have keptLater : storeMachine.Along (fun db call => call.keepsToRun db = true) after later := by
      have tail := ((storeMachine.along_append _ _ _).mp parts.1).2.2
      rwa [acquired] at tail
    have keptSince := ((storeMachine.along_append _ _ _).mp (split ▸ keptLater)).2
    have still : SameRun key (storeMachine.run after before) db := by
      change SameRun key _ (storeMachine.run after later)
      rw [split, storeMachine.run_append]
      exact released.run (storeMachine.invariant_run (fun _ call holds => holds.step call)
        coordinatedAfter before) since keptSince unclaimed
    have notOwner := (released.of_sameRun still).not_owns call.lease
    refine ⟨still.trans (sameRun_of_stale coordinated keeps fun _ => notOwner), ?_⟩
    intro same
    exact call.rejected (same ▸ notOwner)

end Fence

/-! ## Two workspaces under one state root -/

namespace SharedRoot

def store (workspaceId : String) : RunCoordinationStore := ⟨workspaceId, "/" ++ workspaceId⟩

def args (token : Uuid) : AcquireArgs :=
  { taskId := "task", runId := "run", leaseSeconds := 30, ownerIdentity := .null, token := token,
    lifecycle := .absent, confirmedExited := fun _ => false }

def left : Uuid := ⟨"a1", by decide⟩

def right : Uuid := ⟨"b1", by decide⟩

/-- The lease of the first generation of `run` in a workspace. -/
def lease (workspaceId : String) (token : Uuid) : OwnerLease := leaseFrom (args token) workspaceId 1 1 30

def acquireCall (workspaceId : String) (token : Uuid) : StoreCall :=
  .acquire (store workspaceId) (fun _ => 0) (args token)

def ownerCall (workspaceId : String) (token : Uuid) (op : OwnerOp) : OwnerCall :=
  ⟨store workspaceId, fun _ => 0, lease workspaceId token, op⟩

def register (resourceId : String) : OwnerOp :=
  .registerResource ⟨resourceId, "sandbox", "write", "", "", .obj [], false⟩

def transition (resourceId : String) (status : ResourceStatus) (cleanup : String) : OwnerOp :=
  .transitionResource ⟨resourceId, status, cleanup, "", "", .obj [], false⟩

/-- Workspace `a` runs a resource of its own. -/
def leftRun : List StoreCall :=
  [acquireCall "a" left, .owner (ownerCall "a" left .activate),
    .owner (ownerCall "a" left (register "x"))]

/-- Workspace `b` starts a run of the same `run_id`. -/
def rightRun : List StoreCall :=
  [acquireCall "b" right, .owner (ownerCall "b" right .activate)]

end SharedRoot

attribute [local instance] Hashing.constant

/-- Two workspaces share a state root, and a run of each is called `run`.
The owner in `b` is no owner of the run in `a`, yet its call is accepted and
starts a resource of that run. -/
theorem owner_fencing_crossed :
    let key : RunKey := ⟨"a", "run"⟩
    let db := storeMachine.run Database.empty (SharedRoot.leftRun ++ SharedRoot.rightRun)
    let call := SharedRoot.ownerCall "b" SharedRoot.right (SharedRoot.transition "x" .running "")
    (db.run? key).map call.lease.owns = some false ∧
      (db.run? key).map RunRow.ownerToken = some SharedRoot.left.hex ∧
      (call.apply db).toBool = true ∧
      (db.resource? "x").map ResourceRecord.runKey = some key ∧
      (db.resource? "x").map ResourceRecord.status = some .planned ∧
      ((storeMachine.step db (.owner call)).resource? "x").map ResourceRecord.status = some .running ∧
      ¬ SameRun key db (storeMachine.step db (.owner call)) := by
  intro key db call
  have own : (db.resource? "x").map ResourceRecord.runKey = some key := by decide +kernel
  have planned : (db.resource? "x").map ResourceRecord.status = some .planned := by decide +kernel
  have running : ((storeMachine.step db (.owner call)).resource? "x").map ResourceRecord.status =
      some .running := by decide +kernel
  refine ⟨by decide +kernel, by decide +kernel, by decide +kernel, own, planned, running, ?_⟩
  intro same
  rcases Option.map_eq_some_iff.mp own with ⟨record, found, keyed⟩
  rw [(same.resources "x" record keyed).mpr found, Option.map_some] at running
  rw [found, Option.map_some] at planned
  exact absurd (planned.symm.trans running) (by decide)

/-- The first lease of a run is superseded by the second one, which was issued
after a release, and is rejected. -/
theorem owner_fencing_superseded :
    let stale := SharedRoot.ownerCall "a" SharedRoot.left .activate
    ∃ fault, stale.apply (storeMachine.run Database.empty
      [SharedRoot.acquireCall "a" SharedRoot.left,
        .owner (SharedRoot.ownerCall "a" SharedRoot.left (.finish .released "")),
        SharedRoot.acquireCall "a" SharedRoot.right]) = .error fault := by
  intro stale
  have fenced := owner_fencing
    [SharedRoot.acquireCall "a" SharedRoot.left,
      .owner (SharedRoot.ownerCall "a" SharedRoot.left (.finish .released ""))] []
    (SharedRoot.store "a") (fun _ => 0) (SharedRoot.args SharedRoot.right)
    (leaseFrom (SharedRoot.args SharedRoot.right) "a" 2 3 (0 + max (1 / 10) 30)) _ stale
    ⟨rfl, rfl, rfl, rfl, True.intro⟩ rfl
  exact ((fenced.1 fun _ => Or.inl (Or.inl (by decide))).2 rfl).1

end RunCoordination
end FixLoop
