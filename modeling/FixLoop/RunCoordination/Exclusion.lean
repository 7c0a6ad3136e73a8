import FixLoop.RunCoordination.Effects

namespace FixLoop
namespace RunCoordination

open Library RunCoordinationStore

/-!
# One occupying run in each workspace

The invariant has three parts.  A row sits under its own key; a row with an
owner token is in a status that an owner may hold; and two occupying rows of
one workspace are the same row.  Only `acquire` can make a run occupy its
workspace, because every owner call starts from an owned and therefore
already occupying row.
-/

def RunStatus.held (status : RunStatus) : Bool :=
  status ∈ [.reconciling, .active, .cancelRequested, .cancelling]

theorem RunStatus.occupies_of_held {status : RunStatus} (held : status.held = true) :
    status.occupies = true := by
  cases status <;> first | rfl | cases held

structure Coordinated (db : Database) : Prop where
  keyed : ∀ key row, db.run? key = some row ->
    row.workspaceId = key.workspaceId ∧ row.runId = key.runId
  owned : ∀ key row, db.run? key = some row -> row.ownerToken ≠ "" -> row.status.held = true
  exclusive : ∀ first second left right, db.run? first = some left -> db.run? second = some right ->
      left.workspaceId = right.workspaceId -> left.status.occupies = true ->
      right.status.occupies = true -> first = second

/-- A row is replaced by one that keeps its place, stays occupying or
released, and never loses a generation. -/
structure RowUpdate (row next : RunRow) : Prop where
  workspaceId : next.workspaceId = row.workspaceId
  runId : next.runId = row.runId
  held : next.ownerToken ≠ "" -> next.status.held = true
  generation : row.generation ≤ next.generation
  revision : row.coordinationRevision < next.coordinationRevision

/-- What an owner can do to its row: the generation stays, the token stays or
is cleared, and a recorded cancel request is neither replaced nor followed by
a new activation. -/
structure OwnedUpdate (row next : RunRow) : Prop extends RowUpdate row next where
  sameGeneration : next.generation = row.generation
  token : next.ownerToken = row.ownerToken ∨ next.ownerToken = ""
  cancelKept : row.cancelRequestId ≠ "" -> next.cancelRequestId = row.cancelRequestId
  cancelFirst : next.cancelRequestId ≠ "" -> next.status = .active ->
    row.cancelRequestId ≠ "" ∧ row.status = .active

variable {row next : RunRow} {key : RunKey} {db : Database}

/-- An update that leaves generation, token and a recorded cancel request. -/
theorem OwnedUpdate.of_kept (workspaceId : next.workspaceId = row.workspaceId)
    (runId : next.runId = row.runId) (held : next.status.held = true)
    (generation : next.generation = row.generation)
    (revision : next.coordinationRevision = row.coordinationRevision + 1)
    (token : next.ownerToken = row.ownerToken)
    (cancelKept : row.cancelRequestId ≠ "" -> next.cancelRequestId = row.cancelRequestId)
    (cancelFirst : next.cancelRequestId ≠ "" -> next.status = .active -> row.cancelRequestId ≠ "" ∧ row.status = .active) :
    OwnedUpdate row next :=
  ⟨⟨workspaceId, runId, fun _ => held, Nat.le_of_eq generation.symm,
    Nat.lt_of_lt_of_eq (Nat.lt_succ_self _) revision.symm⟩, generation, Or.inl token, cancelKept,
    cancelFirst⟩

theorem touch_ownedUpdate (held : row.status.held = true) : OwnedUpdate row row.touch :=
  .of_kept rfl rfl held rfl rfl rfl (fun _ => rfl) fun recorded active => ⟨recorded, active⟩

theorem OwnerMove.ownedUpdate {residual : List ResourceRecord} (move : OwnerMove residual row next)
    (held : row.status.held = true) : OwnedUpdate row next := by
  cases move with
  | activated expires updated fenced unrecorded =>
    exact .of_kept rfl rfl rfl rfl rfl rfl (fun _ => rfl)
      (fun recorded _ => False.elim (recorded unrecorded))
  | renewed expires updated =>
    exact .of_kept rfl rfl held rfl rfl rfl (fun _ => rfl)
      (fun recorded active => ⟨recorded, active⟩)
  | cancelRecorded recorded updated unrecorded nonempty =>
    exact .of_kept rfl rfl rfl rfl rfl rfl (fun impossible => False.elim (impossible unrecorded))
      (fun _ impossible => by cases impossible)
  | cancelResumed updated recorded | cancelling updated =>
    exact .of_kept rfl rfl rfl rfl rfl rfl (fun _ => rfl) fun _ impossible => by cases impossible
  | released status terminalStatus updated ending clean =>
    refine ⟨⟨rfl, rfl, fun impossible => False.elim (impossible rfl), Nat.le_refl _,
      Nat.lt_succ_self _⟩, rfl, Or.inr rfl, fun _ => rfl, ?_⟩
    intro _ active
    have status_eq : status = .active := active
    rw [status_eq] at ending
    exact absurd ending (by decide)

theorem reacquired_rowUpdate (args : AcquireArgs) (now expires : ℚ) (row : RunRow) :
    RowUpdate row (reacquiredRow args now expires row) :=
  ⟨rfl, rfl, fun _ => rfl, Nat.le_succ _, Nat.lt_succ_self _⟩

variable [Hashing]

variable {before after : Database}

/-- An owner call keeps the run table or updates the row it owns. -/
theorem OwnerEffect.runs_cases {call : OwnerCall} (effect : OwnerEffect call row before after)
    (held : row.status.held = true) :
    after.runs = before.runs ∨
      ∃ next, OwnedUpdate row next ∧ after.runs = before.runs.insert call.key next := by
  cases effect with
  | kept runs resources new events logged => exact Or.inl runs
  | moved next move runs resources new events logged =>
    exact Or.inr ⟨next, move.ownedUpdate held, runs⟩
  | registered args now op opened fresh runs resources new events logged
  | transitioned args item now op target runs resources new events logged =>
    exact Or.inr ⟨row.touch, touch_ownedUpdate held, runs⟩

omit [Hashing] in
/-- Replacing an occupying row in place keeps the invariant. -/
theorem Coordinated.update (coordinated : Coordinated before) (found : before.run? key = some row)
    (occupies : row.status.occupies = true) (update : RowUpdate row next)
    (runs : after.runs = before.runs.insert key next) : Coordinated after := by
  have here := run?_of_insert runs
  have elsewhere := fun other (different : other ≠ key) => run?_of_insert_ne runs different
  have place := coordinated.keyed key row found
  refine ⟨?_, ?_, ?_⟩
  · intro other found' lookup
    by_cases same : other = key
    · subst other
      cases Option.some.inj (here.symm.trans lookup)
      exact ⟨update.workspaceId.trans place.1, update.runId.trans place.2⟩
    · exact coordinated.keyed other found' ((elsewhere other same).symm.trans lookup)
  · intro other found' lookup token
    by_cases same : other = key
    · subst other
      cases Option.some.inj (here.symm.trans lookup)
      exact update.held token
    · exact coordinated.owned other found' ((elsewhere other same).symm.trans lookup) token
  · intro first second left right leftFound rightFound workspace leftOccupies rightOccupies
    by_cases atFirst : first = key <;> by_cases atSecond : second = key
    · exact atFirst.trans atSecond.symm
    · rw [atFirst] at leftFound
      cases Option.some.inj (here.symm.trans leftFound)
      rw [elsewhere second atSecond] at rightFound
      exact atFirst.trans (coordinated.exclusive key second row right found rightFound
        (update.workspaceId.symm.trans workspace) occupies rightOccupies)
    · rw [atSecond] at rightFound
      cases Option.some.inj (here.symm.trans rightFound)
      rw [elsewhere first atFirst] at leftFound
      exact (coordinated.exclusive first key left row leftFound found
        (workspace.trans update.workspaceId) leftOccupies occupies).trans atSecond.symm
    · rw [elsewhere first atFirst] at leftFound
      rw [elsewhere second atSecond] at rightFound
      exact coordinated.exclusive first second left right leftFound rightFound workspace
        leftOccupies rightOccupies

omit [Hashing] in
/-- A row may be installed when no other run occupies its workspace. -/
theorem Coordinated.install (coordinated : Coordinated before) {store : RunCoordinationStore}
    {runId : String} (idle : store.busy before runId = false)
    (workspace : next.workspaceId = store.workspaceId) (run : next.runId = runId)
    (held : next.status.held = true) (runs : after.runs = before.runs.insert (store.key runId) next) :
    Coordinated after := by
  have here := run?_of_insert runs
  have elsewhere := fun other (different : other ≠ store.key runId) =>
    run?_of_insert_ne runs different
  have unique := (busy_eq_false_iff before store runId).mp idle
  refine ⟨?_, ?_, ?_⟩
  · intro other row lookup
    by_cases same : other = store.key runId
    · subst other
      cases Option.some.inj (here.symm.trans lookup)
      exact ⟨workspace, run⟩
    · exact coordinated.keyed other row ((elsewhere other same).symm.trans lookup)
  · intro other row lookup token
    by_cases same : other = store.key runId
    · subst other
      cases Option.some.inj (here.symm.trans lookup)
      exact held
    · exact coordinated.owned other row ((elsewhere other same).symm.trans lookup) token
  · intro first second left right leftFound rightFound shared leftOccupies rightOccupies
    by_cases atFirst : first = store.key runId <;> by_cases atSecond : second = store.key runId
    · exact atFirst.trans atSecond.symm
    · rw [atFirst] at leftFound
      cases Option.some.inj (here.symm.trans leftFound)
      rw [elsewhere second atSecond] at rightFound
      exact False.elim (atSecond (unique second right rightFound (shared.symm.trans workspace)
        rightOccupies))
    · rw [atSecond] at rightFound
      cases Option.some.inj (here.symm.trans rightFound)
      rw [elsewhere first atFirst] at leftFound
      exact False.elim (atFirst (unique first left leftFound (shared.trans workspace) leftOccupies))
    · rw [elsewhere first atFirst] at leftFound
      rw [elsewhere second atSecond] at rightFound
      exact coordinated.exclusive first second left right leftFound rightFound shared
        leftOccupies rightOccupies

theorem Coordinated.step (coordinated : Coordinated db) (call : StoreCall) :
    Coordinated (storeMachine.step db call) := by
  change Coordinated (commit (call.apply db) db)
  rcases commit_cases (call.apply db) db with ⟨fault, _, same⟩ | ⟨reply, accepted⟩
  · rw [same]
    exact coordinated
  generalize commit (call.apply db) db = after at accepted
  cases call with
  | acquire store clock args =>
    rcases Transaction.answer_ok accepted with ⟨lease, inner, _⟩
    rcases acquire_effect inner with ⟨idle, _, effect⟩
    cases effect with
    | created now expires absent issued runs events =>
      exact coordinated.install idle rfl rfl rfl runs
    | resumed row now expires found resumable issued runs events =>
      rcases coordinated.keyed _ row found with ⟨workspace, run⟩
      have update := reacquired_rowUpdate args now expires row
      exact coordinated.install idle (update.workspaceId.trans workspace)
        (update.runId.trans run) rfl runs
  | owner call =>
    rcases call.apply_effect accepted with ⟨row, found, owner, effect⟩
    have held := coordinated.owned call.key row found (ownerToken_ne_empty owner)
    rcases effect.runs_cases held with runs | ⟨next, update, runs⟩
    · refine ⟨?_, ?_, ?_⟩
      · intro key row lookup
        exact coordinated.keyed key row ((run?_congr runs key).symm.trans lookup)
      · intro key row lookup token
        exact coordinated.owned key row ((run?_congr runs key).symm.trans lookup) token
      · intro first second left right leftFound rightFound
        exact coordinated.exclusive first second left right
          ((run?_congr runs first).symm.trans leftFound)
          ((run?_congr runs second).symm.trans rightFound)
    · exact coordinated.update found (RunStatus.occupies_of_held held) update.toRowUpdate runs

omit [Hashing] in
theorem Coordinated.empty : Coordinated Database.empty := by
  refine ⟨?_, ?_, ?_⟩
  · intro _ _ impossible
    cases impossible
  · intro _ _ impossible
    cases impossible
  · intro _ _ _ _ impossible
    cases impossible

theorem Reachable.coordinated (reachable : Reachable db) : Coordinated db := by
  rcases reachable with ⟨calls, rfl⟩
  exact storeMachine.invariant_run (fun _ call holds => holds.step call) Coordinated.empty calls

/-- A call leaves the row of a run, creates it, gives it a new owner or
updates it for the owner it has. -/
inductive RowChange (key : RunKey) (before after : Database) : Prop
  | same (kept : after.run? key = before.run? key)
  | created (store : RunCoordinationStore) (args : AcquireArgs) (now expires : ℚ)
      (absent : before.run? key = none) (later : after.run? key = some (store.freshRow args now expires))
  | reacquired (args : AcquireArgs) (now expires : ℚ) (row : RunRow)
      (found : before.run? key = some row) (resumable : row.status ∉ [RunStatus.cancelled, .failed])
      (later : after.run? key = some (reacquiredRow args now expires row))
  | updated (row next : RunRow) (found : before.run? key = some row)
      (later : after.run? key = some next) (update : OwnedUpdate row next)

/-- The inversion of every store call, seen from one run. -/
theorem row_change (coordinated : Coordinated db) (call : StoreCall) (key : RunKey) :
    RowChange key db (storeMachine.step db call) := by
  change RowChange key db (commit (call.apply db) db)
  rcases commit_cases (call.apply db) db with ⟨fault, _, same⟩ | ⟨reply, accepted⟩
  · rw [same]
    exact .same rfl
  generalize commit (call.apply db) db = after at accepted
  cases call with
  | acquire store clock args =>
    rcases Transaction.answer_ok accepted with ⟨lease, inner, _⟩
    rcases acquire_effect inner with ⟨idle, _, effect⟩
    by_cases here : key = store.key args.runId
    · subst key
      cases effect with
      | created now expires absent issued runs events =>
        exact .created store args now expires absent (run?_of_insert runs)
      | resumed row now expires found resumable issued runs events =>
        exact .reacquired args now expires row found resumable (run?_of_insert runs)
    · cases effect with
      | created now expires absent issued runs events
      | resumed row now expires found resumable issued runs events =>
        exact .same (run?_of_insert_ne runs here)
  | owner call =>
    rcases call.apply_effect accepted with ⟨row, found, owner, effect⟩
    have held := coordinated.owned call.key row found (ownerToken_ne_empty owner)
    rcases effect.runs_cases held with runs | ⟨next, update, runs⟩
    · exact .same (run?_congr runs key)
    · by_cases here : key = call.key
      · subst key
        exact .updated row next found (run?_of_insert runs) update
      · exact .same (run?_of_insert_ne runs here)

/-! ## Generations and revisions -/

/-- A run row is the same or has a larger revision and no smaller generation. -/
def RowAdvance (row next : RunRow) : Prop :=
  next = row ∨
    (row.generation ≤ next.generation ∧ row.coordinationRevision < next.coordinationRevision)

omit [Hashing] in
theorem RowAdvance.trans {first second third : RunRow} (left : RowAdvance first second)
    (right : RowAdvance second third) : RowAdvance first third := by
  rcases left with rfl | left
  · exact right
  · rcases right with rfl | right
    · exact Or.inr left
    · exact Or.inr ⟨left.1.trans right.1, left.2.trans right.2⟩

omit [Hashing] in
theorem RowUpdate.advance (update : RowUpdate row next) : RowAdvance row next :=
  Or.inr ⟨update.generation, update.revision⟩

theorem row_advance_step (coordinated : Coordinated db) (call : StoreCall) (found : db.run? key = some row) :
    ∃ next, (storeMachine.step db call).run? key = some next ∧ RowAdvance row next := by
  cases row_change coordinated call key with
  | same kept => exact ⟨row, kept.trans found, Or.inl rfl⟩
  | created store args now expires absent later => cases absent.symm.trans found
  | reacquired args now expires existing lookup resumable later =>
    cases Option.some.inj (found.symm.trans lookup)
    exact ⟨_, later, (reacquired_rowUpdate args now expires row).advance⟩
  | updated existing next lookup later update =>
    cases Option.some.inj (found.symm.trans lookup)
    exact ⟨next, later, update.toRowUpdate.advance⟩

theorem row_advance_run (coordinated : Coordinated db) (calls : List StoreCall)
    (found : db.run? key = some row) :
    ∃ next, (storeMachine.run db calls).run? key = some next ∧ RowAdvance row next := by
  induction calls generalizing db row with
  | nil => exact ⟨row, found, Or.inl rfl⟩
  | cons call rest ih =>
    rcases row_advance_step coordinated call found with ⟨middle, lookup, first⟩
    rcases ih (coordinated.step call) lookup with ⟨next, last, second⟩
    exact ⟨next, last, first.trans second⟩

/-- In every execution of any number of processes, a workspace has at most
one occupying run; and from any point of it on, a run keeps its row, its
generation does not decrease, and whenever its status or owner has changed
its revision has strictly increased. -/
theorem workspace_exclusion (calls : List StoreCall) :
    (∀ first second left right, (storeMachine.run Database.empty calls).run? first = some left ->
      (storeMachine.run Database.empty calls).run? second = some right ->
      left.workspaceId = right.workspaceId -> left.status.occupies = true ->
      right.status.occupies = true -> first = second) ∧
    ∀ (later : List StoreCall) key row,
      (storeMachine.run Database.empty calls).run? key = some row ->
      ∃ next, (storeMachine.run Database.empty (calls ++ later)).run? key = some next ∧
        row.generation ≤ next.generation ∧
        (next.status ≠ row.status ∨ next.ownerToken ≠ row.ownerToken ∨
          next.ownerIdentity ≠ row.ownerIdentity ->
          row.coordinationRevision < next.coordinationRevision) := by
  have coordinated := Reachable.coordinated ⟨calls, rfl⟩
  refine ⟨coordinated.exclusive, ?_⟩
  intro later key row found
  rcases row_advance_run coordinated later found with ⟨next, lookup, advance⟩
  rw [← storeMachine.run_append] at lookup
  refine ⟨next, lookup, ?_⟩
  rcases advance with rfl | ⟨generation, revision⟩
  · exact ⟨Nat.le_refl _, fun changed => by simp only [ne_eq, not_true_eq_false, or_self] at changed⟩
  · exact ⟨generation, fun _ => revision⟩

end RunCoordination
end FixLoop
