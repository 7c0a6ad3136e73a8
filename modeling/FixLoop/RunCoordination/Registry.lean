import FixLoop.RunCoordination.CheckpointSeal

namespace FixLoop
namespace RunCoordination

open Library RunCoordinationStore

/-!
# Nothing registered is lost

A resource of an ended generation is taken over by a replacement owner, but
whoever calls, its row stays and says what was registered.
-/

/-- A later row of a resource.  Another owner has a larger generation. -/
structure ResourceRecord.Kept (record later : ResourceRecord) : Prop where
  columns : (later.resourceId, later.runKey, later.taskId, later.parentId, later.kind, later.effect, later.createdAt) =
    (record.resourceId, record.runKey, record.taskId, record.parentId, record.kind, record.effect, record.createdAt)
  generation : record.generation ≤ later.generation
  owner : later.generation = record.generation -> later.ownerToken = record.ownerToken
  receipt : record.receiptRef ≠ "" -> later.receiptRef ≠ ""

theorem ResourceRecord.Kept.refl (record : ResourceRecord) : record.Kept record := ⟨rfl, le_rfl, fun _ => rfl, id⟩

theorem ResourceRecord.Kept.trans {first second third : ResourceRecord} (before : first.Kept second)
    (after : second.Kept third) : first.Kept third where
  columns := after.columns.trans before.columns
  generation := before.generation.trans after.generation
  owner same := by
    have middle := before.generation
    have last := after.generation
    rw [after.owner (by omega), before.owner (by omega)]
  receipt filled := after.receipt (before.receipt filled)

/-- What a database has registered and logged is in a later one. -/
structure Database.Retains (db later : Database) : Prop where
  events : db.events <+: later.events
  resources : ∀ resourceId record, db.resource? resourceId = some record ->
    ∃ other, later.resource? resourceId = some other ∧ record.Kept other

theorem Database.Retains.trans {first second third : Database} (before : first.Retains second)
    (after : second.Retains third) : first.Retains third := by
  refine ⟨before.events.trans after.events, fun resourceId record found => ?_⟩
  rcases before.resources resourceId record found with ⟨middle, there, kept⟩
  rcases after.resources resourceId middle there with ⟨last, here, still⟩
  exact ⟨last, here, kept.trans still⟩

theorem transitionTarget_kept {clock : Clock} {lease : OwnerLease} {args : TransitionArgs} {row : RunRow}
    {db : Database} {item : ResourceRecord} (target : transitionTarget clock lease args row db = .ok item) (now : ℚ) :
    item.Kept (transitionedRecord lease args now item) := by
  unfold transitionTarget at target
  split at target
  · cases target
  split at target
  · cases target
  split at target
  · cases target
  split at target
  · cases target
  next current =>
  cases target
  refine ⟨rfl, ?_, ?_, fun filled => ?_⟩
  all_goals dsimp only [transitionedRecord]
  · split
    next different =>
      have adopted := by_contra fun refused => current ⟨different, refused⟩
      rw [adoptable, Bool.and_eq_true, decide_eq_true_eq] at adopted
      exact adopted.2.le
    · exact le_rfl
  · split
    next different => exact fun same => absurd same.symm different
    · exact fun _ => rfl
  · split
    · exact filled
    next given => exact given

variable [Hashing]

theorem retains_step (db : Database) (call : StoreCall) : db.Retains (storeMachine.step db call) := by
  refine ⟨events_step db call, fun resourceId record found => ?_⟩
  change ∃ other, (commit (call.apply db) db).resource? resourceId = some other ∧ _
  rcases commit_cases (call.apply db) db with ⟨fault, _, unchanged⟩ | ⟨reply, accepted⟩
  · exact ⟨record, by rw [unchanged, found], .refl record⟩
  generalize commit (call.apply db) db = after at accepted
  cases call with
  | acquire store clock args =>
    rcases Transaction.answer_ok accepted with ⟨lease, inner, _⟩
    exact ⟨record, (resource?_congr (acquire_effect inner).2.1 resourceId).trans found, .refl record⟩
  | owner call =>
    rcases call.apply_effect accepted with ⟨row, _, owner, effect⟩
    cases effect with
    | kept runs resources
    | moved next move runs resources =>
      exact ⟨record, (resource?_congr resources resourceId).trans found, .refl record⟩
    | registered args now op opened fresh runs resources =>
      refine ⟨record, (resource?_of_insert_ne resources ?_).trans found, .refl record⟩
      rintro rfl
      cases fresh.symm.trans found
    | transitioned args item now op target runs resources =>
      by_cases own : resourceId = args.resourceId
      · subst own
        cases (transitionTarget_found target).1.symm.trans found
        exact ⟨_, resource?_of_insert resources, transitionTarget_kept target now⟩
      · exact ⟨record, (resource?_of_insert_ne resources own).trans found, .refl record⟩

/-- In every execution of any number of processes, from any point of it on. -/
theorem registry_retained (db : Database) (calls : List StoreCall) : db.Retains (storeMachine.run db calls) :=
  storeMachine.related_run Database.Retains
    (fun _ => ⟨List.prefix_rfl, fun _ record found => ⟨record, found, .refl record⟩⟩)
    (fun _ _ _ => Database.Retains.trans) retains_step db calls

end RunCoordination
end FixLoop
