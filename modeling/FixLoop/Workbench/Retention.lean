import FixLoop.Workbench.Revisions

namespace FixLoop
namespace Workbench

open Library

/-!
# Nothing recorded is undone

Rows that are final stay as they are, and the log is only appended to,
whatever calls follow.
-/

variable {db after : Database}

/-- The rows that are final stay as they are. -/
def Finals {Row : Type} (final : Row -> Prop) (rows later : Table Row) : Prop :=
  ∀ key row, rows.lookup key = some row -> final row -> later.lookup key = some row

/-- What a database has recorded is in a later one. -/
structure Retains (db later : Database) : Prop where
  nodes : Table.Keeps db.nodes later.nodes
  snapshots : Table.Keeps db.snapshots later.snapshots
  bindings : Table.Keeps db.projectConversations later.projectConversations
  events : db.events <+: later.events
  ended : Finals (fun run : Run => run.status.terminal = true) db.runs later.runs
  settled : Finals (fun candidate : Candidate => candidate.status ≠ .ready) db.candidates later.candidates

theorem Retains.refl (db : Database) : Retains db db :=
  ⟨.refl _, .refl _, .refl _, List.prefix_rfl, fun _ _ stored _ => stored, fun _ _ stored _ => stored⟩

theorem Retains.trans {first second third : Database} (before : Retains first second)
    (after : Retains second third) : Retains first third where
  nodes := before.nodes.trans after.nodes
  snapshots := before.snapshots.trans after.snapshots
  bindings := before.bindings.trans after.bindings
  events := before.events.trans after.events
  ended key row stored final := after.ended key row (before.ended key row stored final) final
  settled key row stored final := after.settled key row (before.settled key row stored final) final

theorem finals_insert {Row : Type} {rows : Table Row} {final : Row -> Prop} {key : String} {old : Row}
    (stored : rows.lookup key = some old) (unsettled : ¬ final old) (new : Row) :
    Finals final rows (rows.insert key new) := by
  intro other row listed done
  refine (AList.lookup_insert_ne ?_).trans listed
  rintro rfl
  cases stored.symm.trans listed
  exact unsettled done

theorem Change.retains (change : Change db after) : Retains db after := by
  have same := Retains.refl db
  cases change with
  | snapshotAdded absent => exact { same with snapshots := Table.keeps_insert absent _ }
  | checkpointAdded absent => exact { same with nodes := Table.keeps_insert absent _ }
  | turnAdded absent absentRun =>
    exact { same with
      nodes := Table.keeps_insert absent _
      ended key row stored _ := Table.keeps_insert absentRun _ key row stored
      events := List.prefix_append _ _ }
  | runStarted stored queued =>
    exact { same with
      ended := finals_insert stored (by rw [queued]; decide) _
      events := List.prefix_append _ _ }
  | runFinished stored active =>
    exact { same with
      ended := finals_insert stored (by rw [RunStatus.terminal_iff, active]; decide) _
      events := List.prefix_append _ _ }
  | candidateAdded _ _ absent => exact { same with settled := fun key row stored _ => Table.keeps_insert absent _ key row stored }
  | candidateApplied stored ready
  | candidateDiscarded stored ready =>
    exact { same with
      settled := finals_insert stored (absurd ready) _
      events := List.prefix_append _ _ }
  | aside advance kept => exact { same with bindings := kept }
  | _ => exact { same with }

variable [Projects]

/-- Whatever calls follow, nothing that the database has recorded is undone. -/
theorem recorded_retained (earlier later : List Call) :
    Retains (workbenchStore.run Database.fresh earlier) (workbenchStore.run Database.fresh (earlier ++ later)) := by
  rw [Machine.run_append]
  refine (@Machine.invariant_run _ _ workbenchStore
    (fun db => Consistent db ∧ Retains (workbenchStore.run Database.fresh earlier) db)
    (fun db call known => ⟨known.1.after call, known.2.trans ?_⟩) _
    ⟨consistent_fresh.run earlier, Retains.refl _⟩ later).2
  change Retains db (db.after call)
  rcases after_cases db call with ⟨committed, commits, same⟩ | ⟨-, same⟩
  · rw [same]
    exact (call_changes known.1.runs.homed commits).keeps
      (fun _ _ retained change => retained.trans change.retains) (Retains.refl db)
  · rw [same]
    exact Retains.refl db

end Workbench
end FixLoop
