import FixLoop.Workbench.Changes

namespace FixLoop
namespace Workbench

open Library
open Library.Statement

/-!
# Every operation is a sequence of changes

One lemma for each operation: what it commits is a sequence of changes of the
history, and an operation on a conversation raises the revision of that
conversation among them.
-/

section Operations

variable {db after : Database} {identity : Id}

theorem inTransaction_ok {Value : Type} {body : Sql Value} {value : Value}
    (committed : inTransaction body db = .ok value after) : body db = .ok value after :=
  (transaction_ok committed).1

variable {row : Conversation} {runId : Id} {value : Unit} {plan : Plan} {expected : Option Int}
  {branch : Branch} {uuids : Uuids} {turn : Node × Run} {args : FinishArgs}

/-- An operation that reads the conversation first finds it present. -/
theorem entered_ok {Value : Type} {rest : Conversation -> Sql Value} {value : Value}
    (returned : inTransaction (conversation identity expected >>= rest) db = .ok value after) :
    ∃ row, identity ∈ db.conversations ∧ (db.conversations.lookup identity = some row ∧
      ∀ revision, expected = some revision -> row.revision = revision) ∧ rest row db = .ok value after := by
  rcases reads_ok (inTransaction_ok returned) conversation_ok with ⟨row, read, returned⟩
  exact ⟨row, Table.mem_of_lookup read.1, read, returned⟩

variable {run : Run} {branchId : Id} {nodeId snapshotId : Option Id}

theorem updateRun_ok {change : Run -> Run} (returned : updateRun runId change db = .ok value after)
    (stored : db.runs.lookup runId = some run) :
    run.status.active = true ∧ after = { db with runs := db.runs.insert runId (change run) } := by
  rcases reads_ok returned require_ok with ⟨_, active, returned⟩
  rw [stored] at active
  refine ⟨active, ?_⟩
  rw [(update_ok returned).2, Table.modify_of_some stored]

theorem bumpProject_change (returned : bumpProject identity db = .ok value after) : Change db after := by
  rw [write_ok returned]
  cases bound : db.projectConversations.lookup identity with
  | none => exact Change.aside (fun _ project stored => ⟨project, stored, Int.le_refl _⟩) (Table.Keeps.refl _)
  | some projectId =>
    refine Change.aside (fun other project stored => ?_) (Table.Keeps.refl _)
    cases known : db.projects.lookup projectId with
    | none =>
      rw [Table.modify_of_none known]
      exact ⟨project, stored, Int.le_refl _⟩
    | some bumped =>
      rw [Table.modify_of_some known]
      by_cases same : other = projectId
      · subst same
        rw [known] at stored
        cases stored
        exact ⟨_, AList.lookup_insert _, Int.le_of_lt (Int.lt_succ _)⟩
      · rw [AList.lookup_insert_ne same]
        exact ⟨project, stored, Int.le_refl _⟩

theorem operation_change (returned : operation plan db = .ok value after) : Change db after := by
  rw [write_ok returned]
  exact Change.aside (fun _ project stored => ⟨project, stored, Int.le_refl _⟩) (Table.Keeps.refl _)

theorem manualCheckpoint_commits {uuid : String} {snapshotId : Id} (present : identity ∈ db.conversations)
    (returned : manualCheckpoint uuid identity branchId snapshotId db = .ok value after) :
    Commits identity db after ∧ after.runs = db.runs := by
  rcases bind_ok returned with ⟨_, _, saved, returned⟩
  rcases pure_ok returned with ⟨-, rfl⟩
  exact checkpoint_commits present saved

theorem renameConversation_commits {title : String}
    (returned : renameConversation identity title expected db = .ok row after) :
    Commits identity db after := by
  rcases skips_ok returned text_ok with ⟨_, returned⟩
  rcases entered_ok returned with ⟨_, present, -, returned⟩
  rcases bind_ok returned with ⟨_, _, renamed, returned⟩
  rcases update_ok renamed with ⟨-, rfl⟩
  rcases bind_ok returned with ⟨_, _, touched, returned⟩
  rcases conversation_ok returned with ⟨-, rfl⟩
  rw [touch_ok touched]
  dsimp only
  rw [modify_modify]
  exact moved_commits present (fun row => Int.lt_succ row.revision) (fun _ => Or.inl rfl)
    (fun _ => Or.inl rfl)

theorem viewNode_commits (returned : viewNode identity nodeId expected db = .ok row after) :
    Commits identity db after := by
  rcases entered_ok returned with ⟨_, present, -, returned⟩
  rcases reads_ok returned nodeNamed_ok with ⟨_, _, returned⟩
  rcases bind_ok returned with ⟨_, _, viewed, returned⟩
  rcases update_ok viewed with ⟨linked, rfl⟩
  rcases bind_ok returned with ⟨_, _, touched, returned⟩
  rcases conversation_ok returned with ⟨-, rfl⟩
  rw [touch_ok touched]
  dsimp only
  rw [modify_modify]
  exact moved_commits present (fun row => Int.lt_succ row.revision) (fun _ => Or.inl rfl)
    (fun _ => Or.inr linked)

theorem switchBranch_commits (returned : switchBranch identity branchId expected db = .ok branch after) :
    Commits identity db after := by
  rcases entered_ok returned with ⟨_, present, -, returned⟩
  rcases reads_ok returned idle_ok with ⟨_, _, returned⟩
  rcases reads_ok returned get_ok with ⟨stored, ⟨listed, owner⟩, returned⟩
  rcases bind_ok returned with ⟨_, _, selected, returned⟩
  rcases pure_ok returned with ⟨-, rfl⟩
  exact select_commits present (Database.hasBranch_iff.mpr ⟨stored, listed, owner identity rfl⟩)
    selected

theorem forkAt_commits {name : String}
    (returned : forkAt uuids identity nodeId name expected db = .ok branch after) :
    Commits identity db after := by
  rcases entered_ok returned with ⟨_, present, -, returned⟩
  rcases reads_ok returned idle_ok with ⟨_, _, returned⟩
  rcases bind_ok returned with ⟨forked, middle, made, returned⟩
  rcases fork_ok made with ⟨added, here, -⟩
  rcases bind_ok returned with ⟨_, _, selected, returned⟩
  rcases pure_ok returned with ⟨-, rfl⟩
  exact (select_commits (added.present present) here selected).of_before (Changes.single added)

theorem inputSnapshot_ok {head given snapshot : Option Id}
    (returned : inputSnapshot identity head given db = .ok snapshot after) : db = after := by
  cases named : given.filter (fun snapshot => snapshot != "") with
  | none =>
    simp only [inputSnapshot, named] at returned
    exact (query_ok returned).2
  | some other =>
    simp only [inputSnapshot, named] at returned
    exact (pure_ok returned).2

theorem appendTurn_commits {userText mode : String}
    (returned : appendTurn uuids identity userText mode snapshotId expected db = .ok turn after) :
    Commits identity db after := by
  rcases entered_ok returned with ⟨_, present, -, returned⟩
  rcases reads_ok returned idle_ok with ⟨_, idle, returned⟩
  rcases reads_ok returned get_ok with ⟨branch, ⟨listed, owner⟩, returned⟩
  rcases bind_ok returned with ⟨snapshot, middle, input, returned⟩
  rcases inputSnapshot_ok input with rfl
  exact appendTurnTo_commits present idle listed (owner identity rfl) returned

theorem appendProjectTurn_commits {userText mode key : String} {manifest : Dict} {manual : Bool}
    (returned : appendProjectTurn uuids identity userText mode key manifest manual expected db = .ok turn after) :
    Commits identity db after := by
  rcases entered_ok returned with ⟨row, present, -, returned⟩
  rcases reads_ok returned idle_ok with ⟨_, idle, returned⟩
  rcases skips_ok returned validateMode_ok with ⟨_, returned⟩
  rcases skips_ok returned text_ok with ⟨_, returned⟩
  rcases bind_ok returned with ⟨snapshot, captured, stored, returned⟩
  rcases insertSnapshot_ok stored with ⟨added, keptRuns⟩
  have capturedPresent := added.present present
  rcases bind_ok returned with ⟨_, saved, checkpointed, returned⟩
  have reached : Changes captured saved ∧ saved.runs = captured.runs := by
    rcases onlyIf_ok checkpointed with ⟨-, rfl⟩ | ⟨-, checkpointed⟩
    · exact ⟨Changes.refl _, rfl⟩
    · rcases manualCheckpoint_commits capturedPresent checkpointed with ⟨commits, kept⟩
      exact ⟨commits.changes, kept⟩
  rcases reads_ok returned get_ok with ⟨branch, ⟨listed, owner⟩, returned⟩
  have still : saved.busy identity = false := by
    rw [Database.busy, reached.2, keptRuns]
    exact idle
  exact (appendTurnTo_commits (reached.1.present capturedPresent) still listed (owner identity rfl)
    returned).of_before ((Changes.single added).trans reached.1)

theorem repeatTurn_commits {nodeId : Id} {userText : Option String} {name : String}
    (returned : repeatTurn uuids identity nodeId userText name expected db = .ok turn after) :
    Commits identity db after := by
  rcases entered_ok returned with ⟨row, present, -, returned⟩
  rcases reads_ok returned idle_ok with ⟨_, idle, returned⟩
  rcases reads_ok returned get_ok with ⟨original, -, returned⟩
  rcases reads_ok returned query_ok with ⟨mode, -, returned⟩
  rcases bind_ok returned with ⟨forked, middle, made, returned⟩
  rcases fork_ok made with ⟨added, here, keptRuns⟩
  rcases reads_ok returned get_ok with ⟨branch, ⟨listed, -⟩, returned⟩
  rcases Database.hasBranch_iff.mp here with ⟨same, stored, owner⟩
  cases Option.some.inj (stored.symm.trans listed)
  have still : middle.busy identity = false := by
    rw [Database.busy, keptRuns]
    exact idle
  exact (appendTurnTo_commits (added.present present) still stored owner returned).of_before
    (Changes.single added)

/-! ## Runs and candidates -/

/-- The conversations of all runs exist. -/
def RunsHomed (db : Database) : Prop :=
  ∀ runId run, db.runs.lookup runId = some run -> run.conversationId ∈ db.conversations

theorem startRun_commits (homed : RunsHomed db) (returned : startRun identity runId db = .ok run after) :
    Commits identity db after := by
  rcases bind_ok (inTransaction_ok returned) with ⟨row, _, read, returned⟩
  rcases get_ok read with ⟨⟨stored, owner⟩, rfl⟩
  rcases reads_ok returned require_ok with ⟨_, queued, returned⟩
  rcases bind_ok returned with ⟨_, _, updated, returned⟩
  rcases updateRun_ok updated stored with ⟨-, rfl⟩
  rcases bind_ok returned with ⟨_, _, touched, returned⟩
  have touched := touch_ok touched
  rcases reads_ok returned get_ok with ⟨started, ⟨found, -⟩, returned⟩
  rcases bind_ok returned with ⟨_, _, logged, returned⟩
  rcases pure_ok returned with ⟨-, rfl⟩
  have logged := (update_ok logged).2
  rw [touched] at found logged
  cases Option.some.inj ((AList.lookup_insert db.runs).symm.trans found)
  have home : identity ∈ db.conversations := owner identity rfl ▸ homed runId row stored
  rw [logged]
  exact Commits.of_before (Changes.single (Change.runStarted stored (beq_iff_eq.mp queued)))
    (touched_commits home)

theorem outputOf_ok {uuid : String} {output : Option Id}
    (returned : outputOf uuid identity args db = .ok output after) :
    Changes db after ∧ after.runs = db.runs := by
  cases captured : args.outputSnapshot with
  | none =>
    simp only [outputOf, captured] at returned
    rcases pure_ok returned with ⟨-, rfl⟩
    exact ⟨Changes.refl db, rfl⟩
  | some contents =>
    simp only [outputOf, captured] at returned
    rcases map_ok returned with ⟨_, inserted, -⟩
    rcases insertSnapshot_ok inserted with ⟨added, kept⟩
    exact ⟨Changes.single added, kept⟩

theorem insertCandidate_ok (returned : insertCandidate identity runId args db = .ok value after) :
    after = db ∨ (args.status = .succeeded ∧ ∃ candidate : Candidate,
      candidate.status = .ready ∧ runId ∉ db.candidates ∧
        after = { db with candidates := db.candidates.insert runId candidate }) := by
  unfold insertCandidate at returned
  cases asked : args.candidate with
  | none =>
    rw [asked] at returned
    exact Or.inl (pure_ok returned).2.symm
  | some given =>
    rw [asked] at returned
    dsimp only at returned
    by_cases succeeded : args.status = .succeeded
    · rw [if_pos succeeded] at returned
      cases captured : args.outputSnapshot with
      | none =>
        rw [captured] at returned
        cases (query_ok returned).1
      | some contents =>
        rw [captured] at returned
        rcases reads_ok returned query_ok with ⟨projectId, -, returned⟩
        rcases insert_ok returned with ⟨fresh, -, rfl⟩
        exact Or.inr ⟨succeeded, _, rfl, of_decide_eq_false fresh, rfl⟩
    · rw [if_neg succeeded] at returned
      cases (query_ok returned).1

theorem finishRun_commits (returned : finishRun uuids identity runId args db = .ok run after) :
    Commits identity db after := by
  rcases reads_ok returned require_ok with ⟨_, terminal, returned⟩
  rcases entered_ok returned with ⟨row, present, -, returned⟩
  rcases skips_ok returned snapshotRef_ok with ⟨_, returned⟩
  rcases reads_ok returned get_ok with ⟨running, ⟨stored, owner⟩, returned⟩
  rcases reads_ok returned require_ok with ⟨_, active, returned⟩
  rcases reads_ok returned require_ok with ⟨_, started, returned⟩
  rcases bind_ok returned with ⟨output, captured, outputted, returned⟩
  rcases outputOf_ok outputted with ⟨outputted, keptRuns⟩
  rcases bind_ok returned with ⟨_, _, updated, returned⟩
  rw [<- keptRuns] at stored
  rcases updateRun_ok updated stored with ⟨-, rfl⟩
  rcases bind_ok returned with ⟨_, _, touched, returned⟩
  have touched := touch_ok touched
  rcases bind_ok returned with ⟨_, _, proposed, returned⟩
  have proposed := insertCandidate_ok proposed
  rw [touched] at proposed
  rcases reads_ok returned get_ok with ⟨finished, ⟨found, -⟩, returned⟩
  rcases bind_ok returned with ⟨_, _, logged, returned⟩
  rcases pure_ok returned with ⟨-, rfl⟩
  have logged := (update_ok logged).2
  have begun : running.status = .queued -> args.status ∈ [RunStatus.cancelled, .interrupted] := by
    intro queued
    by_contra other
    rw [queued, decide_eq_false other] at started
    cases started
  have ended := @Change.runFinished captured runId running (args.set output running) stored active
    terminal begun rfl rfl
  refine Commits.of_before (outputted.trans (Changes.single ended)) ?_
  have here := ended.present (outputted.present present)
  rcases proposed with rfl | ⟨succeeded, candidate, ready, fresh, rfl⟩
  · cases Option.some.inj ((AList.lookup_insert captured.runs).symm.trans found)
    rw [logged]
    exact touched_commits here
  · cases Option.some.inj ((AList.lookup_insert captured.runs).symm.trans found)
    rw [logged]
    refine Commits.of_after (touched_commits here) (Changes.single ?_)
    exact Change.candidateAdded (AList.lookup_insert captured.runs) succeeded fresh ready

theorem settleCandidate_ok {status : CandidateStatus} {operationId : Option Id}
    (returned : settleCandidate runId status operationId db = .ok value after) :
    ∃ candidate, ∃ settled : Candidate,
      db.candidates.lookup runId = some candidate ∧ candidate.status = .ready ∧
        settled.status = status ∧
          after = { db with candidates := db.candidates.insert runId settled } := by
  rcases reads_ok returned require_ok with ⟨_, ready, returned⟩
  rcases Option.any_eq_true _ _ |>.mp ready with ⟨candidate, stored, ready⟩
  refine ⟨candidate, { candidate with
    status := status, operationId := operationId.orElse (fun _ => candidate.operationId) },
    stored, beq_iff_eq.mp ready, rfl, ?_⟩
  rw [write_ok returned, Table.modify_of_some stored]

theorem discardCandidate_commits (homed : RunsHomed db)
    (returned : discardCandidate identity runId db = .ok value after) : Commits identity db after := by
  rcases bind_ok (inTransaction_ok returned) with ⟨row, _, read, returned⟩
  rcases get_ok read with ⟨⟨stored, owner⟩, rfl⟩
  rcases reads_ok returned idle_ok with ⟨_, -, returned⟩
  rcases bind_ok returned with ⟨_, _, settled, returned⟩
  rcases settleCandidate_ok settled with ⟨candidate, settled, listed, ready, discarded, rfl⟩
  rcases bind_ok returned with ⟨_, _, touched, logged⟩
  have touched := touch_ok touched
  have logged := (update_ok logged).2
  rw [touched] at logged
  have home : identity ∈ db.conversations := owner identity rfl ▸ homed runId row stored
  rw [logged]
  exact Commits.of_before (Changes.single (Change.candidateDiscarded listed ready discarded))
    (touched_commits home)

theorem saveResource_change {payload : Json} (returned : saveResource runId payload db = .ok value after) :
    Change db after := by
  rw [(update_ok (inTransaction_ok returned)).2]
  exact Change.aside (fun _ project stored => ⟨project, stored, Int.le_refl _⟩) (Table.Keeps.refl _)

theorem interruptRun_change (returned : interruptRun runId db = .ok value after) : Change db after := by
  rcases bind_ok returned with ⟨_, middle, updated, returned⟩
  rcases bind_ok returned with ⟨interrupted, _, reread, logging⟩
  rcases get_ok reread with ⟨⟨found, -⟩, rfl⟩
  have logged := (update_ok logging).2
  cases stored : db.runs.lookup runId with
  | none =>
    rcases bind_ok updated with ⟨_, _, checked, updated⟩
    rcases require_ok checked with ⟨-, rfl⟩
    rw [(update_ok updated).2, Table.modify_of_none stored] at found
    cases stored.symm.trans found
  | some run =>
    rcases updateRun_ok updated stored with ⟨active, rfl⟩
    cases Option.some.inj ((AList.lookup_insert db.runs).symm.trans found)
    rw [logged]
    exact Change.runFinished stored active rfl 
      (fun _ => List.mem_cons_of_mem _ List.mem_cons_self) rfl rfl

theorem interruptAll_changes {rows : List (Id × Run)} (returned : interruptAll rows db = .ok value after) :
    Changes db after := by
  induction rows generalizing db with
  | nil =>
    rcases pure_ok returned with ⟨-, rfl⟩
    exact Changes.refl db
  | cons run rest ih =>
    rcases bind_ok returned with ⟨_, _, interrupted, returned⟩
    exact (Changes.single (interruptRun_change interrupted)).trans (ih returned)

theorem interruptPendingRuns_commits {runs : List Run}
    (returned : interruptPendingRuns identity db = .ok runs after) :
    Commits identity db after ∨ after = db := by
  rcases entered_ok returned with ⟨row, present, -, returned⟩
  rcases reads_ok returned query_ok with ⟨rows, -, returned⟩
  rcases bind_ok returned with ⟨_, ended, interrupted, returned⟩
  rcases bind_ok returned with ⟨_, _, touched, returned⟩
  rcases query_ok returned with ⟨-, rfl⟩
  have changes := interruptAll_changes interrupted
  rcases onlyIf_ok touched with ⟨none, rfl⟩ | ⟨-, touched⟩
  · cases rows with
    | nil => exact Or.inr (pure_ok interrupted).2.symm
    | cons run rest => cases none
  · exact Or.inl ((touch_commits (changes.present present) touched).of_before changes)

theorem recordSnapshot_commits {storageKey : String} {manifest : Option Dict} {asBaseline : Bool}
    {snapshot : Snapshot}
    (returned : recordSnapshot uuids identity storageKey manifest asBaseline db = .ok snapshot after) :
    Commits identity db after := by
  rcases skips_ok returned text_ok with ⟨_, returned⟩
  rcases entered_ok returned with ⟨row, present, -, returned⟩
  rcases reads_ok returned require_ok with ⟨_, -, returned⟩
  rcases reads_ok returned require_ok with ⟨_, -, returned⟩
  rcases bind_ok returned with ⟨snapshotId, captured, stored, returned⟩
  rcases insertSnapshot_ok stored with ⟨added, -⟩
  rcases bind_ok returned with ⟨_, based, rebased, returned⟩
  rcases bind_ok returned with ⟨_, _, touched, returned⟩
  rcases get_ok returned with ⟨-, rfl⟩
  have changes : Changes db based := by
    refine (Changes.single added).trans ?_
    rcases onlyIf_ok rebased with ⟨-, rfl⟩ | ⟨-, rebased⟩
    · exact Changes.refl _
    · rcases stored_of_present (added.present present) with ⟨row, known⟩
      rw [(update_ok rebased).2, Table.modify_of_some known]
      exact Changes.single (Change.conversationMoved known (Int.le_refl _) (Or.inl rfl) (Or.inl rfl))
  exact (touch_commits (changes.present present) touched).of_before changes

theorem appendLocalCheckpoint_commits {label : String} {node : Node}
    (returned : appendLocalCheckpoint uuids identity snapshotId label expected db = .ok node after) :
    Commits identity db after := by
  rcases skips_ok returned text_ok with ⟨_, returned⟩
  rcases entered_ok returned with ⟨row, present, -, returned⟩
  rcases reads_ok returned idle_ok with ⟨_, -, returned⟩
  rcases skips_ok returned snapshotRef_ok with ⟨_, returned⟩
  rcases reads_ok returned query_ok with ⟨snapshot, -, returned⟩
  exact (checkpoint_commits present returned).1

theorem saveCheckpoint_commits {key : String} {manifest : Dict} {label : String} {node : Node}
    (returned : saveCheckpoint uuids identity key manifest label expected db = .ok node after) :
    Commits identity db after := by
  rcases skips_ok returned text_ok with ⟨_, returned⟩
  rcases entered_ok returned with ⟨row, present, -, returned⟩
  rcases reads_ok returned idle_ok with ⟨_, -, returned⟩
  rcases reads_ok returned require_ok with ⟨_, -, returned⟩
  rcases bind_ok returned with ⟨snapshotId, captured, stored, returned⟩
  rcases insertSnapshot_ok stored with ⟨added, -⟩
  rcases bind_ok returned with ⟨saved, _, checkpointed, returned⟩
  rcases checkpoint_commits (added.present present) checkpointed with ⟨commits, -⟩
  rcases bind_ok returned with ⟨_, _, bumped, returned⟩
  rcases pure_ok returned with ⟨-, rfl⟩
  exact (commits.of_before (Changes.single added)).of_after
    (Changes.single (bumpProject_change bumped))

/-! ## Restores -/

theorem projectAt_ok {stale : String} (returned : projectAt plan stale db = .ok value after) :
    (∃ project, db.projectOf plan.conversationId = some project ∧
      project.revision = plan.projectRevision) ∧ db = after := by
  rcases query_ok returned with ⟨read, same⟩
  refine ⟨?_, same⟩
  cases known : db.projectOf plan.conversationId with
  | none =>
    rw [known] at read
    cases read
  | some project =>
    rw [known] at read
    dsimp only at read
    by_cases current : project.revision = plan.projectRevision
    · exact ⟨project, rfl, current⟩
    · rw [if_neg current] at read
      cases read

theorem saveManual_changes {sourceBranch : Id} (present : plan.conversationId ∈ db.conversations)
    (returned : saveManual uuids plan sourceBranch db = .ok value after) : Changes db after := by
  rcases bind_ok returned with ⟨snapshot, _, stored, returned⟩
  rcases insertSnapshot_ok stored with ⟨added, -⟩
  rcases manualCheckpoint_commits (added.present present) returned with ⟨commits, -⟩
  exact (Changes.single added).trans commits.changes

theorem applyCandidate_change
    (returned : (settleCandidate plan.runId .applied (some plan.id) >>= fun _ => event plan.runId .candidateApplied (.operation plan.id)) db = .ok value after) :
    Change db after := by
  rcases bind_ok returned with ⟨_, _, settled, logged⟩
  rcases settleCandidate_ok settled with ⟨candidate, settled, stored, ready, applied, rfl⟩
  rw [(update_ok logged).2]
  exact Change.candidateApplied stored ready applied

theorem restoreBranch_changes {sourceBranch : Id} (present : plan.conversationId ∈ db.conversations)
    (returned : restoreBranch uuids plan sourceBranch db = .ok branchId after) : Changes db after := by
  unfold restoreBranch at returned
  by_cases applies : plan.action = "candidate"
  · rw [if_pos applies] at returned
    rcases bind_ok returned with ⟨_, _, current, returned⟩
    rcases projectAt_ok current with ⟨-, rfl⟩
    rcases bind_ok returned with ⟨_, _, settled, returned⟩
    rcases bind_ok returned with ⟨_, _, logged, returned⟩
    rcases pure_ok returned with ⟨-, rfl⟩
    exact Changes.single (applyCandidate_change ((bind_of_ok settled).trans logged))
  · rw [if_neg applies] at returned
    by_cases switches : plan.action = "switch" ∧
        ¬(plan.manual = true ∧ plan.branchId = some sourceBranch)
    · rw [if_pos switches] at returned
      rcases reads_ok returned query_ok with ⟨named, -, returned⟩
      rcases reads_ok returned get_ok with ⟨branch, ⟨stored, owner⟩, returned⟩
      rcases bind_ok returned with ⟨_, _, selected, returned⟩
      rcases pure_ok returned with ⟨-, rfl⟩
      exact (select_commits present (Database.hasBranch_iff.mpr ⟨branch, stored, owner _ rfl⟩)
        selected).changes
    · rw [if_neg switches] at returned
      rcases bind_ok returned with ⟨forked, middle, made, returned⟩
      rcases fork_ok made with ⟨added, here, -⟩
      rcases bind_ok returned with ⟨_, _, selected, returned⟩
      rcases pure_ok returned with ⟨-, rfl⟩
      exact (Changes.single added).trans
        (select_commits (added.present present) here selected).changes

/-- The course of a restore that commits: the project is at the revision of
the plan, manual changes are saved, the branch is chosen, the restored state
is saved, and the project moves on. -/
theorem commitRestore_steps (returned : commitRestore uuids plan db = .ok branch after) :
    ∃ row saved branchId moved last, (∃ project, db.projectOf plan.conversationId = some project ∧
          project.revision = plan.projectRevision) ∧
        db.conversations.lookup plan.conversationId = some row ∧ row.revision = plan.revision ∧
          Changes db saved ∧ restoreBranch uuids plan row.activeBranchId saved = .ok branchId moved ∧
            Changes saved moved ∧ Commits plan.conversationId moved last ∧
              bumpProject plan.conversationId last = .ok () after := by
  rcases entered_ok returned with ⟨row, present, ⟨stored, expected⟩, returned⟩
  rcases reads_ok returned idle_ok with ⟨_, -, returned⟩
  rcases bind_ok returned with ⟨_, _, compared, returned⟩
  rcases projectAt_ok compared with ⟨current, rfl⟩
  rcases bind_ok returned with ⟨_, saved, manual, returned⟩
  have saving : Changes db saved := by
    rcases onlyIf_ok manual with ⟨-, rfl⟩ | ⟨-, manual⟩
    · exact Changes.refl _
    · exact saveManual_changes present manual
  rcases bind_ok returned with ⟨branchId, moved, chosen, returned⟩
  have moving := restoreBranch_changes (saving.present present) chosen
  rcases bind_ok returned with ⟨snapshot, _, inserted, returned⟩
  rcases insertSnapshot_ok inserted with ⟨added, -⟩
  rcases bind_ok returned with ⟨_, _, checkpointed, returned⟩
  rcases checkpoint_commits (added.present (moving.present (saving.present present))) checkpointed
    with ⟨commits, -⟩
  rcases bind_ok returned with ⟨_, last, recorded, returned⟩
  rcases bind_ok returned with ⟨_, _, bumped, returned⟩
  rcases get_ok returned with ⟨-, rfl⟩
  exact ⟨row, saved, branchId, moved, last, current, stored, expected _ rfl, saving, chosen, moving,
    (commits.of_before (Changes.single added)).of_after (Changes.single (operation_change recorded)),
    bumped⟩

theorem commitRestore_commits (returned : commitRestore uuids plan db = .ok branch after) :
    Commits plan.conversationId db after := by
  rcases commitRestore_steps returned with
    ⟨row, saved, branchId, moved, last, -, -, -, saving, -, moving, commits, bumped⟩
  exact (commits.of_before (saving.trans moving)).of_after
    (Changes.single (bumpProject_change bumped))

section Creation

variable [Projects]

theorem bindProject_changes {root : String} {rootIdentity : Json} {value : Unit}
    (returned : bindProject identity root rootIdentity db = .ok value after) : Changes db after := by
  rcases reads_ok returned query_ok with ⟨found, -, returned⟩
  rcases bind_ok returned with ⟨_, middle, project, returned⟩
  have first : Changes db middle := by
    rcases onlyIf_ok project with ⟨-, rfl⟩ | ⟨-, project⟩
    · exact Changes.refl _
    · rcases insert_ok project with ⟨fresh, -, rfl⟩
      refine Changes.single (Change.aside (fun other project stored => ?_) (Table.Keeps.refl _))
      exact ⟨project, Table.keeps_insert (of_decide_eq_false fresh) _ other project stored,
        Int.le_refl _⟩
  rcases insert_ok returned with ⟨fresh, -, rfl⟩
  exact first.trans (Changes.single (Change.aside
    (fun _ project stored => ⟨project, stored, Int.le_refl _⟩)
    (Table.keeps_insert (of_decide_eq_false fresh) _)))

variable {root : Option String} {baseline : Option (String × Dict)}

omit [Projects] in
theorem storeBaseline_changes {uuid : String} {value : Unit} (present : identity ∈ db.conversations)
    (returned : storeBaseline uuid identity root baseline db = .ok value after) : Changes db after := by
  cases baseline with
  | none =>
    rcases pure_ok returned with ⟨-, rfl⟩
    exact Changes.refl _
  | some contents =>
    rcases reads_ok returned require_ok with ⟨_, -, returned⟩
    rcases bind_ok returned with ⟨snapshot, _, inserted, returned⟩
    rcases insertSnapshot_ok inserted with ⟨added, -⟩
    rcases stored_of_present (added.present present) with ⟨row, known⟩
    rw [(update_ok returned).2, Table.modify_of_some known]
    exact (Changes.single added).trans (Changes.single
      (Change.conversationMoved known (Int.le_refl _) (Or.inl rfl) (Or.inl rfl)))

theorem createConversation_changes {uuids : Uuids} {title : String} {row : Conversation}
    (returned : createConversation uuids title root baseline db = .ok row after) : Changes db after := by
  rcases skips_ok returned text_ok with ⟨_, returned⟩
  rcases bind_ok returned with ⟨_, middle, checked, returned⟩
  have same : db = middle := by
    cases root with
    | none => exact (pure_ok checked).2
    | some given => exact text_ok checked
  subst same
  rcases bind_ok (inTransaction_ok returned) with ⟨_, _, inserted, returned⟩
  rcases insert_ok inserted with ⟨fresh, -, rfl⟩
  rcases bind_ok returned with ⟨_, _, inserted, returned⟩
  rcases insert_ok inserted with ⟨freshBranch, -, rfl⟩
  have added := @Change.conversationAdded db (newId "conversation" (uuids 0))
    (newId "branch" (uuids 1)) ⟨title, root.map Projects.resolve, none, newId "branch" (uuids 1), none, 0⟩
    ⟨newId "conversation" (uuids 0), "main", none, none⟩ (of_decide_eq_false fresh)
    (of_decide_eq_false freshBranch) rfl rfl rfl rfl
  rcases bind_ok returned with ⟨_, based, baselined, returned⟩
  have basing := (Changes.single added).trans
    (storeBaseline_changes ((AList.mem_insert _).mpr (Or.inl rfl)) baselined)
  rcases bind_ok returned with ⟨_, bound, binding, returned⟩
  rcases conversation_ok returned with ⟨-, rfl⟩
  refine basing.trans ?_
  cases root with
  | none =>
    rcases pure_ok binding with ⟨-, rfl⟩
    exact Changes.refl _
  | some given => exact bindProject_changes binding

end Creation

end Operations

section Committing

variable [Projects] {db after : Database} {call : Call} {identity : Id}

/-- A committed call on a conversation raises its revision, or it changes
nothing and expects no revision. -/
theorem call_commits (homed : RunsHomed db) (on : call.conversationId = some identity)
    (committed : db.commit? call = some after) :
    Commits identity db after ∨ (after = db ∧ call.expectedRevision = none) := by
  have performed := commit?_eq_some.mp committed
  cases call with
  | createConversation => cases on
  | saveResource => cases on
  | renameConversation =>
    cases on
    exact Or.inl (of_map_ok performed renameConversation_commits)
  | viewNode =>
    cases on
    exact Or.inl (of_map_ok performed viewNode_commits)
  | switchBranch =>
    cases on
    exact Or.inl (of_map_ok performed switchBranch_commits)
  | forkAt =>
    cases on
    exact Or.inl (of_map_ok performed forkAt_commits)
  | appendTurn =>
    cases on
    exact Or.inl (of_map_ok performed appendTurn_commits)
  | appendProjectTurn =>
    cases on
    exact Or.inl (of_map_ok performed appendProjectTurn_commits)
  | editTurn =>
    cases on
    rcases map_ok performed with ⟨_, returned, -⟩
    rcases skips_ok returned text_ok with ⟨_, returned⟩
    exact Or.inl (repeatTurn_commits returned)
  | regenerateTurn =>
    cases on
    exact Or.inl (of_map_ok performed repeatTurn_commits)
  | startRun =>
    cases on
    rcases map_ok performed with ⟨_, returned, -⟩
    exact Or.inl (startRun_commits homed returned)
  | finishRun =>
    cases on
    exact Or.inl (of_map_ok performed finishRun_commits)
  | discardCandidate =>
    cases on
    exact Or.inl (discardCandidate_commits homed performed)
  | interruptPendingRuns =>
    cases on
    rcases map_ok performed with ⟨_, returned, -⟩
    rcases interruptPendingRuns_commits returned with commits | same
    · exact Or.inl commits
    · exact Or.inr ⟨same, rfl⟩
  | recordSnapshot =>
    cases on
    exact Or.inl (of_map_ok performed recordSnapshot_commits)
  | appendLocalCheckpoint =>
    cases on
    exact Or.inl (of_map_ok performed appendLocalCheckpoint_commits)
  | saveCheckpoint =>
    cases on
    exact Or.inl (of_map_ok performed saveCheckpoint_commits)
  | commitRestore =>
    cases on
    exact Or.inl (of_map_ok performed commitRestore_commits)

theorem call_changes (homed : RunsHomed db) (committed : db.commit? call = some after) :
    Changes db after := by
  cases on : call.conversationId with
  | some identity =>
    rcases call_commits homed on committed with commits | ⟨rfl, -⟩
    · exact commits.changes
    · exact Changes.refl _
  | none =>
    have performed := commit?_eq_some.mp committed
    cases call with
    | createConversation =>
      rcases map_ok performed with ⟨_, returned, -⟩
      exact createConversation_changes returned
    | saveResource => exact Changes.single (saveResource_change performed)
    | _ => cases on

end Committing

end Workbench
end FixLoop
