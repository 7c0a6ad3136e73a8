import FixLoop.Workbench.History

namespace FixLoop
namespace Workbench

open Library
open Library.Statement

/-!
# Optimistic revisions

A caller that names the revision it has seen holds a ticket for that revision.
The revision of a conversation, the revision of a project and the state of a
candidate each move one way only, so of all callers with the same ticket at
most one commits.
-/

section Forward

variable {db after : Database}

/-- The conversation is beyond a revision. -/
def ConversationPast (identity : Id) (revision : Int) (db : Database) : Prop :=
  ∃ row, db.conversations.lookup identity = some row ∧ revision < row.revision

/-- The project is beyond a revision. -/
def ProjectPast (projectId : Id) (revision : Int) (db : Database) : Prop :=
  ∃ project, db.projects.lookup projectId = some project ∧ revision < project.revision

/-- The candidate of the run is no longer ready. -/
def CandidateSettled (runId : Id) (db : Database) : Prop :=
  ∃ candidate, db.candidates.lookup runId = some candidate ∧ candidate.status ≠ .ready

variable {identity projectId : Id} {row : Conversation}

theorem conversation_advances (change : Change db after)
    (stored : db.conversations.lookup identity = some row) :
    ∃ later, after.conversations.lookup identity = some later ∧
      row.revision ≤ later.revision := by
  cases change with
  | conversationAdded fresh =>
    exact ⟨row, Table.keeps_insert fresh _ _ _ stored, Int.le_refl _⟩
  | @conversationMoved other old moved listed later =>
    by_cases same : identity = other
    · subst same
      cases Option.some.inj (stored.symm.trans listed)
      exact ⟨moved, AList.lookup_insert _, later⟩
    · exact ⟨row, (AList.lookup_insert_ne same).trans stored, Int.le_refl _⟩
  | _ => exact ⟨row, stored, Int.le_refl _⟩

theorem conversation_stays {revision : Int} (changes : Changes db after)
    (past : ConversationPast identity revision db) : ConversationPast identity revision after := by
  refine changes.keeps (fun before next past change => ?_) past
  rcases past with ⟨row, stored, beyond⟩
  rcases conversation_advances change stored with ⟨later, found, onward⟩
  exact ⟨later, found, Int.lt_of_lt_of_le beyond onward⟩

theorem project_stays {revision : Int} (changes : Changes db after)
    (past : ProjectPast projectId revision db) : ProjectPast projectId revision after := by
  refine changes.keeps (fun before next past change => ?_) past
  rcases past with ⟨project, stored, beyond⟩
  cases change with
  | aside advance kept =>
    rcases advance projectId project stored with ⟨later, found, onward⟩
    exact ⟨later, found, Int.lt_of_lt_of_le beyond onward⟩
  | _ => exact ⟨project, stored, beyond⟩

theorem project_advances {project : Project} (changes : Changes db after)
    (stored : db.projects.lookup projectId = some project) :
    ∃ later, after.projects.lookup projectId = some later ∧
      project.revision ≤ later.revision := by
  refine @Changes.keeps (fun db => ∃ later, db.projects.lookup projectId = some later ∧
    project.revision ≤ later.revision) (fun before next reached change => ?_) _ _ changes
    ⟨project, stored, Int.le_refl _⟩
  rcases reached with ⟨middle, listed, onward⟩
  cases change with
  | aside advance kept =>
    rcases advance projectId middle listed with ⟨later, found, further⟩
    exact ⟨later, found, Int.le_trans onward further⟩
  | _ => exact ⟨middle, listed, onward⟩

theorem binding_stays (changes : Changes db after)
    (bound : db.projectConversations.lookup identity = some projectId) :
    after.projectConversations.lookup identity = some projectId := by
  refine @Changes.keeps (fun db => db.projectConversations.lookup identity = some projectId)
    (fun before next bound change => ?_) _ _ changes bound
  cases change with
  | aside advance kept => exact kept identity projectId bound
  | _ => exact bound

theorem candidate_stays {runId : Id} (changes : Changes db after)
    (settled : CandidateSettled runId db) : CandidateSettled runId after := by
  refine changes.keeps (fun before next settled change => ?_) settled
  rcases settled with ⟨candidate, stored, settled⟩
  cases change with
  | candidateAdded listed succeeded fresh ready =>
    exact ⟨candidate, Table.keeps_insert fresh _ _ _ stored, settled⟩
  | @candidateApplied other operationId old new listed ready applied =>
    have apart : runId ≠ other := by
      rintro rfl
      cases Option.some.inj (stored.symm.trans listed)
      exact settled ready
    exact ⟨candidate, (AList.lookup_insert_ne apart).trans stored, settled⟩
  | @candidateDiscarded other old new listed ready =>
    have apart : runId ≠ other := by
      rintro rfl
      cases Option.some.inj (stored.symm.trans listed)
      exact settled ready
    exact ⟨candidate, (AList.lookup_insert_ne apart).trans stored, settled⟩
  | _ => exact ⟨candidate, stored, settled⟩

theorem conversations_advance (changes : Changes db after)
    (stored : db.conversations.lookup identity = some row) :
    ∃ later, after.conversations.lookup identity = some later ∧
      row.revision ≤ later.revision := by
  refine @Changes.keeps (fun db => ∃ later,
    db.conversations.lookup identity = some later ∧ row.revision ≤ later.revision)
    (fun before next reached change => ?_) _ _ changes ⟨row, stored, Int.le_refl _⟩
  rcases reached with ⟨middle, found, onward⟩
  rcases conversation_advances change found with ⟨later, known, further⟩
  exact ⟨later, known, Int.le_trans onward further⟩

/-- A commit on a conversation takes it beyond the revision it had. -/
theorem Commits.raises (commits : Commits identity db after)
    (stored : db.conversations.lookup identity = some row) :
    ConversationPast identity row.revision after := by
  rcases commits with ⟨before, old, moved, earlier, listed, raised, -, later⟩
  rcases conversations_advance earlier stored with ⟨same, found, onward⟩
  cases Option.some.inj (listed.symm.trans found)
  exact conversation_stays later
    ⟨moved, AList.lookup_insert _, Int.lt_of_le_of_lt onward raised⟩

end Forward

section Opening

variable {db after : Database} {identity : Id} {expected : Option Int}

variable {Value : Type}

theorem opened {rest : Conversation -> Sql Value} {value : Value}
    (returned : inTransaction (conversation identity expected >>= rest) db = .ok value after) :
    ∃ row, db.conversations.lookup identity = some row ∧
      ∀ revision, expected = some revision -> row.revision = revision := by
  rcases entered_ok returned with ⟨row, -, read, -⟩
  exact ⟨row, read⟩

theorem opened_checked {value field : String} {rest : Conversation -> Sql Value} {result : Value}
    (returned : (text value field >>= fun _ => inTransaction (conversation identity expected >>= rest)) db = .ok result after) :
    ∃ row, db.conversations.lookup identity = some row ∧
      ∀ revision, expected = some revision -> row.revision = revision := by
  rcases skips_ok returned text_ok with ⟨_, returned⟩
  exact opened returned

theorem opened_run {runId : Id} {rest : Run -> Sql Value} {value : Value} (homed : RunsHomed db)
    (returned : inTransaction (getRun runId (some identity) >>= rest) db = .ok value after) :
    ∃ row, db.conversations.lookup identity = some row ∧
      ∀ revision, none = some revision -> row.revision = revision := by
  rcases reads_ok (inTransaction_ok returned) get_ok with ⟨run, ⟨stored, owner⟩, -⟩
  rcases stored_of_present (owner identity rfl ▸ homed runId run stored) with ⟨row, listed⟩
  exact ⟨row, listed, fun _ impossible => by cases impossible⟩

variable [Projects] {call : Call}

/-- A call commits only on a conversation that is there, at the revision the
caller expects. -/
theorem call_opens (homed : RunsHomed db) (on : call.conversationId = some identity)
    (committed : db.commit? call = some after) :
    ∃ row, db.conversations.lookup identity = some row ∧
      ∀ revision, call.expectedRevision = some revision -> row.revision = revision := by
  have performed := commit?_eq_some.mp committed
  cases call with
  | createConversation => cases on
  | saveResource => cases on
  | renameConversation | editTurn | recordSnapshot | appendLocalCheckpoint | saveCheckpoint =>
    cases on
    exact of_map_ok performed opened_checked
  | startRun =>
    cases on
    exact of_map_ok performed (opened_run homed)
  | finishRun =>
    cases on
    rcases map_ok performed with ⟨_, returned, -⟩
    rcases reads_ok returned require_ok with ⟨_, -, returned⟩
    exact opened returned
  | discardCandidate =>
    cases on
    exact opened_run homed performed
  | _ =>
    cases on
    exact of_map_ok performed opened

end Opening

section Restores

variable {db after : Database} {uuids : Uuids} {plan : Plan} {branch : Branch}

theorem projectOf_eq_some {project : Project} {identity : Id}
    (known : db.projectOf identity = some project) : ∃ projectId,
      db.projectConversations.lookup identity = some projectId ∧
        db.projects.lookup projectId = some project := by
  rcases Option.bind_eq_some_iff.mp known with ⟨projectId, bound, stored⟩
  exact ⟨projectId, bound, stored⟩

theorem bumpProject_ok {identity projectId : Id} {project : Project} {value : Unit}
    (bound : db.projectConversations.lookup identity = some projectId)
    (stored : db.projects.lookup projectId = some project)
    (returned : bumpProject identity db = .ok value after) :
    ProjectPast projectId project.revision after := by
  rw [write_ok returned]
  simp only [bound, Table.modify_of_some stored]
  exact ⟨_, AList.lookup_insert _, Int.lt_succ _⟩

/-- A restore commits at the project revision of its plan and takes the
project beyond it. -/
theorem commitRestore_project (returned : commitRestore uuids plan db = .ok branch after) :
    ∃ projectId project, db.projectConversations.lookup plan.conversationId = some projectId ∧
        db.projects.lookup projectId = some project ∧ project.revision = plan.projectRevision ∧
          ProjectPast projectId plan.projectRevision after := by
  rcases commitRestore_steps returned with
    ⟨row, saved, branchId, moved, last, ⟨project, known, current⟩, -, -, saving, -, moving, commits,
      bumped⟩
  rcases projectOf_eq_some known with ⟨projectId, bound, stored⟩
  have changes := (saving.trans moving).trans commits.changes
  rcases project_advances changes stored with ⟨later, found, onward⟩
  rcases bumpProject_ok (binding_stays changes bound) found bumped with ⟨final, listed, beyond⟩
  exact ⟨projectId, project, bound, stored, current, final, listed,
    current ▸ Int.lt_of_le_of_lt onward beyond⟩

/-- A restore that applies a candidate finds it ready and leaves it settled. -/
theorem commitRestore_candidate (applies : plan.action = "candidate")
    (returned : commitRestore uuids plan db = .ok branch after) :
    ¬CandidateSettled plan.runId db ∧ CandidateSettled plan.runId after := by
  rcases commitRestore_steps returned with
    ⟨row, saved, branchId, moved, last, -, -, -, saving, chosen, -, commits, bumped⟩
  unfold restoreBranch at chosen
  rw [if_pos applies] at chosen
  rcases bind_ok chosen with ⟨_, _, current, chosen⟩
  rcases projectAt_ok current with ⟨-, rfl⟩
  rcases bind_ok chosen with ⟨_, _, settling, chosen⟩
  rcases settleCandidate_ok settling with ⟨candidate, settled, stored, ready, applied, rfl⟩
  rcases bind_ok chosen with ⟨_, _, logged, chosen⟩
  rcases pure_ok chosen with ⟨-, rfl⟩
  constructor
  · intro before
    rcases candidate_stays saving before with ⟨same, listed, unready⟩
    cases Option.some.inj (stored.symm.trans listed)
    exact unready ready
  · refine candidate_stays (commits.changes.trans (Changes.single (bumpProject_change bumped))) ?_
    rw [(update_ok logged).2]
    refine ⟨settled, AList.lookup_insert _, ?_⟩
    rw [applied]
    decide

end Restores

/-! ## At most one caller commits -/

variable [Projects]

/-- The call is on the conversation and expects the revision. -/
def expects (identity : Id) (revision : Int) (met : Database × Call) : Bool :=
  met.2.conversationId == some identity && met.2.expectedRevision == some revision

/-- The call is a restore of a conversation of the project, built on the
project revision. -/
def restores (projectId : Id) (revision : Int) : Database × Call -> Bool
  | (db, .commitRestore _ plan) =>
    db.projectConversations.lookup plan.conversationId == some projectId &&
      plan.projectRevision == revision
  | _ => false

/-- The call is a restore that applies the candidate of the run. -/
def applies (runId : Id) : Database × Call -> Bool
  | (_, .commitRestore _ plan) => plan.action == "candidate" && plan.runId == runId
  | _ => false

/-- The call is a restore that applies some candidate. -/
def appliesSome : Database × Call -> Bool
  | (_, .commitRestore _ plan) => plan.action == "candidate"
  | _ => false

/-- What is promised of the calls made from a database on. -/
structure Serialised (db : Database) (calls : List Call) : Prop where
  rises : ∀ call identity after, call.conversationId = some identity ->
    db.commit? call = some after -> after ≠ db -> ∃ row later,
      db.conversations.lookup identity = some row ∧
        after.conversations.lookup identity = some later ∧ row.revision < later.revision
  refused : ∀ call, db.commit? call = none -> db.after call = db
  oncePerRevision : ∀ identity revision,
    ((Optimistic.commits Database.commit? db calls).filter (expects identity revision)).length ≤ 1
  oncePerProject : ∀ projectId revision,
    ((Optimistic.commits Database.commit? db calls).filter (restores projectId revision)).length ≤ 1
  oneCandidate : ∀ projectId revision, ((Optimistic.commits Database.commit? db calls).filter
      (fun met => appliesSome met && restores projectId revision met)).length ≤ 1
  appliedOnce : ∀ runId,
    ((Optimistic.commits Database.commit? db calls).filter (applies runId)).length ≤ 1

variable {db : Database}

omit [Projects] in
theorem restores_iff {projectId : Id} {revision : Int} {call : Call} :
    restores projectId revision (db, call) = true <-> ∃ uuids plan,
      call = .commitRestore uuids plan ∧
        db.projectConversations.lookup plan.conversationId = some projectId ∧
          plan.projectRevision = revision := by
  constructor
  · intro built
    cases call with
    | commitRestore uuids plan =>
      rw [restores, Bool.and_eq_true, beq_iff_eq, beq_iff_eq] at built
      exact ⟨uuids, plan, rfl, built.1, built.2⟩
    | _ => cases built
  · rintro ⟨uuids, plan, rfl, bound, current⟩
    rw [restores, Bool.and_eq_true, beq_iff_eq, beq_iff_eq]
    exact ⟨bound, current⟩

omit [Projects] in
theorem applies_iff {runId : Id} {call : Call} :
    applies runId (db, call) = true <-> ∃ uuids plan,
      call = .commitRestore uuids plan ∧ plan.action = "candidate" ∧ plan.runId = runId := by
  constructor
  · intro built
    cases call with
    | commitRestore uuids plan =>
      rw [applies, Bool.and_eq_true, beq_iff_eq, beq_iff_eq] at built
      exact ⟨uuids, plan, rfl, built.1, built.2⟩
    | _ => cases built
  · rintro ⟨uuids, plan, rfl, action, run⟩
    rw [applies, Bool.and_eq_true, beq_iff_eq, beq_iff_eq]
    exact ⟨action, run⟩

section Committing

variable {db after : Database} {call : Call}

theorem Consistent.commit (ok : Consistent db) (committed : db.commit? call = some after) :
    Consistent after :=
  (call_changes ok.runs.homed committed).keeps (fun _ _ ok change => ok.change change) ok

theorem expects_held (ok : Consistent db) {identity : Id} {revision : Int}
    (committed : db.commit? call = some after) (holds : expects identity revision (db, call) = true) :
    ¬ConversationPast identity revision db ∧ ConversationPast identity revision after := by
  rw [expects, Bool.and_eq_true, beq_iff_eq, beq_iff_eq] at holds
  rcases call_opens ok.runs.homed holds.1 committed with ⟨row, stored, current⟩
  have same := current revision holds.2
  constructor
  · rintro ⟨other, listed, beyond⟩
    cases Option.some.inj (stored.symm.trans listed)
    exact Int.lt_irrefl _ (same ▸ beyond)
  · rcases call_commits ok.runs.homed holds.1 committed with commits | ⟨-, unexpected⟩
    · exact same ▸ commits.raises stored
    · rw [holds.2] at unexpected
      cases unexpected

theorem restores_held {projectId : Id} {revision : Int} (committed : db.commit? call = some after)
    (holds : restores projectId revision (db, call) = true) :
    ¬ProjectPast projectId revision db ∧ ProjectPast projectId revision after := by
  rcases restores_iff.mp holds with ⟨uuids, plan, rfl, bound, rfl⟩
  rcases map_ok (commit?_eq_some.mp committed) with ⟨branch, returned, -⟩
  rcases commitRestore_project returned with ⟨other, project, found, stored, current, past⟩
  cases Option.some.inj (bound.symm.trans found)
  refine ⟨?_, past⟩
  rintro ⟨same, listed, beyond⟩
  cases Option.some.inj (stored.symm.trans listed)
  exact Int.lt_irrefl _ (current ▸ beyond)

theorem applies_held {runId : Id} (committed : db.commit? call = some after)
    (holds : applies runId (db, call) = true) :
    ¬CandidateSettled runId db ∧ CandidateSettled runId after := by
  rcases applies_iff.mp holds with ⟨uuids, plan, rfl, action, rfl⟩
  rcases map_ok (commit?_eq_some.mp committed) with ⟨branch, returned, -⟩
  exact commitRestore_candidate action returned

end Committing

theorem Consistent.serialised (ok : Consistent db) (calls : List Call) :
    Serialised db calls where
  rises := by
    intro call identity after on committed changed
    rcases call_opens ok.runs.homed on committed with ⟨row, stored, -⟩
    rcases call_commits ok.runs.homed on committed with commits | ⟨same, -⟩
    · rcases commits.raises stored with ⟨later, found, beyond⟩
      exact ⟨row, later, stored, found, beyond⟩
    · exact absurd same changed
  refused := by
    intro call uncommitted
    rcases after_cases db call with ⟨committed, commits, -⟩ | ⟨-, same⟩
    · rw [uncommitted] at commits
      cases commits
    · exact same
  oncePerRevision := fun identity revision =>
    Optimistic.commits_once Database.commit? (fun _ _ _ ok committed => ok.commit committed)
      (fun _ _ _ ok committed past => conversation_stays (call_changes ok.runs.homed committed) past)
      (fun _ _ _ ok committed holds => (expects_held ok committed holds).1)
      (fun _ _ _ ok committed holds => (expects_held ok committed holds).2) calls db ok
  oncePerProject := fun projectId revision =>
    Optimistic.commits_once Database.commit? (fun _ _ _ ok committed => ok.commit committed)
      (fun _ _ _ ok committed past => project_stays (call_changes ok.runs.homed committed) past)
      (fun _ _ _ _ committed holds => (restores_held committed holds).1)
      (fun _ _ _ _ committed holds => (restores_held committed holds).2) calls db ok
  oneCandidate := fun projectId revision =>
    Optimistic.commits_once Database.commit? (fun _ _ _ ok committed => ok.commit committed)
      (fun _ _ _ ok committed past => project_stays (call_changes ok.runs.homed committed) past)
      (fun _ _ _ _ committed holds => (restores_held committed (Bool.and_eq_true_iff.mp holds).2).1)
      (fun _ _ _ _ committed holds => (restores_held committed (Bool.and_eq_true_iff.mp holds).2).2)
      calls db ok
  appliedOnce := fun runId =>
    Optimistic.commits_once Database.commit? (fun _ _ _ ok committed => ok.commit committed)
      (fun _ _ _ ok committed past => candidate_stays (call_changes ok.runs.homed committed) past)
      (fun _ _ _ _ committed holds => (applies_held committed holds).1)
      (fun _ _ _ _ committed holds => (applies_held committed holds).2) calls db ok

/-- From every reachable database, optimistic revisions serialise the calls:
commits raise the revision of their conversation, calls that are refused
change nothing, and of the calls that share a revision, a project revision or
a candidate at most one commits. -/
theorem calls_serialised (earlier calls : List Call) :
    Serialised (workbenchStore.run Database.fresh earlier) calls :=
  (consistent_fresh.run earlier).serialised calls

end Workbench
end FixLoop
