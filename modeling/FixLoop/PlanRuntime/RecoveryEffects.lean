import FixLoop.PlanRuntime.Producers

namespace FixLoop
namespace PlanRuntime

open Library Program

/-!
# The effects of recovery

`recover` goes through the attempts that its journal listed when it started.
A turn works on one attempt only, so the attempts that are still to come, and
the nodes that have failed under them, are as they were.
-/

namespace Setting

variable {setting : Setting} [Hashing] [Decoding] {journal : Journal} {facts : Facts}

/-- What holds between two turns, given the attempts that are still to come. -/
structure Remaining (setting : Setting) (rest : List Attempt) (facts : Facts) : Prop where
  operations : facts.operations = setting.start.facts.operations
  distinct : facts.Distinct
  unique : (rest.map Attempt.attemptId).Nodup
  listed : ∀ attempt ∈ rest, attempt ∈ latest Attempt.attemptId facts.attempts ∧
      attempt ∈ latest Attempt.attemptId setting.start.facts.attempts
  lingering : ∀ plan, facts.plan = some plan -> ∀ node ∈ plan.nodes,
    node.status.Terminal -> ∀ attempt ∈ rest, node.attemptId = attempt.attemptId ->
      ∃ first, setting.start.plan? = some first ∧ node.PresentIn first

variable {node : PlanNode} {plan : Plan} {attempt recorded : Attempt} {later : Facts}

omit [Hashing] [Decoding] in
theorem PresentIn.trans {old : PlanNode} (present : old.PresentIn plan) (name : old.nodeId = node.nodeId)
    (kind : old.kind = node.kind) (status : old.status = node.status)
    (attempt : old.attemptId = node.attemptId) : node.PresentIn plan := by
  rcases present with ⟨first, listed, named, kinds, statuses, attempts⟩
  exact ⟨first, listed, named.trans name, kinds.trans kind, statuses.trans status,
    attempts.trans attempt⟩

variable {rest : List Attempt} {status : NodeStatus} {attemptId : String}

omit [Hashing] [Decoding] in
/-- A turn leaves the attempts that are still to come alone. -/
theorem Remaining.next {after : Facts} (remaining : Remaining setting (attempt :: rest) facts)
    (within : Within attempt.attemptId facts after) : Remaining setting rest after := by
  have unique := remaining.unique
  rw [List.map_cons, List.nodup_cons] at unique
  have other : ∀ next ∈ rest, next.attemptId ≠ attempt.attemptId :=
    fun next member same => unique.1 (same ▸ List.mem_map_of_mem member)
  refine ⟨within.operations.trans remaining.operations, within.distinct remaining.distinct, unique.2,
    ?_, ?_⟩
  · intro next member
    rcases within.attempts with ⟨records, appended, own⟩
    rcases remaining.listed next (List.mem_cons_of_mem _ member) with ⟨listed, first⟩
    refine ⟨?_, first⟩
    rw [appended]
    exact mem_latest_append listed own (other next member)
  · intro plan held node listed terminal next member same
    cases before : facts.plan with
    | none => cases held.symm.trans (within.absent before)
    | some old =>
      rcases within.advanced old before with ⟨later, reached, advance⟩
      cases held.symm.trans reached
      rcases advance.terminal node listed terminal with own | ⟨found, present, name, kind, status, kept⟩
      · exact absurd (same.symm.trans own) (other next member)
      · rcases remaining.lingering old before found present (status ▸ terminal) next
          (List.mem_cons_of_mem _ member) (kept.trans same) with ⟨first, started, was⟩
        exact ⟨first, started, PresentIn.trans was name kind status kept⟩

/-- The attempt of a turn. -/
structure Turn (setting : Setting) (attempt : Attempt) (facts : Facts) : Prop where
  recovering : setting.recovering
  named : attempt.attemptId ≠ ""
  distinct : facts.Distinct
  opened : facts.OpenAttempt attempt

section

omit [Hashing] [Decoding]

/-- The attempt is recorded anew. -/
theorem Turn.follows {next : Attempt} (turn : Turn setting attempt facts)
    (same : next.fixed = attempt.fixed) (later : attempt.phase.rank ≤ next.phase.rank)
    (paused : next.Paused) : setting.Follows facts next := by
  have name : next.attemptId = attempt.attemptId := congrArg Prod.fst same
  exact ⟨name ▸ turn.named, fun _ => ⟨attempt, turn.opened.1, same, later⟩,
    fun _ => ⟨attempt, turn.opened, same⟩, fun _ => paused⟩

/-- The last phase. -/
theorem rank_le_reconciled (phase : Phase) : phase.rank ≤ Phase.reconciled.rank := by
  cases phase <;> decide

theorem rank_le_recorded {phase : Phase} (unreconciled : phase ≠ .reconciled) :
    phase.rank ≤ Phase.resultRecorded.rank := by
  cases phase with
  | reconciled => exact absurd rfl unreconciled
  | _ => decide

theorem Turn.closing (turn : Turn setting attempt facts) (status : String) :
    setting.Follows facts (attempt.reconciled status) :=
  turn.follows rfl (rank_le_reconciled _) fun _ => rank_le_reconciled _

/-- A change of the plan keeps the attempt of the turn open. -/
theorem Turn.within {after : Facts} (turn : Turn setting attempt facts)
    (within : Within attempt.attemptId facts after) (same : after.attempts = facts.attempts) :
    Turn setting attempt after := by
  refine ⟨turn.recovering, turn.named, within.distinct turn.distinct, ?_⟩
  rw [Facts.OpenAttempt, same]
  exact turn.opened

end

theorem giveUp_makes (known : journal.facts = facts) (turn : Turn setting attempt facts) :
    setting.Makes (PlanSession.giveUp attempt) journal (fun _ later =>
      Within attempt.attemptId facts later.facts) := by
  refine ⟨.recorded _ (known ▸ turn.closing "cancelled"), ?_⟩
  have reached := Journal.facts_attempt journal (attempt.reconciled "cancelled")
  change Within attempt.attemptId facts (Journal.facts _)
  rw [reached, known]
  exact .withAttempt facts rfl

theorem steady_askStopped (probed : Bool) (attempt : Attempt) :
    setting.Steady (askStopped probed attempt) := by
  refine steady_ite (steady_question _) ?_
  unfold confirmedExited
  split
  · exact steady_pure _
  · exact steady_pure _
  · exact steady_ite (steady_pure _) ((steady_question _).bind fun _ => steady_pure _)

/-! ## One attempt -/

theorem recoverPreplan_makes (known : journal.facts = facts) (turn : Turn setting attempt facts)
    (probed : Bool) (report : RecoveryReport) :
    setting.Makes (PlanSession.recoverPreplan probed report attempt) journal (fun _ later =>
      Within attempt.attemptId facts later.facts) := by
  refine operationsOf_then known ?_
  refine (steady_askStopped probed attempt).followed known ?_
  intro answer journal known
  split
  · exact Keeps.bind (giveUp_makes known turn) fun _ _ within => within
  · change Within attempt.attemptId facts journal.facts
    rw [known]
    exact .refl facts

/-- The node that the attempt of a turn is about. -/
structure Target (attempt : Attempt) (facts : Facts) (plan : Plan) (node : PlanNode) : Prop where
  held : facts.plan = some plan
  version : attempt.planVersion = plan.planVersion
  located : plan.node attempt.nodeId = .ok node
  own : node.attemptId = "" ∨ node.attemptId = attempt.attemptId

omit [Hashing] [Decoding] in
theorem Target.name (target : Target attempt facts plan node) : node.nodeId = attempt.nodeId :=
  (Plan.node_ok target.located).2

/-- What has been made sure of before a node is taken back. -/
structure Restartable (setting : Setting) (attempt : Attempt) (facts : Facts) (node : PlanNode) :
    Prop where
  unstarted : node.kind = .edit -> attempt.phase = .prepared ∧
    facts.operationsOf attempt.attemptId = [] ∧ Represented facts.operations
  unsettled : attempt.phase = .resultRecorded -> attempt.result.status = "success"
  lingering : node.status.Terminal -> node.attemptId = attempt.attemptId ->
    setting.start.facts.OpenAttempt attempt ∧ ∃ plan,
      setting.start.plan? = some plan ∧ node.PresentIn plan

theorem restart_makes (known : journal.facts = facts) (turn : Turn setting attempt facts)
    (target : Target attempt facts plan node) (restartable : Restartable setting attempt facts node)
    (report : RecoveryReport) (reason : String) :
    setting.Makes (setting.session.restart report node attempt reason) journal (fun _ later =>
      Within attempt.attemptId facts later.facts) := by
  refine Keeps.bind (commitChange_within attempt.attemptId known ?_ ?_) ?_
  · intro current after same accepted
    cases target.held.symm.trans same
    rw [target.name] at accepted
    exact .restarted attempt node reason turn.recovering turn.opened target.located
      restartable.unstarted restartable.unsettled restartable.lingering accepted
  · intro current after same accepted
    exact restartSafe_advance (turn.distinct current same) accepted
  rintro _ journal ⟨within, same⟩
  refine Keeps.bind (giveUp_makes rfl (turn.within within same)) ?_
  exact fun _ _ further => within.trans further

/-- A change of the node of the turn by a transition that does not end it. -/
theorem moveNode_makes (known : journal.facts = facts) (turn : Turn setting attempt facts)
    (name : node.nodeId = attempt.nodeId) (goes : ¬ status.Terminal) {args : TransitionArgs}
    (move : ∀ plan after, facts.plan = some plan -> transition plan attempt.nodeId status args = .ok after -> setting.Move facts plan after) :
    setting.Makes (setting.session.commitChange fun plan => transition plan node.nodeId status args)
      journal (fun _ later => Within attempt.attemptId facts later.facts ∧
        later.facts.attempts = facts.attempts) := by
  rw [name]
  refine commitChange_within attempt.attemptId known move ?_
  intro current after same accepted
  exact transition_advance (turn.distinct current same) accepted
    (fun terminal => absurd terminal goes)

theorem startNode_makes (known : journal.facts = facts) (turn : Turn setting attempt facts)
    (held : facts.plan = some plan) (version : attempt.planVersion = plan.planVersion)
    (name : node.nodeId = attempt.nodeId) :
    setting.Makes (setting.session.startNode node attempt) journal (fun _ later =>
      Within attempt.attemptId facts later.facts ∧ later.facts.attempts = facts.attempts) := by
  refine question_then ?_
  intro now _
  refine moveNode_makes known turn name (by decide) ?_
  intro current after same accepted
  cases held.symm.trans same
  exact .started attempt now turn.recovering turn.opened version accepted

theorem resumeNode_makes (known : journal.facts = facts) (turn : Turn setting attempt facts)
    (held : facts.plan = some plan) (version : attempt.planVersion = plan.planVersion)
    (name : node.nodeId = attempt.nodeId) :
    setting.Makes (setting.session.resumeNode node attempt) journal (fun _ later =>
      Within attempt.attemptId facts later.facts ∧ later.facts.attempts = facts.attempts) := by
  have readied : setting.Makes (whenever (node.status = .pending)
      (setting.session.commitChange fun plan => transition plan node.nodeId .ready {})) journal
      (fun _ later => Within attempt.attemptId facts later.facts ∧
        later.facts.attempts = facts.attempts) := by
    refine whenever_makes ?_ ?_
    · intro _
      refine moveNode_makes known turn name (by decide) ?_
      exact fun current after same accepted => .readied attempt turn.recovering turn.opened accepted
    · intro _
      rw [known]
      exact ⟨.refl facts, rfl⟩
  refine Keeps.bind readied ?_
  rintro _ journal ⟨within, same⟩
  rcases within.advanced plan held with ⟨current, reached, advance⟩
  refine (startNode_makes rfl (turn.within within same) reached
    (version.trans advance.version.symm) name).mono ?_
  rintro _ later ⟨further, kept⟩
  exact ⟨within.trans further, kept.trans same⟩

theorem adopt_makes (known : journal.facts = facts) (turn : Turn setting attempt facts)
    (held : facts.plan = some plan) (version : attempt.planVersion = plan.planVersion)
    (name : node.nodeId = attempt.nodeId) (recorded : attempt.phase = .resultRecorded)
    (report : RecoveryReport) :
    setting.Makes (setting.session.adopt report node attempt) journal (fun _ later =>
      Within attempt.attemptId facts later.facts) := by
  have resumed : setting.Makes (whenever (node.status ∈ [.ready, .pending])
      (setting.session.resumeNode node attempt)) journal (fun _ later =>
        Within attempt.attemptId facts later.facts ∧ later.facts.attempts = facts.attempts) := by
    refine whenever_makes ?_ ?_
    · exact fun _ => resumeNode_makes known turn held version name
    · intro _
      rw [known]
      exact ⟨.refl facts, rfl⟩
  refine Keeps.bind resumed ?_
  rintro _ journal ⟨within, same⟩
  have turn := turn.within within same
  have waits : attempt.Paused := fun _ => recorded ▸ Nat.le_refl _
  refine Keeps.bind (settle_makes rfl turn.distinct turn.named turn.closing
    (fun _ => turn.follows rfl (Nat.le_refl _) waits)) ?_
  exact fun _ _ further => within.trans further

theorem leaveUncertain_makes (known : journal.facts = facts) (turn : Turn setting attempt facts)
    (target : Target attempt facts plan node) (report : RecoveryReport) (current : Snapshot) :
    setting.Makes (setting.session.leaveUncertain report current node attempt) journal (fun _ later =>
      Within attempt.attemptId facts later.facts) := by
  have started : setting.Makes (whenever (node.status = .ready)
      (setting.session.startNode node attempt)) journal (fun _ later =>
        Within attempt.attemptId facts later.facts ∧ later.facts.attempts = facts.attempts) := by
    refine whenever_makes ?_ ?_
    · exact fun _ => startNode_makes known turn target.held target.version target.name
    · intro _
      rw [known]
      exact ⟨.refl facts, rfl⟩
  refine Keeps.bind started ?_
  rintro _ journal ⟨within, same⟩
  have turn := turn.within within same
  have lost : setting.Makes (whenever (node.status = .running)
      (setting.session.loseNode node attempt)) journal (fun _ later =>
        Within attempt.attemptId facts later.facts) := by
    refine whenever_makes ?_ ?_
    · intro _
      refine question_then ?_
      intro now _
      refine (moveNode_makes rfl turn target.name (by decide) ?_).mono
        (fun _ _ further => within.trans further.1)
      exact fun _ _ _ accepted => .lost attempt _ turn.recovering turn.opened accepted
    · exact fun _ => within
  exact Keeps.bind lost fun _ _ reached => reached

/-- The attempt with which a turn goes on: the one it started with, or its
record with the result of a completed write. -/
inductive Continued (setting : Setting) (attempt : Attempt) (node : PlanNode) (facts : Facts) :
    Attempt -> Facts -> Prop where
  | unchanged : Continued setting attempt node facts attempt facts
  | completed (recorded : Attempt) (same : recorded.fixed = attempt.fixed)
      (phase : recorded.phase = .resultRecorded) (written : node.kind = .edit) :
      Continued setting attempt node facts recorded (facts.withAttempt recorded)

theorem completeWrite_makes (known : journal.facts = facts) (turn : Turn setting attempt facts)
    (operations : List Operation) (stopped : Bool) :
    setting.Makes (PlanSession.completeWrite node attempt operations stopped) journal
      (fun recorded later => Continued setting attempt node facts recorded later.facts) := by
  have kept : Continued setting attempt node facts attempt journal.facts := known ▸ .unchanged
  unfold PlanSession.completeWrite
  split
  · rename_i complete
    refine question_then ?_
    intro ledger _
    dsimp only
    split
    · refine (recordResult_makes known ?_).mono ?_
      · intro workspace
        exact turn.follows rfl (rank_le_recorded turn.opened.2) fun _ => Nat.le_refl _
      · rintro recorded later ⟨⟨workspace, rfl⟩, reached⟩
        rw [reached]
        exact .completed _ rfl rfl complete.1
    · exact kept
  · exact kept

section

omit [Hashing] [Decoding]

theorem Continued.fixed (continued : Continued setting attempt node facts recorded later) :
    recorded.fixed = attempt.fixed := by
  cases continued with
  | unchanged => rfl
  | completed recorded same phase written => exact same

/-- Only a write is recorded anew. -/
theorem Continued.eq_of_read (continued : Continued setting attempt node facts recorded later)
    (reads : node.kind ≠ .edit) : recorded = attempt := by
  cases continued with
  | unchanged => rfl
  | completed recorded same phase written => exact absurd written reads

theorem Turn.continued (turn : Turn setting attempt facts)
    (continued : Continued setting attempt node facts recorded later) :
    Turn setting recorded later ∧ Within attempt.attemptId facts later := by
  cases continued with
  | unchanged => exact ⟨turn, .refl facts⟩
  | completed recorded same phase written =>
    have name : recorded.attemptId = attempt.attemptId := congrArg Prod.fst same
    have open_ : recorded.phase ≠ .reconciled := by
      rw [phase]
      exact nofun
    exact ⟨⟨turn.recovering, name ▸ turn.named, turn.distinct,
      mem_latest_concat facts.attempts recorded, open_⟩, .withAttempt facts name⟩

theorem Target.continued (target : Target attempt facts plan node)
    (continued : Continued setting attempt node facts recorded later) : Target recorded later plan node := by
  cases continued with
  | unchanged => exact target
  | completed recorded same phase written =>
    have name : recorded.attemptId = attempt.attemptId := congrArg Prod.fst same
    have version : recorded.planVersion = attempt.planVersion :=
      congrArg (fun fields => fields.2.2.1) same
    have located : recorded.nodeId = attempt.nodeId := congrArg (fun fields => fields.2.2.2.1) same
    exact ⟨target.held, version.trans target.version, located ▸ target.located, name ▸ target.own⟩

end

theorem recoverDispatched_makes (known : journal.facts = facts) (turn : Turn setting attempt facts)
    (target : Target attempt facts plan node)
    (lingering : node.status.Terminal -> node.attemptId = attempt.attemptId -> setting.start.facts.OpenAttempt attempt ∧ ∃ plan, setting.start.plan? = some plan ∧ node.PresentIn plan)
    (probed : Bool) (current : Snapshot) (report : RecoveryReport) (operations : List Operation) :
    setting.Makes (setting.session.recoverDispatched probed current report node attempt operations)
      journal (fun _ later => Within attempt.attemptId facts later.facts) := by
  refine (steady_askStopped probed attempt).followed known ?_
  intro answer journal known
  refine Keeps.bind (completeWrite_makes known turn operations _) ?_
  intro recorded journal continued
  refine question_then ?_
  intro ledger _
  rcases turn.continued continued with ⟨later, within⟩
  have aimed := target.continued continued
  have name : recorded.attemptId = attempt.attemptId := congrArg Prod.fst continued.fixed
  have extend : ∀ last : Facts, Within recorded.attemptId (Journal.facts journal) last ->
      Within attempt.attemptId facts last := fun last further => within.trans (name ▸ further)
  split
  · rename_i adopted
    exact (adopt_makes rfl later aimed.held aimed.version aimed.name adopted.1 report).mono
      (fun _ _ further => extend _ further)
  split
  · rename_i unadopted restarted
    have reads : node.kind ≠ .edit := by
      intro edit
      rw [edit] at restarted
      exact absurd restarted.1 (by decide)
    refine (restart_makes rfl later aimed ⟨fun edit => absurd edit reads, ?_, ?_⟩ report _).mono
      (fun _ _ further => extend _ further)
    · intro phase
      by_contra other
      exact unadopted ⟨phase, restarted.2, Or.inl other⟩
    · rw [continued.eq_of_read reads]
      exact lingering
  · exact (leaveUncertain_makes rfl later aimed report current).mono
      (fun _ _ further => extend _ further)

theorem recoverPlanned_makes (known : journal.facts = facts) (turn : Turn setting attempt facts)
    (represented : Represented facts.operations)
    (lingering : ∀ plan, facts.plan = some plan -> ∀ node ∈ plan.nodes, node.status.Terminal -> node.attemptId = attempt.attemptId -> setting.start.facts.OpenAttempt attempt ∧ ∃ plan, setting.start.plan? = some plan ∧ node.PresentIn plan)
    (probed : Bool) (current : Snapshot) (report : RecoveryReport) :
    setting.Makes (setting.session.recoverPlanned probed current report attempt) journal
      (fun _ later => Within attempt.attemptId facts later.facts) := by
  refine currentPlan_then known ?_
  refine refuseIf_then ?_
  intro _
  refine requirePlan_then known ?_
  intro plan held
  refine refuseIf_then ?_
  intro identified
  refine ofExcept_then ?_
  intro node located
  refine refuseIf_then ?_
  intro foreign
  refine operationsOf_then known ?_
  rw [not_or, not_not, not_not] at identified
  have own : node.attemptId = "" ∨ node.attemptId = attempt.attemptId := by
    by_cases fresh : node.attemptId = ""
    · exact Or.inl fresh
    · exact Or.inr (not_not.mp fun other => foreign ⟨fresh, other⟩)
  have target : Target attempt facts plan node := ⟨held, identified.2, located, own⟩
  have stuck := lingering plan held node (Plan.node_ok located).1
  split
  · change Within attempt.attemptId facts journal.facts
    rw [known]
    exact .refl facts
  split
  · rename_i prepared
    refine restart_makes known turn target ⟨fun _ => ⟨prepared.1, prepared.2, represented⟩, ?_, stuck⟩
      report _
    intro recorded
    cases prepared.1.symm.trans recorded
  · exact recoverDispatched_makes known turn target stuck probed current report _

theorem recoverAttempt_makes (known : journal.facts = facts) (recovering : setting.recovering)
    (recorded : Recorded setting.orderly setting.start.facts)
    (represented : Represented setting.start.facts.operations)
    (remaining : Remaining setting (attempt :: rest) facts) (probed : Bool) (current : Snapshot)
    (report : RecoveryReport) :
    setting.Makes (setting.session.recoverAttempt probed current report attempt) journal
      (fun _ later => Remaining setting rest later.facts) := by
  have listed := remaining.listed attempt List.mem_cons_self
  have goal : setting.Makes (setting.session.recoverAttempt probed current report attempt) journal
      (fun _ later => Within attempt.attemptId facts later.facts) := by
    unfold PlanSession.recoverAttempt
    split
    · change Within attempt.attemptId facts journal.facts
      rw [known]
      exact .refl facts
    rename_i unreconciled
    have turn : Turn setting attempt facts :=
      ⟨recovering, (recorded attempt listed.2).named, remaining.distinct, listed.1, unreconciled⟩
    split
    · exact recoverPreplan_makes known turn probed report
    · refine recoverPlanned_makes known turn (remaining.operations ▸ represented) ?_ probed current
        report
      intro plan held node member terminal same
      exact ⟨⟨listed.2, unreconciled⟩,
        remaining.lingering plan held node member terminal attempt List.mem_cons_self same⟩
  exact goal.mono fun _ _ within => remaining.next within

theorem retire_makes {first : Facts} (known : journal.facts = facts) (recovering : setting.recovering)
    (distinct : first.Distinct) (within : Within attemptId first facts) (held : first.plan = some plan)
    (listed : node ∈ plan.nodes) (goes : status = .uncertain ∨ status = .stale ∧ node.kind ≠ .edit) :
    setting.Makes (setting.session.retire node status) journal (fun _ later =>
      Within attemptId facts later.facts) := by
  refine question_then ?_
  intro now _
  have lasting : ¬ status.Terminal := by
    rcases goes with rfl | ⟨rfl, _⟩
    · decide
    · decide
  refine (commitChange_within attemptId known ?_ ?_).mono fun _ _ reached => reached.1
  · intro current after here accepted
    rcases within.advanced plan held with ⟨middle, reached, advance⟩
    cases here.symm.trans reached
    rcases transition_ok accepted with ⟨found, located, _⟩
    rcases located_kind advance (distinct plan held) listed located with ⟨name, kind⟩
    rw [← name] at accepted located
    rcases goes with rfl | ⟨rfl, reads⟩
    · exact .retired found _ recovering located accepted
    · exact .staled found _ located (kind ▸ reads) accepted
  · intro current after here accepted
    exact transition_advance ((within.distinct distinct) current here) accepted
      (fun terminal => absurd terminal lasting)

theorem recheckNode_makes {first : Facts} (known : journal.facts = facts) (recovering : setting.recovering)
    (distinct : first.Distinct) (within : Within attemptId first facts) (held : first.plan = some plan)
    (listed : node ∈ plan.nodes) (current : Snapshot) (report : RecoveryReport) :
    setting.Makes (setting.session.recheckNode current report node) journal (fun _ later =>
      Within attemptId facts later.facts) := by
  have kept : Within attemptId facts journal.facts := by
    rw [known]
    exact .refl facts
  refine question_then ?_
  intro ledger _
  split
  · exact kept
  split
  · refine journal_then ?_
    split
    · exact kept
    · exact Keeps.bind (retire_makes known recovering distinct within held listed (Or.inl rfl))
        (fun _ _ further => further)
  · rename_i reads
    exact Keeps.bind (retire_makes known recovering distinct within held listed (Or.inr ⟨rfl, reads⟩))
      (fun _ _ further => further)

theorem recheckNodes_makes (known : journal.facts = facts) (recovering : setting.recovering)
    (distinct : facts.Distinct) (current : Snapshot) (report : RecoveryReport) :
    setting.Makes (setting.session.recheckNodes current report) journal (fun _ _ => True) := by
  refine currentPlan_then known ?_
  cases held : facts.plan with
  | none => exact True.intro
  | some plan =>
    have loop : setting.Makes (plan.nodes.foldlM (setting.session.recheckNode current) report) journal
        (fun _ later => Within "" facts later.facts) := by
      refine Keeps.mono (keeps_foldlM (H := fun rest _ later =>
        (∀ node ∈ rest, node ∈ plan.nodes) ∧ Within "" facts (Journal.facts later))
        ?_ ?_) fun _ _ reached => reached.2
      · rintro node rest report later ⟨listed, within⟩
        refine (recheckNode_makes rfl recovering distinct within held
          (listed node List.mem_cons_self) current report).mono ?_
        exact fun _ _ further => ⟨fun other member => listed other (List.mem_cons_of_mem _ member),
          within.trans further⟩
      · rw [known]
        exact ⟨fun _ member => member, .refl facts⟩
    refine Keeps.bind loop ?_
    intro report journal _
    refine Keeps.bind (refresh_makes rfl) ?_
    intro _ journal _
    exact requirePlan_then rfl fun _ _ => True.intro

theorem steady_verifyCheckpoints : setting.Steady setting.session.verifyCheckpoints := by
  intro journal
  exact journal_then (steady_forM (fun _ => steady_ofExcept _) journal)

theorem recover_makes (known : journal = setting.start) (recovering : setting.recovering)
    (recorded : Recorded setting.orderly setting.start.facts) (distinct : setting.start.facts.Distinct)
    (probed : Bool) :
    setting.Makes (setting.session.recover probed) journal (fun _ _ => True) := by
  subst known
  refine journal_then ?_
  refine ofExcept_then ?_
  intro _ validated
  have represented : Represented setting.start.facts.operations := validateExecutionHistory_ok validated
  refine steady_verifyCheckpoints.followed rfl ?_
  intro _ journal known
  refine steady_snapshotWorkspace.followed known ?_
  intro current journal known
  have initially : Remaining setting (latest Attempt.attemptId setting.start.attempts) journal.facts := by
    rw [known]
    refine ⟨rfl, distinct, nodup_latest _ _, fun _ listed => ⟨listed, listed⟩, ?_⟩
    intro plan held node member _ _ _ _
    exact ⟨plan, held, node, member, rfl, rfl, rfl, rfl⟩
  refine Keeps.bind (keeps_foldlM (H := fun rest _ later =>
    Remaining setting rest (Journal.facts later)) ?_ initially) ?_
  · intro attempt rest report later remaining
    exact recoverAttempt_makes rfl recovering recorded represented remaining probed current report
  intro report journal remaining
  refine Keeps.bind (recheckNodes_makes rfl recovering remaining.distinct current report) ?_
  intro report journal _
  refine (steady_emit _ _).followed rfl ?_
  intro _ journal _
  exact Keeps.bind (steady_checkpoint journal) fun _ _ _ => True.intro

end Setting

end PlanRuntime
end FixLoop
