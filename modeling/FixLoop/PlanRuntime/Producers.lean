import FixLoop.PlanRuntime.Advance

namespace FixLoop
namespace PlanRuntime

open Library Program

/-!
# The effects of the methods

One specification for each method of a session: its transactions are effects,
and its result and the facts afterwards are what the callers rely on.
-/

namespace Setting

variable {setting : Setting} [Hashing] [Decoding] {Result Other : Type} {journal : Journal}
  {facts : Facts}

theorem steady_emit (event : String) (payload : List (String × Json)) :
    setting.Steady (setting.session.emit event payload) :=
  steady_currentPlan.bind (fun _ =>
    (steady_write (show Entry.Silent (.trace event _) from True.intro)).bind fun _ => steady_check _)

theorem persistLongTaskState_makes :
    setting.Makes setting.session.persistLongTaskState journal (fun state later =>
      later.facts = journal.facts ∧ setting.Answered .longTaskState state ∧
        later.longTaskStates.getLast? =
          some (.ofState state (some setting.session.identity.sessionId))) := by
  refine (steady_check "context_commit_pending").followed rfl ?_
  intro _ later same
  refine question_then ?_
  intro state asked
  have silent : ∀ entry ∈ [Entry.longTaskState
      (.ofState state (some setting.session.identity.sessionId))], entry.Silent :=
    fun entry member => List.mem_singleton.mp member ▸ True.intro
  refine write_then (.silent silent) ⟨(Journal.facts_silent later silent).trans same, asked, ?_⟩
  rw [Journal.longTaskStates, List.filterMap_append]
  exact @List.getLast?_concat _ (later.filterMap Entry.longTaskState?) _

theorem steady_persistLongTaskState : setting.Steady setting.session.persistLongTaskState :=
  fun _ => Keeps.mono persistLongTaskState_makes fun _ _ reached => reached.1

theorem steady_checkpoint : setting.Steady setting.session.checkpoint := by
  refine (steady_check _).bind fun _ => (steady_cut _).bind fun _ => ?_
  intro journal
  refine Keeps.bind persistLongTaskState_makes ?_
  rintro state later ⟨same, asked, recorded⟩
  intro reply _
  refine keeps_bind.mpr (keeps_ofExcept.mpr ?_)
  intro coordination _
  refine write_then (.checkpoint state coordination recorded asked) ?_
  exact (steady_cut _ _).mono (fun _ _ kept =>
    (kept.trans (Journal.facts_one later rfl rfl rfl)).trans same)

/-! ## Commits -/

variable {plan : Plan} {change : Plan -> Except Fault Plan} {result : ToolResult} {attemptId : String}

theorem commit_makes (known : journal.facts = facts)
    (effect : ∀ later, later.facts = facts -> plan.Valid -> setting.Effect later [.plan plan]) :
    setting.Makes (setting.session.commit plan) journal (fun _ later =>
      later.facts = facts.withPlan plan ∧ plan.Valid) := by
  refine (steady_check _).followed known ?_
  intro _ later same
  refine (steady_check _).followed same ?_
  intro _ later same
  refine ofExcept_then ?_
  intro _ accepted
  have valid := validatePlan_ok accepted
  refine keeps_bind.mpr (refuseIf_then ?_)
  intro _
  refine ⟨effect later same valid, ?_⟩
  refine (steady_cut _ _).mono ?_
  intro _ last kept
  exact ⟨kept.trans ((Journal.facts_plan later plan).trans (same ▸ rfl)), valid⟩

theorem commitChange_makes (known : journal.facts = facts)
    (move : ∀ plan after, facts.plan = some plan -> change plan = .ok after -> setting.Move facts plan after) :
    setting.Makes (setting.session.commitChange change) journal (fun _ later =>
      ∃ plan after, facts.plan = some plan ∧ change plan = .ok after ∧
        later.facts = facts.withPlan after ∧ after.Valid) := by
  refine requirePlan_then known ?_
  intro plan held
  refine ofExcept_then ?_
  intro after changed
  refine (commit_makes known ?_).mono ?_
  · intro later same valid
    have current : later.plan? = some plan := (congrArg Facts.plan same).trans held
    exact .moved plan after current valid (same ▸ move plan after held changed)
  · intro _ later reached
    exact ⟨plan, after, held, changed, reached.1, reached.2⟩

/-- A change that advances the plan on behalf of an attempt. -/
theorem commitChange_within (attemptId : String) (known : journal.facts = facts)
    (move : ∀ plan after, facts.plan = some plan -> change plan = .ok after -> setting.Move facts plan after)
    (advance : ∀ plan after, facts.plan = some plan -> change plan = .ok after -> Advance attemptId plan after) :
    setting.Makes (setting.session.commitChange change) journal (fun _ later =>
      Within attemptId facts later.facts ∧ later.facts.attempts = facts.attempts) := by
  refine (commitChange_makes known move).mono ?_
  rintro _ later ⟨plan, after, held, changed, reached, _⟩
  rw [reached]
  exact ⟨.withPlan held (advance plan after held changed), rfl⟩

/-- The facts after `refresh`. -/
inductive Refreshed (before : Facts) : Facts -> Prop where
  | unchanged : Refreshed before before
  | changed (plan after : Plan) (ledger : Ledger) (held : before.plan = some plan)
      (accepted : refresh ledger plan = .ok after) (valid : after.Valid) :
      Refreshed before (before.withPlan after)

omit [Decoding] in
theorem Refreshed.within {before after : Facts} (refreshed : Refreshed before after)
    (distinct : before.Distinct) (attemptId : String) : Within attemptId before after := by
  cases refreshed with
  | unchanged => exact .refl before
  | changed plan next ledger held accepted valid =>
    exact .withPlan held (refresh_advance (distinct plan held) accepted)

omit [Decoding] in
theorem Refreshed.attempts {before after : Facts} (refreshed : Refreshed before after) :
    after.attempts = before.attempts := by
  cases refreshed with
  | unchanged => rfl
  | changed plan next ledger held accepted valid => rfl

theorem steady_emitChange (old : Plan) (node : PlanNode) :
    setting.Steady (setting.session.emitChange old node) :=
  (steady_ofExcept _).bind fun _ => steady_whenever _ (steady_emit _ _)

theorem steady_forM {Item : Type} {step : Item -> SessionM PUnit} {items : List Item}
    (stepwise : ∀ item, setting.Steady (step item)) : setting.Steady (items.forM step) := by
  intro journal
  refine keeps_forM (H := fun later => Journal.facts later = journal.facts) ?_ rfl
  intro item later _ same
  exact (stepwise item later).mono fun _ _ kept => kept.trans same

theorem refresh_makes (known : journal.facts = facts) :
    setting.Makes setting.session.refresh journal (fun _ later => Refreshed facts later.facts) := by
  refine requirePlan_then known ?_
  intro old held
  refine question_then ?_
  intro ledger _
  refine ofExcept_then ?_
  intro candidate accepted
  refine whenever_makes ?_ ?_
  · intro _
    refine Keeps.bind (commit_makes known ?_) ?_
    · intro later same valid
      have current : later.plan? = some old := (congrArg Facts.plan same).trans held
      exact .moved old candidate current valid (.refreshed ledger accepted)
    · rintro _ later ⟨reached, valid⟩
      refine (steady_forM (steady_emitChange old) later).mono ?_
      intro _ last kept
      rw [kept, reached]
      exact .changed old candidate ledger held accepted valid
  · intro _
    rw [known]
    exact .unchanged

variable {post : Other -> Journal -> Prop} {attempt : Attempt} {operation : Operation}

theorem journal_then {next : Journal -> SessionM Other} (rest : setting.Makes (next journal) journal post) :
    setting.Makes (Program.journal >>= next) journal post :=
  keeps_bind.mpr rest

theorem openJournal_makes :
    setting.Makes setting.session.openJournal journal (fun _ later =>
      later.facts = journal.facts) := by
  refine journal_then ?_
  cases journal with
  | nil => exact ⟨.identity rfl, Journal.facts_one [] rfl rfl rfl⟩
  | cons first rest =>
    cases first with
    | identity identity => exact steady_refuseIf _ _ _
    | _ => exact True.intro

theorem openSession_makes :
    setting.Makes setting.session.openSession journal (fun _ later =>
      later.facts = journal.facts) := by
  refine Keeps.bind openJournal_makes ?_
  intro _ journal known
  have loaded : setting.Steady setting.session.loadPlan := by
    refine steady_currentPlan.bind ?_
    intro plan
    cases plan with
    | none => exact steady_pure _
    | some plan => exact (steady_refuseIf _ _).bind fun _ => steady_ofExcept _
  refine loaded.followed known ?_
  intro _ journal known
  refine (steady_check _).followed known ?_
  intro _ journal known
  exact (steady_check _ _).mono fun _ _ kept => kept.trans known

theorem create_makes (known : journal.facts = facts) (calm : ¬ setting.recovering) (plan : Plan) :
    setting.Makes (setting.session.create plan) journal (fun _ later =>
      later.facts = facts.withPlan plan ∧ plan.Valid) := by
  refine currentPlan_then known ?_
  refine refuseIf_then ?_
  intro absent
  refine refuseIf_then ?_
  intro fresh
  have absent : facts.plan = none := Option.not_isSome_iff_eq_none.mp absent
  refine Keeps.bind (commit_makes known ?_) ?_
  · intro later same valid
    exact .created plan calm ((congrArg Facts.plan same).trans absent)
      (Bool.of_not_eq_false fresh) valid
  rintro _ journal ⟨known, valid⟩
  refine (steady_emit _ _).followed known ?_
  intro _ journal known
  exact (steady_checkpoint _).mono fun _ _ kept => ⟨kept.trans known, valid⟩

theorem replan_makes (known : journal.facts = facts) (calm : ¬ setting.recovering)
    (candidate : Plan) (reason : String) (evidenceRefs : List String) :
    setting.Makes (setting.session.replan candidate reason evidenceRefs) journal (fun after later =>
      later.facts = facts.withPlan after ∧ after.Valid) := by
  refine (steady_check _).followed known ?_
  intro _ journal known
  refine requirePlan_then known ?_
  intro old held
  refine journal_then ?_
  have read : latest Attempt.attemptId journal.attempts = latest Attempt.attemptId facts.attempts :=
    congrArg (fun facts => latest Attempt.attemptId facts.attempts) known
  refine question_then ?_
  intro ledger _
  refine steady_snapshotWorkspace.followed known ?_
  intro workspace later known
  refine ofExcept_then ?_
  intro after accepted
  refine Keeps.bind (commit_makes known ?_) ?_
  · intro last same valid
    have current : last.plan? = some old := (congrArg Facts.plan same).trans held
    exact .moved old after current valid (same ▸ .replaced _ candidate reason evidenceRefs calm read accepted)
  rintro _ journal ⟨known, valid⟩
  refine (steady_emit _ _).followed known ?_
  intro _ journal known
  refine steady_checkpoint.followed known ?_
  intro _ journal known
  exact ⟨known, valid⟩

/-! ## Opening attempts -/

/-- The attempt is one of the records. -/
structure Held (facts : Facts) (attempt : Attempt) : Prop where
  known : ∃ previous ∈ latest Attempt.attemptId facts.attempts, attempt.fixed = previous.fixed
  paused : attempt.Paused

/-- What a caller is given has an identifier and, in order, is a record. -/
structure Given (orderly : Prop) (facts : Facts) (attempt : Attempt) : Prop where
  named : attempt.attemptId ≠ ""
  held : orderly -> Held facts attempt

/-- The records of the attempts are what callers can be given. -/
def Recorded (orderly : Prop) (facts : Facts) : Prop :=
  ∀ attempt ∈ latest Attempt.attemptId facts.attempts, Given orderly facts attempt

omit [Hashing] [Decoding] in
theorem given_concat {orderly : Prop} {attempts : List Attempt} {next : Attempt}
    (listed : facts.attempts = attempts ++ [attempt]) (named : attempt.attemptId ≠ "")
    (same : next.fixed = attempt.fixed) (paused : next.Paused) : Given orderly facts next := by
  have name : next.attemptId = attempt.attemptId := congrArg Prod.fst same
  exact ⟨name ▸ named, fun _ => ⟨⟨attempt, listed ▸ mem_latest_concat _ _, same⟩, paused⟩⟩

omit [Hashing] [Decoding] in
/-- The next record of an attempt that was recorded last. -/
theorem follows_concat {attempts : List Attempt} {next : Attempt} (calm : ¬ setting.recovering)
    (listed : facts.attempts = attempts ++ [attempt]) (named : attempt.attemptId ≠ "")
    (same : next.fixed = attempt.fixed) (paused : next.Paused)
    (later : attempt.phase.rank ≤ next.phase.rank) : setting.Follows facts next := by
  have name : next.attemptId = attempt.attemptId := congrArg Prod.fst same
  exact ⟨name ▸ named, fun _ => ⟨attempt, listed ▸ mem_latest_concat _ _, same, later⟩,
    fun recovering => absurd recovering calm, fun _ => paused⟩

theorem newId_then {stem : String} {next : String -> SessionM Other}
    (rest : ∀ random, setting.Answered .uuid random -> setting.Makes (next (stem ++ "-" ++ random)) journal post) :
    setting.Makes (newId stem >>= next) journal post :=
  keeps_bind.mpr fun random asked => rest random asked

omit [Hashing] [Decoding] in
theorem newId_ne_empty (random : String) : "attempt" ++ "-" ++ random ≠ "" := by
  intro empty
  have shorter := congrArg String.length empty
  rw [String.length_append, String.length_append] at shorter
  exact absurd shorter (by simp)

omit [Hashing] [Decoding] in
theorem paused_blank (blank : attempt.result = .none) : attempt.Paused := by
  intro waiting
  rw [blank] at waiting
  exact absurd waiting (by decide)

/-- The two records with which an attempt is dispatched, with the work that
lies between them. -/
theorem opened_then {next : PUnit -> SessionM Other} (known : journal.facts = facts)
    (calm : ¬ setting.recovering) (unmoved : facts.attempts = setting.start.attempts)
    (drawn : ∃ random, setting.Answered .uuid random ∧ attempt.attemptId = "attempt" ++ "-" ++ random)
    (prepared : attempt.phase = .prepared) (blank : attempt.result = .none)
    (owned : setting.Answered .ownProcess attempt.owner)
    (rest : ∀ later, later.facts = facts.withAttempt attempt -> setting.Makes (next PUnit.unit) later post) :
    setting.Makes (write (.attempt attempt) >>= next) journal post :=
  write_then (.opened attempt calm drawn ((congrArg Facts.attempts known).trans unmoved) prepared blank owned)
    (rest _ ((Journal.facts_attempt journal attempt).trans (known ▸ rfl)))

theorem prepare_makes (known : journal.facts = setting.start.facts) (calm : ¬ setting.recovering)
    (nodeId : String) :
    setting.Makes (setting.session.prepare nodeId) journal (fun attempt later =>
      Given setting.orderly later.facts attempt) := by
  refine (steady_check _).followed known ?_
  intro _ journal known
  refine (steady_check _).followed known ?_
  intro _ journal known
  refine Keeps.bind (refresh_makes known) ?_
  intro _ journal refreshed
  have unmoved := refreshed.attempts
  refine requirePlan_then rfl ?_
  intro plan held
  refine ofExcept_then ?_
  intro node located
  refine (steady_checkIf _ _).followed rfl ?_
  intro _ journal known
  refine refuseIf_then ?_
  intro idle
  refine refuseIf_then ?_
  intro free
  refine (steady_checkIf _ _).followed known ?_
  intro _ journal known
  refine newId_then ?_
  intro random asked
  refine steady_snapshotWorkspace.followed known ?_
  intro before journal known
  refine newId_then ?_
  intro key _
  refine question_then ?_
  intro owner owned
  refine (steady_check _).followed known ?_
  intro _ journal known
  refine steady_persistLongTaskState.followed known ?_
  intro _ journal known
  refine opened_then known calm unmoved ⟨random, asked, rfl⟩ rfl rfl owned ?_
  intro journal known
  refine (steady_cut _).followed known ?_
  intro _ journal known
  refine question_then ?_
  intro now _
  refine Keeps.bind (commitChange_makes known ?_) ?_
  · intro other after current accepted
    cases held.symm.trans current
    rcases Plan.node_ok located with ⟨_, rfl⟩
    refine .prepared node _ calm located ?_ ?_ accepted
    · exact Bool.eq_false_of_not_eq_true fun uncertain => idle (Or.inr uncertain)
    · exact Bool.eq_false_of_not_eq_true free
  rintro _ journal ⟨_, after, _, _, reached, _⟩
  have named := newId_ne_empty random
  refine recorded_then reached (follows_concat calm rfl named rfl (paused_blank rfl) (Nat.zero_le _)) ?_
  intro journal known
  refine (steady_cut _).followed known ?_
  intro _ journal known
  refine (steady_emit _ _).followed known ?_
  intro _ journal known
  change Given setting.orderly journal.facts _
  rw [known]
  exact given_concat rfl named rfl (paused_blank rfl)

theorem runNode_makes (known : journal.facts = setting.start.facts) (calm : ¬ setting.recovering)
    (recorded : Recorded setting.orderly setting.start.facts) (nodeId : String) :
    setting.Makes (setting.session.runNode nodeId) journal (fun attempt later =>
      Given setting.orderly later.facts attempt) := by
  refine requirePlan_then known ?_
  intro plan _
  refine ofExcept_then ?_
  intro node _
  refine journal_then ?_
  cases found : (attemptNamed journal node.attemptId).filter
      (fun attempt => node.status = .running && attempt.waitingApproval = some true) with
  | none => exact prepare_makes known calm nodeId
  | some attempt =>
    have listed : attempt ∈ latest Attempt.attemptId journal.attempts :=
      List.mem_of_find?_eq_some (Option.filter_eq_some_iff.mp found).1
    have attempts : journal.attempts = setting.start.facts.attempts := congrArg Facts.attempts known
    refine steady_snapshotWorkspace.followed known ?_
    intro current journal known
    refine refuseIf_then ?_
    intro _
    have given := recorded attempt (attempts ▸ listed)
    change Given setting.orderly journal.facts _
    rw [known]
    exact ⟨given.named, fun orderly => ⟨(given.held orderly).known, (given.held orderly).paused⟩⟩

theorem preplanRead_makes (known : journal.facts = setting.start.facts)
    (calm : ¬ setting.recovering) (allowedTools : List String) :
    setting.Makes (PlanSession.preplanRead allowedTools) journal (fun attempt later =>
      Given setting.orderly later.facts attempt) := by
  refine (steady_check _).followed known ?_
  intro _ journal known
  refine currentPlan_then known ?_
  refine refuseIf_then ?_
  intro _
  refine journal_then ?_
  refine refuseIf_then ?_
  intro _
  refine newId_then ?_
  intro random asked
  refine newId_then ?_
  intro nodeId _
  refine steady_snapshotWorkspace.followed known ?_
  intro before journal known
  refine newId_then ?_
  intro key _
  refine question_then ?_
  intro owner owned
  refine (steady_check _).followed known ?_
  intro _ journal known
  refine opened_then known calm rfl ⟨random, asked, rfl⟩ rfl rfl owned ?_
  intro journal known
  refine (steady_cut _).followed known ?_
  intro _ journal known
  have named := newId_ne_empty random
  refine recorded_then known (follows_concat calm rfl named rfl (paused_blank rfl) (Nat.zero_le _)) ?_
  intro journal known
  refine (steady_cut _).followed known ?_
  intro _ journal known
  change Given setting.orderly journal.facts _
  rw [known]
  exact given_concat rfl named rfl (paused_blank rfl)

theorem recordResult_makes (known : journal.facts = facts) {result : NodeResult}
    (follows : ∀ workspace, setting.Follows facts { attempt with phase := .resultRecorded, workspaceAfter := workspace, result := result }) :
    setting.Makes (PlanSession.recordResult attempt result) journal (fun recorded later =>
      (∃ workspace, recorded = { attempt with
        phase := .resultRecorded, workspaceAfter := workspace, result := result }) ∧
      later.facts = facts.withAttempt recorded) := by
  refine (steady_check _).followed known ?_
  intro _ journal known
  refine steady_snapshotWorkspace.followed known ?_
  intro after journal known
  refine recorded_then known (follows after) ?_
  intro journal known
  refine (steady_cut _).followed known ?_
  intro _ journal known
  exact ⟨⟨after, rfl⟩, known⟩

theorem preplanSettle_makes (known : journal.facts = facts)
    (follows : setting.Follows facts (attempt.reconciled "succeeded")) :
    setting.Makes (setting.session.preplanSettle attempt) journal (fun _ later =>
      later.facts = facts.withAttempt (attempt.reconciled "succeeded")) := by
  refine operationsOf_then known ?_
  refine refuseIf_then ?_
  intro _
  refine recorded_then known follows ?_
  intro journal known
  refine (steady_check _).followed known ?_
  intro _ journal known
  refine steady_checkpoint.followed known ?_
  intro _ journal known
  exact known

/-! ## Operations -/

theorem steady_toolPlanView (attempt : Attempt) : setting.Steady (toolPlanView attempt) := by
  refine steady_currentPlan.bind ?_
  intro current
  refine steady_ite (steady_refuseIf _ _) ?_
  cases current with
  | none => exact steady_fail _
  | some plan =>
    exact (steady_refuseIf _ _).bind (fun _ => (steady_refuseIf _ _).bind (fun _ =>
      (steady_ofExcept _).bind fun _ => steady_refuseIf _ _))

omit [Hashing] [Decoding] in
theorem Held.owns (held : Held facts attempt) (name : operation.attemptId = attempt.attemptId)
    (node : operation.nodeId = attempt.nodeId) (version : operation.planVersion = attempt.planVersion) :
    facts.Owns operation := by
  rcases held.known with ⟨previous, listed, same⟩
  have nodes := congrArg (fun fields => fields.2.2.2.1) same
  have versions := congrArg (fun fields => fields.2.2.1) same
  exact ⟨previous, listed, (name.trans (congrArg Prod.fst same)).symm, (node.trans nodes).symm,
    (version.trans versions).symm⟩

theorem steady_newCallId (callId? : Option String) : setting.Steady (newCallId callId?) := by
  cases callId? with
  | some callId => exact steady_pure callId
  | none => exact steady_newId "call"

/-- What `tool_operation` has prepared. -/
structure Prepared (orderly : Prop) (facts : Facts) (operation : Operation) : Prop where
  phase : operation.phase = .prepared
  unknown : operation.outcome = none
  owned : orderly -> facts.Owns operation
  listed : operation ∈ latest Operation.operationId facts.operations

theorem prepareOperation_makes (known : journal.facts = setting.start.facts) (calm : ¬ setting.recovering)
    (held : setting.orderly -> Held setting.start.facts attempt) (name : String) (arguments : Json)
    (callId? : Option String) :
    setting.Makes (setting.session.prepareOperation attempt name arguments callId?) journal
      (fun operation later => Prepared setting.orderly later.facts operation) := by
  refine ofExcept_then ?_
  intro effect _
  refine (steady_checkIf _ _).followed known ?_
  intro _ journal known
  refine refuseIf_then ?_
  intro _
  refine newId_then ?_
  intro random asked
  refine (steady_newCallId callId?).followed known ?_
  intro callId journal known
  refine steady_snapshotWorkspace.followed known ?_
  intro before journal known
  refine operationsOf_then known ?_
  refine refuseIf_then ?_
  intro _
  refine journal_then ?_
  refine refuseIf_then ?_
  intro _
  have unmoved : journal.operations = setting.start.operations := congrArg Facts.operations known
  refine operation_then known (.dispatched _ ⟨calm, ?_, nofun⟩ ⟨random, asked, rfl⟩ unmoved rfl rfl) ?_
  · intro orderly
    rw [known]
    exact (held orderly).owns rfl rfl rfl
  intro journal known
  refine (steady_cut _).followed known ?_
  intro _ journal known
  change Prepared setting.orderly journal.facts _
  rw [known]
  refine ⟨rfl, rfl, fun orderly => (held orderly).owns rfl rfl rfl, ?_⟩
  rw [Facts.withOperation, latest_append]
  exact mem_enter_self _ _ _

theorem toolPrepare_makes (known : journal.facts = setting.start.facts) (calm : ¬ setting.recovering)
    (held : setting.orderly -> Held setting.start.facts attempt) (name : String) (arguments : Json)
    (callId? : Option String) :
    setting.Makes (setting.session.toolPrepare attempt name arguments callId?) journal
      (fun operation later => ∀ prepared, operation = some prepared ->
        Prepared setting.orderly later.facts prepared) := by
  refine (steady_check _).followed known ?_
  intro _ journal known
  refine (steady_check _).followed known ?_
  intro _ journal known
  refine (steady_toolPlanView attempt).followed known ?_
  intro _ journal known
  split
  · exact nofun
  refine Keeps.bind (prepareOperation_makes known calm held name arguments callId?) ?_
  intro operation journal prepared _ same
  cases same
  exact prepared

/-- The operation is one of the records, where it has the given phase. -/
def Operated (facts : Facts) (operation : Operation) (phase : Phase) : Prop :=
  ∃ previous ∈ latest Operation.operationId facts.operations,
    operation.fixed = previous.fixed ∧ previous.phase = phase

theorem toolDispatch_makes (known : journal.facts = facts) (calm : ¬ setting.recovering)
    (owned : setting.orderly -> facts.Owns operation)
    (prepared : setting.orderly -> operation.outcome = none ∧ Operated facts operation .prepared) :
    setting.Makes (PlanSession.toolDispatch attempt operation) journal (fun _ later =>
      later.facts = facts.withOperation { operation with phase := .dispatched }) := by
  refine currentPlan_then known ?_
  refine refuseIf_then ?_
  intro _
  refine steady_snapshotWorkspace.followed known ?_
  intro again journal known
  refine refuseIf_then ?_
  intro _
  refine (steady_toolPlanView attempt).followed known ?_
  intro _ journal known
  refine operation_then known (.operated _ ⟨calm, known ▸ owned, nofun⟩ ?_ ?_) ?_
  · intro orderly
    rcases (prepared orderly).2 with ⟨previous, listed, same, phase⟩
    have operations : journal.operations = facts.operations := congrArg Facts.operations known
    exact ⟨previous, operations ▸ listed, same, fun _ => phase, nofun⟩
  · intro orderly receipt present
    rw [Operation.receipt?, (prepared orderly).1] at present
    cases present
  intro journal known
  refine (steady_cut _ _).mono ?_
  intro _ later kept
  exact kept.trans known

omit [Decoding] in
theorem receipt_built (name : String) (result : ToolResult) (argsHash runId callId : String) :
    member? "receipt_id" (buildToolReceipt name result argsHash runId callId) =
      some (receiptId (buildToolReceipt name result argsHash runId callId)) := by
  simp [buildToolReceipt, member?, Json.get?, receiptId, Json.str?]

omit [Decoding] in
theorem checkReceipt_ok {identity : Identity} {receipt : Json}
    (call : member? "call_id" receipt = some operation.callId)
    (tool : member? "tool" receipt = some operation.tool)
    (run : member? "run_id" receipt = some identity.runId)
    (numbered : member? "receipt_id" receipt = some (receiptId receipt)) :
    checkReceipt identity operation receipt = .ok () := by
  have identified : ¬ (member? "call_id" receipt ≠ some operation.callId ∨
      member? "tool" receipt ≠ some operation.tool ∨ member? "run_id" receipt ≠ some identity.runId) :=
    not_or.mpr ⟨not_not.mpr call, not_or.mpr ⟨not_not.mpr tool, not_not.mpr run⟩⟩
  rw [checkReceipt, raiseIf, raiseIf, if_neg identified, if_neg (not_not.mpr numbered)]
  rfl

/-- The receipt of a result, with its identifier. -/
def Receipted (result : ToolResult) : Prop :=
  result.receipt.truthy = true ->
    member? "receipt_id" result.receipt = some (receiptId result.receipt)

omit [Decoding] in
theorem receipt_numbered (receipted : Receipted result) (name argsHash runId callId : String) :
    member? "receipt_id" (if result.receipt.truthy then result.receipt
        else buildToolReceipt name result argsHash runId callId) =
      some (receiptId (if result.receipt.truthy then result.receipt
        else buildToolReceipt name result argsHash runId callId)) := by
  split
  · rename_i given
    exact receipted given
  · exact receipt_built _ _ _ _ _

theorem recordEvidence_steady (operation : Operation) (changed : List String) (result : ToolResult) :
    setting.Steady (recordEvidence operation changed result) := by
  refine (steady_newId _).bind ?_
  intro observed
  have silent : Entry.Silent (.evidence observed "observation_present" operation.attemptId) :=
    True.intro
  refine (steady_write silent).bind ?_
  intro _
  refine steady_ite ?_ (steady_pure _)
  refine (steady_newId _).bind ?_
  intro patched
  have silent : Entry.Silent (.evidence patched "patch_applied" operation.attemptId) := True.intro
  exact (steady_write silent).bind fun _ => steady_pure _

theorem toolSettle_makes (known : journal.facts = facts) (calm : ¬ setting.recovering)
    (owned : setting.orderly -> facts.Owns operation)
    (running : setting.orderly -> Operated facts operation .dispatched) (arguments : Json)
    (receipted : setting.orderly -> Receipted result) :
    setting.Makes (setting.session.toolSettle operation arguments result) journal (fun _ later =>
      ∃ receipt after observationId refs, later.facts =
          facts.withOperation (operation.withResult result receipt after observationId refs)) := by
  refine steady_snapshotWorkspace.followed known ?_
  intro after journal known
  refine refuseIf_then ?_
  intro identified
  rw [not_or, not_or, not_not, not_not, not_not] at identified
  intro reply _
  refine keeps_bind.mpr (keeps_ofExcept.mpr ?_)
  intro observationId _
  refine (recordEvidence_steady operation _ result).followed known ?_
  intro refs journal known
  refine operation_then known (.operated _ ⟨calm, known ▸ owned, nofun⟩ ?_ ?_) ?_
  · intro orderly
    rcases running orderly with ⟨previous, listed, same, _⟩
    have operations : journal.operations = facts.operations := congrArg Facts.operations known
    exact ⟨previous, operations.symm ▸ listed, same, nofun, nofun⟩
  · intro orderly receipt present
    have same := (Option.filter_eq_some_iff.mp present).1
    cases same
    exact checkReceipt_ok identified.1 identified.2.2 identified.2.1
      (receipt_numbered (receipted orderly) _ _ _ _)
  intro journal known
  refine (steady_cut _).followed known ?_
  intro _ journal known
  exact ⟨_, after, observationId, refs, known⟩

/-! ## Settlement -/

omit [Hashing] [Decoding] in
theorem Follows.of_attempts {other : Facts} (follows : setting.Follows facts attempt)
    (same : other.attempts = facts.attempts) : setting.Follows other attempt := by
  refine ⟨follows.named, ?_, ?_, follows.paused⟩
  · rw [same]
    exact follows.ordered
  · unfold Facts.OpenAttempt
    rw [same]
    exact follows.continuing

theorem pauseAttempt_makes (known : journal.facts = facts)
    (follows : setting.Follows facts { attempt with waitingApproval := some true }) :
    setting.Makes (setting.session.pauseAttempt attempt) journal (fun _ later =>
      Within attempt.attemptId facts later.facts) := by
  refine recorded_then known follows ?_
  intro journal known
  refine (steady_emit _ _).followed known ?_
  intro _ journal known
  refine steady_checkpoint.followed known ?_
  intro _ journal known
  change Within attempt.attemptId facts journal.facts
  rw [known]
  exact .withAttempt facts rfl

theorem closeNode_makes (known : journal.facts = facts) (distinct : facts.Distinct) {node : PlanNode}
    {ledger : Ledger} (held : facts.plan = some plan) (located : plan.node attempt.nodeId = .ok node)
    (version : attempt.planVersion = plan.planVersion) (current : node.attemptId = attempt.attemptId)
    (named : attempt.attemptId ≠ "") (consulted : setting.Answered .evidence ledger) :
    setting.Makes (setting.session.closeNode node attempt (facts.operationsOf attempt.attemptId) ledger
        (judgement ledger node attempt (facts.operationsOf attempt.attemptId))) journal
      (fun _ later => Within attempt.attemptId facts later.facts ∧
        later.facts.attempts = facts.attempts) := by
  refine whenever_makes ?_ ?_
  · intro _
    refine ofExcept_then ?_
    intro receipts _
    refine question_then ?_
    intro now _
    refine commitChange_within attempt.attemptId known ?_ ?_
    · intro other after same accepted
      cases held.symm.trans same
      exact .closed attempt node ledger _ receipts now named consulted located version current rfl
        accepted
    · intro other after same accepted
      cases held.symm.trans same
      refine transition_advance (distinct plan held) accepted ?_
      intro _ found here
      cases located.symm.trans here
      exact current
  · intro _
    rw [known]
    exact ⟨.refl facts, rfl⟩

omit [Hashing] [Decoding] in
/-- The node of the plan that a node of an earlier plan has become. -/
theorem located_kind {before after : Plan} (advance : Advance attemptId before after)
    (distinct : before.Distinct) {prior found : PlanNode} (listed : prior ∈ before.nodes)
    (located : after.node prior.nodeId = .ok found) :
    found.nodeId = prior.nodeId ∧ found.kind = prior.kind := by
  rcases Plan.node_ok located with ⟨member, same⟩
  exact ⟨same, (advance.kind_eq distinct listed member same.symm).symm⟩

theorem staleRead_makes {first : Facts} (known : journal.facts = facts) (distinct : first.Distinct)
    (within : Within attemptId first facts) (held : first.plan = some plan) {prior : PlanNode}
    (listed : prior ∈ plan.nodes) :
    setting.Makes (setting.session.staleRead prior) journal (fun _ later =>
      Within attemptId facts later.facts ∧ later.facts.attempts = facts.attempts) := by
  refine question_then ?_
  intro ledger _
  refine whenever_makes ?_ ?_
  · rintro ⟨reads, _⟩
    refine Keeps.bind (commitChange_within attemptId known ?_ ?_) ?_
    · intro current after here accepted
      rcases within.advanced plan held with ⟨middle, reached, advance⟩
      cases here.symm.trans reached
      rcases transition_ok accepted with ⟨found, located, _⟩
      rcases located_kind advance (distinct plan held) listed located with ⟨name, kind⟩
      rw [← name] at accepted located
      refine .staled found _ located ?_ accepted
      intro edit
      rw [kind] at edit
      rw [edit] at reads
      exact absurd reads (by decide)
    · intro current after here accepted
      refine transition_advance ((within.distinct distinct) current here) accepted ?_
      intro terminal
      exact absurd terminal (by decide)
    · rintro _ later ⟨advanced, same⟩
      refine (steady_emit _ _ _).mono ?_
      intro _ last kept
      rw [kept]
      exact ⟨advanced, same⟩
  · intro _
    rw [known]
    exact ⟨.refl facts, rfl⟩

theorem staleReads_makes (known : journal.facts = facts) (distinct : facts.Distinct)
    (attemptId : String) :
    setting.Makes setting.session.staleReads journal (fun _ later =>
      Within attemptId facts later.facts ∧ later.facts.attempts = facts.attempts) := by
  refine requirePlan_then known ?_
  intro plan held
  refine keeps_forM (H := fun later => Within attemptId facts (Journal.facts later) ∧
    (Journal.facts later).attempts = facts.attempts) ?_ ?_
  · rintro prior later listed ⟨within, same⟩
    refine (staleRead_makes rfl distinct within held listed).mono ?_
    rintro _ last ⟨further, kept⟩
    exact ⟨within.trans further, kept.trans same⟩
  · rw [known]
    exact ⟨.refl facts, rfl⟩

theorem settle_makes (known : journal.facts = facts) (distinct : facts.Distinct)
    (named : attempt.attemptId ≠ "")
    (closing : ∀ status, setting.Follows facts (attempt.reconciled status))
    (pausing : attempt.result.status = "waiting_approval" -> setting.Follows facts { attempt with waitingApproval := some true }) :
    setting.Makes (setting.session.settle attempt) journal (fun _ later =>
      Within attempt.attemptId facts later.facts) := by
  refine (steady_check _).followed known ?_
  intro _ journal known
  refine requirePlan_then known ?_
  intro plan held
  refine ofExcept_then ?_
  intro node located
  refine refuseIf_then ?_
  intro current
  rw [not_or, not_not, not_not] at current
  refine operationsOf_then known ?_
  split
  · rename_i waiting
    exact pauseAttempt_makes known (pausing waiting.1)
  refine question_then ?_
  intro ledger consulted
  refine Keeps.bind (closeNode_makes known distinct held located current.1 current.2 named consulted) ?_
  rintro _ journal ⟨within, same⟩
  refine (steady_cut _).followed rfl ?_
  intro _ journal known
  refine recorded_then known ((closing _).of_attempts same) ?_
  intro journal known
  refine (steady_check _).followed known ?_
  intro _ journal known
  refine (steady_cut _).followed known ?_
  intro _ journal known
  have own : (attempt.reconciled (judgement ledger node attempt
      (facts.operationsOf attempt.attemptId)).text).attemptId = attempt.attemptId := rfl
  have within := within.trans (.withAttempt _ own)
  have stale : setting.Makes (whenever (judgement ledger node attempt
      (facts.operationsOf attempt.attemptId) = .succeeded ∧ node.kind = .edit)
      setting.session.staleReads) journal (fun _ later =>
        Within attempt.attemptId facts later.facts) := by
    refine whenever_makes ?_ ?_
    · intro _
      refine (staleReads_makes known (within.distinct distinct) attempt.attemptId).mono ?_
      intro _ later reached
      exact within.trans reached.1
    · intro _
      exact known ▸ within
  refine Keeps.bind stale ?_
  intro _ journal within
  refine Keeps.bind (refresh_makes rfl) ?_
  intro _ journal refreshed
  have within := within.trans (refreshed.within (within.distinct distinct) attempt.attemptId)
  refine steady_persistLongTaskState.followed rfl ?_
  intro _ journal known
  refine (steady_emit _ _).followed known ?_
  intro _ journal known
  refine steady_checkpoint.followed known ?_
  intro _ journal known
  change Within attempt.attemptId facts journal.facts
  rw [known]
  exact within

end Setting

end PlanRuntime
end FixLoop
