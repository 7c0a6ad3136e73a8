import FixLoop.PlanRuntime.Status
import FixLoop.PlanRuntime.Tracked

namespace FixLoop
namespace PlanRuntime

open Library Program

/-!
# Failed and cancelled nodes

The table of transitions gives these two statuses no successor, but a restart
does not consult it.  `recover` restarts a node for an open attempt that is
still prepared, and a node that does not edit for one that has no recorded
result or whose recorded success is no longer confirmed.  `settle` commits the
status of a node before it reconciles the attempt, so a crash between the two
leaves such an attempt with a node that has failed.
-/

/-- The terminal nodes of a plan have the same status in the other one. -/
def SameOutcomes (first later : Plan) : Prop :=
  ∀ node ∈ first.nodes, node.status.Terminal ->
    ∃ kept ∈ later.nodes, kept.nodeId = node.nodeId ∧ kept.status = node.status

instance (first later : Plan) : Decidable (SameOutcomes first later) := by
  unfold SameOutcomes
  infer_instance

/-- In one plan version, every later plan shows a terminal node as it was. -/
def OutcomesFinal (journal : Journal) : Prop :=
  journal.plans.Pairwise (fun first later =>
    first.planVersion = later.planVersion -> SameOutcomes first later)

instance (journal : Journal) : Decidable (OutcomesFinal journal) := by
  unfold OutcomesFinal
  infer_instance

/-- The open attempt does not let recovery take back its terminal node. -/
structure Outlasts (node : PlanNode) (attempt : Attempt) : Prop where
  begun : attempt.phase ≠ .prepared
  settled : node.kind ≠ .edit -> attempt.phase = .resultRecorded ∧ attempt.result.status ≠ "success"

/-- The call is not a recovery that takes back a terminal node of the plan. -/
def Call.Lasting (state : Runtime) (call : Call) : Prop :=
  call.Recovers -> ∀ plan, state.journal.plan? = some plan -> ∀ node ∈ plan.nodes,
    node.status.Terminal -> ∀ attempt, state.journal.facts.OpenAttempt attempt ->
      attempt.attemptId = node.attemptId -> Outlasts node attempt

/-! ## Steps -/

/-- The plan follows the other one without changing an outcome. -/
structure Proceeds (first later : Plan) : Prop where
  version : first.planVersion ≤ later.planVersion
  outcomes : first.planVersion = later.planVersion -> SameOutcomes first later

namespace Proceeds

variable {first middle last : Plan}

theorem refl (plan : Plan) : Proceeds plan plan :=
  ⟨le_refl _, fun _ node listed _ => ⟨node, listed, rfl, rfl⟩⟩

theorem trans (earlier : Proceeds first middle) (later : Proceeds middle last) :
    Proceeds first last := by
  refine ⟨earlier.version.trans later.version, ?_⟩
  intro same node listed terminal
  have stays : first.planVersion = middle.planVersion :=
    le_antisymm earlier.version (same ▸ later.version)
  rcases earlier.outcomes stays node listed terminal with ⟨kept, present, name, status⟩
  rcases later.outcomes (stays.symm.trans same) kept present (status ▸ terminal) with
    ⟨other, there, named, statuses⟩
  exact ⟨other, there, named.trans name, statuses.trans status⟩

end Proceeds

theorem NodeStatus.Terminal.begun {status : NodeStatus} (terminal : status.Terminal) :
    status.Begun := by
  cases status <;> revert terminal <;> decide

theorem no_successor {old new : NodeStatus} (allowed : new ∈ old.successors) : ¬ old.Terminal := by
  cases old <;> revert allowed <;> cases new <;> decide

section Sealing

variable [Hashing] {plan after : Plan}

/-- Replacing a node that is not terminal changes no outcome. -/
theorem revised_proceeds (distinct : plan.Distinct) {node new : PlanNode} (listed : node ∈ plan.nodes)
    (lasts : ¬ node.status.Terminal) (status : PlanStatus) :
    Proceeds plan (plan.revised (plan.replaceNode node.nodeId new) status) := by
  refine ⟨le_refl _, ?_⟩
  intro _ other member terminal
  refine ⟨other, Plan.mem_replaceNode_of_ne member ?_, rfl, rfl⟩
  intro same
  cases distinct.eq_of_nodeId member listed same
  exact lasts terminal

theorem transition_proceeds (distinct : plan.Distinct) {nodeId : String} {status : NodeStatus}
    {args : TransitionArgs} (accepted : transition plan nodeId status args = .ok after) :
    Proceeds plan after := by
  rcases transition_ok accepted with ⟨node, located, allowed, _, _, rfl⟩
  rcases Plan.node_ok located with ⟨listed, rfl⟩
  exact revised_proceeds distinct listed (no_successor allowed) _

theorem refresh_proceeds {ledger : Ledger} (distinct : plan.Distinct)
    (accepted : refresh ledger plan = .ok after) : Proceeds plan after := by
  refine refresh_induction (motive := fun reached => Proceeds plan reached) ?_ distinct (.refl plan)
    accepted
  intro earlier later admits reached
  rcases admits.taken with ⟨node, status, args, _, _, _, moved⟩
  exact reached.trans (transition_proceeds admits.distinct moved)

variable [Decoding] {setting : Setting} {facts : Facts}

/-- The surroundings of a call that takes back no terminal node. -/
def Setting.Lasting (setting : Setting) : Prop :=
  setting.recovering -> ∀ plan, setting.start.plan? = some plan -> ∀ node ∈ plan.nodes, node.status.Terminal -> ∀ attempt,
      setting.start.facts.OpenAttempt attempt -> attempt.attemptId = node.attemptId ->
        Outlasts node attempt

theorem Setting.Move.proceeds (move : setting.Move facts plan after) (distinct : plan.Distinct)
    (tracked : plan.Tracked) (lasting : setting.Lasting) : Proceeds plan after := by
  cases move with
  | refreshed ledger accepted => exact refresh_proceeds distinct accepted
  | prepared node args calm located certain free accepted
  | readied attempt recovering opened accepted
  | started attempt now recovering opened version accepted
  | staled node args located reads accepted
  | lost attempt args recovering opened accepted
  | retired node args recovering located accepted => exact transition_proceeds distinct accepted
  | closed attempt node ledger status receipts now named consulted located version current judged accepted =>
    exact transition_proceeds distinct accepted
  | restarted attempt node reason recovering opened located unstarted unsettled lingering accepted =>
    rcases restartSafe_ok accepted with ⟨found, there, own, _, rfl⟩
    cases located.symm.trans there
    rcases Plan.node_ok located with ⟨listed, name⟩
    rw [← name]
    refine revised_proceeds distinct listed ?_ _
    intro terminal
    have own := own.resolve_left ((tracked node listed).attempted terminal.begun)
    rcases lingering terminal own with ⟨open_, first, started, old, present, _, kind, status, attempted⟩
    have outlasts := lasting recovering first started old present (status ▸ terminal) attempt open_
      (own.symm.trans attempted.symm)
    by_cases edit : node.kind = .edit
    · exact outlasts.begun (unstarted edit).1
    · have recorded := outlasts.settled (kind ▸ edit)
      exact recorded.2 (unsettled recorded.1)
  | replaced readings candidate reason evidenceRefs calm read accepted =>
    rcases replanned_ok accepted with ⟨_, valid, refreshed⟩
    have next : after.planVersion = plan.planVersion + 1 := refresh_version valid.distinct refreshed
    refine ⟨next ▸ Int.le_add_one (le_refl _), ?_⟩
    intro same
    exact absurd (same.trans next) (ne_of_lt (Int.lt_succ _))

/-- Every plan of the journal proceeds to every later one, the last included. -/
structure Chained (journal : Journal) : Prop where
  outcomes : OutcomesFinal journal
  latest : ∀ plan ∈ journal.plans, ∀ last, journal.plan? = some last ->
    Proceeds plan last

omit [Hashing] [Decoding] in
theorem chained_nil : Chained [] := ⟨List.Pairwise.nil, fun _ member => False.elim (List.not_mem_nil member)⟩

variable {journal : Journal} {entries : List Entry}

omit [Hashing] [Decoding] in
theorem Chained.append_other (chained : Chained journal)
    (others : ∀ entry ∈ entries, entry.plan? = none) : Chained (journal ++ entries) := by
  have same : Journal.plans (journal ++ entries) = journal.plans :=
    Journal.filterMap_append_of_none journal others
  have last : Journal.plan? (journal ++ entries) = journal.plan? := congrArg List.getLast? same
  refine ⟨?_, ?_⟩
  · rw [OutcomesFinal, same]
    exact chained.outcomes
  · rw [same, last]
    exact chained.latest

omit [Hashing] [Decoding] in
theorem Chained.append_plan (chained : Chained journal) {plan : Plan}
    (proceeds : ∀ old ∈ journal.plans, Proceeds old plan) :
    Chained (journal ++ [.plan plan]) := by
  have plans : Journal.plans (journal ++ [.plan plan]) = journal.plans ++ [plan] :=
    List.filterMap_append
  refine ⟨?_, ?_⟩
  · rw [OutcomesFinal, plans, List.pairwise_append]
    refine ⟨chained.outcomes, List.pairwise_singleton _ _, ?_⟩
    intro old listed new member
    rw [List.mem_singleton.mp member]
    exact (proceeds old listed).outcomes
  · intro old listed last held
    cases (Journal.plan?_append_plan journal plan).symm.trans held
    rw [plans] at listed
    rcases List.mem_append.mp listed with earlier | here
    · exact proceeds old earlier
    · rw [List.mem_singleton.mp here]
      exact .refl plan

theorem Setting.Effect.chained (effect : setting.Effect journal entries) (regular : journal.facts.Regular)
    (tracked : journal.facts.Tracked) (lasting : setting.Lasting) (chained : Chained journal) :
    Chained (journal ++ entries) := by
  cases effect.commits with
  | none others => exact chained.append_other others
  | created plan calm absent fresh valid same =>
    subst same
    refine chained.append_plan ?_
    intro old listed
    have empty : journal.plans = [] := List.getLast?_eq_none_iff.mp absent
    rw [empty] at listed
    exact False.elim (List.not_mem_nil listed)
  | moved before after held valid move same =>
    subst same
    refine chained.append_plan ?_
    intro old listed
    have distinct := (regular.valid before held).distinct
    exact (chained.latest old listed before held).trans
      (move.proceeds distinct (tracked before held) lasting)

/-! ## Runs -/

/-- What holds of every state of a lasting run. -/
structure Lasting (state : Runtime) : Prop where
  reached : Reached state
  tracked : state.journal.facts.Tracked
  chained : Chained state.journal

theorem Lasting.step {session : PlanSession} {state : Runtime} (known : Lasting state) {input : Input}
    (lasting : input.call.Lasting state) : Lasting (state.step session input) := by
  have both : (state.step session input).journal.facts.Regular ∧
      (state.step session input).journal.facts.Tracked ∧ Chained (state.step session input).journal := by
    refine step_journal known.reached.sound False.elim
      (fun journal => journal.facts.Regular ∧ journal.facts.Tracked ∧ Chained journal) ?_
      ⟨known.reached.regular, known.tracked, known.chained⟩
    rintro journal entries effect ⟨regular, tracked, chained⟩
    exact ⟨effect.change.regular regular, effect.change.tracked regular tracked,
      effect.chained regular tracked lasting chained⟩
  exact ⟨reached_step known.reached input, both.2.1, both.2.2⟩

/-- In a run without a recovery that takes back a terminal node, the outcomes
of a plan version are final. -/
theorem terminal_outcomes_final (session : PlanSession) (inputs : List Input)
    (along : (runtimeMachine session).Along (fun state input => input.call.Lasting state)
      Runtime.fresh inputs) :
    OutcomesFinal ((runtimeMachine session).run Runtime.fresh inputs).journal := by
  have lasting := (runtimeMachine session).invariant_along
    (fun state input (known : Lasting state) lasting => known.step lasting)
    ⟨reached_fresh, tracked_fresh, chained_nil⟩ inputs along
  exact lasting.chained.outcomes

end Sealing

section FailedRead

attribute [local instance] Hashing.alternating Decoding.emptyDict

def readPlan : Plan := { twoReads with nodes := [readNode "r"] }

def readSession : PlanSession := ⟨readRegistry, readPlan.identity⟩

/-- The read reports a success without evidence, so it fails when it is settled. -/
def failedRead : List Input :=
  [calmly .openSession, calmly (.create readPlan), calmly (.prepare "r"),
    calmly (.recordResult 0 { NodeResult.none with status := "success" })]

/-- The process crashes after the plan is committed and before the attempt is
reconciled; the recovery makes the node ready again. -/
theorem terminal_outcome_reset :
    ¬ OutcomesFinal ((runtimeMachine readSession).run Runtime.fresh
      (failedRead ++ [⟨.settle 1, calmAnswers "1" true, some 1⟩, calmly .openSession,
        calmly (.recover false)])).journal := by
  decide +kernel

/-- Where `settle` ends before the recovery, the outcome is final. -/
theorem terminal_outcome_kept :
    OutcomesFinal ((runtimeMachine readSession).run Runtime.fresh
      (failedRead ++ [calmly (.settle 1), calmly (.recover false)])).journal := by
  refine terminal_outcomes_final readSession _ ⟨False.elim, False.elim, False.elim, False.elim,
    False.elim, ?_, True.intro⟩
  intro _ plan _ node _ _ attempt opened _
  have reconciled : (latest Attempt.attemptId ((runtimeMachine readSession).run Runtime.fresh
      (failedRead ++ [calmly (.settle 1)])).journal.attempts).all
        (fun attempt => attempt.phase = .reconciled) = true := by decide +kernel
  exact absurd (of_decide_eq_true (List.all_eq_true.mp reconciled attempt opened.1)) opened.2

end FailedRead

end PlanRuntime
end FixLoop
