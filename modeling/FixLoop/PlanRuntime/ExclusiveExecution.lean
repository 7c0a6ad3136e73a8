import FixLoop.PlanRuntime.TerminalOutcomes
import FixLoop.PlanRuntime.WriteOnce

namespace FixLoop
namespace PlanRuntime

open Library Program

/-!
# Exclusive execution

`prepare` starts a node only next to at most one other one, and then only if
both explore.  `recover` starts the nodes of open attempts without this guard.
The nodes that run during a recovery are those that ran before it and those
that its open attempts belong to, so the recovery is harmless exactly as far
as these are few enough.
-/

def Plan.running (plan : Plan) : List PlanNode :=
  plan.nodes.filter fun node => node.status = .running

/-- Few enough nodes to run side by side. -/
def SideBySide (nodes : List PlanNode) : Prop :=
  nodes.length ≤ 2 ∧ (nodes.length = 2 -> ∀ node ∈ nodes, node.kind = .explore)

instance (nodes : List PlanNode) : Decidable (SideBySide nodes) := by
  unfold SideBySide
  infer_instance

/-- The nodes that run or that an open attempt of the plan version belongs to. -/
def Facts.engaged (facts : Facts) (plan : Plan) : List PlanNode :=
  plan.nodes.filter (fun node => node.status = .running ||
    (latest Attempt.attemptId facts.attempts).any (fun attempt => attempt.phase ≠ .reconciled &&
      attempt.planVersion = plan.planVersion && attempt.nodeId = node.nodeId))

/-- The call is not a recovery of too many nodes. -/
def Call.Contained (state : Runtime) (call : Call) : Prop :=
  call.Recovers -> ∀ plan, state.journal.plan? = some plan ->
    SideBySide (state.journal.facts.engaged plan)

theorem mem_running {plan : Plan} {node : PlanNode} :
    node ∈ plan.running <-> node ∈ plan.nodes ∧ node.status = .running := by
  rw [Plan.running, List.mem_filter, decide_eq_true_eq]

theorem running_nodup {plan : Plan} (distinct : plan.Distinct) :
    (plan.running.map PlanNode.nodeId).Nodup :=
  distinct.sublist (List.Sublist.map _ List.filter_sublist)

theorem SideBySide.of_subset {fewer nodes : List PlanNode} (few : SideBySide nodes)
    (unique : (fewer.map PlanNode.nodeId).Nodup)
    (inside : ∀ node ∈ fewer, ∃ other ∈ nodes,
      other.nodeId = node.nodeId ∧ other.kind = node.kind) : SideBySide fewer := by
  have names : fewer.map PlanNode.nodeId ⊆ nodes.map PlanNode.nodeId := by
    intro name member
    rcases List.mem_map.mp member with ⟨node, listed, rfl⟩
    rcases inside node listed with ⟨other, present, same, _⟩
    exact List.mem_map.mpr ⟨other, present, same⟩
  have shorter := (List.subperm_of_subset unique names).length_le
  rw [List.length_map, List.length_map] at shorter
  refine ⟨shorter.trans few.1, ?_⟩
  intro two node listed
  rcases inside node listed with ⟨other, present, _, kind⟩
  rw [← kind]
  exact few.2 (le_antisymm few.1 (two ▸ shorter)) other present

section Sealing

variable [Hashing] {plan after : Plan}

variable {args : TransitionArgs} {node : PlanNode}

variable {status : NodeStatus} {journal : Journal}

/-- A transition to another status starts no node. -/
theorem transition_running {nodeId : String} (accepted : transition plan nodeId status args = .ok after)
    (runs : node ∈ after.running) :
    node ∈ plan.running ∨
      status = .running ∧ node.nodeId = nodeId ∧ ∃ old, plan.node nodeId = .ok old ∧
        old.kind = node.kind := by
  rcases transition_ok accepted with ⟨old, located, _, _, _, rfl⟩
  rcases mem_running.mp runs with ⟨listed, status⟩
  rcases Plan.mem_replaceNode listed with rfl | ⟨kept, _⟩
  · exact Or.inr ⟨status, (Plan.node_ok located).2, old, located, rfl⟩
  · exact Or.inl (mem_running.mpr ⟨kept, status⟩)

theorem refresh_running {ledger : Ledger} (distinct : plan.Distinct)
    (accepted : refresh ledger plan = .ok after) (runs : node ∈ after.running) : node ∈ plan.running := by
  refine refresh_induction
    (motive := fun reached => ∀ node ∈ reached.running, node ∈ plan.running) ?_ distinct
    (fun _ runs => runs) accepted node runs
  intro earlier later admits known other moves
  rcases admits.taken with ⟨target, status, args, _, _, goes, moved⟩
  rcases transition_running moved moves with kept | ⟨rfl, _⟩
  · exact known other kept
  · exact absurd goes (by decide)

theorem replanned_running [Decoding] {facts : ReplanFacts} {registry : Registry} {identity : Identity}
    {candidate : Plan} {reason : String} {evidenceRefs : List String}
    (accepted : replanned facts registry identity plan candidate reason evidenceRefs = .ok after) :
    node ∉ after.running := by
  intro runs
  rcases replanned_ok accepted with ⟨_, valid, refreshed⟩
  rcases mem_running.mp (refresh_running valid.distinct refreshed runs) with ⟨listed, status⟩
  rcases mem_replannedNodes listed with ⟨_, succeeded⟩ | ⟨source, _, rfl⟩
  · cases succeeded.symm.trans status
  · cases status

theorem prepared_sideBySide (distinct : after.Distinct) (located : plan.node node.nodeId = .ok node)
    (free : PlanSession.executionConflict node plan.running = false)
    (accepted : transition plan node.nodeId .running args = .ok after) : SideBySide after.running := by
  have inside : ∀ other ∈ after.running, ∃ known,
      known ∈ node :: plan.running ∧ known.nodeId = other.nodeId ∧ known.kind = other.kind := by
    intro other runs
    rcases transition_running accepted runs with kept | ⟨_, name, old, there, kind⟩
    · exact ⟨other, List.mem_cons_of_mem _ kept, rfl, rfl⟩
    · cases located.symm.trans there
      exact ⟨node, List.mem_cons_self, name.symm, kind⟩
  refine SideBySide.of_subset ?_ (running_nodup distinct) inside
  cases before : plan.running with
  | nil => exact ⟨Nat.le_succ 1, fun impossible => absurd impossible (Nat.succ_ne_self 1).symm⟩
  | cons first rest =>
    rw [before] at free
    simp only [PlanSession.executionConflict, List.isEmpty_cons, Bool.not_false, Bool.true_and,
      Bool.or_eq_false_iff, decide_eq_false_iff_not, not_not, List.any_eq_false,
      decide_eq_true_eq] at free
    have one : rest = [] := by
      have short := free.1.2
      rw [List.length_cons] at short
      exact List.length_eq_zero_iff.mp (by omega)
    subst one
    refine ⟨le_refl _, ?_⟩
    intro _ other member
    rcases List.mem_cons.mp member with rfl | member
    · exact free.1.1
    · exact free.2 other member

variable [Decoding] {setting : Setting} {facts : Facts}

theorem Setting.Move.sideBySide (move : setting.Move facts plan after) (calm : ¬ setting.recovering)
    (distinct : plan.Distinct) (valid : after.Valid) (few : SideBySide plan.running) :
    SideBySide after.running := by
  have fewer : (∀ node ∈ after.running, node ∈ plan.running) ->
      SideBySide after.running := fun inside =>
    few.of_subset (running_nodup valid.distinct) fun node runs => ⟨node, inside node runs, rfl, rfl⟩
  have moved : ∀ {nodeId status args}, status ≠ .running ->
      transition plan nodeId status args = .ok after -> SideBySide after.running := by
    intro nodeId status args other accepted
    refine fewer fun node runs => (transition_running accepted runs).resolve_right ?_
    exact fun started => other started.1
  cases move with
  | refreshed ledger accepted => exact fewer fun node runs => refresh_running distinct accepted runs
  | prepared node args calm located certain free accepted =>
    exact prepared_sideBySide valid.distinct located free accepted
  | readied attempt recovering opened accepted
  | started attempt now recovering opened version accepted
  | lost attempt args recovering opened accepted
  | retired node args recovering located accepted => exact absurd recovering calm
  | closed attempt node ledger status receipts now named consulted located version current judged accepted =>
    refine moved ?_ accepted
    rintro rfl
    exact absurd (judged ▸ judgement_mem ledger node attempt _ :
      NodeStatus.running ∈ [NodeStatus.uncertain, .cancelled, .succeeded, .failed]) (by decide)
  | staled node args located reads accepted => exact moved (by decide) accepted
  | restarted attempt node reason recovering opened located unstarted unsettled lingering accepted =>
    exact absurd recovering calm
  | replaced readings candidate reason evidenceRefs calm read accepted =>
    exact fewer fun node runs => absurd runs (replanned_running accepted)

/-! ## Moves of a recovery -/

/-- The facts during a recovery, compared with those at its start. -/
structure Setting.Contains (setting : Setting) (facts : Facts) : Prop where
  opened : ∀ attempt, facts.OpenAttempt attempt -> ∃ first,
    setting.start.facts.OpenAttempt first ∧ attempt.fixed = first.fixed
  plan : ∀ plan, facts.plan = some plan -> ∃ first,
    setting.start.plan? = some first ∧ plan.planVersion = first.planVersion ∧
      plan.nodes.map PlanNode.signature = first.nodes.map PlanNode.signature ∧
      ∀ node ∈ plan.running, ∃ other ∈ setting.start.facts.engaged first, other.nodeId = node.nodeId ∧
          other.kind = node.kind

omit [Hashing] [Decoding] in
theorem contains_start (setting : Setting) : setting.Contains setting.start.facts := by
  refine ⟨fun attempt opened => ⟨attempt, opened, rfl⟩, ?_⟩
  intro plan held
  refine ⟨plan, held, rfl, rfl, ?_⟩
  intro node runs
  rcases mem_running.mp runs with ⟨listed, status⟩
  refine ⟨node, List.mem_filter.mpr ⟨listed, ?_⟩, rfl, rfl⟩
  rw [decide_eq_true status, Bool.true_or]

omit [Decoding] in
/-- A transition keeps the nodes with their kinds. -/
theorem transition_signatures (distinct : plan.Distinct) {nodeId : String}
    (accepted : transition plan nodeId status args = .ok after) :
    after.nodes.map PlanNode.signature = plan.nodes.map PlanNode.signature := by
  rcases transition_ok accepted with ⟨node, located, _, _, _, rfl⟩
  rcases Plan.node_ok located with ⟨listed, rfl⟩
  exact signatures_replaceNode distinct listed rfl

omit [Hashing] [Decoding] in
/-- The node of an open attempt is engaged. -/
theorem mem_engaged {first : Plan} {attempt : Attempt} (opened : facts.OpenAttempt attempt)
    (listed : node ∈ first.nodes) (name : attempt.nodeId = node.nodeId)
    (version : attempt.planVersion = first.planVersion) : node ∈ facts.engaged first := by
  refine List.mem_filter.mpr ⟨listed, ?_⟩
  rw [Bool.or_eq_true, List.any_eq_true]
  refine Or.inr ⟨attempt, opened.1, ?_⟩
  simp only [Bool.and_eq_true, decide_eq_true_eq]
  exact ⟨⟨opened.2, version⟩, name⟩

omit [Hashing] [Decoding] in
/-- Where the nodes keep their kinds and those that start are engaged, the
plan stays contained. -/
theorem Setting.Contains.withPlan (contains : setting.Contains facts) (held : facts.plan = some plan)
    (version : after.planVersion = plan.planVersion)
    (signatures : after.nodes.map PlanNode.signature = plan.nodes.map PlanNode.signature)
    (starts : ∀ node ∈ after.running, node ∈ plan.running ∨ ∃ attempt,
      facts.OpenAttempt attempt ∧ attempt.nodeId = node.nodeId ∧
        attempt.planVersion = plan.planVersion) :
    setting.Contains (facts.withPlan after) := by
  refine ⟨contains.opened, ?_⟩
  intro other same
  cases same
  rcases contains.plan plan held with ⟨first, started, versions, kinds, inside⟩
  refine ⟨first, started, version.trans versions, signatures.trans kinds, ?_⟩
  intro node runs
  rcases starts node runs with kept | ⟨attempt, opened, name, current⟩
  · exact inside node kept
  · rcases contains.opened attempt opened with ⟨origin, open_, fixed⟩
    have listed : node.signature ∈ first.nodes.map PlanNode.signature :=
      kinds ▸ signatures ▸ List.mem_map_of_mem (mem_running.mp runs).1
    rcases List.mem_map.mp listed with ⟨known, present, equal⟩
    have named : known.nodeId = node.nodeId := congrArg Prod.fst equal
    have nodes : attempt.nodeId = origin.nodeId := congrArg (fun fields => fields.2.2.2.1) fixed
    have plans : attempt.planVersion = origin.planVersion := congrArg (fun fields => fields.2.2.1) fixed
    refine ⟨known, mem_engaged open_ present ?_ ?_, named, congrArg Prod.snd equal⟩
    · exact nodes.symm.trans (name.trans named.symm)
    · exact plans.symm.trans (current.trans versions)

theorem Setting.Move.contains (move : setting.Move facts plan after) (recovering : setting.recovering)
    (held : facts.plan = some plan) (distinct : plan.Distinct) (contains : setting.Contains facts) :
    setting.Contains (facts.withPlan after) := by
  have moved : ∀ {nodeId status args}, status ≠ .running ->
      transition plan nodeId status args = .ok after -> setting.Contains (facts.withPlan after) := by
    intro nodeId status args other accepted
    have version : after.planVersion = plan.planVersion := by
      rcases transition_ok accepted with ⟨_, _, _, _, _, rfl⟩
      rfl
    refine contains.withPlan held version (transition_signatures distinct accepted) ?_
    intro node runs
    exact Or.inl ((transition_running accepted runs).resolve_right fun started => other started.1)
  cases move with
  | refreshed ledger accepted =>
    have advance : Advance "" plan after := refresh_advance distinct accepted
    exact contains.withPlan held advance.version advance.signatures
      (fun node runs => Or.inl (refresh_running distinct accepted runs))
  | prepared node args calm located certain free accepted
  | replaced readings candidate reason evidenceRefs calm read accepted => exact absurd recovering calm
  | readied attempt recovering opened accepted
  | staled node args located reads accepted
  | lost attempt args recovering opened accepted
  | retired node args recovering located accepted => exact moved (by decide) accepted
  | started attempt now recovering opened version accepted =>
    have same : after.planVersion = plan.planVersion := by
      rcases transition_ok accepted with ⟨_, _, _, _, _, rfl⟩
      rfl
    refine contains.withPlan held same (transition_signatures distinct accepted) ?_
    intro node runs
    rcases transition_running accepted runs with kept | ⟨_, name, _⟩
    · exact Or.inl kept
    · exact Or.inr ⟨attempt, opened, name.symm, version⟩
  | closed attempt node ledger status receipts now named consulted located version current judged accepted =>
    refine moved ?_ accepted
    rintro rfl
    exact absurd (judged ▸ judgement_mem ledger node attempt _ :
      NodeStatus.running ∈ [NodeStatus.uncertain, .cancelled, .succeeded, .failed]) (by decide)
  | restarted attempt node reason recovering opened located unstarted unsettled lingering accepted =>
    have advance : Advance "" plan after := restartSafe_advance distinct accepted
    refine contains.withPlan held advance.version advance.signatures ?_
    intro node runs
    rcases restartSafe_ok accepted with ⟨found, _, _, _, rfl⟩
    rcases mem_running.mp runs with ⟨listed, status⟩
    rcases Plan.mem_replaceNode listed with rfl | ⟨kept, _⟩
    · cases status
    · exact Or.inl (mem_running.mpr ⟨kept, status⟩)

theorem Setting.Change.contains {before after : Facts} (change : setting.Change before after)
    (recovering : setting.recovering) (regular : before.Regular) (contains : setting.Contains before) :
    setting.Contains after := by
  cases change with
  | same => exact contains
  | created plan calm absent fresh valid | operation operation calm => exact absurd recovering calm
  | moved old new held valid move =>
    exact move.contains recovering held (regular.valid old held).distinct contains
  | attempt attempt named continuing =>
    refine ⟨?_, contains.plan⟩
    rintro other ⟨listed, open_⟩
    rw [Facts.withAttempt, latest_append] at listed
    rcases mem_enter listed with rfl | earlier
    · rcases continuing recovering with ⟨previous, opened, same⟩
      rcases contains.opened previous opened with ⟨first, started, fixed⟩
      exact ⟨first, started, same.trans fixed⟩
    · exact contains.opened other ⟨earlier, open_⟩

omit [Hashing] [Decoding] in
/-- Contained nodes are as few as the engaged ones. -/
theorem Setting.Contains.sideBySide (contains : setting.Contains facts) (held : facts.plan = some plan)
    (distinct : plan.Distinct)
    (few : ∀ first, setting.start.plan? = some first ->
      SideBySide (setting.start.facts.engaged first)) : SideBySide plan.running := by
  rcases contains.plan plan held with ⟨first, started, _, _, inside⟩
  exact (few first started).of_subset (running_nodup distinct) inside

/-! ## Runs -/

/-- All plans of the journal run few enough nodes. -/
def Exclusive (journal : Journal) : Prop :=
  ∀ plan ∈ journal.plans, SideBySide plan.running

instance (journal : Journal) : Decidable (Exclusive journal) := by
  unfold Exclusive
  infer_instance

omit [Hashing] [Decoding] in
theorem unexecuted_running (fresh : plan.nodes.all PlanSession.unexecuted = true) :
    plan.running = [] := by
  refine List.filter_eq_nil_iff.mpr ?_
  intro node listed runs
  have idle := List.all_eq_true.mp fresh node listed
  simp only [PlanSession.unexecuted, Bool.and_eq_true, decide_eq_true_eq] at idle
  cases idle.1.1.1.symm.trans (of_decide_eq_true runs)

omit [Hashing] [Decoding] in
theorem Exclusive.append_plan (exclusive : Exclusive journal) (few : SideBySide plan.running) :
    Exclusive (journal ++ [.plan plan]) := by
  intro other member
  have plans : Journal.plans (journal ++ [.plan plan]) = journal.plans ++ [plan] :=
    List.filterMap_append
  rw [plans] at member
  rcases List.mem_append.mp member with earlier | here
  · exact exclusive other earlier
  · rw [List.mem_singleton.mp here]
    exact few

theorem Setting.Effect.exclusive {entries : List Entry} (effect : setting.Effect journal entries)
    (regular : journal.facts.Regular)
    (contained : setting.recovering -> setting.Contains journal.facts ∧ ∀ first, setting.start.plan? = some first -> SideBySide (setting.start.facts.engaged first))
    (exclusive : Exclusive journal) : Exclusive (journal ++ entries) := by
  cases effect.commits with
  | none others =>
    intro plan member
    rw [Journal.plans, Journal.filterMap_append_of_none journal others] at member
    exact exclusive plan member
  | created plan calm absent fresh valid same =>
    subst same
    refine exclusive.append_plan ?_
    rw [unexecuted_running fresh]
    exact ⟨Nat.zero_le 2, fun _ _ member => False.elim (List.not_mem_nil member)⟩
  | moved before after held valid move same =>
    subst same
    refine exclusive.append_plan ?_
    have distinct := (regular.valid before held).distinct
    have listed : before ∈ journal.plans := List.mem_of_getLast? held
    by_cases recovering : setting.recovering
    · rcases contained recovering with ⟨contains, few⟩
      exact (move.contains recovering held distinct contains).sideBySide rfl valid.distinct few
    · exact move.sideBySide recovering distinct valid (exclusive before listed)

/-- What holds of every state of a run whose recoveries are contained. -/
structure Excluding (state : Runtime) : Prop where
  reached : Reached state
  exclusive : Exclusive state.journal

theorem Excluding.step {session : PlanSession} {state : Runtime} (known : Excluding state)
    {input : Input} (contained : input.call.Contained state) :
    Excluding (state.step session input) := by
  have all : (state.step session input).journal.facts.Regular ∧
      (input.call.Recovers -> (input.setting session state False).Contains
        (state.step session input).journal.facts) ∧ Exclusive (state.step session input).journal := by
    refine step_journal known.reached.sound False.elim
      (fun journal => journal.facts.Regular ∧ (input.call.Recovers ->
        (input.setting session state False).Contains journal.facts) ∧ Exclusive journal) ?_
      ⟨known.reached.regular, fun _ => contains_start (input.setting session state False),
        known.exclusive⟩
    rintro journal entries effect ⟨regular, contains, exclusive⟩
    refine ⟨effect.change.regular regular, ?_, ?_⟩
    · exact fun recovering => effect.change.contains recovering regular (contains recovering)
    · exact effect.exclusive regular (fun recovering => ⟨contains recovering, contained recovering⟩)
        exclusive
  exact ⟨reached_step known.reached input, all.2.2⟩

/-- In a run whose recoveries are contained at most two nodes run in any
committed plan, and both explore; and while a node is uncertain, no
preparation succeeds. -/
theorem exclusive_execution (session : PlanSession) (inputs : List Input)
    (along : (runtimeMachine session).Along (fun state input => input.call.Contained state)
      Runtime.fresh inputs) :
    let journal := ((runtimeMachine session).run Runtime.fresh inputs).journal
    Exclusive journal ∧ ∀ plan, journal.plan? = some plan ->
      (∃ node ∈ plan.nodes, node.status = .uncertain) ->
      ∀ nodeId answers, (∃ fault, (session.prepare nodeId).outcome answers journal = .error fault) ∧
        ∀ entry ∈ ((session.prepare nodeId).execute answers 0 journal).1.flatten,
          entry.attempt? = none := by
  intro journal
  have known := (runtimeMachine session).invariant_along
    (fun state input (known : Excluding state) contained => known.step contained)
    ⟨reached_fresh, fun _ member => False.elim (List.not_mem_nil member)⟩ inputs along
  refine ⟨known.exclusive, ?_⟩
  rintro plan held ⟨node, listed, uncertain⟩ nodeId
  refine prepare_fails ?_
  intro later refreshed current after _ _
  right
  refine List.any_eq_true.mpr ⟨node, ?_, decide_eq_true uncertain⟩
  cases refreshed with
  | unchanged =>
    cases held.symm.trans after
    exact listed
  | changed old next ledger before accepted valid =>
    cases held.symm.trans before
    cases after
    refine refresh_keeps (known.reached.regular.valid plan held).distinct accepted listed ?_
    rw [uncertain]
    decide

end Sealing

section Crowded

attribute [local instance] Hashing.alternating Decoding.emptyDict

def readWritePlan : Plan := { writePlan with nodes := [readNode "r", writeNode] }

def readWriteSession : PlanSession :=
  ⟨("apply_patch", ⟨some "write"⟩) :: readRegistry, readWritePlan.identity⟩

/-- The read is started, and the process crashes. -/
def startedRead : List Input :=
  [calmly .openSession, calmly (.create readWritePlan), calmly (.prepare "r"), crashed,
    calmly .openSession]

/-- A recovery is interrupted after it has taken the read back, and the write
is started.  The next recovery starts the read beside it. -/
def crowding : List Input :=
  startedRead ++ [⟨.recover true, calmAnswers "1" true, some 1⟩, calmly .openSession,
    ⟨.prepare "w", calmAnswers "2" true, none⟩, crashed, calmly .openSession,
    ⟨.recover true, calmAnswers "3" false, none⟩]

theorem exclusive_execution_crowded :
    ¬ Exclusive ((runtimeMachine readWriteSession).run Runtime.fresh crowding).journal := by
  decide +kernel

/-- Where the first recovery ends, it is contained. -/
theorem exclusive_execution_recovered :
    Exclusive ((runtimeMachine readWriteSession).run Runtime.fresh
      (startedRead ++ [calmly (.recover true)])).journal := by
  refine (exclusive_execution readWriteSession (startedRead ++ [calmly (.recover true)]) ⟨False.elim,
    False.elim, False.elim, False.elim, False.elim, ?_, True.intro⟩).1
  intro _ plan held
  have few : (((runtimeMachine readWriteSession).run Runtime.fresh startedRead).journal.plan?.all
      (fun plan => SideBySide (((runtimeMachine readWriteSession).run Runtime.fresh
        startedRead).journal.facts.engaged plan))) = true := by decide +kernel
  exact of_decide_eq_true ((Option.all_eq_true _ _).mp few plan held)

end Crowded

end PlanRuntime
end FixLoop
