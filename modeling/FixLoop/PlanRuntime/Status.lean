import FixLoop.Library.Machine
import FixLoop.PlanRuntime.Reducer

namespace FixLoop
namespace PlanRuntime

open Library

/-!
# The overall status of a plan

Four operations rebuild a plan.  `transition` computes the overall status from
the statuses of the nodes, and so does every step of `refresh`.
`restart_safe` and `replan` write `active` whatever the nodes are.  What they
write is right except in two situations, and a run of the four operations
keeps the overall status in agreement with the nodes exactly when it avoids
them.
-/

/-- Every leaf has succeeded, and every node has succeeded or is a stale
node that only reads. -/
def Completed (nodes : List PlanNode) : Prop :=
  (∀ node ∈ leaves nodes, node.status = .succeeded) ∧
    ∀ node ∈ nodes, node.status = .succeeded ∨
      (node.status = .stale ∧ (node.kind = .explore ∨ node.kind = .analyze))

def HasUncertain (nodes : List PlanNode) : Prop :=
  ∃ node ∈ nodes, node.status = .uncertain

/-- The overall status is the function of the statuses of the nodes. -/
structure StatusAgrees (plan : Plan) : Prop where
  uncertain : plan.status = .uncertain <-> HasUncertain plan.nodes
  completed : ¬ HasUncertain plan.nodes -> (plan.status = .completed <-> Completed plan.nodes)
  active : ¬ HasUncertain plan.nodes -> ¬ Completed plan.nodes -> plan.status = .active

variable (nodes : List PlanNode)

theorem allCompleted_iff : allCompleted nodes = true <-> Completed nodes := by
  rw [allCompleted, Bool.and_eq_true, List.all_eq_true, List.all_eq_true, Completed]
  refine and_congr ?_ ?_
  · exact forall_congr' fun node => imp_congr_right fun _ => decide_eq_true_iff
  · refine forall_congr' fun node => imp_congr_right fun _ => ?_
    simp only [Bool.or_eq_true, Bool.and_eq_true, decide_eq_true_eq, List.mem_cons,
      List.not_mem_nil, or_false]

theorem any_uncertain_iff :
    nodes.any (fun node => node.status = .uncertain) = true <-> HasUncertain nodes := by
  rw [List.any_eq_true, HasUncertain]
  exact exists_congr fun node => and_congr_right fun _ => decide_eq_true_iff

theorem statusAgrees_iff (plan : Plan) : StatusAgrees plan <-> plan.status = overall plan.nodes := by
  unfold overall
  by_cases uncertain : HasUncertain plan.nodes
  · rw [if_pos ((any_uncertain_iff _).mpr uncertain)]
    constructor
    · exact fun agrees => agrees.uncertain.mpr uncertain
    · intro same
      exact ⟨iff_of_true same uncertain, fun absent => absurd uncertain absent,
        fun absent => absurd uncertain absent⟩
  · rw [if_neg fun found => uncertain ((any_uncertain_iff _).mp found)]
    by_cases completed : Completed plan.nodes
    · rw [if_pos ((allCompleted_iff _).mpr completed)]
      constructor
      · exact fun agrees => (agrees.completed uncertain).mpr completed
      · intro same
        refine ⟨iff_of_false (fun other => ?_) uncertain, fun _ => iff_of_true same completed,
          fun _ open_ => absurd completed open_⟩
        cases same.symm.trans other
    · rw [if_neg fun found => completed ((allCompleted_iff _).mp found)]
      constructor
      · exact fun agrees => agrees.active uncertain completed
      · intro same
        refine ⟨iff_of_false (fun other => ?_) uncertain,
          fun _ => iff_of_false (fun other => ?_) completed, fun _ _ => same⟩
        · cases same.symm.trans other
        · cases same.symm.trans other

section Sealing

variable [Hashing]

/-! ## The operations -/

variable {plan after : Plan} {nodeId reason : String} {ledger : Ledger} {facts : ReplanFacts}

variable {status : NodeStatus} {args : TransitionArgs} {attemptId : String} {old candidate : Plan}

theorem transition_agrees (accepted : transition plan nodeId status args = .ok after) :
    StatusAgrees after := by
  rcases transition_ok accepted with ⟨node, _, _, _, _, rfl⟩
  exact (statusAgrees_iff _).mpr rfl

theorem refresh_agrees (distinct : plan.Distinct) (agrees : StatusAgrees plan)
    (accepted : refresh ledger plan = .ok after) : StatusAgrees after := by
  refine refresh_induction ?_ distinct agrees accepted
  intro before after admits _
  rcases admits.taken with ⟨node, status, args, _, _, _, moved⟩
  exact transition_agrees moved

/-- The guards of `restart_safe`. -/
def RestartGuards (plan : Plan) (nodeId attemptId reason : String) : Prop :=
  ∃ node, plan.node nodeId = .ok node ∧
    (node.attemptId = "" ∨ node.attemptId = attemptId) ∧
    (node.kind = .edit -> reason = "prepared_not_dispatched")

theorem restartSafe_isOk_iff :
    (restartSafe plan nodeId attemptId reason).isOk = true <->
      RestartGuards plan nodeId attemptId reason := by
  constructor
  · intro accepted
    cases result : restartSafe plan nodeId attemptId reason with
    | error fault =>
      rw [result] at accepted
      cases accepted
    | ok after =>
      rcases restartSafe_ok result with ⟨node, located, current, permitted, _⟩
      exact ⟨node, located, current, permitted⟩
  · rintro ⟨node, located, current, permitted⟩
    have kept : ¬ (node.attemptId ≠ "" ∧ node.attemptId ≠ attemptId) := by
      rintro ⟨filled, other⟩
      exact current.elim filled other
    have allowed : ¬ (node.kind = .edit ∧ reason ≠ "prepared_not_dispatched") :=
      fun refused => refused.2 (permitted refused.1)
    rw [restartSafe, located]
    dsimp only
    rw [if_neg kept, if_neg allowed]
    rfl

/-- The nodes other than the one that is reset are not uncertain. -/
def OthersCertain (plan : Plan) (nodeId : String) : Prop :=
  ∀ node ∈ plan.nodes, node.nodeId ≠ nodeId -> node.status ≠ .uncertain

theorem restartSafe_agrees_iff (accepted : restartSafe plan nodeId attemptId reason = .ok after) :
    StatusAgrees after <-> OthersCertain plan nodeId := by
  rcases restartSafe_ok accepted with ⟨node, located, _, _, rfl⟩
  rcases Plan.node_ok located with ⟨listed, named⟩
  have reset : (node.reset reason) ∈ plan.replaceNode nodeId (node.reset reason) :=
    Plan.mem_replaceNode_new listed named
  have unfinished : ¬ Completed (plan.replaceNode nodeId (node.reset reason)) := by
    intro completed
    rcases completed.2 _ reset with impossible | ⟨impossible, _⟩ <;> cases impossible
  constructor
  · intro agrees other member different uncertain
    have present : HasUncertain (plan.replaceNode nodeId (node.reset reason)) :=
      ⟨other, Plan.mem_replaceNode_of_ne member different, uncertain⟩
    cases agrees.uncertain.mpr present
  · intro certain
    have absent : ¬ HasUncertain (plan.replaceNode nodeId (node.reset reason)) := by
      rintro ⟨other, member, uncertain⟩
      rcases Plan.mem_replaceNode member with rfl | ⟨listed, different⟩
      · cases uncertain
      · exact certain other listed different uncertain
    refine ⟨iff_of_false nofun absent, fun _ => iff_of_false nofun unfinished, fun _ _ => rfl⟩

/-- Some node of the candidate starts anew. -/
def StartsAnew (facts : ReplanFacts) (old candidate : Plan) : Prop :=
  ∃ node ∈ candidate.nodes, carriedOver facts old node = none

theorem rebuiltPlan_agrees (reason : String) (evidenceRefs : List String)
    (starts : StartsAnew facts old candidate) :
    StatusAgrees (rebuiltPlan facts old candidate reason evidenceRefs) := by
  rcases starts with ⟨node, listed, anew⟩
  have pending : node.reset "" ∈ replannedNodes facts old candidate := by
    refine List.mem_map.mpr ⟨node, listed, ?_⟩
    rw [anew]
    rfl
  have absent : ¬ HasUncertain (replannedNodes facts old candidate) := by
    rintro ⟨other, member, uncertain⟩
    rcases mem_replannedNodes member with ⟨_, succeeded⟩ | ⟨source, _, rfl⟩
    · cases succeeded.symm.trans uncertain
    · cases uncertain
  have unfinished : ¬ Completed (replannedNodes facts old candidate) := by
    intro completed
    rcases completed.2 _ pending with impossible | ⟨impossible, _⟩ <;> cases impossible
  exact ⟨iff_of_false nofun absent, fun _ => iff_of_false nofun unfinished, fun _ _ => rfl⟩

/-- A plan without waiting nodes is left alone by `refresh`. -/
theorem refresh_eq_self (distinct : plan.Distinct)
    (settled : ∀ node ∈ plan.nodes, node.status = .succeeded)
    (accepted : refresh ledger plan = .ok after) : after = plan := by
  rcases (refresh_ok distinct accepted).cases_head with same | ⟨middle, admits, _⟩
  · exact same.symm
  · rcases admits.taken with ⟨node, status, args, listed, waiting, _, _⟩
    rw [settled node listed] at waiting
    exact absurd waiting (by decide)

omit [Hashing] in
theorem carriedNodes_succeeded (carried : ¬ StartsAnew facts old candidate) {node : PlanNode}
    (member : node ∈ replannedNodes facts old candidate) : node.status = .succeeded := by
  rcases List.mem_map.mp member with ⟨source, listed, rfl⟩
  cases found : carriedOver facts old source with
  | none => exact False.elim (carried ⟨source, listed, found⟩)
  | some previous =>
    rcases Option.filter_eq_some_iff.mp found with ⟨_, judged⟩
    rw [Bool.and_eq_true, decide_eq_true_eq] at judged
    exact judged.1

theorem replanned_agrees_iff [Decoding] {registry : Registry} {identity : Identity}
    {evidenceRefs : List String}
    (accepted : replanned facts registry identity old candidate reason evidenceRefs = .ok after) :
    StatusAgrees after <-> StartsAnew facts old candidate := by
  rcases replanned_ok accepted with ⟨_, valid, refreshed⟩
  constructor
  · intro agrees
    by_contra carried
    have succeeded : ∀ node ∈ replannedNodes facts old candidate,
        node.status = .succeeded := fun node => carriedNodes_succeeded carried
    have same := refresh_eq_self valid.distinct succeeded refreshed
    subst same
    have absent : ¬ HasUncertain (replannedNodes facts old candidate) := by
      rintro ⟨node, member, uncertain⟩
      cases (succeeded node member).symm.trans uncertain
    have completed : Completed (replannedNodes facts old candidate) :=
      ⟨fun node member => succeeded node (List.mem_of_mem_filter member),
        fun node member => Or.inl (succeeded node member)⟩
    cases (agrees.completed absent).mpr completed
  · intro starts
    exact refresh_agrees valid.distinct (rebuiltPlan_agrees reason evidenceRefs starts) refreshed

theorem transition_valid (valid : plan.Valid) (accepted : transition plan nodeId status args = .ok after) :
    after.Valid := by
  have distinct := transition_distinct valid.distinct accepted
  rcases transition_ok accepted with ⟨node, _, _, _, _, rfl⟩
  exact ⟨distinct, fun empty => valid.nonempty (List.map_eq_nil_iff.mp empty), valid.version⟩

theorem refresh_valid (valid : plan.Valid) (accepted : refresh ledger plan = .ok after) : after.Valid := by
  refine refresh_induction ?_ valid.distinct valid accepted
  intro before after admits known
  rcases admits.taken with ⟨node, status, args, _, _, _, moved⟩
  exact transition_valid known moved

theorem restartSafe_valid (valid : plan.Valid)
    (accepted : restartSafe plan nodeId attemptId reason = .ok after) : after.Valid := by
  rcases restartSafe_ok accepted with ⟨node, located, _, _, rfl⟩
  have same : (node.reset reason).nodeId = nodeId := (Plan.node_ok located).2
  exact ⟨distinct_revised valid.distinct same _,
    fun empty => valid.nonempty (List.map_eq_nil_iff.mp empty), valid.version⟩

/-! ## Runs -/

inductive PlanStep where
  | transition (nodeId : String) (status : NodeStatus) (args : TransitionArgs)
  | refresh (ledger : Ledger)
  | restartSafe (nodeId attemptId reason : String)
  | replan (facts : ReplanFacts) (candidate : Plan) (reason : String) (evidenceRefs : List String)

section Decoded

variable [Decoding] (registry : Registry) (identity : Identity)

def PlanStep.apply (plan : Plan) : PlanStep -> Except Fault Plan
  | transition nodeId status args => PlanRuntime.transition plan nodeId status args
  | refresh ledger => PlanRuntime.refresh ledger plan
  | restartSafe nodeId attemptId reason => PlanRuntime.restartSafe plan nodeId attemptId reason
  | replan facts candidate reason evidenceRefs =>
    replanned facts registry identity plan candidate reason evidenceRefs

/-- A step that raises leaves the plan as it is. -/
def planMachine : Machine Plan PlanStep where
  step plan step :=
    match step.apply registry identity plan with
    | .ok after => after
    | .error _ => plan

/-- The guards of `replan`: its own checks, the validation of the new plan,
and a refresh that finds every dependency. -/
def ReplanGuards (plan : Plan) (facts : ReplanFacts) (candidate : Plan) (reason : String)
    (evidenceRefs : List String) : Prop :=
  replanGate facts plan candidate reason evidenceRefs = .ok () ∧
    validatePlan (rebuiltPlan facts plan candidate reason evidenceRefs) registry identity = .ok () ∧
    (refresh facts.ledger (rebuiltPlan facts plan candidate reason evidenceRefs)).isOk = true

/-- The step is not one of the two that write a wrong status: a restart while
another node is uncertain, and a replan that carries over every node. -/
def KeepsStatus (plan : Plan) : PlanStep -> Prop
  | .transition _ _ _ => True
  | .refresh _ => True
  | .restartSafe nodeId attemptId reason =>
    RestartGuards plan nodeId attemptId reason -> OthersCertain plan nodeId
  | .replan facts candidate reason evidenceRefs =>
    ReplanGuards registry identity plan facts candidate reason evidenceRefs ->
      StartsAnew facts plan candidate

variable {registry identity}

theorem replanned_isOk_iff {plan : Plan} {facts : ReplanFacts} {candidate : Plan} {reason : String}
    {evidenceRefs : List String} :
    (replanned facts registry identity plan candidate reason evidenceRefs).isOk = true <->
      ReplanGuards registry identity plan facts candidate reason evidenceRefs := by
  constructor
  · intro accepted
    cases result : replanned facts registry identity plan candidate reason evidenceRefs with
    | error fault =>
      rw [result] at accepted
      cases accepted
    | ok after =>
      rcases bind_ok result with ⟨_, gate, result⟩
      rcases bind_ok result with ⟨_, valid, refreshed⟩
      refine ⟨gate, valid, ?_⟩
      rw [refreshed]
      rfl
  · rintro ⟨gate, valid, refreshed⟩
    unfold replanned
    rw [gate]
    change (validatePlan _ registry identity >>= fun _ => refresh _ _).isOk = true
    rw [valid]
    exact refreshed

/-! ## The exact runs -/

theorem planStep_valid {plan after : Plan} (valid : plan.Valid) {step : PlanStep}
    (accepted : step.apply registry identity plan = .ok after) : after.Valid := by
  cases step with
  | transition nodeId status args => exact transition_valid valid accepted
  | refresh ledger => exact refresh_valid valid accepted
  | restartSafe nodeId attemptId reason => exact restartSafe_valid valid accepted
  | replan facts candidate reason evidenceRefs =>
    rcases replanned_ok accepted with ⟨_, rebuilt, refreshed⟩
    exact refresh_valid rebuilt refreshed

/-- One step from an agreeing plan leads to an agreeing plan exactly when it
avoids the two situations. -/
theorem planStep_agrees_iff {plan : Plan} (valid : plan.Valid) (agrees : StatusAgrees plan)
    (step : PlanStep) :
    StatusAgrees ((planMachine registry identity).step plan step) <->
      KeepsStatus registry identity plan step := by
  change StatusAgrees (match step.apply registry identity plan with
    | .ok after => after
    | .error _ => plan) <-> _
  cases applied : step.apply registry identity plan with
  | error fault =>
    refine iff_of_true agrees ?_
    cases step with
    | transition nodeId status args | refresh ledger => exact True.intro
    | restartSafe nodeId attemptId reason =>
      intro guards
      have accepted := restartSafe_isOk_iff.mpr guards
      change restartSafe plan nodeId attemptId reason = .error fault at applied
      rw [applied] at accepted
      cases accepted
    | replan facts candidate reason evidenceRefs =>
      intro guards
      have accepted := replanned_isOk_iff.mpr guards
      change replanned facts registry identity plan candidate reason evidenceRefs = .error fault
        at applied
      rw [applied] at accepted
      cases accepted
  | ok after =>
    cases step with
    | transition nodeId status args => exact iff_of_true (transition_agrees applied) True.intro
    | refresh ledger =>
      exact iff_of_true (refresh_agrees valid.distinct agrees applied) True.intro
    | restartSafe nodeId attemptId reason =>
      change restartSafe plan nodeId attemptId reason = .ok after at applied
      have guards := restartSafe_isOk_iff.mp (congrArg Except.isOk applied)
      exact (restartSafe_agrees_iff applied).trans ⟨fun certain _ => certain, fun keeps => keeps guards⟩
    | replan facts candidate reason evidenceRefs =>
      change replanned facts registry identity plan candidate reason evidenceRefs = .ok after
        at applied
      have guards := replanned_isOk_iff.mp (congrArg Except.isOk applied)
      exact (replanned_agrees_iff applied).trans ⟨fun starts _ => starts, fun keeps => keeps guards⟩

/-- From a fresh valid plan, the overall status agrees with the nodes in all
plans of a run exactly when no step restarts a node while another one is
uncertain, or replaces the graph by one that carries over every node. -/
theorem overall_status_agrees (start : Plan) (steps : List PlanStep)
    (valid : validatePlan start registry identity = .ok ())
    (pending : ∀ node ∈ start.nodes, node.status = .pending)
    (active : start.status = .active) :
    (planMachine registry identity).Visits StatusAgrees start steps <->
      (planMachine registry identity).Along (KeepsStatus registry identity) start steps := by
  have known := validatePlan_ok valid
  have initially : StatusAgrees start := by
    have absent : ¬ HasUncertain start.nodes := by
      rintro ⟨node, member, uncertain⟩
      cases (pending node member).symm.trans uncertain
    have unfinished : ¬ Completed start.nodes := by
      intro completed
      rcases List.exists_mem_of_ne_nil start.nodes known.nonempty with ⟨node, member⟩
      have waiting := pending node member
      rcases completed.2 node member with impossible | ⟨impossible, _⟩
      · cases waiting.symm.trans impossible
      · cases waiting.symm.trans impossible
    refine ⟨iff_of_false ?_ absent, fun _ => iff_of_false ?_ unfinished, fun _ _ => active⟩
    · intro impossible
      cases active.symm.trans impossible
    · intro impossible
      cases active.symm.trans impossible
  refine (planMachine registry identity).visits_iff_along ?_ ?_ known initially steps
  · intro plan step holds
    change (match step.apply registry identity plan with
      | .ok after => after
      | .error _ => plan).Valid
    cases applied : step.apply registry identity plan with
    | error fault => exact holds
    | ok after => exact planStep_valid holds applied
  · exact fun plan step holds agrees => planStep_agrees_iff holds agrees step

end Decoded

end Sealing

section TwoReads

attribute [local instance] Hashing.constant Decoding.emptyDict

def readNode (nodeId : String) : PlanNode :=
  { nodeId := nodeId, kind := .explore, objective := "read", dependsOn := [],
    toolAllowlist := ["read_file"], sideEffect := "read",
    completion := [⟨"observation_present", []⟩], inputEvidenceRefs := [], outputEvidenceRefs := [],
    status := .pending, attemptId := "", failure := "", receiptRefs := [], startedAt := 0,
    endedAt := 0, toolName := "read_file", argumentsJson := "\x7b\x7d" }

def twoReads : Plan :=
  { planId := "plan", taskId := "task", runId := "run", workspaceId := "workspace",
    sessionId := "session", nodes := [readNode "a", readNode "b"], schemaVersion := "1",
    planVersion := 1, stateRevision := 0, createdAt := 0, status := .active, planChecksum := "0",
    parentPlanChecksum := "", replanReason := "", replanEvidenceRefs := [] }

def readRegistry : Registry := [("read_file", ⟨some "read"⟩)]

/-- Both reads are started and the first one is left uncertain. -/
def inFlight : List PlanStep :=
  [.transition "a" .ready {}, .transition "b" .ready {}, .transition "a" .running { attemptId := "A" },
    .transition "b" .running { attemptId := "B" }, .transition "a" .uncertain { attemptId := "A" }]

/-- Restarting the second read hides that the first one is uncertain. -/
theorem overall_status_disagrees :
    validatePlan twoReads readRegistry twoReads.identity = .ok () ∧
      (∀ node ∈ twoReads.nodes, node.status = .pending) ∧ twoReads.status = .active ∧
      ¬ (planMachine readRegistry twoReads.identity).Visits StatusAgrees twoReads
        (inFlight ++ [.restartSafe "b" "B" "old_execution_stopped"]) := by
  refine ⟨rfl, ?_, rfl, ?_⟩
  · intro node member
    rcases List.mem_cons.mp member with rfl | member
    · rfl
    · rw [List.mem_singleton.mp member]
      rfl
  · intro visits
    have last := visits.2.2.2.2.2.2
    have present : HasUncertain ((planMachine readRegistry twoReads.identity).run twoReads
        (inFlight ++ [.restartSafe "b" "B" "old_execution_stopped"])).nodes :=
      ⟨_, List.mem_cons_self, rfl⟩
    cases last.uncertain.mpr present

/-- Without the restart the overall status agrees throughout. -/
theorem overall_status_agrees_inFlight :
    (planMachine readRegistry twoReads.identity).Visits StatusAgrees twoReads inFlight := by
  refine (overall_status_agrees twoReads inFlight rfl ?_ rfl).mpr
    ⟨True.intro, True.intro, True.intro, True.intro, True.intro, True.intro⟩
  intro node member
  rcases List.mem_cons.mp member with rfl | member
  · rfl
  · rw [List.mem_singleton.mp member]
    rfl

end TwoReads

end PlanRuntime
end FixLoop
