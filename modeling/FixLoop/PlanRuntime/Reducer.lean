import Mathlib.Algebra.Ring.Nat
import FixLoop.PlanRuntime.Journal

namespace FixLoop
namespace PlanRuntime

open Library

/-!
# The reducer

`transition` is the only way in which a node changes its status while it is
executed, `refresh` admits and blocks nodes by their inputs, and
`restart_safe` takes a node back to its beginning.  The evidence ledger is
what it answers at the moment of a call.
-/

/-- The answers of the evidence ledger: the kind and the attempt of a record
that it accepts, and whether the record is valid now. -/
structure Ledger where
  kind : String -> Option String
  attempt : String -> Option String
  valid : String -> Bool

/-- `completion`: every predicate has a matching reference, and all matching
references are valid and, observations apart, of the attempt itself. -/
def Ledger.completion (ledger : Ledger) (node : PlanNode) (refs : List String)
    (attemptId : String) : Bool :=
  node.completion.all (fun predicate =>
    let selected := if predicate.evidenceRefs = [] then refs else predicate.evidenceRefs
    let found := selected.filter (fun ref => ledger.kind ref == some predicate.kind)
    !found.isEmpty && found.all (fun ref => ledger.valid ref &&
      (predicate.kind == "observation_present" || ledger.attempt ref == some attemptId)))

/-- `TRANSITIONS`. -/
def NodeStatus.successors : NodeStatus -> List NodeStatus
  | pending => [.ready, .blocked, .stale, .cancelled]
  | ready => [.running, .blocked, .stale, .cancelled]
  | running => [.succeeded, .failed, .cancelled, .uncertain]
  | uncertain => [.succeeded, .failed, .blocked]
  | succeeded => [.stale, .uncertain]
  | blocked => [.stale]
  | stale => [.ready, .blocked]
  | failed => []
  | cancelled => []

/-- The keyword arguments of `transition`.  The clock is read for the nodes
that start or end. -/
structure TransitionArgs where
  attemptId : String := ""
  expectedVersion : Option Int := none
  evidence : Option Ledger := none
  failure : Option String := none
  outputEvidenceRefs : Option (List String) := none
  receiptRefs : Option (List String) := none
  now : ℚ := 0

/-- The judgement of a node that is to succeed. -/
def TransitionArgs.completes (args : TransitionArgs) (node : PlanNode) : Bool :=
  match args.evidence with
  | none => false
  | some ledger =>
    ledger.completion node (args.outputEvidenceRefs.getD node.outputEvidenceRefs) args.attemptId

/-- The node with its new status and the fields that go with it. -/
def movedNode (node : PlanNode) (status : NodeStatus) (args : TransitionArgs) : PlanNode :=
  { node with
    status := status,
    attemptId := if status = .running then args.attemptId else node.attemptId,
    failure := args.failure.getD node.failure,
    outputEvidenceRefs := args.outputEvidenceRefs.getD node.outputEvidenceRefs,
    receiptRefs := args.receiptRefs.getD node.receiptRefs,
    startedAt := if status = .running then args.now else node.startedAt,
    endedAt := if status ∈ [.succeeded, .failed, .cancelled, .uncertain] then args.now
      else node.endedAt }

/-- The nodes that no node depends on. -/
def leaves (nodes : List PlanNode) : List PlanNode :=
  nodes.filter fun node => node.nodeId ∉ nodes.flatMap PlanNode.dependsOn

def allCompleted (nodes : List PlanNode) : Bool :=
  (leaves nodes).all (fun node => node.status = .succeeded) &&
    nodes.all (fun node => node.status = .succeeded ||
      (node.status = .stale && node.kind ∈ [.explore, .analyze]))

/-- The overall status that `transition` computes. -/
def overall (nodes : List PlanNode) : PlanStatus :=
  if nodes.any (fun node => node.status = .uncertain) then .uncertain
  else if allCompleted nodes then .completed
  else .active

theorem except_map_ok {Value Result : Type} {value : Except Fault Value} {change : Value -> Result}
    {result : Result} (mapped : value.map change = .ok result) :
    ∃ inner, value = .ok inner ∧ result = change inner := by
  cases value with
  | error fault => cases mapped
  | ok inner =>
    cases mapped
    exact ⟨inner, rfl, rfl⟩

section Sealing

variable [Hashing]

/-- The revision of a plan with other nodes and status. -/
def Plan.revised (plan : Plan) (nodes : List PlanNode) (status : PlanStatus) : Plan :=
  { plan with
    nodes := nodes, stateRevision := plan.stateRevision + 1, status := status : Plan }.sealed

def transition (plan : Plan) (nodeId : String) (status : NodeStatus) (args : TransitionArgs) :
    Except Fault Plan :=
  match plan.node nodeId with
  | .error fault => .error fault
  | .ok node =>
    if args.expectedVersion ≠ none ∧ args.expectedVersion ≠ some plan.planVersion then
      .error "late_plan_result"
    else if status ∉ node.status.successors then
      .error s!"invalid_node_transition: {node.status.text} -> {status.text}"
    else if node.attemptId ≠ "" ∧ status ≠ .running ∧ args.attemptId ≠ node.attemptId then
      .error "late_attempt_result"
    else if status = .running ∧ args.attemptId = "" then .error "attempt_identity_required"
    else if status = .succeeded ∧ args.completes node = false then .error "completion_unsatisfied"
    else
      let nodes := plan.replaceNode nodeId (movedNode node status args)
      .ok (plan.revised nodes (overall nodes))

def restartSafe (plan : Plan) (nodeId attemptId reason : String) : Except Fault Plan :=
  match plan.node nodeId with
  | .error fault => .error fault
  | .ok node =>
    if node.attemptId ≠ "" ∧ node.attemptId ≠ attemptId then .error "late_attempt_result"
    else if node.kind = .edit ∧ reason ≠ "prepared_not_dispatched" then
      .error "write_replay_forbidden"
    else .ok (plan.revised (plan.replaceNode nodeId (node.reset reason)) .active)

variable {plan after : Plan} {nodeId : String} {ledger : Ledger} {node : PlanNode}

variable {status : NodeStatus} {args : TransitionArgs} {changed : Bool} {nodes : List PlanNode}
  {result : Plan}

/-- What an accepted transition has found and done. -/
theorem transition_ok (accepted : transition plan nodeId status args = .ok after) :
    ∃ node, plan.node nodeId = .ok node ∧ status ∈ node.status.successors ∧
      (status = .running -> args.attemptId ≠ "") ∧
      (status = .succeeded -> args.completes node = true) ∧
      after = plan.revised (plan.replaceNode nodeId (movedNode node status args))
        (overall (plan.replaceNode nodeId (movedNode node status args))) := by
  unfold transition at accepted
  split at accepted
  · cases accepted
  rename_i node located
  split at accepted
  · cases accepted
  split at accepted
  · cases accepted
  rename_i allowed
  split at accepted
  · cases accepted
  split at accepted
  · cases accepted
  rename_i identified
  split at accepted
  · cases accepted
  rename_i satisfied
  cases accepted
  refine ⟨node, located, not_not.mp allowed, ?_, ?_, rfl⟩
  · intro running missing
    exact identified ⟨running, missing⟩
  · intro succeeded
    exact Bool.not_eq_false _ ▸ fun incomplete => satisfied ⟨succeeded, incomplete⟩

/-- What an accepted restart has found and done. -/
theorem restartSafe_ok {attemptId reason : String}
    (accepted : restartSafe plan nodeId attemptId reason = .ok after) :
    ∃ node, plan.node nodeId = .ok node ∧
      (node.attemptId = "" ∨ node.attemptId = attemptId) ∧
      (node.kind = .edit -> reason = "prepared_not_dispatched") ∧
      after = plan.revised (plan.replaceNode nodeId (node.reset reason)) .active := by
  unfold restartSafe at accepted
  split at accepted
  · cases accepted
  rename_i node located
  split at accepted
  · cases accepted
  rename_i current
  split at accepted
  · cases accepted
  rename_i permitted
  cases accepted
  refine ⟨node, located, ?_, ?_, rfl⟩
  · by_cases fresh : node.attemptId = ""
    · exact Or.inl fresh
    · exact Or.inr (not_not.mp fun other => current ⟨fresh, other⟩)
  · intro edit
    exact not_not.mp fun other => permitted ⟨edit, other⟩

theorem distinct_revised (distinct : plan.Distinct) {new : PlanNode} (same : new.nodeId = nodeId)
    (status : PlanStatus) : (plan.revised (plan.replaceNode nodeId new) status).Distinct := by
  change ((plan.replaceNode nodeId new).map PlanNode.nodeId).Nodup
  rw [plan.nodeIds_replaceNode same]
  exact distinct

theorem transition_distinct (distinct : plan.Distinct)
    (accepted : transition plan nodeId status args = .ok after) : after.Distinct := by
  rcases transition_ok accepted with ⟨node, located, _, _, _, rfl⟩
  have same : (movedNode node status args).nodeId = nodeId := (Plan.node_ok located).2
  exact distinct_revised distinct same _

/-! ## Refreshing -/

/-- The dependencies that block a node. -/
def NodeStatus.unusable (status : NodeStatus) : Bool :=
  status ∈ [.failed, .cancelled, .blocked, .uncertain, .stale]

/-- Why a node is blocked, or the empty text. -/
def blockReason (ledger : Ledger) (node : PlanNode) (dependencies : List PlanNode) : String :=
  let bad := dependencies.filter (fun dependency => dependency.status.unusable)
  if bad ≠ [] then
    "dependency_not_succeeded: " ++ ",".intercalate (bad.map PlanNode.nodeId)
  else if node.inputEvidenceRefs.all ledger.valid then ""
  else "input_evidence_stale_or_unknown"

/-- One turn of the inner loop of `refresh`, with the flag `changed`. -/
def refreshNode (ledger : Ledger) (state : Plan × Bool) (node : PlanNode) :
    Except Fault (Plan × Bool) :=
  if node.status ∉ [.pending, .ready] then .ok state
  else
    match node.dependsOn.mapM state.1.node with
    | .error fault => .error fault
    | .ok dependencies =>
      let reason := blockReason ledger node dependencies
      if reason ≠ "" then
        (transition state.1 node.nodeId .blocked
          { attemptId := node.attemptId, failure := some reason }).map (fun plan => (plan, true))
      else if node.status = .pending ∧
          dependencies.all (fun dependency => dependency.status = .succeeded) = true then
        (transition state.1 node.nodeId .ready {}).map (fun plan => (plan, true))
      else .ok state

/-- The inner loop of `refresh`, over the nodes listed when it starts. -/
def refreshRound (ledger : Ledger) (plan : Plan) : Except Fault (Plan × Bool) :=
  plan.nodes.foldlM (refreshNode ledger) (plan, false)

/-- The steps that a node can still take in `refresh`. -/
def PlanNode.openSteps (node : PlanNode) : Nat :=
  match node.status with
  | .pending => 2
  | .ready => 1
  | _ => 0

def Plan.openSteps (plan : Plan) : Nat := (plan.nodes.map PlanNode.openSteps).sum

/-- The outer loop of `refresh`. -/
def refreshLoop (ledger : Ledger) : Nat -> Plan -> Except Fault Plan
  | 0, plan => .ok plan
  | fuel + 1, plan =>
    match refreshRound ledger plan with
    | .error fault => .error fault
    | .ok (next, changed) => if changed then refreshLoop ledger fuel next else .ok next

/-- `refresh`.  Every round that changes the plan takes one of the open
steps, so the rounds provided for are never used up. -/
def refresh (ledger : Ledger) (plan : Plan) : Except Fault Plan :=
  refreshLoop ledger (plan.openSteps + 1) plan

/-- A step of `refresh`: a waiting node is admitted or blocked. -/
structure Admits (before after : Plan) : Prop where
  distinct : before.Distinct
  taken : ∃ node status args, node ∈ before.nodes ∧ node.status ∈ [NodeStatus.pending, .ready] ∧
      status ∈ [NodeStatus.ready, .blocked] ∧
      transition before node.nodeId status args = .ok after

theorem Admits.after_distinct {before : Plan} (admits : Admits before after) : after.Distinct := by
  rcases admits.taken with ⟨node, status, args, _, _, _, accepted⟩
  exact transition_distinct admits.distinct accepted

/-- A turn leaves the plan as it is or takes a step at its own node. -/
theorem refreshNode_ok {flag : Bool} (distinct : plan.Distinct) (listed : node ∈ plan.nodes)
    (accepted : refreshNode ledger (plan, changed) node = .ok (after, flag)) :
    (after = plan ∧ flag = changed) ∨
      (Admits plan after ∧ flag = true ∧ ∀ other ∈ plan.nodes,
        other.nodeId ≠ node.nodeId -> other ∈ after.nodes) := by
  unfold refreshNode at accepted
  split at accepted
  · cases accepted
    exact Or.inl ⟨rfl, rfl⟩
  rename_i waiting
  have step : ∀ {status args}, status ∈ [NodeStatus.ready, .blocked] ->
      (transition plan node.nodeId status args).map (fun plan => (plan, true)) = .ok (after, flag) ->
      Admits plan after ∧ flag = true ∧ ∀ other ∈ plan.nodes,
        other.nodeId ≠ node.nodeId -> other ∈ after.nodes := by
    intro status args target mapped
    rcases except_map_ok mapped with ⟨inner, moved, same⟩
    cases same
    refine ⟨⟨distinct, node, status, args, listed, not_not.mp waiting, target, moved⟩, rfl, ?_⟩
    intro other member different
    rcases transition_ok moved with ⟨found, _, _, _, _, rfl⟩
    exact Plan.mem_replaceNode_of_ne member different
  split at accepted
  · cases accepted
  dsimp only at accepted
  split at accepted
  · exact Or.inr (step (by decide) accepted)
  split at accepted
  · exact Or.inr (step (by decide) accepted)
  · cases accepted
    exact Or.inl ⟨rfl, rfl⟩

/-- A loop over listed nodes leaves the plan as it is or takes steps. -/
theorem foldlM_refreshNode (unique : (nodes.map PlanNode.nodeId).Nodup) {flag : Bool}
    (distinct : plan.Distinct) (listed : ∀ node ∈ nodes, node ∈ plan.nodes)
    (accepted : nodes.foldlM (refreshNode ledger) (plan, changed) = .ok (after, flag)) :
    (after = plan ∧ flag = changed) ∨ (Relation.TransGen Admits plan after ∧ flag = true) := by
  induction nodes generalizing plan changed with
  | nil =>
    cases accepted
    exact Or.inl ⟨rfl, rfl⟩
  | cons node rest ih =>
    rw [List.foldlM_cons] at accepted
    rw [List.map_cons, List.nodup_cons] at unique
    cases turn : refreshNode ledger (plan, changed) node with
    | error fault =>
      rw [turn] at accepted
      cases accepted
    | ok reached =>
      rcases reached with ⟨middle, mark⟩
      rw [turn] at accepted
      rcases refreshNode_ok distinct (listed node List.mem_cons_self) turn with
        ⟨rfl, rfl⟩ | ⟨admits, rfl, kept⟩
      · exact ih unique.2 distinct (fun other member => listed other (List.mem_cons_of_mem _ member))
          accepted
      · have remaining : ∀ other ∈ rest, other ∈ middle.nodes := by
          intro other member
          refine kept other (listed other (List.mem_cons_of_mem _ member)) ?_
          intro same
          exact unique.1 (same ▸ List.mem_map_of_mem member)
        refine Or.inr ?_
        rcases ih unique.2 admits.after_distinct remaining accepted with ⟨rfl, rfl⟩ | ⟨steps, rfl⟩
        · exact ⟨.single admits, rfl⟩
        · exact ⟨.head admits steps, rfl⟩

theorem refreshRound_ok (distinct : plan.Distinct)
    (accepted : refreshRound ledger plan = .ok (after, changed)) :
    (after = plan ∧ changed = false) ∨ (Relation.TransGen Admits plan after ∧ changed = true) :=
  foldlM_refreshNode distinct distinct (fun _ member => member) accepted

theorem distinct_of_steps (distinct : plan.Distinct) (steps : Relation.ReflTransGen Admits plan after) :
    after.Distinct := by
  induction steps with
  | refl => exact distinct
  | tail _ admits _ => exact admits.after_distinct

/-- The result of `refresh` is reached by steps. -/
theorem refresh_ok (distinct : plan.Distinct) (accepted : refresh ledger plan = .ok result) :
    Relation.ReflTransGen Admits plan result := by
  unfold refresh at accepted
  generalize plan.openSteps + 1 = fuel at accepted
  induction fuel generalizing plan with
  | zero =>
    cases accepted
    exact .refl
  | succ fuel ih =>
    rw [refreshLoop] at accepted
    cases round : refreshRound ledger plan with
    | error fault =>
      rw [round] at accepted
      cases accepted
    | ok reached =>
      rcases reached with ⟨next, changed⟩
      rw [round] at accepted
      rcases refreshRound_ok distinct round with ⟨rfl, rfl⟩ | ⟨steps, rfl⟩
      · cases accepted
        exact .refl
      · exact steps.to_reflTransGen.trans
          (ih (distinct_of_steps distinct steps.to_reflTransGen) accepted)

/-- What every step of `refresh` preserves holds of its result. -/
theorem refresh_induction {motive : Plan -> Prop}
    (step : ∀ before after, Admits before after -> motive before -> motive after)
    (distinct : plan.Distinct) (initially : motive plan) (accepted : refresh ledger plan = .ok result) :
    motive result := by
  have steps := refresh_ok distinct accepted
  clear accepted
  induction steps with
  | refl => exact initially
  | tail _ admits ih => exact step _ _ admits ih

/-- A node that does not wait is left alone while the plan is refreshed. -/
theorem refresh_keeps (distinct : plan.Distinct) (accepted : refresh ledger plan = .ok after)
    (listed : node ∈ plan.nodes) (done : node.status ∉ [NodeStatus.pending, .ready]) :
    node ∈ after.nodes := by
  refine refresh_induction (motive := fun reached => node ∈ reached.nodes) ?_ distinct listed accepted
  intro earlier later admits known
  rcases admits.taken with ⟨target, status, args, member, waiting, _, moved⟩
  rcases transition_ok moved with ⟨found, located, _, _, _, rfl⟩
  refine Plan.mem_replaceNode_of_ne known ?_
  intro same
  cases admits.distinct.eq_of_nodeId known member same
  exact done waiting

/-! ## The rounds suffice -/

omit [Hashing] in
theorem sum_replaced (unique : (nodes.map PlanNode.nodeId).Nodup) (member : node ∈ nodes) {new : PlanNode}
    (fewer : new.openSteps < node.openSteps) :
    ((nodes.map fun other => if other.nodeId = node.nodeId then new else other).map
      PlanNode.openSteps).sum < (nodes.map PlanNode.openSteps).sum := by
  induction nodes with
  | nil => exact False.elim (List.not_mem_nil member)
  | cons first rest ih =>
    rw [List.map_cons, List.nodup_cons] at unique
    rw [List.map_cons, List.map_cons, List.sum_cons, List.map_cons, List.sum_cons]
    rcases List.mem_cons.mp member with rfl | member
    · have others : rest.map (fun other => if other.nodeId = node.nodeId then new else other) = rest := by
        have fixed : ∀ other ∈ rest,
            (if other.nodeId = node.nodeId then new else other) = other := by
          intro other listed
          refine if_neg ?_
          intro same
          exact unique.1 (same ▸ List.mem_map_of_mem listed)
        rw [List.map_congr_left fixed, List.map_id']
      rw [others, if_pos rfl]
      exact Nat.add_lt_add_right fewer _
    · have different : first.nodeId ≠ node.nodeId := by
        intro same
        exact unique.1 (same ▸ List.mem_map_of_mem member)
      rw [if_neg different]
      exact Nat.add_lt_add_left (ih unique.2 member) _

theorem Admits.openSteps_lt {before : Plan} (admits : Admits before after) :
    after.openSteps < before.openSteps := by
  rcases admits.taken with ⟨node, status, args, listed, waiting, target, accepted⟩
  rcases transition_ok accepted with ⟨found, located, allowed, _, _, rfl⟩
  cases located.symm.trans (admits.distinct.node_eq listed)
  refine sum_replaced admits.distinct listed ?_
  have after : (movedNode node status args).status = status := rfl
  simp only [List.mem_cons, List.not_mem_nil, or_false] at waiting target
  rw [PlanNode.openSteps, PlanNode.openSteps, after]
  rcases waiting with old | old <;> rcases target with rfl | rfl <;> rw [old] at allowed ⊢
  · exact Nat.one_lt_two
  · exact Nat.two_pos
  · exact absurd allowed (by decide)
  · exact Nat.one_pos

theorem openSteps_lt_of_steps (steps : Relation.TransGen Admits plan after) :
    after.openSteps < plan.openSteps := by
  induction steps with
  | single admits => exact admits.openSteps_lt
  | tail _ admits ih => exact admits.openSteps_lt.trans ih

/-- The loop of `refresh` ends because a round changes nothing. -/
theorem refresh_settled (distinct : plan.Distinct) (accepted : refresh ledger plan = .ok result) :
    refreshRound ledger result = .ok (result, false) := by
  have enough : plan.openSteps < plan.openSteps + 1 := Nat.lt_succ_self plan.openSteps
  unfold refresh at accepted
  generalize plan.openSteps + 1 = fuel at accepted enough
  induction fuel generalizing plan with
  | zero => exact absurd enough (Nat.not_lt_zero _)
  | succ fuel ih =>
    rw [refreshLoop] at accepted
    cases round : refreshRound ledger plan with
    | error fault =>
      rw [round] at accepted
      cases accepted
    | ok reached =>
      rcases reached with ⟨next, changed⟩
      rw [round] at accepted
      rcases refreshRound_ok distinct round with ⟨rfl, rfl⟩ | ⟨steps, rfl⟩
      · cases accepted
        exact round
      · have fewer := openSteps_lt_of_steps steps
        exact ih (distinct_of_steps distinct steps.to_reflTransGen) accepted
          (Nat.lt_of_lt_of_le fewer (Nat.lt_succ_iff.mp enough))

end Sealing

/-!
# Graph replacement

The decisions of `replan.py` as a function of what it reads from the session.
A node of the candidate is carried over when the old plan has it succeeded
with valid evidence, or succeeded as a write; every other node starts anew.
-/

/-- What `replan` reads: the last state of every attempt, the reported
rollbacks, the evidence ledger and the workspace. -/
structure ReplanFacts where
  attempts : List Attempt
  rollbacks : List Rollback
  ledger : Ledger
  workspace : Snapshot

namespace ReplanFacts

def active (facts : ReplanFacts) : Bool :=
  facts.attempts.any fun attempt => attempt.phase ≠ .reconciled

/-- The rollbacks of a plan version. -/
def rollbacksOf (facts : ReplanFacts) (planVersion : Int) : List Rollback :=
  facts.rollbacks.filter fun rollback => rollback.planVersion = planVersion

end ReplanFacts

def Plan.quiescent (plan : Plan) : Bool :=
  plan.nodes.all fun node => node.status ∉ [.running, .uncertain]

def PlanNode.written (node : PlanNode) : Bool := node.kind = .edit && node.status = .succeeded

def checkReplan (facts : ReplanFacts) (old : Plan) : Except Fault Unit := do
  raiseIf (maxReplans < old.planVersion) "replan_budget_exceeded"
  raiseIf (old.quiescent = false) "replan_requires_quiescence"
  raiseIf (facts.active = true) "replan_active_attempt"
  raiseIf (old.nodes.any PlanNode.written = true ∧
      ((facts.rollbacksOf old.planVersion).getLast?.any
        (fun rollback => rollback.confirmed facts.workspace)) = false)
    "replan_rollback_unconfirmed"

/-- The node of the candidate that the identifier names. -/
def Plan.lastNode? (plan : Plan) (nodeId : String) : Option PlanNode :=
  (plan.nodes.filter fun node => node.nodeId = nodeId).getLast?

/-- The checks of one node of the old plan against the candidate. -/
def checkPrevious (facts : ReplanFacts) (old candidate : Plan) (previous : PlanNode) :
    Except Fault Unit := do
  raiseIf ((candidate.lastNode? previous.nodeId).any
      (fun node => node.definition ≠ previous.definition) = true)
    "stable_node_id_semantics_changed"
  let absent := (candidate.lastNode? previous.nodeId).isNone
  let rolledBack := (facts.rollbacksOf old.planVersion).any
    (fun rollback => rollback.confirmed facts.workspace)
  let patches := previous.outputEvidenceRefs.filter
    (fun ref => facts.ledger.kind ref == some "patch_applied")
  raiseIf (previous.written = true ∧ ¬ (rolledBack = true ∧ absent = true) ∧
      (absent = true ∨ patches.all facts.ledger.valid = false))
    "completed_write_history_required"

def verificationPrefix : String := "verification_failed:"

/-- The checks of `replan` before it builds the new plan. -/
def replanGate (facts : ReplanFacts) (old candidate : Plan) (reason : String)
    (evidenceRefs : List String) : Except Fault Unit := do
  if verificationPrefix.toList.isPrefixOf reason.toList then checkReplan facts old else .ok ()
  raiseIf (maxReplans < old.planVersion) "replan_budget_exceeded"
  raiseIf (old.quiescent = false) "replan_requires_quiescence"
  raiseIf (reason = "" ∨ evidenceRefs = [] ∨
      evidenceRefs.all (fun ref => (facts.ledger.kind ref).isSome) = false)
    "replan_trigger_evidence_required"
  raiseIf (candidate.planId ≠ old.planId ∨ candidate.identity ≠ old.identity)
    "replan_identity_mismatch"
  raiseIf (facts.active = true) "replan_active_attempt"
  old.nodes.forM (checkPrevious facts old candidate)

/-- The node of the old plan that stands in for a node of the candidate. -/
def carriedOver (facts : ReplanFacts) (old : Plan) (node : PlanNode) : Option PlanNode :=
  (old.nodes.find? fun previous => previous.nodeId = node.nodeId).filter (fun previous =>
    previous.status = .succeeded &&
      (previous.outputEvidenceRefs.all facts.ledger.valid || previous.kind = .edit))

/-- The nodes of the new plan. -/
def replannedNodes (facts : ReplanFacts) (old candidate : Plan) : List PlanNode :=
  candidate.nodes.map fun node => (carriedOver facts old node).getD (node.reset "")

section Sealing

variable [Hashing]

/-- The new plan before it is refreshed. -/
def rebuiltPlan (facts : ReplanFacts) (old candidate : Plan) (reason : String)
    (evidenceRefs : List String) : Plan :=
  { candidate with
    nodes := replannedNodes facts old candidate, planVersion := old.planVersion + 1,
    stateRevision := old.stateRevision + 1, parentPlanChecksum := old.planChecksum,
    replanReason := reason, replanEvidenceRefs := evidenceRefs, status := .active : Plan }.sealed

/-- The plan that `replan` commits. -/
def replanned [Decoding] (facts : ReplanFacts) (registry : Registry) (identity : Identity)
    (old candidate : Plan) (reason : String) (evidenceRefs : List String) : Except Fault Plan := do
  replanGate facts old candidate reason evidenceRefs
  let rebuilt := rebuiltPlan facts old candidate reason evidenceRefs
  validatePlan rebuilt registry identity
  refresh facts.ledger rebuilt

theorem replanned_ok [Decoding] {facts : ReplanFacts} {registry : Registry} {identity : Identity}
    {old candidate after : Plan} {reason : String} {evidenceRefs : List String}
    (accepted : replanned facts registry identity old candidate reason evidenceRefs = .ok after) :
    replanGate facts old candidate reason evidenceRefs = .ok () ∧
      (rebuiltPlan facts old candidate reason evidenceRefs).Valid ∧
      refresh facts.ledger (rebuiltPlan facts old candidate reason evidenceRefs) = .ok after := by
  rcases bind_ok accepted with ⟨_, gate, accepted⟩
  rcases bind_ok accepted with ⟨_, valid, accepted⟩
  exact ⟨gate, validatePlan_ok valid, accepted⟩

end Sealing

/-- A node of the new plan is carried over or starts anew. -/
theorem mem_replannedNodes {facts : ReplanFacts} {old candidate : Plan} {node : PlanNode}
    (member : node ∈ replannedNodes facts old candidate) :
    (node ∈ old.nodes ∧ node.status = .succeeded) ∨
      ∃ source ∈ candidate.nodes, node = source.reset "" := by
  rcases List.mem_map.mp member with ⟨source, listed, rfl⟩
  cases carried : carriedOver facts old source with
  | none => exact Or.inr ⟨source, listed, rfl⟩
  | some previous =>
    rcases Option.filter_eq_some_iff.mp carried with ⟨found, judged⟩
    rw [Bool.and_eq_true, decide_eq_true_eq] at judged
    exact Or.inl ⟨List.mem_of_find?_eq_some found, judged.1⟩

end PlanRuntime
end FixLoop
