import FixLoop.PlanRuntime.Moves

namespace FixLoop
namespace PlanRuntime

open Library Program

/-!
# What the work on one attempt changes

While one attempt is settled or recovered, the plan keeps its version and its
nodes with their kinds, and a node that fails or is cancelled is one of that
attempt.  `Within` collects this with what happens to the records.
-/

def PlanNode.signature (node : PlanNode) : String × NodeKind := (node.nodeId, node.kind)

structure Advance (attemptId : String) (before after : Plan) : Prop where
  planId : after.planId = before.planId
  version : after.planVersion = before.planVersion
  signatures : after.nodes.map PlanNode.signature = before.nodes.map PlanNode.signature
  terminal : ∀ node ∈ after.nodes, node.status.Terminal ->
    node.attemptId = attemptId ∨ node.PresentIn before

namespace Advance

variable {attemptId : String} {first second third : Plan}

theorem refl (plan : Plan) : Advance attemptId plan plan :=
  ⟨rfl, rfl, rfl, fun node member _ => Or.inr ⟨node, member, rfl, rfl, rfl, rfl⟩⟩

theorem trans (earlier : Advance attemptId first second) (later : Advance attemptId second third) :
    Advance attemptId first third := by
  refine ⟨later.planId.trans earlier.planId, later.version.trans earlier.version,
    later.signatures.trans earlier.signatures, ?_⟩
  intro node member terminal
  rcases later.terminal node member terminal with own | ⟨old, listed, name, kind, status, attempt⟩
  · exact Or.inl own
  · rcases earlier.terminal old listed (status ▸ terminal) with own | ⟨older, present, same⟩
    · exact Or.inl (attempt ▸ own)
    · exact Or.inr ⟨older, present, same.1.trans name, same.2.1.trans kind,
        same.2.2.1.trans status, same.2.2.2.trans attempt⟩

theorem nodeIds (advance : Advance attemptId first second) :
    second.nodes.map PlanNode.nodeId = first.nodes.map PlanNode.nodeId := by
  have names := congrArg (List.map Prod.fst) advance.signatures
  rw [List.map_map, List.map_map] at names
  exact names

theorem distinct (advance : Advance attemptId first second) (known : first.Distinct) :
    second.Distinct := by
  rw [Plan.Distinct, advance.nodeIds]
  exact known

theorem kind_eq (advance : Advance attemptId first second) (known : first.Distinct)
    {old new : PlanNode} (left : old ∈ first.nodes) (right : new ∈ second.nodes)
    (same : old.nodeId = new.nodeId) : old.kind = new.kind := by
  have listed : new.signature ∈ first.nodes.map PlanNode.signature :=
    advance.signatures ▸ List.mem_map_of_mem right
  rcases List.mem_map.mp listed with ⟨other, member, equal⟩
  have name : other.nodeId = new.nodeId := congrArg Prod.fst equal
  rw [known.eq_of_nodeId left member (same.trans name.symm)]
  exact congrArg Prod.snd equal

end Advance

section Sealing

variable [Hashing] {plan after : Plan} {attemptId : String}

omit [Hashing] in
theorem signatures_replaceNode (distinct : plan.Distinct) {node new : PlanNode}
    (listed : node ∈ plan.nodes) (same : new.signature = node.signature) :
    (plan.replaceNode node.nodeId new).map PlanNode.signature = plan.nodes.map PlanNode.signature := by
  rw [Plan.replaceNode, List.map_map]
  apply List.map_congr_left
  intro other member
  rw [Function.comp_apply]
  split
  · rename_i here
    rw [same, distinct.eq_of_nodeId listed member here.symm]
  · rfl

theorem revised_advance (distinct : plan.Distinct) {node new : PlanNode} (listed : node ∈ plan.nodes)
    (same : new.signature = node.signature) (status : PlanStatus)
    (own : new.status.Terminal -> new.attemptId = attemptId) :
    Advance attemptId plan (plan.revised (plan.replaceNode node.nodeId new) status) := by
  refine ⟨rfl, rfl, signatures_replaceNode distinct listed same, ?_⟩
  intro other member terminal
  rcases Plan.mem_replaceNode member with rfl | ⟨kept, _⟩
  · exact Or.inl (own terminal)
  · exact Or.inr ⟨other, kept, rfl, rfl, rfl, rfl⟩

theorem transition_advance (distinct : plan.Distinct) {nodeId : String} {status : NodeStatus}
    {args : TransitionArgs} (accepted : transition plan nodeId status args = .ok after)
    (own : status.Terminal -> ∀ node, plan.node nodeId = .ok node -> node.attemptId = attemptId) :
    Advance attemptId plan after := by
  rcases transition_ok accepted with ⟨node, located, _, _, _, rfl⟩
  rcases Plan.node_ok located with ⟨listed, rfl⟩
  have same : (movedNode node status args).signature = node.signature := rfl
  refine revised_advance distinct listed same _ ?_
  intro terminal
  have terminal : status.Terminal := terminal
  have stopped : status ≠ .running := by
    intro running
    rw [running] at terminal
    exact absurd terminal (by decide)
  rw [movedNode, if_neg stopped]
  exact own terminal node located

theorem restartSafe_advance (distinct : plan.Distinct) {nodeId restarted reason : String}
    (accepted : restartSafe plan nodeId restarted reason = .ok after) :
    Advance attemptId plan after := by
  rcases restartSafe_ok accepted with ⟨node, located, _, _, rfl⟩
  rcases Plan.node_ok located with ⟨listed, rfl⟩
  have same : (node.reset reason).signature = node.signature := rfl
  refine revised_advance distinct listed same _ ?_
  intro terminal
  have pending : NodeStatus.pending.Terminal := terminal
  exact absurd pending (by decide)

theorem refresh_advance (distinct : plan.Distinct) {ledger : Ledger}
    (accepted : refresh ledger plan = .ok after) : Advance attemptId plan after := by
  refine (refresh_induction (motive := fun reached => Advance attemptId plan reached)
    ?_ distinct (.refl plan) accepted)
  intro earlier later admits reached
  rcases admits.taken with ⟨node, status, args, _, _, target, moved⟩
  refine reached.trans (transition_advance admits.distinct moved ?_)
  intro terminal
  rcases List.mem_cons.mp target with rfl | target
  · exact absurd terminal (by decide)
  · rw [List.mem_singleton.mp target] at terminal
    exact absurd terminal (by decide)

end Sealing

/-! ## Facts -/

/-- The plan, if there is one, has distinct nodes. -/
def Facts.Distinct (facts : Facts) : Prop := ∀ plan, facts.plan = some plan -> plan.Distinct

structure Within (attemptId : String) (before after : Facts) : Prop where
  operations : after.operations = before.operations
  attempts : ∃ records, after.attempts = before.attempts ++ records ∧
    ∀ record ∈ records, record.attemptId = attemptId
  absent : before.plan = none -> after.plan = none
  advanced : ∀ plan, before.plan = some plan ->
    ∃ later, after.plan = some later ∧ Advance attemptId plan later

namespace Within

variable {attemptId : String} {first second third : Facts}

theorem refl (facts : Facts) : Within attemptId facts facts :=
  ⟨rfl, ⟨[], (List.append_nil _).symm, fun _ member => False.elim (List.not_mem_nil member)⟩, id,
    fun plan held => ⟨plan, held, .refl plan⟩⟩

theorem trans (earlier : Within attemptId first second) (later : Within attemptId second third) :
    Within attemptId first third := by
  refine ⟨later.operations.trans earlier.operations, ?_, fun absent => later.absent (earlier.absent absent),
    ?_⟩
  · rcases earlier.attempts with ⟨front, same, own⟩
    rcases later.attempts with ⟨back, equal, also⟩
    refine ⟨front ++ back, ?_, ?_⟩
    · rw [equal, same, List.append_assoc]
    · intro record member
      rcases List.mem_append.mp member with here | there
      · exact own record here
      · exact also record there
  · intro plan held
    rcases earlier.advanced plan held with ⟨middle, reached, advance⟩
    rcases later.advanced middle reached with ⟨last, final, further⟩
    exact ⟨last, final, advance.trans further⟩

theorem withPlan {facts : Facts} {plan after : Plan} (held : facts.plan = some plan)
    (advance : Advance attemptId plan after) : Within attemptId facts (facts.withPlan after) := by
  refine ⟨rfl, ⟨[], (List.append_nil _).symm, fun _ member => False.elim (List.not_mem_nil member)⟩,
    ?_, ?_⟩
  · intro absent
    cases held.symm.trans absent
  · intro other same
    cases held.symm.trans same
    exact ⟨after, rfl, advance⟩

theorem withAttempt (facts : Facts) {attempt : Attempt} (own : attempt.attemptId = attemptId) :
    Within attemptId facts (facts.withAttempt attempt) :=
  ⟨rfl, ⟨[attempt], rfl, fun _ member => List.mem_singleton.mp member ▸ own⟩, id,
    fun plan held => ⟨plan, held, .refl plan⟩⟩

theorem distinct (within : Within attemptId first second) (known : first.Distinct) :
    second.Distinct := by
  intro plan held
  cases before : first.plan with
  | none => cases held.symm.trans (within.absent before)
  | some old =>
    rcases within.advanced old before with ⟨later, reached, advance⟩
    cases held.symm.trans reached
    exact advance.distinct (known old before)

end Within

/-- A last record stays the last one while other attempts are recorded. -/
theorem mem_latest_append {attempts records : List Attempt} {attempt : Attempt} {name : String}
    (member : attempt ∈ latest Attempt.attemptId attempts)
    (others : ∀ record ∈ records, record.attemptId = name)
    (different : attempt.attemptId ≠ name) :
    attempt ∈ latest Attempt.attemptId (attempts ++ records) := by
  induction records using List.reverseRecOn with
  | nil =>
    rw [List.append_nil]
    exact member
  | append_singleton records record ih =>
    rw [← List.append_assoc, latest_append]
    refine mem_enter_of_ne (ih fun other listed => others other (List.mem_append_left _ listed)) ?_
    rw [others record (List.mem_append_right _ List.mem_cons_self)]
    exact different

/-- The record appended last is the last one of its attempt. -/
theorem mem_latest_concat (attempts : List Attempt) (attempt : Attempt) :
    attempt ∈ latest Attempt.attemptId (attempts ++ [attempt]) := by
  rw [latest_append]
  exact mem_enter_self _ attempt _

section Courses

variable [Hashing] {plan after : Plan}

theorem refresh_version {ledger : Ledger} (distinct : plan.Distinct)
    (accepted : refresh ledger plan = .ok after) : after.planVersion = plan.planVersion := by
  have advance : Advance "" plan after := refresh_advance distinct accepted
  exact advance.version

variable [Decoding] {setting : Setting} {facts : Facts}

/-- The four ways in which a plan follows from the one before. -/
inductive Setting.Course (setting : Setting) (facts : Facts) (before after : Plan) : Prop where
  | refreshed (ledger : Ledger) (accepted : refresh ledger before = .ok after)
  | moved (nodeId : String) (status : NodeStatus) (args : TransitionArgs)
      (blocks : status ≠ .blocked)
      (cancels : status = .cancelled -> ∀ node, before.node nodeId = .ok node -> node.attemptId ≠ "")
      (stales : status = .stale -> ∀ node, before.node nodeId = .ok node -> node.kind ≠ .edit)
      (accepted : transition before nodeId status args = .ok after)
  | restarted (attempt : Attempt) (node : PlanNode) (reason : String)
      (located : before.node attempt.nodeId = .ok node)
      (unstarted : node.kind = .edit -> attempt.phase = .prepared ∧
        facts.operationsOf attempt.attemptId = [] ∧ Represented facts.operations)
      (accepted : restartSafe before attempt.nodeId attempt.attemptId reason = .ok after)
  | replaced (readings : ReplanFacts) (candidate : Plan) (reason : String)
      (evidenceRefs : List String)
      (accepted : replanned readings setting.session.registry setting.session.identity before
        candidate reason evidenceRefs = .ok after)

theorem Setting.Course.plain {nodeId : String} {status : NodeStatus} {args : TransitionArgs}
    (goes : status ∈ [NodeStatus.ready, .running, .uncertain])
    (accepted : transition plan nodeId status args = .ok after) : setting.Course facts plan after := by
  refine .moved nodeId status args ?_ ?_ ?_ accepted
  · rintro rfl
    exact absurd goes (by decide)
  · rintro rfl
    exact absurd goes (by decide)
  · rintro rfl
    exact absurd goes (by decide)

theorem Setting.Move.course (move : setting.Move facts plan after) : setting.Course facts plan after := by
  cases move with
  | refreshed ledger accepted => exact .refreshed ledger accepted
  | prepared node args calm located certain free accepted
  | started attempt now recovering opened version accepted =>
    exact .plain (by decide) accepted
  | readied attempt recovering opened accepted
  | lost attempt args recovering opened accepted
  | retired node args recovering located accepted => exact .plain (by decide) accepted
  | closed attempt node ledger status receipts now named consulted located version current judged accepted =>
    have ends : status ∈ [NodeStatus.uncertain, .cancelled, .succeeded, .failed] :=
      judged ▸ judgement_mem ledger node attempt _
    refine .moved _ status _ ?_ ?_ ?_ accepted
    · rintro rfl
      exact absurd ends (by decide)
    · intro _ found there
      cases located.symm.trans there
      exact current ▸ named
    · rintro rfl
      exact absurd ends (by decide)
  | staled node args located reads accepted =>
    refine .moved node.nodeId .stale args nofun nofun ?_ accepted
    intro _ found there
    cases located.symm.trans there
    exact reads
  | restarted attempt node reason recovering opened located unstarted unsettled lingering accepted =>
    exact .restarted attempt node reason located unstarted accepted
  | replaced readings candidate reason evidenceRefs calm read accepted =>
    exact .replaced readings candidate reason evidenceRefs accepted

/-- A plan follows in its version, or replaces the graph. -/
theorem Setting.Course.version (course : setting.Course facts plan after) (distinct : plan.Distinct) :
    after.planVersion = plan.planVersion ∨ after.planVersion = plan.planVersion + 1 := by
  cases course with
  | refreshed ledger accepted => exact Or.inl (refresh_version distinct accepted)
  | moved nodeId status args blocks cancels stales accepted =>
    rcases transition_ok accepted with ⟨_, _, _, _, _, rfl⟩
    exact Or.inl rfl
  | restarted attempt node reason located unstarted accepted =>
    rcases restartSafe_ok accepted with ⟨_, _, _, _, rfl⟩
    exact Or.inl rfl
  | replaced readings candidate reason evidenceRefs accepted =>
    rcases replanned_ok accepted with ⟨_, valid, refreshed⟩
    exact Or.inr (refresh_version valid.distinct refreshed)

omit [Hashing] [Decoding] in
/-- An attempt without a last record of an operation has none at all. -/
theorem unoperated {attemptId : String} (represented : Represented facts.operations)
    (absent : facts.operationsOf attemptId = []) {operation : Operation}
    (member : operation ∈ facts.operations) : operation.attemptId ≠ attemptId := by
  intro same
  rcases represented operation member with ⟨last, listed, kept⟩
  have found : last ∈ facts.operationsOf attemptId :=
    List.mem_filter.mpr ⟨listed, decide_eq_true (kept.trans same)⟩
  rw [absent] at found
  exact List.not_mem_nil found

end Courses

end PlanRuntime
end FixLoop
