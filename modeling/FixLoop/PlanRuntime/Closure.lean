import FixLoop.Library.Relations
import FixLoop.PlanRuntime.Status

namespace FixLoop
namespace PlanRuntime

open Library

/-!
# The closure that `refresh` computes

A waiting node is blocked when an input is unusable, admitted when all of its
dependencies have succeeded, and left alone otherwise.  Every turn of `refresh`
is justified by inputs that no later turn changes, and at its end no turn is
left to take, so the statuses solve this rule.  Over acyclic dependencies the
rule has one solution, whatever the order of the nodes.
-/

/-- The node waits to be admitted or to be run. -/
def NodeStatus.Open (status : NodeStatus) : Prop := status ∈ [NodeStatus.pending, .ready]

instance (status : NodeStatus) : Decidable status.Open :=
  inferInstanceAs (Decidable (status ∈ [NodeStatus.pending, .ready]))

/-- An input of the node is unusable, given the statuses of the nodes. -/
def PlanNode.blockedBy (node : PlanNode) (ledger : Ledger) (statusOf : String -> Option NodeStatus) :
    Bool :=
  node.dependsOn.any (fun nodeId => (statusOf nodeId).any NodeStatus.unusable) ||
    !node.inputEvidenceRefs.all ledger.valid

def PlanNode.admittedBy (node : PlanNode) (statusOf : String -> Option NodeStatus) : Bool :=
  node.status = .pending && node.dependsOn.all fun nodeId => statusOf nodeId == some .succeeded

def PlanNode.closedStatus (node : PlanNode) (ledger : Ledger)
    (statusOf : String -> Option NodeStatus) : NodeStatus :=
  if ¬ node.status.Open then node.status
  else if node.blockedBy ledger statusOf then .blocked
  else if node.admittedBy statusOf then .ready
  else node.status

namespace Plan

def node? (plan : Plan) (nodeId : String) : Option PlanNode :=
  plan.nodes.find? fun node => node.nodeId = nodeId

def statusOf (plan : Plan) (nodeId : String) : Option NodeStatus :=
  (plan.node? nodeId).map PlanNode.status

/-- A node of the plan depends on another one. -/
def DependsOn (plan : Plan) (nodeId dependency : String) : Prop :=
  ∃ node ∈ plan.nodes, node.nodeId = nodeId ∧ dependency ∈ node.dependsOn

/-- The dependencies are known and acyclic. -/
structure Graph (plan : Plan) : Prop where
  distinct : plan.Distinct
  known : ∀ node dependency, node ∈ plan.nodes -> dependency ∈ node.dependsOn ->
    dependency ∈ plan.nodes.map PlanNode.nodeId
  acyclic : Acyclic plan.DependsOn

/-- No attempt has been made at a pending node. -/
def Unclaimed (plan : Plan) : Prop :=
  ∀ node ∈ plan.nodes, node.status = .pending -> node.attemptId = ""

theorem node?_mem {plan : Plan} (distinct : plan.Distinct) {node : PlanNode}
    (listed : node ∈ plan.nodes) : plan.node? node.nodeId = some node := by
  have located := distinct.node_eq listed
  unfold Plan.node at located
  unfold node?
  split at located
  · rename_i found search
    cases located
    exact search
  · cases located

theorem statusOf_mem {plan : Plan} (distinct : plan.Distinct) {node : PlanNode}
    (listed : node ∈ plan.nodes) : plan.statusOf node.nodeId = some node.status := by
  rw [statusOf, node?_mem distinct listed]
  rfl

end Plan

/-- The node without what `refresh` may change. -/
def PlanNode.frame (node : PlanNode) : PlanNode := { node with status := .pending, failure := "" }

section Lookups

variable {plan : Plan} {node : PlanNode} {dependencies : List PlanNode} {ledger : Ledger}

theorem statusOf_node {nodeId : String} {other : PlanNode} (located : plan.node nodeId = .ok other) :
    plan.statusOf nodeId = some other.status := by
  unfold Plan.node at located
  unfold Plan.statusOf Plan.node?
  split at located
  · rename_i found search
    cases located
    rw [search]
    rfl
  · cases located

/-- The statuses of the dependencies that `refresh` looks up. -/
theorem statuses_ok {names : List String} (found : names.mapM plan.node = .ok dependencies) :
    names.map plan.statusOf = dependencies.map (fun other => some other.status) := by
  induction names generalizing dependencies with
  | nil =>
    cases found
    rfl
  | cons name rest ih =>
    rw [List.mapM_cons] at found
    rcases bind_ok found with ⟨first, located, found⟩
    rcases bind_ok found with ⟨others, later, found⟩
    cases found
    rw [List.map_cons, List.map_cons, statusOf_node located, ih later]

/-- There is a reason to block the node exactly when one of its inputs is unusable. -/
theorem blockReason_ne_empty (found : node.dependsOn.mapM plan.node = .ok dependencies) :
    blockReason ledger node dependencies ≠ "" <-> node.blockedBy ledger plan.statusOf = true := by
  have unusable : node.dependsOn.any (fun nodeId => (plan.statusOf nodeId).any NodeStatus.unusable) =
      dependencies.any (fun other => other.status.unusable) := by
    have same := congrArg (List.any · (Option.any NodeStatus.unusable)) (statuses_ok found)
    rw [List.any_map, List.any_map] at same
    exact same
  rw [PlanNode.blockedBy, unusable, Bool.or_eq_true, Bool.not_eq_true']
  unfold blockReason
  dsimp only
  split
  · rename_i bad
    have some : dependencies.any (fun other => other.status.unusable) = true := by
      rcases List.exists_mem_of_ne_nil _ bad with ⟨other, member⟩
      exact List.any_eq_true.mpr ⟨other, List.mem_filter.mp member⟩
    refine iff_of_true ?_ (Or.inl some)
    intro empty
    have shorter := congrArg String.toList empty
    rw [String.toList_append] at shorter
    exact absurd (List.append_eq_nil_iff.mp shorter).1 (by decide)
  · rename_i none
    have good : dependencies.any (fun other => other.status.unusable) = false := by
      rw [List.any_eq_false]
      intro other member unusable
      exact none (List.ne_nil_of_mem (List.mem_filter.mpr ⟨member, unusable⟩))
    rw [good]
    split
    · rename_i valid
      rw [valid]
      exact iff_of_false (fun differs => differs rfl) (by decide)
    · rename_i stale
      exact iff_of_true (by decide) (Or.inr (Bool.eq_false_of_not_eq_true stale))

theorem admitted_iff (found : node.dependsOn.mapM plan.node = .ok dependencies) :
    (node.status = .pending ∧
      dependencies.all (fun other => decide (other.status = .succeeded)) = true) <->
        node.admittedBy plan.statusOf = true := by
  have succeeded : node.dependsOn.all (fun nodeId => plan.statusOf nodeId == some .succeeded) =
      dependencies.all (fun other => decide (other.status = .succeeded)) := by
    have same := congrArg (List.all · (fun status => status == some NodeStatus.succeeded))
      (statuses_ok found)
    rw [List.all_map, List.all_map] at same
    exact same
  rw [PlanNode.admittedBy, succeeded, Bool.and_eq_true, decide_eq_true_eq]

end Lookups

section Turns

variable [Hashing] {plan after : Plan} {node : PlanNode} {ledger : Ledger}

/-- A turn of `refresh`. -/
inductive Turn (ledger : Ledger) (plan : Plan) (node : PlanNode) : Plan -> Prop where
  | idle (done : node.status.Open -> node.blockedBy ledger plan.statusOf = false ∧
      node.admittedBy plan.statusOf = false) : Turn ledger plan node plan
  | blocks (failure : String) (overall : PlanStatus) (waiting : node.status.Open)
      (blocked : node.blockedBy ledger plan.statusOf = true) :
      Turn ledger plan node (plan.revised (plan.replaceNode node.nodeId
        { node with status := .blocked, failure := failure }) overall)
  | admits (overall : PlanStatus) (pending : node.status = .pending)
      (usable : node.blockedBy ledger plan.statusOf = false)
      (admitted : node.admittedBy plan.statusOf = true) :
      Turn ledger plan node (plan.revised (plan.replaceNode node.nodeId
        { node with status := .ready }) overall)

theorem refreshNode_turn (distinct : plan.Distinct) (listed : node ∈ plan.nodes) {changed flag : Bool}
    (accepted : refreshNode ledger (plan, changed) node = .ok (after, flag)) :
    Turn ledger plan node after ∧ (flag = true ∨ flag = changed ∧ after = plan ∧
      (node.status.Open -> node.blockedBy ledger plan.statusOf = false ∧
        node.admittedBy plan.statusOf = false)) := by
  have itself := distinct.node_eq listed
  unfold refreshNode at accepted
  split at accepted
  · rename_i done
    cases accepted
    have idle : node.status.Open -> node.blockedBy ledger plan.statusOf = false ∧
        node.admittedBy plan.statusOf = false := fun waiting => absurd waiting done
    exact ⟨.idle idle, Or.inr ⟨rfl, rfl, idle⟩⟩
  rename_i waiting
  have waiting : node.status.Open := not_not.mp waiting
  split at accepted
  · cases accepted
  rename_i dependencies found
  dsimp only at accepted
  split at accepted
  · rename_i reason
    rcases except_map_ok accepted with ⟨moved, transitioned, same⟩
    cases same
    rcases transition_ok transitioned with ⟨other, located, _, _, _, rfl⟩
    cases located.symm.trans itself
    exact ⟨.blocks _ _ waiting ((blockReason_ne_empty found).mp reason), Or.inl rfl⟩
  rename_i silent
  have usable : node.blockedBy ledger plan.statusOf = false :=
    Bool.eq_false_of_not_eq_true fun blocked => silent ((blockReason_ne_empty found).mpr blocked)
  split at accepted
  · rename_i ready
    rcases except_map_ok accepted with ⟨moved, transitioned, same⟩
    cases same
    rcases transition_ok transitioned with ⟨other, located, _, _, _, rfl⟩
    cases located.symm.trans itself
    exact ⟨.admits _ ready.1 usable ((admitted_iff found).mp ready), Or.inl rfl⟩
  · rename_i unready
    cases accepted
    have idle : node.status.Open -> node.blockedBy ledger plan.statusOf = false ∧
        node.admittedBy plan.statusOf = false := fun _ => ⟨usable,
      Bool.eq_false_of_not_eq_true fun admitted => unready ((admitted_iff found).mpr admitted)⟩
    exact ⟨.idle idle, Or.inr ⟨rfl, rfl, idle⟩⟩

/-! ## Plans that have taken turns -/

/-- The plans have the same nodes up to what `refresh` may change. -/
def SameFrames (plan after : Plan) : Prop :=
  after.nodes.map PlanNode.frame = plan.nodes.map PlanNode.frame

section

omit [Hashing]

theorem SameFrames.nodeIds (frames : SameFrames plan after) :
    after.nodes.map PlanNode.nodeId = plan.nodes.map PlanNode.nodeId := by
  have names := congrArg (List.map PlanNode.nodeId) frames
  rw [List.map_map, List.map_map] at names
  exact names

theorem SameFrames.distinct (frames : SameFrames plan after) (distinct : plan.Distinct) :
    after.Distinct := by
  rw [Plan.Distinct, frames.nodeIds]
  exact distinct

/-- A node is found again in the other plan. -/
theorem SameFrames.mem (frames : SameFrames plan after) (listed : node ∈ plan.nodes) :
    ∃ new ∈ after.nodes, new.frame = node.frame := by
  have member : node.frame ∈ after.nodes.map PlanNode.frame := frames ▸ List.mem_map_of_mem listed
  exact List.mem_map.mp member

theorem SameFrames.frame_eq (frames : SameFrames plan after) (distinct : plan.Distinct)
    (listed : node ∈ plan.nodes) {new : PlanNode} (member : new ∈ after.nodes)
    (same : new.nodeId = node.nodeId) : new.frame = node.frame := by
  have found : new.frame ∈ plan.nodes.map PlanNode.frame := frames ▸ List.mem_map_of_mem member
  rcases List.mem_map.mp found with ⟨other, present, equal⟩
  have name : other.nodeId = new.nodeId := (congrArg PlanNode.nodeId equal :)
  rw [← equal, distinct.eq_of_nodeId present listed (name.trans same)]

theorem blockedBy_frame {first second : PlanNode} (same : first.frame = second.frame)
    (statusOf : String -> Option NodeStatus) :
    first.blockedBy ledger statusOf = second.blockedBy ledger statusOf := by
  have dependencies : first.dependsOn = second.dependsOn := (congrArg PlanNode.dependsOn same :)
  have inputs : first.inputEvidenceRefs = second.inputEvidenceRefs :=
    (congrArg PlanNode.inputEvidenceRefs same :)
  rw [PlanNode.blockedBy, PlanNode.blockedBy, dependencies, inputs]

theorem sameFrames_replaced (distinct : plan.Distinct) (listed : node ∈ plan.nodes) {new : PlanNode}
    (same : new.frame = node.frame) (revised : after.nodes = plan.replaceNode node.nodeId new) :
    SameFrames plan after := by
  rw [SameFrames, revised, Plan.replaceNode, List.map_map]
  apply List.map_congr_left
  intro other member
  rw [Function.comp_apply]
  split
  · rename_i here
    rw [same, distinct.eq_of_nodeId listed member here.symm]
  · rfl

end

namespace Turn

theorem sameFrames (turn : Turn ledger plan node after) (distinct : plan.Distinct)
    (listed : node ∈ plan.nodes) : SameFrames plan after := by
  cases turn with
  | idle done => rfl
  | blocks failure overall waiting blocked =>
    have same : ({ node with status := .blocked, failure := failure } : PlanNode).frame = node.frame := rfl
    exact sameFrames_replaced distinct listed same rfl
  | admits overall pending usable admitted =>
    have same : ({ node with status := .ready } : PlanNode).frame = node.frame := rfl
    exact sameFrames_replaced distinct listed same rfl

variable {other : PlanNode}

/-- Only the node of the turn changes. -/
theorem others (turn : Turn ledger plan node after) (member : other ∈ plan.nodes)
    (different : other.nodeId ≠ node.nodeId) : other ∈ after.nodes := by
  cases turn with
  | idle done => exact member
  | blocks failure overall waiting blocked
  | admits overall pending usable admitted => exact Plan.mem_replaceNode_of_ne member different

/-- A node that does not wait keeps its status. -/
theorem settled (turn : Turn ledger plan node after) (distinct : plan.Distinct)
    (listed : node ∈ plan.nodes) {nodeId : String} {status : NodeStatus}
    (known : plan.statusOf nodeId = some status) (done : ¬ status.Open) :
    after.statusOf nodeId = some status := by
  rcases Option.map_eq_some_iff.mp known with ⟨other, found, rfl⟩
  have member := List.mem_of_find?_eq_some found
  have name : other.nodeId = nodeId := of_decide_eq_true
    (@List.find?_some _ (fun node : PlanNode => decide (node.nodeId = nodeId)) _ _ found)
  have later := (turn.sameFrames distinct listed).distinct distinct
  rw [← name]
  by_cases same : other.nodeId = node.nodeId
  · rw [distinct.eq_of_nodeId member listed same] at done ⊢
    cases turn with
    | idle _ => exact Plan.statusOf_mem distinct listed
    | blocks failure overall waiting blocked => exact absurd waiting done
    | admits overall pending usable admitted =>
      rw [pending] at done
      exact absurd (by decide) done
  · exact Plan.statusOf_mem later (turn.others member same)

theorem blockedBy (turn : Turn ledger plan node after) (distinct : plan.Distinct)
    (listed : node ∈ plan.nodes) (blocked : other.blockedBy ledger plan.statusOf = true) :
    other.blockedBy ledger after.statusOf = true := by
  rw [PlanNode.blockedBy, Bool.or_eq_true] at blocked ⊢
  refine blocked.imp_left ?_
  intro unusable
  rcases List.any_eq_true.mp unusable with ⟨nodeId, member, holds⟩
  rcases (Option.any_eq_true _ _).mp holds with ⟨status, known, bad⟩
  refine List.any_eq_true.mpr ⟨nodeId, member, ?_⟩
  rw [turn.settled distinct listed known]
  · exact bad
  · intro waiting
    simp only [NodeStatus.Open, List.mem_cons, List.not_mem_nil, or_false] at waiting
    rcases waiting with pending | ready
    · rw [pending] at bad
      exact absurd bad (by decide)
    · rw [ready] at bad
      exact absurd bad (by decide)

theorem admittedBy (turn : Turn ledger plan node after) (distinct : plan.Distinct)
    (listed : node ∈ plan.nodes) (admitted : other.admittedBy plan.statusOf = true) :
    other.admittedBy after.statusOf = true := by
  rw [PlanNode.admittedBy, Bool.and_eq_true] at admitted ⊢
  refine ⟨admitted.1, List.all_eq_true.mpr ?_⟩
  intro nodeId member
  have succeeded := beq_iff_eq.mp (List.all_eq_true.mp admitted.2 nodeId member)
  rw [turn.settled distinct listed succeeded (by decide)]
  rfl

end Turn

/-- Why a node has the status that it has. -/
inductive Justified (ledger : Ledger) (reached : Plan) (old new : PlanNode) : Prop where
  | kept (same : new = old)
  | blocked (waiting : old.status.Open) (status : new.status = .blocked)
      (inputs : old.blockedBy ledger reached.statusOf = true)
  | admitted (pending : old.status = .pending) (status : new.status = .ready)
      (inputs : old.admittedBy reached.statusOf = true)

/-- The plan has been reached by turns. -/
structure Grown (ledger : Ledger) (plan reached : Plan) : Prop where
  frames : SameFrames plan reached
  justified : ∀ old new, old ∈ plan.nodes -> new ∈ reached.nodes -> new.nodeId = old.nodeId ->
    Justified ledger reached old new

omit [Hashing] in
theorem Grown.refl (distinct : plan.Distinct) : Grown ledger plan plan :=
  ⟨rfl, fun _ _ left right same => .kept (distinct.eq_of_nodeId right left same)⟩

theorem Grown.turn {reached : Plan} (grown : Grown ledger plan reached) (distinct : plan.Distinct)
    (listed : node ∈ reached.nodes) (turn : Turn ledger reached node after) :
    Grown ledger plan after := by
  have reaching := grown.frames.distinct distinct
  refine ⟨(turn.sameFrames reaching listed).trans grown.frames, ?_⟩
  have lifted : ∀ {old new : PlanNode}, Justified ledger reached old new ->
      Justified ledger after old new := by
    intro old new justified
    cases justified with
    | kept same => exact .kept same
    | blocked waiting status inputs => exact .blocked waiting status (turn.blockedBy reaching listed inputs)
    | admitted pending status inputs => exact .admitted pending status (turn.admittedBy reaching listed inputs)
  intro old new left right same
  have turned : ∀ replacement : PlanNode, after.nodes = reached.replaceNode node.nodeId replacement ->
      (replacement = new -> node.nodeId = old.nodeId -> Justified ledger after old new) ->
      replacement.nodeId = node.nodeId -> Justified ledger after old new := by
    intro replacement revised here name
    rw [revised] at right
    rcases Plan.mem_replaceNode right with replaced | ⟨kept, _⟩
    · exact here replaced.symm (name.symm.trans (replaced ▸ same))
    · exact lifted (grown.justified old new left kept same)
  have unusual : ∀ status : NodeStatus, node.status = status -> status.Open ->
      node.nodeId = old.nodeId -> old.status.Open ∧ (node.status = .pending -> old.status = .pending) := by
    intro status here waiting name
    cases grown.justified old node left listed name with
    | kept kept => exact ⟨by rw [← kept, here]; exact waiting, fun pending => kept ▸ pending⟩
    | blocked _ blocked _ =>
      rw [here] at blocked
      rw [blocked] at waiting
      exact absurd waiting (by decide)
    | admitted pending _ _ => exact ⟨by rw [pending]; decide, fun _ => pending⟩
  cases turn with
  | idle _ => exact grown.justified old new left right same
  | blocks failure overall waiting blocked =>
    refine turned _ rfl ?_ rfl
    rintro rfl name
    have frame := grown.frames.frame_eq distinct left listed name
    have inputs : old.blockedBy ledger reached.statusOf = true :=
      (blockedBy_frame frame reached.statusOf) ▸ blocked
    exact lifted (.blocked (unusual _ rfl waiting name).1 rfl inputs)
  | admits overall pending usable admitted =>
    refine turned _ rfl ?_ rfl
    rintro rfl name
    have frame := grown.frames.frame_eq distinct left listed name
    have dependencies : node.dependsOn = old.dependsOn := (congrArg PlanNode.dependsOn frame :)
    have began := (unusual _ pending (by decide) name).2 pending
    refine lifted (.admitted began rfl ?_)
    rw [PlanNode.admittedBy, pending, dependencies] at admitted
    rw [PlanNode.admittedBy, began]
    exact admitted

variable {motive : Plan -> Prop} {nodes : List PlanNode} {first second : String -> Option NodeStatus}

/-- What every turn preserves is preserved by a round, and a round that leaves
the flag down has taken no turn. -/
theorem round_induction
    (turned : ∀ before after node, motive before -> before.Distinct -> node ∈ before.nodes -> Turn ledger before node after -> motive after)
    (unique : (nodes.map PlanNode.nodeId).Nodup) (distinct : plan.Distinct)
    (listed : ∀ node ∈ nodes, node ∈ plan.nodes) (initially : motive plan)
    {changed flag : Bool} (accepted : nodes.foldlM (refreshNode ledger) (plan, changed) = .ok (after, flag)) :
    (motive after ∧ after.Distinct) ∧ (flag = true ∨ flag = changed ∧ after = plan ∧
      ∀ node ∈ nodes, node.status.Open ->
        node.blockedBy ledger plan.statusOf = false ∧ node.admittedBy plan.statusOf = false) := by
  induction nodes generalizing plan changed with
  | nil =>
    cases accepted
    exact ⟨⟨initially, distinct⟩, Or.inr ⟨rfl, rfl, fun _ member => False.elim (List.not_mem_nil member)⟩⟩
  | cons node rest ih =>
    rw [List.foldlM_cons] at accepted
    rw [List.map_cons, List.nodup_cons] at unique
    rcases bind_ok accepted with ⟨⟨middle, mark⟩, turn, accepted⟩
    have here := listed node List.mem_cons_self
    rcases refreshNode_turn distinct here turn with ⟨turn, quiet⟩
    have remaining : ∀ other ∈ rest, other ∈ middle.nodes := by
      intro other member
      refine turn.others (listed other (List.mem_cons_of_mem node member)) ?_
      exact fun same => unique.1 (same ▸ List.mem_map_of_mem member)
    rcases ih unique.2 ((turn.sameFrames distinct here).distinct distinct) remaining
      (turned _ _ _ initially distinct here turn) accepted with ⟨reached, raised | ⟨same, rfl, rest⟩⟩
    · exact ⟨reached, Or.inl raised⟩
    · refine ⟨reached, ?_⟩
      rcases quiet with raised | ⟨kept, rfl, idle⟩
      · exact Or.inl (same.trans raised)
      · refine Or.inr ⟨same.trans kept, rfl, ?_⟩
        intro other member
        rcases List.mem_cons.mp member with rfl | later
        · exact idle
        · exact rest other later

theorem refresh_turns
    (turned : ∀ before after node, motive before -> before.Distinct -> node ∈ before.nodes -> Turn ledger before node after -> motive after)
    (distinct : plan.Distinct) (initially : motive plan) (accepted : refresh ledger plan = .ok after) :
    motive after ∧ after.Distinct := by
  unfold refresh at accepted
  generalize plan.openSteps + 1 = fuel at accepted
  induction fuel generalizing plan with
  | zero =>
    cases accepted
    exact ⟨initially, distinct⟩
  | succ fuel ih =>
    rw [refreshLoop] at accepted
    cases round : refreshRound ledger plan with
    | error fault =>
      rw [round] at accepted
      cases accepted
    | ok reached =>
      rcases reached with ⟨next, changed⟩
      rw [round] at accepted
      rcases (round_induction turned distinct distinct (fun _ member => member) initially round).1 with
        ⟨holds, distinct⟩
      dsimp only at accepted
      split at accepted
      · exact ih distinct holds accepted
      · cases accepted
        exact ⟨holds, distinct⟩

/-- At the end no turn is left to take. -/
theorem refresh_idle (distinct : plan.Distinct) (accepted : refresh ledger plan = .ok after)
    {node : PlanNode} (listed : node ∈ after.nodes) (waiting : node.status.Open) :
    node.blockedBy ledger after.statusOf = false ∧ node.admittedBy after.statusOf = false := by
  have settled := refresh_settled distinct accepted
  have ended := (refresh_turns (motive := fun _ => True) (fun _ _ _ holds _ _ _ => holds) distinct
    True.intro accepted).2
  rcases (round_induction (motive := fun _ => True) (fun _ _ _ holds _ _ _ => holds) ended ended
    (fun _ member => member) True.intro settled).2 with impossible | ⟨_, _, idle⟩
  · cases impossible
  · exact idle node listed waiting

theorem refresh_grown (distinct : plan.Distinct) (accepted : refresh ledger plan = .ok after) :
    Grown ledger plan after :=
  (refresh_turns (fun _ _ _ grown _ listed turn => grown.turn distinct listed turn) distinct
    (.refl distinct) accepted).1

/-- The statuses after `refresh` solve the rule. -/
theorem refresh_solves (distinct : plan.Distinct) (accepted : refresh ledger plan = .ok after)
    {node : PlanNode} (listed : node ∈ plan.nodes) :
    after.statusOf node.nodeId = some (node.closedStatus ledger after.statusOf) := by
  have grown := refresh_grown distinct accepted
  rcases grown.frames.mem listed with ⟨new, member, frame⟩
  have name : new.nodeId = node.nodeId := (congrArg PlanNode.nodeId frame :)
  rw [← name, Plan.statusOf_mem (grown.frames.distinct distinct) member]
  refine congrArg some ?_
  unfold PlanNode.closedStatus
  cases grown.justified node new listed member name with
  | kept same =>
    rw [same] at member ⊢
    split
    · rfl
    rename_i waiting
    rcases refresh_idle distinct accepted member (not_not.mp waiting) with ⟨usable, unready⟩
    rw [usable, unready]
    rfl
  | blocked waiting status inputs => rw [if_neg (not_not.mpr waiting), inputs, status, if_pos rfl]
  | admitted pending status inputs =>
    have waits : node.status.Open := by
      rw [pending]
      decide
    have usable := (refresh_idle distinct accepted member (by rw [status]; decide)).1
    rw [blockedBy_frame frame] at usable
    rw [if_neg (not_not.mpr waits), usable, inputs, status]
    rfl

/-! ## Total runs -/

/-- Nothing in the plan makes a turn fail. -/
structure Regular (plan : Plan) : Prop where
  distinct : plan.Distinct
  known : ∀ node dependency, node ∈ plan.nodes -> dependency ∈ node.dependsOn ->
    dependency ∈ plan.nodes.map PlanNode.nodeId
  unclaimed : plan.Unclaimed

omit [Hashing] in
theorem mapM_node (known : ∀ nodeId ∈ node.dependsOn, nodeId ∈ plan.nodes.map PlanNode.nodeId)
    (distinct : plan.Distinct) :
    ∃ dependencies, node.dependsOn.mapM plan.node = .ok dependencies := by
  generalize node.dependsOn = names at known
  induction names with
  | nil => exact ⟨[], rfl⟩
  | cons name rest ih =>
    rcases List.mem_map.mp (known name List.mem_cons_self) with ⟨first, listed, rfl⟩
    rcases ih (fun other member => known other (List.mem_cons_of_mem _ member)) with ⟨others, found⟩
    refine ⟨first :: others, ?_⟩
    rw [List.mapM_cons, distinct.node_eq listed, found]
    rfl

theorem Regular.turn (regular : Regular plan) (listed : node ∈ plan.nodes)
    (turn : Turn ledger plan node after) : Regular after := by
  have frames := turn.sameFrames regular.distinct listed
  refine ⟨frames.distinct regular.distinct, ?_, ?_⟩
  · intro other dependency member inside
    rw [frames.nodeIds]
    have found : other.frame ∈ plan.nodes.map PlanNode.frame := frames ▸ List.mem_map_of_mem member
    rcases List.mem_map.mp found with ⟨old, present, same⟩
    have dependencies : old.dependsOn = other.dependsOn := (congrArg PlanNode.dependsOn same :)
    exact regular.known old dependency present (dependencies ▸ inside)
  · intro other member pending
    have kept : ∀ replacement : PlanNode, after.nodes = plan.replaceNode node.nodeId replacement ->
        replacement.status ≠ .pending -> other.attemptId = "" := by
      intro replacement revised moved
      rw [revised] at member
      rcases Plan.mem_replaceNode member with rfl | ⟨old, _⟩
      · exact absurd pending moved
      · exact regular.unclaimed other old pending
    cases turn with
    | idle done => exact regular.unclaimed other member pending
    | blocks failure overall waiting blocked
    | admits overall waiting usable admitted => exact kept _ rfl nofun

/-- No turn fails. -/
theorem Regular.refreshNode_total (ledger : Ledger) (regular : Regular plan) (listed : node ∈ plan.nodes)
    (changed : Bool) :
    ∃ reached, refreshNode ledger (plan, changed) node = .ok reached := by
  have itself := regular.distinct.node_eq listed
  unfold refreshNode
  split
  · exact ⟨_, rfl⟩
  rename_i waiting
  have waiting : node.status.Open := not_not.mp waiting
  simp only [NodeStatus.Open, List.mem_cons, List.not_mem_nil, or_false] at waiting
  rcases mapM_node (fun name => regular.known node name listed) regular.distinct with ⟨dependencies, found⟩
  dsimp only
  rw [found]
  dsimp only
  split
  · have moves : ∃ moved, transition plan node.nodeId .blocked
        { attemptId := node.attemptId, failure := some (blockReason ledger node dependencies) } = .ok moved := by
      unfold transition
      rw [itself]
      rcases waiting with status | status
      · simp [status, NodeStatus.successors]
      · simp [status, NodeStatus.successors]
    rcases moves with ⟨moved, moves⟩
    exact ⟨(moved, true), by rw [moves]; rfl⟩
  split
  · rename_i ready
    have free := regular.unclaimed node listed ready.1
    have moves : ∃ moved, transition plan node.nodeId .ready {} = .ok moved := by
      unfold transition
      rw [itself]
      simp [ready.1, NodeStatus.successors, free]
    rcases moves with ⟨moved, moves⟩
    exact ⟨(moved, true), by rw [moves]; rfl⟩
  · exact ⟨_, rfl⟩

theorem Regular.round_total (ledger : Ledger) (regular : Regular plan)
    (unique : (nodes.map PlanNode.nodeId).Nodup) (listed : ∀ node ∈ nodes, node ∈ plan.nodes)
    (changed : Bool) :
    ∃ reached, nodes.foldlM (refreshNode ledger) (plan, changed) = .ok reached := by
  induction nodes generalizing plan changed with
  | nil => exact ⟨(plan, changed), rfl⟩
  | cons node rest ih =>
    rw [List.map_cons, List.nodup_cons] at unique
    have here := listed node List.mem_cons_self
    rcases regular.refreshNode_total ledger here changed with ⟨⟨middle, mark⟩, taken⟩
    have turn := (refreshNode_turn regular.distinct here taken).1
    have remaining : ∀ other ∈ rest, other ∈ middle.nodes := by
      intro other member
      refine turn.others (listed other (List.mem_cons_of_mem node member)) ?_
      exact fun same => unique.1 (same ▸ List.mem_map_of_mem member)
    rcases ih (regular.turn here turn) unique.2 remaining mark with ⟨reached, later⟩
    refine ⟨reached, ?_⟩
    rw [List.foldlM_cons, taken]
    exact later

theorem Regular.refresh_total (ledger : Ledger) (regular : Regular plan) :
    ∃ result, refresh ledger plan = .ok result := by
  unfold refresh
  generalize plan.openSteps + 1 = fuel
  induction fuel generalizing plan with
  | zero => exact ⟨plan, rfl⟩
  | succ fuel ih =>
    rcases regular.round_total ledger regular.distinct (fun _ member => member) false with ⟨⟨next, flag⟩, round⟩
    have kept := round_induction (motive := Regular) (fun _ _ _ holds _ listed turn => holds.turn listed turn)
      regular.distinct regular.distinct (fun _ member => member) regular round
    rw [refreshLoop, refreshRound, round]
    dsimp only
    split
    · exact ih kept.1.1
    · exact ⟨next, rfl⟩

/-! ## The closure -/

/-- The statuses solve the rule of every node. -/
def Plan.Solves (plan : Plan) (ledger : Ledger) (statusOf : String -> Option NodeStatus) : Prop :=
  ∀ node ∈ plan.nodes, statusOf node.nodeId = some (node.closedStatus ledger statusOf)

omit [Hashing] in
/-- The rule looks at the dependencies alone. -/
theorem closedStatus_congr
    (agree : ∀ dependency ∈ node.dependsOn, first dependency = second dependency) :
    node.closedStatus ledger first = node.closedStatus ledger second := by
  have unusable : node.dependsOn.any (fun nodeId => (first nodeId).any NodeStatus.unusable) =
      node.dependsOn.any (fun nodeId => (second nodeId).any NodeStatus.unusable) := by
    rw [Bool.eq_iff_iff, List.any_eq_true, List.any_eq_true]
    apply exists_congr
    intro dependency
    apply and_congr_right
    intro member
    rw [agree dependency member]
  have succeeded : node.dependsOn.all (fun nodeId => first nodeId == some .succeeded) =
      node.dependsOn.all (fun nodeId => second nodeId == some .succeeded) := by
    rw [Bool.eq_iff_iff, List.all_eq_true, List.all_eq_true]
    apply forall₂_congr
    intro dependency member
    rw [agree dependency member]
  unfold PlanNode.closedStatus PlanNode.blockedBy PlanNode.admittedBy
  rw [unusable, succeeded]

omit [Hashing] in
/-- Over acyclic dependencies the rules have one solution. -/
theorem Plan.Graph.solves_unique (graph : plan.Graph) (solves : plan.Solves ledger first)
    (also : plan.Solves ledger second) (listed : node ∈ plan.nodes) :
    first node.nodeId = second node.nodeId := by
  have closed : ∀ item other, item ∈ plan.nodes.map PlanNode.nodeId -> plan.DependsOn item other ->
      other ∈ plan.nodes.map PlanNode.nodeId := by
    rintro item other _ ⟨dependent, member, _, inside⟩
    exact graph.known dependent other member inside
  refine graph.acyclic.unique closed
    (fun statusOf item => (plan.node? item).map fun node => node.closedStatus ledger statusOf)
    ?_ ?_ ?_ (List.mem_map_of_mem listed)
  · intro item member left right agree
    rcases List.mem_map.mp member with ⟨node, present, rfl⟩
    rw [plan.node?_mem graph.distinct present]
    refine congrArg some (closedStatus_congr ?_)
    intro dependency inside
    exact agree dependency ⟨node, present, rfl, inside⟩
  · intro item member
    rcases List.mem_map.mp member with ⟨node, present, rfl⟩
    rw [plan.node?_mem graph.distinct present]
    exact solves node present
  · intro item member
    rcases List.mem_map.mp member with ⟨node, present, rfl⟩
    rw [plan.node?_mem graph.distinct present]
    exact also node present

section Orders

variable {other : Plan}

omit [Hashing] in
theorem Plan.Graph.reordered (graph : plan.Graph) (order : other.nodes.Perm plan.nodes) :
    other.Graph := by
  have names : (other.nodes.map PlanNode.nodeId).Perm (plan.nodes.map PlanNode.nodeId) :=
    order.map PlanNode.nodeId
  have same : other.DependsOn = plan.DependsOn := by
    ext nodeId dependency
    apply exists_congr
    intro node
    rw [order.mem_iff]
  refine ⟨names.nodup_iff.mpr graph.distinct, ?_, ?_⟩
  · intro node dependency member inside
    exact names.mem_iff.mpr (graph.known node dependency (order.mem_iff.mp member) inside)
  · rw [same]
    exact graph.acyclic

omit [Hashing] in
theorem Plan.Unclaimed.reordered (unclaimed : plan.Unclaimed) (order : other.nodes.Perm plan.nodes) :
    other.Unclaimed := by
  intro node member
  exact unclaimed node (order.mem_iff.mp member)

end Orders

theorem refresh_idempotent (distinct : plan.Distinct) (accepted : refresh ledger plan = .ok after) :
    refresh ledger after = .ok after := by
  rw [refresh, refreshLoop, refresh_settled distinct accepted]
  rfl

/-- The plan after `refresh` is the closure of the plan before. -/
structure Closure (ledger : Ledger) (plan after : Plan) : Prop where
  frames : SameFrames plan after
  kept : ∀ node ∈ plan.nodes, ¬ node.status.Open -> node ∈ after.nodes
  solves : plan.Solves ledger after.statusOf
  only : ∀ statusOf, plan.Solves ledger statusOf ->
    ∀ node ∈ plan.nodes, after.statusOf node.nodeId = statusOf node.nodeId
  settled : refresh ledger after = .ok after

/-- `refresh` computes the closure where it returns.  It returns when no attempt
has been made at a pending node, and it then returns the same statuses for every
order of the nodes. -/
theorem refresh_closure (ledger : Ledger) (graph : plan.Graph) :
    (∀ after, refresh ledger plan = .ok after -> Closure ledger plan after) ∧
      (∀ after other result, refresh ledger plan = .ok after -> other.nodes.Perm plan.nodes ->
        refresh ledger other = .ok result -> ∀ node ∈ plan.nodes,
          result.statusOf node.nodeId = after.statusOf node.nodeId) ∧
      (plan.Unclaimed -> ∀ other, other.nodes.Perm plan.nodes ->
        ∃ result, refresh ledger other = .ok result) := by
  refine ⟨?_, ?_, ?_⟩
  · intro after accepted
    have solves : plan.Solves ledger after.statusOf :=
      fun node listed => refresh_solves graph.distinct accepted listed
    refine ⟨(refresh_grown graph.distinct accepted).frames, ?_, solves, ?_, ?_⟩
    · intro node listed done
      exact refresh_keeps graph.distinct accepted listed done
    · intro statusOf also node listed
      exact graph.solves_unique solves also listed
    · exact refresh_idempotent graph.distinct accepted
  · intro after other result accepted order reordered node listed
    have solves : plan.Solves ledger after.statusOf :=
      fun node listed => refresh_solves graph.distinct accepted listed
    have also : plan.Solves ledger result.statusOf :=
      fun node listed => refresh_solves (graph.reordered order).distinct reordered (order.mem_iff.mpr listed)
    exact graph.solves_unique also solves listed
  · intro unclaimed other order
    have graph := graph.reordered order
    have regular : Regular other := ⟨graph.distinct, graph.known, unclaimed.reordered order⟩
    exact regular.refresh_total ledger

end Turns

section Examples

attribute [local instance] Hashing.alternating

def emptyLedger : Ledger := ⟨fun _ => none, fun _ => none, fun _ => false⟩

/-- A node that waits for a node that has failed. -/
def failedInput : Plan :=
  { twoReads with nodes :=
    [{ readNode "b" with dependsOn := ["a"] }, { readNode "a" with status := .failed }] }

theorem failedInput_dependsOn {nodeId dependency : String} :
    failedInput.DependsOn nodeId dependency <-> nodeId = "b" ∧ dependency = "a" := by
  simp [Plan.DependsOn, failedInput, readNode, eq_comm]

theorem failedInput_graph : failedInput.Graph := by
  refine ⟨?_, ?_, ?_⟩
  · simp [Plan.Distinct, failedInput, readNode]
  · intro node dependency member inside
    rcases List.mem_pair.mp member with rfl | rfl
    · exact List.mem_cons_of_mem "b" inside
    · exact False.elim (List.not_mem_nil inside)
  intro item cycle
  have ends : ∀ {first last : String}, Relation.TransGen failedInput.DependsOn first last ->
      first = "b" ∧ last = "a" := by
    intro first last path
    induction path with
    | single step => exact failedInput_dependsOn.mp step
    | tail _ step ih => exact ⟨ih.1, (failedInput_dependsOn.mp step).2⟩
  rcases ends cycle with ⟨first, last⟩
  exact absurd (first.symm.trans last) (by decide)

theorem refresh_closure_blocked :
    ∃ after, refresh emptyLedger failedInput = .ok after ∧ Closure emptyLedger failedInput after ∧
      after.statusOf "b" = some .blocked := by
  have closure := refresh_closure emptyLedger failedInput_graph
  have unclaimed : failedInput.Unclaimed := by simp [Plan.Unclaimed, failedInput, readNode]
  rcases closure.2.2 unclaimed failedInput (.refl _) with ⟨after, accepted⟩
  have closed := closure.1 after accepted
  have failed : after.statusOf "a" = some .failed := closed.solves _ (List.mem_of_getElem? (i := 1) rfl)
  have waits := closed.solves _ (List.mem_of_getElem? (i := 0) rfl)
  refine ⟨after, accepted, closed, waits.trans ?_⟩
  simp [PlanNode.closedStatus, PlanNode.blockedBy, readNode, failed, NodeStatus.Open, NodeStatus.unusable]

/-- An attempt has been made at the node, and it is pending. -/
def claimedNode : Plan := { twoReads with nodes := [{ readNode "a" with attemptId := "attempt-1" }] }

/-- A pending node with an attempt is admitted without the attempt, and the plan
is rejected. -/
theorem refresh_claimed : claimedNode.Graph ∧ refresh emptyLedger claimedNode = .error "late_attempt_result" := by
  refine ⟨⟨?_, ?_, ?_⟩, rfl⟩
  · simp [Plan.Distinct, claimedNode]
  · intro node dependency member inside
    rcases List.mem_singleton.mp member with rfl
    exact False.elim (List.not_mem_nil inside)
  intro item cycle
  rcases Relation.TransGen.head'_iff.mp cycle with ⟨dependency, ⟨node, listed, _, inside⟩, _⟩
  rcases List.mem_singleton.mp listed with rfl
  exact False.elim (List.not_mem_nil inside)

end Examples

end PlanRuntime
end FixLoop
