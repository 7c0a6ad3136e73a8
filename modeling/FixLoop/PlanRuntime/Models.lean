import Mathlib.Algebra.Order.Ring.Unbundled.Rat
import Mathlib.Data.List.Nodup
import FixLoop.Library.Json

namespace FixLoop
namespace PlanRuntime

open Library

/-!
# Immutable, versioned task plans

The dataclasses of `models.py`.  A revision of a plan is a new value, sealed
by the digest of all its other fields.
-/

/-- The message of an exception. -/
abbrev Fault := String

inductive NodeKind where
  | explore
  | analyze
  | edit
  | verify
deriving DecidableEq

def NodeKind.text : NodeKind -> String
  | explore => "explore"
  | analyze => "analyze"
  | edit => "edit"
  | verify => "verify"

inductive NodeStatus where
  | pending
  | ready
  | running
  | succeeded
  | failed
  | blocked
  | cancelled
  | stale
  | uncertain
deriving DecidableEq

def NodeStatus.text : NodeStatus -> String
  | pending => "pending"
  | ready => "ready"
  | running => "running"
  | succeeded => "succeeded"
  | failed => "failed"
  | blocked => "blocked"
  | cancelled => "cancelled"
  | stale => "stale"
  | uncertain => "uncertain"

inductive PlanStatus where
  | active
  | completed
  | uncertain
deriving DecidableEq

def PlanStatus.text : PlanStatus -> String
  | active => "active"
  | completed => "completed"
  | uncertain => "uncertain"

/-- A list of texts as it is encoded. -/
def texts (values : List String) : Json := .arr (values.map Json.str)

structure Completion where
  kind : String
  evidenceRefs : List String
deriving DecidableEq

def Completion.toDict (completion : Completion) : Json :=
  .obj [("kind", .str completion.kind), ("evidence_refs", texts completion.evidenceRefs)]

structure PlanNode where
  nodeId : String
  kind : NodeKind
  objective : String
  dependsOn : List String
  toolAllowlist : List String
  sideEffect : String
  completion : List Completion
  inputEvidenceRefs : List String
  outputEvidenceRefs : List String
  status : NodeStatus
  attemptId : String
  failure : String
  receiptRefs : List String
  startedAt : ℚ
  endedAt : ℚ
  toolName : String
  argumentsJson : String

namespace PlanNode

def toDict (node : PlanNode) : Json :=
  .obj [("node_id", .str node.nodeId), ("kind", .str node.kind.text),
    ("objective", .str node.objective), ("depends_on", texts node.dependsOn),
    ("tool_allowlist", texts node.toolAllowlist), ("side_effect", .str node.sideEffect),
    ("completion", .arr (node.completion.map Completion.toDict)),
    ("input_evidence_refs", texts node.inputEvidenceRefs),
    ("output_evidence_refs", texts node.outputEvidenceRefs), ("status", .str node.status.text),
    ("attempt_id", .str node.attemptId), ("failure", .str node.failure),
    ("receipt_refs", texts node.receiptRefs), ("started_at", .float node.startedAt),
    ("ended_at", .float node.endedAt), ("tool_name", .str node.toolName),
    ("arguments_json", .str node.argumentsJson)]

/-- The fields that a plan fixes for a node, apart from its execution. -/
structure Definition where
  nodeId : String
  kind : NodeKind
  objective : String
  dependsOn : List String
  toolAllowlist : List String
  sideEffect : String
  completion : List Completion
  inputEvidenceRefs : List String
  toolName : String
  argumentsJson : String
deriving DecidableEq

def definition (node : PlanNode) : Definition :=
  { nodeId := node.nodeId, kind := node.kind, objective := node.objective,
    dependsOn := node.dependsOn, toolAllowlist := node.toolAllowlist,
    sideEffect := node.sideEffect, completion := node.completion,
    inputEvidenceRefs := node.inputEvidenceRefs, toolName := node.toolName,
    argumentsJson := node.argumentsJson }

/-- The node with nothing of its execution left but the given failure. -/
def reset (node : PlanNode) (failure : String) : PlanNode :=
  { node with
    status := .pending, attemptId := "", failure := failure, outputEvidenceRefs := [],
    receiptRefs := [], startedAt := 0, endedAt := 0 }

end PlanNode

structure Identity where
  taskId : String
  runId : String
  workspaceId : String
  sessionId : String
deriving DecidableEq

def Identity.toDict (identity : Identity) : Json :=
  .obj [("task_id", .str identity.taskId), ("run_id", .str identity.runId),
    ("workspace_id", .str identity.workspaceId), ("session_id", .str identity.sessionId)]

structure Plan where
  planId : String
  taskId : String
  runId : String
  workspaceId : String
  sessionId : String
  nodes : List PlanNode
  schemaVersion : String
  planVersion : Int
  stateRevision : Int
  createdAt : ℚ
  status : PlanStatus
  planChecksum : String
  parentPlanChecksum : String
  replanReason : String
  replanEvidenceRefs : List String

namespace Plan

def identity (plan : Plan) : Identity := ⟨plan.taskId, plan.runId, plan.workspaceId, plan.sessionId⟩

/-- `to_dict` without the member `plan_checksum`. -/
def unsealed (plan : Plan) : List (String × Json) :=
  [("plan_id", .str plan.planId), ("task_id", .str plan.taskId), ("run_id", .str plan.runId),
    ("workspace_id", .str plan.workspaceId), ("session_id", .str plan.sessionId),
    ("nodes", .arr (plan.nodes.map PlanNode.toDict)), ("schema_version", .str plan.schemaVersion),
    ("plan_version", .int plan.planVersion), ("state_revision", .int plan.stateRevision),
    ("created_at", .float plan.createdAt), ("status", .str plan.status.text),
    ("parent_plan_checksum", .str plan.parentPlanChecksum),
    ("replan_reason", .str plan.replanReason),
    ("replan_evidence_refs", texts plan.replanEvidenceRefs)]

def toDict (plan : Plan) : Json := .obj (plan.unsealed ++ [("plan_checksum", .str plan.planChecksum)])

section Sealing

variable [Hashing]

/-- `seal`. -/
def sealed (plan : Plan) : Plan := { plan with planChecksum := Hashing.digest (.obj plan.unsealed) }

def verify (plan : Plan) : Bool :=
  plan.planChecksum != "" && plan.sealed.planChecksum == plan.planChecksum

end Sealing

/-- `node`, where the search raises `StopIteration` if there is none. -/
def node (plan : Plan) (nodeId : String) : Except Fault PlanNode :=
  match plan.nodes.find? (fun node => node.nodeId = nodeId) with
  | some found => .ok found
  | none => .error "StopIteration"

def replaceNode (plan : Plan) (nodeId : String) (new : PlanNode) : List PlanNode :=
  plan.nodes.map fun node => if node.nodeId = nodeId then new else node

/-- The identifiers of the nodes are distinct. -/
def Distinct (plan : Plan) : Prop := (plan.nodes.map PlanNode.nodeId).Nodup

variable {plan : Plan} {nodeId : String} {new : PlanNode}

theorem node_ok {found : PlanNode} (located : plan.node nodeId = .ok found) :
    found ∈ plan.nodes ∧ found.nodeId = nodeId := by
  unfold node at located
  split at located
  · rename_i known search
    cases located
    have same := @List.find?_some _ (fun node : PlanNode => decide (node.nodeId = nodeId)) _ _ search
    exact ⟨List.mem_of_find?_eq_some search, of_decide_eq_true same⟩
  · cases located

theorem Distinct.eq_of_nodeId (distinct : plan.Distinct) {first second : PlanNode}
    (left : first ∈ plan.nodes) (right : second ∈ plan.nodes) (same : first.nodeId = second.nodeId) :
    first = second :=
  List.inj_on_of_nodup_map distinct left right same

theorem Distinct.node_eq (distinct : plan.Distinct) {found : PlanNode} (member : found ∈ plan.nodes) :
    plan.node found.nodeId = .ok found := by
  cases located : plan.node found.nodeId with
  | ok known =>
    rcases node_ok located with ⟨listed, same⟩
    rw [distinct.eq_of_nodeId listed member same]
  | error fault =>
    unfold node at located
    split at located
    · cases located
    · rename_i absent
      exact absurd (decide_eq_true rfl) (List.find?_eq_none.mp absent found member)

theorem mem_replaceNode {node : PlanNode} (member : node ∈ plan.replaceNode nodeId new) :
    node = new ∨ node ∈ plan.nodes ∧ node.nodeId ≠ nodeId := by
  rcases List.mem_map.mp member with ⟨old, listed, image⟩
  by_cases same : old.nodeId = nodeId
  · rw [if_pos same] at image
    exact Or.inl image.symm
  · rw [if_neg same] at image
    exact Or.inr ⟨image ▸ listed, image ▸ same⟩

theorem mem_replaceNode_new {old : PlanNode} (member : old ∈ plan.nodes) (same : old.nodeId = nodeId) :
    new ∈ plan.replaceNode nodeId new :=
  List.mem_map.mpr ⟨old, member, if_pos same⟩

theorem mem_replaceNode_of_ne {old : PlanNode} (member : old ∈ plan.nodes) (other : old.nodeId ≠ nodeId) :
    old ∈ plan.replaceNode nodeId new :=
  List.mem_map.mpr ⟨old, member, if_neg other⟩

theorem nodeIds_replaceNode (plan : Plan) (same : new.nodeId = nodeId) :
    (plan.replaceNode nodeId new).map PlanNode.nodeId = plan.nodes.map PlanNode.nodeId := by
  rw [replaceNode, List.map_map]
  apply List.map_congr_left
  intro node _
  rw [Function.comp_apply]
  split
  · rename_i here
    rw [same, here]
  · rfl

end Plan

/-!
# `validate_plan`

The checks run in the order of the source, each with its message.
-/

def maxNodes : Nat := 8

def maxDependencies : Nat := 3

def maxReplans : Int := 2

/-- `COMPLETIONS`. -/
def NodeKind.completionKind : NodeKind -> String
  | .explore => "observation_present"
  | .analyze => "analysis_recorded"
  | .edit => "patch_applied"
  | .verify => "tests_passed"

def NodeKind.sideEffect : NodeKind -> String
  | .explore => "read"
  | .analyze => "read"
  | .edit => "write"
  | .verify => "verify"

/-- The metadata of a tool; the member `side_effect` may be missing. -/
structure ToolSpec where
  sideEffect : Option String

abbrev Registry := List (String × ToolSpec)

inductive ToolEffect where
  | read
  | write
  | verify
deriving DecidableEq

def ToolEffect.text : ToolEffect -> String
  | read => "read"
  | write => "write"
  | verify => "verify"

def toolEffect (name : String) (registry : Registry) : Except Fault ToolEffect :=
  match registry.lookup name with
  | none => .error s!"unknown_tool: {name}"
  | some spec =>
    let declared := spec.sideEffect.getD "write"
    if name ∈ ["write_file", "patch_file", "apply_patch", "expand_lock"] then .ok .write
    else if declared = "external" ∨
        name ∈ ["run_shell", "quick_test", "sandbox_build", "sandbox_test", "sandbox_verify"] then
      .ok .verify
    else if declared = "read" then .ok .read
    else if declared = "write" then .ok .write
    else if declared = "verify" then .ok .verify
    else .error s!"invalid_tool_effect: {name}"

/-- Raise the exception if the condition holds. -/
def raiseIf (condition : Prop) [Decidable condition] (fault : Fault) : Except Fault Unit :=
  if condition then .error fault else .ok ()

theorem raiseIf_ok {condition : Prop} [Decidable condition] {fault : Fault} {result : Unit}
    (passed : raiseIf condition fault = .ok result) : ¬ condition := by
  intro holds
  rw [raiseIf, if_pos holds] at passed
  cases passed

/-- The identity fields in the order in which they are checked. -/
def Plan.identityFields (plan : Plan) : List (String × String) :=
  [("plan_id", plan.planId), ("task_id", plan.taskId), ("run_id", plan.runId),
    ("workspace_id", plan.workspaceId), ("session_id", plan.sessionId)]

def Identity.fields (identity : Identity) : List (String × String) :=
  [("task_id", identity.taskId), ("run_id", identity.runId),
    ("workspace_id", identity.workspaceId), ("session_id", identity.sessionId)]

def checkIdentity (identity : Identity) (field : String × String) : Except Fault Unit := do
  raiseIf (field.2 = "") s!"missing_identity: {field.1}"
  raiseIf ((identity.fields.lookup field.1).getD field.2 ≠ field.2)
    s!"plan_identity_mismatch: {field.1}"

/-- The loop of `validate_plan` over the tools of a node. -/
def checkTool (registry : Registry) (kind : NodeKind) (name : String) : Except Fault Unit := do
  let effect <- toolEffect name registry
  raiseIf (kind ∈ [.explore, .analyze] ∧ effect ≠ .read) s!"readonly_tool_violation: {name}"

section Decoded

variable [Decoding]

/-- `isinstance(json.loads(text), dict)`. -/
def decodesToDict (text : String) : Except Fault Bool :=
  match Decoding.loads text with
  | some (.obj _) => .ok true
  | some _ => .ok false
  | none => .error "JSONDecodeError"

/-- The checks of one node among the identifiers of the plan. -/
def checkNode (registry : Registry) (nodeIds : List String) (node : PlanNode) :
    Except Fault Unit := do
  raiseIf (node.sideEffect ≠ node.kind.sideEffect) s!"node_effect_mismatch: {node.nodeId}"
  raiseIf (node.objective = "" ∨ node.completion = []) s!"completion_required: {node.nodeId}"
  raiseIf (node.completion.any (fun completion => completion.kind ≠ node.kind.completionKind &&
    !(node.kind = .verify && completion.kind = "static_checked")) = true)
    s!"completion_type_invalid: {node.nodeId}"
  raiseIf (maxDependencies < node.dependsOn.length) "dependency_budget_exceeded"
  raiseIf (¬ node.dependsOn.Nodup) "duplicate_dependency"
  raiseIf (node.dependsOn.any (fun dependency => dependency ∉ nodeIds) = true)
    s!"unknown_dependency: {node.nodeId}"
  raiseIf (¬ node.toolAllowlist.Nodup) "duplicate_tool"
  node.toolAllowlist.forM (checkTool registry node.kind)
  raiseIf (node.toolName ≠ "" ∧ node.toolName ∉ node.toolAllowlist) "operation_not_allowed"
  raiseIf (node.kind = .explore ∧ node.toolName = "") "explore_requires_fixed_operation"
  let dict <- decodesToDict node.argumentsJson
  raiseIf (dict = false) "operation_arguments_invalid"

end Decoded

/-- `visit`: walk the dependencies of a node and return the nodes visited so
far.  The walk is never deeper than the number of nodes, because those on its
path are distinct; at that depth every node is on the path. -/
def visit (nodes : List PlanNode) :
    Nat -> List String -> List String -> String -> Except Fault (List String)
  | 0, _, _, _ => .error "plan_cycle"
  | fuel + 1, visiting, visited, key =>
    if key ∈ visiting then .error "plan_cycle"
    else if key ∈ visited then .ok visited
    else
      match nodes.find? (fun node => node.nodeId = key) with
      | none => .error "KeyError"
      | some node =>
        (node.dependsOn.foldlM (visit nodes fuel (key :: visiting)) visited).map
          (fun visited => key :: visited)

/-- The search for cycles. -/
def checkAcyclic (nodes : List PlanNode) : Except Fault Unit :=
  ((nodes.map PlanNode.nodeId).foldlM (visit nodes (nodes.length + 1) []) []).map fun _ => ()

def validatePlan [Hashing] [Decoding] (plan : Plan) (registry : Registry) (identity : Identity) :
    Except Fault Unit := do
  raiseIf (plan.schemaVersion ≠ "1" ∨ plan.verify = false) "plan_schema_or_checksum_invalid"
  raiseIf (plan.planVersion < 1 ∨ plan.stateRevision < 0) "plan_revision_invalid"
  plan.identityFields.forM (checkIdentity identity)
  raiseIf (¬ (1 ≤ plan.nodes.length ∧ plan.nodes.length ≤ maxNodes)) "node_budget_exceeded"
  raiseIf (¬ (plan.nodes.map PlanNode.nodeId).Nodup ∨ "" ∈ plan.nodes.map PlanNode.nodeId)
    "duplicate_or_empty_node_id"
  plan.nodes.forM (checkNode registry (plan.nodes.map PlanNode.nodeId))
  checkAcyclic plan.nodes

/-- What the later steps need of a valid plan. -/
structure Plan.Valid (plan : Plan) : Prop where
  distinct : plan.Distinct
  nonempty : plan.nodes ≠ []
  version : 1 ≤ plan.planVersion

theorem bind_ok {Value Result : Type} {first : Except Fault Value} {next : Value -> Except Fault Result}
    {result : Result} (run : first >>= next = .ok result) :
    ∃ value, first = .ok value ∧ next value = .ok result := by
  cases first with
  | error fault => cases run
  | ok value => exact ⟨value, rfl, run⟩

theorem validatePlan_ok [Hashing] [Decoding] {plan : Plan} {registry : Registry}
    {identity : Identity} {result : Unit} (accepted : validatePlan plan registry identity = .ok result) :
    plan.Valid := by
  rcases bind_ok accepted with ⟨_, _, accepted⟩
  rcases bind_ok accepted with ⟨_, revision, accepted⟩
  rcases bind_ok accepted with ⟨_, _, accepted⟩
  rcases bind_ok accepted with ⟨_, budget, accepted⟩
  rcases bind_ok accepted with ⟨_, unique, _⟩
  refine ⟨?_, ?_, ?_⟩
  · by_contra double
    exact raiseIf_ok unique (Or.inl double)
  · intro empty
    refine raiseIf_ok budget ?_
    rw [empty]
    exact fun bounds => absurd bounds.1 (Nat.not_succ_le_zero 0)
  · by_contra low
    exact raiseIf_ok revision (Or.inl (Int.not_le.mp low))

end PlanRuntime
end FixLoop
