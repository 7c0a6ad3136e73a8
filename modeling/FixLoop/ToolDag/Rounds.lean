import Mathlib.Data.String.Basic
import FixLoop.Library.CycleSearch
import FixLoop.Library.Keyed
import FixLoop.Library.Sorting
import FixLoop.PlanRuntime.Execution

namespace FixLoop
namespace ToolDag

open Library

/-!
# Rounds of a tool graph

In each round the nodes whose dependencies all have results are rejected or
executed, those that only read side by side and the others one after another.
What the execute function answers for a node is a parameter, since no node is
executed twice.
-/

structure ToolNode where
  nodeId : String
  toolName : String
  arguments : List (String × Json)
  dependsOn : List String
  sideEffect : String

structure ToolResult extends PlanRuntime.ToolResult where
  content : String
  data : Json := .null
  outputTruncated : Bool := false

abbrev Results := List (String × ToolResult)

inductive DagError where
  | duplicate
  | unknown (ids : List String)
  | cycle
  | unresolved
  deriving DecidableEq

namespace ToolNode

/-- `node.side_effect in {"read", "none"}`. -/
def reads (node : ToolNode) : Bool := ["read", "none"].contains node.sideEffect

/-- The result of a node with a dependency that failed. -/
def rejected (node : ToolNode) : ToolResult where
  status := .rejected
  errorCode := "stale_precondition"
  retryable := true
  durationMs := 0
  changedFiles := []
  metadata := .obj [("blocked_by", .arr (node.dependsOn.map .str))]
  receipt := .obj []
  content := "Error: dependency failed for " ++ node.nodeId

end ToolNode

namespace Results

def known (results : Results) (nodeId : String) : Bool := (Keyed.find? Prod.fst nodeId results).isSome

/-- `results[node_id].ok`, where a missing result is none that is. -/
def ok (results : Results) (nodeId : String) : Bool :=
  ((Keyed.find? Prod.fst nodeId results).map fun entry => entry.2.ok).getD false

end Results

def readyNodes (pending : List ToolNode) (results : Results) : List ToolNode :=
  pending.filter fun node => node.dependsOn.all results.known

/-- The nodes that are not ready. -/
def waiting (pending : List ToolNode) (results : Results) : List ToolNode :=
  pending.filter fun node => !node.dependsOn.all results.known

def blockedNodes (ready : List ToolNode) (results : Results) : List ToolNode :=
  ready.filter fun node => node.dependsOn.any fun dependency => !results.ok dependency

def liveNodes (ready : List ToolNode) (results : Results) : List ToolNode :=
  ready.filter fun node => !node.dependsOn.any fun dependency => !results.ok dependency

/-- The nodes of a stage run side by side, and a stage begins when the one
before it has ended. -/
def stagesOf (live : List ToolNode) : List (List ToolNode) :=
  (if live.filter ToolNode.reads = [] then [] else [live.filter ToolNode.reads]) ++
    (live.filter fun node => !node.reads).map fun node => [node]

section Rounds

variable (answers : ToolNode -> ToolResult)

/-- The results that a round adds. -/
def settled (ready : List ToolNode) (results : Results) : Results :=
  (blockedNodes ready results).map (fun node => (node.nodeId, node.rejected)) ++
    (stagesOf (liveNodes ready results)).flatten.map fun node => (node.nodeId, answers node)

/-- The rounds, each of which takes fuel, with the stages that they run. -/
def rounds : Nat -> List ToolNode -> Results -> Except DagError (Results × List (List ToolNode))
  | _, [], results => .ok (results, [])
  | 0, _ :: _, _ => .error .unresolved
  | fuel + 1, pending, results =>
    let ready := readyNodes pending results
    if ready = [] then .error .unresolved
    else
      (rounds fuel (waiting pending results) (results ++ settled answers ready results)).map
        (fun later => (later.1, stagesOf (liveNodes ready results) ++ later.2))

/-- The dependencies of a node by its name. -/
def dependencies (nodes : List ToolNode) (nodeId : String) : List String :=
  ((Keyed.find? ToolNode.nodeId nodeId nodes).map ToolNode.dependsOn).getD []

def unknownIds (nodes : List ToolNode) : List String :=
  (nodes.flatMap ToolNode.dependsOn).filter fun id => !(nodes.map ToolNode.nodeId).contains id

/-- `sorted(pending)`. -/
def byName (nodes : List ToolNode) : List ToolNode :=
  nodes.mergeSort fun first second => decide (first.nodeId ≤ second.nodeId)

/-- What is checked before the first round. -/
def check (nodes : List ToolNode) : Except DagError Unit :=
  if (nodes.map ToolNode.nodeId).Nodup then
    if unknownIds nodes ≠ [] then
      .error (.unknown ((unknownIds nodes).dedup.mergeSort fun first second => decide (first ≤ second)))
    else if (CycleSearch.search (dependencies nodes) (nodes.map ToolNode.nodeId)).isNone then .error .cycle
    else .ok ()
  else .error .duplicate

/-- `ToolDAGExecutor(execute).run(nodes)`, with the stages that it ran. -/
def run (nodes : List ToolNode) : Except DagError (Results × List (List ToolNode)) := do
  check nodes
  rounds answers nodes.length (byName nodes) []

end Rounds

/-! ## One round -/

namespace Results

variable {results added : Results} {nodeId : String}

theorem find?_append (results added : Results) (nodeId : String) :
    Keyed.find? Prod.fst nodeId (results ++ added) =
      (Keyed.find? Prod.fst nodeId results).or (Keyed.find? Prod.fst nodeId added) :=
  List.find?_append

/-- Results are not replaced. -/
theorem ok_append_of_known (known : results.known nodeId = true) :
    Results.ok (results ++ added) nodeId = results.ok nodeId := by
  rcases Option.isSome_iff_exists.mp known with ⟨entry, found⟩
  rw [ok, find?_append, found, ok, found]
  rfl

theorem ok_append_of_missing (missing : results.known nodeId = false) :
    Results.ok (results ++ added) nodeId = Results.ok added nodeId := by
  have nowhere : Keyed.find? Prod.fst nodeId results = none := by
    rw [known] at missing
    exact Option.not_isSome_iff_eq_none.mp (Bool.eq_false_iff.mp missing)
  rw [ok, find?_append, nowhere, Option.none_or, ok]

theorem known_of_mem {entry : String × ToolResult} (member : entry ∈ results) : results.known entry.1 = true := by
  rw [known]
  cases found : Keyed.find? Prod.fst entry.1 results with
  | none => exact absurd rfl (Keyed.find?_none.mp found entry member)
  | some _ => rfl

theorem known_append :
    Results.known (results ++ added) nodeId = (results.known nodeId || Results.known added nodeId) := by
  rw [known, find?_append, Option.isSome_or, known, known]

theorem mem_of_known (known : results.known nodeId = true) : nodeId ∈ results.map Prod.fst := by
  rcases Option.isSome_iff_exists.mp known with ⟨entry, found⟩
  rcases Keyed.find?_some found with ⟨member, rfl⟩
  exact List.mem_map_of_mem member

theorem known_of_ok (ok : results.ok nodeId = true) : results.known nodeId = true := by
  rw [Results.ok] at ok
  rw [known]
  cases found : Keyed.find? Prod.fst nodeId results with
  | none =>
    rw [found] at ok
    cases ok
  | some _ => rfl

theorem mem_of_ok (ok : results.ok nodeId = true) :
    ∃ result, (nodeId, result) ∈ results ∧ result.ok = true := by
  rw [Results.ok] at ok
  cases found : Keyed.find? Prod.fst nodeId results with
  | none =>
    rw [found] at ok
    cases ok
  | some entry =>
    rw [found] at ok
    rcases Keyed.find?_some found with ⟨member, rfl⟩
    exact ⟨entry.2, member, ok⟩

end Results

theorem ToolNode.rejected_ok (node : ToolNode) : node.rejected.ok = false := rfl

theorem stagesOf_perm (live : List ToolNode) : (stagesOf live).flatten.Perm live := by
  have single : ∀ nodes : List ToolNode, (nodes.map fun node => [node]).flatten = nodes := by
    intro nodes
    induction nodes with
    | nil => rfl
    | cons node rest ih => exact congrArg (List.cons node) ih
  have parallel : (if live.filter ToolNode.reads = [] then [] else [live.filter ToolNode.reads]).flatten =
      live.filter ToolNode.reads := by
    split
    · next none_ => exact none_.symm
    · exact List.flatten_singleton
  rw [stagesOf, List.flatten_append, parallel, single]
  exact List.filter_append_perm _ _

variable {stage nodes others : List ToolNode} {node : ToolNode} {stages : List (List ToolNode)}

/-- A node that does not only read is a stage of its own. -/
theorem stagesOf_alone {live : List ToolNode} (member : stage ∈ stagesOf live) (listed : node ∈ stage)
    (writes : node.reads = false) : stage = [node] := by
  rw [stagesOf, List.mem_append] at member
  rcases member with parallel | serial
  · split at parallel
    · cases parallel
    · rw [List.mem_singleton.mp parallel] at listed
      rw [(List.mem_filter.mp listed).2] at writes
      cases writes
  · rcases List.mem_map.mp serial with ⟨other, _, rfl⟩
    rw [List.mem_singleton.mp listed]

section Rounds

variable {answers : ToolNode -> ToolResult}

/-- Every node is executed behind stages in which its dependencies succeeded, or
behind those that are done. -/
def Follows (answers : ToolNode -> ToolResult) : List String -> List (List ToolNode) -> Prop
  | _, [] => True
  | done, stage :: rest =>
    (∀ node ∈ stage, node.dependsOn.Subset done) ∧
      Follows answers (done ++ (stage.filter fun node => (answers node).ok).map ToolNode.nodeId) rest

variable {done : List String} {ready : List ToolNode} {results : Results} {node : ToolNode}

theorem follows_of_done {stages : List (List ToolNode)}
    (all : ∀ node ∈ stages.flatten, node.dependsOn.Subset done) :
    Follows answers done stages := by
  induction stages generalizing done with
  | nil => exact True.intro
  | cons stage rest ih =>
    refine ⟨fun node member => all node (List.mem_append_left _ member), ih fun node member => ?_⟩
    exact (all node (List.mem_append_right _ member)).trans (List.subset_append_left _ _)

theorem follows_append {first second : List (List ToolNode)} (before : Follows answers done first)
    (after : Follows answers (done ++ (first.flatten.filter fun node => (answers node).ok).map ToolNode.nodeId) second) :
    Follows answers done (first ++ second) := by
  induction first generalizing done with
  | nil =>
    rw [List.flatten_nil, List.filter_nil, List.map_nil, List.append_nil] at after
    exact after
  | cons stage rest ih =>
    refine ⟨before.1, ih before.2 ?_⟩
    rw [List.flatten_cons, List.filter_append, List.map_append, <- List.append_assoc] at after
    exact after

/-- What the rounds make of the nodes that are pending. -/
structure Completes (answers : ToolNode -> ToolResult) (pending : List ToolNode) (results added : Results)
    (done : List String) (stages : List (List ToolNode)) : Prop where
  keys : (added.map Prod.fst).Perm (pending.map ToolNode.nodeId)
  once : stages.flatten.Nodup ∧ stages.flatten.Subset pending
  executed : ∀ node ∈ stages.flatten, (node.nodeId, answers node) ∈ added ∧
    ∀ dependency ∈ node.dependsOn, Results.ok (results ++ added) dependency = true
  rejected : ∀ node ∈ pending, node ∉ stages.flatten -> (node.nodeId, node.rejected) ∈ added ∧
    ∃ dependency ∈ node.dependsOn, Results.ok (results ++ added) dependency = false
  follows : Follows answers done stages
  alone : ∀ stage ∈ stages, ∀ node ∈ stage, node.reads = false -> stage = [node]

theorem mem_blocked :
    node ∈ blockedNodes ready results <-> node ∈ ready ∧ ∃ dependency ∈ node.dependsOn, results.ok dependency = false := by
  simp only [blockedNodes, List.mem_filter, List.any_eq_true, Bool.not_eq_true']

theorem mem_live :
    node ∈ liveNodes ready results <-> node ∈ ready ∧ ∀ dependency ∈ node.dependsOn,
      results.ok dependency = true := by
  simp only [liveNodes, List.mem_filter, Bool.not_eq_true', List.any_eq_false, Bool.not_eq_false]

variable {pending : List ToolNode}

theorem mem_ready :
    node ∈ readyNodes pending results <-> node ∈ pending ∧ ∀ dependency ∈ node.dependsOn,
      results.known dependency = true := by
  rw [readyNodes, List.mem_filter, List.all_eq_true]

theorem ready_perm (pending : List ToolNode) (results : Results) :
    (readyNodes pending results ++ waiting pending results).Perm pending :=
  List.filter_append_perm _ _

theorem settled_keys (answers : ToolNode -> ToolResult) (ready : List ToolNode) (results : Results) :
    ((settled answers ready results).map Prod.fst).Perm (ready.map ToolNode.nodeId) := by
  rw [settled, List.map_append, List.map_map, List.map_map]
  have parts : (blockedNodes ready results ++ liveNodes ready results).Perm ready := List.filter_append_perm _ _
  have merged := parts.map ToolNode.nodeId
  rw [List.map_append] at merged
  exact (((stagesOf_perm _).map ToolNode.nodeId).append_left _).trans merged

theorem settled_known {id : String} :
    Results.known (settled answers ready results) id = true <-> id ∈ ready.map ToolNode.nodeId := by
  rw [<- (settled_keys answers ready results).mem_iff]
  constructor
  · exact Results.mem_of_known
  · intro member
    rcases List.mem_map.mp member with ⟨entry, listed, rfl⟩
    exact Results.known_of_mem listed

theorem mem_settled {dependency : String}
    (ok : Results.ok (settled answers ready results) dependency = true) :
    dependency ∈ ((stagesOf (liveNodes ready results)).flatten.filter fun node => (answers node).ok).map
      ToolNode.nodeId := by
  rcases Results.mem_of_ok ok with ⟨result, member, succeeded⟩
  rcases List.mem_append.mp member with blocked | executed
  · rcases List.mem_map.mp blocked with ⟨node, _, same⟩
    cases same
    rw [ToolNode.rejected_ok] at succeeded
    cases succeeded
  · rcases List.mem_map.mp executed with ⟨node, listed, same⟩
    cases same
    exact List.mem_map_of_mem (List.mem_filter.mpr ⟨listed, succeeded⟩)

theorem completes_nil (results : Results) (done : List String) : Completes answers [] results [] done [] where
  keys := List.Perm.refl _
  once := ⟨List.nodup_nil, List.nil_subset _⟩
  executed := fun _ absent => absurd absent List.not_mem_nil
  rejected := fun _ absent => absurd absent List.not_mem_nil
  follows := True.intro
  alone := fun _ absent => absurd absent List.not_mem_nil

theorem Completes.round {added : Results} {stages : List (List ToolNode)}
    (distinct : Keyed.Distinct ToolNode.nodeId pending)
    (succeeded : ∀ dependency, results.ok dependency = true -> dependency ∈ done)
    (later : Completes answers (waiting pending results) (results ++ settled answers (readyNodes pending results) results) added (done ++ ((stagesOf (liveNodes (readyNodes pending results) results)).flatten.filter fun node => (answers node).ok).map ToolNode.nodeId) stages) :
    Completes answers pending results (settled answers (readyNodes pending results) results ++ added) done
      (stagesOf (liveNodes (readyNodes pending results) results) ++ stages) := by
  let ready := readyNodes pending results
  let first := stagesOf (liveNodes ready results)
  have shuffled := ready_perm pending results
  have live : ∀ node, node ∈ first.flatten <-> node ∈ liveNodes ready results :=
    fun node => (stagesOf_perm _).mem_iff
  have kept : ∀ dependency, results.known dependency = true ->
      Results.ok (results ++ (settled answers ready results ++ added)) dependency = results.ok dependency :=
    fun dependency known => Results.ok_append_of_known known
  have tail : ∀ dependency, Results.ok (results ++ (settled answers ready results ++ added)) dependency =
      Results.ok (results ++ settled answers ready results ++ added) dependency := by
    intro dependency
    rw [List.append_assoc]
  have nodup : pending.Nodup := List.Nodup.of_map _ distinct
  have parts := List.nodup_append.mp (shuffled.nodup_iff.mpr nodup)
  refine ⟨?_, ⟨?_, ?_⟩, ?_, ?_, ?_, ?_⟩
  · rw [List.map_append]
    refine List.Perm.trans ((settled_keys answers ready results).append later.keys) ?_
    rw [<- List.map_append]
    exact shuffled.map ToolNode.nodeId
  · rw [List.flatten_append]
    refine List.nodup_append.mpr ⟨?_, later.once.1, ?_⟩
    · exact (stagesOf_perm _).nodup_iff.mpr (parts.1.filter _)
    · intro node executed other afterwards same
      exact parts.2.2 node (mem_live.mp ((live node).mp executed)).1 other (later.once.2 afterwards) same
  · rw [List.flatten_append]
    intro node member
    rcases List.mem_append.mp member with executed | afterwards
    · exact (mem_ready.mp (mem_live.mp ((live node).mp executed)).1).1
    · exact (List.mem_filter.mp (later.once.2 afterwards)).1
  · intro node member
    rw [List.flatten_append] at member
    rcases List.mem_append.mp member with executed | afterwards
    · refine ⟨List.mem_append_left _ (List.mem_append_right _ (List.mem_map_of_mem executed)), ?_⟩
      intro dependency depends
      have ok := (mem_live.mp ((live node).mp executed)).2 dependency depends
      rw [kept dependency (Results.known_of_ok ok)]
      exact ok
    · rcases later.executed node afterwards with ⟨answered, ok⟩
      refine ⟨List.mem_append_right _ answered, fun dependency depends => ?_⟩
      rw [tail]
      exact ok dependency depends
  · intro node member unexecuted
    rw [List.flatten_append, List.mem_append, not_or] at unexecuted
    rcases List.mem_append.mp (shuffled.mem_iff.mpr member) with now | waits
    · have blocked : node ∈ blockedNodes ready results := by
        refine List.mem_filter.mpr ⟨now, ?_⟩
        by_contra unblocked
        apply unexecuted.1
        rw [live, liveNodes, List.mem_filter, Bool.eq_false_iff.mpr unblocked]
        exact ⟨now, rfl⟩
      rcases (mem_blocked.mp blocked).2 with ⟨dependency, depends, failed⟩
      refine ⟨List.mem_append_left _ (List.mem_append_left _ (List.mem_map_of_mem blocked)), dependency, depends, ?_⟩
      rw [kept dependency ((mem_ready.mp now).2 dependency depends)]
      exact failed
    · rcases later.rejected node waits unexecuted.2 with ⟨rejected, dependency, depends, failed⟩
      refine ⟨List.mem_append_right _ rejected, dependency, depends, ?_⟩
      rw [tail]
      exact failed
  · refine follows_append (follows_of_done fun node executed dependency depends => ?_) later.follows
    exact succeeded dependency ((mem_live.mp ((live node).mp executed)).2 dependency depends)
  · intro stage member node listed writes
    rcases List.mem_append.mp member with now | afterwards
    · exact stagesOf_alone now listed writes
    · exact later.alone stage afterwards node listed writes

/-- A round settles the nodes that are ready, and the next rounds the others. -/
theorem rounds_complete {next : String -> List String} {order : List String}
    (sequenced : CycleSearch.Sequenced next order) {fuel : Nat} {pending : List ToolNode} {results : Results}
    {done : List String} (enough : pending.length ≤ fuel) (distinct : Keyed.Distinct ToolNode.nodeId pending)
    (fresh : ∀ node ∈ pending, results.known node.nodeId = false)
    (closed : ∀ node ∈ pending, ∀ dependency ∈ node.dependsOn,
      results.known dependency = true ∨ dependency ∈ pending.map ToolNode.nodeId)
    (grounded : ∀ node ∈ pending, node.nodeId ∈ order ∧ node.dependsOn.Subset (next node.nodeId))
    (succeeded : ∀ dependency, results.ok dependency = true -> dependency ∈ done) :
    ∃ added stages, rounds answers fuel pending results = .ok (results ++ added, stages) ∧
      Completes answers pending results added done stages := by
  induction fuel generalizing pending results done with
  | zero =>
    cases List.length_eq_zero_iff.mp (Nat.le_zero.mp enough)
    exact ⟨[], [], by rw [rounds, List.append_nil], completes_nil results done⟩
  | succ fuel ih =>
    cases pending with
    | nil => exact ⟨[], [], by rw [rounds, List.append_nil], completes_nil results done⟩
    | cons head rest =>
    let pending := head :: rest
    have shuffled := ready_perm pending results
    have proceeds : readyNodes pending results ≠ [] := by
      rcases @CycleSearch.Sequenced.exists_last _ _ _ sequenced (fun id => id ∈ pending.map ToolNode.nodeId)
        ⟨head.nodeId, (grounded head List.mem_cons_self).1, List.mem_cons_self⟩ with ⟨id, listed, last⟩
      rcases List.mem_map.mp listed with ⟨node, member, rfl⟩
      refine List.ne_nil_of_mem (mem_ready.mpr ⟨member, fun dependency depends => ?_⟩)
      rcases closed node member dependency depends with known | waits
      · exact known
      · exact absurd waits (last dependency ((grounded node member).2 depends))
    have more : ∀ id, Results.known (results ++ settled answers (readyNodes pending results) results) id = true <->
        results.known id = true ∨ id ∈ (readyNodes pending results).map ToolNode.nodeId := by
      intro id
      rw [Results.known_append, Bool.or_eq_true, settled_known]
    have fewer : (waiting pending results).length ≤ fuel := by
      have count := shuffled.length_eq
      have some_ := List.length_pos_iff.mpr proceeds
      rw [List.length_append] at count
      change pending.length ≤ fuel + 1 at enough
      omega
    have unknown : ∀ node ∈ waiting pending results,
        Results.known (results ++ settled answers (readyNodes pending results) results) node.nodeId = false := by
      intro node member
      rw [Bool.eq_false_iff]
      intro known
      rcases (more _).mp known with before | now
      · rw [fresh node (List.mem_filter.mp member).1] at before
        cases before
      · have ids := (shuffled.map ToolNode.nodeId).nodup_iff.mpr distinct
        rw [List.map_append] at ids
        exact (List.nodup_append.mp ids).2.2 _ now _ (List.mem_map_of_mem member) rfl
    have within : ∀ node ∈ waiting pending results, ∀ dependency ∈ node.dependsOn,
        Results.known (results ++ settled answers (readyNodes pending results) results) dependency = true ∨
          dependency ∈ (waiting pending results).map ToolNode.nodeId := by
      intro node member dependency depends
      rcases closed node (List.mem_filter.mp member).1 dependency depends with known | waits
      · exact .inl ((more _).mpr (.inl known))
      · have either := (shuffled.map ToolNode.nodeId).mem_iff.mpr waits
        rw [List.map_append, List.mem_append] at either
        exact either.imp_left fun now => (more _).mpr (.inr now)
    have done_ : ∀ dependency,
        Results.ok (results ++ settled answers (readyNodes pending results) results) dependency = true ->
          dependency ∈ done ++ ((stagesOf (liveNodes (readyNodes pending results) results)).flatten.filter
            (fun node => (answers node).ok)).map ToolNode.nodeId := by
      intro dependency ok
      cases known : results.known dependency with
      | true =>
        rw [Results.ok_append_of_known known] at ok
        exact List.mem_append_left _ (succeeded dependency ok)
      | false =>
        rw [Results.ok_append_of_missing known] at ok
        exact List.mem_append_right _ (mem_settled ok)
    rcases ih fewer (Keyed.distinct_filter _ distinct) unknown within
      (fun node member => grounded node (List.mem_filter.mp member).1) done_ with ⟨added, stages, ran, later⟩
    refine ⟨_, _, ?_, Completes.round distinct succeeded later⟩
    rw [rounds, if_neg proceeds, <- List.append_assoc]
    · rw [ran]
      rfl
    · intro absent
      cases absent

end Rounds

/-! ## The order of what is executed -/

inductive Event where
  | started (node : ToolNode)
  | finished (node : ToolNode)

/-- The events of a stage come in any order, and all of them before those of the
next. -/
inductive Schedule : List (List ToolNode) -> List Event -> Prop where
  | nil : Schedule [] []
  | cons {stage : List ToolNode} {rest : List (List ToolNode)} {during later : List Event}
      (shuffled : during.Perm (stage.map .started ++ stage.map .finished)) (schedule : Schedule rest later) :
      Schedule (stage :: rest) (during ++ later)

def Running (before : List Event) (node : ToolNode) : Prop :=
  Event.started node ∈ before ∧ Event.finished node ∉ before

variable {during events : List Event} {answers : ToolNode -> ToolResult}

theorem mem_started (shuffled : during.Perm (stage.map .started ++ stage.map .finished)) :
    Event.started node ∈ during <-> node ∈ stage := by
  rw [shuffled.mem_iff]
  simp

theorem mem_finished (shuffled : during.Perm (stage.map .started ++ stage.map .finished)) :
    Event.finished node ∈ during <-> node ∈ stage := by
  rw [shuffled.mem_iff]
  simp

/-- A node that does not only read runs on its own. -/
theorem running_alone (schedule : Schedule stages events)
    (alone : ∀ stage ∈ stages, ∀ node ∈ stage, node.reads = false -> stage = [node])
    {before after : List Event} (split : events = before ++ after) {other : ToolNode}
    (writes : node.reads = false) (running : Running before node) (besides : Running before other) :
    other = node := by
  induction schedule generalizing before with
  | nil =>
    cases (List.append_eq_nil_iff.mp split.symm).1
    cases running.1
  | @cons stage rest during later shuffled schedule ih =>
    -- What runs behind this stage was started behind it.
    have behind : ∀ {node : ToolNode} {past : List Event}, Running (during ++ past) node -> Running past node := by
      intro node past running
      have unfinished := fun member => running.2 (List.mem_append_right _ member)
      rcases List.mem_append.mp running.1 with here | there
      · exact absurd (List.mem_append_left _ ((mem_finished shuffled).mpr ((mem_started shuffled).mp here))) running.2
      · exact ⟨there, unfinished⟩
    rcases List.append_eq_append_iff.mp split with ⟨past, rfl, rest_⟩ | ⟨future, within, _⟩
    · apply ih _ rest_ (behind running) (behind besides)
      exact fun stage member => alone stage (List.mem_cons_of_mem _ member)
    · have listed : ∀ {node : ToolNode}, Running before node -> node ∈ stage := by
        intro node running
        rw [within] at shuffled
        exact (mem_started shuffled).mp (List.mem_append_left _ running.1)
      have single := alone stage List.mem_cons_self node (listed running) writes
      have member := listed besides
      rw [single] at member
      exact List.mem_singleton.mp member

/-- A node is started behind the ends of the nodes that it depends on. -/
theorem dependencies_first (schedule : Schedule stages events) {done : List String}
    (follows : Follows answers done stages) {before after : List Event}
    (split : events = before ++ Event.started node :: after) {dependency : String}
    (depends : dependency ∈ node.dependsOn) : dependency ∈ done ∨ ∃ other,
      other.nodeId = dependency ∧ Event.finished other ∈ before ∧ (answers other).ok = true := by
  induction schedule generalizing before done with
  | nil => exact absurd split.symm (List.append_ne_nil_of_right_ne_nil _ (List.cons_ne_nil _ _))
  | @cons stage rest during later shuffled schedule ih =>
    have behind : ∀ past, before = during ++ past -> later = past ++ Event.started node :: after ->
        dependency ∈ done ∨ ∃ other,
          other.nodeId = dependency ∧ Event.finished other ∈ before ∧ (answers other).ok = true := by
      rintro past rfl split
      rcases ih follows.2 split with known | ⟨other, named, finished, ok⟩
      · rcases List.mem_append.mp known with before | now
        · exact .inl before
        · rcases List.mem_map.mp now with ⟨other, listed, named⟩
          have parts := List.mem_filter.mp listed
          exact .inr ⟨other, named, List.mem_append_left _ ((mem_finished shuffled).mpr parts.1), parts.2⟩
      · exact .inr ⟨other, named, List.mem_append_right _ finished, ok⟩
    rcases List.append_eq_append_iff.mp split with ⟨past, same, rest_⟩ | ⟨future, within, rest_⟩
    · exact behind past same rest_
    · cases future with
      | nil =>
        rw [List.append_nil] at within
        exact behind [] (by rw [List.append_nil, within]) rest_.symm
      | cons event future =>
        rcases List.cons.inj rest_ with ⟨rfl, _⟩
        rw [within] at shuffled
        have listed := (mem_started shuffled).mp (List.mem_append_right _ List.mem_cons_self)
        exact .inl (follows.1 node listed depends)

/-! ## The whole graph -/

/-- What `ToolDAGExecutor.run` asks of its nodes. -/
structure Wellformed (nodes : List ToolNode) : Prop where
  distinct : Keyed.Distinct ToolNode.nodeId nodes
  known : ∀ node ∈ nodes, node.dependsOn.Subset (nodes.map ToolNode.nodeId)
  acyclic : CycleSearch.Acyclic (dependencies nodes)

/-- What a run leaves. -/
structure Executed (answers : ToolNode -> ToolResult) (nodes : List ToolNode) (results : Results)
    (stages : List (List ToolNode)) : Prop where
  one : (results.map Prod.fst).Perm (nodes.map ToolNode.nodeId)
  once : stages.flatten.Nodup ∧ stages.flatten.Subset nodes
  answered : ∀ node ∈ stages.flatten, (node.nodeId, answers node) ∈ results
  rejected : ∀ node ∈ nodes, node ∉ stages.flatten -> (node.nodeId, node.rejected) ∈ results
  succeeds : ∀ node ∈ nodes, (node ∈ stages.flatten <-> ∀ id,
    Relation.TransGen (CycleSearch.Edge (dependencies nodes)) node.nodeId id -> results.ok id = true)
  dependenciesFirst : ∀ events, Schedule stages events -> ∀ before after node,
    events = before ++ Event.started node :: after -> ∀ id ∈ node.dependsOn, ∃ other,
      other.nodeId = id ∧ Event.finished other ∈ before ∧ (answers other).ok = true
  alone : ∀ events, Schedule stages events -> ∀ before after, events = before ++ after ->
    ∀ node other, node.reads = false -> Running before node -> Running before other -> other = node

theorem dependencies_of_mem (distinct : Keyed.Distinct ToolNode.nodeId nodes) (member : node ∈ nodes) :
    dependencies nodes node.nodeId = node.dependsOn := by
  rw [dependencies, Keyed.find?_of_mem distinct member]
  rfl

theorem edge_within (known : ∀ node ∈ nodes, node.dependsOn.Subset (nodes.map ToolNode.nodeId))
    (id other : String) (edge : other ∈ dependencies nodes id) :
    id ∈ nodes.map ToolNode.nodeId ∧ other ∈ nodes.map ToolNode.nodeId := by
  rw [dependencies] at edge
  cases found : Keyed.find? ToolNode.nodeId id nodes with
  | none =>
    rw [found] at edge
    cases edge
  | some node =>
    rw [found] at edge
    rcases Keyed.find?_some found with ⟨member, rfl⟩
    exact ⟨List.mem_map_of_mem member, known node member edge⟩

theorem unknownIds_nil :
    unknownIds nodes = [] <-> ∀ node ∈ nodes, node.dependsOn.Subset (nodes.map ToolNode.nodeId) := by
  rw [unknownIds, List.filter_eq_nil_iff]
  constructor
  · intro none_ node member id depends
    have listed := none_ id (List.mem_flatMap.mpr ⟨node, member, depends⟩)
    rw [Bool.not_eq_true', Bool.not_eq_false] at listed
    exact List.contains_iff_mem.mp listed
  · intro known id listed missing
    rcases List.mem_flatMap.mp listed with ⟨node, member, depends⟩
    rw [List.contains_iff_mem.mpr (known node member depends)] at missing
    cases missing

/-- The checks pass exactly for the graphs that are well-formed. -/
theorem check_ok_iff : check nodes = .ok () <-> Wellformed nodes := by
  rw [check]
  constructor
  · intro passed
    split at passed
    · next distinct =>
        split at passed
        · cases passed
        next known =>
        split at passed
        · cases passed
        next found =>
        have known := unknownIds_nil.mp (not_not.mp known)
        rw [Bool.not_eq_true, Option.isNone_eq_false_iff] at found
        exact ⟨distinct, known, (CycleSearch.search_isSome_iff (edge_within known)).mp found⟩
    · cases passed
  · intro wellformed
    rw [if_pos wellformed.distinct, if_neg (not_not.mpr (unknownIds_nil.mpr wellformed.known)), if_neg]
    rw [Bool.not_eq_true, Option.isNone_eq_false_iff]
    exact (CycleSearch.search_isSome_iff (edge_within wellformed.known)).mpr wellformed.acyclic

theorem byName_perm (nodes : List ToolNode) : (byName nodes).Perm nodes := List.mergeSort_perm _ _

/-- A graph is run in the same order, however it is listed. -/
theorem byName_congr (distinct : Keyed.Distinct ToolNode.nodeId nodes) (listed : nodes.Perm others) :
    byName others = byName nodes :=
  (Sorting.sorted_congr ToolNode.nodeId distinct listed).symm

theorem find?_perm (distinct : Keyed.Distinct ToolNode.nodeId nodes) (listed : nodes.Perm others)
    (id : String) : Keyed.find? ToolNode.nodeId id others = Keyed.find? ToolNode.nodeId id nodes := by
  cases found : Keyed.find? ToolNode.nodeId id nodes with
  | none =>
    refine Keyed.find?_none.mpr fun node member => ?_
    exact Keyed.find?_none.mp found node (listed.mem_iff.mpr member)
  | some node =>
    rcases Keyed.find?_some found with ⟨member, rfl⟩
    exact Keyed.find?_of_mem ((listed.map ToolNode.nodeId).nodup_iff.mp distinct) (listed.mem_iff.mp member)

theorem Wellformed.perm (wellformed : Wellformed nodes) (listed : nodes.Perm others) :
    Wellformed others where
  distinct := (listed.map ToolNode.nodeId).nodup_iff.mp wellformed.distinct
  known := fun node member _ depends => (listed.map ToolNode.nodeId).mem_iff.mp
    (wellformed.known node (listed.mem_iff.mpr member) depends)
  acyclic := by
    have same : dependencies others = dependencies nodes := by
      funext id
      rw [dependencies, find?_perm wellformed.distinct listed, dependencies]
    rw [same]
    exact wellformed.acyclic

theorem run_of_wellformed (answers : ToolNode -> ToolResult) (wellformed : Wellformed nodes) :
    run answers nodes = rounds answers nodes.length (byName nodes) [] := by
  rw [run, check_ok_iff.mpr wellformed]
  rfl

/-- A dependency that succeeded is that of a node that was executed. -/
theorem Completes.executed_iff {pending : List ToolNode} {results : Results} (wellformed : Wellformed nodes)
    (listed : pending.Perm nodes) (complete : Completes answers pending [] results [] stages)
    (member : node ∈ nodes) :
    node ∈ stages.flatten <-> ∀ id,
      Relation.TransGen (CycleSearch.Edge (dependencies nodes)) node.nodeId id -> results.ok id = true := by
  have distinct : Keyed.Distinct Prod.fst results :=
    (complete.keys.trans (listed.map ToolNode.nodeId)).nodup_iff.mpr wellformed.distinct
  have direct : ∀ node ∈ stages.flatten, ∀ id ∈ dependencies nodes node.nodeId,
      results.ok id = true := by
    intro node executed id edge
    rw [dependencies_of_mem wellformed.distinct (listed.mem_iff.mp (complete.once.2 executed))] at edge
    exact (complete.executed node executed).2 id edge
  have ran : ∀ node ∈ nodes, results.ok node.nodeId = true -> node ∈ stages.flatten := by
    intro node member ok
    by_contra unexecuted
    have entry := (complete.rejected node (listed.mem_iff.mpr member) unexecuted).1
    rw [Results.ok, @Keyed.find?_of_mem _ _ _ Prod.fst _ distinct _ entry] at ok
    cases ok
  constructor
  · intro executed id leads
    induction leads with
    | single edge => exact direct node executed _ edge
    | @tail between id _ edge ih =>
      rcases List.mem_map.mp (edge_within wellformed.known _ _ edge).1 with ⟨other, listed, rfl⟩
      exact direct other (ran other listed ih) id edge
  · intro succeeded
    by_contra unexecuted
    rcases (complete.rejected node (listed.mem_iff.mpr member) unexecuted).2 with ⟨dependency, depends, failed⟩
    rw [<- dependencies_of_mem wellformed.distinct member] at depends
    have ok := succeeded dependency (.single depends)
    rw [List.nil_append, ok] at failed
    cases failed

theorem run_executes (answers : ToolNode -> ToolResult) (wellformed : Wellformed nodes) :
    ∃ results stages, run answers nodes = .ok (results, stages) ∧
      Executed answers nodes results stages := by
  have listed := byName_perm nodes
  rcases Option.isSome_iff_exists.mp
    ((CycleSearch.search_isSome_iff (edge_within wellformed.known)).mpr wellformed.acyclic) with ⟨order, found⟩
  rcases CycleSearch.search_sequenced found with ⟨sequenced, all⟩
  rcases @rounds_complete answers _ _ sequenced nodes.length (byName nodes) [] [] (Nat.le_of_eq listed.length_eq)
    ((listed.map ToolNode.nodeId).nodup_iff.mpr wellformed.distinct) (fun _ _ => rfl)
    (fun node member dependency depends => .inr ((listed.map ToolNode.nodeId).mem_iff.mpr
      (wellformed.known node (listed.mem_iff.mp member) depends)))
    (fun node member => ⟨all _ (List.mem_map_of_mem (listed.mem_iff.mp member)), by
      rw [dependencies_of_mem wellformed.distinct (listed.mem_iff.mp member)]
      exact List.Subset.refl _⟩)
    (fun _ ok => nomatch ok) with ⟨results, stages, ran, complete⟩
  refine ⟨results, stages, (run_of_wellformed answers wellformed).trans ran, ?_⟩
  refine ⟨complete.keys.trans (listed.map ToolNode.nodeId), ⟨complete.once.1, fun _ member =>
    listed.mem_iff.mp (complete.once.2 member)⟩, fun node member => (complete.executed node member).1,
    fun node member unexecuted => (complete.rejected node (listed.mem_iff.mpr member) unexecuted).1,
    fun node member => complete.executed_iff wellformed listed member, ?_, ?_⟩
  · intro events schedule before after node split id depends
    rcases dependencies_first schedule complete.follows split depends with nothing | found
    · cases nothing
    · exact found
  · intro events schedule before after split node other writes running besides
    exact running_alone schedule complete.alone split writes running besides

/-- A well-formed graph is run to its end, in the same way however it is listed,
and any other graph fails its checks. -/
theorem run_sound (nodes : List ToolNode) :
    (Wellformed nodes -> ∀ answers : ToolNode -> ToolResult,
      (∃ results stages, run answers nodes = .ok (results, stages) ∧
        Executed answers nodes results stages) ∧
      ∀ others, nodes.Perm others -> run answers others = run answers nodes) ∧
    (¬Wellformed nodes -> ∃ error, check nodes = .error error ∧
      ∀ answers, run answers nodes = .error error) := by
  constructor
  · intro wellformed answers
    refine ⟨run_executes answers wellformed, fun others listed => ?_⟩
    rw [run_of_wellformed answers (wellformed.perm listed), run_of_wellformed answers wellformed,
      byName_congr wellformed.distinct listed, listed.length_eq]
  · intro malformed
    cases checked : check nodes with
    | ok _ => exact absurd (check_ok_iff.mp checked) malformed
    | error error =>
      refine ⟨error, rfl, fun answers => ?_⟩
      rw [run, checked]
      rfl

def readThenWrite : List ToolNode :=
  [{ nodeId := "edit", toolName := "write_file", arguments := [], dependsOn := ["look"], sideEffect := "write" },
    { nodeId := "look", toolName := "read_file", arguments := [], dependsOn := [], sideEffect := "read" }]

theorem readThenWrite_executed : ∀ answers, ∃ results stages,
    run answers readThenWrite = .ok (results, stages) ∧ Executed answers readThenWrite results stages :=
  fun answers => ((run_sound readThenWrite).1 (check_ok_iff.mp rfl) answers).1

end ToolDag
end FixLoop
