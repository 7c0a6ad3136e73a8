import FixLoop.PlanRuntime.Tracked

namespace FixLoop
namespace PlanRuntime

open Library Program

/-!
# A write is executed at most once

A node that edits has an attempt exactly while it is begun.  Once an operation
of its attempt is journaled, no move within the same plan version takes the
attempt from it: a restart needs an attempt without any operation, and all
other moves that reset a node belong to a new version.
-/

/-- The node keeps its attempt, in a status that is begun. -/
def PlanNode.KeptIn (node : PlanNode) (plan : Plan) : Prop :=
  ∃ later ∈ plan.nodes, later.nodeId = node.nodeId ∧ later.kind = node.kind ∧
    later.attemptId = node.attemptId ∧ later.status.Begun

/-- The node edits, and an operation of its attempt is journaled. -/
structure PlanNode.Written (node : PlanNode) (facts : Facts) : Prop where
  edit : node.kind = .edit
  attempted : node.attemptId ≠ ""
  operated : ∃ operation ∈ facts.operations, operation.attemptId = node.attemptId

section Sealing

variable [Hashing] {plan after : Plan}

variable {node : PlanNode}

/-- A written node keeps its attempt in a transition that does not make it
ready, run, blocked or stale. -/
theorem transition_kept {nodeId : String} {status : NodeStatus} {args : TransitionArgs}
    (accepted : transition plan nodeId status args = .ok after) (listed : node ∈ plan.nodes)
    (begun : node.status.Begun)
    (ends : node.nodeId = nodeId -> status ∈ node.status.successors -> status ∈ [NodeStatus.succeeded, .failed, .cancelled, .uncertain])
    (distinct : plan.Distinct) : node.KeptIn after := by
  rcases transition_ok accepted with ⟨found, located, allowed, _, _, rfl⟩
  rcases Plan.node_ok located with ⟨member, rfl⟩
  by_cases same : node.nodeId = found.nodeId
  · cases distinct.eq_of_nodeId listed member same
    have target := ends rfl allowed
    have moving : status ≠ .running := by
      rintro rfl
      exact absurd target (by decide)
    refine ⟨movedNode node status args, Plan.mem_replaceNode_new listed rfl, rfl, rfl, if_neg moving, ?_⟩
    exact List.mem_cons_of_mem _ target
  · exact ⟨node, Plan.mem_replaceNode_of_ne listed same, rfl, rfl, rfl, begun⟩

theorem refresh_kept {ledger : Ledger} (distinct : plan.Distinct)
    (accepted : refresh ledger plan = .ok after) (listed : node ∈ plan.nodes) (begun : node.status.Begun) :
    node.KeptIn after := by
  refine refresh_induction (motive := fun reached => node.KeptIn reached) ?_ distinct
    ⟨node, listed, rfl, rfl, rfl, begun⟩ accepted
  rintro earlier later admits ⟨middle, present, name, kind, attempt, going⟩
  rcases admits.taken with ⟨target, status, args, member, waiting, _, moved⟩
  have ends : middle.nodeId = target.nodeId -> status ∈ middle.status.successors ->
      status ∈ [NodeStatus.succeeded, .failed, .cancelled, .uncertain] := by
    intro same _
    cases admits.distinct.eq_of_nodeId present member same
    exact absurd going (not_begun_early waiting)
  rcases transition_kept moved present going ends admits.distinct with
    ⟨last, final, named, kinds, attempts, goes⟩
  exact ⟨last, final, named.trans name, kinds.trans kind, attempts.trans attempt, goes⟩

variable [Decoding] {setting : Setting} {facts : Facts}

/-- A written node keeps its attempt in its plan version. -/
theorem Setting.Course.kept (course : setting.Course facts plan after) (distinct : plan.Distinct)
    (tracked : plan.Tracked) (version : after.planVersion = plan.planVersion) (listed : node ∈ plan.nodes)
    (written : node.Written facts) : node.KeptIn after := by
  have begun := (tracked node listed).begun written.edit written.attempted
  cases course with
  | refreshed ledger accepted => exact refresh_kept distinct accepted listed begun
  | moved nodeId status args blocks cancels stales accepted =>
    refine transition_kept accepted listed begun ?_ distinct
    rintro rfl allowed
    have stays : status ≠ .stale := fun stale =>
      stales stale node (distinct.node_eq listed) written.edit
    exact begun_successors begun allowed blocks stays
  | restarted attempt found reason located unstarted accepted =>
    rcases restartSafe_ok accepted with ⟨target, there, own, _, rfl⟩
    cases located.symm.trans there
    rcases Plan.node_ok located with ⟨member, name⟩
    refine ⟨node, Plan.mem_replaceNode_of_ne listed ?_, rfl, rfl, rfl, begun⟩
    intro same
    cases distinct.eq_of_nodeId listed member (same.trans name.symm)
    rcases written.operated with ⟨operation, journaled, kept⟩
    rcases unstarted written.edit with ⟨_, absent, represented⟩
    have own := own.resolve_left written.attempted
    exact unoperated represented absent journaled (kept.trans own)
  | replaced readings candidate reason evidenceRefs accepted =>
    rcases replanned_ok accepted with ⟨_, valid, refreshed⟩
    have next := (refresh_version valid.distinct refreshed).symm.trans version
    exact absurd next (by simp [rebuiltPlan, Plan.sealed])

/-- What has become of written nodes. -/
structure Facts.Keeps (first now : Facts) : Prop where
  operations : ∀ operation ∈ first.operations, operation ∈ now.operations
  plans : ∀ plan, first.plan = some plan -> ∃ later, now.plan = some later ∧
    plan.planVersion ≤ later.planVersion ∧ (later.planVersion = plan.planVersion ->
      ∀ node ∈ plan.nodes, node.Written first -> node.KeptIn later)

omit [Hashing] [Decoding] in
theorem Facts.Tracked.keeps {facts : Facts} (tracked : facts.Tracked) : facts.Keeps facts := by
  refine ⟨fun _ member => member, ?_⟩
  intro plan held
  refine ⟨plan, held, le_refl _, ?_⟩
  intro _ node listed written
  exact ⟨node, listed, rfl, rfl, rfl, (tracked plan held node listed).begun written.edit written.attempted⟩

omit [Hashing] [Decoding] in
/-- A kept node is written where its operations are known. -/
theorem PlanNode.KeptIn.trans {first middle : Facts} {plan last : Plan} (kept : node.KeptIn plan)
    (written : node.Written first)
    (operations : ∀ operation ∈ first.operations, operation ∈ middle.operations)
    (step : ∀ other ∈ plan.nodes, other.Written middle -> other.KeptIn last) :
    node.KeptIn last := by
  rcases kept with ⟨later, listed, name, kind, attempt, _⟩
  rcases written.operated with ⟨operation, journaled, same⟩
  have still : later.Written middle :=
    ⟨kind.trans written.edit, attempt ▸ written.attempted, operation, operations operation journaled,
      same.trans attempt.symm⟩
  rcases step later listed still with ⟨other, present, named, kinds, attempts, begun⟩
  exact ⟨other, present, named.trans name, kinds.trans kind, attempts.trans attempt, begun⟩

theorem Setting.Change.keeps {first before after : Facts} (change : setting.Change before after)
    (regular : before.Regular) (tracked : before.Tracked) (keeps : first.Keeps before) :
    first.Keeps after := by
  cases change with
  | same => exact keeps
  | created plan calm absent fresh valid =>
    refine ⟨keeps.operations, ?_⟩
    intro other held
    rcases keeps.plans other held with ⟨later, present, _⟩
    cases absent.symm.trans present
  | moved old new held valid move =>
    refine ⟨keeps.operations, ?_⟩
    intro plan started
    rcases keeps.plans plan started with ⟨later, present, grows, kept⟩
    cases held.symm.trans present
    have distinct := (regular.valid old held).distinct
    rcases move.course.version distinct with same | next
    · refine ⟨new, rfl, same ▸ grows, ?_⟩
      intro version node listed written
      exact (kept (same.symm.trans version) node listed written).trans written keeps.operations
        (fun other member still => move.course.kept distinct (tracked old held) same member still)
    · refine ⟨new, rfl, next ▸ grows.trans (Int.le_add_one (le_refl _)), ?_⟩
      intro version
      exact absurd (version.symm.trans next) (ne_of_lt (Int.lt_add_one_of_le grows))
  | attempt attempt named continuing => exact ⟨keeps.operations, keeps.plans⟩
  | operation operation calm =>
    exact ⟨fun other member => List.mem_append_left _ (keeps.operations other member), keeps.plans⟩

omit [Decoding] in
theorem Setting.Refreshed.kept {before after : Facts} (refreshed : Setting.Refreshed before after)
    (distinct : plan.Distinct) (held : before.plan = some plan) (listed : node ∈ plan.nodes)
    (begun : node.status.Begun) {later : Plan} (reached : after.plan = some later) : node.KeptIn later := by
  cases refreshed with
  | unchanged =>
    cases held.symm.trans reached
    exact ⟨node, listed, rfl, rfl, rfl, begun⟩
  | changed old next ledger known accepted valid =>
    cases held.symm.trans known
    cases reached
    exact refresh_kept distinct accepted listed begun

/-! ## The theorem -/

/-- What holds of a state that follows another one. -/
structure Onward (session : PlanSession) (first now : Runtime) : Prop where
  reached : Reached now
  tracked : now.journal.facts.Tracked
  keeps : first.journal.facts.Keeps now.journal.facts

theorem Onward.step {session : PlanSession} {first now : Runtime} (onward : Onward session first now)
    (input : Input) : Onward session first (now.step session input) := by
  have both : (now.step session input).journal.facts.Tracked ∧
      first.journal.facts.Keeps (now.step session input).journal.facts := by
    refine onward.reached.keeps (fun facts => facts.Tracked ∧ first.journal.facts.Keeps facts) ?_
      ⟨onward.tracked, onward.keeps⟩
    rintro before after change regular ⟨tracked, keeps⟩
    exact ⟨change.tracked regular tracked, change.keeps regular tracked keeps⟩
  exact ⟨reached_step onward.reached input, both.1, both.2⟩

/-- A node that edits and for whose attempt an operation is journaled keeps
that attempt in its plan version, in whatever way the run goes on: it is
running or has ended, and it is never prepared again. -/
theorem write_executed_once (session : PlanSession) (before after : List Input) {plan : Plan}
    {node : PlanNode} :
    let first := (runtimeMachine session).run Runtime.fresh before
    let last := (runtimeMachine session).run first after
    first.journal.plan? = some plan -> node ∈ plan.nodes -> node.kind = .edit ->
    node.attemptId ≠ "" ->
    (∃ operation ∈ first.journal.operations, operation.attemptId = node.attemptId) ->
    ∀ later, last.journal.plan? = some later -> later.planVersion = plan.planVersion ->
      (∃ kept ∈ later.nodes, kept.nodeId = node.nodeId ∧
        kept.attemptId = node.attemptId ∧
        kept.status ∈ [NodeStatus.running, .succeeded, .failed, .cancelled, .uncertain]) ∧
      ∀ answers, (∃ fault,
          (session.prepare node.nodeId).outcome answers last.journal = .error fault) ∧
        ∀ entry ∈ ((session.prepare node.nodeId).execute answers 0 last.journal).1.flatten,
          entry.attempt? = none := by
  intro first last held listed edit attempted operated later present version
  have onward : Onward session first last :=
    (runtimeMachine session).invariant_run (fun _ input known => known.step input)
      ⟨runtime_reached session before, runtime_tracked session before,
        (runtime_tracked session before).keeps⟩ after
  rcases onward.keeps.plans plan held with ⟨reached, found, _, keeps⟩
  cases present.symm.trans found
  rcases keeps version node listed ⟨edit, attempted, operated⟩ with
    ⟨kept, member, name, kind, attempt, begun⟩
  refine ⟨⟨kept, member, name, attempt, begun⟩, ?_⟩
  refine prepare_fails ?_
  intro changed refreshed current after found located
  have distinct := (onward.reached.regular.valid later present).distinct
  have still : kept.KeptIn current := refreshed.kept distinct present member begun after
  rcases still with ⟨now, here, named, _, _, going⟩
  rcases Plan.node_ok located with ⟨there, same⟩
  have distinct := refreshed.distinct distinct present after
  cases distinct.eq_of_nodeId there here (same.trans (named.trans name).symm)
  left
  intro ready
  rw [ready] at going
  exact absurd going (by decide)

end Sealing

section Crashed

attribute [local instance] Hashing.alternating Decoding.emptyDict

def writeNode : PlanNode :=
  { nodeId := "w", kind := .edit, objective := "write", dependsOn := [],
    toolAllowlist := ["apply_patch"], sideEffect := "write",
    completion := [⟨"patch_applied", []⟩], inputEvidenceRefs := [], outputEvidenceRefs := [],
    status := .pending, attemptId := "", failure := "", receiptRefs := [], startedAt := 0,
    endedAt := 0, toolName := "", argumentsJson := "\x7b\x7d" }

def writePlan : Plan :=
  { planId := "plan", taskId := "task", runId := "run", workspaceId := "workspace",
    sessionId := "session", nodes := [writeNode], schemaVersion := "1",
    planVersion := 1, stateRevision := 0, createdAt := 0, status := .active, planChecksum := "0",
    parentPlanChecksum := "", replanReason := "", replanEvidenceRefs := [] }

def writeSession : PlanSession := ⟨[("apply_patch", ⟨some "write"⟩)], writePlan.identity⟩

def oneWrite : List Input :=
  [calmly .openSession, calmly (.create writePlan), calmly (.prepare "w"),
    calmly (.toolPrepare 0 "apply_patch" (.obj []) none)]


/-- The process crashes and recovers. -/
def recovered : List Input := [crashed, calmly .openSession, calmly (.recover false)]

/-- The write is uncertain after the crash, and it is not prepared again. -/
theorem write_executed_once_recovered :
    let first := (runtimeMachine writeSession).run Runtime.fresh oneWrite
    let last := (runtimeMachine writeSession).run first recovered
    (last.journal.plan?.map fun plan => plan.nodes.map PlanNode.status) = some [.uncertain] ∧
      ∃ fault,
        (writeSession.prepare "w").outcome (calmAnswers "1" true) last.journal = .error fault := by
  intro first last
  have started : first.journal.plan?.map (fun plan =>
      (plan.planVersion, plan.nodes.map fun node => (node.nodeId, node.kind, node.attemptId))) =
        some (1, [("w", .edit, "attempt-1")]) := by decide +kernel
  have operated : first.journal.operations.map Operation.attemptId = ["attempt-1"] := by decide +kernel
  have ended : last.journal.plan?.map (fun plan => (plan.planVersion, plan.nodes.map PlanNode.status)) =
      some (1, [.uncertain]) := by decide +kernel
  rcases Option.map_eq_some_iff.mp started with ⟨plan, held, shape⟩
  rcases List.map_eq_singleton_iff.mp (congrArg Prod.snd shape) with ⟨node, nodes, fields⟩
  rcases List.map_eq_singleton_iff.mp operated with ⟨operation, operations, attempt⟩
  rcases Option.map_eq_some_iff.mp ended with ⟨later, present, after⟩
  have name : node.nodeId = "w" := congrArg Prod.fst fields
  have named : node.attemptId = "attempt-1" := congrArg (fun fields => fields.2.2) fields
  have kept := write_executed_once writeSession oneWrite recovered held (nodes ▸ List.mem_cons_self)
    (congrArg (fun fields => fields.2.1) fields) (named ▸ by decide)
    ⟨operation, operations ▸ List.mem_cons_self, attempt.trans named.symm⟩ later present
    ((congrArg Prod.fst after).trans (congrArg Prod.fst shape).symm)
  refine ⟨?_, name ▸ (kept.2 _).1⟩
  rw [present, Option.map_some]
  exact congrArg (fun pair => some pair.2) after

end Crashed

end PlanRuntime
end FixLoop
