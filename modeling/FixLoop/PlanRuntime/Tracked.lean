import FixLoop.PlanRuntime.Runtime

namespace FixLoop
namespace PlanRuntime

open Library Program

/-!
# When a node is not prepared

`prepare` refreshes the plan, which records no attempt, and then refuses a
node that is not ready and every node while some node is uncertain.
-/

section Sealing

variable [Hashing] [Decoding] {setting : Setting} {plan : Plan}

section Allowed

variable {allowed : Entry -> Prop}

section

omit [Hashing] [Decoding]

theorem appends_check (point : String) : Appends allowed (check point) := by
  intro reply
  cases reply with
  | none => exact True.intro
  | some fault => exact True.intro

theorem appends_cut (point : String) : Appends allowed (cut point) :=
  (appends_check _).bind fun _ => appends_check _

theorem appends_whenever (condition : Prop) [Decidable condition] {program : SessionM Unit}
    (appends : Appends allowed program) : Appends allowed (whenever condition program) :=
  appends_ite appends (appends_pure _)

end

variable (session : PlanSession)

omit [Hashing] [Decoding] in
theorem appends_emit (traces : ∀ event payload, allowed (.trace event payload)) (event : String)
    (payload : List (String × Json)) : Appends allowed (session.emit event payload) := by
  intro journal
  exact (appends_write (traces event _)).bind fun _ => appends_check _

omit [Decoding] in
theorem appends_checkpoint (states : ∀ record, allowed (.longTaskState record))
    (seals : ∀ record, allowed (.checkpoint record)) :
    Appends allowed session.checkpoint := by
  refine (appends_check _).bind fun _ => (appends_cut _).bind fun _ => ?_
  refine Appends.bind ((appends_check _).bind fun _ => ?_) fun state => ?_
  · refine (appends_question Query.longTaskState).bind fun state => ?_
    exact (appends_write (states _)).bind fun _ => appends_pure _
  · intro coordination
    refine (appends_ofExcept coordination).bind fun _ => appends_journal.bind fun _ => ?_
    exact (appends_write (seals _)).bind fun _ => appends_cut _

theorem appends_commit (plans : ∀ plan, allowed (.plan plan)) (plan : Plan) :
    Appends allowed (session.commit plan) := by
  refine (appends_check _).bind fun _ => (appends_check _).bind fun _ => ?_
  refine (appends_ofExcept _).bind fun _ => ?_
  refine Appends.bind ((appends_ofExcept _).bind fun _ => appends_write (plans plan)) ?_
  exact fun _ => appends_cut _

theorem appends_refresh (plans : ∀ plan, allowed (.plan plan))
    (traces : ∀ event payload, allowed (.trace event payload)) :
    Appends allowed session.refresh := by
  refine Appends.bind (fun journal => ?_) fun old => ?_
  · dsimp only
    split
    · exact True.intro
    · exact True.intro
  refine (appends_question Query.evidence).bind fun ledger => ?_
  refine (appends_ofExcept _).bind fun candidate => appends_whenever _ ?_
  refine (appends_commit session plans candidate).bind fun _ => appends_forM fun node => ?_
  refine (appends_ofExcept _).bind fun before => appends_whenever _ ?_
  exact appends_emit session traces _ _

end Allowed

/-! ## Refusals -/

variable {journal : Journal}

omit [Hashing] [Decoding] in
theorem check_then {Result : Type} {permits : List Entry -> List Entry -> Prop}
    {post : Result -> Journal -> Prop} {point : String} {next : Unit -> SessionM Result}
    (rest : Program.Keeps setting.Answered permits journal post (next ())) :
    Program.Keeps setting.Answered permits journal post (check point >>= next) := by
  refine keeps_bind.mpr ?_
  intro reply _
  cases reply with
  | none => exact rest
  | some fault => exact True.intro

/-- The transaction records no attempt. -/
def Unattempted (_ : List Entry) (entries : List Entry) : Prop :=
  ∀ entry ∈ entries, entry.attempt? = none

theorem refresh_unattempted :
    Program.Keeps setting.Answered Unattempted journal
      (fun _ later => Setting.Refreshed journal.facts (Journal.facts later)) setting.session.refresh := by
  have refreshed : setting.Makes setting.session.refresh journal
      (fun _ later => Setting.Refreshed journal.facts (Journal.facts later)) := Setting.refresh_makes rfl
  have quiet : Program.Keeps setting.Answered Unattempted journal (fun _ _ => True)
      setting.session.refresh :=
    (appends_refresh setting.session (fun _ => rfl) fun _ _ => rfl).keeps
      (fun _ _ all _ => ⟨all, True.intro⟩) True.intro
  exact ((refreshed.and quiet).permitting fun _ _ both => both.2).mono fun _ _ both => both.1

/-- A node is not prepared while it is not ready or some node is uncertain. -/
theorem prepare_refused {nodeId : String}
    (stuck : ∀ later, Setting.Refreshed journal.facts later -> ∀ plan, later.plan = some plan -> ∀ node, plan.node nodeId = .ok node -> node.status ≠ .ready ∨ plan.nodes.any (fun other => other.status = .uncertain) = true) :
    Program.Keeps setting.Answered Unattempted journal (fun _ _ => False)
      (setting.session.prepare nodeId) := by
  refine check_then (check_then (Keeps.bind refresh_unattempted ?_))
  intro _ later refreshed
  refine Setting.requirePlan_keeps ?_
  intro plan held
  refine keeps_bind.mpr (keeps_ofExcept.mpr ?_)
  intro node located
  have refused := stuck _ refreshed plan held node located
  have rest : ∀ next : Unit -> SessionM Attempt,
      Program.Keeps setting.Answered Unattempted later (fun _ _ => False)
        (refuseIf (node.status ≠ .ready ∨
          plan.nodes.any (fun other => other.status = .uncertain) = true)
          "node_not_ready_or_workspace_uncertain" >>= next) := by
    intro next
    exact keeps_bind.mpr (keeps_ofExcept.mpr fun _ passed => absurd refused (raiseIf_ok passed))
  unfold checkIf whenever
  split
  · exact check_then (rest _)
  · exact rest _

/-- Where a node cannot be prepared, `prepare` raises and records no attempt. -/
theorem prepare_fails {session : PlanSession} {nodeId : String}
    (stuck : ∀ later, Setting.Refreshed journal.facts later -> ∀ plan, later.plan = some plan -> ∀ node, plan.node nodeId = .ok node -> node.status ≠ .ready ∨ plan.nodes.any (fun other => other.status = .uncertain) = true)
    (answers : Answers Query Query.Reply) :
    (∃ fault, (session.prepare nodeId).outcome answers journal = .error fault) ∧
      ∀ entry ∈ ((session.prepare nodeId).execute answers 0 journal).1.flatten,
        entry.attempt? = none := by
  let setting : Setting :=
    ⟨session, (session.prepare nodeId).Asked answers journal, journal, False, False⟩
  have refused : Program.Keeps setting.Answered Unattempted journal (fun _ _ => False)
      (setting.session.prepare nodeId) := prepare_refused stuck
  exact ⟨refused.fails (fun _ _ asked => asked),
    fun _ member => refused.appended (fun _ _ asked => asked) (fun _ _ all => all) member⟩

omit [Decoding] in
theorem Setting.Refreshed.distinct {before after : Facts} (refreshed : Setting.Refreshed before after)
    (distinct : plan.Distinct) (held : before.plan = some plan) {later : Plan}
    (reached : after.plan = some later) : later.Distinct := by
  cases refreshed with
  | unchanged =>
    cases held.symm.trans reached
    exact distinct
  | changed old next ledger known accepted valid =>
    cases reached
    exact valid.distinct

end Sealing

/-!
# Which nodes have an attempt

A node that runs or has ended has an attempt, and a node that edits has none
otherwise.  Every way in which a plan follows from the one before keeps this.
-/

def NodeStatus.Begun (status : NodeStatus) : Prop :=
  status ∈ [NodeStatus.running, .succeeded, .failed, .cancelled, .uncertain]

def NodeStatus.Waiting (status : NodeStatus) : Prop :=
  status ∈ [NodeStatus.pending, .ready, .blocked]

instance (status : NodeStatus) : Decidable status.Begun :=
  inferInstanceAs (Decidable (status ∈ [NodeStatus.running, .succeeded, .failed, .cancelled, .uncertain]))

instance (status : NodeStatus) : Decidable status.Waiting :=
  inferInstanceAs (Decidable (status ∈ [NodeStatus.pending, .ready, .blocked]))

/-- A node has an attempt while it is begun, and one that edits only then. -/
structure PlanNode.Tracked (node : PlanNode) : Prop where
  attempted : node.status.Begun -> node.attemptId ≠ ""
  edits : node.kind = .edit -> ¬ node.status.Begun -> node.attemptId = "" ∧ node.status.Waiting

def Plan.Tracked (plan : Plan) : Prop := ∀ node ∈ plan.nodes, node.Tracked

theorem PlanNode.Tracked.begun {node : PlanNode} (tracked : node.Tracked) (edit : node.kind = .edit)
    (attempted : node.attemptId ≠ "") : node.status.Begun := by
  by_contra idle
  exact attempted (tracked.edits edit idle).1

/-! ## Transitions -/

variable {status old new : NodeStatus}

theorem not_begun_early (early : status ∈ [NodeStatus.pending, .ready]) : ¬ status.Begun := by
  cases status <;> revert early <;> decide

/-- A node that is made ready or blocked was not begun. -/
theorem successors_waiting (allowed : new ∈ old.successors)
    (waiting : new = .ready ∨ new = .blocked ∧ old ∈ [NodeStatus.pending, .ready]) : ¬ old.Begun := by
  rcases waiting with rfl | ⟨rfl, early⟩
  · cases old <;> revert allowed <;> decide
  · exact not_begun_early early

/-- A node that is begun ends, unless it is blocked or becomes stale. -/
theorem begun_successors (begun : old.Begun) (allowed : new ∈ old.successors) (blocks : new ≠ .blocked)
    (stales : new ≠ .stale) : new ∈ [NodeStatus.succeeded, .failed, .cancelled, .uncertain] := by
  cases old <;> cases new <;> revert begun allowed blocks stales <;> decide

/-- A node that ends was begun, unless it is cancelled. -/
theorem successors_ending (allowed : new ∈ old.successors)
    (ends : new ∈ [NodeStatus.succeeded, .failed, .uncertain]) : old.Begun := by
  cases old <;> cases new <;> revert allowed ends <;> decide

/-- What a transition has to respect for a node to stay tracked. -/
structure Admissible (node : PlanNode) (status : NodeStatus) (args : TransitionArgs) : Prop where
  allowed : status ∈ node.status.successors
  identified : status = .running -> args.attemptId ≠ ""
  blocks : status = .blocked -> node.status ∈ [NodeStatus.pending, .ready]
  cancels : status = .cancelled -> node.attemptId ≠ ""
  stales : status = .stale -> node.kind ≠ .edit

theorem movedNode_tracked {node : PlanNode} (tracked : node.Tracked) {args : TransitionArgs}
    (admissible : Admissible node status args) : (movedNode node status args).Tracked := by
  have ended : status ∈ [NodeStatus.succeeded, .failed, .uncertain] -> node.attemptId ≠ "" :=
    fun ends => tracked.attempted (successors_ending admissible.allowed ends)
  have waits : status.Waiting -> (movedNode node status args).status.Waiting := id
  refine ⟨?_, ?_⟩
  · intro begun
    have begun : status.Begun := begun
    cases status with
    | running => exact admissible.identified rfl
    | succeeded | failed | uncertain => exact ended (by decide)
    | cancelled => exact admissible.cancels rfl
    | _ => exact absurd begun (by decide)
  · intro edit idle
    have edit : node.kind = .edit := edit
    have idle : ¬ status.Begun := idle
    cases status with
    | pending => exact absurd admissible.allowed (by cases node.status <;> decide)
    | ready =>
      have early := successors_waiting admissible.allowed (Or.inl rfl)
      exact ⟨(tracked.edits edit early).1, waits (by decide)⟩
    | blocked =>
      have early := successors_waiting admissible.allowed (Or.inr ⟨rfl, admissible.blocks rfl⟩)
      exact ⟨(tracked.edits edit early).1, waits (by decide)⟩
    | stale => exact absurd edit (admissible.stales rfl)
    | _ => exact absurd (by decide) idle

theorem reset_tracked (node : PlanNode) (failure : String) : (node.reset failure).Tracked := by
  have idle : ¬ NodeStatus.pending.Begun := by decide
  exact ⟨fun begun => absurd begun idle, fun _ _ => ⟨rfl, List.mem_cons_self⟩⟩

section Sealing

variable [Hashing] {plan after : Plan}

theorem transition_tracked (tracked : plan.Tracked) {nodeId : String} {status : NodeStatus}
    {args : TransitionArgs} (accepted : transition plan nodeId status args = .ok after)
    (admissible : ∀ node, plan.node nodeId = .ok node -> status ∈ node.status.successors ->
      (status = .running -> args.attemptId ≠ "") -> Admissible node status args) : after.Tracked := by
  rcases transition_ok accepted with ⟨node, located, allowed, identified, _, rfl⟩
  intro other member
  rcases Plan.mem_replaceNode member with rfl | ⟨listed, _⟩
  · exact movedNode_tracked (tracked node (Plan.node_ok located).1)
      (admissible node located allowed identified)
  · exact tracked other listed

theorem refresh_tracked {ledger : Ledger} (distinct : plan.Distinct) (tracked : plan.Tracked)
    (accepted : refresh ledger plan = .ok after) : after.Tracked := by
  refine refresh_induction ?_ distinct tracked accepted
  intro earlier later admits known
  rcases admits.taken with ⟨node, status, args, listed, waiting, target, moved⟩
  refine transition_tracked known moved ?_
  intro found located allowed identified
  rcases Plan.node_ok located with ⟨member, same⟩
  cases admits.distinct.eq_of_nodeId member listed same
  rcases List.mem_cons.mp target with rfl | target
  · exact ⟨allowed, identified, nofun, nofun, nofun⟩
  · cases List.mem_singleton.mp target
    exact ⟨allowed, identified, fun _ => waiting, nofun, nofun⟩

theorem replaced_tracked {facts : ReplanFacts} {old candidate : Plan} {reason : String}
    {evidenceRefs : List String} (tracked : old.Tracked) :
    (rebuiltPlan facts old candidate reason evidenceRefs).Tracked := by
  intro node member
  rcases mem_replannedNodes member with ⟨listed, _⟩ | ⟨source, _, rfl⟩
  · exact tracked node listed
  · exact reset_tracked source ""

variable [Decoding] {setting : Setting} {facts : Facts}

theorem Setting.Course.tracked (course : setting.Course facts plan after) (distinct : plan.Distinct)
    (tracked : plan.Tracked) : after.Tracked := by
  cases course with
  | refreshed ledger accepted => exact refresh_tracked distinct tracked accepted
  | moved nodeId status args blocks cancels stales accepted =>
    exact transition_tracked tracked accepted (fun node located allowed identified =>
      ⟨allowed, identified, fun blocked => absurd blocked blocks,
        fun cancelled => cancels cancelled node located, fun stale => stales stale node located⟩)
  | restarted attempt node reason located unstarted accepted =>
    rcases restartSafe_ok accepted with ⟨found, _, _, _, rfl⟩
    intro other member
    rcases Plan.mem_replaceNode member with rfl | ⟨listed, _⟩
    · exact reset_tracked found reason
    · exact tracked other listed
  | replaced readings candidate reason evidenceRefs accepted =>
    rcases replanned_ok accepted with ⟨_, valid, refreshed⟩
    exact refresh_tracked valid.distinct (replaced_tracked tracked) refreshed

/-! ## Runs -/

def Facts.Tracked (facts : Facts) : Prop := ∀ plan, facts.plan = some plan -> plan.Tracked

omit [Hashing] [Decoding] in
theorem unexecuted_tracked {plan : Plan} (fresh : plan.nodes.all PlanSession.unexecuted = true) :
    plan.Tracked := by
  intro node listed
  have idle := List.all_eq_true.mp fresh node listed
  simp only [PlanSession.unexecuted, Bool.and_eq_true, decide_eq_true_eq] at idle
  refine ⟨?_, fun _ _ => ⟨idle.1.1.2, ?_⟩⟩
  · rw [idle.1.1.1]
    exact fun begun => absurd begun (by decide)
  · rw [idle.1.1.1]
    decide

theorem Setting.Change.tracked {before after : Facts} (change : setting.Change before after)
    (regular : before.Regular) (tracked : before.Tracked) : after.Tracked := by
  cases change with
  | created plan calm absent fresh valid =>
    intro other held
    cases held
    exact unexecuted_tracked fresh
  | moved old new held valid move =>
    intro other same
    cases same
    exact move.course.tracked (regular.valid old held).distinct (tracked old held)
  | _ => exact tracked

omit [Hashing] [Decoding] in
theorem tracked_fresh : Runtime.fresh.journal.facts.Tracked := nofun

variable (session : PlanSession)

theorem runtime_reached (inputs : List Input) : Reached ((runtimeMachine session).run Runtime.fresh inputs) :=
  (runtimeMachine session).invariant_run
    (fun state input (reached : Reached state) => reached_step reached input) reached_fresh inputs

theorem runtime_tracked (inputs : List Input) :
    ((runtimeMachine session).run Runtime.fresh inputs).journal.facts.Tracked := by
  have both := (runtimeMachine session).invariant_run
    (fun state input (known : Reached state ∧ state.journal.facts.Tracked) =>
      ⟨reached_step known.1 input, known.1.keeps Facts.Tracked
        (fun before after change regular tracked => change.tracked regular tracked) known.2⟩)
    ⟨reached_fresh, tracked_fresh⟩ inputs
  exact both.2

end Sealing

end PlanRuntime
end FixLoop
