import FixLoop.PlanRuntime.Recovery

namespace FixLoop
namespace PlanRuntime

open Library Program

/-!
# What a call can append

Every transaction of every method is one of a few effects on the journal, and
every committed plan follows from the one before by one of a few moves.  Each
effect and each move comes with what the method has made sure of before it.
The rules at the end say how the constructs of the methods meet these
effects; the properties of whole runs are derived from the effects alone.
-/

/-- What the later steps read of a journal. -/
structure Facts where
  plan : Option Plan
  attempts : List Attempt
  operations : List Operation

namespace Journal

def facts (journal : Journal) : Facts := ⟨journal.plan?, journal.attempts, journal.operations⟩

end Journal

namespace Facts

/-- The last records of the attempts that have not been reconciled. -/
def OpenAttempt (facts : Facts) (attempt : Attempt) : Prop :=
  attempt ∈ latest Attempt.attemptId facts.attempts ∧ attempt.phase ≠ .reconciled

def operationsOf (facts : Facts) (attemptId : String) : List Operation :=
  (latest Operation.operationId facts.operations).filter
    (fun operation => operation.attemptId = attemptId)

/-- The operation belongs to a recorded attempt. -/
def Owns (facts : Facts) (operation : Operation) : Prop := ∃ attempt ∈ latest Attempt.attemptId facts.attempts, attempt.attemptId = operation.attemptId ∧
    attempt.nodeId = operation.nodeId ∧ attempt.planVersion = operation.planVersion

def withPlan (facts : Facts) (plan : Plan) : Facts := { facts with plan := some plan }

def withAttempt (facts : Facts) (attempt : Attempt) : Facts :=
  { facts with attempts := facts.attempts ++ [attempt] }

def withOperation (facts : Facts) (operation : Operation) : Facts :=
  { facts with operations := facts.operations ++ [operation] }

end Facts

/-- The statuses without a successor. -/
def NodeStatus.Terminal (status : NodeStatus) : Prop := status ∈ [NodeStatus.failed, .cancelled]

instance (status : NodeStatus) : Decidable status.Terminal :=
  inferInstanceAs (Decidable (status ∈ [NodeStatus.failed, .cancelled]))

/-- The node is also in the other plan, with the same execution. -/
def PlanNode.PresentIn (node : PlanNode) (plan : Plan) : Prop :=
  ∃ old ∈ plan.nodes, old.nodeId = node.nodeId ∧ old.kind = node.kind ∧
    old.status = node.status ∧ old.attemptId = node.attemptId

/-- An entry that no later step reads. -/
def Entry.Silent : Entry -> Prop
  | .evidence _ _ _ => True
  | .rollback _ => True
  | .longTaskState _ => True
  | .trace _ _ => True
  | .other _ _ => True
  | _ => False

/-- The fields of an attempt that no later record may change. -/
def Attempt.fixed (attempt : Attempt) :=
  (attempt.attemptId, attempt.planId, attempt.planVersion, attempt.nodeId, attempt.allowedTools,
    attempt.idempotencyKey, attempt.workspaceBefore, attempt.owner)

/-- An attempt that waits for an approval has a recorded result. -/
def Attempt.Paused (attempt : Attempt) : Prop :=
  attempt.result.status = "waiting_approval" -> Phase.resultRecorded.rank ≤ attempt.phase.rank

/-- The fields of an operation that no later record may change. -/
def Operation.fixed (operation : Operation) :=
  (operation.operationId, operation.attemptId, operation.nodeId, operation.planVersion,
    operation.tool, operation.callId, operation.argsHash, operation.effect, operation.workspaceBefore)

/-- The surroundings of a call: the session, the replies it is given, the
journal it starts from, whether it is `recover`, and whether what the caller
holds is taken to be in order. -/
structure Setting where
  session : PlanSession
  Answered : (query : Query) -> query.Reply -> Prop
  start : Journal
  recovering : Prop
  orderly : Prop

namespace Setting

variable (setting : Setting)

/-- A record of an attempt that follows the one before it. -/
structure Follows (facts : Facts) (attempt : Attempt) : Prop where
  named : attempt.attemptId ≠ ""
  ordered : setting.orderly -> ∃ previous ∈ latest Attempt.attemptId facts.attempts, attempt.fixed = previous.fixed ∧
      previous.phase.rank ≤ attempt.phase.rank
  continuing : setting.recovering -> ∃ previous,
    facts.OpenAttempt previous ∧ attempt.fixed = previous.fixed
  paused : setting.orderly -> attempt.Paused

/-- A record of an operation of a known attempt that follows the one before. -/
structure Operates (facts : Facts) (operation : Operation) : Prop where
  calm : ¬ setting.recovering
  owned : setting.orderly -> facts.Owns operation
  unfinished : operation.phase ≠ .reconciled

section Sealing

variable [Hashing] [Decoding]

/-- How a committed plan follows from the one before. -/
inductive Move (facts : Facts) (before after : Plan) : Prop where
  | refreshed (ledger : Ledger) (accepted : refresh ledger before = .ok after)
  | prepared (node : PlanNode) (args : TransitionArgs) (calm : ¬ setting.recovering)
      (located : before.node node.nodeId = .ok node)
      (certain : before.nodes.any (fun other => other.status = .uncertain) = false)
      (free : PlanSession.executionConflict node
        (before.nodes.filter fun other => other.status = .running) = false)
      (accepted : transition before node.nodeId .running args = .ok after)
  | readied (attempt : Attempt) (recovering : setting.recovering) (opened : facts.OpenAttempt attempt)
      (accepted : transition before attempt.nodeId .ready {} = .ok after)
  | started (attempt : Attempt) (now : ℚ) (recovering : setting.recovering)
      (opened : facts.OpenAttempt attempt) (version : attempt.planVersion = before.planVersion)
      (accepted : transition before attempt.nodeId .running
        { attemptId := attempt.attemptId, now := now } = .ok after)
  | closed (attempt : Attempt) (node : PlanNode) (ledger : Ledger) (status : NodeStatus)
      (receipts : List String) (now : ℚ) (named : attempt.attemptId ≠ "")
      (consulted : setting.Answered .evidence ledger)
      (located : before.node attempt.nodeId = .ok node)
      (version : attempt.planVersion = before.planVersion)
      (current : node.attemptId = attempt.attemptId)
      (judged : status = judgement ledger node attempt (facts.operationsOf attempt.attemptId))
      (accepted : settledPlan ledger attempt status receipts now before = .ok after)
  | staled (node : PlanNode) (args : TransitionArgs)
      (located : before.node node.nodeId = .ok node) (reads : node.kind ≠ .edit)
      (accepted : transition before node.nodeId .stale args = .ok after)
  | lost (attempt : Attempt) (args : TransitionArgs) (recovering : setting.recovering)
      (opened : facts.OpenAttempt attempt)
      (accepted : transition before attempt.nodeId .uncertain args = .ok after)
  | retired (node : PlanNode) (args : TransitionArgs) (recovering : setting.recovering)
      (located : before.node node.nodeId = .ok node)
      (accepted : transition before node.nodeId .uncertain args = .ok after)
  | restarted (attempt : Attempt) (node : PlanNode) (reason : String)
      (recovering : setting.recovering) (opened : facts.OpenAttempt attempt)
      (located : before.node attempt.nodeId = .ok node)
      (unstarted : node.kind = .edit -> attempt.phase = .prepared ∧
        facts.operationsOf attempt.attemptId = [] ∧ Represented facts.operations)
      (unsettled : attempt.phase = .resultRecorded -> attempt.result.status = "success")
      (lingering : node.status.Terminal -> node.attemptId = attempt.attemptId ->
        setting.start.facts.OpenAttempt attempt ∧ ∃ plan,
          setting.start.plan? = some plan ∧ node.PresentIn plan)
      (accepted : restartSafe before attempt.nodeId attempt.attemptId reason = .ok after)
  | replaced (readings : ReplanFacts) (candidate : Plan) (reason : String)
      (evidenceRefs : List String) (calm : ¬ setting.recovering)
      (read : readings.attempts = latest Attempt.attemptId facts.attempts)
      (accepted : replanned readings setting.session.registry setting.session.identity before
        candidate reason evidenceRefs = .ok after)

/-- A transaction that a method can append. -/
inductive Effect (journal : Journal) : List Entry -> Prop where
  | silent {entries : List Entry} (all : ∀ entry ∈ entries, entry.Silent) :
      Effect journal entries
  | identity (empty : journal = []) : Effect journal [.identity setting.session.identity]
  | checkpoint (state : LongTaskState) (coordination : Option Json)
      (recorded : journal.longTaskStates.getLast? =
        some (.ofState state (some setting.session.identity.sessionId)))
      (asked : setting.Answered .longTaskState state) :
      Effect journal [.checkpoint (checkpointSeal setting.session.identity journal journal.plan? state
        coordination)]
  | created (plan : Plan) (calm : ¬ setting.recovering) (absent : journal.plan? = none)
      (fresh : plan.nodes.all PlanSession.unexecuted = true) (valid : plan.Valid) :
      Effect journal [.plan plan]
  | moved (before after : Plan) (held : journal.plan? = some before) (valid : after.Valid)
      (move : setting.Move journal.facts before after) : Effect journal [.plan after]
  | opened (attempt : Attempt) (calm : ¬ setting.recovering)
      (drawn : ∃ random, setting.Answered .uuid random ∧
        attempt.attemptId = "attempt" ++ "-" ++ random)
      (unmoved : journal.attempts = setting.start.attempts) (prepared : attempt.phase = .prepared)
      (blank : attempt.result = .none)
      (owned : setting.Answered .ownProcess attempt.owner) :
      Effect journal [.attempt attempt]
  | recorded (attempt : Attempt) (follows : setting.Follows journal.facts attempt) :
      Effect journal [.attempt attempt]
  | dispatched (operation : Operation) (operates : setting.Operates journal.facts operation)
      (drawn : ∃ random, setting.Answered .uuid random ∧
        operation.operationId = "op" ++ "-" ++ random)
      (unmoved : journal.operations = setting.start.operations)
      (prepared : operation.phase = .prepared) (unknown : operation.outcome = none) :
      Effect journal [.operation operation]
  | operated (operation : Operation) (operates : setting.Operates journal.facts operation)
      (follows : setting.orderly -> ∃ previous ∈ latest Operation.operationId journal.operations,
          operation.fixed = previous.fixed ∧ (operation.phase = .dispatched ->
            previous.phase = .prepared) ∧ operation.phase ≠ .prepared)
      (receipted : setting.orderly -> ∀ receipt, operation.receipt? = some receipt ->
        checkReceipt setting.session.identity operation receipt = .ok ()) :
      Effect journal [.operation operation]

/-- Every transaction of the program is an effect, and its result meets the
postcondition. -/
def Makes {Result : Type} (program : SessionM Result) (journal : Journal)
    (post : Result -> Journal -> Prop) : Prop :=
  Keeps setting.Answered setting.Effect journal post program

/-- The program leaves the facts as they are. -/
def Steady {Result : Type} (program : SessionM Result) : Prop :=
  ∀ journal, setting.Makes program journal fun _ after => after.facts = journal.facts

end Sealing

end Setting

/-! ## The facts after an entry -/

namespace Journal

variable (journal : Journal) {entries : List Entry}

theorem filterMap_append_of_none {Value : Type} {select : Entry -> Option Value}
    (others : ∀ entry ∈ entries, select entry = none) :
    (journal ++ entries).filterMap select = journal.filterMap select := by
  rw [List.filterMap_append, List.filterMap_eq_nil_iff.mpr others, List.append_nil]

theorem facts_of_none (plans : ∀ entry ∈ entries, entry.plan? = none)
    (attempts : ∀ entry ∈ entries, entry.attempt? = none)
    (operations : ∀ entry ∈ entries, entry.operation? = none) :
    facts (journal ++ entries) = journal.facts := by
  rw [facts, facts, plan?, plan?, Journal.attempts, Journal.attempts, Journal.operations,
    Journal.operations, filterMap_append_of_none journal plans,
    filterMap_append_of_none journal attempts, filterMap_append_of_none journal operations]

theorem facts_silent (silent : ∀ entry ∈ entries, entry.Silent) :
    facts (journal ++ entries) = journal.facts := by
  refine facts_of_none journal ?_ ?_ ?_
  all_goals
    intro entry member
    have quiet := silent entry member
    cases entry with
    | evidence _ _ _ | rollback _ | longTaskState _ | trace _ _ | other _ _ => rfl
    | _ => exact False.elim quiet

theorem facts_one {entry : Entry} (plan : entry.plan? = none) (attempt : entry.attempt? = none)
    (operation : entry.operation? = none) : facts (journal ++ [entry]) = journal.facts := by
  refine facts_of_none journal ?_ ?_ ?_
  all_goals
    intro other member
    rw [List.mem_singleton.mp member]
    assumption

theorem facts_plan (plan : Plan) : facts (journal ++ [.plan plan]) = journal.facts.withPlan plan := by
  rw [facts, plan?_append_plan, attempts_append, operations_append]
  exact congrArg₂ (Facts.mk (some plan)) (List.append_nil _) (List.append_nil _)

theorem facts_attempt (attempt : Attempt) :
    facts (journal ++ [.attempt attempt]) = journal.facts.withAttempt attempt := by
  rw [facts, plan?_append_of_none journal rfl, attempts_append, operations_append]
  exact congrArg (Facts.mk journal.plan? (journal.attempts ++ [attempt])) (List.append_nil _)

theorem facts_operation (operation : Operation) :
    facts (journal ++ [.operation operation]) = journal.facts.withOperation operation := by
  rw [facts, plan?_append_of_none journal rfl, attempts_append, operations_append]
  exact congrArg (fun attempts => Facts.mk journal.plan? attempts (journal.operations ++ [operation]))
    (List.append_nil _)

end Journal

/-! ## Rules -/

namespace Setting

variable {setting : Setting} [Hashing] [Decoding] {Result Other : Type}
  {next : Result -> SessionM Other} {journal : Journal} {facts : Facts}
  {post : Other -> Journal -> Prop}

variable {program : SessionM Result} (point : String)

theorem Steady.followed (steady : setting.Steady program) (known : journal.facts = facts)
    (rest : ∀ result later, later.facts = facts -> setting.Makes (next result) later post) :
    setting.Makes (program >>= next) journal post :=
  Keeps.bind (steady journal) fun result later same => rest result later (same.trans known)

theorem Steady.bind (steady : setting.Steady program) (rest : ∀ result, setting.Steady (next result)) :
    setting.Steady (program >>= next) :=
  fun _ => steady.followed rfl (fun result later same =>
    Keeps.mono (rest result later) fun _ _ equal => equal.trans same)

theorem steady_pure (result : Result) : setting.Steady (pure result) := fun _ => rfl

theorem steady_fail (fault : Fault) : setting.Steady (.fail fault : SessionM Result) :=
  fun _ => True.intro

theorem steady_ofExcept (value : Except Fault Result) : setting.Steady (ofExcept value) :=
  fun _ => keeps_ofExcept.mpr fun _ _ => rfl

variable (condition : Prop)

theorem steady_refuseIf [Decidable condition] (fault : Fault) :
    setting.Steady (refuseIf condition fault) := steady_ofExcept _

theorem steady_check : setting.Steady (check point) := by
  intro journal reply _
  cases reply with
  | some fault => exact True.intro
  | none => rfl

theorem steady_ite {condition : Prop} [Decidable condition] {first second : SessionM Result}
    (left : setting.Steady first) (right : setting.Steady second) :
    setting.Steady (if condition then first else second) := by
  split
  · exact left
  · exact right

theorem steady_whenever [Decidable condition] {program : SessionM Unit} (steady : setting.Steady program) :
    setting.Steady (whenever condition program) :=
  steady_ite steady (steady_pure _)

theorem steady_checkIf [Decidable condition] :
    setting.Steady (checkIf condition point) := steady_whenever _ (steady_check point)

theorem steady_cut : setting.Steady (cut point) :=
  (steady_check _).bind fun _ => steady_check point

theorem steady_snapshotWorkspace : setting.Steady snapshotWorkspace :=
  fun _ _ _ => keeps_ofExcept.mpr fun _ _ => rfl

theorem steady_question (query : Query) : setting.Steady (question query) := fun _ _ _ => rfl

theorem steady_newId (stem : String) : setting.Steady (newId stem) := fun _ _ _ => rfl

theorem steady_write {entry : Entry} (silent : entry.Silent) : setting.Steady (write entry) := by
  intro journal
  have quiet : ∀ other ∈ [entry], other.Silent := fun other member =>
    List.mem_singleton.mp member ▸ silent
  exact ⟨.silent quiet, Journal.facts_silent journal quiet⟩

theorem steady_currentPlan : setting.Steady currentPlan := fun _ => rfl

theorem refuseIf_then {condition : Prop} [Decidable condition] {fault : Fault}
    {next : Unit -> SessionM Other}
    (rest : ¬ condition -> setting.Makes (next ()) journal post) :
    setting.Makes (refuseIf condition fault >>= next) journal post :=
  keeps_bind.mpr (keeps_ofExcept.mpr fun _ passed => rest (raiseIf_ok passed))

theorem ofExcept_then {value : Except Fault Result}
    (rest : ∀ result, value = .ok result -> setting.Makes (next result) journal post) :
    setting.Makes (ofExcept value >>= next) journal post :=
  keeps_bind.mpr (keeps_ofExcept.mpr rest)

omit [Hashing] [Decoding] in
/-- The rule of `requirePlan` for any assertion. -/
theorem requirePlan_keeps {admits : (query : Query) -> query.Reply -> Prop}
    {permits : Journal -> Journal -> Prop} {next : Plan -> SessionM Other}
    (rest : ∀ plan, journal.plan? = some plan -> Keeps admits permits journal post (next plan)) :
    Keeps admits permits journal post (requirePlan >>= next) := by
  refine keeps_bind.mpr ?_
  unfold requirePlan Keeps
  dsimp only
  split
  · rename_i plan held
    exact rest plan held
  · exact True.intro

theorem requirePlan_then {next : Plan -> SessionM Other} (known : journal.facts = facts)
    (rest : ∀ plan, facts.plan = some plan -> setting.Makes (next plan) journal post) :
    setting.Makes (requirePlan >>= next) journal post := by
  refine requirePlan_keeps ?_
  intro plan present
  have held : journal.plan? = facts.plan := congrArg Facts.plan known
  exact rest plan (held.symm.trans present)

theorem currentPlan_then {next : Option Plan -> SessionM Other} (known : journal.facts = facts)
    (rest : setting.Makes (next facts.plan) journal post) :
    setting.Makes (currentPlan >>= next) journal post := by
  have held : journal.plan? = facts.plan := congrArg Facts.plan known
  refine keeps_bind.mpr ?_
  change Keeps _ _ journal post (next journal.plan?)
  rw [held]
  exact rest

theorem operationsOf_then {next : List Operation -> SessionM Other} {attemptId : String}
    (known : journal.facts = facts)
    (rest : setting.Makes (next (facts.operationsOf attemptId)) journal post) :
    setting.Makes (operationsOf attemptId >>= next) journal post := by
  have held : journal.operations = facts.operations := congrArg Facts.operations known
  refine keeps_bind.mpr ?_
  change Keeps _ _ journal post (next (journal.operationsOf attemptId))
  rw [Journal.operationsOf, held]
  exact rest

theorem question_then {query : Query} {next : query.Reply -> SessionM Other}
    (rest : ∀ reply, setting.Answered query reply -> setting.Makes (next reply) journal post) :
    setting.Makes (question query >>= next) journal post :=
  keeps_bind.mpr (keeps_question.mpr rest)

theorem write_then {entry : Entry} {next : PUnit -> SessionM Other}
    (effect : setting.Effect journal [entry])
    (rest : setting.Makes (next PUnit.unit) (journal ++ [entry]) post) :
    setting.Makes (write entry >>= next) journal post :=
  keeps_bind.mpr ⟨effect, rest⟩

theorem whenever_makes {condition : Prop} [Decidable condition] {program : SessionM Unit}
    {post : Unit -> Journal -> Prop} (taken : condition -> setting.Makes program journal post)
    (skipped : ¬ condition -> post () journal) :
    setting.Makes (whenever condition program) journal post := by
  unfold whenever
  split
  · rename_i holds
    exact taken holds
  · rename_i fails
    exact skipped fails

theorem operation_then {operation : Operation} {next : PUnit -> SessionM Other}
    (known : journal.facts = facts) (effect : setting.Effect journal [.operation operation])
    (rest : ∀ later, later.facts = facts.withOperation operation ->
      setting.Makes (next PUnit.unit) later post) :
    setting.Makes (write (.operation operation) >>= next) journal post :=
  write_then effect (rest _ ((Journal.facts_operation journal operation).trans (known ▸ rfl)))

/-- A record that follows the ones before it is written. -/
theorem recorded_then {attempt : Attempt} {next : PUnit -> SessionM Other}
    (known : journal.facts = facts) (follows : setting.Follows facts attempt)
    (rest : ∀ later, later.facts = facts.withAttempt attempt ->
      setting.Makes (next PUnit.unit) later post) :
    setting.Makes (write (.attempt attempt) >>= next) journal post :=
  write_then (.recorded attempt (known ▸ follows))
    (rest _ ((Journal.facts_attempt journal attempt).trans (known ▸ rfl)))

end Setting

end PlanRuntime
end FixLoop
