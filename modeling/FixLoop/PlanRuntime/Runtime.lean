import FixLoop.Library.Machine
import FixLoop.PlanRuntime.RecoveryEffects

namespace FixLoop
namespace PlanRuntime

open Library Program

/-!
# Sessions that crash

A run is a list of calls on the sessions of one plan journal.  A crash stops a
call after any number of its transactions and loses everything but the
journal; the session that is opened next starts from that.  `run_node`,
`run_reads` and `execute_tool` are sequences of these calls, and so are the
interleavings of the two threads of `run_reads`, whose transactions the calls
separate.
-/

/-- What the callers hold: the attempts they were given, and the operations
that are prepared or whose tools run. -/
structure Memory where
  isOpen : Bool
  attempts : List Attempt
  prepared : List (Attempt × Operation)
  running : List Operation

def Memory.empty : Memory := ⟨false, [], [], []⟩

/-- What a call adds to the memory. -/
structure Gain where
  opens : Bool := false
  attempts : List Attempt := []
  prepared : List (Attempt × Operation) := []
  running : List Operation := []

def Memory.gained (memory : Memory) (gain : Gain) : Memory :=
  ⟨memory.isOpen || gain.opens, memory.attempts ++ gain.attempts, memory.prepared ++ gain.prepared,
    memory.running ++ gain.running⟩

/-- The calls.  Attempts and operations are given by their place in the
memory.  `note` stands for the records of other components. -/
inductive Call where
  | openSession
  | create (plan : Plan)
  | refresh
  | prepare (nodeId : String)
  | runNode (nodeId : String)
  | preplanRead (allowedTools : List String)
  | preplanSettle (attempt : Nat)
  | toolPrepare (attempt : Nat) (name : String) (arguments : Json) (callId? : Option String)
  | toolDispatch (operation : Nat)
  | toolSettle (operation : Nat) (arguments : Json) (result : ToolResult)
  | recordResult (attempt : Nat) (result : NodeResult)
  | settle (attempt : Nat)
  | replan (candidate : Plan) (reason : String) (evidenceRefs : List String)
  | recover (probed : Bool)
  | emit (event : String) (payload : List (String × Json))
  | note (entry : Entry)

/-- A prepared operation goes on once, and so does one whose tool runs. -/
def Call.taken (memory : Memory) : Call -> Memory
  | toolDispatch operation => { memory with prepared := memory.prepared.eraseIdx operation }
  | toolSettle operation _ _ => { memory with running := memory.running.eraseIdx operation }
  | _ => memory

instance (entry : Entry) : Decidable entry.Silent := by
  cases entry <;> unfold Entry.Silent <;> infer_instance

/-- The call on something held; nothing happens if it is not there. -/
def onHeld {Item : Type} (held : Option Item) (use : Item -> SessionM Gain) : SessionM Gain :=
  match held with
  | some item => use item
  | none => pure {}

section Decoded

variable [Hashing] [Decoding]

def Call.onSession (session : PlanSession) (memory : Memory) : Call -> SessionM Gain
  | openSession => pure {}
  | create plan => do
      session.create plan
      pure {}
  | refresh => do
      session.refresh
      pure {}
  | prepare nodeId => do
      let attempt <- session.prepare nodeId
      pure { attempts := [attempt] }
  | runNode nodeId => do
      let attempt <- session.runNode nodeId
      pure { attempts := [attempt] }
  | preplanRead allowedTools => do
      let attempt <- PlanSession.preplanRead allowedTools
      pure { attempts := [attempt] }
  | preplanSettle attempt => onHeld memory.attempts[attempt]? (fun attempt => do
      let _ <- session.preplanSettle attempt
      pure {})
  | toolPrepare attempt name arguments callId? => onHeld memory.attempts[attempt]? (fun attempt => do
      let operation <- session.toolPrepare attempt name arguments callId?
      pure { prepared := operation.toList.map (fun operation => (attempt, operation)) })
  | toolDispatch operation => onHeld memory.prepared[operation]? (fun held => do
      PlanSession.toolDispatch held.1 held.2
      pure { running := [held.2] })
  | toolSettle operation arguments result => onHeld memory.running[operation]? (fun operation => do
      let _ <- session.toolSettle operation arguments result
      pure {})
  | recordResult attempt result => onHeld memory.attempts[attempt]? (fun attempt => do
      let recorded <- PlanSession.recordResult attempt result
      pure { attempts := [recorded] })
  | settle attempt => onHeld memory.attempts[attempt]? (fun attempt => do
      let _ <- session.settle attempt
      pure {})
  | replan candidate reason evidenceRefs => do
      let _ <- session.replan candidate reason evidenceRefs
      pure {}
  | recover probed => do
      let _ <- session.recover probed
      pure {}
  | emit event payload => do
      session.emit event payload
      pure {}
  | note entry => do
      whenever entry.Silent (write entry)
      pure {}

/-- The program of a call: a session is opened first and once. -/
def Call.program (session : PlanSession) (memory : Memory) (call : Call) : SessionM Gain :=
  if memory.isOpen then call.onSession session memory
  else
    match call with
    | openSession => do
        session.openSession
        pure { opens := true }
    | _ => pure {}

/-- The journal and the memory of the process that writes it. -/
structure Runtime where
  journal : Journal
  memory : Memory

def Runtime.fresh : Runtime := ⟨[], Memory.empty⟩

/-- A call with the answers it is given, and the number of its transactions
after which the process crashes, if it does. -/
structure Input where
  call : Call
  answers : Answers Query Query.Reply
  crash : Option Nat

def Runtime.step (session : PlanSession) (state : Runtime) (input : Input) : Runtime :=
  let program := input.call.program session state.memory
  match input.crash with
  | some transactions => ⟨program.after input.answers state.journal transactions, Memory.empty⟩
  | none =>
    ⟨program.final input.answers state.journal,
      match program.outcome input.answers state.journal with
      | .ok gain => (input.call.taken state.memory).gained gain
      | .error _ => input.call.taken state.memory⟩

def runtimeMachine (session : PlanSession) : Machine Runtime Input where
  step state input := state.step session input

def Call.Recovers : Call -> Prop
  | recover _ => True
  | _ => False

/-- The surroundings of a step. -/
def Input.setting (session : PlanSession) (state : Runtime) (input : Input) (orderly : Prop) :
    Setting :=
  ⟨session, (input.call.program session state.memory).Asked input.answers state.journal, state.journal,
    input.call.Recovers, orderly⟩

/-! ## The effects of a call -/

/-- The attempt has not been reconciled. -/
def Unsettled (facts : Facts) (attempt : Attempt) : Prop :=
  ∀ last ∈ latest Attempt.attemptId facts.attempts,
    last.attemptId = attempt.attemptId -> last.phase ≠ .reconciled

/-- The call does not record a result or a pause for an attempt that has been
reconciled, and the receipt it is given, if any, is numbered. -/
def Call.InOrder (state : Runtime) : Call -> Prop
  | recordResult attempt _ => ∀ held, state.memory.attempts[attempt]? = some held ->
      Unsettled state.journal.facts held
  | settle attempt => ∀ held, state.memory.attempts[attempt]? = some held ->
      held.result.status = "waiting_approval" -> Unsettled state.journal.facts held
  | toolSettle _ _ result => Setting.Receipted result
  | _ => True

open Setting

/-- What the memory holds fits the journal. -/
structure Sound (orderly : Prop) (state : Runtime) : Prop where
  attempts : ∀ attempt ∈ state.memory.attempts, Given orderly state.journal.facts attempt
  prepared : orderly -> ∀ held ∈ state.memory.prepared, held.2.outcome = none ∧
    state.journal.facts.Owns held.2 ∧ Operated state.journal.facts held.2 .prepared
  running : orderly -> ∀ operation ∈ state.memory.running,
    state.journal.facts.Owns operation ∧ Operated state.journal.facts operation .dispatched
  recorded : Recorded orderly state.journal.facts
  valid : ∀ plan, state.journal.plan? = some plan -> plan.Valid

/-- The same for what a call adds. -/
structure Gains (orderly : Prop) (gain : Gain) (facts : Facts) : Prop where
  attempts : ∀ attempt ∈ gain.attempts, Given orderly facts attempt
  prepared : orderly -> ∀ held ∈ gain.prepared, held.2.outcome = none ∧
    facts.Owns held.2 ∧ Operated facts held.2 .prepared
  running : orderly -> ∀ operation ∈ gain.running,
    facts.Owns operation ∧ Operated facts operation .dispatched

omit [Hashing] [Decoding] in
theorem gains_nothing (orderly : Prop) (opens : Bool) (facts : Facts) :
    Gains orderly { opens := opens } facts :=
  ⟨fun _ member => False.elim (List.not_mem_nil member),
    fun _ _ member => False.elim (List.not_mem_nil member),
    fun _ _ member => False.elim (List.not_mem_nil member)⟩

variable {orderly : Prop} {facts : Facts} {attempt : Attempt} {journal : Journal} {state : Runtime}
  {session : PlanSession} {input : Input}

omit [Hashing] [Decoding] in
theorem gains_attempt (given : Given orderly facts attempt) : Gains orderly { attempts := [attempt] } facts :=
  ⟨fun _ member => List.mem_singleton.mp member ▸ given,
    fun _ _ member => False.elim (List.not_mem_nil member),
    fun _ _ member => False.elim (List.not_mem_nil member)⟩

theorem onHeld_makes {setting : Setting} {Item : Type} {held : Option Item} {use : Item -> SessionM Gain}
    (made : ∀ item, held = some item -> setting.Makes (use item) journal fun gain later => Gains orderly gain later.facts) :
    setting.Makes (onHeld held use) journal (fun gain later => Gains orderly gain later.facts) := by
  cases held with
  | none => exact gains_nothing orderly false journal.facts
  | some item => exact made item rfl

/-- A call that gives nothing. -/
theorem unit_makes {setting : Setting} {Result : Type} {program : SessionM Result}
    {post : Result -> Journal -> Prop} (made : setting.Makes program journal post) :
    setting.Makes (program >>= fun _ => pure {}) journal (fun gain later =>
      Gains orderly gain later.facts) :=
  Keeps.bind made fun _ later _ => gains_nothing orderly false (Journal.facts later)

omit [Hashing] [Decoding] in
theorem Setting.Given.follows {setting : Setting} {next : Attempt}
    (given : Given setting.orderly facts attempt) (calm : ¬ setting.recovering)
    (same : next.fixed = attempt.fixed) (paused : setting.orderly -> next.Paused)
    (later : setting.orderly -> ∀ last ∈ latest Attempt.attemptId facts.attempts, last.attemptId = attempt.attemptId -> last.phase.rank ≤ next.phase.rank) :
    setting.Follows facts next := by
  have name : next.attemptId = attempt.attemptId := congrArg Prod.fst same
  refine ⟨name ▸ given.named, ?_, fun recovering => absurd recovering calm, paused⟩
  intro orderly
  rcases (given.held orderly).known with ⟨previous, listed, fixed⟩
  have named : previous.attemptId = attempt.attemptId := (congrArg Prod.fst fixed).symm
  exact ⟨previous, listed, same.trans fixed, later orderly previous listed named⟩

omit [Hashing] [Decoding] in
theorem Setting.Given.closing {setting : Setting} (given : Given setting.orderly facts attempt)
    (calm : ¬ setting.recovering) (status : String) : setting.Follows facts (attempt.reconciled status) :=
  given.follows calm rfl (fun _ _ => rank_le_reconciled _) fun _ _ _ _ => rank_le_reconciled _

theorem onSession_makes {setting : Setting} (start : setting.start = state.journal)
    (sound : Sound setting.orderly state) {call : Call} (recovering : setting.recovering <-> call.Recovers)
    (ordered : setting.orderly -> call.InOrder state) :
    setting.Makes (call.onSession setting.session state.memory) state.journal
      (fun gain later => Gains setting.orderly gain later.facts) := by
  have known : state.journal.facts = setting.start.facts := congrArg Journal.facts start.symm
  have distinct : state.journal.facts.Distinct := fun plan held => (sound.valid plan held).distinct
  have calm : ¬ call.Recovers -> ¬ setting.recovering := fun stays now => stays (recovering.mp now)
  cases call with
  | openSession => exact gains_nothing _ false _
  | create plan => exact unit_makes (create_makes rfl (calm id) plan)
  | refresh => exact unit_makes (refresh_makes rfl)
  | prepare nodeId =>
    exact Keeps.bind (prepare_makes known (calm id) nodeId) fun _ _ given => gains_attempt given
  | runNode nodeId =>
    exact Keeps.bind (runNode_makes known (calm id) (known ▸ sound.recorded) nodeId)
      (fun _ _ given => gains_attempt given)
  | preplanRead allowedTools =>
    exact Keeps.bind (preplanRead_makes known (calm id) allowedTools)
      (fun _ _ given => gains_attempt given)
  | preplanSettle attempt =>
    refine onHeld_makes ?_
    intro held found
    have given := sound.attempts held (List.mem_of_getElem? found)
    exact unit_makes (preplanSettle_makes rfl (given.closing (calm id) _))
  | toolPrepare attempt name arguments callId? =>
    refine onHeld_makes ?_
    intro held found
    have given := sound.attempts held (List.mem_of_getElem? found)
    refine Keeps.bind (toolPrepare_makes known (calm id) (known ▸ given.held) name arguments callId?) ?_
    intro operation later prepared
    refine ⟨fun _ member => False.elim (List.not_mem_nil member), ?_,
      fun _ _ member => False.elim (List.not_mem_nil member)⟩
    intro orderly pair member
    rcases List.mem_map.mp member with ⟨added, listed, rfl⟩
    have made := prepared added (Option.mem_toList.mp listed)
    exact ⟨made.unknown, made.owned orderly, added, made.listed, rfl, made.phase⟩
  | toolDispatch operation =>
    refine onHeld_makes ?_
    intro held found
    have listed := List.mem_of_getElem? found
    refine Keeps.bind (toolDispatch_makes rfl (calm id)
      (fun orderly => (sound.prepared orderly held listed).2.1)
      (fun orderly => ⟨(sound.prepared orderly held listed).1,
        (sound.prepared orderly held listed).2.2⟩)) ?_
    intro _ later reached
    refine ⟨fun _ member => False.elim (List.not_mem_nil member),
      fun _ _ member => False.elim (List.not_mem_nil member), ?_⟩
    intro orderly running member
    rw [List.mem_singleton.mp member, reached]
    refine ⟨(sound.prepared orderly held listed).2.1, { held.2 with phase := .dispatched }, ?_, rfl, rfl⟩
    rw [Facts.withOperation, latest_append]
    exact mem_enter_self _ _ _
  | toolSettle operation arguments result =>
    refine onHeld_makes ?_
    intro held found
    have listed := List.mem_of_getElem? found
    exact unit_makes (toolSettle_makes rfl (calm id)
      (fun orderly => (sound.running orderly held listed).1)
      (fun orderly => (sound.running orderly held listed).2) arguments ordered)
  | recordResult attempt result =>
    refine onHeld_makes ?_
    intro held found
    have given := sound.attempts held (List.mem_of_getElem? found)
    have follows : ∀ workspace, setting.Follows state.journal.facts { held with
        phase := .resultRecorded, workspaceAfter := workspace, result := result } := fun workspace =>
      given.follows (calm id) rfl (fun _ _ => Nat.le_refl _) (fun orderly last member same =>
        rank_le_recorded (ordered orderly held found last member same))
    refine Keeps.bind (recordResult_makes rfl follows) ?_
    rintro recorded later ⟨⟨workspace, rfl⟩, reached⟩
    refine gains_attempt ?_
    rw [reached]
    exact given_concat rfl given.named rfl fun _ => Nat.le_refl _
  | settle attempt =>
    refine onHeld_makes ?_
    intro held found
    have given := sound.attempts held (List.mem_of_getElem? found)
    refine unit_makes (settle_makes rfl distinct given.named (given.closing (calm id)) ?_)
    intro waiting
    have paused : setting.orderly -> held.Paused := fun orderly => (given.held orderly).paused
    exact given.follows (calm id) rfl paused (fun orderly last member same =>
      (rank_le_recorded (ordered orderly held found waiting last member same)).trans
        (paused orderly waiting))
  | replan candidate reason evidenceRefs =>
    exact unit_makes (replan_makes rfl (calm id) candidate reason evidenceRefs)
  | recover probed =>
    exact unit_makes (recover_makes start.symm (recovering.mpr True.intro) (known ▸ sound.recorded)
      (known ▸ distinct) probed)
  | emit event payload => exact unit_makes (steady_emit event payload _)
  | note entry =>
    have noted : setting.Makes (whenever entry.Silent (write entry)) state.journal (fun _ _ => True) :=
      whenever_makes (fun silent => (steady_write silent _).mono fun _ _ _ => True.intro)
        (fun _ => True.intro)
    exact unit_makes noted

theorem program_makes (sound : Sound orderly state) (ordered : orderly -> input.call.InOrder state) :
    (input.setting session state orderly).Makes (input.call.program session state.memory) state.journal
      (fun gain later => Gains orderly gain later.facts) := by
  unfold Call.program
  split
  · exact onSession_makes rfl sound Iff.rfl ordered
  · split
    · exact Keeps.bind openSession_makes fun _ later _ => gains_nothing orderly true (Journal.facts later)
    · exact gains_nothing orderly false state.journal.facts

/-- What every effect preserves is preserved by a step, wherever it crashes. -/
theorem step_journal (sound : Sound orderly state) (ordered : orderly -> input.call.InOrder state)
    (invariant : Journal -> Prop)
    (preserved : ∀ journal entries, (input.setting session state orderly).Effect journal entries -> invariant journal -> invariant (journal ++ entries))
    (initially : invariant state.journal) : invariant (state.step session input).journal := by
  have visited := (program_makes sound ordered).visited (fun _ _ asked => asked) preserved initially
  unfold Runtime.step
  split
  · exact visited _
  · dsimp only
    rw [final_eq_after]
    exact visited _

theorem step_gains (sound : Sound orderly state) (ordered : orderly -> input.call.InOrder state) :
    (state.step session input).memory = Memory.empty ∨
      ∃ gain, (state.step session input).memory =
        (input.call.taken state.memory).gained gain ∧
          Gains orderly gain (state.step session input).journal.facts := by
  unfold Runtime.step
  split
  · exact Or.inl rfl
  · refine Or.inr ?_
    dsimp only
    split
    · rename_i gain ended
      exact ⟨gain, rfl, (program_makes sound ordered).returned (fun _ _ asked => asked) ended⟩
    · refine ⟨{}, ?_, gains_nothing orderly false _⟩
      rw [Memory.gained, Bool.or_false, List.append_nil, List.append_nil, List.append_nil]

omit [Hashing] [Decoding] in
theorem Call.taken_attempts (memory : Memory) (call : Call) :
    (call.taken memory).attempts = memory.attempts := by
  cases call <;> rfl

/-! ## Runs in general -/

/-- What an effect changes of the facts. -/
inductive Setting.Change (setting : Setting) (facts : Facts) : Facts -> Prop where
  | same : Change setting facts facts
  | created (plan : Plan) (calm : ¬ setting.recovering) (absent : facts.plan = none)
      (fresh : plan.nodes.all PlanSession.unexecuted = true) (valid : plan.Valid) :
      Change setting facts (facts.withPlan plan)
  | moved (before after : Plan) (held : facts.plan = some before) (valid : after.Valid)
      (move : setting.Move facts before after) : Change setting facts (facts.withPlan after)
  | attempt (attempt : Attempt) (named : attempt.attemptId ≠ "")
      (continuing : setting.recovering -> ∃ previous,
        facts.OpenAttempt previous ∧ attempt.fixed = previous.fixed) :
      Change setting facts (facts.withAttempt attempt)
  | operation (operation : Operation) (calm : ¬ setting.recovering) :
      Change setting facts (facts.withOperation operation)

theorem Setting.Effect.change {setting : Setting} {entries : List Entry}
    (effect : setting.Effect journal entries) :
    setting.Change journal.facts (Journal.facts (journal ++ entries)) := by
  cases effect with
  | silent all =>
    rw [Journal.facts_silent journal all]
    exact .same
  | identity empty | checkpoint state coordination recorded asked =>
    rw [Journal.facts_one journal rfl rfl rfl]
    exact .same
  | created plan calm absent fresh valid =>
    rw [Journal.facts_plan]
    exact .created plan calm absent fresh valid
  | moved before after held valid move =>
    rw [Journal.facts_plan]
    exact .moved before after held valid move
  | opened attempt calm drawn unmoved prepared blank owned =>
    rcases drawn with ⟨random, _, name⟩
    rw [Journal.facts_attempt]
    exact .attempt attempt (name ▸ newId_ne_empty random) fun recovering => absurd recovering calm
  | recorded attempt follows =>
    rw [Journal.facts_attempt]
    exact .attempt attempt follows.named follows.continuing
  | dispatched operation operates drawn unmoved prepared unknown
  | operated operation operates follows receipted =>
    rw [Journal.facts_operation]
    exact .operation operation operates.calm

omit [Hashing] [Decoding] in
theorem Entry.Silent.plan? {entry : Entry} (silent : entry.Silent) : entry.plan? = none := by
  cases entry with
  | plan plan => exact False.elim silent
  | _ => rfl

/-- A transaction commits no plan, the first one or one that follows by a move. -/
inductive Setting.Commits (setting : Setting) (journal : Journal) (entries : List Entry) : Prop where
  | none (others : ∀ entry ∈ entries, entry.plan? = Option.none)
  | created (plan : Plan) (calm : ¬ setting.recovering) (absent : journal.plan? = Option.none)
      (fresh : plan.nodes.all PlanSession.unexecuted = true) (valid : plan.Valid)
      (same : entries = [.plan plan])
  | moved (before after : Plan) (held : journal.plan? = some before) (valid : after.Valid)
      (move : setting.Move journal.facts before after) (same : entries = [.plan after])

theorem Setting.Effect.commits {setting : Setting} {entries : List Entry}
    (effect : setting.Effect journal entries) : setting.Commits journal entries := by
  have single : ∀ {entry : Entry}, entry.plan? = none -> setting.Commits journal [entry] :=
    fun none => .none fun other member => List.mem_singleton.mp member ▸ none
  cases effect with
  | silent all => exact .none fun entry member => (all entry member).plan?
  | created plan calm absent fresh valid => exact .created plan calm absent fresh valid rfl
  | moved before after held valid move => exact .moved before after held valid move rfl
  | _ => exact single rfl

/-- The attempts have identifiers, and the plan is valid. -/
structure Facts.Regular (facts : Facts) : Prop where
  named : ∀ attempt ∈ latest Attempt.attemptId facts.attempts, attempt.attemptId ≠ ""
  valid : ∀ plan, facts.plan = some plan -> plan.Valid

theorem Setting.Change.regular {setting : Setting} {before after : Facts}
    (change : setting.Change before after) (regular : before.Regular) : after.Regular := by
  cases change with
  | same => exact regular
  | created plan calm absent fresh valid | moved old new held valid move =>
    refine ⟨regular.named, ?_⟩
    intro other held
    cases held
    exact valid
  | attempt attempt named continuing =>
    refine ⟨?_, regular.valid⟩
    intro other listed
    rw [Facts.withAttempt, latest_append] at listed
    rcases mem_enter listed with rfl | earlier
    · exact named
    · exact regular.named other earlier
  | operation operation calm => exact ⟨regular.named, regular.valid⟩

/-- A state of any run. -/
structure Reached (state : Runtime) : Prop where
  regular : state.journal.facts.Regular
  named : ∀ attempt ∈ state.memory.attempts, attempt.attemptId ≠ ""

omit [Hashing] [Decoding] in
theorem reached_fresh : Reached Runtime.fresh := by
  refine ⟨⟨?_, nofun⟩, ?_⟩
  · exact fun _ listed => False.elim (List.not_mem_nil listed)
  · exact fun _ listed => False.elim (List.not_mem_nil listed)

omit [Hashing] [Decoding] in
theorem Reached.sound (reached : Reached state) : Sound False state :=
  ⟨fun attempt listed => ⟨reached.named attempt listed, False.elim⟩, False.elim, False.elim,
    fun attempt listed => ⟨reached.regular.named attempt listed, False.elim⟩, reached.regular.valid⟩

theorem reached_step (reached : Reached state) (input : Input) : Reached (state.step session input) := by
  refine ⟨?_, ?_⟩
  · refine step_journal reached.sound False.elim (fun journal => journal.facts.Regular) ?_ reached.regular
    exact fun journal entries effect regular => effect.change.regular regular
  · intro attempt listed
    rcases step_gains reached.sound False.elim with empty | ⟨gain, gained, given⟩
    · rw [empty] at listed
      exact False.elim (List.not_mem_nil listed)
    · rw [gained, Memory.gained, Call.taken_attempts] at listed
      rcases List.mem_append.mp listed with old | new
      · exact reached.named attempt old
      · exact (given.attempts attempt new).named

/-- What every change of the facts preserves is preserved by a step. -/
theorem Reached.keeps {session : PlanSession} {state : Runtime} (reached : Reached state)
    {input : Input} (holds : Facts -> Prop)
    (preserved : ∀ before after, (input.setting session state False).Change before after ->
      before.Regular -> holds before -> holds after)
    (initially : holds state.journal.facts) : holds (state.step session input).journal.facts := by
  refine (step_journal reached.sound False.elim
    (fun journal => journal.facts.Regular ∧ holds journal.facts) ?_ ⟨reached.regular, initially⟩).2
  rintro journal entries effect ⟨regular, held⟩
  exact ⟨effect.change.regular regular, preserved _ _ effect.change regular held⟩

end Decoded

/-- Every check passes, and nothing in the workspace changes. -/
def calmAnswers (random : String) (stopped : Bool) : Answers Query Query.Reply := fun _ query =>
  match query with
  | .check _ => none
  | .snapshotWorkspace => .ok []
  | .evidence => ⟨fun _ => none, fun _ => none, fun _ => true⟩
  | .uuid => random
  | .process _ => none
  | .ownProcess => .obj []
  | .stoppedProbe _ => stopped
  | .time => 0
  | .longTaskState => ⟨"task", "run", [], true⟩
  | .coordinationSeal => .ok none
  | .observation _ => .ok "observation"

/-- The ledger knows every reference as evidence of the kind and of the first
attempt. -/
def knowingAnswers (kind : String) : Answers Query Query.Reply := fun number query =>
  match query with
  | .evidence => ⟨fun _ => some kind, fun _ => some "attempt-1", fun _ => true⟩
  | query => calmAnswers "1" true number query

def calmly (call : Call) : Input := ⟨call, calmAnswers "1" true, none⟩

/-- The process crashes between two calls. -/
def crashed : Input := ⟨.refresh, calmAnswers "1" true, some 0⟩

end PlanRuntime
end FixLoop
