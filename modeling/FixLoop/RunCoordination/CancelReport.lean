import FixLoop.RunCoordination.Coordinator
import FixLoop.RunCoordination.Fencing

namespace FixLoop
namespace RunCoordination

open Library RunCoordinationStore RunCoordinator

/-!
# The report of `cancel` and the stored outcome

`cancel` judges the results that it has collected, `finish` judges the
resources that it finds in its own transaction, and the report does not wait
for the second judgement.  The two agree exactly when `finish` finds every
resource of the run settled.
-/

section Runs

variable [Hashing]

/-- Another thread performs an owner call on the run. -/
def Interference (key : RunKey) (before after : Database) : Prop :=
  ∃ call : OwnerCall, call.key = key ∧ after = storeMachine.step before (.owner call)

omit [Hashing] in
/-- The run has this status and no owner. -/
def Ended (key : RunKey) (status : RunStatus) (db : Database) : Prop :=
  ∃ row, db.run? key = some row ∧ row.ownerToken = "" ∧ row.status = status

omit [Hashing] in
/-- A returned report names the stored status exactly when no `finish` of
this execution met a resource that was not settled. -/
def Agrees (key : RunKey) (trace : List (CancelAction × Database))
    (result : Except CoordinationFault CancelReport) (db : Database) : Prop :=
  ∀ report, result = .ok report ->
    ((db.run? key).map RunRow.status = some report.status <->
      ∀ entry ∈ trace, entry.1 = .finish -> entry.2.residual key = [])

def Closes (key : RunKey) (process : CancelProcess) : Prop :=
  ∀ db, Coordinated db -> Process.Ensures (Interference key) process db (Agrees key)

variable {key : RunKey} {after db : Database} {label : CancelAction} {Answer : Type}
  {store : RunCoordinationStore} {clock : Clock} {lease : OwnerLease} {next : Answer -> CancelProcess}

variable {before : Database} {method : Database -> Transaction Answer} {errorCode : String}

theorem Interference.coordinated (interference : Interference key before after)
    (coordinated : Coordinated before) : Coordinated after := by
  rcases interference with ⟨call, _, rfl⟩
  exact coordinated.step _

/-- No owner call changes a run without an owner. -/
theorem Ended.stable {status : RunStatus} (interference : Interference key before after)
    (ended : Ended key status before) : Ended key status after := by
  rcases interference with ⟨call, rfl, rfl⟩
  rcases ended with ⟨row, found, cleared, same⟩
  have released : Released call.key before := ⟨row, found, cleared⟩
  rw [(call.rejected (released.not_owns call.lease)).2]
  exact ⟨row, found, cleared, same⟩

omit [Hashing] in
/-- Only a `finish` counts in the trace. -/
theorem agrees_cons {final : Database} {trace : List (CancelAction × Database)}
    {result : Except CoordinationFault CancelReport} (other : label ≠ .finish)
    (agrees : Agrees key trace result final) : Agrees key ((label, db) :: trace) result final := by
  intro report returned
  rw [agrees report returned]
  constructor
  · intro clean entry member finish
    rcases List.mem_cons.mp member with rfl | member
    · exact absurd finish other
    · exact clean entry member finish
  · intro clean entry member finish
    exact clean entry (List.mem_cons_of_mem _ member) finish

/-! ## The process up to its end -/

theorem closes_fault (fault : CoordinationFault) : Closes key (.halt (.error fault)) := by
  intro db _ trace result final execution report returned
  cases returned.symm.trans execution.of_halt.2

/-- A report of an ended run, given without a `finish`. -/
theorem ensures_report {report : CancelReport} (ended : Ended key report.status db) :
    Process.Ensures (Interference key) (.halt (.ok report)) db (Agrees key) := by
  refine Process.ensures_halt (Ended key report.status) (fun _ _ => Ended.stable) ended ?_
  rintro final ⟨row, found, _, same⟩ returned equal
  cases equal
  refine ⟨fun _ _ impossible => False.elim (List.not_mem_nil impossible), fun _ => ?_⟩
  rw [found, Option.map_some, same]

/-- An action that is no `finish` may be prefixed to what closes anyway. -/
theorem closes_transact (other : label ≠ .finish)
    (keeps : ∀ db answer after, Coordinated db -> method db = .ok (answer, after) -> Coordinated after)
    (continues : ∀ db answer after, method db = .ok (answer, after) -> Closes key (next answer)) :
    Closes key (transact label method next) := by
  intro db coordinated
  refine Process.ensures_atomic Coordinated (fun _ _ => Interference.coordinated) coordinated ?_
  intro before reached trace result final execution
  cases outcome : method before with
  | error fault =>
    simp only [outcome] at execution
    exact agrees_cons other (closes_fault fault before reached _ _ _ execution)
  | ok answer =>
    simp only [outcome] at execution
    exact agrees_cons other (continues before answer.1 answer.2 outcome answer.2
      (keeps before answer.1 answer.2 reached outcome) _ _ _ execution)

theorem coordinated_of_answer {wrap : Answer -> Reply} {call : OwnerCall} {transaction : Transaction Answer}
    {answer : Answer} (same : call.apply db = transaction.answer wrap) (coordinated : Coordinated db)
    (accepted : transaction = .ok (answer, after)) : Coordinated after := by
  have stepped := coordinated.step (.owner call)
  change Coordinated (commit (call.apply db) db) at stepped
  rwa [same, accepted] at stepped

/-- The same for a method of the store. -/
theorem closes_call (call : OwnerCall) (wrap : Answer -> Reply) (other : label ≠ .finish)
    (same : ∀ db, call.apply db = (method db).answer wrap)
    (continues : ∀ db answer after, method db = .ok (answer, after) -> Closes key (next answer)) :
    Closes key (transact label method next) :=
  closes_transact other (fun db _ _ coordinated accepted =>
    coordinated_of_answer (same db) coordinated accepted) continues

theorem closes_inspect {read : Database -> Except CoordinationFault Answer} (other : label ≠ .finish)
    (continues : ∀ answer, Closes key (next answer)) : Closes key (inspect label read next) := by
  refine closes_transact other ?_ fun _ answer _ _ => continues answer
  intro db answer after coordinated accepted
  cases outcome : read db with
  | error fault => simp only [outcome, Except.map, reduceCtorEq] at accepted
  | ok found =>
    simp only [outcome, Except.map] at accepted
    cases accepted
    exact coordinated

/-! ## The end of the process -/

omit [Hashing] in
/-- The outcome that `finish` stores, in the transaction that looks at the
resources. -/
theorem finish_ended (accepted : store.finish clock lease .cancelled errorCode db = .ok ((), after)) :
    Ended (store.key lease.runId)
      (if db.residual (store.key lease.runId) = [] then .cancelled else .recoveryRequired) after := by
  unfold finish at accepted
  rw [if_neg (by decide)] at accepted
  rcases owned_ok accepted with ⟨row, found, owner, body⟩
  dsimp only at body
  by_cases clean : db.residual (store.key lease.runId) = []
  · rw [if_pos clean]
    rw [if_neg fun blocked => blocked.1 clean] at body
    cases body
    exact ⟨_, run?_of_insert rfl, rfl, rfl⟩
  · rw [if_neg clean]
    rw [if_pos ⟨clean, by decide⟩] at body
    cases body
    exact ⟨_, run?_of_insert rfl, rfl, rfl⟩

omit [Hashing] in
theorem markRecoveryRequired_ended
    (accepted : store.markRecoveryRequired clock lease errorCode db = .ok ((), after)) :
    Ended (store.key lease.runId) .recoveryRequired after := by
  rcases owned_ok accepted with ⟨row, found, owner, body⟩
  cases body
  exact ⟨_, run?_of_insert rfl, rfl, rfl⟩

/-- After the report of a cancelled run, the stored status is `cancelled`
exactly when `finish` met no residue. -/
theorem closes_finish (coordinator : RunCoordinator) (inputs : CancelInputs) (lease : OwnerLease)
    (report : CancelReport) (cancelled : report.status = .cancelled) :
    Closes (coordinator.store.key lease.runId) (transact .finish
      (coordinator.store.finish (inputs.clock .finish 0) lease .cancelled "")
      (fun _ => .halt (.ok report))) := by
  intro db coordinated
  refine Process.ensures_atomic Coordinated (fun _ _ => Interference.coordinated) coordinated ?_
  intro before reached trace result final execution
  cases outcome : coordinator.store.finish (inputs.clock .finish 0) lease .cancelled "" before with
  | error fault =>
    simp only [outcome] at execution
    intro other returned
    cases returned.symm.trans execution.of_halt.2
  | ok answer =>
    simp only [outcome] at execution
    have ends : Process.Ensures (Interference (coordinator.store.key lease.runId))
        (.halt (.ok report)) answer.2 (fun trace =>
          Agrees (coordinator.store.key lease.runId) ((.finish, before) :: trace)) := by
      refine Process.ensures_halt (Ended _ _) (fun _ _ => Ended.stable) (finish_ended outcome) ?_
      rintro last ⟨row, found, _, same⟩ returned equal
      cases equal
      rw [found, Option.map_some, same, cancelled, Option.some.injEq]
      constructor
      · intro stored entry member _
        rw [List.mem_singleton.mp member]
        by_contra residue
        rw [if_neg residue] at stored
        cases stored
      · intro clean
        rw [if_pos (clean _ (List.mem_singleton_self _) rfl)]
    exact ends trace result final execution

theorem closes_markRecoveryRequired (coordinator : RunCoordinator) (inputs : CancelInputs)
    (lease : OwnerLease) (report : CancelReport) (required : report.status = .recoveryRequired) :
    Closes (coordinator.store.key lease.runId) (transact .markRecoveryRequired
      (coordinator.store.markRecoveryRequired (inputs.clock .markRecoveryRequired 0) lease
        "resource_cleanup_failed") fun _ => .halt (.ok report)) := by
  intro db coordinated
  refine Process.ensures_atomic Coordinated (fun _ _ => Interference.coordinated) coordinated ?_
  intro before reached trace result final execution
  cases outcome : coordinator.store.markRecoveryRequired (inputs.clock .markRecoveryRequired 0) lease
      "resource_cleanup_failed" before with
  | error fault =>
    simp only [outcome] at execution
    intro other returned
    cases returned.symm.trans execution.of_halt.2
  | ok answer =>
    simp only [outcome] at execution
    refine agrees_cons (by decide) (ensures_report ?_ trace result final execution)
    rw [required]
    exact markRecoveryRequired_ended outcome

theorem closes_conclude (coordinator : RunCoordinator) (inputs : CancelInputs) (lease : OwnerLease)
    (requestId : String) (results : List ResourceResult) :
    Closes (coordinator.store.key lease.runId)
      (coordinator.conclude inputs true lease requestId results) := by
  unfold RunCoordinator.conclude
  by_cases confirmed : results.all ResourceResult.confirmed = true
  · rw [if_pos confirmed]
    exact closes_finish coordinator inputs lease _ rfl
  · rw [if_neg confirmed]
    exact closes_markRecoveryRequired coordinator inputs lease _ rfl

/-- The loop, by induction on the resources that are left. -/
theorem closes_cancelEach (coordinator : RunCoordinator) (inputs : CancelInputs) (lease : OwnerLease)
    (requestId : String) (turn : Nat) (results : List ResourceResult)
    (pending : List ResourceRecord) :
    Closes (coordinator.store.key lease.runId)
      (coordinator.cancelEach inputs true lease requestId turn results pending) := by
  induction pending generalizing turn results with
  | nil => exact closes_conclude coordinator inputs lease requestId results
  | cons resource rest ih =>
    unfold RunCoordinator.cancelEach
    by_cases settled : resource.settled = true
    · rw [if_pos settled]
      exact ih _ _
    · rw [if_neg settled]
      refine closes_call ⟨_, _, _, .recordEvent _ _⟩ (fun _ => .done) (by decide) (fun _ => rfl) ?_
      intro _ _ _ _
      refine closes_call ⟨_, _, _, .transitionResource _⟩ .record (by decide) (fun _ => rfl) ?_
      intro _ _ _ _
      refine closes_call ⟨_, _, _, .recordEvent _ _⟩ (fun _ => .done) (by decide) (fun _ => rfl) ?_
      intro _ _ _ _
      exact ih _ _

omit [Hashing] in
theorem beginCancelling_runId {next : OwnerLease}
    (accepted : store.beginCancelling clock lease db = .ok (next, after)) : next.runId = lease.runId := by
  rcases owned_ok accepted with ⟨row, found, owner, body⟩
  split at body
  · cases body
    rfl
  split at body
  · cases body
  cases body
  rfl

theorem closes_cancelOpen (coordinator : RunCoordinator) (inputs : CancelInputs) (requestId : String)
    (lease : OwnerLease) (own : lease.runId = coordinator.runId) :
    Closes (coordinator.store.key coordinator.runId)
      (coordinator.cancelOpen inputs true requestId lease) := by
  refine closes_call ⟨_, _, _, .requestCancel _ _⟩ .requestId (by decide) (fun _ => rfl) ?_
  intro _ recorded _ _
  refine closes_call ⟨_, _, _, .beginCancelling⟩ .lease (by decide) (fun _ => rfl) ?_
  intro _ next _ accepted
  refine closes_inspect (by decide) ?_
  intro resources
  have same := closes_cancelEach coordinator inputs next recorded 0 [] (reverseDepth resources)
  rwa [beginCancelling_runId accepted, own] at same

omit [Hashing] in
/-- The rows for which `cancel` repeats what is stored. -/
def Closed (current : RunRow) : Prop :=
  current.status = .cancelled ∨ (current.status = .recoveryRequired ∧ current.ownerToken = "")

omit [Hashing] in
theorem Closed.ended {current : RunRow} (closed : Closed current) (coordinated : Coordinated db)
    (found : db.run? key = some current) : Ended key current.status db := by
  rcases closed with cancelled | ⟨required, cleared⟩
  · refine ⟨current, found, ?_, rfl⟩
    by_contra token
    have held := coordinated.owned key current found token
    rw [cancelled] at held
    cases held
  · exact ⟨current, found, cleared, rfl⟩

theorem ensures_cancelFrom (coordinator : RunCoordinator) (inputs : CancelInputs) (requestId : String)
    (current : RunRow) (resources : List ResourceRecord) (coordinated : Coordinated db)
    (ended : Closed current -> Ended (coordinator.store.key coordinator.runId) current.status db) :
    Process.Ensures (Interference (coordinator.store.key coordinator.runId))
      (coordinator.cancelFrom inputs true requestId current resources) db
      (Agrees (coordinator.store.key coordinator.runId)) := by
  unfold RunCoordinator.cancelFrom
  by_cases cancelled : current.status = .cancelled
  · rw [if_pos cancelled]
    refine ensures_report ?_
    have here := ended (Or.inl cancelled)
    rwa [cancelled] at here
  · rw [if_neg cancelled]
    cases held : coordinator.lease with
    | none => exact closes_fault _ db coordinated
    | some lease =>
      dsimp only
      by_cases closed : current.status = .recoveryRequired ∧ current.cancelRequestId ≠ "" ∧
          current.ownerToken = "" ∧ current.generation = lease.generation
      · rw [if_pos closed]
        exact ensures_report (ended (Or.inr ⟨closed.1, closed.2.2.1⟩))
      · rw [if_neg closed]
        exact closes_cancelOpen coordinator inputs requestId lease (coordinator.ownLease lease held)
          db coordinated

theorem closes_cancel (coordinator : RunCoordinator) (inputs : CancelInputs) (requestId : String) :
    Closes (coordinator.store.key coordinator.runId) (coordinator.cancel inputs requestId true) := by
  intro db coordinated
  refine Process.ensures_atomic Coordinated (fun _ _ => Interference.coordinated) coordinated ?_
  intro before reached trace result final execution
  cases found : before.run? (coordinator.store.key coordinator.runId) with
  | none =>
    simp only [RunCoordinationStore.row, found, Except.map] at execution
    intro report returned
    cases returned.symm.trans execution.of_halt.2
  | some current =>
    simp only [RunCoordinationStore.row, found, Except.map] at execution
    refine agrees_cons (by decide) ?_
    refine Process.ensures_atomic (fun db => Coordinated db ∧
      (Closed current -> Ended (coordinator.store.key coordinator.runId) current.status db))
      ?_ ⟨reached, fun closed => closed.ended reached found⟩ ?_ trace result final execution
    · intro first second interference known
      exact ⟨interference.coordinated known.1, fun closed => (known.2 closed).stable interference⟩
    · intro middle known trace result final execution
      exact agrees_cons (by decide) (ensures_cancelFrom coordinator inputs requestId current _ known.1
        known.2 trace result final execution)

/-- Every execution of `cancel` from a reachable database, interleaved with
any owner calls on the run, that returns a report: the stored status is the
reported one exactly when every `finish` of the execution found all resources
of the run settled. -/
theorem cancel_report_agrees (calls : List StoreCall) (coordinator : RunCoordinator)
    (inputs : CancelInputs) (requestId : String) (trace : List (CancelAction × Database))
    (report : CancelReport) (final : Database)
    (execution : (coordinator.cancel inputs requestId true).Executes
      (Interference (coordinator.store.key coordinator.runId))
      (storeMachine.run Database.empty calls) trace (.ok report) final) :
    (final.run? (coordinator.store.key coordinator.runId)).map RunRow.status = some report.status <->
      ∀ entry ∈ trace, entry.1 = .finish ->
        ∀ resourceId record, entry.2.resource? resourceId = some record ->
          record.runKey = coordinator.store.key coordinator.runId -> record.settled = true := by
  have agrees := closes_cancel coordinator inputs requestId _ (Reachable.coordinated ⟨calls, rfl⟩)
    trace (.ok report) final execution report rfl
  simpa only [residual_eq_nil_iff] using agrees

end Runs

attribute [local instance] Hashing.constant

namespace SharedRoot

def coordinator : RunCoordinator :=
  ⟨"run", store "a", [], some (lease "a" left), fun _ held => by cases held; rfl⟩

def inputs : CancelInputs := ⟨fun _ _ _ => 0, left⟩

def activeRun : List StoreCall :=
  [acquireCall "a" left, .owner (ownerCall "a" left .activate)]

/-- Another thread registers a task that it has found running. -/
def lateRegistration : OwnerCall :=
  ownerCall "a" left (.registerResource ⟨"x", "sandbox", "write", "", "", .obj [], true⟩)

/-- `cancel`, with calls of another thread before its `finish`. -/
def cancelledWith (between : List OwnerCall) :
    List (CancelAction × Database) × CancelProcess × Database :=
  (coordinator.cancel inputs "" true).play (storeMachine.run Database.empty activeRun)
    ([none, none, none, none, none] ++
      between.map (fun call => some fun db => storeMachine.step db (.owner call)) ++ [none])

/-- The status of the report that a process has halted with. -/
def reported (process : CancelProcess) : Option RunStatus :=
  process.result?.bind fun result => result.toOption.map CancelReport.status

theorem executes_cancelledWith {between : List OwnerCall}
    (own : ∀ call ∈ between, call.key = ⟨"a", "run"⟩) {status : RunStatus}
    (shown : reported (cancelledWith between).2.1 = some status) :
    ∃ report, (coordinator.cancel inputs "" true).Executes (Interference ⟨"a", "run"⟩)
      (storeMachine.run Database.empty activeRun) (cancelledWith between).1 (.ok report)
      (cancelledWith between).2.2 ∧ report.status = status := by
  rcases Option.bind_eq_some_iff.mp shown with ⟨result, halted, named⟩
  cases result with
  | error fault => cases named
  | ok report =>
    refine ⟨report, Process.executes_play ?_ _ _ halted, Option.some.inj named⟩
    intro change member state
    simp only [List.mem_append, List.mem_cons, List.mem_map, reduceCtorEq, or_self,
      List.not_mem_nil, or_false, false_or, Option.some.injEq] at member
    rcases member with ⟨call, listed, rfl⟩
    exact ⟨call, own call listed, rfl⟩

end SharedRoot

/-- Another thread registers a running task after `cancel` has listed the
resources: the report says `cancelled` and the stored status is
`recovery_required`. -/
theorem cancel_report_disagrees :
    ∃ trace, ∃ report : CancelReport, ∃ final,
      (SharedRoot.coordinator.cancel SharedRoot.inputs "" true).Executes
        (Interference ⟨"a", "run"⟩) (storeMachine.run Database.empty SharedRoot.activeRun) trace
        (.ok report) final ∧
      report.status = .cancelled ∧
      (final.run? ⟨"a", "run"⟩).map RunRow.status = some .recoveryRequired := by
  have own : ∀ call ∈ [SharedRoot.lateRegistration], call.key = ⟨"a", "run"⟩ := by
    intro call member
    rw [List.mem_singleton.mp member]
    rfl
  have shown : SharedRoot.reported (SharedRoot.cancelledWith [SharedRoot.lateRegistration]).2.1 =
      some .cancelled := by decide +kernel
  rcases SharedRoot.executes_cancelledWith own shown with ⟨report, execution, cancelled⟩
  exact ⟨_, report, _, execution, cancelled, by decide +kernel⟩

theorem cancel_report_agrees_undisturbed :
    ((SharedRoot.cancelledWith []).2.2.run? ⟨"a", "run"⟩).map RunRow.status = some .cancelled := by
  have shown : SharedRoot.reported (SharedRoot.cancelledWith []).2.1 = some .cancelled := by
    decide +kernel
  rcases SharedRoot.executes_cancelledWith (fun _ impossible =>
    False.elim (List.not_mem_nil impossible)) shown with ⟨report, execution, cancelled⟩
  have agrees := cancel_report_agrees SharedRoot.activeRun SharedRoot.coordinator SharedRoot.inputs ""
    _ report _ execution
  rw [cancelled] at agrees
  refine agrees.mpr ?_
  intro entry member finish resourceId record found own
  have clean : (SharedRoot.cancelledWith []).1.all (fun entry =>
      (entry.2.residual ⟨"a", "run"⟩).isEmpty) = true := by decide +kernel
  exact (residual_eq_nil_iff _ _).mp (List.isEmpty_iff.mp (List.all_eq_true.mp clean entry member))
    resourceId record found own

end RunCoordination
end FixLoop
