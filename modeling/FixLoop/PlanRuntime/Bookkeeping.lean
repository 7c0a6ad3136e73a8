import FixLoop.PlanRuntime.ReplanAccount
import FixLoop.PlanRuntime.Moves

namespace FixLoop
namespace PlanRuntime

open Library Program

/-!
# What the methods of a session do to the books

Most programs are quiet: they save no plan and record no request.  An ordinary
program may save revisions of the current plan.  Every method of a session is
ordinary, apart from those that create or replace the plan, and its
specification here follows its text.
-/

/-- The entry does not enter the books. -/
def Entry.Quiet (entry : Entry) : Prop := entry.plan? = none ∧ entry.request? = none

/-- The transaction changes the books in one of the listed ways. -/
def Booking (journal : Journal) (entries : List Entry) : Prop :=
  journal.books.Change (Journal.books (journal ++ entries))

def Booked {Result : Type} (program : SessionM Result) (journal : Journal)
    (post : Result -> Journal -> Prop) : Prop :=
  Keeps (fun _ _ => True) Booking journal post program

/-- The program leaves the books as they are. -/
def Quiet {Result : Type} (program : SessionM Result) : Prop := Appends Entry.Quiet program

/-- The program revises the current plan at most. -/
def Ordinary {Result : Type} (program : SessionM Result) : Prop :=
  ∀ journal, Booked program journal fun _ later => later.requests = journal.requests

/-! ## The books after an entry -/

namespace Journal

variable (journal : Journal)

theorem books_quiet {entries : List Entry} (quiet : ∀ entry ∈ entries, entry.Quiet) :
    books (journal ++ entries) = journal.books := by
  rw [books, books, plans, plans, requests, requests, List.filterMap_append, List.filterMap_append,
    List.filterMap_eq_nil_iff.mpr (fun entry member => (quiet entry member).1),
    List.filterMap_eq_nil_iff.mpr (fun entry member => (quiet entry member).2), List.append_nil,
    List.append_nil]

theorem books_plan (plan : Plan) : books (journal ++ [.plan plan]) = journal.books.withPlan plan := by
  rw [books, books, plans, plans, requests, requests, List.filterMap_append, List.filterMap_append]
  exact congrArg (Books.mk _) (List.append_nil _)

theorem books_request (request : ReplanRequest) :
    books (journal ++ [request.entry]) = journal.books.withRequest request := by
  have read : request.entry.request? = some request := request.ofDict?_toDict
  have other : request.entry.plan? = none := rfl
  rw [books, books, plans, plans, requests, requests, List.filterMap_append, List.filterMap_append,
    List.filterMap_cons_some read, List.filterMap_cons_none other, List.filterMap_nil,
    List.filterMap_nil, List.append_nil]
  rfl

end Journal

theorem Booking.inOrder {journal : Journal} {entries : List Entry} (booking : Booking journal entries)
    (order : journal.books.InOrder) : (Journal.books (journal ++ entries)).InOrder :=
  order.changed booking

section Rules

variable {Result Other : Type} {journal : Journal}

variable {program : SessionM Result} {next : Result -> SessionM Other} (condition : Prop)

theorem Quiet.bind (quiet : Quiet program) (rest : ∀ result, Quiet (next result)) :
    Quiet (program >>= next) :=
  Appends.bind quiet rest

theorem Quiet.booked (quiet : Quiet program) (journal : Journal) :
    Booked program journal (fun _ later => later.books = journal.books) := by
  refine Appends.keeps quiet ?_ rfl
  intro earlier entries silent same
  have kept := Journal.books_quiet earlier silent
  refine ⟨?_, kept.trans same⟩
  rw [Booking, kept]
  exact .same

theorem Quiet.ordinary (quiet : Quiet program) : Ordinary program :=
  fun journal => (quiet.booked journal).mono fun _ _ same => congrArg Books.requests same

theorem Ordinary.bind (ordinary : Ordinary program) (rest : ∀ result, Ordinary (next result)) :
    Ordinary (program >>= next) :=
  fun journal => Keeps.bind (ordinary journal) (fun result later same =>
    (rest result later).mono fun _ _ kept => kept.trans same)

/-- A quiet program is followed by one that finds the same books. -/
theorem Quiet.followed {books : Books} {post : Other -> Journal -> Prop} (quiet : Quiet program)
    (known : journal.books = books)
    (rest : ∀ result later, later.books = books -> Booked (next result) later post) :
    Booked (program >>= next) journal post :=
  Keeps.bind (quiet.booked journal) fun result later same => rest result later (same.trans known)

variable {post : Except Fault Other -> Journal -> Prop} (point : String)

/-- The same where the faults of both are caught. -/
theorem Quiet.followedCaught {books : Books} (quiet : Quiet program) (known : journal.books = books)
    (rest : ∀ result later, later.books = books -> Booked (next result).caught later post)
    (failed : ∀ fault later, Journal.books later = books -> post (.error fault) later) :
    Booked (program >>= next).caught journal post := by
  refine Keeps.bindCaught (Quiet.booked (Appends.caught quiet) journal) ?_ ?_
  · exact fun result later same => rest result later (same.trans known)
  · exact fun fault later same => failed fault later (same.trans known)

theorem requirePlan_caught {plan : Plan} {next : Plan -> SessionM Other} (held : journal.plan? = some plan)
    (rest : Booked (next plan).caught journal post) : Booked (requirePlan >>= next).caught journal post := by
  refine keeps_caught_bind.mpr ?_
  have found : Booked requirePlan.caught journal (fun ended later =>
      ended = .ok plan ∧ later = journal) := by
    unfold Booked requirePlan
    rw [caught, Keeps, held]
    exact ⟨rfl, rfl⟩
  refine found.mono ?_
  rintro _ _ ⟨rfl, rfl⟩
  exact rest

theorem Quiet.then (quiet : Quiet program) (rest : ∀ result, Ordinary (next result)) :
    Ordinary (program >>= next) := quiet.ordinary.bind rest

theorem quiet_pure (result : Result) : Quiet (pure result) := appends_pure result

theorem quiet_fail (fault : Fault) : Quiet (.fail fault : SessionM Result) := appends_fail fault

theorem quiet_ofExcept (value : Except Fault Result) : Quiet (ofExcept value) := appends_ofExcept value

theorem quiet_refuseIf [Decidable condition] (fault : Fault) :
    Quiet (refuseIf condition fault) := quiet_ofExcept _

theorem quiet_question (query : Query) : Quiet (question query) := appends_question query

theorem quiet_journal : Quiet Program.journal := appends_journal

theorem quiet_write {entry : Entry} (quiet : entry.Quiet) : Quiet (write entry) := appends_write quiet

theorem quiet_check : Quiet (check point) := by
  intro reply
  cases reply with
  | some fault => exact True.intro
  | none => exact True.intro

theorem quiet_cut : Quiet (cut point) :=
  (quiet_check _).bind fun _ => quiet_check point

theorem quiet_ite {condition : Prop} [Decidable condition] {first second : SessionM Result}
    (left : Quiet first) (right : Quiet second) : Quiet (if condition then first else second) :=
  appends_ite left right

theorem quiet_whenever [Decidable condition] {program : SessionM Unit} (quiet : Quiet program) :
    Quiet (whenever condition program) := quiet_ite quiet (quiet_pure _)

theorem quiet_checkIf [Decidable condition] :
    Quiet (checkIf condition point) := quiet_whenever _ (quiet_check point)

theorem quiet_snapshotWorkspace : Quiet snapshotWorkspace := fun _ => quiet_ofExcept _

theorem quiet_newId (stem : String) : Quiet (newId stem) := fun _ => True.intro

theorem quiet_currentPlan : Quiet currentPlan := fun _ => True.intro

theorem quiet_requirePlan : Quiet requirePlan := by
  intro journal
  dsimp only
  split
  · exact True.intro
  · exact True.intro

theorem quiet_operationsOf (attemptId : String) : Quiet (operationsOf attemptId) := fun _ => True.intro

theorem quiet_attempt (attempt : Attempt) : Quiet (write (.attempt attempt)) := quiet_write ⟨rfl, rfl⟩

theorem quiet_operation (operation : Operation) : Quiet (write (.operation operation)) :=
  quiet_write ⟨rfl, rfl⟩

theorem ordinary_ite {condition : Prop} [Decidable condition] {first second : SessionM Result}
    (left : Ordinary first) (right : Ordinary second) :
    Ordinary (if condition then first else second) := by
  split
  · exact left
  · exact right

theorem ordinary_whenever [Decidable condition] {program : SessionM Unit} (ordinary : Ordinary program) :
    Ordinary (whenever condition program) :=
  ordinary_ite ordinary (quiet_pure _).ordinary

theorem ordinary_forM {Item : Type} {step : Item -> SessionM PUnit} {items : List Item}
    (stepwise : ∀ item, Ordinary (step item)) : Ordinary (items.forM step) := by
  intro journal
  refine keeps_forM (H := fun later => Journal.requests later = journal.requests) ?_ rfl
  exact fun item later _ same => (stepwise item later).mono fun _ _ kept => kept.trans same

theorem ordinary_foldlM {Item : Type} {step : Result -> Item -> SessionM Result} {items : List Item}
    (stepwise : ∀ result item, Ordinary (step result item)) (start : Result) :
    Ordinary (items.foldlM step start) := by
  intro journal
  refine keeps_foldlM (H := fun _ _ later => Journal.requests later = journal.requests) ?_ rfl
  exact fun item _ result later same =>
    (stepwise result item later).mono fun _ _ kept => kept.trans same

end Rules

section Lineages

variable [Hashing]

variable {plan after : Plan}

theorem transition_lineage {nodeId : String} {status : NodeStatus} {args : TransitionArgs}
    (accepted : transition plan nodeId status args = .ok after) : after.lineage = plan.lineage := by
  rcases transition_ok accepted with ⟨node, _, _, _, _, rfl⟩
  rfl

theorem restartSafe_lineage {nodeId attemptId reason : String}
    (accepted : restartSafe plan nodeId attemptId reason = .ok after) : after.lineage = plan.lineage := by
  rcases restartSafe_ok accepted with ⟨node, _, _, _, rfl⟩
  rfl

variable {ledger : Ledger}

theorem refreshNode_lineage {state after : Plan × Bool} {node : PlanNode}
    (accepted : refreshNode ledger state node = .ok after) : after.1.lineage = state.1.lineage := by
  unfold refreshNode at accepted
  split at accepted
  · cases accepted
    rfl
  split at accepted
  · cases accepted
  dsimp only at accepted
  split at accepted
  · rcases except_map_ok accepted with ⟨moved, transitioned, rfl⟩
    exact transition_lineage transitioned
  split at accepted
  · rcases except_map_ok accepted with ⟨moved, transitioned, rfl⟩
    exact transition_lineage transitioned
  · cases accepted
    rfl

theorem foldlM_lineage {nodes : List PlanNode} {state after : Plan × Bool}
    (accepted : nodes.foldlM (refreshNode ledger) state = .ok after) : after.1.lineage = state.1.lineage := by
  induction nodes generalizing state with
  | nil =>
    cases accepted
    rfl
  | cons node rest ih =>
    rw [List.foldlM_cons] at accepted
    rcases bind_ok accepted with ⟨middle, turn, accepted⟩
    exact (ih accepted).trans (refreshNode_lineage turn)

theorem refresh_lineage (accepted : refresh ledger plan = .ok after) : after.lineage = plan.lineage := by
  unfold refresh at accepted
  generalize plan.openSteps + 1 = fuel at accepted
  induction fuel generalizing plan with
  | zero =>
    cases accepted
    rfl
  | succ fuel ih =>
    rw [refreshLoop] at accepted
    cases round : refreshRound ledger plan with
    | error fault =>
      rw [round] at accepted
      cases accepted
    | ok reached =>
      have same : reached.1.lineage = plan.lineage := foldlM_lineage round
      rw [round] at accepted
      dsimp only at accepted
      split at accepted
      · exact (ih accepted).trans same
      · cases accepted
        exact same

end Lineages

section Methods

variable {session : PlanSession} [Hashing]

omit [Hashing] in
theorem quiet_emit (event : String) (payload : List (String × Json)) :
    Quiet (session.emit event payload) :=
  quiet_currentPlan.bind fun _ => (quiet_write ⟨rfl, rfl⟩).bind fun _ => quiet_check _

variable (attempt : Attempt) {journal : Journal} (nodeId : String) (probed : Bool) (report : RecoveryReport)

omit [Hashing] in
theorem quiet_recordResult (result : NodeResult) : Quiet (PlanSession.recordResult attempt result) :=
  (quiet_check _).bind (fun _ => quiet_snapshotWorkspace.bind (fun _ =>
    (quiet_attempt _).bind fun _ => (quiet_cut _).bind fun _ => quiet_pure _))

theorem quiet_persistLongTaskState : Quiet session.persistLongTaskState :=
  (quiet_check _).bind (fun _ => (quiet_question _).bind (fun _ =>
    (quiet_write ⟨rfl, rfl⟩).bind fun _ => quiet_pure _))

theorem quiet_checkpoint : Quiet session.checkpoint := by
  refine (quiet_check _).bind fun _ => (quiet_cut _).bind fun _ => ?_
  refine quiet_persistLongTaskState.bind fun state => ?_
  have sealing : Quiet (.ask .coordinationSeal ofExcept : SessionM (Option Json)) :=
    fun _ => quiet_ofExcept _
  exact sealing.bind (fun _ => quiet_journal.bind (fun _ =>
    (quiet_write ⟨rfl, rfl⟩).bind fun _ => quiet_cut _))

variable [Decoding]

/-- A plan is committed as a change of the books, or the books stay as they are. -/
theorem commit_caught {plan : Plan} {books : Books} (known : journal.books = books)
    (change : books.Change (books.withPlan plan)) :
    Booked (session.commit plan).caught journal (fun ended later =>
      later.books = books.withPlan plan ∨
        (later.books = books ∧ ∃ fault, ended = .error fault)) := by
  have failing : ∀ (fault : Fault) (later : Journal), later.books = books ->
      later.books = books.withPlan plan ∨ (later.books = books ∧ ∃ raised,
        (Except.error fault : Except Fault Unit) = .error raised) :=
    fun fault _ same => Or.inr ⟨same, fault, rfl⟩
  refine (quiet_check _).followedCaught known (fun _ journal known => ?_) failing
  refine (quiet_check _).followedCaught known (fun _ journal known => ?_) failing
  refine (quiet_ofExcept _).followedCaught known (fun _ journal known => ?_) failing
  refine keeps_caught_bind.mpr ?_
  refine (quiet_refuseIf _ _).followedCaught known (fun _ journal known => ?_) failing
  have reached : Journal.books (journal ++ [.plan plan]) = books.withPlan plan := by
    rw [Journal.books_plan, known]
  refine ⟨?_, ?_⟩
  · rw [Booking, known, reached]
    exact change
  · exact (Quiet.booked (Appends.caught (quiet_cut _)) _).mono fun _ _ kept => Or.inl (kept.trans reached)

theorem commit_booked {plan : Plan} {books : Books} (known : journal.books = books)
    (change : books.Change (books.withPlan plan)) :
    Booked (session.commit plan) journal (fun _ later => later.books = books.withPlan plan) := by
  refine (commit_caught known change).ofCaught.mono ?_
  rintro _ later (reached | ⟨_, fault, impossible⟩)
  · exact reached
  · cases impossible

theorem commit_revision {before after : Plan} (held : journal.plan? = some before)
    (same : after.lineage = before.lineage) :
    Booked (session.commit after) journal (fun _ later => later.requests = journal.requests) :=
  (commit_booked rfl (.revised before after held same)).mono
    (fun _ _ reached => congrArg Books.requests reached)

theorem commitChange_ordinary {change : Plan -> Except Fault Plan}
    (same : ∀ plan after, change plan = .ok after -> after.lineage = plan.lineage) :
    Ordinary (session.commitChange change) := by
  intro journal
  refine Setting.requirePlan_keeps ?_
  intro plan held
  refine keeps_bind.mpr (keeps_ofExcept.mpr ?_)
  intro after changed
  exact commit_revision held (same plan after changed)

theorem commitTransition_ordinary (status : NodeStatus) (args : TransitionArgs) :
    Ordinary (session.commitChange fun plan => transition plan nodeId status args) :=
  commitChange_ordinary fun _ _ => transition_lineage

omit [Hashing] [Decoding] in
theorem quiet_emitChange (old : Plan) (node : PlanNode) : Quiet (session.emitChange old node) :=
  (quiet_ofExcept _).bind fun _ => quiet_whenever _ (quiet_emit _ _)

theorem refresh_ordinary : Ordinary session.refresh := by
  intro journal
  refine Setting.requirePlan_keeps ?_
  intro old held
  refine keeps_bind.mpr fun ledger _ => keeps_bind.mpr (keeps_ofExcept.mpr ?_)
  intro candidate accepted
  unfold whenever
  split
  · refine Keeps.bind (commit_revision held (refresh_lineage accepted)) ?_
    intro _ later kept
    exact (ordinary_forM (fun node => (quiet_emitChange old node).ordinary) later).mono
      (fun _ _ same => same.trans kept)
  · exact rfl

theorem quiet_openSession : Quiet session.openSession := by
  have opened : Quiet session.openJournal := by
    refine quiet_journal.bind ?_
    intro journal
    split
    · exact quiet_write ⟨rfl, rfl⟩
    · exact quiet_refuseIf _ _
    · exact quiet_fail _
  have loaded : Quiet session.loadPlan := by
    refine quiet_currentPlan.bind ?_
    intro plan
    cases plan with
    | none => exact quiet_pure _
    | some plan => exact (quiet_refuseIf _ _).bind fun _ => quiet_ofExcept _
  exact opened.bind fun _ => loaded.bind fun _ => (quiet_check _).bind fun _ => quiet_check _

theorem prepare_ordinary : Ordinary (session.prepare nodeId) := by
  refine (quiet_check _).then fun _ => (quiet_check _).then fun _ => ?_
  refine refresh_ordinary.bind fun _ => ?_
  refine quiet_requirePlan.then fun plan => (quiet_ofExcept _).then fun node => ?_
  refine (quiet_checkIf _ _).then fun _ => (quiet_refuseIf _ _).then fun _ => ?_
  refine (quiet_refuseIf _ _).then fun _ => (quiet_checkIf _ _).then fun _ => ?_
  refine (quiet_newId _).then fun attemptId => quiet_snapshotWorkspace.then fun before => ?_
  refine (quiet_newId _).then fun key => (quiet_question _).then fun owner => ?_
  refine (quiet_check _).then fun _ => quiet_persistLongTaskState.then fun _ => ?_
  refine (quiet_attempt _).then fun _ => (quiet_cut _).then fun _ => (quiet_question _).then fun now => ?_
  refine (commitTransition_ordinary _ _ _).bind fun _ => ?_
  exact (quiet_attempt _).then (fun _ => (quiet_cut _).then (fun _ => (quiet_emit _ _).then (fun _ =>
    (quiet_pure _).ordinary)))

theorem runNode_ordinary : Ordinary (session.runNode nodeId) := by
  refine quiet_requirePlan.then fun plan => (quiet_ofExcept _).then fun node => ?_
  refine quiet_journal.then fun journal => ?_
  split
  · exact quiet_snapshotWorkspace.then fun _ => (quiet_refuseIf _ _).then fun _ => (quiet_pure _).ordinary
  · exact prepare_ordinary nodeId

omit [Hashing] [Decoding] in
theorem quiet_preplanRead (allowedTools : List String) : Quiet (PlanSession.preplanRead allowedTools) := by
  refine (quiet_check _).bind fun _ => quiet_currentPlan.bind fun _ => ?_
  refine (quiet_refuseIf _ _).bind fun _ => quiet_journal.bind fun _ => ?_
  refine (quiet_refuseIf _ _).bind fun _ => (quiet_newId _).bind fun _ => ?_
  refine (quiet_newId _).bind fun _ => quiet_snapshotWorkspace.bind fun _ => ?_
  refine (quiet_newId _).bind fun _ => (quiet_question _).bind fun _ => (quiet_check _).bind fun _ => ?_
  exact (quiet_attempt _).bind (fun _ => (quiet_cut _).bind (fun _ => (quiet_attempt _).bind (fun _ =>
    (quiet_cut _).bind fun _ => quiet_pure _)))

omit [Decoding] in
theorem quiet_preplanSettle : Quiet (session.preplanSettle attempt) :=
  (quiet_operationsOf _).bind (fun _ => (quiet_refuseIf _ _).bind (fun _ => (quiet_attempt _).bind (fun _ =>
    (quiet_check _).bind fun _ => quiet_checkpoint.bind fun _ => quiet_pure _)))

omit [Decoding] in
theorem quiet_toolPlanView : Quiet (toolPlanView attempt) := by
  refine quiet_currentPlan.bind fun current => quiet_ite (quiet_refuseIf _ _) ?_
  cases current with
  | none => exact quiet_fail _
  | some plan =>
    exact (quiet_refuseIf _ _).bind (fun _ => (quiet_refuseIf _ _).bind (fun _ =>
      (quiet_ofExcept _).bind fun _ => quiet_refuseIf _ _))

omit [Hashing] [Decoding] in
theorem quiet_newCallId (callId? : Option String) : Quiet (newCallId callId?) := by
  cases callId? with
  | none => exact quiet_newId _
  | some callId => exact quiet_pure _

omit [Decoding] in
theorem quiet_toolPrepare (name : String) (arguments : Json) (callId? : Option String) :
    Quiet (session.toolPrepare attempt name arguments callId?) := by
  have prepared : Quiet (session.prepareOperation attempt name arguments callId?) := by
    refine (quiet_ofExcept _).bind fun _ => (quiet_checkIf _ _).bind fun _ => ?_
    refine (quiet_refuseIf _ _).bind fun _ => (quiet_newId _).bind fun _ => ?_
    refine (quiet_newCallId _).bind fun _ => quiet_snapshotWorkspace.bind fun _ => ?_
    refine (quiet_operationsOf _).bind fun _ => (quiet_refuseIf _ _).bind fun _ => ?_
    refine quiet_journal.bind fun _ => (quiet_refuseIf _ _).bind fun _ => ?_
    exact (quiet_operation _).bind fun _ => (quiet_cut _).bind fun _ => quiet_pure _
  refine (quiet_check _).bind fun _ => (quiet_check _).bind fun _ => ?_
  refine (quiet_toolPlanView _).bind fun _ => quiet_ite (quiet_pure _) ?_
  exact prepared.bind fun _ => quiet_pure _

variable (operation : Operation) (node : PlanNode) (current : Snapshot)

omit [Decoding] in
theorem quiet_toolDispatch : Quiet (PlanSession.toolDispatch attempt operation) :=
  quiet_currentPlan.bind (fun _ => (quiet_refuseIf _ _).bind (fun _ => quiet_snapshotWorkspace.bind (fun _ =>
    (quiet_refuseIf _ _).bind (fun _ => (quiet_toolPlanView _).bind (fun _ =>
      (quiet_operation _).bind fun _ => quiet_cut _)))))

omit [Decoding] in
theorem quiet_toolSettle (arguments : Json) (result : ToolResult) :
    Quiet (session.toolSettle operation arguments result) := by
  have observed : Quiet (.ask (.observation operation.tool) ofExcept : SessionM String) :=
    fun _ => quiet_ofExcept _
  have recorded : ∀ changed, Quiet (recordEvidence operation changed result) := by
    intro changed
    refine (quiet_newId _).bind fun _ => (quiet_write ⟨rfl, rfl⟩).bind fun _ => ?_
    exact quiet_ite ((quiet_newId _).bind fun _ => (quiet_write ⟨rfl, rfl⟩).bind fun _ => quiet_pure _)
      (quiet_pure _)
  refine quiet_snapshotWorkspace.bind fun _ => (quiet_refuseIf _ _).bind fun _ => ?_
  refine observed.bind fun _ => (recorded _).bind fun _ => ?_
  exact (quiet_operation _).bind fun _ => (quiet_cut _).bind fun _ => quiet_pure _

theorem settle_ordinary : Ordinary (session.settle attempt) := by
  have paused : Quiet (session.pauseAttempt attempt) :=
    (quiet_attempt _).bind (fun _ => (quiet_emit _ _).bind (fun _ => quiet_checkpoint.bind (fun _ =>
      quiet_pure _)))
  have closed : ∀ node operations ledger status,
      Ordinary (session.closeNode node attempt operations ledger status) := by
    intro node operations ledger status
    refine ordinary_whenever _ ((quiet_ofExcept _).then fun _ => (quiet_question _).then fun _ => ?_)
    exact commitChange_ordinary fun _ _ => transition_lineage
  have staled : Ordinary session.staleReads := by
    refine quiet_requirePlan.then fun plan => ordinary_forM fun prior => ?_
    refine (quiet_question _).then fun ledger => ordinary_whenever _ ?_
    exact (commitTransition_ordinary _ _ _).bind fun _ => (quiet_emit _ _).ordinary
  refine (quiet_check _).then fun _ => quiet_requirePlan.then fun plan => ?_
  refine (quiet_ofExcept _).then fun node => (quiet_refuseIf _ _).then fun _ => ?_
  refine (quiet_operationsOf _).then fun operations => ordinary_ite paused.ordinary ?_
  refine (quiet_question _).then fun ledger => (closed _ _ _ _).bind fun _ => ?_
  refine (quiet_cut _).then fun _ => (quiet_attempt _).then fun _ => ?_
  refine (quiet_check _).then fun _ => (quiet_cut _).then fun _ => ?_
  refine (ordinary_whenever _ staled).bind fun _ => refresh_ordinary.bind fun _ => ?_
  refine quiet_persistLongTaskState.then fun _ => (quiet_emit _ _).then fun _ => ?_
  exact quiet_checkpoint.then fun _ => (quiet_pure _).ordinary

/-! ## Recovery -/

omit [Hashing] [Decoding] in
theorem quiet_askStopped (attempt : Attempt) : Quiet (askStopped probed attempt) := by
  refine quiet_ite (quiet_question _) ?_
  unfold confirmedExited
  split
  · exact quiet_pure _
  · exact quiet_pure _
  · exact quiet_ite (quiet_pure _) ((quiet_question _).bind fun _ => quiet_pure _)

theorem startNode_ordinary (attempt : Attempt) : Ordinary (session.startNode node attempt) :=
  (quiet_question _).then fun _ => commitTransition_ordinary _ _ _

theorem restart_ordinary (attempt : Attempt) (reason : String) :
    Ordinary (session.restart report node attempt reason) :=
  (commitChange_ordinary fun _ _ => restartSafe_lineage).bind (fun _ =>
    (quiet_attempt _).then fun _ => (quiet_pure _).ordinary)

theorem adopt_ordinary (attempt : Attempt) : Ordinary (session.adopt report node attempt) := by
  have resumed : Ordinary (session.resumeNode node attempt) :=
    (ordinary_whenever _ (commitTransition_ordinary _ _ _)).bind fun _ => startNode_ordinary node attempt
  exact (ordinary_whenever _ resumed).bind (fun _ => (settle_ordinary attempt).bind (fun _ =>
    (quiet_pure _).ordinary))

theorem leaveUncertain_ordinary (node : PlanNode) (attempt : Attempt) :
    Ordinary (session.leaveUncertain report current node attempt) := by
  have lost : Ordinary (session.loseNode node attempt) :=
    (quiet_question _).then fun _ => commitTransition_ordinary _ _ _
  exact (ordinary_whenever _ (startNode_ordinary node attempt)).bind (fun _ =>
    (ordinary_whenever _ lost).bind fun _ => (quiet_pure _).ordinary)

theorem recoverAttempt_ordinary (report : RecoveryReport) (attempt : Attempt) :
    Ordinary (session.recoverAttempt probed current report attempt) := by
  have preplan : Quiet (PlanSession.recoverPreplan probed report attempt) := by
    refine (quiet_operationsOf _).bind fun _ => (quiet_askStopped _ _).bind fun _ => ?_
    exact quiet_ite ((quiet_attempt _).bind fun _ => quiet_pure _) (quiet_pure _)
  have completed : ∀ node operations stopped,
      Quiet (PlanSession.completeWrite node attempt operations stopped) := by
    intro node operations stopped
    refine quiet_ite ((quiet_question _).bind fun ledger => ?_) (quiet_pure _)
    exact quiet_ite (quiet_recordResult _ _) (quiet_pure _)
  have dispatched : ∀ node operations,
      Ordinary (session.recoverDispatched probed current report node attempt operations) := by
    intro node operations
    refine (quiet_askStopped _ _).then fun answer => (completed _ _ _).then fun held => ?_
    refine (quiet_question _).then fun ledger => ordinary_ite (adopt_ordinary _ _ _) ?_
    exact ordinary_ite (restart_ordinary _ _ _ _) (leaveUncertain_ordinary _ _ _ _)
  have planned : Ordinary (session.recoverPlanned probed current report attempt) := by
    refine quiet_currentPlan.then fun _ => (quiet_refuseIf _ _).then fun _ => ?_
    refine quiet_requirePlan.then fun plan => (quiet_refuseIf _ _).then fun _ => ?_
    refine (quiet_ofExcept _).then fun node => (quiet_refuseIf _ _).then fun _ => ?_
    refine (quiet_operationsOf _).then fun operations => ordinary_ite (quiet_pure _).ordinary ?_
    exact ordinary_ite (restart_ordinary _ _ _ _) (dispatched _ _)
  exact ordinary_ite (quiet_pure _).ordinary (ordinary_ite preplan.ordinary planned)

theorem recheckNodes_ordinary (report : RecoveryReport) : Ordinary (session.recheckNodes current report) := by
  have retired : ∀ node status, Ordinary (session.retire node status) := fun _ _ =>
    (quiet_question _).then fun _ => commitTransition_ordinary _ _ _
  have rechecked : ∀ report node, Ordinary (session.recheckNode current report node) := by
    intro report node
    refine (quiet_question _).then fun ledger => ordinary_ite (quiet_pure _).ordinary ?_
    refine ordinary_ite (quiet_journal.then fun journal => ordinary_ite (quiet_pure _).ordinary ?_) ?_
    · exact (retired _ _).bind fun _ => (quiet_pure _).ordinary
    · exact (retired _ _).bind fun _ => (quiet_pure _).ordinary
  refine quiet_currentPlan.then fun held => ?_
  cases held with
  | none => exact (quiet_pure _).ordinary
  | some plan =>
    exact (ordinary_foldlM rechecked report).bind (fun _ => refresh_ordinary.bind (fun _ =>
      quiet_requirePlan.then fun _ => (quiet_pure _).ordinary))

theorem recover_ordinary : Ordinary (session.recover probed) := by
  have verified : Quiet session.verifyCheckpoints :=
    quiet_journal.bind fun _ => appends_forM fun _ => quiet_ofExcept _
  refine quiet_journal.then fun journal => (quiet_ofExcept _).then fun _ => ?_
  refine verified.then fun _ => quiet_snapshotWorkspace.then fun current => ?_
  refine (ordinary_foldlM (recoverAttempt_ordinary probed current) _).bind fun report => ?_
  refine (recheckNodes_ordinary current report).bind fun report => ?_
  exact (quiet_emit _ _).then fun _ => quiet_checkpoint.then fun _ => (quiet_pure _).ordinary

end Methods

end PlanRuntime
end FixLoop
