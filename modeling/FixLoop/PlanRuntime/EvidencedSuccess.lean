import FixLoop.PlanRuntime.TerminalOutcomes

namespace FixLoop
namespace PlanRuntime

open Library Program

/-!
# Success needs evidence

A node enters a committed plan as succeeded in one way only: `settle` judges
its attempt, with every operation of the attempt settled and the completion of
the node answered by the evidence ledger.  A result of another attempt or of
another plan version does not get so far.
-/

/-- The references that a completion predicate looks at. -/
def PlanNode.references (node : PlanNode) (predicate : Completion) : List String :=
  if predicate.evidenceRefs = [] then node.outputEvidenceRefs else predicate.evidenceRefs

/-- A reference matches, and all matching ones are valid and, observations
apart, of the attempt of the node. -/
structure Satisfied (ledger : Ledger) (node : PlanNode) (predicate : Completion) : Prop where
  found : ∃ ref ∈ node.references predicate, ledger.kind ref = some predicate.kind
  valid : ∀ ref ∈ node.references predicate, ledger.kind ref = some predicate.kind ->
    ledger.valid ref = true ∧
      (predicate.kind = "observation_present" ∨ ledger.attempt ref = some node.attemptId)

/-- The operations of the attempt of a node are settled, and a ledger that is
consulted satisfies its completion. -/
structure Evidenced (Consulted : Ledger -> Prop) (operations : List Operation) (node : PlanNode) :
    Prop where
  settled : ∀ operation ∈ operations, operation.phase = .resultRecorded ∧
    operation.executionStopped = true ∧
      (operation.changedPaths = [] ∨ operation.status = "success")
  completed : ∃ ledger, Consulted ledger ∧ ∀ predicate ∈ node.completion, Satisfied ledger node predicate

theorem completion_satisfied {ledger : Ledger} {node : PlanNode}
    (complete : ledger.completion node node.outputEvidenceRefs node.attemptId = true)
    {predicate : Completion} (listed : predicate ∈ node.completion) :
    Satisfied ledger node predicate := by
  have judged := List.all_eq_true.mp complete predicate listed
  rw [Bool.and_eq_true, List.all_eq_true] at judged
  change (!((node.references predicate).filter
    (fun ref => ledger.kind ref == some predicate.kind)).isEmpty) = true ∧ _ at judged
  rcases judged with ⟨some, all⟩
  refine ⟨?_, ?_⟩
  · rw [Bool.not_eq_true', List.isEmpty_eq_false_iff] at some
    rcases List.exists_mem_of_ne_nil _ some with ⟨ref, member⟩
    rcases List.mem_filter.mp member with ⟨inside, kind⟩
    exact ⟨ref, inside, beq_iff_eq.mp kind⟩
  · intro ref inside kind
    have checked := all ref (List.mem_filter.mpr ⟨inside, beq_iff_eq.mpr kind⟩)
    simp only [Bool.and_eq_true, Bool.or_eq_true, beq_iff_eq] at checked
    exact checked

theorem judgement_succeeded {ledger : Ledger} {node : PlanNode} {attempt : Attempt}
    {operations : List Operation}
    (judged : NodeStatus.succeeded = judgement ledger node attempt operations) :
    (∀ operation ∈ operations, operation.unknown = false) ∧
      ledger.completion node attempt.result.evidenceRefs attempt.attemptId = true := by
  unfold judgement at judged
  split at judged
  · cases judged
  rename_i known
  split at judged
  · cases judged
  split at judged
  · rename_i complete
    refine ⟨?_, complete.2⟩
    intro operation member
    by_contra unknown
    exact known (Or.inl (List.any_eq_true.mpr ⟨operation, member, Bool.of_not_eq_false unknown⟩))
  · cases judged

theorem unknown_eq_false {operation : Operation} (known : operation.unknown = false) :
    operation.phase = .resultRecorded ∧ operation.executionStopped = true ∧
      (operation.changedPaths = [] ∨ operation.status = "success") := by
  rw [Operation.unknown, Bool.or_eq_false_iff, Bool.not_eq_false', Operation.settled,
    Bool.and_eq_true, decide_eq_true_eq] at known
  refine ⟨known.1.1, known.1.2, ?_⟩
  by_contra neither
  rw [not_or] at neither
  have both := known.2
  rw [decide_eq_true (show operation.changedPaths ≠ [] from neither.1),
    decide_eq_true (show operation.status ≠ "success" from neither.2)] at both
  cases both

/-- The succeeded nodes of a plan have succeeded before or with evidence. -/
def Succeeds (Consulted : Ledger -> Prop) (journal : Journal) (after : Plan) : Prop :=
  ∀ node ∈ after.nodes, node.status = .succeeded ->
    (∃ before, journal.plan? = some before ∧ node ∈ before.nodes) ∨
      Evidenced Consulted (journal.facts.operationsOf node.attemptId) node

/-- What is said of every plan that an execution commits, with the journal
that it is committed to. -/
def CommitsOnly {Result : Type} (program : SessionM Result) (answers : Answers Query Query.Reply)
    (journal : Journal) (allowed : Journal -> Plan -> Prop) : Prop :=
  ∀ before entries rest, (program.execute answers 0 journal).1 = before ++ entries :: rest ->
    ∀ after, Entry.plan after ∈ entries -> allowed (journal ++ before.flatten) after

/-- The attempt is not the current one of its node and of the plan version. -/
def Attempt.Late (journal : Journal) (attempt : Attempt) : Prop :=
  ∀ plan node, journal.plan? = some plan -> plan.node attempt.nodeId = .ok node ->
    attempt.planVersion = plan.planVersion -> node.attemptId ≠ attempt.attemptId

section Sealing

variable [Hashing] {plan after : Plan} {node : PlanNode}

theorem transition_succeeded {nodeId : String} {status : NodeStatus} {args : TransitionArgs}
    (accepted : transition plan nodeId status args = .ok after) (other : status ≠ .succeeded)
    (listed : node ∈ after.nodes) (succeeded : node.status = .succeeded) : node ∈ plan.nodes := by
  rcases transition_ok accepted with ⟨found, _, _, _, _, rfl⟩
  rcases Plan.mem_replaceNode listed with rfl | ⟨kept, _⟩
  · exact absurd succeeded other
  · exact kept

theorem refresh_succeeded {ledger : Ledger} (distinct : plan.Distinct)
    (accepted : refresh ledger plan = .ok after) (listed : node ∈ after.nodes)
    (succeeded : node.status = .succeeded) : node ∈ plan.nodes := by
  refine refresh_induction (motive := fun reached => node ∈ reached.nodes -> node ∈ plan.nodes) ?_
    distinct id accepted listed
  intro earlier later admits known member
  rcases admits.taken with ⟨target, status, args, _, _, goes, moved⟩
  refine known (transition_succeeded moved ?_ member succeeded)
  rintro rfl
  exact absurd goes (by decide)

variable [Decoding] {setting : Setting} {facts : Facts}

/-- A node succeeds when its attempt is settled with evidence. -/
theorem Setting.Move.succeeds (move : setting.Move facts plan after) (distinct : plan.Distinct)
    (listed : node ∈ after.nodes) (succeeded : node.status = .succeeded) :
    node ∈ plan.nodes ∨ Evidenced (setting.Answered .evidence) (facts.operationsOf node.attemptId) node := by
  cases move with
  | refreshed ledger accepted =>
    exact Or.inl (refresh_succeeded distinct accepted listed succeeded)
  | prepared other args calm located certain free accepted
  | readied attempt recovering opened accepted
  | started attempt now recovering opened version accepted
  | staled other args located reads accepted
  | lost attempt args recovering opened accepted
  | retired other args recovering located accepted =>
    exact Or.inl (transition_succeeded accepted (by decide) listed succeeded)
  | closed attempt old ledger status receipts now named consulted located version current judged accepted =>
    rcases transition_ok accepted with ⟨found, there, _, _, _, rfl⟩
    rcases Plan.mem_replaceNode listed with rfl | ⟨kept, _⟩
    · cases located.symm.trans there
      have status : status = .succeeded := succeeded
      subst status
      rcases judgement_succeeded judged with ⟨known, complete⟩
      refine Or.inr ⟨?_, ledger, consulted, ?_⟩
      · intro operation member
        refine unknown_eq_false (known operation ?_)
        rw [← current]
        exact member
      · intro predicate member
        refine completion_satisfied ?_ member
        change ledger.completion old attempt.result.evidenceRefs old.attemptId = true
        rw [current]
        exact complete
    · exact Or.inl kept
  | restarted attempt other reason recovering opened located unstarted unsettled lingering accepted =>
    rcases restartSafe_ok accepted with ⟨found, _, _, _, rfl⟩
    rcases Plan.mem_replaceNode listed with rfl | ⟨kept, _⟩
    · cases succeeded
    · exact Or.inl kept
  | replaced readings candidate reason evidenceRefs calm read accepted =>
    rcases replanned_ok accepted with ⟨_, valid, refreshed⟩
    rcases mem_replannedNodes (refresh_succeeded valid.distinct refreshed listed succeeded) with
      ⟨kept, _⟩ | ⟨source, _, rfl⟩
    · exact Or.inl kept
    · cases succeeded

variable {journal : Journal} {attempt : Attempt}

theorem Setting.Effect.succeeds {entries : List Entry} (effect : setting.Effect journal entries)
    (regular : journal.facts.Regular) (committed : Entry.plan after ∈ entries) :
    Succeeds (setting.Answered .evidence) journal after := by
  intro node listed succeeded
  cases effect.commits with
  | none others => cases others _ committed
  | created plan calm absent fresh valid same =>
    subst same
    cases List.mem_singleton.mp committed
    have idle := List.all_eq_true.mp fresh node listed
    simp only [PlanSession.unexecuted, Bool.and_eq_true, decide_eq_true_eq] at idle
    cases idle.1.1.1.symm.trans succeeded
  | moved before next held valid move same =>
    subst same
    cases List.mem_singleton.mp committed
    rcases move.succeeds (regular.valid before held).distinct listed succeeded with kept | shown
    · exact Or.inl ⟨before, held, kept⟩
    · exact Or.inr shown

/-- A program made of effects commits only plans that succeed with evidence. -/
theorem Setting.Makes.commitsOnly {Result : Type} {program : SessionM Result}
    {post : Result -> Journal -> Prop} (makes : setting.Makes program journal post)
    {answers : Answers Query Query.Reply}
    (answered : ∀ query reply, program.Asked answers journal query reply -> setting.Answered query reply)
    (regular : journal.facts.Regular) :
    CommitsOnly program answers journal (Succeeds (setting.Answered .evidence)) := by
  intro before entries rest split committed after
  refine (makes.permitted answered split).succeeds ?_ after
  have reached := makes.visited answered
    (fun journal _ effect (known : (Journal.facts journal).Regular) => effect.change.regular known)
    regular before.length
  unfold Program.after at reached
  rw [split, List.take_left] at reached
  exact reached

theorem settle_commitsOnly {session : PlanSession} (regular : journal.facts.Regular)
    (named : attempt.attemptId ≠ "") (answers : Answers Query Query.Reply) :
    CommitsOnly (session.settle attempt) answers journal
      (Succeeds ((session.settle attempt).Asked answers journal .evidence)) := by
  let setting : Setting :=
    ⟨session, (session.settle attempt).Asked answers journal, journal, False, False⟩
  have distinct : journal.facts.Distinct := fun plan held => (regular.valid plan held).distinct
  have given : Setting.Given setting.orderly journal.facts attempt := ⟨named, False.elim⟩
  have makes : setting.Makes (session.settle attempt) journal (fun _ later =>
      Within attempt.attemptId journal.facts later.facts) :=
    Setting.settle_makes rfl distinct named (given.closing id)
      (fun _ => given.follows id rfl False.elim False.elim)
  exact makes.commitsOnly (fun _ _ asked => asked) regular

/-- A late attempt is refused before anything is recorded. -/
theorem settle_refused {setting : Setting} (late : attempt.Late journal) :
    Program.Keeps setting.Answered (fun _ _ => False) journal (fun _ _ => False)
      (setting.session.settle attempt) := by
  refine check_then (Setting.requirePlan_keeps ?_)
  intro plan held
  refine keeps_bind.mpr (keeps_ofExcept.mpr ?_)
  intro node located
  refine keeps_bind.mpr (keeps_ofExcept.mpr ?_)
  intro _ passed
  have current := raiseIf_ok passed
  rw [not_or, not_not, not_not] at current
  exact absurd current.2 (late plan node held located current.1)

theorem settle_late {session : PlanSession} (late : attempt.Late journal)
    (answers : Answers Query Query.Reply) :
    (session.settle attempt).final answers journal = journal ∧
      ∃ fault, (session.settle attempt).outcome answers journal = .error fault := by
  let setting : Setting :=
    ⟨session, (session.settle attempt).Asked answers journal, journal, False, False⟩
  have refused : Program.Keeps setting.Answered (fun _ _ => False) journal (fun _ _ => False)
      (setting.session.settle attempt) := settle_refused late
  refine ⟨?_, refused.fails fun _ _ asked => asked⟩
  rw [Program.final]
  cases appended : ((session.settle attempt).execute answers 0 journal).1 with
  | nil => exact List.append_nil journal
  | cons entries rest =>
    have split : ((session.settle attempt).execute answers 0 journal).1 = [] ++ entries :: rest :=
      appended
    exact False.elim (refused.permitted (fun _ _ asked => asked) split)

/-- Whatever is called after any run, a node succeeds with evidence of its
attempt only; this is so for every attempt that is settled, and a late one is
refused. -/
theorem success_evidenced (session : PlanSession) (inputs : List Input) :
    let state := (runtimeMachine session).run Runtime.fresh inputs
    (∀ (call : Call) (answers : Answers Query Query.Reply),
      let program := call.program session state.memory
      CommitsOnly program answers state.journal
        (Succeeds (program.Asked answers state.journal .evidence))) ∧
    ∀ attempt answers, (attempt.attemptId ≠ "" ->
        CommitsOnly (session.settle attempt) answers state.journal
          (Succeeds ((session.settle attempt).Asked answers state.journal .evidence))) ∧
      (attempt.Late state.journal ->
        (session.settle attempt).final answers state.journal = state.journal ∧
          ∃ fault, (session.settle attempt).outcome answers state.journal = .error fault) := by
  intro state
  have reached : Reached state := runtime_reached session inputs
  refine ⟨?_, ?_⟩
  · intro call answers
    let input : Input := ⟨call, answers, none⟩
    have makes : (input.setting session state False).Makes (call.program session state.memory)
        state.journal (fun gain later => Gains False gain later.facts) :=
      program_makes reached.sound False.elim
    exact makes.commitsOnly (fun _ _ asked => asked) reached.regular
  · intro attempt answers
    exact ⟨fun named => settle_commitsOnly reached.regular named answers,
      fun late => settle_late late answers⟩

end Sealing

section ObservedRead

attribute [local instance] Hashing.alternating Decoding.emptyDict

/-- A read that reports a success with evidence. -/
def observedRead : List Input :=
  [calmly .openSession, calmly (.create readPlan), calmly (.prepare "r"),
    calmly (.toolPrepare 0 "read_file" (.obj []) none), calmly (.toolDispatch 0),
    calmly (.toolSettle 0 (.obj []) ⟨.success, "", false, 0, [], .obj [], .null⟩),
    calmly (.recordResult 0 { NodeResult.none with status := "success", evidenceRefs := ["E-1"] })]

/-- The read succeeds in the first transaction of `settle`, with evidence. -/
theorem success_evidenced_read :
    let state := (runtimeMachine readSession).run Runtime.fresh observedRead
    let program := (Call.settle 1).program readSession state.memory
    let transactions := (program.execute (knowingAnswers "observation_present") 0 state.journal).1
    transactions.head?.any (fun entries => entries.any (fun entry => entry.plan?.any (fun plan =>
      plan.nodes.any fun node => node.status = .succeeded))) = true ∧
    ∀ entries, transactions.head? = some entries -> ∀ after, Entry.plan after ∈ entries ->
      Succeeds (program.Asked (knowingAnswers "observation_present") state.journal .evidence) state.journal after := by
  refine ⟨by decide +kernel, ?_⟩
  intro entries first after committed
  have split := (List.cons_head?_tail first).symm
  have shown := (success_evidenced readSession observedRead).1 (.settle 1) (knowingAnswers "observation_present") [] entries
    _ split after committed
  rw [List.flatten_nil, List.append_nil] at shown
  exact shown

end ObservedRead

end PlanRuntime
end FixLoop
