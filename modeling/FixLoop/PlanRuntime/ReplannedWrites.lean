import FixLoop.PlanRuntime.WriteOnce

namespace FixLoop
namespace PlanRuntime

open Library Program

/-!
# Replanning preserves completed writes

`replan` decides in two passes: one over the nodes of the old plan, which
insists on its completed writes, and one over the nodes of the candidate,
which carries nodes over.  A completed write that the first pass accepts is
carried over by the second one, or both leave it out and its rollback is
confirmed.
-/

/-- The completed write is left out of the plan, and a rollback of the plan
version that ended in the current workspace stands in the journal. -/
structure RolledBack (journal : Journal) (old after : Plan) (node : PlanNode)
    (current : Snapshot) : Prop where
  absent : ∀ other ∈ after.nodes, other.nodeId ≠ node.nodeId
  reported : ∃ rollback ∈ journal.rollbacks,
    rollback.planVersion = old.planVersion ∧ rollback.completed = true ∧
      rollback.workspaceAfter = rollback.expectedAfter ∧ rollback.workspaceAfter = some current

/-! ## The two passes -/

theorem forM_ok {Item : Type} {step : Item -> Except Fault Unit} {items : List Item} {item : Item}
    (accepted : items.forM step = .ok ()) (member : item ∈ items) : step item = .ok () := by
  induction items with
  | nil => exact False.elim (List.not_mem_nil member)
  | cons first rest ih =>
    rcases bind_ok accepted with ⟨_, here, later⟩
    rcases List.mem_cons.mp member with rfl | member
    · exact here
    · exact ih later member

section Passes

variable {facts : ReplanFacts} {old candidate : Plan} {reason : String} {evidenceRefs : List String}

/-- The budget and the old nodes that the checks have accepted. -/
theorem replanGate_ok (gate : replanGate facts old candidate reason evidenceRefs = .ok ()) :
    old.planVersion ≤ maxReplans ∧
      ∀ previous ∈ old.nodes, checkPrevious facts old candidate previous = .ok () := by
  unfold replanGate at gate
  split at gate
  all_goals
    rcases bind_ok gate with ⟨_, _, gate⟩
    rcases bind_ok gate with ⟨_, budget, gate⟩
    rcases bind_ok gate with ⟨_, _, gate⟩
    rcases bind_ok gate with ⟨_, _, gate⟩
    rcases bind_ok gate with ⟨_, _, gate⟩
    rcases bind_ok gate with ⟨_, _, gate⟩
    exact ⟨not_lt.mp (raiseIf_ok budget), fun previous listed => forM_ok gate listed⟩

/-- A completed write is in the candidate, or left out after a rollback. -/
theorem checkPrevious_written {previous : PlanNode}
    (accepted : checkPrevious facts old candidate previous = .ok ()) (written : previous.written = true) :
    (candidate.lastNode? previous.nodeId).isNone = false ∨
      (candidate.lastNode? previous.nodeId).isNone = true ∧
        (facts.rollbacksOf old.planVersion).any
          (fun rollback => rollback.confirmed facts.workspace) = true := by
  rcases bind_ok accepted with ⟨_, _, kept⟩
  have required := raiseIf_ok kept
  cases absent : (candidate.lastNode? previous.nodeId).isNone with
  | false => exact Or.inl rfl
  | true =>
    refine Or.inr ⟨rfl, ?_⟩
    by_contra unconfirmed
    exact required ⟨written, fun both => unconfirmed both.1, Or.inl absent⟩

theorem lastNode?_isNone (nodeId : String) :
    (candidate.lastNode? nodeId).isNone = true <->
      ∀ node ∈ candidate.nodes, node.nodeId ≠ nodeId := by
  rw [Plan.lastNode?, Option.isNone_iff_eq_none, List.getLast?_eq_none_iff, List.filter_eq_nil_iff]
  simp only [decide_eq_true_eq, ne_eq]

/-- A completed write of the old plan stands in for a node of its name. -/
theorem carriedOver_written (distinct : old.Distinct) {previous node : PlanNode}
    (listed : previous ∈ old.nodes) (written : previous.written = true)
    (same : node.nodeId = previous.nodeId) : carriedOver facts old node = some previous := by
  have located := distinct.node_eq listed
  unfold Plan.node at located
  rw [PlanNode.written, Bool.and_eq_true, decide_eq_true_eq, decide_eq_true_eq] at written
  rw [carriedOver, same]
  cases found : old.nodes.find? (fun other => other.nodeId = previous.nodeId) with
  | none =>
    rw [found] at located
    cases located
  | some other =>
    rw [found] at located
    cases located
    rw [Option.filter_some_pos]
    rw [decide_eq_true written.2, decide_eq_true written.1, Bool.or_true, Bool.and_true]

theorem replannedNodes_nodeIds :
    (replannedNodes facts old candidate).map PlanNode.nodeId = candidate.nodes.map PlanNode.nodeId := by
  rw [replannedNodes, List.map_map]
  apply List.map_congr_left
  intro node _
  rw [Function.comp_apply]
  cases carried : carriedOver facts old node with
  | none => rfl
  | some previous =>
    have found := (Option.filter_eq_some_iff.mp carried).1
    have same := @List.find?_some _ (fun other : PlanNode => decide (other.nodeId = node.nodeId)) _ _
      found
    exact of_decide_eq_true same

/-- The plan before it is refreshed keeps the completed writes. -/
theorem mem_replannedNodes_written (distinct : old.Distinct)
    (gate : replanGate facts old candidate reason evidenceRefs = .ok ()) {node : PlanNode}
    (listed : node ∈ old.nodes) (written : node.written = true) :
    node ∈ replannedNodes facts old candidate ∨
      (∀ other ∈ candidate.nodes, other.nodeId ≠ node.nodeId) ∧
        ∃ rollback ∈ facts.rollbacksOf old.planVersion,
          rollback.confirmed facts.workspace = true := by
  rcases checkPrevious_written ((replanGate_ok gate).2 node listed) written with present | ⟨absent, undone⟩
  · have some : ¬ ∀ other ∈ candidate.nodes, other.nodeId ≠ node.nodeId := by
      rw [← lastNode?_isNone, present]
      exact Bool.false_ne_true
    rw [not_forall] at some
    rcases some with ⟨source, some⟩
    rw [Classical.not_imp, not_not] at some
    refine Or.inl (List.mem_map.mpr ⟨source, some.1, ?_⟩)
    rw [carriedOver_written distinct listed written some.2]
    rfl
  · exact Or.inr ⟨(lastNode?_isNone node.nodeId).mp absent, List.any_eq_true.mp undone⟩

end Passes

section Sealing

variable [Hashing]

/-- What an accepted replanning keeps and what it changes, with the ledger and
the workspace that it asks for. -/
structure Replanned (Asked : (query : Query) -> query.Reply -> Prop) (journal : Journal)
    (old candidate after : Plan) : Prop where
  version : after.planVersion = old.planVersion + 1
  bounded : after.planVersion ≤ maxReplans + 1
  parent : after.parentPlanChecksum = old.planChecksum
  writes : ∀ node ∈ old.nodes, node.written = true -> node ∈ after.nodes ∨
    ∃ current, Asked .snapshotWorkspace (.ok current) ∧
      RolledBack journal old after node current
  refreshed : ∃ ledger, ∃ rebuilt : Plan, Asked .evidence ledger ∧
    refresh ledger rebuilt = .ok after ∧
      rebuilt.nodes.map PlanNode.nodeId = candidate.nodes.map PlanNode.nodeId ∧
      ∀ node ∈ rebuilt.nodes, (node ∈ old.nodes ∧ node.status = .succeeded) ∨
        ∃ source ∈ candidate.nodes, node = source.reset ""

variable {setting : Setting} {journal : Journal} {facts : ReplanFacts}
  {registry : Registry} {identity : Identity} {old candidate after : Plan} {reason : String}
  {evidenceRefs : List String}

theorem refresh_parent {plan : Plan} {ledger : Ledger} (distinct : plan.Distinct)
    (accepted : refresh ledger plan = .ok after) :
    after.parentPlanChecksum = plan.parentPlanChecksum := by
  refine refresh_induction (motive := fun reached => reached.parentPlanChecksum =
    plan.parentPlanChecksum) ?_ distinct rfl accepted
  intro earlier later admits known
  rcases admits.taken with ⟨target, status, args, _, _, _, moved⟩
  rcases transition_ok moved with ⟨found, _, _, _, _, rfl⟩
  exact known

variable [Decoding]

theorem replanned_keeps (distinct : old.Distinct)
    (reported : facts.rollbacks = journal.rollbacks)
    (consulted : setting.Answered .evidence facts.ledger)
    (observed : setting.Answered .snapshotWorkspace (.ok facts.workspace))
    (accepted : replanned facts registry identity old candidate reason evidenceRefs = .ok after) :
    Replanned setting.Answered journal old candidate after := by
  rcases replanned_ok accepted with ⟨gate, valid, refreshed⟩
  have advance : Advance "" (rebuiltPlan facts old candidate reason evidenceRefs) after :=
    refresh_advance valid.distinct refreshed
  have names : after.nodes.map PlanNode.nodeId = candidate.nodes.map PlanNode.nodeId :=
    advance.nodeIds.trans replannedNodes_nodeIds
  have version : after.planVersion = old.planVersion + 1 := advance.version
  refine ⟨version, ?_, refresh_parent valid.distinct refreshed, ?_, ?_⟩
  · rw [version]
    exact Int.add_le_add_right (replanGate_ok gate).1 1
  · intro node listed written
    rcases mem_replannedNodes_written distinct gate listed written with
      kept | ⟨absent, rollback, member, confirmed⟩
    · refine Or.inl (refresh_keeps valid.distinct refreshed kept ?_)
      rw [PlanNode.written, Bool.and_eq_true, decide_eq_true_eq, decide_eq_true_eq] at written
      rw [written.2]
      decide
    · refine Or.inr ⟨facts.workspace, observed, ?_, rollback, ?_⟩
      · intro other present same
        have named : other.nodeId ∈ candidate.nodes.map PlanNode.nodeId :=
          names ▸ List.mem_map_of_mem present
        rcases List.mem_map.mp named with ⟨source, there, equal⟩
        exact absent source there (equal.trans same)
      · rcases List.mem_filter.mp member with ⟨inside, current⟩
        rw [Rollback.confirmed, Bool.and_eq_true, Bool.and_eq_true, decide_eq_true_eq,
          decide_eq_true_eq] at confirmed
        exact ⟨reported ▸ inside, of_decide_eq_true current, confirmed.1.1, confirmed.1.2, confirmed.2⟩
  · exact ⟨facts.ledger, rebuiltPlan facts old candidate reason evidenceRefs, consulted, refreshed,
      replannedNodes_nodeIds, fun node listed => mem_replannedNodes listed⟩

/-! ## The call -/

/-- The first transaction commits the plan, and the later ones commit none. -/
def Setting.Replans (setting : Setting) (candidate : Plan) (journal : Journal)
    (entries : List Entry) : Prop :=
  (journal = setting.start ∧ ∃ old after, setting.start.plan? = some old ∧ entries = [.plan after] ∧
      Replanned setting.Answered setting.start old candidate after) ∨
  (setting.start.length < journal.length ∧ ∀ entry ∈ entries, entry.plan? = none)

omit [Decoding] in
/-- The plan that is committed is the last one from then on. -/
theorem keeps_committed {Result : Type} {program : SessionM Result}
    (appends : Appends (fun entry => entry.plan? = none) program)
    (later : setting.start.length < journal.length) (held : journal.plan? = some after) :
    Program.Keeps setting.Answered (setting.Replans candidate) journal
      (fun _ last => setting.start.length < last.length ∧ Journal.plan? last = some after) program := by
  refine appends.keeps ?_ ⟨later, held⟩
  rintro journal entries quiet ⟨longer, kept⟩
  refine ⟨Or.inr ⟨longer, quiet⟩, ?_, ?_⟩
  · rw [List.length_append]
    exact Nat.lt_add_right _ longer
  · rw [Journal.plan?, Journal.filterMap_append_of_none journal quiet]
    exact kept

omit [Hashing] [Decoding] in
theorem snapshotWorkspace_then {Result : Type} {permits : List Entry -> List Entry -> Prop}
    {post : Result -> Journal -> Prop} {next : Snapshot -> SessionM Result}
    (rest : ∀ current, setting.Answered .snapshotWorkspace (.ok current) ->
      Program.Keeps setting.Answered permits journal post (next current)) :
    Program.Keeps setting.Answered permits journal post (snapshotWorkspace >>= next) := by
  refine keeps_bind.mpr ?_
  intro reply asked
  refine keeps_ofExcept.mpr ?_
  rintro current rfl
  exact rest current asked

theorem commit_replans (replans : setting.Replans candidate journal [.plan after])
    (start : setting.start.length ≤ journal.length) :
    Program.Keeps setting.Answered (setting.Replans candidate) journal
      (fun _ later => setting.start.length < later.length ∧ Journal.plan? later = some after)
      (setting.session.commit after) := by
  refine check_then (check_then (keeps_bind.mpr (keeps_ofExcept.mpr ?_)))
  intro _ _
  refine keeps_bind.mpr (keeps_bind.mpr (keeps_ofExcept.mpr ?_))
  intro _ _
  refine ⟨replans, keeps_committed (appends_cut _) ?_ (Journal.plan?_append_plan journal after)⟩
  rw [List.length_append]
  exact Nat.lt_succ_of_le start

theorem replan_replans (start : setting.start = journal)
    (valid : ∀ plan, journal.plan? = some plan -> plan.Valid) :
    Program.Keeps setting.Answered (setting.Replans candidate) journal
      (fun after later => setting.start.length < later.length ∧ Journal.plan? later = some after)
      (setting.session.replan candidate reason evidenceRefs) := by
  refine check_then (Setting.requirePlan_keeps ?_)
  intro old held
  refine keeps_bind.mpr (keeps_bind.mpr ?_)
  intro ledger consulted
  refine snapshotWorkspace_then ?_
  intro current observed
  refine keeps_bind.mpr (keeps_ofExcept.mpr ?_)
  intro after accepted
  have replanned : Replanned setting.Answered journal old candidate after :=
    replanned_keeps (valid old held).distinct rfl consulted observed accepted
  refine Keeps.bind (commit_replans (Or.inl ⟨start.symm, old, after, start ▸ held, rfl,
    start ▸ replanned⟩) (start ▸ Nat.le_refl _)) ?_
  rintro _ later ⟨longer, kept⟩
  refine Keeps.bind (keeps_committed (appends_emit setting.session (fun _ _ => rfl) _ _) longer kept) ?_
  rintro _ later ⟨longer, kept⟩
  refine Keeps.bind (keeps_committed (appends_checkpoint setting.session (fun _ => rfl)
    (fun _ => rfl)) longer kept) ?_
  exact fun _ _ reached => reached

/-- Either `replan` raises and the journal is as it was, or its first
transaction commits a plan that keeps the completed writes; it commits no
other plan, and if it returns, it returns that one. -/
theorem replanned_writes_kept (session : PlanSession) (journal : Journal)
    (valid : ∀ plan, journal.plan? = some plan -> plan.Valid) (candidate : Plan) (reason : String)
    (evidenceRefs : List String) (answers : Answers Query Query.Reply) :
    let program := session.replan candidate reason evidenceRefs
    (program.final answers journal = journal ∧
      ∃ fault, program.outcome answers journal = .error fault) ∨
    ∃ old after rest, journal.plan? = some old ∧
      (program.execute answers 0 journal).1 = [.plan after] :: rest ∧
      (∀ entries ∈ rest, ∀ entry ∈ entries, entry.plan? = none) ∧
      (∀ plan, program.outcome answers journal = .ok plan -> plan = after) ∧
      Replanned (program.Asked answers journal) journal old candidate after := by
  intro program
  let setting : Setting := ⟨session, program.Asked answers journal, journal, False, False⟩
  have keeps : Program.Keeps setting.Answered (setting.Replans candidate) journal
      (fun after later => setting.start.length < later.length ∧ Journal.plan? later = some after)
      program := replan_replans rfl valid
  have returned : ∀ plan, program.outcome answers journal = .ok plan ->
      journal.length < (program.final answers journal).length ∧
        Journal.plan? (program.final answers journal) = some plan :=
    fun plan ended => keeps.returned (fun _ _ asked => asked) ended
  cases transactions : (program.execute answers 0 journal).1 with
  | nil =>
    have unchanged : program.final answers journal = journal := by
      rw [Program.final, transactions]
      exact List.append_nil journal
    refine Or.inl ⟨unchanged, ?_⟩
    cases ended : program.outcome answers journal with
    | error fault => exact ⟨fault, rfl⟩
    | ok plan =>
      have longer := (returned plan ended).1
      rw [unchanged] at longer
      exact absurd longer (Nat.lt_irrefl _)
  | cons first rest =>
    have head := keeps.permitted (fun _ _ asked => asked)
      (show (program.execute answers 0 journal).1 = [] ++ first :: rest from transactions)
    rw [List.flatten_nil, List.append_nil] at head
    rcases head with ⟨_, old, after, held, rfl, replanned⟩ | ⟨longer, _⟩
    · have quiet : ∀ entries ∈ rest, ∀ entry ∈ entries, entry.plan? = none := by
        intro entries member
        rcases List.append_of_mem member with ⟨middle, last, split⟩
        have later := keeps.permitted (fun _ _ asked => asked)
          (show (program.execute answers 0 journal).1 = ([.plan after] :: middle) ++ entries :: last
            by rw [transactions, split]; rfl)
        rcases later with ⟨same, _⟩ | ⟨_, silent⟩
        · have nothing := List.append_right_eq_self.mp same
          cases nothing
        · exact silent
      refine Or.inr ⟨old, after, rest, held, rfl, quiet, ?_, replanned⟩
      intro plan ended
      have last := (returned plan ended).2
      have silent : ∀ entry ∈ rest.flatten, entry.plan? = none := by
        intro entry member
        rcases List.mem_flatten.mp member with ⟨entries, listed, inside⟩
        exact quiet entries listed entry inside
      rw [Program.final, transactions, List.flatten_cons, ← List.append_assoc, Journal.plan?,
        Journal.filterMap_append_of_none _ silent] at last
      exact Option.some.inj (last.symm.trans (Journal.plan?_append_plan journal after))
    · exact absurd longer (Nat.lt_irrefl _)

end Sealing

section KeptWrite

attribute [local instance] Hashing.alternating Decoding.emptyDict

/-- A write that succeeds with its patch. -/
def completedWrite : List Input :=
  [calmly .openSession, calmly (.create writePlan), calmly (.prepare "w"),
    calmly (.recordResult 0 { NodeResult.none with status := "success", evidenceRefs := ["E-1"] }),
    ⟨.settle 1, knowingAnswers "patch_applied", none⟩]

/-- The plan is replaced by one with the same write. -/
theorem replanned_write_kept :
    let journal := ((runtimeMachine writeSession).run Runtime.fresh completedWrite).journal
    let program := writeSession.replan writePlan "more" ["E-1"]
    ∃ old after, journal.plan? = some old ∧
      old.nodes.any PlanNode.written = true ∧
      Replanned (program.Asked (knowingAnswers "patch_applied") journal) journal old writePlan after := by
  intro journal program
  have reached : Reached ((runtimeMachine writeSession).run Runtime.fresh completedWrite) :=
    runtime_reached writeSession completedWrite
  have accepted : (program.outcome (knowingAnswers "patch_applied") journal).isOk = true := by
    decide +kernel
  have wrote : journal.plan?.all (fun plan => plan.nodes.any PlanNode.written) = true := by
    decide +kernel
  rcases replanned_writes_kept writeSession journal reached.regular.valid writePlan "more" ["E-1"]
    (knowingAnswers "patch_applied") with ⟨_, fault, raised⟩ | ⟨old, after, _, held, _, _, _, replanned⟩
  · rw [show program.outcome (knowingAnswers "patch_applied") journal = .error fault from raised]
      at accepted
    cases accepted
  · rw [held] at wrote
    exact ⟨old, after, held, wrote, replanned⟩

end KeptWrite

end PlanRuntime
end FixLoop
