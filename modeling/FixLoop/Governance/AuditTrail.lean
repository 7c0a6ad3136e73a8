import FixLoop.Governance.PhaseHistory

namespace FixLoop
namespace Governance

open Library

/-!
# The audit trail of a repair

What the history of a repair says of its calls: which entries are kept, which
phase they lead to, and along which edges.
-/

/-! ## Replaying the history -/

/-- The phase after the valid entries of transitions. -/
def replayed (phase : String) : List HistoryEntry -> String
  | [] => phase
  | .status .. :: rest => replayed phase rest
  | .transition transition :: rest => replayed (if transition.valid then transition.toPhase else phase) rest

theorem replayed_append (phase : String) (first second : List HistoryEntry) :
    replayed phase (first ++ second) = replayed (replayed phase first) second := by
  induction first generalizing phase with
  | nil => rfl
  | cons entry rest ih =>
    cases entry with
    | status fromStatus toStatus reason revision => exact ih phase
    | transition transition => exact ih _

theorem replayed_filter (phase : String) (entries : List HistoryEntry) :
    replayed phase (entries.filter HistoryEntry.isTransition) = replayed phase entries := by
  induction entries generalizing phase with
  | nil => rfl
  | cons entry rest ih =>
    cases entry with
    | status fromStatus toStatus reason revision => exact ih phase
    | transition transition => exact ih _

/-- The call cuts entries off the history. -/
def Cuts (state : RepairState) : Call -> Prop
  | .setStatus status reason =>
    entryOf state (.setStatus status reason) ≠ [] ∧ 100 ≤ state.phaseHistory.length
  | .transitionPhase target =>
    (RepairPhase.ofValue? target.toPhase).isSome = true ∧
      100 ≤ (state.phaseHistory.filter HistoryEntry.isTransition).length

theorem value_of_ofValue? {value : String} {phase : RepairPhase} (found : RepairPhase.ofValue? value = some phase) :
    phase.value = value := by
  have same := List.find?_some found
  exact eq_of_beq same

variable (state : RepairState) {call : Call} (fsm : RepairPhaseFSM)

theorem transition_phase (target : Target) :
    (state.transitionPhase target).phase.value =
      if (state.fsm.transition target).2.valid then (state.fsm.transition target).2.toPhase else state.phase.value := by
  simp only [RepairState.transitionPhase]
  split_ifs with valid
  · unfold RepairPhaseFSM.transition at valid ⊢
    cases parsed : RepairPhase.ofValue? target.toPhase with
    | none =>
      simp only [parsed, Bool.false_eq_true] at valid
    | some phase =>
      simp only [parsed]
      exact value_of_ofValue? parsed
  · rfl

theorem replayed_step {state : RepairState} {phase : String}
    (same : replayed phase state.phaseHistory = state.phase.value) (uncut : ¬ Cuts state call) :
    replayed phase (machine.step state call).phaseHistory = (machine.step state call).phase.value := by
  cases call with
  | setStatus status reason =>
    simp only [Cuts, entryOf] at uncut
    simp only [machine, RepairState.setStatus]
    cases parsed : RepairStatus.ofValue? status with
    | none => exact same
    | some normalized =>
      by_cases unchanged : state.status = normalized
      · simp only [if_pos unchanged]
        exact same
      · simp only [parsed, if_neg unchanged] at uncut
        have short : state.phaseHistory.length < 100 := by
          by_contra long
          exact uncut ⟨List.cons_ne_nil _ _, Nat.le_of_not_lt long⟩
        simp only [if_neg unchanged]
        rw [Recent.rtake_of_length_le, replayed_append]
        · exact same
        · rw [List.length_append, List.length_singleton]
          omega
  | transitionPhase target =>
    change replayed phase (state.fsm.transition target).1.history = (state.transitionPhase target).phase.value
    have result : (state.fsm.transition target).1.history =
        state.phaseHistory.filter HistoryEntry.isTransition ++
          [.transition (state.fsm.transition target).2] := by
      unfold RepairPhaseFSM.transition
      cases parsed : RepairPhase.ofValue? target.toPhase with
      | none => rfl
      | some found =>
        have short : (state.phaseHistory.filter HistoryEntry.isTransition).length < 100 := by
          by_contra long
          exact uncut ⟨by rw [parsed]; rfl, Nat.le_of_not_lt long⟩
        apply Recent.rtake_of_length_le
        rw [List.length_append, List.length_singleton]
        exact short
    rw [result, replayed_append, replayed_filter, same, transition_phase]
    rfl

theorem run_replayed {start : RepairState} (calls : List Call) (fresh : start.phaseHistory = [])
    (uncut : machine.Along (fun state call => ¬ Cuts state call) start calls) :
    replayed start.phase.value (machine.run start calls).phaseHistory = (machine.run start calls).phase.value := by
  have initially : replayed start.phase.value start.phaseHistory = start.phase.value := by rw [fresh]; rfl
  have preserved : ∀ state call, replayed start.phase.value state.phaseHistory = state.phase.value ->
      ¬ Cuts state call ->
      replayed start.phase.value (machine.step state call).phaseHistory = (machine.step state call).phase.value :=
    fun state call same uncut => replayed_step same uncut
  exact machine.invariant_along preserved initially calls uncut

/-! ## The edges of the history -/

/-- The call asks for a recovery and is allowed one; this is what it records. -/
def Recovers (state : RepairState) (call : Call) (transition : PhaseTransition) : Prop :=
  ∃ target, call = .transitionPhase target ∧ target.allowRecovery = true ∧
    target.toPhase = "recovery" ∧ transition = (state.fsm.transition target).2

theorem transition_fromPhase (target : Target) : (fsm.transition target).2.fromPhase = fsm.phase := by
  unfold RepairPhaseFSM.transition
  cases RepairPhase.ofValue? target.toPhase <;> rfl

theorem transition_toPhase (target : Target) : (fsm.transition target).2.toPhase = target.toPhase := by
  unfold RepairPhaseFSM.transition
  cases RepairPhase.ofValue? target.toPhase <;> rfl

theorem allows_of_valid {fsm : RepairPhaseFSM} {target : Target} (valid : (fsm.transition target).2.valid = true) :
    target.toPhase ∈ allowedFrom fsm.phase ∨ (target.allowRecovery = true ∧ target.toPhase = "recovery") := by
  have allows : fsm.allows target = true := by
    unfold RepairPhaseFSM.transition at valid
    cases parsed : RepairPhase.ofValue? target.toPhase with
    | none => simp only [parsed, Bool.false_eq_true] at valid
    | some phase =>
      rw [parsed] at valid
      exact valid
  simpa [RepairPhaseFSM.allows] using allows

def Remembers (state : RepairState) (transition : PhaseTransition) : Prop :=
  HistoryEntry.transition transition ∈ state.phaseHistory

/-- A transition of the history was there before the call, or is the one that
the call attempts. -/
theorem remembers_step (call : Call) (transition : PhaseTransition)
    (member : Remembers (machine.step state call) transition) :
    Remembers state transition ∨ HistoryEntry.transition transition ∈ entryOf state call := by
  unfold Remembers at member ⊢
  have split : ∀ entry kept, HistoryEntry.transition transition ∈ kept ++ [entry] -> kept ⊆ state.phaseHistory ->
      HistoryEntry.transition transition ∈ state.phaseHistory ∨ HistoryEntry.transition transition ∈ [entry] := by
    intro entry kept member within
    exact (List.mem_append.mp member).imp_left fun old => within old
  rcases history_step state call with ⟨nothing, same⟩ | ⟨entry, one, status, result⟩ | ⟨entry, one, is, result⟩
  · rw [same] at member
    exact .inl member
  · rw [result] at member
    rw [one]
    exact split entry _ (Recent.mem_of_mem_rtake 100 member) (List.Subset.refl _)
  · rw [one]
    rcases result with result | result
    · rw [result] at member
      exact split entry _ member (List.filter_subset_self _)
    · rw [result] at member
      exact split entry _ (Recent.mem_of_mem_rtake 100 member) (List.filter_subset_self _)

theorem call_of_mem_entryOf {state : RepairState} {transition : PhaseTransition}
    (member : HistoryEntry.transition transition ∈ entryOf state call) :
    ∃ target, call = .transitionPhase target ∧ transition = (state.fsm.transition target).2 := by
  cases call with
  | setStatus status reason =>
    rw [entryOf] at member
    cases parsed : RepairStatus.ofValue? status with
    | none => simp [parsed] at member
    | some normalized =>
      by_cases unchanged : state.status = normalized <;> simp [parsed, unchanged] at member
  | transitionPhase target =>
    rw [entryOf, List.mem_singleton, HistoryEntry.transition.injEq] at member
    exact ⟨target, rfl, member⟩

/-- A valid transition of the history of a run follows the table, or a call of
the run recovered by it. -/
theorem run_edges (start : RepairState) (calls : List Call) (fresh : start.phaseHistory = [])
    (transition : PhaseTransition) (member : Remembers (machine.run start calls) transition)
    (valid : transition.valid = true) :
    transition.toPhase ∈ allowedFrom transition.fromPhase ∨
      ∃ before call rest, calls = before ++ call :: rest ∧
        Recovers (machine.run start before) call transition := by
  rcases machine.traced_run remembers_step start calls transition member with old | ⟨before, call, rest, split, made⟩
  · rw [Remembers, fresh] at old
    exact absurd old (List.not_mem_nil)
  · obtain ⟨target, isCall, recordedIs⟩ := call_of_mem_entryOf made
    rw [recordedIs] at valid
    rcases allows_of_valid valid with edge | ⟨allowed, recovery⟩
    · left
      rw [recordedIs, transition_fromPhase, transition_toPhase]
      exact edge
    · exact .inr ⟨before, call, rest, split, target, isCall, allowed, recovery, recordedIs⟩

/-- A repair that is over is opened again by a recovery only, which its history
then records. -/
theorem left_by_recovery {state : RepairState} (final : state.phase = .done ∨ state.phase = .failed)
    (left : (machine.step state call).phase ≠ state.phase) :
    ∃ transition, Recovers state call transition ∧ transition.valid = true ∧
      Remembers (machine.step state call) transition := by
  cases call with
  | setStatus status reason =>
    refine absurd ?_ left
    simp only [machine, RepairState.setStatus]
    cases RepairStatus.ofValue? status with
    | none => rfl
    | some normalized => by_cases same : state.status = normalized <;> simp [same]
  | transitionPhase target =>
    have valid : (state.fsm.transition target).2.valid = true := by
      by_contra invalid
      exact left (if_neg invalid)
    have closed : allowedFrom state.fsm.phase = [] := by
      change allowedFrom state.phase.value = []
      rcases final with final | final <;> rw [final] <;> rfl
    have recovery : target.allowRecovery = true ∧ target.toPhase = "recovery" := by
      rcases allows_of_valid valid with edge | recovery
      · rw [closed] at edge
        exact absurd edge List.not_mem_nil
      · exact recovery
    refine ⟨_, ⟨target, rfl, recovery.1, recovery.2, rfl⟩, valid, ?_⟩
    unfold Remembers
    rcases history_step state (.transitionPhase target) with ⟨none_recorded, _⟩ | ⟨entry, one, _, result⟩ |
        ⟨entry, one, _, result⟩
    · exact absurd none_recorded (List.cons_ne_nil _ _)
    · have same : entry = HistoryEntry.transition (state.fsm.transition target).2 :=
        (List.head_eq_of_cons_eq one).symm
      rw [result, rtake_append_singleton, same]
      exact List.mem_append_right _ List.mem_cons_self
    · have same : entry = HistoryEntry.transition (state.fsm.transition target).2 :=
        (List.head_eq_of_cons_eq one).symm
      rcases result with result | result
      · rw [result, same]
        exact List.mem_append_right _ List.mem_cons_self
      · rw [result, rtake_append_singleton, same]
        exact List.mem_append_right _ List.mem_cons_self

/-! ## A faithful audit trail -/

/-- A state with an empty history. -/
def created (phase : RepairPhase) (status : RepairStatus) (stateRevision phaseRevision : Int) : RepairState :=
  { phase, status, stateRevision, phaseRevision }

structure Faithful (start : RepairState) (calls : List Call) : Prop where
  kept : List.Sublist ((recorded start calls).rtake 100) (machine.run start calls).phaseHistory
  replays : machine.Along (fun state call => ¬ Cuts state call) start calls ->
    replayed start.phase.value (machine.run start calls).phaseHistory = (machine.run start calls).phase.value
  edges : ∀ transition, Remembers (machine.run start calls) transition -> transition.valid = true ->
    transition.toPhase ∈ allowedFrom transition.fromPhase ∨
      ∃ before call rest, calls = before ++ call :: rest ∧
        Recovers (machine.run start before) call transition
  terminal : machine.Along (fun state call => (state.phase = .done ∨ state.phase = .failed) ->
    (machine.step state call).phase ≠ state.phase ->
      ∃ transition, Recovers state call transition ∧ transition.valid = true ∧
        Remembers (machine.step state call) transition) start calls

/-- What the calls record, from their arguments and the first status alone:
`true` for an attempt to move to a phase, `false` for a change of the status. -/
def kinds (status : RepairStatus) : List Call -> List Bool
  | [] => []
  | .transitionPhase _ :: rest => true :: kinds status rest
  | .setStatus value _ :: rest =>
    match RepairStatus.ofValue? value with
    | none => kinds status rest
    | some normalized => if status = normalized then kinds status rest else false :: kinds normalized rest

theorem recorded_kinds (calls : List Call) :
    (recorded state calls).map HistoryEntry.isTransition = kinds state.status calls := by
  induction calls generalizing state with
  | nil => rfl
  | cons call rest ih =>
    rw [recorded, List.map_append, ih]
    cases call with
    | transitionPhase target => rfl
    | setStatus value reason =>
      rw [kinds]
      simp only [entryOf, machine, RepairState.setStatus]
      cases parsed : RepairStatus.ofValue? value with
      | none => rfl
      | some normalized =>
        by_cases same : state.status = normalized
        · simp only [if_pos same]
          rfl
        · simp only [if_neg same]
          rfl

/-- Among the last hundred things recorded, no change of the status comes
before an attempt to move to a phase. -/
def StatusesLast (status : RepairStatus) (calls : List Call) : Prop :=
  ((kinds status calls).rtake 100).Pairwise fun earlier later => earlier = false -> later = false

instance (status : RepairStatus) (calls : List Call) : Decidable (StatusesLast status calls) :=
  inferInstanceAs (Decidable (List.Pairwise _ _))

theorem history_faithful (phase : RepairPhase) (status : RepairStatus) (stateRevision phaseRevision : Int)
    (calls : List Call) :
    Faithful (created phase status stateRevision phaseRevision) calls <-> StatusesLast status calls := by
  have kept := kept_iff (created phase status stateRevision phaseRevision) calls rfl
  have same : StatusesLast status calls <->
      ((recorded (created phase status stateRevision phaseRevision) calls).rtake 100).Pairwise (fun earlier later =>
        earlier.isTransition = false -> later.isTransition = false) := by
    unfold StatusesLast
    rw [← List.pairwise_map (f := HistoryEntry.isTransition)
      (R := fun earlier later : Bool => earlier = false -> later = false), Recent.map_rtake, recorded_kinds]
    exact Iff.rfl
  constructor
  · exact fun faithful => same.mpr (kept.mp faithful.kept)
  · intro last
    exact
      { kept := kept.mpr (same.mp last)
        replays := run_replayed calls rfl
        edges := run_edges _ calls rfl
        terminal := machine.along_of_forall (fun _ _ final left => left_by_recovery final left) _ calls }

/-- A status that was set is gone from the history after the next transition. -/
theorem status_entry_dropped : ¬ ∀ phase status stateRevision phaseRevision calls,
    Faithful (created phase status stateRevision phaseRevision) calls := by
  intro always
  have faithful := always .localize .pending 0 0
    [.setStatus "pending_verify" "", .transitionPhase { toPhase := "context", time := 0 }]
  have fits := faithful.kept.length_le
  revert fits
  decide

end Governance
end FixLoop
