import FixLoop.Governance.Phases

namespace FixLoop
namespace Governance

open Library

/-!
# The phase history as an audit trail

Every transition rebuilds the history from the entries of transitions, so it
drops the statuses that were recorded before it.
-/

/-! ## What survives -/

/-- The entries without the statuses that a transition follows. -/
def surviving : List HistoryEntry -> List HistoryEntry
  | [] => []
  | entry :: rest =>
    if entry.isTransition || !rest.any HistoryEntry.isTransition then entry :: surviving rest else surviving rest

theorem surviving_cons_suffix (entry : HistoryEntry) (rest : List HistoryEntry) :
    surviving rest <:+ surviving (entry :: rest) := by
  rw [surviving]
  split_ifs
  · exact List.suffix_cons entry _
  · exact List.suffix_refl _

variable {entries : List HistoryEntry} (state : RepairState)

variable {recent : List HistoryEntry} {entry : HistoryEntry} (call : Call) (calls : List Call)

theorem surviving_suffix (ends : recent <:+ entries) : surviving recent <:+ surviving entries := by
  obtain ⟨older, rfl⟩ := ends
  induction older with
  | nil => exact List.suffix_refl _
  | cons entry older ih => exact ih.trans (surviving_cons_suffix entry _)

theorem length_surviving_le (entries : List HistoryEntry) : (surviving entries).length ≤ entries.length := by
  induction entries with
  | nil => exact Nat.le_refl 0
  | cons entry rest ih =>
    rw [surviving]
    split_ifs
    · exact Nat.succ_le_succ ih
    · exact Nat.le_succ_of_le ih

theorem surviving_status (status : entry.isTransition = false) (entries : List HistoryEntry) :
    surviving (entries ++ [entry]) = surviving entries ++ [entry] := by
  induction entries with
  | nil => simp [surviving]
  | cons head rest ih =>
    rw [List.cons_append, surviving, surviving, List.any_append, ih]
    simp only [List.any_cons, status, List.any_nil, Bool.or_false]
    split_ifs <;> rfl

theorem surviving_transition (transition : entry.isTransition = true) (entries : List HistoryEntry) :
    surviving (entries ++ [entry]) = (surviving entries).filter HistoryEntry.isTransition ++ [entry] := by
  induction entries with
  | nil => simp [surviving, transition]
  | cons head rest ih =>
    rw [List.cons_append, surviving, surviving, List.any_append, ih]
    cases kind : head.isTransition <;> cases later : rest.any HistoryEntry.isTransition <;> simp [transition, kind]

/-- Nothing is missing exactly where no status is followed by a transition. -/
theorem surviving_eq_iff :
    surviving entries = entries <-> entries.Pairwise (fun earlier later =>
      earlier.isTransition = false -> later.isTransition = false) := by
  induction entries with
  | nil => simp [surviving]
  | cons entry rest ih =>
    rw [surviving, List.pairwise_cons, ← ih]
    cases kind : entry.isTransition with
    | true => simp
    | false =>
      by_cases later : rest.any HistoryEntry.isTransition = true
      · have shorter : surviving rest ≠ entry :: rest := by
          intro same
          have length := length_surviving_le rest
          rw [same, List.length_cons] at length
          omega
        obtain ⟨transition, member, is⟩ := List.any_eq_true.mp later
        simp only [later, Bool.not_true, Bool.or_self, Bool.false_eq_true, if_false, shorter, false_iff, not_and]
        intro all
        exact absurd (all transition member True.intro) (by simp [is])
      · have none_later := List.any_eq_false.mp (eq_false_of_ne_true later)
        simp only [later, Bool.not_false, Bool.or_true, if_true, List.cons.injEq, true_and]
        constructor
        · intro same
          exact ⟨fun other member _ => eq_false_of_ne_true (none_later other member), same⟩
        · exact fun both => both.2

/-! ## The history of a run -/

theorem recorded_append (first second : List Call) :
    recorded state (first ++ second) = recorded state first ++ recorded (machine.run state first) second := by
  induction first generalizing state with
  | nil => rfl
  | cons call rest ih =>
    rw [List.cons_append, recorded, recorded, ih, List.append_assoc]
    rfl

theorem history_step :
    (entryOf state call = [] ∧ (machine.step state call).phaseHistory = state.phaseHistory) ∨
    (∃ entry, entryOf state call = [entry] ∧ entry.isTransition = false ∧
      (machine.step state call).phaseHistory = (state.phaseHistory ++ [entry]).rtake 100) ∨
    (∃ entry, entryOf state call = [entry] ∧ entry.isTransition = true ∧
      ((machine.step state call).phaseHistory =
          state.phaseHistory.filter HistoryEntry.isTransition ++ [entry] ∨
        (machine.step state call).phaseHistory =
          (state.phaseHistory.filter HistoryEntry.isTransition ++ [entry]).rtake 100)) := by
  cases call with
  | setStatus status reason =>
    simp only [machine, entryOf, RepairState.setStatus]
    cases parsed : RepairStatus.ofValue? status with
    | none => exact .inl ⟨rfl, rfl⟩
    | some normalized =>
      by_cases same : state.status = normalized
      · simp only [if_pos same]
        exact .inl ⟨True.intro, True.intro⟩
      · simp only [if_neg same]
        exact .inr (.inl ⟨_, rfl, rfl, rfl⟩)
  | transitionPhase target =>
    refine .inr (.inr ⟨.transition (state.fsm.transition target).2, rfl, rfl, ?_⟩)
    change (state.fsm.transition target).1.history = _ ∨ (state.fsm.transition target).1.history = _
    unfold RepairPhaseFSM.transition
    cases RepairPhase.ofValue? target.toPhase with
    | none => exact .inl rfl
    | some phase => exact .inr rfl

theorem rtake_append_singleton (entries : List HistoryEntry) (entry : HistoryEntry) :
    (entries ++ [entry]).rtake 100 = entries.rtake 99 ++ [entry] := List.rtake_concat_succ entries 99 entry

theorem suffix_append (ends : recent <:+ entries) (entry : HistoryEntry) :
    recent ++ [entry] <:+ entries ++ [entry] := by
  obtain ⟨older, rfl⟩ := ends
  exact ⟨older, (List.append_assoc older recent [entry]).symm⟩

/-- The entries of the last hundred that survive stand at the end of the
history. -/
theorem surviving_step {state : RepairState} (ends : surviving (entries.rtake 100) <:+ state.phaseHistory) :
    surviving ((entries ++ entryOf state call).rtake 100) <:+ (machine.step state call).phaseHistory := by
  have fewer := (surviving_suffix (Recent.rtake_suffix_rtake (by omega : 99 ≤ 100) entries)).trans ends
  have few := length_surviving_le (entries.rtake 99)
  have counted := Recent.length_rtake 99 entries
  rcases history_step state call with ⟨nothing, same⟩ | ⟨entry, one, status, result⟩ | ⟨entry, one, transition, result⟩
  · rw [nothing, List.append_nil, same]
    exact ends
  · rw [one, rtake_append_singleton, surviving_status status, result]
    apply Recent.suffix_rtake
    · exact suffix_append fewer entry
    · rw [List.length_append, List.length_singleton]
      omega
  · rw [one, rtake_append_singleton, surviving_transition transition]
    have appended : (surviving (entries.rtake 99)).filter HistoryEntry.isTransition ++ [entry] <:+
        state.phaseHistory.filter HistoryEntry.isTransition ++ [entry] :=
      suffix_append (fewer.filter _) entry
    rcases result with result | result
    · rw [result]
      exact appended
    · rw [result]
      apply Recent.suffix_rtake _ appended
      have shorter := List.length_filter_le HistoryEntry.isTransition (surviving (entries.rtake 99))
      rw [List.length_append, List.length_singleton]
      omega

def isStatus (entry : HistoryEntry) : Bool := !entry.isTransition

/-- The history has no more statuses than were recorded after the last
transition. -/
theorem statuses_step {state : RepairState}
    (few : (state.phaseHistory.filter isStatus).length ≤ (entries.rtakeWhile isStatus).length) :
    ((machine.step state call).phaseHistory.filter isStatus).length ≤
      ((entries ++ entryOf state call).rtakeWhile isStatus).length := by
  have cut : ∀ items : List HistoryEntry, ((items.rtake 100).filter isStatus).length ≤
      (items.filter isStatus).length := fun items => ((Recent.rtake_suffix 100 items).sublist.filter isStatus).length_le
  rcases history_step state call with ⟨nothing, same⟩ | ⟨entry, one, status, result⟩ | ⟨entry, one, transition, result⟩
  · rw [nothing, List.append_nil, same]
    exact few
  · have is : isStatus entry = true := by rw [isStatus, status]; rfl
    rw [one, List.rtakeWhile_concat_pos isStatus entries entry is, result, List.length_append, List.length_singleton]
    refine Nat.le_trans (cut _) ?_
    rw [List.filter_append, List.length_append, List.filter_cons_of_pos is]
    exact Nat.succ_le_succ few
  · have is : isStatus entry = false := by rw [isStatus, transition]; rfl
    have none_left : ((state.phaseHistory.filter HistoryEntry.isTransition ++ [entry]).filter isStatus) = [] := by
      rw [List.filter_append, List.filter_cons_of_neg (by simp [is]), List.filter_filter]
      simp [isStatus]
    rcases result with result | result
    · rw [result, none_left]
      exact Nat.zero_le _
    · rw [result]
      refine Nat.le_trans (cut _) ?_
      rw [none_left]
      exact Nat.zero_le _

theorem run_history (fresh : state.phaseHistory = []) :
    surviving ((recorded state calls).rtake 100) <:+ (machine.run state calls).phaseHistory ∧
      ((machine.run state calls).phaseHistory.filter isStatus).length ≤
        ((recorded state calls).rtakeWhile isStatus).length := by
  induction calls using List.reverseRecOn with
  | nil =>
    rw [Machine.run_nil, fresh]
    exact ⟨List.suffix_refl _, Nat.zero_le _⟩
  | append_singleton calls call ih =>
    rw [recorded_append, machine.run_append, recorded, recorded, List.append_nil]
    exact ⟨surviving_step call ih.1, statuses_step call ih.2⟩

/-- Where no statuses are missing, none is followed by a transition. -/
theorem pairwise_of_statuses (older entries : List HistoryEntry)
    (complete : (entries.filter isStatus).length ≤ ((older ++ entries).rtakeWhile isStatus).length) :
    entries.Pairwise (fun earlier later => earlier.isTransition = false -> later.isTransition = false) := by
  induction entries using List.reverseRecOn with
  | nil => exact List.Pairwise.nil
  | append_singleton entries entry ih =>
    rw [← List.append_assoc, List.filter_append, List.length_append] at complete
    refine List.pairwise_append.mpr ⟨?_, List.pairwise_singleton _ _, ?_⟩
    · cases kind : entry.isTransition with
      | false =>
        have is : isStatus entry = true := by rw [isStatus, kind]; rfl
        rw [List.rtakeWhile_concat_pos isStatus _ entry is, List.length_append, List.filter_cons_of_pos is] at complete
        exact ih (Nat.le_of_succ_le_succ complete)
      | true =>
        have is : ¬ isStatus entry = true := by simp [isStatus, kind]
        rw [List.rtakeWhile_concat_neg isStatus _ entry is, List.length_nil] at complete
        have none_recorded : entries.filter isStatus = [] := List.length_eq_zero_iff.mp (by omega)
        refine List.pairwise_of_forall_mem_list fun earlier member _ _ status => ?_
        have recorded := List.filter_eq_nil_iff.mp none_recorded earlier member
        simp [isStatus, status] at recorded
    · intro earlier member later here
      rw [List.mem_singleton.mp here]
      cases kind : entry.isTransition with
      | false => exact fun _ => rfl
      | true =>
        have is : ¬ isStatus entry = true := by simp [isStatus, kind]
        rw [List.rtakeWhile_concat_neg isStatus _ entry is, List.length_nil] at complete
        have none_recorded : entries.filter isStatus = [] := List.length_eq_zero_iff.mp (by omega)
        have recorded := List.filter_eq_nil_iff.mp none_recorded earlier member
        intro status
        simp [isStatus, status] at recorded

/-- The last hundred entries are kept exactly if no status among them is
followed by a transition. -/
theorem kept_iff (fresh : state.phaseHistory = []) :
    List.Sublist ((recorded state calls).rtake 100) (machine.run state calls).phaseHistory <->
      ((recorded state calls).rtake 100).Pairwise (fun earlier later =>
        earlier.isTransition = false -> later.isTransition = false) := by
  obtain ⟨ends, few⟩ := run_history state calls fresh
  constructor
  · intro kept
    obtain ⟨older, whole⟩ := Recent.rtake_suffix 100 (recorded state calls)
    apply pairwise_of_statuses older
    rw [whole]
    exact Nat.le_trans (kept.filter isStatus).length_le few
  · intro undropped
    rw [surviving_eq_iff.mpr undropped] at ends
    exact ends.sublist

end Governance
end FixLoop
