import Mathlib.Data.Int.Interval
import FixLoop.Progress.Redelivery

namespace FixLoop
namespace Progress

open Library

/-!
# Replaying a stored log

A replay reads the events from the records of a log and says whether the log
can be complete.
-/

/-- The event of a record: its payload, or the record itself. -/
def eventOf (raw : Json) : Option Json :=
  match raw with
  | .obj _ =>
    match (raw.get? "payload").getD raw with
    | .obj members => some (.obj members)
    | _ => none
  | _ => none

/-- The progress and the events that were applied. -/
def deliver (state : TurnProgress × List Json) (raw : Json) : TurnProgress × List Json :=
  match eventOf raw with
  | some event => (state.1.apply event, state.2 ++ [event])
  | none => ({ state.1 with incomplete := true }, state.2)

/-- The turn and the number of an event that gives both. -/
def positionOf (event : Json) : Option (String × Int) :=
  match event.get? "turn_id", event.get? "event_seq" with
  | some (.str turnId), some (.int seq) => if 0 < seq then some (turnId, seq) else none
  | _, _ => none

/-- The numbers of the events of each turn. -/
def domains (events : List Json) : List (String × List Int) :=
  Projection.ofLog (fun position : String × Int => some position.1) [] (fun position seqs => seqs.insert position.2)
    (events.filterMap positionOf)

/-- The numbers are not those from one to the end. -/
def gapped (expectedSeq : Option Json) (sequences : List Int) : Bool :=
  let highest := sequences.max?.getD 0
  match expectedSeq.getD (.int highest) with
  | .int last => last < 1 || sequences.length != last || highest != last
  | _ => true

def replayProgress (events : List Json) (expectedSeq : Option Json) : Snapshot :=
  let delivered := events.foldl deliver ({}, [])
  let domains := domains delivered.2
  { delivered.1 with
    incomplete := delivered.1.incomplete || domains.isEmpty || domains.any (fun item => gapped expectedSeq item.2) }.snapshot

/-- The valid event of a record. -/
def reading (raw : Json) : Option Event := (eventOf raw).bind Event.parse

theorem deliver_events (events : List Json) (state : TurnProgress × List Json) :
    (events.foldl deliver state).2 = state.2 ++ events.filterMap eventOf := by
  induction events generalizing state with
  | nil => exact (List.append_nil _).symm
  | cons raw rest ih =>
    rw [List.foldl_cons, ih, deliver, List.filterMap_cons]
    cases eventOf raw with
    | none => rfl
    | some event => exact List.append_assoc _ _ _

theorem deliver_incomplete (events : List Json) (state : TurnProgress × List Json) :
    (events.foldl deliver state).1.incomplete =
      (state.1.incomplete || events.any fun raw => (reading raw).isNone) := by
  induction events generalizing state with
  | nil => exact (Bool.or_false _).symm
  | cons raw rest ih =>
    rw [List.foldl_cons, ih, deliver, List.any_cons, ← Bool.or_assoc]
    congr 1
    cases given : eventOf raw with
    | none => simp [reading, given]
    | some event =>
      cases parsed : Event.parse event <;> simp [TurnProgress.apply, reading, given, parsed]

theorem positionOf_of_parse {raw : Json} {event : Event} (parsed : Event.parse raw = some event) :
    positionOf raw = some (event.turnId, event.eventSeq) := by
  have positive := Event.eventSeq_pos parsed
  unfold Event.parse at parsed
  split at parsed
  · rename_i turnId seq kind batchId callId isTurn isSeq _ _ _
    split_ifs at parsed
    cases parsed
    rw [positionOf, isTurn, isSeq]
    exact if_pos positive
  · cases parsed

theorem mem_value_insert (positions : List (String × Int)) (seq : Int) :
    seq ∈ Projection.value [] (fun position seqs => seqs.insert position.2) positions <->
      ∃ position ∈ positions, position.2 = seq := by
  induction positions using List.reverseRecOn with
  | nil => simp [Projection.value]
  | append_singleton positions position ih =>
    rw [Projection.value_append_singleton, List.mem_insert_iff, ih]
    simp only [List.mem_append, List.mem_singleton]
    constructor
    · rintro (rfl | ⟨other, member, same⟩)
      · exact ⟨position, .inr rfl, rfl⟩
      · exact ⟨other, .inl member, same⟩
    · rintro ⟨other, member | rfl, same⟩
      · exact .inr ⟨other, member, same⟩
      · exact .inl same.symm

theorem nodup_value_insert (positions : List (String × Int)) :
    (Projection.value [] (fun position seqs => seqs.insert position.2) positions).Nodup := by
  induction positions using List.reverseRecOn with
  | nil => exact List.nodup_nil
  | append_singleton positions position ih =>
    rw [Projection.value_append_singleton]
    exact ih.insert

variable {sequences : List Int} {events : List Json}

/-- Without an expected number, the numbers of a turn have no gap exactly if
they are the first so many. -/
theorem gapped_none (nodup : sequences.Nodup) (positive : ∀ seq ∈ sequences, 0 < seq)
    (nonempty : sequences ≠ []) :
    gapped none sequences = false <->
      ∃ last : Int, ∀ seq, seq ∈ sequences <-> 1 ≤ seq ∧ seq ≤ last := by
  obtain ⟨highest, found⟩ : ∃ highest, sequences.max? = some highest := by
    cases given : sequences.max? with
    | none => exact absurd (List.max?_eq_none_iff.mp given) nonempty
    | some highest => exact ⟨highest, rfl⟩
  obtain ⟨member, above⟩ := List.max?_eq_some_iff.mp found
  have card : sequences.toFinset.card = sequences.length := List.toFinset_card_of_nodup nodup
  have within : sequences.toFinset ⊆ Finset.Icc 1 highest := by
    intro seq listed
    have here := List.mem_toFinset.mp listed
    exact Finset.mem_Icc.mpr ⟨positive seq here, above seq here⟩
  have positiveHighest := positive highest member
  have size : (Finset.Icc 1 highest).card = highest.toNat := by
    rw [Int.card_Icc]
    congr 1
    omega
  have unfolded : gapped none sequences = false <-> (sequences.length : Int) = highest := by
    simp only [gapped, found, Option.getD_none, Option.getD_some, Bool.or_eq_false_iff, decide_eq_false_iff_not,
      bne_eq_false_iff_eq, and_true]
    omega
  rw [unfolded]
  constructor
  · intro counted
    have same : sequences.toFinset = Finset.Icc 1 highest := by
      apply Finset.eq_of_subset_of_card_le within
      rw [card, size]
      omega
    refine ⟨highest, fun seq => ?_⟩
    rw [← List.mem_toFinset, same, Finset.mem_Icc]
  · rintro ⟨last, exactly⟩
    have same : sequences.toFinset = Finset.Icc 1 last := by
      ext seq
      rw [List.mem_toFinset, exactly, Finset.mem_Icc]
    have ends : highest = last := by
      have upper := ((exactly highest).mp member).2
      have lower := above last ((exactly last).mpr ⟨by omega, le_refl last⟩)
      omega
    rw [← card, same, ← ends, size]
    omega

/-! ## Order and copies -/

/-- The numbers of the turn are those from one to some last one. -/
def Unbroken (events : List Json) (turnId : String) : Prop :=
  ∃ last : Int, ∀ seq,
    (∃ raw event, raw ∈ events ∧ reading raw = some event ∧ event.turnId = turnId ∧
      event.eventSeq = seq) <-> 1 ≤ seq ∧ seq ≤ last

theorem filterMap_positionOf (well : ∀ raw ∈ events, (reading raw).isSome = true) :
    (events.filterMap eventOf).filterMap positionOf =
      (events.filterMap reading).map (fun event => (event.turnId, event.eventSeq)) := by
  induction events with
  | nil => rfl
  | cons raw rest ih =>
    obtain ⟨event, read⟩ := Option.isSome_iff_exists.mp (well raw List.mem_cons_self)
    obtain ⟨inner, given, parsed⟩ := Option.bind_eq_some_iff.mp read
    rw [List.filterMap_cons_some given, List.filterMap_cons_some (positionOf_of_parse parsed),
      List.filterMap_cons_some read, List.map_cons, ih fun other member => well other (List.mem_cons_of_mem _ member)]

/-- The numbers that a replay finds for a turn. -/
theorem lookup_domains (well : ∀ raw ∈ events, (reading raw).isSome = true) {turnId : String}
    (found : Projection.lookup turnId (domains (events.filterMap eventOf)) = some sequences) :
    sequences ≠ [] ∧ sequences.Nodup ∧ ∀ seq, seq ∈ sequences <->
      ∃ raw event, raw ∈ events ∧ reading raw = some event ∧ event.turnId = turnId ∧
        event.eventSeq = seq := by
  rw [domains, Projection.lookup_ofLog, filterMap_positionOf well] at found
  split_ifs at found with empty
  obtain ⟨position, member⟩ := List.exists_mem_of_ne_nil _ empty
  have value := (Option.some.inj found).symm
  subst value
  refine ⟨List.ne_nil_of_mem ((mem_value_insert _ _).mpr ⟨position, member, rfl⟩), nodup_value_insert _, ?_⟩
  intro seq
  rw [mem_value_insert]
  constructor
  · rintro ⟨⟨turn, number⟩, here, same⟩
    obtain ⟨listed, concerns⟩ := Projection.mem_about.mp here
    obtain ⟨event, read, equal⟩ := List.mem_map.mp listed
    obtain ⟨raw, there, given⟩ := List.mem_filterMap.mp read
    rw [← equal] at concerns same
    exact ⟨raw, event, there, given, Option.some.inj concerns, same⟩
  · rintro ⟨raw, event, there, given, turn, same⟩
    refine ⟨(event.turnId, event.eventSeq), Projection.mem_about.mpr ⟨?_, congrArg some turn⟩, same⟩
    exact List.mem_map_of_mem (List.mem_filterMap.mpr ⟨raw, there, given⟩)

theorem lookup_domains_isSome (well : ∀ raw ∈ events, (reading raw).isSome = true) {raw : Json}
    {event : Event} (member : raw ∈ events) (read : reading raw = some event) :
    (Projection.lookup event.turnId (domains (events.filterMap eventOf))).isSome = true := by
  rw [domains, Projection.lookup_ofLog, filterMap_positionOf well, if_neg]
  · rfl
  · apply List.ne_nil_of_mem (a := (event.turnId, event.eventSeq))
    apply Projection.mem_about.mpr
    exact ⟨List.mem_map_of_mem (List.mem_filterMap.mpr ⟨raw, member, read⟩), rfl⟩

/-- The numbers of a turn of a well formed log show a gap exactly if they are
not those from one to a last one. -/
theorem gapped_iff (well : ∀ raw ∈ events, (reading raw).isSome = true) {turnId : String}
    (found : Projection.lookup turnId (domains (events.filterMap eventOf)) = some sequences) :
    gapped none sequences = true <-> ¬ Unbroken events turnId := by
  obtain ⟨nonempty, nodup, listed⟩ := lookup_domains well found
  have positive : ∀ seq ∈ sequences, 0 < seq := by
    intro seq member
    obtain ⟨raw, event, -, read, -, same⟩ := (listed seq).mp member
    obtain ⟨inner, -, parsed⟩ := Option.bind_eq_some_iff.mp read
    rw [← same]
    exact Event.eventSeq_pos parsed
  rw [← Bool.not_eq_false, gapped_none nodup positive nonempty, Unbroken]
  simp only [listed]

/-- A replay is called incomplete exactly where an event was malformed, there
is none, or the numbers of a turn are not those from one to a last one. -/
theorem replay_incomplete_iff (events : List Json) :
    (replayProgress events none).progressReplayIncomplete = true <->
      (∃ raw ∈ events, reading raw = none) ∨ (∀ raw ∈ events, reading raw = none) ∨
        ∃ turnId, ¬ Unbroken events turnId := by
  have unfolded : (replayProgress events none).progressReplayIncomplete =
      (events.any (fun raw => (reading raw).isNone) || (domains (events.filterMap eventOf)).isEmpty ||
        (domains (events.filterMap eventOf)).any fun item => gapped none item.2) := by
    have read := deliver_events events ({}, [])
    have incomplete := deliver_incomplete events ({}, [])
    rw [List.nil_append] at read
    rw [Bool.false_or] at incomplete
    rw [← incomplete, ← read]
    rfl
  rw [unfolded, Bool.or_eq_true, Bool.or_eq_true, or_assoc]
  by_cases well : ∀ raw ∈ events, (reading raw).isSome = true
  · have distinct : Projection.Distinct (domains (events.filterMap eventOf)) := Projection.distinct_ofLog _
    have complete : ¬ (events.any fun raw => (reading raw).isNone) = true := by
      intro noted
      obtain ⟨raw, member, malformed⟩ := List.any_eq_true.mp noted
      have given := well raw member
      rw [Option.isNone_iff_eq_none.mp malformed] at given
      cases given
    have none_malformed : ¬ ∃ raw ∈ events, reading raw = none := by
      rintro ⟨raw, member, malformed⟩
      exact complete (List.any_eq_true.mpr ⟨raw, member, Option.isNone_iff_eq_none.mpr malformed⟩)
    rw [or_iff_right complete, or_iff_right none_malformed]
    apply or_congr
    · constructor
      · intro empty raw member
        cases read : reading raw with
        | none => rfl
        | some event =>
          have known := lookup_domains_isSome well member read
          rw [List.isEmpty_iff.mp empty] at known
          cases known
      · intro nothing
        have none_here : events = [] := by
          apply List.eq_nil_iff_forall_not_mem.mpr
          exact fun raw member => none_malformed ⟨raw, member, nothing raw member⟩
        subst none_here
        rfl
    · constructor
      · intro broken
        obtain ⟨⟨turnId, sequences⟩, member, gap⟩ := List.any_eq_true.mp broken
        exact ⟨turnId, (gapped_iff well ((Projection.mem_iff_lookup distinct _ _).mp member)).mp gap⟩
      · rintro ⟨turnId, broken⟩
        cases found : Projection.lookup turnId (domains (events.filterMap eventOf)) with
        | none =>
          refine absurd ⟨0, fun seq => ⟨?_, by omega⟩⟩ broken
          rintro ⟨raw, event, member, read, rfl, -⟩
          have known := lookup_domains_isSome well member read
          rw [found] at known
          cases known
        | some sequences =>
          apply List.any_eq_true.mpr
          exact ⟨(turnId, sequences), (Projection.mem_iff_lookup distinct _ _).mpr found, (gapped_iff well found).mpr broken⟩
  · push Not at well
    obtain ⟨raw, member, malformed⟩ := well
    have noted : reading raw = none := Option.not_isSome_iff_eq_none.mp malformed
    have first : (events.any fun raw => (reading raw).isNone) = true :=
      List.any_eq_true.mpr ⟨raw, member, Option.isNone_iff_eq_none.mpr noted⟩
    exact iff_of_true (.inl first) (.inl ⟨raw, member, noted⟩)

/-- What the display of a log does not depend on, and what it says of a turn
that is over. -/
structure OrderFree (events : List Json) : Prop where
  delivery : ∀ delivered, Delivers events delivered ->
    (TurnProgress.project delivered).snapshot.Same (TurnProgress.project events).snapshot
  calls : Sequenced events -> (∀ event ∈ valid events, event.call?.isSome = true -> event.Full) ->
    ∀ delivered, events.Perm delivered -> ∀ turnId,
      callsOf turnId (TurnProgress.project delivered) = callsOf turnId (TurnProgress.project events)
  completed : Sequenced events -> ∀ turnId last, Closes events turnId last ->
    ∀ delivered, events.Perm delivered -> ∃ view,
      Projection.lookup turnId (TurnProgress.project delivered).snapshot.turns = some view ∧ view.heading.completed = true
  incomplete : (replayProgress events none).progressReplayIncomplete = true <->
    (∃ raw ∈ events, reading raw = none) ∨ (∀ raw ∈ events, reading raw = none) ∨
      ∃ turnId, ¬ Unbroken events turnId

theorem display_order_free (events : List Json) : OrderFree events where
  delivery _ delivers := delivers.snapshot
  calls sequenced full _ perm turnId := calls_perm sequenced full perm turnId
  completed sequenced _ _ closes _ perm := completed_perm sequenced closes perm
  incomplete := replay_incomplete_iff events

end Progress
end FixLoop
