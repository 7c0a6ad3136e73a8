import FixLoop.Progress.Delivery

namespace FixLoop
namespace Progress

open Library

/-!
# Copies and numbers

A copy of an event that was delivered does nothing.  Where events about calls
say everything an entry shows, the one with the highest number decides.
-/

/-! ## Copies -/

/-- The entry has the number and the descriptors of the event. -/
structure Entry.Covers (event : Event) (entry : Entry) : Prop where
  newer : event.eventSeq ≤ entry.eventSeq
  toolName : entry.toolName = none -> event.fields.get? "tool_name" = none
  ordinal : entry.ordinal = none -> event.fields.get? "ordinal" = none

variable {event : Event} {entry : Entry} {events : List Event} {delivered : List Json}

theorem Entry.describe_of_covers (covers : entry.Covers event) : entry.describe event = entry := by
  have toolName : entry.toolName.or (event.fields.get? "tool_name") = entry.toolName := by
    cases given : entry.toolName with
    | none => rw [Option.none_or, covers.toolName given]
    | some value => rfl
  have ordinal : entry.ordinal.or (event.fields.get? "ordinal") = entry.ordinal := by
    cases given : entry.ordinal with
    | none => rw [Option.none_or, covers.ordinal given]
    | some value => rfl
  rw [Entry.describe, toolName, ordinal]

/-- What the two ways to apply an event to an entry have in common. -/
structure Entry.Applied (event : Event) (before after : Entry) : Prop where
  eventSeq : after.eventSeq = max before.eventSeq event.eventSeq
  toolName : after.toolName = none -> before.toolName = none ∧ event.fields.get? "tool_name" = none
  ordinal : after.ordinal = none -> before.ordinal = none ∧ event.fields.get? "ordinal" = none

theorem Entry.describe_applied (older : event.eventSeq ≤ entry.eventSeq) :
    Entry.Applied event entry (entry.describe event) where
  eventSeq := (max_eq_left older).symm
  toolName := Option.or_eq_none_iff.mp
  ordinal := Option.or_eq_none_iff.mp

theorem Entry.update_applied {described : Entry} (newer : entry.eventSeq ≤ event.eventSeq)
    (toolName : described.toolName = entry.toolName.or (event.fields.get? "tool_name"))
    (ordinal : described.ordinal = entry.ordinal.or (event.fields.get? "ordinal")) :
    Entry.Applied event entry (described.update event) where
  eventSeq := (max_eq_right newer).symm
  toolName missing := by
    have parts := Option.or_eq_none_iff.mp missing
    exact Option.or_eq_none_iff.mp (toolName ▸ parts.2)
  ordinal missing := by
    have parts := Option.or_eq_none_iff.mp missing
    exact Option.or_eq_none_iff.mp (ordinal ▸ parts.2)

theorem Entry.apply_applied (event : Event) (entry : Entry) : Entry.Applied event entry (entry.apply event) := by
  unfold Entry.apply
  split_ifs with older
  · exact Entry.describe_applied older
  · exact Entry.update_applied (le_of_not_ge older) rfl rfl

theorem Entry.applyCall_applied (event : Event) (entry : Entry) : Entry.Applied event entry (entry.applyCall event) := by
  unfold Entry.applyCall
  split_ifs with older
  · exact Entry.describe_applied older
  · exact Entry.update_applied (le_of_not_ge older) rfl rfl

theorem Heading.apply_applied (event : Event) (heading : Heading) :
    Entry.Applied event heading.entry (heading.apply event).entry := by
  unfold Heading.apply
  split_ifs with older
  · exact Entry.describe_applied older
  · exact Entry.update_applied (le_of_not_ge older) rfl rfl

namespace Entry.Applied

variable {event : Event} {before after : Entry} (applied : Entry.Applied event before after)

include applied

theorem covers : after.Covers event where
  newer := by rw [applied.eventSeq]; exact le_max_right _ _
  toolName missing := (applied.toolName missing).2
  ordinal missing := (applied.ordinal missing).2

theorem kept {other : Event} (covers : before.Covers other) : after.Covers other where
  newer := by rw [applied.eventSeq]; exact le_trans covers.newer (le_max_left _ _)
  toolName missing := covers.toolName (applied.toolName missing).1
  ordinal missing := covers.ordinal (applied.ordinal missing).1

end Entry.Applied

theorem Entry.apply_of_covers (covers : entry.Covers event) : entry.apply event = entry := by
  rw [Entry.apply, if_pos covers.newer, Entry.describe_of_covers covers]

theorem Entry.applyCall_of_covers (covers : entry.Covers event) : entry.applyCall event = entry := by
  rw [Entry.applyCall, if_pos covers.newer, Entry.describe_of_covers covers]

theorem Heading.apply_of_covers {heading : Heading} (covers : heading.entry.Covers event) :
    heading.apply event = heading := by
  rw [Heading.apply, if_pos covers.newer, Entry.describe_of_covers covers]

/-- A turn that has seen an event does not change on a copy of it. -/
theorem Turn.apply_copy (seen : event ∈ events) : (turnAfter events).apply event = turnAfter events := by
  have heading : event.target = .turn -> (turnAfter events).heading.apply event = (turnAfter events).heading := by
    intro target
    rw [turnAfter_heading]
    apply Heading.apply_of_covers
    exact Projection.value_of_mem (fun event heading => Entry.Covers event heading.entry)
      (fun event heading => (Heading.apply_applied event heading).covers)
      (fun event other heading covers => (Heading.apply_applied other heading).kept covers)
      (mem_toward.mpr ⟨seen, target⟩)
  have calls : Projection.record Event.call? {} Entry.applyCall (turnAfter events).calls event =
      (turnAfter events).calls := by
    rw [turnAfter_calls]
    apply Projection.record_of_fixed
    intro key concerns
    have member := Projection.mem_about.mpr ⟨seen, concerns⟩
    refine ⟨List.ne_nil_of_mem member, Entry.applyCall_of_covers ?_⟩
    exact Projection.value_of_mem Entry.Covers (fun event entry => (Entry.applyCall_applied event entry).covers)
      (fun event other entry covers => (Entry.applyCall_applied other entry).kept covers) member
  have batches : Projection.record Event.batch? {} Entry.apply (turnAfter events).batches event =
      (turnAfter events).batches := by
    rw [turnAfter_batches]
    apply Projection.record_of_fixed
    intro key concerns
    have member := Projection.mem_about.mpr ⟨seen, concerns⟩
    refine ⟨List.ne_nil_of_mem member, Entry.apply_of_covers ?_⟩
    exact Projection.value_of_mem Entry.Covers (fun event entry => (Entry.apply_applied event entry).covers)
      (fun event other entry covers => (Entry.apply_applied other entry).kept covers) member
  rw [Turn.apply, calls, batches]
  split_ifs with target
  · rw [heading target]
  · rfl

/-- A copy of an event that was delivered changes nothing. -/
theorem apply_copy {events : List Json} {raw : Json} (delivered : raw ∈ events) :
    (TurnProgress.project events).apply raw = TurnProgress.project events := by
  rw [project_eq, TurnProgress.apply]
  cases parsed : Event.parse raw with
  | none =>
    have noted : events.any malformed = true := by
      apply List.any_eq_true.mpr
      exact ⟨raw, delivered, by rw [malformed, parsed]; rfl⟩
    simp only [noted]
  | some event =>
    have unchanged : Projection.record (fun event => some event.turnId) {} Turn.apply
        (Projection.ofLog (fun event : Event => some event.turnId) {} Turn.apply (valid events)) event =
          Projection.ofLog (fun event : Event => some event.turnId) {} Turn.apply (valid events) := by
      apply Projection.record_of_fixed
      intro key concerns
      have member : event ∈ Projection.about (fun event : Event => some event.turnId) key (valid events) :=
        Projection.mem_about.mpr ⟨mem_valid.mpr ⟨raw, delivered, parsed⟩, concerns⟩
      exact ⟨List.ne_nil_of_mem member, Turn.apply_copy member⟩
    simp only [unchanged]

theorem project_copy {before : List Json} {raw : Json} (delivered : raw ∈ before) (after : List Json) :
    TurnProgress.project (before ++ raw :: after) = TurnProgress.project (before ++ after) := by
  rw [TurnProgress.project, TurnProgress.project, List.foldl_append, List.foldl_cons, List.foldl_append]
  exact congrArg (fun progress => after.foldl TurnProgress.apply progress) (apply_copy delivered)

/-- Deliveries of the same events: in other orders, and with copies of events
that were delivered before. -/
inductive Delivers (events : List Json) : List Json -> Prop where
  | log : Delivers events events
  | reordered {delivered other : List Json} : Delivers events delivered -> Reordering delivered other ->
      Delivers events other
  | copied {before after : List Json} {raw : Json} : Delivers events (before ++ after) -> raw ∈ before ->
      Delivers events (before ++ raw :: after)

theorem Delivers.snapshot {events : List Json} (delivers : Delivers events delivered) :
    (TurnProgress.project delivered).snapshot.Same (TurnProgress.project events).snapshot := by
  induction delivers with
  | log => exact ⟨fun _ => rfl, rfl⟩
  | reordered _ reordering ih =>
    have same := reordering.snapshot
    exact ⟨fun turnId => (same.1 turnId).trans (ih.1 turnId), same.2.trans ih.2⟩
  | copied _ delivered ih =>
    rw [project_copy delivered]
    exact ih

/-! ## The highest number -/

/-- Different events of a turn have different numbers. -/
def Sequenced (events : List Json) : Prop :=
  ∀ first second, first ∈ valid events -> second ∈ valid events ->
    first.turnId = second.turnId -> first.eventSeq = second.eventSeq -> first = second

/-- The event says everything that an entry shows. -/
structure Event.Full (event : Event) : Prop where
  status : (event.fields.get? "status").isSome
  toolName : (event.fields.get? "tool_name").isSome
  ordinal : (event.fields.get? "ordinal").isSome
  errorCode : (event.fields.get? "error_code").isSome
  durationMs : (event.fields.get? "duration_ms").isSome

/-- The entry after this event alone. -/
def Event.shown (event : Event) : Entry := ((({} : Entry).describe event).reset event).update event

theorem Event.Full.update_eq (full : event.Full) (entry : Entry) :
    ((entry.describe event).reset event).update event = event.shown := by
  have given_first : ∀ {value other : Option Json}, value.isSome = true -> value.or other = value := by
    intro value other given
    obtain ⟨item, rfl⟩ := Option.isSome_iff_exists.mp given
    rfl
  simp only [Event.shown, Entry.update, Entry.reset, Entry.describe, given_first full.status, given_first full.toolName,
    given_first full.ordinal, given_first full.errorCode, given_first full.durationMs]

theorem Event.Full.covers {newest : Event} (full : newest.Full) (older : event.eventSeq ≤ newest.eventSeq) :
    newest.shown.Covers event where
  newer := older
  toolName missing := by
    have given := full.toolName
    rw [(Option.or_eq_none_iff.mp missing).1] at given
    cases given
  ordinal missing := by
    have given := full.ordinal
    rw [(Option.or_eq_none_iff.mp missing).1] at given
    cases given

theorem Event.eventSeq_pos {raw : Json} (parsed : Event.parse raw = some event) : 0 < event.eventSeq := by
  unfold Event.parse at parsed
  split at parsed
  · split_ifs at parsed with refused
    cases parsed
    push Not at refused
    exact refused.2
  · cases parsed

/-- The newest of full events decides what the entry of a call shows. -/
theorem value_full (full : ∀ event ∈ events, event.Full)
    (positive : ∀ event ∈ events, 0 < event.eventSeq) (some_event : events ≠ []) :
    ∃ newest ∈ events, (∀ event ∈ events, event.eventSeq ≤ newest.eventSeq) ∧
      Projection.value {} Entry.applyCall events = newest.shown := by
  induction events using List.reverseRecOn with
  | nil => exact absurd rfl some_event
  | append_singleton events last ih =>
    have lastFull := full last (List.mem_append_right _ List.mem_cons_self)
    have lastPositive := positive last (List.mem_append_right _ List.mem_cons_self)
    rw [Projection.value_append_singleton]
    by_cases first : events = []
    · subst first
      refine ⟨last, List.mem_cons_self, ?_, ?_⟩
      · intro event member
        rw [List.mem_singleton.mp member]
      · rw [Entry.applyCall, if_neg]
        · exact lastFull.update_eq _
        · exact not_le_of_gt lastPositive
    · obtain ⟨newest, member, highest, shown⟩ := ih
        (fun event here => full event (List.mem_append_left _ here))
        (fun event here => positive event (List.mem_append_left _ here)) first
      rw [shown]
      by_cases older : last.eventSeq ≤ newest.eventSeq
      · refine ⟨newest, List.mem_append_left _ member, ?_, ?_⟩
        · intro event here
          rcases List.mem_append.mp here with earlier | here
          · exact highest event earlier
          · rw [List.mem_singleton.mp here]
            exact older
        · have newestFull := full newest (List.mem_append_left _ member)
          exact Entry.applyCall_of_covers (newestFull.covers older)
      · refine ⟨last, List.mem_append_right _ List.mem_cons_self, ?_, ?_⟩
        · intro event here
          rcases List.mem_append.mp here with earlier | here
          · exact le_trans (highest event earlier) (le_of_not_ge older)
          · rw [List.mem_singleton.mp here]
        · rw [Entry.applyCall, if_neg (show ¬ last.eventSeq ≤ newest.shown.eventSeq from older)]
          exact lastFull.update_eq _

/-- The call entries of a turn in a snapshot. -/
def callsOf (turnId : String) (progress : TurnProgress) : Option (List ((String × String) × Entry)) :=
  (Projection.lookup turnId progress.snapshot.turns).map TurnView.calls

/-- In any order full events leave the same entry of a call. -/
theorem value_full_perm {delivered : List Event} (perm : events.Perm delivered)
    (full : ∀ event ∈ events, event.Full)
    (positive : ∀ event ∈ events, 0 < event.eventSeq)
    (sequenced : ∀ first second, first ∈ events -> second ∈ events -> first.eventSeq = second.eventSeq -> first = second)
    (some_event : events ≠ []) :
    Projection.value {} Entry.applyCall delivered = Projection.value {} Entry.applyCall events := by
  have nonempty : delivered ≠ [] := fun empty => some_event (empty ▸ perm).eq_nil
  obtain ⟨newest, member, highest, shown⟩ := value_full full positive some_event
  obtain ⟨other, otherMember, otherHighest, otherShown⟩ := value_full
    (fun event here => full event (perm.symm.subset here)) (fun event here => positive event (perm.symm.subset here))
    nonempty
  have same : newest = other := by
    apply sequenced _ _ member (perm.symm.subset otherMember)
    exact le_antisymm (otherHighest newest (perm.subset member)) (highest other (perm.symm.subset otherMember))
  rw [shown, otherShown, same]

theorem calls_perm {events : List Json} (sequenced : Sequenced events)
    (full : ∀ event ∈ valid events, event.call?.isSome = true -> event.Full)
    (perm : events.Perm delivered) (turnId : String) :
    callsOf turnId (TurnProgress.project delivered) = callsOf turnId (TurnProgress.project events) := by
  have calls : (turnAfter (ofTurn turnId delivered)).view.calls = (turnAfter (ofTurn turnId events)).view.calls := by
    apply calls_eq
    intro key
    have towardPerm : (toward (.call key.1 key.2) (ofTurn turnId events)).Perm
        (toward (.call key.1 key.2) (ofTurn turnId delivered)) := (ofTurn_perm perm turnId).filter _
    rw [lookup_calls, lookup_calls]
    by_cases none_here : toward (.call key.1 key.2) (ofTurn turnId events) = []
    · have none_there : toward (.call key.1 key.2) (ofTurn turnId delivered) = [] := by
        rw [none_here] at towardPerm
        exact towardPerm.nil_eq.symm
      rw [if_pos none_here, if_pos none_there]
    · have some_there : toward (.call key.1 key.2) (ofTurn turnId delivered) ≠ [] := by
        intro empty
        rw [empty] at towardPerm
        exact none_here towardPerm.eq_nil
      rw [if_neg none_here, if_neg some_there]
      congr 1
      apply value_full_perm towardPerm _ _ _ none_here
      · intro event member
        obtain ⟨here, target⟩ := mem_toward.mp member
        exact full event (mem_ofTurn.mp here).1 (by rw [call?_eq_some.mpr target]; rfl)
      · intro event member
        obtain ⟨raw, -, parsed⟩ := mem_valid.mp (mem_ofTurn.mp (mem_toward.mp member).1).1
        exact Event.eventSeq_pos parsed
      · intro first second firstMember secondMember same
        have firstOf := mem_ofTurn.mp (mem_toward.mp firstMember).1
        have secondOf := mem_ofTurn.mp (mem_toward.mp secondMember).1
        exact sequenced first second firstOf.1 secondOf.1 (firstOf.2.trans secondOf.2.symm) same
  rw [callsOf, callsOf, lookup_snapshot, lookup_snapshot, if_congr (ofTurn_eq_nil perm turnId).symm rfl rfl]
  split_ifs
  · rfl
  · rw [Option.map_some, Option.map_some, calls]

/-- A completion with the highest number is applied whenever it comes. -/
theorem completed_value {last : Event} (kind : last.kind = "turn_completed") (positive : 0 < last.eventSeq)
    (highest : ∀ event ∈ events, event = last ∨ event.eventSeq < last.eventSeq) :
    (last ∈ events -> (Projection.value {} Heading.apply events).completed = true) ∧
      (last ∉ events -> (Projection.value {} Heading.apply events).entry.eventSeq < last.eventSeq) := by
  induction events using List.reverseRecOn with
  | nil => exact ⟨fun member => absurd member List.not_mem_nil, fun _ => positive⟩
  | append_singleton events event ih =>
    obtain ⟨done, before⟩ := ih fun event here => highest event (List.mem_append_left _ here)
    rw [Projection.value_append_singleton]
    constructor
    · intro member
      by_cases earlier : last ∈ events
      · rw [Heading.apply]
        split_ifs
        · exact done earlier
        · simp only [done earlier, Bool.true_or]
      · have here : last = event := List.mem_singleton.mp ((List.mem_append.mp member).resolve_left earlier)
        subst here
        rw [Heading.apply, if_neg (not_le_of_gt (before earlier))]
        simp [kind]
    · intro absent
      have parts := not_or.mp fun either => absent (List.mem_append.mpr either)
      have older : event.eventSeq < last.eventSeq := by
        rcases highest event (List.mem_append_right _ List.mem_cons_self) with same | older
        · exact absurd (by rw [same]; exact List.mem_cons_self) parts.2
        · exact older
      rw [(Heading.apply_applied event _).eventSeq]
      exact max_lt (before parts.1) older

/-- The event closes its turn: no event about the turn itself has a higher
number. -/
structure Closes (events : List Json) (turnId : String) (last : Event) : Prop where
  member : last ∈ valid events
  entity : last.entity = ⟨turnId, .turn⟩
  kind : last.kind = "turn_completed"
  highest : ∀ event ∈ valid events, event.entity = ⟨turnId, .turn⟩ -> event.eventSeq ≤ last.eventSeq

theorem completed_perm {events : List Json} (sequenced : Sequenced events) {turnId : String} {last : Event}
    (closes : Closes events turnId last) (perm : events.Perm delivered) :
    ∃ view, Projection.lookup turnId (TurnProgress.project delivered).snapshot.turns = some view ∧
      view.heading.completed = true := by
  have ofThis : last.turnId = turnId := congrArg Entity.turnId closes.entity
  have toTurn : last.target = .turn := congrArg Entity.target closes.entity
  have member : last ∈ ofTurn turnId delivered :=
    mem_ofTurn.mpr ⟨(valid_perm perm).subset closes.member, ofThis⟩
  refine ⟨_, by rw [lookup_snapshot, if_neg (List.ne_nil_of_mem member)], ?_⟩
  change (turnAfter (ofTurn turnId delivered)).heading.completed = true
  rw [turnAfter_heading]
  obtain ⟨raw, -, parsed⟩ := mem_valid.mp closes.member
  refine (completed_value closes.kind (Event.eventSeq_pos parsed) ?_).1 (mem_toward.mpr ⟨member, toTurn⟩)
  intro event here
  obtain ⟨inTurn, target⟩ := mem_toward.mp here
  obtain ⟨isValid, same⟩ := mem_ofTurn.mp inTurn
  have listed : event ∈ valid events := (valid_perm perm).symm.subset isValid
  have below : event.eventSeq ≤ last.eventSeq :=
    closes.highest event listed (by rw [Event.entity, same, target])
  rcases eq_or_lt_of_le below with equal | older
  · exact .inl (sequenced event last listed closes.member (same.trans ofThis.symm) equal)
  · exact .inr older

end Progress
end FixLoop
