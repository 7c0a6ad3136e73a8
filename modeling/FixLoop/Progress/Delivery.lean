import Mathlib.Data.String.Basic
import FixLoop.Library.Json
import FixLoop.Library.Projection
import FixLoop.Library.Strings

namespace FixLoop
namespace Progress

open Library

/-!
# The display of a turn

Events report on a turn, on a batch of its tool calls or on one call.  The
display keeps an entry for each of these and applies to an entry the events
in the order of their numbers only: an older event is dropped, except for the
descriptors that name the tool.
-/

/-- What an entry shows; a key that no event gave is missing. -/
structure Entry where
  eventSeq : Int := 0
  status : Option Json := none
  toolName : Option Json := none
  ordinal : Option Json := none
  errorCode : Option Json := none
  durationMs : Option Json := none
  reason : Option Json := none

/-- The entry of the turn itself. -/
structure Heading where
  entry : Entry := {}
  phase : Json := .str ""
  completed : Bool := false

structure Turn where
  heading : Heading := {}
  calls : List ((String × String) × Entry) := []
  batches : List (String × Entry) := []

structure TurnProgress where
  turns : List (String × Turn) := []
  incomplete : Bool := false

/-! ## Events -/

/-- An event whose identity is valid. -/
structure Event where
  turnId : String
  eventSeq : Int
  kind : String
  batchId : String
  callId : String
  fields : Json

def Event.parse (raw : Json) : Option Event :=
  match raw.get? "turn_id", raw.get? "event_seq", raw.get? "event",
      (raw.get? "batch_id").getD (.str ""), (raw.get? "call_id").getD (.str "") with
  | some (.str turnId), some (.int eventSeq), some (.str kind), .str batchId, .str callId =>
    if turnId = "" ∨ eventSeq < 1 then none
    else some { turnId, eventSeq, kind, batchId, callId, fields := raw }
  | _, _, _, _, _ => none

/-- What in its turn an event is about. -/
inductive Target where
  | call (batchId callId : String)
  | batch (batchId : String)
  | turn
deriving DecidableEq

def Event.target (event : Event) : Target :=
  if event.callId ≠ "" then .call event.batchId event.callId
  else if event.batchId ≠ "" ∧ Strings.startsWith "tool_batch_" event.kind = true then .batch event.batchId
  else .turn

def Event.call? (event : Event) : Option (String × String) :=
  match event.target with
  | .call batchId callId => some (batchId, callId)
  | _ => none

def Event.batch? (event : Event) : Option String :=
  match event.target with
  | .batch batchId => some batchId
  | _ => none

def Event.queued (event : Event) : Bool :=
  match event.fields.get? "status" with
  | some (.str status) => status == "queued"
  | _ => false

/-! ## Applying an event -/

/-- Identity descriptors can arrive late without reverting state. -/
def Entry.describe (event : Event) (entry : Entry) : Entry :=
  { entry with
    toolName := entry.toolName.or (event.fields.get? "tool_name")
    ordinal := entry.ordinal.or (event.fields.get? "ordinal") }

/-- What an event about a call sets before its own fields. -/
def Entry.reset (event : Event) (entry : Entry) : Entry :=
  { entry with
    reason := some (if event.queued then (event.fields.get? "reason").getD (.str "") else .str "")
    errorCode := some ((event.fields.get? "error_code").getD (.str ""))
    durationMs := some ((event.fields.get? "duration_ms").getD (.int 0)) }

def Entry.update (event : Event) (entry : Entry) : Entry :=
  { entry with
    status := (event.fields.get? "status").or entry.status
    toolName := (event.fields.get? "tool_name").or entry.toolName
    ordinal := (event.fields.get? "ordinal").or entry.ordinal
    errorCode := (event.fields.get? "error_code").or entry.errorCode
    durationMs := (event.fields.get? "duration_ms").or entry.durationMs
    eventSeq := event.eventSeq }

/-- An event for the entry of a batch or of the turn. -/
def Entry.apply (event : Event) (entry : Entry) : Entry :=
  if event.eventSeq ≤ entry.eventSeq then entry.describe event else (entry.describe event).update event

def Entry.applyCall (event : Event) (entry : Entry) : Entry :=
  if event.eventSeq ≤ entry.eventSeq then entry.describe event else ((entry.describe event).reset event).update event

def Heading.apply (event : Event) (heading : Heading) : Heading :=
  if event.eventSeq ≤ heading.entry.eventSeq then { heading with entry := heading.entry.describe event }
  else
    { entry := (heading.entry.describe event).update event
      phase := (event.fields.get? "phase").getD heading.phase
      completed := heading.completed || event.kind == "turn_completed" }

def Turn.apply (event : Event) (turn : Turn) : Turn where
  heading := if event.target = .turn then turn.heading.apply event else turn.heading
  calls := Projection.record Event.call? {} Entry.applyCall turn.calls event
  batches := Projection.record Event.batch? {} Entry.apply turn.batches event

namespace TurnProgress

def apply (progress : TurnProgress) (raw : Json) : TurnProgress :=
  match Event.parse raw with
  | none => { progress with incomplete := true }
  | some event =>
    { progress with turns := Projection.record (fun event => some event.turnId) {} Turn.apply progress.turns event }

def project (events : List Json) : TurnProgress := events.foldl apply {}

end TurnProgress

/-- What a snapshot shows of a turn, calls and batches by their keys. -/
structure TurnView where
  heading : Heading
  calls : List ((String × String) × Entry)
  batches : List (String × Entry)

def Turn.view (turn : Turn) : TurnView where
  heading := turn.heading
  calls := Projection.sorted toLex turn.calls
  batches := Projection.sorted id turn.batches

structure Snapshot where
  turns : List (String × TurnView)
  progressReplayIncomplete : Bool

def TurnProgress.snapshot (progress : TurnProgress) : Snapshot where
  turns := progress.turns.map (fun item => (item.1, item.2.view))
  progressReplayIncomplete := progress.incomplete

/-- Equality of snapshots as nested mappings. -/
def Snapshot.Same (first second : Snapshot) : Prop :=
  (∀ turnId, Projection.lookup turnId first.turns = Projection.lookup turnId second.turns) ∧
    first.progressReplayIncomplete = second.progressReplayIncomplete

/-!
# Deliveries of one log

The same events arrive in another order or more than once.  What the display
shows of an entity depends on the events of the entity only.
-/

/-! ## The events of an entity -/

/-- What an event is about: a turn, one of its batches or one of its calls. -/
structure Entity where
  turnId : String
  target : Target
deriving DecidableEq

def Event.entity (event : Event) : Entity := ⟨event.turnId, event.target⟩

def entityOf (raw : Json) : Option Entity := (Event.parse raw).map Event.entity

def valid (raws : List Json) : List Event := raws.filterMap Event.parse

def malformed (raw : Json) : Bool := (Event.parse raw).isNone

/-- The valid events of a turn. -/
def ofTurn (turnId : String) (raws : List Json) : List Event :=
  Projection.about (fun event => some event.turnId) turnId (valid raws)

/-- Those of them that concern one target. -/
def toward (target : Target) (events : List Event) : List Event :=
  events.filter fun event => decide (event.target = target)

variable {event : Event} {events delivered : List Json}

theorem mem_valid {raws : List Json} :
    event ∈ valid raws <-> ∃ raw ∈ raws, Event.parse raw = some event := List.mem_filterMap

theorem mem_ofTurn {turnId : String} {raws : List Json} :
    event ∈ ofTurn turnId raws <-> event ∈ valid raws ∧ event.turnId = turnId := by
  rw [ofTurn, Projection.mem_about, Option.some.injEq]

theorem mem_toward {target : Target} {events : List Event} :
    event ∈ toward target events <-> event ∈ events ∧ event.target = target := by
  rw [toward, List.mem_filter, decide_eq_true_iff]

/-- The events of an entity, parsed before or after they are selected. -/
theorem toward_ofTurn (turnId : String) (target : Target) (raws : List Json) :
    toward target (ofTurn turnId raws) =
      (raws.filter fun raw => decide (entityOf raw = some ⟨turnId, target⟩)).filterMap Event.parse := by
  rw [toward, ofTurn, Projection.about, valid, List.filter_filter, List.filter_filterMap, List.filterMap_filter]
  congr 1
  funext raw
  cases parsed : Event.parse raw with
  | none => simp [entityOf, parsed]
  | some event =>
    by_cases here : event.target = target ∧ event.turnId = turnId
    · simp [Event.entity, entityOf, parsed, here.1, here.2]
    · have apart : event.entity ≠ ⟨turnId, target⟩ := by
        intro same
        exact here ⟨congrArg Entity.target same, congrArg Entity.turnId same⟩
      simp only [entityOf, parsed, Option.map_some, Option.some.injEq, apart, decide_false, Bool.false_eq_true,
        if_false, ← Bool.decide_and]
      exact Option.filter_some_neg (decide_eq_false here)

theorem call?_eq_some {key : String × String} :
    event.call? = some key <-> event.target = .call key.1 key.2 := by
  unfold Event.call?
  cases event.target <;> simp [Prod.ext_iff]

theorem batch?_eq_some {key : String} : event.batch? = some key <-> event.target = .batch key := by
  unfold Event.batch?
  cases event.target <;> simp

theorem about_call (key : String × String) (events : List Event) :
    Projection.about Event.call? key events = toward (.call key.1 key.2) events :=
  List.filter_congr fun _ _ => decide_eq_decide.mpr call?_eq_some

theorem about_batch (key : String) (events : List Event) :
    Projection.about Event.batch? key events = toward (.batch key) events :=
  List.filter_congr fun _ _ => decide_eq_decide.mpr batch?_eq_some

/-! ## What the display holds -/

theorem project_append_singleton (raws : List Json) (raw : Json) :
    TurnProgress.project (raws ++ [raw]) = (TurnProgress.project raws).apply raw := by
  rw [TurnProgress.project, List.foldl_append]
  rfl

/-- The turns are those of the valid events, and a malformed event is noted. -/
theorem project_eq (raws : List Json) : TurnProgress.project raws =
    { turns := Projection.ofLog (fun event => some event.turnId) {} Turn.apply (valid raws)
      incomplete := raws.any malformed } := by
  induction raws using List.reverseRecOn with
  | nil => rfl
  | append_singleton raws raw ih =>
    rw [project_append_singleton, ih, TurnProgress.apply, List.any_append]
    cases parsed : Event.parse raw with
    | none =>
      have same : valid (raws ++ [raw]) = valid raws := by simp [valid, parsed]
      simp [malformed, parsed, same]
    | some event =>
      have same : valid (raws ++ [raw]) = valid raws ++ [event] := by simp [valid, parsed]
      simp [malformed, parsed, same, Projection.ofLog_append_singleton]

abbrev turnAfter (events : List Event) : Turn := Projection.value {} Turn.apply events

theorem turnAfter_heading (events : List Event) :
    (turnAfter events).heading = Projection.value {} Heading.apply (toward .turn events) := by
  induction events using List.reverseRecOn with
  | nil => rfl
  | append_singleton events event ih =>
    rw [turnAfter, Projection.value_append_singleton, toward, List.filter_append]
    by_cases here : event.target = .turn
    · have one : [event].filter (fun event => decide (event.target = .turn)) = [event] := by simp [here]
      rw [one, Projection.value_append_singleton, Turn.apply, if_pos here]
      exact congrArg (Heading.apply event) ih
    · have none_here : [event].filter (fun event => decide (event.target = .turn)) = [] := by simp [here]
      rw [none_here, List.append_nil, Turn.apply, if_neg here]
      exact ih

theorem turnAfter_calls (events : List Event) :
    (turnAfter events).calls = Projection.ofLog Event.call? {} Entry.applyCall events := by
  induction events using List.reverseRecOn with
  | nil => rfl
  | append_singleton events event ih =>
    rw [turnAfter, Projection.value_append_singleton, Projection.ofLog_append_singleton, ← ih]
    rfl

theorem turnAfter_batches (events : List Event) :
    (turnAfter events).batches = Projection.ofLog Event.batch? {} Entry.apply events := by
  induction events using List.reverseRecOn with
  | nil => rfl
  | append_singleton events event ih =>
    rw [turnAfter, Projection.value_append_singleton, Projection.ofLog_append_singleton, ← ih]
    rfl

theorem lookup_calls (key : String × String) (events : List Event) :
    Projection.lookup key (turnAfter events).calls =
      if toward (.call key.1 key.2) events = [] then none
      else some (Projection.value {} Entry.applyCall (toward (.call key.1 key.2) events)) := by
  rw [turnAfter_calls, Projection.lookup_ofLog, about_call]

theorem lookup_batches (key : String) (events : List Event) :
    Projection.lookup key (turnAfter events).batches =
      if toward (.batch key) events = [] then none
      else some (Projection.value {} Entry.apply (toward (.batch key) events)) := by
  rw [turnAfter_batches, Projection.lookup_ofLog, about_batch]

theorem toLex_injective : Function.Injective (toLex : String × String -> Lex (String × String)) := toLex.injective

theorem calls_eq {first second : List Event}
    (same : ∀ key, Projection.lookup key (turnAfter first).calls = Projection.lookup key (turnAfter second).calls) :
    (turnAfter first).view.calls = (turnAfter second).view.calls := by
  apply Projection.sorted_of_lookup toLex toLex_injective _ _ same
  · rw [turnAfter_calls]
    exact Projection.distinct_ofLog first
  · rw [turnAfter_calls]
    exact Projection.distinct_ofLog second

/-- The view of a turn depends on the order of the events of one target only. -/
theorem view_eq {first second : List Event} (same : ∀ target, toward target first = toward target second) :
    (turnAfter first).view = (turnAfter second).view := by
  have heading : (turnAfter first).heading = (turnAfter second).heading := by
    rw [turnAfter_heading, turnAfter_heading, same]
  have calls : (turnAfter first).view.calls = (turnAfter second).view.calls := by
    apply calls_eq
    intro key
    rw [lookup_calls, lookup_calls, same]
  have batches : (turnAfter first).view.batches = (turnAfter second).view.batches := by
    apply Projection.sorted_of_lookup id Function.injective_id
    · rw [turnAfter_batches]
      exact Projection.distinct_ofLog first
    · rw [turnAfter_batches]
      exact Projection.distinct_ofLog second
    · intro key
      rw [lookup_batches, lookup_batches, same]
  unfold Turn.view at calls batches ⊢
  rw [TurnView.mk.injEq]
  exact ⟨heading, calls, batches⟩

theorem lookup_snapshot (turnId : String) (raws : List Json) :
    Projection.lookup turnId (TurnProgress.project raws).snapshot.turns =
      if ofTurn turnId raws = [] then none else some (turnAfter (ofTurn turnId raws)).view := by
  rw [project_eq, TurnProgress.snapshot, Projection.lookup_map, Projection.lookup_ofLog]
  change Option.map _ (if ofTurn turnId raws = [] then none else some (turnAfter (ofTurn turnId raws))) = _
  split_ifs <;> rfl

/-- The same events in an order that keeps the events of every entity in
theirs. -/
structure Reordering (events delivered : List Json) : Prop where
  perm : events.Perm delivered
  order : ∀ entity, events.filter (fun raw => decide (entityOf raw = some entity)) =
    delivered.filter fun raw => decide (entityOf raw = some entity)

theorem valid_perm (perm : events.Perm delivered) :
    (valid events).Perm (valid delivered) := perm.filterMap Event.parse

theorem ofTurn_perm (perm : events.Perm delivered) (turnId : String) :
    (ofTurn turnId events).Perm (ofTurn turnId delivered) := (valid_perm perm).filter _

theorem ofTurn_eq_nil (perm : events.Perm delivered) (turnId : String) :
    ofTurn turnId events = [] <-> ofTurn turnId delivered = [] := by
  rw [← List.length_eq_zero_iff, ← List.length_eq_zero_iff, (ofTurn_perm perm turnId).length_eq]

theorem Reordering.snapshot (reordering : Reordering events delivered) :
    (TurnProgress.project delivered).snapshot.Same (TurnProgress.project events).snapshot := by
  constructor
  · intro turnId
    have same : (turnAfter (ofTurn turnId delivered)).view = (turnAfter (ofTurn turnId events)).view := by
      apply view_eq
      intro target
      rw [toward_ofTurn, toward_ofTurn, reordering.order]
    rw [lookup_snapshot, lookup_snapshot, same, if_congr (ofTurn_eq_nil reordering.perm turnId).symm rfl rfl]
  · rw [project_eq, project_eq]
    exact reordering.perm.symm.any_eq

end Progress
end FixLoop
