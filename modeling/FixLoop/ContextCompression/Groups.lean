import FixLoop.Library.Exchange
import FixLoop.Library.Fallible
import FixLoop.ContextCompression.Items

namespace FixLoop
namespace ContextCompression

open Library

/-!
# `interaction_groups`

A history is split into turns that keep the results of tool calls with their
calls.  A history is accepted if every result answers a pending call, no call
is made twice and none is left pending; how it is split has no part in this.
-/

def pairMismatch : Fault := .blocked "history_tool_pair_mismatch"

/-- The references as texts, unless one is empty or not a text. -/
def identifiers : List Json -> Option (List String)
  | [] => some []
  | ref :: rest =>
    match ref.str? with
    | some text => if text = "" then none else (identifiers rest).map (List.cons text)
    | none => none

namespace Item

def resultIds (item : Item) : List Json :=
  item.blockRefs "tool_result" "tool_use_id" ++
    (if item.hasRole "tool" && item.flag "tool_call_id" then [item.get "tool_call_id"] else [])

/-- `call.get("id")`. -/
def callId : Json -> Except Fault Json
  | .obj call => .ok (((Json.obj call).get? "id").getD .null)
  | _ => .error .other

def calls (item : Item) : Except Fault (List Json) :=
  ((iterate (((Json.obj item).get? "tool_calls").getD (.arr []))) >>= fun listed =>
    listed.mapM callId).map fun ids => item.blockRefs "tool_use" "id" ++ ids

/-- The calls that an item answers and those that it makes. -/
def exchange? (item : Item) : Option (Exchange String) :=
  (identifiers item.resultIds).bind (fun replies =>
    (item.calls.toOption.bind identifiers).map fun requests => ⟨replies, requests⟩)

end Item

def allowedIds (allowed : List String -> Prop) [DecidablePred allowed] :
    Option (List String) -> Except Fault (List String)
  | some ids => if allowed ids then .ok ids else .error pairMismatch
  | none => .error pairMismatch

/-- The results of an item, which answer pending calls. -/
def checkedResults (ledger : Ledger String) (item : Item) : Except Fault (List String) :=
  allowedIds (fun ids => ids.Nodup ∧ ids.toFinset ⊆ ledger.pending) (identifiers item.resultIds)

/-- The calls of an item, none of which was made before. -/
def checkedCalls (ledger : Ledger String) (item : Item) : Except Fault (List String) :=
  item.calls >>= fun refs =>
    allowedIds (fun ids => ids.Nodup ∧ Disjoint ids.toFinset ledger.made) (identifiers refs)

theorem allowedIds_ok {allowed : List String -> Prop} [DecidablePred allowed]
    {found : Option (List String)} {ids : List String}
    (checked : allowedIds allowed found = .ok ids) : found = some ids ∧ allowed ids := by
  cases found with
  | none => cases checked
  | some listed =>
    rw [allowedIds] at checked
    split at checked
    · rename_i holds
      cases checked
      exact ⟨rfl, holds⟩
    · cases checked

theorem checkedCalls_ok {ledger : Ledger String} {item : Item} {requests : List String}
    (checked : checkedCalls ledger item = .ok requests) :
    item.calls.toOption.bind identifiers = some requests ∧
      requests.Nodup ∧ Disjoint requests.toFinset ledger.made := by
  rcases Fallible.bind_ok checked with ⟨refs, listed, checked⟩
  rw [listed]
  exact allowedIds_ok checked

/-- Where an item can be entered, both checks succeed. -/
theorem checked_of_advance {ledger after : Ledger String} {item : Item}
    (advanced : ledger.advance Item.exchange? item = some after) :
    ∃ replies requests, checkedResults ledger item = .ok replies ∧
      checkedCalls (ledger.settle replies) item = .ok requests := by
  rcases Ledger.advance_eq advanced with ⟨exchange, viewed, ⟨replied, requested⟩, -⟩
  rcases Option.bind_eq_some_iff.mp viewed with ⟨replies, answered, viewed⟩
  rcases Option.map_eq_some_iff.mp viewed with ⟨requests, asked, rfl⟩
  refine ⟨replies, requests, ?_, ?_⟩
  · rw [checkedResults, answered]
    exact if_pos replied
  · cases found : item.calls with
    | error fault =>
      rw [found] at asked
      cases asked
    | ok refs =>
      rw [found] at asked
      rw [checkedCalls, Fallible.bind_of_ok found, show identifiers refs = some requests from asked]
      exact if_pos requested

/-! ## Grouping -/

/-- The variables of the loop. -/
structure Grouping where
  groups : List (List Item)
  current : List Item
  ledger : Ledger String
  simpleCall : Bool

namespace Grouping

def start : Grouping := ⟨[], [], Ledger.empty, false⟩

/-- End the current group, unless a call is pending. -/
def close (state : Grouping) (now : Bool) : Grouping :=
  if now ∧ state.ledger.pending = ∅ then
    { state with groups := state.groups ++ [state.current], current := [] }
  else state

section Add

variable [Rendering]

/-- One turn of the loop. -/
def add (state : Grouping) (item : Item) : Except Fault Grouping :=
  checkedResults state.ledger item >>= fun replies =>
    let continuation := !replies.isEmpty || item.hasRole "tool" ||
      (state.simpleCall && item.hasRole "user")
    let boundary := isSummary item || (item.hasRole "user" && !continuation)
    let opened := state.close (boundary && !state.current.isEmpty && !state.simpleCall)
    checkedCalls (state.ledger.settle replies) item >>= fun requests =>
      let added : Grouping :=
        { groups := opened.groups,
          current := opened.current ++ [item],
          ledger := (state.ledger.settle replies).request requests,
          simpleCall := (state.simpleCall && !continuation) ||
            (item.hasRole "assistant" && item.flag "tool_name") }
      .ok (added.close (isSummary item))

end Add

/-- The items that were added so far, in groups that settle. -/
def Holds (state : Grouping) (history : List Item) : Prop :=
  state.groups.flatten ++ state.current = history ∧ ∃ made,
    Ledger.Settles Item.exchange? ∅ state.groups made ∧
      (Ledger.mk ∅ made).run Item.exchange? state.current = some state.ledger

@[simp] theorem close_ledger (state : Grouping) (now : Bool) :
    (state.close now).ledger = state.ledger := by
  rw [close]
  split
  · rfl
  · rfl

theorem start_holds : start.Holds [] :=
  ⟨rfl, ∅, rfl, rfl⟩

variable {state : Grouping} {history : List Item}

/-- The current group can be ended where nothing is pending. -/
theorem Holds.end_group (holds : state.Holds history) (settled : state.ledger.pending = ∅) :
    (state.groups ++ [state.current]).flatten = history ∧
      Ledger.Settles Item.exchange? ∅ (state.groups ++ [state.current]) state.ledger.made := by
  rcases holds with ⟨listed, made, settles, ran⟩
  have done : state.ledger = ⟨∅, state.ledger.made⟩ := congrArg (fun pending =>
    Ledger.mk pending state.ledger.made) settled
  refine ⟨?_, settles.append_block (ran.trans (congrArg some done))⟩
  rw [List.flatten_append, List.flatten_singleton]
  exact listed

theorem Holds.close (holds : state.Holds history) (now : Bool) : (state.close now).Holds history := by
  rw [Grouping.close]
  split
  · rename_i ends
    rcases holds.end_group ends.2 with ⟨listed, settles⟩
    refine ⟨(List.append_nil _).trans listed, state.ledger.made, settles, ?_⟩
    rw [Ledger.run_nil, ← ends.2]
  · exact holds

variable [Rendering]

theorem add_advances {after : Grouping} {item : Item} (added : state.add item = .ok after) :
    state.ledger.advance Item.exchange? item = some after.ledger := by
  rcases Fallible.bind_ok added with ⟨replies, answered, continued⟩
  rcases Fallible.bind_ok continued with ⟨requests, asked, finished⟩
  cases finished
  rcases allowedIds_ok answered with ⟨replied, answers⟩
  rcases checkedCalls_ok asked with ⟨requested, asks⟩
  have viewed : item.exchange? = some ⟨replies, requests⟩ := by
    rw [Item.exchange?, replied, requested]
    rfl
  rw [close_ledger]
  exact Ledger.advance_allowed viewed ⟨answers, asks⟩

theorem add_of_advance {item : Item} {ledger : Ledger String}
    (advanced : state.ledger.advance Item.exchange? item = some ledger) :
    ∃ after, state.add item = .ok after ∧ after.ledger = ledger := by
  rcases checked_of_advance advanced with ⟨replies, requests, answered, asked⟩
  have added : ∃ after, state.add item = .ok after :=
    ⟨_, (Fallible.bind_of_ok answered).trans (Fallible.bind_of_ok asked)⟩
  rcases added with ⟨after, added⟩
  exact ⟨after, added, Option.some.inj ((add_advances added).symm.trans advanced)⟩

theorem Holds.add {after : Grouping} {item : Item} (holds : state.Holds history)
    (added : state.add item = .ok after) : after.Holds (history ++ [item]) := by
  have advanced := add_advances added
  rcases Fallible.bind_ok added with ⟨replies, answered, continued⟩
  rcases Fallible.bind_ok continued with ⟨requests, asked, finished⟩
  cases finished
  rw [close_ledger] at advanced
  refine Holds.close ?_ _
  rcases holds.close _ with ⟨listed, made, settles, ran⟩
  refine ⟨?_, made, settles, ?_⟩
  · rw [← List.append_assoc, listed]
  · refine Ledger.run_append_some ran ?_
    rw [close_ledger, Ledger.run_cons, advanced]
    rfl

end Grouping

section Groups

variable [Rendering]

/-- `interaction_groups`, which is also `group_history_into_turns`. -/
def interactionGroups (history : List Item) : Except Fault (List (List Item)) :=
  history.foldlM Grouping.add Grouping.start >>= fun state =>
    if state.ledger.pending = ∅ then
      .ok (if state.current.isEmpty then state.groups else state.groups ++ [state.current])
    else .error pairMismatch

variable {history : List Item}

theorem foldlM_holds {before : Grouping} {added : List Item} {after : Grouping}
    (holds : before.Holds history) (folded : added.foldlM Grouping.add before = .ok after) :
    after.Holds (history ++ added) := by
  induction added generalizing before history with
  | nil =>
    cases folded
    rw [List.append_nil]
    exact holds
  | cons item rest ih =>
    rw [List.foldlM_cons] at folded
    rcases Fallible.bind_ok folded with ⟨middle, entered, continued⟩
    have reached := ih (holds.add entered) continued
    rw [List.append_assoc] at reached
    exact reached

/-- The groups of a history are its items, and each leaves no call pending. -/
theorem interactionGroups_ok {groups : List (List Item)} (grouped : interactionGroups history = .ok groups) :
    groups.flatten = history ∧
      ∃ made, Ledger.Settles Item.exchange? ∅ groups made := by
  rcases Fallible.bind_ok grouped with ⟨state, folded, finished⟩
  have holds := foldlM_holds Grouping.start_holds folded
  split at finished
  · rename_i settled
    cases finished
    rcases holds.end_group settled with ⟨listed, settles⟩
    split
    · rename_i nothing
      rcases holds with ⟨items, made, kept, -⟩
      rw [List.isEmpty_iff.mp nothing, List.append_nil] at items
      exact ⟨items, made, kept⟩
    · exact ⟨listed, state.ledger.made, settles⟩
  · cases finished

theorem foldlM_add_of_run {history : List Item} {before : Grouping} {ledger : Ledger String}
    (ran : before.ledger.run Item.exchange? history = some ledger) :
    ∃ after, history.foldlM Grouping.add before = .ok after ∧ after.ledger = ledger := by
  induction history generalizing before with
  | nil =>
    cases ran
    exact ⟨before, rfl, rfl⟩
  | cons item rest ih =>
    rw [Ledger.run_cons] at ran
    rcases Option.bind_eq_some_iff.mp ran with ⟨middle, advanced, continued⟩
    rcases Grouping.add_of_advance advanced with ⟨entered, added, rfl⟩
    rcases ih continued with ⟨after, folded, reached⟩
    refine ⟨after, ?_, reached⟩
    rw [List.foldlM_cons, added]
    exact folded

/-- `interaction_groups` accepts the history. -/
def Accepted (history : List Item) : Prop :=
  ∃ groups, interactionGroups history = .ok groups

/-- A history is accepted if its calls and results are a run that leaves
nothing pending. -/
theorem accepted_of_run {history : List Item} {made : Finset String}
    (ran : Ledger.empty.run Item.exchange? history = some ⟨∅, made⟩) : Accepted history := by
  rcases @foldlM_add_of_run _ history Grouping.start ⟨∅, made⟩ ran with ⟨after, folded, reached⟩
  have settled : after.ledger.pending = ∅ := congrArg Ledger.pending reached
  exact ⟨_, (Fallible.bind_of_ok folded).trans (if_pos settled)⟩

theorem Accepted.run (accepted : Accepted history) :
    ∃ made, Ledger.empty.run Item.exchange? history = some ⟨∅, made⟩ := by
  rcases accepted with ⟨groups, grouped⟩
  rcases interactionGroups_ok grouped with ⟨rfl, made, settles⟩
  exact ⟨made, settles.run⟩

end Groups

end ContextCompression
end FixLoop
