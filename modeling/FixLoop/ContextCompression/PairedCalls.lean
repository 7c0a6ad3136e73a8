import FixLoop.ContextCompression.Pipeline

namespace FixLoop
namespace ContextCompression

open Library

/-!
# Calls and results stay together

Each stage leaves the items of a group with the calls and results that they
have, drops the group, or puts items without calls and results in its place.
A history that is accepted is therefore accepted after every stage.
-/

/-! ## Items that keep their calls and results -/

/-- The members on which the calls and results of an item depend. -/
structure SameCalls (item other : Item) : Prop where
  blocks : other.blocks = item.blocks
  role : other.get "role" = item.get "role"
  callId : other.get "tool_call_id" = item.get "tool_call_id"
  calls : (Json.obj other).get? "tool_calls" = (Json.obj item).get? "tool_calls"

variable {item : Item}

theorem SameCalls.exchange {other : Item} (same : SameCalls item other) :
    other.exchange? = item.exchange? := by
  have refs : ∀ kind key, other.blockRefs kind key = item.blockRefs kind key := by
    intro kind key
    rw [Item.blockRefs, Item.blockRefs, same.blocks]
  have results : other.resultIds = item.resultIds := by
    unfold Item.resultIds Item.hasRole Item.flag
    rw [refs, same.role, same.callId]
  have calls : other.calls = item.calls := by
    simp only [Item.calls, refs, same.calls]
  rw [Item.exchange?, Item.exchange?, results, calls]

theorem SameCalls.refl (item : Item) : SameCalls item item :=
  ⟨rfl, rfl, rfl, rfl⟩

theorem SameCalls.trans {first second third : Item} (before : SameCalls first second)
    (after : SameCalls second third) : SameCalls first third :=
  ⟨after.blocks.trans before.blocks, after.role.trans before.role, after.callId.trans before.callId,
    after.calls.trans before.calls⟩

theorem sameCalls_set (item : Item) {key : String} (value : Json) (content : key ≠ "content")
    (role : key ≠ "role") (callId : key ≠ "tool_call_id") (calls : key ≠ "tool_calls") :
    SameCalls item (item.set key value) where
  blocks := by rw [Item.blocks, Item.blocks, Item.get_set_ne item value content]
  role := Item.get_set_ne item value role
  callId := Item.get_set_ne item value callId
  calls := get?_set_ne item value calls

/-- A text can be set as the content, unless that was a list. -/
theorem sameCalls_set_content (text : String) (plain : item.hasBlocks = false) :
    SameCalls item (item.set "content" (.str text)) where
  blocks := by
    have nothing : item.blocks = [] := by
      rw [Item.hasBlocks] at plain
      rw [Item.blocks]
      split at plain
      · cases plain
      · rfl
    rw [nothing, Item.blocks, Item.get_set]
  role := Item.get_set_ne item _ (by decide)
  callId := Item.get_set_ne item _ (by decide)
  calls := get?_set_ne item _ (by decide)

/-- An item without calls and results. -/
abbrev Silent (item : Item) : Prop :=
  Ledger.Silent Item.exchange? item

theorem silent_systemItem (content : String) {mark : String}
    (marked : mark = "_snip" ∨ mark = "_collapsed" ∨ mark = "_history_summary" ∨ mark = "repair_state") :
    Silent (systemItem content mark) := by
  rcases marked with rfl | rfl | rfl | rfl
  · rfl
  · rfl
  · rfl
  · rfl

theorem silent_omissionMarker [Rendering] (lost summaryItems : Json) :
    Silent (omissionMarker lost summaryItems) :=
  rfl

theorem Accepted.cons_silent [Rendering] {history : List Item} (accepted : Accepted history)
    (silent : Silent item) : Accepted (item :: history) := by
  rcases accepted.run with ⟨made, ran⟩
  refine @accepted_of_run _ _ made ?_
  rw [Ledger.run_cons, Ledger.advance_silent _ silent]
  exact ran

/-! ## L0 -/

theorem requests_of_no_call {exchange : Exchange String} (viewed : item.exchange? = some exchange)
    (noCalls : item.flag "tool_calls" = false) (noBlocks : item.blockRefs "tool_use" "id" = []) :
    exchange.requests = [] := by
  rcases Option.bind_eq_some_iff.mp viewed with ⟨replies, -, viewed⟩
  rcases Option.map_eq_some_iff.mp viewed with ⟨requests, asked, rfl⟩
  rw [Item.calls, noBlocks] at asked
  rw [Item.flag, Item.get] at noCalls
  cases found : (Json.obj item).get? "tool_calls" with
  | none =>
    rw [found] at asked
    cases asked
    rfl
  | some value =>
    rw [found] at asked noCalls
    cases value with
    | arr items | obj members =>
      rw [Option.getD_some, Json.truthy, Bool.not_eq_false', List.isEmpty_iff] at noCalls
      subst noCalls
      cases asked
      rfl
    | str text =>
      rw [Option.getD_some, Json.truthy, bne_eq_false_iff_eq] at noCalls
      subst noCalls
      cases asked
      rfl
    | _ => cases asked

theorem hasToolCall_false {group : List Item} (without : hasToolCall group = false) (member : item ∈ group) :
    item.flag "tool_calls" = false ∧ item.blockRefs "tool_use" "id" = [] := by
  have none := List.any_eq_false.mp without item member
  rw [Bool.not_eq_true, Bool.or_eq_false_iff, Bool.or_eq_false_iff, Bool.not_eq_false'] at none
  exact ⟨none.1.1, List.isEmpty_iff.mp none.2⟩

section Stages

variable [Rendering]

variable {group history result : List Item} {groups : List (List Item)} {budget : Budget}
  {protectedTurns : List Nat} {window tail : Int} {turn : Option Int}

variable (policy : TierPolicy) {other : List Item} {index : Nat} {call : PipelineCall}

/-- The guard drops only items without calls and results. -/
theorem guardGroup_thinned {made : Finset String} {after : Ledger String}
    (ran : (Ledger.mk ∅ made).run Item.exchange? group = some after) :
    Ledger.Thinned Item.exchange? group (guardGroup policy group) := by
  rw [guardGroup]
  split
  · exact Ledger.Thinned.refl group
  · rename_i unguarded
    rw [Bool.or_eq_true, not_or, Bool.not_eq_true] at unguarded
    have silent := Ledger.run_silent (fun item member exchange viewed =>
      requests_of_no_call viewed (hasToolCall_false unguarded.1 member).1
        (hasToolCall_false unguarded.1 member).2) ran
    exact Or.inl (Ledger.spoken_filter fun item member _ => silent item member)

theorem guarded_thinned {made after : Finset String}
    (settles : Ledger.Settles Item.exchange? made groups after) :
    List.Forall₂ (Ledger.Thinned Item.exchange?) groups (groups.map (guardGroup policy)) := by
  induction groups generalizing made with
  | nil => exact List.Forall₂.nil
  | cons group rest ih =>
    rcases settles with ⟨middle, ran, continued⟩
    exact List.Forall₂.cons (guardGroup_thinned policy ran) (ih continued)

theorem accepted_of_thinned {others : List (List Item)} (grouped : interactionGroups history = .ok groups)
    (thinned : List.Forall₂ (Ledger.Thinned Item.exchange?) groups others) : Accepted others.flatten := by
  rcases interactionGroups_ok grouped with ⟨-, made, settles⟩
  rcases settles.thinned (Finset.Subset.refl ∅) thinned with ⟨less, kept⟩
  exact accepted_of_run kept.run

theorem l0TierGuard_accepted {policy : TierPolicy} (guarded : l0TierGuard history policy = .ok result) :
    Accepted result := by
  rcases Fallible.map_ok guarded with ⟨groups, grouped, rfl⟩
  rcases interactionGroups_ok grouped with ⟨-, made, settles⟩
  exact accepted_of_thinned grouped (guarded_thinned policy settles)

/-! ## L1 and L3 -/

/-- A history is accepted when its items are exchanged for others with the
same calls and results. -/
theorem Accepted.of_same (accepted : Accepted history) (same : List.Forall₂ SameCalls history other) :
    Accepted other := by
  rcases accepted.run with ⟨made, ran⟩
  refine @accepted_of_run _ _ made ?_
  rw [Ledger.run_same _ (same.imp fun _ _ both => both.exchange)]
  exact ran

theorem hasBlocks_of_unprotected {item : Item}
    (unprotected : ¬ (!item.hasRole "tool" || isProtectedResult item) = true) :
    item.hasBlocks = false := by
  rw [Bool.or_eq_true, not_or, Bool.not_eq_true, Bool.not_eq_true, isProtectedResult,
    Bool.or_eq_false_iff, Bool.or_eq_false_iff] at unprotected
  exact unprotected.2.1.2

theorem reduceItem_same (budget : Budget) (item : Item) : SameCalls item (reduceItem budget item) := by
  rw [reduceItem]
  split
  · exact SameCalls.refl item
  · rename_i unprotected
    exact sameCalls_set_content _ (hasBlocks_of_unprotected unprotected)

theorem l1BudgetReduction_accepted (budget : Budget) (accepted : Accepted history) :
    Accepted (l1BudgetReduction history budget) := by
  refine accepted.of_same (List.forall₂_map_right_iff.mpr ?_)
  exact List.forall₂_same.mpr fun item _ => reduceItem_same budget item

omit [Rendering] in
theorem assignToolRefIds_same (refId : Nat) (history : List Item) :
    List.Forall₂ SameCalls history (assignToolRefIds refId history) := by
  induction history generalizing refId with
  | nil => exact List.Forall₂.nil
  | cons item rest ih =>
    rw [assignToolRefIds]
    split
    · exact List.Forall₂.cons (SameCalls.refl item) (ih refId)
    · exact List.Forall₂.cons
        (sameCalls_set item _ (by decide) (by decide) (by decide) (by decide)) (ih (refId + 1))

theorem compactItem_same {turns : List (List Item)} {item other : Item}
    (compacted : compactItem budget turns protectedTurns index item = .ok (some other)) :
    SameCalls item other := by
  rw [compactItem] at compacted
  split at compacted
  · cases compacted
  · rename_i unprotected
    split at compacted
    · cases compacted
    · split at compacted
      · cases compacted
      · split at compacted
        · cases compacted
        · rcases Fallible.map_ok compacted with ⟨refId, -, replaced⟩
          cases replaced
          exact (sameCalls_set_content _ (hasBlocks_of_unprotected unprotected)).trans
            (sameCalls_set _ _ (by decide) (by decide) (by decide) (by decide))

theorem l3Microcompact_accepted (stubbed : l3Microcompact history budget window turn tail = .ok result)
    (accepted : Accepted history) : Accepted result := by
  rcases Fallible.bind_ok stubbed with ⟨threshold, -, continued⟩
  split at continued
  · cases continued
    exact accepted
  · rcases Fallible.bind_ok continued with ⟨turns, -, continued⟩
    rcases Fallible.bind_ok continued with ⟨protectedTurns, -, changed⟩
    have rewritten := changeWhile_related SameCalls.refl
      (fun index item other compacted => compactItem_same compacted)
      (fun _ _ _ before after => before.trans after) changed
    exact (accepted.of_same (assignToolRefIds_same 0 history)).of_same rewritten

/-! ## L2 and L4 -/

theorem replaceTurns_accepted {threshold : Int}
    {replace : List Nat -> Option Int -> Nat -> List Item -> Except Fault (Option (List Item))}
    (silent : ∀ protectedTurns index group other, replace protectedTurns turn index group = .ok (some other) -> ∀ item ∈ other, Silent item)
    (replaced : replaceTurns history budget threshold window turn tail replace = .ok result)
    (accepted : Accepted history) : Accepted result := by
  rw [replaceTurns] at replaced
  split at replaced
  · cases replaced
    exact accepted
  · rcases Fallible.bind_ok replaced with ⟨turns, grouped, continued⟩
    split at continued
    · cases continued
      exact accepted
    · rcases Fallible.bind_ok continued with ⟨protectedTurns, -, finished⟩
      rcases Fallible.map_ok finished with ⟨working, changed, rfl⟩
      refine accepted_of_thinned grouped (changeWhile_related Ledger.Thinned.refl ?_
        (fun _ _ _ before after => before.trans after) changed)
      exact fun index group other changes =>
        Ledger.Thinned.of_silent (silent protectedTurns index group other changes)

theorem snipTurn_silent (snipped : snipTurn protectedTurns turn index group = .ok (some other)) :
    ∀ item ∈ other, Silent item := by
  rw [snipTurn] at snipped
  split at snipped
  · cases snipped
  · split at snipped
    · cases snipped
    · rcases Fallible.map_ok snipped with ⟨score, -, chosen⟩
      split at chosen
      · cases chosen
        exact List.forall_mem_singleton.mpr (silent_systemItem _ (Or.inl rfl))
      · cases chosen

theorem collapseTurn_silent
    (collapsed : collapseTurn budget protectedTurns turn index group = .ok (some other)) :
    ∀ item ∈ other, Silent item := by
  rw [collapseTurn] at collapsed
  split at collapsed
  · cases collapsed
  · rcases Fallible.map_ok collapsed with ⟨collapsible, -, chosen⟩
    split at chosen
    · cases chosen
      exact List.forall_mem_singleton.mpr (silent_systemItem _ (Or.inr (Or.inl rfl)))
    · cases chosen

theorem l2Snip_accepted (snipped : l2Snip history budget window turn tail = .ok result)
    (accepted : Accepted history) : Accepted result := by
  rcases Fallible.bind_ok snipped with ⟨threshold, -, replaced⟩
  exact replaceTurns_accepted (fun _ _ _ _ => snipTurn_silent) replaced accepted

theorem l4Collapse_accepted (collapsed : l4Collapse history budget window turn tail = .ok result)
    (accepted : Accepted history) : Accepted result := by
  rcases Fallible.bind_ok collapsed with ⟨threshold, -, replaced⟩
  exact replaceTurns_accepted (fun _ _ _ _ => collapseTurn_silent) replaced accepted

/-- The stages before L5. -/
theorem reduced_accepted {reduced : List Item} (returned : call.reduced window = .ok reduced) :
    Accepted reduced := by
  rcases Fallible.bind_ok returned with ⟨-, -, guards⟩
  rcases Fallible.bind_ok guards with ⟨guarded, guards, snips⟩
  rcases Fallible.bind_ok snips with ⟨snipped, snips, stubs⟩
  rcases Fallible.bind_ok stubs with ⟨stubbed, stubs, collapses⟩
  have first := l1BudgetReduction_accepted call.budget (l0TierGuard_accepted guards)
  have second := l2Snip_accepted snips first
  have third := l3Microcompact_accepted stubs second
  exact l4Collapse_accepted collapses third

/-! ## L5 and the repair state -/

omit [Rendering] in
theorem selectedGroups_flatten (groups : List (List Item)) (selected : List Nat) :
    (selectedGroups groups selected).flatten =
      (groups.zipIdx.map fun entry => if selected.contains entry.2 then entry.1 else []).flatten := by
  rw [selectedGroups]
  generalize groups.zipIdx = entries
  induction entries with
  | nil => rfl
  | cons entry rest ih =>
    cases kept : selected.contains entry.2 with
    | true => simp only [List.filter_cons, kept, if_true, List.map_cons, List.flatten_cons, ih]
    | false =>
      simp only [List.filter_cons, kept, Bool.false_eq_true, if_false, List.map_cons,
        List.flatten_cons, List.nil_append, ih]

omit [Rendering] in
theorem selected_thinned (groups : List (List Item)) (selected : List Nat) (start : Nat) :
    List.Forall₂ (Ledger.Thinned Item.exchange?) groups
      ((groups.zipIdx start).map fun entry => if selected.contains entry.2 then entry.1 else []) := by
  induction groups generalizing start with
  | nil => exact List.Forall₂.nil
  | cons group rest ih =>
    refine List.Forall₂.cons ?_ (ih (start + 1))
    dsimp only
    split
    · exact Ledger.Thinned.refl group
    · exact Ledger.Thinned.of_silent nofun

theorem renderGroups_accepted {omitted summaryItems : Json} {selected : List Nat}
    (grouped : interactionGroups history = .ok groups)
    (rendered : renderGroups groups omitted summaryItems selected = .ok result) : Accepted result := by
  rcases Fallible.map_ok rendered with ⟨lost, -, rfl⟩
  have kept : Accepted (selectedGroups groups selected).flatten := by
    rw [selectedGroups_flatten]
    exact accepted_of_thinned grouped (selected_thinned groups selected 0)
  rcases kept.run with ⟨made, ran⟩
  split
  · refine @accepted_of_run _ _ made (Ledger.run_append_some ran ?_)
    rw [Ledger.run_cons, Ledger.advance_silent _ (silent_omissionMarker lost summaryItems)]
    rfl
  · rw [List.append_nil]
    exact kept

theorem fitL5Groups_accepted {maxGroups : Option Nat} {omitted summaryItems : Json}
    (fitted : fitL5Groups history budget window turn maxGroups omitted summaryItems = .ok result) :
    Accepted result := by
  rcases Fallible.bind_ok fitted with ⟨groups, grouped, fitted⟩
  rcases Fallible.bind_ok fitted with ⟨pinned, -, fitted⟩
  rcases Fallible.bind_ok fitted with ⟨rendered, -, fitted⟩
  split at fitted
  · cases fitted
  · rcases Fallible.bind_ok fitted with ⟨selected, -, finished⟩
    exact renderGroups_accepted grouped finished

variable [Decoding]

theorem summarized_accepted {call : CompactCall} {compaction : Compaction} {refs : List String}
    {omittedGroups : Int} {raw : String}
    (summarized : call.summarized compaction refs omittedGroups raw = .ok result) : Accepted result := by
  rcases Fallible.bind_ok summarized with ⟨value, -, summarized⟩
  rcases Fallible.bind_ok summarized with ⟨fitted, -, summarized⟩
  rcases Fallible.bind_ok summarized with ⟨omitted, -, summarized⟩
  rcases Fallible.bind_ok summarized with ⟨summaryItems, -, finished⟩
  exact fitL5Groups_accepted finished

theorem l5AutoCompact_accepted {call : CompactCall} {summarizer : Option Summarizer} {cache : SummaryCache}
    (compacted : (l5AutoCompact call summarizer cache).1 = .ok result) (accepted : Accepted call.history) :
    Accepted result := by
  rcases l5AutoCompact_ok compacted with ⟨-, same⟩ | ⟨compaction, -, outcome⟩
  · rw [same]
    exact accepted
  · rcases outcome with ⟨-, same⟩ | ⟨refs, omittedGroups, raw, summarized⟩ | cut
    · rw [same]
      exact accepted
    · exact summarized_accepted summarized
    · rcases Fallible.bind_ok cut with ⟨summaryItems, -, fitted⟩
      exact fitL5Groups_accepted fitted

omit [Decoding] in
theorem withRepairState_accepted {projected : List Item}
    (inserted : call.withRepairState projected = .ok result) (accepted : Accepted projected) :
    Accepted result := by
  rcases Fallible.map_ok inserted with ⟨lost, -, rfl⟩
  cases lost with
  | none => exact accepted
  | some stateText =>
    exact accepted.cons_silent (silent_systemItem stateText (Or.inr (Or.inr (Or.inr rfl))))

/-- Whenever the pipeline returns a projection, its tool calls and results
are paired. -/
theorem compressed_calls_paired {call : PipelineCall} {summarizer : Option Summarizer}
    {cache : SummaryCache} {projected : List Item}
    (returned : (runCompressionPipeline call summarizer cache).1 = .ok projected) :
    Accepted projected := by
  rcases runCompressionPipeline_ok returned with ⟨window, reduced, compacted, -, reduces, compacts, inserted⟩
  exact withRepairState_accepted inserted (l5AutoCompact_accepted compacts (reduced_accepted reduces))

end Stages

section Witness

attribute [local instance] Rendering.spelled Decoding.emptyDict

/-- A question, a call and its result. -/
def pairedHistory : List Item :=
  [[("role", .str "user"), ("content", .str "Why?")],
    [("role", .str "assistant"), ("tool_calls", .arr [.obj [("id", .str "c1")]])],
    [("role", .str "tool"), ("tool_call_id", .str "c1"), ("content", .str "Because.")]]

/-- The pipeline at this window, without a memory or a summarizer. -/
def plainRun (history : List Item) (historyWindow : Int) : Except Exit (List Item) :=
  (runCompressionPipeline
    ⟨history, Budget.bytes, [], none, some historyWindow, TierPolicy.default, true⟩ none []).1

theorem paired_history_compressed : ∃ projected,
    plainRun pairedHistory 200 = .ok projected ∧ Accepted projected := by
  have returns : (plainRun pairedHistory 200).isOk = true := by decide +kernel
  cases outcome : plainRun pairedHistory 200 with
  | error fault =>
    rw [outcome] at returns
    cases returns
  | ok projected => exact ⟨projected, rfl, compressed_calls_paired outcome⟩

end Witness

end ContextCompression
end FixLoop
