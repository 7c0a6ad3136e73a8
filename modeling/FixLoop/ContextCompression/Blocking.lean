import FixLoop.ContextCompression.Pipeline

namespace FixLoop
namespace ContextCompression

open Library

/-!
# Well-formed histories

An item is well formed if the members that the stages read as numbers and as
lists of calls are such.  On well-formed histories the stages return or end
with `ContextBuildBlockedError`, and their results are well formed again.
-/

section WellFormed

variable [Rendering]

structure WellFormed (item : Item) : Prop where
  calls : Fallible.Returns item.calls
  turnId : item.get "turn_id" = .null ∨ Fallible.Returns (intOf (item.get "turn_id"))
  interactions : ∃ count,
    (((Json.obj item).get? "_omitted_interactions").getD (.int 0)).int? = some count
  summaryItems : ∃ count,
    (((Json.obj item).get? "_omitted_summary_items").getD (.int 0)).int? = some count

def AllWellFormed (history : List Item) : Prop :=
  ∀ item ∈ history, WellFormed item

def isBlocked (fault : Fault) : Prop :=
  ∃ reason, fault = .blocked reason

/-- The only error is `ContextBuildBlockedError`. -/
abbrev Blocks {Value : Type} (computation : Except Fault Value) : Prop :=
  Fallible.Raises isBlocked computation

variable {Value : Type} {key : String} {history : List Item} {turns : List (List Item)} {window : Int}
  {call : CompactCall} {summarizer : Option Summarizer}

omit [Rendering] in
theorem blocks_mismatch : Blocks (.error pairMismatch : Except Fault Value) :=
  Fallible.raises_error ⟨_, rfl⟩

variable {item : Item} {groups : List (List Item)} {tail : Int} {protectedTurns : List Nat}
  {compaction : Compaction}

/-- A member that is not read as a number can be set. -/
theorem WellFormed.set (wellFormed : WellFormed item) (value : Json) (calls : key ≠ "tool_calls")
    (turnId : key ≠ "turn_id") (interactions : key ≠ "_omitted_interactions")
    (summaryItems : key ≠ "_omitted_summary_items") :
    WellFormed (item.set key value) where
  calls := by
    rcases wellFormed.calls with ⟨refs, returned⟩
    rcases Fallible.map_ok returned with ⟨ids, listed, -⟩
    rw [Item.calls, get?_set_ne item value calls, listed]
    exact Fallible.returns_ok _
  turnId := by
    rw [Item.get_set_ne item value turnId]
    exact wellFormed.turnId
  interactions := by
    rw [get?_set_ne item value interactions]
    exact wellFormed.interactions
  summaryItems := by
    rw [get?_set_ne item value summaryItems]
    exact wellFormed.summaryItems

theorem wellFormed_systemItem (content : String) {mark : String}
    (marked : mark = "_snip" ∨ mark = "_collapsed" ∨ mark = "_history_summary" ∨ mark = "repair_state") :
    WellFormed (systemItem content mark) := by
  rcases marked with rfl | rfl | rfl | rfl
  · exact ⟨⟨_, rfl⟩, Or.inl rfl, ⟨0, rfl⟩, ⟨0, rfl⟩⟩
  · exact ⟨⟨_, rfl⟩, Or.inl rfl, ⟨0, rfl⟩, ⟨0, rfl⟩⟩
  · exact ⟨⟨_, rfl⟩, Or.inl rfl, ⟨0, rfl⟩, ⟨0, rfl⟩⟩
  · exact ⟨⟨_, rfl⟩, Or.inl rfl, ⟨0, rfl⟩, ⟨0, rfl⟩⟩

/-! ## Groups and turns -/

omit [Rendering] in
theorem allowedIds_blocks (allowed : List String -> Prop) [DecidablePred allowed]
    (found : Option (List String)) : Blocks (allowedIds allowed found) := by
  cases found with
  | none => exact blocks_mismatch
  | some ids =>
    rw [allowedIds]
    split
    · exact Fallible.raises_ok ids
    · exact blocks_mismatch

theorem interactionGroups_blocks (wellFormed : AllWellFormed history) :
    Blocks (interactionGroups history) := by
  refine Fallible.raises_bind (Fallible.raises_foldlM (fun state item member => ?_) _)
    (fun state _ => ?_)
  · refine Fallible.raises_bind (allowedIds_blocks _ _) fun replies _ => ?_
    refine Fallible.raises_bind ?_ fun requests _ => Fallible.raises_ok _
    exact Fallible.raises_bind (wellFormed item member).calls.raises
      (fun refs _ => allowedIds_blocks _ _)
  · split
    · exact Fallible.raises_ok _
    · exact blocks_mismatch

theorem wellFormed_groups (grouped : interactionGroups history = .ok groups)
    (wellFormed : AllWellFormed history) : ∀ group ∈ groups, AllWellFormed group := by
  intro group listed item member
  rw [← (interactionGroups_ok grouped).1] at wellFormed
  exact wellFormed item (List.mem_flatten.mpr ⟨group, listed, member⟩)

theorem turnIdOfTurn_returns {turn : List Item} (wellFormed : AllWellFormed turn) :
    Fallible.Returns (turnIdOfTurn turn) := by
  induction turn with
  | nil => exact Fallible.returns_ok none
  | cons item rest ih =>
    rcases List.forall_mem_cons.mp wellFormed with ⟨head, tail⟩
    rw [turnIdOfTurn]
    split
    · exact ih tail
    · rename_i named
      rcases head.turnId with absent | numbered
      · exact absurd absent named
      · exact numbered.map

theorem isCurrentTurn_returns {turn : List Item} (wellFormed : AllWellFormed turn)
    (activeTurnId : Option Int) : Fallible.Returns (isCurrentTurn turn activeTurnId) := by
  cases activeTurnId with
  | none => exact Fallible.returns_ok false
  | some active => exact (turnIdOfTurn_returns wellFormed).map

theorem protectedTurnIndices_returns (wellFormed : ∀ turn ∈ turns, AllWellFormed turn)
    (budget : Budget) (currentTurnId : Option Int)
    (protectable : Fallible.Returns (effectiveTailProtectTokens tail window)) :
    Fallible.Returns (protectedTurnIndices turns budget window currentTurnId tail) := by
  rw [protectedTurnIndices]
  split
  · exact Fallible.returns_ok []
  · refine Fallible.Returns.bind ?_ fun current _ => protectable.map
    exact (Fallible.returns_mapM (fun turn member =>
      isCurrentTurn_returns (wellFormed turn member) currentTurnId)).map

/-! ## The stages before L5 -/

theorem l0TierGuard_wellFormed {result : List Item} {policy : TierPolicy}
    (guarded : l0TierGuard history policy = .ok result) (wellFormed : AllWellFormed history) :
    AllWellFormed result := by
  rcases Fallible.map_ok guarded with ⟨groups, grouped, rfl⟩
  have groupsFormed := wellFormed_groups grouped wellFormed
  intro item member
  rcases List.mem_flatten.mp member with ⟨kept, listed, inside⟩
  rcases List.mem_map.mp listed with ⟨group, source, rfl⟩
  refine groupsFormed group source item ?_
  rw [guardGroup] at inside
  split at inside
  · exact inside
  · exact (List.mem_filter.mp inside).1

theorem l1BudgetReduction_wellFormed (budget : Budget) (wellFormed : AllWellFormed history) :
    AllWellFormed (l1BudgetReduction history budget) := by
  intro item member
  rcases List.mem_map.mp member with ⟨source, listed, rfl⟩
  rw [reduceItem]
  split
  · exact wellFormed source listed
  · exact (wellFormed source listed).set _ (by decide) (by decide) (by decide) (by decide)

/-- What a turn may be replaced by, and that the replacement is found. -/
structure Replaces
    (replace : List Nat -> Option Int -> Nat -> List Item -> Except Fault (Option (List Item))) :
    Prop where
  returns : ∀ protectedTurns currentTurnId index turn, AllWellFormed turn ->
    Fallible.Returns (replace protectedTurns currentTurnId index turn)
  keeps : ∀ protectedTurns currentTurnId index turn other,
    replace protectedTurns currentTurnId index turn = .ok (some other) -> AllWellFormed other

theorem snipTurn_replaces : Replaces snipTurn where
  returns protectedTurns currentTurnId index turn wellFormed := by
    rw [snipTurn]
    split
    · exact Fallible.returns_ok none
    · split
      · exact Fallible.returns_ok none
      · exact (isCurrentTurn_returns wellFormed currentTurnId).map.map
  keeps protectedTurns currentTurnId index turn other snipped := by
    rw [snipTurn] at snipped
    split at snipped
    · cases snipped
    · split at snipped
      · cases snipped
      · rcases Fallible.map_ok snipped with ⟨score, -, chosen⟩
        split at chosen
        · cases chosen
          exact List.forall_mem_singleton.mpr (wellFormed_systemItem _ (Or.inl rfl))
        · cases chosen

theorem collapseTurn_replaces (budget : Budget) : Replaces (collapseTurn budget) where
  returns protectedTurns currentTurnId index turn wellFormed := by
    rw [collapseTurn]
    split
    · exact Fallible.returns_ok none
    · exact (isCurrentTurn_returns wellFormed currentTurnId).map.map
  keeps protectedTurns currentTurnId index turn other collapsed := by
    rw [collapseTurn] at collapsed
    split at collapsed
    · cases collapsed
    · rcases Fallible.map_ok collapsed with ⟨collapsible, -, chosen⟩
      split at chosen
      · cases chosen
        exact List.forall_mem_singleton.mpr (wellFormed_systemItem _ (Or.inr (Or.inl rfl)))
      · cases chosen

/-- The computation returns a well-formed history or is blocked. -/
structure StaysFormed (computation : Except Fault (List Item)) : Prop where
  blocks : Blocks computation
  formed : ∀ result, computation = .ok result -> AllWellFormed result

theorem stays_ok (wellFormed : AllWellFormed history) :
    StaysFormed (.ok history) where
  blocks := Fallible.raises_ok history
  formed result returned := by
    cases returned
    exact wellFormed

theorem replaceTurns_stays (wellFormed : AllWellFormed history) (budget : Budget) (threshold : Int)
    (currentTurnId : Option Int) (protectable : Fallible.Returns (effectiveTailProtectTokens tail window))
    {replace : List Nat -> Option Int -> Nat -> List Item -> Except Fault (Option (List Item))}
    (replaces : Replaces replace) :
    StaysFormed (replaceTurns history budget threshold window currentTurnId tail replace) := by
  rw [replaceTurns]
  split
  · exact stays_ok wellFormed
  · constructor
    · refine Fallible.raises_bind (interactionGroups_blocks wellFormed) fun turns grouped => ?_
      split
      · exact Fallible.raises_ok history
      · have formed := wellFormed_groups grouped wellFormed
        refine Fallible.raises_bind
          (protectedTurnIndices_returns formed budget currentTurnId protectable).raises
          (fun protectedTurns _ => Fallible.raises_map (Fallible.Returns.raises ?_))
        exact changeWhile_returns (replaces.returns protectedTurns currentTurnId)
          (fun index turn other changed _ => replaces.keeps _ _ index turn other changed) _ _ formed
    · intro result replaced
      rcases Fallible.bind_ok replaced with ⟨turns, grouped, continued⟩
      split at continued
      · cases continued
        exact wellFormed
      · rcases Fallible.bind_ok continued with ⟨protectedTurns, -, finished⟩
        rcases Fallible.map_ok finished with ⟨working, changed, rfl⟩
        have related := changeWhile_related (fun _ held => held)
          (fun index turn other changed (_ : AllWellFormed turn) =>
            replaces.keeps protectedTurns currentTurnId index turn other changed)
          (fun _ _ _ before after held => after (before held)) changed
        have allFormed := forall₂_valid related (wellFormed_groups grouped wellFormed)
        intro item member
        rcases List.mem_flatten.mp member with ⟨turn, listed, inside⟩
        exact allFormed turn listed item inside

theorem assignToolRefIds_wellFormed (refId : Nat) (wellFormed : AllWellFormed history) :
    AllWellFormed (assignToolRefIds refId history) := by
  induction history generalizing refId with
  | nil => exact nofun
  | cons item rest ih =>
    rcases List.forall_mem_cons.mp wellFormed with ⟨head, tail⟩
    rw [assignToolRefIds]
    split
    · exact List.forall_mem_cons.mpr ⟨head, ih refId tail⟩
    · exact List.forall_mem_cons.mpr
        ⟨head.set _ (by decide) (by decide) (by decide) (by decide), ih (refId + 1) tail⟩

theorem compactItem_returns {budget : Budget} (index : Nat) (referenced : Referenced item) :
    Fallible.Returns (compactItem budget turns protectedTurns index item) := by
  rw [compactItem]
  split
  · exact Fallible.returns_ok none
  · rename_i unprotected
    split
    · exact Fallible.returns_ok none
    · rename_i unmarked
      split
      · exact Fallible.returns_ok none
      · split
        · exact Fallible.returns_ok none
        · rw [Bool.or_eq_true, not_or, Bool.not_eq_true, Bool.not_eq_false'] at unprotected
          rw [Bool.or_eq_true, not_or, Bool.not_eq_true, Bool.not_eq_true] at unmarked
          rcases referenced unprotected.1 unmarked.1 with ⟨refId, named, -⟩
          rw [named]
          exact Fallible.returns_ok _

theorem compactItem_keeps {budget : Budget} {index : Nat} {other : Item} (wellFormed : WellFormed item)
    (compacted : compactItem budget turns protectedTurns index item = .ok (some other)) :
    WellFormed other := by
  rw [compactItem] at compacted
  split at compacted
  · cases compacted
  · split at compacted
    · cases compacted
    · split at compacted
      · cases compacted
      · split at compacted
        · cases compacted
        · rcases Fallible.map_ok compacted with ⟨refId, -, replaced⟩
          cases replaced
          exact (wellFormed.set _ (by decide) (by decide) (by decide) (by decide)).set _ (by decide)
            (by decide) (by decide) (by decide)

theorem l3Microcompact_stays (wellFormed : AllWellFormed history) (budget : Budget)
    (currentTurnId : Option Int) (protectable : Fallible.Returns (effectiveTailProtectTokens tail window))
    (threshold : Fallible.Returns (compressionThreshold (70 / 100) window)) :
    StaysFormed (l3Microcompact history budget window currentTurnId tail) := by
  rcases threshold with ⟨threshold, computed⟩
  rw [l3Microcompact, Fallible.bind_of_ok computed]
  split
  · exact stays_ok wellFormed
  · constructor
    · refine Fallible.raises_bind (interactionGroups_blocks wellFormed) fun turns grouped => ?_
      have formed := wellFormed_groups grouped wellFormed
      refine Fallible.raises_bind
        (protectedTurnIndices_returns formed budget currentTurnId protectable).raises
        (fun protectedTurns _ => Fallible.Returns.raises ?_)
      have keeps : ∀ index item other,
          compactItem budget turns protectedTurns index item = .ok (some other) ->
            Referenced item -> Referenced other :=
        fun _ _ _ compacted referenced => (compactItem_settles referenced compacted).1
      have returns : ∀ index item, Referenced item ->
          Fallible.Returns (compactItem budget turns protectedTurns index item) :=
        fun index _ referenced => compactItem_returns index referenced
      exact changeWhile_returns returns keeps _ _ (assignToolRefIds_referenced 0 history)
    · intro result stubbed
      rcases Fallible.bind_ok stubbed with ⟨turns, -, continued⟩
      rcases Fallible.bind_ok continued with ⟨protectedTurns, -, changed⟩
      have related := changeWhile_related (fun _ held => held)
        (fun index item other compacted (held : WellFormed item) => compactItem_keeps held compacted)
        (fun _ _ _ before after held => after (before held)) changed
      exact forall₂_valid related (assignToolRefIds_wellFormed 0 wellFormed)

theorem StaysFormed.bind {first : Except Fault (List Item)}
    {next : List Item -> Except Fault (List Item)} (before : StaysFormed first)
    (after : ∀ history, AllWellFormed history -> StaysFormed (next history)) :
    StaysFormed (first >>= next) where
  blocks := Fallible.raises_bind before.blocks
    (fun history returned => (after history (before.formed history returned)).blocks)
  formed result returned := by
    rcases Fallible.bind_ok returned with ⟨middle, reached, finished⟩
    exact (after middle (before.formed middle reached)).formed result finished

/-- The stages before L5, where the thresholds can be computed. -/
theorem reduced_stays {call : PipelineCall} (wellFormed : AllWellFormed call.history)
    (thresholds : checkThresholds call.tierPolicy.tailProtectTokens window = .ok ()) :
    StaysFormed (call.reduced window) := by
  rcases Fallible.bind_ok thresholds with ⟨effectiveTail, protectable, checked⟩
  rcases Fallible.bind_ok checked with ⟨second, snips, checked⟩
  rcases Fallible.bind_ok checked with ⟨third, stubs, checked⟩
  rcases Fallible.bind_ok checked with ⟨fourth, collapses, -⟩
  have tail : Fallible.Returns
      (effectiveTailProtectTokens call.tierPolicy.tailProtectTokens window) :=
    ⟨effectiveTail, protectable⟩
  rw [PipelineCall.reduced, Fallible.bind_of_ok thresholds]
  refine StaysFormed.bind ⟨Fallible.raises_map (interactionGroups_blocks wellFormed),
    fun result guarded => l0TierGuard_wellFormed guarded wellFormed⟩ fun guarded formed => ?_
  refine StaysFormed.bind ?_ fun snipped formed => ?_
  · rw [l2Snip, Fallible.bind_of_ok snips]
    exact replaceTurns_stays (l1BudgetReduction_wellFormed call.budget formed) call.budget second _
      tail snipTurn_replaces
  · refine StaysFormed.bind (l3Microcompact_stays formed call.budget _ tail ⟨third, stubs⟩)
      (fun stubbed formed => ?_)
    rw [l4Collapse, Fallible.bind_of_ok collapses]
    exact replaceTurns_stays formed call.budget fourth _ tail (collapseTurn_replaces call.budget)

/-! ## L5 -/

section

omit [Rendering]

theorem plus_int {left right : Json} {first second : Int} (one : left.int? = some first)
    (two : right.int? = some second) : plus left right = .ok (.int (first + second)) := by
  rw [plus, one, two]

theorem sumOf_from {start : Int}
    (counts : ∀ item ∈ history, ∃ count, (((Json.obj item).get? key).getD (.int 0)).int? = some count) :
    ∃ total, history.foldlM (fun sum item =>
      plus sum (((Json.obj item).get? key).getD (.int 0))) (.int start) = .ok (.int total) := by
  induction history generalizing start with
  | nil => exact ⟨start, rfl⟩
  | cons item rest ih =>
    rcases List.forall_mem_cons.mp counts with ⟨⟨count, head⟩, tail⟩
    rw [List.foldlM_cons, plus_int rfl head]
    exact ih tail

theorem sumOf_int
    (counts : ∀ item ∈ history, ∃ count, (((Json.obj item).get? key).getD (.int 0)).int? = some count) :
    ∃ total, sumOf history key = .ok (.int total) :=
  sumOf_from counts

end

/-- What `prepare` hands on: numbers, and a working history that is part of
the history. -/
structure Compaction.Formed (compaction : Compaction) : Prop where
  omitted : ∃ count, compaction.priorOmitted = .int count
  items : ∃ count, compaction.priorItems = .int count
  working : AllWellFormed compaction.working

theorem l5Pinned_returns (wellFormed : ∀ group ∈ groups, AllWellFormed group)
    (currentTurnId : Option Int) : Fallible.Returns (l5Pinned groups currentTurnId) := by
  refine (Fallible.returns_mapM fun entry member => ?_).map
  rw [pinned?]
  split
  · exact Fallible.returns_ok _
  · exact (isCurrentTurn_returns
      (wellFormed entry.1 (List.fst_mem_of_mem_zipIdx member)) currentTurnId).map

theorem prepare_formed {trigger : Int}
    (resolved : resolveHistoryWindow call.budget call.historyWindow = .ok window)
    (untriggered : call.triggerTokens = none) (threshold : compressionThreshold 1 window = .ok trigger)
    (wellFormed : AllWellFormed call.history) :
    Blocks call.prepare ∧
      ∀ compaction, call.prepare = .ok (some compaction) -> compaction.Formed := by
  rcases sumOf_int (fun item member => (wellFormed item member).interactions) with ⟨omitted, sums⟩
  rcases sumOf_int (fun item member => (wellFormed item member).summaryItems) with ⟨items, totals⟩
  have working : AllWellFormed (workingHistory call.history) :=
    fun item member => wellFormed item (List.mem_filter.mp member).1
  rw [CompactCall.prepare, Fallible.bind_of_ok resolved, untriggered]
  dsimp only
  rw [Fallible.bind_of_ok threshold]
  split
  · exact ⟨Fallible.raises_ok none, nofun⟩
  · rw [Fallible.bind_of_ok sums, Fallible.bind_of_ok totals]
    constructor
    · refine Fallible.raises_bind (interactionGroups_blocks working) fun groups grouped => ?_
      refine Fallible.raises_bind
        (l5Pinned_returns (wellFormed_groups grouped working) call.currentTurnId).raises
        (fun pinned _ => ?_)
      split
      · exact Fallible.raises_error ⟨_, rfl⟩
      · exact Fallible.raises_ok _
    · intro compaction prepared
      rcases Fallible.bind_ok prepared with ⟨groups, -, prepared⟩
      rcases Fallible.bind_ok prepared with ⟨pinned, -, prepared⟩
      split at prepared
      · cases prepared
      · cases prepared
        exact ⟨⟨omitted, rfl⟩, ⟨items, rfl⟩, working⟩

theorem renderGroups_returns (groups : List (List Item)) {omitted summaryItems : Json} {count : Int}
    (number : omitted = .int count) (selected : List Nat) :
    Fallible.Returns (renderGroups groups omitted summaryItems selected) := by
  rw [renderGroups, number, plus_int rfl rfl]
  exact Fallible.returns_ok _

theorem fitGroups_returns (groups : List (List Item)) (budget : Budget) (window : Int)
    (maxGroups : Option Nat) {omitted summaryItems : Json} {count : Int}
    (number : omitted = .int count) (index : Nat) (selected : List Nat) :
    Fallible.Returns (fitGroups groups budget window maxGroups omitted summaryItems index selected) := by
  induction index generalizing selected with
  | zero => exact Fallible.returns_ok selected
  | succ index ih =>
    rw [fitGroups]
    split
    · exact ih selected
    · refine (renderGroups_returns groups number _).bind fun rendered _ => ?_
      split
      · exact ih selected
      · exact ih (index :: selected)

theorem fallback_blocks (formed : compaction.Formed) : Blocks (call.fallback compaction) := by
  rcases formed.items with ⟨items, prior⟩
  rcases formed.omitted with ⟨count, number⟩
  rw [CompactCall.fallback, prior, Fallible.bind_of_ok (plus_int rfl rfl)]
  refine Fallible.raises_bind (interactionGroups_blocks formed.working) fun groups grouped => ?_
  refine Fallible.raises_bind
    (l5Pinned_returns (wellFormed_groups grouped formed.working) call.currentTurnId).raises
    (fun pinned _ => ?_)
  refine Fallible.raises_bind (renderGroups_returns groups number pinned).raises fun rendered _ => ?_
  split
  · exact Fallible.raises_error ⟨_, rfl⟩
  · exact Fallible.raises_bind (fitGroups_returns groups _ _ _ number _ _).raises
      (fun selected _ => (renderGroups_returns groups number selected).raises)

variable [Decoding]

def NeverCancelled (summarizer : Option Summarizer) : Prop :=
  ∀ present, summarizer = some present -> ∀ prompt, present.call prompt ≠ .error .cancelled

omit [Rendering] [Decoding] in
theorem raising_uncancelled (computation : Except Fault Value) :
    Fallible.Raises (fun exit => exit ≠ Exit.cancelled) (raising computation) := by
  cases computation with
  | error fault => exact Fallible.raises_error nofun
  | ok value => exact Fallible.raises_ok value

omit [Rendering] [Decoding] in
theorem summaryText_uncancelled (never : NeverCancelled summarizer) (cache : SummaryCache)
    (cacheKey prompt : String) :
    Fallible.Raises (fun exit => exit ≠ Exit.cancelled)
      (summaryText summarizer cache cacheKey prompt).1 := by
  unfold summaryText
  split
  · exact Fallible.raises_ok _
  · exact Fallible.raises_error nofun
  · rename_i present _
    split
    · exact Fallible.raises_ok _
    · rename_i exit answered
      refine Fallible.raises_error fun cancelled => never present rfl prompt ?_
      rw [answered, cancelled]

theorem attempt_uncancelled (cache : SummaryCache) (never : NeverCancelled summarizer) :
    Fallible.Raises (fun exit => exit ≠ Exit.cancelled)
      (call.attempt compaction summarizer cache).1 := by
  rw [CompactCall.attempt]
  split
  · refine Fallible.raises_error fun same => ?_
    cases same
  · exact Fallible.raises_ok _
  · exact Fallible.raises_bind (summaryText_uncancelled never cache _ _)
      (fun raw _ => raising_uncancelled _)

/-- The exit is a `ContextBuildBlockedError`. -/
def isBlockedExit (exit : Exit) : Prop :=
  ∃ reason, exit = .raised (.blocked reason)

omit [Rendering] [Decoding] in
theorem raising_blocks {computation : Except Fault Value} (blocks : Blocks computation) :
    Fallible.Raises isBlockedExit (raising computation) := by
  cases computation with
  | error fault =>
    rcases blocks fault rfl with ⟨reason, rfl⟩
    exact Fallible.raises_error ⟨reason, rfl⟩
  | ok value => exact Fallible.raises_ok value

theorem l5AutoCompact_blocks {trigger : Int}
    (resolved : resolveHistoryWindow call.budget call.historyWindow = .ok window)
    (untriggered : call.triggerTokens = none) (threshold : compressionThreshold 1 window = .ok trigger)
    (wellFormed : AllWellFormed call.history) (cache : SummaryCache) (never : NeverCancelled summarizer) :
    Fallible.Raises isBlockedExit (l5AutoCompact call summarizer cache).1 := by
  rcases prepare_formed resolved untriggered threshold wellFormed with ⟨blocks, formed⟩
  rw [l5AutoCompact]
  split
  · rename_i fault failed
    rcases blocks fault failed with ⟨reason, rfl⟩
    exact Fallible.raises_error ⟨reason, rfl⟩
  · exact Fallible.raises_ok _
  · rename_i compaction prepared
    split
    · exact Fallible.raises_ok _
    · rename_i after attempted
      exact absurd rfl (attempt_uncancelled cache never Exit.cancelled (congrArg Prod.fst attempted))
    · exact raising_blocks (fallback_blocks (formed compaction prepared))

/-- The fields of the repair state that are compared with the history are
texts. -/
def MemoryWellFormed (call : PipelineCall) : Prop :=
  ∀ memory, call.memory = some memory -> ∃ state, getRepairContext memory = .ok state ∧
    ∀ key ∈ ["goal", "current_hypothesis", "next_action"],
      ∃ text, Item.get state key = .str text

omit [Rendering] [Decoding] in
theorem mentions_returns {state : Item} {text : String} (historyText : String)
    (named : state.get key = .str text) : Fallible.Returns (mentions state key historyText) := by
  rw [mentions, named]
  split
  · exact Fallible.returns_ok _
  · exact Fallible.returns_ok _

omit [Decoding] in
theorem lostState_returns {call : PipelineCall} (wellFormed : MemoryWellFormed call)
    (projected : List Item) : Fallible.Returns (call.lostState projected) := by
  rw [PipelineCall.lostState]
  split
  · exact Fallible.returns_ok none
  · rename_i memory present
    rcases wellFormed memory present with ⟨state, context, texts⟩
    rcases texts "goal" (by decide) with ⟨goal, goalText⟩
    rcases texts "current_hypothesis" (by decide) with ⟨hypothesis, hypothesisText⟩
    rcases texts "next_action" (by decide) with ⟨nextAction, nextActionText⟩
    refine Fallible.Returns.bind ?_ fun intact _ => ?_
    · rw [contextIntegrity, Fallible.bind_of_ok context]
      refine Fallible.Returns.bind ?_ fun _ _ => ?_
      · split
        · exact mentions_returns _ goalText
        · exact Fallible.returns_ok true
      · exact (mentions_returns _ hypothesisText).bind
          (fun _ _ => (mentions_returns _ nextActionText).map)
    · split
      · exact Fallible.returns_ok none
      · rw [renderRepairContext, context]
        exact Fallible.returns_ok _

/-- The history and the memory of a call are well formed, and its thresholds
can be computed. -/
structure PipelineCall.WellFormed (call : PipelineCall) (window : Int) : Prop where
  history : AllWellFormed call.history
  memory : MemoryWellFormed call
  thresholds : checkThresholds call.tierPolicy.tailProtectTokens window = .ok ()

/-- The pipeline returns a projection or raises `ContextBuildBlockedError`. -/
theorem runCompressionPipeline_blocks {call : PipelineCall}
    (resolved : resolveHistoryWindow call.budget call.historyWindow = .ok window)
    (untriggered : call.l5TriggerTokens = none) (wellFormed : call.WellFormed window) (cache : SummaryCache)
    (never : NeverCancelled summarizer) :
    Fallible.Raises isBlockedExit (runCompressionPipeline call summarizer cache).1 := by
  have stays := reduced_stays wellFormed.history wellFormed.thresholds
  rw [runCompressionPipeline, resolved]
  dsimp only
  split
  · rename_i fault failed
    rcases stays.blocks fault failed with ⟨reason, rfl⟩
    exact Fallible.raises_error ⟨reason, rfl⟩
  · rename_i reduced reduces
    rcases reduced_threshold reduces with ⟨trigger, threshold⟩
    refine Fallible.raises_bind
      (l5AutoCompact_blocks rfl untriggered threshold (stays.formed reduced reduces) cache never)
      (fun projected _ => raising_blocks ?_)
    exact (lostState_returns wellFormed.memory projected).map.raises

end WellFormed

end ContextCompression
end FixLoop
