import FixLoop.ContextCompression.Blocking

namespace FixLoop
namespace ContextCompression

open Library

/-!
# Whether a projection fits the window

What L5 chooses fits the window, and what it leaves alone is not above its
trigger.  After it only the repair state is added, without another look at the
window.
-/

section Fit

variable [Rendering]

variable {window : Int} {call : CompactCall}

theorem fitGroups_fits {groups : List (List Item)} {budget : Budget} {maxGroups : Option Nat}
    {omitted summaryItems : Json} {index : Nat} {selected chosen : List Nat}
    (fits : ∀ rendered, renderGroups groups omitted summaryItems selected = .ok rendered -> countHistoryTokens rendered budget ≤ window)
    (chose : fitGroups groups budget window maxGroups omitted summaryItems index selected = .ok chosen) :
    ∀ rendered, renderGroups groups omitted summaryItems chosen = .ok rendered ->
      countHistoryTokens rendered budget ≤ window := by
  induction index generalizing selected with
  | zero =>
    cases chose
    exact fits
  | succ index ih =>
    rw [fitGroups] at chose
    split at chose
    · exact ih fits chose
    · rcases Fallible.bind_ok chose with ⟨tried, renders, continued⟩
      split at continued
      · exact ih fits continued
      · rename_i room
        refine ih (fun rendered again => ?_) continued
        rw [renders] at again
        cases again
        exact Int.not_lt.mp room

theorem fitL5Groups_fits {history result : List Item} {budget : Budget} {turn : Option Int}
    {maxGroups : Option Nat} {omitted summaryItems : Json}
    (fitted : fitL5Groups history budget window turn maxGroups omitted summaryItems = .ok result) :
    countHistoryTokens result budget ≤ window := by
  rcases Fallible.bind_ok fitted with ⟨groups, -, fitted⟩
  rcases Fallible.bind_ok fitted with ⟨pinned, -, fitted⟩
  rcases Fallible.bind_ok fitted with ⟨rendered, renders, fitted⟩
  split at fitted
  · cases fitted
  · rename_i room
    rcases Fallible.bind_ok fitted with ⟨chosen, chose, finished⟩
    refine fitGroups_fits (fun again same => ?_) chose result finished
    rw [renders] at same
    cases same
    exact Int.not_lt.mp room

/-- What `prepare` hands on: the window, the trigger and the count, and what
it skips is not above the trigger. -/
theorem prepare_ok {trigger : Int} {prepared : Option Compaction}
    (resolved : resolveHistoryWindow call.budget call.historyWindow = .ok window)
    (untriggered : call.triggerTokens = none) (threshold : compressionThreshold 1 window = .ok trigger)
    (prepares : call.prepare = .ok prepared) :
    (prepared = none -> countHistoryTokens call.history call.budget ≤ trigger) ∧
      ∀ compaction, prepared = some compaction ->
        compaction.window = window ∧ compaction.trigger = trigger ∧
          compaction.tokensBefore = countHistoryTokens call.history call.budget := by
  rw [CompactCall.prepare, Fallible.bind_of_ok resolved, untriggered] at prepares
  rw [Fallible.bind_of_ok threshold] at prepares
  dsimp only at prepares
  split at prepares
  · rename_i short
    cases prepares
    refine ⟨fun _ => short.1, fun compaction same => ?_⟩
    cases same
  · rcases Fallible.bind_ok prepares with ⟨_, -, prepares⟩
    rcases Fallible.bind_ok prepares with ⟨_, -, prepares⟩
    rcases Fallible.bind_ok prepares with ⟨_, -, prepares⟩
    rcases Fallible.bind_ok prepares with ⟨_, -, prepares⟩
    split at prepares
    · cases prepares
    · cases prepares
      constructor
      · intro same
        cases same
      · intro compaction same
        cases same
        exact ⟨rfl, rfl, rfl⟩

variable [Decoding]

theorem prompt_none {compaction : Compaction} {inputLimit : Option Int}
    (left : call.prompt compaction inputLimit = .ok none) : compaction.tokensBefore ≤ compaction.trigger := by
  rw [CompactCall.prompt] at left
  split at left
  · cases left
  · rcases Fallible.bind_ok left with ⟨previous, -, left⟩
    split at left
    · rename_i short
      exact short.1
    · split at left
      · cases left
      · rcases Fallible.map_ok left with ⟨built, -, impossible⟩
        cases impossible

/-- L5 leaves a history alone that is not above its trigger, or its result
fits the window. -/
theorem l5AutoCompact_fits {summarizer : Option Summarizer} {cache : SummaryCache} {trigger : Int}
    {result : List Item} (resolved : resolveHistoryWindow call.budget call.historyWindow = .ok window)
    (untriggered : call.triggerTokens = none) (threshold : compressionThreshold 1 window = .ok trigger)
    (compacted : (l5AutoCompact call summarizer cache).1 = .ok result) :
    (result = call.history ∧ countHistoryTokens call.history call.budget ≤ trigger) ∨
      countHistoryTokens result call.budget ≤ window := by
  rcases l5AutoCompact_ok compacted with ⟨skipped, same⟩ | ⟨compaction, prepared, outcome⟩
  · exact Or.inl ⟨same, (prepare_ok resolved untriggered threshold skipped).1 rfl⟩
  · rcases (prepare_ok resolved untriggered threshold prepared).2 compaction rfl with
      ⟨sameWindow, sameTrigger, sameCount⟩
    rcases outcome with ⟨left, same⟩ | ⟨refs, omittedGroups, raw, summarized⟩ | cut
    · have short := prompt_none left
      rw [sameCount, sameTrigger] at short
      exact Or.inl ⟨same, short⟩
    · rcases Fallible.bind_ok summarized with ⟨value, -, summarized⟩
      rcases Fallible.bind_ok summarized with ⟨fitted, -, summarized⟩
      rcases Fallible.bind_ok summarized with ⟨omitted, -, summarized⟩
      rcases Fallible.bind_ok summarized with ⟨summaryItems, -, finished⟩
      have fits := fitL5Groups_fits finished
      rw [sameWindow] at fits
      exact Or.inr fits
    · rcases Fallible.bind_ok cut with ⟨summaryItems, -, finished⟩
      have fits := fitL5Groups_fits finished
      rw [sameWindow] at fits
      exact Or.inr fits

/-! ## Room for what comes after L5 -/

/-- The repair state that is put in front of what L5 returns fits the window
with it.  If nothing is put in front, a history that L5 left alone below its
trigger is not above the window, to which the trigger was rounded. -/
structure HasRoom (call : PipelineCall) (window : Int) (reduced compacted : List Item) : Prop where
  forState : ∀ stateText, call.lostState compacted = .ok (some stateText) ->
    countHistoryTokens (repairStateItem stateText :: compacted) call.budget ≤ window
  unrounded : call.lostState compacted = .ok none -> compacted = reduced ->
    (∀ trigger, compressionThreshold 1 window = .ok trigger ->
      countHistoryTokens reduced call.budget ≤ trigger) ->
    countHistoryTokens reduced call.budget ≤ window

/-- What L5 returns always has room for what comes after it. -/
def AlwaysRoom (call : PipelineCall) (summarizer : Option Summarizer) (cache : SummaryCache)
    (window : Int) : Prop :=
  ∀ reduced compacted, call.reduced window = .ok reduced ->
    (l5AutoCompact (call.compactCall window reduced) summarizer cache).1 = .ok compacted ->
    HasRoom call window reduced compacted

/-- Every projection that is returned fits the window exactly when there is
always room. -/
theorem projections_fit_iff {call : PipelineCall} (untriggered : call.l5TriggerTokens = none)
    (resolved : resolveHistoryWindow call.budget call.historyWindow = .ok window)
    (summarizer : Option Summarizer) (cache : SummaryCache) :
    (∀ projected, (runCompressionPipeline call summarizer cache).1 = .ok projected ->
        countHistoryTokens projected call.budget ≤ window) <->
      AlwaysRoom call summarizer cache window := by
  constructor
  · intro fits reduced compacted reduces compacts
    have runs : ∀ projected, call.withRepairState compacted = .ok projected ->
        (runCompressionPipeline call summarizer cache).1 = .ok projected := by
      intro projected inserted
      rw [runCompressionPipeline, resolved]
      dsimp only
      rw [reduces]
      dsimp only
      rw [Fallible.bind_of_ok compacts, inserted]
      rfl
    constructor
    · intro stateText lost
      refine fits _ (runs _ ?_)
      rw [PipelineCall.withRepairState, lost]
      rfl
    · intro kept same _
      rw [← same]
      refine fits _ (runs _ ?_)
      rw [PipelineCall.withRepairState, kept]
      rfl
  · intro room projected returned
    rcases runCompressionPipeline_ok returned with
      ⟨other, reduced, compacted, resolvedAgain, reduces, compacts, inserted⟩
    rw [resolved] at resolvedAgain
    cases resolvedAgain
    have spacious := room reduced compacted reduces compacts
    rcases Fallible.map_ok inserted with ⟨lost, found, rfl⟩
    cases lost with
    | some stateText => exact spacious.forState stateText found
    | none =>
      rcases reduced_threshold reduces with ⟨trigger, threshold⟩
      rcases l5AutoCompact_fits rfl untriggered threshold compacts with ⟨same, short⟩ | fits
      · rw [same] at spacious found ⊢
        refine spacious.unrounded found rfl fun again rounded => ?_
        rw [threshold] at rounded
        cases rounded
        exact short
      · exact fits

/-- `ContextBuildBlockedError`, or a projection that fits the window. -/
def FitsOrBlocked (budget : Budget) (window : Int) (outcome : Except Exit (List Item)) : Prop :=
  (∃ reason, outcome = .error (.raised (.blocked reason))) ∨
    ∃ projected, outcome = .ok projected ∧ countHistoryTokens projected budget ≤ window

end Fit

section Witness

attribute [local instance] Rendering.spelled Decoding.emptyDict

/-- A short history that does not mention the goal of the task. -/
def forgetfulCall : PipelineCall :=
  { history := [[("role", .str "user"), ("content", .str "hi")]], budget := Budget.bytes,
    metadata := [("_memory_state", .obj [("working", .obj [("repair_context",
      .obj [("goal", .str "fix")])])])],
    l5TriggerTokens := none, historyWindow := some 20, tierPolicy := TierPolicy.default,
    allowSummary := true }

end Witness

end ContextCompression
end FixLoop
