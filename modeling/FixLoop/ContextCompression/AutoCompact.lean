import FixLoop.ContextCompression.Stages
import FixLoop.ContextCompression.Summary

namespace FixLoop
namespace ContextCompression

open Library

/-!
# Auto compaction (L5)

Above its trigger, the older part of a history is replaced by a summary.  The
groups of the result are chosen so that they fit the window; a marker tells
how many are missing.  If no summary can be had, only the choice remains.
-/

/-- `Summarizer`, with its `input_limit` if it has one. -/
structure Summarizer where
  inputLimit : Option Int
  call : String -> Except Exit String

/-- `summary_cache`, newest first. -/
abbrev SummaryCache := List (String × String)

/-- The arguments of `l5_auto_compact`, apart from the summarizer and its
cache. -/
structure CompactCall where
  history : List Item
  budget : Budget
  triggerTokens : Option Int
  historyWindow : Option Int
  currentTurnId : Option Int
  allowSummary : Bool

def resolveHistoryWindow (budget : Budget) : Option Int -> Except Fault Int
  | some historyWindow => .ok historyWindow
  | none =>
    match Double.round ((2600 * budget.totalLimit : Int) / 6000) with
    | some scaled => .ok (max 1 (Double.truncate scaled))
    | none => .error .other

/-- The sum of two numbers. -/
def plus (left right : Json) : Except Fault Json :=
  match left.int?, right.int? with
  | some first, some second => .ok (.int (first + second))
  | _, _ =>
    match left.number?.bind Double.round, right.number?.bind Double.round with
    | some first, some second =>
      match Double.round (first + second) with
      | some sum => .ok (.float sum)
      | none => .error .other
    | _, _ => .error .other

/-- `sum(item.get(key, 0) for item in history)`. -/
def sumOf (history : List Item) (key : String) : Except Fault Json :=
  history.foldlM (fun sum item => plus sum (((Json.obj item).get? key).getD (.int 0))) (.int 0)

section Compact

variable [Rendering]

/-- Whether a group is pinned, given the first group with a user's turn. -/
def pinned? (first : Option Nat) (currentTurnId : Option Int) (entry : List Item × Nat) :
    Except Fault (Option Nat) :=
  if first = some entry.2 then .ok (some entry.2)
  else (isCurrentTurn entry.1 currentTurnId).map (fun current =>
    if current || entry.1.any (fun item => isRepairStateItem item || isSummary item) then some entry.2
    else none)

def l5Pinned (groups : List (List Item)) (currentTurnId : Option Int) : Except Fault (List Nat) :=
  let first := groups.findIdx? (fun group => group.any fun item => item.hasRole "user")
  (groups.zipIdx.mapM (pinned? first currentTurnId)).map List.reduceOption

def omissionMarker (lost summaryItems : Json) : Item :=
  [("role", .str "system"), ("_history_omission", .bool true), ("_omitted_interactions", lost),
    ("_omitted_summary_items", summaryItems),
    ("content", .str s!"[History omitted: {str lost} interactions; {str summaryItems} summary items. Not current evidence.]")]

/-- `render`. -/
def renderGroups (groups : List (List Item)) (omitted summaryItems : Json) (selected : List Nat) :
    Except Fault (List Item) :=
  (plus (.int ((groups.length : Int) - selected.length)) omitted).map (fun lost =>
    (selectedGroups groups selected).flatten ++
      (if lost.truthy || summaryItems.truthy then [omissionMarker lost summaryItems] else []))

/-- Select the groups below the index that fit, the latest first. -/
def fitGroups (groups : List (List Item)) (budget : Budget) (window : Int) (maxGroups : Option Nat)
    (omitted summaryItems : Json) : Nat -> List Nat -> Except Fault (List Nat)
  | 0, selected => .ok selected
  | index + 1, selected =>
    if selected.contains index || maxGroups.any (fun most => most ≤ selected.length) then
      fitGroups groups budget window maxGroups omitted summaryItems index selected
    else
      renderGroups groups omitted summaryItems (index :: selected) >>= fun rendered =>
        if window < countHistoryTokens rendered budget then
          fitGroups groups budget window maxGroups omitted summaryItems index selected
        else fitGroups groups budget window maxGroups omitted summaryItems index (index :: selected)

def protectedOverBudget : Fault := .blocked "history_protected_over_budget"

def fitL5Groups (history : List Item) (budget : Budget) (window : Int) (currentTurnId : Option Int)
    (maxGroups : Option Nat) (omitted summaryItems : Json) : Except Fault (List Item) :=
  interactionGroups history >>= fun groups =>
    l5Pinned groups currentTurnId >>= fun pinned =>
      renderGroups groups omitted summaryItems pinned >>= fun rendered =>
        if window < countHistoryTokens rendered budget then .error protectedOverBudget
        else
          fitGroups groups budget window maxGroups omitted summaryItems groups.length pinned >>=
            renderGroups groups omitted summaryItems

/-! ## `l5_auto_compact` -/

def summaryCacheKey (oldHistory : List Item) : String :=
  Rendering.digest (String.join
    ((oldHistory.drop (oldHistory.length - 10)).map fun item => Strings.first 100 item.content))

/-- What is known of a history before a summary is attempted. -/
structure Compaction where
  window : Int
  trigger : Int
  tokensBefore : Int
  priorOmitted : Json
  priorItems : Json
  working : List Item
  oldHistory : List Item
  recentHistory : List Item
  cacheKey : String

/-- The parts of the working history: the older part of the eligible groups,
and everything else. -/
def splitGroups (groups : List (List Item)) (pinned : List Nat) : List Item × List Item :=
  let eligible := (List.range (groups.length - 2)).filter fun index => !pinned.contains index
  let old := eligible.take (max 1 (eligible.length / 2))
  ((selectedGroups groups old).flatten,
    ((groups.zipIdx.filter fun entry => !old.contains entry.2).map Prod.fst).flatten)

/-- The working history has neither summaries nor omission markers. -/
def workingHistory (history : List Item) : List Item :=
  history.filter fun item => !isSummary item && !item.flag "_history_omission"

/-- `cache_key`. -/
def cacheKeyOf (history oldHistory : List Item) : String :=
  match history.findIdx? isSummary with
  | some index => s!"{summaryCacheKey oldHistory}@offset{index}"
  | none => summaryCacheKey oldHistory

/-- Split the history, unless it is short enough as it is. -/
def CompactCall.prepare (call : CompactCall) : Except Fault (Option Compaction) :=
  resolveHistoryWindow call.budget call.historyWindow >>= fun window =>
    (match call.triggerTokens with
      | some tokens => .ok tokens
      | none => compressionThreshold 1 window) >>= fun trigger =>
        let tokensBefore := countHistoryTokens call.history call.budget
        if tokensBefore ≤ trigger ∧ call.history.any isSummary = false then .ok none
        else
          sumOf call.history "_omitted_interactions" >>= fun priorOmitted =>
            sumOf call.history "_omitted_summary_items" >>= fun priorItems =>
              interactionGroups (workingHistory call.history) >>= fun groups =>
                l5Pinned groups call.currentTurnId >>= fun pinned =>
                  if window < countHistoryTokens (selectedGroups groups pinned).flatten call.budget then
                    .error protectedOverBudget
                  else
                    let parts := splitGroups groups pinned
                    .ok (some
                      { window := window, trigger := trigger, tokensBefore := tokensBefore,
                        priorOmitted := priorOmitted, priorItems := priorItems,
                        working := workingHistory call.history,
                        oldHistory := parts.1, recentHistory := parts.2,
                        cacheKey := cacheKeyOf call.history parts.1 })

/-- `l5_auto_compact` without a summary: the latest groups that fit. -/
def CompactCall.fallback (call : CompactCall) (compaction : Compaction) : Except Fault (List Item) :=
  plus compaction.priorItems (.int (call.history.countP isSummary)) >>= fun summaryItems =>
    fitL5Groups compaction.working call.budget compaction.window call.currentTurnId (some 8)
      compaction.priorOmitted summaryItems

variable [Decoding]

/-- The summaries that the history holds already. -/
def previousSummaries (history : List Item) : Except Fault (List Summary) :=
  (history.filter isSummary).mapM (fun item =>
    parseSummary (Strings.removePrefix summaryPrefix item.content) none)

/-- The prompt for a summary, or nothing if the history may stay as it is. -/
def CompactCall.prompt (call : CompactCall) (compaction : Compaction) (inputLimit : Option Int) :
    Except Fault (Option (String × List String × Int)) :=
  if call.allowSummary = false then .error (.value "summary_sealed_prefix_retained")
  else
    previousSummaries call.history >>= fun previous =>
      if compaction.tokensBefore ≤ compaction.trigger ∧ previous.length = 1 then .ok none
      else if compaction.oldHistory.isEmpty ∧ previous.isEmpty then
        .error (.value "summary_no_old_interactions")
      else
        (buildSummaryPrompt compaction.oldHistory call.budget
          (min 6000 (inputLimit.getD call.budget.totalLimit)) previous).map some

def summaryText (summarizer : Option Summarizer) (cache : SummaryCache) (cacheKey prompt : String) :
    Except Exit String × SummaryCache :=
  match cache.lookup cacheKey, summarizer with
  | some raw, _ => (.ok raw, cache)
  | none, none => (.error (.raised (.value "summary_unavailable")), cache)
  | none, some summarizer =>
    match summarizer.call prompt with
    | .ok raw => (.ok raw, if raw = "" then cache else (cacheKey, raw) :: cache)
    | .error exit => (.error exit, cache)

def summaryMarker (text : String) : Item :=
  systemItem (summaryPrefix ++ text) "_history_summary"

/-- The history with the summary in place of its older part. -/
def CompactCall.summarized (call : CompactCall) (compaction : Compaction) (refs : List String)
    (omittedGroups : Int) (raw : String) : Except Fault (List Item) := do
  let value ← parseSummary raw (some refs)
  let (text, dropped) ← fitSummary value call.budget (min 512 (max 0 (compaction.window / 3)))
  let omitted ← plus compaction.priorOmitted (.int omittedGroups)
  let summaryItems ← plus compaction.priorItems (.int dropped)
  fitL5Groups (summaryMarker text :: compaction.recentHistory) call.budget compaction.window
    call.currentTurnId none omitted summaryItems

/-- Replace the older part of the history by a summary. -/
def CompactCall.attempt (call : CompactCall) (compaction : Compaction)
    (summarizer : Option Summarizer) (cache : SummaryCache) : Except Exit (List Item) × SummaryCache :=
  match call.prompt compaction (summarizer.bind Summarizer.inputLimit) with
  | .error fault => (.error (.raised fault), cache)
  | .ok none => (.ok call.history, cache)
  | .ok (some (prompt, refs, omittedGroups)) =>
    let answer := summaryText summarizer cache compaction.cacheKey prompt
    (answer.1 >>= fun raw => raising (call.summarized compaction refs omittedGroups raw), answer.2)

def l5AutoCompact (call : CompactCall) (summarizer : Option Summarizer) (cache : SummaryCache) :
    Except Exit (List Item) × SummaryCache :=
  match call.prepare with
  | .error fault => (.error (.raised fault), cache)
  | .ok none => (.ok call.history, cache)
  | .ok (some compaction) =>
    match call.attempt compaction summarizer cache with
    | (.ok result, cache) => (.ok result, cache)
    | (.error .cancelled, cache) => (.error .cancelled, cache)
    | (.error (.raised _), cache) => (raising (call.fallback compaction), cache)

variable {call : CompactCall} {summarizer : Option Summarizer} {cache : SummaryCache} {result : List Item}

theorem attempt_ok {compaction : Compaction}
    (attempted : (call.attempt compaction summarizer cache).1 = .ok result) :
    (call.prompt compaction (summarizer.bind Summarizer.inputLimit) = .ok none ∧
        result = call.history) ∨
      ∃ refs omittedGroups raw, call.summarized compaction refs omittedGroups raw = .ok result := by
  rw [CompactCall.attempt] at attempted
  split at attempted
  · cases attempted
  · rename_i unchanged
    cases attempted
    exact Or.inl ⟨unchanged, rfl⟩
  · rename_i prompt refs omittedGroups _
    rcases Fallible.bind_ok attempted with ⟨raw, -, summarized⟩
    exact Or.inr ⟨refs, omittedGroups, raw, raising_ok summarized⟩

/-- The history is short enough, or it was split and then left alone,
summarized or only cut. -/
theorem l5AutoCompact_ok (compacted : (l5AutoCompact call summarizer cache).1 = .ok result) :
    (call.prepare = .ok none ∧ result = call.history) ∨
      ∃ compaction, call.prepare = .ok (some compaction) ∧
        ((call.prompt compaction (summarizer.bind Summarizer.inputLimit) = .ok none ∧
            result = call.history) ∨
          (∃ refs omittedGroups raw,
            call.summarized compaction refs omittedGroups raw = .ok result) ∨
          call.fallback compaction = .ok result) := by
  rw [l5AutoCompact] at compacted
  split at compacted
  · cases compacted
  · rename_i skipped
    cases compacted
    exact Or.inl ⟨skipped, rfl⟩
  · rename_i compaction prepared
    refine Or.inr ⟨compaction, prepared, ?_⟩
    split at compacted
    · rename_i returned after attempted
      cases compacted
      rcases attempt_ok (congrArg Prod.fst attempted) with unchanged | summarized
      · exact Or.inl unchanged
      · exact Or.inr (Or.inl summarized)
    · cases compacted
    · exact Or.inr (Or.inr (raising_ok compacted))

end Compact

end ContextCompression
end FixLoop
