import FixLoop.ContextCompression.AutoCompact

namespace FixLoop
namespace ContextCompression

open Library

/-!
# The repair state

The repair state of a task is a dictionary in its working memory.  It is shown
again where a projected history does not mention its goal, its hypothesis, its
verification or its next action.
-/

/-- `RepairContextState().to_dict()`. -/
def defaultRepairContext : List (String × Json) :=
  [("goal", .str ""), ("current_hypothesis", .str ""), ("hypotheses", .arr []),
    ("confirmed_facts", .arr []), ("rejected_hypotheses", .arr []), ("candidate_files", .arr []),
    ("changed_files", .arr []), ("edit_scope", .arr []), ("verification", .obj []),
    ("next_action", .str ""), ("blocked_reason", .str ""), ("evidence_refs", .arr [])]

def getRepairContext (memory : List (String × Json)) : Except Fault (List (String × Json)) :=
  match ((Json.obj memory).get? "working").getD (.obj []) with
  | .obj working =>
    let raw :=
      match (Json.obj working).get? "repair_context" with
      | some (.obj raw) => raw
      | _ => []
    .ok (raw ++ defaultRepairContext.filter (fun entry =>
      !raw.any fun known => known.1 == entry.1))
  | _ => .error .other

/-- Whether the first characters of a value of the state are in the text. -/
def mentions (state : Item) (key historyText : String) : Except Fault Bool :=
  if !state.flag key then .ok true
  else
    match state.get key with
    | .str text => .ok (Strings.includes (Strings.first 80 text) historyText)
    | _ => .error .other

section Rendered

variable [Rendering]

/-- `context_integrity(...)["ok"]`. -/
def contextIntegrity (memory : List (String × Json)) (issue : String)
    (projectedHistory : List Item) : Except Fault Bool :=
  getRepairContext memory >>= fun state =>
    let historyText := Strings.joinLines (projectedHistory.map Item.content)
    (if issue = "" then mentions state "goal" historyText else .ok true) >>= fun goal =>
      mentions state "current_hypothesis" historyText >>= fun hypothesis =>
        (mentions state "next_action" historyText).map (fun nextAction =>
          goal && hypothesis &&
            (!Item.flag state "verification" ||
              Strings.includes "verif" (Rendering.lower historyText)) &&
            nextAction)

/-- A value that `render_repair_context` leaves out. -/
def isBlank : Json -> Bool
  | .str text => text == ""
  | .arr items => items.isEmpty
  | .obj members => members.isEmpty
  | _ => false

def renderRepairContext (memory : List (String × Json)) (maxChars : Nat) : Except Fault String :=
  (getRepairContext memory).map (fun state =>
    let compact := state.filter (fun entry => !isBlank entry.2)
    if compact.isEmpty then ""
    else "修复状态（当前任务事实优先；历史记忆仅作候选）:\n" ++
      Strings.first maxChars (Rendering.dumps (.obj compact)))

end Rendered

/-!
# `run_compression_pipeline`

The stages run one after another on a copy of the history.  At the end the
repair state is put in front, if the projection has lost it.
-/

/-- The arguments of `run_compression_pipeline`, apart from the summarizer and
its cache. -/
structure PipelineCall where
  history : List Item
  budget : Budget
  metadata : List (String × Json)
  l5TriggerTokens : Option Int
  historyWindow : Option Int
  tierPolicy : TierPolicy
  allowSummary : Bool

/-- `memory`, if it is a dictionary. -/
def PipelineCall.memory (call : PipelineCall) : Option (List (String × Json)) :=
  match (Json.obj call.metadata).get? "_memory_state" with
  | some (.obj memory) => some memory
  | _ => none

section Pipeline

variable [Rendering]

/-- `str(meta.get("_context_issue") or "")`. -/
def PipelineCall.issue (call : PipelineCall) : String :=
  if Item.flag call.metadata "_context_issue" then str (Item.get call.metadata "_context_issue") else ""

/-- The thresholds, which are computed before the stages run. -/
def checkThresholds (tailProtectTokens window : Int) : Except Fault Unit := do
  let _ ← effectiveTailProtectTokens tailProtectTokens window
  let _ ← compressionThreshold (55 / 100) window
  let _ ← compressionThreshold (70 / 100) window
  let _ ← compressionThreshold (82 / 100) window
  let _ ← compressionThreshold 1 window

/-- The stages before L5. -/
def PipelineCall.reduced (call : PipelineCall) (window : Int) : Except Fault (List Item) := do
  let turn := call.tierPolicy.activeTurnId
  let tail := call.tierPolicy.tailProtectTokens
  checkThresholds tail window
  let guarded ← l0TierGuard call.history call.tierPolicy
  let snipped ← l2Snip (l1BudgetReduction guarded call.budget) call.budget window turn tail
  let stubbed ← l3Microcompact snipped call.budget window turn tail
  l4Collapse stubbed call.budget window turn tail

def PipelineCall.compactCall (call : PipelineCall) (window : Int) (reduced : List Item) : CompactCall :=
  { history := reduced, budget := call.budget, triggerTokens := call.l5TriggerTokens,
    historyWindow := some window, currentTurnId := call.tierPolicy.activeTurnId,
    allowSummary := call.allowSummary }

def repairStateItem (stateText : String) : Item :=
  systemItem stateText "repair_state"

/-- The text of the repair state, if the projection has lost it. -/
def PipelineCall.lostState (call : PipelineCall) (projected : List Item) :
    Except Fault (Option String) :=
  match call.memory with
  | none => .ok none
  | some memory =>
    contextIntegrity memory call.issue projected >>= fun intact =>
      if intact then .ok none
      else (renderRepairContext memory 2400).map (fun stateText =>
        if stateText = "" then none else some stateText)

/-- Put the repair state in front of a projection that has lost it. -/
def PipelineCall.withRepairState (call : PipelineCall) (projected : List Item) :
    Except Fault (List Item) :=
  (call.lostState projected).map (fun lost =>
    match lost with
    | none => projected
    | some stateText => repairStateItem stateText :: projected)

theorem reduced_threshold {call : PipelineCall} {window : Int} {reduced : List Item}
    (reduces : call.reduced window = .ok reduced) :
    ∃ trigger, compressionThreshold 1 window = .ok trigger := by
  rcases Fallible.bind_ok reduces with ⟨_, checked, -⟩
  rcases Fallible.bind_ok checked with ⟨_, -, checked⟩
  rcases Fallible.bind_ok checked with ⟨_, -, checked⟩
  rcases Fallible.bind_ok checked with ⟨_, -, checked⟩
  rcases Fallible.bind_ok checked with ⟨_, -, checked⟩
  rcases Fallible.bind_ok checked with ⟨trigger, threshold, -⟩
  exact ⟨trigger, threshold⟩

variable [Decoding]

def runCompressionPipeline (call : PipelineCall) (summarizer : Option Summarizer)
    (cache : SummaryCache) : Except Exit (List Item) × SummaryCache :=
  match resolveHistoryWindow call.budget call.historyWindow with
  | .error fault => (.error (.raised fault), cache)
  | .ok window =>
    match call.reduced window with
    | .error fault => (.error (.raised fault), cache)
    | .ok reduced =>
      let compacted := l5AutoCompact (call.compactCall window reduced) summarizer cache
      (compacted.1 >>= fun projected => raising (call.withRepairState projected), compacted.2)

/-- A projection comes from L5, and perhaps the repair state was put in front. -/
theorem runCompressionPipeline_ok {call : PipelineCall} {summarizer : Option Summarizer}
    {cache : SummaryCache} {projected : List Item}
    (returned : (runCompressionPipeline call summarizer cache).1 = .ok projected) :
    ∃ window reduced compacted, resolveHistoryWindow call.budget call.historyWindow = .ok window ∧
        call.reduced window = .ok reduced ∧
        (l5AutoCompact (call.compactCall window reduced) summarizer cache).1 = .ok compacted ∧
        call.withRepairState compacted = .ok projected := by
  rw [runCompressionPipeline] at returned
  split at returned
  · cases returned
  · rename_i window resolved
    split at returned
    · cases returned
    · rename_i reduced reduces
      rcases Fallible.bind_ok returned with ⟨compacted, compacts, inserted⟩
      exact ⟨window, reduced, compacted, resolved, reduces, compacts, raising_ok inserted⟩

end Pipeline

end ContextCompression
end FixLoop
