import FixLoop.ContextCompression.Groups
import FixLoop.Library.Rewriting

namespace FixLoop
namespace ContextCompression

open Library

/-!
# The tier guard (L0)

Before a history is compressed, items that need not be shown are dropped.
Groups with a tool call or a record of the repair state are kept whole.
-/

/-- `TierPolicy`, as far as histories are concerned. -/
structure TierPolicy where
  allowedTools : List String
  pinRoles : List String
  dropRejectedTools : Bool
  dropEmptyContent : Bool
  dropLowValueSystem : Bool
  currentTurnId : Option Int
  protectCurrentTurn : Bool
  tailProtectTokens : Int

/-- `TierPolicy()`. -/
def TierPolicy.default : TierPolicy :=
  ⟨[], ["user"], true, true, true, none, true, 20000⟩

/-- `active_turn_id` in the pipeline. -/
def TierPolicy.activeTurnId (policy : TierPolicy) : Option Int :=
  if policy.protectCurrentTurn then policy.currentTurnId else none

def TierPolicy.allowsTool (policy : TierPolicy) (toolName : String) : Bool :=
  policy.allowedTools.isEmpty || toolName == "" || policy.allowedTools.contains toolName

/-- The `orchestrator_pin_fields` of `tier_pins.yaml`. -/
def orchestratorPinFields : List String :=
  ["issue", "stack", "request"]

def pinContentMarkers : List String :=
  "[Earlier summary]" :: orchestratorPinFields

def pinErrorKeywords : List String :=
  ["Traceback", "Fail", "FAILED", "error:"]

def lowValueSystemPhrases : List String :=
  ["工具调用格式错误"]

def rejectedToolMarkers : List String :=
  ["不在允许列表中", "不可用。", "未注册。", "重复调用检测", "超出配额限制", "参数校验失败", "审批被拒绝"]

def isRejectedToolContent (content : String) : Bool :=
  Strings.startsWith "Error:" (Strings.strip content) &&
    Strings.includesAny rejectedToolMarkers (Strings.strip content)

def isLowValueSystemContent (content : String) : Bool :=
  Strings.includesAny lowValueSystemPhrases (Strings.strip content)

section Guard

variable [Rendering]

def isPinnedHistoryItem (item : Item) (policy : TierPolicy) : Bool :=
  policy.pinRoles.contains (item.str "role" "") || Strings.includesAny pinContentMarkers item.content ||
    orchestratorPinFields.any (fun field =>
      Strings.includes field (Strings.first 50 item.content) ||
        Strings.includes ("\n" ++ field ++ ":") (Strings.first 200 (Rendering.lower item.content))) ||
    Strings.includesAny pinErrorKeywords item.content || item.flag "_snip" || item.flag "_collapsed" ||
    (policy.protectCurrentTurn &&
      policy.currentTurnId.any fun turnId => (item.get "turn_id").same (.int turnId))

/-- Whether `l0_filter_history` keeps the item. -/
def l0Keeps (policy : TierPolicy) (item : Item) : Bool :=
  if item.str "role" "" == "tool" && (!policy.allowsTool (item.str "tool_name" "") ||
      (policy.dropRejectedTools && isRejectedToolContent item.content)) then false
  else if isPinnedHistoryItem item policy then true
  else if policy.dropEmptyContent && Strings.strip item.content == "" then false
  else !(policy.dropLowValueSystem && item.str "role" "" == "system" &&
    isLowValueSystemContent item.content)

def l0FilterHistory (history : List Item) (policy : TierPolicy) : List Item :=
  history.filter (l0Keeps policy)

def guardGroup (policy : TierPolicy) (group : List Item) : List Item :=
  if hasToolCall group || group.any isRepairStateItem then group else l0FilterHistory group policy

def l0TierGuard (history : List Item) (policy : TierPolicy) : Except Fault (List Item) :=
  (interactionGroups history).map fun groups => (groups.map (guardGroup policy)).flatten

end Guard

/-!
# Truncation, snipping, stubs and collapsing (L1 to L4)

The first stage shortens tool results.  Each of the other three has its
threshold, a share of the window; above it, turns or tool results outside the
protected tail are replaced, the oldest first, until the history is short
enough or nothing is left to replace.
-/

/-! ## L1 -/

/-- `TOOL_TRUNCATION_TOKENS`. -/
def toolTruncationTokens (toolName : String) : Int :=
  if toolName = "list_files" then 60
  else if toolName = "grep" then 230
  else if toolName = "read_file" then 570
  else if toolName = "write_file" then 90
  else if toolName = "patch_file" then 90
  else if toolName = "run_shell" then 145
  else 150

/-- Take lines while they fit.  If the first one does not, it is cut instead. -/
def takeLines (budget : Budget) (bodyLimit : Int) : List String -> List String -> String ⊕ List String
  | taken, [] => .inr taken
  | taken, line :: rest =>
    if budget.count (Strings.joinLines (taken ++ [line])) ≤ bodyLimit then
      takeLines budget bodyLimit (taken ++ [line]) rest
    else if taken.isEmpty then .inl (budget.fit line bodyLimit)
    else .inr taken

def truncateToolContent (content toolName : String) (budget : Budget) : String :=
  let limit := toolTruncationTokens toolName
  let totalTokens := budget.count content
  if totalTokens ≤ limit then content
  else
    let suffix := s!"\n... (截断，共 {totalTokens} tokens)"
    let bodyLimit := max 16 (limit - budget.count suffix)
    let lines := Strings.splitLines content
    let important := Strings.includesAny ["Error", "error", "Fail", "/"]
    match takeLines budget bodyLimit []
        (lines.filter important ++ lines.filter fun line => !important line) with
    | .inl body => body ++ suffix
    | .inr taken =>
      let body := Strings.joinLines taken
      if body = "" then budget.fit content bodyLimit ++ suffix
      else if budget.count body > bodyLimit then budget.fit body bodyLimit ++ suffix
      else body ++ suffix

section Stages

variable [Rendering]

/-- The tool results that L1 and L3 leave alone. -/
def isProtectedResult (item : Item) : Bool :=
  isRepairStateItem item || item.hasBlocks || item.flag "tool_call_id"

/-- `l1_budget_reduction` for one item. -/
def reduceItem (budget : Budget) (item : Item) : Item :=
  if !item.hasRole "tool" || isProtectedResult item then item
  else item.set "content" (.str (truncateToolContent item.content (item.str "tool_name" "") budget))

def l1BudgetReduction (history : List Item) (budget : Budget) : List Item :=
  history.map (reduceItem budget)

/-! ## Thresholds and the protected tail -/

def compressionThreshold (ratio : ℚ) (historyWindow : Int) : Except Fault Int :=
  match Double.scale ratio historyWindow with
  | some threshold => .ok (Double.truncate threshold)
  | none => .error .other

def effectiveTailProtectTokens (tailProtectTokens historyWindow : Int) : Except Fault Int :=
  if historyWindow ≤ 0 then .ok 0
  else (compressionThreshold (2000 / 2600) historyWindow).map (fun windowCap =>
    min (max 0 tailProtectTokens) windowCap)

/-- The turns at the end that have room in the tail, and the one across its
boundary. -/
def tailTurns (budget : Budget) (effectiveTail : Int) : Int -> List (List Item × Nat) -> List Nat
  | _, [] => []
  | tokenCount, (turn, index) :: rest =>
    if effectiveTail ≤ tokenCount then []
    else if effectiveTail < tokenCount + countHistoryTokens turn budget then [index]
    else index :: tailTurns budget effectiveTail (tokenCount + countHistoryTokens turn budget) rest

/-- The indices of the current turn's groups. -/
def currentTurns (currentTurnId : Option Int) (turns : List (List Item)) : Except Fault (List Nat) :=
  (turns.mapM fun turn => isCurrentTurn turn currentTurnId).map (fun current =>
    current.zipIdx.filterMap fun entry => if entry.1 then some entry.2 else none)

def protectedTurnIndices (turns : List (List Item)) (budget : Budget) (historyWindow : Int)
    (currentTurnId : Option Int) (tailProtectTokens : Int) : Except Fault (List Nat) :=
  if turns.isEmpty then .ok []
  else
    currentTurns currentTurnId turns >>= fun current =>
      (effectiveTailProtectTokens tailProtectTokens historyWindow).map (fun effectiveTail =>
        current ++ (List.range turns.length).filter (fun index => turns.length - 2 ≤ index) ++
          tailTurns budget effectiveTail 0 turns.zipIdx.reverse)

/-- `PROTECTED_KEYWORDS`. -/
def protectedKeywords : List String :=
  ["Error", "Traceback", "Fail", "FAILED", "error:"]

def hasProtectedToolContent (content : String) : Bool :=
  Strings.includesAny protectedKeywords content

def turnToolNames (turn : List Item) : List String :=
  turn.filterMap (fun item =>
    if item.flag "_snip" then none
    else if item.hasRole "tool" then
      some (if item.flag "tool_name" then str (item.get "tool_name") else "tool")
    else if item.hasRole "assistant" && item.flag "tool_name" then some (str (item.get "tool_name"))
    else none)

def systemItem (content mark : String) : Item :=
  [("role", .str "system"), ("content", .str content), (mark, .bool true)]

/-! ## L2 -/

inductive Score where
  | snip
  | keep
deriving DecidableEq

def scoreTurn (turn : List Item) (currentTurnId : Option Int) : Except Fault Score :=
  (isCurrentTurn turn currentTurnId).map (fun current =>
    let toolNames := turnToolNames turn
    if current then .keep
    else if turn.any (fun item => item.flag "_snip") then .keep
    else if turn.any isRepairStateItem then .keep
    else if hasProtectedToolContent (Strings.joinLines (turn.map Item.content)) then .keep
    else if toolNames.any (fun name => ["write_file", "patch_file", "run_shell"].contains name) then .keep
    else if !toolNames.isEmpty &&
        toolNames.all (fun name => ["list_files", "read_file", "grep"].contains name) then .snip
    else .keep)

def makeSnipMarker (turn : List Item) (turnIndex : Nat) : Item :=
  let names := turnToolNames turn
  let parts := names.eraseDups.map (fun name =>
    if 1 < names.count name then s!"{name}×{names.count name}" else name)
  let label := if names.isEmpty then "dialogue" else ",".intercalate parts
  systemItem s!"[snipped turn #{turnIndex + 1}: {label}]" "_snip"

/-- The marker that replaces a turn, if it is to be snipped. -/
def snipTurn (protectedTurns : List Nat) (currentTurnId : Option Int) (index : Nat)
    (turn : List Item) : Except Fault (Option (List Item)) :=
  if protectedTurns.contains index then .ok none
  else if turn.any (fun item => item.flag "_snip") then .ok none
  else (scoreTurn turn currentTurnId).map (fun score =>
    if score = .snip then some [makeSnipMarker turn index] else none)

/-- The loop of L2 and L4 over the turns of a history that is too long. -/
def replaceTurns (history : List Item) (budget : Budget) (threshold historyWindow : Int)
    (currentTurnId : Option Int) (tailProtectTokens : Int)
    (replace : List Nat -> Option Int -> Nat -> List Item -> Except Fault (Option (List Item))) :
    Except Fault (List Item) :=
  if countHistoryTokens history budget ≤ threshold then .ok history
  else
    interactionGroups history >>= fun turns =>
      if turns.length ≤ 2 then .ok history
      else
        protectedTurnIndices turns budget historyWindow currentTurnId tailProtectTokens >>=
          fun protectedTurns =>
            (changeWhile (replace protectedTurns currentTurnId)
              (fun working => decide (threshold < countHistoryTokens working.flatten budget))
              turns.length turns).map List.flatten

def l2Snip (history : List Item) (budget : Budget) (historyWindow : Int)
    (currentTurnId : Option Int) (tailProtectTokens : Int) : Except Fault (List Item) :=
  compressionThreshold (55 / 100) historyWindow >>= fun threshold =>
    replaceTurns history budget threshold historyWindow currentTurnId tailProtectTokens snipTurn

def flatIndexToTurn : Nat -> List (List Item) -> Nat
  | _, [] => 0
  | _, [_] => 0
  | flatIndex, turn :: next :: rest =>
    if flatIndex < turn.length then 0
    else flatIndexToTurn (flatIndex - turn.length) (next :: rest) + 1

/-- `assign_tool_ref_ids`, given the last identifier. -/
def assignToolRefIds : Nat -> List Item -> List Item
  | _, [] => []
  | refId, item :: rest =>
    if !item.hasRole "tool" || item.flag "_snip" then item :: assignToolRefIds refId rest
    else item.set "_ref_id" (.int (refId + 1 : Nat)) :: assignToolRefIds (refId + 1) rest

def makeCompactStub (toolName : String) (refId originalTokens : Int) (observationId : String) : String :=
  let name := if toolName = "" then "tool" else toolName
  if observationId = "" then s!"[ref:#{refId}] {name} ({originalTokens} tok compacted)"
  else s!"[observation:{observationId}] {name} ({originalTokens} tok compacted)"

/-- The item with a stub for its text, if it is to be compacted. -/
def compactItem (budget : Budget) (turns : List (List Item)) (protectedTurns : List Nat)
    (index : Nat) (item : Item) : Except Fault (Option Item) :=
  if !item.hasRole "tool" || isProtectedResult item then .ok none
  else if item.flag "_snip" || item.flag "_compact_ref" then .ok none
  else if protectedTurns.contains (flatIndexToTurn index turns) then .ok none
  else if hasProtectedToolContent item.content then .ok none
  else
    (intOf (((Json.obj item).get? "_ref_id").getD (.int (index + 1 : Nat)))).map (fun refId =>
      let observationId := if item.flag "observation_id" then str (item.get "observation_id") else ""
      let stub := makeCompactStub (item.str "tool_name" "") refId (budget.count item.content) observationId
      some ((item.set "content" (.str stub)).set "_compact_ref" (.int refId)))

def l3Microcompact (history : List Item) (budget : Budget) (historyWindow : Int)
    (currentTurnId : Option Int) (tailProtectTokens : Int) : Except Fault (List Item) :=
  compressionThreshold (70 / 100) historyWindow >>= fun threshold =>
    if countHistoryTokens history budget ≤ threshold then .ok history
    else
      interactionGroups history >>= fun turns =>
        protectedTurnIndices turns budget historyWindow currentTurnId tailProtectTokens >>=
          fun protectedTurns =>
            changeWhile (compactItem budget turns protectedTurns)
              (fun working => decide (threshold < countHistoryTokens working budget))
              (assignToolRefIds 0 history).length (assignToolRefIds 0 history)

/-! ## L4 -/

def isCollapsibleTurn (turn : List Item) (budget : Budget) (currentTurnId : Option Int) :
    Except Fault Bool :=
  (isCurrentTurn turn currentTurnId).map (fun current =>
    !current && !turn.any (fun item => item.flag "_snip" || item.flag "_collapsed") &&
      !turn.any (fun item => isRepairStateItem item || isSummary item) &&
      !turn.any (fun item => hasProtectedToolContent item.content) &&
      decide (40 ≤ countHistoryTokens turn budget))

def makeCollapseMarker (turn : List Item) (turnIndex : Nat) : Item :=
  let userMsg := ((turn.find? fun item => item.hasRole "user").map (fun item =>
    Strings.first 60 item.content)).getD ""
  let tools := turnToolNames turn
  let toolLabel := if tools.isEmpty then "none" else ",".intercalate tools.eraseDups
  let refs := turn.countP (fun item => item.flag "_compact_ref")
  systemItem s!"[collapsed turn #{turnIndex + 1}: user='{userMsg}' | tools={toolLabel} | refs={refs}]"
    "_collapsed"

/-- The marker that replaces a turn, if it is to be collapsed. -/
def collapseTurn (budget : Budget) (protectedTurns : List Nat) (currentTurnId : Option Int)
    (index : Nat) (turn : List Item) : Except Fault (Option (List Item)) :=
  if protectedTurns.contains index then .ok none
  else (isCollapsibleTurn turn budget currentTurnId).map (fun collapsible =>
    if collapsible then some [makeCollapseMarker turn index] else none)

def l4Collapse (history : List Item) (budget : Budget) (historyWindow : Int)
    (currentTurnId : Option Int) (tailProtectTokens : Int) : Except Fault (List Item) :=
  compressionThreshold (82 / 100) historyWindow >>= fun threshold =>
    replaceTurns history budget threshold historyWindow currentTurnId tailProtectTokens
      (collapseTurn budget)

/-! ## The oldest are replaced

What has been replaced is not replaced again, so each stage replaces the
oldest that it may, until the history is short enough or none is left. -/

variable {protectedTurns : List Nat} {index : Nat} {budget : Budget}

variable {currentTurnId : Option Int} {turns : List (List Item)}

theorem snipTurn_settles {turn other : List Item}
    (snipped : snipTurn protectedTurns currentTurnId index turn = .ok (some other)) :
    snipTurn protectedTurns currentTurnId index other = .ok none := by
  rw [snipTurn] at snipped
  split at snipped
  · cases snipped
  · split at snipped
    · cases snipped
    · rcases Fallible.map_ok snipped with ⟨score, -, chosen⟩
      split at chosen
      · cases chosen
        rw [snipTurn]
        split
        · rfl
        · exact if_pos rfl
      · cases chosen

theorem collapseTurn_settles {turn other : List Item}
    (collapsed : collapseTurn budget protectedTurns currentTurnId index turn = .ok (some other)) :
    collapseTurn budget protectedTurns currentTurnId index other = .ok none := by
  rw [collapseTurn] at collapsed
  split at collapsed
  · cases collapsed
  · rcases Fallible.map_ok collapsed with ⟨collapsible, -, chosen⟩
    split at chosen
    · cases chosen
      rw [collapseTurn]
      split
      · rfl
      · cases currentTurnId with
        | none => rfl
        | some active => rfl
    · cases chosen

/-- A tool result that was not snipped has a reference. -/
def Referenced (item : Item) : Prop :=
  item.hasRole "tool" = true -> item.flag "_snip" = false ->
    ∃ refId, (Json.obj item).get? "_ref_id" = some (.int refId) ∧ refId ≠ 0

omit [Rendering] in
theorem assignToolRefIds_referenced (refId : Nat) (history : List Item) :
    ∀ item ∈ assignToolRefIds refId history, Referenced item := by
  induction history generalizing refId with
  | nil => nofun
  | cons item rest ih =>
    rw [assignToolRefIds]
    split
    · rename_i excluded
      refine List.forall_mem_cons.mpr ⟨fun isTool unsnipped => ?_, ih refId⟩
      rw [isTool, unsnipped] at excluded
      cases excluded
    · exact List.forall_mem_cons.mpr ⟨fun _ _ => ⟨_, get?_set item _ _, by omega⟩, ih (refId + 1)⟩

theorem compactItem_marked {item : Item} (marked : item.flag "_compact_ref" = true) :
    compactItem budget turns protectedTurns index item = .ok none := by
  rw [compactItem, marked, Bool.or_true, if_pos rfl]
  exact ite_self _

theorem compactItem_settles {item other : Item} (referenced : Referenced item)
    (compacted : compactItem budget turns protectedTurns index item = .ok (some other)) :
    Referenced other ∧ compactItem budget turns protectedTurns index other = .ok none := by
  rw [compactItem] at compacted
  split at compacted
  · cases compacted
  · rename_i unprotected
    split at compacted
    · cases compacted
    · rename_i unmarked
      split at compacted
      · cases compacted
      · split at compacted
        · cases compacted
        · rw [Bool.or_eq_true, not_or, Bool.not_eq_true, Bool.not_eq_false'] at unprotected
          rw [Bool.or_eq_true, not_or, Bool.not_eq_true, Bool.not_eq_true] at unmarked
          rcases referenced unprotected.1 unmarked.1 with ⟨refId, named, nonzero⟩
          rw [named] at compacted
          cases compacted
          have kept : ∀ (key : String) (stub mark : Json), "content" ≠ key -> "_compact_ref" ≠ key ->
              (Json.obj ((item.set "content" stub).set "_compact_ref" mark)).get? key =
                (Json.obj item).get? key :=
            fun key stub mark content reference =>
              (get?_set_ne _ mark reference).trans (get?_set_ne item stub content)
          refine ⟨fun _ _ => ⟨refId, ?_, nonzero⟩, ?_⟩
          · exact (kept "_ref_id" _ _ (by decide) (by decide)).trans named
          · refine compactItem_marked ?_
            rw [Item.flag, Item.get_set]
            exact bne_iff_ne.mpr nonzero

section Oldest

variable (budget : Budget) (historyWindow : Int) (currentTurnId : Option Int) (tailProtectTokens : Int)
  (history result : List Item)

/-- The stage keeps the history, or replaces no more of its oldest turns than
it takes to come down to the threshold. -/
def OldestTurns (ratio : ℚ)
    (replace : List Nat -> Option Int -> Nat -> List Item -> Except Fault (Option (List Item))) : Prop :=
  ∃ threshold, compressionThreshold ratio historyWindow = .ok threshold ∧
    (countHistoryTokens history budget ≤ threshold ∧ result = history ∨
      ∃ turns, interactionGroups history = .ok turns ∧ (turns.length ≤ 2 ∧ result = history ∨
        ∃ protectedTurns working,
          protectedTurnIndices turns budget historyWindow currentTurnId tailProtectTokens =
            .ok protectedTurns ∧ result = working.flatten ∧
          Least (replace protectedTurns currentTurnId)
            (fun working => decide (threshold < countHistoryTokens working.flatten budget)) turns working))

/-- The same of the tool results, each of which has its reference. -/
def OldestResults : Prop :=
  ∃ threshold, compressionThreshold (70 / 100) historyWindow = .ok threshold ∧
    (countHistoryTokens history budget ≤ threshold ∧ result = history ∨
      ∃ turns protectedTurns, interactionGroups history = .ok turns ∧
        protectedTurnIndices turns budget historyWindow currentTurnId tailProtectTokens =
          .ok protectedTurns ∧
        Least (compactItem budget turns protectedTurns)
          (fun working => decide (threshold < countHistoryTokens working budget))
          (assignToolRefIds 0 history) result)

variable {budget historyWindow currentTurnId tailProtectTokens history result}

theorem replaceTurns_oldest {ratio : ℚ}
    {replace : List Nat -> Option Int -> Nat -> List Item -> Except Fault (Option (List Item))}
    (settles : ∀ protectedTurns index turn other,
      replace protectedTurns currentTurnId index turn = .ok (some other) ->
        replace protectedTurns currentTurnId index other = .ok none)
    (replaced : (compressionThreshold ratio historyWindow >>= fun threshold =>
      replaceTurns history budget threshold historyWindow currentTurnId tailProtectTokens replace) =
        .ok result) :
    OldestTurns budget historyWindow currentTurnId tailProtectTokens history result ratio replace := by
  rcases Fallible.bind_ok replaced with ⟨threshold, computed, continued⟩
  refine ⟨threshold, computed, ?_⟩
  rw [replaceTurns] at continued
  split at continued
  · rename_i short
    exact Or.inl ⟨short, (Except.ok.inj continued).symm⟩
  · rcases Fallible.bind_ok continued with ⟨turns, grouped, continued⟩
    refine Or.inr ⟨turns, grouped, ?_⟩
    split at continued
    · rename_i few
      exact Or.inl ⟨few, (Except.ok.inj continued).symm⟩
    · rcases Fallible.bind_ok continued with ⟨protectedTurns, found, continued⟩
      rcases Fallible.map_ok continued with ⟨working, looped, rfl⟩
      refine Or.inr ⟨protectedTurns, working, found, rfl, ?_⟩
      have closes := fun index turn other (_ : True) => settles protectedTurns index turn other
      exact changeWhile_least closes (fun _ _ => True.intro) looped

/-- L2, L3 and L4 replace the oldest that they may, and no more than needed. -/
theorem stages_replace_oldest {earlier later compactedHistory collapsedHistory : List Item}
    (snipped : l2Snip history budget historyWindow currentTurnId tailProtectTokens = .ok result)
    (compacted : l3Microcompact earlier budget historyWindow currentTurnId tailProtectTokens =
      .ok compactedHistory)
    (collapsed : l4Collapse later budget historyWindow currentTurnId tailProtectTokens =
      .ok collapsedHistory) :
    OldestTurns budget historyWindow currentTurnId tailProtectTokens history result (55 / 100) snipTurn ∧
      OldestResults budget historyWindow currentTurnId tailProtectTokens earlier compactedHistory ∧
      OldestTurns budget historyWindow currentTurnId tailProtectTokens later collapsedHistory (82 / 100)
        (collapseTurn budget) := by
  refine ⟨replaceTurns_oldest (fun _ _ _ _ => snipTurn_settles) snipped, ?_,
    replaceTurns_oldest (fun _ _ _ _ => collapseTurn_settles) collapsed⟩
  rcases Fallible.bind_ok compacted with ⟨threshold, computed, continued⟩
  refine ⟨threshold, computed, ?_⟩
  split at continued
  · rename_i short
    exact Or.inl ⟨short, (Except.ok.inj continued).symm⟩
  · rcases Fallible.bind_ok continued with ⟨turns, grouped, continued⟩
    rcases Fallible.bind_ok continued with ⟨protectedTurns, found, looped⟩
    refine Or.inr ⟨turns, protectedTurns, grouped, found, ?_⟩
    have settles : ∀ index item other, Referenced item ->
        compactItem budget turns protectedTurns index item = .ok (some other) ->
          compactItem budget turns protectedTurns index other = .ok none :=
      fun _ _ _ referenced replaced => (compactItem_settles referenced replaced).2
    exact changeWhile_least settles (assignToolRefIds_referenced 0 earlier) looped

end Oldest

end Stages

/-- A question, the result of a search, and two later questions. -/
def searchedHistory : List Item :=
  [[("role", .str "user"), ("content", .str "Where is f?")],
    [("role", .str "tool"), ("tool_name", .str "grep"), ("content", .str "a.py:1 def f(): pass, b.py:2 f()")],
    [("role", .str "user"), ("content", .str "Why?")], [("role", .str "user"), ("content", .str "How?")]]

section Witness

attribute [local instance] Rendering.spelled

theorem searched_history_replaced : ∃ snipped compacted collapsed,
    OldestTurns Budget.bytes 40 none 0 searchedHistory snipped (55 / 100) snipTurn ∧
      OldestResults Budget.bytes 40 none 0 searchedHistory compacted ∧
      OldestTurns Budget.bytes 40 none 0 searchedHistory collapsed (82 / 100)
        (collapseTurn Budget.bytes) := by
  rcases Fallible.returns_of_toBool (by decide +kernel :
    (l2Snip searchedHistory Budget.bytes 40 none 0).toBool = true) with ⟨_, snipped⟩
  rcases Fallible.returns_of_toBool (by decide +kernel :
    (l3Microcompact searchedHistory Budget.bytes 40 none 0).toBool = true) with ⟨_, compacted⟩
  rcases Fallible.returns_of_toBool (by decide +kernel :
    (l4Collapse searchedHistory Budget.bytes 40 none 0).toBool = true) with ⟨_, collapsed⟩
  exact ⟨_, _, _, stages_replace_oldest snipped compacted collapsed⟩

end Witness

end ContextCompression
end FixLoop
