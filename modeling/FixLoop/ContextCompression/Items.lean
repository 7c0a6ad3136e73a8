import FixLoop.Library.Double
import FixLoop.Library.Json
import FixLoop.Library.Strings

namespace FixLoop
namespace ContextCompression

open Library

/-!
# History items and their token counts

A history item is a dictionary of JSON values.  The renderings of values that
are not texts, and the token counter, are parameters: the pipeline only ever
compares counts.
-/

/-- The exceptions that the pipeline distinguishes.  `blocked` is
`ContextBuildBlockedError` and `value` is `ValueError`. -/
inductive Fault where
  | blocked (reason : String)
  | value (reason : String)
  | other
deriving DecidableEq

/-- How a call of the summarizer ends without a text.  `cancelled` is
`CancelledError`, which no other part of the pipeline raises. -/
inductive Exit where
  | cancelled
  | raised (fault : Fault)
deriving DecidableEq

def raising {Value : Type} (computation : Except Fault Value) : Except Exit Value :=
  computation.mapError Exit.raised

theorem raising_ok {Value : Type} {computation : Except Fault Value} {value : Value}
    (returned : raising computation = .ok value) : computation = .ok value := by
  cases computation with
  | error fault => cases returned
  | ok result => exact congrArg Except.ok (Except.ok.inj returned)

/-- `str` of floats, lists and dictionaries, `json.dumps` with and without
sorted keys, lower case, `int` of a text, and the first digits of the SHA-256
of a text. -/
class Rendering where
  text : Json -> String
  encode : Json -> String
  dumps : Json -> String
  lower : String -> String
  integer : String -> Option Int
  digest : String -> String

/-- Renderings that show the value, for runs on concrete inputs. -/
@[reducible] def Rendering.spelled : Rendering :=
  ⟨Json.spelled, Json.spelled, Json.spelled, id, fun _ => none, id⟩

/-- `TokenBudget`. -/
structure Budget where
  totalLimit : Int
  count : String -> Int
  fit : String -> Int -> String

def Budget.bytes : Budget :=
  ⟨6000, fun text => text.utf8ByteSize, fun text limit => Strings.first limit.toNat text⟩

abbrev Item := List (String × Json)

/-- The values over which a loop runs. -/
def iterate : Json -> Except Fault (List Json)
  | .arr items => .ok items
  | .obj members => .ok (members.map fun entry => .str entry.1)
  | .str text => .ok (text.toList.map fun char => .str (String.ofList [char]))
  | _ => .error .other

namespace Item

/-- `item.get(key)`. -/
def get (item : Item) (key : String) : Json :=
  ((Json.obj item).get? key).getD .null

/-- `item[key] = value`. -/
def set (item : Item) (key : String) (value : Json) : Item :=
  if item.any (fun entry => entry.1 == key) then
    item.map (fun entry => if entry.1 == key then (key, value) else entry)
  else item ++ [(key, value)]

/-- `item.get(key)` as a condition. -/
def flag (item : Item) (key : String) : Bool :=
  (item.get key).truthy

/-- `item.get("role") == role`. -/
def hasRole (item : Item) (role : String) : Bool :=
  (item.get "role").str? == some role

/-- The blocks of a content that is a list. -/
def blocks (item : Item) : List Json :=
  match item.get "content" with
  | .arr blocks => blocks
  | _ => []

def hasBlocks (item : Item) : Bool :=
  match item.get "content" with
  | .arr _ => true
  | _ => false

/-- The members of this name in the blocks of a kind. -/
def blockRefs (item : Item) (kind key : String) : List Json :=
  item.blocks.filterMap (fun block =>
    if (block.get? "type").bind Json.str? = some kind then some ((block.get? key).getD .null)
    else none)

end Item

/-! ## Reading a member after one was set -/

variable (item : Item) {key : String}

variable {other : String} (value : Json)

theorem find?_replace (different : key ≠ other) :
    (item.map fun entry => if entry.1 == key then (key, value) else entry).find?
      (fun entry => entry.1 == other) = item.find? (fun entry => entry.1 == other) := by
  induction item with
  | nil => rfl
  | cons entry rest ih =>
    rw [List.map_cons, List.find?_cons, List.find?_cons, ih]
    by_cases named : entry.1 = key
    · rw [beq_iff_eq.mpr named, if_pos rfl, named, beq_eq_false_iff_ne.mpr different]
    · rw [beq_eq_false_iff_ne.mpr named, if_neg Bool.false_ne_true]

theorem find?_replace_same {item : Item} (known : item.any (fun entry => entry.1 == key) = true) :
    (item.map fun entry => if entry.1 == key then (key, value) else entry).find?
      (fun entry => entry.1 == key) = some (key, value) := by
  induction item with
  | nil => cases known
  | cons entry rest ih =>
    rw [List.map_cons, List.find?_cons]
    cases named : entry.1 == key with
    | true =>
      rw [if_pos rfl, beq_self_eq_true]
    | false =>
      rw [List.any_cons, named, Bool.false_or] at known
      rw [if_neg Bool.false_ne_true, named]
      exact ih known

theorem get?_set_ne (different : key ≠ other) :
    (Json.obj (item.set key value)).get? other = (Json.obj item).get? other := by
  rw [Item.set]
  split
  · exact congrArg (Option.map Prod.snd) (find?_replace item value different)
  · refine congrArg (Option.map Prod.snd) ?_
    rw [List.find?_append, List.find?_singleton, beq_eq_false_iff_ne.mpr different]
    exact Option.or_none

theorem get?_set (key : String) (value : Json) : (Json.obj (item.set key value)).get? key = some value := by
  rw [Item.set]
  split
  · rename_i known
    exact congrArg (Option.map Prod.snd) (find?_replace_same value known)
  · rename_i unknown
    have absent : item.find? (fun entry => entry.1 == key) = none := by
      rw [List.find?_eq_none]
      intro entry member named
      exact unknown (List.any_eq_true.mpr ⟨entry, member, named⟩)
    rw [Json.get?, List.find?_append, absent, List.find?_singleton, beq_self_eq_true]
    rfl

theorem Item.get_set_ne (different : key ≠ other) : (item.set key value).get other = item.get other :=
  congrArg (fun found => Option.getD found Json.null) (get?_set_ne item value different)

theorem Item.get_set (key : String) (value : Json) : (item.set key value).get key = value :=
  congrArg (fun found => Option.getD found Json.null) (get?_set item key value)

section Rendered

variable [Rendering]

/-- `str(value)`. -/
def str : Json -> String
  | .null => "None"
  | .bool value => if value then "True" else "False"
  | .int value => toString value
  | .str text => text
  | value => Rendering.text value

/-- `str(item.get(key, default))`. -/
def Item.str (item : Item) (key default : String) : String :=
  (((Json.obj item).get? key).map ContextCompression.str).getD default

def Item.content (item : Item) : String :=
  item.str "content" ""

/-- `int(value)`. -/
def intOf : Json -> Except Fault Int
  | .int value => .ok value
  | .bool value => .ok (if value then 1 else 0)
  | .float value => .ok (Double.truncate value)
  | .str text =>
    match Rendering.integer text with
    | some value => .ok value
    | none => .error (.value "invalid literal for int()")
  | _ => .error .other

def isSummary (item : Item) : Bool :=
  item.hasRole "system" && Strings.startsWith "[Earlier summary]" item.content

def isRepairStateItem (item : Item) : Bool :=
  item.flag "repair_state" || item.flag "evidence_ref" || item.flag "long_task_state" ||
    ["修复状态", "长任务状态", "[repair-context]"].any fun start => Strings.startsWith start item.content

def hasToolCall (group : List Item) : Bool :=
  group.any (fun item =>
    item.flag "tool_calls" || (item.hasRole "assistant" && item.flag "tool_name") ||
      !(item.blockRefs "tool_use" "id").isEmpty)

def contentText (item : Item) : String :=
  if item.hasBlocks || item.flag "tool_calls" || item.flag "tool_call_id" then
    Rendering.encode (.obj item)
  else item.content

def historyItemText (item : Item) : String :=
  item.str "role" "?" ++ ": " ++ contentText item

def countHistoryTokens (history : List Item) (budget : Budget) : Int :=
  if history.isEmpty then 0 else budget.count (Strings.joinLines (history.map historyItemText))

def turnIdOfTurn : List Item -> Except Fault (Option Int)
  | [] => .ok none
  | item :: rest =>
    match item.get "turn_id" with
    | .null => turnIdOfTurn rest
    | value => (intOf value).map some

def isCurrentTurn (turn : List Item) (activeTurnId : Option Int) : Except Fault Bool :=
  match activeTurnId with
  | none => .ok false
  | some active => (turnIdOfTurn turn).map fun turnId => turnId == some active

/-- The references of one item in `evidence_refs`. -/
def itemEvidenceRefs (item : Item) : Except Fault (List String) :=
  (iterate (((Json.obj item).get? "evidence_refs").getD (.arr []))).map (fun listed =>
    (["observation_id", "evidence_ref"].filterMap (fun key =>
      (item.get key).str?.filter fun text => text != "")) ++ listed.filterMap Json.str?)

def evidenceRefs (history : List Item) : Except Fault (List String) :=
  (history.mapM itemEvidenceRefs).map fun refs => refs.flatten.eraseDups

end Rendered

end ContextCompression
end FixLoop
