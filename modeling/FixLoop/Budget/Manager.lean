import Mathlib.Algebra.Order.Ring.Unbundled.Rat
import FixLoop.Library.Keyed
import FixLoop.Library.Machine

namespace FixLoop
namespace Budget

open Library

/-!
# The budget manager

One ledger of what has been used of each resource, in exact arithmetic.  The
amounts of a dictionary are its items; an amount that is missing reads as zero.
-/

abbrev Costs := List (String × ℚ)

def amount (resource : String) (costs : Costs) : ℚ :=
  ((Keyed.find? Prod.fst resource costs).map Prod.snd).getD 0

/-- `{resource: max(0.0, float(amount)) for resource, amount in costs.items()}`. -/
def normalized (costs : Costs) : Costs := costs.map fun item => (item.1, max 0 item.2)

def mentions (resource : String) (costs : Costs) : Bool := costs.any fun item => decide (item.1 = resource)

/-- `remaining` is none for `float("inf")`. -/
structure BudgetDecision where
  resource : String
  allowed : Bool
  used : ℚ
  limit : ℚ
  remaining : Option ℚ
  action : String
  reason : String

structure ModelCall where
  purpose : String
  usageStatus : String

structure BudgetManager where
  limits : String -> Option ℚ
  used : String -> Option ℚ
  rejected : String -> Option Nat
  scopes : List (String × Costs)
  modelCalls : List (String × ModelCall)

def ACTIONS : List (String × String) :=
  [("prompt_tokens", "compress_context"), ("turns", "stop"), ("llm_calls", "stop"), ("tool_calls", "stop"),
    ("writes", "read_only"), ("verifies", "partial_verify"), ("recoveries", "stop"),
    ("hard_cost_limit_usd", "stop"), ("soft_cost_limit_usd", "degrade")]

def actionFor (resource : String) : String :=
  ((Keyed.find? Prod.fst resource ACTIONS).map Prod.snd).getD "stop"

/-- `limit <= 0 or used + amount <= limit`. -/
def fits (limit used amount : ℚ) : Bool := decide (limit ≤ 0) || decide (used + amount ≤ limit)

def decision (resource : String) (allowed : Bool) (used limit : ℚ) : BudgetDecision where
  resource := resource
  allowed := allowed
  used := used
  limit := limit
  remaining := if limit ≤ 0 then none else some (max 0 (limit - used))
  action := if allowed then "continue" else actionFor resource
  reason := if allowed then "" else resource ++ "_budget_exhausted"

namespace BudgetManager

/-- `BudgetManager(limits)`. -/
def construct (limits : Costs) : BudgetManager where
  limits := fun resource => (Keyed.find? Prod.fst resource (normalized limits)).map Prod.snd
  used := fun resource => if mentions resource limits then some 0 else none
  rejected := fun resource => if mentions resource limits then some 0 else none
  scopes := []
  modelCalls := []

variable (manager : BudgetManager)

def usedOf (resource : String) : ℚ := (manager.used resource).getD 0

def limitOf (resource : String) : ℚ := (manager.limits resource).getD 0

def scope (key : String) : Costs := ((Keyed.find? Prod.fst key manager.scopes).map Prod.snd).getD []

/-- The resources of the costs get a limit and a use of zero by default. -/
def entered (costs : Costs) : BudgetManager :=
  { manager with
    limits := fun resource =>
      if mentions resource costs then some (manager.limitOf resource) else manager.limits resource
    used := fun resource =>
      if mentions resource costs then some (manager.usedOf resource) else manager.used resource }

def reject (resources : List String) : BudgetManager :=
  { manager with
    rejected := fun resource =>
      if resources.contains resource then some ((manager.rejected resource).getD 0 + 1)
      else manager.rejected resource }

/-- Each resource of the costs is charged. -/
def charged (costs : Costs) : BudgetManager :=
  { manager with
    used := fun resource =>
      if mentions resource costs then some (manager.usedOf resource + amount resource costs)
      else manager.used resource }

def check (resource : String) (asked : ℚ) : BudgetManager × BudgetDecision :=
  let checked := manager.entered [(resource, asked)]
  (checked, decision resource (fits (manager.limitOf resource) (manager.usedOf resource) (max 0 asked))
    (manager.usedOf resource) (manager.limitOf resource))

def reserve (resource : String) (asked : ℚ) : BudgetManager × BudgetDecision :=
  let checked := manager.entered [(resource, asked)]
  if fits (manager.limitOf resource) (manager.usedOf resource) (max 0 asked) then
    (checked.charged (normalized [(resource, asked)]),
      decision resource true (manager.usedOf resource + max 0 asked) (manager.limitOf resource))
  else
    (checked.reject [resource], decision resource false (manager.usedOf resource) (manager.limitOf resource))

def decisions (costs : Costs) : List BudgetDecision :=
  costs.map (fun item =>
    decision item.1 (fits (manager.limitOf item.1) (manager.usedOf item.1) item.2) (manager.usedOf item.1)
      (manager.limitOf item.1))

def reserveMany (reservations : Costs) : BudgetManager × List BudgetDecision :=
  let costs := normalized reservations
  let checked := manager.entered costs
  let refused := (manager.decisions costs).filter (fun decision => !decision.allowed)
  if refused ≠ [] then (checked.reject (refused.map BudgetDecision.resource), manager.decisions costs)
  else
    (checked.charged costs,
      costs.map (fun item => decision item.1 true ((checked.charged costs).usedOf item.1)
        (manager.limitOf item.1)))

def reserveScope (key : String) (costs : Costs) : BudgetManager × Bool :=
  if (Keyed.find? Prod.fst key manager.scopes).isSome then (manager, true)
  else
    let reserved := manager.reserveMany costs
    if reserved.2.any (fun decision => !decision.allowed) then (reserved.1, false)
    else
      ({ reserved.1 with scopes := Keyed.store Prod.fst (key, normalized costs) reserved.1.scopes }, true)

def reconcileScope (key : String) (costs : Costs) : BudgetManager :=
  let previous := manager.scope key
  let costs := normalized costs
  { manager with
    used := fun resource =>
      if mentions resource previous || mentions resource costs then
        some (max 0 (manager.usedOf resource - amount resource previous + amount resource costs))
      else manager.used resource
    scopes := Keyed.store Prod.fst (key, costs) manager.scopes }

def record (resource : String) (spent : ℚ) : BudgetManager × BudgetDecision :=
  { manager with
    used := Function.update manager.used resource (some (manager.usedOf resource + max 0 spent)) }.check resource 0

def reserveModelCall (key purpose : String) (costs : Costs) : BudgetManager × Bool :=
  let reserved := manager.reserveScope key costs
  if reserved.2 then
    ({ reserved.1 with
        modelCalls := Keyed.store Prod.fst (key, ⟨purpose, "unknown"⟩) reserved.1.modelCalls }, true)
  else (reserved.1, false)

/-- The error is a `KeyError`. -/
def settleModelCall (key : String) (costs : Costs) (status : String) : BudgetManager × Except String Unit :=
  let reconciled := manager.reconcileScope key costs
  match Keyed.find? Prod.fst key manager.modelCalls with
  | none => (reconciled, .error key)
  | some call =>
    ({ reconciled with
        modelCalls := Keyed.store Prod.fst (key, { call.2 with usageStatus := status }) reconciled.modelCalls },
      .ok ())

/-- `restore(snapshot)`, where a snapshot is what the manager holds. -/
def restore (snapshot : BudgetManager) : BudgetManager where
  limits := fun resource => ((snapshot.limits resource).map (max 0)).or (manager.limits resource)
  used := fun resource => ((snapshot.used resource).map (max 0)).or (manager.used resource)
  rejected := fun resource => (snapshot.rejected resource).or (manager.rejected resource)
  scopes := snapshot.scopes
  modelCalls := snapshot.modelCalls

end BudgetManager

/-!
# Runs of a budget manager and model calls

The direct amounts are no field of the source: they add up what was reserved
and recorded without a scope.  A snapshot keeps what they were when it was
taken.
-/

structure Run where
  manager : BudgetManager
  direct : String -> ℚ := fun _ => 0
  taken : List (BudgetManager × (String -> ℚ)) := []

/-- A restore puts a snapshot that was taken, counted from the first, into a
manager that was just constructed with limits of its own. -/
inductive Call where
  | reserve (resource : String) (asked : ℚ)
  | reserveMany (reservations : Costs)
  | reserveScope (key : String) (costs : Costs)
  | reconcileScope (key : String) (costs : Costs)
  | check (resource : String) (asked : ℚ)
  | record (resource : String) (spent : ℚ)
  | reserveModelCall (key purpose : String) (costs : Costs)
  | settleModelCall (key : String) (costs : Costs) (status : String)
  | snapshot
  | restore (index : Nat) (limits : Costs)

namespace Run

/-- The amounts are granted directly. -/
def granted (costs : Costs) (manager : BudgetManager) (run : Run) : Run :=
  { run with
    manager := manager
    direct := fun resource => run.direct resource + amount resource costs }

def kept (manager : BudgetManager) (run : Run) : Run := { run with manager := manager }

end Run

def step (run : Run) : Call -> Run
  | .reserve resource asked =>
    let reserved := run.manager.reserve resource asked
    if reserved.2.allowed then run.granted (normalized [(resource, asked)]) reserved.1 else run.kept reserved.1
  | .reserveMany reservations =>
    let reserved := run.manager.reserveMany reservations
    if reserved.2.any (fun decision => !decision.allowed) then run.kept reserved.1
    else run.granted (normalized reservations) reserved.1
  | .reserveScope key costs => run.kept (run.manager.reserveScope key costs).1
  | .reconcileScope key costs => run.kept (run.manager.reconcileScope key costs)
  | .check resource asked => run.kept (run.manager.check resource asked).1
  | .record resource spent =>
    run.granted (normalized [(resource, spent)]) (run.manager.record resource spent).1
  | .reserveModelCall key purpose costs => run.kept (run.manager.reserveModelCall key purpose costs).1
  | .settleModelCall key costs status => run.kept (run.manager.settleModelCall key costs status).1
  | .snapshot => { run with taken := run.taken ++ [(run.manager, run.direct)] }
  | .restore index limits =>
    match run.taken[index]? with
    | none => run
    | some (snapshot, direct) =>
      { run with manager := (BudgetManager.construct limits).restore snapshot, direct := direct }

def machine : Machine Run Call := ⟨step⟩

/-! ## `invoke_model_call` -/

inductive CallFault where
  | value (text : String)
  | timeout
  | cancelled
  | deadline
  | costLimit (decision : BudgetDecision)
  | exceeded (decisions : List BudgetDecision)

/-- What a call is asked for and what its token and its deadline answer. -/
structure ModelRequest where
  inputTokens : Int
  outputTokens : Int
  purpose : String
  inputLimit : Option Int
  timeout : Option ℚ
  cancelled : Bool
  pastDeadline : Bool

/-- `_costs(inp, out)`. -/
def callCosts (inputTokens outputTokens : Int) : Costs :=
  [("llm_calls", 1), ("prompt_tokens", inputTokens), ("output_tokens", outputTokens),
    ("total_tokens", inputTokens + outputTokens)]

def ModelRequest.reserved (request : ModelRequest) : Costs := callCosts request.inputTokens request.outputTokens

/-- The checks before a key is drawn. -/
def ModelRequest.refusal (request : ModelRequest) : Option CallFault :=
  if request.purpose = "" then some (.value "invalid_model_call_purpose")
  else if request.inputTokens < 0 ∨ request.outputTokens ≤ 0 then some (.value "invalid_model_call_reservation")
  else if (request.inputLimit.map fun limit => decide (limit < request.inputTokens)).getD false then
    some (.value "model_input_window_exceeded")
  else if (request.timeout.map fun timeout => decide (timeout ≤ 0)).getD false then some .timeout
  else if request.cancelled then some .cancelled
  else if request.pastDeadline then some .deadline
  else none

/-- Up to the dispatch, under the key that was drawn. -/
def startModelCall (key : String) (request : ModelRequest) (manager : BudgetManager) :
    BudgetManager × Except CallFault Unit :=
  match request.refusal with
  | some fault => (manager, .error fault)
  | none =>
    let gate := manager.check "hard_cost_limit_usd" 0
    if !gate.2.allowed then (gate.1, .error (.costLimit gate.2))
    else
      let reserved := gate.1.reserveModelCall key request.purpose request.reserved
      if reserved.2 then (reserved.1, .ok ())
      else
        (reserved.1.entered request.reserved, .error (.exceeded (reserved.1.decisions request.reserved)))

/-- How the dispatched function ends for the thread that owns the call: with
an error, a cancellation or a timeout, or with a result whose usage may be
unknown. -/
inductive Dispatched where
  | raised
  | returned (usage : Option (Nat × Nat))

/-- What the owner still asks of the manager.  A late result of an abandoned
dispatch asks nothing.  `cost` is the estimated cost of the settled tokens. -/
def finishModelCall (key : String) (request : ModelRequest) (cost : Costs -> ℚ) : Dispatched -> List Call
  | .raised => []
  | .returned usage =>
    let settled := (usage.map fun tokens => callCosts tokens.1 tokens.2).getD request.reserved
    .settleModelCall key settled (if usage.isSome then "actual" else "estimated") ::
      (if cost settled ≤ 0 then []
        else [.record "hard_cost_limit_usd" (cost settled), .record "soft_cost_limit_usd" (cost settled)])

/-- The usage of the call stays unknown. -/
def Dispatched.unknown : Dispatched -> Bool
  | .raised => true
  | .returned usage => usage.isNone

end Budget
end FixLoop
