import FixLoop.Budget.Limits

namespace FixLoop
namespace Budget

open Library

/-!
# Model calls

A model call is reserved under a key of its own before it is dispatched.  Only
its owner may settle it, so a call whose usage stays unknown keeps what was
reserved for it.
-/

namespace BudgetManager

theorem default_twice (first second : Bool) (value : Option ℚ) :
    (if (first || second) = true then some (value.getD 0) else value) =
      if second = true then some ((if (first || false) = true then some (value.getD 0) else value).getD 0)
      else if (first || false) = true then some (value.getD 0) else value := by
  cases first with
  | false | true => cases second with
    | false => rfl
    | true => rfl

theorem entered_cons (manager : BudgetManager) (item : String × ℚ) (rest : Costs) :
    manager.entered (item :: rest) = (manager.entered [item]).entered rest := by
  have limits : (manager.entered (item :: rest)).limits = ((manager.entered [item]).entered rest).limits := by
    funext resource
    exact default_twice (decide (item.1 = resource)) (mentions resource rest) (manager.limits resource)
  have used : (manager.entered (item :: rest)).used = ((manager.entered [item]).entered rest).used := by
    funext resource
    exact default_twice (decide (item.1 = resource)) (mentions resource rest) (manager.used resource)
  show BudgetManager.mk _ _ _ _ _ = BudgetManager.mk _ _ _ _ _
  congr 1

end BudgetManager

variable (run : Run) {manager : BudgetManager}

theorem checks_run (costs : Costs) :
    machine.run run (costs.map fun item => .check item.1 item.2) = run.kept (run.manager.entered costs) := by
  induction costs generalizing run with
  | nil => rfl
  | cons item rest ih =>
    rw [List.map_cons, Machine.run_cons, ih, BudgetManager.entered_cons]
    rfl

theorem startModelCall_run (key : String) (request : ModelRequest) :
    ∃ calls, run.kept (startModelCall key request run.manager).1 = machine.run run calls := by
  rw [startModelCall]
  cases request.refusal with
  | some fault => exact ⟨[], rfl⟩
  | none =>
    dsimp only
    by_cases gated : (!(run.manager.check "hard_cost_limit_usd" 0).2.allowed) = true
    · rw [if_pos gated]
      exact ⟨[.check "hard_cost_limit_usd" 0], rfl⟩
    · rw [if_neg gated]
      split
      · exact ⟨[.check "hard_cost_limit_usd" 0, .reserveModelCall key request.purpose request.reserved], rfl⟩
      · refine ⟨[.check "hard_cost_limit_usd" 0, .reserveModelCall key request.purpose request.reserved] ++
          request.reserved.map (fun item => .check item.1 item.2), ?_⟩
        rw [Machine.run_append, checks_run]
        rfl

/-! ## The key of a call -/

namespace BudgetManager

/-- Neither a scope nor a model call has the key. -/
def Unknown (key : String) (manager : BudgetManager) : Prop :=
  Keyed.find? Prod.fst key manager.scopes = none ∧ Keyed.find? Prod.fst key manager.modelCalls = none

def knows (key : String) (manager : BudgetManager) : Bool := (Keyed.find? Prod.fst key manager.modelCalls).isSome

/-- A model call that is known costs what was reserved for it. -/
def Keeps (key : String) (reserved : Costs) (manager : BudgetManager) : Prop :=
  manager.knows key = true -> manager.scope key = normalized reserved

end BudgetManager

/-- The key was never used, as the manager and its snapshots tell. -/
def Run.Fresh (key : String) (run : Run) : Prop :=
  run.manager.Unknown key ∧ ∀ taken ∈ run.taken, BudgetManager.Unknown key taken.1

def Call.touches (key : String) : Call -> Bool
  | .reserveScope touched _ => decide (touched = key)
  | .reconcileScope touched _ => decide (touched = key)
  | .reserveModelCall touched _ _ => decide (touched = key)
  | .settleModelCall touched _ _ => decide (touched = key)
  | _ => false

/-- Only the owner of the call touches its key, and its usage is unknown. -/
def Unsettled (key : String) (request : ModelRequest) (cost : Costs -> ℚ) (call : Call) : Prop :=
  call.touches key = true -> ∃ ending : Dispatched,
    ending.unknown = true ∧ call ∈ finishModelCall key request cost ending

/-- A snapshot that is restored was taken after the given number of others. -/
def Later (taken : Nat) : Call -> Prop
  | .restore index _ => taken ≤ index
  | _ => True

variable {key : String} {request : ModelRequest} {cost : Costs -> ℚ} {call : Call}

/-- The owner settles what it reserved. -/
theorem Unsettled.settle (unsettled : Unsettled key request cost call) (touches : call.touches key = true) :
    ∃ status, call = .settleModelCall key request.reserved status := by
  rcases unsettled touches with ⟨ending, unknown, member⟩
  cases ending with
  | raised => cases member
  | returned usage =>
    rcases List.mem_cons.mp member with here | recorded
    · have missing : usage = none := Option.isNone_iff_eq_none.mp unknown
      rw [missing] at here
      exact ⟨_, here⟩
    · split at recorded
      · cases recorded
      · rcases List.mem_cons.mp recorded with here | later
        · rw [here] at touches
          cases touches
        · rw [List.mem_singleton.mp later] at touches
          cases touches

/-! ## What the calls do to the key -/

/-- The manager has for the key what it had before. -/
def Framed (key : String) (manager after : BudgetManager) : Prop :=
  after.scope key = manager.scope key ∧ after.knows key = manager.knows key

namespace Framed

variable {key : String} {manager after : BudgetManager}

theorem of_fields (scopes : after.scopes = manager.scopes) (modelCalls : after.modelCalls = manager.modelCalls) :
    Framed key manager after := by
  rw [Framed, BudgetManager.scope, BudgetManager.scope, BudgetManager.knows, BudgetManager.knows, scopes, modelCalls]
  exact ⟨rfl, rfl⟩

theorem trans {last : BudgetManager} (first : Framed key manager after) (second : Framed key after last) :
    Framed key manager last :=
  ⟨second.1.trans first.1, second.2.trans first.2⟩

end Framed

namespace BudgetManager

variable {key : String} (manager : BudgetManager)

variable {other : String}

theorem scope_stored (apart : other ≠ key) (costs : Costs) {after : BudgetManager}
    (scopes : after.scopes = Keyed.store Prod.fst (other, costs) manager.scopes) :
    after.scope key = manager.scope key := by
  have elsewhere : Keyed.find? Prod.fst key (Keyed.store Prod.fst (other, costs) manager.scopes) =
      Keyed.find? Prod.fst key manager.scopes := Keyed.find?_store_ne apart manager.scopes
  rw [scope, scope, scopes, elsewhere]

variable (reservations : Costs)

theorem reserveMany_modelCalls : (manager.reserveMany reservations).1.modelCalls = manager.modelCalls := by
  rw [reserveMany]
  split
  · rfl
  · rfl

theorem reserveMany_framed : Framed key manager (manager.reserveMany reservations).1 :=
  Framed.of_fields (manager.reserveMany_cases reservations).2 (manager.reserveMany_modelCalls reservations)

theorem reserve_framed (resource : String) (asked : ℚ) : Framed key manager (manager.reserve resource asked).1 := by
  refine Framed.of_fields (manager.reserve_scopes resource asked) ?_
  rw [reserve]
  split
  · rfl
  · rfl

theorem reserveScope_modelCalls (other : String) (costs : Costs) :
    (manager.reserveScope other costs).1.modelCalls = manager.modelCalls := by
  rcases manager.reserveScope_cases other costs with ⟨_, known⟩ | ⟨_, _, same, _⟩ | ⟨_, _, _, kept⟩
  · rw [known]
  · rw [same, reserveMany_modelCalls]
  · rw [kept]
    exact manager.reserveMany_modelCalls costs

theorem reserveScope_framed (apart : other ≠ key) (costs : Costs) :
    Framed key manager (manager.reserveScope other costs).1 := by
  refine ⟨?_, by rw [knows, knows, reserveScope_modelCalls]⟩
  rcases manager.reserveScope_cases other costs with ⟨_, known⟩ | ⟨_, _, same, _⟩ | ⟨_, _, _, kept⟩
  · rw [known]
  · rw [same]
    exact (manager.reserveMany_framed costs).1
  · rw [kept, <- (manager.reserveMany_framed costs).1]
    exact scope_stored _ apart (normalized costs) rfl

theorem reserveModelCall_framed (apart : other ≠ key) (purpose : String) (costs : Costs) :
    Framed key manager (manager.reserveModelCall other purpose costs).1 := by
  refine (manager.reserveScope_framed apart costs).trans ?_
  rw [reserveModelCall]
  by_cases granted : (manager.reserveScope other costs).2 = true
  · rw [if_pos granted]
    refine ⟨rfl, ?_⟩
    rw [knows, knows, Keyed.find?_store_ne apart]
  · rw [if_neg granted]
    exact ⟨rfl, rfl⟩

theorem settleModelCall_framed (apart : other ≠ key) (costs : Costs) (status : String) :
    Framed key manager (manager.settleModelCall other costs status).1 := by
  refine ⟨manager.scope_stored apart (normalized costs) (manager.settleModelCall_used other costs status).2.1, ?_⟩
  unfold settleModelCall
  dsimp only
  split
  · rfl
  · rw [knows, knows, Keyed.find?_store_ne apart]
    rfl

theorem scope_reconcileScope (costs : Costs) : (manager.reconcileScope key costs).scope key = normalized costs := by
  have here := @Keyed.find?_store_self _ _ _ Prod.fst (key, normalized costs) manager.scopes
  rw [scope, reconcileScope]
  dsimp only at here ⊢
  rw [here]
  rfl

theorem settleModelCall_self (costs : Costs) (status : String) :
    (manager.settleModelCall key costs status).1.scope key = normalized costs ∧
      (manager.settleModelCall key costs status).1.knows key = manager.knows key := by
  refine ⟨?_, ?_⟩
  · rw [scope, (manager.settleModelCall_used key costs status).2.1]
    exact manager.scope_reconcileScope costs
  · unfold settleModelCall
    dsimp only
    split
    · rfl
    · next call found =>
        have here := @Keyed.find?_store_self _ _ _ Prod.fst (key, { call.2 with usageStatus := status })
          manager.modelCalls
        rw [knows, knows, found]
        exact (congrArg Option.isSome here).trans rfl

end BudgetManager

/-- The key is left as it is, or what was reserved is put back in its place. -/
def Spared (key : String) (reserved : Costs) (run after : Run) : Prop :=
  after.taken = run.taken ∧ after.manager.knows key = run.manager.knows key ∧
    (after.manager.scope key = run.manager.scope key ∨ after.manager.scope key = normalized reserved)

theorem Framed.spared {reserved : Costs} {run after : Run} (frame : Framed key run.manager after.manager)
    (taken : after.taken = run.taken) : Spared key reserved run after :=
  ⟨taken, frame.2, .inl frame.1⟩

theorem unsettled_step (unsettled : Unsettled key request cost call) :
    call = .snapshot ∨ (∃ index limits, call = .restore index limits) ∨
      Spared key request.reserved run (step run call) := by
  by_cases touches : call.touches key = true
  · rcases unsettled.settle touches with ⟨status, rfl⟩
    rcases run.manager.settleModelCall_self request.reserved status with ⟨scope, knows⟩
    exact .inr (.inr ⟨rfl, knows, .inr scope⟩)
  · cases call with
    | reserve resource asked =>
      have frame : Framed key _ _ := run.manager.reserve_framed resource asked
      rw [step]
      split
      · exact .inr (.inr (Framed.spared frame rfl))
      · exact .inr (.inr (Framed.spared frame rfl))
    | reserveMany reservations =>
      have frame : Framed key _ _ := run.manager.reserveMany_framed reservations
      rw [step]
      split
      · exact .inr (.inr (Framed.spared frame rfl))
      · exact .inr (.inr (Framed.spared frame rfl))
    | reserveScope other costs =>
      have apart : other ≠ key := fun same => touches (decide_eq_true same)
      exact .inr (.inr (Framed.spared (run.manager.reserveScope_framed apart costs) rfl))
    | reconcileScope other costs =>
      have apart : other ≠ key := fun same => touches (decide_eq_true same)
      exact .inr (.inr ⟨rfl, rfl, .inl (run.manager.scope_stored apart (normalized costs) rfl)⟩)
    | check resource asked | record resource spent => exact .inr (.inr ⟨rfl, rfl, .inl rfl⟩)
    | reserveModelCall other purpose costs =>
      have apart : other ≠ key := fun same => touches (decide_eq_true same)
      exact .inr (.inr (Framed.spared (run.manager.reserveModelCall_framed apart purpose costs) rfl))
    | settleModelCall other costs status =>
      have apart : other ≠ key := fun same => touches (decide_eq_true same)
      exact .inr (.inr (Framed.spared (run.manager.settleModelCall_framed apart costs status) rfl))
    | snapshot => exact .inl rfl
    | restore index limits => exact .inr (.inl ⟨index, limits, rfl⟩)

def Run.Keeps (key : String) (reserved : Costs) (run : Run) : Prop :=
  BudgetManager.Keeps key reserved run.manager ∧
    ∀ taken ∈ run.taken, BudgetManager.Keeps key reserved taken.1

/-- The manager knows the key, and so does each snapshot after the given number. -/
def Run.Knows (key : String) (taken : Nat) (run : Run) : Prop :=
  run.manager.knows key = true ∧
    ∀ index snapshot, taken ≤ index -> run.taken[index]? = some snapshot ->
      BudgetManager.knows key snapshot.1 = true

theorem keeps_step {run : Run} (unsettled : Unsettled key request cost call)
    (keeps : run.Keeps key request.reserved) : (step run call).Keeps key request.reserved := by
  rcases keeps with ⟨manager, taken⟩
  rcases unsettled_step run unsettled with rfl | ⟨index, limits, rfl⟩ | ⟨same, knows, scope⟩
  · refine ⟨manager, fun snapshot member => ?_⟩
    rcases List.mem_append.mp member with before | now
    · exact taken snapshot before
    · rw [List.mem_singleton.mp now]
      exact manager
  · rw [step]
    cases found : run.taken[index]? with
    | none => exact ⟨manager, taken⟩
    | some snapshot => exact ⟨taken snapshot (List.mem_of_getElem? found), taken⟩
  · refine ⟨fun known => ?_, by rw [same]; exact taken⟩
    rcases scope with kept | put
    · rw [kept]
      exact manager (knows ▸ known)
    · exact put

theorem knows_step {run : Run} {count : Nat} (unsettled : Unsettled key request cost call)
    (later : Later count call) (known : run.Knows key count) : (step run call).Knows key count := by
  rcases known with ⟨manager, taken⟩
  rcases unsettled_step run unsettled with rfl | ⟨index, limits, rfl⟩ | ⟨same, knows, _⟩
  · refine ⟨manager, fun index snapshot after found => ?_⟩
    change (run.taken ++ [(run.manager, run.direct)])[index]? = some snapshot at found
    by_cases before : index < run.taken.length
    · rw [List.getElem?_append_left before] at found
      exact taken index snapshot after found
    · rw [List.getElem?_append_right (not_lt.mp before)] at found
      rw [List.mem_singleton.mp (List.mem_of_getElem? found)]
      exact manager
  · rw [step]
    cases found : run.taken[index]? with
    | none => exact ⟨manager, taken⟩
    | some snapshot => exact ⟨taken index snapshot later found, taken⟩
  · exact ⟨knows.trans manager, by rw [same]; exact taken⟩

theorem BudgetManager.reserveModelCall_reserved {purpose : String} {costs : Costs}
    (unknown : Keyed.find? Prod.fst key manager.scopes = none)
    (granted : (manager.reserveModelCall key purpose costs).2 = true) :
    (manager.reserveModelCall key purpose costs).1.knows key = true ∧
      (manager.reserveModelCall key purpose costs).1.scope key = normalized costs := by
  refine ⟨?_, ?_⟩
  · rw [reserveModelCall] at granted ⊢
    split at granted
    · next reserved =>
        rw [if_pos reserved, knows]
        exact congrArg Option.isSome (@Keyed.find?_store_self _ _ _ Prod.fst (key, ModelCall.mk purpose "unknown") _)
    · cases granted
  · rw [scope, (manager.reserveModelCall_used key purpose costs).2.1]
    rcases manager.reserveScope_cases key costs with ⟨known, _⟩ | ⟨_, refused, _⟩ | ⟨_, _, _, kept⟩
    · exact absurd unknown known
    · rw [reserveModelCall, refused] at granted
      cases granted
    · rw [kept]
      exact congrArg (fun entry : Option (String × Costs) => (entry.map Prod.snd).getD [])
        (@Keyed.find?_store_self _ _ _ Prod.fst (key, normalized costs) _)

theorem startModelCall_reserved (fresh : manager.Unknown key)
    (started : (startModelCall key request manager).2 = .ok ()) :
    (startModelCall key request manager).1.knows key = true ∧
      (startModelCall key request manager).1.scope key = normalized request.reserved := by
  rw [startModelCall] at started ⊢
  cases refusal : request.refusal with
  | some fault =>
    rw [refusal] at started
    cases started
  | none =>
    rw [refusal] at started
    dsimp only at started ⊢
    by_cases gated : (!(manager.check "hard_cost_limit_usd" 0).2.allowed) = true
    · rw [if_pos gated] at started
      cases started
    · rw [if_neg gated] at started ⊢
      split at started
      · next granted =>
          rw [if_pos granted]
          exact BudgetManager.reserveModelCall_reserved fresh.1 granted
      · cases started

/-- After any calls of a manager, what is used of each resource is what was
granted directly and what the scopes cost; a scope that was granted is not
charged again; a refusal charges nothing; a resource that is only reserved is
within its limit; and a model call under a key of its own keeps its costs
until its usage is known, in every manager that knows the call, and every
manager that is restored from a later snapshot does. -/
theorem budget_conserved (limits : Costs) (calls : List Call) :
    let run := machine.run (Run.start limits) calls
    (∀ resource, run.manager.usedOf resource = run.direct resource + run.manager.scoped resource) ∧
    (∀ key costs again, (run.manager.reserveScope key costs).2 = true ->
      (run.manager.reserveScope key costs).1.reserveScope key again = ((run.manager.reserveScope key costs).1, true)) ∧
    (∀ reservations, (run.manager.reserveMany reservations).2.any (fun decision => !decision.allowed) = true ->
      (∀ resource, (run.manager.reserveMany reservations).1.usedOf resource = run.manager.usedOf resource) ∧
      (run.manager.reserveMany reservations).1.scopes = run.manager.scopes) ∧
    (∀ key costs, (run.manager.reserveScope key costs).2 = false ->
      (∀ resource, (run.manager.reserveScope key costs).1.usedOf resource = run.manager.usedOf resource) ∧
      (run.manager.reserveScope key costs).1.scopes = run.manager.scopes) ∧
    (∀ resource, machine.Along (Modest resource) (Run.start limits) calls ->
      0 < run.manager.limitOf resource -> run.manager.usedOf resource ≤ run.manager.limitOf resource) ∧
    (∀ (key : String) (request : ModelRequest) (cost : Costs -> ℚ) (later : List Call), run.Fresh key ->
      (startModelCall key request run.manager).2 = .ok () ->
      (∀ call ∈ later, Unsettled key request cost call) ->
      let after := (machine.run (run.kept (startModelCall key request run.manager).1) later).manager
      (after.knows key = true -> after.scope key = normalized request.reserved ∧
        ∀ resource, amount resource (normalized request.reserved) ≤ after.usedOf resource) ∧
      ((∀ call ∈ later, Later run.taken.length call) -> after.knows key = true)) := by
  intro run
  have balances : run.Balances := balanced_run limits calls
  refine ⟨balances.1.total, ?_, ?_, ?_, ?_, ?_⟩
  · intro key costs again granted
    have known : (Keyed.find? Prod.fst key (run.manager.reserveScope key costs).1.scopes).isSome = true := by
      rcases run.manager.reserveScope_cases key costs with ⟨known, same⟩ | ⟨_, refused, _⟩ | ⟨_, _, _, kept⟩
      · rw [same]
        exact Option.isSome_iff_ne_none.mpr known
      · rw [refused] at granted
        cases granted
      · rw [kept]
        exact congrArg Option.isSome (@Keyed.find?_store_self _ _ _ Prod.fst (key, normalized costs) _)
    exact if_pos known
  · intro reservations refused
    rcases run.manager.reserveMany_cases reservations with ⟨⟨_, used⟩ | ⟨granted, _⟩, scopes⟩
    · exact ⟨used, scopes⟩
    · exact absurd refused (Bool.eq_false_iff.mp granted)
  · intro key costs refused
    rcases run.manager.reserveScope_cases key costs with ⟨_, known⟩ | ⟨_, _, same, unallowed⟩ | ⟨_, granted, _⟩
    · rw [known] at refused
      cases refused
    · rcases run.manager.reserveMany_cases costs with ⟨⟨_, used⟩ | ⟨granted, _⟩, scopes⟩
      · rw [same]
        exact ⟨used, scopes⟩
      · exact absurd unallowed (Bool.eq_false_iff.mp granted)
    · rw [granted] at refused
      cases refused
  · intro resource modest
    exact (within_run resource limits calls modest).1.limited
  · intro key request cost later fresh started unsettled
    rcases startModelCall_reserved fresh.1 started with ⟨known, reserved⟩
    rcases startModelCall_run run key request with ⟨starting, ran⟩
    have balanced : (machine.run (run.kept (startModelCall key request run.manager).1) later).Balances := by
      have all := balanced_run limits (calls ++ (starting ++ later))
      rw [Machine.run_append, Machine.run_append] at all
      rw [ran]
      exact all
    have missing : ∀ taken : BudgetManager × (String -> ℚ), taken ∈ run.taken ->
        BudgetManager.knows key taken.1 = false := by
      intro taken member
      rw [BudgetManager.knows, (fresh.2 taken member).2]
      rfl
    have initially : (run.kept (startModelCall key request run.manager).1).Keeps key request.reserved :=
      ⟨fun _ => reserved, fun taken member known => by
        rw [missing taken member] at known
        cases known⟩
    have all := fun start => machine.along_trivial start later
    refine ⟨fun knows => ?_, fun ordered => ?_⟩
    · have preserved : ∀ (run : Run) (call : Call), run.Keeps key request.reserved ->
          Unsettled key request cost call ∧ True -> (machine.step run call).Keeps key request.reserved :=
        fun _ _ keeps condition => keeps_step condition.1 keeps
      have keeps := machine.invariant_along preserved initially later (machine.along_with unsettled (all _))
      refine ⟨keeps.1 knows, fun resource => ?_⟩
      rw [<- keeps.1 knows, balanced.1.total]
      exact (balanced.1.scope_le key resource).trans (le_add_of_nonneg_left (balanced.1.granted resource))
    · have knowing : (run.kept (startModelCall key request run.manager).1).Knows key run.taken.length := by
        refine ⟨known, fun index snapshot after found => ?_⟩
        exact absurd (List.getElem?_eq_some_iff.mp found).1 (not_lt.mpr after)
      have preserved : ∀ (current : Run) (call : Call), current.Knows key run.taken.length ->
          Unsettled key request cost call ∧ Later run.taken.length call ∧ True ->
            (machine.step current call).Knows key run.taken.length :=
        fun _ _ knows condition => knows_step condition.1 condition.2.1 knows
      exact (machine.invariant_along preserved knowing later
        (machine.along_with unsettled (machine.along_with ordered (all _)))).1

theorem ok_of_toBool {Fault : Type} {outcome : Except Fault Unit} (returned : outcome.toBool = true) :
    outcome = .ok () := by
  cases outcome with
  | ok value => rfl
  | error fault => cases returned

/-- A call whose worker comes late, in a manager that was restored. -/
def lateCall : ModelRequest where
  inputTokens := 2
  outputTokens := 3
  purpose := "node"
  inputLimit := none
  timeout := none
  cancelled := false
  pastDeadline := false

theorem late_call_charged :
    let run := machine.run (Run.start [("llm_calls", 2)]) [.reserve "llm_calls" 1]
    let after := (machine.run (run.kept (startModelCall "model:1" lateCall run.manager).1)
      [.snapshot, .restore 0 []]).manager
    run.manager.usedOf "llm_calls" ≤ run.manager.limitOf "llm_calls" ∧ after.knows "model:1" = true ∧
      amount "llm_calls" (normalized lateCall.reserved) ≤ after.usedOf "llm_calls" := by
  have conserved := budget_conserved [("llm_calls", 2)] [.reserve "llm_calls" 1]
  have fresh : (machine.run (Run.start [("llm_calls", 2)]) [.reserve "llm_calls" 1]).Fresh "model:1" :=
    ⟨⟨Option.isNone_iff_eq_none.mp (by decide +kernel), Option.isNone_iff_eq_none.mp (by decide +kernel)⟩,
      fun taken member => absurd (List.length_pos_of_mem member) (by decide +kernel)⟩
  have started : (startModelCall "model:1" lateCall
      (machine.run (Run.start [("llm_calls", 2)]) [.reserve "llm_calls" 1]).manager).2 = .ok () :=
    ok_of_toBool (by decide +kernel)
  have unsettled : ∀ call ∈ [Call.snapshot, Call.restore 0 []],
      Unsettled "model:1" lateCall (fun _ => 0) call := by
    intro call member touches
    rcases List.mem_cons.mp member with rfl | later
    · cases touches
    · rw [List.mem_singleton.mp later] at touches
      cases touches
  have ordered : ∀ call ∈ [Call.snapshot, Call.restore 0 []],
      Later (machine.run (Run.start [("llm_calls", 2)]) [.reserve "llm_calls" 1]).taken.length call := by
    intro call member
    rcases List.mem_cons.mp member with rfl | later
    · exact True.intro
    · rw [List.mem_singleton.mp later]
      show (machine.run (Run.start [("llm_calls", 2)]) [.reserve "llm_calls" 1]).taken.length ≤ 0
      decide +kernel
  have kept := conserved.2.2.2.2.2 "model:1" lateCall (fun _ => 0) _ fresh started unsettled
  exact ⟨conserved.2.2.2.2.1 "llm_calls" ⟨True.intro, True.intro⟩ (by decide +kernel), kept.2 ordered,
    (kept.1 (kept.2 ordered)).2 "llm_calls"⟩

end Budget
end FixLoop
