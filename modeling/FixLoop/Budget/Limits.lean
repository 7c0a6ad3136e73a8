import FixLoop.Budget.Conservation

namespace FixLoop
namespace Budget

open Library

/-!
# Limits

A resource that is only ever reserved stays within its limit.
-/

namespace BudgetManager

variable (manager : BudgetManager)

@[simp] theorem limitOf_entered (costs : Costs) (resource : String) :
    (manager.entered costs).limitOf resource = manager.limitOf resource := by
  simp only [limitOf, entered]
  split
  · rfl
  · rfl

theorem limits_entered (costs : Costs) (resource : String) :
    ((manager.entered costs).limits resource = none) <->
      mentions resource costs = false ∧ manager.limits resource = none := by
  simp only [entered]
  by_cases mentioned : mentions resource costs = true
  · simp [mentioned]
  · simp [mentioned]

end BudgetManager

structure Within (resource : String) (manager : BudgetManager) : Prop where
  unlimited : manager.limits resource = none -> manager.usedOf resource = 0
  limited : 0 < manager.limitOf resource -> manager.usedOf resource ≤ manager.limitOf resource

namespace Within

variable {resource : String} {manager after : BudgetManager}

/-- Nothing more is used, and no limit is changed or taken away. -/
theorem less (within : Within resource manager) (limit : after.limitOf resource = manager.limitOf resource)
    (entered : after.limits resource = none -> manager.limits resource = none)
    (nonnegative : 0 ≤ after.usedOf resource) (used : after.usedOf resource ≤ manager.usedOf resource) :
    Within resource after where
  unlimited := fun missing => le_antisymm (used.trans (within.unlimited (entered missing)).le) nonnegative
  limited := fun positive => by
    rw [limit] at positive ⊢
    exact used.trans (within.limited positive)

theorem enter (within : Within resource manager) (nonnegative : 0 ≤ manager.usedOf resource) (costs : Costs) :
    Within resource (manager.entered costs) :=
  within.less (manager.limitOf_entered costs resource) (fun missing => ((manager.limits_entered costs resource).mp missing).2)
    (by rw [BudgetManager.usedOf_entered]; exact nonnegative) (by rw [BudgetManager.usedOf_entered])

theorem charge (within : Within resource manager) {costs : Costs}
    (fitting : ∀ item ∈ costs,
      fits (manager.limitOf item.1) (manager.usedOf item.1) item.2 = true) :
    Within resource ((manager.entered costs).charged costs) where
  unlimited := fun missing => by
    rcases (manager.limits_entered costs resource).mp missing with ⟨unmentioned, nothing⟩
    rw [BudgetManager.usedOf_charged, BudgetManager.usedOf_entered, amount_unmentioned unmentioned,
      within.unlimited nothing, add_zero]
  limited := fun positive => by
    have same : ((manager.entered costs).charged costs).limitOf resource = manager.limitOf resource :=
      manager.limitOf_entered costs resource
    rw [same] at positive ⊢
    rw [BudgetManager.usedOf_charged, BudgetManager.usedOf_entered]
    by_cases mentioned : mentions resource costs = true
    · have fit := fitting _ (amount_mentioned mentioned)
      rw [fits, Bool.or_eq_true, decide_eq_true_eq, decide_eq_true_eq] at fit
      exact fit.resolve_left (not_le.mpr positive)
    · rw [amount_unmentioned (eq_false_of_ne_true mentioned), add_zero]
      exact within.limited positive

theorem construct (limits : Costs) : Within resource (BudgetManager.construct limits) where
  unlimited := fun _ => BudgetManager.usedOf_construct limits resource
  limited := fun positive => by
    rw [BudgetManager.usedOf_construct]
    exact positive.le

theorem restore {direct : String -> ℚ} (within : Within resource manager) (balanced : Balanced manager direct)
    (limits : Costs) : Within resource ((BudgetManager.construct limits).restore manager) where
  unlimited := fun missing => by
    rw [balanced.usedOf_restore]
    refine within.unlimited (Option.map_eq_none_iff.mp (Option.or_eq_none_iff.mp missing).1)
  limited := fun positive => by
    rw [balanced.usedOf_restore]
    rw [BudgetManager.limitOf, BudgetManager.restore] at positive ⊢
    dsimp only at positive ⊢
    have kept := within.limited
    rw [BudgetManager.limitOf] at kept
    cases read : manager.limits resource with
    | none =>
      rw [within.unlimited read]
      rw [read] at positive
      exact positive.le
    | some limit =>
      rw [read] at positive kept
      have above : 0 < limit := (lt_max_iff.mp positive).resolve_left (lt_irrefl 0)
      exact (kept above).trans (le_max_right 0 limit)

end Within

namespace BudgetManager

variable (manager : BudgetManager)

theorem reserveMany_refused (reservations : Costs)
    (refused : (manager.reserveMany reservations).2.any (fun decision => !decision.allowed) = true) :
    ∃ resources, (manager.reserveMany reservations).1 =
      (manager.entered (normalized reservations)).reject resources := by
  rw [reserveMany] at refused ⊢
  split
  · exact ⟨_, rfl⟩
  · next granted =>
      rw [if_neg granted] at refused
      rcases List.any_eq_true.mp refused with ⟨answer, member, unallowed⟩
      rcases List.mem_map.mp member with ⟨item, _, rfl⟩
      cases unallowed

end BudgetManager

/-- The resource is not recorded, and no scope gets to cost more of it than before. -/
def Modest (resource : String) (run : Run) : Call -> Prop
  | .record recorded _ => recorded ≠ resource
  | .reconcileScope key costs => amount resource (normalized costs) ≤ amount resource (run.manager.scope key)
  | .settleModelCall key costs _ => amount resource (normalized costs) ≤ amount resource (run.manager.scope key)
  | _ => True

/-- The manager and every snapshot are within the limit. -/
def Run.Within (resource : String) (run : Run) : Prop :=
  Budget.Within resource run.manager ∧ ∀ taken ∈ run.taken, Budget.Within resource taken.1

namespace Within

variable {resource : String} {manager : BudgetManager} {direct : String -> ℚ}

theorem reject (within : Within resource manager) (nonnegative : 0 ≤ manager.usedOf resource)
    (resources : List String) : Within resource (manager.reject resources) :=
  within.less rfl id nonnegative (le_refl (manager.usedOf resource))

theorem reserve (within : Within resource manager) (nonnegative : 0 ≤ manager.usedOf resource) (asked : String)
    (amount : ℚ) : Within resource (manager.reserve asked amount).1 := by
  rw [BudgetManager.reserve]
  by_cases allowed : fits (manager.limitOf asked) (manager.usedOf asked) (max 0 amount) = true
  · rw [if_pos allowed]
    have fitting : ∀ item ∈ normalized [(asked, amount)],
        fits (manager.limitOf item.1) (manager.usedOf item.1) item.2 = true := by
      intro item member
      rw [List.mem_singleton.mp member]
      exact allowed
    exact within.charge fitting
  · rw [if_neg allowed]
    refine (within.enter nonnegative [(asked, amount)]).reject ?_ [asked]
    rw [BudgetManager.usedOf_entered]
    exact nonnegative

theorem reserveMany (within : Within resource manager) (nonnegative : 0 ≤ manager.usedOf resource)
    (reservations : Costs) : Within resource (manager.reserveMany reservations).1 := by
  rcases (manager.reserveMany_cases reservations).1 with ⟨refused, _⟩ | ⟨_, charged, fitting⟩
  · rcases manager.reserveMany_refused reservations refused with ⟨resources, rejected⟩
    rw [rejected]
    refine (within.enter nonnegative (normalized reservations)).reject ?_ resources
    rw [BudgetManager.usedOf_entered]
    exact nonnegative
  · rw [charged]
    exact within.charge fitting

theorem reserveScope (within : Within resource manager) (nonnegative : 0 ≤ manager.usedOf resource) (key : String)
    (costs : Costs) : Within resource (manager.reserveScope key costs).1 := by
  have many := within.reserveMany nonnegative costs
  rcases manager.reserveScope_cases key costs with ⟨_, known⟩ | ⟨_, _, same, _⟩ | ⟨_, _, _, kept⟩
  · rw [known]
    exact within
  · rw [same]
    exact many
  · rw [kept]
    exact ⟨many.unlimited, many.limited⟩

theorem reconcileScope (within : Within resource manager) (balanced : Balanced manager direct) {key : String}
    {costs : Costs} (modest : amount resource (normalized costs) ≤ amount resource (manager.scope key)) :
    Within resource (manager.reconcileScope key costs) := by
  refine within.less rfl id ((balanced.reconcileScope key costs).used_nonneg resource) ?_
  rw [balanced.used_reconcileScope]
  linarith

/-- Only the limits and the uses matter. -/
theorem congr {after : BudgetManager} (within : Within resource manager) (limits : after.limits = manager.limits)
    (used : after.used = manager.used) : Within resource after where
  unlimited := fun missing => by
    rw [BudgetManager.usedOf, used]
    exact within.unlimited (limits ▸ missing)
  limited := fun positive => by
    rw [BudgetManager.usedOf, used, BudgetManager.limitOf, limits]
    rw [BudgetManager.limitOf, limits] at positive
    exact within.limited positive

end Within

theorem within_step {resource : String} {run : Run} (balances : run.Balances) (within : run.Within resource)
    (call : Call) (modest : Modest resource run call) : (step run call).Within resource := by
  have balanced := balances.1
  rcases within with ⟨within, taken⟩
  have nonnegative := balanced.used_nonneg resource
  cases call with
  | reserve asked amount =>
    have reserved := within.reserve nonnegative asked amount
    rw [step]
    split
    · exact ⟨reserved, taken⟩
    · exact ⟨reserved, taken⟩
  | reserveMany reservations =>
    have reserved := within.reserveMany nonnegative reservations
    rw [step]
    split
    · exact ⟨reserved, taken⟩
    · exact ⟨reserved, taken⟩
  | reserveScope key costs => exact ⟨within.reserveScope nonnegative key costs, taken⟩
  | reconcileScope key costs => exact ⟨within.reconcileScope balanced modest, taken⟩
  | check asked amount => exact ⟨within.enter nonnegative [(asked, amount)], taken⟩
  | record recorded spent =>
    have apart : recorded ≠ resource := modest
    have used : ((run.manager.record recorded spent).1).usedOf resource = run.manager.usedOf resource := by
      rw [BudgetManager.usedOf_record, amount_normalized, amount_cons, if_neg apart, amount_nil, max_self, add_zero]
    refine ⟨within.less ?_ ?_ (used.symm ▸ nonnegative) used.le, taken⟩
    · exact BudgetManager.limitOf_entered _ [(recorded, 0)] resource
    · exact fun missing => ((BudgetManager.limits_entered _ [(recorded, 0)] resource).mp missing).2
  | reserveModelCall key purpose costs =>
    rcases run.manager.reserveModelCall_used key purpose costs with ⟨used, _, limits⟩
    exact ⟨(within.reserveScope nonnegative key costs).congr limits used, taken⟩
  | settleModelCall key costs status =>
    rcases run.manager.settleModelCall_used key costs status with ⟨used, _, limits⟩
    exact ⟨(within.reconcileScope balanced modest).congr limits used, taken⟩
  | snapshot =>
    refine ⟨within, fun snapshot member => ?_⟩
    rcases List.mem_append.mp member with before | now
    · exact taken snapshot before
    · rw [List.mem_singleton.mp now]
      exact within
  | restore index limits =>
    rw [step]
    cases found : run.taken[index]? with
    | none => exact ⟨within, taken⟩
    | some snapshot =>
      have member := List.mem_of_getElem? found
      exact ⟨(taken snapshot member).restore (balances.2 snapshot member) limits, taken⟩

theorem within_run (resource : String) (limits : Costs) (calls : List Call)
    (modest : machine.Along (Modest resource) (Run.start limits) calls) :
    (machine.run (Run.start limits) calls).Within resource := by
  have initially : (Run.start limits).Balances ∧ (Run.start limits).Within resource :=
    ⟨balanced_run limits [], Within.construct limits, fun _ member => by cases member⟩
  have preserved : ∀ run call, run.Balances ∧ run.Within resource -> Modest resource run call ->
      (machine.step run call).Balances ∧ (machine.step run call).Within resource :=
    fun run call both modest => ⟨balanced_step both.1 call, within_step both.1 both.2 call modest⟩
  exact (machine.invariant_along preserved initially calls modest).2

end Budget
end FixLoop
