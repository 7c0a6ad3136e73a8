import Mathlib.Algebra.Order.BigOperators.Group.List
import Mathlib.Tactic.Linarith
import FixLoop.Budget.Manager

namespace FixLoop
namespace Budget

open Library

/-!
# Conservation

What is used of a resource is what was granted directly and what the scopes
cost, after any calls.
-/

/-! ## Amounts -/

variable (resource : String)

theorem amount_nil : amount resource [] = 0 := rfl

variable (item : String × ℚ)

theorem amount_cons (rest : Costs) :
    amount resource (item :: rest) = if item.1 = resource then item.2 else amount resource rest := by
  rw [amount, Keyed.find?_cons]
  by_cases here : item.1 = resource
  · rw [if_pos here, if_pos here]
    rfl
  · rw [if_neg here, if_neg here]
    rfl

theorem amount_normalized (costs : Costs) :
    amount resource (normalized costs) = max 0 (amount resource costs) := by
  induction costs with
  | nil => exact (max_self 0).symm
  | cons item rest ih =>
    rw [normalized, List.map_cons, amount_cons, amount_cons]
    by_cases here : item.1 = resource
    · rw [if_pos here, if_pos here]
    · rw [if_neg here, if_neg here]
      exact ih

theorem amount_normalized_nonneg (costs : Costs) : 0 ≤ amount resource (normalized costs) := by
  rw [amount_normalized]
  exact le_max_left 0 _

theorem mentions_cons (rest : Costs) :
    mentions resource (item :: rest) = (decide (item.1 = resource) || mentions resource rest) := rfl

theorem amount_unmentioned {resource : String} {costs : Costs} (unmentioned : mentions resource costs = false) :
    amount resource costs = 0 := by
  induction costs with
  | nil => rfl
  | cons item rest ih =>
    rw [mentions_cons, Bool.or_eq_false_iff, decide_eq_false_iff_not] at unmentioned
    rw [amount_cons, if_neg unmentioned.1, ih unmentioned.2]

theorem amount_mentioned {resource : String} {costs : Costs} (mentioned : mentions resource costs = true) :
    (resource, amount resource costs) ∈ costs := by
  induction costs with
  | nil => cases mentioned
  | cons item rest ih =>
    rw [mentions_cons, Bool.or_eq_true, decide_eq_true_eq] at mentioned
    rw [amount_cons]
    by_cases here : item.1 = resource
    · rw [if_pos here, <- here]
      exact List.mem_cons_self
    · rw [if_neg here]
      exact List.mem_cons_of_mem item (ih (mentioned.resolve_left here))

/-! ## What is used after a method -/

namespace BudgetManager

variable (manager : BudgetManager)

@[simp] theorem usedOf_entered (costs : Costs) (resource : String) :
    (manager.entered costs).usedOf resource = manager.usedOf resource := by
  simp only [usedOf, entered]
  split
  · rfl
  · rfl

@[simp] theorem usedOf_reject (resources : List String) (resource : String) :
    (manager.reject resources).usedOf resource = manager.usedOf resource := rfl

@[simp] theorem usedOf_charged (costs : Costs) (resource : String) :
    (manager.charged costs).usedOf resource = manager.usedOf resource + amount resource costs := by
  simp only [usedOf, charged]
  split
  · rfl
  · next unmentioned => rw [amount_unmentioned (eq_false_of_ne_true unmentioned), add_zero]

/-- A reservation that is granted charges all its resources; one that is not
charges nothing. -/
theorem reserveMany_cases (reservations : Costs) :
    (((manager.reserveMany reservations).2.any (fun decision => !decision.allowed) = true ∧
      (∀ resource, (manager.reserveMany reservations).1.usedOf resource = manager.usedOf resource)) ∨
    ((manager.reserveMany reservations).2.any (fun decision => !decision.allowed) = false ∧
      (manager.reserveMany reservations).1 = (manager.entered (normalized reservations)).charged (normalized reservations) ∧
      ∀ item ∈ normalized reservations,
        fits (manager.limitOf item.1) (manager.usedOf item.1) item.2 = true)) ∧
    (manager.reserveMany reservations).1.scopes = manager.scopes := by
  rw [reserveMany]
  by_cases refused : (manager.decisions (normalized reservations)).filter (fun decision => !decision.allowed) ≠ []
  · rw [if_pos refused]
    refine ⟨.inl ⟨?_, fun resource => by simp⟩, rfl⟩
    rcases List.exists_mem_of_ne_nil _ refused with ⟨decision, member⟩
    exact List.any_eq_true.mpr ⟨decision, List.mem_filter.mp member⟩
  · rw [if_neg refused]
    refine ⟨.inr ⟨?_, rfl, ?_⟩, rfl⟩
    · refine List.any_eq_false.mpr fun answer member => ?_
      rcases List.mem_map.mp member with ⟨item, _, rfl⟩
      exact Bool.false_ne_true
    · intro item member
      have allowed := List.filter_eq_nil_iff.mp (not_not.mp refused)
        (decision item.1 (fits (manager.limitOf item.1) (manager.usedOf item.1) item.2) (manager.usedOf item.1)
          (manager.limitOf item.1)) (List.mem_map_of_mem member)
      rw [Bool.not_eq_true', Bool.not_eq_false] at allowed
      exact allowed

variable (key : String)

variable (costs : Costs)

/-- A scope is known already, or its costs are refused, or they are granted
like a reservation and kept under its key. -/
theorem reserveScope_cases :
    (Keyed.find? Prod.fst key manager.scopes ≠ none ∧ manager.reserveScope key costs = (manager, true)) ∨
    (Keyed.find? Prod.fst key manager.scopes = none ∧ (manager.reserveScope key costs).2 = false ∧
      (manager.reserveScope key costs).1 = (manager.reserveMany costs).1 ∧
      (manager.reserveMany costs).2.any (fun decision => !decision.allowed) = true) ∨
    (Keyed.find? Prod.fst key manager.scopes = none ∧ (manager.reserveScope key costs).2 = true ∧
      (manager.reserveMany costs).2.any (fun decision => !decision.allowed) = false ∧
      (manager.reserveScope key costs).1 =
        { (manager.reserveMany costs).1 with
          scopes := Keyed.store Prod.fst (key, normalized costs) (manager.reserveMany costs).1.scopes }) := by
  rw [reserveScope]
  by_cases known : (Keyed.find? Prod.fst key manager.scopes).isSome = true
  · exact .inl ⟨Option.isSome_iff_ne_none.mp known, if_pos known⟩
  · rw [if_neg known]
    have unknown := Option.not_isSome_iff_eq_none.mp known
    by_cases refused : (manager.reserveMany costs).2.any (fun decision => !decision.allowed) = true
    · rw [if_pos refused]
      exact .inr (.inl ⟨unknown, rfl, rfl, refused⟩)
    · rw [if_neg refused]
      exact .inr (.inr ⟨unknown, rfl, eq_false_of_ne_true refused, rfl⟩)

theorem usedOf_reconcileScope (resource : String) (nonnegative : 0 ≤ manager.usedOf resource) :
    (manager.reconcileScope key costs).usedOf resource =
      max 0 (manager.usedOf resource - amount resource (manager.scope key) + amount resource (normalized costs)) := by
  simp only [usedOf, reconcileScope]
  split
  · rfl
  · next unmentioned =>
      rw [Bool.or_eq_true, not_or] at unmentioned
      rw [amount_unmentioned (eq_false_of_ne_true unmentioned.1),
        amount_unmentioned (eq_false_of_ne_true unmentioned.2), sub_zero, add_zero]
      exact (max_eq_right nonnegative).symm

theorem usedOf_record (resource : String) (spent : ℚ) (other : String) :
    (manager.record resource spent).1.usedOf other =
      manager.usedOf other + amount other (normalized [(resource, spent)]) := by
  rw [record, check, usedOf_entered, amount_normalized, amount_cons, amount_nil]
  by_cases here : resource = other
  · rw [if_pos here, <- here]
    exact congrArg (fun amount : Option ℚ => amount.getD 0) (Function.update_self resource _ manager.used)
  · rw [if_neg here, max_self, add_zero]
    exact congrArg (fun amount : Option ℚ => amount.getD 0) (Function.update_of_ne (Ne.symm here) ..)

theorem reserveModelCall_used (purpose : String) (costs : Costs) :
    (manager.reserveModelCall key purpose costs).1.used = (manager.reserveScope key costs).1.used ∧
      (manager.reserveModelCall key purpose costs).1.scopes = (manager.reserveScope key costs).1.scopes ∧
      (manager.reserveModelCall key purpose costs).1.limits = (manager.reserveScope key costs).1.limits := by
  rw [reserveModelCall]
  by_cases granted : (manager.reserveScope key costs).2 = true
  · rw [if_pos granted]
    exact ⟨rfl, rfl, rfl⟩
  · rw [if_neg granted]
    exact ⟨rfl, rfl, rfl⟩

theorem settleModelCall_used (status : String) :
    (manager.settleModelCall key costs status).1.used = (manager.reconcileScope key costs).used ∧
      (manager.settleModelCall key costs status).1.scopes = (manager.reconcileScope key costs).scopes ∧
      (manager.settleModelCall key costs status).1.limits = manager.limits := by
  unfold settleModelCall
  dsimp only
  split
  · exact ⟨rfl, rfl, rfl⟩
  · exact ⟨rfl, rfl, rfl⟩

end BudgetManager

theorem BudgetManager.usedOf_construct (limits : Costs) (resource : String) :
    (BudgetManager.construct limits).usedOf resource = 0 := by
  show (if mentions resource limits = true then some (0 : ℚ) else none).getD 0 = 0
  split
  · rfl
  · rfl

/-! ## The balance -/

/-- `sum(scope.get(resource, 0.0) for scope in scopes.values())`. -/
def BudgetManager.scoped (manager : BudgetManager) (resource : String) : ℚ :=
  (manager.scopes.map fun entry => amount resource entry.2).sum

structure Balanced (manager : BudgetManager) (direct : String -> ℚ) : Prop where
  total : ∀ resource, manager.usedOf resource = direct resource + manager.scoped resource
  granted : ∀ resource, 0 ≤ direct resource
  costs : ∀ entry ∈ manager.scopes, ∀ resource, 0 ≤ amount resource entry.2

namespace Balanced

variable {manager after : BudgetManager} {direct : String -> ℚ}

theorem scoped_nonneg (balanced : Balanced manager direct) (resource : String) : 0 ≤ manager.scoped resource := by
  refine List.sum_nonneg fun cost member => ?_
  rcases List.mem_map.mp member with ⟨entry, listed, rfl⟩
  exact balanced.costs entry listed resource

theorem used_nonneg (balanced : Balanced manager direct) (resource : String) : 0 ≤ manager.usedOf resource := by
  rw [balanced.total resource]
  exact add_nonneg (balanced.granted resource) (balanced.scoped_nonneg resource)

theorem scope_le (balanced : Balanced manager direct) (key resource : String) :
    amount resource (manager.scope key) ≤ manager.scoped resource := by
  rw [BudgetManager.scope]
  cases found : Keyed.find? Prod.fst key manager.scopes with
  | none => exact balanced.scoped_nonneg resource
  | some entry =>
    refine List.single_le_sum (fun cost member => ?_) _ (List.mem_map_of_mem (Keyed.find?_some found).1)
    rcases List.mem_map.mp member with ⟨other, listed, rfl⟩
    exact balanced.costs other listed resource

theorem same (balanced : Balanced manager direct) (used : ∀ resource, after.usedOf resource = manager.usedOf resource)
    (scopes : after.scopes = manager.scopes) : Balanced after direct where
  total := fun resource => by rw [used, balanced.total, BudgetManager.scoped, BudgetManager.scoped, scopes]
  granted := balanced.granted
  costs := by rw [scopes]; exact balanced.costs

theorem grant (balanced : Balanced manager direct) {costs : Costs}
    (nonnegative : ∀ resource, 0 ≤ amount resource costs)
    (used : ∀ resource, after.usedOf resource = manager.usedOf resource + amount resource costs)
    (scopes : after.scopes = manager.scopes) :
    Balanced after (fun resource => direct resource + amount resource costs) where
  total := fun resource => by
    rw [used, balanced.total, BudgetManager.scoped, BudgetManager.scoped, scopes]
    exact add_right_comm _ _ _
  granted := fun resource => add_nonneg (balanced.granted resource) (nonnegative resource)
  costs := by rw [scopes]; exact balanced.costs

/-- The costs of a scope are put in place of what it cost before. -/
theorem scope (balanced : Balanced manager direct) {key : String} {costs : Costs}
    (nonnegative : ∀ resource, 0 ≤ amount resource costs)
    (used : ∀ resource, after.usedOf resource =
      manager.usedOf resource - amount resource (manager.scope key) + amount resource costs)
    (scopes : after.scopes = Keyed.store Prod.fst (key, costs) manager.scopes) : Balanced after direct where
  total := fun resource => by
    have replaced : ((Keyed.find? Prod.fst key manager.scopes).map fun entry => amount resource entry.2).getD 0 =
        amount resource (manager.scope key) := by
      rw [BudgetManager.scope]
      cases Keyed.find? Prod.fst key manager.scopes with
      | none => rfl
      | some entry => rfl
    have stored := @Keyed.sum_store _ _ _ Prod.fst _ _ (fun entry : String × Costs => amount resource entry.2)
      (key, costs) manager.scopes
    rw [used, balanced.total, BudgetManager.scoped, BudgetManager.scoped, scopes, stored, replaced]
    abel
  granted := balanced.granted
  costs := by
    intro entry member resource
    rw [scopes] at member
    rcases Keyed.mem_store member with rfl | listed
    · exact nonnegative resource
    · exact balanced.costs entry listed resource

theorem reserveMany (balanced : Balanced manager direct) (reservations : Costs) :
    Balanced (manager.reserveMany reservations).1
      (if (manager.reserveMany reservations).2.any (fun decision => !decision.allowed) = true then direct
        else fun resource => direct resource + amount resource (normalized reservations)) := by
  rcases manager.reserveMany_cases reservations with ⟨⟨refused, used⟩ | ⟨granted, charged, _⟩, scopes⟩
  · rw [if_pos refused]
    exact balanced.same used scopes
  · rw [if_neg (Bool.eq_false_iff.mp granted)]
    refine balanced.grant (fun resource => amount_normalized_nonneg resource reservations) ?_ scopes
    intro resource
    rw [charged, BudgetManager.usedOf_charged, BudgetManager.usedOf_entered]

theorem reserveScope (balanced : Balanced manager direct) (key : String) (costs : Costs) :
    Balanced (manager.reserveScope key costs).1 direct := by
  rcases manager.reserveMany_cases costs with ⟨outcome, scopes⟩
  rcases manager.reserveScope_cases key costs with ⟨_, known⟩ | ⟨_, _, same, refused⟩ | ⟨unknown, _, granted, kept⟩
  · rw [known]
    exact balanced
  · have many := balanced.reserveMany costs
    rw [if_pos refused] at many
    rw [same]
    exact many
  · rcases outcome with ⟨refused, _⟩ | ⟨_, charged, _⟩
    · exact absurd refused (Bool.eq_false_iff.mp granted)
    · refine balanced.scope (fun resource => amount_normalized_nonneg resource costs) ?_ (by rw [kept, scopes])
      intro resource
      have nothing : amount resource (manager.scope key) = 0 := by
        rw [BudgetManager.scope, unknown]
        rfl
      rw [kept, nothing, sub_zero]
      show (manager.reserveMany costs).1.usedOf resource = _
      rw [charged, BudgetManager.usedOf_charged, BudgetManager.usedOf_entered]

/-- Without the clamp, as nothing that is reconciled would get below zero. -/
theorem used_reconcileScope (balanced : Balanced manager direct) (key : String) (costs : Costs) (resource : String) :
    (manager.reconcileScope key costs).usedOf resource =
      manager.usedOf resource - amount resource (manager.scope key) + amount resource (normalized costs) := by
  rw [manager.usedOf_reconcileScope key costs resource (balanced.used_nonneg resource)]
  refine max_eq_right (add_nonneg (sub_nonneg.mpr ?_) (amount_normalized_nonneg resource costs))
  calc amount resource (manager.scope key)
      ≤ manager.scoped resource := balanced.scope_le key resource
    _ ≤ direct resource + manager.scoped resource := le_add_of_nonneg_left (balanced.granted resource)
    _ = manager.usedOf resource := (balanced.total resource).symm

theorem reconcileScope (balanced : Balanced manager direct) (key : String) (costs : Costs) :
    Balanced (manager.reconcileScope key costs) direct :=
  balanced.scope (fun resource => amount_normalized_nonneg resource costs)
    (balanced.used_reconcileScope key costs) rfl

theorem construct (limits : Costs) : Balanced (BudgetManager.construct limits) (fun _ => 0) where
  total := fun resource => (BudgetManager.usedOf_construct limits resource).trans (zero_add (0 : ℚ)).symm
  granted := fun _ => le_refl 0
  costs := fun entry member => by cases member

/-- A fresh manager has used nothing, so the amounts are those of the snapshot. -/
theorem usedOf_restore (balanced : Balanced manager direct) (limits : Costs) (resource : String) :
    ((BudgetManager.construct limits).restore manager).usedOf resource = manager.usedOf resource := by
  have nonnegative := balanced.used_nonneg resource
  have fresh := BudgetManager.usedOf_construct limits resource
  rw [BudgetManager.usedOf] at nonnegative fresh ⊢
  show (((manager.used resource).map (max 0)).or ((BudgetManager.construct limits).used resource)).getD 0 = _
  rw [BudgetManager.usedOf]
  cases read : manager.used resource with
  | none => exact fresh
  | some used =>
    rw [read] at nonnegative
    exact max_eq_right nonnegative

theorem restore (balanced : Balanced manager direct) (limits : Costs) :
    Balanced ((BudgetManager.construct limits).restore manager) direct :=
  balanced.same (balanced.usedOf_restore limits) rfl

end Balanced

/-! ## Runs -/

namespace BudgetManager

variable (manager : BudgetManager)

theorem reserve_charged (resource : String) (asked : ℚ) :
    ((manager.reserve resource asked).2.allowed = true ∧
      (∀ other, (manager.reserve resource asked).1.usedOf other =
        manager.usedOf other + amount other (normalized [(resource, asked)])) ∧
      fits (manager.limitOf resource) (manager.usedOf resource) (max 0 asked) = true) ∨
    ((manager.reserve resource asked).2.allowed = false ∧
      ∀ other, (manager.reserve resource asked).1.usedOf other = manager.usedOf other) := by
  rw [reserve]
  by_cases allowed : fits (manager.limitOf resource) (manager.usedOf resource) (max 0 asked) = true
  · rw [if_pos allowed]
    exact .inl ⟨rfl, fun other => by rw [usedOf_charged, usedOf_entered], allowed⟩
  · rw [if_neg allowed]
    exact .inr ⟨rfl, fun other => by rw [usedOf_reject, usedOf_entered]⟩

theorem reserve_scopes (resource : String) (asked : ℚ) :
    (manager.reserve resource asked).1.scopes = manager.scopes := by
  rw [reserve]
  split
  · rfl
  · rfl

end BudgetManager

/-- The manager and every snapshot balance. -/
def Run.Balances (run : Run) : Prop :=
  Balanced run.manager run.direct ∧ ∀ taken ∈ run.taken, Balanced taken.1 taken.2

theorem balanced_step {run : Run} (balances : run.Balances) (call : Call) : (step run call).Balances := by
  rcases balances with ⟨balanced, taken⟩
  cases call with
  | reserve resource asked =>
    rcases run.manager.reserve_charged resource asked with ⟨allowed, used, _⟩ | ⟨refused, used⟩
    · rw [step, if_pos allowed]
      exact ⟨balanced.grant (fun other => amount_normalized_nonneg other _) used
        (run.manager.reserve_scopes resource asked), taken⟩
    · rw [step, if_neg (Bool.eq_false_iff.mp refused)]
      exact ⟨balanced.same used (run.manager.reserve_scopes resource asked), taken⟩
  | reserveMany reservations =>
    have many := balanced.reserveMany reservations
    rw [step]
    by_cases refused : (run.manager.reserveMany reservations).2.any (fun decision => !decision.allowed) = true
    · rw [if_pos refused] at many ⊢
      exact ⟨many, taken⟩
    · rw [if_neg refused] at many ⊢
      exact ⟨many, taken⟩
  | reserveScope key costs => exact ⟨balanced.reserveScope key costs, taken⟩
  | reconcileScope key costs => exact ⟨balanced.reconcileScope key costs, taken⟩
  | check resource asked =>
    exact ⟨balanced.same (fun other => run.manager.usedOf_entered [(resource, asked)] other) rfl, taken⟩
  | record resource spent =>
    exact ⟨balanced.grant (fun other => amount_normalized_nonneg other _)
      (run.manager.usedOf_record resource spent) rfl, taken⟩
  | reserveModelCall key purpose costs =>
    rcases run.manager.reserveModelCall_used key purpose costs with ⟨used, scopes, _⟩
    refine ⟨(balanced.reserveScope key costs).same (fun resource => ?_) scopes, taken⟩
    exact congrArg (fun amounts : String -> Option ℚ => (amounts resource).getD 0) used
  | settleModelCall key costs status =>
    rcases run.manager.settleModelCall_used key costs status with ⟨used, scopes, _⟩
    refine ⟨(balanced.reconcileScope key costs).same (fun resource => ?_) scopes, taken⟩
    exact congrArg (fun amounts : String -> Option ℚ => (amounts resource).getD 0) used
  | snapshot =>
    refine ⟨balanced, fun snapshot member => ?_⟩
    rcases List.mem_append.mp member with before | now
    · exact taken snapshot before
    · rw [List.mem_singleton.mp now]
      exact balanced
  | restore index limits =>
    rw [step]
    cases found : run.taken[index]? with
    | none => exact ⟨balanced, taken⟩
    | some snapshot => exact ⟨(taken snapshot (List.mem_of_getElem? found)).restore limits, taken⟩

/-- The run of a manager that was just constructed. -/
def Run.start (limits : Costs) : Run := { manager := BudgetManager.construct limits }

theorem balanced_run (limits : Costs) (calls : List Call) : (machine.run (Run.start limits) calls).Balances := by
  have initially : (Run.start limits).Balances := ⟨Balanced.construct limits, fun _ member => by cases member⟩
  have preserved : ∀ run call, Run.Balances run -> (machine.step run call).Balances :=
    fun _ call balances => balanced_step balances call
  exact machine.invariant_run preserved initially calls

end Budget
end FixLoop
