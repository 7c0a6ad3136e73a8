import FixLoop.Budget.ModelCalls

namespace FixLoop
namespace Budget

open Library

/-!
# Model calls that a checkpoint misses

A checkpoint of a run may precede a model call that its journal recorded.  The
manager that is restored from the checkpoint takes over the calls of one
purpose that it does not know, and charges the scope of each.  A call whose
scope is missing stops the loop where it stands, so what was charged before it
stays charged.
-/

/-- The calls and the scopes that `snapshot()` recorded, by their keys. -/
structure CallSnapshot where
  scopes : List (String × Costs)
  modelCalls : List (String × ModelCall)
  distinct : Keyed.Distinct Prod.fst modelCalls

namespace CallSnapshot

variable (snapshot : CallSnapshot) (purpose : String) (manager : BudgetManager)

/-- `snapshot.get("scopes", {}).get(key)`, where nothing reads as no costs. -/
def costs (key : String) : Costs := ((Keyed.find? Prod.fst key snapshot.scopes).map Prod.snd).getD []

/-- `not costs`. -/
def broken (call : String × ModelCall) : Bool := (snapshot.costs call.1).isEmpty

/-- The call has the purpose, and the manager does not know it. -/
def absent (call : String × ModelCall) : Bool := decide (call.2.purpose = purpose) && !manager.knows call.1

/-- The absent calls of the purpose, in the order of the snapshot. -/
def missing : List (String × ModelCall) := snapshot.modelCalls.filter (absent purpose manager)

end CallSnapshot

namespace BudgetManager

/-- The scope of a call is reconciled, and the call is recorded. -/
def charge (snapshot : CallSnapshot) (manager : BudgetManager) (call : String × ModelCall) : BudgetManager :=
  let reconciled := manager.reconcileScope call.1 (snapshot.costs call.1)
  { reconciled with modelCalls := Keyed.store Prod.fst call reconciled.modelCalls }

/-- The loop over the records that are left. -/
def mergeCalls (snapshot : CallSnapshot) (purpose : String) (manager : BudgetManager) :
    List (String × ModelCall) -> BudgetManager × Except String Unit
  | [] => (manager, .ok ())
  | call :: rest =>
    if call.2.purpose ≠ purpose ∨ manager.knows call.1 = true then mergeCalls snapshot purpose manager rest
    else if snapshot.broken call then (manager, .error "model_call_scope_missing")
    else mergeCalls snapshot purpose (manager.charge snapshot call) rest

def restoreMissingModelCalls (manager : BudgetManager) (snapshot : CallSnapshot) (purpose : String) :
    BudgetManager × Except String Unit :=
  mergeCalls snapshot purpose manager snapshot.modelCalls

/-- The calls are charged one after the other, up to the first that is broken. -/
def chargeAll (snapshot : CallSnapshot) (manager : BudgetManager) :
    List (String × ModelCall) -> BudgetManager × Except String Unit
  | [] => (manager, .ok ())
  | call :: rest =>
    if snapshot.broken call then (manager, .error "model_call_scope_missing")
    else chargeAll snapshot (manager.charge snapshot call) rest

variable {snapshot : CallSnapshot} {purpose : String} {manager : BudgetManager}

/-! ## One charge -/

variable (call : String × ModelCall) (calls : List (String × ModelCall))

theorem find?_charge (key : String) :
    Keyed.find? Prod.fst key (manager.charge snapshot call).modelCalls =
      if call.1 = key then some call else Keyed.find? Prod.fst key manager.modelCalls := by
  by_cases same : call.1 = key
  · rw [if_pos same, <- same]
    exact @Keyed.find?_store_self _ _ _ Prod.fst call _
  · rw [if_neg same]
    exact @Keyed.find?_store_ne _ _ _ Prod.fst key call same _

theorem knows_charge (key : String) :
    (manager.charge snapshot call).knows key = (decide (call.1 = key) || manager.knows key) := by
  rw [knows, find?_charge]
  by_cases same : call.1 = key
  · simp [same]
  · simp [same, knows]

theorem find?_scopes_charge (key : String) :
    Keyed.find? Prod.fst key (manager.charge snapshot call).scopes =
      if call.1 = key then some (key, normalized (snapshot.costs key))
      else Keyed.find? Prod.fst key manager.scopes := by
  by_cases same : call.1 = key
  · rw [if_pos same, <- same]
    exact @Keyed.find?_store_self _ _ _ Prod.fst (call.1, normalized (snapshot.costs call.1)) _
  · rw [if_neg same]
    exact @Keyed.find?_store_ne _ _ _ Prod.fst key (call.1, normalized (snapshot.costs call.1)) same _

theorem knows_chargeAll {key : String} (known : manager.knows key = true) :
    (chargeAll snapshot manager calls).1.knows key = true := by
  induction calls generalizing manager with
  | nil => exact known
  | cons call rest ih =>
    rw [chargeAll]
    split
    · exact known
    · apply ih
      rw [knows_charge, known, Bool.or_true]

/-- A loop that meets a broken call fails. -/
theorem chargeAll_broken {calls : List (String × ModelCall)}
    (broken : ∃ call ∈ calls, snapshot.broken call = true) :
    (chargeAll snapshot manager calls).2 = .error "model_call_scope_missing" := by
  induction calls generalizing manager with
  | nil =>
    rcases broken with ⟨call, member, _⟩
    cases member
  | cons head rest ih =>
    rw [chargeAll]
    by_cases first : snapshot.broken head = true
    · rw [if_pos first]
    · rw [if_neg first]
      rcases broken with ⟨call, member, bad⟩
      rcases List.mem_cons.mp member with rfl | later
      · exact absurd bad first
      · exact ih ⟨call, later, bad⟩

theorem chargeAll_sound {calls : List (String × ModelCall)}
    (sound : ∀ call ∈ calls, snapshot.broken call = false) :
    chargeAll snapshot manager calls = (calls.foldl (charge snapshot) manager, .ok ()) := by
  induction calls generalizing manager with
  | nil => rfl
  | cons head rest ih =>
    have first : ¬snapshot.broken head = true := Bool.eq_false_iff.mp (sound head List.mem_cons_self)
    rw [chargeAll, if_neg first, List.foldl_cons]
    exact ih fun call member => sound call (List.mem_cons_of_mem _ member)

/-- Charging a call makes no other call known. -/
theorem absent_charge {call other : String × ModelCall} (apart : call.1 ≠ other.1) :
    CallSnapshot.absent purpose (manager.charge snapshot call) other =
      CallSnapshot.absent purpose manager other := by
  rw [CallSnapshot.absent, CallSnapshot.absent, knows_charge, decide_eq_false apart, Bool.false_or]

theorem mergeCalls_eq {calls : List (String × ModelCall)} (distinct : Keyed.Distinct Prod.fst calls) :
    mergeCalls snapshot purpose manager calls =
      chargeAll snapshot manager (calls.filter (CallSnapshot.absent purpose manager)) := by
  induction calls generalizing manager with
  | nil => rfl
  | cons call rest ih =>
    rw [Keyed.Distinct, List.map_cons, List.nodup_cons] at distinct
    rw [mergeCalls, List.filter_cons]
    by_cases skipped : call.2.purpose ≠ purpose ∨ manager.knows call.1 = true
    · have present : ¬CallSnapshot.absent purpose manager call = true := by
        rw [CallSnapshot.absent, Bool.and_eq_true, decide_eq_true_eq, Bool.not_eq_true']
        rintro ⟨asked, unknown⟩
        rcases skipped with other | known
        · exact other asked
        · rw [unknown] at known
          cases known
      rw [if_pos skipped, if_neg present]
      exact ih distinct.2
    · have wanted : CallSnapshot.absent purpose manager call = true := by
        rw [not_or, not_not, Bool.not_eq_true] at skipped
        rw [CallSnapshot.absent, skipped.2, decide_eq_true skipped.1]
        rfl
      rw [if_neg skipped, if_pos wanted, chargeAll]
      by_cases bad : snapshot.broken call = true
      · rw [if_pos bad, if_pos bad]
      · rw [if_neg bad, if_neg bad, ih distinct.2]
        congr 1
        apply List.filter_congr
        intro other member
        apply absent_charge
        intro same
        exact distinct.1 (same ▸ List.mem_map_of_mem member)

theorem restoreMissingModelCalls_eq :
    manager.restoreMissingModelCalls snapshot purpose = chargeAll snapshot manager (snapshot.missing purpose manager) :=
  mergeCalls_eq snapshot.distinct

theorem find?_foldl_charge {calls : List (String × ModelCall)} (distinct : Keyed.Distinct Prod.fst calls)
    (key : String) :
    Keyed.find? Prod.fst key (calls.foldl (charge snapshot) manager).modelCalls =
      (Keyed.find? Prod.fst key calls).or (Keyed.find? Prod.fst key manager.modelCalls) := by
  induction calls generalizing manager with
  | nil => rfl
  | cons call rest ih =>
    rw [Keyed.Distinct, List.map_cons, List.nodup_cons] at distinct
    rw [List.foldl_cons, ih distinct.2, find?_charge, Keyed.find?_cons]
    by_cases here : call.1 = key
    · have missing : Keyed.find? Prod.fst key rest = none := by
        refine Keyed.find?_none.mpr fun other member same => ?_
        exact distinct.1 (List.mem_map.mpr ⟨other, member, same.trans here.symm⟩)
      rw [if_pos here, if_pos here, missing]
      rfl
    · rw [if_neg here, if_neg here]

theorem find?_scopes_foldl_charge (key : String) :
    Keyed.find? Prod.fst key (calls.foldl (charge snapshot) manager).scopes =
      if (calls.map Prod.fst).contains key then some (key, normalized (snapshot.costs key))
      else Keyed.find? Prod.fst key manager.scopes := by
  induction calls generalizing manager with
  | nil => rfl
  | cons call rest ih =>
    rw [List.foldl_cons, ih, find?_scopes_charge, List.map_cons, List.contains_cons]
    by_cases later : (rest.map Prod.fst).contains key = true
    · simp only [later, Bool.or_true, if_true]
    · rw [if_neg later, eq_false_of_ne_true later, Bool.or_false]
      by_cases here : call.1 = key
      · rw [if_pos here, if_pos (by rw [here]; exact beq_self_eq_true key)]
      · rw [if_neg here, if_neg fun same => here (eq_of_beq same).symm]

theorem limits_foldl_charge :
    (calls.foldl (charge snapshot) manager).limits = manager.limits ∧
      (calls.foldl (charge snapshot) manager).rejected = manager.rejected := by
  induction calls generalizing manager with
  | nil => exact ⟨rfl, rfl⟩
  | cons call rest ih => exact ih

end BudgetManager

/-! ## The merge -/

/-- Each absent call of the purpose is charged once, in the order of the
snapshot; nothing else is touched, and the same snapshot has nothing left to
give. -/
structure MergedOnce (snapshot : CallSnapshot) (purpose : String) (manager after : BudgetManager) : Prop where
  charged : after = (snapshot.missing purpose manager).foldl (BudgetManager.charge snapshot) manager
  recorded : ∀ call ∈ snapshot.missing purpose manager,
    Keyed.find? Prod.fst call.1 after.modelCalls = some call ∧
      Keyed.find? Prod.fst call.1 after.scopes = some (call.1, normalized (snapshot.costs call.1))
  untouched : ∀ key, key ∉ (snapshot.missing purpose manager).map Prod.fst ->
    Keyed.find? Prod.fst key after.modelCalls = Keyed.find? Prod.fst key manager.modelCalls ∧
      Keyed.find? Prod.fst key after.scopes = Keyed.find? Prod.fst key manager.scopes
  used : ∀ direct, Balanced manager direct -> ∀ resource, after.usedOf resource =
    manager.usedOf resource + ((snapshot.missing purpose manager).map (fun call =>
      amount resource (normalized (snapshot.costs call.1)) - amount resource (manager.scope call.1))).sum
  limits : after.limits = manager.limits ∧ after.rejected = manager.rejected
  again : after.restoreMissingModelCalls snapshot purpose = (after, .ok ())

/-- A merge that returns has merged once, and one that raises leaves the
manager as it was. -/
def MergesOrLeaves (snapshot : CallSnapshot) (purpose : String) (manager : BudgetManager) : Prop :=
  let merged := manager.restoreMissingModelCalls snapshot purpose
  (merged.2 = .ok () -> MergedOnce snapshot purpose manager merged.1) ∧
    (merged.2 ≠ .ok () -> merged.1 = manager)

/-- No absent call of the purpose is broken, or the first of them is. -/
def Chargeable (snapshot : CallSnapshot) (purpose : String) (manager : BudgetManager) : Prop :=
  (∀ call ∈ snapshot.missing purpose manager, snapshot.broken call = false) ∨
    ∃ call rest, snapshot.missing purpose manager = call :: rest ∧ snapshot.broken call = true

variable {snapshot : CallSnapshot} {purpose : String} {manager : BudgetManager}

theorem CallSnapshot.distinct_missing : Keyed.Distinct Prod.fst (snapshot.missing purpose manager) :=
  Keyed.distinct_filter _ snapshot.distinct

/-- Behind the charges, no call of the purpose is absent. -/
theorem missing_charged :
    snapshot.missing purpose ((snapshot.missing purpose manager).foldl (BudgetManager.charge snapshot) manager) = [] := by
  rw [CallSnapshot.missing, List.filter_eq_nil_iff]
  intro call member absent
  rw [CallSnapshot.absent, Bool.and_eq_true, Bool.not_eq_true', BudgetManager.knows,
    BudgetManager.find?_foldl_charge CallSnapshot.distinct_missing] at absent
  rcases absent with ⟨asked, unknown⟩
  have nowhere := Option.or_eq_none_iff.mp (Option.isNone_iff_eq_none.mp (by rw [<- Option.not_isSome, unknown]; rfl))
  have before : CallSnapshot.absent purpose manager call = true := by
    rw [CallSnapshot.absent, asked, BudgetManager.knows, nowhere.2]
    rfl
  exact Keyed.find?_none.mp nowhere.1 call (List.mem_filter.mpr ⟨member, before⟩) rfl

/-- What the charges use, in a manager whose books balance. -/
theorem used_charges {direct : String -> ℚ} (balanced : Balanced manager direct) {calls : List (String × ModelCall)}
    (distinct : Keyed.Distinct Prod.fst calls) (resource : String) :
    (calls.foldl (BudgetManager.charge snapshot) manager).usedOf resource = manager.usedOf resource +
      (calls.map (fun call => amount resource (normalized (snapshot.costs call.1)) -
        amount resource (manager.scope call.1))).sum := by
  induction calls generalizing manager with
  | nil => exact (add_zero _).symm
  | cons call rest ih =>
    rw [Keyed.Distinct, List.map_cons, List.nodup_cons] at distinct
    have after : Balanced (manager.charge snapshot call) direct :=
      (balanced.reconcileScope call.1 (snapshot.costs call.1)).same (fun _ => rfl) rfl
    have used : (manager.charge snapshot call).usedOf resource = manager.usedOf resource -
        amount resource (manager.scope call.1) + amount resource (normalized (snapshot.costs call.1)) :=
      balanced.used_reconcileScope call.1 (snapshot.costs call.1) resource
    have scopes : rest.map (fun other => amount resource (normalized (snapshot.costs other.1)) -
          amount resource ((manager.charge snapshot call).scope other.1)) =
        rest.map (fun other => amount resource (normalized (snapshot.costs other.1)) -
          amount resource (manager.scope other.1)) := by
      apply List.map_congr_left
      intro other member
      have apart : call.1 ≠ other.1 := fun same => distinct.1 (same ▸ List.mem_map_of_mem member)
      rw [BudgetManager.scope, BudgetManager.find?_scopes_charge, if_neg apart, BudgetManager.scope]
    rw [List.foldl_cons, ih after distinct.2, used, List.map_cons, List.sum_cons, scopes]
    abel

theorem mergedOnce_charges :
    MergedOnce snapshot purpose manager
      ((snapshot.missing purpose manager).foldl (BudgetManager.charge snapshot) manager) where
  charged := rfl
  recorded := by
    intro call member
    have named : ((snapshot.missing purpose manager).map Prod.fst).contains call.1 = true :=
      List.contains_iff_mem.mpr (List.mem_map_of_mem member)
    rw [BudgetManager.find?_foldl_charge CallSnapshot.distinct_missing,
      Keyed.find?_of_mem CallSnapshot.distinct_missing member, BudgetManager.find?_scopes_foldl_charge, if_pos named]
    exact ⟨rfl, rfl⟩
  untouched := by
    intro key apart
    have unnamed : ¬((snapshot.missing purpose manager).map Prod.fst).contains key = true :=
      fun named => apart (List.contains_iff_mem.mp named)
    have nowhere : Keyed.find? Prod.fst key (snapshot.missing purpose manager) = none :=
      Keyed.find?_none.mpr fun call member same => apart (List.mem_map.mpr ⟨call, member, same⟩)
    rw [BudgetManager.find?_foldl_charge CallSnapshot.distinct_missing, nowhere,
      BudgetManager.find?_scopes_foldl_charge, if_neg unnamed]
    exact ⟨rfl, rfl⟩
  used := fun _ balanced => used_charges balanced CallSnapshot.distinct_missing
  limits := BudgetManager.limits_foldl_charge _
  again := by
    rw [BudgetManager.restoreMissingModelCalls_eq, missing_charged]
    rfl

/-- The merge is idempotent and atomic exactly if no absent call of the purpose
is broken, or the first of them is. -/
theorem mergesOrLeaves_iff (snapshot : CallSnapshot) (purpose : String) (manager : BudgetManager) :
    MergesOrLeaves snapshot purpose manager <-> Chargeable snapshot purpose manager := by
  rw [MergesOrLeaves, BudgetManager.restoreMissingModelCalls_eq]
  constructor
  · intro merges
    by_contra unchargeable
    rw [Chargeable, not_or] at unchargeable
    rcases unchargeable with ⟨some, later⟩
    cases listed : snapshot.missing purpose manager with
    | nil =>
      rw [listed] at some
      exact some fun call member => absurd member List.not_mem_nil
    | cons call rest =>
      have first : ¬snapshot.broken call = true := fun bad => later ⟨call, rest, listed, bad⟩
      have broken : ∃ other, other ∈ call :: rest ∧ snapshot.broken other = true := by
        rw [listed] at some
        rcases not_forall.mp some with ⟨other, found⟩
        rcases Classical.not_imp.mp found with ⟨member, bad⟩
        exact ⟨other, member, (Bool.not_eq_false _).mp bad⟩
      rw [listed] at merges
      have raised := @BudgetManager.chargeAll_broken _ manager _ broken
      have same := merges.2 (by rw [raised]; exact fun returned => by cases returned)
      -- The first call was charged before the broken one was met.
      have known : (BudgetManager.chargeAll snapshot manager (call :: rest)).1.knows call.1 = true := by
        rw [BudgetManager.chargeAll, if_neg first]
        apply BudgetManager.knows_chargeAll
        rw [BudgetManager.knows_charge, decide_eq_true rfl, Bool.true_or]
      have member : call ∈ snapshot.missing purpose manager := by
        rw [listed]
        exact List.mem_cons_self
      have absent := (List.mem_filter.mp member).2
      rw [CallSnapshot.absent, <- same, known, Bool.not_true, Bool.and_false] at absent
      cases absent
  · rintro (sound | ⟨call, rest, listed, bad⟩)
    · rw [BudgetManager.chargeAll_sound sound]
      exact ⟨fun _ => mergedOnce_charges, fun raised => absurd rfl raised⟩
    · rw [listed, BudgetManager.chargeAll, if_pos bad]
      exact ⟨fun returned => (by cases returned), fun _ => rfl⟩

/-- Two calls were reserved, the second without costs. -/
def freeCall : BudgetManager :=
  (((BudgetManager.construct []).reserveModelCall "first" "extraction" [("llm_calls", 1)]).1.reserveModelCall
    "second" "extraction" []).1

def freeCallSnapshot : CallSnapshot where
  scopes := freeCall.scopes
  modelCalls := freeCall.modelCalls
  distinct := by decide +kernel

/-- The first call stays charged when the second is refused. -/
theorem freeCall_half_merged :
    ¬MergesOrLeaves freeCallSnapshot "extraction" (BudgetManager.construct []) := by
  intro merges
  have raised : ((BudgetManager.construct []).restoreMissingModelCalls freeCallSnapshot "extraction").2 ≠ .ok () := by
    have failed : ((BudgetManager.construct []).restoreMissingModelCalls freeCallSnapshot "extraction").2.toBool =
        false := by decide +kernel
    intro returned
    rw [returned] at failed
    cases failed
  have same := congrArg (fun manager => manager.knows "first") (merges.2 raised)
  have charged : ((BudgetManager.construct []).restoreMissingModelCalls freeCallSnapshot "extraction").1.knows "first" =
      true := by decide +kernel
  rw [charged] at same
  cases same

end Budget
end FixLoop
