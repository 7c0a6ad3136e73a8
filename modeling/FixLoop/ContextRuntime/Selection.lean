import Mathlib.Algebra.Order.Ring.Unbundled.Rat
import Mathlib.Data.List.Induction
import Mathlib.Data.Prod.Lex
import Mathlib.Data.String.Basic
import FixLoop.Library.Sorting

namespace FixLoop
namespace ContextRuntime

open Library

/-!
# Selecting context under a token budget

Pinned items and items of required kinds are offered first, by their ids; then
every item that is not selected is offered by its utility.  An item that is
refused in the first pass is offered, and refused, once more in the second.
-/

structure ContextRequest where
  phase : String := "repair"
  activeHypothesisIds : List String := []
  tokenBudget : Int := 2000
  role : String := ""
  policyVersion : String := "context-policy-v2"
  requiredKinds : List String := []
  minKindCounts : List (String × Int) := []

structure ContextItem where
  itemId : String
  kind : String
  tokenCost : Int := 0
  relevance : ℚ := 0
  confidence : ℚ := 1 / 2
  freshness : ℚ := 1
  evidenceStrength : ℚ := 0
  hypothesisIds : List String := []
  scope : String := "task"
  stale : Bool := false
  hardPin : Bool := false

def phaseFactor (phase : String) : ℚ :=
  if phase = "patch" then 23 / 20 else if phase = "verify" then 11 / 10 else 1

namespace ContextItem

variable (request : ContextRequest) (item : ContextItem)

/-- `max(int(item.token_cost), 0)`. -/
def cost : Int := max item.tokenCost 0

def utility : ℚ :=
  let alignment : ℚ := if item.hypothesisIds.any (request.activeHypothesisIds.contains ·) then 1 else 3 / 5
  let scopeBonus : ℚ := if item.scope = "task" ∨ item.scope = "run" then 1 else 9 / 10
  let raw := 9 / 20 * item.relevance + 1 / 5 * item.confidence + 3 / 20 * item.freshness +
    1 / 5 * item.evidenceStrength
  raw * phaseFactor request.phase * alignment * scopeBonus / (max item.tokenCost 1 : Int)

def sortKey : ℚ ×ₗ String := toLex (-item.utility request, item.itemId)

/-- The item is offered in the first pass. -/
def pinned : Bool := item.hardPin || request.requiredKinds.contains item.kind

theorem cost_nonneg : 0 ≤ item.cost := le_max_right _ _

end ContextItem

structure ContextDecision where
  itemId : String
  reason : String
  utility : ℚ := 0

structure ContextSelectionResult where
  selected : List ContextItem := []
  dropped : List ContextDecision := []
  tokenBudget : Int := 0
  usedTokens : Int := 0
  phase : String := ""
  role : String := ""
  policyVersion : String := "context-policy-v2"

/-- `VERSION`. -/
def version : String := "context-policy-v2"

/-- What the passes share. -/
structure Passes where
  selected : List ContextItem := []
  dropped : List ContextDecision := []
  used : Int := 0

namespace Passes

def selectedIds (passes : Passes) : List String := passes.selected.map ContextItem.itemId

def droppedIds (passes : Passes) : List String := passes.dropped.map ContextDecision.itemId

end Passes

section

variable (request : ContextRequest)

/-- The item is selected if it fits, or else dropped. -/
def offer (reason : String) (passes : Passes) (item : ContextItem) : Passes :=
  if passes.used + item.cost ≤ request.tokenBudget then
    { passes with selected := passes.selected ++ [item], used := passes.used + item.cost }
  else { passes with dropped := passes.dropped ++ [⟨item.itemId, reason, item.utility request⟩] }

def requiredCount (kind : String) : Int :=
  ((request.minKindCounts.find? fun entry => entry.1 == kind).map Prod.snd).getD 0

def reasonFor (passes : Passes) (item : ContextItem) : String :=
  if ((passes.selected.filter fun chosen => chosen.kind == item.kind).length : Int) <
      requiredCount request item.kind then "required_kind"
  else "budget"

/-- One turn of the second pass. -/
def offerRanked (passes : Passes) (item : ContextItem) : Passes :=
  if passes.selectedIds.contains item.itemId then passes
  else offer request (reasonFor request passes item) passes item

/-- One turn of the last loop. -/
def settle (passes : Passes) (item : ContextItem) : Passes :=
  if passes.selectedIds.contains item.itemId ∨ passes.droppedIds.contains item.itemId then passes
  else { passes with dropped := passes.dropped ++ [⟨item.itemId, "policy", item.utility request⟩] }

def firstPass (kept : List ContextItem) : Passes :=
  (Sorting.sorted ContextItem.itemId (kept.filter (·.pinned request))).foldl (offer request "budget") {}

def secondPass (kept : List ContextItem) : Passes :=
  (Sorting.sorted (ContextItem.sortKey request) kept).foldl (offerRanked request) (firstPass request kept)

end

/-- `by_id.setdefault(item.item_id, item)`. -/
def setDefault (kept : List ContextItem) (item : ContextItem) : List ContextItem :=
  if (kept.map ContextItem.itemId).contains item.itemId then kept else kept ++ [item]

/-- `by_id`: the first item of each id that is not stale. -/
def byId (items : List ContextItem) : List ContextItem :=
  (items.filter fun item => !item.stale).foldl setDefault []

def selectWithResult (items : List ContextItem) (request : ContextRequest) : ContextSelectionResult :=
  let passes := (byId items).foldl (settle request) (secondPass request (byId items))
  { selected := passes.selected
    dropped := passes.dropped
    tokenBudget := request.tokenBudget
    usedTokens := passes.used
    phase := request.phase
    role := request.role
    policyVersion := if request.policyVersion = "" then version else request.policyVersion }

def totalCost : List ContextItem -> Int
  | [] => 0
  | item :: rest => item.cost + totalCost rest

theorem totalCost_append (first second : List ContextItem) :
    totalCost (first ++ second) = totalCost first + totalCost second := by
  induction first with
  | nil => simp [totalCost]
  | cons item rest ih => simp [totalCost, ih, Int.add_assoc]

theorem totalCost_nonneg (items : List ContextItem) : 0 ≤ totalCost items := by
  induction items with
  | nil => simp [totalCost]
  | cons item rest ih => exact Int.add_nonneg item.cost_nonneg ih

theorem totalCost_perm {items others : List ContextItem} (listed : items.Perm others) :
    totalCost items = totalCost others := by
  induction listed with
  | nil => rfl
  | cons item _ ih => simp [totalCost, ih]
  | swap item other rest => simp only [totalCost]; omega
  | trans _ _ first second => exact first.trans second

theorem setDefault_spec (items : List ContextItem) :
    ((items.foldl setDefault []).map ContextItem.itemId).Nodup ∧ (items.foldl setDefault []) ⊆ items ∧
      items.map ContextItem.itemId ⊆ (items.foldl setDefault []).map ContextItem.itemId := by
  induction items using List.reverseRecOn with
  | nil => simp
  | append_singleton items item ih =>
    rcases ih with ⟨distinct, from_, covers⟩
    rw [List.foldl_append, List.foldl_cons, List.foldl_nil, setDefault]
    split
    next known =>
      refine ⟨distinct, List.Subset.trans from_ (List.subset_append_left _ _), ?_⟩
      rw [List.map_append, List.append_subset]
      exact ⟨covers, by simpa using known⟩
    next new =>
      refine ⟨?_, List.append_subset.mpr ⟨List.Subset.trans from_ (List.subset_append_left _ _), by simp⟩, ?_⟩
      · rw [List.map_append, List.map_singleton, <- List.concat_eq_append]
        exact List.Nodup.concat (fun member => new (List.contains_iff_mem.mpr member)) distinct
      · rw [List.map_append, List.map_append, List.append_subset]
        exact ⟨List.Subset.trans covers (List.subset_append_left _ _), List.subset_append_right _ _⟩

theorem byId_distinct (items : List ContextItem) : ((byId items).map ContextItem.itemId).Nodup :=
  (setDefault_spec _).1

theorem mem_byId {items : List ContextItem} {item : ContextItem} (member : item ∈ byId items) :
    item ∈ items ∧ item.stale = false := by
  simpa using (setDefault_spec (items.filter fun item => !item.stale)).2.1 member

theorem covered {items : List ContextItem} {item : ContextItem} (member : item ∈ items)
    (fresh : item.stale = false) : item.itemId ∈ (byId items).map ContextItem.itemId := by
  apply (setDefault_spec (items.filter fun item => !item.stale)).2.2
  exact List.mem_map_of_mem (List.mem_filter.mpr ⟨member, by simp [fresh]⟩)

theorem byId_eq_filter {items : List ContextItem} (distinct : (items.map ContextItem.itemId).Nodup) :
    byId items = items.filter (fun item => !item.stale) := by
  have kept : ∀ items : List ContextItem, (items.map ContextItem.itemId).Nodup ->
      items.foldl setDefault [] = items := by
    intro items distinct
    induction items using List.reverseRecOn with
    | nil => rfl
    | append_singleton items item ih =>
      rw [List.map_append, List.nodup_append'] at distinct
      have new : item.itemId ∉ items.map ContextItem.itemId := fun member =>
        distinct.2.2 member (by simp)
      rw [List.foldl_append, ih distinct.1, List.foldl_cons, List.foldl_nil, setDefault, if_neg]
      exact fun known => new (List.contains_iff_mem.mp known)
  exact kept _ (distinct.sublist ((List.filter_sublist).map _))

variable {request : ContextRequest}

/-- The ids of what has been decided. -/
def Passes.decided (passes : Passes) : List String := passes.selectedIds ++ passes.droppedIds

/-- The costs are accounted for, and what was refused would exceed the
budget. -/
structure Accounted (request : ContextRequest) (kept : List ContextItem) (passes : Passes) : Prop where
  account : passes.used = totalCost passes.selected
  bounded : passes.selected = [] ∨ passes.used ≤ request.tokenBudget
  listed : passes.selected ⊆ kept
  refused : ∀ id ∈ passes.droppedIds, ∃ item ∈ kept, item.itemId = id ∧ request.tokenBudget < passes.used + item.cost

theorem offer_decided (reason : String) (passes : Passes) (item : ContextItem) :
    (offer request reason passes item).decided.Perm (item.itemId :: passes.decided) := by
  unfold offer
  split
  · simp only [Passes.decided, Passes.selectedIds, List.map_append, List.map_cons, List.map_nil]
    rw [List.append_assoc]
    exact List.perm_middle
  · simp only [Passes.decided, Passes.droppedIds, List.map_append, List.map_cons, List.map_nil]
    rw [<- List.append_assoc]
    exact List.perm_append_singleton _ _

theorem offer_accounted {kept : List ContextItem} {passes : Passes} {item : ContextItem} (reason : String)
    (sound : Accounted request kept passes) (member : item ∈ kept) :
    Accounted request kept (offer request reason passes item) := by
  have paid := item.cost_nonneg
  unfold offer
  split
  next fits =>
    refine ⟨?_, .inr fits, List.append_subset.mpr ⟨sound.listed, by simpa using member⟩, ?_⟩
    · simp [totalCost_append, totalCost, sound.account]
    · intro id refused
      rcases sound.refused id refused with ⟨other, there, same, over_⟩
      exact ⟨other, there, same, by simp only; omega⟩
  next over_ =>
    refine ⟨sound.account, sound.bounded, sound.listed, ?_⟩
    intro id refused
    simp only [Passes.droppedIds, List.map_append, List.map_cons, List.map_nil, List.mem_append,
      List.mem_singleton] at refused
    rcases refused with refused | rfl
    · exact sound.refused id refused
    · exact ⟨item, member, rfl, by simp only; omega⟩

theorem accounted_start (kept : List ContextItem) : Accounted request kept {} :=
  ⟨rfl, .inl rfl, List.nil_subset _, by simp [Passes.droppedIds]⟩

/-! ## The first pass -/

/-- The first pass over these items. -/
def offerAll (request : ContextRequest) (items : List ContextItem) : Passes :=
  items.foldl (offer request "budget") {}

theorem offerAll_concat (items : List ContextItem) (item : ContextItem) :
    offerAll request (items ++ [item]) = offer request "budget" (offerAll request items) item := by
  simp [offerAll]

variable (request) in
theorem offerAll_decided (items : List ContextItem) :
    (offerAll request items).decided.Perm (items.map ContextItem.itemId) := by
  induction items using List.reverseRecOn with
  | nil => rfl
  | append_singleton items item ih =>
    rw [offerAll_concat, List.map_append]
    exact (offer_decided _ _ _).trans ((ih.cons _).trans (List.perm_append_singleton _ _).symm)

variable (request) in
theorem offerAll_accounted (items : List ContextItem) : Accounted request items (offerAll request items) := by
  apply List.foldlRecOn items _ (accounted_start items)
  intro passes sound item member
  exact offer_accounted _ sound member

/-- Nothing is dropped in the first pass exactly where all its items fit. -/
theorem offerAll_dropped (items : List ContextItem) : (offerAll request items).dropped = [] <->
    items = [] ∨ totalCost items ≤ request.tokenBudget := by
  have all : ∀ items, (offerAll request items).dropped = [] -> (offerAll request items).selected = items := by
    intro items
    induction items using List.reverseRecOn with
    | nil => exact fun _ => rfl
    | append_singleton items item ih =>
      rw [offerAll_concat, offer]
      split
      · intro none_
        simp [ih none_]
      · simp
  constructor
  · intro none_
    have sound := offerAll_accounted request items
    have account := sound.account
    have bounded := sound.bounded
    rw [all items none_] at account bounded
    rwa [account] at bounded
  · intro fits
    have room : ∀ items, totalCost items ≤ request.tokenBudget -> (offerAll request items).dropped = [] := by
      intro items
      induction items using List.reverseRecOn with
      | nil => exact fun _ => rfl
      | append_singleton items item ih =>
        intro fits
        have paid := item.cost_nonneg
        rw [totalCost_append, totalCost, totalCost] at fits
        have none_ := ih (by omega)
        have account := (offerAll_accounted request items).account
        rw [all items none_] at account
        rw [offerAll_concat, offer, if_pos (by omega)]
        exact none_
    rcases fits with rfl | fits
    · rfl
    · exact room items fits

/-- What was refused did not fit next to what was selected before it. -/
theorem offerAll_refused {items : List ContextItem}
    (ordered : items.Pairwise fun first second => first.itemId < second.itemId) :
    ∀ item ∈ items, item.itemId ∈ (offerAll request items).droppedIds ->
      request.tokenBudget < item.cost +
        totalCost ((offerAll request items).selected.filter fun chosen => decide (chosen.itemId < item.itemId)) := by
  induction items using List.reverseRecOn with
  | nil => simp
  | append_singleton items last ih =>
    rw [List.pairwise_append] at ordered
    rcases ordered with ⟨ordered, -, before⟩
    have before : ∀ item ∈ items, item.itemId < last.itemId := fun item member =>
      before item member last (List.mem_singleton_self last)
    have sound := offerAll_accounted request items
    have known : ∀ id ∈ (offerAll request items).droppedIds, id < last.itemId := by
      intro id refused
      rcases sound.refused id refused with ⟨item, member, rfl, -⟩
      exact before item member
    intro item member
    rw [offerAll_concat, offer]
    rcases List.mem_append.mp member with member | member
    · -- the last item does not count for an earlier one
      have later : ¬ last.itemId < item.itemId := (before item member).asymm
      split
      next fits =>
        intro refused
        have gone : [last].filter (fun chosen => decide (chosen.itemId < item.itemId)) = [] := by
          rw [List.filter_cons_of_neg (by simpa only [decide_eq_true_eq] using later), List.filter_nil]
        rw [List.filter_append, gone, List.append_nil]
        exact ih ordered item member refused
      next over_ =>
        intro refused
        simp only [Passes.droppedIds, List.map_append, List.map_cons, List.map_nil, List.mem_append,
          List.mem_singleton] at refused
        rcases refused with refused | same
        · exact ih ordered item member refused
        · exact absurd (same ▸ before item member) (lt_irrefl _)
    · rw [List.mem_singleton] at member
      subst member
      split
      next fits => exact fun refused => absurd (known _ refused) (lt_irrefl _)
      next over_ =>
        intro _
        have all : (offerAll request items).selected.filter
            (fun chosen => decide (chosen.itemId < item.itemId)) = (offerAll request items).selected := by
          apply List.filter_eq_self.mpr
          intro chosen there
          exact decide_eq_true (before chosen (sound.listed there))
        simp only [all]
        have account := sound.account
        omega

/-! ## The second pass -/

variable (request) in
theorem offer_selected (reason : String) (passes : Passes) (item : ContextItem) :
    (offer request reason passes item).selected = passes.selected ∨
      (offer request reason passes item).selected = passes.selected ++ [item] := by
  unfold offer
  split
  · exact .inr rfl
  · exact .inl rfl

/-- What the second pass has made of the first, once it has seen these items. -/
structure Ranked (first : Passes) (seen : List ContextItem) (passes : Passes) : Prop where
  kept : first.selected.IsPrefix passes.selected
  new : ∀ id ∈ passes.selectedIds, id ∈ first.selectedIds ∨ id ∈ seen.map ContextItem.itemId
  decided : passes.decided.Perm (first.decided ++
    (seen.filter fun item => !first.selectedIds.contains item.itemId).map ContextItem.itemId)

/-- An item is passed over exactly where the first pass has selected it. -/
theorem ranked_foldl (first : Passes) {items : List ContextItem}
    (distinct : (items.map ContextItem.itemId).Nodup) :
    Ranked first items (items.foldl (offerRanked request) first) := by
  induction items using List.reverseRecOn with
  | nil => exact ⟨List.prefix_rfl, fun id member => .inl member, by simp⟩
  | append_singleton items item ih =>
    rw [List.map_append, List.nodup_append'] at distinct
    have other : item.itemId ∉ items.map ContextItem.itemId := fun member => distinct.2.2 member (by simp)
    have so := ih distinct.1
    rw [List.foldl_append, List.foldl_cons, List.foldl_nil]
    generalize items.foldl (offerRanked request) first = passes at so ⊢
    rw [offerRanked]
    split
    next known =>
      have before := (so.new _ (List.contains_iff_mem.mp known)).resolve_right other
      refine ⟨so.kept, fun id member => (so.new id member).imp_right ?_, ?_⟩
      · rw [List.map_append]
        exact List.mem_append_left _
      · simpa [List.filter_append, before] using so.decided
    next open_ =>
      have fresh : item.itemId ∉ first.selectedIds := fun member =>
        open_ (List.contains_iff_mem.mpr ((so.kept.map ContextItem.itemId).subset member))
      refine ⟨?_, ?_, ?_⟩
      · rcases offer_selected request (reasonFor request passes item) passes item with same | grown
        · rw [same]
          exact so.kept
        · rw [grown]
          exact so.kept.trans (List.prefix_append _ _)
      · intro id member
        rw [List.map_append, List.mem_append]
        unfold Passes.selectedIds at member
        rcases offer_selected request (reasonFor request passes item) passes item with same | grown
        · rw [same] at member
          exact (so.new id member).imp_right .inl
        · rw [grown, List.map_append, List.mem_append] at member
          rcases member with member | member
          · exact (so.new id member).imp_right .inl
          · exact .inr (.inr member)
      · apply (offer_decided _ _ _).trans
        rw [List.filter_append, List.map_append, <- List.append_assoc]
        have one : ([item].filter fun item => !first.selectedIds.contains item.itemId).map ContextItem.itemId =
            [item.itemId] := by simp [fresh]
        rw [one]
        exact (so.decided.cons _).trans (List.perm_append_singleton _ _).symm

section Kept

variable {kept : List ContextItem} (distinct : (kept.map ContextItem.itemId).Nodup)

theorem mem_firstItems {item : ContextItem} :
    item ∈ Sorting.sorted ContextItem.itemId (kept.filter (·.pinned request)) <->
      item ∈ kept ∧ item.pinned request = true := by
  rw [(Sorting.sorted_perm _ _).mem_iff, List.mem_filter]

variable (request) in
theorem secondPass_accounted (kept : List ContextItem) : Accounted request kept (secondPass request kept) := by
  have start : Accounted request kept (firstPass request kept) := by
    apply List.foldlRecOn _ _ (accounted_start kept)
    intro passes sound item member
    exact offer_accounted _ sound (mem_firstItems.mp member).1
  apply List.foldlRecOn _ _ start
  intro passes sound item member
  unfold offerRanked
  split
  · exact sound
  · exact offer_accounted _ sound ((Sorting.sorted_perm _ _).mem_iff.mp member)

include distinct

theorem firstItems_lt : (Sorting.sorted ContextItem.itemId (kept.filter (·.pinned request))).Pairwise
    (fun first second => first.itemId < second.itemId) :=
  Sorting.sorted_lt _ (distinct.sublist (List.filter_sublist.map _))

variable (request) in
theorem firstPass_decided : (firstPass request kept).decided.Nodup := by
  apply (offerAll_decided _ _).nodup_iff.mpr
  exact ((Sorting.sorted_perm _ _).map _).nodup_iff.mpr (distinct.sublist (List.filter_sublist.map _))

variable (request) in
theorem secondPass_ranked : Ranked (firstPass request kept) (Sorting.sorted (ContextItem.sortKey request) kept)
    (secondPass request kept) :=
  ranked_foldl _ (((Sorting.sorted_perm _ _).map _).nodup_iff.mpr distinct)

variable (request) in
/-- Each item is decided once, and once more where the first pass drops it. -/
theorem count_decided {id : String} (member : id ∈ kept.map ContextItem.itemId) :
    (secondPass request kept).decided.count id = 1 + (firstPass request kept).droppedIds.count id := by
  have ranked := secondPass_ranked request distinct
  have once := firstPass_decided request distinct
  rw [ranked.decided.count_eq, Passes.decided, List.count_append, List.count_append]
  have apart := ((Sorting.sorted_perm (ContextItem.sortKey request) kept).map ContextItem.itemId).nodup_iff.mpr distinct
  by_cases chosen : id ∈ (firstPass request kept).selectedIds
  · rw [List.count_eq_one_of_mem once.of_append_left chosen, List.count_eq_zero_of_not_mem (a := id) (l := List.map _ _)]
    · omega
    · intro again
      rcases List.mem_map.mp again with ⟨item, listed, rfl⟩
      simp [chosen] at listed
  · rw [List.count_eq_zero_of_not_mem chosen,
      List.count_eq_one_of_mem (apart.sublist (List.filter_sublist.map _))]
    · omega
    · rcases List.mem_map.mp member with ⟨item, listed, rfl⟩
      refine List.mem_map_of_mem (List.mem_filter.mpr ⟨(Sorting.sorted_perm _ _).mem_iff.mpr listed, ?_⟩)
      simpa using chosen

variable (request) in
theorem mem_decided {item : ContextItem} (member : item ∈ kept) :
    item.itemId ∈ (secondPass request kept).decided := by
  apply List.count_pos_iff.mp
  rw [count_decided request distinct (List.mem_map_of_mem member)]
  omega

/-- The last loop adds nothing. -/
theorem settle_secondPass : kept.foldl (settle request) (secondPass request kept) = secondPass request kept := by
  apply List.foldlRecOn kept _ (motive := fun passes => passes = secondPass request kept) rfl
  intro passes same item member
  have decided := mem_decided request distinct member
  rw [Passes.decided, List.mem_append] at decided
  rw [same, settle, if_pos]
  simpa using decided

/-- A pinned item is dropped where it did not fit next to the pinned items
before it. -/
theorem secondPass_pinned {item : ContextItem} (member : item ∈ kept) (pin : item.pinned request = true)
    (refused : item.itemId ∈ (secondPass request kept).droppedIds) :
    request.tokenBudget < item.cost + totalCost ((secondPass request kept).selected.filter
      (fun chosen => chosen.pinned request && decide (chosen.itemId < item.itemId))) := by
  have ranked := secondPass_ranked request distinct
  have counted := count_decided request distinct (List.mem_map_of_mem member)
  have once := firstPass_decided request distinct
  have inFirst := mem_firstItems.mpr ⟨member, pin⟩
  have left_out : item.itemId ∉ (firstPass request kept).selectedIds := by
    intro chosen
    have also := (ranked.kept.map ContextItem.itemId).subset chosen
    rw [Passes.decided, List.count_append] at counted
    have first := List.count_pos_iff.mpr also
    have second := List.count_pos_iff.mpr refused
    have none_ : (firstPass request kept).droppedIds.count item.itemId = 0 :=
      List.count_eq_zero_of_not_mem fun again => (List.nodup_append'.mp once).2.2 chosen again
    unfold Passes.selectedIds at counted
    omega
  have dropped : item.itemId ∈ (firstPass request kept).droppedIds := by
    have decided := (offerAll_decided request _).mem_iff.mpr (List.mem_map_of_mem inFirst)
    rw [Passes.decided, List.mem_append] at decided
    exact decided.resolve_left left_out
  have short := offerAll_refused (firstItems_lt distinct) item inFirst dropped
  have pins : (firstPass request kept).selected.filter (fun chosen => decide (chosen.itemId < item.itemId)) =
      (firstPass request kept).selected.filter
        (fun chosen => chosen.pinned request && decide (chosen.itemId < item.itemId)) := by
    apply List.filter_congr
    intro chosen there
    rw [(mem_firstItems.mp ((offerAll_accounted request _).listed there)).2, Bool.true_and]
  rcases ranked.kept with ⟨more, whole⟩
  rw [<- whole, List.filter_append, totalCost_append, <- pins]
  have paid := totalCost_nonneg (more.filter
    (fun chosen => chosen.pinned request && decide (chosen.itemId < item.itemId)))
  have same : firstPass request kept = offerAll request
    (Sorting.sorted ContextItem.itemId (kept.filter (·.pinned request))) := rfl
  rw [same]
  omega

end Kept

/-! ## The selection -/

/-- The items of the first pass fit, or there are none. -/
def PinsFit (request : ContextRequest) (items : List ContextItem) : Prop :=
  (byId items).filter (·.pinned request) = [] ∨
    totalCost ((byId items).filter (·.pinned request)) ≤ request.tokenBudget

/-- A partition of the items under the budget that does not depend on their
order. -/
structure Governed (request : ContextRequest) (items : List ContextItem) (result : ContextSelectionResult) : Prop where
  account : result.usedTokens = totalCost result.selected
  bounded : result.usedTokens ≤ max request.tokenBudget 0
  once : ∀ item ∈ items, item.stale = false ->
    (result.selected.map ContextItem.itemId ++ result.dropped.map ContextDecision.itemId).count item.itemId = 1
  fresh : (∀ item ∈ result.selected, item ∈ items ∧ item.stale = false) ∧
    ∀ decision ∈ result.dropped, ∃ item ∈ items, item.stale = false ∧ item.itemId = decision.itemId
  exceeds : ∀ item ∈ byId items, item.itemId ∈ result.dropped.map ContextDecision.itemId ->
    request.tokenBudget < result.usedTokens + item.cost
  pins : ∀ item ∈ byId items, item.pinned request = true ->
    item.itemId ∈ result.dropped.map ContextDecision.itemId -> request.tokenBudget < item.cost +
      totalCost (result.selected.filter fun chosen => chosen.pinned request && decide (chosen.itemId < item.itemId))
  unordered : (items.map ContextItem.itemId).Nodup -> ∀ others, items.Perm others ->
    selectWithResult others request = result

variable (request) in
theorem selectWithResult_eq (items : List ContextItem) :
    (selectWithResult items request).selected = (secondPass request (byId items)).selected ∧
      (selectWithResult items request).dropped = (secondPass request (byId items)).dropped ∧
      (selectWithResult items request).usedTokens = (secondPass request (byId items)).used := by
  simp [selectWithResult, settle_secondPass (byId_distinct items)]

/-- The passes sort what they are given. -/
theorem secondPass_congr {kept others : List ContextItem} (distinct : (kept.map ContextItem.itemId).Nodup)
    (listed : kept.Perm others) : secondPass request kept = secondPass request others := by
  have keys : (kept.map (ContextItem.sortKey request)).Nodup := by
    apply List.Nodup.of_map fun key => (ofLex key).2
    rw [List.map_map]
    exact distinct
  rw [secondPass, secondPass, firstPass, firstPass, Sorting.sorted_congr _ keys listed,
    Sorting.sorted_congr _ (distinct.sublist (List.filter_sublist.map _)) (listed.filter _)]

/-- A selection is governed exactly where no pinned or required item is
refused. -/
theorem governed_iff (request : ContextRequest) (items : List ContextItem) :
    Governed request items (selectWithResult items request) <-> PinsFit request items := by
  have distinct := byId_distinct items
  rcases selectWithResult_eq request items with ⟨chosen, refused, used⟩
  have sound := secondPass_accounted request (byId items)
  have fits : (firstPass request (byId items)).dropped = [] <-> PinsFit request items := by
    have sorted := Sorting.sorted_perm ContextItem.itemId ((byId items).filter (·.pinned request))
    refine (offerAll_dropped _).trans (or_congr ?_ (by rw [totalCost_perm sorted]))
    rw [<- List.length_eq_zero_iff, sorted.length_eq, List.length_eq_zero_iff]
  rw [<- fits]
  constructor
  · intro governed
    by_contra some_
    rcases List.exists_mem_of_ne_nil _ some_ with ⟨decision, member⟩
    have dropped : decision.itemId ∈ (firstPass request (byId items)).droppedIds := List.mem_map_of_mem member
    rcases (offerAll_accounted request _).refused _ dropped with ⟨item, listed, same, -⟩
    have listed := (mem_firstItems.mp listed).1
    have counted := count_decided request distinct (List.mem_map_of_mem listed)
    have once := governed.once item (mem_byId listed).1 (mem_byId listed).2
    rw [chosen, refused] at once
    rw [<- same] at dropped
    have twice := List.count_pos_iff.mpr dropped
    unfold Passes.decided Passes.selectedIds at counted
    unfold Passes.droppedIds at counted twice
    omega
  · intro none_
    refine ⟨?_, ?_, ?_, ⟨?_, ?_⟩, ?_, ?_, ?_⟩
    · rw [used, chosen]
      exact sound.account
    · rw [used]
      rcases sound.bounded with empty | bounded
      · have account := sound.account
        rw [empty, totalCost] at account
        omega
      · omega
    · intro item member fresh
      have counted := count_decided request distinct (covered member fresh)
      rw [Passes.droppedIds, none_] at counted
      rw [chosen, refused]
      exact counted
    · intro item member
      rw [chosen] at member
      exact mem_byId (sound.listed member)
    · intro decision member
      rw [refused] at member
      rcases sound.refused _ (List.mem_map_of_mem member) with ⟨item, listed, same, -⟩
      exact ⟨item, (mem_byId listed).1, (mem_byId listed).2, same⟩
    · intro item member dropped
      rw [refused] at dropped
      rcases sound.refused _ dropped with ⟨other, listed, same, over_⟩
      rw [used, <- List.inj_on_of_nodup_map distinct listed member same]
      exact over_
    · intro item member pin dropped
      rw [refused] at dropped
      rw [chosen]
      exact secondPass_pinned distinct member pin dropped
    · intro apart others listed
      have also := (listed.map ContextItem.itemId).nodup_iff.mp apart
      have perm : (byId others).Perm (byId items) := by
        rw [byId_eq_filter apart, byId_eq_filter also]
        exact (listed.symm.filter _)
      unfold selectWithResult
      rw [settle_secondPass distinct, settle_secondPass (byId_distinct others),
        secondPass_congr (byId_distinct others) perm]

/-- A pinned item that does not fit is dropped twice. -/
theorem pinned_dropped_twice : ¬ Governed { tokenBudget := 3 }
    [{ itemId := "pin", kind := "observation", tokenCost := 5, hardPin := true }]
    (selectWithResult [{ itemId := "pin", kind := "observation", tokenCost := 5, hardPin := true }]
      { tokenBudget := 3 }) := by
  intro governed
  have once := governed.once _ List.mem_cons_self rfl
  revert once
  decide +kernel

end ContextRuntime
end FixLoop
