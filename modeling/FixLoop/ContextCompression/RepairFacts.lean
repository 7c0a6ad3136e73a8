import FixLoop.ContextCompression.PairedCalls

namespace FixLoop
namespace ContextCompression

open Library

/-!
# The facts of the repair

Every stage exempts the items with the state of the repair, by the item, by
the turn or by the group, and regroups what the one before it has left.  Such
an item goes through the whole pipeline, whatever the groups are, unless it
poses as a summary or as an omission marker.
-/

section Facts

variable [Rendering]

def isFact (item : Item) : Bool :=
  isRepairStateItem item && !isSummary item && !item.flag "_history_omission"

/-- The roles and the contents of the facts, in the order of the history. -/
def facts (history : List Item) : List (Json × Json) :=
  (history.filter isFact).map (fun item => (item.get "role", item.get "content"))

variable {history result turn marker : List Item} {groups others : List (List Item)} {budget : Budget}
  {window tail : Int} {current : Option Int}

theorem repair_of_fact {item : Item} (fact : isFact item = true) : isRepairStateItem item = true := by
  rw [isFact, Bool.and_eq_true, Bool.and_eq_true] at fact
  exact fact.1.1

theorem facts_append (first second : List Item) : facts (first ++ second) = facts first ++ facts second := by
  rw [facts, List.filter_append, List.map_append]
  rfl

theorem facts_eq_nil (none : turn.any isRepairStateItem = false) : facts turn = [] := by
  rw [facts, List.map_eq_nil_iff, List.filter_eq_nil_iff]
  exact fun item member fact => List.any_eq_false.mp none item member (repair_of_fact fact)

theorem facts_cons (item : Item) (history : List Item) : (facts history).Sublist (facts (item :: history)) := by
  rw [<- List.singleton_append, facts_append]
  exact List.sublist_append_right _ _

/-! ## Stages that go through the items -/

/-- A fact stays one and says the same. -/
def Stays (item other : Item) : Prop :=
  isFact item = true ->
    isFact other = true ∧ (other.get "role", other.get "content") = (item.get "role", item.get "content")

theorem Stays.refl (item : Item) : Stays item item := fun fact => ⟨fact, rfl⟩

theorem Stays.trans {first second third : Item} (before : Stays first second) (after : Stays second third) :
    Stays first third := by
  intro fact
  rcases before fact with ⟨still, same⟩
  rcases after still with ⟨again, alike⟩
  exact ⟨again, alike.trans same⟩

theorem facts_of_stays (stays : List.Forall₂ Stays history result) :
    (facts history).Sublist (facts result) := by
  induction stays with
  | nil => exact List.Sublist.refl _
  | @cons item other rest later here _ ih =>
    rw [facts, facts] at ih
    rw [facts, facts, List.filter_cons, List.filter_cons]
    by_cases fact : isFact item = true
    · rcases here fact with ⟨still, same⟩
      rw [if_pos fact, if_pos still, List.map_cons, List.map_cons, same]
      exact ih.cons_cons _
    · rw [if_neg fact]
      split
      · exact ih.cons _
      · exact ih

theorem l1BudgetReduction_facts (history : List Item) (budget : Budget) :
    (facts history).Sublist (facts (l1BudgetReduction history budget)) := by
  refine facts_of_stays (List.forall₂_map_right_iff.mpr (List.forall₂_same.mpr (fun item _ fact => ?_)))
  have same : reduceItem budget item = item := by
    rw [reduceItem, isProtectedResult, repair_of_fact fact]
    simp
  rw [same]
  exact ⟨fact, rfl⟩

theorem assignToolRefIds_stays (refId : Nat) (history : List Item) :
    List.Forall₂ Stays history (assignToolRefIds refId history) := by
  induction history generalizing refId with
  | nil => exact List.Forall₂.nil
  | cons item rest ih =>
    rw [assignToolRefIds]
    split
    · exact List.Forall₂.cons (Stays.refl item) (ih refId)
    · refine List.Forall₂.cons (fun fact => ?_) (ih (refId + 1))
      rw [isFact, isRepairStateItem, isSummary] at fact ⊢
      simpa [Item.flag, Item.hasRole, Item.content, Item.str, Item.get_set_ne, get?_set_ne] using fact

theorem l3Microcompact_facts (stubbed : l3Microcompact history budget window current tail = .ok result) :
    (facts history).Sublist (facts result) := by
  rcases Fallible.bind_ok stubbed with ⟨threshold, -, continued⟩
  split at continued
  · cases continued
    exact List.Sublist.refl _
  · rcases Fallible.bind_ok continued with ⟨turns, -, continued⟩
    rcases Fallible.bind_ok continued with ⟨protectedTurns, -, changed⟩
    refine (facts_of_stays (assignToolRefIds_stays 0 history)).trans (facts_of_stays ?_)
    refine changeWhile_related Stays.refl (fun index item other compacted fact => ?_)
      (fun _ _ _ before after => before.trans after) changed
    rw [compactItem, isProtectedResult, repair_of_fact fact] at compacted
    simp at compacted

/-! ## Stages that go through the groups -/

/-- Only groups without such items are changed. -/
def Spares (group other : List Item) : Prop :=
  other = group ∨ group.any isRepairStateItem = false

theorem facts_of_spares (spares : List.Forall₂ Spares groups others) :
    (facts groups.flatten).Sublist (facts others.flatten) := by
  induction spares with
  | nil => exact List.Sublist.refl _
  | cons here _ ih =>
    rw [List.flatten_cons, List.flatten_cons, facts_append, facts_append]
    rcases here with rfl | none
    · exact ih.append_left _
    · rw [facts_eq_nil none]
      exact ih.trans (List.sublist_append_right _ _)

theorem l0TierGuard_facts {policy : TierPolicy} (guarded : l0TierGuard history policy = .ok result) :
    (facts history).Sublist (facts result) := by
  rcases Fallible.map_ok guarded with ⟨groups, grouped, rfl⟩
  rw [<- (interactionGroups_ok grouped).1]
  refine facts_of_spares (List.forall₂_map_right_iff.mpr (List.forall₂_same.mpr (fun group _ => ?_)))
  rw [Spares, guardGroup]
  split
  · exact Or.inl rfl
  · rename_i unguarded
    rw [Bool.or_eq_true, not_or, Bool.not_eq_true, Bool.not_eq_true] at unguarded
    exact Or.inr unguarded.2

theorem replaceTurns_facts {threshold : Int}
    {replace : List Nat -> Option Int -> Nat -> List Item -> Except Fault (Option (List Item))}
    (spares : ∀ protectedTurns index turn marker, replace protectedTurns current index turn = .ok (some marker) ->
      List.any turn isRepairStateItem = false)
    (returned : replaceTurns history budget threshold window current tail replace = .ok result) :
    (facts history).Sublist (facts result) := by
  rw [replaceTurns] at returned
  split at returned
  · cases returned
    exact List.Sublist.refl _
  · rcases Fallible.bind_ok returned with ⟨turns, grouped, continued⟩
    split at continued
    · cases continued
      exact List.Sublist.refl _
    · rcases Fallible.bind_ok continued with ⟨protectedTurns, -, finished⟩
      rcases Fallible.map_ok finished with ⟨working, changed, rfl⟩
      rw [<- (interactionGroups_ok grouped).1]
      refine facts_of_spares (changeWhile_related (fun turn => (Or.inl rfl : Spares turn turn))
        (fun index turn marker replaced => Or.inr (spares protectedTurns index turn marker replaced)) ?_ changed)
      rintro first second third (rfl | none) after
      · exact after
      · exact Or.inr none

theorem snipTurn_spares {protectedTurns : List Nat} {index : Nat}
    (snipped : snipTurn protectedTurns current index turn = .ok (some marker)) :
    turn.any isRepairStateItem = false := by
  rw [snipTurn] at snipped
  split at snipped
  · cases snipped
  · rename_i unprotected
    split at snipped
    · cases snipped
    · rcases Fallible.map_ok snipped with ⟨score, scored, chosen⟩
      rcases Fallible.map_ok scored with ⟨isCurrent, -, rfl⟩
      by_contra repair
      rw [Bool.not_eq_false] at repair
      simp [repair] at chosen

theorem collapseTurn_spares {protectedTurns : List Nat} {index : Nat}
    (collapsed : collapseTurn budget protectedTurns current index turn = .ok (some marker)) :
    turn.any isRepairStateItem = false := by
  rw [collapseTurn] at collapsed
  split at collapsed
  · cases collapsed
  · rcases Fallible.map_ok collapsed with ⟨collapsible, judged, chosen⟩
    rcases Fallible.map_ok judged with ⟨isCurrent, -, rfl⟩
    by_contra repair
    rcases List.any_eq_true.mp (Bool.not_eq_false _ ▸ repair) with ⟨item, member, holds⟩
    have unmarked : turn.any (fun item => isRepairStateItem item || isSummary item) = true :=
      List.any_eq_true.mpr ⟨item, member, by rw [holds]; rfl⟩
    simp [unmarked] at chosen

/-! ## L5 -/

/-- The groups that are left out have no such items. -/
theorem facts_of_filter {keep : List Item × Nat -> Bool}
    (spares : ∀ entry ∈ groups.zipIdx, entry.1.any isRepairStateItem = true -> keep entry = true) :
    (facts groups.flatten).Sublist (facts ((groups.zipIdx.filter keep).map Prod.fst).flatten) := by
  suffices kept : (facts (groups.zipIdx.map Prod.fst).flatten).Sublist
      (facts ((groups.zipIdx.filter keep).map Prod.fst).flatten) by rwa [List.zipIdx_map_fst] at kept
  generalize groups.zipIdx = entries at spares
  induction entries with
  | nil => exact List.Sublist.refl _
  | cons entry rest ih =>
    rcases List.forall_mem_cons.mp spares with ⟨here, later⟩
    rw [List.map_cons, List.flatten_cons, facts_append, List.filter_cons]
    split
    · rw [List.map_cons, List.flatten_cons, facts_append]
      exact (ih later).append_left _
    · rename_i dropped
      rw [facts_eq_nil (Bool.eq_false_iff.mpr (fun repair => dropped (here repair)))]
      exact ih later

theorem pinned_of_repair {pinned : List Nat} (found : l5Pinned groups current = .ok pinned) :
    ∀ entry ∈ groups.zipIdx, entry.1.any isRepairStateItem = true -> entry.2 ∈ pinned := by
  rcases Fallible.map_ok found with ⟨values, looked, rfl⟩
  have each := Fallible.mapM_ok_iff.mp looked
  generalize groups.zipIdx = entries at each
  clear looked found
  induction each with
  | nil => nofun
  | @cons entry value _ _ here _ ih =>
    refine List.forall_mem_cons.mpr ⟨fun repair => ?_, fun other member repair => ?_⟩
    · have named : value = some entry.2 := by
        rw [pinned?] at here
        split at here
        · exact (Except.ok.inj here).symm
        · rcases Fallible.map_ok here with ⟨isCurrent, -, rfl⟩
          refine if_pos (Bool.or_eq_true_iff.mpr (Or.inr ?_))
          rcases List.any_eq_true.mp repair with ⟨item, member, holds⟩
          exact List.any_eq_true.mpr ⟨item, member, by rw [holds, Bool.true_or]⟩
      rw [named]
      exact List.mem_cons_self
    · cases value with
      | none => exact ih other member repair
      | some index => exact List.mem_cons_of_mem _ (ih other member repair)

theorem fitGroups_subset {maxGroups : Option Nat} {omitted summaryItems : Json} {index : Nat}
    {selected chosen : List Nat}
    (fitted : fitGroups groups budget window maxGroups omitted summaryItems index selected = .ok chosen) :
    selected ⊆ chosen := by
  induction index generalizing selected with
  | zero =>
    cases fitted
    exact List.Subset.refl _
  | succ index ih =>
    rw [fitGroups] at fitted
    split at fitted
    · exact ih fitted
    · rcases Fallible.bind_ok fitted with ⟨rendered, -, continued⟩
      split at continued
      · exact ih continued
      · exact fun kept member => ih continued (List.mem_cons_of_mem _ member)

theorem fitL5Groups_facts {maxGroups : Option Nat} {omitted summaryItems : Json}
    (fitted : fitL5Groups history budget window current maxGroups omitted summaryItems = .ok result) :
    (facts history).Sublist (facts result) := by
  rcases Fallible.bind_ok fitted with ⟨groups, grouped, fitted⟩
  rcases Fallible.bind_ok fitted with ⟨pinned, found, fitted⟩
  rcases Fallible.bind_ok fitted with ⟨rendered, -, fitted⟩
  split at fitted
  · cases fitted
  · rcases Fallible.bind_ok fitted with ⟨selected, chosen, finished⟩
    rcases Fallible.map_ok finished with ⟨lost, -, rfl⟩
    rw [<- (interactionGroups_ok grouped).1, facts_append]
    refine List.Sublist.trans ?_ (List.sublist_append_left _ _)
    exact facts_of_filter (fun entry member repair =>
      List.contains_iff_mem.mpr (fitGroups_subset chosen (pinned_of_repair found entry member repair)))

theorem workingHistory_facts (history : List Item) : facts (workingHistory history) = facts history := by
  rw [facts, facts, workingHistory, List.filter_filter]
  refine congrArg _ (List.filter_congr (fun item _ => ?_))
  cases hidden : isSummary item <;> simp [isFact, hidden]

/-- The summary takes the place of groups without such items. -/
theorem prepare_facts {call : CompactCall} {compaction : Compaction}
    (prepared : call.prepare = .ok (some compaction)) :
    facts compaction.working = facts call.history ∧
      (facts call.history).Sublist (facts compaction.recentHistory) := by
  rw [<- workingHistory_facts call.history]
  rcases Fallible.bind_ok prepared with ⟨window, -, prepared⟩
  rcases Fallible.bind_ok prepared with ⟨trigger, -, prepared⟩
  dsimp only at prepared
  split at prepared
  · cases prepared
  · rcases Fallible.bind_ok prepared with ⟨_, -, prepared⟩
    rcases Fallible.bind_ok prepared with ⟨_, -, prepared⟩
    rcases Fallible.bind_ok prepared with ⟨groups, grouped, prepared⟩
    rcases Fallible.bind_ok prepared with ⟨pinned, found, prepared⟩
    split at prepared
    · cases prepared
    · cases prepared
      refine ⟨rfl, ?_⟩
      rw [<- (interactionGroups_ok grouped).1]
      refine facts_of_filter (fun entry member repair => ?_)
      rw [Bool.not_eq_true', Bool.eq_false_iff]
      intro old
      have eligible := List.mem_filter.mp (List.mem_of_mem_take (List.contains_iff_mem.mp old))
      rw [List.contains_iff_mem.mpr (pinned_of_repair found entry member repair)] at eligible
      cases eligible.2

variable [Decoding] {summarizer : Option Summarizer} {cache : SummaryCache}

theorem l5AutoCompact_facts {call : CompactCall}
    (compacted : (l5AutoCompact call summarizer cache).1 = .ok result) :
    (facts call.history).Sublist (facts result) := by
  rcases l5AutoCompact_ok compacted with ⟨-, rfl⟩ | ⟨compaction, prepared, outcome⟩
  · exact List.Sublist.refl _
  · rcases prepare_facts prepared with ⟨working, recent⟩
    rcases outcome with ⟨-, rfl⟩ | ⟨refs, omittedGroups, raw, summarized⟩ | cut
    · exact List.Sublist.refl _
    · rcases Fallible.bind_ok summarized with ⟨value, -, summarized⟩
      rcases Fallible.bind_ok summarized with ⟨fitted, -, summarized⟩
      rcases Fallible.bind_ok summarized with ⟨omitted, -, summarized⟩
      rcases Fallible.bind_ok summarized with ⟨summaryItems, -, finished⟩
      exact (recent.trans (facts_cons _ _)).trans (fitL5Groups_facts finished)
    · rcases Fallible.bind_ok cut with ⟨summaryItems, -, fitted⟩
      rw [<- working]
      exact fitL5Groups_facts fitted

/-- Whenever the pipeline returns a projection, the facts of the history occur
in it as they were and in their order. -/
theorem repair_facts_kept {call : PipelineCall} {projected : List Item}
    (returned : (runCompressionPipeline call summarizer cache).1 = .ok projected) :
    (facts call.history).Sublist (facts projected) := by
  rcases runCompressionPipeline_ok returned with ⟨window, reduced, compacted, -, reduces, compacts, inserted⟩
  rcases Fallible.bind_ok reduces with ⟨-, -, guards⟩
  rcases Fallible.bind_ok guards with ⟨guarded, guards, snips⟩
  rcases Fallible.bind_ok snips with ⟨snipped, snips, stubs⟩
  rcases Fallible.bind_ok stubs with ⟨stubbed, stubs, collapses⟩
  rcases Fallible.bind_ok snips with ⟨_, -, snips⟩
  rcases Fallible.bind_ok collapses with ⟨_, -, collapses⟩
  rcases Fallible.map_ok inserted with ⟨lost, -, rfl⟩
  have first := (l0TierGuard_facts guards).trans (l1BudgetReduction_facts guarded call.budget)
  have second := first.trans (replaceTurns_facts (fun _ _ _ _ => snipTurn_spares) snips)
  have third := second.trans (l3Microcompact_facts stubs)
  have fourth := third.trans (replaceTurns_facts (fun _ _ _ _ => collapseTurn_spares) collapses)
  refine (fourth.trans (l5AutoCompact_facts compacts)).trans ?_
  cases lost with
  | none => exact List.Sublist.refl _
  | some stateText => exact facts_cons _ _

end Facts

section Witness

attribute [local instance] Rendering.spelled Decoding.emptyDict

/-- A fact between two rows of questions, most of which L5 leaves out. -/
def repairedHistory : List Item :=
  let asked := List.replicate 4 [("role", .str "user"), ("content", .str "Why does f return 1, and not 2?")]
  asked ++ [[("role", .str "system"), ("repair_state", .bool true), ("content", .str "f returns 1")]] ++ asked

theorem repaired_history_kept : ∃ projected,
    plainRun repairedHistory 200 = .ok projected ∧ (facts repairedHistory).Sublist (facts projected) := by
  rcases Fallible.returns_of_toBool (by decide +kernel : (plainRun repairedHistory 200).toBool = true)
    with ⟨projected, ran⟩
  exact ⟨projected, ran, repair_facts_kept ran⟩

end Witness

end ContextCompression
end FixLoop
