import Mathlib.Data.List.Nodup
import Mathlib.Order.Defs.PartialOrder

namespace FixLoop
namespace Library

universe u v w

/-!
# Batches of updates

A batch gives values to keys one after another.  When it gives each key one
value at most, what a key has at some point of the batch depends on whether its
update has been made, and in a batch that is sorted by a measure this is read
off the measure.
-/

namespace Updates

variable {Key : Type u} {Value : Type v} {Update : Type w} [DecidableEq Key]
  (keyOf : Update -> Key) (valueOf : Update -> Value)

/-- The values after a batch of updates. -/
def made (values : Key -> Value) (updates : List Update) : Key -> Value :=
  updates.foldl (fun values update => Function.update values (keyOf update) (valueOf update)) values

variable {keyOf valueOf} {values : Key -> Value} {updates : List Update}

theorem made_append (first second : List Update) :
    made keyOf valueOf values (first ++ second) =
      made keyOf valueOf (made keyOf valueOf values first) second :=
  List.foldl_append

theorem made_of_notMem {key : Key} (missing : key ∉ updates.map keyOf) :
    made keyOf valueOf values updates key = values key := by
  induction updates generalizing values with
  | nil => rfl
  | cons update rest ih =>
    rw [List.map_cons, List.mem_cons, not_or] at missing
    change made keyOf valueOf (Function.update values (keyOf update) (valueOf update)) rest key = values key
    rw [ih missing.2, Function.update_of_ne missing.1]

theorem made_of_mem (distinct : (updates.map keyOf).Nodup) {update : Update} (member : update ∈ updates) :
    made keyOf valueOf values updates (keyOf update) = valueOf update := by
  induction updates generalizing values with
  | nil => exact absurd member List.not_mem_nil
  | cons first rest ih =>
    rw [List.map_cons, List.nodup_cons] at distinct
    change made keyOf valueOf (Function.update values (keyOf first) (valueOf first)) rest _ = _
    rcases List.mem_cons.mp member with rfl | later
    · rw [made_of_notMem distinct.1, Function.update_self]
    · exact ih distinct.2 later

/-- Each update of the batch is made in a state that is ready for it. -/
def Admits (keyOf : Update -> Key) (valueOf : Update -> Value) (Ready : (Key -> Value) -> Update -> Prop)
    (values : Key -> Value) (updates : List Update) : Prop :=
  ∀ before update after, updates = before ++ update :: after ->
    Ready (made keyOf valueOf values before) update

variable {Ready : (Key -> Value) -> Update -> Prop}

theorem Admits.append {first second : List Update} (earlier : Admits keyOf valueOf Ready values first)
    (later : Admits keyOf valueOf Ready (made keyOf valueOf values first) second) :
    Admits keyOf valueOf Ready values (first ++ second) := by
  intro before update after split
  rcases List.append_eq_append_iff.mp split with ⟨middle, rfl, same⟩ | ⟨middle, rfl, same⟩
  · rw [made_append]
    exact later middle update after same
  · cases middle with
    | nil =>
      rw [List.append_nil] at later
      exact later [] update after same.symm
    | cons head rest =>
      cases same
      exact earlier before update rest rfl

section Sorted

variable {Rank : Type w} [Preorder Rank] {before after : List Update} {update : Update}

/-- A key whose updates all have a lower rank has its last value. -/
theorem made_lower (rank : Update -> Rank)
    (sorted : (before ++ update :: after).Pairwise fun first second => rank first ≤ rank second)
    {key : Key} (lower : ∀ other, other ∈ before ++ update :: after -> keyOf other = key ->
      rank other < rank update) :
    made keyOf valueOf values before key = made keyOf valueOf values (before ++ update :: after) key := by
  rw [made_append]
  refine (made_of_notMem ?_).symm
  intro member
  rcases List.mem_map.mp member with ⟨other, inside, same⟩
  have less := lower other (List.mem_append_right _ inside) same
  have order := List.pairwise_cons.mp (List.pairwise_append.mp sorted).2.1
  rcases List.mem_cons.mp inside with rfl | later
  · exact lt_irrefl _ less
  · exact not_lt_of_ge (order.1 other later) less

/-- A key whose updates all have a higher rank has its first value. -/
theorem made_higher (rank : Update -> Rank)
    (sorted : (before ++ update :: after).Pairwise fun first second => rank first ≤ rank second)
    {key : Key} (higher : ∀ other, other ∈ before ++ update :: after -> keyOf other = key ->
      rank update < rank other) :
    made keyOf valueOf values before key = values key := by
  apply made_of_notMem
  intro member
  rcases List.mem_map.mp member with ⟨other, inside, same⟩
  have order := (List.pairwise_append.mp sorted).2.2 other inside update List.mem_cons_self
  exact absurd (higher other (List.mem_append_left _ inside) same) (not_lt_of_ge order)

/-- The key of an update has its first value when the update is made. -/
theorem made_self (distinct : ((before ++ update :: after).map keyOf).Nodup) :
    made keyOf valueOf values before (keyOf update) = values (keyOf update) := by
  apply made_of_notMem
  rw [List.map_append, List.map_cons] at distinct
  intro member
  exact (List.nodup_append.mp distinct).2.2 _ member _ List.mem_cons_self rfl

end Sorted

section Chosen

variable {keys : List Key} {choose : Key -> Option Update}

omit [DecidableEq Key] in
theorem mem_chosen (keyed : ∀ key update, choose key = some update -> keyOf update = key)
    (order : updates.Perm (keys.filterMap choose)) {update : Update} :
    update ∈ updates <-> keyOf update ∈ keys ∧ choose (keyOf update) = some update := by
  rw [order.mem_iff, List.mem_filterMap]
  constructor
  · rintro ⟨key, member, chosen⟩
    have same := keyed key update chosen
    subst same
    exact ⟨member, chosen⟩
  · rintro ⟨member, chosen⟩
    exact ⟨keyOf update, member, chosen⟩

omit [DecidableEq Key] in
theorem distinct_chosen (keyed : ∀ key update, choose key = some update -> keyOf update = key)
    (unique : keys.Nodup) (order : updates.Perm (keys.filterMap choose)) : (updates.map keyOf).Nodup := by
  refine (order.map keyOf).nodup_iff.mpr ?_
  clear order
  induction keys with
  | nil => exact .nil
  | cons key rest ih =>
    rw [List.nodup_cons] at unique
    rw [List.filterMap_cons]
    cases chosen : choose key with
    | none => exact ih unique.2
    | some update =>
      refine List.nodup_cons.mpr ⟨?_, ih unique.2⟩
      rw [keyed key update chosen]
      intro member
      rcases List.mem_map.mp member with ⟨other, inside, same⟩
      rcases List.mem_filterMap.mp inside with ⟨name, listed, also⟩
      rw [keyed name other also] at same
      exact unique.1 (same ▸ listed)

theorem made_chosen (keyed : ∀ key update, choose key = some update -> keyOf update = key)
    (unique : keys.Nodup) (order : updates.Perm (keys.filterMap choose)) {key : Key}
    (covers : choose key ≠ none -> key ∈ keys) :
    made keyOf valueOf values updates key = ((choose key).map valueOf).getD (values key) := by
  cases chosen : choose key with
  | none =>
    refine made_of_notMem ?_
    intro member
    rcases List.mem_map.mp member with ⟨update, inside, rfl⟩
    rw [((mem_chosen keyed order).mp inside).2] at chosen
    cases chosen
  | some update =>
    have same := keyed key update chosen
    subst same
    have listed : keyOf update ∈ keys := covers (by rw [chosen]; exact Option.some_ne_none update)
    exact made_of_mem (distinct_chosen keyed unique order) ((mem_chosen keyed order).mpr ⟨listed, chosen⟩)

end Chosen

end Updates

end Library
end FixLoop
