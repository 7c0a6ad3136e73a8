import Mathlib.Data.List.Nodup
import Mathlib.Tactic.Abel

namespace FixLoop
namespace Library

/-!
# Dictionaries that keep their order

A dictionary is the list of its items in the order in which their keys came
in; the key of an item is read off the item.
-/

namespace Keyed

variable {Item Key : Type} [DecidableEq Key] (keyOf : Item -> Key)

/-- `items.get(key)`. -/
def find? (key : Key) (items : List Item) : Option Item :=
  items.find? fun item => decide (keyOf item = key)

/-- `items[key] = item`: in place of the item of this key, or at the end. -/
def store (item : Item) : List Item -> List Item
  | [] => [item]
  | other :: rest => if keyOf other = keyOf item then item :: rest else other :: store item rest

/-- `{key: item for item in items}`. -/
def ofItems (items : List Item) : List Item :=
  items.foldl (fun stored item => store keyOf item stored) []

/-- `items.pop(key, None)`. -/
def without (key : Key) (items : List Item) : List Item :=
  items.filter fun item => decide (keyOf item ≠ key)

variable {keyOf}

theorem find?_nil (key : Key) : find? keyOf key [] = none := rfl

theorem find?_cons (key : Key) (item : Item) (rest : List Item) :
    find? keyOf key (item :: rest) = if keyOf item = key then some item else find? keyOf key rest := by
  by_cases here : keyOf item = key
  · simp [find?, here]
  · simp [find?, here]

theorem find?_some {key : Key} {items : List Item} {item : Item} (found : find? keyOf key items = some item) :
    item ∈ items ∧ keyOf item = key :=
  ⟨List.mem_of_find?_eq_some found,
    of_decide_eq_true (List.find?_some (p := fun item => decide (keyOf item = key)) found)⟩

variable {items : List Item}

theorem find?_none {key : Key} :
    find? keyOf key items = none <-> ∀ item ∈ items, keyOf item ≠ key := by
  simp [find?]

/-- Items that are changed in place keep their keys. -/
theorem find?_map {change : Item -> Item} (kept : ∀ item, keyOf (change item) = keyOf item) (key : Key)
    (items : List Item) : find? keyOf key (items.map change) = (find? keyOf key items).map change := by
  induction items with
  | nil => rfl
  | cons head rest ih =>
    rw [List.map_cons, find?_cons, find?_cons, kept]
    by_cases here : keyOf head = key
    · rw [if_pos here, if_pos here, Option.map_some]
    · rw [if_neg here, if_neg here, ih]

theorem find?_store_self (item : Item) (items : List Item) :
    find? keyOf (keyOf item) (store keyOf item items) = some item := by
  induction items with
  | nil => rw [store, find?_cons, if_pos rfl]
  | cons other rest ih =>
    by_cases same : keyOf other = keyOf item
    · rw [store, if_pos same, find?_cons, if_pos rfl]
    · rw [store, if_neg same, find?_cons, if_neg same, ih]

theorem find?_store_ne {key : Key} {item : Item} (apart : keyOf item ≠ key) (items : List Item) :
    find? keyOf key (store keyOf item items) = find? keyOf key items := by
  induction items with
  | nil => rw [store, find?_cons, if_neg apart]
  | cons other rest ih =>
    by_cases same : keyOf other = keyOf item
    · rw [store, if_pos same, find?_cons, if_neg apart, find?_cons, if_neg (same ▸ apart)]
    · rw [store, if_neg same, find?_cons, find?_cons, ih]

theorem mem_store {item other : Item} (member : other ∈ store keyOf item items) :
    other = item ∨ other ∈ items := by
  induction items with
  | nil => exact .inl (List.mem_singleton.mp member)
  | cons head rest ih =>
    rw [store] at member
    split at member
    · rcases List.mem_cons.mp member with same | later
      · exact .inl same
      · exact .inr (List.mem_cons_of_mem _ later)
    · rcases List.mem_cons.mp member with same | later
      · exact .inr (List.mem_cons.mpr (.inl same))
      · exact (ih later).imp_right (List.mem_cons_of_mem _)

/-! ## Distinct keys -/

abbrev Distinct (keyOf : Item -> Key) (items : List Item) : Prop := (items.map keyOf).Nodup

theorem find?_of_mem {items : List Item} (distinct : Distinct keyOf items) {item : Item}
    (member : item ∈ items) : find? keyOf (keyOf item) items = some item := by
  induction items with
  | nil => cases member
  | cons head rest ih =>
    have parts := List.nodup_cons.mp distinct
    rw [find?_cons]
    rcases List.mem_cons.mp member with rfl | later
    · rw [if_pos rfl]
    · have apart : keyOf head ≠ keyOf item := by
        intro same
        exact parts.1 (same ▸ List.mem_map_of_mem later)
      rw [if_neg apart, ih parts.2 later]

theorem store_of_missing {item : Item} {items : List Item}
    (missing : find? keyOf (keyOf item) items = none) : store keyOf item items = items ++ [item] := by
  induction items with
  | nil => rfl
  | cons head rest ih =>
    have apart := find?_none.mp missing head List.mem_cons_self
    rw [find?_cons, if_neg apart] at missing
    rw [store, if_neg apart, ih missing, List.cons_append]

theorem keys_store (item : Item) (items : List Item) :
    (store keyOf item items).map keyOf = items.map keyOf ∨
      keyOf item ∉ items.map keyOf ∧
        (store keyOf item items).map keyOf = items.map keyOf ++ [keyOf item] := by
  induction items with
  | nil => exact .inr ⟨List.not_mem_nil, rfl⟩
  | cons head rest ih =>
    by_cases same : keyOf head = keyOf item
    · refine .inl ?_
      rw [store, if_pos same, List.map_cons, List.map_cons, same]
    · rw [store, if_neg same, List.map_cons, List.map_cons]
      rcases ih with kept | ⟨missing, added⟩
      · exact .inl (by rw [kept])
      · refine .inr ⟨?_, by rw [added, List.cons_append]⟩
        intro member
        rcases List.mem_cons.mp member with here | later
        · exact same here.symm
        · exact missing later

theorem distinct_store (item : Item) (distinct : Distinct keyOf items) :
    Distinct keyOf (store keyOf item items) := by
  rcases @keys_store Item Key _ keyOf item items with kept | ⟨missing, added⟩
  · rw [Distinct, kept]
    exact distinct
  · rw [Distinct, added]
    refine List.nodup_append.mpr ⟨distinct, List.nodup_singleton _, ?_⟩
    intro first here second there same
    exact missing ((List.mem_singleton.mp there) ▸ same ▸ here)

omit [DecidableEq Key] in
theorem distinct_filter (kept : Item -> Bool) (distinct : Distinct keyOf items) :
    Distinct keyOf (items.filter kept) :=
  distinct.sublist (List.filter_sublist.map keyOf)

theorem distinct_foldl_store (added : List Item) (distinct : Distinct keyOf items) :
    Distinct keyOf (added.foldl (fun stored item => store keyOf item stored) items) := by
  induction added generalizing items with
  | nil => exact distinct
  | cons item rest ih => exact ih (distinct_store item distinct)

theorem distinct_ofItems (items : List Item) : Distinct keyOf (ofItems keyOf items) :=
  distinct_foldl_store items List.nodup_nil

theorem mem_ofItems {item : Item} (member : item ∈ ofItems keyOf items) : item ∈ items := by
  suffices general : ∀ added stored : List Item,
      item ∈ added.foldl (fun stored item => store keyOf item stored) stored ->
        item ∈ stored ∨ item ∈ added by
    rcases general items [] member with nothing | listed
    · cases nothing
    · exact listed
  intro added
  induction added with
  | nil => exact fun stored member => .inl member
  | cons head rest ih =>
    intro stored member
    rcases ih _ member with here | later
    · rcases mem_store here with same | old
      · exact .inr (List.mem_cons.mpr (.inl same))
      · exact .inl old
    · exact .inr (List.mem_cons_of_mem _ later)

/-- Items of new keys come to the end. -/
theorem foldl_store_of_distinct (added : List Item) {stored : List Item} (apart : Distinct keyOf (stored ++ added)) :
    added.foldl (fun stored item => store keyOf item stored) stored = stored ++ added := by
  induction added generalizing stored with
  | nil => exact (List.append_nil stored).symm
  | cons head rest ih =>
    have missing : find? keyOf (keyOf head) stored = none := by
      refine find?_none.mpr fun item member same => ?_
      rw [Distinct, List.map_append, List.map_cons] at apart
      exact List.disjoint_of_nodup_append apart (List.mem_map_of_mem member)
        (same ▸ List.mem_cons_self)
    rw [List.foldl_cons, store_of_missing missing,
      ih (by rwa [List.append_assoc, List.singleton_append]), List.append_assoc, List.singleton_append]

/-- A dictionary is rebuilt from its own items. -/
theorem ofItems_of_distinct (distinct : Distinct keyOf items) :
    ofItems keyOf items = items := foldl_store_of_distinct items distinct

/-- What is found among the kept items of a dictionary. -/
theorem find?_filter (kept : Item -> Bool) (distinct : Distinct keyOf items) (key : Key) :
    find? keyOf key (items.filter kept) = (find? keyOf key items).filter kept := by
  induction items with
  | nil => rfl
  | cons head rest ih =>
    have parts := List.nodup_cons.mp distinct
    rw [find?_cons]
    by_cases here : keyOf head = key
    · have missing : find? keyOf key rest = none :=
        find?_none.mpr fun item member same => parts.1 (here.trans same.symm ▸ List.mem_map_of_mem member)
      rw [if_pos here]
      by_cases stays : kept head = true
      · rw [List.filter_cons_of_pos stays, find?_cons, if_pos here, Option.filter_some_pos stays]
      · rw [List.filter_cons_of_neg stays, ih parts.2, missing,
          Option.filter_some_neg (eq_false_of_ne_true stays)]
        rfl
    · rw [if_neg here]
      by_cases stays : kept head = true
      · rw [List.filter_cons_of_pos stays, find?_cons, if_neg here, ih parts.2]
      · rw [List.filter_cons_of_neg stays, ih parts.2]

section Sums

variable {Amount : Type} [AddCommGroup Amount] (weight : Item -> Amount)

theorem sum_store (item : Item) (items : List Item) :
    ((store keyOf item items).map weight).sum =
      (items.map weight).sum - ((find? keyOf (keyOf item) items).map weight).getD 0 + weight item := by
  induction items with
  | nil =>
    rw [store, find?_nil, List.map_singleton, List.sum_singleton, List.map_nil, List.sum_nil, Option.map_none,
      Option.getD_none, sub_zero, zero_add]
  | cons head rest ih =>
    rw [store, find?_cons]
    by_cases same : keyOf head = keyOf item
    · rw [if_pos same, if_pos same, List.map_cons, List.sum_cons, List.map_cons, List.sum_cons, Option.map_some,
        Option.getD_some]
      abel
    · rw [if_neg same, if_neg same, List.map_cons, List.sum_cons, List.map_cons, List.sum_cons, ih]
      abel

end Sums

end Keyed

end Library
end FixLoop
