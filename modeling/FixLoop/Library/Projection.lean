import Mathlib.Data.Prod.Lex
import Mathlib.Data.List.Induction
import FixLoop.Library.Keyed
import FixLoop.Library.Sorting

namespace FixLoop
namespace Library
namespace Projection

/-!
# Dictionaries built from a log of events

Every event of the log concerns at most one key and changes the value there,
which is put in on the first event of the key.  What is stored under a key
then depends on the events of that key only, in their order.
-/

variable {Event Key Value : Type} [DecidableEq Key]

def lookup (key : Key) (stored : List (Key × Value)) : Option Value := (Keyed.find? Prod.fst key stored).map Prod.snd

/-- `stored.setdefault(key, initial)`, with what is there then changed. -/
def upsert (key : Key) (initial : Value) (change : Value -> Value) (stored : List (Key × Value)) :
    List (Key × Value) :=
  Keyed.store Prod.fst (key, change ((lookup key stored).getD initial)) stored

abbrev Distinct (stored : List (Key × Value)) : Prop := Keyed.Distinct Prod.fst stored

theorem lookup_upsert_self (key : Key) (initial : Value) (change : Value -> Value) (stored : List (Key × Value)) :
    lookup key (upsert key initial change stored) = some (change ((lookup key stored).getD initial)) := by
  have found := @Keyed.find?_store_self (Key × Value) Key _ Prod.fst (key, change ((lookup key stored).getD initial)) stored
  rw [lookup, upsert, found]
  rfl

theorem lookup_upsert_ne {key other : Key} (apart : other ≠ key) (initial : Value) (change : Value -> Value)
    (stored : List (Key × Value)) : lookup other (upsert key initial change stored) = lookup other stored := by
  rw [lookup, upsert, Keyed.find?_store_ne fun same => apart same.symm]
  rfl

variable {stored : List (Key × Value)}

theorem distinct_upsert (key : Key) (initial : Value) (change : Value -> Value) (distinct : Distinct stored) :
    Distinct (upsert key initial change stored) :=
  Keyed.distinct_store _ distinct

theorem mem_iff_lookup (distinct : Distinct stored) (key : Key) (value : Value) :
    (key, value) ∈ stored <-> lookup key stored = some value := by
  constructor
  · intro member
    rw [lookup, Keyed.find?_of_mem distinct member]
    rfl
  · intro found
    obtain ⟨item, here, same⟩ := Option.map_eq_some_iff.mp found
    obtain ⟨member, key_eq⟩ := Keyed.find?_some here
    rw [← key_eq, ← same]
    exact member

/-- Dictionaries with the same values have the same items. -/
theorem perm_of_lookup {first second : List (Key × Value)} (firstDistinct : Distinct first)
    (secondDistinct : Distinct second) (same : ∀ key, lookup key first = lookup key second) :
    first.Perm second := by
  apply (List.perm_ext_iff_of_nodup firstDistinct.of_map secondDistinct.of_map).mpr
  rintro ⟨key, value⟩
  rw [mem_iff_lookup firstDistinct, mem_iff_lookup secondDistinct, same]

theorem lookup_map {Other : Type} (read : Value -> Other) (key : Key) (stored : List (Key × Value)) :
    lookup key (stored.map fun item => (item.1, read item.2)) = (lookup key stored).map read := by
  induction stored with
  | nil => rfl
  | cons head rest ih =>
    rw [lookup, lookup, List.map_cons, Keyed.find?_cons, Keyed.find?_cons]
    split_ifs
    · rfl
    · exact ih

theorem upsert_of_fixed {key : Key} {value : Value} (found : lookup key stored = some value)
    (initial : Value) {change : Value -> Value} (fixed : change value = value) :
    upsert key initial change stored = stored := by
  rw [upsert, found, Option.getD_some, fixed]
  rw [lookup] at found
  induction stored with
  | nil => simp [Keyed.find?_nil] at found
  | cons head rest ih =>
    rw [Keyed.find?_cons] at found
    rw [Keyed.store]
    by_cases here : head.1 = key
    · rw [if_pos here] at found ⊢
      have same : (key, value) = head := Prod.ext here.symm (Option.some.inj found).symm
      rw [same]
    · rw [if_neg here] at found ⊢
      rw [ih found]

section Log

variable (keyOf : Event -> Option Key) (initial : Value) (change : Event -> Value -> Value)

def record (stored : List (Key × Value)) (event : Event) : List (Key × Value) :=
  match keyOf event with
  | none => stored
  | some key => upsert key initial (change event) stored

def ofLog (events : List Event) : List (Key × Value) := events.foldl (record keyOf initial change) []

/-- The events that concern a key. -/
def about (key : Key) (events : List Event) : List Event := events.filter fun event => decide (keyOf event = some key)

def value (events : List Event) : Value := events.foldl (fun value event => change event value) initial

variable {keyOf initial change}

variable (events : List Event) {event : Event}

theorem ofLog_append_singleton (event : Event) :
    ofLog keyOf initial change (events ++ [event]) = record keyOf initial change (ofLog keyOf initial change events) event := by
  rw [ofLog, List.foldl_append]
  rfl

theorem value_append_singleton (event : Event) :
    value initial change (events ++ [event]) = change event (value initial change events) := by
  rw [value, List.foldl_append]
  rfl

theorem about_append (key : Key) (first second : List Event) :
    about keyOf key (first ++ second) = about keyOf key first ++ about keyOf key second := List.filter_append ..

theorem mem_about {key : Key} {events : List Event} :
    event ∈ about keyOf key events <-> event ∈ events ∧ keyOf event = some key := by
  simp [about]

theorem distinct_ofLog : Distinct (ofLog keyOf initial change events) := by
  induction events using List.reverseRecOn with
  | nil => exact List.nodup_nil
  | append_singleton events event ih =>
    rw [ofLog_append_singleton, record]
    cases keyOf event with
    | none => exact ih
    | some key => exact distinct_upsert key initial (change event) ih

/-- Under a key stands what its own events leave. -/
theorem lookup_ofLog (key : Key) (events : List Event) :
    lookup key (ofLog keyOf initial change events) =
      if about keyOf key events = [] then none else some (value initial change (about keyOf key events)) := by
  induction events using List.reverseRecOn with
  | nil => rfl
  | append_singleton events event ih =>
    rw [ofLog_append_singleton, about_append, record]
    cases concerns : keyOf event with
    | none =>
      have elsewhere : about keyOf key [event] = [] := List.filter_cons_of_neg (by simp [concerns])
      rw [elsewhere, List.append_nil]
      exact ih
    | some own =>
      by_cases same : own = key
      · subst same
        have here : about keyOf own [event] = [event] := List.filter_cons_of_pos (by simp [concerns])
        rw [here, if_neg (List.append_ne_nil_of_right_ne_nil _ (List.cons_ne_nil _ _)), value_append_singleton]
        simp only [lookup_upsert_self, ih]
        by_cases first : about keyOf own events = []
        · rw [if_pos first, first]
          rfl
        · rw [if_neg first]
          rfl
      · have elsewhere : about keyOf key [event] = [] := List.filter_cons_of_neg (by simp [concerns, same])
        rw [elsewhere, List.append_nil, ← ih]
        exact lookup_upsert_ne (fun equal => same equal.symm) initial (change event) _

/-- What every event of a key leaves there for good holds of the value in the
end. -/
theorem value_of_mem (holds : Event -> Value -> Prop)
    (made : ∀ event value, holds event (change event value))
    (kept : ∀ event other value, holds event value -> holds event (change other value))
    {events : List Event} (member : event ∈ events) : holds event (value initial change events) := by
  induction events using List.reverseRecOn with
  | nil => cases member
  | append_singleton events last ih =>
    rw [value_append_singleton]
    rcases List.mem_append.mp member with earlier | here
    · exact kept event last _ (ih earlier)
    · rw [List.mem_singleton.mp here]
      exact made last _

/-- An event that its key has already seen and that changes nothing there does
nothing. -/
theorem record_of_fixed {events : List Event}
    (fixed : ∀ key, keyOf event = some key -> about keyOf key events ≠ [] ∧ change event (value initial change (about keyOf key events)) = value initial change (about keyOf key events)) :
    record keyOf initial change (ofLog keyOf initial change events) event = ofLog keyOf initial change events := by
  rw [record]
  cases concerns : keyOf event with
  | none => rfl
  | some key =>
    obtain ⟨seen, same⟩ := fixed key concerns
    apply upsert_of_fixed _ initial same
    rw [lookup_ofLog, if_neg seen]

end Log

section Sorted

variable {Rank : Type} [LinearOrder Rank] (rank : Key -> Rank)

/-- The items by the order of their keys. -/
def sorted (stored : List (Key × Value)) : List (Key × Value) :=
  stored.mergeSort fun first second => decide (rank first.1 ≤ rank second.1)

/-- The sorted items depend on what is stored under each key only. -/
theorem sorted_of_lookup (injective : Function.Injective rank) {first second : List (Key × Value)}
    (firstDistinct : Distinct first) (secondDistinct : Distinct second)
    (same : ∀ key, lookup key first = lookup key second) : sorted rank first = sorted rank second := by
  apply Sorting.sorted_congr (fun item : Key × Value => rank item.1) _
    (perm_of_lookup firstDistinct secondDistinct same)
  have distinct := firstDistinct.map injective
  rwa [List.map_map] at distinct

end Sorted

end Projection
end Library
end FixLoop
