import FixLoop.Library.Double
import FixLoop.Library.JsonText
import FixLoop.Library.Keyed

namespace FixLoop
namespace Library

/-!
# Reading values of any kind

The constructors `str`, `int`, `float`, `dict` and `list` applied to a value
of any kind, and the default that `value or default` falls back to.
-/

/-- What the constructors make of a value whose text is not modelled.
`integer` and `decimal` read a number from a text; the texts of numbers that
are not finite count as refused. -/
class Builtins where
  text : Value -> String
  integer : String -> Option Int
  decimal : String -> Option ℚ

/-- The errors of the constructors; a `ValueError` with its text. -/
inductive CoercionError where
  | type
  | value (text : String)
  | overflow

namespace Key

def toValue : Key -> Value
  | str value => .str value
  | int value => .int value
  | float value => .float value
  | bool value => .bool value
  | null => .null

/-- Equality of keys, under which the three kinds of number compare by value. -/
def same (first second : Key) : Bool :=
  match first.number?, second.number? with
  | some left, some right => left == right
  | _, _ => decide (first = second)

end Key

namespace Value

/-- `value.get(key)` of a dictionary. -/
def get? (members : List (Key × Value)) (key : String) : Option Value :=
  (members.find? fun member => decide (member.1 = .str key)).map Prod.snd

def truthy : Value -> Bool
  | null => false
  | bool value => value
  | int value => value != 0
  | float value => value != 0
  | str value => value != ""
  | list items => !items.isEmpty
  | tuple items => !items.isEmpty
  | dict members => !members.isEmpty

/-- `value or default`, with a missing value for one that counts as false. -/
def given : Option Value -> Option Value
  | some value => if value.truthy then some value else none
  | none => none

section Constructors

variable [Builtins]

/-- `str(value)`. -/
def toStr : Value -> String
  | str value => value
  | value => Builtins.text value

/-- `int(value)`. -/
def toInt : Value -> Except CoercionError Int
  | bool value => .ok (if value then 1 else 0)
  | int value => .ok value
  | float value => .ok (Double.truncate value)
  | str value => (Builtins.integer value).elim (.error (.value "invalid literal for int()")) .ok
  | _ => .error .type

/-- `float(value)`. -/
def toFloat : Value -> Except CoercionError ℚ
  | bool value => .ok (if value then 1 else 0)
  | int value => (Double.round value).elim (.error .overflow) .ok
  | float value => .ok value
  | str value => (Builtins.decimal value).elim (.error (.value "could not convert string to float")) .ok
  | _ => .error .type

end Constructors

/-- The value as a key; lists and dictionaries cannot be keys, and a tuple as a
key cannot be written as JSON. -/
def toKey : Value -> Except CoercionError Key
  | null => .ok .null
  | bool value => .ok (.bool value)
  | int value => .ok (.int value)
  | float value => .ok (.float value)
  | str value => .ok (.str value)
  | _ => .error .type

/-- `list(value)`. -/
def toList : Value -> Except CoercionError (List Value)
  | str value => .ok (value.toList.map fun char => .str (String.singleton char))
  | list items => .ok items
  | tuple items => .ok items
  | dict members => .ok (members.map fun member => member.1.toValue)
  | _ => .error .type

/-- `dict[key] = value`: the key that was there first stays. -/
def enter (key : Key) (value : Value) : List (Key × Value) -> List (Key × Value)
  | [] => [(key, value)]
  | member :: rest => if member.1.same key then (member.1, value) :: rest else member :: enter key value rest

/-- The two items of a pair. -/
def toPair (value : Value) : Except CoercionError (Key × Value) := do
  match <- value.toList with
  | [first, second] => do
      let key <- first.toKey
      .ok (key, second)
  | _ => .error (.value "dictionary update sequence element has a wrong length")

/-- `dict(value)`. -/
def toDict : Value -> Except CoercionError (List (Key × Value))
  | dict members => .ok members
  | value => do
      let pairs <- (<- value.toList).mapM toPair
      .ok (pairs.foldl (fun members pair => enter pair.1 pair.2 members) [])

end Value

/-!
# Records written as dictionaries

A record is written as a dictionary with texts as keys.  Reading it back finds
under each key what was written there, and two records with one sorted text
have the same text under each key.
-/

section Writing

variable (spell : ℚ -> String)

namespace Value

mutual

/-- `json.dumps` with the members in their order. -/
def write : Value -> Json
  | null => .null
  | bool value => .bool value
  | int value => .int value
  | float value => .float value
  | str value => .str value
  | list items => .arr (writeItems items)
  | tuple items => .arr (writeItems items)
  | dict members => .obj (writeMembers members)

def writeItems : List Value -> List Json
  | [] => []
  | item :: rest => write item :: writeItems rest

def writeMembers : List (Key × Value) -> List (String × Json)
  | [] => []
  | (key, item) :: rest => (key.text spell, write item) :: writeMembers rest

end

end Value

mutual

theorem Json.write_toValue : (tree : Json) -> tree.toValue.write spell = tree
  | .null => rfl
  | .bool _ => rfl
  | .int _ => rfl
  | .float _ => rfl
  | .str _ => rfl
  | .arr items => congrArg Json.arr (Json.write_itemsToValue items)
  | .obj members => congrArg Json.obj (Json.write_membersToValue members)

theorem Json.write_itemsToValue : (items : List Json) -> Value.writeItems spell (Json.itemsToValue items) = items
  | [] => rfl
  | item :: rest => congrArg₂ List.cons (Json.write_toValue item) (Json.write_itemsToValue rest)

theorem Json.write_membersToValue : (members : List (String × Json)) ->
    Value.writeMembers spell (Json.membersToValue members) = members
  | [] => rfl
  | (key, item) :: rest =>
    congrArg₂ List.cons (congrArg (Prod.mk key) (Json.write_toValue item)) (Json.write_membersToValue rest)

end

/-- The dictionary that is read from the text of a written one. -/
def Value.reloaded (members : List (Key × Value)) : List (Key × Value) :=
  Json.membersToValue
    ((Json.loadsMembers (Value.writeMembers spell members)).foldl (fun dict member => enterMember member dict) [])

end Writing

/-! ## Reading a record back -/

variable {Item : Type} {members : List (Key × Value)} {spell : ℚ -> String}

theorem find?_enterMember_self (member : String × Item) (dict : List (String × Item)) :
    (enterMember member dict).find? (fun entry => entry.1 == member.1) = some member := by
  induction dict with
  | nil => simp [enterMember]
  | cons first rest ih =>
    rw [enterMember]
    split_ifs with before same
    · simp
    · simp
    · rw [List.find?_cons_of_neg (by simpa using fun equal : first.1 = member.1 => same equal.symm), ih]

variable {member : String × Item} {value : Value} {trees : List (Key × Json)}

theorem find?_enterMember_ne {key : String} (apart : member.1 ≠ key) (dict : List (String × Item)) :
    (enterMember member dict).find? (fun entry => entry.1 == key) = dict.find? (fun entry => entry.1 == key) := by
  induction dict with
  | nil => simp [enterMember, apart]
  | cons first rest ih =>
    rw [enterMember]
    split_ifs with before same
    · rw [List.find?_cons_of_neg (by simpa using apart)]
    · have other : first.1 ≠ key := same ▸ apart
      rw [List.find?_cons_of_neg (by simpa using apart), List.find?_cons_of_neg (by simpa using other)]
    · rw [List.find?_cons, List.find?_cons, ih]

/-- The last member of a key is found; of distinct keys, the only one. -/
theorem find?_foldl_enterMember {members : List (String × Item)} (distinct : (members.map Prod.fst).Nodup)
    (listed : member ∈ members) (dict : List (String × Item)) :
    (members.foldl (fun dict member => enterMember member dict) dict).find? (fun entry => entry.1 == member.1) =
      some member := by
  have untouched : ∀ (rest : List (String × Item)) (dict : List (String × Item)), member.1 ∉ rest.map Prod.fst ->
      (rest.foldl (fun dict member => enterMember member dict) dict).find? (fun entry => entry.1 == member.1) =
        dict.find? (fun entry => entry.1 == member.1) := by
    intro rest
    induction rest with
    | nil => exact fun _ _ => rfl
    | cons other rest ih =>
      intro dict absent
      rw [List.foldl_cons, ih _ (fun later => absent (List.mem_cons_of_mem _ later)), find?_enterMember_ne]
      exact fun same => absent (same ▸ List.mem_cons_self)
  induction members generalizing dict with
  | nil => cases listed
  | cons first rest ih =>
    have parts := List.nodup_cons.mp distinct
    rw [List.foldl_cons]
    rcases List.mem_cons.mp listed with rfl | later
    · rw [untouched rest _ parts.1, find?_enterMember_self]
    · exact ih parts.2 later _

theorem get?_membersToValue (members : List (String × Json)) (key : String) :
    Value.get? (Json.membersToValue members) key =
      (members.find? fun entry => entry.1 == key).map (fun entry => entry.2.toValue) := by
  induction members with
  | nil => rfl
  | cons first rest ih =>
    rw [Json.membersToValue, Value.get?]
    by_cases here : first.1 = key
    · simp [here]
    · simp only [Value.get?] at ih
      simp [here, ih]

theorem writeMembers_eq_map (spell : ℚ -> String) (members : List (Key × Value)) :
    Value.writeMembers spell members = members.map (fun member => (member.1.text spell, member.2.write spell)) := by
  induction members with
  | nil => rfl
  | cons first rest ih => rw [Value.writeMembers, ih, List.map_cons]

theorem loadsMembers_eq_map (members : List (String × Json)) :
    Json.loadsMembers members = members.map (fun member => (member.1, member.2.loads)) := by
  induction members with
  | nil => rfl
  | cons first rest ih => rw [Json.loadsMembers, ih, List.map_cons]

/-- Under each key stands what was written there, read back. -/
theorem get?_reloaded (spell : ℚ -> String)
    (distinct : (members.map fun member => member.1.text spell).Nodup) {key : String}
    (listed : (Key.str key, value) ∈ members) :
    Value.get? (Value.reloaded spell members) key = some ((value.write spell).loads).toValue := by
  rw [Value.reloaded, get?_membersToValue, writeMembers_eq_map, loadsMembers_eq_map, List.map_map]
  have member := List.mem_map_of_mem (f := (fun member : String × Json => (member.1, member.2.loads)) ∘
    fun member : Key × Value => (member.1.text spell, member.2.write spell)) listed
  have found := find?_foldl_enterMember (by rw [List.map_map]; exact distinct) member []
  exact congrArg (Option.map fun entry => entry.2.toValue) found

/-! ## Two records with one text -/

theorem mem_of_dumpsMembers (encoded : Value.dumpsMembers spell members = some trees) {key : Key}
    (listed : (key, value) ∈ members) :
    ∃ tree, value.dumps spell = some tree ∧ (key, tree) ∈ trees := by
  induction members generalizing trees with
  | nil => cases listed
  | cons first rest ih =>
    rw [Value.dumpsMembers] at encoded
    obtain ⟨tree, here, encoded⟩ := Option.bind_eq_some_iff.mp encoded
    obtain ⟨later, others, same⟩ := Option.map_eq_some_iff.mp encoded
    subst same
    rcases List.mem_cons.mp listed with same | after
    · cases same
      exact ⟨tree, here, List.mem_cons_self⟩
    · obtain ⟨found, dumped, member⟩ := ih others after
      exact ⟨found, dumped, List.mem_cons_of_mem _ member⟩

theorem keys_of_dumpsMembers (encoded : Value.dumpsMembers spell members = some trees) :
    trees.map Prod.fst = members.map Prod.fst := by
  induction members generalizing trees with
  | nil =>
    cases encoded
    rfl
  | cons first rest ih =>
    rw [Value.dumpsMembers] at encoded
    obtain ⟨tree, here, encoded⟩ := Option.bind_eq_some_iff.mp encoded
    obtain ⟨later, others, same⟩ := Option.map_eq_some_iff.mp encoded
    subst same
    rw [List.map_cons, List.map_cons, ih others]

theorem perm_sortMembers {members sorted : List (Key × Item)} (sorts : sortMembers members = some sorted) :
    sorted.Perm members := by
  rw [sortMembers] at sorts
  split_ifs at sorts
  rw [← Option.some.inj sorts]
  exact List.perm_insertionSort _ _

/-- What stands under the keys of a dictionary that was encoded. -/
theorem dumps_dict {tree : Json} (encoded : (Value.dict members).dumps spell = some tree) :
    ∃ written, tree = .obj written ∧
      (∀ key value, (key, value) ∈ members -> ∃ item,
        value.dumps spell = some item ∧ (key.text spell, item) ∈ written) ∧
      (written.map Prod.fst).Perm (members.map fun member => member.1.text spell) := by
  rw [Value.dumps] at encoded
  obtain ⟨sorted, sorts, same⟩ := Option.map_eq_some_iff.mp encoded
  obtain ⟨trees, dumped, sorts⟩ := Option.bind_eq_some_iff.mp sorts
  have perm := perm_sortMembers sorts
  refine ⟨_, same.symm, ?_, ?_⟩
  · intro key value listed
    obtain ⟨item, here, member⟩ := mem_of_dumpsMembers dumped listed
    exact ⟨item, here, List.mem_map.mpr ⟨(key, item), perm.symm.subset member, rfl⟩⟩
  · have keys : trees.map (fun entry => entry.1.text spell) = members.map (fun member => member.1.text spell) := by
      have same := congrArg (List.map (Key.text spell)) (keys_of_dumpsMembers dumped)
      rwa [List.map_map, List.map_map] at same
    rw [List.map_map, ← keys]
    exact perm.map _

theorem dumps_dict_isSome
    (each : ∀ member ∈ members, member.1.text?.isSome = true ∧ (member.2.dumps spell).isSome = true) :
    ((Value.dict members).dumps spell).isSome = true := by
  have encoded : ∃ trees, Value.dumpsMembers spell members = some trees := by
    induction members with
    | nil => exact ⟨[], rfl⟩
    | cons first rest ih =>
      obtain ⟨tree, here⟩ := Option.isSome_iff_exists.mp (each first List.mem_cons_self).2
      obtain ⟨trees, later⟩ := ih fun member listed => each member (List.mem_cons_of_mem _ listed)
      exact ⟨(first.1, tree) :: trees, by rw [Value.dumpsMembers, here, Option.bind_some, later, Option.map_some]⟩
  obtain ⟨trees, encoded⟩ := encoded
  have texts : ∀ entry ∈ trees, entry.1.text?.isSome = true := by
    intro entry listed
    have key := List.mem_map_of_mem (f := Prod.fst) listed
    rw [keys_of_dumpsMembers encoded] at key
    obtain ⟨member, source, same⟩ := List.mem_map.mp key
    rw [← same]
    exact (each member source).1
  obtain ⟨sorted, sorts, -⟩ := sortMembers_text spell texts
  rw [Value.dumps, encoded, Option.bind_some, sorts]
  rfl

/-- Two dictionaries with one sorted text have one text under each key. -/
theorem dumps_member_eq {first second : List (Key × Value)} {tree : Json}
    (distinct : (first.map fun member => member.1.text spell).Nodup)
    (firstEncoded : (Value.dict first).dumps spell = some tree)
    (secondEncoded : (Value.dict second).dumps spell = some tree) {key : Key} {other : Value}
    (listed : (key, value) ∈ first) (otherListed : (key, other) ∈ second) :
    value.dumps spell = other.dumps spell := by
  obtain ⟨written, same, here, keys⟩ := dumps_dict firstEncoded
  obtain ⟨otherWritten, otherSame, there, -⟩ := dumps_dict secondEncoded
  subst same
  cases otherSame
  obtain ⟨item, dumped, member⟩ := here key value listed
  obtain ⟨otherItem, otherDumped, otherMember⟩ := there key other otherListed
  have unique : (written.map Prod.fst).Nodup := keys.nodup_iff.mpr distinct
  have equal := List.inj_on_of_nodup_map unique member otherMember rfl
  rw [dumped, otherDumped, (Prod.mk.inj equal).2]

end Library
end FixLoop
