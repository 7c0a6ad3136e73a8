import Mathlib.Data.List.Sort
import Mathlib.Data.String.Basic
import FixLoop.Library.Json

namespace FixLoop
namespace Library

/-!
# Values and their JSON texts

The values that an encoder accepts, with tuples and with keys that are not
texts.  A text is represented by its syntax tree, in which the members of a
dictionary stand in their order in the text.  The encoder sorts the members by
their keys as they are and then writes the keys as texts.  The decoder keeps
the last of the members with one key; since the order of a dictionary's
members does not matter, a decoded one has them in the order of their keys.
-/

inductive Key where
  | str (value : String)
  | int (value : Int)
  | float (value : ℚ)
  | bool (value : Bool)
  | null
deriving DecidableEq

inductive Value where
  | null
  | bool (value : Bool)
  | int (value : Int)
  | float (value : ℚ)
  | str (value : String)
  | list (items : List Value)
  | tuple (items : List Value)
  | dict (members : List (Key × Value))

namespace Key

def number? : Key -> Option ℚ
  | bool value => some (if value then 1 else 0)
  | int value => some value
  | float value => some value
  | _ => none

def text? : Key -> Option String
  | str value => some value
  | _ => none

/-- The text of a key, given how numbers with a fraction are spelled. -/
def text (spell : ℚ -> String) : Key -> String
  | str value => value
  | int value => toString value
  | float value => spell value
  | bool value => if value then "true" else "false"
  | null => "null"

/-- The order of two texts or two numbers. -/
def before (left right : Key) : Bool :=
  match left.text?, right.text? with
  | some first, some second => first ≤ second
  | _, _ =>
    match left.number?, right.number? with
    | some first, some second => first ≤ second
    | _, _ => false

end Key

/-- Sort the members by their keys; two keys that cannot be compared are an
error. -/
def sortMembers {Item : Type} (members : List (Key × Item)) : Option (List (Key × Item)) :=
  if members.length ≤ 1 ∨ members.all (fun entry => entry.1.text?.isSome) = true ∨
      members.all (fun entry => entry.1.number?.isSome) = true then
    some (members.insertionSort fun left right => left.1.before right.1 = true)
  else none

namespace Value

section Dumps

variable (spell : ℚ -> String)

mutual

/-- `json.dumps` with `sort_keys`. -/
def dumps : Value -> Option Json
  | null => some .null
  | bool value => some (.bool value)
  | int value => some (.int value)
  | float value => some (.float value)
  | str value => some (.str value)
  | list items => (dumpsItems items).map Json.arr
  | tuple items => (dumpsItems items).map Json.arr
  | dict members => ((dumpsMembers members).bind sortMembers).map (fun sorted =>
    Json.obj (sorted.map fun entry => (entry.1.text spell, entry.2)))

def dumpsItems : List Value -> Option (List Json)
  | [] => some []
  | item :: rest => (dumps item).bind fun first => (dumpsItems rest).map fun later => first :: later

def dumpsMembers : List (Key × Value) -> Option (List (Key × Json))
  | [] => some []
  | (key, item) :: rest =>
    (dumps item).bind fun first => (dumpsMembers rest).map fun later => (key, first) :: later

end

end Dumps

mutual

/-- The keys of all dictionaries are texts, and they are distinct. -/
def TextKeyed : Value -> Prop
  | list items => itemsTextKeyed items
  | tuple items => itemsTextKeyed items
  | dict members => (members.map Prod.fst).Nodup ∧ membersTextKeyed members
  | _ => True

def itemsTextKeyed : List Value -> Prop
  | [] => True
  | item :: rest => TextKeyed item ∧ itemsTextKeyed rest

def membersTextKeyed : List (Key × Value) -> Prop
  | [] => True
  | (key, item) :: rest => key.text?.isSome = true ∧ TextKeyed item ∧ membersTextKeyed rest

end

end Value

/-- Enter a member into a dictionary in the order of its keys. -/
def enterMember {Item : Type} (member : String × Item) : List (String × Item) -> List (String × Item)
  | [] => [member]
  | first :: rest =>
    if member.1 < first.1 then member :: first :: rest
    else if member.1 = first.1 then member :: rest
    else first :: enterMember member rest

namespace Json

mutual

/-- `json.loads`: the value that a text with this tree stands for. -/
def loads : Json -> Json
  | arr items => arr (loadsItems items)
  | obj members =>
    obj ((loadsMembers members).foldl (fun dict member => enterMember member dict) [])
  | value => value

def loadsItems : List Json -> List Json
  | [] => []
  | item :: rest => loads item :: loadsItems rest

def loadsMembers : List (String × Json) -> List (String × Json)
  | [] => []
  | (key, item) :: rest => (key, loads item) :: loadsMembers rest

end

mutual

/-- The members of all dictionaries stand in the order of their keys. -/
def Ordered : Json -> Prop
  | arr items => itemsOrdered items
  | obj members => members.Pairwise (fun left right => left.1 < right.1) ∧ membersOrdered members
  | _ => True

def itemsOrdered : List Json -> Prop
  | [] => True
  | item :: rest => Ordered item ∧ itemsOrdered rest

def membersOrdered : List (String × Json) -> Prop
  | [] => True
  | (_, item) :: rest => Ordered item ∧ membersOrdered rest

end

mutual

def toValue : Json -> Value
  | null => .null
  | bool value => .bool value
  | int value => .int value
  | float value => .float value
  | str value => .str value
  | arr items => .list (itemsToValue items)
  | obj members => .dict (membersToValue members)

def itemsToValue : List Json -> List Value
  | [] => []
  | item :: rest => toValue item :: itemsToValue rest

def membersToValue : List (String × Json) -> List (Key × Value)
  | [] => []
  | (key, item) :: rest => (.str key, toValue item) :: membersToValue rest

end

end Json

/-! ## Decoding ordered texts -/

theorem enterMember_last {Item : Type} {member : String × Item} {dict : List (String × Item)}
    (last : ∀ entry ∈ dict, entry.1 < member.1) :
    enterMember member dict = dict ++ [member] := by
  induction dict with
  | nil => rfl
  | cons first rest ih =>
    have before := last first List.mem_cons_self
    rw [enterMember, if_neg (lt_asymm before), if_neg (ne_of_gt before),
      ih fun entry listed => last entry (List.mem_cons_of_mem _ listed)]
    rfl

theorem foldl_enterMember {Item : Type} {dict members : List (String × Item)}
    (ordered : (dict ++ members).Pairwise fun left right => left.1 < right.1) :
    members.foldl (fun dict member => enterMember member dict) dict = dict ++ members := by
  induction members generalizing dict with
  | nil => exact (List.append_nil dict).symm
  | cons member rest ih =>
    have last := fun entry listed =>
      (List.pairwise_append.mp ordered).2.2 entry listed member List.mem_cons_self
    rw [List.foldl_cons, enterMember_last last]
    have split : dict ++ member :: rest = dict ++ [member] ++ rest := List.append_cons dict member rest
    rw [split] at ordered ⊢
    exact ih ordered

mutual

/-- A text in order is decoded to itself. -/
theorem Json.loads_ordered : (value : Json) -> value.Ordered -> value.loads = value
  | .null, _ => rfl
  | .bool _, _ => rfl
  | .int _, _ => rfl
  | .float _, _ => rfl
  | .str _, _ => rfl
  | .arr items, ordered => congrArg Json.arr (Json.loadsItems_ordered items ordered)
  | .obj members, ordered => by
      rw [Json.loads, Json.loadsMembers_ordered members ordered.2]
      have sorted : ([] ++ members).Pairwise (fun (left right : String × Json) => left.1 < right.1) :=
        ordered.1
      exact congrArg Json.obj (foldl_enterMember sorted)

theorem Json.loadsItems_ordered :
    (items : List Json) -> Json.itemsOrdered items -> Json.loadsItems items = items
  | [], _ => rfl
  | item :: rest, ordered =>
    congrArg₂ List.cons (item.loads_ordered ordered.1) (Json.loadsItems_ordered rest ordered.2)

theorem Json.loadsMembers_ordered : (members : List (String × Json)) ->
    Json.membersOrdered members -> Json.loadsMembers members = members
  | [], _ => rfl
  | (key, item) :: rest, ordered =>
    congrArg₂ List.cons (congrArg (Prod.mk key) (item.loads_ordered ordered.1))
      (Json.loadsMembers_ordered rest ordered.2)

end

section Dumps

variable (spell : ℚ -> String)

theorem Json.membersOrdered_iff {members : List (String × Json)} :
    Json.membersOrdered members <-> ∀ entry ∈ members, entry.2.Ordered := by
  induction members with
  | nil => exact ⟨fun _ => nofun, fun _ => True.intro⟩
  | cons first rest ih =>
    rw [List.forall_mem_cons, ← ih]
    exact Iff.rfl

theorem Key.str_text {key : Key} (named : key.text?.isSome = true) :
    Key.str (key.text spell) = key := by
  cases key with
  | str value => rfl
  | _ => cases named

theorem Key.text_of_text? {key : Key} {name : String} (named : key.text? = some name) :
    key.text spell = name := by
  cases key with
  | str value => exact Option.some.inj named
  | _ => cases named

theorem sortMembers_text {Item : Type} {members : List (Key × Item)}
    (texts : ∀ entry ∈ members, entry.1.text?.isSome = true) :
    ∃ sorted, sortMembers members = some sorted ∧
      sorted.map (fun entry => (entry.1.text spell, entry.2)) =
        (members.map fun entry => (entry.1.text spell, entry.2)).insertionSort
          (fun left right => left.1 ≤ right.1) := by
  refine ⟨_, if_pos (Or.inr (Or.inl (List.all_eq_true.mpr texts))), ?_⟩
  apply List.map_insertionSort
  intro left first right second
  rcases Option.isSome_iff_exists.mp (texts left first) with ⟨name, named⟩
  rcases Option.isSome_iff_exists.mp (texts right second) with ⟨other, otherwise⟩
  rw [Key.before, named, otherwise, Key.text_of_text? spell named, Key.text_of_text? spell otherwise,
    decide_eq_true_eq]

/-- Members with distinct keys are in strict order once they are sorted. -/
theorem pairwise_sorted {Item : Type} {members : List (String × Item)}
    (distinct : (members.map Prod.fst).Nodup) :
    (members.insertionSort fun left right => left.1 ≤ right.1).Pairwise
      (fun left right => left.1 < right.1) := by
  have total : Std.Total (fun left right : String × Item => left.1 ≤ right.1) :=
    ⟨fun left right => le_total left.1 right.1⟩
  have transitive : IsTrans (String × Item) (fun left right => left.1 ≤ right.1) :=
    ⟨fun _ _ _ => le_trans⟩
  have sorted := List.pairwise_insertionSort (fun left right : String × Item => left.1 ≤ right.1) members
  have unique : ((members.insertionSort fun left right => left.1 ≤ right.1).map Prod.fst).Nodup :=
    ((List.perm_insertionSort _ members).map Prod.fst).nodup_iff.mpr distinct
  exact (sorted.and (List.pairwise_map.mp unique)).imp fun both => lt_of_le_of_ne both.1 both.2

mutual

theorem Value.dumps_ordered : (value : Value) -> value.TextKeyed ->
    ∃ tree, value.dumps spell = some tree ∧ tree.Ordered
  | .null, _ => ⟨_, rfl, True.intro⟩
  | .bool _, _ => ⟨_, rfl, True.intro⟩
  | .int _, _ => ⟨_, rfl, True.intro⟩
  | .float _, _ => ⟨_, rfl, True.intro⟩
  | .str _, _ => ⟨_, rfl, True.intro⟩
  | .list items, keyed => by
      rcases Value.dumpsItems_ordered items keyed with ⟨trees, encoded, ordered⟩
      exact ⟨.arr trees, congrArg (Option.map Json.arr) encoded, ordered⟩
  | .tuple items, keyed => by
      rcases Value.dumpsItems_ordered items keyed with ⟨trees, encoded, ordered⟩
      exact ⟨.arr trees, congrArg (Option.map Json.arr) encoded, ordered⟩
  | .dict members, keyed => by
      rcases Value.dumpsMembers_ordered members keyed.2 with ⟨trees, encoded, texts, keys, ordered⟩
      rcases sortMembers_text spell texts with ⟨sorted, sorts, same⟩
      refine ⟨.obj (sorted.map fun entry => (entry.1.text spell, entry.2)), ?_, ?_, ?_⟩
      · rw [Value.dumps, encoded, Option.bind_some, sorts, Option.map_some]
      · rw [same]
        refine pairwise_sorted ?_
        rw [List.map_map]
        refine List.Nodup.of_map Key.str ?_
        have names : trees.map (Key.str ∘ Prod.fst ∘ fun entry => (entry.1.text spell, entry.2)) =
            trees.map Prod.fst :=
          List.map_congr_left fun entry member => Key.str_text spell (texts entry member)
        rw [List.map_map, names, keys]
        exact keyed.1
      · rw [same, Json.membersOrdered_iff]
        intro entry member
        rcases List.mem_map.mp ((List.mem_insertionSort _).mp member) with ⟨source, listed, rfl⟩
        exact ordered source listed

theorem Value.dumpsItems_ordered : (items : List Value) -> Value.itemsTextKeyed items ->
    ∃ trees, Value.dumpsItems spell items = some trees ∧ Json.itemsOrdered trees
  | [], _ => ⟨[], rfl, True.intro⟩
  | item :: rest, keyed => by
      rcases item.dumps_ordered keyed.1 with ⟨first, encoded, ordered⟩
      rcases Value.dumpsItems_ordered rest keyed.2 with ⟨later, others, also⟩
      refine ⟨first :: later, ?_, ordered, also⟩
      rw [Value.dumpsItems, encoded, Option.bind_some, others, Option.map_some]

theorem Value.dumpsMembers_ordered : (members : List (Key × Value)) ->
    Value.membersTextKeyed members -> ∃ trees, Value.dumpsMembers spell members = some trees ∧
        (∀ entry ∈ trees, entry.1.text?.isSome = true) ∧
        trees.map Prod.fst = members.map Prod.fst ∧
        ∀ entry ∈ trees, entry.2.Ordered
  | [], _ => ⟨[], rfl, nofun, rfl, nofun⟩
  | (key, item) :: rest, keyed => by
      rcases item.dumps_ordered keyed.2.1 with ⟨first, encoded, ordered⟩
      rcases Value.dumpsMembers_ordered rest keyed.2.2 with ⟨later, others, texts, keys, also⟩
      refine ⟨(key, first) :: later, ?_, ?_, congrArg (List.cons key) keys, ?_⟩
      · rw [Value.dumpsMembers, encoded, Option.bind_some, others, Option.map_some]
      · exact List.forall_mem_cons.mpr ⟨keyed.1, texts⟩
      · exact List.forall_mem_cons.mpr ⟨ordered, also⟩

end

theorem sortMembers_sorted {members : List (String × Json)}
    (ordered : members.Pairwise fun left right => left.1 < right.1) :
    sortMembers (members.map fun entry => (Key.str entry.1, entry.2)) =
      some (members.map fun entry => (Key.str entry.1, entry.2)) := by
  have texts : (members.map fun entry => (Key.str entry.1, entry.2)).all
      (fun entry => entry.1.text?.isSome) = true := by
    rw [List.all_map]
    exact List.all_eq_true.mpr fun _ _ => rfl
  rw [sortMembers, if_pos (Or.inr (Or.inl texts))]
  refine congrArg some (List.Pairwise.insertionSort_eq (List.pairwise_map.mpr ?_))
  exact ordered.imp fun less => decide_eq_true (le_of_lt less)

mutual

/-- A decoded value is encoded as it was. -/
theorem Json.dumps_toValue : (tree : Json) -> tree.Ordered -> tree.toValue.dumps spell = some tree
  | .null, _ => rfl
  | .bool _, _ => rfl
  | .int _, _ => rfl
  | .float _, _ => rfl
  | .str _, _ => rfl
  | .arr items, ordered => congrArg (Option.map Json.arr) (Json.dumps_itemsToValue items ordered)
  | .obj members, ordered => by
      rw [Json.toValue, Value.dumps, Json.dumps_membersToValue members ordered.2, Option.bind_some,
        sortMembers_sorted ordered.1, Option.map_some, List.map_map]
      exact congrArg (fun members => some (Json.obj members)) (List.map_id members)

theorem Json.dumps_itemsToValue : (items : List Json) -> Json.itemsOrdered items ->
    Value.dumpsItems spell (Json.itemsToValue items) = some items
  | [], _ => rfl
  | item :: rest, ordered => by
      rw [Json.itemsToValue, Value.dumpsItems, item.dumps_toValue ordered.1, Option.bind_some,
        Json.dumps_itemsToValue rest ordered.2, Option.map_some]

theorem Json.dumps_membersToValue : (members : List (String × Json)) -> Json.membersOrdered members ->
    Value.dumpsMembers spell (Json.membersToValue members) =
      some (members.map fun entry => (Key.str entry.1, entry.2))
  | [], _ => rfl
  | (key, item) :: rest, ordered => by
      rw [Json.membersToValue, Value.dumpsMembers, item.dumps_toValue ordered.1, Option.bind_some,
        Json.dumps_membersToValue rest ordered.2, Option.map_some]
      rfl

end

end Dumps

end Library
end FixLoop
