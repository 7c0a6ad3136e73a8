import FixLoop.Library.Json

namespace FixLoop
namespace Library

/-!
# Dictionaries of a document

A record is a dictionary from texts to decoded values, with its members in
their order.  A missing member reads as `null`, as with `record.get(key)`.
-/

abbrev Record := List (String × Json)

namespace Record

def get? (key : String) (record : Record) : Option Json :=
  (record.find? fun entry => entry.1 == key).map Prod.snd

/-- `record.get(key)`. -/
def get (key : String) (record : Record) : Json := (record.get? key).getD .null

/-- `record[key] = value`. -/
def set (key : String) (value : Json) : Record -> Record
  | [] => [(key, value)]
  | entry :: rest => if entry.1 = key then (key, value) :: rest else entry :: set key value rest

/-- `{**record, **members}`. -/
def update (members record : Record) : Record :=
  members.foldl (fun record member => record.set member.1 member.2) record

/-- The record after `record.pop(key, None)`. -/
def without (key : String) (record : Record) : Record :=
  record.filter fun entry => entry.1 != key

/-- A member that is a text; others read as the empty text. -/
def text (key : String) (record : Record) : String := ((record.get key).str?).getD ""

/-- A member that is an integer; others read as zero. -/
def number (key : String) (record : Record) : Int := ((record.get key).int?).getD 0

/-- A member that is a list of texts; others read as the empty list. -/
def texts (key : String) (record : Record) : List String :=
  match record.get key with
  | .arr items => items.filterMap Json.str?
  | _ => []

/-! ## What is read after a change -/

theorem get?_cons (entry : String × Json) (rest : Record) (key : String) :
    get? key (entry :: rest) = if entry.1 = key then some entry.2 else get? key rest := by
  by_cases here : entry.1 = key
  · simp only [get?, List.find?_cons, here, beq_self_eq_true, Option.map_some, if_true]
  · simp only [get?, List.find?_cons, beq_eq_false_iff_ne.mpr here, if_neg here]

@[simp] theorem get?_set_self (key : String) (value : Json) (record : Record) :
    (record.set key value).get? key = some value := by
  induction record with
  | nil => rw [set, get?_cons, if_pos rfl]
  | cons entry rest ih =>
    by_cases here : entry.1 = key
    · rw [set, if_pos here, get?_cons, if_pos rfl]
    · rw [set, if_neg here, get?_cons, if_neg here, ih]

theorem get?_set_ne {key other : String} (apart : other ≠ key) (value : Json) (record : Record) :
    (record.set key value).get? other = record.get? other := by
  induction record with
  | nil => rw [set, get?_cons, if_neg apart.symm]
  | cons entry rest ih =>
    by_cases here : entry.1 = key
    · rw [set, if_pos here, get?_cons, get?_cons, if_neg apart.symm, here, if_neg apart.symm]
    · rw [set, if_neg here, get?_cons, get?_cons, ih]

@[simp] theorem get_set_self (key : String) (value : Json) (record : Record) :
    (record.set key value).get key = value := by
  rw [get, get?_set_self, Option.getD_some]

theorem get_set_ne {key other : String} (apart : other ≠ key) (value : Json) (record : Record) :
    (record.set key value).get other = record.get other := by
  rw [get, get?_set_ne apart, get]

theorem get?_without_ne {key other : String} (apart : other ≠ key) (record : Record) :
    (record.without key).get? other = record.get? other := by
  induction record with
  | nil => rfl
  | cons entry rest ih =>
    by_cases here : entry.1 = key
    · rw [without, List.filter_cons_of_neg (by simp [here]), get?_cons, here,
        if_neg apart.symm]
      exact ih
    · rw [without, List.filter_cons_of_pos (by simp [here]), get?_cons, get?_cons]
      exact congrArg (fun value => if entry.1 = other then some entry.2 else value) ih

theorem get?_append (first second : Record) (key : String) :
    get? key (first ++ second) = (first.get? key).or (second.get? key) := by
  rw [get?, List.find?_append, Option.map_or]
  rfl

end Record

/-!
# Operations on values of unknown type

The operations on decoded values that raise an exception at a value of another
type.  An exception is the name of its class.
-/

namespace Dynamic

/-- A value as a key of a dictionary: numbers count by their value. -/
inductive Hashed where
  | null
  | number (value : ℚ)
  | text (value : String)
deriving DecidableEq

/-- `hash(value)`. -/
def hashed : Json -> Except String Hashed
  | .null => .ok .null
  | .bool value => .ok (.number (if value then 1 else 0))
  | .int value => .ok (.number value)
  | .float value => .ok (.number value)
  | .str value => .ok (.text value)
  | .arr _ => .error "TypeError"
  | .obj _ => .error "TypeError"

/-- `value[key]`. -/
def subscript (key : String) : Json -> Except String Json
  | .obj members =>
    match Record.get? key members with
    | some value => .ok value
    | none => .error "KeyError"
  | _ => .error "TypeError"

/-- `value.get(key, default)`. -/
def member (key : String) (default : Json) : Json -> Except String Json
  | .obj members => .ok ((Record.get? key members).getD default)
  | _ => .error "AttributeError"

/-- The values over which a loop runs. -/
def iterate : Json -> Except String (List Json)
  | .arr items => .ok items
  | .obj members => .ok (members.map fun entry => .str entry.1)
  | .str text => .ok (text.toList.map fun char => .str (String.ofList [char]))
  | _ => .error "TypeError"

/-- `value > 0`. -/
def positive (value : Json) : Except String Bool :=
  match value.number? with
  | some number => .ok (decide (0 < number))
  | none => .error "TypeError"

/-- `value is True`. -/
def isTrue : Json -> Bool
  | .bool value => value
  | _ => false

/-- `first and second and ...`: the conditions up to the first one that does not
hold. -/
def all : List (Except String Bool) -> Except String Bool
  | [] => .ok true
  | .ok true :: rest => all rest
  | .ok false :: _ => .ok false
  | .error fault :: _ => .error fault

end Dynamic

end Library
end FixLoop
