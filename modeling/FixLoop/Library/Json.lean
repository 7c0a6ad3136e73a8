import Mathlib.Data.Rat.Defs

namespace FixLoop
namespace Library

/-!
# JSON values and their dictionary equality

Values as a JSON decoder returns them.  Objects keep the order of their
members, as dictionaries do, but `same` ignores it: it is the equality of the
decoded values, under which the three kinds of number compare by value.
-/

inductive Json where
  | null
  | bool (value : Bool)
  | int (value : Int)
  | float (value : ℚ)
  | str (value : String)
  | arr (items : List Json)
  | obj (members : List (String × Json))

namespace Json

/-- The numeric value of a number; truth values count as numbers. -/
def number? : Json -> Option ℚ
  | bool value => some (if value then 1 else 0)
  | int value => some value
  | float value => some value
  | _ => none

/-- `value.get(key)` of a dictionary; other values have no members. -/
def get? (key : String) : Json -> Option Json
  | obj members => (members.find? fun entry => entry.1 == key).map Prod.snd
  | _ => none

def str? : Json -> Option String
  | str value => some value
  | _ => none

/-- An instance of the integer type: integers and truth values. -/
def int? : Json -> Option Int
  | int value => some value
  | bool value => some (if value then 1 else 0)
  | _ => none

/-- The truth value of a decoded value: empty texts, lists, dictionaries and
zero count as false. -/
def truthy : Json -> Bool
  | null => false
  | bool value => value
  | int value => value != 0
  | float value => value != 0
  | str value => value != ""
  | arr items => !items.isEmpty
  | obj members => !members.isEmpty

mutual

/-- Equality of decoded values. -/
def same : Json -> Json -> Bool
  | null, null => true
  | str left, str right => left == right
  | arr left, arr right => sameItems left right
  | obj left, obj right => left.length == right.length && sameMembers left right
  | left, right =>
    match left.number?, right.number? with
    | some first, some second => first == second
    | _, _ => false

def sameItems : List Json -> List Json -> Bool
  | [], [] => true
  | left :: lefts, right :: rights => same left right && sameItems lefts rights
  | _, _ => false

/-- Every member on the left has an equal member of its name on the right. -/
def sameMembers : List (String × Json) -> List (String × Json) -> Bool
  | [], _ => true
  | (key, value) :: rest, other =>
    (match other.find? (fun entry => entry.1 == key) with
      | some entry => same value entry.2
      | none => false) && sameMembers rest other

end

@[simp] theorem same_str (left right : String) :
    same (str left) (str right) = (left == right) := by
  simp only [same]

@[simp] theorem same_int (left right : Int) :
    same (int left) (int right) = (left == right) := by
  simp only [same, number?]
  by_cases equal : left = right
  · subst right
    simp only [beq_self_eq_true]
  · have different : (left : ℚ) ≠ (right : ℚ) := fun impossible => equal (Rat.intCast_inj.mp impossible)
    rw [beq_eq_false_iff_ne.mpr equal, beq_eq_false_iff_ne.mpr different]

/-- Replace the members of the first dictionary that the second one names
and append the others: `{**first, **second}`. -/
def merge : Json -> Json -> Json
  | obj first, obj second =>
    obj (first.map (fun entry =>
        (entry.1, ((second.find? fun other => other.1 == entry.1).map Prod.snd).getD entry.2)) ++
      second.filter fun entry => !(first.any fun other => other.1 == entry.1))
  | first, _ => first

end Json

/-- The SHA-256 hex digests of serialised values, one for each of the two
serialisations in use.  Nothing is known of them but that a digest is a
function of the value and is not the empty string. -/
class Hashing where
  digest : Json -> String
  encodedDigest : Json -> String
  digest_ne_empty : ∀ value, digest value ≠ ""

/-- Digests that do not look at the value, for runs on concrete inputs. -/
@[reducible] def Hashing.constant : Hashing := ⟨fun _ => "0", fun _ => "0", fun _ => by decide⟩

namespace Json

mutual

/-- A text that shows the value with its members in their order. -/
def spelled : Json -> String
  | null => "null"
  | bool value => if value then "true" else "false"
  | int value => toString value
  | float value => toString value.num ++ "/" ++ toString value.den
  | str value => "'" ++ value ++ "'"
  | arr items => "[" ++ spelledItems items ++ "]"
  | obj members => "(" ++ spelledMembers members ++ ")"

def spelledItems : List Json -> String
  | [] => ""
  | item :: rest => spelled item ++ "," ++ spelledItems rest

def spelledMembers : List (String × Json) -> String
  | [] => ""
  | (key, item) :: rest => "'" ++ key ++ "':" ++ spelled item ++ "," ++ spelledMembers rest

end

end Json

/-- Digests that show the value. -/
@[reducible] def Hashing.spelled : Hashing where
  digest value := "#" ++ value.spelled
  encodedDigest value := "#" ++ value.spelled
  digest_ne_empty value := by
    intro empty
    have shorter := congrArg String.length empty
    rw [String.length_append] at shorter
    exact absurd shorter (by simp)

/-- Digests that tell each revision of a plan from the next two. -/
@[reducible] def Hashing.alternating : Hashing where
  digest value :=
    match value.get? "state_revision" with
    | some (.int number) => if number % 3 = 0 then "0" else if number % 3 = 1 then "1" else "2"
    | _ => "0"
  encodedDigest _ := "0"
  digest_ne_empty value := by
    split
    · split
      · decide
      · split
        · decide
        · decide
    · decide

/-- Decoding of JSON texts; a text that is none has no value. -/
class Decoding where
  loads : String -> Option Json

/-- A decoder that knows the text of the empty dictionary. -/
@[reducible] def Decoding.emptyDict : Decoding :=
  ⟨fun text => if text = "\x7b\x7d" then some (.obj []) else none⟩

end Library
end FixLoop
