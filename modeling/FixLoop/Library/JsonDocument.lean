import Mathlib.Data.List.Sort
import FixLoop.Library.Double
import FixLoop.Library.Json

namespace FixLoop
namespace Library

/-!
# JSON documents

The characters of JSON documents.  The encoder sorts the members of
dictionaries by their keys, writes no white space and escapes only what it
must.  The decoder keeps members as they stand, also those with equal keys.
Numbers that are not finite and halves of surrogate pairs are no values here,
so the decoder refuses them.
-/

namespace JsonDocument

/-! ## Writing -/

def spellChar (char : Char) : List Char :=
  if char = '"' then ['\\', '"']
  else if char = '\\' then ['\\', '\\']
  else if char = '\n' then ['\\', 'n']
  else if char = '\r' then ['\\', 'r']
  else if char = '\t' then ['\\', 't']
  else if char = '\x0c' then ['\\', 'f']
  else if char = '\x08' then ['\\', 'b']
  else if char.toNat < 32 then
    ['\\', 'u', '0', '0', Nat.digitChar (char.toNat / 16), Nat.digitChar (char.toNat % 16)]
  else [char]

def quoted (text : List Char) : List Char := '"' :: (text.flatMap spellChar ++ ['"'])

section Spelling

variable (spell : ℚ -> String)

mutual

/-- The document of a value, given how numbers with a fraction are spelled. -/
def spelling : Json -> List Char
  | .null => "null".toList
  | .bool value => if value then "true".toList else "false".toList
  | .int value => (toString value).toList
  | .float value => (spell value).toList
  | .str value => quoted value.toList
  | .arr items => '[' :: spellItems items
  | .obj members => '\x7b' :: spellMembers members

/-- The items up to the closing bracket. -/
def spellItems : List Json -> List Char
  | [] => [']']
  | item :: rest => spelling item ++ (if rest.isEmpty then spellItems rest else ',' :: spellItems rest)

/-- The members up to the closing brace. -/
def spellMembers : List (String × Json) -> List Char
  | [] => ['\x7d']
  | (key, item) :: rest =>
    quoted key.toList ++ ':' :: (spelling item ++
      (if rest.isEmpty then spellMembers rest else ',' :: spellMembers rest))

end

end Spelling

mutual

/-- The members of all dictionaries sorted by their keys. -/
def sorted : Json -> Json
  | .arr items => .arr (sortedItems items)
  | .obj members => .obj ((sortedMembers members).insertionSort fun left right => left.1 ≤ right.1)
  | value => value

def sortedItems : List Json -> List Json
  | [] => []
  | item :: rest => sorted item :: sortedItems rest

def sortedMembers : List (String × Json) -> List (String × Json)
  | [] => []
  | (key, item) :: rest => (key, sorted item) :: sortedMembers rest

end

/-- `json.dumps(value, ensure_ascii=False, sort_keys=True, separators=(",", ":"))`. -/
def encode (spell : ℚ -> String) (value : Json) : String := String.ofList (spelling spell (sorted value))

/-! ## Reading -/

def isBlank (char : Char) : Bool := [' ', '\t', '\n', '\r'].contains char

def skip (text : List Char) : List Char := text.dropWhile isBlank

def hexValue (char : Char) : Option Nat :=
  let code := char.toNat
  if 48 ≤ code ∧ code ≤ 57 then some (code - 48)
  else if 97 ≤ code ∧ code ≤ 102 then some (code - 87)
  else if 65 ≤ code ∧ code ≤ 70 then some (code - 55)
  else none

/-- The number of four hexadecimal digits, and what stands behind them. -/
def hexCode : List Char -> Option (Nat × List Char)
  | first :: second :: third :: fourth :: rest =>
    (hexValue first).bind (fun a => (hexValue second).bind (fun b => (hexValue third).bind (fun c =>
      (hexValue fourth).map fun d => (((a * 16 + b) * 16 + c) * 16 + d, rest))))
  | _ => none

/-- What stands behind `\u`.  Two halves of a surrogate pair are one character. -/
def readUnicode (text : List Char) : Option (Char × List Char) :=
  (hexCode text).bind (fun found =>
    if 0xd800 ≤ found.1 ∧ found.1 ≤ 0xdbff then
      match found.2 with
      | '\\' :: 'u' :: later =>
        (hexCode later).bind (fun other =>
          if 0xdc00 ≤ other.1 ∧ other.1 ≤ 0xdfff then
            some (Char.ofNat (0x10000 + (found.1 - 0xd800) * 0x400 + (other.1 - 0xdc00)), other.2)
          else none)
      | _ => none
    else if 0xdc00 ≤ found.1 ∧ found.1 ≤ 0xdfff then none
    else some (Char.ofNat found.1, found.2))

/-- `BACKSLASH`. -/
def escaped : Char -> Option Char
  | '"' => some '"'
  | '\\' => some '\\'
  | '/' => some '/'
  | 'b' => some '\x08'
  | 'f' => some '\x0c'
  | 'n' => some '\n'
  | 'r' => some '\r'
  | 't' => some '\t'
  | _ => none

/-- What stands behind a backslash. -/
def readEscape : List Char -> Option (Char × List Char)
  | 'u' :: rest => readUnicode rest
  | letter :: rest => (escaped letter).map fun char => (char, rest)
  | [] => none

def readChar : List Char -> Option (Char × List Char)
  | [] => none
  | char :: rest =>
    if char = '\\' then readEscape rest
    else if char.toNat < 32 then none
    else some (char, rest)

/-- A text up to its closing quote. -/
def readString : Nat -> List Char -> Option (List Char × List Char)
  | 0, _ => none
  | _ + 1, '"' :: rest => some ([], rest)
  | fuel + 1, text =>
    (readChar text).bind (fun found =>
      (readString fuel found.2).map fun later => (found.1 :: later.1, later.2))

def isDigit (char : Char) : Bool := decide (48 ≤ char.toNat) && decide (char.toNat ≤ 57)

/-- The number of a run of digits, most significant first. -/
def digitsValue (digits : List Char) : Nat :=
  digits.foldl (fun value digit => value * 10 + (digit.toNat - 48)) 0

/-- A fraction with its number of digits, which may be missing. -/
def readFraction : List Char -> (Nat × Nat) × List Char
  | '.' :: rest =>
    let digits := rest.span isDigit
    if digits.1.isEmpty then ((0, 0), '.' :: rest) else ((digitsValue digits.1, digits.1.length), digits.2)
  | text => ((0, 0), text)

def readExponent (text : List Char) : Option Int × List Char :=
  match text with
  | mark :: rest =>
    if mark = 'e' ∨ mark = 'E' then
      let signed : Int × List Char :=
        match rest with
        | '-' :: later => (-1, later)
        | '+' :: later => (1, later)
        | later => (1, later)
      let digits := signed.2.span isDigit
      if digits.1.isEmpty then (none, text) else (some (signed.1 * digitsValue digits.1), digits.2)
    else (none, text)
  | [] => (none, text)

/-- An integer or a number with a fraction, which is rounded to a double. -/
def readNumber (text : List Char) : Option (Json × List Char) :=
  let signed : Int × List Char :=
    match text with
    | '-' :: rest => (-1, rest)
    | rest => (1, rest)
  let whole : List Char × List Char :=
    match signed.2 with
    | '0' :: rest => (['0'], rest)
    | rest => rest.span isDigit
  if whole.1.isEmpty then none
  else
    let fraction := readFraction whole.2
    let power := readExponent fraction.2
    if fraction.1.2 = 0 ∧ power.1 = none then some (.int (signed.1 * digitsValue whole.1), power.2)
    else
      let digits := digitsValue whole.1 * 10 ^ fraction.1.2 + fraction.1.1
      (Double.round (signed.1 * digits * (10 : ℚ) ^ ((power.1.getD 0) - (fraction.1.2 : Int)))).map (fun value =>
        (.float value, power.2))

mutual

/-- A value at the start of a text; each value takes fuel. -/
def readValue : Nat -> List Char -> Option (Json × List Char)
  | 0, _ => none
  | fuel + 1, text =>
    match text with
    | '"' :: rest => (readString fuel rest).map fun found => (.str (String.ofList found.1), found.2)
    | '[' :: rest =>
      let inner := skip rest
      if inner.head? = some ']' then some (.arr [], inner.tail)
      else (readItems fuel inner).map fun found => (.arr found.1, found.2)
    | '\x7b' :: rest =>
      let inner := skip rest
      if inner.head? = some '\x7d' then some (.obj [], inner.tail)
      else (readMembers fuel inner).map fun found => (.obj found.1, found.2)
    | 'n' :: 'u' :: 'l' :: 'l' :: rest => some (.null, rest)
    | 't' :: 'r' :: 'u' :: 'e' :: rest => some (.bool true, rest)
    | 'f' :: 'a' :: 'l' :: 's' :: 'e' :: rest => some (.bool false, rest)
    | text => readNumber text

/-- Items up to the closing bracket. -/
def readItems : Nat -> List Char -> Option (List Json × List Char)
  | 0, _ => none
  | fuel + 1, text =>
    (readValue fuel text).bind (fun found =>
      match skip found.2 with
      | ',' :: rest => (readItems fuel (skip rest)).map fun later => (found.1 :: later.1, later.2)
      | ']' :: rest => some ([found.1], rest)
      | _ => none)

/-- Members up to the closing brace. -/
def readMembers : Nat -> List Char -> Option (List (String × Json) × List Char)
  | 0, _ => none
  | fuel + 1, text =>
    match text with
    | '"' :: rest =>
      (readString fuel rest).bind (fun key =>
        match skip key.2 with
        | ':' :: rest =>
          (readValue fuel (skip rest)).bind (fun found =>
            match skip found.2 with
            | ',' :: rest =>
              (readMembers fuel (skip rest)).map (fun later =>
                ((String.ofList key.1, found.1) :: later.1, later.2))
            | '\x7d' :: rest => some ([(String.ofList key.1, found.1)], rest)
            | _ => none)
        | _ => none)
    | _ => none

end

/-- `json.loads(text)`, with the members of dictionaries as they stand. -/
def decode (text : String) : Option Json :=
  let chars := text.toList
  if chars.head? = some '\ufeff' then none
  else
    (readValue (chars.length + 1) (skip chars)).bind (fun found =>
      if (skip found.2).isEmpty then some found.1 else none)

/-! ## Reading what was written -/

mutual

/-- No number is part of the value. -/
def Numberless : Json -> Prop
  | .int _ => False
  | .float _ => False
  | .arr items => itemsNumberless items
  | .obj members => membersNumberless members
  | _ => True

def itemsNumberless : List Json -> Prop
  | [] => True
  | item :: rest => Numberless item ∧ itemsNumberless rest

def membersNumberless : List (String × Json) -> Prop
  | [] => True
  | (_, item) :: rest => Numberless item ∧ membersNumberless rest

end

theorem hexValue_digitChar {digit : Nat} (small : digit < 16) : hexValue (Nat.digitChar digit) = some digit := by
  revert digit
  decide

theorem readChar_escaped {letter char : Char} (escape : escaped letter = some char) (other : letter ≠ 'u')
    (rest : List Char) : readChar ('\\' :: letter :: rest) = some (char, rest) := by
  rw [readChar, if_pos rfl, readEscape]
  · rw [escape, Option.map_some]
  · exact other

theorem readChar_control {char : Char} (control : char.toNat < 32) (rest : List Char) :
    readChar ('\\' :: 'u' :: '0' :: '0' :: Nat.digitChar (char.toNat / 16) ::
      Nat.digitChar (char.toNat % 16) :: rest) = some (char, rest) := by
  have high : hexValue (Nat.digitChar (char.toNat / 16)) = some (char.toNat / 16) :=
    hexValue_digitChar (by omega)
  have low : hexValue (Nat.digitChar (char.toNat % 16)) = some (char.toNat % 16) :=
    hexValue_digitChar (by omega)
  have zero : hexValue '0' = some 0 := by decide
  have code : hexCode ('0' :: '0' :: Nat.digitChar (char.toNat / 16) :: Nat.digitChar (char.toNat % 16) :: rest) =
      some (char.toNat, rest) := by
    simp only [hexCode, zero, high, low, Option.bind_some, Option.map_some]
    congr 2
    omega
  rw [readChar, if_pos rfl, readEscape, readUnicode, code, Option.bind_some]
  dsimp only
  rw [if_neg (by omega), if_neg (by omega), Char.ofNat_toNat]

variable (char : Char) {rest : List Char} {item : Json}

theorem readChar_spellChar (rest : List Char) : readChar (spellChar char ++ rest) = some (char, rest) := by
  rw [spellChar]
  split
  · next same =>
      subst same
      exact readChar_escaped rfl (by decide) rest
  split
  · next same =>
      subst same
      exact readChar_escaped rfl (by decide) rest
  split
  · next same =>
      subst same
      exact readChar_escaped rfl (by decide) rest
  split
  · next same =>
      subst same
      exact readChar_escaped rfl (by decide) rest
  split
  · next same =>
      subst same
      exact readChar_escaped rfl (by decide) rest
  split
  · next same =>
      subst same
      exact readChar_escaped rfl (by decide) rest
  split
  · next same =>
      subst same
      exact readChar_escaped rfl (by decide) rest
  split
  · next control => exact readChar_control control rest
  · next _ other _ _ _ _ _ plain => rw [List.singleton_append, readChar, if_neg other, if_neg plain]

/-- A character is not written as a closing quote. -/
theorem spellChar_cons : ∃ head tail, spellChar char = head :: tail ∧ head ≠ '"' := by
  rw [spellChar]
  split_ifs with quote
  case neg => exact ⟨char, [], rfl, quote⟩
  all_goals exact ⟨_, _, rfl, by decide⟩

variable {fuel : Nat} {text : List Char}

theorem readString_spelled (enough : text.length < fuel) (rest : List Char) :
    readString fuel (text.flatMap spellChar ++ '"' :: rest) = some (text, rest) := by
  induction text generalizing fuel with
  | nil =>
    rcases Nat.exists_eq_add_of_lt enough with ⟨more, rfl⟩
    rfl
  | cons char later ih =>
    cases fuel with
    | zero => exact absurd enough (Nat.not_lt_zero _)
    | succ fuel =>
      rcases spellChar_cons char with ⟨head, tail, spelled, open_⟩
      have step : readString (fuel + 1) ((char :: later).flatMap spellChar ++ '"' :: rest) =
          (readChar (spellChar char ++ (later.flatMap spellChar ++ '"' :: rest))).bind (fun found =>
            (readString fuel found.2).map fun others => (found.1 :: others.1, others.2)) := by
        rw [List.flatMap_cons, List.append_assoc, spelled, List.cons_append, readString]
        exact fun _ same => open_ (List.cons.inj same).1
      rw [step, readChar_spellChar, Option.bind_some, ih (Nat.lt_of_succ_lt_succ enough), Option.map_some]

theorem length_spellChar : 0 < (spellChar char).length := by
  rcases spellChar_cons char with ⟨head, tail, spelled, _⟩
  rw [spelled]
  exact Nat.succ_pos _

theorem length_flatMap_spellChar (text : List Char) : text.length ≤ (text.flatMap spellChar).length := by
  induction text with
  | nil => exact Nat.le_refl 0
  | cons char rest ih =>
    have positive := length_spellChar char
    rw [List.flatMap_cons, List.length_append, List.length_cons]
    omega

theorem length_quoted (text : List Char) : text.length + 2 ≤ (quoted text).length := by
  have spelled := length_flatMap_spellChar text
  rw [quoted, List.length_cons, List.length_append, List.length_singleton]
  omega

theorem skip_cons {char : Char} (visible : isBlank char = false) (rest : List Char) :
    skip (char :: rest) = char :: rest := by
  rw [skip, List.dropWhile_cons, visible]
  rfl

theorem readItems_last {fuel : Nat} {text rest : List Char} {item : Json}
    (read : readValue fuel text = some (item, ']' :: rest)) : readItems (fuel + 1) text = some ([item], rest) := by
  rw [readItems, read]
  rfl

theorem readItems_more (read : readValue fuel text = some (item, ',' :: rest)) :
    readItems (fuel + 1) text = (readItems fuel (skip rest)).map (fun later => (item :: later.1, later.2)) := by
  rw [readItems, read]
  rfl

theorem readMembers_last {key after : List Char} (named : readString fuel text = some (key, ':' :: after))
    (read : readValue fuel (skip after) = some (item, '\x7d' :: rest)) :
    readMembers (fuel + 1) ('"' :: text) = some ([(String.ofList key, item)], rest) := by
  rw [readMembers, named, Option.bind_some]
  change (readValue fuel (skip after)).bind _ = _
  rw [read]
  rfl

theorem readMembers_more {key after : List Char} (named : readString fuel text = some (key, ':' :: after))
    (read : readValue fuel (skip after) = some (item, ',' :: rest)) :
    readMembers (fuel + 1) ('"' :: text) =
      (readMembers fuel (skip rest)).map (fun later => ((String.ofList key, item) :: later.1, later.2)) := by
  rw [readMembers, named, Option.bind_some]
  change (readValue fuel (skip after)).bind _ = _
  rw [read]
  rfl

section Spelling

variable {spell : ℚ -> String}

theorem spelling_cons {value : Json} (numberless : Numberless value) : ∃ head tail,
    spelling spell value = head :: tail ∧ isBlank head = false ∧ head ≠ ']' ∧ head ≠ '\ufeff' := by
  cases value with
  | null => exact ⟨'n', _, rfl, by decide⟩
  | bool value =>
    cases value with
    | false => exact ⟨'f', _, rfl, by decide⟩
    | true => exact ⟨'t', _, rfl, by decide⟩
  | int value | float value => exact numberless.elim
  | str value => exact ⟨'"', _, rfl, by decide⟩
  | arr items => exact ⟨'[', _, rfl, by decide⟩
  | obj members => exact ⟨'\x7b', _, rfl, by decide⟩

theorem skip_spelling {value : Json} (numberless : Numberless value) (rest : List Char) :
    skip (spelling spell value ++ rest) = spelling spell value ++ rest := by
  rcases @spelling_cons spell _ numberless with ⟨head, tail, spelled, visible, _⟩
  rw [spelled, List.cons_append]
  exact skip_cons visible _

theorem readString_quoted {fuel : Nat} {text : List Char} (enough : (quoted text).length ≤ fuel + 1) (rest : List Char) :
    readString fuel (text.flatMap spellChar ++ ['"'] ++ rest) = some (text, rest) := by
  have spelled := length_quoted text
  rw [List.append_assoc]
  exact readString_spelled (by omega) rest

mutual

theorem readValue_spelling : (value : Json) -> Numberless value -> ∀ ⦃fuel : Nat⦄ (rest : List Char),
    (spelling spell value).length ≤ fuel -> readValue fuel (spelling spell value ++ rest) = some (value, rest)
  | .null, _, fuel, rest, enough => by
      rcases Nat.exists_eq_add_of_lt enough with ⟨more, rfl⟩
      rfl
  | .bool false, _, fuel, rest, enough => by
      rcases Nat.exists_eq_add_of_lt enough with ⟨more, rfl⟩
      rfl
  | .bool true, _, fuel, rest, enough => by
      rcases Nat.exists_eq_add_of_lt enough with ⟨more, rfl⟩
      rfl
  | .int _, numberless, _, _, _ => numberless.elim
  | .float _, numberless, _, _, _ => numberless.elim
  | .str value, _, fuel, rest, enough => by
      cases fuel with
      | zero => exact absurd enough (Nat.not_succ_le_zero _)
      | succ fuel =>
        rw [spelling] at enough ⊢
        rw [quoted, List.cons_append, readValue, readString_quoted enough, Option.map_some, String.ofList_toList]
  | .arr items, numberless, fuel, rest, enough => by
      have inside := readItems_spelling items numberless
      cases fuel with
      | zero => exact absurd enough (Nat.not_succ_le_zero _)
      | succ fuel =>
        have inner : (spellItems spell items).length ≤ fuel := Nat.le_of_succ_le_succ enough
        cases items with
        | nil => rfl
        | cons item later =>
          have read := inside (List.cons_ne_nil _ _) rest inner
          rcases @spelling_cons spell item numberless.1 with ⟨head, tail, spelled, visible, unclosed, _⟩
          have shown : spellItems spell (item :: later) ++ rest = head :: (tail ++
              ((if later.isEmpty then spellItems spell later else ',' :: spellItems spell later) ++ rest)) := by
            rw [spellItems, spelled, List.append_assoc, List.cons_append]
          rw [shown] at read
          rw [spelling, List.cons_append, shown, readValue, skip_cons visible, read]
          exact if_neg fun same => unclosed (Option.some.inj same)
  | .obj members, numberless, fuel, rest, enough => by
      have inside := readMembers_spelling members numberless
      cases fuel with
      | zero => exact absurd enough (Nat.not_succ_le_zero _)
      | succ fuel =>
        have inner : (spellMembers spell members).length ≤ fuel := Nat.le_of_succ_le_succ enough
        cases members with
        | nil => rfl
        | cons member later =>
          have read := inside (List.cons_ne_nil _ _) rest inner
          rw [spelling, List.cons_append, readValue]
          rw [spellMembers, quoted, List.cons_append, List.cons_append] at read ⊢
          rw [skip_cons (by decide), read]
          exact if_neg fun same => absurd (Option.some.inj same) (by decide)

theorem readItems_spelling : (items : List Json) -> itemsNumberless items -> items ≠ [] ->
    ∀ ⦃fuel : Nat⦄ (rest : List Char), (spellItems spell items).length ≤ fuel ->
      readItems fuel (spellItems spell items ++ rest) = some (items, rest)
  | [], _, filled, _, _, _ => absurd rfl filled
  | item :: later, numberless, _, fuel, rest, enough => by
      have first := readValue_spelling item numberless.1
      have inside := readItems_spelling later numberless.2
      rw [spellItems, List.length_append] at enough
      cases fuel with
      | zero =>
        rcases @spelling_cons spell item numberless.1 with ⟨_, _, spelled, _⟩
        rw [spelled] at enough
        exact absurd (Nat.le_of_add_right_le enough) (Nat.not_succ_le_zero _)
      | succ fuel =>
        cases later with
        | nil =>
          rw [spellItems, List.append_assoc]
          exact readItems_last (first (']' :: rest) (Nat.le_of_succ_le_succ enough))
        | cons next later =>
          have short : (spelling spell item).length + (spellItems spell (next :: later)).length ≤ fuel :=
            Nat.le_of_succ_le_succ enough
          have read := inside (List.cons_ne_nil _ _) rest (Nat.le_of_add_left_le short)
          have start : skip (spellItems spell (next :: later) ++ rest) = spellItems spell (next :: later) ++ rest := by
            rw [spellItems, List.append_assoc]
            exact skip_spelling numberless.2.1 _
          have shown : spellItems spell (item :: next :: later) ++ rest =
              spelling spell item ++ (',' :: (spellItems spell (next :: later) ++ rest)) := by
            rw [spellItems, List.append_assoc]
            rfl
          rw [shown, readItems_more (first _ (Nat.le_of_add_right_le short)), start, read]
          rfl

theorem readMembers_spelling : (members : List (String × Json)) -> membersNumberless members -> members ≠ [] ->
    ∀ ⦃fuel : Nat⦄ (rest : List Char), (spellMembers spell members).length ≤ fuel ->
      readMembers fuel (spellMembers spell members ++ rest) = some (members, rest)
  | [], _, filled, _, _, _ => absurd rfl filled
  | (key, item) :: later, numberless, _, fuel, rest, enough => by
      have first := readValue_spelling item numberless.1
      have inside := readMembers_spelling later numberless.2
      have opening := length_quoted key.toList
      rw [spellMembers, List.length_append, List.length_cons, List.length_append] at enough
      cases fuel with
      | zero => exact absurd enough (by omega)
      | succ fuel =>
        have named : ∀ after, readString fuel (key.toList.flatMap spellChar ++ ['"'] ++ after) =
            some (key.toList, after) := readString_quoted (by omega)
        cases later with
        | nil =>
          have value : readValue fuel (skip (spelling spell item ++ ('\x7d' :: rest))) =
              some (item, '\x7d' :: rest) := by
            rw [skip_spelling numberless.1]
            exact first _ (by omega)
          have shown : spellMembers spell [(key, item)] ++ rest = '"' :: (key.toList.flatMap spellChar ++
              ['"'] ++ (':' :: (spelling spell item ++ ('\x7d' :: rest)))) := by
            rw [spellMembers, quoted, List.append_assoc, List.cons_append, List.cons_append, List.append_assoc,
              List.append_assoc, List.append_assoc]
            rfl
          rw [shown, readMembers_last (named _) value, String.ofList_toList]
        | cons next later =>
          have short : (spellMembers spell (next :: later)).length + (spelling spell item).length < fuel := by
            have longer : (if (next :: later).isEmpty then spellMembers spell (next :: later)
                else ',' :: spellMembers spell (next :: later)).length =
                  (spellMembers spell (next :: later)).length + 1 := rfl
            omega
          have read := inside (List.cons_ne_nil _ _) rest (Nat.le_of_lt (Nat.lt_of_le_of_lt (Nat.le_add_right _ _) short))
          have start : skip (spellMembers spell (next :: later) ++ rest) =
              spellMembers spell (next :: later) ++ rest := by
            rw [spellMembers, quoted, List.append_assoc]
            exact skip_cons (by decide) _
          have value : readValue fuel (skip (spelling spell item ++
              (',' :: (spellMembers spell (next :: later) ++ rest)))) =
                some (item, ',' :: (spellMembers spell (next :: later) ++ rest)) := by
            rw [skip_spelling numberless.1]
            exact first _ (by omega)
          have shown : spellMembers spell ((key, item) :: next :: later) ++ rest =
              '"' :: (key.toList.flatMap spellChar ++ ['"'] ++ (':' :: (spelling spell item ++
                (',' :: (spellMembers spell (next :: later) ++ rest))))) := by
            rw [spellMembers, quoted, List.append_assoc, List.cons_append, List.cons_append, List.append_assoc,
              List.append_assoc, List.append_assoc]
            rfl
          rw [shown, readMembers_more (named _) value, start, read, String.ofList_toList]
          rfl

end

end Spelling

/-- The decoder finds a value with sorted members in its document. -/
theorem decode_encode {value : Json} (numberless : Numberless value) (ordered : sorted value = value) :
    decode (encode spell value) = some value := by
  rcases @spelling_cons spell value numberless with ⟨head, tail, spelled, visible, _, unmarked⟩
  have start : skip (spelling spell value) = spelling spell value := by
    rw [spelled]
    exact skip_cons visible tail
  have marked : (spelling spell value).head? ≠ some '\ufeff' := by
    rw [spelled]
    exact fun same => unmarked (Option.some.inj same)
  have read := readValue_spelling value numberless [] (Nat.le_succ (spelling spell value).length)
  rw [List.append_nil] at read
  rw [decode, encode, ordered, String.toList_ofList, if_neg marked, start, read]
  rfl

end JsonDocument

end Library
end FixLoop
