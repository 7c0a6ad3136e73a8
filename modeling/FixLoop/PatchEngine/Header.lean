import FixLoop.PatchEngine.Text

namespace FixLoop
namespace PatchEngine

/-!
# Hunk headers

The pattern `@@ -(\d+)(?:,(\d+))? \+(\d+)(?:,(\d+))? @@(?:.*)` and the
coordinates read from it.  What follows a run of digits in the pattern is
never a digit, so a match is unique and is found without backtracking.
-/

/-- The zeros of the decimal digits of Unicode; each is followed by the other
nine digits of its script. -/
def digitZeros : List Nat :=
  [0x30, 0x660, 0x6f0, 0x7c0, 0x966, 0x9e6, 0xa66, 0xae6, 0xb66, 0xbe6, 0xc66, 0xce6, 0xd66, 0xde6,
    0xe50, 0xed0, 0xf20, 0x1040, 0x1090, 0x17e0, 0x1810, 0x1946, 0x19d0, 0x1a80, 0x1a90, 0x1b50,
    0x1bb0, 0x1c40, 0x1c50, 0xa620, 0xa8d0, 0xa900, 0xa9d0, 0xa9f0, 0xaa50, 0xabf0, 0xff10, 0x104a0,
    0x10d30, 0x11066, 0x110f0, 0x11136, 0x111d0, 0x112f0, 0x11450, 0x114d0, 0x11650, 0x116c0,
    0x11730, 0x118e0, 0x11950, 0x11c50, 0x11d50, 0x11da0, 0x16a60, 0x16ac0, 0x16b50, 0x1d7ce,
    0x1d7d8, 0x1d7e2, 0x1d7ec, 0x1d7f6, 0x1e140, 0x1e2f0, 0x1e950, 0x1fbf0]

def digitValue? (char : Char) : Option Nat :=
  (digitZeros.find? fun first => first ≤ char.toNat && char.toNat < first + 10).map
    (fun first => char.toNat - first)

/-- The class `\d`. -/
def isDigit (char : Char) : Bool := (digitValue? char).isSome

/-- `int(digits)`. -/
def toInt (digits : Text) : Nat :=
  digits.foldl (fun number char => 10 * number + (digitValue? char).getD 0) 0

/-- One side of a header: `(\d+)(?:,(\d+))?`. -/
structure HeaderRange where
  start : Text
  count : Option Text

structure HeaderMatch where
  old : HeaderRange
  new : HeaderRange
  heading : Text

def expect (opening text : Text) : Option Text :=
  if opening.isPrefixOf text then some (text.drop opening.length) else none

def matchRange (text : Text) : Option (HeaderRange × Text) :=
  let start := text.takeWhile isDigit
  if start = [] then none
  else
    match text.dropWhile isDigit with
    | ',' :: rest =>
      let count := rest.takeWhile isDigit
      if count = [] then none else some (⟨start, some count⟩, rest.dropWhile isDigit)
    | rest => some (⟨start, none⟩, rest)

/-- `_HEADER.fullmatch`. -/
def matchHeader (header : Text) : Option HeaderMatch := do
  let afterMinus <- expect ['@', '@', ' ', '-'] header
  let (old, afterOld) <- matchRange afterMinus
  let afterPlus <- expect [' ', '+'] afterOld
  let (new, afterNew) <- matchRange afterPlus
  let heading <- expect [' ', '@', '@'] afterNew
  if '\n' ∈ heading then none else some ⟨old, new, heading⟩

/-- Positions from zero and lengths on both sides. -/
structure Coordinates where
  oldStart : Nat
  oldCount : Nat
  newStart : Nat
  newCount : Nat

def HeaderRange.startNumber (range : HeaderRange) : Nat := toInt range.start

/-- `int(count or 1)`. -/
def HeaderRange.countNumber (range : HeaderRange) : Nat := (range.count.map toInt).getD 1

/-- `start - bool(count)`. -/
def HeaderRange.position (range : HeaderRange) : Nat :=
  if range.countNumber = 0 then range.startNumber else range.startNumber - 1

/-- A nonempty side that starts before the first line. -/
def HeaderRange.misplaced (range : HeaderRange) : Bool :=
  range.countNumber != 0 && range.startNumber == 0

def coordinates (header : Text) : Except PatchError Coordinates :=
  match matchHeader header with
  | none => .error (invalidPatch ("invalid hunk header: " ++ String.ofList header))
  | some found =>
    if found.old.misplaced || found.new.misplaced then
      .error (invalidPatch "nonempty hunk coordinates must start at one")
    else .ok ⟨found.old.position, found.old.countNumber, found.new.position, found.new.countNumber⟩

/-! ## Rendering -/

def HeaderRange.render (range : HeaderRange) : Text :=
  range.start ++ (match range.count with
    | none => []
    | some count => ',' :: count)

def HeaderMatch.render (found : HeaderMatch) : Text :=
  ['@', '@', ' ', '-'] ++ found.old.render ++ [' ', '+'] ++ found.new.render ++ [' ', '@', '@'] ++
    found.heading

/-- The texts that `\d+` matches. -/
def Digits (text : Text) : Prop := text ≠ [] ∧ text.all isDigit = true

structure HeaderRange.WellFormed (range : HeaderRange) : Prop where
  start : Digits range.start
  count : ∀ count, range.count = some count -> Digits count

structure HeaderMatch.WellFormed (found : HeaderMatch) : Prop where
  old : found.old.WellFormed
  new : found.new.WellFormed
  heading : '\n' ∉ found.heading

theorem expect_append (opening rest : Text) : expect opening (opening ++ rest) = some rest := by
  rw [expect, if_pos (List.isPrefixOf_iff_prefix.mpr (List.prefix_append opening rest)),
    List.drop_left]

variable {text : Text} {range : HeaderRange} {found : HeaderMatch}

theorem expect_some {opening rest : Text} (found : expect opening text = some rest) :
    text = opening ++ rest := by
  unfold expect at found
  split at found
  · rename_i opens
    rcases List.isPrefixOf_iff_prefix.mp opens with ⟨tail, rfl⟩
    rw [List.drop_left, Option.some.injEq] at found
    rw [found]
  · cases found

theorem takeWhile_digits {digits : Text} (all : Digits digits) {char : Char}
    (stops : isDigit char = false) (rest : Text) :
    (digits ++ char :: rest).takeWhile isDigit = digits ∧
      (digits ++ char :: rest).dropWhile isDigit = char :: rest := by
  have member := List.all_eq_true.mp all.2
  rw [List.takeWhile_append_of_pos member, List.dropWhile_append_of_pos member,
    List.takeWhile_cons_of_neg (by rw [stops]; decide), List.dropWhile_cons_of_neg (by rw [stops]; decide),
    List.append_nil]
  exact ⟨rfl, rfl⟩

theorem matchRange_render (wellFormed : range.WellFormed) (rest : Text) :
    matchRange (range.render ++ ' ' :: rest) = some (range, ' ' :: rest) := by
  rcases range with ⟨start, count⟩
  have blank : isDigit ' ' = false := by decide
  have comma : isDigit ',' = false := by decide
  cases count with
  | none =>
    have taken := takeWhile_digits wellFormed.start blank rest
    simp only [HeaderRange.render, List.append_nil, matchRange, taken.1, taken.2,
      if_neg wellFormed.start.1]
    rfl
  | some count =>
    have digits := wellFormed.count count rfl
    have first := takeWhile_digits wellFormed.start comma (count ++ ' ' :: rest)
    have second := takeWhile_digits digits blank rest
    simp only [HeaderRange.render, List.append_assoc, List.cons_append, matchRange, first.1, first.2,
      second.1, second.2, if_neg wellFormed.start.1, if_neg digits.1]

theorem digits_takeWhile (nonempty : text.takeWhile isDigit ≠ []) : Digits (text.takeWhile isDigit) :=
  ⟨nonempty, List.all_takeWhile⟩

/-- What `matchRange` has read, and what it leaves. -/
theorem matchRange_some {rest : Text} (found : matchRange text = some (range, rest)) :
    range.WellFormed ∧ text = range.render ++ rest := by
  unfold matchRange at found
  dsimp only at found
  split at found
  · cases found
  rename_i nonempty
  have start := digits_takeWhile nonempty
  have split := List.takeWhile_append_dropWhile (p := isDigit) (l := text)
  split at found
  · rename_i after tail
    split at found
    · cases found
    rename_i counted
    cases found
    refine ⟨⟨start, ?_⟩, ?_⟩
    · intro count same
      cases same
      exact digits_takeWhile counted
    · rw [HeaderRange.render]
      conv_lhs => rw [← split, tail, ← List.takeWhile_append_dropWhile (p := isDigit) (l := after)]
      rw [List.append_assoc, List.cons_append]
  · cases found
    refine ⟨⟨start, fun count impossible => by cases impossible⟩, ?_⟩
    rw [HeaderRange.render, List.append_nil]
    exact split.symm

theorem matchHeader_render (wellFormed : found.WellFormed) : matchHeader found.render = some found := by
  have minus := expect_append ['@', '@', ' ', '-'] (found.old.render ++ ([' ', '+'] ++
    (found.new.render ++ ([' ', '@', '@'] ++ found.heading))))
  have old := matchRange_render wellFormed.old
    (['+'] ++ (found.new.render ++ ([' ', '@', '@'] ++ found.heading)))
  have plus := expect_append [' ', '+'] (found.new.render ++ ([' ', '@', '@'] ++ found.heading))
  have new := matchRange_render wellFormed.new (['@', '@'] ++ found.heading)
  have close := expect_append [' ', '@', '@'] found.heading
  simp only [List.cons_append, List.nil_append] at minus old plus new close
  simp only [matchHeader, HeaderMatch.render, List.append_assoc, Option.bind_eq_bind,
    Option.bind_some, List.cons_append, List.nil_append, minus, old, plus, new, close,
    if_neg wellFormed.heading]

theorem matchHeader_some {header : Text} (matched : matchHeader header = some found) :
    found.WellFormed ∧ header = found.render := by
  simp only [matchHeader, Option.bind_eq_bind, Option.bind_eq_some_iff] at matched
  rcases matched with ⟨afterMinus, opening, ⟨old, afterOld⟩, oldRange, afterPlus, plus,
    ⟨new, afterNew⟩, newRange, heading, closing, rest⟩
  split at rest
  · cases rest
  rename_i single
  cases rest
  dsimp only at plus closing
  have left := matchRange_some oldRange
  have right := matchRange_some newRange
  refine ⟨⟨left.1, right.1, single⟩, ?_⟩
  rw [expect_some opening, left.2, expect_some plus, right.2, expect_some closing]
  simp only [HeaderMatch.render, List.append_assoc]

def HeaderMatch.swap (found : HeaderMatch) : HeaderMatch :=
  { found with old := found.new, new := found.old }

/-- The header with its coordinates exchanged. -/
def reverseHeader (header : Text) : Text :=
  match matchHeader header with
  | none => header
  | some found => found.swap.render

def Coordinates.swap (position : Coordinates) : Coordinates :=
  ⟨position.newStart, position.newCount, position.oldStart, position.oldCount⟩

theorem coordinates_reverseHeader {header : Text} {position : Coordinates}
    (accepted : coordinates header = .ok position) :
    coordinates (reverseHeader header) = .ok position.swap := by
  unfold coordinates at accepted
  cases matched : matchHeader header with
  | none => simp only [matched, reduceCtorEq] at accepted
  | some found =>
    have wellFormed := (matchHeader_some matched).1
    have swapped : found.swap.WellFormed := ⟨wellFormed.new, wellFormed.old, wellFormed.heading⟩
    simp only [matched] at accepted
    rw [reverseHeader, matched, coordinates, matchHeader_render swapped]
    split at accepted
    · cases accepted
    · rename_i placed
      cases accepted
      dsimp only [HeaderMatch.swap]
      rw [if_neg (by rwa [Bool.or_comm])]
      rfl

end PatchEngine
end FixLoop
