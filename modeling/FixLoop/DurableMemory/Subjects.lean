import Mathlib.Data.List.TakeWhile
import FixLoop.DurableMemory.Redaction
import FixLoop.PatchEngine.Render

namespace FixLoop
namespace DurableMemory

open Library Scanning
open EditLock (Text strip)
open PatchEngine (expect isDigit)

/-!
# `_subject_key`

Entries with one subject are versions of each other.  The subject is the first
line of an entry, in lower case and without the marks of authority and
version, so the mark that a new version gets does not change its subject.
-/

/-- What the text operations take from the tables of Unicode: `str.lower` and
`str.isalnum`. -/
class Alphabet where
  lower : Text -> Text
  alnum : Char -> Bool

/-- A character without case, or in lower case. -/
def Uncased (char : Char) : Prop := Strings.isSpace char = true ∨ char ∈ "#v@0123456789".toList

/-- What is used of the tables. -/
class LawfulAlphabet [Alphabet] : Prop where
  alnum_space : ∀ char, Strings.isSpace char = true -> Alphabet.alnum char = false
  alnum_sign : Alphabet.alnum '#' = false
  lower_append : ∀ text char rest, Strings.isSpace char = true ->
    (∀ other, other ∈ char :: rest -> Uncased other) ->
    Alphabet.lower (text ++ char :: rest) = Alphabet.lower text ++ char :: rest

variable [Alphabet]

open Alphabet

/-- `\w`. -/
def isWord (char : Char) : Bool := alnum char || char = '_'

/-- `text.split("\n")[0]`. -/
def firstLine (text : Text) : Text := text.takeWhile fun char => char != '\n'

/-- `\[authority:(\w+)\]`: the name, and the rest. -/
def authorityAt (text : Text) : Option (Text × Text) :=
  (expect "[authority:".toList text).bind (fun rest =>
    if rest.takeWhile isWord = [] then none
    else (expect [']'] (rest.dropWhile isWord)).map fun after => (rest.takeWhile isWord, after))

/-- `\s*\[authority:\w+\]\s*`: the rest. -/
def afterAuthority (text : Text) : Option Text :=
  (authorityAt (text.dropWhile Strings.isSpace)).map fun found => found.2.dropWhile Strings.isSpace

section

omit [Alphabet]

/-- `\d+`: the rest. -/
def afterDigits (text : Text) : Option Text :=
  if text.takeWhile isDigit = [] then none else some (text.dropWhile isDigit)

/-- `\s*` and a character: the rest. -/
def afterSign (sign : Char) (text : Text) : Option Text := expect [sign] (text.dropWhile Strings.isSpace)

/-- `#\s*v\d+\s*@\d+`: the rest. -/
def versionAt (text : Text) : Option Text :=
  (expect ['#'] text).bind (fun rest => (afterSign 'v' rest).bind (fun rest =>
    (afterDigits rest).bind fun rest => (afterSign '@' rest).bind afterDigits))

/-- `\s*#\s*v\d+\s*@\d+\s*`: the rest. -/
def afterVersion (text : Text) : Option Text :=
  (versionAt (text.dropWhile Strings.isSpace)).map (List.dropWhile Strings.isSpace)

end

def subjectKey (text : Text) : Text :=
  strip (rewrite (erase afterVersion) 0 (strip (rewrite (erase afterAuthority) 0 (lower (strip (firstLine text))))))

/-- `f"  # v{ver} @{ts}"`. -/
def versionMark (ver ts : Nat) : Text :=
  "  # v".toList ++ Nat.toDigits 10 ver ++ " @".toList ++ Nat.toDigits 10 ts

/-- `text.replace("\n", f"  # v{ver} @{ts}\n", 1)`. -/
def versioned (text : Text) (ver ts : Nat) : Text :=
  if '\n' ∈ text then firstLine text ++ versionMark ver ts ++ text.dropWhile (fun char => char != '\n') else text

/-! ## What follows a text -/

/-- What a version mark begins with. -/
def Opens (char : Char) : Prop := Strings.isSpace char = true ∨ char = '#'

variable {char : Char} {text : Text}

omit [Alphabet] in
theorem isDigit_of_opens (opens : Opens char) : isDigit char = false := by
  have blank : ∀ code ∈ [0x09, 0x0a, 0x0b, 0x0c, 0x0d, 0x1c, 0x1d, 0x1e, 0x1f, 0x20, 0x85, 0xa0, 0x1680,
      0x2000, 0x2001, 0x2002, 0x2003, 0x2004, 0x2005, 0x2006, 0x2007, 0x2008, 0x2009, 0x200a, 0x2028, 0x2029,
      0x202f, 0x205f, 0x3000],
      PatchEngine.digitZeros.find? (fun first => first ≤ code && code < first + 10) = none := by
    decide
  rcases opens with space | rfl
  · have listed := blank char.toNat (by
      simp only [Strings.isSpace, Bool.or_eq_true, Bool.and_eq_true, decide_eq_true_eq, beq_iff_eq] at space
      simp only [List.mem_cons, List.not_mem_nil, or_false]
      omega)
    rw [isDigit, PatchEngine.digitValue?, listed]
    rfl
  · rfl

theorem isWord_of_opens [LawfulAlphabet] (opens : Opens char) : isWord char = false := by
  rcases opens with space | rfl
  · have other : char ≠ '_' := by
      rintro rfl
      cases space
    rw [isWord, LawfulAlphabet.alnum_space char space, decide_eq_false other]
    rfl
  · rw [isWord, LawfulAlphabet.alnum_sign]
    rfl

omit [Alphabet] in
theorem expect_append {opening : Text} (absent : char ∉ opening) (text rest : Text) :
    expect opening (text ++ char :: rest) = (expect opening text).map (fun left => left ++ char :: rest) := by
  have cons (first : Char) (others second : Text) (next : Char) :
      expect (first :: others) (next :: second) = if first = next then expect others second else none := by
    rw [expect, expect, List.isPrefixOf]
    by_cases same : first = next
    · rw [if_pos same, beq_iff_eq.mpr same, Bool.true_and]
      rfl
    · rw [if_neg same, beq_eq_false_iff_ne.mpr same]
      rfl
  induction opening generalizing text with
  | nil => rfl
  | cons first others ih =>
    rw [List.mem_cons, not_or] at absent
    cases text with
    | nil =>
      rw [List.nil_append, cons, if_neg (Ne.symm absent.1)]
      rfl
    | cons next second =>
      rw [List.cons_append, cons, cons]
      split
      · exact ih absent.2 second
      · rfl

omit [Alphabet] in
theorem takeWhile_break {taken : Char -> Bool} (stops : taken char = false) (text rest : Text) :
    (text ++ char :: rest).takeWhile taken = text.takeWhile taken ∧
      (text ++ char :: rest).dropWhile taken = text.dropWhile taken ++ char :: rest := by
  induction text with
  | nil =>
    have no : ¬ taken char = true := Bool.eq_false_iff.mp stops
    exact ⟨List.takeWhile_cons_of_neg no, List.dropWhile_cons_of_neg no⟩
  | cons first others ih =>
    by_cases yes : taken first = true
    · rw [List.cons_append, List.takeWhile_cons_of_pos yes, List.dropWhile_cons_of_pos yes,
        List.takeWhile_cons_of_pos yes, List.dropWhile_cons_of_pos yes, ih.1]
      exact ⟨rfl, ih.2⟩
    · rw [List.cons_append, List.takeWhile_cons_of_neg yes, List.dropWhile_cons_of_neg yes,
        List.takeWhile_cons_of_neg yes, List.dropWhile_cons_of_neg yes]
      exact ⟨rfl, rfl⟩

/-- White space and then a mark that begins with `#`. -/
structure Trails (mark tail : Text) : Prop where
  begins : mark.head? = some '#'
  spaces : ∃ spaces, tail = spaces ++ mark ∧ ∀ char ∈ spaces, Strings.isSpace char = true

section Trailing

omit [Alphabet]

variable {mark tail : Text} (trails : Trails mark tail)

include trails

theorem Trails.head : ∃ char rest, tail = char :: rest ∧ Opens char := by
  rcases trails.spaces with ⟨spaces, rfl, blank⟩
  cases spaces with
  | nil =>
    have begins := trails.begins
    cases mark with
    | nil => cases begins
    | cons char rest =>
      cases begins
      exact ⟨'#', rest, rfl, Or.inr rfl⟩
  | cons char spaces => exact ⟨char, spaces ++ mark, rfl, Or.inl (blank char List.mem_cons_self)⟩

theorem Trails.self : Trails mark mark := ⟨trails.begins, [], rfl, nofun⟩

theorem Trails.mark_dropWhile : mark.dropWhile Strings.isSpace = mark := by
  have begins := trails.begins
  cases mark with
  | nil => rfl
  | cons char rest =>
    cases begins
    rfl

theorem Trails.dropWhile : tail.dropWhile Strings.isSpace = mark := by
  rcases trails.spaces with ⟨spaces, rfl, blank⟩
  rw [List.dropWhile_append_of_pos blank, trails.mark_dropWhile]

theorem Trails.dropWhile_append (text : Text) :
    (text ++ tail).dropWhile Strings.isSpace =
      if text.dropWhile Strings.isSpace = [] then mark else text.dropWhile Strings.isSpace ++ tail := by
  rw [List.dropWhile_append, trails.dropWhile]
  simp only [List.isEmpty_iff]

theorem Trails.expect_mark {first : Char} {others : Text} (other : first ≠ '#') :
    expect (first :: others) mark = none := by
  have begins := trails.begins
  cases mark with
  | nil => cases begins
  | cons char rest =>
    cases begins
    simp [expect, List.isPrefixOf, other]

theorem Trails.afterSign_append {sign : Char} (other : ¬ Opens sign) (text : Text) :
    afterSign sign (text ++ tail) = (afterSign sign text).map (fun rest => rest ++ tail) := by
  rcases trails.head with ⟨char, rest, same, opens⟩
  have absent : char ∉ [sign] := by
    rw [List.mem_singleton]
    rintro rfl
    exact other opens
  unfold afterSign
  rw [trails.dropWhile_append]
  split
  · rename_i blank
    rw [trails.expect_mark (fun same => other (Or.inr same)), blank]
    rfl
  · rw [same]
    exact expect_append absent _ rest

theorem Trails.afterDigits_append (text : Text) :
    afterDigits (text ++ tail) = (afterDigits text).map (fun rest => rest ++ tail) := by
  rcases trails.head with ⟨char, rest, rfl, opens⟩
  have split := takeWhile_break (isDigit_of_opens opens) text rest
  unfold afterDigits
  rw [split.1, split.2]
  split <;> rfl

theorem Trails.versionAt_append {text : Text} (nonempty : text ≠ []) :
    versionAt (text ++ tail) = (versionAt text).map (fun rest => rest ++ tail) := by
  have letter : ¬ Opens 'v' := fun opens => opens.elim (fun space => by cases space) (by decide)
  have sign : ¬ Opens '@' := fun opens => opens.elim (fun space => by cases space) (by decide)
  unfold versionAt
  have first : expect ['#'] (text ++ tail) = (expect ['#'] text).map (fun rest => rest ++ tail) := by
    cases text with
    | nil => exact absurd rfl nonempty
    | cons char others =>
      simp only [expect, List.isPrefixOf, List.cons_append, Bool.and_true, List.length_singleton, List.drop_succ_cons,
        List.drop_zero]
      split <;> rfl
  rw [first]
  cases expect ['#'] text with
  | none => rfl
  | some rest =>
    simp only [Option.map_some, Option.bind_some, trails.afterSign_append letter]
    cases afterSign 'v' rest with
    | none => rfl
    | some rest =>
      simp only [Option.map_some, Option.bind_some, trails.afterDigits_append]
      cases afterDigits rest with
      | none => rfl
      | some rest =>
        simp only [Option.map_some, Option.bind_some, trails.afterSign_append sign]
        cases afterSign '@' rest with
        | none => rfl
        | some rest => exact trails.afterDigits_append rest

end Trailing

/-! ## Erasing the marks of a line -/

theorem authorityAt_append [LawfulAlphabet] (opens : Opens char) (text rest : Text) :
    authorityAt (text ++ char :: rest) =
      (authorityAt text).map (fun found => (found.1, found.2 ++ char :: rest)) := by
  have outside (sign : Char) (solid : Strings.isSpace sign = false) (other : sign ≠ '#') : char ≠ sign := by
    rintro rfl
    rcases opens with space | same
    · exact Bool.false_ne_true (solid.symm.trans space)
    · exact other same
  have absent : char ∉ "[authority:".toList := by
    have known : ∀ sign ∈ "[authority:".toList, Strings.isSpace sign = false ∧ sign ≠ '#' :=
      forall_mem_of_all (by decide)
    exact fun member => outside char (known char member).1 (known char member).2 rfl
  have closing : char ∉ [']'] := fun member => outside ']' rfl (by decide) (List.mem_singleton.mp member)
  unfold authorityAt
  rw [expect_append absent]
  cases expect "[authority:".toList text with
  | none => rfl
  | some left =>
    have split := takeWhile_break (isWord_of_opens opens) left rest
    simp only [Option.map_some, Option.bind_some, split.1, split.2, expect_append closing]
    split
    · rfl
    · cases expect [']'] (left.dropWhile isWord) <;> rfl

omit [Alphabet] in
theorem expect_shorter {opening text rest : Text} (filled : 0 < opening.length)
    (found : expect opening text = some rest) : Shorter rest text := by
  rw [PatchEngine.expect_some found]
  refine ⟨List.suffix_append _ _, ?_⟩
  rw [List.length_append]
  omega

theorem authorityAt_shorter {found : Text × Text} (matched : authorityAt text = some found) :
    Shorter found.2 text := by
  rcases Option.bind_eq_some_iff.mp matched with ⟨rest, opens, matched⟩
  refine Shorter.trans ?_ (expect_shorter (by decide) opens)
  split at matched
  · cases matched
  · rcases Option.map_eq_some_iff.mp matched with ⟨after, closes, rfl⟩
    exact (expect_shorter (by decide) closes).1.trans (List.dropWhile_suffix _)

theorem advances_afterAuthority : Advances afterAuthority := by
  intro text rest found
  rcases Option.map_eq_some_iff.mp found with ⟨pair, matched, rfl⟩
  have shorter := authorityAt_shorter matched
  have begins : (text.dropWhile Strings.isSpace).IsSuffix text := List.dropWhile_suffix _
  have ends : (pair.2.dropWhile Strings.isSpace).IsSuffix pair.2 := List.dropWhile_suffix _
  exact ⟨(ends.trans shorter.1).trans begins,
    Nat.lt_of_le_of_lt ends.length_le (Nat.lt_of_lt_of_le shorter.2 begins.length_le)⟩

/-- What trails a line is left by the erasure of authority marks, up to the
white space before it. -/
theorem erase_authority_append [LawfulAlphabet] {mark tail : Text} (trails : Trails mark tail)
    (unmarked : '[' ∉ tail) (text : Text) :
    ∃ left, Trails mark left ∧
      rewrite (erase afterAuthority) 0 (text ++ tail) = rewrite (erase afterAuthority) 0 text ++ left := by
  have nothing (rest : Text) (absent : '[' ∉ rest) : rewrite (erase afterAuthority) 0 rest = rest := by
    refine erase_nothing rest fun ending ends _ => ?_
    have missing : '[' ∉ ending.dropWhile Strings.isSpace := fun member =>
      absent (ends.subset ((List.dropWhile_suffix _).subset member))
    have unopened : expect "[authority:".toList (ending.dropWhile Strings.isSpace) = none := by
      cases found : expect "[authority:".toList (ending.dropWhile Strings.isSpace) with
      | none => rfl
      | some rest =>
        rw [PatchEngine.expect_some found] at missing
        exact absurd (List.mem_append_left _ List.mem_cons_self) missing
    rw [afterAuthority, authorityAt, unopened]
    rfl
  have inMark : '[' ∉ mark := by
    rcases trails.spaces with ⟨spaces, rfl, _⟩
    exact fun member => unmarked (List.mem_append_right _ member)
  rcases trails.head with ⟨char, rest, same, opens⟩
  have found (line : Text) (filled : line.dropWhile Strings.isSpace ≠ []) :
      authorityAt ((line ++ tail).dropWhile Strings.isSpace) =
        (authorityAt (line.dropWhile Strings.isSpace)).map (fun found => (found.1, found.2 ++ tail)) := by
    rw [trails.dropWhile_append, if_neg filled, same]
    exact authorityAt_append opens _ rest
  induction text using erase_induction advances_afterAuthority with
  | nil => exact ⟨tail, trails, nothing tail unmarked⟩
  | skip first others none_ ih =>
    rcases ih with ⟨left, leaves, erased⟩
    refine ⟨left, leaves, ?_⟩
    have still : afterAuthority (first :: (others ++ tail)) = none := by
      rw [<- List.cons_append]
      unfold afterAuthority
      by_cases blank : (first :: others).dropWhile Strings.isSpace = []
      · have absent : expect "[authority:".toList mark = none := trails.expect_mark (by decide)
        rw [trails.dropWhile_append, if_pos blank, authorityAt, absent]
        rfl
      · unfold afterAuthority at none_
        rw [found _ blank, Option.map_eq_none_iff.mp none_]
        rfl
    rw [List.cons_append, erase_none still, erase_none none_, erased]
    rfl
  | jump first others rest' matched ih =>
    rcases ih with ⟨left, leaves, erased⟩
    rcases Option.map_eq_some_iff.mp matched with ⟨pair, at_, rfl⟩
    have filled : (first :: others).dropWhile Strings.isSpace ≠ [] := by
      intro blank
      rw [blank] at at_
      cases at_
    have again : afterAuthority (first :: others ++ tail) =
        some (if pair.2.dropWhile Strings.isSpace = [] then mark
          else pair.2.dropWhile Strings.isSpace ++ tail) := by
      rw [afterAuthority, found _ filled, at_, <- trails.dropWhile_append]
      rfl
    rw [erase_some advances_afterAuthority again, erase_some advances_afterAuthority matched]
    by_cases blank : pair.2.dropWhile Strings.isSpace = []
    · rw [if_pos blank, blank]
      exact ⟨mark, trails.self, nothing mark inMark⟩
    · rw [if_neg blank]
      exact ⟨left, leaves, erased⟩

section Versions

omit [Alphabet]

variable {text : Text}

theorem afterSign_suffix {sign : Char} {rest : Text} (found : afterSign sign text = some rest) :
    rest.IsSuffix text :=
  (@expect_shorter [sign] _ _ Nat.one_pos found).1.trans (List.dropWhile_suffix _)

theorem afterDigits_suffix {rest : Text} (found : afterDigits text = some rest) : rest.IsSuffix text := by
  unfold afterDigits at found
  split at found
  · cases found
  · cases found
    exact List.dropWhile_suffix _

theorem versionAt_shorter {rest : Text} (found : versionAt text = some rest) : Shorter rest text := by
  rcases Option.bind_eq_some_iff.mp found with ⟨first, sign, found⟩
  rcases Option.bind_eq_some_iff.mp found with ⟨second, letter, found⟩
  rcases Option.bind_eq_some_iff.mp found with ⟨third, digits, found⟩
  rcases Option.bind_eq_some_iff.mp found with ⟨fourth, at_, stamp⟩
  have ends := (afterDigits_suffix stamp).trans ((afterSign_suffix at_).trans
    ((afterDigits_suffix digits).trans (afterSign_suffix letter)))
  exact Shorter.trans ends (expect_shorter (by decide) sign)

theorem advances_afterVersion : Advances afterVersion := by
  intro text rest found
  rcases Option.map_eq_some_iff.mp found with ⟨left, matched, rfl⟩
  have shorter := versionAt_shorter matched
  have begins : (text.dropWhile Strings.isSpace).IsSuffix text := List.dropWhile_suffix _
  have ends : (left.dropWhile Strings.isSpace).IsSuffix left := List.dropWhile_suffix _
  exact ⟨(ends.trans shorter.1).trans begins,
    Nat.lt_of_le_of_lt ends.length_le (Nat.lt_of_lt_of_le shorter.2 begins.length_le)⟩

/-- The text does not end in white space. -/
def Solid (text : Text) : Prop := ∀ char, text.getLast? = some char -> Strings.isSpace char = false

theorem Solid.suffix {ending : Text} (solid : Solid text) (ends : ending.IsSuffix text) : Solid ending := by
  intro char last
  rcases ends with ⟨before, rfl⟩
  cases ending with
  | nil => cases last
  | cons first rest => exact solid char (by rw [List.getLast?_append_cons]; exact last)

theorem Solid.dropWhile (solid : Solid text) (blank : text.dropWhile Strings.isSpace = []) : text = [] := by
  cases same : text.getLast? with
  | none => exact List.getLast?_eq_none_iff.mp same
  | some char =>
    have space := List.dropWhile_eq_nil_iff.mp blank char (List.mem_of_getLast? same)
    exact absurd space (Bool.eq_false_iff.mp (solid char same))

theorem erase_version_append {mark tail : Text} (trails : Trails mark tail)
    (version : versionAt mark = some []) (solid : Solid text) :
    rewrite (erase afterVersion) 0 (text ++ tail) = rewrite (erase afterVersion) 0 text := by
  have found (line : Text) (filled : line.dropWhile Strings.isSpace ≠ []) :
      versionAt ((line ++ tail).dropWhile Strings.isSpace) =
        (versionAt (line.dropWhile Strings.isSpace)).map (fun rest => rest ++ tail) := by
    rw [trails.dropWhile_append, if_neg filled]
    exact trails.versionAt_append filled
  have marked (rest : Text) (trails : Trails mark rest) : rewrite (erase afterVersion) 0 rest = [] := by
    have all : afterVersion rest = some [] := by
      rw [afterVersion, trails.dropWhile, version]
      rfl
    rw [erase_some advances_afterVersion all]
    rfl
  induction text using erase_induction advances_afterVersion with
  | nil => exact marked tail trails
  | skip first others none_ ih =>
    have filled : (first :: others).dropWhile Strings.isSpace ≠ [] := fun blank =>
      List.cons_ne_nil _ _ (solid.dropWhile blank)
    have still : afterVersion (first :: (others ++ tail)) = none := by
      rw [<- List.cons_append]
      unfold afterVersion at none_ ⊢
      rw [found _ filled, Option.map_eq_none_iff.mp none_]
      rfl
    rw [List.cons_append, erase_none still, erase_none none_, ih (solid.suffix (List.suffix_cons _ _))]
  | jump first others rest' matched ih =>
    rcases Option.map_eq_some_iff.mp matched with ⟨left, at_, rfl⟩
    have filled : (first :: others).dropWhile Strings.isSpace ≠ [] := fun blank =>
      List.cons_ne_nil _ _ (solid.dropWhile blank)
    have again : afterVersion (first :: others ++ tail) =
        some (if left.dropWhile Strings.isSpace = [] then mark else left.dropWhile Strings.isSpace ++ tail) := by
      rw [afterVersion, found _ filled, at_, <- trails.dropWhile_append]
      rfl
    rw [erase_some advances_afterVersion again, erase_some advances_afterVersion matched]
    by_cases blank : left.dropWhile Strings.isSpace = []
    · rw [if_pos blank, blank, marked mark trails.self]
      rfl
    · rw [if_neg blank]
      exact ih (solid.suffix (advances_afterVersion _ _ matched).1)

end Versions

/-! ## The subject of a version -/

section

omit [Alphabet]

/-- A text and the white space at its end. -/
theorem strip_split {rest : Text} (begins : text = char :: rest) (solid : Strings.isSpace char = false) :
    Solid (strip text) ∧ ∃ blank, text = strip text ++ blank ∧
      ∀ char ∈ blank, Strings.isSpace char = true := by
  have kept : text.dropWhile Strings.isSpace = text := by
    rw [begins]
    exact List.dropWhile_cons_of_neg (Bool.eq_false_iff.mp solid)
  have whole := List.takeWhile_append_dropWhile (p := Strings.isSpace) (l := text.reverse)
  refine ⟨?_, (text.reverse.takeWhile Strings.isSpace).reverse, ?_, ?_⟩
  · intro last ends
    rw [strip, kept, List.getLast?_reverse] at ends
    cases left : text.reverse.dropWhile Strings.isSpace with
    | nil => rw [left] at ends; cases ends
    | cons first others =>
      rw [left] at ends
      cases ends
      have stops := List.head_dropWhile_not Strings.isSpace (l := text.reverse)
        (by rw [left]; exact List.cons_ne_nil _ _)
      simp only [left, List.head_cons] at stops
      exact stops
  · rw [strip, kept, <- List.reverse_append, whole, List.reverse_reverse]
  · intro char member
    exact List.mem_takeWhile_imp (List.mem_reverse.mp member)

theorem strip_append {mark tail : Text} (trails : Trails mark tail) (ends : Solid mark) (text : Text) :
    ∃ left, Trails mark left ∧ Solid (strip text) ∧ strip (text ++ tail) = strip text ++ left := by
  have solid : Solid tail := by
    rcases trails.spaces with ⟨spaces, rfl, _⟩
    intro char last
    have filled : mark ≠ [] := by
      intro empty
      have begins := trails.begins
      rw [empty] at begins
      cases begins
    rw [List.getLast?_append_of_ne_nil _ filled] at last
    exact ends char last
  have back (line : Text) (last : Solid line) : (line.reverse.dropWhile Strings.isSpace).reverse = line := by
    cases reversed : line.reverse with
    | nil => rw [<- List.reverse_reverse line, reversed]; rfl
    | cons char rest =>
      have here : line.getLast? = some char := by rw [<- List.head?_reverse, reversed]; rfl
      rw [List.dropWhile_cons_of_neg (Bool.eq_false_iff.mp (last char here)), <- reversed, List.reverse_reverse]
  have joined (line : Text) : Solid (line ++ tail) := by
    intro char last
    rcases trails.head with ⟨first, rest, rfl, _⟩
    rw [List.getLast?_append_cons] at last
    exact solid char last
  by_cases blank : text.dropWhile Strings.isSpace = []
  · have empty : strip text = [] := by rw [strip, blank]; rfl
    refine ⟨mark, trails.self, by rw [empty]; exact nofun, ?_⟩
    rw [strip, trails.dropWhile_append, if_pos blank, empty, back mark ends]
    rfl
  · cases begins : text.dropWhile Strings.isSpace with
    | nil => exact absurd begins blank
    | cons char rest =>
      have first : Strings.isSpace char = false := by
        have stops := List.head_dropWhile_not Strings.isSpace (l := text) blank
        simp only [begins, List.head_cons] at stops
        exact stops
      have same : strip text = strip (text.dropWhile Strings.isSpace) := by
        unfold strip
        rw [begins, List.dropWhile_cons_of_neg (Bool.eq_false_iff.mp first)]
      rcases strip_split begins first with ⟨stripped, gap, whole, spaces⟩
      rw [same]
      refine ⟨gap ++ tail, ⟨trails.begins, ?_⟩, stripped, ?_⟩
      · rcases trails.spaces with ⟨others, rfl, more⟩
        refine ⟨gap ++ others, (List.append_assoc _ _ _).symm, ?_⟩
        intro char member
        rcases List.mem_append.mp member with inside | inside
        · exact spaces char inside
        · exact more char inside
      · rw [strip, trails.dropWhile_append, if_neg blank, back _ (joined _), <- List.append_assoc, <- whole]

/-- The mark without the blanks before it. -/
def versionSign (ver ts : Nat) : Text :=
  "# v".toList ++ (Nat.toDigits 10 ver ++ (" @".toList ++ Nat.toDigits 10 ts))

theorem versionMark_eq (ver ts : Nat) : versionMark ver ts = "  ".toList ++ versionSign ver ts := by
  have marks : "  # v".toList = "  ".toList ++ "# v".toList := rfl
  rw [versionMark, versionSign, marks]
  simp only [List.append_assoc]

theorem mem_toDigits {number : Nat} (member : char ∈ Nat.toDigits 10 number) :
    char ∈ "0123456789".toList := by
  have digit := Char.isDigit_iff_toNat.mp (Nat.isDigit_of_mem_toDigits (by decide) (by decide) member)
  have bound : char.toNat ∈ [48, 49, 50, 51, 52, 53, 54, 55, 56, 57] := by
    have zero : '0'.toNat = 48 := rfl
    have nine : '9'.toNat = 57 := rfl
    simp only [List.mem_cons, List.not_mem_nil, or_false]
    omega
  have back : Char.ofNat char.toNat = char := Char.ofNat_toNat char
  simp only [List.mem_cons, List.not_mem_nil, or_false] at bound
  rcases bound with code | code | code | code | code | code | code | code | code | code <;>
    (rw [code] at back; rw [<- back]; decide)

theorem afterDigits_toDigits (number : Nat) (rest : Text)
    (stops : ∀ char, rest.head? = some char -> isDigit char = false) :
    afterDigits (Nat.toDigits 10 number ++ rest) = some rest := by
  have digits := PatchEngine.digits_toDigits number
  have all := List.all_eq_true.mp digits.2
  have taken : (Nat.toDigits 10 number ++ rest).takeWhile isDigit ≠ [] := by
    rw [List.takeWhile_append_of_pos all]
    exact fun empty => digits.1 (List.append_eq_nil_iff.mp empty).1
  rw [afterDigits, if_neg taken, List.dropWhile_append_of_pos all]
  cases rest with
  | nil => rfl
  | cons char rest => rw [List.dropWhile_cons_of_neg (Bool.eq_false_iff.mp (stops char rfl))]

theorem versionAt_versionSign (ver ts : Nat) : versionAt (versionSign ver ts) = some [] := by
  have letter (rest : Text) : afterSign 'v' (' ' :: 'v' :: rest) = some rest := rfl
  have sign (rest : Text) : afterSign '@' (' ' :: '@' :: rest) = some rest := rfl
  have first := afterDigits_toDigits ver (' ' :: '@' :: Nat.toDigits 10 ts) (by
    intro char same
    cases same
    rfl)
  have second := afterDigits_toDigits ts [] nofun
  rw [List.append_nil] at second
  change ((some (' ' :: 'v' :: (Nat.toDigits 10 ver ++ ' ' :: '@' :: Nat.toDigits 10 ts))).bind _ : Option Text) = _
  rw [Option.bind_some, letter, Option.bind_some, first, Option.bind_some, sign, Option.bind_some, second]

theorem mem_versionMark {ver ts : Nat} (member : char ∈ versionMark ver ts) :
    char ∈ " #v@0123456789".toList := by
  have digits : ∀ digit ∈ "0123456789".toList, digit ∈ " #v@0123456789".toList :=
    forall_mem_of_all (by decide)
  rw [versionMark, List.mem_append, List.mem_append, List.mem_append] at member
  rcases member with ((opens | ver) | sign) | ts
  · exact forall_mem_of_all (by decide) char opens
  · exact digits char (mem_toDigits ver)
  · exact forall_mem_of_all (by decide) char sign
  · exact digits char (mem_toDigits ts)

theorem of_mem_versionMark {ver ts : Nat} (member : char ∈ versionMark ver ts) :
    Uncased char ∧ char ∉ ['\n', '\r', '-', '['] := by
  have known : ∀ char ∈ " #v@0123456789".toList,
      (Strings.isSpace char = true ∨ char ∈ "#v@0123456789".toList) ∧ char ∉ ['\n', '\r', '-', '['] :=
    forall_mem_of_all (by decide)
  exact known char (mem_versionMark member)

theorem solid_versionSign (ver ts : Nat) : Solid (versionSign ver ts) := by
  have solid : ∀ digit ∈ "0123456789".toList, Strings.isSpace digit = false :=
    forall_mem_of_all (by decide)
  intro char last
  have filled : Nat.toDigits 10 ts ≠ [] := (PatchEngine.digits_toDigits ts).1
  rw [versionSign, <- List.append_assoc, <- List.append_assoc, List.getLast?_append_of_ne_nil _ filled] at last
  exact solid char (mem_toDigits (List.mem_of_getLast? last))

theorem firstLine_versioned (broken : '\n' ∈ text) (ver ts : Nat) :
    firstLine (versioned text ver ts) = firstLine text ++ versionMark ver ts := by
  have line (char : Char) (member : char ∈ firstLine text ++ versionMark ver ts) : (char != '\n') = true := by
    rw [bne_iff_ne]
    rcases List.mem_append.mp member with inside | mark
    · exact bne_iff_ne.mp (List.mem_takeWhile_imp (p := fun char => char != '\n') inside)
    · exact fun same => (of_mem_versionMark mark).2 (by rw [same]; decide)
  rw [versioned, if_pos broken, firstLine, List.takeWhile_append_of_pos line]
  cases rest : text.dropWhile (fun char => char != '\n') with
  | nil => rw [List.takeWhile_nil, List.append_nil]
  | cons char others =>
    have stops := List.head_dropWhile_not (fun char => char != '\n') (l := text)
      (by rw [rest]; exact List.cons_ne_nil _ _)
    simp only [rest, List.head_cons] at stops
    rw [@List.takeWhile_cons_of_neg Char (fun char => char != '\n') _ _ (Bool.eq_false_iff.mp stops), List.append_nil]

theorem firstLine_begins (writable : Writable text) :
    ∃ char rest, firstLine text = char :: rest ∧ Strings.isSpace char = false := by
  cases text with
  | nil => exact absurd rfl writable.nonempty
  | cons char rest =>
    have solid := (strip_eq_iff.mp writable.stripped).1 char rfl
    have other : char ≠ '\n' := by
      rintro rfl
      cases solid
    exact ⟨char, _, List.takeWhile_cons_of_pos (bne_iff_ne.mpr other), solid⟩

end

theorem subjectKey_versioned [LawfulAlphabet] (writable : Writable text) (ver ts : Nat) :
    subjectKey (versioned text ver ts) = subjectKey text := by
  by_cases broken : '\n' ∈ text
  · rcases firstLine_begins writable with ⟨char, rest, begins, solid⟩
    rcases strip_split begins solid with ⟨_, blank, whole, spaces⟩
    -- the stripped line, and the mark with the blanks before it
    have cut : strip (firstLine text ++ versionMark ver ts) =
        strip (firstLine text) ++ (blank ++ versionMark ver ts) := by
      have ends : Trails (versionSign ver ts) (versionMark ver ts) :=
        ⟨rfl, "  ".toList, versionMark_eq ver ts, forall_mem_of_all (by decide)⟩
      have same : strip (firstLine text ++ versionMark ver ts) = firstLine text ++ versionMark ver ts := by
        refine strip_eq_iff.mpr ⟨?_, ?_⟩
        · intro first same
          rw [begins] at same
          cases same
          exact solid
        · intro last same
          have filled : versionSign ver ts ≠ [] := List.cons_ne_nil _ _
          rw [versionMark_eq, <- List.append_assoc, List.getLast?_append_of_ne_nil _ filled] at same
          exact solid_versionSign ver ts last same
      rw [same]
      conv_lhs => rw [whole]
      rw [List.append_assoc]
    have trails : Trails (versionSign ver ts) (blank ++ versionMark ver ts) := by
      refine ⟨rfl, blank ++ "  ".toList, by rw [versionMark_eq, List.append_assoc], ?_⟩
      intro char member
      rcases List.mem_append.mp member with inside | inside
      · exact spaces char inside
      · have blanks : ∀ char ∈ "  ".toList, Strings.isSpace char = true := forall_mem_of_all (by decide)
        exact blanks char inside
    have uncased (char : Char) (member : char ∈ blank ++ versionMark ver ts) : Uncased char ∧ char ≠ '[' := by
      rcases List.mem_append.mp member with inside | inside
      · refine ⟨Or.inl (spaces char inside), ?_⟩
        rintro rfl
        cases spaces '[' inside
      · exact ⟨(of_mem_versionMark inside).1, fun same => (of_mem_versionMark inside).2 (by rw [same]; decide)⟩
    have lowered : lower (strip (firstLine text) ++ (blank ++ versionMark ver ts)) =
        lower (strip (firstLine text)) ++ (blank ++ versionMark ver ts) := by
      cases tail : blank ++ versionMark ver ts with
      | nil => exact absurd (List.append_eq_nil_iff.mp tail).2 (List.cons_ne_nil _ _)
      | cons first others =>
        have space : Strings.isSpace first = true := by
          cases blank with
          | nil => cases tail; rfl
          | cons char blank => cases tail; exact spaces _ List.mem_cons_self
        exact LawfulAlphabet.lower_append _ first others space
          (fun other member => (uncased other (tail ▸ member)).1)
    rcases erase_authority_append trails (fun member => (uncased '[' member).2 rfl)
      (lower (strip (firstLine text))) with ⟨first, leaves, erased⟩
    rcases strip_append leaves (solid_versionSign ver ts)
      (rewrite (erase afterAuthority) 0 (lower (strip (firstLine text)))) with ⟨second, ends, stripped, same⟩
    rw [subjectKey, firstLine_versioned broken, cut, lowered, erased, same,
      erase_version_append ends (versionAt_versionSign ver ts) stripped]
    rfl
  · rw [versioned, if_neg broken]

end DurableMemory
end FixLoop
