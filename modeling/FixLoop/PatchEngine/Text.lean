import Mathlib.Data.List.Basic

namespace FixLoop
namespace PatchEngine

/-!
# Texts and their lines

A text is a list of characters.  `_lines` accepts texts whose line endings
are all `\n` or all `\r\n` and works on the normalised form, in which every
ending is `\n`.
-/

abbrev Text := List Char

structure PatchError where
  message : String
  code : String

/-- A `PatchError` with the default code. -/
def invalidPatch (message : String) : PatchError := ⟨message, "invalid_patch"⟩

def stalePreimage (message : String) : PatchError := ⟨message, "stale_preimage"⟩

inductive Newline where
  | lf
  | crlf
deriving DecidableEq

def Newline.text : Newline -> Text
  | lf => ['\n']
  | crlf => ['\r', '\n']

/-- `"\r\n" in text`. -/
def hasCrlf : Text -> Bool
  | first :: second :: rest => (first = '\r' && second = '\n') || hasCrlf (second :: rest)
  | _ => false

/-- `text.replace("\r\n", by)`. -/
def replaceCrlf (by_ : Text) : Text -> Text
  | first :: second :: rest =>
    if first = '\r' ∧ second = '\n' then by_ ++ replaceCrlf by_ rest
    else first :: replaceCrlf by_ (second :: rest)
  | text => text

/-- `text.replace("\n", newline)`. -/
def replaceLf (newline : Newline) (text : Text) : Text :=
  text.flatMap fun char => if char = '\n' then newline.text else [char]

/-- The texts with a lone `\r` or with both kinds of line ending. -/
def mixedNewlines (text : Text) : Bool :=
  '\r' ∈ replaceCrlf ['\n'] text || (hasCrlf text && '\n' ∈ replaceCrlf [] text)

/-- The lines of a normalised text with their endings. -/
def keepLines (normalized : Text) : List Text :=
  let parts := normalized.splitOn '\n'
  parts.dropLast.map (fun part => part ++ ['\n']) ++
    (if parts.getLastD [] = [] then [] else [parts.getLastD []])

/-- The lines of a normalised text without their endings. -/
def dropLines (normalized : Text) : List Text :=
  let parts := normalized.splitOn '\n'
  if normalized.getLast? = some '\n' then parts.dropLast
  else if normalized = [] then [] else parts

/-- The kind of line ending in a text that has one. -/
def endings (text : Text) : Option Newline :=
  if hasCrlf text then some .crlf else if '\n' ∈ text then some .lf else none

def lines (text : Text) (keepends : Bool) : Except PatchError (List Text) :=
  if '\x00' ∈ text then .error (invalidPatch "binary text is unsupported")
  else if mixedNewlines text then
    .error (invalidPatch "mixed or CR-only newlines are unsupported")
  else
    let normalized := replaceCrlf ['\n'] text
    .ok (if keepends then keepLines normalized else dropLines normalized)

/-! ## Normalisation -/

/-- A normalised text that is no binary data. -/
structure Plain (text : Text) : Prop where
  noReturn : '\r' ∉ text
  noNull : '\x00' ∉ text

theorem hasCrlf_eq_false {text : Text} (noReturn : '\r' ∉ text) : hasCrlf text = false := by
  induction text with
  | nil => rfl
  | cons first rest ih =>
    cases rest with
    | nil => rfl
    | cons second rest =>
      have different : first ≠ '\r' := fun same => noReturn (same ▸ List.mem_cons_self)
      simp only [hasCrlf, different, decide_false, Bool.false_and, Bool.false_or]
      exact ih fun member => noReturn (List.mem_cons_of_mem first member)

theorem replaceCrlf_eq_self {by_ text : Text} (noReturn : '\r' ∉ text) :
    replaceCrlf by_ text = text := by
  induction text with
  | nil => rfl
  | cons first rest ih =>
    cases rest with
    | nil => rfl
    | cons second rest =>
      have different : first ≠ '\r' := fun same => noReturn (same ▸ List.mem_cons_self)
      simp only [replaceCrlf, different, false_and, if_false]
      rw [ih fun member => noReturn (List.mem_cons_of_mem first member)]

theorem mixedNewlines_eq_false {text : Text} (noReturn : '\r' ∉ text) :
    mixedNewlines text = false := by
  rw [mixedNewlines, replaceCrlf_eq_self noReturn, hasCrlf_eq_false noReturn]
  simp only [noReturn, decide_false, Bool.false_and, Bool.or_self]

theorem replaceLf_lf (text : Text) : replaceLf .lf text = text := by
  have keeps : (fun char => if char = '\n' then Newline.lf.text else [char]) =
      fun char : Char => [char] := by
    funext char
    by_cases newline : char = '\n'
    · rw [if_pos newline, newline]
      rfl
    · rw [if_neg newline]
  rw [replaceLf, keeps, List.flatMap_singleton']

theorem replaceLf_cons (newline : Newline) (char : Char) (text : Text) :
    replaceLf newline (char :: text) =
      (if char = '\n' then newline.text else [char]) ++ replaceLf newline text := by
  rw [replaceLf, List.flatMap_cons, replaceLf]

variable {newline : Newline} {ls : List Text}

theorem replaceLf_eq_self {text : Text} (single : '\n' ∉ text) : replaceLf newline text = text := by
  induction text with
  | nil => rfl
  | cons char rest ih =>
    have different : char ≠ '\n' := fun same => single (same ▸ List.mem_cons_self)
    rw [replaceLf_cons, if_neg different,
      ih fun member => single (List.mem_cons_of_mem char member)]
    rfl

theorem replaceCrlf_replaceLf {by_ text : Text} (noReturn : '\r' ∉ text) :
    replaceCrlf by_ (replaceLf .crlf text) =
      text.flatMap (fun char => if char = '\n' then by_ else [char]) := by
  induction text with
  | nil => rfl
  | cons char rest ih =>
    have tail := ih fun member => noReturn (List.mem_cons_of_mem char member)
    have different : char ≠ '\r' := fun same => noReturn (same ▸ List.mem_cons_self)
    rw [replaceLf_cons, List.flatMap_cons, ← tail]
    by_cases newline : char = '\n'
    · rw [if_pos newline, if_pos newline]
      rfl
    · rw [if_neg newline, if_neg newline]
      cases replaceLf .crlf rest with
      | nil => rfl
      | cons next rest =>
        simp only [List.cons_append, List.nil_append, replaceCrlf, different, false_and, if_false]

theorem hasCrlf_replaceLf {text : Text} (noReturn : '\r' ∉ text) :
    hasCrlf (replaceLf .crlf text) = decide ('\n' ∈ text) := by
  induction text with
  | nil => rfl
  | cons char rest ih =>
    have tail := ih fun member => noReturn (List.mem_cons_of_mem char member)
    have different : char ≠ '\r' := fun same => noReturn (same ▸ List.mem_cons_self)
    rw [replaceLf_cons]
    by_cases newline : char = '\n'
    · rw [if_pos newline, newline]
      simp only [Newline.text, List.cons_append, List.nil_append, hasCrlf, decide_true,
        Bool.and_self, Bool.true_or, List.mem_cons, true_or]
    · have single : decide ('\n' ∈ char :: rest) = decide ('\n' ∈ rest) := by
        simp only [List.mem_cons, Ne.symm newline, false_or]
      rw [if_neg newline, single, ← tail]
      cases replaceLf .crlf rest with
      | nil => rfl
      | cons next rest =>
        simp only [List.cons_append, List.nil_append, hasCrlf, different, decide_false,
          Bool.false_and, Bool.false_or]

theorem mem_replaceLf {text : Text} {char : Char} (ordinary : char ≠ '\r')
    (member : char ∈ replaceLf newline text) : char ∈ text := by
  rcases List.mem_flatMap.mp member with ⟨original, present, image⟩
  by_cases ending : original = '\n'
  · rw [if_pos ending] at image
    cases newline with
    | lf =>
      rw [List.mem_singleton.mp image, ← ending]
      exact present
    | crlf =>
      rcases List.mem_cons.mp image with same | image
      · exact absurd same ordinary
      · rw [List.mem_singleton.mp image, ← ending]
        exact present
  · rw [if_neg ending] at image
    rw [List.mem_singleton.mp image]
    exact present

/-- A plain text under either kind of line ending normalises to itself. -/
theorem normalize_replaceLf {text : Text} (noReturn : '\r' ∉ text) :
    replaceCrlf ['\n'] (replaceLf newline text) = text := by
  cases newline with
  | lf => rw [replaceLf_lf, replaceCrlf_eq_self noReturn]
  | crlf =>
    rw [replaceCrlf_replaceLf noReturn]
    exact replaceLf_lf text

theorem mixedNewlines_replaceLf {text : Text} (noReturn : '\r' ∉ text) :
    mixedNewlines (replaceLf newline text) = false := by
  cases newline with
  | lf => rw [replaceLf_lf, mixedNewlines_eq_false noReturn]
  | crlf =>
    have removed : '\n' ∉ replaceCrlf [] (replaceLf .crlf text) := by
      rw [replaceCrlf_replaceLf noReturn]
      intro member
      rcases List.mem_flatMap.mp member with ⟨char, _, image⟩
      by_cases ending : char = '\n'
      · rw [if_pos ending] at image
        exact List.not_mem_nil image
      · rw [if_neg ending] at image
        exact ending (List.mem_singleton.mp image).symm
    rw [mixedNewlines, normalize_replaceLf noReturn]
    simp only [noReturn, removed, decide_false, Bool.and_false, Bool.or_self]

theorem endings_replaceLf {newline : Newline} {text : Text} (noReturn : '\r' ∉ text) :
    endings (replaceLf newline text) = if '\n' ∈ text then some newline else none := by
  cases newline with
  | lf =>
    rw [replaceLf_lf, endings, hasCrlf_eq_false noReturn]
    rfl
  | crlf =>
    rw [endings, hasCrlf_replaceLf noReturn]
    by_cases present : '\n' ∈ text
    · simp only [present, decide_true, if_true]
    · rw [replaceLf_eq_self present]
      simp only [present, decide_false, Bool.false_eq_true, if_false]

theorem lines_replaceLf {newline : Newline} {text : Text} (plain : Plain text) (keepends : Bool) :
    lines (replaceLf newline text) keepends =
      .ok (if keepends then keepLines text else dropLines text) := by
  have noNull : '\x00' ∉ replaceLf newline text := fun member =>
    plain.noNull (mem_replaceLf (by decide) member)
  rw [lines, if_neg noNull, mixedNewlines_replaceLf plain.noReturn, normalize_replaceLf plain.noReturn]
  rfl

theorem lines_plain {text : Text} (plain : Plain text) (keepends : Bool) :
    lines text keepends = .ok (if keepends then keepLines text else dropLines text) := by
  have same := @lines_replaceLf .lf text plain keepends
  rwa [replaceLf_lf] at same

/-! ## The lines of a text -/

/-- Lines with their endings: all but the last end in `\n`, the last one may
lack it but is not empty then, and no line contains another `\n`. -/
inductive LineList : List Text -> Prop
  | nil : LineList []
  | last (content : Text) (nonempty : content ≠ []) (single : '\n' ∉ content) : LineList [content]
  | cons (content : Text) (single : '\n' ∉ content) {rest : List Text} (later : LineList rest) :
      LineList ((content ++ ['\n']) :: rest)

theorem splitOn_no_newline {text : Text} (single : '\n' ∉ text) : text.splitOn '\n' = [text] := by
  have parts : ∀ part ∈ [text], '\n' ∉ part := by
    intro part member
    rwa [List.mem_singleton.mp member]
  have joined := List.splitOn_intercalate '\n' parts (List.cons_ne_nil text [])
  simpa only [List.intercalate_singleton] using joined

theorem keepLines_single {text : Text} (single : '\n' ∉ text) :
    keepLines text = if text = [] then [] else [text] := by
  rw [keepLines, splitOn_no_newline single]
  rfl

theorem keepLines_cons {content : Text} (single : '\n' ∉ content) (rest : Text) :
    keepLines (content ++ ['\n'] ++ rest) = (content ++ ['\n']) :: keepLines rest := by
  have split : (content ++ ['\n'] ++ rest).splitOn '\n' = content :: rest.splitOn '\n' := by
    rw [List.append_assoc]
    exact List.splitOn_append_cons_self_of_not_mem single rest
  rw [keepLines, split, keepLines]
  cases parts : rest.splitOn '\n' with
  | nil => exact absurd parts (List.splitOn_ne_nil '\n' rest)
  | cons first others => rfl

theorem keepLines_flatten (lineList : LineList ls) : keepLines ls.flatten = ls := by
  induction lineList with
  | nil => rfl
  | last content nonempty single =>
    rw [List.flatten_singleton, keepLines_single single, if_neg nonempty]
  | cons content single later ih =>
    rw [List.flatten_cons, keepLines_cons single, ih]

theorem text_induction {motive : Text -> Prop}
    (last : ∀ content, '\n' ∉ content -> motive content)
    (line : ∀ content rest, '\n' ∉ content -> motive rest -> motive (content ++ ['\n'] ++ rest))
    (text : Text) : motive text := by
  have extended : ∀ content, '\n' ∉ content -> motive (content ++ text) := by
    induction text with
    | nil =>
      intro content single
      rw [List.append_nil]
      exact last content single
    | cons char rest ih =>
      intro content single
      by_cases ending : char = '\n'
      · have joined := line content rest single (ih [] List.not_mem_nil)
        rw [ending]
        simpa only [List.append_assoc, List.cons_append, List.nil_append] using joined
      · have longer : '\n' ∉ content ++ [char] := by
          intro member
          rcases List.mem_append.mp member with inside | here
          · exact single inside
          · exact ending (List.mem_singleton.mp here).symm
        have joined := ih (content ++ [char]) longer
        simpa only [List.append_assoc, List.cons_append, List.nil_append] using joined
  exact extended [] List.not_mem_nil

theorem lineList_keepLines (text : Text) : LineList (keepLines text) := by
  induction text using text_induction with
  | last content single =>
    rw [keepLines_single single]
    by_cases empty : content = []
    · rw [if_pos empty]
      exact .nil
    · rw [if_neg empty]
      exact .last content empty single
  | line content rest single ih =>
    rw [keepLines_cons single]
    exact .cons content single ih

theorem flatten_keepLines (text : Text) : (keepLines text).flatten = text := by
  induction text using text_induction with
  | last content single =>
    rw [keepLines_single single]
    by_cases empty : content = []
    · rw [if_pos empty, empty]
      rfl
    · rw [if_neg empty, List.flatten_singleton]
  | line content rest single ih =>
    rw [keepLines_cons single, List.flatten_cons, ih]

/-- The check of `apply_text` on its output lines: every line but the last
ends in `\n`. -/
def terminated (ls : List Text) : Bool :=
  ls.dropLast.all fun line => line.getLast? == some '\n'

/-- What a line of the output is made of. -/
def LineShape (line : Text) : Prop :=
  ∃ content, '\n' ∉ content ∧ (line = content ++ ['\n'] ∨ line = content)

theorem LineList.shape (lineList : LineList ls) {line : Text} (member : line ∈ ls) :
    LineShape line ∧ line ≠ [] := by
  induction lineList with
  | nil => exact False.elim (List.not_mem_nil member)
  | last content nonempty single =>
    rw [List.mem_singleton.mp member]
    exact ⟨⟨content, single, Or.inr rfl⟩, nonempty⟩
  | cons content single later ih =>
    rcases List.mem_cons.mp member with rfl | member
    · exact ⟨⟨content, single, Or.inl rfl⟩, by simp⟩
    · exact ih member

theorem LineList.terminated (lineList : LineList ls) : terminated ls = true := by
  induction lineList with
  | nil => rfl
  | last content nonempty single => rfl
  | @cons content single rest later ih =>
    cases rest with
    | nil => rfl
    | cons next rest =>
      rw [PatchEngine.terminated, List.dropLast_cons_cons, List.all_cons, Bool.and_eq_true]
      refine ⟨?_, ih⟩
      rw [List.getLast?_append, List.getLast?_singleton]
      rfl

/-- Nonempty lines of the right shape that pass the check form a text. -/
theorem lineList_of_terminated (shapes : ∀ line ∈ ls, LineShape line)
    (nonempty : ∀ line ∈ ls, line ≠ []) (ends : terminated ls = true) : LineList ls := by
  induction ls with
  | nil => exact .nil
  | cons line rest ih =>
    rcases shapes line List.mem_cons_self with ⟨content, single, shape⟩
    cases rest with
    | nil =>
      rcases shape with rfl | rfl
      · exact .cons content single .nil
      · exact .last _ (nonempty _ List.mem_cons_self) single
    | cons next rest =>
      rw [PatchEngine.terminated, List.dropLast_cons_cons, List.all_cons, Bool.and_eq_true,
        beq_iff_eq] at ends
      have later := ih (fun line member => shapes line (List.mem_cons_of_mem _ member))
        (fun line member => nonempty line (List.mem_cons_of_mem _ member)) ends.2
      rcases shape with rfl | rfl
      · exact .cons content single later
      · exact absurd (List.mem_of_getLast? ends.1) single

end PatchEngine
end FixLoop
