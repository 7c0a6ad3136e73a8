import FixLoop.PatchEngine.Envelope
import FixLoop.PatchEngine.FileDiff

namespace FixLoop
namespace PatchEngine

/-!
# Written envelopes

A list of operations is written as an envelope, bare or in a fence, and is
read back.  A path is read with its backslashes turned into slashes, and the
hunks of an update with a final newline.
-/

inductive Operation where
  | add (path text : Text)
  | update (path hunks : Text)
  | delete (path : Text)

namespace Operation

def action : Operation -> FileAction
  | add _ _ => .add
  | update _ _ => .update
  | delete _ => .delete

def path : Operation -> Text
  | add path _ => path
  | update path _ => path
  | delete path => path

/-- The lines after the header. -/
def content : Operation -> List Text
  | add _ text => (dropLines text).map (List.cons '+')
  | update _ hunks => dropLines hunks
  | delete _ => []

def render (operation : Operation) : List Text :=
  (opening operation.action ++ operation.path) :: operation.content

end Operation

/-- A text with a final newline. -/
def closed (text : Text) : Text := if text.getLast? = some '\n' then text else text ++ ['\n']

/-- The diff that is read back. -/
def Operation.diff : Operation -> Text
  | .add _ text => text
  | .update _ hunks => closed hunks
  | .delete _ => []

def Operation.parsed (operation : Operation) : ApplyPatchOp :=
  ⟨operation.action, slashed operation.path, operation.diff, none⟩

def envelope (operations : List Operation) : List Text :=
  beginLine :: operations.flatMap Operation.render ++ [endLine]

/-- How an envelope is wrapped: bare, or in a fence with a language; each with
or without a final newline. -/
inductive Wrapping (letter : Char -> Bool) where
  | bare (final : Bool)
  | fenced (language : Text) (word : ∀ char ∈ language, isWord letter char = true) (final : Bool)

def written (letter : Char -> Bool) (wrapping : Wrapping letter) (operations : List Operation) : Text :=
  match wrapping with
  | .bare final => joinLines final (envelope operations)
  | .fenced language _ final =>
    fence ++ (language ++ '\n' :: (joinLines false (envelope operations) ++ '\n' :: fence)) ++
      (if final then ['\n'] else [])

/-- What the envelope can hold. -/
inductive Writable (fenced : Bool) : Operation -> Prop where
  | add (path text : Text) : path ≠ [] -> SingleLine path -> Plain text ->
      text = [] ∨ text.getLast? = some '\n' -> Writable fenced (.add path text)
  | update (path hunks : Text) : path ≠ [] -> SingleLine path -> Plain hunks -> hunks ≠ [] ->
      (∀ line ∈ dropLines hunks, startsWith stars line = false ∧
        (fenced = true -> startsWith fence line = false)) -> Writable fenced (.update path hunks)
  | delete (path : Text) : path ≠ [] -> SingleLine path -> Writable fenced (.delete path)

def Wrapping.isFenced {letter : Char -> Bool} : Wrapping letter -> Bool
  | .bare _ => false
  | .fenced _ _ _ => true

variable {ls : List Text} {text line : Text}

theorem dropLines_joined {final : Bool} (single : ∀ line ∈ ls, '\n' ∉ line)
    (shows : final = true ∨ ls.getLast? ≠ some []) : dropLines (joinLines final ls) = ls := by
  induction ls with
  | nil => rfl
  | cons line rest ih =>
    have here := single line List.mem_cons_self
    cases rest with
    | nil =>
      cases final with
      | true => exact dropLines_cons here []
      | false =>
        have filled : line ≠ [] := by
          intro empty
          rcases shows with impossible | other
          · cases impossible
          · exact other (congrArg some empty)
        change dropLines (line ++ []) = [line]
        rw [List.append_nil, dropLines_single here, if_neg filled]
    | cons next rest =>
      rw [joinLines, dropLines_cons here]
      rw [List.getLast?_cons_cons] at shows
      rw [ih (fun line member => single line (List.mem_cons_of_mem _ member)) shows]

theorem plain_joined {final : Bool} (plain : ∀ line ∈ ls, Plain line) :
    Plain (joinLines final ls) := by
  induction ls with
  | nil => exact ⟨List.not_mem_nil, List.not_mem_nil⟩
  | cons line rest ih =>
    have here := plain line List.mem_cons_self
    have later := ih fun line member => plain line (List.mem_cons_of_mem _ member)
    cases rest with
    | nil =>
      cases final with
      | true =>
        change Plain (line ++ ['\n'])
        exact ⟨by simpa using here.noReturn, by simpa using here.noNull⟩
      | false =>
        change Plain (line ++ [])
        rwa [List.append_nil]
    | cons next rest =>
      rw [joinLines]
      exact ⟨by simpa using ⟨here.noReturn, later.noReturn⟩,
        by simpa using ⟨here.noNull, later.noNull⟩⟩

theorem join_dropLines (nonempty : text ≠ []) :
    dropLines text ≠ [] ∧ joinLines false (dropLines text) ++ ['\n'] = closed text := by
  induction text using text_induction with
  | last content single =>
    have open_ : content.getLast? ≠ some '\n' := fun ends => single (List.mem_of_getLast? ends)
    rw [dropLines_single single, if_neg nonempty, closed, if_neg open_]
    exact ⟨List.cons_ne_nil _ _, by simp [joinLines]⟩
  | line content rest single ih =>
    have whole : content ++ ['\n'] ++ rest = content ++ '\n' :: rest := by simp
    rw [whole, dropLines_cons single]
    refine ⟨List.cons_ne_nil _ _, ?_⟩
    by_cases empty : rest = []
    · subst empty
      have ends : (content ++ ['\n']).getLast? = some '\n' := by simp
      rw [closed, if_pos ends]
      simp [dropLines, joinLines]
    · rcases ih empty with ⟨filled, joined⟩
      rcases List.exists_cons_of_ne_nil filled with ⟨first, later, same⟩
      rw [same] at joined ⊢
      rw [joinLines, List.append_assoc, List.cons_append, joined]
      have ends : (content ++ '\n' :: rest).getLast? = rest.getLast? := by
        rcases List.exists_cons_of_ne_nil empty with ⟨char, chars, rfl⟩
        rw [List.getLast?_append_cons, List.getLast?_cons_cons]
      unfold closed
      rw [ends]
      split <;> simp

/-! ## Operations are read back -/

theorem matchFileHeader_opening (action : FileAction) {path : Text} (nonempty : path ≠ [])
    (single : '\n' ∉ path) : matchFileHeader (opening action ++ path) = some (action, path) := by
  have named : expect (opening action) (opening action ++ path) = some path := expect_append _ _
  have taken : (if path = [] ∨ '\n' ∈ path then none else some (action, path)) = some (action, path) :=
    if_neg (not_or.mpr ⟨nonempty, single⟩)
  unfold matchFileHeader
  cases action with
  | update =>
    rw [List.findSome?_cons, named, Option.bind_some, taken]
  | add =>
    have other : expect (opening .update) (opening .add ++ path) = none := rfl
    rw [List.findSome?_cons, other, Option.bind_none]
    rw [List.findSome?_cons, named, Option.bind_some, taken]
  | delete =>
    have first : expect (opening .update) (opening .delete ++ path) = none := rfl
    have second : expect (opening .add) (opening .delete ++ path) = none := rfl
    rw [List.findSome?_cons, first, Option.bind_none]
    rw [List.findSome?_cons, second, Option.bind_none]
    rw [List.findSome?_cons, named, Option.bind_some, taken]

variable {fenced : Bool} {operation : Operation}

theorem joined_content (nonempty : text ≠ []) :
    joinLines false (dropLines text) ++ (if dropLines text = [] then [] else ['\n']) = closed text := by
  rcases join_dropLines nonempty with ⟨filled, joined⟩
  rw [if_neg filled, joined]

theorem contentDiff_content (writable : Writable fenced operation) :
    contentDiff operation.action operation.content = .ok operation.diff := by
  cases writable with
  | add path text _ _ _ ends =>
    have plus : ((dropLines text).map (List.cons '+')).any (fun line => !startsWith ['+'] line) = false := by
      rw [List.any_eq_false]
      intro line member
      rcases List.mem_map.mp member with ⟨source, _, rfl⟩
      exact Bool.false_ne_true
    have stripped : ((dropLines text).map (List.cons '+')).map (List.drop 1) = dropLines text := by
      rw [List.map_map]
      exact List.map_id' _
    have diff : joinLines false (dropLines text) ++ (if dropLines text = [] then [] else ['\n']) = text := by
      rcases ends with empty | ends
      · rw [empty]
        rfl
      · have nonempty : text ≠ [] := by
          intro empty
          rw [empty] at ends
          cases ends
        rw [joined_content nonempty, closed, if_pos ends]
    simp only [contentDiff, Operation.action, Operation.content, Operation.diff, reduceCtorEq, false_and,
      if_false, if_true, plus, Bool.false_eq_true, and_false, stripped, diff]
  | update path hunks _ _ _ nonempty _ =>
    rcases join_dropLines nonempty with ⟨filled, joined⟩
    simp only [contentDiff, Operation.action, Operation.content, Operation.diff, reduceCtorEq, false_and,
      if_false, filled, and_false]
    rw [joined]
  | delete path _ _ => rfl

theorem stars_opening (action : FileAction) (path : Text) : startsWith stars (opening action ++ path) = true := by
  cases action with
  | _ => rfl

theorem content_plain (writable : Writable fenced operation) (member : line ∈ operation.content) :
    startsWith stars line = false := by
  cases writable with
  | add path text _ _ _ _ =>
    rcases List.mem_map.mp member with ⟨source, _, rfl⟩
    rfl
  | update path hunks _ _ _ _ lines => exact (lines line member).1
  | delete path _ _ => exact absurd member List.not_mem_nil

/-- The content of an operation ends where the next one begins. -/
theorem content_split (writable : Writable fenced operation) (rest : List Operation) :
    (operation.content ++ rest.flatMap Operation.render).takeWhile (fun line => !startsWith stars line) =
        operation.content ∧
      (operation.content ++ rest.flatMap Operation.render).dropWhile (fun line => !startsWith stars line) =
        rest.flatMap Operation.render := by
  have inside : ∀ line ∈ operation.content, (!startsWith stars line) = true := by
    intro line member
    rw [content_plain writable member]
    rfl
  rw [List.takeWhile_append_of_pos inside, List.dropWhile_append_of_pos inside]
  cases rest with
  | nil => exact ⟨List.append_nil _, rfl⟩
  | cons next later =>
    rw [List.flatMap_cons, Operation.render, List.cons_append, List.takeWhile_cons, List.dropWhile_cons,
      stars_opening]
    exact ⟨List.append_nil _, rfl⟩

theorem Writable.path (writable : Writable fenced operation) :
    operation.path ≠ [] ∧ SingleLine operation.path := by
  cases writable with
  | add path text nonempty single _ _
  | update path hunks nonempty single _ _ _
  | delete path nonempty single => exact ⟨nonempty, single⟩

/-- The key under which a path is compared. -/
def foldedPath (casefold : Text -> Text) (operation : Operation) : Text :=
  casefold (slashed operation.path)

theorem parseOperations_render (casefold : Text -> Text) (seen : List Text) (operations : List Operation)
    (writable : ∀ operation ∈ operations, Writable fenced operation)
    (distinct : (operations.map (foldedPath casefold)).Nodup)
    (fresh : ∀ operation ∈ operations, foldedPath casefold operation ∉ seen) :
    parseOperations casefold seen (operations.flatMap Operation.render) =
      .ok (operations.map Operation.parsed) := by
  induction operations generalizing seen with
  | nil => rw [List.flatMap_nil, parseOperations, List.map_nil]
  | cons operation rest ih =>
    have here := writable operation List.mem_cons_self
    rw [List.map_cons, List.nodup_cons] at distinct
    have later := ih (foldedPath casefold operation :: seen)
      (fun other member => writable other (List.mem_cons_of_mem _ member)) distinct.2 (by
        intro other member listed
        rcases List.mem_cons.mp listed with same | earlier
        · exact distinct.1 (same ▸ List.mem_map_of_mem member)
        · exact fresh other (List.mem_cons_of_mem _ member) earlier)
    rcases content_split here rest with ⟨content, remaining⟩
    have new := fresh operation List.mem_cons_self
    rw [foldedPath] at new later
    rw [List.flatMap_cons, Operation.render, List.cons_append, parseOperations,
      matchFileHeader_opening _ here.path.1 here.path.2.1]
    simp only [if_neg new, content, contentDiff_content here, remaining, later]
    rfl


/-! ## Wrappings are taken off -/

theorem dropWhile_solid {stripped : Char -> Bool} {first : Char} (opens : text.head? = some first)
    (solid : stripped first = false) : text.dropWhile stripped = text := by
  cases text with
  | nil => rfl
  | cons char rest =>
    have same : char = first := Option.some.inj opens
    rw [List.dropWhile_cons, same, solid]
    rfl

/-- A text that neither begins nor ends with what is stripped. -/
structure Solid (stripped : Char -> Bool) (text : Text) : Prop where
  opens : ∃ first, text.head? = some first ∧ stripped first = false
  ends : ∃ last, text.getLast? = some last ∧ stripped last = false

theorem stripWhile_solid {stripped : Char -> Bool} (solid : Solid stripped text) :
    stripWhile stripped text = text := by
  rcases solid with ⟨⟨first, opens, kept⟩, last, ends, left⟩
  rw [<- List.head?_reverse] at ends
  rw [stripWhile, dropWhile_solid opens kept, dropWhile_solid ends left, List.reverse_reverse]

theorem stripWhile_solid_newline (solid : Solid isReturn text) :
    stripWhile isReturn (text ++ ['\n']) = text := by
  rcases solid with ⟨⟨first, opens, kept⟩, last, ends, left⟩
  have opens' : (text ++ ['\n']).head? = some first := by
    rw [List.head?_append, opens]
    rfl
  rw [<- List.head?_reverse] at ends
  rw [stripWhile, dropWhile_solid opens' kept, List.reverse_append, List.reverse_singleton, List.singleton_append,
    List.dropWhile_cons_of_pos rfl, dropWhile_solid ends left, List.reverse_reverse]

theorem joinLines_true (nonempty : ls ≠ []) : joinLines true ls = joinLines false ls ++ ['\n'] := by
  induction ls with
  | nil => exact absurd rfl nonempty
  | cons line rest ih =>
    cases rest with
    | nil => simp [joinLines]
    | cons next rest =>
      rw [joinLines, ih (List.cons_ne_nil _ _), joinLines, List.append_assoc, List.cons_append]

theorem getLast?_joined {last : Text} (ends : ls.getLast? = some last) (nonempty : last ≠ []) :
    (joinLines false ls).getLast? = last.getLast? := by
  induction ls with
  | nil => cases ends
  | cons line rest ih =>
    cases rest with
    | nil =>
      have same : line = last := Option.some.inj ends
      change (line ++ []).getLast? = _
      rw [List.append_nil, same]
    | cons next rest =>
      rw [List.getLast?_cons_cons] at ends
      have later := ih ends
      have filled : joinLines false (next :: rest) ≠ [] := by
        intro empty
        rw [empty] at later
        exact nonempty (List.getLast?_eq_none_iff.mp later.symm)
      rcases List.exists_cons_of_ne_nil filled with ⟨char, chars, same⟩
      rw [joinLines, List.getLast?_append_cons, same, List.getLast?_cons_cons, <- same, later]

theorem envelope_solid (operations : List Operation) :
    Solid isReturn (joinLines false (envelope operations)) := by
  have ends : (envelope operations).getLast? = some endLine := List.getLast?_concat
  refine ⟨⟨'*', ?_, rfl⟩, 'h', ?_, rfl⟩
  · unfold envelope
    generalize operations.flatMap Operation.render = inner
    cases inner with
    | nil => rfl
    | cons line rest => rfl
  · rw [getLast?_joined ends (by decide)]
    rfl

/-- A line takes no part in a closing fence but with the newline before it. -/
theorem untilFence_line (single : '\n' ∉ line) (rest : Text) :
    untilFence (line ++ rest) = (untilFence rest).map (fun body => line ++ body) := by
  induction line with
  | nil => simp
  | cons char line ih =>
    have other : startsWith ('\n' :: fence) (char :: (line ++ rest)) = false := by
      have different : ('\n' == char) = false :=
        beq_false_of_ne fun same => single (same ▸ List.mem_cons_self)
      rw [startsWith, List.isPrefixOf_cons_cons, different, Bool.false_and]
    rw [List.cons_append, untilFence, other, Bool.false_and, ih (fun member =>
      single (List.mem_cons_of_mem _ member))]
    simp [Option.map_map, Function.comp_def]

theorem fence_before_newline (other : startsWith fence line = false) (rest : Text) :
    startsWith fence (line ++ '\n' :: rest) = false := by
  match line with
  | [] => rfl
  | [first] => simp [startsWith, fence, List.isPrefixOf_cons_cons]
  | [first, second] => simp [startsWith, fence, List.isPrefixOf_cons_cons]
  | first :: second :: third :: line =>
    simp only [startsWith, fence, List.cons_append, List.isPrefixOf_cons_cons, List.isPrefixOf_nil_left] at other ⊢
    exact other

theorem untilFence_joined (nonempty : ls ≠ []) (single : ∀ line ∈ ls, '\n' ∉ line)
    (open_ : ∀ line ∈ ls.tail, startsWith fence line = false) :
    untilFence (joinLines false ls ++ '\n' :: fence) = some (joinLines false ls) := by
  induction ls with
  | nil => exact absurd rfl nonempty
  | cons line rest ih =>
    have here := single line List.mem_cons_self
    cases rest with
    | nil =>
      change untilFence ((line ++ []) ++ '\n' :: fence) = some (line ++ [])
      have found : untilFence ('\n' :: fence) = some [] := by decide
      rw [List.append_nil, untilFence_line here, found, Option.map_some, List.append_nil]
    | cons next rest =>
      have later := ih (List.cons_ne_nil _ _)
        (fun line member => single line (List.mem_cons_of_mem _ member))
        (fun line member => open_ line (List.mem_cons_of_mem _ member))
      have shape : ∃ more,
          joinLines false (next :: rest) ++ '\n' :: fence = next ++ '\n' :: more := by
        cases rest with
        | nil => exact ⟨fence, by simp [joinLines]⟩
        | cons third rest =>
          exact ⟨joinLines false (third :: rest) ++ '\n' :: fence, by simp [joinLines]⟩
      have closedNot : startsWith ('\n' :: fence)
          ('\n' :: (joinLines false (next :: rest) ++ '\n' :: fence)) = false := by
        rcases shape with ⟨more, shape⟩
        rw [shape, startsWith, List.isPrefixOf_cons_cons, beq_self_eq_true, Bool.true_and]
        exact fence_before_newline (open_ next List.mem_cons_self) more
      rw [joinLines, List.append_assoc, List.cons_append, untilFence_line here, untilFence, closedNot,
        Bool.false_and, later]
      rfl

/-! ## The lines of an envelope -/

theorem singleLine_dropLines (plain : Plain text) (member : line ∈ dropLines text) : SingleLine line := by
  rcases mem_dropLines member with ⟨single, within⟩
  exact ⟨single, fun inside => plain.noReturn (within _ inside), fun inside => plain.noNull (within _ inside)⟩

theorem SingleLine.append {first second : Text} (left : SingleLine first) (right : SingleLine second) :
    SingleLine (first ++ second) := by
  have apart {char : Char} (one : char ∉ first) (two : char ∉ second) : char ∉ first ++ second := by
    rw [List.mem_append, not_or]
    exact ⟨one, two⟩
  exact ⟨apart left.1 right.1, apart left.2.noReturn right.2.noReturn, apart left.2.noNull right.2.noNull⟩

theorem singleLine_opening (action : FileAction) : SingleLine (opening action) := by
  cases action with
  | _ => exact ⟨by decide, by decide, by decide⟩

theorem Writable.lines (writable : Writable fenced operation) (member : line ∈ operation.render) :
    SingleLine line ∧ (fenced = true -> startsWith fence line = false) := by
  rcases List.mem_cons.mp member with same | member
  · rw [same]
    refine ⟨(singleLine_opening _).append writable.path.2, fun _ => ?_⟩
    cases operation.action with
    | _ => rfl
  · cases writable with
    | add path text _ _ plain _ =>
      rcases List.mem_map.mp member with ⟨source, listed, rfl⟩
      have mark : SingleLine ['+'] := ⟨by decide, by decide, by decide⟩
      exact ⟨mark.append (singleLine_dropLines plain listed), fun _ => rfl⟩
    | update path hunks _ _ plain _ lines =>
      exact ⟨singleLine_dropLines plain member, (lines line member).2⟩
    | delete path _ _ => exact absurd member List.not_mem_nil

section

variable {operations : List Operation}
  (writable : ∀ operation ∈ operations, Writable fenced operation)

include writable

theorem envelope_lines {line : Text} (member : line ∈ envelope operations) :
    SingleLine line ∧ (fenced = true -> startsWith fence line = false) := by
  have fixed : SingleLine beginLine ∧ SingleLine endLine :=
    ⟨⟨by decide, by decide, by decide⟩, by decide, by decide, by decide⟩
  rw [envelope, List.mem_append, List.mem_cons, List.mem_flatMap, List.mem_singleton] at member
  rcases member with (same | ⟨operation, listed, inside⟩) | same
  · exact same ▸ ⟨fixed.1, fun _ => rfl⟩
  · exact (writable operation listed).lines inside
  · exact same ▸ ⟨fixed.2, fun _ => rfl⟩

theorem lines_envelope : lines (joinLines false (envelope operations)) false = .ok (envelope operations) := by
  have plain : Plain (joinLines false (envelope operations)) :=
    plain_joined fun line member => (envelope_lines writable member).1.2
  have ends : (envelope operations).getLast? = some endLine := List.getLast?_concat
  have shows : (envelope operations).getLast? ≠ some [] := by
    rw [ends]
    exact fun impossible => by cases impossible
  rw [lines_plain plain]
  change Except.ok (dropLines _) = _
  rw [dropLines_joined (fun line member => (envelope_lines writable member).1.1) (Or.inr shows)]

theorem fenceBody_fenced (letter : Char -> Bool) (marked : fenced = true) {language : Text}
    (word : ∀ char ∈ language, isWord letter char = true) :
    fenceBody letter (fence ++ (language ++ '\n' :: (joinLines false (envelope operations) ++ '\n' :: fence))) =
      some (joinLines false (envelope operations)) := by
  have body : untilFence (joinLines false (envelope operations) ++ '\n' :: fence) =
      some (joinLines false (envelope operations)) :=
    untilFence_joined (List.append_ne_nil_of_right_ne_nil _ (List.cons_ne_nil _ _))
      (fun line member => (envelope_lines writable member).1.1)
      (fun line member => (envelope_lines writable (List.mem_of_mem_tail member)).2 marked)
  have noSpace : afterNewlines (joinLines false (envelope operations) ++ '\n' :: fence) = [] := by
    unfold envelope
    generalize operations.flatMap Operation.render = inner
    cases inner with
    | nil => rfl
    | cons line rest => rfl
  have newline : isWord letter '\n' = false := rfl
  rw [fenceBody, expect_append]
  change List.findSome? untilFence (afterNewlines (List.dropWhile _ _)) = _
  rw [List.dropWhile_append_of_pos word, List.dropWhile_cons, newline]
  change List.findSome? untilFence (afterNewlines
    (joinLines false (envelope operations) ++ '\n' :: fence) ++ [_]) = _
  rw [noSpace, List.nil_append, List.findSome?_singleton, body]

/-- Whatever the wrapping, the envelope is left. -/
theorem stripFences_written {letter : Char -> Bool} (wrapping : Wrapping letter)
    (inside : wrapping.isFenced = true -> fenced = true) :
    stripFences letter (written letter wrapping operations) = joinLines false (envelope operations) := by
  have solid := envelope_solid operations
  have bare : startsWith fence (joinLines false (envelope operations)) = false ∧
      startsWith ['<', '<'] (joinLines false (envelope operations)) = false ∧
      joinLines false (envelope operations) ≠ [] := by
    unfold envelope
    generalize operations.flatMap Operation.render = inner
    cases inner with
    | nil | cons line rest => exact ⟨rfl, rfl, List.cons_ne_nil _ _⟩
  rcases bare with ⟨noFence, noHeredoc, filled⟩
  cases wrapping with
  | bare final =>
    have raw : stripWhile isReturn (joinLines final (envelope operations)) =
        joinLines false (envelope operations) := by
      cases final with
      | false => exact stripWhile_solid solid
      | true =>
        have some : envelope operations ≠ [] := List.append_ne_nil_of_right_ne_nil _ (List.cons_ne_nil _ _)
        rw [joinLines_true some]
        exact stripWhile_solid_newline solid
    rw [written, stripFences, raw]
    simp only [if_neg filled, noFence, noHeredoc, Bool.not_false, Bool.and_self, if_true]
  | fenced language word final =>
    have body := fenceBody_fenced writable letter (inside rfl) word
    generalize wrapped : fence ++ (language ++ '\n' :: (joinLines false (envelope operations) ++ '\n' :: fence)) =
      block at body
    have whole : Solid isReturn block := by
      refine ⟨⟨'`', by rw [<- wrapped]; rfl, rfl⟩, '`', ?_, rfl⟩
      have last : block = (fence ++ language ++ '\n' :: joinLines false (envelope operations)) ++ '\n' :: fence := by
        rw [<- wrapped]
        simp only [List.append_assoc, List.cons_append]
      rw [last, List.getLast?_append_cons]
      rfl
    have raw : stripWhile isReturn (block ++ (if final then ['\n'] else [])) = block := by
      cases final with
      | false =>
        change stripWhile isReturn (block ++ []) = block
        rw [List.append_nil, stripWhile_solid whole]
      | true => exact stripWhile_solid_newline whole
    have opens : startsWith fence block = true := by
      rw [<- wrapped]
      rfl
    have nonempty : block ≠ [] := by
      rw [<- wrapped]
      exact List.cons_ne_nil _ _
    rw [written, wrapped, stripFences, raw]
    simp only [if_neg nonempty, opens, Bool.not_true, Bool.false_and, Bool.false_eq_true, if_false, body,
      stripWhile_solid solid]

theorem parseApplyPatchText_written {letter : Char -> Bool} (casefold : Text -> Text)
    (wrapping : Wrapping letter) (inside : wrapping.isFenced = true -> fenced = true)
    (distinct : (operations.map (foldedPath casefold)).Nodup) (nonempty : operations ≠ []) :
    parseApplyPatchText letter casefold (written letter wrapping operations) =
      .ok (operations.map Operation.parsed) := by
  have bare : startsWith "--- ".toList (joinLines false (envelope operations)) = false ∧
      startsWith "diff --git ".toList (joinLines false (envelope operations)) = false := by
    unfold envelope
    generalize operations.flatMap Operation.render = inner
    cases inner with
    | nil | cons line rest => exact ⟨rfl, rfl⟩
  have read := parseOperations_render casefold [] operations writable distinct
    (fun _ _ => List.not_mem_nil)
  have ends : (envelope operations).getLast? = some endLine := List.getLast?_concat
  have inner : (envelope operations).tail.dropLast = operations.flatMap Operation.render :=
    List.dropLast_concat
  have filled : (operations.map Operation.parsed).isEmpty = false := by
    rw [List.isEmpty_eq_false_iff, ne_eq, List.map_eq_nil_iff]
    exact nonempty
  unfold parseApplyPatchText
  rw [stripFences_written writable wrapping inside]
  dsimp only
  rw [bare.1, bare.2, lines_envelope writable]
  have opens : (envelope operations).head? = some beginLine := rfl
  simp only [Bool.or_self, Bool.false_eq_true, if_false, opens, ends, ne_eq, not_true_eq_false, or_self, inner,
    read, filled]

end

end PatchEngine
end FixLoop
