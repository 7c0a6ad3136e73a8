import FixLoop.Library.Json
import FixLoop.PatchEngine.Apply

namespace FixLoop
namespace PatchEngine

open Library

/-!
# `_parse_hunks`, `parse_unified_patch` and `parse_patch_input`

The parsers walk an index through a list of lines.  Here each of them takes
the lines that are left and hands back those that it has not consumed.
-/

def sideOf? : Char -> Option Side
  | ' ' => some .kept
  | '-' => some .removed
  | '+' => some .added
  | _ => none

def noNewlineLine : Text := "\\ No newline at end of file".toList

/-- The body of a hunk as far as it has been read. -/
structure BodyState where
  body : List (Side × Text)
  markers : Finset Nat
  oldUsed : Nat
  newUsed : Nat

def BodyState.start : BodyState := ⟨[], ∅, 0, 0⟩

def BodyState.add (state : BodyState) (side : Side) (text : Text) : BodyState :=
  { state with
    body := state.body ++ [(side, text)],
    oldUsed := if side.inOld then state.oldUsed + 1 else state.oldUsed,
    newUsed := if side.inNew then state.newUsed + 1 else state.newUsed }

/-- `markers.add(len(body) - 1)`. -/
def BodyState.mark (state : BodyState) : BodyState :=
  { state with markers := insert (state.body.length - 1) state.markers }

/-- The inner loop of `_parse_hunks`. -/
def parseBody (oldCount newCount : Nat) (state : BodyState) :
    List Text -> Except PatchError (BodyState × List Text)
  | [] =>
    if state.oldUsed < oldCount ∨ state.newUsed < newCount then
      .error (invalidPatch "hunk body does not match declared line counts")
    else .ok (state, [])
  | line :: rest =>
    if state.oldUsed < oldCount ∨ state.newUsed < newCount then
      match line with
      | [] => .error (invalidPatch "hunk body does not match declared line counts")
      | char :: text =>
        match sideOf? char with
        | none => .error (invalidPatch "hunk body does not match declared line counts")
        | some side =>
          let next := state.add side text
          if next.oldUsed > oldCount ∨ next.newUsed > newCount then
            .error (invalidPatch "hunk body exceeds declared line counts")
          else
            match rest with
            | [] => parseBody oldCount newCount next []
            | marker :: later =>
              if marker = noNewlineLine then parseBody oldCount newCount next.mark later
              else parseBody oldCount newCount next (marker :: later)
    else .ok (state, line :: rest)

variable {ls rest : List Text}

/-- The loop leaves a suffix of the lines. -/
theorem parseBody_rest {oldCount newCount : Nat} {state final : BodyState}
    (parsed : parseBody oldCount newCount state ls = .ok (final, rest)) : rest <:+ ls := by
  fun_induction parseBody oldCount newCount state ls with
  | case1 | case3 | case4 | case5 => cases parsed
  | case2 | case9 =>
    cases parsed
    exact List.suffix_refl _
  | case6 state char text side known unfinished next fits ih =>
    exact (ih parsed).trans (List.suffix_cons _ _)
  | case7 state char text side known unfinished next fits later ih =>
    exact ((ih parsed).trans (List.suffix_cons _ _)).trans (List.suffix_cons _ _)
  | case8 state char text side known unfinished next fits marker later other ih =>
    exact (ih parsed).trans (List.suffix_cons _ _)

def startsWith (opening text : Text) : Bool := opening.isPrefixOf text

def parseHunks (ls : List Text) : Except PatchError (List PatchHunk × List Text) :=
  match ls with
  | [] => .ok ([], [])
  | header :: rest =>
    if startsWith ['@', '@'] header then
      match coordinates header with
      | .error fault => .error fault
      | .ok position =>
        match _read : parseBody position.oldCount position.newCount .start rest with
        | .error fault => .error fault
        | .ok (state, after) =>
          match parseHunks after with
          | .error fault => .error fault
          | .ok (hunks, left) => .ok (⟨header, state.body, state.markers⟩ :: hunks, left)
    else .ok ([], header :: rest)
termination_by ls.length
decreasing_by
  have shorter := (parseBody_rest _read).length_le
  simp only [List.length_cons]
  omega

theorem parseHunks_rest {hunks : List PatchHunk} (parsed : parseHunks ls = .ok (hunks, rest)) :
    rest <:+ ls := by
  fun_induction parseHunks ls generalizing hunks rest with
  | case1 | case6 =>
    cases parsed
    exact List.suffix_refl _
  | case2 | case3 | case4 => cases parsed
  | case5 header rest opens position placed state after read inner left later ih =>
    cases parsed
    exact ((ih later).trans (parseBody_rest read)).trans (List.suffix_cons _ _)

theorem parseHunks_cons {header : Text} {after left : List Text} {position : Coordinates}
    {state : BodyState} {hunks : List PatchHunk} (opens : startsWith ['@', '@'] header = true)
    (placed : coordinates header = .ok position)
    (read : parseBody position.oldCount position.newCount .start rest = .ok (state, after))
    (later : parseHunks after = .ok (hunks, left)) :
    parseHunks (header :: rest) = .ok (⟨header, state.body, state.markers⟩ :: hunks, left) := by
  rw [parseHunks, if_pos opens]
  simp only [placed]
  split
  · rename_i fault failed
    cases failed.symm.trans read
  · rename_i other following again
    cases again.symm.trans read
    rw [later]

inductive FileAction where
  | add
  | delete
  | update
deriving DecidableEq

structure FilePatch where
  path : Text
  action : FileAction
  plan : PatchPlan

/-- The lines before a file header.  The mode of a created or deleted file
is kept as the action that it announces. -/
def preamble (metadata : Option FileAction) :
    List Text -> Except PatchError (Option FileAction × List Text)
  | [] => .ok (metadata, [])
  | line :: rest =>
    if startsWith "diff --git ".toList line || startsWith "index ".toList line then
      preamble metadata rest
    else if line = "new file mode 100644".toList ∨ line = "deleted file mode 100644".toList then
      if metadata ≠ none then .error (invalidPatch "duplicate file mode metadata")
      else preamble (some (if line = "new file mode 100644".toList then .add else .delete)) rest
    else .ok (metadata, line :: rest)

theorem preamble_rest {metadata found : Option FileAction}
    (parsed : preamble metadata ls = .ok (found, rest)) : rest <:+ ls := by
  fun_induction preamble metadata ls with
  | case1 | case5 =>
    cases parsed
    exact List.suffix_refl _
  | case3 => cases parsed
  | case2 metadata line later opens ih => exact (ih parsed).trans (List.suffix_cons _ _)
  | case4 metadata line later opens mode first ih => exact (ih parsed).trans (List.suffix_cons _ _)

/-- `_path`. -/
def filePath (header opening : Text) : Except PatchError (Option Text) :=
  let named := (header.drop 4).takeWhile (fun char => char != '\t')
  if named = "/dev/null".toList then .ok none
  else
    let value := if startsWith opening named then named.drop opening.length else named
    if value = [] ∨ value.head? = some '"' ∨ value.head? = some '/' ∨ '\\' ∈ value then
      .error (invalidPatch "unsupported or unsafe file path")
    else if (value.splitOn '/').any (fun part => part ∈ [[], ['.'], ['.', '.']]) ∨ ':' ∈ value then
      .error (invalidPatch "unsafe file path")
    else .ok (some value)

/-- The path and the action that a pair of file headers names. -/
def fileTarget (old new : Option Text) : Except PatchError (Text × FileAction) :=
  match old, new with
  | none, none => .error (invalidPatch "renames and two null paths are unsupported")
  | none, some path => .ok (path, .add)
  | some path, none => .ok (path, .delete)
  | some path, some other =>
    if path ≠ other then .error (invalidPatch "renames and two null paths are unsupported")
    else .ok (path, .update)

def parseFileHeader (ls : List Text) : Except PatchError (Text × FileAction × List Text) :=
  match preamble none ls with
  | .error fault => .error fault
  | .ok (metadata, old :: new :: rest) =>
    if ¬ startsWith "--- ".toList old ∨ ¬ startsWith "+++ ".toList new then
      .error (invalidPatch "expected ---/+++ file headers; unsupported patch format")
    else do
      let oldPath <- filePath old "a/".toList
      let newPath <- filePath new "b/".toList
      let (path, action) <- fileTarget oldPath newPath
      if metadata ≠ none ∧ metadata ≠ some action then
        .error (invalidPatch "file metadata disagrees with headers")
      else .ok (path, action, rest)
  | .ok _ => .error (invalidPatch "expected ---/+++ file headers; unsupported patch format")

theorem parseFileHeader_rest {path : Text} {action : FileAction}
    (parsed : parseFileHeader ls = .ok (path, action, rest)) :
    ∃ old new, old :: new :: rest <:+ ls := by
  unfold parseFileHeader at parsed
  split at parsed
  · cases parsed
  · rename_i metadata old new after read
    split at parsed
    · cases parsed
    simp only [bind, Except.bind] at parsed
    repeat' split at parsed
    all_goals cases parsed
    exact ⟨old, new, preamble_rest read⟩
  · cases parsed

section Files

variable (casefold : Text -> Text)

/-- The loop of `parse_unified_patch` over the files. -/
def parseFiles (newline : Newline) (seen : List Text) (ls : List Text) :
    Except PatchError (List FilePatch) :=
  match ls with
  | [] => .ok []
  | first :: others =>
    match _read : parseFileHeader (first :: others) with
    | .error fault => .error fault
    | .ok (path, action, rest) =>
      if casefold path ∈ seen then
        .error (invalidPatch ("duplicate file patch: " ++ String.ofList path))
      else
        match _hunks : parseHunks rest with
        | .error fault => .error fault
        | .ok (hunks, left) =>
          if hunks = [] ∧ action = .update then
            .error (invalidPatch "file update requires hunks")
          else
            match parseFiles newline (casefold path :: seen) left with
            | .error fault => .error fault
            | .ok files => .ok (⟨path, action, ⟨.diff, hunks, [], [], newline⟩⟩ :: files)
termination_by ls.length
decreasing_by
  rcases parseFileHeader_rest _read with ⟨old, new, within⟩
  have headers := within.length_le
  have shorter := (parseHunks_rest _hunks).length_le
  simp only [List.length_cons] at headers
  simp only [List.length_cons]
  omega

/-- The line ending that a diff brings along. -/
def diffNewline (diff : Text) : Newline := if hasCrlf diff then .crlf else .lf

def parseUnifiedPatch (diff : Text) : Except PatchError (List FilePatch) :=
  if diff = [] then .error (invalidPatch "empty patch")
  else
    match lines diff false with
    | .error fault => .error fault
    | .ok ls => parseFiles casefold (diffNewline diff) [] ls

structure PatchArgs where
  diff : Json
  path : Text
  oldText : Json
  newText : Json

def parseDiff (diff path : Text) : Except PatchError PatchPlan :=
  if startsWith ['@', '@'] diff then
    match lines diff false with
    | .error fault => .error fault
    | .ok ls =>
      match parseHunks ls with
      | .error fault => .error fault
      | .ok (hunks, left) =>
        if left ≠ [] then .error (invalidPatch "unexpected content after hunk")
        else .ok ⟨.diff, hunks, [], [], diffNewline diff⟩
  else
    match parseUnifiedPatch casefold diff with
    | .error fault => .error fault
    | .ok [file] =>
      if file.action ≠ .update then
        .error (invalidPatch "patch_file accepts one existing file; use a multi-file transaction")
      else if path ≠ [] ∧ path.map (fun char => if char = '\\' then '/' else char) ≠ file.path then
        .error (invalidPatch "patch path differs from tool target")
      else .ok file.plan
    | .ok _ =>
      .error (invalidPatch "patch_file accepts one existing file; use a multi-file transaction")

def parsePatchInput (args : PatchArgs) : Except PatchError PatchPlan :=
  if args.diff.truthy then
    match args.diff with
    | .str diff => parseDiff casefold diff.toList args.path
    | _ => .error (invalidPatch "diff must be text")
  else
    match args.oldText, args.newText with
    | .str old, .str new =>
      if old = "" then .error (invalidPatch "provide diff or nonempty old_text and new_text")
      else .ok ⟨.replacement, [], old.toList, new.toList, .lf⟩
    | _, _ => .error (invalidPatch "provide diff or nonempty old_text and new_text")

end Files

end PatchEngine
end FixLoop
