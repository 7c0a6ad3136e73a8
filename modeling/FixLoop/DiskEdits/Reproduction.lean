import Mathlib.Data.Char
import Mathlib.Data.List.Lex
import FixLoop.Library.Projection
import FixLoop.Library.Strings
import FixLoop.PatchEngine.FileDiff

namespace FixLoop
namespace DiskEdits

open Library PatchEngine

/-!
# Patches exported from two snapshots

A snapshot maps paths to texts.  The export gives one patch for each path at
which two snapshots differ, with a unified diff of the two texts.
-/

/-- The lines of a text with their ends, given the reversed line that has been
begun. -/
def splitKeepingFrom (line : Text) : Text -> List Text
  | [] => if line.isEmpty then [] else [line.reverse]
  | '\r' :: '\n' :: rest => (line.reverse ++ ['\r', '\n']) :: splitKeepingFrom [] rest
  | char :: rest =>
    if Strings.isLineBoundary char then (line.reverse ++ [char]) :: splitKeepingFrom [] rest
    else splitKeepingFrom (char :: line) rest

/-- `text.splitlines(keepends=True)`. -/
def splitKeeping (text : Text) : List Text := splitKeepingFrom [] text

def ended (line : Text) : Text := if line.getLast? = some '\n' then line else line ++ ['\n']

/-- The lines, the last of which gets a line feed if it has none. -/
def endLast : List Text -> List Text
  | [] => []
  | [line] => [ended line]
  | line :: next :: rest => line :: endLast (next :: rest)

def exportLines (text : Text) : List Text := endLast (splitKeeping text)

/-- `difflib`: the edits that turn one list of lines into another, grouped
with the lines around them; there are none for equal lists. -/
class Difflib where
  edits : List Text -> List Text -> List (Edit Text)
  realises : ∀ old new, Edit.Realises 0 0 (edits old new) old new
  same : ∀ lines, edits lines lines = []

/-- `"".join` of the lines of one group. -/
def groupText (edit : Edit Text) : Text :=
  let header : HeaderMatch :=
    { old := shownRange true edit.oldStart edit.oldCount
      new := shownRange true edit.newStart edit.newCount
      heading := [] }
  header.render ++ ['\n'] ++ edit.body.flatMap fun entry => mark entry.1 :: entry.2

variable [Difflib]

/-- `"".join(difflib.unified_diff(old, new, fromfile, tofile))`. -/
def unifiedDiff (old new : List Text) (fromFile toFile : Text) : Text :=
  match Difflib.edits old new with
  | [] => []
  | edits => "--- ".toList ++ fromFile ++ ['\n'] ++ "+++ ".toList ++ toFile ++ ['\n'] ++ edits.flatMap groupText

/-- `path.replace("\\", "/").lstrip("./")`. -/
def relative (filePath : Text) : Text :=
  ((if filePath = [] then "unknown".toList else filePath).map fun char => if char = '\\' then '/' else char).dropWhile
    (fun char => char = '.' || char = '/')

def unifiedDiffForPath (filePath before after : Text) : Text :=
  unifiedDiff (exportLines before) (exportLines after) ("a/".toList ++ relative filePath)
    ("b/".toList ++ relative filePath)

structure CandidatePatch where
  filePath : Text
  originalLines : Text
  patchedLines : Text
  diff : Text
  explanation : String
  baseSha256 : String := ""
  schemaVersion : String := "1.0"

abbrev Snapshot := List (Text × Text)

/-- `sorted(set(before) | set(after))`. -/
def allPaths (before after : Snapshot) : List Text :=
  ((before ++ after).map Prod.fst).dedup.mergeSort fun first second => decide (first ≤ second)

/-- The body of the loop, with the texts on both sides. -/
def patchFor (before after : Snapshot) (explanation : String) (path : Text) : Option CandidatePatch :=
  let old := Projection.lookup path before
  let new := Projection.lookup path after
  if old = new then none
  else
    let diff := unifiedDiffForPath path (old.getD []) (new.getD [])
    if diff.all Strings.isSpace then none
    else
      some
        { filePath := path
          originalLines := old.getD []
          patchedLines := new.getD []
          diff
          explanation }

def patchesFromSnapshotDiff (before after : Snapshot) (explanation : String) : List CandidatePatch :=
  (allPaths before after).filterMap (patchFor before after explanation)

end DiskEdits
end FixLoop

namespace FixLoop
namespace DiskEdits

open Library PatchEngine

/-!
# Exported patches reproduce the edit

The diff of an exported patch is parsed to one update of its path, which turns
the old text into the new one, both with a line feed at the end.
-/

/-! ## The lines of a text -/

/-- A text whose only line boundaries are line feeds. -/
structure LfOnly (text : Text) : Prop where
  boundary : ∀ char ∈ text, Strings.isLineBoundary char = true -> char = '\n'
  noNull : '\x00' ∉ text

/-- The text with a line feed at its end, if it has lines. -/
def endedText (text : Text) : Text := if text = [] then [] else ended text

variable {text content : Text}

theorem LfOnly.plain (lfOnly : LfOnly text) : Plain text where
  noReturn member := absurd (lfOnly.boundary '\r' member (by decide)) (by decide)
  noNull := lfOnly.noNull

theorem splitKeepingFrom_append (inner : ∀ char ∈ content, Strings.isLineBoundary char = false)
    (line rest : Text) :
    splitKeepingFrom line (content ++ rest) = splitKeepingFrom (content.reverse ++ line) rest := by
  induction content generalizing line with
  | nil => rfl
  | cons char content ih =>
    have ordinary := inner char List.mem_cons_self
    have noReturn : char ≠ '\r' := by
      rintro rfl
      exact absurd ordinary (by decide)
    rw [List.cons_append, splitKeepingFrom]
    · rw [ordinary, if_neg Bool.false_ne_true, ih (fun other member => inner other (List.mem_cons_of_mem _ member)),
        List.reverse_cons, List.append_assoc, List.singleton_append]
    · exact fun later same => absurd same noReturn

theorem splitKeeping_last (inner : ∀ char ∈ content, Strings.isLineBoundary char = false) :
    splitKeeping content = if content = [] then [] else [content] := by
  have whole := splitKeepingFrom_append inner [] []
  rw [List.append_nil, List.append_nil, splitKeepingFrom] at whole
  rw [splitKeeping, whole, List.reverse_reverse]
  by_cases empty : content = []
  · rw [if_pos empty, if_pos (by rw [empty]; rfl)]
  · rw [if_neg empty, if_neg (by simpa using empty)]

theorem splitKeeping_line (inner : ∀ char ∈ content, Strings.isLineBoundary char = false)
    (rest : Text) : splitKeeping (content ++ ['\n'] ++ rest) = (content ++ ['\n']) :: splitKeeping rest := by
  rw [splitKeeping, List.append_assoc, splitKeepingFrom_append inner, List.append_nil, List.singleton_append,
    splitKeepingFrom, if_pos (by decide), List.reverse_reverse]
  · rfl
  · exact fun later same => absurd same (by decide)

theorem endLast_cons {line : Text} (feed : line.getLast? = some '\n') (rest : List Text) :
    endLast (line :: rest) = line :: endLast rest := by
  cases rest with
  | nil =>
    change [ended line] = [line]
    rw [ended, if_pos feed]
  | cons next rest => rfl

/-- A line as the exporter hands it to the diff. -/
def lineOf (text : Text) : Line := ⟨text.dropLast, false⟩

theorem lineOf_text (content : Text) : lineOf (content ++ ['\n']) = ⟨content, false⟩ := by
  rw [lineOf, List.dropLast_concat]

theorem exportLines_spec (lfOnly : LfOnly text) :
    IsText ((exportLines text).map lineOf) (endedText text) ∧
      ∀ line ∈ exportLines text, (lineOf line).text = line := by
  induction text using text_induction with
  | last content single =>
    have inner : ∀ char ∈ content, Strings.isLineBoundary char = false := by
      intro char member
      apply eq_false_of_ne_true
      intro boundary
      exact single (lfOnly.boundary char member boundary ▸ member)
    rw [exportLines, splitKeeping_last inner, endedText]
    by_cases empty : content = []
    · rw [if_pos empty, if_pos empty]
      exact ⟨.nil, fun line member => absurd member List.not_mem_nil⟩
    · have unended : content.getLast? ≠ some '\n' := fun last => single (List.mem_of_getLast? last)
      rw [if_neg empty, if_neg empty, endLast, ended, if_neg unended, List.map_singleton, lineOf_text]
      constructor
      · have line := IsText.cons content single .nil
        rwa [List.append_nil] at line
      · intro line member
        rw [List.mem_singleton.mp member, lineOf_text]
        rfl
  | line content rest single ih =>
    have parts : LfOnly rest :=
      ⟨fun char member => lfOnly.boundary char (List.mem_append_right _ member),
        fun member => lfOnly.noNull (List.mem_append_right _ member)⟩
    have inner : ∀ char ∈ content, Strings.isLineBoundary char = false := by
      intro char member
      apply eq_false_of_ne_true
      intro boundary
      have here := List.mem_append_left rest (List.mem_append_left ['\n'] member)
      exact single (lfOnly.boundary char here boundary ▸ member)
    have feed : (content ++ ['\n']).getLast? = some '\n' := List.getLast?_concat
    have lines : exportLines (content ++ ['\n'] ++ rest) = (content ++ ['\n']) :: exportLines rest := by
      rw [exportLines, splitKeeping_line inner, endLast_cons feed]
      rfl
    have whole : endedText (content ++ ['\n'] ++ rest) = content ++ ['\n'] ++ endedText rest := by
      rw [endedText, if_neg (by simp), endedText]
      by_cases empty : rest = []
      · rw [if_pos empty, empty, List.append_nil, ended, if_pos feed]
      · have last : (content ++ ['\n'] ++ rest).getLast? = rest.getLast? := List.getLast?_append_of_ne_nil _ empty
        rw [if_neg empty, ended, ended, last]
        by_cases feeds : rest.getLast? = some '\n'
        · rw [if_pos feeds, if_pos feeds]
        · rw [if_neg feeds, if_neg feeds, List.append_assoc]
    rw [lines, whole, List.map_cons, lineOf_text]
    constructor
    · exact .cons content single (ih parts).1
    · intro line member
      rcases List.mem_cons.mp member with rfl | later
      · rw [lineOf_text]
        rfl
      · exact (ih parts).2 line later

theorem flatten_splitKeepingFrom (line text : Text) : (splitKeepingFrom line text).flatten = line.reverse ++ text := by
  fun_induction splitKeepingFrom line text with
  | case1 line empty => simpa using (List.isEmpty_iff.mp empty).symm
  | case2 line filled => simp
  | case3 line rest ih => simp [ih]
  | case4 line char rest _ boundary ih => simp [ih]
  | case5 line char rest _ inner ih => simp [ih]

theorem ne_nil_of_mem_splitKeepingFrom {line part : Text} (member : part ∈ splitKeepingFrom line text) :
    part ≠ [] := by
  fun_induction splitKeepingFrom line text with
  | case1 line empty => cases member
  | case2 line filled =>
    rw [List.mem_singleton.mp member]
    simpa using filled
  | case3 line rest ih =>
    rcases List.mem_cons.mp member with rfl | later
    · exact List.append_ne_nil_of_right_ne_nil _ (List.cons_ne_nil _ _)
    · exact ih later
  | case4 line char rest _ boundary ih =>
    rcases List.mem_cons.mp member with rfl | later
    · exact List.append_ne_nil_of_right_ne_nil _ (List.cons_ne_nil _ _)
    · exact ih later
  | case5 line char rest _ inner ih => exact ih member

theorem flatten_endLast {ls : List Text} (filled : ∀ line ∈ ls, line ≠ []) :
    (endLast ls).flatten = endedText ls.flatten := by
  induction ls with
  | nil => rfl
  | cons line rest ih =>
    have here := filled line List.mem_cons_self
    cases rest with
    | nil => simp [endLast, endedText, here]
    | cons next rest =>
      have later := ih fun other member => filled other (List.mem_cons_of_mem _ member)
      have more : (next :: rest).flatten ≠ [] := by
        rw [List.flatten_cons]
        exact List.append_ne_nil_of_left_ne_nil (filled next (List.mem_cons_of_mem _ List.mem_cons_self)) _
      rw [endLast, List.flatten_cons, later, @List.flatten_cons _ line, endedText, endedText, if_neg more,
        if_neg (List.append_ne_nil_of_left_ne_nil here _), ended, ended, List.getLast?_append_of_ne_nil _ more]
      split_ifs
      · rfl
      · rw [List.append_assoc]

/-- The exported lines are those of the ended text, whatever the boundaries
are. -/
theorem flatten_exportLines (text : Text) : (exportLines text).flatten = endedText text := by
  have whole : (splitKeeping text).flatten = text := flatten_splitKeepingFrom [] text
  have filled : ∀ line ∈ splitKeeping text, line ≠ [] := fun line => ne_nil_of_mem_splitKeepingFrom
  rw [exportLines, flatten_endLast filled, whole]

/-! ## The text of the diff -/

/-- Headers without headings, in which a length of one is left out. -/
def plainStyle : HeaderStyle := ⟨true, true, [], by decide, ⟨by decide, by decide⟩⟩

theorem joinLines_true (ls : List Text) : joinLines true ls = ls.flatMap (fun line => line ++ ['\n']) := by
  induction ls with
  | nil => rfl
  | cons line rest ih =>
    cases rest with
    | nil => simp [joinLines]
    | cons next rest =>
      rw [joinLines, ih, List.flatMap_cons, List.append_assoc]
      simp

/-- A group of terminated lines is written as a hunk. -/
theorem groupText_eq {edit : Edit Text}
    (lines : ∀ side line, (side, line) ∈ edit.body -> (lineOf line).text = line) :
    groupText edit = (renderHunk plainStyle (edit.map lineOf)).flatMap (fun line => line ++ ['\n']) := by
  have body : edit.body.flatMap (fun entry => mark entry.1 :: entry.2) =
      (renderBody (edit.map lineOf).body).flatMap (fun line => line ++ ['\n']) := by
    rw [Edit.map, renderBody]
    generalize edit.body = entries at lines
    induction entries with
    | nil => rfl
    | cons entry rest ih =>
      have here := lines entry.1 entry.2 List.mem_cons_self
      have later := ih fun side line member => lines side line (List.mem_cons_of_mem _ member)
      rw [List.flatMap_cons, later, List.map_cons, List.flatMap_cons, List.flatMap_append]
      congr 1
      rw [lineOf, Line.text] at here
      simpa [lineOf] using here.symm
  rw [groupText, body, renderHunk, List.flatMap_cons]
  rfl

theorem renderHunks_groups {edits : List (Edit Text)}
    (lines : ∀ edit ∈ edits, ∀ side line, (side, line) ∈ edit.body -> (lineOf line).text = line) :
    edits.flatMap groupText =
      (renderHunks (edits.map fun edit => (plainStyle, edit.map lineOf))).flatMap (fun line => line ++ ['\n']) := by
  induction edits with
  | nil => rfl
  | cons edit rest ih =>
    have later := ih fun other member => lines other (List.mem_cons_of_mem _ member)
    rw [List.flatMap_cons, groupText_eq (lines edit List.mem_cons_self), later, ← List.flatMap_append]
    rfl

section Exported

variable [Difflib] {old new : Text}

/-- The edits of the exporter, as they are written. -/
def written (old new : Text) : List (HeaderStyle × Edit Line) :=
  (Difflib.edits (exportLines old) (exportLines new)).map fun edit => (plainStyle, edit.map lineOf)

theorem written_description (oldLf : LfOnly old) (newLf : LfOnly new) :
    Description (endedText old) (endedText new) (written old new) := by
  have plain : ∀ {text : Text}, LfOnly text -> Plain (endedText text) := by
    intro text lfOnly
    have inner := lfOnly.plain
    rw [endedText, ended]
    split_ifs
    · exact ⟨List.not_mem_nil, List.not_mem_nil⟩
    · exact inner
    · constructor
      · intro member
        exact (List.mem_append.mp member).elim inner.noReturn fun last => absurd (List.mem_singleton.mp last) (by decide)
      · intro member
        exact (List.mem_append.mp member).elim inner.noNull fun last => absurd (List.mem_singleton.mp last) (by decide)
  have realises := (Difflib.realises (exportLines old) (exportLines new)).map lineOf
  refine ⟨plain oldLf, plain newLf, _, _, (exportLines_spec oldLf).1, (exportLines_spec newLf).1, ?_⟩
  rw [written, List.map_map]
  exact realises

/-- The header that the exporter writes for a path that is safe and does not
begin with a dot. -/
def headerOf (path : Text) (safe : SafePath path) : FileHeader where
  announcement := []
  path
  oldStamp := none
  newStamp := none
  announces := fun line member => absurd member List.not_mem_nil
  safe
  oldSingle := fun stamp impossible => by cases impossible
  newSingle := fun stamp impossible => by cases impossible

omit [Difflib] in
theorem relative_of_safe {path : Text} (safe : SafePath path) (dotless : path.head? ≠ some '.') : relative path = path := by
  have same : path.map (fun char => if char = '\\' then '/' else char) = path := by
    have kept : ∀ char ∈ path, (if char = '\\' then '/' else char) = char := by
      intro char member
      exact if_neg fun escaped : char = '\\' => safe.backslash (escaped ▸ member)
    rw [List.map_congr_left kept, List.map_id']
  rw [relative, if_neg safe.nonempty, same]
  cases path with
  | nil => rfl
  | cons char rest =>
    apply List.dropWhile_cons_of_neg
    have slash : char ≠ '/' := fun equal => safe.absolute (congrArg some equal)
    have dot : char ≠ '.' := fun equal => dotless (congrArg some equal)
    simp [slash, dot]

theorem unifiedDiffForPath_eq (oldLf : LfOnly old) (newLf : LfOnly new) {path : Text} (safe : SafePath path)
    (dotless : path.head? ≠ some '.') (differ : Difflib.edits (exportLines old) (exportLines new) ≠ []) :
    unifiedDiffForPath path old new = joinLines true ((headerOf path safe).render ++ renderHunks (written old new)) := by
  have lines : ∀ edit ∈ Difflib.edits (exportLines old) (exportLines new), ∀ side line,
      (side, line) ∈ edit.body -> (lineOf line).text = line := by
    intro edit listed side line inside
    rcases (Difflib.realises (exportLines old) (exportLines new)).mem_body listed inside with there | there
    · exact (exportLines_spec oldLf).2 line there
    · exact (exportLines_spec newLf).2 line there
  rw [joinLines_true, List.flatMap_append, written, ← renderHunks_groups lines, unifiedDiffForPath, unifiedDiff,
    relative_of_safe safe dotless]
  cases edits : Difflib.edits (exportLines old) (exportLines new) with
  | nil => exact absurd edits differ
  | cons edit rest =>
    simp [FileHeader.render, FileHeader.oldLine, FileHeader.newLine, headerOf, stampText]

/-- There are no edits exactly between equal lists. -/
theorem edits_eq_nil {old new : List Text} : Difflib.edits old new = [] <-> old = new := by
  constructor
  · intro none_needed
    have realises := Difflib.realises old new
    rw [none_needed] at realises
    exact Edit.Realises.functional (.done 0 0 old) realises
  · rintro rfl
    exact Difflib.same old

theorem unifiedDiff_blank {old new : List Text} (fromFile toFile : Text) :
    (unifiedDiff old new fromFile toFile).all Strings.isSpace = true <-> old = new := by
  rw [← edits_eq_nil, unifiedDiff]
  cases Difflib.edits old new with
  | nil => exact iff_of_true rfl rfl
  | cons edit rest =>
    apply iff_of_false
    · intro blank
      have first := List.all_eq_true.mp blank '-' List.mem_cons_self
      exact absurd first (by decide)
    · exact List.cons_ne_nil edit rest

section Snapshots

variable (before after : Snapshot) (explanation : String)

/-- The text at a path; nothing is there if there is no file. -/
def textAt (snapshot : Snapshot) (path : Text) : Text := (Projection.lookup path snapshot).getD []

/-- There is a patch for a path exactly where the exported lines differ. -/
theorem patchFor_eq (path : Text) : patchFor before after explanation path =
    if exportLines (textAt before path) = exportLines (textAt after path) then none
    else
      some
        { filePath := path
          originalLines := textAt before path
          patchedLines := textAt after path
          diff := unifiedDiffForPath path (textAt before path) (textAt after path)
          explanation } := by
  unfold patchFor
  by_cases same : Projection.lookup path before = Projection.lookup path after
  · rw [if_pos same, if_pos (by rw [textAt, textAt, same])]
  · rw [if_neg same]
    change (if (unifiedDiffForPath path (textAt before path) (textAt after path)).all Strings.isSpace then none
      else some _) = _
    have blank_iff : (unifiedDiffForPath path (textAt before path) (textAt after path)).all Strings.isSpace = true <->
        exportLines (textAt before path) = exportLines (textAt after path) := unifiedDiff_blank _ _
    by_cases blank : exportLines (textAt before path) = exportLines (textAt after path)
    · rw [if_pos blank, if_pos (blank_iff.mpr blank)]
    · rw [if_neg blank, if_neg fun spaces => blank (blank_iff.mp spaces)]
      rfl

omit [Difflib] in
theorem nodup_allPaths : (allPaths before after).Nodup :=
  (List.mergeSort_perm _ _).nodup_iff.mpr (List.nodup_dedup _)

omit [Difflib] in
theorem lookup_of_notMem {path : Text} {snapshot : Snapshot} (absent : path ∉ snapshot.map Prod.fst) :
    Projection.lookup path snapshot = none := by
  have missing : Keyed.find? Prod.fst path snapshot = none :=
    Keyed.find?_none.mpr fun item member same => absent (same ▸ List.mem_map_of_mem member)
  rw [Projection.lookup, missing]
  rfl

theorem patches_at (path : Text) :
    (patchesFromSnapshotDiff before after explanation).filter (fun patch => decide (patch.filePath = path)) =
      (patchFor before after explanation path).toList := by
  have named : ∀ other patch, patchFor before after explanation other = some patch -> patch.filePath = other := by
    intro other patch made
    rw [patchFor_eq] at made
    split_ifs at made
    rw [← Option.some.inj made]
  have single : ∀ paths : List Text, paths.Nodup ->
      (paths.filterMap (patchFor before after explanation)).filter (fun patch => decide (patch.filePath = path)) =
        if path ∈ paths then (patchFor before after explanation path).toList else [] := by
    intro paths distinct
    induction paths with
    | nil => rfl
    | cons other rest ih =>
      have parts := List.nodup_cons.mp distinct
      rw [List.filterMap_cons]
      by_cases here : other = path
      · subst here
        rw [if_pos List.mem_cons_self]
        cases made : patchFor before after explanation other with
        | none => simp only [ih parts.2, if_neg parts.1, Option.toList_none]
        | some patch =>
          have keeps : decide (patch.filePath = other) = true := decide_eq_true (named other patch made)
          simp only [List.filter_cons_of_pos (p := fun patch : CandidatePatch => decide (patch.filePath = other)) keeps,
            ih parts.2, if_neg parts.1, Option.toList_some]
      · have listed : path ∈ other :: rest <-> path ∈ rest := by
          rw [List.mem_cons]
          exact or_iff_right fun same => here same.symm
        rw [if_congr listed rfl rfl, ← ih parts.2]
        cases made : patchFor before after explanation other with
        | none => rfl
        | some patch =>
          have drops : ¬ decide (patch.filePath = path) = true := by
            rw [decide_eq_true_iff, named other patch made]
            exact here
          exact List.filter_cons_of_neg drops
  rw [patchesFromSnapshotDiff, single _ (nodup_allPaths before after)]
  by_cases listed : path ∈ allPaths before after
  · rw [if_pos listed]
  · rw [if_neg listed]
    have absent : path ∉ (before ++ after).map Prod.fst := by
      intro member
      apply listed
      exact (List.mergeSort_perm _ _).symm.subset (List.mem_dedup.mpr member)
    rw [List.map_append, List.mem_append, not_or] at absent
    rw [patchFor, lookup_of_notMem absent.1, lookup_of_notMem absent.2]
    rfl

end Snapshots

end Exported

/-- The export gives one patch for each path at which the exported lines
differ, which are the lines of the texts with a line feed at the end, and none
for others.  The patch of a safe path without a dot in front, for texts with
line feeds as their only line boundaries, is parsed to one update of this path;
applied to the ended old text it yields the ended new text. -/
theorem export_reproduces [Difflib] (casefold : Text -> Text) (before after : Snapshot) (explanation : String) :
    (∀ path, ((patchesFromSnapshotDiff before after explanation).filter
        (fun patch => decide (patch.filePath = path))).map (fun patch => (patch.originalLines, patch.patchedLines)) =
      if exportLines (textAt before path) = exportLines (textAt after path) then []
      else [(textAt before path, textAt after path)]) ∧
    (∀ old new, exportLines old = exportLines new -> endedText old = endedText new) ∧
    ∀ patch ∈ patchesFromSnapshotDiff before after explanation,
      SafePath patch.filePath -> patch.filePath.head? ≠ some '.' ->
      LfOnly patch.originalLines -> LfOnly patch.patchedLines ->
      ∃ plan, parseUnifiedPatch casefold patch.diff = .ok [⟨patch.filePath, .update, plan⟩] ∧
        applyText (endedText patch.originalLines) plan = .ok (endedText patch.patchedLines) := by
  refine ⟨?_, ?_, ?_⟩
  · intro path
    rw [patches_at, patchFor_eq]
    split_ifs <;> rfl
  · intro old new same
    rw [← flatten_exportLines, ← flatten_exportLines, same]
  · intro patch member safe dotless oldLf newLf
    obtain ⟨path, -, made⟩ := List.mem_filterMap.mp member
    rw [patchFor_eq] at made
    split_ifs at made with same
    have patchIs := (Option.some.inj made).symm
    subst patchIs
    have differ : Difflib.edits (exportLines (textAt before path)) (exportLines (textAt after path)) ≠ [] :=
      fun nothing => same (edits_eq_nil.mp nothing)
    have description := written_description oldLf newLf
    have nonempty : written (textAt before path) (textAt after path) ≠ [] :=
      fun empty => differ (List.map_eq_nil_iff.mp empty)
    refine ⟨_, ?_, description.applyText⟩
    change parseUnifiedPatch casefold (unifiedDiffForPath path (textAt before path) (textAt after path)) = _
    rw [unifiedDiffForPath_eq oldLf newLf safe dotless differ]
    exact description.parseUnifiedPatch casefold true nonempty (headerOf path safe)

/-- Everything that was there is replaced. -/
def replacement (old new : List Text) : Edit Text :=
  ⟨0, old.length, 0, new.length, old.map (fun line => (.removed, line)) ++ new.map fun line => (.added, line)⟩

theorem oldLines_replacement (old new : List Text) : Edit.oldLines (replacement old new).body = old := by
  simp [replacement, Edit.oldLines, Side.inOld, List.filter_map, Function.comp_def]

theorem newLines_replacement (old new : List Text) : Edit.newLines (replacement old new).body = new := by
  simp [replacement, Edit.newLines, Side.inNew, List.filter_map, Function.comp_def]

/-- A diff that replaces everything. -/
@[reducible] def replacing : Difflib where
  edits old new := if old = new then [] else [replacement old new]
  realises old new := by
    split_ifs with same
    · rw [same]
      exact .done 0 0 new
    · have step := @Edit.Realises.edit Text 0 0 (replacement old new) [] [] [] [] rfl rfl
        (by rw [oldLines_replacement]; rfl) (by rw [newLines_replacement]; rfl) (.done _ _ [])
      rwa [oldLines_replacement, newLines_replacement, List.append_nil, List.append_nil] at step
  same lines := if_pos rfl

/-- A file that only gains the line feed at its end has no patch. -/
theorem final_newline_not_exported : ¬ ∀ (_ : Difflib) (before after : Snapshot) (explanation : String) (path : Text),
    ((patchesFromSnapshotDiff before after explanation).filter fun patch => decide (patch.filePath = path)).length =
      if Projection.lookup path before = Projection.lookup path after then 0 else 1 := by
  intro always
  have counted := always replacing [(['a'], ['x'])] [(['a'], ['x', '\n'])] "tool_edit" ['a']
  rw [@patches_at replacing, @patchFor_eq replacing, if_pos (by decide), if_neg (by decide)] at counted
  exact absurd counted (by decide)

end DiskEdits
end FixLoop
