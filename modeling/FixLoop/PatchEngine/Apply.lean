import Mathlib.Data.Finset.Insert
import FixLoop.Library.EditScript
import FixLoop.PatchEngine.Header

namespace FixLoop
namespace PatchEngine

open Library

/-!
# `apply_text`

The kinds ` `, `-` and `+` of a body line are the three sides of an edit.  A
hunk is one edit on lines with their endings, and the applier accepts a list
of hunks exactly when these edits turn the lines of the text into others.
-/

structure PatchHunk where
  header : Text
  lines : List (Side × Text)
  noNewline : Finset Nat

inductive PatchMode where
  | diff
  | replacement
  | other (name : String)

structure PatchPlan where
  mode : PatchMode
  hunks : List PatchHunk
  oldText : Text
  newText : Text
  newline : Newline

/-- The ending that a body line gets in `apply_text`. -/
def PatchHunk.ending (hunk : PatchHunk) (index : Nat) : Text :=
  if index ∈ hunk.noNewline then [] else ['\n']

/-- The body with its line endings. -/
def PatchHunk.body (hunk : PatchHunk) : List (Side × Text) :=
  hunk.lines.zipIdx.map fun entry => (entry.1.1, entry.1.2 ++ hunk.ending entry.2)

/-- What the loop over the body of a hunk carries along. -/
structure LineState where
  cursor : Nat
  output : List Text
  oldUsed : Nat
  newUsed : Nat

/-- The loop over the body of a hunk. -/
def applyLines (original : List Text) :
    List (Side × Text) -> LineState -> Except PatchError LineState
  | [], state => .ok state
  | (side, line) :: rest, state =>
    if side.inOld = true ∧ original[state.cursor]? ≠ some line then
      .error (stalePreimage s!"hunk preimage mismatch at line {state.cursor + 1}")
    else
      applyLines original rest
        { cursor := if side.inOld then state.cursor + 1 else state.cursor,
          output := if side.inNew then state.output ++ [line] else state.output,
          oldUsed := if side.inOld then state.oldUsed + 1 else state.oldUsed,
          newUsed := if side.inNew then state.newUsed + 1 else state.newUsed }

/-- One round of the loop over the hunks. -/
def applyHunk (original : List Text) (hunk : PatchHunk) (cursor : Nat) (output : List Text) :
    Except PatchError (Nat × List Text) :=
  match coordinates hunk.header with
  | .error fault => .error fault
  | .ok position =>
    if position.oldStart < cursor ∨ position.oldStart > original.length ∨
        position.oldStart + position.oldCount > original.length then
      .error (stalePreimage "overlapping or out of range hunk")
    else
      let copied := output ++ (original.take position.oldStart).drop cursor
      if position.newStart ≠ copied.length then
        .error (invalidPatch "inconsistent new hunk coordinates")
      else
        match applyLines original hunk.body ⟨position.oldStart, copied, 0, 0⟩ with
        | .error fault => .error fault
        | .ok state =>
          if (state.oldUsed, state.newUsed) ≠ (position.oldCount, position.newCount) then
            .error (invalidPatch "hunk line counts mismatch")
          else .ok (state.cursor, state.output)

def applyHunks (original : List Text) :
    List PatchHunk -> Nat -> List Text -> Except PatchError (Nat × List Text)
  | [], cursor, output => .ok (cursor, output)
  | hunk :: rest, cursor, output =>
    match applyHunk original hunk cursor output with
    | .error fault => .error fault
    | .ok (cursor, output) => applyHunks original rest cursor output

/-- The text before the first occurrence of a pattern and the text after it. -/
def splitFirst (pattern : Text) : Text -> Option (Text × Text)
  | [] => if pattern = [] then some ([], []) else none
  | char :: rest =>
    if pattern.isPrefixOf (char :: rest) then some ([], (char :: rest).drop pattern.length)
    else (splitFirst pattern rest).map fun parts => (char :: parts.1, parts.2)

/-- Count disjoint occurrences, leaving out the characters of the last one. -/
def countAfter (pattern : Text) (skip : Nat) : Text -> Nat
  | [] => 0
  | char :: rest =>
    if 0 < skip then countAfter pattern (skip - 1) rest
    else if pattern.isPrefixOf (char :: rest) then 1 + countAfter pattern (pattern.length - 1) rest
    else countAfter pattern 0 rest

/-- `text.count(pattern)`. -/
def count (pattern text : Text) : Nat :=
  if pattern = [] then text.length + 1 else countAfter pattern 0 text

/-- `text.replace(pattern, by, 1)`. -/
def replaceFirst (pattern replacement text : Text) : Text :=
  match splitFirst pattern text with
  | none => text
  | some (before, after) => before ++ replacement ++ after

def applyReplacement (text : Text) (plan : PatchPlan) : Except PatchError Text := do
  if '\x00' ∈ plan.newText then .error (invalidPatch "binary text is unsupported")
  let found := count plan.oldText text
  if plan.oldText = [] ∨ found ≠ 1 then
    .error (stalePreimage s!"old_text 出现 {found} 次，必须恰好匹配 1 次")
  let _ <- lines text false
  let result := replaceFirst plan.oldText plan.newText text
  let _ <- lines result false
  .ok result

def applyDiff (text : Text) (plan : PatchPlan) : Except PatchError Text :=
  if mixedNewlines text then
    .error (invalidPatch "mixed or CR-only newlines are unsupported")
  else
    match lines text true with
    | .error fault => .error fault
    | .ok original =>
      match applyHunks original plan.hunks 0 [] with
      | .error fault => .error fault
      | .ok (cursor, output) =>
        if ¬ terminated (output ++ original.drop cursor) then
          .error (invalidPatch "no-newline marker may only terminate a file")
        else .ok (replaceLf ((endings text).getD plan.newline)
          (output ++ original.drop cursor).flatten)

def applyText (text : Text) (plan : PatchPlan) : Except PatchError Text :=
  if '\x00' ∈ text then .error (invalidPatch "binary text is unsupported")
  else
    match plan.mode with
    | .replacement => applyReplacement text plan
    | .other name => .error (invalidPatch s!"unsupported patch mode: {name}")
    | .diff => applyDiff text plan

/-! ## The applier and the edits -/

/-- The hunk carries this edit. -/
structure Describes (hunk : PatchHunk) (edit : Edit Text) : Prop where
  position : coordinates hunk.header =
    .ok ⟨edit.oldStart, edit.oldCount, edit.newStart, edit.newCount⟩
  body : hunk.body = edit.body

open Edit

variable {original : List Text}

variable {cursor : Nat} {hunks : List PatchHunk}

theorem drop_eq_cons_iff {tail : List Text} {line : Text} :
    original.drop cursor = line :: tail <->
      original[cursor]? = some line ∧ original.drop (cursor + 1) = tail := by
  constructor
  · intro split
    constructor
    · rw [← List.head?_drop, split, List.head?_cons]
    · rw [← List.tail_drop, split, List.tail_cons]
  · rintro ⟨found, rfl⟩
    rcases List.getElem?_eq_some_iff.mp found with ⟨bound, same⟩
    rw [List.drop_eq_getElem_cons bound, same]

theorem applyLines_cons_old {side : Side} {line : Text} {rest : List (Side × Text)}
    {state final : LineState} (old : side.inOld = true) :
    applyLines original ((side, line) :: rest) state = .ok final <->
      original[state.cursor]? = some line ∧
        applyLines original rest
          { cursor := state.cursor + 1,
            output := if side.inNew then state.output ++ [line] else state.output,
            oldUsed := state.oldUsed + 1,
            newUsed := if side.inNew then state.newUsed + 1 else state.newUsed } = .ok final := by
  rw [applyLines]
  by_cases found : original[state.cursor]? = some line
  · rw [if_neg (fun mismatch => mismatch.2 found), old]
    exact ⟨fun accepted => ⟨found, accepted⟩, fun both => both.2⟩
  · rw [if_pos ⟨old, found⟩]
    exact ⟨nofun, fun both => absurd both.1 found⟩

/-- The loop over a body consumes its old side and emits its new side. -/
theorem applyLines_ok_iff (original : List Text) (body : List (Side × Text)) (state final : LineState) :
    applyLines original body state = .ok final <->
      original.drop state.cursor =
          oldLines body ++ original.drop (state.cursor + (oldLines body).length) ∧
        final = ⟨state.cursor + (oldLines body).length, state.output ++ newLines body,
          state.oldUsed + (oldLines body).length, state.newUsed + (newLines body).length⟩ := by
  induction body generalizing state with
  | nil =>
    rw [applyLines, Except.ok.injEq]
    simp only [oldLines, newLines, List.filter_nil, List.map_nil, List.length_nil, List.nil_append,
      List.append_nil, Nat.add_zero, true_and]
    exact eq_comm
  | cons entry rest ih =>
    rcases entry with ⟨side, line⟩
    cases side with
    | kept =>
      rw [applyLines_cons_old rfl, ih]
      change _ <-> _ = line :: (oldLines rest ++ _) ∧ final = ⟨_, _ ++ line :: newLines rest, _, _⟩
      rw [drop_eq_cons_iff, and_assoc]
      simp only [Side.inNew, bne_iff_ne, ne_eq, reduceCtorEq, not_false_eq_true, if_true,
        List.append_assoc, List.singleton_append, oldLines, newLines, Side.inOld, List.filter_cons,
        List.map_cons, List.length_cons, Nat.add_assoc, Nat.add_comm 1]
    | removed =>
      rw [applyLines_cons_old rfl, ih]
      change _ <-> _ = line :: (oldLines rest ++ _) ∧ final = ⟨_, _ ++ newLines rest, _, _⟩
      rw [drop_eq_cons_iff, and_assoc]
      simp only [Side.inNew, bne_self_eq_false, Bool.false_eq_true, if_false, oldLines, newLines,
        Side.inOld, List.filter_cons, bne_iff_ne, ne_eq, reduceCtorEq, not_false_eq_true, if_true,
        List.map_cons, List.length_cons, Nat.add_assoc, Nat.add_comm 1]
    | added =>
      rw [applyLines, if_neg (fun mismatch => Bool.false_ne_true mismatch.1), ih]
      change _ <-> _ = oldLines rest ++ _ ∧ final = ⟨_, _ ++ line :: newLines rest, _, _⟩
      simp only [Side.inNew, bne_self_eq_false, Bool.false_eq_true, if_false, oldLines, newLines,
        Side.inOld, List.filter_cons, bne_iff_ne, ne_eq, reduceCtorEq, not_false_eq_true, if_true,
        List.map_cons, List.length_cons, Nat.add_assoc, Nat.add_comm 1, List.append_assoc,
        List.singleton_append]

/-- One round over a hunk is one step of `Realises`. -/
theorem applyHunk_ok_iff (original : List Text) (hunk : PatchHunk) (cursor : Nat)
    (output : List Text) (cursor' : Nat) (output' : List Text) :
    applyHunk original hunk cursor output = .ok (cursor', output') ∧ cursor ≤ original.length <->
      ∃ edit : Edit Text, ∃ skipped, Describes hunk edit ∧
        edit.oldStart = cursor + skipped.length ∧ edit.newStart = output.length + skipped.length ∧
        edit.oldCount = (oldLines edit.body).length ∧ edit.newCount = (newLines edit.body).length ∧
        original.drop cursor = skipped ++ (oldLines edit.body ++ original.drop cursor') ∧
        cursor ≤ original.length ∧
        cursor' = edit.oldStart + edit.oldCount ∧ output' = output ++ (skipped ++ newLines edit.body) := by
  constructor
  · rintro ⟨accepted, inside⟩
    unfold applyHunk at accepted
    cases placed : coordinates hunk.header with
    | error fault => simp only [placed, reduceCtorEq] at accepted
    | ok position =>
      simp only [placed] at accepted
      split at accepted
      · cases accepted
      rename_i range
      split at accepted
      · cases accepted
      rename_i start
      cases looped : applyLines original hunk.body
          ⟨position.oldStart, output ++ (original.take position.oldStart).drop cursor, 0, 0⟩ with
      | error fault => simp only [looped, reduceCtorEq] at accepted
      | ok state =>
        simp only [looped] at accepted
        split at accepted
        · cases accepted
        rename_i counts
        cases accepted
        rcases (applyLines_ok_iff _ _ _ _).mp looped with ⟨consumed, rfl⟩
        have used := Prod.mk.inj (not_not.mp counts)
        simp only [Nat.zero_add] at used
        have copied : (original.take position.oldStart).drop cursor =
            (original.drop cursor).take (position.oldStart - cursor) := List.drop_take
        have length : ((original.take position.oldStart).drop cursor).length =
            position.oldStart - cursor := by
          rw [List.length_drop, List.length_take]
          omega
        have whole : original.drop cursor = (original.take position.oldStart).drop cursor ++
            original.drop position.oldStart := by
          have place : cursor + (position.oldStart - cursor) = position.oldStart := by omega
          rw [copied, ← place, ← List.drop_drop, place]
          exact (List.take_append_drop _ _).symm
        refine ⟨⟨position.oldStart, position.oldCount, position.newStart, position.newCount,
          hunk.body⟩, (original.take position.oldStart).drop cursor, ⟨placed, rfl⟩, ?_, ?_, used.1.symm,
          used.2.symm, ?_, inside, ?_, ?_⟩
        · change position.oldStart = _
          omega
        · have started := not_not.mp start
          rwa [List.length_append] at started
        · rw [whole, consumed]
        · change position.oldStart + _ = position.oldStart + position.oldCount
          rw [used.1]
        · exact List.append_assoc _ _ _
  · rintro ⟨edit, skipped, ⟨placed, body⟩, oldStart, newStart, oldCount, newCount, split, inside, rfl,
      rfl⟩
    refine ⟨?_, inside⟩
    have length := congrArg List.length split
    rw [List.length_drop, List.length_append, List.length_append, List.length_drop] at length
    have copied : (original.take edit.oldStart).drop cursor = skipped := by
      rw [List.drop_take, split, oldStart, Nat.add_sub_cancel_left, List.take_left]
    have consumed : original.drop edit.oldStart =
        oldLines edit.body ++ original.drop (edit.oldStart + (oldLines edit.body).length) := by
      rw [oldStart, ← List.drop_drop, split, List.drop_left, ← oldStart, ← oldCount]
    unfold applyHunk
    rw [placed]
    dsimp only
    rw [if_neg (by omega), copied, if_neg (by rw [List.length_append]; omega), body]
    rw [(applyLines_ok_iff original edit.body _ _).mpr ⟨consumed, rfl⟩]
    dsimp only
    rw [if_neg (by rw [Nat.zero_add, Nat.zero_add, ← oldCount, ← newCount]; exact not_not.mpr rfl),
      ← oldCount, List.append_assoc]

theorem applyHunks_realises {cursor' : Nat} {output output' : List Text}
    (accepted : applyHunks original hunks cursor output = .ok (cursor', output'))
    (inside : cursor ≤ original.length) :
    ∃ edits new, List.Forall₂ Describes hunks edits ∧
      Realises cursor output.length edits (original.drop cursor) new ∧
      output' ++ original.drop cursor' = output ++ new := by
  induction hunks generalizing cursor output with
  | nil =>
    cases accepted
    exact ⟨[], _, .nil, .done _ _ _, rfl⟩
  | cons hunk rest ih =>
    unfold applyHunks at accepted
    cases first : applyHunk original hunk cursor output with
    | error fault => simp only [first, reduceCtorEq] at accepted
    | ok reached =>
      rcases reached with ⟨next, copied⟩
      simp only [first] at accepted
      rcases (applyHunk_ok_iff original hunk cursor output next copied).mp ⟨first, inside⟩ with
        ⟨edit, skipped, describes, oldStart, newStart, oldCount, newCount, split, _, rfl, rfl⟩
      have length := congrArg List.length split
      rw [List.length_drop, List.length_append, List.length_append, List.length_drop] at length
      rcases ih accepted (by omega) with ⟨edits, new, described, realises, joined⟩
      have place : (output ++ (skipped ++ newLines edit.body)).length =
          edit.newStart + edit.newCount := by
        rw [List.length_append, List.length_append]
        omega
      rw [place] at realises
      refine ⟨edit :: edits, skipped ++ (newLines edit.body ++ new), .cons describes described, ?_, ?_⟩
      · rw [split]
        exact .edit skipped oldStart newStart oldCount newCount realises
      · rw [joined, List.append_assoc, List.append_assoc]

theorem applyHunks_of_realises {new : List Text} {edits : List (Edit Text)} {output : List Text}
    (described : List.Forall₂ Describes hunks edits)
    (realises : Realises cursor output.length edits (original.drop cursor) new)
    (inside : cursor ≤ original.length) :
    ∃ cursor' output', applyHunks original hunks cursor output = .ok (cursor', output') ∧
        output' ++ original.drop cursor' = output ++ new := by
  induction described generalizing cursor output new with
  | nil =>
    generalize whole : original.drop cursor = rest at realises
    cases realises
    exact ⟨cursor, output, rfl, by rw [whole]⟩
  | @cons hunk edit hunks edits describes described ih =>
    generalize whole : original.drop cursor = old at realises
    cases realises with
    | @edit _ _ _ _ old new skipped oldStart newStart oldCount newCount later =>
      have length := congrArg List.length whole
      rw [List.length_drop, List.length_append, List.length_append] at length
      have rest : original.drop (edit.oldStart + edit.oldCount) = old := by
        rw [oldStart, oldCount, Nat.add_assoc, ← List.drop_drop, whole, ← List.append_assoc,
          ← List.length_append, List.drop_left]
      have first := (applyHunk_ok_iff original hunk cursor output (edit.oldStart + edit.oldCount)
        (output ++ (skipped ++ newLines edit.body))).mpr ⟨edit, skipped, describes, oldStart,
          newStart, oldCount, newCount, by rw [rest, whole], inside, rfl, rfl⟩
      have place : (output ++ (skipped ++ newLines edit.body)).length =
          edit.newStart + edit.newCount := by
        rw [List.length_append, List.length_append]
        omega
      rw [← rest, ← place] at later
      rcases ih later (by omega) with ⟨cursor', output', accepted, joined⟩
      refine ⟨cursor', output', ?_, ?_⟩
      · unfold applyHunks
        rw [first.1]
        exact accepted
      · rw [joined, List.append_assoc, List.append_assoc]

/-- The applier accepts a plan of hunks exactly when these are edits of the
lines of the text, and returns the edited lines under the text's own line
endings. -/
theorem applyText_diff_iff {text result : Text} {plan : PatchPlan} (mode : plan.mode = .diff) :
    applyText text plan = .ok result <->
      '\x00' ∉ text ∧ mixedNewlines text = false ∧ ∃ edits output,
        List.Forall₂ Describes plan.hunks edits ∧
        Realises 0 0 edits (keepLines (replaceCrlf ['\n'] text)) output ∧ terminated output = true ∧
        result = replaceLf ((endings text).getD plan.newline) output.flatten := by
  unfold applyText
  by_cases binary : '\x00' ∈ text
  · rw [if_pos binary]
    exact ⟨nofun, fun all => absurd binary all.1⟩
  rw [if_neg binary, mode]
  dsimp only
  unfold applyDiff
  by_cases mixed : mixedNewlines text = true
  · rw [if_pos mixed]
    exact ⟨nofun, fun all => absurd mixed (Bool.eq_false_iff.mp all.2.1)⟩
  rw [if_neg mixed, lines, if_neg binary, if_neg mixed]
  dsimp only
  rw [if_pos rfl]
  constructor
  · intro accepted
    refine ⟨binary, Bool.eq_false_iff.mpr mixed, ?_⟩
    cases applied : applyHunks (keepLines (replaceCrlf ['\n'] text)) plan.hunks 0 [] with
    | error fault => simp only [applied, reduceCtorEq] at accepted
    | ok reached =>
      simp only [applied] at accepted
      split at accepted
      · cases accepted
      rename_i ends
      cases accepted
      rcases applyHunks_realises applied (Nat.zero_le _) with
        ⟨edits, new, described, realises, joined⟩
      rw [List.nil_append] at joined
      exact ⟨edits, new, described, realises, joined ▸ not_not.mp ends, by rw [joined]⟩
  · rintro ⟨_, _, edits, output, described, realises, ends, rfl⟩
    have started : Realises 0 ([] : List Text).length edits
        ((keepLines (replaceCrlf ['\n'] text)).drop 0) output := realises
    rcases applyHunks_of_realises described started (Nat.zero_le _) with
      ⟨cursor, copied, accepted, joined⟩
    rw [List.nil_append] at joined
    rw [accepted]
    dsimp only
    rw [joined, if_neg (not_not.mpr ends)]

end PatchEngine
end FixLoop

namespace FixLoop
namespace PatchEngine

open Library Edit

/-!
# Reversing a plan

The reversed plan exchanges `-` with `+` and the coordinates of every header.
It undoes the plan on the patched text.  The line ending is the one thing
that a plan does not determine: a text without any `\n` takes it from the
plan, so a plan that carries `\r\n` and removes the last `\n` of a text is
not undone.
-/

def PatchHunk.reverse (hunk : PatchHunk) : PatchHunk :=
  ⟨reverseHeader hunk.header, swapBody hunk.lines, hunk.noNewline⟩

def PatchPlan.reverse (plan : PatchPlan) : PatchPlan :=
  { plan with hunks := plan.hunks.map PatchHunk.reverse }

/-- The no-newline markers of a hunk sit on nonempty lines. -/
def PatchHunk.MarksText (hunk : PatchHunk) : Prop :=
  ∀ index entry, hunk.lines[index]? = some entry -> index ∈ hunk.noNewline -> entry.2 ≠ []

/-- The texts of a hunk are single lines, as in every parsed plan. -/
def PatchHunk.SingleLines (hunk : PatchHunk) : Prop :=
  ∀ entry ∈ hunk.lines, '\n' ∉ entry.2 ∧ Plain entry.2

theorem PatchHunk.body_reverse (hunk : PatchHunk) : hunk.reverse.body = swapBody hunk.body := by
  rw [PatchHunk.body, PatchHunk.reverse, swapBody, List.zipIdx_map, List.map_map, PatchHunk.body,
    swapBody, List.map_map]
  rfl

variable {hunk : PatchHunk}

theorem Describes.reverse {edit : Edit Text} (describes : Describes hunk edit) :
    Describes hunk.reverse edit.reverse :=
  ⟨coordinates_reverseHeader describes.position, by
    rw [PatchHunk.body_reverse, describes.body]
    rfl⟩

variable {side : Side} {line : Text} {hunks : List PatchHunk} {edits : List (Edit Text)}

theorem PatchHunk.mem_body (member : (side, line) ∈ hunk.body) :
    ∃ index content,
      hunk.lines[index]? = some (side, content) ∧ line = content ++ hunk.ending index := by
  rcases List.mem_map.mp member with ⟨⟨⟨listed, content⟩, index⟩, place, same⟩
  cases same
  exact ⟨index, content, List.mem_zipIdx_iff_getElem?.mp place, rfl⟩

theorem PatchHunk.SingleLines.shape (single : hunk.SingleLines) (member : (side, line) ∈ hunk.body) :
    LineShape line ∧ Plain line := by
  rcases hunk.mem_body member with ⟨index, content, found, rfl⟩
  rcases single _ (List.mem_of_getElem? found) with ⟨noNewline, plain⟩
  unfold PatchHunk.ending
  split
  · rw [List.append_nil]
    exact ⟨⟨content, noNewline, Or.inr rfl⟩, plain⟩
  · refine ⟨⟨content, noNewline, Or.inl rfl⟩, ⟨?_, ?_⟩⟩
    · simpa using plain.noReturn
    · simpa using plain.noNull

theorem PatchHunk.MarksText.nonempty (marks : hunk.MarksText) (member : (side, line) ∈ hunk.body) :
    line ≠ [] := by
  rcases hunk.mem_body member with ⟨index, content, found, rfl⟩
  unfold PatchHunk.ending
  split
  · rename_i marked
    rw [List.append_nil]
    exact marks index _ found marked
  · simp

/-- The edits of described hunks are made of the hunks' lines. -/
theorem mem_body_of_described (described : List.Forall₂ Describes hunks edits) {edit : Edit Text}
    (member : edit ∈ edits) : ∃ hunk ∈ hunks, hunk.body = edit.body := by
  induction described with
  | nil => exact False.elim (List.not_mem_nil member)
  | @cons hunk first hunks edits describes described ih =>
    rcases List.mem_cons.mp member with rfl | member
    · exact ⟨hunk, List.mem_cons_self, describes.body⟩
    · rcases ih member with ⟨other, listed, same⟩
      exact ⟨other, List.mem_cons_of_mem hunk listed, same⟩

theorem plain_output {text : Text} {output : List Text} (plain : Plain text)
    (single : ∀ hunk ∈ hunks, hunk.SingleLines)
    (described : List.Forall₂ Describes hunks edits) (realises : Realises 0 0 edits (keepLines text) output) :
    (∀ line ∈ output, LineShape line) ∧ Plain output.flatten := by
  have each : ∀ line ∈ output, LineShape line ∧ Plain line := by
    intro line member
    rcases realises.mem_new member with kept | ⟨edit, listed, side, inside⟩
    · have within : ∀ char ∈ line, char ∈ text := by
        intro char inside
        rw [← flatten_keepLines text]
        exact List.mem_flatten_of_mem kept inside
      exact ⟨((lineList_keepLines text).shape kept).1,
        fun impossible => plain.noReturn (within _ impossible),
        fun impossible => plain.noNull (within _ impossible)⟩
    · rcases mem_body_of_described described listed with ⟨hunk, known, same⟩
      exact (single hunk known).shape (same ▸ inside)
  refine ⟨fun line member => (each line member).1, ?_, ?_⟩
  · intro impossible
    rcases List.mem_flatten.mp impossible with ⟨line, member, inside⟩
    exact (each line member).2.noReturn inside
  · intro impossible
    rcases List.mem_flatten.mp impossible with ⟨line, member, inside⟩
    exact (each line member).2.noNull inside

/-- The reversed plan takes the patched text back to the original.  The text
is plain, the lines of the plan are single lines with their markers on
nonempty ones, and the line ending is not left to a plan that carries `\r\n`
after the last `\n` of the text has gone. -/
theorem applyText_reverse (text patched : Text) (plan : PatchPlan) (mode : plan.mode = .diff)
    (plain : Plain text) (single : ∀ hunk ∈ plan.hunks, hunk.SingleLines)
    (marks : ∀ hunk ∈ plan.hunks, hunk.MarksText)
    (ending : plan.newline = .lf ∨ '\n' ∈ patched ∨ '\n' ∉ text)
    (accepted : applyText text plan = .ok patched) :
    applyText patched plan.reverse = .ok text := by
  rcases (applyText_diff_iff mode).mp accepted with ⟨_, _, edits, output, described, realises, ends, same⟩
  have untouched : replaceLf .lf text = text := replaceLf_lf text
  have normal : replaceCrlf ['\n'] text = text := replaceCrlf_eq_self plain.noReturn
  have kind : endings text = if '\n' ∈ text then some .lf else none := by
    have known := @endings_replaceLf .lf text plain.noReturn
    rwa [untouched] at known
  rw [normal] at realises
  rcases plain_output plain single described realises with ⟨shapes, plainOutput⟩
  have nonempty : ∀ line ∈ output, line ≠ [] := by
    intro line member
    rcases realises.mem_new member with kept | ⟨edit, listed, side, inside⟩
    · exact ((lineList_keepLines text).shape kept).2
    · rcases mem_body_of_described described listed with ⟨hunk, known, body⟩
      exact (marks hunk known).nonempty (body ▸ inside)
  have whole : keepLines output.flatten = output :=
    keepLines_flatten (lineList_of_terminated shapes nonempty ends)
  have reversed : List.Forall₂ Describes plan.reverse.hunks (edits.map Edit.reverse) := by
    rw [PatchPlan.reverse, List.forall₂_map_left_iff, List.forall₂_map_right_iff]
    exact described.imp fun _ _ describes => describes.reverse
  have back : text = replaceLf ((endings patched).getD plan.newline) text := by
    by_cases present : '\n' ∈ text
    · rw [same, endings_replaceLf plainOutput.noReturn, kind, if_pos present]
      by_cases remains : '\n' ∈ output.flatten
      · rw [if_pos remains]
        exact (replaceLf_lf text).symm
      · rw [if_neg remains]
        rcases ending with lf | impossible | impossible
        · rw [lf]
          exact (replaceLf_lf text).symm
        · rw [same] at impossible
          exact absurd (mem_replaceLf (by decide) impossible) remains
        · exact absurd present impossible
    · exact (replaceLf_eq_self present).symm
  have reverseMode : plan.reverse.mode = .diff := mode
  refine (applyText_diff_iff reverseMode).mpr ⟨?_, ?_, edits.map Edit.reverse, keepLines text, reversed, ?_,
    (lineList_keepLines text).terminated, ?_⟩
  · rw [same]
    exact fun impossible => plainOutput.noNull (mem_replaceLf (by decide) impossible)
  · rw [same]
    exact mixedNewlines_replaceLf plainOutput.noReturn
  · rw [same, normalize_replaceLf plainOutput.noReturn, whole]
    exact realises.reverse
  · rw [flatten_keepLines]
    exact back

/-- A plan that replaces the line `old` of a one-line text by `new`. -/
def replaceOnly (newline : Newline) (old new : Text) (noNewline : Finset Nat) : PatchPlan :=
  { mode := .diff, hunks := [⟨"@@ -1,1 +1,1 @@".toList, [(.removed, old), (.added, new)], noNewline⟩],
    oldText := [], newText := [], newline := newline }

/-- The plan of a `\r\n` patch takes the final newline away, and its reversal
brings back another one.  A plan whose line holds a `\n` writes two lines,
and its reversal looks for one. -/
theorem applyText_reverse_differs :
    let crlf := replaceOnly .crlf ['a'] ['a'] {1}
    let double := replaceOnly .lf ['a'] ['b', '\n', 'c'] ∅
    applyText ['a', '\n'] crlf = .ok ['a'] ∧ applyText ['a'] crlf.reverse = .ok ['a', '\r', '\n'] ∧
      applyText ['a', '\n'] double = .ok ['b', '\n', 'c', '\n'] ∧
      applyText ['b', '\n', 'c', '\n'] double.reverse =
        .error (stalePreimage "hunk preimage mismatch at line 1") :=
  ⟨rfl, rfl, rfl, rfl⟩

theorem applyText_reverse_single :
    applyText ['b', '\n'] (replaceOnly .lf ['a'] ['b'] ∅).reverse = .ok ['a', '\n'] := by
  refine applyText_reverse ['a', '\n'] ['b', '\n'] (replaceOnly .lf ['a'] ['b'] ∅) rfl
    ⟨by decide, by decide⟩ ?_ ?_ (Or.inl rfl) rfl
  · intro hunk member entry listed
    rw [List.mem_singleton.mp member] at listed
    rcases List.mem_cons.mp listed with rfl | listed
    · exact ⟨by decide, by decide, by decide⟩
    · rw [List.mem_singleton.mp listed]
      exact ⟨by decide, by decide, by decide⟩
  · intro hunk member index entry _ marked
    rw [List.mem_singleton.mp member] at marked
    exact False.elim (Finset.notMem_empty index marked)

end PatchEngine
end FixLoop
