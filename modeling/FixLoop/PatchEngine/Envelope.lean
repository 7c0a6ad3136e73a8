import FixLoop.Library.Strings
import FixLoop.PatchEngine.Render

namespace FixLoop
namespace PatchEngine

open Library (Strings.isSpace)

/-!
# Patch envelopes

`parse_apply_patch_text` takes the fences of a model's answer off and reads
the operations between `*** Begin Patch` and `*** End Patch`.
-/

/-- What a caller sees raised: `ValueError`, `PatchError` or `KeyError`. -/
inductive PatchFault where
  | value (message : String)
  | patch (error : PatchError)
  | key

structure ApplyPatchOp where
  action : FileAction
  path : Text
  diff : Text
  plan : Option PatchPlan

/-! ## `strip_fences` -/

def isReturn (char : Char) : Bool := char = '\r' || char = '\n'

/-- `text.strip(chars)`. -/
def stripWhile (stripped : Char -> Bool) (text : Text) : Text :=
  ((text.dropWhile stripped).reverse.dropWhile stripped).reverse

def fence : Text := ['`', '`', '`']

/-- The class `\w`; the letters and digits beyond ASCII are a parameter. -/
def isWord (letter : Char -> Bool) (char : Char) : Bool :=
  if char.toNat < 128 then char.isAlphanum || char = '_' else letter char

/-- The rests after the newlines in the leading white space, the last newline
first: what `\s*\n` can leave. -/
def afterNewlines : Text -> List Text
  | [] => []
  | char :: rest =>
    if Strings.isSpace char then afterNewlines rest ++ (if char = '\n' then [rest] else [])
    else []

/-- `\s*$` matches, where `$` also matches before a newline. -/
def closes (text : Text) : Bool :=
  text.dropWhile Strings.isSpace = [] || '\n' ∈ text.takeWhile Strings.isSpace

/-- What `([\s\S]*?)` takes before the first closing fence. -/
def untilFence : Text -> Option Text
  | [] => none
  | char :: rest =>
    if startsWith ('\n' :: fence) (char :: rest) && closes (rest.drop 3) then some []
    else (untilFence rest).map (List.cons char)

/-- The group of `_FENCE_RE.match`. -/
def fenceBody (letter : Char -> Bool) (raw : Text) : Option Text := do
  let opened <- expect fence raw
  (afterNewlines (opened.dropWhile (isWord letter))).findSome? untilFence

/-- The first and the last line of a fence or a heredoc are taken off. -/
def dropFenceLines (ls : List Text) : List Text :=
  let ls := if ls.head?.any (fun line => startsWith fence (stripWhile Strings.isSpace line)) then ls.tail
    else ls
  let ls := if ls.getLast?.any (fun line => stripWhile Strings.isSpace line = fence) then ls.dropLast else ls
  if ls.head?.any (fun line => startsWith ['<', '<'] (stripWhile Strings.isSpace line)) then
    let inner := ls.tail
    if inner.getLast?.any (fun line => [".", "EOF", "PATCH"].any (fun word =>
        stripWhile Strings.isSpace line = word.toList)) then inner.dropLast
    else inner
  else ls

def stripFences (letter : Char -> Bool) (text : Text) : Text :=
  let raw := stripWhile isReturn text
  if raw = [] then []
  else if !startsWith fence raw && !startsWith ['<', '<'] raw then raw
  else
    match fenceBody letter raw with
    | some body => stripWhile isReturn body
    | none =>
      stripWhile isReturn (joinLines false (dropFenceLines ((replaceCrlf ['\n'] raw).splitOn '\n')))

/-! ## `parse_apply_patch_text` -/

def beginLine : Text := "*** Begin Patch".toList

def endLine : Text := "*** End Patch".toList

/-- What the lines of the envelope that are no content begin with. -/
def stars : Text := "*** ".toList

def opening : FileAction -> Text
  | .update => "*** Update File: ".toList
  | .add => "*** Add File: ".toList
  | .delete => "*** Delete File: ".toList

/-- `re.fullmatch(r"\*\*\* (Update|Add|Delete) File: (.+)", line)`. -/
def matchFileHeader (line : Text) : Option (FileAction × Text) :=
  [FileAction.update, .add, .delete].findSome? (fun action =>
    (expect (opening action) line).bind (fun path =>
      if path = [] ∨ '\n' ∈ path then none else some (action, path)))

/-- `path.replace("\\", "/")`. -/
def slashed (path : Text) : Text := path.map fun char => if char = '\\' then '/' else char

def contentDiff (action : FileAction) (content : List Text) : Except PatchFault Text :=
  if action = .delete ∧ content ≠ [] then
    .error (.value "apply_patch: Delete File has unexpected content")
  else if action = .update ∧ content = [] then
    .error (.value "apply_patch: empty Update File body")
  else if action = .add ∧ content.any (fun line => !startsWith ['+'] line) then
    .error (.value ("apply_patch: Add File lines must begin with +; " ++
      "use unified diff for no-final-newline creation"))
  else
    let content := if action = .add then content.map (List.drop 1) else content
    .ok (joinLines false content ++ (if content = [] then [] else ['\n']))

section Files

variable (letter : Char -> Bool) (casefold : Text -> Text)

/-- The loop over the lines between the first and the last one. -/
def parseOperations (seen : List Text) (ls : List Text) : Except PatchFault (List ApplyPatchOp) :=
  match ls with
  | [] => .ok []
  | line :: rest =>
    match matchFileHeader line with
    | none => .error (.value "apply_patch: unexpected content or unsupported operation")
    | some (action, named) =>
      if casefold (slashed named) ∈ seen then .error (.value "apply_patch: duplicate file path")
      else
        match contentDiff action (rest.takeWhile fun line => !startsWith stars line) with
        | .error fault => .error fault
        | .ok diff =>
          match parseOperations (casefold (slashed named) :: seen)
              (rest.dropWhile fun line => !startsWith stars line) with
          | .error fault => .error fault
          | .ok ops => .ok (⟨action, slashed named, diff, none⟩ :: ops)
termination_by ls.length
decreasing_by
  have shorter := (List.dropWhile_suffix (fun line => !startsWith stars line) (l := rest)).length_le
  simp only [List.length_cons]
  omega

def parseApplyPatchText (text : Text) : Except PatchFault (List ApplyPatchOp) :=
  let body := stripFences letter text
  if startsWith "--- ".toList body || startsWith "diff --git ".toList body then
    match parseUnifiedPatch casefold body with
    | .error error => .error (.patch error)
    | .ok files => .ok (files.map fun file => ⟨file.action, file.path, [], some file.plan⟩)
  else
    match lines body false with
    | .error error => .error (.patch error)
    | .ok ls =>
      if ls.head? ≠ some beginLine ∨ ls.getLast? ≠ some endLine then
        .error (.value "apply_patch: expected *** Begin Patch ... *** End Patch")
      else
        match parseOperations casefold [] ls.tail.dropLast with
        | .error fault => .error fault
        | .ok ops => if ops.isEmpty then .error (.value "apply_patch: empty input") else .ok ops

end Files

end PatchEngine
end FixLoop

namespace FixLoop
namespace PatchEngine

open Library

/-!
# `apply_operations`

Every operation becomes a plan against the text that its path has, and all
plans are applied before a result is returned.  The texts are given by path:
`none` for a path that the caller does not know, and `some none` for a file
that is absent.
-/

abbrev Sources := Text -> Option (Option Text)

/-! ## `normalize_hunk_headers` -/

/-- `line and line[0] in sides`. -/
def opensWith (sides : List Char) (line : Text) : Bool :=
  line.head?.any fun char => sides.contains char

/-- The places from the cursor on where the preimage stands. -/
def matchesFrom (original : List Text) (cursor : Nat) (preimage : List Text) : List Nat :=
  (List.range' cursor (original.length + 1 - preimage.length - cursor)).filter
    (fun start => (original.drop start).take preimage.length = preimage)

/-- `str` of an integer. -/
def intText (number : Int) : Text := (toString number).toList

/-- One round of the loop: the header, and where the old and the new lines of
the hunk begin and how many they are. -/
def resolveHeader (original : List Text) (cursor : Nat) (delta : Int) (header : Text) (body : List Text) :
    Except PatchError (Text × Nat × Nat × Nat) :=
  if (matchHeader header).isSome then
    match coordinates header with
    | .error fault => .error fault
    | .ok position => .ok (header, position.oldStart, position.oldCount, position.newCount)
  else if header ≠ "@@".toList ∧ startsWith "@@ ".toList header = false then
    .error (invalidPatch "unsupported hunk header")
  else
    let preimage := (body.filter (opensWith [' ', '-'])).map (List.drop 1)
    if preimage = [] then .error (invalidPatch "bare @@ requires a nonempty preimage")
    else
      match matchesFrom original cursor preimage with
      | [start] =>
        let n := preimage.length
        let m := body.countP (opensWith [' ', '+'])
        .ok ("@@ -".toList ++ intText (start + if n = 0 then 0 else 1) ++ ',' :: intText n ++ " +".toList ++
          intText (start + delta + if m = 0 then 0 else 1) ++ ',' :: intText m ++ " @@".toList, start, n, m)
      | _ => .error (stalePreimage "bare @@ preimage must match exactly once")

/-- The loop over the hunks. -/
def normalizeHunks (original : List Text) (cursor : Nat) (delta : Int) (ls : List Text) :
    Except PatchError (List Text) :=
  match ls with
  | [] => .ok []
  | header :: rest =>
    let body := rest.takeWhile (fun line => !startsWith ['@', '@'] line)
    match resolveHeader original cursor delta header body with
    | .error fault => .error fault
    | .ok (header, start, n, m) =>
      match normalizeHunks original (start + n) (delta + m - n)
          (rest.dropWhile fun line => !startsWith ['@', '@'] line) with
      | .error fault => .error fault
      | .ok later => .ok (header :: body ++ later)
termination_by ls.length
decreasing_by
  have shorter := (List.dropWhile_suffix (fun line => !startsWith ['@', '@'] line) (l := rest)).length_le
  simp only [List.length_cons]
  omega

def normalizeHunkHeaders (diff fileText : Text) : Except PatchError Text :=
  match lines diff false with
  | .error fault => .error fault
  | .ok ls =>
    if !ls.head?.any (startsWith ['@', '@']) then .error (invalidPatch "update requires @@ hunks")
    else
      match lines fileText false with
      | .error fault => .error fault
      | .ok original =>
        match normalizeHunks original 0 0 ls with
        | .error fault => .error fault
        | .ok result => .ok (joinLines false result ++ ['\n'])

section Files

variable (casefold : Text -> Text)

/-- One round of the loop: the entry of the result. -/
def applyFilePatch (sources : Sources) (output : List (Text × Option Text)) (patch : FilePatch) :
    Except PatchFault (Text × Option Text) :=
  match sources patch.path with
  | none => .error .key
  | some source =>
    if (output.map fun entry => casefold entry.1).any (fun taken => decide (taken = casefold patch.path)) then
      .error (.patch (invalidPatch "duplicate target"))
    else if (patch.action = .add ∧ source ≠ none) ∨ (patch.action ≠ .add ∧ source = none) then
      .error (.patch (stalePreimage ("file existence changed: " ++ String.ofList patch.path)))
    else
      match applyText (source.getD []) patch.plan with
      | .error error => .error (.patch error)
      | .ok result =>
        if patch.action = .delete ∧ result ≠ [] then
          .error (.patch (invalidPatch "delete patch must remove the entire file"))
        else .ok (patch.path, if patch.action = .delete then none else some result)

/-- `apply_file_patches`, from the entries that there are. -/
def applyFilePatches (sources : Sources) :
    List (Text × Option Text) -> List FilePatch -> Except PatchFault (List (Text × Option Text))
  | output, [] => .ok output
  | output, patch :: rest =>
    match applyFilePatch casefold sources output patch with
    | .error fault => .error fault
    | .ok entry => applyFilePatches sources (output ++ [entry]) rest

/-! ## `apply_operations` -/

/-- `f"@@ -{bool(old):d},{old} +{bool(new):d},{new} @@"`. -/
def wholeHeader (old new : Nat) : Text :=
  "@@ -".toList ++ Nat.toDigits 10 (if old = 0 then 0 else 1) ++ ',' :: Nat.toDigits 10 old ++
    " +".toList ++ Nat.toDigits 10 (if new = 0 then 0 else 1) ++ ',' :: Nat.toDigits 10 new ++ " @@".toList

def addPlan (diff : Text) : Except PatchError PatchPlan :=
  match lines diff false with
  | .error error => .error error
  | .ok ls => .ok ⟨.diff, [⟨wholeHeader 0 ls.length, ls.map (fun line => (.added, line)), ∅⟩], [], [], .lf⟩

/-- The plan that removes all lines. -/
def deletePlan (source : Text) : Except PatchError PatchPlan :=
  match lines source false with
  | .error error => .error error
  | .ok ls =>
    let markers : Finset Nat :=
      if source ≠ [] ∧ source.getLast? ≠ some '\n' then {ls.length - 1} else ∅
    .ok ⟨.diff, [⟨wholeHeader ls.length 0, ls.map (fun line => (.removed, line)), markers⟩], [], [], .lf⟩

def updatePlan (diff source : Text) : Except PatchError PatchPlan :=
  match normalizeHunkHeaders diff source with
  | .error error => .error error
  | .ok normalized => parsePatchInput casefold ⟨.str (String.ofList normalized), [], .null, .null⟩

def operationPlan (source : Option Text) (op : ApplyPatchOp) : Except PatchError PatchPlan :=
  match op.plan with
  | some plan => .ok plan
  | none =>
    match op.action, source with
    | .add, _ => addPlan op.diff
    | _, none => .error (stalePreimage ("file missing: " ++ String.ofList op.path))
    | .update, some source => updatePlan casefold op.diff source
    | .delete, some source => deletePlan source

def operationPatch (sources : Sources) (op : ApplyPatchOp) : Except PatchFault FilePatch :=
  match sources op.path with
  | none => .error .key
  | some source =>
    match operationPlan casefold source op with
    | .error error => .error (.patch error)
    | .ok plan => .ok ⟨op.path, op.action, plan⟩

def applyOperations (sources : Sources) (operations : List ApplyPatchOp) :
    Except PatchFault (List (Text × Option Text)) :=
  match operations.mapM (operationPatch casefold sources) with
  | .error fault => .error fault
  | .ok files => applyFilePatches casefold sources [] files

end Files

end PatchEngine
end FixLoop
