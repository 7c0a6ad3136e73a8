import FixLoop.Library.Fallible
import FixLoop.PatchEngine.EnvelopeText

namespace FixLoop
namespace PatchEngine

open Library Edit

/-!
# What an envelope means

The synthesised hunk of an addition is the edit that adds all lines of the
text, and that of a deletion the edit that removes all lines of the source.
So an envelope that is read back means its operations.
-/

theorem exists_isText (text : Text) :
    ∃ ls, IsText ls text ∧ ls.map Line.content = dropLines text := by
  induction text using text_induction with
  | last content single =>
    by_cases empty : content = []
    · subst empty
      exact ⟨[], .nil, rfl⟩
    · refine ⟨[⟨content, true⟩], .last content empty single, ?_⟩
      rw [dropLines_single single, if_neg empty]
      rfl
  | line content rest single ih =>
    rcases ih with ⟨ls, isText, contents⟩
    refine ⟨⟨content, false⟩ :: ls, .cons content single isText, ?_⟩
    rw [List.map_cons, contents, List.append_assoc, List.singleton_append, dropLines_cons single]

/-- The lines of a text, all on one side. -/
def whole (side : Side) (ls : List Line) : List (Side × Line) := ls.map fun line => (side, line)

variable (side : Side) {body : List (Side × Line)} {output result : List (Text × Option Text)}
  {patch : FilePatch} {entry : Text × Option Text}

/-- The last line is marked when it lacks its ending. -/
theorem markersFrom_whole {ls : List Line} {text : Text} (isText : IsText ls text) (start : Nat) :
    markersFrom ∅ start (whole side ls) =
      if text ≠ [] ∧ text.getLast? ≠ some '\n' then {start + ls.length - 1} else ∅ := by
  induction isText generalizing start with
  | nil => rfl
  | last content nonempty single =>
    have open_ : content.getLast? ≠ some '\n' := fun ends => single (List.mem_of_getLast? ends)
    rw [if_pos ⟨nonempty, open_⟩]
    rfl
  | @cons content single rest text later ih =>
    change markersFrom ∅ (start + 1) (whole side rest) = _
    rw [ih, List.length_cons]
    by_cases empty : text = []
    · rw [if_neg (fun shown => shown.1 empty), empty, List.append_nil, if_neg]
      rintro ⟨_, open_⟩
      exact open_ List.getLast?_concat
    · have filled : content ++ ['\n'] ++ text ≠ [] := by simp
      have ends : (content ++ ['\n'] ++ text).getLast? = text.getLast? :=
        List.getLast?_append_of_ne_nil _ empty
      rw [ends]
      by_cases open_ : text.getLast? ≠ some '\n'
      · rw [if_pos ⟨empty, open_⟩, if_pos ⟨filled, open_⟩]
        congr 1
        omega
      · rw [if_neg (fun shown => open_ shown.2), if_neg fun shown => open_ shown.2]

/-! ## Whole files -/

theorem plain_nil : Plain [] := ⟨List.not_mem_nil, List.not_mem_nil⟩

/-- Headers as the synthesised hunks have them. -/
def plainStyle : HeaderStyle := ⟨false, false, [], List.not_mem_nil, plain_nil⟩

def wholeEdit (old new : Nat) (body : List (Side × Line)) : Edit Line := ⟨0, old, 0, new, body⟩

theorem render_shownRange (start count : Nat) : (shownRange false start count).render =
    Nat.toDigits 10 (if count = 0 then start else start + 1) ++ ',' :: Nat.toDigits 10 count := by
  unfold shownRange HeaderRange.render
  simp only [Bool.false_eq_true, false_and, if_false]

theorem wholeHeader_shown (old new : Nat) (body : List (Side × Line)) :
    wholeHeader old new = (shownHeader plainStyle (wholeEdit old new body)).render := by
  have minus : "@@ -".toList = ['@', '@', ' ', '-'] := rfl
  have plus : " +".toList = [' ', '+'] := rfl
  have ends : " @@".toList = [' ', '@', '@'] := rfl
  unfold wholeHeader HeaderMatch.render shownHeader plainStyle wholeEdit
  dsimp only
  rw [render_shownRange, render_shownRange, List.append_nil, Nat.zero_add, minus, plus, ends]
  simp only [List.append_assoc]

theorem realises_whole {before after : List Line} (olds : oldLines body = before)
    (news : newLines body = after) :
    Realises 0 0 [wholeEdit before.length after.length body] before after := by
  have step : Realises 0 0 [wholeEdit before.length after.length body]
      ([] ++ (oldLines body ++ [])) ([] ++ (newLines body ++ [])) :=
    .edit [] rfl rfl (congrArg List.length olds.symm) (congrArg List.length news.symm) (.done _ _ [])
  rw [List.nil_append, List.append_nil, List.nil_append, List.append_nil, olds, news] at step
  exact step

theorem applyText_whole {source result : Text} {before after : List Line} (binary : '\x00' ∉ source)
    (mixed : mixedNewlines source = false) (old : IsText before (replaceCrlf ['\n'] source))
    (new : IsText after result) (kind : replaceLf ((endings source).getD .lf) result = result)
    (olds : oldLines body = before) (news : newLines body = after) :
    applyText source
      ⟨.diff, [shownHunk plainStyle (wholeEdit before.length after.length body)], [], [], .lf⟩ = .ok result := by
  have steps := (realises_whole olds news).map Line.text
  rw [<- old.keepLines] at steps
  refine (applyText_diff_iff rfl).mpr ⟨binary, mixed, _, _,
    .cons (describes_shownHunk plainStyle _) .nil, steps, new.lineList.terminated, ?_⟩
  rw [new.flatten, kind]

theorem oldLines_whole (ls : List Line) : oldLines (whole side ls) = if side.inOld then ls else [] := by
  induction ls with
  | nil => simp [whole, oldLines]
  | cons line rest ih =>
    unfold whole oldLines at ih ⊢
    cases shown : side.inOld <;> simp_all

theorem newLines_whole (ls : List Line) : newLines (whole side ls) = if side.inNew then ls else [] := by
  induction ls with
  | nil => simp [whole, newLines]
  | cons line rest ih =>
    unfold whole newLines at ih ⊢
    cases shown : side.inNew <;> simp_all

theorem applyText_addPlan {text : Text} (plain : Plain text) (ends : text = [] ∨ text.getLast? = some '\n') :
    ∃ plan, addPlan text = .ok plan ∧ applyText [] plan = .ok text := by
  rcases exists_isText text with ⟨ls, isText, contents⟩
  have markers : markersFrom ∅ 0 (whole .added ls) = ∅ := by
    rw [markersFrom_whole .added isText, if_neg]
    rintro ⟨filled, open_⟩
    exact ends.elim filled open_
  have hunk : (⟨wholeHeader 0 (dropLines text).length, (dropLines text).map (fun line => (.added, line)), ∅⟩ :
      PatchHunk) = shownHunk plainStyle (wholeEdit ([] : List Line).length ls.length (whole .added ls)) := by
    rw [shownHunk, <- wholeHeader_shown, <- contents, List.length_map, List.map_map]
    change _ = PatchHunk.mk _ ((whole .added ls).map _) (markersFrom ∅ 0 (whole .added ls))
    rw [markers, whole, List.map_map]
    rfl
  have read : lines text false = .ok (dropLines text) := lines_plain plain false
  refine ⟨_, by rw [addPlan, read], ?_⟩
  rw [hunk]
  exact applyText_whole List.not_mem_nil rfl .nil isText (replaceLf_lf text)
    (oldLines_whole .added ls) (newLines_whole .added ls)

theorem getLast?_replaceLf (newline : Newline) (text : Text) :
    (replaceLf newline text).getLast? = text.getLast? := by
  rcases List.eq_nil_or_concat text with empty | ⟨init, last, same⟩
  · rw [empty]
    rfl
  · rw [same, List.concat_eq_append, replaceLf, List.flatMap_append, List.flatMap_singleton,
      List.getLast?_concat]
    by_cases ending : last = '\n'
    · rw [if_pos ending, ending]
      cases newline with
      | lf => exact List.getLast?_concat
      | crlf => rw [Newline.text, List.getLast?_append_cons]; rfl
    · rw [if_neg ending, List.getLast?_concat]

theorem applyText_deletePlan {source : Text} (binary : '\x00' ∉ source) (mixed : mixedNewlines source = false) :
    ∃ plan, deletePlan source = .ok plan ∧ applyText source plan = .ok [] := by
  rcases exists_isText (replaceCrlf ['\n'] source) with ⟨ls, isText, contents⟩
  have same := replaceLf_normalized mixed .lf
  have last : source.getLast? = (replaceCrlf ['\n'] source).getLast? := by
    conv => lhs; rw [<- same]
    exact getLast?_replaceLf _ _
  have empty : source = [] <-> replaceCrlf ['\n'] source = [] := by
    rw [<- List.getLast?_eq_none_iff, last, List.getLast?_eq_none_iff]
  have markers : (if source ≠ [] ∧ source.getLast? ≠ some '\n' then {ls.length - 1} else ∅ : Finset Nat) =
      markersFrom ∅ 0 (whole .removed ls) := by
    rw [markersFrom_whole .removed isText, Nat.zero_add]
    simp only [ne_eq, empty, last]
  have hunk : (⟨wholeHeader ls.length 0, (ls.map Line.content).map (fun line => (.removed, line)),
      if source ≠ [] ∧ source.getLast? ≠ some '\n' then {ls.length - 1} else ∅⟩ : PatchHunk) =
      shownHunk plainStyle (wholeEdit ls.length ([] : List Line).length (whole .removed ls)) := by
    rw [shownHunk, <- wholeHeader_shown, markers, List.map_map]
    change _ = PatchHunk.mk _ ((whole .removed ls).map _) (markersFrom ∅ 0 (whole .removed ls))
    rw [whole, List.map_map]
    rfl
  have read : lines source false = .ok (ls.map Line.content) := by
    rw [lines, if_neg binary, mixed, contents]
    rfl
  refine ⟨_, by rw [deletePlan, read], ?_⟩
  rw [List.length_map, hunk]
  exact applyText_whole binary mixed isText .nil rfl (oldLines_whole .removed ls) (newLines_whole .removed ls)

/-! ## Several operations -/

variable {casefold : Text -> Text} {sources : Sources}

theorem applyFilePatch_path (applied : applyFilePatch casefold sources output patch = .ok entry) :
    entry.1 = patch.path := by
  unfold applyFilePatch at applied
  split at applied
  · cases applied
  · split at applied
    · cases applied
    · split at applied
      · cases applied
      · split at applied
        · cases applied
        · split at applied
          · cases applied
          · cases applied
            rfl

/-- The entries so far matter only for the check of duplicates. -/
theorem applyFilePatch_fresh (fresh : casefold patch.path ∉ output.map fun entry => casefold entry.1) :
    applyFilePatch casefold sources output patch = applyFilePatch casefold sources [] patch := by
  have free : (output.map fun entry => casefold entry.1).any
      (fun taken => decide (taken = casefold patch.path)) = false := by
    refine List.any_eq_false.mpr fun taken member => ?_
    rw [decide_eq_true_eq]
    exact fun same => fresh (same ▸ member)
  unfold applyFilePatch
  cases sources patch.path with
  | none => rfl
  | some source =>
    dsimp only
    rw [free]
    rfl

theorem applyFilePatches_ok_iff {files : List FilePatch}
    (distinct : (files.map fun file => casefold file.path).Nodup)
    (fresh : ∀ file ∈ files, casefold file.path ∉ output.map fun entry => casefold entry.1) :
    applyFilePatches casefold sources output files = .ok result <->
      ∃ entries, result = output ++ entries ∧
        List.Forall₂ (fun file entry => applyFilePatch casefold sources [] file = .ok entry) files entries := by
  induction files generalizing output with
  | nil =>
    constructor
    · intro applied
      cases applied
      exact ⟨[], (List.append_nil _).symm, .nil⟩
    · rintro ⟨entries, same, none⟩
      cases none
      rw [same, List.append_nil]
      rfl
  | cons file rest ih =>
    rw [List.map_cons, List.nodup_cons] at distinct
    rw [applyFilePatches, applyFilePatch_fresh (fresh file List.mem_cons_self)]
    cases applied : applyFilePatch casefold sources [] file with
    | error fault =>
      constructor
      · intro impossible
        cases impossible
      · rintro ⟨entries, _, all⟩
        cases all with
        | cons here _ => cases applied.symm.trans here
    | ok entry =>
      have path := applyFilePatch_path applied
      have later : ∀ other ∈ rest,
          casefold other.path ∉ (output ++ [entry]).map (fun entry => casefold entry.1) := by
        intro other member listed
        rw [List.map_append, List.mem_append, List.map_singleton, List.mem_singleton, path] at listed
        rcases listed with earlier | same
        · exact fresh other (List.mem_cons_of_mem _ member) earlier
        · exact distinct.1 (same ▸ List.mem_map_of_mem member)
      refine (ih distinct.2 later).trans ⟨?_, ?_⟩
      · rintro ⟨entries, same, all⟩
        exact ⟨entry :: entries, by rw [same, List.append_assoc, List.singleton_append], .cons applied all⟩
      · rintro ⟨entries, same, all⟩
        cases all with
        | cons here all =>
          cases applied.symm.trans here
          exact ⟨_, by rw [same, List.append_assoc, List.singleton_append], all⟩

/-- What an operation does to the text of its path. -/
inductive Means (casefold : Text -> Text) (sources : Sources) : Operation -> Text × Option Text -> Prop
  | add (path text : Text) : sources (slashed path) = some none ->
      Means casefold sources (.add path text) (slashed path, some text)
  | update (path hunks source result : Text) (plan : PatchPlan) : sources (slashed path) = some (some source) ->
      updatePlan casefold (closed hunks) source = .ok plan -> applyText source plan = .ok result ->
      Means casefold sources (.update path hunks) (slashed path, some result)
  | delete (path source : Text) : sources (slashed path) = some (some source) -> '\x00' ∉ source ->
      mixedNewlines source = false -> Means casefold sources (.delete path) (slashed path, none)

theorem operationPatch_path {op : ApplyPatchOp} {file : FilePatch}
    (read : operationPatch casefold sources op = .ok file) : file.path = op.path := by
  unfold operationPatch at read
  split at read
  · cases read
  · split at read
    · cases read
    · cases read
      rfl

/-- The plan of an operation on the text of its path, applied. -/
theorem applyFilePatch_known {path : Text} {action : FileAction} {plan : PatchPlan} {source : Option Text}
    (known : sources path = some source) (exists_ : action = .add <-> source = none) {result : Text}
    (applied : applyText (source.getD []) plan = .ok result) (empty : action = .delete -> result = []) :
    applyFilePatch casefold sources [] ⟨path, action, plan⟩ =
      .ok (path, if action = .delete then none else some result) := by
  have present : ¬ ((action = .add ∧ source ≠ none) ∨ (action ≠ .add ∧ source = none)) := by
    rintro (⟨add, filled⟩ | ⟨other, absent⟩)
    · exact filled (exists_.mp add)
    · exact other (exists_.mpr absent)
  have removed : ¬ (action = .delete ∧ result ≠ []) := fun left => left.2 (empty left.1)
  unfold applyFilePatch
  simp only [known, List.map_nil, List.any_nil, Bool.false_eq_true, if_false, if_neg present, applied,
    if_neg removed]

theorem applyFilePatch_ok {path : Text} {action : FileAction} {plan : PatchPlan} {source : Option Text}
    (known : sources path = some source)
    (applied : applyFilePatch casefold sources [] ⟨path, action, plan⟩ = .ok entry) :
    (action = .add <-> source = none) ∧ ∃ result, applyText (source.getD []) plan = .ok result ∧
      entry = (path, if action = .delete then none else some result) := by
  unfold applyFilePatch at applied
  simp only [known, List.map_nil, List.any_nil, Bool.false_eq_true, if_false] at applied
  split at applied
  · cases applied
  · next present =>
      have exists_ : action = .add <-> source = none := by
        by_contra differ
        rw [not_iff] at differ
        by_cases absent : source = none
        · exact present (Or.inr ⟨differ.mpr absent, absent⟩)
        · exact present (Or.inl ⟨not_not.mp (fun other => absent (differ.mp other)), absent⟩)
      split at applied
      · cases applied
      · next result known =>
          split at applied
          · cases applied
          · cases applied
            exact ⟨exists_, result, known, rfl⟩

theorem operationPatch_planned {op : ApplyPatchOp} {source : Option Text} {plan : PatchPlan}
    (known : sources op.path = some source) (planned : operationPlan casefold source op = .ok plan) :
    operationPatch casefold sources op = .ok ⟨op.path, op.action, plan⟩ := by
  simp only [operationPatch, known, planned]

theorem operation_means {fenced : Bool} {operation : Operation} (writable : Writable fenced operation)
    (entry : Text × Option Text) :
    (∃ file, operationPatch casefold sources operation.parsed = .ok file ∧
      applyFilePatch casefold sources [] file = .ok entry) <-> Means casefold sources operation entry := by
  constructor
  · rintro ⟨file, read, applied⟩
    unfold operationPatch at read
    split at read
    · cases read
    next source known =>
      split at read
      · cases read
      next plan planned =>
        cases read
        rcases applyFilePatch_ok known applied with ⟨exists_, result, taken, rfl⟩
        cases writable with
        | add path text _ _ plain ends =>
          rcases applyText_addPlan plain ends with ⟨own, read, yields⟩
          have same : own = plan := Except.ok.inj (read.symm.trans planned)
          have absent : source = none := exists_.mp rfl
          subst absent
          rw [<- same] at taken
          have text : result = text := Except.ok.inj (taken.symm.trans yields)
          rw [text]
          exact .add path _ known
        | update path hunks _ _ _ _ _ =>
          cases source with
          | none => cases exists_.mpr rfl
          | some source => exact .update path hunks source result plan known planned taken
        | delete path _ _ =>
          cases source with
          | none => cases exists_.mpr rfl
          | some source =>
            have read : ∃ ls, lines source false = .ok ls := by
              cases read : lines source false with
              | error fault =>
                change deletePlan source = _ at planned
                rw [deletePlan, read] at planned
                cases planned
              | ok ls => exact ⟨ls, rfl⟩
            rcases read with ⟨ls, read⟩
            unfold lines at read
            split at read
            · cases read
            next binary =>
              split at read
              · cases read
              next mixed => exact .delete path source known binary (eq_false_of_ne_true mixed)
  · intro means
    cases means with
    | add path text known =>
      cases writable with
      | add _ _ _ _ plain ends =>
        rcases applyText_addPlan plain ends with ⟨plan, read, yields⟩
        exact ⟨⟨slashed path, .add, plan⟩, operationPatch_planned known read,
          applyFilePatch_known known ⟨fun _ => rfl, fun _ => rfl⟩ yields
          (fun impossible => by cases impossible)⟩
    | update path hunks source result plan known planned applied =>
      exact ⟨⟨slashed path, .update, plan⟩, operationPatch_planned known planned,
        applyFilePatch_known known
          ⟨(fun impossible => by cases impossible), (fun impossible => by cases impossible)⟩ applied
          (fun impossible => by cases impossible)⟩
    | delete path source known binary mixed =>
      rcases applyText_deletePlan binary mixed with ⟨plan, read, yields⟩
      exact ⟨⟨slashed path, .delete, plan⟩, operationPatch_planned known read,
        applyFilePatch_known known
          ⟨(fun impossible => by cases impossible), (fun impossible => by cases impossible)⟩ yields
          (fun _ => rfl)⟩

/-- The operations are applied together exactly when each of them means
something, and then the result is what they mean, in their order. -/
theorem applyOperations_ok_iff {fenced : Bool} {operations : List Operation}
    (writable : ∀ operation ∈ operations, Writable fenced operation)
    (distinct : (operations.map (foldedPath casefold)).Nodup) :
    applyOperations casefold sources (operations.map Operation.parsed) = .ok result <->
      List.Forall₂ (Means casefold sources) operations result := by
  have means (operation : Operation) (member : operation ∈ operations) (entry : Text × Option Text) :=
    @operation_means casefold sources fenced operation (writable operation member) entry
  have paths {files : List FilePatch} (read : List.Forall₂
      (fun operation file => operationPatch casefold sources (Operation.parsed operation) = .ok file)
      operations files) : files.map (fun file => casefold file.path) = operations.map (foldedPath casefold) := by
    clear means writable distinct
    induction read with
    | nil => rfl
    | cons here _ ih => rw [List.map_cons, List.map_cons, ih, operationPatch_path here]; rfl
  unfold applyOperations
  constructor
  · intro applied
    split at applied
    · cases applied
    next files read =>
      have each := List.forall₂_map_left_iff.mp (Fallible.mapM_ok_iff.mp read)
      rcases (applyFilePatches_ok_iff (paths each ▸ distinct) fun _ _ => List.not_mem_nil).mp applied
        with ⟨entries, same, all⟩
      rw [List.nil_append] at same
      subst same
      exact Fallible.forall₂_through (fun operation member file entry read applied =>
        (means operation member entry).mp ⟨file, read, applied⟩) each all
  · intro all
    have splits (operation : Operation) (member : operation ∈ operations) (entry : Text × Option Text)
        (meant : Means casefold sources operation entry) : ∃ file,
        operationPatch casefold sources operation.parsed = .ok file ∧
          applyFilePatch casefold sources [] file = .ok entry :=
      (means operation member entry).mpr meant
    have between : ∃ files,
        List.Forall₂ (fun operation file => operationPatch casefold sources (Operation.parsed operation) = .ok file)
          operations files ∧
        List.Forall₂ (fun file entry => applyFilePatch casefold sources [] file = .ok entry) files result :=
      Fallible.forall₂_between splits all
    rcases between with ⟨files, each, later⟩
    have read : (operations.map Operation.parsed).mapM (operationPatch casefold sources) = .ok files :=
      Fallible.mapM_ok_iff.mpr (List.forall₂_map_left_iff.mpr each)
    rw [read]
    exact (applyFilePatches_ok_iff (paths each ▸ distinct) fun _ _ => List.not_mem_nil).mpr
      ⟨result, (List.nil_append _).symm, later⟩

/-- A written envelope is read back as its operations, and these are applied
together exactly when each of them means something on its own. -/
theorem envelope_means_operations (letter : Char -> Bool) (casefold : Text -> Text)
    (wrapping : Wrapping letter) (operations : List Operation) (nonempty : operations ≠ [])
    (writable : ∀ operation ∈ operations, Writable wrapping.isFenced operation)
    (distinct : (operations.map (foldedPath casefold)).Nodup) :
    parseApplyPatchText letter casefold (written letter wrapping operations) =
        .ok (operations.map Operation.parsed) ∧
      ∀ sources result,
        applyOperations casefold sources (operations.map Operation.parsed) = .ok result <->
          List.Forall₂ (Means casefold sources) operations result :=
  ⟨parseApplyPatchText_written writable casefold wrapping (fun fenced => fenced) distinct nonempty,
    fun _ _ => applyOperations_ok_iff writable distinct⟩

/-- A fenced envelope that adds one file and deletes another. -/
theorem envelope_means_operations_fenced :
    applyOperations id (fun path => if path = ['a'] then some none else some (some ['o', 'l', 'd']))
      ([.add ['a'] ['n', '\n'], .delete ['b']].map Operation.parsed) =
        .ok [(['a'], some ['n', '\n']), (['b'], none)] := by
  have single (char : Char) (ordinary : char ∉ ['\n', '\r', '\x00']) : SingleLine [char] := by
    simp only [List.mem_cons, List.not_mem_nil, or_false, not_or] at ordinary
    exact ⟨by simpa using Ne.symm ordinary.1, by simpa using Ne.symm ordinary.2.1,
      by simpa using Ne.symm ordinary.2.2⟩
  refine ((envelope_means_operations (fun _ => false) id (.fenced ['d', 'i', 'f', 'f'] (by simp [isWord]) true)
    [.add ['a'] ['n', '\n'], .delete ['b']] (List.cons_ne_nil _ _) ?_
    (by simp [foldedPath, Operation.path, slashed])).2 _ _).mpr ?_
  · intro operation member
    rcases List.mem_cons.mp member with rfl | member
    · exact .add _ _ (List.cons_ne_nil _ _) (single 'a' (by decide)) ⟨by decide, by decide⟩ (Or.inr rfl)
    · rw [List.mem_singleton.mp member]
      exact .delete _ (List.cons_ne_nil _ _) (single 'b' (by decide))
  · exact .cons (.add _ _ rfl) (.cons (.delete _ ['o', 'l', 'd'] rfl (by decide) (by decide)) .nil)

/-- What does not come back as it was written: no operation at all, a text
with a null character, a path with a backslash, hunks without a final newline,
hunks with a line that looks like a header, and a fence inside a fence. -/
theorem envelope_not_exact :
    let parse := fun operations => parseApplyPatchText (fun _ => false) id
      (written (fun _ => false) (.bare true) operations)
    let fenced := fun operations => parseApplyPatchText (fun _ => false) id
      (written (fun _ => false) (.fenced [] (fun _ member => absurd member List.not_mem_nil) false) operations)
    (parse []).toBool = false ∧
      (parse [.add ['a'] ['\x00', '\n']]).toBool = false ∧
      (parse [.add ['a', '\\', 'b'] []]).toOption.map (List.map ApplyPatchOp.path) = some [['a', '/', 'b']] ∧
      (parse [.update ['a'] ['@', '@']]).toOption.map (List.map ApplyPatchOp.diff) = some [['@', '@', '\n']] ∧
      (parse [.update ['a'] ("@@\n*** Add File: b\n".toList)]).toOption.map List.length = some 2 ∧
      (fenced [.update ['a'] ("@@\n```\n".toList)]).toBool = false := by
  refine ⟨?_, ?_, ?_, ?_, ?_, ?_⟩ <;> decide +kernel


end PatchEngine
end FixLoop
