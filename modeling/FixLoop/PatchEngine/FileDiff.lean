import FixLoop.PatchEngine.Render

namespace FixLoop
namespace PatchEngine

open Library Edit

/-!
# File diffs and what the applier makes of them

A diff may open with file headers in front of its hunks.  Both forms of a
correct description are read back as a plan that yields the described text.
Every plan that the parsers hand out consists of single lines, and applying it
leaves the lines outside its hunks as they were.
-/

/-- A line that announces a file without saying anything the parser keeps. -/
def Announces (line : Text) : Prop :=
  (startsWith "diff --git ".toList line || startsWith "index ".toList line) = true

structure SafePath (path : Text) : Prop where
  nonempty : path ≠ []
  quote : path.head? ≠ some '"'
  absolute : path.head? ≠ some '/'
  backslash : '\\' ∉ path
  colon : ':' ∉ path
  tab : '\t' ∉ path
  single : '\n' ∉ path
  plain : Plain path
  parts : ∀ part ∈ path.splitOn '/', part ∉ [[], ['.'], ['.', '.']]

/-- What stands in front of the hunks of one changed file.  A stamp may follow
the path on either header line. -/
structure FileHeader where
  announcement : List Text
  path : Text
  oldStamp : Option Text
  newStamp : Option Text
  announces : ∀ line ∈ announcement, Announces line ∧ Clean line
  safe : SafePath path
  oldSingle : ∀ stamp, oldStamp = some stamp -> '\n' ∉ stamp ∧ Plain stamp
  newSingle : ∀ stamp, newStamp = some stamp -> '\n' ∉ stamp ∧ Plain stamp

def stampText (stamp : Option Text) : Text :=
  match stamp with
  | none => []
  | some text => '\t' :: text

def FileHeader.oldLine (header : FileHeader) : Text :=
  ['-', '-', '-', ' ', 'a', '/'] ++ header.path ++ stampText header.oldStamp

def FileHeader.newLine (header : FileHeader) : Text :=
  ['+', '+', '+', ' ', 'b', '/'] ++ header.path ++ stampText header.newStamp

def FileHeader.render (header : FileHeader) : List Text :=
  header.announcement ++ [header.oldLine, header.newLine]

/-- The tool targets that agree with the header. -/
def FileHeader.Targets (header : FileHeader) (path : Text) : Prop :=
  path = [] ∨ path.map (fun char => if char = '\\' then '/' else char) = header.path

/-! ## Reading the headers -/

theorem takeWhile_stamp {named : Text} (tab : '\t' ∉ named) (stamp : Option Text) :
    (named ++ stampText stamp).takeWhile (fun char => char != '\t') = named := by
  have before : ∀ char ∈ named, (char != '\t') = true := by
    intro char member
    rw [bne_iff_ne]
    exact fun same => tab (same ▸ member)
  rw [List.takeWhile_append_of_pos before]
  cases stamp with
  | none => exact List.append_nil named
  | some text =>
    rw [stampText, List.takeWhile_cons_of_neg (by decide), List.append_nil]

variable {path line text : Text} (header : FileHeader) {ls : List Text} {casefold : Text -> Text}
  {plan : PatchPlan}

theorem filePath_safe (safe : SafePath path) (dashes : Text) (letter : Char) (length : dashes.length = 4)
    (ordinary : letter ≠ '\t') (stamp : Option Text) :
    filePath (dashes ++ [letter, '/'] ++ path ++ stampText stamp) [letter, '/'] = .ok (some path) := by
  have named : ((dashes ++ [letter, '/'] ++ path ++ stampText stamp).drop 4).takeWhile
      (fun char => char != '\t') = [letter, '/'] ++ path := by
    rw [List.append_assoc, List.append_assoc, ← length, List.drop_left, ← List.append_assoc]
    refine takeWhile_stamp ?_ stamp
    simp only [List.cons_append, List.nil_append, List.mem_cons, not_or]
    exact ⟨Ne.symm ordinary, by decide, safe.tab⟩
  have present : [letter, '/'] ++ path ≠ "/dev/null".toList := by
    intro same
    have second := congrArg (fun text : Text => text[1]?) same
    cases second
  have opens : startsWith [letter, '/'] ([letter, '/'] ++ path) = true :=
    List.isPrefixOf_iff_prefix.mpr (List.prefix_append _ _)
  have parts : (path.splitOn '/').any (fun part => part ∈ [[], ['.'], ['.', '.']]) = false := by
    rw [List.any_eq_false]
    intro part member
    rw [decide_eq_true_eq]
    exact safe.parts part member
  have usable : ¬ (path = [] ∨ path.head? = some '"' ∨ path.head? = some '/' ∨ '\\' ∈ path) := by
    rintro (empty | quoted | rooted | escaped)
    · exact safe.nonempty empty
    · exact safe.quote quoted
    · exact safe.absolute rooted
    · exact safe.backslash escaped
  unfold filePath
  simp only [named, if_neg present, opens, if_true, List.drop_left, if_neg usable, parts,
    Bool.false_eq_true, safe.colon, or_self, if_false]

theorem preamble_announced {announcement rest : List Text} {line : Text}
    (announces : ∀ line ∈ announcement, Announces line ∧ Clean line)
    (opens : startsWith ['-'] line = true) :
    preamble none (announcement ++ line :: rest) = .ok (none, line :: rest) := by
  induction announcement with
  | nil =>
    cases line with
    | nil => cases opens
    | cons char text =>
      have dash : char = '-' := by
        rw [startsWith, List.isPrefixOf_cons_cons, List.isPrefixOf_nil_left, Bool.and_true,
          beq_iff_eq] at opens
        exact opens.symm
      rw [List.nil_append, preamble, dash]
      rfl
  | cons first others ih =>
    have here : (startsWith "diff --git ".toList first || startsWith "index ".toList first) = true :=
      (announces first List.mem_cons_self).1
    rw [List.cons_append, preamble, if_pos here]
    exact ih fun line member => announces line (List.mem_cons_of_mem first member)

theorem parseFileHeader_render (rest : List Text) :
    parseFileHeader (header.render ++ rest) = .ok (header.path, .update, rest) := by
  have old : filePath header.oldLine "a/".toList = .ok (some header.path) :=
    filePath_safe header.safe ['-', '-', '-', ' '] 'a' rfl (by decide) header.oldStamp
  have new : filePath header.newLine "b/".toList = .ok (some header.path) :=
    filePath_safe header.safe ['+', '+', '+', ' '] 'b' rfl (by decide) header.newStamp
  have opened : startsWith "--- ".toList header.oldLine = true := rfl
  have closed : startsWith "+++ ".toList header.newLine = true := rfl
  have split := @preamble_announced header.announcement (header.newLine :: rest) header.oldLine
    header.announces rfl
  rw [FileHeader.render, List.append_assoc]
  change preamble none (header.announcement ++ ([header.oldLine, header.newLine] ++ rest)) = _ at split
  unfold parseFileHeader
  simp only [split, opened, closed, old, new, bind, Except.bind, fileTarget]
  simp

theorem head?_joinLines (final : Bool) (nonempty : line ≠ []) (rest : List Text) :
    (joinLines final (line :: rest)).head? = line.head? := by
  cases line with
  | nil => exact absurd rfl nonempty
  | cons char text => cases rest <;> rfl

theorem joinLines_ne_nil {final : Bool} (clean : ∀ line ∈ ls, Clean line) (nonempty : ls ≠ []) :
    joinLines final ls ≠ [] := by
  intro empty
  have read := @lines_joinLines final ls clean
  rw [empty] at read
  have none : [] = ls := Except.ok.inj read
  exact nonempty none.symm

theorem head?_of_startsWith {char : Char} {opening : Text}
    (opens : startsWith (char :: opening) text = true) : text.head? = some char := by
  rcases List.isPrefixOf_iff_prefix.mp opens with ⟨tail, rfl⟩
  rfl

theorem headed_not_bare (final : Bool) (rest : List Text) :
    startsWith ['@', '@'] (joinLines final (header.render ++ rest)) = false := by
  rw [Bool.eq_false_iff]
  intro bare
  have sign := head?_of_startsWith bare
  rw [FileHeader.render] at sign
  cases front : header.announcement with
  | nil =>
    have named : header.oldLine ≠ [] := List.cons_ne_nil _ _
    rw [front, List.nil_append, List.cons_append, head?_joinLines final named] at sign
    cases sign
  | cons first others =>
    rcases header.announces first (front ▸ List.mem_cons_self) with ⟨announced, clean⟩
    rw [front, List.cons_append, List.cons_append, head?_joinLines final clean.1] at sign
    rcases Bool.or_eq_true_iff.mp announced with git | index
    · cases sign.symm.trans (head?_of_startsWith git)
    · cases sign.symm.trans (head?_of_startsWith index)

variable {rest : List Text} {hunks : List PatchHunk} {files : List FilePatch} {diff : Text}

theorem parseFiles_single (headed : parseFileHeader ls = .ok (path, .update, rest))
    (read : parseHunks rest = .ok (hunks, [])) (nonempty : hunks ≠ []) (newline : Newline) :
    parseFiles casefold newline [] ls = .ok [⟨path, .update, ⟨.diff, hunks, [], [], newline⟩⟩] := by
  cases ls with
  | nil => cases headed
  | cons first others =>
    rw [parseFiles]
    split
    · rename_i fault failed
      cases failed.symm.trans headed
    · rename_i found action after again
      cases again.symm.trans headed
      rw [if_neg List.not_mem_nil]
      split
      · rename_i fault failed
        cases failed.symm.trans read
      · rename_i listed left same
        cases same.symm.trans read
        rw [if_neg (fun empty => nonempty empty.1), parseFiles]

theorem clean_stamped {opening : Text} {stamp : Option Text} (safe : SafePath path)
    (nonempty : opening ≠ []) (ordinary : ∀ char ∈ opening, char ∉ ['\n', '\r', '\x00'])
    (single : ∀ text, stamp = some text -> '\n' ∉ text ∧ Plain text) :
    Clean (opening ++ path ++ stampText stamp) := by
  have stamped : '\n' ∉ stampText stamp ∧ Plain (stampText stamp) := by
    cases stamp with
    | none => exact ⟨List.not_mem_nil, List.not_mem_nil, List.not_mem_nil⟩
    | some text =>
      rcases single text rfl with ⟨noNewline, plain⟩
      exact (clean_cons (by decide) noNewline plain).2
  have absent : ∀ char ∈ ['\n', '\r', '\x00'], char ∉ opening :=
    fun char special member => ordinary char member special
  refine ⟨by simp [nonempty], ?_, ⟨?_, ?_⟩⟩
  · simp only [List.mem_append, absent '\n' (by decide), safe.single, stamped.1, or_self,
      not_false_eq_true]
  · simp only [List.mem_append, absent '\r' (by decide), safe.plain.noReturn, stamped.2.noReturn,
      or_self, not_false_eq_true]
  · simp only [List.mem_append, absent '\x00' (by decide), safe.plain.noNull, stamped.2.noNull,
      or_self, not_false_eq_true]

theorem FileHeader.clean (member : line ∈ header.render) : Clean line := by
  rcases List.mem_append.mp member with announced | member
  · exact (header.announces line announced).2
  rcases List.mem_cons.mp member with rfl | member
  · exact clean_stamped header.safe (List.cons_ne_nil _ _) (by simp) header.oldSingle
  · rw [List.mem_singleton.mp member]
    exact clean_stamped header.safe (List.cons_ne_nil _ _) (by simp) header.newSingle

theorem FileHeader.render_ne_nil (rest : List Text) : header.render ++ rest ≠ [] := by
  intro empty
  exact List.cons_ne_nil _ _ (List.append_eq_nil_iff.mp (List.append_eq_nil_iff.mp empty).1).2

section Described

variable {text patched : Text} {written : List (HeaderStyle × Edit Line)}

theorem Description.clean_headed (description : Description text patched written)
    (header : FileHeader) :
    ∀ line ∈ header.render ++ renderHunks written, Clean line := by
  intro line member
  rcases List.mem_append.mp member with inside | inside
  · exact header.clean inside
  · exact description.clean line inside

theorem Description.parseUnifiedPatch (description : Description text patched written)
    (casefold : Text -> Text) (final : Bool) (nonempty : written ≠ []) (header : FileHeader) :
    parseUnifiedPatch casefold (joinLines final (header.render ++ renderHunks written)) =
      .ok [⟨header.path, .update, shownPlan written⟩] := by
  have clean := description.clean_headed header
  have plain := @plain_joinLines final _ clean
  have hunks : written.map (fun entry => shownHunk entry.1 entry.2) ≠ [] :=
    fun empty => nonempty (List.map_eq_nil_iff.mp empty)
  rw [PatchEngine.parseUnifiedPatch, if_neg (joinLines_ne_nil clean (header.render_ne_nil _)),
    lines_joinLines clean]
  dsimp only
  rw [diffNewline, hasCrlf_eq_false plain.noReturn, if_neg Bool.false_ne_true]
  exact parseFiles_single (parseFileHeader_render header (renderHunks written))
    (parseHunks_renderHunks description.counted) hunks .lf

/-- Headed hunks are parsed as the patch of any target that agrees with the
header. -/
theorem Description.parseDiff_headed (description : Description text patched written)
    (casefold : Text -> Text) (final : Bool) (nonempty : written ≠ []) (header : FileHeader)
    {path : Text} (targets : header.Targets path) :
    PatchEngine.parseDiff casefold (joinLines final (header.render ++ renderHunks written)) path =
      .ok (shownPlan written) := by
  have agrees : ¬ (path ≠ [] ∧
      path.map (fun char => if char = '\\' then '/' else char) ≠ header.path) := by
    rintro ⟨filled, differs⟩
    rcases targets with empty | same
    · exact filled empty
    · exact differs same
  rw [PatchEngine.parseDiff, headed_not_bare, if_neg Bool.false_ne_true,
    description.parseUnifiedPatch casefold final nonempty header]
  simp only [ne_eq, not_true_eq_false, if_false]
  exact if_neg agrees

end Described

/-! ## Parsed plans -/

def SingleLine (line : Text) : Prop := '\n' ∉ line ∧ Plain line

theorem SingleLine.tail {char : Char} {text : Text} (single : SingleLine (char :: text)) :
    SingleLine text :=
  ⟨fun member => single.1 (List.mem_cons_of_mem char member),
    fun member => single.2.noReturn (List.mem_cons_of_mem char member),
    fun member => single.2.noNull (List.mem_cons_of_mem char member)⟩

theorem mem_replaceCrlf {by_ : Text} {char : Char} (member : char ∈ replaceCrlf by_ text) :
    char ∈ by_ ∨ char ∈ text := by
  fun_induction replaceCrlf by_ text with
  | case1 first second rest ending ih =>
    rcases List.mem_append.mp member with inserted | member
    · exact Or.inl inserted
    · rcases ih member with inserted | inside
      · exact Or.inl inserted
      · exact Or.inr (List.mem_cons_of_mem first (List.mem_cons_of_mem second inside))
  | case2 first second rest other ih =>
    rcases List.mem_cons.mp member with rfl | member
    · exact Or.inr List.mem_cons_self
    · rcases ih member with inserted | inside
      · exact Or.inl inserted
      · exact Or.inr (List.mem_cons_of_mem first inside)
  | case3 text other => exact Or.inr member

/-- A text that is neither binary nor mixed has a plain normal form. -/
theorem plain_normalized (binary : '\x00' ∉ text) (mixed : mixedNewlines text = false) :
    Plain (replaceCrlf ['\n'] text) := by
  refine ⟨?_, ?_⟩
  · intro member
    rw [mixedNewlines, Bool.or_eq_false_iff, decide_eq_false_iff_not] at mixed
    exact mixed.1 member
  · intro member
    rcases mem_replaceCrlf member with impossible | inside
    · exact absurd impossible (by decide)
    · exact binary inside

theorem mem_dropLines (member : line ∈ dropLines text) :
    '\n' ∉ line ∧ ∀ char ∈ line, char ∈ text := by
  induction text using text_induction with
  | last content single =>
    rw [dropLines_single single] at member
    split at member
    · exact False.elim (List.not_mem_nil member)
    · rw [List.mem_singleton.mp member]
      exact ⟨single, fun char inside => inside⟩
  | line content rest single ih =>
    rw [List.append_assoc, List.cons_append, List.nil_append, dropLines_cons single] at member
    rcases List.mem_cons.mp member with rfl | member
    · exact ⟨single, fun char inside => by simp [inside]⟩
    · rcases ih member with ⟨noNewline, within⟩
      exact ⟨noNewline, fun char inside => by simp [within char inside]⟩

theorem singleLine_of_lines (read : lines text false = .ok ls) (member : line ∈ ls) : SingleLine line := by
  unfold lines at read
  split at read
  · cases read
  rename_i binary
  split at read
  · cases read
  rename_i mixed
  cases read
  have plain := plain_normalized binary (Bool.eq_false_iff.mpr mixed)
  rcases mem_dropLines member with ⟨single, within⟩
  exact ⟨single, fun inside => plain.noReturn (within _ inside),
    fun inside => plain.noNull (within _ inside)⟩

theorem parseBody_single {oldCount newCount : Nat} {state final : BodyState}
    (parsed : parseBody oldCount newCount state ls = .ok (final, rest))
    (before : ∀ entry ∈ state.body, SingleLine entry.2)
    (single : ∀ line ∈ ls, SingleLine line) :
    ∀ entry ∈ final.body, SingleLine entry.2 := by
  have added : ∀ {state : BodyState} {char : Char} {text : Text} {side : Side},
      (∀ entry ∈ state.body, SingleLine entry.2) -> SingleLine (char :: text) ->
      ∀ entry ∈ (state.add side text).body, SingleLine entry.2 := by
    intro state char text side known line entry member
    rcases List.mem_append.mp member with inside | inside
    · exact known entry inside
    · rw [List.mem_singleton.mp inside]
      exact line.tail
  fun_induction parseBody oldCount newCount state ls with
  | case1 | case3 | case4 | case5 => cases parsed
  | case2 | case9 =>
    cases parsed
    exact before
  | case6 state char text side known unfinished next fits ih =>
    exact ih parsed (added before (single _ List.mem_cons_self))
      (fun line member => False.elim (List.not_mem_nil member))
  | case7 state char text side known unfinished next fits later ih =>
    exact ih parsed (added before (single _ List.mem_cons_self)) (fun line member =>
      single line (List.mem_cons_of_mem _ (List.mem_cons_of_mem _ member)))
  | case8 state char text side known unfinished next fits marker later other ih =>
    exact ih parsed (added before (single _ List.mem_cons_self)) (fun line member =>
      single line (List.mem_cons_of_mem _ member))

theorem parseHunks_single (parsed : parseHunks ls = .ok (hunks, rest))
    (single : ∀ line ∈ ls, SingleLine line) : ∀ hunk ∈ hunks, hunk.SingleLines := by
  fun_induction parseHunks ls generalizing hunks rest with
  | case1 | case6 =>
    cases parsed
    exact fun hunk member => False.elim (List.not_mem_nil member)
  | case2 | case3 | case4 => cases parsed
  | case5 header others opens position placed state after read inner left later ih =>
    cases parsed
    have remaining : ∀ line ∈ others, SingleLine line :=
      fun line member => single line (List.mem_cons_of_mem header member)
    intro hunk member
    rcases List.mem_cons.mp member with rfl | member
    · exact parseBody_single read (fun entry member => False.elim (List.not_mem_nil member)) remaining
    · exact ih later (fun line inside =>
        remaining line ((parseBody_rest read).subset inside)) hunk member

theorem parseFiles_plan {newline : Newline} {seen : List Text}
    (parsed : parseFiles casefold newline seen ls = .ok files)
    (single : ∀ line ∈ ls, SingleLine line) :
    ∀ file ∈ files, ∀ hunk ∈ file.plan.hunks, hunk.SingleLines := by
  fun_induction parseFiles casefold newline seen ls generalizing files with
  | case1 =>
    cases parsed
    exact nofun
  | case2 | case3 | case4 | case5 | case6 => cases parsed
  | case7 seen first others path action rest read unseen hunks left again filled inner later ih =>
    cases parsed
    rcases parseFileHeader_rest read with ⟨old, new, within⟩
    have remaining : ∀ line ∈ rest, SingleLine line := fun line member =>
      single line (within.subset (List.mem_cons_of_mem old (List.mem_cons_of_mem new member)))
    intro file member
    rcases List.mem_cons.mp member with rfl | member
    · exact parseHunks_single again remaining
    · exact ih later (fun line inside =>
        remaining line ((parseHunks_rest again).subset inside)) file member

theorem parseUnifiedPatch_plan (parsed : parseUnifiedPatch casefold diff = .ok files) :
    ∀ file ∈ files, ∀ hunk ∈ file.plan.hunks, hunk.SingleLines := by
  unfold parseUnifiedPatch at parsed
  split at parsed
  · cases parsed
  split at parsed
  · cases parsed
  rename_i ls read
  exact parseFiles_plan parsed fun line member => singleLine_of_lines read member

theorem parseDiff_plan (parsed : parseDiff casefold diff path = .ok plan) :
    ∀ hunk ∈ plan.hunks, hunk.SingleLines := by
  unfold parseDiff at parsed
  split at parsed
  · split at parsed
    · cases parsed
    rename_i ls read
    split at parsed
    · cases parsed
    rename_i hunks left listed
    split at parsed
    · cases parsed
    cases parsed
    exact parseHunks_single listed fun line member => singleLine_of_lines read member
  · split at parsed
    · cases parsed
    · rename_i file listed
      repeat' split at parsed
      all_goals cases parsed
      exact parseUnifiedPatch_plan listed file List.mem_cons_self
    · cases parsed

/-- The plans that come out of the parsers. -/
inductive Parsed (casefold : Text -> Text) : PatchPlan -> Prop
  | input {args : PatchArgs} {plan : PatchPlan} (parsed : parsePatchInput casefold args = .ok plan) :
      Parsed casefold plan
  | file {diff : Text} {files : List FilePatch} {file : FilePatch}
      (parsed : parseUnifiedPatch casefold diff = .ok files) (listed : file ∈ files) :
      Parsed casefold file.plan

theorem Parsed.singleLines (parsed : Parsed casefold plan) :
    ∀ hunk ∈ plan.hunks, hunk.SingleLines := by
  cases parsed with
  | input parsed =>
    unfold parsePatchInput at parsed
    split at parsed
    · split at parsed
      · exact parseDiff_plan parsed
      · cases parsed
    · split at parsed
      · split at parsed
        · cases parsed
        · cases parsed
          exact nofun
      · cases parsed
  | file parsed listed => exact parseUnifiedPatch_plan parsed _ listed

/-! ## The lines outside the hunks -/

theorem replaceCrlf_of_not_hasCrlf {by_ : Text} (unix : hasCrlf text = false) :
    replaceCrlf by_ text = text := by
  fun_induction replaceCrlf by_ text with
  | case1 first second rest ending ih =>
    rw [hasCrlf, ending.1, ending.2] at unix
    cases unix
  | case2 first second rest other ih =>
    rw [hasCrlf, Bool.or_eq_false_iff] at unix
    rw [ih unix.2]
  | case3 text other => rfl

theorem replaceLf_normalized_crlf (paired : '\n' ∉ replaceCrlf [] text) :
    replaceLf .crlf (replaceCrlf ['\n'] text) = text := by
  fun_induction replaceCrlf ['\n'] text with
  | case1 first second rest ending ih =>
    rw [replaceCrlf, if_pos ending, List.nil_append] at paired
    rw [List.cons_append, List.nil_append, replaceLf_cons, if_pos rfl, ih paired, ending.1, ending.2]
    rfl
  | case2 first second rest other ih =>
    rw [replaceCrlf, if_neg other, List.mem_cons, not_or] at paired
    rw [replaceLf_cons, if_neg (Ne.symm paired.1), ih paired.2]
    rfl
  | case3 text other =>
    have bare : replaceCrlf [] text = text := by
      unfold replaceCrlf
      split
      · exact False.elim (other _ _ _ rfl)
      · rfl
    rw [bare] at paired
    exact replaceLf_eq_self paired

/-- A text without mixed line endings is its normal form under its own line
ending. -/
theorem replaceLf_normalized (mixed : mixedNewlines text = false) (default : Newline) :
    replaceLf ((endings text).getD default) (replaceCrlf ['\n'] text) = text := by
  rw [mixedNewlines, Bool.or_eq_false_iff] at mixed
  unfold endings
  by_cases windows : hasCrlf text = true
  · rw [windows, Bool.true_and] at mixed
    rw [if_pos windows]
    exact replaceLf_normalized_crlf (decide_eq_false_iff_not.mp mixed.2)
  · rw [if_neg windows, replaceCrlf_of_not_hasCrlf (Bool.eq_false_iff.mpr windows)]
    by_cases present : '\n' ∈ text
    · rw [if_pos present]
      exact replaceLf_lf text
    · exact replaceLf_eq_self present

/-- The lines of a text outside the old ranges of the hunks are lines of the
result, with their endings and in their order. -/
def KeepsOutside (plan : PatchPlan) (text result : Text) : Prop :=
  ∃ edits newline original output, List.Forall₂ Describes plan.hunks edits ∧
      lines text true = .ok original ∧ text = replaceLf newline original.flatten ∧
      lines result true = .ok output ∧ result = replaceLf newline output.flatten ∧
      (outside 0 edits original).Sublist output

theorem lineList_filter (shapes : ∀ line ∈ ls, LineShape line) (ends : terminated ls = true) :
    LineList (ls.filter fun line => line ≠ []) := by
  induction ls with
  | nil => exact .nil
  | cons line rest ih =>
    rcases shapes line List.mem_cons_self with ⟨content, single, shape⟩
    cases rest with
    | nil =>
      by_cases empty : line = []
      · rw [List.filter_cons_of_neg (by simp [empty]), List.filter_nil]
        exact .nil
      · rw [List.filter_cons_of_pos (by simp [empty]), List.filter_nil]
        rcases shape with rfl | rfl
        · exact .cons content single .nil
        · exact .last _ empty single
    | cons next rest =>
      rw [terminated, List.dropLast_cons_cons, List.all_cons, Bool.and_eq_true,
        beq_iff_eq] at ends
      have later := ih (fun line member => shapes line (List.mem_cons_of_mem _ member)) ends.2
      rcases shape with rfl | rfl
      · rw [List.filter_cons_of_pos (by simp)]
        exact .cons content single later
      · exact absurd (List.mem_of_getLast? ends.1) single

theorem applyText_keepsOutside {result : Text} (parsed : Parsed casefold plan) (mode : plan.mode = .diff)
    (accepted : applyText text plan = .ok result) : KeepsOutside plan text result := by
  rcases (applyText_diff_iff mode).mp accepted with
    ⟨binary, mixed, edits, output, described, realises, ends, same⟩
  have plain := plain_normalized binary mixed
  rcases plain_output plain parsed.singleLines described realises with ⟨shapes, plainOutput⟩
  have whole : keepLines output.flatten = output.filter (fun line => line ≠ []) := by
    rw [← List.flatten_filter_ne_nil]
    exact keepLines_flatten (lineList_filter shapes ends)
  refine ⟨edits, (endings text).getD plan.newline, keepLines (replaceCrlf ['\n'] text),
    output.filter (fun line => line ≠ []), described, ?_, ?_, ?_, ?_, ?_⟩
  · rw [lines, if_neg binary, mixed]
    rfl
  · rw [flatten_keepLines, replaceLf_normalized mixed]
  · rw [same, lines_replaceLf plainOutput, ← whole]
    rfl
  · rw [List.flatten_filter_ne_nil]
    exact same
  · have nonempty : (outside 0 edits (keepLines (replaceCrlf ['\n'] text))).filter
        (fun line => line ≠ []) = outside 0 edits (keepLines (replaceCrlf ['\n'] text)) := by
      refine List.filter_eq_self.mpr ?_
      intro line member
      rw [decide_eq_true_eq]
      exact ((lineList_keepLines _).shape ((Edit.outside_sublist 0 edits _).subset member)).2
    rw [← nonempty]
    exact realises.outside_sublist.filter _

/-- The text of a diff as it reaches the tool. -/
def diffArgs (diff path : Text) (oldText newText : Json) : PatchArgs :=
  ⟨.str (String.ofList diff), path, oldText, newText⟩

theorem parsePatchInput_diffArgs (nonempty : diff ≠ []) (parsed : parseDiff casefold diff path = .ok plan)
    (oldText newText : Json) : parsePatchInput casefold (diffArgs diff path oldText newText) = .ok plan := by
  have given : (Json.str (String.ofList diff)).truthy = true := by
    rw [Json.truthy, bne_iff_ne]
    intro empty
    exact nonempty (by rw [← String.toList_ofList (l := diff), empty]; rfl)
  rw [parsePatchInput, diffArgs, if_pos given, ← parsed]
  dsimp only
  rw [String.toList_ofList]

/-- A written description of a change, bare or behind file headers, is parsed
to a plan that yields exactly the described text, provided that it has a hunk.
Any parsed plan that is applied leaves the lines outside its hunks as they
are. -/
theorem applyText_realises_diff (casefold : Text -> Text) :
    (∀ text patched written, Description text patched written -> written ≠ [] ->
      ∀ final oldText newText, ∃ plan, applyText text plan = .ok patched ∧
        (∀ path, parsePatchInput casefold
          (diffArgs (joinLines final (renderHunks written)) path oldText newText) = .ok plan) ∧
        ∀ header : FileHeader,
          parseUnifiedPatch casefold (joinLines final (header.render ++ renderHunks written)) =
            .ok [⟨header.path, .update, plan⟩] ∧
          ∀ path, header.Targets path -> parsePatchInput casefold
            (diffArgs (joinLines final (header.render ++ renderHunks written)) path oldText newText) =
              .ok plan) ∧
    ∀ plan, Parsed casefold plan -> plan.mode = .diff ->
      ∀ text result, applyText text plan = .ok result -> KeepsOutside plan text result := by
  refine ⟨?_, fun plan parsed mode text result accepted => applyText_keepsOutside parsed mode accepted⟩
  intro text patched written description nonempty final oldText newText
  refine ⟨shownPlan written, description.applyText, ?_, ?_⟩
  · intro path
    have hunks : renderHunks written ≠ [] := by
      cases written with
      | nil => exact absurd rfl nonempty
      | cons first rest => exact List.cons_ne_nil _ _
    exact parsePatchInput_diffArgs (joinLines_ne_nil description.clean hunks)
      (description.parseDiff casefold final nonempty path) oldText newText
  · intro header
    refine ⟨description.parseUnifiedPatch casefold final nonempty header, ?_⟩
    intro path targets
    exact parsePatchInput_diffArgs
      (joinLines_ne_nil (description.clean_headed header) (header.render_ne_nil _))
      (description.parseDiff_headed casefold final nonempty header targets) oldText newText

/-- The change of a one-line text, described and written. -/
theorem applyText_realises_diff_single :
    let written := [(⟨true, true, [], by decide, ⟨by decide, by decide⟩⟩,
      ⟨0, 1, 0, 1, [(.removed, ⟨['a'], false⟩), (.added, ⟨['b'], true⟩)]⟩)]
    ∃ plan, parsePatchInput (fun path => path)
        (diffArgs (joinLines true (renderHunks written)) [] .null .null) = .ok plan ∧
      applyText ['a', '\n'] plan = .ok ['b'] := by
  intro written
  have description : Description ['a', '\n'] ['b'] written := by
    refine ⟨⟨by decide, by decide⟩, ⟨by decide, by decide⟩, [⟨['a'], false⟩], [⟨['b'], true⟩],
      .cons ['a'] (by decide) .nil, .last ['b'] (by decide) (by decide), ?_⟩
    exact .edit [] rfl rfl rfl rfl (.done 1 1 [])
  rcases (applyText_realises_diff fun path => path).1 _ _ written description (List.cons_ne_nil _ _)
    true .null .null with ⟨plan, applied, parsed, _⟩
  exact ⟨plan, parsed [], applied⟩

/-- The description of no change at all has no hunks, and it is refused. -/
theorem empty_diff_refused :
    Description [] [] [] ∧
      parsePatchInput (fun path => path)
          (diffArgs (joinLines true (renderHunks [])) [] .null .null) =
        .error (invalidPatch "provide diff or nonempty old_text and new_text") ∧
      parseUnifiedPatch (fun path => path) (joinLines true (renderHunks [])) =
        .error (invalidPatch "empty patch") := by
  refine ⟨⟨⟨List.not_mem_nil, List.not_mem_nil⟩, ⟨List.not_mem_nil, List.not_mem_nil⟩, ?_⟩, rfl, rfl⟩
  exact ⟨[], [], .nil, .nil, .done 0 0 []⟩

end PatchEngine
end FixLoop
