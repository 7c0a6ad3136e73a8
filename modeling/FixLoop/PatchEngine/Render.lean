import FixLoop.PatchEngine.Parse

namespace FixLoop
namespace PatchEngine

open Library Edit

/-!
# Written diffs

A correct description of a change is a list of edits on lines that realise
it.  A line is its content with the flag that it is not terminated.  The
description is written in unified-diff form: a header that may leave out a
count of one and may carry a heading, body lines behind their marks, and a
marker after each line that is not terminated.
-/

structure Line where
  content : Text
  noNewline : Bool

def Line.text (line : Line) : Text := line.content ++ (if line.noNewline then [] else ['\n'])

/-- The lines of a text: only the last one may lack its ending, and it is not
empty then. -/
inductive IsText : List Line -> Text -> Prop
  | nil : IsText [] []
  | last (content : Text) (nonempty : content ≠ []) (single : '\n' ∉ content) :
      IsText [⟨content, true⟩] content
  | cons (content : Text) (single : '\n' ∉ content) {rest : List Line} {text : Text}
      (later : IsText rest text) : IsText (⟨content, false⟩ :: rest) (content ++ ['\n'] ++ text)

/-- The free choices in writing a header. -/
structure HeaderStyle where
  shortOld : Bool
  shortNew : Bool
  heading : Text
  single : '\n' ∉ heading
  plain : Plain heading

/-- A start and a count as a header shows them. -/
def shownRange (short : Bool) (start count : Nat) : HeaderRange :=
  { start := Nat.toDigits 10 (if count = 0 then start else start + 1),
    count := if short = true ∧ count = 1 then none else some (Nat.toDigits 10 count) }

def shownHeader (style : HeaderStyle) (edit : Edit Line) : HeaderMatch :=
  { old := shownRange style.shortOld edit.oldStart edit.oldCount,
    new := shownRange style.shortNew edit.newStart edit.newCount, heading := style.heading }

def mark : Side -> Char
  | .kept => ' '
  | .removed => '-'
  | .added => '+'

def renderBody (body : List (Side × Line)) : List Text :=
  body.flatMap (fun entry => (mark entry.1 :: entry.2.content) ::
    (if entry.2.noNewline then [noNewlineLine] else []))

def renderHunk (style : HeaderStyle) (edit : Edit Line) : List Text :=
  (shownHeader style edit).render :: renderBody edit.body

def renderHunks (written : List (HeaderStyle × Edit Line)) : List Text :=
  written.flatMap fun entry => renderHunk entry.1 entry.2

/-- Lines joined to a text, with or without a final `\n`. -/
def joinLines (final : Bool) : List Text -> Text
  | [] => []
  | [line] => line ++ (if final then ['\n'] else [])
  | line :: next :: rest => line ++ '\n' :: joinLines final (next :: rest)

/-! ## Texts and lines -/

variable {ls : List Line} (short : Bool) (style : HeaderStyle) {body : List (Side × Line)}

theorem IsText.flatten {text : Text} (isText : IsText ls text) : (ls.map Line.text).flatten = text := by
  induction isText with
  | nil => rfl
  | last content nonempty single => simp [Line.text]
  | cons content single later ih => rw [List.map_cons, List.flatten_cons, ih]; rfl

theorem IsText.lineList {text : Text} (isText : IsText ls text) : LineList (ls.map Line.text) := by
  induction isText with
  | nil => exact .nil
  | last content nonempty single =>
    have bare : Line.text ⟨content, true⟩ = content := List.append_nil content
    rw [List.map_singleton, bare]
    exact .last content nonempty single
  | cons content single later ih => exact .cons content single ih

theorem IsText.keepLines {text : Text} (isText : IsText ls text) : keepLines text = ls.map Line.text := by
  rw [← isText.flatten, keepLines_flatten isText.lineList]

theorem IsText.content {text : Text} (isText : IsText ls text) (plain : Plain text) {line : Line}
    (member : line ∈ ls) : '\n' ∉ line.content ∧ Plain line.content := by
  induction isText with
  | nil => exact False.elim (List.not_mem_nil member)
  | last content nonempty single =>
    rw [List.mem_singleton.mp member]
    exact ⟨single, plain⟩
  | @cons content single rest text later ih =>
    rcases List.mem_cons.mp member with rfl | member
    · exact ⟨single, fun inside => plain.noReturn (by simp [inside]),
        fun inside => plain.noNull (by simp [inside])⟩
    · exact ih ⟨fun inside => plain.noReturn (by simp [inside]),
        fun inside => plain.noNull (by simp [inside])⟩ member

theorem dropLines_single {text : Text} (single : '\n' ∉ text) :
    dropLines text = if text = [] then [] else [text] := by
  rw [dropLines, splitOn_no_newline single, if_neg fun ends => single (List.mem_of_getLast? ends)]

theorem dropLines_cons {content : Text} (single : '\n' ∉ content) (rest : Text) :
    dropLines (content ++ '\n' :: rest) = content :: dropLines rest := by
  have split : (content ++ '\n' :: rest).splitOn '\n' = content :: rest.splitOn '\n' :=
    List.splitOn_append_cons_self_of_not_mem single rest
  have filled : content ++ '\n' :: rest ≠ [] := by simp
  rw [dropLines, split, dropLines, if_neg filled]
  cases rest with
  | nil => simp
  | cons char rest =>
    have last : (content ++ '\n' :: char :: rest).getLast? = (char :: rest).getLast? := by
      rw [List.getLast?_append_cons, List.getLast?_cons_cons]
    rw [last, if_neg (List.cons_ne_nil char rest),
      List.dropLast_cons_of_ne_nil (List.splitOn_ne_nil '\n' (char :: rest))]
    split <;> rfl

theorem dropLines_joinLines {final : Bool} {ls : List Text}
    (nonempty : ∀ line ∈ ls, line ≠ [] ∧ '\n' ∉ line) :
    dropLines (joinLines final ls) = ls := by
  induction ls with
  | nil => rfl
  | cons line rest ih =>
    have here := nonempty line List.mem_cons_self
    cases rest with
    | nil =>
      cases final with
      | true => exact dropLines_cons here.2 []
      | false =>
        change dropLines (line ++ []) = [line]
        rw [List.append_nil, dropLines_single here.2, if_neg here.1]
    | cons next rest =>
      rw [joinLines, dropLines_cons here.2,
        ih fun line member => nonempty line (List.mem_cons_of_mem _ member)]

/-! ## Headers -/

variable {char : Char} (start : Nat) (edit : Edit Line) {written : List (HeaderStyle × Edit Line)}

theorem digitValue?_of_isDigit (digit : char.isDigit = true) :
    digitValue? char = some (char.toNat - '0'.toNat) := by
  have bounds := Char.isDigit_iff_toNat.mp digit
  have inside : (decide (0x30 ≤ char.toNat) && decide (char.toNat < 0x30 + 10)) = true := by
    rw [Bool.and_eq_true, decide_eq_true_eq, decide_eq_true_eq]
    exact ⟨bounds.1, Nat.lt_succ_of_le bounds.2⟩
  have found : digitZeros.find? (fun first =>
      decide (first ≤ char.toNat) && decide (char.toNat < first + 10)) = some 0x30 :=
    List.find?_cons_of_pos inside
  rw [digitValue?, found]
  rfl

theorem digits_toDigits (number : Nat) : Digits (Nat.toDigits 10 number) := by
  refine ⟨Nat.toDigits_ne_nil, List.all_eq_true.mpr ?_⟩
  intro char member
  rw [isDigit, digitValue?_of_isDigit (Nat.isDigit_of_mem_toDigits (by decide) (by decide) member)]
  rfl

theorem foldl_digitValue? {digits : Text} (ascii : ∀ char ∈ digits, char.isDigit = true)
    (start : Nat) :
    digits.foldl (fun number char => 10 * number + (digitValue? char).getD 0) start =
      digits.foldl (fun number char => 10 * number + (char.toNat - '0'.toNat)) start := by
  induction digits generalizing start with
  | nil => rfl
  | cons char rest ih =>
    rw [List.foldl_cons, List.foldl_cons, digitValue?_of_isDigit (ascii char List.mem_cons_self),
      Option.getD_some, ih fun char member => ascii char (List.mem_cons_of_mem _ member)]

theorem toInt_toDigits (number : Nat) : toInt (Nat.toDigits 10 number) = number := by
  have ascii : ∀ char ∈ Nat.toDigits 10 number, char.isDigit = true := fun char =>
    Nat.isDigit_of_mem_toDigits (by decide) (by decide)
  rw [toInt, foldl_digitValue? ascii, ← Nat.ofDigitChars_eq_foldl]
  exact Nat.ofDigitChars_toDigits (by decide) (by decide)

theorem shownRange_wellFormed (count : Nat) : (shownRange short start count).WellFormed := by
  refine ⟨digits_toDigits _, ?_⟩
  intro digits shown
  unfold shownRange at shown
  dsimp only at shown
  split at shown
  · cases shown
  · cases shown
    exact digits_toDigits count

theorem shownRange_countNumber (count : Nat) : (shownRange short start count).countNumber = count := by
  unfold shownRange HeaderRange.countNumber
  dsimp only
  split
  · rename_i one
    exact one.2.symm
  · exact toInt_toDigits count

theorem shownRange_startNumber (count : Nat) :
    (shownRange short start count).startNumber = if count = 0 then start else start + 1 :=
  toInt_toDigits _

theorem shownRange_position (count : Nat) : (shownRange short start count).position = start := by
  rw [HeaderRange.position, shownRange_countNumber, shownRange_startNumber]
  split <;> rfl

theorem shownRange_misplaced (count : Nat) : (shownRange short start count).misplaced = false := by
  rw [HeaderRange.misplaced, shownRange_countNumber, shownRange_startNumber]
  split
  · rename_i empty
    rw [empty]
    rfl
  · rw [beq_eq_false_iff_ne.mpr (Nat.succ_ne_zero start), Bool.and_false]

theorem shownHeader_wellFormed : (shownHeader style edit).WellFormed :=
  ⟨shownRange_wellFormed _ _ _, shownRange_wellFormed _ _ _, style.single⟩

theorem coordinates_shownHeader :
    coordinates (shownHeader style edit).render =
      .ok ⟨edit.oldStart, edit.oldCount, edit.newStart, edit.newCount⟩ := by
  rw [coordinates, matchHeader_render (shownHeader_wellFormed style edit)]
  simp only [shownHeader, shownRange_misplaced, shownRange_position, shownRange_countNumber,
    Bool.or_self, Bool.false_eq_true, if_false]

/-! ## Bodies -/

theorem sideOf?_mark (side : Side) : sideOf? (mark side) = some side := by cases side <;> rfl

/-- The markers of a body that is read from index `start` on. -/
def markersFrom (markers : Finset Nat) (start : Nat) : List (Side × Line) -> Finset Nat
  | [] => markers
  | entry :: rest =>
    markersFrom (if entry.2.noNewline then insert start markers else markers) (start + 1) rest

/-- What is not read as a marker of the line before. -/
def Unmarked (ls : List Text) : Prop := ls.head? ≠ some noNewlineLine

theorem unmarked_renderBody {after : List Text} (unmarked : Unmarked after) :
    Unmarked (renderBody body ++ after) := by
  cases body with
  | nil => exact unmarked
  | cons entry rest =>
    intro impossible
    have heads : mark entry.1 :: entry.2.content = noNewlineLine := Option.some.inj impossible
    have first := congrArg List.head? heads
    cases side : entry.1 <;> rw [side] at first <;> cases first

theorem parseBody_cons {oldCount newCount : Nat} {state : BodyState} {side : Side} {text : Text}
    {rest : List Text} (unfinished : state.oldUsed < oldCount ∨ state.newUsed < newCount)
    (fits : ¬ ((state.add side text).oldUsed > oldCount ∨ (state.add side text).newUsed > newCount)) :
    parseBody oldCount newCount state ((mark side :: text) :: noNewlineLine :: rest) =
        parseBody oldCount newCount (state.add side text).mark rest ∧
      (Unmarked rest -> parseBody oldCount newCount state ((mark side :: text) :: rest) =
        parseBody oldCount newCount (state.add side text) rest) := by
  constructor
  · rw [parseBody, if_pos unfinished]
    simp only [sideOf?_mark, if_neg fits, if_true]
  · intro unmarked
    rw [parseBody, if_pos unfinished]
    simp only [sideOf?_mark, if_neg fits]
    cases rest with
    | nil => rfl
    | cons next later =>
      have other : next ≠ noNewlineLine := fun same => unmarked (congrArg some same)
      simp only [if_neg other]

/-- The state after a written line. -/
def BodyState.read (state : BodyState) (side : Side) (line : Line) : BodyState :=
  if line.noNewline then (state.add side line.content).mark else state.add side line.content

theorem BodyState.read_eq (state : BodyState) (side : Side) (line : Line) :
    state.read side line =
      ⟨state.body ++ [(side, line.content)],
        if line.noNewline then insert state.body.length state.markers else state.markers,
        state.oldUsed + (oldLines [(side, line)]).length,
        state.newUsed + (newLines [(side, line)]).length⟩ := by
  rcases line with ⟨content, noNewline⟩
  cases noNewline <;> cases side <;>
    simp [BodyState.read, BodyState.add, BodyState.mark, oldLines, newLines, Side.inOld, Side.inNew]

theorem parseBody_renderBody {body : List (Side × Line)} {after : List Text}
    (unmarked : Unmarked after) (state : BodyState) :
    parseBody (state.oldUsed + (oldLines body).length) (state.newUsed + (newLines body).length) state
        (renderBody body ++ after) =
      .ok (⟨state.body ++ body.map (fun entry => (entry.1, entry.2.content)),
        markersFrom state.markers state.body.length body,
        state.oldUsed + (oldLines body).length, state.newUsed + (newLines body).length⟩, after) := by
  induction body generalizing state with
  | nil =>
    have finished : ¬ (state.oldUsed < state.oldUsed + 0 ∨ state.newUsed < state.newUsed + 0) := by
      omega
    have kept : parseBody (state.oldUsed + 0) (state.newUsed + 0) state after = .ok (state, after) := by
      unfold parseBody
      cases after with
      | nil | cons line rest => exact if_neg finished
    simpa only [renderBody, List.flatMap_nil, List.nil_append, oldLines, newLines, List.filter_nil,
      List.map_nil, List.length_nil, List.append_nil, markersFrom, Nat.add_zero] using kept
  | cons entry rest ih =>
    rcases entry with ⟨side, line⟩
    have old : (oldLines ((side, line) :: rest)).length =
        (oldLines [(side, line)]).length + (oldLines rest).length := by
      cases side <;> simp [oldLines, Side.inOld, Nat.add_comm]
    have new : (newLines ((side, line) :: rest)).length =
        (newLines [(side, line)]).length + (newLines rest).length := by
      cases side <;> simp [newLines, Side.inNew, Nat.add_comm]
    have moves : 0 < (oldLines [(side, line)]).length ∨ 0 < (newLines [(side, line)]).length := by
      cases side <;> simp [oldLines, newLines, Side.inOld, Side.inNew]
    have added : (state.add side line.content).oldUsed =
          state.oldUsed + (oldLines [(side, line)]).length ∧
        (state.add side line.content).newUsed =
          state.newUsed + (newLines [(side, line)]).length := by
      cases side <;> exact ⟨rfl, rfl⟩
    have round := fun later => @parseBody_cons
      (state.oldUsed + (oldLines ((side, line) :: rest)).length)
      (state.newUsed + (newLines ((side, line) :: rest)).length) state side line.content later
      (by omega) (by omega)
    have step : parseBody (state.oldUsed + (oldLines ((side, line) :: rest)).length)
        (state.newUsed + (newLines ((side, line) :: rest)).length) state
        (renderBody ((side, line) :: rest) ++ after) =
        parseBody (state.oldUsed + (oldLines ((side, line) :: rest)).length)
        (state.newUsed + (newLines ((side, line) :: rest)).length) (state.read side line)
        (renderBody rest ++ after) := by
      rw [renderBody, List.flatMap_cons, List.append_assoc, ← renderBody, BodyState.read]
      by_cases marked : line.noNewline = true
      · rw [if_pos marked, if_pos marked]
        exact (round _).1
      · rw [if_neg marked, if_neg marked]
        exact (round _).2 (unmarked_renderBody unmarked)
    have next := ih (state.read side line)
    rw [BodyState.read_eq] at next
    dsimp only at next
    rw [Nat.add_assoc, Nat.add_assoc, ← old, ← new, List.length_append, List.append_assoc] at next
    rw [step, BodyState.read_eq, next]
    rfl

/-! ## Hunks -/

/-- The hunk that is read back from a written edit. -/
def shownHunk (style : HeaderStyle) (edit : Edit Line) : PatchHunk :=
  { header := (shownHeader style edit).render,
    lines := edit.body.map (fun entry => (entry.1, entry.2.content)),
    noNewline := markersFrom ∅ 0 edit.body }

theorem mem_markersFrom {markers : Finset Nat} {start index : Nat} :
    index ∈ markersFrom markers start body <-> index ∈ markers ∨
      ∃ entry, (entry, index) ∈ body.zipIdx start ∧ entry.2.noNewline = true := by
  induction body generalizing markers start with
  | nil =>
    simp only [markersFrom, List.zipIdx_nil, List.not_mem_nil, false_and, exists_false, or_false]
  | cons first rest ih =>
    rw [markersFrom, ih, List.zipIdx_cons]
    constructor
    · rintro (member | ⟨entry, listed, marked⟩)
      · by_cases marked : first.2.noNewline = true
        · rw [if_pos marked] at member
          rcases Finset.mem_insert.mp member with rfl | member
          · exact Or.inr ⟨first, List.mem_cons_self, marked⟩
          · exact Or.inl member
        · rw [if_neg marked] at member
          exact Or.inl member
      · exact Or.inr ⟨entry, List.mem_cons_of_mem _ listed, marked⟩
    · rintro (member | ⟨entry, listed, marked⟩)
      · refine Or.inl ?_
        split
        · exact Finset.mem_insert_of_mem member
        · exact member
      · rcases List.mem_cons.mp listed with same | listed
        · cases same
          rw [if_pos marked]
          exact Or.inl (Finset.mem_insert_self _ _)
        · exact Or.inr ⟨entry, listed, marked⟩

theorem body_shownHunk : (shownHunk style edit).body = (edit.map Line.text).body := by
  rw [PatchHunk.body, shownHunk, List.zipIdx_map, List.map_map, Edit.map]
  dsimp only
  conv_rhs => rw [← List.zipIdx_map_fst 0 edit.body, List.map_map]
  apply List.map_congr_left
  rintro ⟨entry, index⟩ member
  have marked : index ∈ markersFrom ∅ 0 edit.body <-> entry.2.noNewline = true := by
    rw [mem_markersFrom]
    constructor
    · rintro (impossible | ⟨other, listed, marked⟩)
      · exact absurd impossible (Finset.notMem_empty index)
      · have left := List.mem_zipIdx_iff_getElem?.mp member
        have right := List.mem_zipIdx_iff_getElem?.mp listed
        cases Option.some.inj (left.symm.trans right)
        exact marked
    · intro marked
      exact Or.inr ⟨entry, member, marked⟩
  simp only [Function.comp_apply, Prod.map, id, PatchHunk.ending, marked, Line.text]

theorem describes_shownHunk : Describes (shownHunk style edit) (edit.map Line.text) :=
  ⟨coordinates_shownHeader style edit, body_shownHunk style edit⟩

/-- The counts of an edit agree with its body. -/
def Counted (edit : Edit Line) : Prop :=
  edit.oldCount = (oldLines edit.body).length ∧ edit.newCount = (newLines edit.body).length

theorem counted_of_realises {i j : Nat} {edits : List (Edit Line)} {old new : List Line}
    (realises : Realises i j edits old new) {edit : Edit Line} (member : edit ∈ edits) :
    Counted edit := by
  induction realises with
  | done i j rest => exact False.elim (List.not_mem_nil member)
  | edit skipped oldStart newStart oldCount newCount later ih =>
    rcases List.mem_cons.mp member with rfl | member
    · exact ⟨oldCount, newCount⟩
    · exact ih member

theorem unmarked_renderHunks (written : List (HeaderStyle × Edit Line)) :
    Unmarked (renderHunks written) := by
  cases written with
  | nil => exact fun impossible => by cases impossible
  | cons first rest =>
    intro impossible
    have heads : (shownHeader first.1 first.2).render = noNewlineLine := Option.some.inj impossible
    have first := congrArg List.head? heads
    cases first

theorem parseHunks_renderHunks (counted : ∀ entry ∈ written, Counted entry.2) :
    parseHunks (renderHunks written) =
      .ok (written.map (fun entry => shownHunk entry.1 entry.2), []) := by
  induction written with
  | nil =>
    rw [renderHunks, List.flatMap_nil, parseHunks]
    rfl
  | cons first rest ih =>
    have later := ih fun entry member => counted entry (List.mem_cons_of_mem _ member)
    rcases counted first List.mem_cons_self with ⟨oldCount, newCount⟩
    have body := @parseBody_renderBody first.2.body (renderHunks rest) (unmarked_renderHunks rest)
      BodyState.start
    simp only [BodyState.start, Nat.zero_add, List.nil_append, List.length_nil, ← oldCount,
      ← newCount] at body
    rw [renderHunks, List.flatMap_cons, ← renderHunks, renderHunk, List.cons_append]
    exact parseHunks_cons rfl (coordinates_shownHeader first.1 first.2) body later

/-! ## What is written is clean -/

/-- A line that a diff can hold. -/
def Clean (line : Text) : Prop := line ≠ [] ∧ '\n' ∉ line ∧ Plain line

theorem clean_noNewlineLine : Clean noNewlineLine := by
  refine ⟨by decide, by decide, ⟨by decide, by decide⟩⟩

theorem clean_cons {text : Text} (ordinary : char ∉ ['\n', '\r', '\x00']) (single : '\n' ∉ text)
    (plain : Plain text) : Clean (char :: text) := by
  simp only [List.mem_cons, List.not_mem_nil, or_false, not_or] at ordinary
  refine ⟨List.cons_ne_nil char text, ?_, ?_, ?_⟩
  · intro member
    rcases List.mem_cons.mp member with same | member
    · exact ordinary.1 same.symm
    · exact single member
  · intro member
    rcases List.mem_cons.mp member with same | member
    · exact ordinary.2.1 same.symm
    · exact plain.noReturn member
  · intro member
    rcases List.mem_cons.mp member with same | member
    · exact ordinary.2.2 same.symm
    · exact plain.noNull member

theorem mark_ordinary (side : Side) : mark side ∉ ['\n', '\r', '\x00'] := by cases side <;> decide

theorem clean_renderBody
    (contents : ∀ side line, (side, line) ∈ body -> '\n' ∉ line.content ∧ Plain line.content)
    {line : Text} (member : line ∈ renderBody body) : Clean line := by
  rcases List.mem_flatMap.mp member with ⟨⟨side, source⟩, listed, inside⟩
  have content := contents side source listed
  rcases List.mem_cons.mp inside with rfl | inside
  · exact clean_cons (mark_ordinary side) content.1 content.2
  · split at inside
    · rw [List.mem_singleton.mp inside]
      exact clean_noNewlineLine
    · exact False.elim (List.not_mem_nil inside)

theorem mem_render_range {range : HeaderRange} (wellFormed : range.WellFormed)
    (member : char ∈ range.render) : isDigit char = true ∨ char = ',' := by
  rcases List.mem_append.mp member with inside | inside
  · exact Or.inl (List.all_eq_true.mp wellFormed.start.2 char inside)
  · cases counted : range.count with
    | none =>
      rw [counted] at inside
      exact False.elim (List.not_mem_nil inside)
    | some count =>
      rw [counted] at inside
      rcases List.mem_cons.mp inside with same | inside
      · exact Or.inr same
      · exact Or.inl (List.all_eq_true.mp (wellFormed.count count counted).2 char inside)

theorem clean_header : Clean (shownHeader style edit).render := by
  have wellFormed := shownHeader_wellFormed style edit
  have control : ∀ char ∈ ['\n', '\r', '\x00'],
      char ∉ (shownHeader style edit).render := by
    intro char special member
    have range : ∀ {range : HeaderRange}, range.WellFormed -> char ∉ range.render := by
      intro range known inside
      have digit : isDigit char = false := by
        simp only [List.mem_cons, List.not_mem_nil, or_false] at special
        rcases special with rfl | rfl | rfl <;> decide
      have comma : char ≠ ',' := by
        simp only [List.mem_cons, List.not_mem_nil, or_false] at special
        rcases special with rfl | rfl | rfl <;> decide
      rcases mem_render_range known inside with impossible | impossible
      · rw [digit] at impossible
        cases impossible
      · exact comma impossible
    have heading : char ∉ style.heading := by
      simp only [List.mem_cons, List.not_mem_nil, or_false] at special
      rcases special with rfl | rfl | rfl
      · exact style.single
      · exact style.plain.noReturn
      · exact style.plain.noNull
    have fixed : char ∉ ['@', ' ', '-', '+'] := by
      simp only [List.mem_cons, List.not_mem_nil, or_false] at special
      rcases special with rfl | rfl | rfl <;> decide
    simp only [HeaderMatch.render, List.mem_append, List.mem_cons, List.not_mem_nil, or_false] at member
    simp only [List.mem_cons, List.not_mem_nil, or_false, not_or] at fixed
    have left := range wellFormed.old
    have right := range wellFormed.new
    have final : char ∉ (shownHeader style edit).heading := heading
    simp only [left, right, final, fixed, or_self] at member
  exact ⟨List.cons_ne_nil _ _, control _ (by decide), ⟨control _ (by decide), control _ (by decide)⟩⟩

theorem clean_renderHunks
    (contents : ∀ entry ∈ written, ∀ side line, (side, line) ∈ entry.2.body -> '\n' ∉ line.content ∧ Plain line.content)
    {line : Text} (member : line ∈ renderHunks written) : Clean line := by
  rcases List.mem_flatMap.mp member with ⟨entry, listed, inside⟩
  rcases List.mem_cons.mp inside with rfl | inside
  · exact clean_header entry.1 entry.2
  · exact clean_renderBody (contents entry listed) inside

theorem plain_joinLines {final : Bool} {ls : List Text} (clean : ∀ line ∈ ls, Clean line) :
    Plain (joinLines final ls) := by
  induction ls with
  | nil => exact ⟨List.not_mem_nil, List.not_mem_nil⟩
  | cons line rest ih =>
    have here := (clean line List.mem_cons_self).2.2
    have later := ih fun line member => clean line (List.mem_cons_of_mem _ member)
    cases rest with
    | nil =>
      cases final with
      | true =>
        change Plain (line ++ ['\n'])
        exact ⟨by simpa using here.noReturn, by simpa using here.noNull⟩
      | false =>
        change Plain (line ++ [])
        rwa [List.append_nil]
    | cons next rest =>
      rw [joinLines]
      exact ⟨by simpa using ⟨here.noReturn, later.noReturn⟩,
        by simpa using ⟨here.noNull, later.noNull⟩⟩

/-- A written diff is read back as its lines. -/
theorem lines_joinLines {final : Bool} {ls : List Text} (clean : ∀ line ∈ ls, Clean line) :
    lines (joinLines final ls) false = .ok ls := by
  have known := lines_plain (@plain_joinLines final ls clean) false
  rw [known]
  change Except.ok (dropLines (joinLines final ls)) = .ok ls
  rw [dropLines_joinLines fun line member => ⟨(clean line member).1, (clean line member).2.1⟩]

/-! ## Applying what was read -/

/-- The hypotheses that a correct description of a change puts together. -/
structure Description (text patched : Text) (written : List (HeaderStyle × Edit Line)) : Prop where
  plainText : Plain text
  plainPatched : Plain patched
  correct : ∃ before after, IsText before text ∧ IsText after patched ∧
    Realises 0 0 (written.map Prod.snd) before after

def shownPlan (written : List (HeaderStyle × Edit Line)) : PatchPlan :=
  ⟨.diff, written.map (fun entry => shownHunk entry.1 entry.2), [], [], .lf⟩

section Described

variable {text patched : Text} {written : List (HeaderStyle × Edit Line)}

theorem Description.counted (description : Description text patched written) :
    ∀ entry ∈ written, Counted entry.2 := by
  rcases description.correct with ⟨before, after, _, _, realises⟩
  intro entry member
  exact counted_of_realises realises (List.mem_map_of_mem member)

theorem Description.clean (description : Description text patched written) :
    ∀ line ∈ renderHunks written, Clean line := by
  rcases description.correct with ⟨before, after, old, new, realises⟩
  intro line member
  refine clean_renderHunks ?_ member
  intro entry listed side source inside
  rcases realises.mem_body (List.mem_map_of_mem listed) inside with there | there
  · exact old.content description.plainText there
  · exact new.content description.plainPatched there

theorem Description.applyText (description : Description text patched written) :
    applyText text (shownPlan written) = .ok patched := by
  rcases description.correct with ⟨before, after, old, new, realises⟩
  have plain := description.plainText
  have normal : replaceCrlf ['\n'] text = text := replaceCrlf_eq_self plain.noReturn
  have kind : (endings text).getD .lf = .lf := by
    have known := @endings_replaceLf .lf text plain.noReturn
    rw [replaceLf_lf] at known
    rw [known]
    split <;> rfl
  have described : List.Forall₂ Describes (shownPlan written).hunks
      ((written.map Prod.snd).map (Edit.map Line.text)) := by
    rw [shownPlan, List.map_map, List.forall₂_map_left_iff, List.forall₂_map_right_iff,
      List.forall₂_same]
    exact fun entry _ => describes_shownHunk entry.1 entry.2
  have steps := realises.map Line.text
  rw [← old.keepLines] at steps
  refine (applyText_diff_iff rfl).mpr ⟨plain.noNull, mixedNewlines_eq_false plain.noReturn, _, _,
    described, normal.symm ▸ steps, new.lineList.terminated, ?_⟩
  rw [new.flatten, shownPlan, kind, replaceLf_lf]

theorem startsWith_joinLines (final : Bool) (nonempty : written ≠ []) :
    startsWith ['@', '@'] (joinLines final (renderHunks written)) = true := by
  cases written with
  | nil => exact absurd rfl nonempty
  | cons first rest =>
    rw [renderHunks, List.flatMap_cons, renderHunk, List.cons_append]
    generalize renderBody first.2.body ++ List.flatMap _ rest = others
    cases others with
    | nil => rfl
    | cons next later => rfl

theorem Description.parseDiff (description : Description text patched written)
    (casefold : Text -> Text) (final : Bool) (nonempty : written ≠ []) (path : Text) :
    parseDiff casefold (joinLines final (renderHunks written)) path = .ok (shownPlan written) := by
  have plain := @plain_joinLines final _ description.clean
  rw [PatchEngine.parseDiff, if_pos (startsWith_joinLines final nonempty),
    lines_joinLines description.clean]
  simp only [parseHunks_renderHunks description.counted, diffNewline, hasCrlf_eq_false plain.noReturn]
  rfl

end Described

end PatchEngine
end FixLoop
