import FixLoop.PatchEngine.EnvelopeMeaning

namespace FixLoop
namespace PatchEngine

open Library Edit

/-!
# Update bodies with bare hunks

The hunks of an update stand in the order of the file.  A bare header leaves
it to the core to find the block that the hunk replaces; a numeric one gives
it.  The hunks are followed through the file with a position on either side:
how many lines of the file they have passed, and how many lines stand in their
place.
-/

structure UpdateHunk where
  header : Text
  body : List (Side × Line)

def UpdateHunk.old (hunk : UpdateHunk) : List Line := oldLines hunk.body

def UpdateHunk.new (hunk : UpdateHunk) : List Line := newLines hunk.body

def UpdateHunk.render (hunk : UpdateHunk) : List Text := hunk.header :: renderBody hunk.body

/-- The lines of an update body. -/
def renderUpdate (hunks : List UpdateHunk) : List Text := hunks.flatMap UpdateHunk.render

/-- A header without coordinates. -/
def Bare (header : Text) : Prop :=
  matchHeader header = none ∧ (header = "@@".toList ∨ startsWith "@@ ".toList header = true)

/-- The block stands in the file from this line on. -/
def Stands (file : List Line) (start : Nat) (block : List Line) : Prop :=
  start ≤ file.length ∧ block.IsPrefix (file.drop start)

/-- The hunk replaces the block at `start`, with `i` lines of the file passed
and `j` lines written. -/
structure Locates (file : List Line) (i j : Nat) (hunk : UpdateHunk) (start : Nat) : Prop where
  after : i ≤ start
  stands : Stands file start hunk.old
  header :
    (Bare hunk.header ∧ hunk.old ≠ [] ∧ ∀ other, i ≤ other -> Stands file other hunk.old -> other = start) ∨
      coordinates hunk.header = .ok ⟨start, hunk.old.length, j + (start - i), hunk.new.length⟩

/-- Every hunk of the update has its place. -/
inductive Located (file : List Line) : Nat -> Nat -> List UpdateHunk -> List Nat -> Prop
  | nil {i j : Nat} : Located file i j [] []
  | cons {i j start : Nat} {hunk : UpdateHunk} {hunks : List UpdateHunk} {starts : List Nat}
      (locates : Locates file i j hunk start)
      (later : Located file (start + hunk.old.length) (j + (start - i) + hunk.new.length) hunks starts) :
      Located file i j (hunk :: hunks) (start :: starts)

/-- The file from line `i` on, with the new lines of every hunk for the block
at its place. -/
def spliced (file : List Line) (i : Nat) : List UpdateHunk -> List Nat -> List Line
  | hunk :: hunks, start :: starts =>
    (file.drop i).take (start - i) ++ (hunk.new ++ spliced file (start + hunk.old.length) hunks starts)
  | _, _ => file.drop i

/-- Lines that end in `\n`. -/
def closedLines (contents : List Text) : List Line := contents.map fun content => ⟨content, false⟩

def textOf (ls : List Line) : Text := (ls.map Line.text).flatten

theorem contents_closedLines (contents : List Text) : (closedLines contents).map Line.content = contents := by
  rw [closedLines, List.map_map]
  exact List.map_id contents

/-- A text whose lines all end in `\n`. -/
theorem isText_closed {file : Text} (ends : file = [] ∨ file.getLast? = some '\n') :
    IsText (closedLines (dropLines file)) file := by
  induction file using text_induction with
  | last content single =>
    rcases ends with empty | last
    · rw [empty]
      exact .nil
    · exact absurd (List.mem_of_getLast? last) single
  | line content rest single ih =>
    have whole : content ++ ['\n'] ++ rest = content ++ '\n' :: rest := List.append_assoc ..
    have later : rest = [] ∨ rest.getLast? = some '\n' := by
      cases rest with
      | nil => exact Or.inl rfl
      | cons char rest =>
        refine Or.inr ?_
        rcases ends with impossible | last
        · exact absurd (List.append_eq_nil_iff.mp impossible).2 (List.cons_ne_nil _ _)
        · rwa [List.getLast?_append_cons] at last
    rw [whole, dropLines_cons single, <- whole]
    exact .cons content single (ih later)

/-! ## Written bodies -/

variable {body : List (Side × Line)} {line : Text} {start j : Nat} {block : List Line} {starts : List Nat}
  {edits : List (Edit Line)}

theorem mem_renderBody (member : line ∈ renderBody body) :
    line = noNewlineLine ∨ ∃ side content, line = mark side :: content := by
  rcases List.mem_flatMap.mp member with ⟨entry, _, inside⟩
  rcases List.mem_cons.mp inside with rfl | inside
  · exact Or.inr ⟨entry.1, entry.2.content, rfl⟩
  · split at inside
    · exact Or.inl (List.mem_singleton.mp inside)
    · exact absurd inside List.not_mem_nil

theorem body_no_header (member : line ∈ renderBody body) : startsWith ['@', '@'] line = false := by
  rcases mem_renderBody member with rfl | ⟨side, content, rfl⟩
  · rfl
  · cases side <;> rfl

theorem opensWith_mark (side : Side) (content : Text) :
    opensWith [' ', '-'] (mark side :: content) = side.inOld ∧
      opensWith [' ', '+'] (mark side :: content) = side.inNew := by
  cases side <;> exact ⟨rfl, rfl⟩

theorem renderBody_cons (side : Side) (line : Line) (rest : List (Side × Line)) :
    renderBody ((side, line) :: rest) =
      (mark side :: line.content) :: ((if line.noNewline then [noNewlineLine] else []) ++ renderBody rest) := rfl

/-- What the loop reads off the lines of a body. -/
theorem preimage_renderBody (body : List (Side × Line)) :
    ((renderBody body).filter (opensWith [' ', '-'])).map (List.drop 1) = (oldLines body).map Line.content := by
  induction body with
  | nil => rfl
  | cons entry rest ih =>
    rcases entry with ⟨side, line⟩
    have marker : ((if line.noNewline then [noNewlineLine] else []) : List Text).filter
        (opensWith [' ', '-']) = [] := by
      split <;> rfl
    rw [renderBody_cons, List.filter_cons, (opensWith_mark side line.content).1, List.filter_append, marker,
      List.nil_append]
    cases side with
    | kept | removed =>
      change _ :: (List.filter _ (renderBody rest)).map (List.drop 1) = _ :: (oldLines rest).map _
      rw [ih]
      rfl
    | added => exact ih

theorem postimage_renderBody (body : List (Side × Line)) :
    (renderBody body).countP (opensWith [' ', '+']) = (newLines body).length := by
  induction body with
  | nil => rfl
  | cons entry rest ih =>
    rcases entry with ⟨side, line⟩
    have marker : ((if line.noNewline then [noNewlineLine] else []) : List Text).countP
        (opensWith [' ', '+']) = 0 := by
      split <;> rfl
    rw [renderBody_cons, List.countP_cons, (opensWith_mark side line.content).2, List.countP_append, marker,
      ih, Nat.zero_add]
    cases side <;> rfl

/-- The lines of a body end where the next header stands. -/
theorem split_body {body : List (Side × Line)} {rest : List Text}
    (next : ∀ line, rest.head? = some line -> startsWith ['@', '@'] line = true) :
    (renderBody body ++ rest).takeWhile (fun line => !startsWith ['@', '@'] line) = renderBody body ∧
      (renderBody body ++ rest).dropWhile (fun line => !startsWith ['@', '@'] line) = rest := by
  have inside (line : Text) (member : line ∈ renderBody body) : (!startsWith ['@', '@'] line) = true := by
    rw [body_no_header member]
    rfl
  rw [List.takeWhile_append_of_pos inside, List.dropWhile_append_of_pos inside]
  cases rest with
  | nil => exact ⟨List.append_nil _, rfl⟩
  | cons line rest =>
    have stops : ¬ (!startsWith ['@', '@'] line) = true := by
      rw [next line rfl]
      exact Bool.false_ne_true
    rw [@List.takeWhile_cons_of_neg Text (fun line => !startsWith ['@', '@'] line) _ _ stops,
      @List.dropWhile_cons_of_neg Text (fun line => !startsWith ['@', '@'] line) _ _ stops, List.append_nil]
    exact ⟨rfl, rfl⟩

/-! ## Headers -/

theorem digits_intText (number : Nat) : intText number = Nat.toDigits 10 number := by
  change (toString number).toList = _
  simp

theorem header_shown (start old new : Nat) {written : Int} {newStart : Nat} (place : written = newStart)
    (body : List (Side × Line)) :
    "@@ -".toList ++ intText (start + if old = 0 then 0 else 1) ++ ',' :: intText old ++ " +".toList ++
        intText (written + if new = 0 then 0 else 1) ++ ',' :: intText new ++ " @@".toList =
      (shownHeader plainStyle ⟨start, old, newStart, new, body⟩).render := by
  have minus : "@@ -".toList = ['@', '@', ' ', '-'] := rfl
  have plus : " +".toList = [' ', '+'] := rfl
  have ends : " @@".toList = [' ', '@', '@'] := rfl
  have from_ (position count : Nat) : intText (position + if count = 0 then 0 else 1) =
      Nat.toDigits 10 (if count = 0 then position else position + 1) := by
    rw [<- digits_intText]
    split <;> rfl
  unfold HeaderMatch.render shownHeader plainStyle
  dsimp only
  rw [render_shownRange, render_shownRange, List.append_nil, minus, plus, ends, place, from_, from_,
    digits_intText, digits_intText]
  simp only [List.append_assoc]

variable {contents : List Text} {i : Nat} {hunk : UpdateHunk} {file : List Line} {hunks : List UpdateHunk}

/-- A block of lines that end in `\n` is known by its contents. -/
theorem stands_iff_contents {other : Nat} (stands : Stands (closedLines contents) start block)
    (inside : other ≤ contents.length) :
    Stands (closedLines contents) other block <->
      (contents.drop other).take (block.map Line.content).length = block.map Line.content := by
  have closed : closedLines (block.map Line.content) = block := by
    rw [closedLines, List.map_map]
    conv_rhs => rw [<- List.map_id block]
    refine List.map_congr_left fun line member => ?_
    rcases List.mem_map.mp (List.mem_of_mem_drop (stands.2.subset member)) with ⟨content, _, rfl⟩
    rfl
  rw [eq_comm, <- List.prefix_iff_eq_take]
  constructor
  · intro there
    have mapped := there.2.map Line.content
    rwa [List.map_drop, contents_closedLines] at mapped
  · intro matched
    have mapped := matched.map fun content => (⟨content, false⟩ : Line)
    rw [List.map_drop] at mapped
    change (closedLines (block.map Line.content)).IsPrefix ((closedLines contents).drop other) at mapped
    rw [closed] at mapped
    exact ⟨by rw [closedLines, List.length_map]; exact inside, mapped⟩

theorem eq_singleton_of_nodup {A : Type} {ls : List A} {a : A} (distinct : ls.Nodup) (member : a ∈ ls)
    (only : ∀ b ∈ ls, b = a) : ls = [a] := by
  have repeated : ls = List.replicate ls.length a := List.eq_replicate_iff.mpr ⟨rfl, only⟩
  have short : ls.length ≤ 1 := by
    rw [repeated] at distinct
    exact List.nodup_replicate.mp distinct
  have filled : 0 < ls.length := List.length_pos_of_mem member
  have one : ls.length = 1 := by omega
  rw [repeated, one]
  rfl

/-- The search finds the only place of the block. -/
theorem matchesFrom_unique (after : i ≤ start) (stands : Stands (closedLines contents) start block)
    (nonempty : block ≠ [])
    (only : ∀ other, i ≤ other -> Stands (closedLines contents) other block -> other = start) :
    matchesFrom contents i (block.map Line.content) = [start] := by
  have length : (closedLines contents).length = contents.length := List.length_map ..
  have filled : 0 < block.length := List.length_pos_iff.mpr nonempty
  have fits : start + block.length ≤ contents.length := by
    have within := stands.2.length_le
    rw [List.length_drop, length] at within
    omega
  unfold matchesFrom
  apply eq_singleton_of_nodup
  · exact List.Nodup.filter _ List.nodup_range'
  · rw [List.mem_filter, List.mem_range'_1, decide_eq_true_eq, List.length_map]
    refine ⟨⟨after, by omega⟩, ?_⟩
    rw [<- List.length_map Line.content]
    exact (stands_iff_contents stands (by omega)).mp stands
  · intro other member
    rw [List.mem_filter, List.mem_range'_1, decide_eq_true_eq, List.length_map] at member
    rcases member with ⟨⟨from_, below⟩, matched⟩
    refine only other from_ ((stands_iff_contents stands (by omega)).mpr ?_)
    rw [List.length_map]
    exact matched

theorem startsWith_render (found : HeaderMatch) : startsWith ['@', '@'] found.render = true := rfl

/-- The loop writes a header with the coordinates of the hunk. -/
theorem resolveHeader_locates {delta : Int} (locates : Locates (closedLines contents) i j hunk start)
    (offset : (j : Int) = i + delta) :
    ∃ header, resolveHeader contents i delta hunk.header (renderBody hunk.body) =
          .ok (header, start, hunk.old.length, hunk.new.length) ∧
        coordinates header = .ok ⟨start, hunk.old.length, j + (start - i), hunk.new.length⟩ ∧
        startsWith ['@', '@'] header = true ∧ (SingleLine hunk.header -> Clean header) := by
  have after := locates.after
  rcases locates.header with ⟨bare, nonempty, only⟩ | placed
  · have place : (start : Int) + delta = ((j + (start - i) : Nat) : Int) := by omega
    have known : ¬ (hunk.header ≠ "@@".toList ∧ startsWith "@@ ".toList hunk.header = false) := by
      rintro ⟨other, unopened⟩
      rcases bare.2 with same | opens
      · exact other same
      · exact Bool.false_ne_true (unopened.symm.trans opens)
    have filled : ((renderBody hunk.body).filter (opensWith [' ', '-'])).map (List.drop 1) ≠ [] := by
      rw [preimage_renderBody]
      exact fun empty => nonempty (List.map_eq_nil_iff.mp empty)
    have shown := header_shown start hunk.old.length hunk.new.length place hunk.body
    refine ⟨_, ?_, coordinates_shownHeader plainStyle
      ⟨start, hunk.old.length, j + (start - i), hunk.new.length, hunk.body⟩,
      startsWith_render _, fun _ => clean_header plainStyle _⟩
    unfold resolveHeader
    rw [bare.1, if_neg (by exact Bool.false_ne_true), if_neg known]
    dsimp only
    have found : matchesFrom contents i ((oldLines hunk.body).map Line.content) = [start] :=
      matchesFrom_unique after locates.stands nonempty only
    rw [if_neg filled, preimage_renderBody, found]
    dsimp only
    rw [postimage_renderBody, List.length_map]
    exact congrArg (fun header => Except.ok (header, start, hunk.old.length, hunk.new.length)) shown
  · have found : ∃ found, matchHeader hunk.header = some found := by
      cases matched : matchHeader hunk.header with
      | none => rw [coordinates, matched] at placed; cases placed
      | some found => exact ⟨found, rfl⟩
    rcases found with ⟨found, matched⟩
    have shape := (matchHeader_some matched).2
    refine ⟨hunk.header, ?_, placed, by rw [shape]; rfl, ?_⟩
    · rw [resolveHeader, if_pos (by rw [matched]; rfl), placed]
    · intro single
      refine ⟨?_, single⟩
      rw [shape]
      exact List.cons_ne_nil _ _

theorem Locates.opens (locates : Locates file i j hunk start) : startsWith ['@', '@'] hunk.header = true := by
  rcases locates.header with ⟨⟨_, same | opens⟩, _⟩ | placed
  · rw [same]
    rfl
  · rcases List.isPrefixOf_iff_prefix.mp opens with ⟨rest, same⟩
    rw [<- same]
    rfl
  · unfold coordinates at placed
    split at placed
    · cases placed
    · rename_i found matched
      rw [(matchHeader_some matched).2]
      rfl

/-! ## The whole body -/

/-- The hunk carries the edit. -/
structure Carries (hunk : UpdateHunk) (edit : Edit Line) : Prop where
  position : coordinates hunk.header = .ok ⟨edit.oldStart, edit.oldCount, edit.newStart, edit.newCount⟩
  body : edit.body = hunk.body
  opens : startsWith ['@', '@'] hunk.header = true

theorem Located.head (located : Located file i j hunks starts)
    (first : (renderUpdate hunks).head? = some line) : startsWith ['@', '@'] line = true := by
  cases located with
  | nil => cases first
  | cons locates later =>
    cases first
    exact locates.opens

/-- A file up to the block of a hunk, the block, and the rest. -/
theorem Locates.split (locates : Locates file i j hunk start) :
    ((file.drop i).take (start - i)).length = start - i ∧
      file.drop i = (file.drop i).take (start - i) ++ (hunk.old ++ file.drop (start + hunk.old.length)) := by
  have after := locates.after
  have inside := locates.stands.1
  have place : i + (start - i) = start := by omega
  have block : file.drop start = hunk.old ++ file.drop (start + hunk.old.length) := by
    rcases locates.stands.2 with ⟨rest, same⟩
    rw [<- List.drop_drop, <- same, List.drop_left]
  constructor
  · rw [List.length_take, List.length_drop]
    omega
  · conv_lhs => rw [<- List.take_append_drop (start - i) (file.drop i), List.drop_drop, place, block]

/-- The loop writes every hunk with its coordinates, and the hunks are edits
that splice the new lines in. -/
theorem normalizeHunks_located (located : Located (closedLines contents) i j hunks starts) (delta : Int)
    (offset : (j : Int) = i + delta) (single : ∀ hunk ∈ hunks, SingleLine hunk.header) :
    ∃ resolved edits,
      normalizeHunks contents i delta (renderUpdate hunks) = .ok (renderUpdate resolved) ∧
        resolved.map UpdateHunk.body = hunks.map UpdateHunk.body ∧
        (∀ hunk ∈ resolved, Clean hunk.header) ∧
        List.Forall₂ Carries resolved edits ∧
        Realises i j edits ((closedLines contents).drop i) (spliced (closedLines contents) i hunks starts) := by
  induction located generalizing delta with
  | nil =>
    refine ⟨[], [], ?_, rfl, fun _ member => absurd member List.not_mem_nil, .nil, .done _ _ _⟩
    rw [renderUpdate, List.flatMap_nil, normalizeHunks]
  | @cons i j start hunk hunks starts locates later ih =>
    have after := locates.after
    rcases resolveHeader_locates locates offset with ⟨header, resolve, position, opens, clean⟩
    rcases ih (delta + hunk.new.length - hunk.old.length) (by push_cast; omega)
      (fun hunk member => single hunk (List.mem_cons_of_mem _ member)) with
      ⟨resolved, edits, normalized, bodies, cleans, carried, realises⟩
    have lines : renderUpdate (hunk :: hunks) = hunk.header :: (renderBody hunk.body ++ renderUpdate hunks) := rfl
    have parts := @split_body hunk.body (renderUpdate hunks) fun line first => later.head first
    have split := locates.split
    refine ⟨⟨header, hunk.body⟩ :: resolved,
      ⟨start, hunk.old.length, j + (start - i), hunk.new.length, hunk.body⟩ :: edits, ?_, ?_, ?_,
      .cons ⟨position, rfl, opens⟩ carried, ?_⟩
    · rw [lines, normalizeHunks]
      simp only [parts.1, parts.2, resolve, normalized]
      rfl
    · rw [List.map_cons, List.map_cons, bodies]
    · intro other member
      rcases List.mem_cons.mp member with rfl | member
      · exact clean (single hunk List.mem_cons_self)
      · exact cleans other member
    · rw [split.2]
      refine .edit _ ?_ ?_ rfl rfl realises
      · rw [split.1]
        change start = i + (start - i)
        omega
      · rw [split.1]

/-- The hunk as it is read back. -/
def UpdateHunk.parsed (hunk : UpdateHunk) : PatchHunk :=
  { header := hunk.header, lines := hunk.body.map (fun entry => (entry.1, entry.2.content)),
    noNewline := markersFrom ∅ 0 hunk.body }

theorem Carries.describes {edit : Edit Line} (carries : Carries hunk edit) :
    Describes hunk.parsed (edit.map Line.text) := by
  refine ⟨carries.position, ?_⟩
  rw [<- body_shownHunk plainStyle edit, shownHunk, carries.body]
  rfl

theorem unmarked_renderUpdate (carried : List.Forall₂ Carries hunks edits) :
    Unmarked (renderUpdate hunks) := by
  cases carried with
  | nil => exact fun impossible => by cases impossible
  | cons carries later =>
    intro impossible
    have same := Option.some.inj impossible
    have opens := carries.opens
    rw [same] at opens
    cases opens

theorem parseHunks_renderUpdate (carried : List.Forall₂ Carries hunks edits)
    (counted : ∀ edit ∈ edits, Counted edit) :
    parseHunks (renderUpdate hunks) = .ok (hunks.map UpdateHunk.parsed, []) := by
  induction carried with
  | nil =>
    rw [renderUpdate, List.flatMap_nil, parseHunks]
    rfl
  | @cons hunk edit hunks edits carries later ih =>
    have rest := ih fun edit member => counted edit (List.mem_cons_of_mem _ member)
    rcases counted edit List.mem_cons_self with ⟨oldCount, newCount⟩
    rw [carries.body] at oldCount newCount
    have body := @parseBody_renderBody hunk.body (renderUpdate hunks) (unmarked_renderUpdate later)
      BodyState.start
    simp only [BodyState.start, Nat.zero_add, List.nil_append, List.length_nil, <- oldCount,
      <- newCount] at body
    exact parseHunks_cons carries.opens carries.position body rest

theorem terminated_text {ls : List Line} (marked : ∀ line ∈ ls.dropLast, line.noNewline = false) :
    terminated (ls.map Line.text) = true := by
  rw [terminated, <- List.map_dropLast, List.all_map, List.all_eq_true]
  intro line member
  simp [Line.text, marked line member]

/-- An update whose hunks all have their place in the file is resolved to a
diff that is parsed, and the applier splices the new lines of every hunk in. -/
theorem update_splices (casefold : Text -> Text) (file diff : Text) (hunks : List UpdateHunk) (starts : List Nat)
    (plain : Plain file) (ends : file = [] ∨ file.getLast? = some '\n') (nonempty : hunks ≠ [])
    (written : lines diff false = .ok (renderUpdate hunks))
    (located : Located (closedLines (dropLines file)) 0 0 hunks starts)
    (marked : ∀ line ∈ (spliced (closedLines (dropLines file)) 0 hunks starts).dropLast,
      line.noNewline = false) :
    let result := textOf (spliced (closedLines (dropLines file)) 0 hunks starts)
    ∃ normalized plan, normalizeHunkHeaders diff file = .ok normalized ∧
        parsePatchInput casefold (diffArgs normalized [] .null .null) = .ok plan ∧
        applyText file plan = .ok result ∧
        ∀ sources op, op.action = .update -> op.diff = diff -> op.plan = none ->
          sources op.path = some (some file) ->
            applyOperations casefold sources [op] = .ok [(op.path, some result)] := by
  intro result
  have single (hunk : UpdateHunk) (member : hunk ∈ hunks) : SingleLine hunk.header :=
    singleLine_of_lines written (List.mem_flatMap.mpr ⟨hunk, member, List.mem_cons_self⟩)
  rcases normalizeHunks_located located 0 rfl single with
    ⟨resolved, edits, normalized, bodies, cleans, carried, realises⟩
  have clean (line : Text) (member : line ∈ renderUpdate resolved) : Clean line := by
    rcases List.mem_flatMap.mp member with ⟨hunk, listed, inside⟩
    rcases List.mem_cons.mp inside with rfl | inside
    · exact cleans hunk listed
    · have body : hunk.body ∈ hunks.map UpdateHunk.body := bodies ▸ List.mem_map_of_mem listed
      rcases List.mem_map.mp body with ⟨origin, given, same⟩
      rw [<- same] at inside
      refine ⟨?_, singleLine_of_lines written
        (List.mem_flatMap.mpr ⟨origin, given, List.mem_cons_of_mem _ inside⟩)⟩
      rcases mem_renderBody inside with rfl | ⟨side, content, rfl⟩
      · exact clean_noNewlineLine.1
      · exact List.cons_ne_nil _ _
  have filled : renderUpdate resolved ≠ [] := by
    intro empty
    cases resolved with
    | nil => exact nonempty (List.map_eq_nil_iff.mp bodies.symm)
    | cons hunk rest => exact List.cons_ne_nil _ _ empty
  have opened : startsWith ['@', '@'] (joinLines true (renderUpdate resolved)) = true := by
    cases carried with
    | nil => exact absurd rfl filled
    | @cons hunk _ rest _ carries later =>
      rcases List.isPrefixOf_iff_prefix.mp carries.opens with ⟨tail, same⟩
      change startsWith _ (joinLines true (hunk.header :: (renderBody hunk.body ++ renderUpdate rest))) = true
      rw [<- same]
      generalize renderBody hunk.body ++ renderUpdate rest = others
      cases others <;> rfl
  have first : (renderUpdate hunks).head?.any (startsWith ['@', '@']) = true := by
    cases located with
    | nil => exact absurd rfl nonempty
    | cons locates later => exact locates.opens
  have normal : normalizeHunkHeaders diff file = .ok (joinLines true (renderUpdate resolved)) := by
    unfold normalizeHunkHeaders
    rw [written]
    dsimp only
    rw [first, lines_plain plain, joinLines_true filled]
    simp only [Bool.not_true, Bool.false_eq_true, if_false]
    rw [normalized]
  have parsed : parsePatchInput casefold (diffArgs (joinLines true (renderUpdate resolved)) [] .null .null) =
      .ok ⟨.diff, resolved.map UpdateHunk.parsed, [], [], .lf⟩ := by
    refine parsePatchInput_diffArgs (joinLines_ne_nil clean filled) ?_ .null .null
    rw [parseDiff, if_pos opened, lines_joinLines clean]
    simp only [parseHunks_renderUpdate carried (fun edit member => counted_of_realises realises member),
      diffNewline, hasCrlf_eq_false (plain_joinLines clean).noReturn]
    rfl
  have applied : applyText file ⟨.diff, resolved.map UpdateHunk.parsed, [], [], .lf⟩ = .ok result := by
    have described : List.Forall₂ Describes (resolved.map UpdateHunk.parsed) (edits.map (Edit.map Line.text)) := by
      rw [List.forall₂_map_left_iff, List.forall₂_map_right_iff]
      exact carried.imp fun _ _ carries => carries.describes
    have steps := realises.map Line.text
    rw [List.drop_zero, <- (isText_closed ends).keepLines] at steps
    have kind : (endings file).getD .lf = .lf := by
      have known := @endings_replaceLf .lf file plain.noReturn
      rw [replaceLf_lf] at known
      rw [known]
      split <;> rfl
    refine (applyText_diff_iff rfl).mpr ⟨plain.noNull, mixedNewlines_eq_false plain.noReturn, _, _, described,
      (replaceCrlf_eq_self plain.noReturn).symm ▸ steps, terminated_text marked, ?_⟩
    rw [kind, replaceLf_lf]
    rfl
  refine ⟨_, _, normal, parsed, applied, ?_⟩
  intro sources op action given bare known
  have planned : operationPlan casefold (some file) op =
      .ok ⟨.diff, resolved.map UpdateHunk.parsed, [], [], .lf⟩ := by
    unfold operationPlan
    rw [bare, action, given]
    change updatePlan casefold diff file = _
    rw [updatePlan, normal]
    exact parsed
  have taken := @applyFilePatch_known casefold sources op.path .update
    ⟨.diff, resolved.map UpdateHunk.parsed, [], [], .lf⟩ (some file) known
    ⟨(fun impossible => by cases impossible), (fun impossible => by cases impossible)⟩ result applied
    (fun impossible => by cases impossible)
  have patch := @operationPatch_planned casefold sources op (some file) _ known planned
  rw [action] at patch
  have files : [op].mapM (operationPatch casefold sources) =
      .ok [⟨op.path, .update, ⟨.diff, resolved.map UpdateHunk.parsed, [], [], .lf⟩⟩] :=
    Fallible.mapM_ok_iff.mpr (.cons patch .nil)
  rw [applyOperations, files]
  simp only [applyFilePatches, taken]
  rfl

/-- A bare hunk, a bare one that only removes, and a numeric one that only
adds. -/
theorem update_splices_mixed :
    let diff := "@@\n a\n-b\n+c\n+d\n@@ next\n-a\n@@ -4,0 +5,1 @@\n+e".toList
    ∃ normalized plan, normalizeHunkHeaders diff "a\nb\na\nc\n".toList = .ok normalized ∧
        parsePatchInput id (diffArgs normalized [] .null .null) = .ok plan ∧
        applyText "a\nb\na\nc\n".toList plan = .ok "a\nc\nd\nc\ne\n".toList := by
  intro diff
  let change : UpdateHunk := ⟨"@@".toList, [(.kept, ⟨['a'], false⟩), (.removed, ⟨['b'], false⟩),
    (.added, ⟨['c'], false⟩), (.added, ⟨['d'], false⟩)]⟩
  let removal : UpdateHunk := ⟨"@@ next".toList, [(.removed, ⟨['a'], false⟩)]⟩
  let addition : UpdateHunk := ⟨"@@ -4,0 +5,1 @@".toList, [(.added, ⟨['e'], false⟩)]⟩
  have changes : Locates (closedLines [['a'], ['b'], ['a'], ['c']]) 0 0 change 0 := by
    refine ⟨Nat.le_refl 0, ⟨Nat.zero_le _, _, rfl⟩, Or.inl ⟨⟨rfl, Or.inl rfl⟩, List.cons_ne_nil _ _, ?_⟩⟩
    rintro other _ ⟨inside, rest, same⟩
    have bound : other ≤ 4 := inside
    have cases_ : other = 0 ∨ other = 1 ∨ other = 2 ∨ other = 3 ∨ other = 4 := by omega
    rcases cases_ with rfl | rfl | rfl | rfl | rfl
    · rfl
    all_goals cases same
  have removes : Locates (closedLines [['a'], ['b'], ['a'], ['c']]) 2 3 removal 2 := by
    refine ⟨Nat.le_refl 2, ⟨by decide, _, rfl⟩, Or.inl ⟨⟨rfl, Or.inr rfl⟩, List.cons_ne_nil _ _, ?_⟩⟩
    rintro other after ⟨inside, rest, same⟩
    have bound : other ≤ 4 := inside
    have cases_ : other = 2 ∨ other = 3 ∨ other = 4 := by omega
    rcases cases_ with rfl | rfl | rfl
    · rfl
    all_goals cases same
  have adds : Locates (closedLines [['a'], ['b'], ['a'], ['c']]) 3 3 addition 4 :=
    ⟨by decide, ⟨by decide, _, rfl⟩, Or.inr rfl⟩
  rcases update_splices id "a\nb\na\nc\n".toList diff [change, removal, addition] [0, 2, 4]
    ⟨by decide, by decide⟩ (Or.inr rfl) (List.cons_ne_nil _ _) rfl
    (.cons changes (.cons removes (.cons adds .nil))) (by decide) with ⟨normalized, plan, normal, parsed, applied, _⟩
  exact ⟨normalized, plan, normal, parsed, applied⟩

end PatchEngine
end FixLoop
