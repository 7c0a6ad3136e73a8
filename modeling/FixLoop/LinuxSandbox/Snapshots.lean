import FixLoop.LinuxSandbox.Inventory

namespace FixLoop
namespace LinuxSandbox

open Library
open EditLock (Text Lettering relativePath oneOf relativePath_same relativePath_empty)

/-!
# Complete snapshots

The worker cuts the sorted files into pages, and the host follows its cursors
to the end, unless it refuses a page on the way.
-/

section Pages

set_option linter.unusedSectionVars false

variable {Digest : Type} [DecidableEq Digest] [Digests Digest] [Lettering]

/-! ## Inventories -/

theorem inventoryFile_ok {listed after : Versions Digest × Nat} {file : File}
    (listing : inventoryFile listed file = .ok after) :
    relativePath file.path ≠ none ∧
      after.1 = Keyed.store Prod.fst (file.path, Digests.sha256 file.content) listed.1 := by
  unfold inventoryFile at listing
  split at listing
  · cases listing
  · next valid =>
      split at listing
      · cases listing
      · split at listing
        · cases listing
        · rw [<- Except.ok.inj listing]
          exact ⟨valid, rfl⟩

/-- The versions that files add. -/
def versionsOf (files : List File) : Versions Digest :=
  files.map fun file => (file.path, Digests.sha256 file.content)

theorem keys_versionsOf (files : List File) :
    (versionsOf files : Versions Digest).map Prod.fst = files.map File.path := by
  rw [versionsOf, List.map_map]
  rfl

theorem inventoryFiles_ok {files before : List File} {listed after : Versions Digest × Nat}
    (listing : files.foldlM inventoryFile listed = .ok after) (known : listed.1 = versionsOf before)
    (distinct : ((before ++ files).map File.path).Nodup) :
    after.1 = versionsOf (before ++ files) ∧ ∀ file ∈ files, relativePath file.path ≠ none := by
  induction files generalizing before listed with
  | nil =>
    rw [List.append_nil, <- known, <- Except.ok.inj listing]
    exact ⟨rfl, fun _ nothing => (List.not_mem_nil nothing).elim⟩
  | cons file rest ih =>
    rw [List.foldlM_cons] at listing
    rcases Fallible.bind_ok listing with ⟨middle, first, later⟩
    rcases inventoryFile_ok first with ⟨valid, stored⟩
    have missing : Keyed.find? Prod.fst file.path (versionsOf before : Versions Digest) = none := by
      refine Keyed.find?_none.mpr fun entry member same => ?_
      rw [List.map_append, List.map_cons] at distinct
      have listed := List.mem_map_of_mem (f := Prod.fst) member
      rw [keys_versionsOf] at listed
      exact List.disjoint_of_nodup_append distinct listed (same ▸ List.mem_cons_self)
    have known' : middle.1 = versionsOf (before ++ [file]) := by
      rw [stored, known, @Keyed.store_of_missing _ _ _ Prod.fst (file.path, Digests.sha256 file.content) _ missing,
        versionsOf, versionsOf, List.map_append]
      rfl
    have split : before ++ file :: rest = (before ++ [file]) ++ rest := by
      rw [List.append_assoc, List.singleton_append]
    rw [split] at distinct ⊢
    rcases ih later known' distinct with ⟨all, others⟩
    exact ⟨all, fun other member => (List.mem_cons.mp member).elim (fun same => same ▸ valid) (others other)⟩

theorem inventoryListings_ok {walk : List Listing} {before : List File} {listed after : Versions Digest × Nat}
    (listing : walk.foldlM inventoryListing listed = .ok after) (known : listed.1 = versionsOf before)
    (distinct : ((before ++ walk.flatMap Listing.files).map File.path).Nodup) :
    after.1 = versionsOf (before ++ walk.flatMap Listing.files) ∧
      ∀ file ∈ walk.flatMap Listing.files, relativePath file.path ≠ none := by
  induction walk generalizing before listed with
  | nil =>
    rw [List.flatMap_nil, List.append_nil, <- known, <- Except.ok.inj listing]
    exact ⟨rfl, fun _ nothing => (List.not_mem_nil nothing).elim⟩
  | cons head rest ih =>
    rw [List.foldlM_cons] at listing
    rcases Fallible.bind_ok listing with ⟨middle, first, later⟩
    unfold inventoryListing at first
    split at first
    · cases first
    · rw [List.flatMap_cons, <- List.append_assoc] at distinct ⊢
      have part : ((before ++ head.files).map File.path).Nodup := by
        rw [List.map_append] at distinct
        exact (List.nodup_append.mp distinct).1
      rcases inventoryFiles_ok first known part with ⟨known', valid⟩
      rcases ih later known' distinct with ⟨all, others⟩
      exact ⟨all, fun file member => (List.mem_append.mp member).elim (valid file) (others file)⟩

variable {workspace : Workspace} {versions : Versions Digest} {paths : List Text} {cursor : Text}
  {page : Page Digest}

/-- An inventory lists every file with its version, and accepts every path. -/
theorem inventory_ok (listed : inventory workspace = .ok versions) :
    versions = versionsOf workspace.files ∧
      ∀ file ∈ workspace.files, relativePath file.path ≠ none := by
  rcases Fallible.map_ok listed with ⟨after, walked, rfl⟩
  exact @inventoryListings_ok Digest _ _ _ workspace.walk [] ([], 0) after walked rfl workspace.distinct

/-! ## One page -/

/-- The file of this path, if it is UTF-8. -/
def textOf (workspace : Workspace) (path : Text) : Option (Text × String) :=
  (workspace.read path).bind fun data => (String.fromUTF8? data).map fun text => (path, text)

def texts (workspace : Workspace) (paths : List Text) : List (Text × String) := paths.filterMap (textOf workspace)

theorem texts_append (workspace : Workspace) (first second : List Text) :
    texts workspace (first ++ second) = texts workspace first ++ texts workspace second := List.filterMap_append

/-- The file is there, with its version and within the bounds of a page. -/
def Served (workspace : Workspace) (versions : Versions Digest) (path : Text) : Prop :=
  ∃ data, workspace.read path = some data ∧ data.size ≤ MAX_SOURCE_BYTES ∧
    (Keyed.find? Prod.fst path versions).map Prod.snd = some (Digests.sha256 data) ∧
    ∀ text, String.fromUTF8? data = some text -> entryWidth (path, text) ≤ 600000

/-- The page holds the files it began with and the texts of the first paths, and tells the last of these. -/
structure Filled (workspace : Workspace) (version : Digest) (files : List (Text × String)) (cursor : Text)
    (first later : List Text) (page : Page Digest) : Prop where
  files : page.files = files ++ texts workspace first
  cursor : page.cursor = first.getLast?.getD cursor
  version : page.version = version
  complete : page.complete = true <-> later = []
  nonempty : page.complete = false -> page.files ≠ []
  count : page.files.length ≤ 128
  width : (page.files.map entryWidth).sum ≤ 600000

theorem Filled.cons {workspace : Workspace} {version : Digest} {files : List (Text × String)} {path : Text}
    {cursor : Text} {first later : List Text} {page : Page Digest} {added : List (Text × String)}
    (filled : Filled workspace version (files ++ added) path first later page)
    (here : (textOf workspace path).toList = added) : Filled workspace version files cursor (path :: first) later page where
  files := by
    rw [filled.files, List.append_assoc, <- here, texts, texts, List.filterMap_cons]
    cases textOf workspace path with
    | none => rfl
    | some entry => rfl
  cursor := by rw [filled.cursor, List.getLast?_cons, Option.getD_some]
  version := filled.version
  complete := filled.complete
  nonempty := filled.nonempty
  count := filled.count
  width := filled.width

theorem fillPage_filled (version : Digest)
    (served : ∀ path ∈ paths, Served workspace versions path) (files : List (Text × String))
    (cursor : Text) (count : files.length ≤ 128) (width : (files.map entryWidth).sum ≤ 600000) :
    ∃ page first later, paths = first ++ later ∧
      fillPage workspace versions version files (files.map entryWidth).sum cursor paths = .ok page ∧
      Filled workspace version files cursor first later page := by
  induction paths generalizing files cursor with
  | nil =>
    refine ⟨⟨files, version, cursor, true⟩, [], [], rfl, rfl, (List.append_nil files).symm, rfl, rfl, ?_, ?_, count, width⟩
    · exact ⟨fun _ => rfl, fun _ => rfl⟩
    · exact fun incomplete => by cases incomplete
  | cons path rest ih =>
    rcases served path List.mem_cons_self with ⟨data, read, size, known, fits⟩
    have others : ∀ other ∈ rest, Served workspace versions other :=
      fun other member => served other (List.mem_cons_of_mem path member)
    rw [fillPage, read]
    dsimp only
    rw [if_neg (not_lt.mpr size), if_neg (not_not.mpr known)]
    cases decoded : String.fromUTF8? data with
    | none =>
      have here : (textOf workspace path).toList = [] := by
        rw [textOf, read, Option.bind_some, decoded]
        rfl
      rcases ih others files path count width with ⟨page, first, later, parts, ran, filled⟩
      rw [<- List.append_nil files] at filled
      exact ⟨page, path :: first, later, by rw [parts, List.cons_append], ran, filled.cons here⟩
    | some text =>
      have here : (textOf workspace path).toList = [(path, text)] := by
        rw [textOf, read, Option.bind_some, decoded]
        rfl
      dsimp only
      rw [if_neg (not_lt.mpr (fits text decoded))]
      by_cases full : files ≠ [] ∧ (600000 < (files.map entryWidth).sum + entryWidth (path, text) ∨ 128 ≤ files.length)
      · rw [if_pos full]
        refine ⟨⟨files, version, cursor, false⟩, [], path :: rest, rfl, rfl, (List.append_nil files).symm, rfl, rfl,
          ?_, fun _ => full.1, count, width⟩
        exact ⟨fun complete => (by cases complete), fun nothing => (by cases nothing)⟩
      · rw [if_neg full]
        have sum : ((files ++ [(path, text)]).map entryWidth).sum =
            (files.map entryWidth).sum + entryWidth (path, text) := by
          rw [List.map_append, List.sum_append, List.map_singleton, List.sum_singleton]
        have room : files.length < 128 ∧ (files.map entryWidth).sum + entryWidth (path, text) ≤ 600000 := by
          by_cases empty : files = []
          · rw [empty]
            exact ⟨by decide, by simpa using fits text decoded⟩
          · rw [not_and_or, not_or, not_lt, not_le] at full
            have free := full.resolve_left (not_not.mpr empty)
            exact ⟨free.2, free.1⟩
        rcases ih others (files ++ [(path, text)]) path (by rw [List.length_append]; exact room.1)
          (by rw [sum]; exact room.2) with ⟨page, first, later, parts, ran, filled⟩
        rw [sum] at ran
        exact ⟨page, path :: first, later, by rw [parts, List.cons_append], ran, filled.cons here⟩

/-! ## Sorted paths -/

structure Snapshottable (workspace : Workspace) (versions : Versions Digest) : Prop where
  listed : inventory workspace = .ok versions
  small : ∀ file ∈ workspace.files, file.content.size ≤ MAX_SOURCE_BYTES
  entries : ∀ file ∈ workspace.files, ∀ text, String.fromUTF8? file.content = some text ->
    entryWidth (file.path, text) ≤ 600000

namespace Snapshottable

variable {workspace : Workspace} {versions : Versions Digest}

theorem keys (able : Snapshottable workspace versions) : versions.map Prod.fst = workspace.files.map File.path := by
  rw [(inventory_ok able.listed).1, keys_versionsOf]

theorem distinct (able : Snapshottable workspace versions) : Keyed.Distinct Prod.fst versions := by
  rw [Keyed.Distinct, able.keys]
  exact workspace.distinct

variable {path : Text}

theorem accepted (able : Snapshottable workspace versions) (member : path ∈ versions.map Prod.fst) :
    relativePath path ≠ none := by
  rw [able.keys] at member
  rcases List.mem_map.mp member with ⟨file, listed, rfl⟩
  exact (inventory_ok able.listed).2 file listed

theorem served (able : Snapshottable workspace versions) (member : path ∈ versions.map Prod.fst) :
    Served workspace versions path := by
  rw [able.keys] at member
  rcases List.mem_map.mp member with ⟨file, listed, rfl⟩
  have found : Keyed.find? File.path file.path workspace.files = some file :=
    Keyed.find?_of_mem workspace.distinct listed
  have version : (file.path, Digests.sha256 file.content) ∈ versions := by
    rw [(inventory_ok able.listed).1]
    exact List.mem_map_of_mem listed
  have known := Keyed.find?_of_mem able.distinct version
  refine ⟨file.content, ?_, able.small file listed, ?_, able.entries file listed⟩
  · rw [Workspace.read, found, Option.map_some]
  · exact congrArg (Option.map Prod.snd) known

theorem mem_pathsAfter {cursor : Text} :
    path ∈ pathsAfter cursor versions <-> path ∈ versions.map Prod.fst ∧ cursor < path := by
  rw [pathsAfter, List.mem_insertionSort, List.mem_filter, decide_eq_true_eq]

theorem nodup_pathsAfter (able : Snapshottable workspace versions) (cursor : Text) :
    (pathsAfter cursor versions).Nodup :=
  (List.perm_insertionSort _ _).nodup_iff.mpr (able.distinct.filter _)

theorem sorted_pathsAfter (able : Snapshottable workspace versions) (cursor : Text) :
    (pathsAfter cursor versions).Pairwise (fun first second => first < second) := by
  have sorted : (pathsAfter cursor versions).Pairwise (fun first second => first ≤ second) :=
    List.pairwise_insertionSort _ _
  refine (sorted.and (able.nodup_pathsAfter cursor)).imp fun both => lt_of_le_of_ne both.1 both.2

/-- All paths come after the empty cursor. -/
theorem empty_lt (able : Snapshottable workspace versions) (member : path ∈ versions.map Prod.fst) :
    ([] : Text) < path := by
  cases path with
  | nil => exact absurd relativePath_empty (able.accepted member)
  | cons char rest => exact List.nil_lt_cons char rest

theorem pathsAfter_split (able : Snapshottable workspace versions) {before after : List Text}
    (parts : pathsAfter [] versions = before ++ after) :
    pathsAfter (before.getLast?.getD []) versions = after := by
  have sorted := able.sorted_pathsAfter []
  rw [parts, List.pairwise_append] at sorted
  have members : ∀ path, path ∈ pathsAfter (before.getLast?.getD []) versions <-> path ∈ after := by
    intro path
    rw [mem_pathsAfter]
    have all : path ∈ versions.map Prod.fst <-> path ∈ before ++ after := by
      rw [<- parts, mem_pathsAfter]
      exact ⟨fun member => ⟨member, able.empty_lt member⟩, fun both => both.1⟩
    rw [all, List.mem_append]
    rcases List.eq_nil_or_concat before with rfl | ⟨earlier, last, rfl⟩
    · refine ⟨fun both => both.1.resolve_left List.not_mem_nil, fun member => ⟨.inr member, ?_⟩⟩
      exact able.empty_lt (all.mpr (List.mem_append_right [] member))
    · rw [List.concat_eq_append, List.getLast?_concat, Option.getD_some]
      rw [List.concat_eq_append] at sorted
      have last_member : last ∈ earlier ++ [last] := List.mem_append_right earlier List.mem_cons_self
      refine ⟨fun both => both.1.resolve_left (fun early => ?_), fun member =>
        ⟨.inr member, sorted.2.2 last last_member path member⟩⟩
      rcases List.mem_append.mp early with earlier_member | same
      · exact lt_asymm both.2 ((List.pairwise_append.mp sorted.1).2.2 path earlier_member last List.mem_cons_self)
      · rw [List.mem_singleton.mp same] at both
        exact lt_irrefl last both.2
  have perm : (pathsAfter (before.getLast?.getD []) versions).Perm after :=
    (List.perm_ext_iff_of_nodup (able.nodup_pathsAfter _)
      (sorted.2.1.imp fun less => ne_of_lt less)).mpr members
  refine perm.eq_of_pairwise (fun first second _ _ less more => absurd (lt_trans less more) (lt_irrefl first))
    (able.sorted_pathsAfter _) sorted.2.1

theorem mem_split {before after : List Text} (parts : pathsAfter [] versions = before ++ after)
    (member : path ∈ before ++ after) : path ∈ versions.map Prod.fst := by
  rw [<- parts, mem_pathsAfter] at member
  exact member.1

theorem snapshotPage_after (able : Snapshottable workspace versions) {before after : List Text}
    (parts : pathsAfter [] versions = before ++ after) {asked : Option Digest}
    (current : asked.getD (Digests.contentVersion versions) = Digests.contentVersion versions) :
    snapshotPage workspace (before.getLast?.getD []) asked =
      fillPage workspace versions (Digests.contentVersion versions) [] 0 [] after := by
  have valid : ¬ (before.getLast?.getD [] ≠ [] ∧ relativePath (before.getLast?.getD []) = none) := by
    rintro ⟨nonempty, refused⟩
    cases last : before.getLast? with
    | none =>
      rw [last] at nonempty
      exact nonempty rfl
    | some path =>
      rw [last] at refused
      exact able.accepted (mem_split parts (List.mem_append_left after (List.mem_of_getLast? last))) refused
  rw [snapshotPage, if_neg valid, able.listed]
  show (if asked.getD (Digests.contentVersion versions) ≠ Digests.contentVersion versions then _ else _) = _
  rw [if_neg (not_not.mpr current), able.pathsAfter_split parts]

end Snapshottable

theorem encode_fromUTF8? {data : ByteArray} {text : String} (decoded : String.fromUTF8? data = some text) :
    TextFiles.encode text = data := by
  unfold String.fromUTF8? at decoded
  split at decoded
  · rw [<- Option.some.inj decoded]
    rfl
  · cases decoded

theorem mem_texts {entry : Text × String} :
    entry ∈ texts workspace paths <-> entry.1 ∈ paths ∧ ∃ data,
      workspace.read entry.1 = some data ∧ String.fromUTF8? data = some entry.2 := by
  rw [texts, List.mem_filterMap]
  constructor
  · rintro ⟨path, member, found⟩
    rcases Option.bind_eq_some_iff.mp found with ⟨data, read, decoded⟩
    rcases Option.map_eq_some_iff.mp decoded with ⟨text, text_eq, rfl⟩
    exact ⟨member, data, read, text_eq⟩
  · rintro ⟨member, data, read, decoded⟩
    refine ⟨entry.1, member, ?_⟩
    rw [textOf, read, Option.bind_some, decoded]
    rfl

/-- The page is narrow enough, and none of its paths has a backslash. -/
def Acceptable (page : Page Digest) : Prop :=
  page.width ≤ 610000 ∧ ∀ entry ∈ page.files, '\\' ∉ entry.1

namespace Snapshottable

variable {workspace : Workspace} {versions : Versions Digest}

theorem entryFault_none (able : Snapshottable workspace versions) {cursor pageCursor : Text}
    {files : List (Text × String)} {entry : Text × String} (member : entry.1 ∈ versions.map Prod.fst)
    (text : ∃ data, workspace.read entry.1 = some data ∧ String.fromUTF8? data = some entry.2)
    (above : cursor < entry.1) (below : entry.1 ≤ pageCursor) (new : entry.1 ∉ files.map Prod.fst) :
    entryFault versions cursor pageCursor files entry = none <-> '\\' ∉ entry.1 := by
  have accepted := able.accepted member
  rcases able.served member with ⟨data, read, _, known, _⟩
  have digest : (Keyed.find? Prod.fst entry.1 versions).map Prod.snd =
      some (Digests.sha256 (TextFiles.encode entry.2)) := by
    rcases text with ⟨other, same, decoded⟩
    rw [encode_fromUTF8? decoded, known, Option.some.inj (read.symm.trans same)]
  rw [<- relativePath_same accepted, entryFault, if_neg accepted]
  constructor
  · intro none
    by_contra other
    rw [if_pos (.inl other)] at none
    cases none
  · intro same
    refine if_neg fun refused => ?_
    rcases refused with apart | early | late | again | changed
    · exact apart same
    · exact not_lt.mpr early above
    · exact not_lt.mpr below late
    · rcases Option.isSome_iff_exists.mp again with ⟨other, found⟩
      have member := Keyed.find?_some found
      exact new (List.mem_map.mpr ⟨other, member⟩)
    · exact changed digest

/-- The host takes a page exactly where it is acceptable. -/
theorem pageFault_none (able : Snapshottable workspace versions) {before first later : List Text}
    (parts : pathsAfter [] versions = before ++ (first ++ later)) {page : Page Digest}
    (filled : Filled workspace (Digests.contentVersion versions) [] [] first later page)
    {files : List (Text × String)} (known : ∀ entry ∈ files, entry.1 ∈ before) :
    pageFault versions (before.getLast?.getD []) files page = none <-> Acceptable page := by
  have sorted := able.sorted_pathsAfter []
  rw [parts, List.pairwise_append, List.pairwise_append] at sorted
  have cursorValid : ¬ (page.cursor ≠ [] ∧ relativePath page.cursor = none) := by
    rintro ⟨nonempty, refused⟩
    rw [filled.cursor] at nonempty refused
    cases last : first.getLast? with
    | none =>
      rw [last] at nonempty
      exact nonempty rfl
    | some path =>
      rw [last] at refused
      have member := List.mem_append_left later (List.mem_of_getLast? last)
      exact able.accepted (mem_split parts (List.mem_append_right before member)) refused
  have entries : ∀ entry ∈ page.files,
      (entryFault versions (before.getLast?.getD []) page.cursor files entry = none <-> '\\' ∉ entry.1) := by
    intro entry member
    rw [filled.files, List.nil_append, mem_texts] at member
    have listed := List.mem_append_left later member.1
    refine able.entryFault_none (mem_split parts (List.mem_append_right before listed)) member.2 ?_ ?_ ?_
    · rw [<- able.pathsAfter_split parts, mem_pathsAfter] at listed
      exact listed.2
    · rw [filled.cursor]
      rcases List.eq_nil_or_concat first with rfl | ⟨earlier, last, rfl⟩
      · exact (List.not_mem_nil member.1).elim
      · rw [List.concat_eq_append, List.getLast?_concat, Option.getD_some]
        rw [List.concat_eq_append] at sorted member
        rcases List.mem_append.mp member.1 with early | same
        · exact ((List.pairwise_append.mp sorted.2.1.1).2.2 entry.1 early last List.mem_cons_self).le
        · exact (List.mem_singleton.mp same).le
    · intro again
      rcases List.mem_map.mp again with ⟨old, held, same⟩
      exact lt_irrefl entry.1 (sorted.2.2 entry.1 (same ▸ known old held) entry.1 listed)
  rw [pageFault, Acceptable]
  by_cases wide : 610000 < page.width
  · rw [if_pos (.inr wide)]
    exact ⟨fun none => (by cases none), fun both => absurd both.1 (not_le.mpr wide)⟩
  · rw [if_neg (not_or.mpr ⟨not_lt.mpr filled.count, wide⟩), if_neg (not_not.mpr filled.version), if_neg cursorValid,
      List.findSome?_eq_none_iff, and_iff_right (not_lt.mp wide)]
    exact forall₂_congr entries

end Snapshottable

/-! ## The loop -/

def NextCursor (Digest : Type) [DecidableEq Digest] [Digests Digest] (workspace : Workspace) (cursor next : Text) : Prop :=
  ∃ page : Page Digest, snapshotPage workspace cursor none = .ok page ∧ page.complete = false ∧
    page.cursor = next

/-- Every page that is asked for from a cursor on is acceptable. -/
def AcceptableFrom (Digest : Type) [DecidableEq Digest] [Digests Digest] (workspace : Workspace) (cursor : Text) : Prop :=
  ∀ (later : Text) (page : Page Digest), Relation.ReflTransGen (NextCursor Digest workspace) cursor later ->
    snapshotPage workspace later none = .ok page -> Acceptable page

theorem acceptableFrom_last (asked : snapshotPage workspace cursor none = .ok page)
    (complete : page.complete = true) (acceptable : Acceptable page) :
    AcceptableFrom Digest workspace cursor := by
  intro later other path answered
  rcases Relation.ReflTransGen.cases_head path with rfl | ⟨next, ⟨same, first, incomplete, _⟩, _⟩
  · rw [<- Except.ok.inj (asked.symm.trans answered)]
    exact acceptable
  · rw [<- Except.ok.inj (asked.symm.trans first), complete] at incomplete
    cases incomplete

theorem acceptableFrom_next (asked : snapshotPage workspace cursor none = .ok page)
    (incomplete : page.complete = false) :
    AcceptableFrom Digest workspace cursor <->
      Acceptable page ∧ AcceptableFrom Digest workspace page.cursor := by
  constructor
  · intro all
    refine ⟨all cursor page .refl asked, fun later other path answered => all later other ?_ answered⟩
    exact .head ⟨page, asked, incomplete, rfl⟩ path
  · rintro ⟨acceptable, others⟩ later other path answered
    rcases Relation.ReflTransGen.cases_head path with rfl | ⟨next, ⟨same, first, _, here⟩, rest⟩
    · rw [<- Except.ok.inj (asked.symm.trans answered)]
      exact acceptable
    · rw [<- Except.ok.inj (asked.symm.trans first)] at here
      exact others later other (here ▸ rest) answered

theorem updated_append {chosen : Text -> Bool} {files : List (Text × String)} {page : Page Digest}
    (distinct : ((files ++ page.files).map Prod.fst).Nodup) :
    updated chosen files page = files ++ page.files.filter (fun entry => chosen entry.1) :=
  Keyed.foldl_store_of_distinct _
    (distinct.sublist (((List.Sublist.refl files).append List.filter_sublist).map Prod.fst))

theorem keys_texts (workspace : Workspace) (paths : List Text) :
    ((texts workspace paths).map Prod.fst).Sublist paths := by
  induction paths with
  | nil => exact List.Sublist.refl []
  | cons path rest ih =>
    rw [texts, List.filterMap_cons]
    cases found : textOf workspace path with
    | none => exact ih.cons path
    | some entry =>
      have same : entry.1 = path := by
        rcases Option.bind_eq_some_iff.mp found with ⟨data, _, decoded⟩
        rcases Option.map_eq_some_iff.mp decoded with ⟨text, _, rfl⟩
        rfl
      show (entry.1 :: (texts workspace rest).map Prod.fst).Sublist (path :: rest)
      rw [same]
      exact ih.cons_cons path

section Steps

variable {workspace : Workspace} {chosen : Text -> Bool} {versions : Versions Digest} {cursor : Text}
  {asked : Option Digest} {files : List (Text × String)} {page : Page Digest} (fuel : Nat)

theorem collectPages_refused (answered : snapshotPage workspace cursor asked = .ok page) {fault : Fault}
    (refused : pageFault versions cursor files page = some fault) :
    collectPages workspace chosen versions (fuel + 1) cursor asked files = .error fault := by
  simp only [collectPages, answered, Except.bind, refused]

theorem collectPages_complete (answered : snapshotPage workspace cursor asked = .ok page)
    (taken : pageFault versions cursor files page = none) (complete : page.complete = true) :
    collectPages workspace chosen versions (fuel + 1) cursor asked files =
      .ok (updated chosen files page, page.version) := by
  simp only [collectPages, answered, Except.bind, taken, complete, if_true]

theorem collectPages_next (answered : snapshotPage workspace cursor asked = .ok page)
    (taken : pageFault versions cursor files page = none) (incomplete : page.complete = false)
    (progress : cursor < page.cursor) :
    collectPages workspace chosen versions (fuel + 1) cursor asked files =
      collectPages workspace chosen versions fuel page.cursor (some page.version) (updated chosen files page) := by
  simp only [collectPages, answered, Except.bind, taken, incomplete, Bool.false_eq_true, if_false,
    if_neg (not_le.mpr progress)]

end Steps

theorem collectPages_from {workspace : Workspace} {versions : Versions Digest}
    (able : Snapshottable workspace versions) (chosen : Text -> Bool) {fuel : Nat} {before after : List Text}
    (parts : pathsAfter [] versions = before ++ after) {asked : Option Digest}
    (current : asked.getD (Digests.contentVersion versions) = Digests.contentVersion versions)
    {files : List (Text × String)} (known : (files.map Prod.fst).Sublist before) (enough : after.length < fuel) :
    (AcceptableFrom Digest workspace (before.getLast?.getD []) ∧
      (∀ entry ∈ texts workspace after, '\\' ∉ entry.1) ∧
      collectPages workspace chosen versions fuel (before.getLast?.getD []) asked files =
        .ok (files ++ (texts workspace after).filter (fun entry => chosen entry.1), Digests.contentVersion versions)) ∨
    (¬ AcceptableFrom Digest workspace (before.getLast?.getD []) ∧
      ∃ fault, collectPages workspace chosen versions fuel (before.getLast?.getD []) asked files = .error fault) := by
  induction fuel generalizing before after asked files with
  | zero => exact absurd enough (Nat.not_lt_zero _)
  | succ fuel ih =>
    have served : ∀ path ∈ after, Served workspace versions path := fun path member =>
      able.served (Snapshottable.mem_split parts (List.mem_append_right before member))
    rcases fillPage_filled (Digests.contentVersion versions) served [] [] (Nat.zero_le _) (Nat.zero_le _) with
      ⟨page, first, later, split, ran, filled⟩
    have answered := (able.snapshotPage_after parts current).trans ran
    have first_answered := (@Snapshottable.snapshotPage_after _ _ _ _ _ _ able before after parts none rfl).trans ran
    rw [split] at parts
    have members : ∀ entry ∈ files, entry.1 ∈ before :=
      fun entry member => known.subset (List.mem_map_of_mem member)
    have takes := able.pageFault_none parts filled members
    have distinct : ((files ++ page.files).map Prod.fst).Nodup := by
      have nodup := able.nodup_pathsAfter []
      rw [parts, <- List.append_assoc] at nodup
      rw [List.map_append, filled.files, List.nil_append]
      exact (List.nodup_append.mp nodup).1.sublist (known.append (keys_texts workspace first))
    have added := @updated_append Digest _ _ _ chosen files page distinct
    rw [filled.files, List.nil_append] at added
    cases taken : pageFault versions (before.getLast?.getD []) files page with
    | some fault =>
      refine .inr ⟨fun all => ?_, fault, collectPages_refused fuel answered taken⟩
      rw [takes.mpr (all _ page .refl first_answered)] at taken
      cases taken
    | none =>
      have acceptable := takes.mp taken
      cases complete : page.complete with
      | true =>
        refine .inl ⟨acceptableFrom_last first_answered complete acceptable, fun entry member => ?_, ?_⟩
        · rw [split, filled.complete.mp complete, List.append_nil] at member
          refine acceptable.2 entry ?_
          rw [filled.files]
          exact member
        · rw [collectPages_complete fuel answered taken complete, added, filled.version, split,
            filled.complete.mp complete, List.append_nil]
      | false =>
        have nonempty : first ≠ [] := by
          rintro rfl
          exact filled.nonempty complete filled.files
        have last : (before ++ first).getLast?.getD [] = page.cursor := by
          rw [filled.cursor, List.getLast?_append]
          rcases Option.ne_none_iff_exists'.mp (fun nothing => nonempty (List.getLast?_eq_none_iff.mp nothing)) with
            ⟨path, found⟩
          rw [found]
          rfl
        have progress : before.getLast?.getD [] < page.cursor := by
          rw [filled.cursor]
          rcases Option.ne_none_iff_exists'.mp (fun nothing => nonempty (List.getLast?_eq_none_iff.mp nothing)) with
            ⟨path, found⟩
          have member : path ∈ first ++ later := List.mem_append_left later (List.mem_of_getLast? found)
          rw [<- able.pathsAfter_split parts, Snapshottable.mem_pathsAfter] at member
          rw [found]
          exact member.2
        have shorter : later.length < fuel := by
          have length := congrArg List.length split
          have positive := List.length_pos_iff.mpr nonempty
          rw [List.length_append] at length
          omega
        have keys : ((updated chosen files page).map Prod.fst).Sublist (before ++ first) := by
          rw [added, List.map_append]
          exact known.append ((List.filter_sublist.map Prod.fst).trans (keys_texts workspace first))
        have next := @ih (before ++ first) later (parts.trans (List.append_assoc before first later).symm)
          (some page.version) filled.version (updated chosen files page) keys shorter
        rw [last] at next
        rw [collectPages_next fuel answered taken complete progress, acceptableFrom_next first_answered complete,
          and_iff_right acceptable]
        rcases next with ⟨all, free, collected⟩ | ⟨some, fault⟩
        · refine .inl ⟨all, fun entry member => ?_, ?_⟩
          · rw [split, texts_append] at member
            rcases List.mem_append.mp member with early | late
            · refine acceptable.2 entry ?_
              rw [filled.files]
              exact early
            · exact free entry late
          · rw [collected, added, List.append_assoc, <- List.filter_append, <- texts_append, <- split]
        · exact .inr ⟨some, fault⟩

/-! ## Snapshots -/

theorem fillPage_texts {version : Digest} {files : List (Text × String)} {used : Nat}
    (filled : fillPage workspace versions version files used cursor paths = .ok page)
    {entry : Text × String} (member : entry ∈ page.files) :
    entry ∈ files ∨ ∃ data, workspace.read entry.1 = some data ∧ String.fromUTF8? data = some entry.2 := by
  induction paths generalizing files used cursor with
  | nil =>
    rw [<- Except.ok.inj filled] at member
    exact .inl member
  | cons path rest ih =>
    rw [fillPage] at filled
    split at filled
    · cases filled
    · next data read =>
        split at filled
        · cases filled
        · split at filled
          · cases filled
          · split at filled
            · exact ih filled
            · next text decoded =>
                split at filled
                · cases filled
                · split at filled
                  · rw [<- Except.ok.inj filled] at member
                    exact .inl member
                  · rcases ih filled with before | later
                    · rcases List.mem_append.mp before with old | new
                      · exact .inl old
                      · rw [List.mem_singleton.mp new]
                        exact .inr ⟨data, read, decoded⟩
                    · exact .inr later

/-- No UTF-8 file has a backslash in its path. -/
def SlashesOnly (workspace : Workspace) : Prop :=
  ∀ file text, file ∈ workspace.files -> String.fromUTF8? file.content = some text -> '\\' ∉ file.path

/-- Every page that is asked for is narrow enough together with its cursor. -/
def Narrow (Digest : Type) [DecidableEq Digest] [Digests Digest] (workspace : Workspace) : Prop :=
  ∀ (cursor : Text) (page : Page Digest), Relation.ReflTransGen (NextCursor Digest workspace) [] cursor ->
    snapshotPage workspace cursor none = .ok page -> page.width ≤ 610000

theorem read_file {path : Text} {data : ByteArray} :
    workspace.read path = some data <->
      ∃ file ∈ workspace.files, file.path = path ∧ file.content = data := by
  rw [Workspace.read, Option.map_eq_some_iff]
  constructor
  · rintro ⟨file, found, content⟩
    rcases Keyed.find?_some found with ⟨member, path⟩
    exact ⟨file, member, path, content⟩
  · rintro ⟨file, member, rfl, content⟩
    exact ⟨file, Keyed.find?_of_mem workspace.distinct member, content⟩

theorem acceptableFrom_start (slashes : SlashesOnly workspace) (narrow : Narrow Digest workspace) :
    AcceptableFrom Digest workspace [] := by
  intro cursor page path answered
  refine ⟨narrow cursor page path answered, fun entry member => ?_⟩
  unfold snapshotPage at answered
  split at answered
  · cases answered
  · rcases Fallible.bind_ok answered with ⟨versions, _, filled⟩
    dsimp only at filled
    split at filled
    · cases filled
    · rcases fillPage_texts filled member with nothing | ⟨data, read, decoded⟩
      · exact (List.not_mem_nil nothing).elim
      · rcases read_file.mp read with ⟨file, listed, same, rfl⟩
        exact same ▸ slashes file entry.2 listed decoded

/-- The cursors that are asked for are where the sorted paths are cut. -/
theorem asked_split (able : Snapshottable workspace versions)
    (asked : Relation.ReflTransGen (NextCursor Digest workspace) [] cursor) :
    ∃ before after, pathsAfter [] versions = before ++ after ∧
      cursor = before.getLast?.getD [] := by
  induction asked with
  | refl => exact ⟨[], pathsAfter [] versions, rfl, rfl⟩
  | tail _ next ih =>
    rcases ih with ⟨before, after, parts, rfl⟩
    rcases next with ⟨page, answered, incomplete, rfl⟩
    have served : ∀ path ∈ after, Served workspace versions path := fun path member =>
      able.served (Snapshottable.mem_split parts (List.mem_append_right before member))
    rcases fillPage_filled (Digests.contentVersion versions) served [] [] (Nat.zero_le _) (Nat.zero_le _) with
      ⟨other, first, later, split, ran, filled⟩
    have same := (@Snapshottable.snapshotPage_after _ _ _ _ _ _ able before after parts none rfl).trans ran
    rw [Except.ok.inj (answered.symm.trans same)] at incomplete ⊢
    refine ⟨before ++ first, later, by rw [parts, split, List.append_assoc], ?_⟩
    rw [filled.cursor, List.getLast?_append]
    cases last : first.getLast? with
    | some path => rfl
    | none =>
      rw [List.getLast?_eq_none_iff.mp last] at filled
      exact absurd filled.files (filled.nonempty incomplete)

/-- Paths whose JSON texts are not too long leave room for the cursor on every page. -/
theorem narrow_of_short (able : Snapshottable workspace versions)
    (short : ∀ file ∈ workspace.files, stringWidth file.path ≤ 9879) :
    Narrow Digest workspace := by
  intro cursor page asked answered
  rcases asked_split able asked with ⟨before, after, parts, rfl⟩
  have served : ∀ path ∈ after, Served workspace versions path := fun path member =>
    able.served (Snapshottable.mem_split parts (List.mem_append_right before member))
  rcases fillPage_filled (Digests.contentVersion versions) served [] [] (Nat.zero_le _) (Nat.zero_le _) with
    ⟨other, first, later, split, ran, filled⟩
  have same := (@Snapshottable.snapshotPage_after _ _ _ _ _ _ able before after parts none rfl).trans ran
  rw [Except.ok.inj (answered.symm.trans same)]
  have cursorWidth : stringWidth other.cursor ≤ 9879 := by
    rw [filled.cursor]
    cases last : first.getLast? with
    | none => exact (by decide : stringWidth [] ≤ 9879)
    | some path =>
      have member := List.mem_append_left later (List.mem_of_getLast? last)
      rw [<- split] at member
      have key := Snapshottable.mem_split parts (List.mem_append_right before member)
      rw [able.keys] at key
      rcases List.mem_map.mp key with ⟨file, listed, here⟩
      exact here ▸ short file listed
  have files : filesWidth other.files ≤ 600000 := by
    rw [filesWidth]
    split
    · decide
    · exact filled.width
  have flag : (if other.complete then 4 else 5) ≤ 5 := by
    split
    · decide
    · exact Nat.le_refl 5
  have constants : "\x7b\"files\": ".length = 10 ∧ ", \"version\": ".length = 13 ∧ ", \"cursor\": ".length = 12 ∧
      ", \"complete\": ".length = 14 ∧ "\x7d".length = 1 := by decide
  rw [Page.width, constants.1, constants.2.1, constants.2.2.1, constants.2.2.2.1, constants.2.2.2.2]
  omega

/-- The snapshot holds exactly the UTF-8 files that are chosen, with their
texts, and the versions of all files. -/
def Complete (workspace : Workspace) (chosen : Text -> Bool)
    (outcome : Except Fault (WorkspaceSnapshot Digest)) : Prop :=
  ∃ snapshot, outcome = .ok snapshot ∧
    (∀ entry, entry ∈ snapshot.files <-> ∃ file ∈ workspace.files, file.path = entry.1 ∧
      String.fromUTF8? file.content = some entry.2 ∧ chosen entry.1 = true) ∧
    (∀ version, version ∈ snapshot.versions <-> ∃ file ∈ workspace.files,
      (file.path, Digests.sha256 file.content) = version) ∧
    Keyed.Distinct Prod.fst snapshot.files ∧ Keyed.Distinct Prod.fst snapshot.versions

/-- A workspace that is listed, whose files and entries are within the bounds,
is snapshot completely, in one page more than it has files at most, exactly
where its UTF-8 files have no backslash in their paths and every page leaves
room for its cursor. -/
theorem snapshot_complete {workspace : Workspace} {versions : Versions Digest}
    (able : Snapshottable workspace versions) (chosen : Text -> Bool) {fuel : Nat}
    (enough : workspace.files.length < fuel) :
    Complete workspace chosen (workspaceSnapshot workspace chosen fuel : Except Fault (WorkspaceSnapshot Digest)) <->
      SlashesOnly workspace ∧ Narrow Digest workspace := by
  have total : (pathsAfter [] versions).length < fuel := by
    refine lt_of_le_of_lt ?_ enough
    have keys := congrArg List.length able.keys
    rw [List.length_map, List.length_map] at keys
    rw [pathsAfter, List.length_insertionSort, <- keys, <- List.length_map Prod.fst]
    exact List.length_filter_le _ _
  have loop := @collectPages_from Digest _ _ _ workspace versions able chosen fuel [] (pathsAfter [] versions) rfl none
    rfl [] (List.Sublist.refl []) total
  have run : (workspaceSnapshot workspace chosen fuel : Except Fault (WorkspaceSnapshot Digest)) =
      (collectPages workspace chosen versions fuel [] none []).bind (fun collected =>
        (inventory workspace).bind (fun again =>
          if Digests.contentVersion versions ≠ collected.2 ∨ again ≠ versions then
            .error (.value "stale_precondition: workspace changed during snapshot")
          else .ok ⟨collected.1, versions⟩)) := by
    rw [workspaceSnapshot, able.listed]
    rfl
  have listed : ∀ file ∈ workspace.files, file.path ∈ pathsAfter [] versions := by
    intro file member
    have key : file.path ∈ versions.map Prod.fst := able.keys ▸ List.mem_map_of_mem member
    exact Snapshottable.mem_pathsAfter.mpr ⟨key, able.empty_lt key⟩
  constructor
  · rintro ⟨snapshot, returned, _⟩
    rcases loop with ⟨all, free, _⟩ | ⟨_, fault, failed⟩
    · refine ⟨fun file text member decoded => ?_, fun cursor page path answered => (all cursor page path answered).1⟩
      exact free (file.path, text)
        (mem_texts.mpr ⟨listed file member, file.content, read_file.mpr ⟨file, member, rfl, rfl⟩, decoded⟩)
    · rw [run, show collectPages workspace chosen versions fuel [] none [] = .error fault from failed] at returned
      cases returned
  · rintro ⟨slashes, narrow⟩
    rcases loop with ⟨_, _, collected⟩ | ⟨some, _⟩
    · refine ⟨⟨(texts workspace (pathsAfter [] versions)).filter (fun entry => chosen entry.1), versions⟩, ?_, ?_, ?_,
        ?_, able.distinct⟩
      · rw [run, show collectPages workspace chosen versions fuel [] none [] = _ from collected, able.listed]
        exact if_neg fun changed => changed.elim (fun other => other rfl) fun other => other rfl
      · intro entry
        rw [List.mem_filter, mem_texts]
        constructor
        · rintro ⟨⟨_, data, read, decoded⟩, included⟩
          rcases read_file.mp read with ⟨file, member, same, rfl⟩
          exact ⟨file, member, same, decoded, included⟩
        · rintro ⟨file, member, same, decoded, included⟩
          exact ⟨⟨same ▸ listed file member, file.content, read_file.mpr ⟨file, member, same, rfl⟩, decoded⟩, included⟩
      · intro version
        rw [(inventory_ok able.listed).1, versionsOf, List.mem_map]
      · exact (able.nodup_pathsAfter []).sublist
          ((List.filter_sublist.map Prod.fst).trans (keys_texts workspace (pathsAfter [] versions)))
    · exact absurd (acceptableFrom_start slashes narrow) some

end Pages

/-! ## A path with a backslash -/

/-- Digests are the bytes themselves. -/
@[reducible] def plainDigests : Digests ByteArray where
  sha256 := id
  contentVersion := fun versions => (versions.map Prod.snd).foldl (fun joined content => joined ++ content) ByteArray.empty

section Examples

attribute [local instance] plainDigests TextFiles.bytesEqual EditLock.asciiLettering

/-- A workspace of a single file that holds a letter. -/
def singleFile (path : String) : Workspace where
  walk := [⟨[], [⟨path.toList, true, TextFiles.encode "x"⟩]⟩]
  distinct := List.nodup_singleton path.toList

theorem singleFile_only {path : String} {file : File} (member : file ∈ (singleFile path).files) :
    file = ⟨path.toList, true, TextFiles.encode "x"⟩ := List.mem_singleton.mp member

theorem ok_of_toOption {Value : Type} {outcome : Except Fault Value} {value : Value}
    (returned : outcome.toOption = some value) : outcome = .ok value := by
  cases outcome with
  | ok result => exact congrArg Except.ok (Option.some.inj returned)
  | error fault => cases returned

theorem singleFile_snapshottable {path : String}
    (listed : (inventory (singleFile path) : Except Fault (Versions ByteArray)).toOption =
      some [(path.toList, TextFiles.encode "x")])
    (width : entryWidth (path.toList, "x") ≤ 600000) :
    Snapshottable (singleFile path) [(path.toList, TextFiles.encode "x")] where
  listed := ok_of_toOption listed
  small := fun file member => by
    rw [singleFile_only member]
    show (TextFiles.encode "x").size ≤ MAX_SOURCE_BYTES
    decide +kernel
  entries := fun file member text decoded => by
    rw [singleFile_only member] at decoded ⊢
    have same : text = "x" := TextFiles.encode_injective (encode_fromUTF8? decoded)
    rw [same]
    exact width

theorem plain_name_complete :
    Complete (singleFile "a") (fun _ => true)
      (workspaceSnapshot (singleFile "a") (fun _ => true) 2 : Except Fault (WorkspaceSnapshot ByteArray)) := by
  have able := @singleFile_snapshottable "a" (by decide +kernel) (by decide)
  refine (snapshot_complete able (fun _ => true) (by decide)).mpr ⟨?_, narrow_of_short able ?_⟩
  · intro file text member _
    rw [singleFile_only member]
    decide
  · intro file member
    rw [singleFile_only member]
    decide

/-- The inventory takes a path that the host then refuses. -/
theorem backslash_refused :
    Snapshottable (singleFile "a\\b") [("a\\b".toList, TextFiles.encode "x")] ∧
      ¬ Complete (singleFile "a\\b") (fun _ => true)
        (workspaceSnapshot (singleFile "a\\b") (fun _ => true) 2 : Except Fault (WorkspaceSnapshot ByteArray)) := by
  refine ⟨singleFile_snapshottable (by decide +kernel) (by decide), ?_⟩
  rintro ⟨snapshot, returned, _⟩
  have failed : (workspaceSnapshot (singleFile "a\\b") (fun _ => true) 2 :
      Except Fault (WorkspaceSnapshot ByteArray)).toBool = false := by decide +kernel
  rw [returned] at failed
  cases failed

end Examples

end LinuxSandbox
end FixLoop
