import Mathlib.Data.List.Lex
import Mathlib.Data.Char
import Mathlib.Data.List.Nodup
import FixLoop.EditLock.Paths
import FixLoop.Library.Fallible
import FixLoop.Library.Hierarchy
import FixLoop.Library.Record

namespace FixLoop
namespace ProjectRestore

open Library

/-!
# Snapshot manifests and restore plans

A manifest lists the files and directories of a project tree with their modes.
`validate` accepts the manifests that describe a tree, and `steps` plans how
one tree becomes another one.
-/

abbrev Path := EditLock.Text

inductive Entry where
  | directory (mode : Nat)
  | file (mode size : Nat) (digest : String)
deriving DecidableEq

namespace Entry

def mode : Entry -> Nat
  | directory mode => mode
  | file mode _ _ => mode

def isDirectory : Entry -> Bool
  | directory _ => true
  | file _ _ _ => false

/-- `entry["mode"] & 0o700 == 0o700`. -/
def ownerAccess (entry : Entry) : Bool := entry.mode &&& 0o700 == 0o700

/-- `{**entry, "mode": entry["mode"] | 0o700}`. -/
def writable : Entry -> Entry
  | directory mode => directory (mode ||| 0o700)
  | file mode size digest => file (mode ||| 0o700) size digest

end Entry

/-- The entries of a manifest. -/
abbrev Entries := List (Path × Entry)

/-- `entries.get(path)`. -/
def Entries.get (entries : Entries) (path : Path) : Option Entry :=
  (entries.find? fun entry => entry.1 = path).map Prod.snd

/-- The directories above a path. -/
def parents (path : Path) : List Path := Hierarchy.parents '/' path

/-- `path.count("/")`. -/
def depth (path : Path) : Nat := Hierarchy.depth '/' path

section Validation

open EditLock (Lettering oneOf relativePath startsWith)

variable [Lettering]

def EXCLUDED : List String :=
  [".git", ".fixloop", ".agent", ".agents", ".codex", ".claude", ".cursor", ".aws", ".ssh", ".gh-config",
    ".venv", "venv", "node_modules", "__pycache__", ".pytest_cache", ".ruff_cache", ".mypy_cache", "dist",
    "build"]

def maxFile : Nat := 32 * 1024 * 1024

def maxTree : Nat := 128 * 1024 * 1024

def maxEntries : Nat := 20000

def excluded (name : Path) : Bool :=
  oneOf EXCLUDED (Lettering.casefold name) || startsWith ".env".toList (Lettering.casefold name) ||
    startsWith ".fixloop-s0-private-".toList (Lettering.casefold name)

/-- The parts that `validate_path` rejects. -/
def ambiguousPart (part : Path) : Bool :=
  oneOf ["", ".", ".."] part || part.getLast?.any (fun char => char == '.' || char == ' ') ||
    part.any (fun char => char ∈ ['\\', ':', '*', '?', '"', '<', '>', '|'] || char.toNat < 32) ||
    oneOf [".git", ".agent", ".env"] (Lettering.casefold part) ||
    startsWith ".fixloop-s0-private-".toList (Lettering.casefold part) ||
    oneOf EditLock.RESERVED (Lettering.casefold (part.takeWhile fun char => char != '.'))

/-- `managed`: the path is in the scope of snapshots. -/
def managed (path : Path) : Bool :=
  relativePath path == some path && !(path.splitOn '/').any ambiguousPart &&
    !(path.splitOn '/').any excluded

/-- The type of a value is `int`; truth values are not. -/
def strictNat : Json -> Option Nat
  | .int value => if 0 ≤ value then some value.toNat else none
  | _ => none

/-- `set(value) == keys`. -/
def hasKeys (keys : List String) (members : Record) : Bool :=
  members.all (fun entry => keys.contains entry.1) && keys.all fun key => members.any fun entry => entry.1 == key

/-- The entry of a path, and the length of its data.  `blob` returns the length
of the data that the repository has under a digest. -/
def checkEntry (blob : Json -> Except String Nat) : Json -> Except String (Entry × Nat)
  | .obj members =>
    match strictNat (Record.get "mode" members) with
    | none => .error "invalid snapshot mode"
    | some mode =>
      if 0o777 < mode then .error "invalid snapshot mode"
      else if (Record.get "kind" members).same (.str "directory") then
        if hasKeys ["kind", "mode"] members = false then .error "invalid directory manifest"
        else .ok (.directory mode, 0)
      else if (Record.get "kind" members).same (.str "file") then
        match strictNat (Record.get "size" members) with
        | none => .error "invalid file manifest"
        | some size =>
          if hasKeys ["kind", "mode", "size", "digest"] members = false ∨ maxFile < size then
            .error "invalid file manifest"
          else do
            let length <- blob (Record.get "digest" members)
            if length ≠ size then .error "snapshot size mismatch"
            else .ok (.file mode size (Record.text "digest" members), length)
      else .error "invalid snapshot entry kind"
  | _ => .error "invalid snapshot mode"

/-- What the loop of `validate` carries: the total length of the data, the paths
with their cases folded, and the entries so far. -/
structure Checked where
  total : Nat
  folded : List Path
  entries : Entries

/-- The body of the loop. -/
def checkPath (blob : Json -> Except String Nat) (all : Record) (checked : Checked)
    (member : String × Json) : Except String Checked := do
  let path := member.1.toList
  if managed path = false then .error "path is outside snapshot scope"
  else if checked.folded.contains (Lettering.casefold path) then .error "case ambiguous snapshot"
  else
    let (entry, length) <- checkEntry blob member.2
    if maxTree < checked.total + length then .error "snapshot tree limit exceeded"
    else if (parents path).any (fun parent =>
        (((Record.get? (String.ofList parent) all).bind (Json.get? "kind")).getD .null).same
          (.str "directory") = false) then
      .error "snapshot parent directory missing"
    else .ok ⟨checked.total + length, Lettering.casefold path :: checked.folded, checked.entries ++ [(path, entry)]⟩

/-- `validate`, with the entries of the manifest that it accepts. -/
def validate (blob : Json -> Except String Nat) : Json -> Except String Entries
  | .obj manifest =>
    if hasKeys ["policy", "root_identity", "entries"] manifest = false ∨
        (Record.get "policy" manifest).same (.str "workbench-files-v1") = false then
      .error "unsupported snapshot manifest"
    else
      match Record.get "root_identity" manifest with
      | .arr identity =>
        if identity.length ∉ [2, 3] ∨ identity.any (fun number => (strictNat number).isNone) then
          .error "invalid root identity"
        else
          match Record.get "entries" manifest with
          | .obj entries =>
            if maxEntries < entries.length then .error "invalid snapshot entry count"
            else (entries.foldlM (checkPath blob entries) ⟨0, [], []⟩).map Checked.entries
          | _ => .error "invalid snapshot entry count"
      | _ => .error "invalid root identity"
  | _ => .error "unsupported snapshot manifest"

end Validation

/-! ## Restore plans -/

structure RestoreStep where
  path : Path
  before : Option Entry
  after : Option Entry
deriving DecidableEq

/-- `sorted` of a set of paths. -/
def sortedPaths (paths : List Path) : List Path :=
  paths.dedup.mergeSort fun first second => decide (first ≤ second)

/-- `sort(key=lambda s: (s["path"].count("/"), s["path"]))`. -/
def shallowFirst (steps : List RestoreStep) : List RestoreStep :=
  steps.mergeSort (fun first second => decide (depth first.path < depth second.path ∨
    depth first.path = depth second.path ∧ first.path ≤ second.path))

/-- `sort(key=lambda s: (-s["path"].count("/"), s["path"]))`. -/
def deepFirst (steps : List RestoreStep) : List RestoreStep :=
  steps.mergeSort (fun first second => decide (depth second.path < depth first.path ∨
    depth first.path = depth second.path ∧ first.path ≤ second.path))

/-- The paths on either side. -/
def allPaths (before target : Entries) : List Path :=
  sortedPaths (before.map Prod.fst ++ target.map Prod.fst)

/-- The directories above a path that changes. -/
def changedParents (before target : Entries) : List Path :=
  ((allPaths before target).filter fun path => before.get path ≠ target.get path).flatMap parents

/-- A directory that its owner cannot change is made writable. -/
def widening (before : Entries) (path : Path) : Option RestoreStep :=
  match before.get path with
  | some old =>
    if old.isDirectory = true ∧ old.ownerAccess = false then some ⟨path, some old, some old.writable⟩ else none
  | none => none

/-- The steps of the first phase. -/
def prepare (posix : Bool) (before target : Entries) : List RestoreStep :=
  if posix then shallowFirst ((changedParents before target).dedup.filterMap (widening before)) else []

/-- The entries after the first phase. -/
def widened (posix : Bool) (before target : Entries) : Entries :=
  before.map (fun entry =>
    (entry.1, (((prepare posix before target).find? fun step => step.path = entry.1).bind
      RestoreStep.after).getD entry.2))

/-- What the loop over all paths appends to its lists for one path. -/
structure Turn where
  remove : Option RestoreStep := none
  directory : Option RestoreStep := none
  file : Option RestoreStep := none
  finish : Option RestoreStep := none

/-- An entry that has to make way: there is none after it, or one of another kind. -/
def makesWay (old new : Option Entry) : Bool :=
  match old with
  | none => false
  | some entry => new.all fun other => entry.isDirectory != other.isDirectory

/-- The body of the loop. -/
def turn (posix : Bool) (path : Path) (old new : Option Entry) : Turn :=
  if old = new then {}
  else
    let remove := if makesWay old new then some ⟨path, old, none⟩ else none
    let old := if makesWay old new then none else old
    match new with
    | none => { remove := remove }
    | some new =>
      if posix = true ∧ new.isDirectory = true then
        let writable := old.getD new.writable
        { remove := remove,
          directory := if old = none then some ⟨path, none, some writable⟩ else none,
          finish := if writable ≠ new then some ⟨path, some writable, some new⟩ else none }
      else if new.isDirectory then { remove := remove, directory := some ⟨path, old, some new⟩ }
      else { remove := remove, file := some ⟨path, old, some new⟩ }

/-- `steps`; `posix` is `os.name != "nt"`. -/
def steps (posix : Bool) (before target : Entries) : List RestoreStep :=
  let old := widened posix before target
  let turns := (allPaths before target).map (fun path => turn posix path (old.get path) (target.get path))
  prepare posix before target ++ deepFirst (turns.filterMap Turn.remove) ++
    shallowFirst (turns.filterMap Turn.directory) ++ turns.filterMap Turn.file ++
    deepFirst (turns.filterMap Turn.finish)

end ProjectRestore
end FixLoop

namespace FixLoop
namespace ProjectRestore

open Library
open Fallible (bind_ok map_ok)
open EditLock (Lettering)

/-!
# What `validate` accepts

The paths of an accepted manifest are distinct, and every directory above one
of them is an entry of its own.
-/

/-- A manifest that describes a tree. -/
structure Entries.Valid (entries : Entries) : Prop where
  distinct : (entries.map Prod.fst).Nodup
  closed : ∀ path entry parent, entries.get path = some entry -> parent ∈ parents path ->
    ∃ mode, entries.get parent = some (.directory mode)

theorem Entries.get_cons (path other : Path) (entry : Entry) (entries : Entries) :
    Entries.get ((other, entry) :: entries) path = if other = path then some entry else entries.get path := by
  by_cases here : other = path
  · simp [Entries.get, here]
  · simp [Entries.get, here]

variable {entries : Entries}

theorem Entries.mem_of_get {path : Path} {entry : Entry} (found : entries.get path = some entry) :
    (path, entry) ∈ entries := by
  induction entries with
  | nil => cases found
  | cons first rest ih =>
    rw [Entries.get_cons] at found
    split at found
    · rename_i here
      cases found
      exact here ▸ List.mem_cons_self
    · exact List.mem_cons_of_mem _ (ih found)

theorem Entries.get_eq_none {path : Path} : entries.get path = none <-> path ∉ entries.map Prod.fst := by
  induction entries with
  | nil => simp [Entries.get]
  | cons first rest ih =>
    rw [Entries.get_cons, List.map_cons, List.mem_cons, not_or]
    by_cases here : first.1 = path
    · simp [here]
    · rw [if_neg here, ih]
      exact ⟨fun missing => ⟨fun same => here same.symm, missing⟩, And.right⟩

variable [Lettering] {blob : Json -> Except String Nat}

/-- The kind of a member that is checked. -/
def directoryKind (value : Json) : Prop := ((value.get? "kind").getD .null).same (.str "directory") = true

omit [Lettering] in
theorem checkEntry_directory {value : Json} {entry : Entry} {length : Nat}
    (accepted : checkEntry blob value = .ok (entry, length)) (kind : directoryKind value) :
    ∃ mode, entry = .directory mode := by
  unfold checkEntry at accepted
  split at accepted
  · rename_i members
    have kind : (Record.get "kind" members).same (.str "directory") = true := kind
    split at accepted
    · cases accepted
    rename_i mode _
    rw [kind, if_pos rfl] at accepted
    split at accepted
    · cases accepted
    split at accepted
    · cases accepted
    · cases accepted
      exact ⟨mode, rfl⟩
  · cases accepted

/-- What the loop of `validate` has checked. -/
structure Tracks (all done : Record) (checked : Checked) : Prop where
  folded : checked.folded = (checked.entries.map fun entry => Lettering.casefold entry.1).reverse
  distinct : checked.folded.Nodup
  related : List.Forall₂ (fun member entry => entry.1 = member.1.toList ∧
    (directoryKind member.2 -> ∃ mode, entry.2 = .directory mode)) done checked.entries
  parents : ∀ entry parent, entry ∈ checked.entries -> parent ∈ parents entry.1 ->
    (((Record.get? (String.ofList parent) all).bind (Json.get? "kind")).getD .null).same
      (.str "directory") = true

theorem Tracks.step {all done : Record} {checked after : Checked} {member : String × Json}
    (tracks : Tracks all done checked) (accepted : checkPath blob all checked member = .ok after) :
    Tracks all (done ++ [member]) after := by
  unfold checkPath at accepted
  dsimp only at accepted
  split at accepted
  · cases accepted
  split at accepted
  · cases accepted
  rename_i fresh
  rcases bind_ok accepted with ⟨⟨entry, length⟩, entered, accepted⟩
  dsimp only at accepted
  split at accepted
  · cases accepted
  split at accepted
  · cases accepted
  rename_i above
  cases accepted
  refine ⟨?_, ?_, ?_, ?_⟩
  · rw [List.map_append, List.reverse_append, tracks.folded]
    rfl
  · exact List.nodup_cons.mpr ⟨fun listed => fresh (List.contains_iff_mem.mpr listed), tracks.distinct⟩
  · refine List.rel_append tracks.related (.cons ⟨rfl, ?_⟩ .nil)
    exact fun kind => checkEntry_directory entered kind
  · intro other parent member above'
    rcases List.mem_append.mp member with earlier | here
    · exact tracks.parents other parent earlier above'
    · rcases List.mem_singleton.mp here with rfl
      by_contra bad
      refine above (List.any_eq_true.mpr ⟨parent, above', ?_⟩)
      exact decide_eq_true (Bool.eq_false_iff.mpr bad)

theorem tracks_foldlM {all done rest : Record} {checked after : Checked} (tracks : Tracks all done checked)
    (accepted : rest.foldlM (checkPath blob all) checked = .ok after) : Tracks all (done ++ rest) after := by
  induction rest generalizing done checked with
  | nil =>
    cases accepted
    rw [List.append_nil]
    exact tracks
  | cons member rest ih =>
    rw [List.foldlM_cons] at accepted
    rcases bind_ok accepted with ⟨middle, first, accepted⟩
    have later := ih (tracks.step first) accepted
    rw [List.append_assoc] at later
    exact later

omit [Lettering] in
theorem directory_found {done : Record} {parent : Path}
    (related : List.Forall₂ (fun member entry => entry.1 = member.1.toList ∧ (directoryKind member.2 -> ∃ mode, entry.2 = .directory mode)) done entries)
    {value : Json} (found : Record.get? (String.ofList parent) done = some value)
    (kind : directoryKind value) : ∃ mode, entries.get parent = some (.directory mode) := by
  induction related with
  | nil => cases found
  | cons first rest ih =>
    rename_i member entry _ _
    rw [Record.get?_cons] at found
    have same : entry.1 = parent <-> member.1 = String.ofList parent := by
      rw [first.1]
      constructor
      · rintro rfl
        rw [String.ofList_toList]
      · intro here
        rw [here, String.toList_ofList]
    rw [show entry = (entry.1, entry.2) from rfl, Entries.get_cons]
    by_cases here : entry.1 = parent
    · rw [if_pos (same.mp here)] at found
      cases found
      rcases first.2 kind with ⟨mode, directory⟩
      exact ⟨mode, by rw [if_pos here, directory]⟩
    · rw [if_neg fun there => here (same.mpr there)] at found
      rw [if_neg here]
      exact ih found

theorem validate_valid {manifest : Json} (accepted : validate blob manifest = .ok entries) :
    entries.Valid := by
  unfold validate at accepted
  split at accepted
  · split at accepted
    · cases accepted
    split at accepted
    · split at accepted
      · cases accepted
      split at accepted
      · rename_i all _
        split at accepted
        · cases accepted
        rcases map_ok accepted with ⟨checked, folded, rfl⟩
        have start : Tracks all [] ⟨0, [], []⟩ := ⟨rfl, .nil, .nil, fun _ _ member => nomatch member⟩
        have tracks := tracks_foldlM start folded
        refine ⟨?_, ?_⟩
        · have distinct := tracks.distinct
          rw [tracks.folded, List.nodup_reverse] at distinct
          have folds : checked.entries.map (fun entry => Lettering.casefold entry.1) =
              (checked.entries.map Prod.fst).map Lettering.casefold := by
            rw [List.map_map]
            rfl
          rw [folds] at distinct
          exact distinct.of_map
        · intro path entry parent present above
          have known := tracks.parents (path, entry) parent (Entries.mem_of_get present) above
          cases found : Record.get? (String.ofList parent) all with
          | none =>
            rw [found] at known
            cases known
          | some value =>
            rw [found] at known
            exact directory_found tracks.related found known
      · cases accepted
    · cases accepted
  · cases accepted

end ProjectRestore
end FixLoop
