import Mathlib.Data.List.Infix
import Mathlib.Data.List.AList
import FixLoop.Library.Interleaved

namespace FixLoop
namespace WorkspacePatches

/-!
# Files and directories

A path is the list of its names, the innermost first, so its tail is its
directory.  A file knows whether another process wrote it since the patch was
prepared; no operation reads that mark.
-/

abbrev Path := List String

instance pathLawful : LawfulBEq Path := inferInstance

abbrev Bytes := List UInt8

/-- `content.encode("utf-8")`. -/
def encoded (content : String) : Bytes := content.toUTF8.data.toList

structure File where
  bytes : Bytes
  mode : Nat
  foreign : Bool
deriving DecidableEq

/-- The files and directories, and the temporary files of the patch with the
directories they are in. -/
structure World where
  files : AList (fun _ : Path => File)
  dirs : List Path
  temps : List (Nat × Path)

namespace World

def file (world : World) (path : Path) : Option File := world.files.lookup path

/-- `path.exists()`. -/
def present (world : World) (path : Path) : Bool :=
  decide (path ∈ world.dirs) || (world.file path).isSome

/-- The path is an entry of the directory. -/
def entryOf (dir : Path) : Path -> Bool
  | [] => false
  | _ :: parent => decide (parent = dir)

/-- The directory has an entry. -/
def filled (world : World) (dir : Path) : Bool :=
  world.files.keys.any (entryOf dir) || world.dirs.any (entryOf dir) ||
    world.temps.any fun temp => temp.2 = dir

def put (path : Path) (file : File) (world : World) : World :=
  { world with files := world.files.insert path file }

def drop (path : Path) (world : World) : World :=
  { world with files := world.files.erase path }

/-- What holds of every file system: the directories form a tree, a file lies
in a directory and no path is both. -/
structure WellFormed (world : World) : Prop where
  root : [] ∈ world.dirs
  closed : ∀ name dir, name :: dir ∈ world.dirs -> dir ∈ world.dirs
  placed : ∀ path, world.file path ≠ none ->
    ∃ name dir, path = name :: dir ∧ dir ∈ world.dirs
  apart : ∀ path ∈ world.dirs, world.file path = none

/-! ## Reading after a change -/

@[simp] theorem file_put_self (world : World) (path : Path) (file : File) :
    (world.put path file).file path = some file :=
  AList.lookup_insert _

theorem file_put_ne (world : World) {path other : Path} (file : File) (apart : other ≠ path) :
    (world.put path file).file other = world.file other :=
  AList.lookup_insert_ne apart

@[simp] theorem file_drop_self (world : World) (path : Path) : (world.drop path).file path = none :=
  AList.lookup_erase _ _

theorem file_drop_ne (world : World) {path other : Path} (apart : other ≠ path) :
    (world.drop path).file other = world.file other :=
  AList.lookup_erase_ne apart

variable {world : World} {dir : Path}

theorem mem_keys_of_file {path : Path} {file : File} (found : world.file path = some file) :
    path ∈ world.files.keys := by
  rw [<- AList.mem_keys, <- AList.lookup_isSome]
  rw [World.file] at found
  rw [found]
  rfl

/-- Every directory above a directory exists. -/
theorem WellFormed.above (formed : world.WellFormed) {above : Path} (within : above <:+ dir)
    (present : dir ∈ world.dirs) : above ∈ world.dirs := by
  induction dir with
  | nil =>
    rw [List.suffix_nil.mp within]
    exact formed.root
  | cons name parent ih =>
    rcases List.suffix_cons_iff.mp within with same | further
    · rw [same]
      exact present
    · exact ih further (formed.closed name parent present)

theorem WellFormed.withTemps (formed : world.WellFormed) (temps : List (Nat × Path)) :
    ({ world with temps := temps } : World).WellFormed :=
  ⟨formed.root, formed.closed, formed.placed, formed.apart⟩

theorem WellFormed.put (formed : world.WellFormed) {name : String} (file : File) (inside : dir ∈ world.dirs)
    (free : name :: dir ∉ world.dirs) : (world.put (name :: dir) file).WellFormed := by
  refine ⟨formed.root, formed.closed, ?_, ?_⟩
  · intro path found
    by_cases same : path = name :: dir
    · exact ⟨name, dir, same, inside⟩
    · rw [file_put_ne world file same] at found
      exact formed.placed path found
  · intro path present
    have other : path ≠ name :: dir := fun same => free (same ▸ present)
    rw [file_put_ne world file other]
    exact formed.apart path present

theorem WellFormed.drop (formed : world.WellFormed) (path : Path) : (world.drop path).WellFormed := by
  refine ⟨formed.root, formed.closed, ?_, ?_⟩
  · intro other found
    by_cases same : other = path
    · subst same
      exact absurd (file_drop_self world other) found
    · rw [file_drop_ne world same] at found
      exact formed.placed other found
  · intro other present
    by_cases same : other = path
    · subst same
      exact file_drop_self world other
    · rw [file_drop_ne world same]
      exact formed.apart other present

/-- A new directory. -/
theorem WellFormed.addDir (formed : world.WellFormed) {name : String} (inside : dir ∈ world.dirs)
    (free : world.file (name :: dir) = none) :
    ({ world with dirs := (name :: dir) :: world.dirs } : World).WellFormed := by
  refine ⟨List.mem_cons_of_mem _ formed.root, ?_, ?_, ?_⟩
  · intro other parent present
    rcases List.mem_cons.mp present with same | present
    · rw [(List.cons.inj same).2]
      exact List.mem_cons_of_mem _ inside
    · exact List.mem_cons_of_mem _ (formed.closed other parent present)
  · intro path found
    rcases formed.placed path found with ⟨other, parent, same, present⟩
    exact ⟨other, parent, same, List.mem_cons_of_mem _ present⟩
  · intro path present
    rcases List.mem_cons.mp present with same | present
    · rw [same]
      exact free
    · exact formed.apart path present

theorem entry_of_empty (empty : world.filled dir = false) :
    (∀ name, world.file (name :: dir) = none) ∧ (∀ name, name :: dir ∉ world.dirs) ∧
      ∀ temp ∈ world.temps, temp.2 ≠ dir := by
  rw [filled, Bool.or_eq_false_iff, Bool.or_eq_false_iff, List.any_eq_false, List.any_eq_false,
    List.any_eq_false] at empty
  refine ⟨?_, ?_, ?_⟩
  · intro name
    by_contra found
    rcases Option.ne_none_iff_exists'.mp found with ⟨file, found⟩
    exact empty.1.1 _ (mem_keys_of_file found) (decide_eq_true rfl)
  · exact fun name present => empty.1.2 _ present (decide_eq_true rfl)
  · exact fun temp listed same => empty.2 temp listed (decide_eq_true same)

theorem WellFormed.removeDir (formed : world.WellFormed) (below : dir ≠ [])
    (empty : world.filled dir = false) :
    ({ world with dirs := world.dirs.filter (fun other => other ≠ dir) } : World).WellFormed := by
  rcases entry_of_empty empty with ⟨noFile, noDir, _⟩
  refine ⟨?_, ?_, ?_, ?_⟩
  · exact List.mem_filter.mpr ⟨formed.root, decide_eq_true below.symm⟩
  · intro name parent present
    rcases List.mem_filter.mp present with ⟨present, _⟩
    refine List.mem_filter.mpr ⟨formed.closed name parent present, decide_eq_true ?_⟩
    intro same
    exact noDir name (same ▸ present)
  · intro path found
    rcases formed.placed path found with ⟨name, parent, same, present⟩
    refine ⟨name, parent, same, List.mem_filter.mpr ⟨present, decide_eq_true ?_⟩⟩
    intro here
    rw [same, here] at found
    exact found (noFile name)
  · exact fun path present => formed.apart path (List.mem_filter.mp present).1

end World

end WorkspacePatches
end FixLoop

namespace FixLoop
namespace WorkspacePatches

open Library
open Interleaved (Process call)

/-!
# System calls between other processes

The state of a patch: the files, what the commit has taken up so far, and
marks that no operation reads.  The marks say what other processes have
touched since the patch was prepared, what the rollback has deleted or
replaced, which directories the patch made, and whether the surroundings have
met two conditions.
-/

inductive Fault where
  /-- `FileNotFoundError`. -/
  | missing
  /-- Any other `OSError`. -/
  | os
  /-- `PatchError` with the code `stale_preimage`. -/
  | stale
deriving DecidableEq

/-- One path of a patch, with its preimage: the bytes and the mode. -/
structure Target where
  name : String
  path : Path
  before : Option (Bytes × Nat)

structure State where
  world : World
  targets : List Target
  written : List Target
  directories : List Path
  /-- How many temporary files have been made. -/
  drawn : Nat
  undoing : Bool
  touched : List Path
  undone : List File
  made : List Path
  /-- No other process has touched a path that the commit takes up. -/
  quiet : Bool
  /-- No other process has put anything into a directory that the patch made
  or removed anything above a target, and the system has refused no removal
  from or of a directory that the patch made. -/
  tidy : Bool

/-- What another process does. -/
inductive Event where
  | write (path : Path) (bytes : Bytes) (mode : Nat)
  | remove (path : Path)
  | makeDir (path : Path)
  | removeDir (path : Path)

/-- The path is a directory on the way to the target. -/
def onTheWay (path : Path) (target : Target) : Bool := path.isSuffixOf target.path.tail

def State.aboveTarget (state : State) (path : Path) : Bool := state.targets.any (onTheWay path)

def State.takenUp (state : State) (path : Path) : Bool :=
  state.written.any fun target => target.path = path

def State.touch (state : State) (path : Path) (world : World) (tidy : Bool) : State :=
  { state with
    world := world, touched := path :: state.touched, quiet := state.quiet && !state.takenUp path,
    tidy := state.tidy && tidy }

/-- The system lets another process do what it allows anyone. -/
def act (event : Event) (state : State) : State :=
  match event with
  | .write [] _ _ => state
  | .write (name :: dir) bytes mode =>
    if dir ∈ state.world.dirs ∧ name :: dir ∉ state.world.dirs then
      state.touch (name :: dir) (state.world.put (name :: dir) ⟨bytes, mode, true⟩)
        (!decide (dir ∈ state.made))
    else state
  | .remove path =>
    if state.world.file path = none then state
    else state.touch path (state.world.drop path) (!state.aboveTarget path)
  | .makeDir [] => state
  | .makeDir (name :: dir) =>
    if dir ∈ state.world.dirs ∧ state.world.present (name :: dir) = false then
      { state with
        world := { state.world with dirs := (name :: dir) :: state.world.dirs }
        tidy := state.tidy && !decide (dir ∈ state.made) }
    else state
  | .removeDir dir =>
    if dir ≠ [] ∧ dir ∈ state.world.dirs ∧ state.world.filled dir = false then
      { state with
        world := { state.world with dirs := state.world.dirs.filter (fun other => other ≠ dir) }
        made := state.made.filter (fun other => other ≠ dir)
        tidy := state.tidy && !state.aboveTarget dir }
    else state

def around : Interleaved.Surroundings State Event Fault := ⟨act, .os⟩

abbrev Run (Value : Type) := Process State Event Fault Value

/-! ## Single calls -/

/-- A call that reads the file system. -/
def look {Value : Type} (read : World -> Value) : Run Value :=
  call around (fun state => .ok (read state.world, state)) id

/-- A call that may change the state and returns nothing. -/
def effect (apply : State -> Except Fault State) (refused : State -> State) : Run Unit :=
  call around (fun state => (apply state).map fun after => ((), after)) refused

/-- `os.mkdir`. -/
def makeDir (path : Path) : Run Unit :=
  effect (fun state =>
    match path with
    | [] => .error .os
    | name :: dir =>
      if state.world.present (name :: dir) then .error .os
      else if dir ∈ state.world.dirs then
        .ok { state with
          world := { state.world with dirs := (name :: dir) :: state.world.dirs }
          made := (name :: dir) :: state.made }
      else if (state.world.file dir).isSome then .error .os
      else .error .missing) id

/-- `os.rmdir`. -/
def removeDir (dir : Path) : Run Unit :=
  effect (fun state =>
    if dir ∉ state.world.dirs then .error .missing
    else if dir = [] ∨ state.world.filled dir = true then .error .os
    else
      .ok { state with
        world := { state.world with dirs := state.world.dirs.filter (fun other => other ≠ dir) }
        made := state.made.filter (fun other => other ≠ dir) })
    (fun state => { state with tidy := state.tidy && !decide (dir ∈ state.made) })

/-- `tempfile.mkstemp` in a directory; its number tells a temporary file from
all others. -/
def makeTemp (dir : Path) : Run Nat :=
  call around (fun state =>
    if dir ∈ state.world.dirs then
      .ok (state.drawn, { state with
        world := { state.world with temps := (state.drawn, dir) :: state.world.temps }
        drawn := state.drawn + 1 })
    else .error .missing) id

def dropTemp (temp : Nat) (state : State) : State :=
  { state with
    world := { state.world with temps := state.world.temps.filter (fun other => other.1 ≠ temp) } }

/-- `tmp.unlink(missing_ok=True)`. -/
def unlinkTemp (temp : Nat) (dir : Path) : Run Unit :=
  effect (fun state => .ok (dropTemp temp state))
    (fun state => { state with tidy := state.tidy && !decide (dir ∈ state.made) })

/-- The rollback deletes or replaces the file at a path. -/
def State.log (state : State) (path : Path) : State :=
  if state.undoing then { state with undone := (state.world.file path).toList ++ state.undone } else state

/-- The temporary file takes its final name. -/
def State.install (state : State) (path : Path) (bytes : Bytes) (mode : Nat) : State :=
  { state.log path with world := state.world.put path ⟨bytes, mode, false⟩ }

/-- The path is the name of a file in an existing directory, or a free one. -/
def placeable (world : World) (path : Path) : Except Fault Unit :=
  match path with
  | [] => .error .os
  | name :: dir =>
    if name :: dir ∈ world.dirs then .error .os
    else if dir ∉ world.dirs then .error .missing
    else .ok ()

/-- `os.link(tmp, path)`, which replaces nothing. -/
def linkTemp (path : Path) (bytes : Bytes) (mode : Nat) : Run Unit :=
  effect (fun state => do
    placeable state.world path
    if (state.world.file path).isSome then .error .os
    else return state.install path bytes mode) id

/-- `tmp.replace(path)`. -/
def replaceTemp (temp : Nat) (path : Path) (bytes : Bytes) (mode : Nat) : Run Unit :=
  effect (fun state => do
    placeable state.world path
    return dropTemp temp (state.install path bytes mode)) id

/-- `path.unlink(missing_ok)`. -/
def unlink (path : Path) (missingOk : Bool) : Run Unit :=
  effect (fun state =>
    if path ∈ state.world.dirs then .error .os
    else if (state.world.file path).isSome then
      .ok { state.log path with world := state.world.drop path }
    else if missingOk then .ok state
    else .error .missing) id

/-- `path.chmod(mode)`. -/
def chmod (path : Path) (mode : Nat) : Run Unit :=
  effect (fun state =>
    match state.world.file path with
    | some file => .ok { state with world := state.world.put path { file with mode := mode } }
    | none => if path ∈ state.world.dirs then .ok state else .error .missing) id

/-- A call that changes nothing here, such as a write to the temporary file. -/
def idle : Run Unit := effect .ok id

end WorkspacePatches
end FixLoop
