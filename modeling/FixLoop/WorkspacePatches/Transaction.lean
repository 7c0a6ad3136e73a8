import FixLoop.WorkspacePatches.System

namespace FixLoop
namespace WorkspacePatches

open Library
open Interleaved (Process ensuring handling forEach)

/-!
# Multi-file host patches

`atomic_write_bytes` and the host patch transaction that is built on it: all
targets are written, or the ones taken up are written back.
-/

/-! ## `atomic_write_bytes` -/

/-- `mkdir` with `exist_ok`: a directory that is there is as good as a new one. -/
def unlessDir (path : Path) (fault : Fault) : Run Unit :=
  if fault = .missing then Process.raise fault
  else do
    if <- look (fun world => decide (path ∈ world.dirs)) then return ()
    else Process.raise fault

/-- `path.mkdir(parents=True, exist_ok=True)`. -/
def makeDirs : Path -> Run Unit
  | [] => handling (makeDir []) (unlessDir [])
  | name :: dir =>
    handling (makeDir (name :: dir)) (fun fault =>
      if fault = .missing then do
        makeDirs dir
        handling (makeDir (name :: dir)) (unlessDir (name :: dir))
      else unlessDir (name :: dir) fault)

/-- `path.stat().st_mode` of a file. -/
def statMode (path : Path) : Run Nat :=
  Interleaved.call around (fun state =>
    match state.world.file path with
    | some file => .ok (file.mode, state)
    | none => if path ∈ state.world.dirs then .ok (0o755, state) else .error .missing) id

/-- The mode that `mkstemp` gives. -/
def tempMode : Nat := 0o600

/-- `stat.S_IMODE(path.stat().st_mode) if path.exists() else None`. -/
def modeOf (path : Path) : Run (Option Nat) := do
  if <- look (fun world => world.present path) then return some (<- statMode path)
  else return none

/-- The temporary file is written, flushed, given its mode and its name. -/
def publish (path : Path) (bytes : Bytes) (createOnly : Bool) (mode : Option Nat) (temp : Nat) :
    Run Unit := do
  idle
  if mode.isSome then idle
  if createOnly then linkTemp path bytes (mode.getD tempMode)
  else replaceTemp temp path bytes (mode.getD tempMode)

/-- `atomic_write_bytes`. -/
def atomicWrite (path : Path) (bytes : Bytes) (createOnly : Bool) : Run Unit := do
  makeDirs path.tail
  let mode <- modeOf path
  let temp <- makeTemp path.tail
  ensuring (publish path bytes createOnly mode temp) (unlinkTemp temp path.tail)

/-! ## `HostPatchTransaction` -/

structure Transaction where
  targets : List Target
  distinct : (targets.map Target.path).Nodup

inductive PatchError where
  | duplicateTarget
  | notRegular (name : String)

def preimage (world : World) (path : Path) : Option (Bytes × Nat) :=
  (world.file path).map fun file => (file.bytes, file.mode)

/-- `__init__`: `folded` is the case-folded text of a resolved path. -/
def prepare (resolve : String -> Path) (folded : Path -> String) (names : List String) (world : World) :
    Except PatchError Transaction :=
  if unique : (names.map fun name => folded (resolve name)).Nodup then
    match names.find? (fun name => decide (resolve name ∈ world.dirs)) with
    | some name => .error (.notRegular name)
    | none =>
      .ok {
        targets := names.map (fun name => ⟨name, resolve name, preimage world (resolve name)⟩)
        distinct := by
          rw [List.map_map]
          have through : names.map (fun name => folded (resolve name)) =
              (names.map resolve).map folded := by
            rw [List.map_map]
            rfl
          rw [through] at unique
          exact unique.of_map }
  else .error .duplicateTarget

def Transaction.target (transaction : Transaction) (name : String) : Option Target :=
  transaction.targets.find? fun target => target.name = name

/-- The state of a transaction over a file system that no other process has
touched. -/
def Transaction.start (transaction : Transaction) (world : World) : State :=
  { world := world, targets := transaction.targets, written := [], directories := [], drawn := 0,
    undoing := false, touched := [], undone := [], made := [], quiet := true, tidy := true }

/-- The preimage of a target is still what it was. -/
def checkPreimage (target : Target) : Run Unit := do
  let current <-
    if <- look (fun world => world.present target.path) then
      Interleaved.call around (fun state =>
        match state.world.file target.path with
        | some file => .ok (some file.bytes, state)
        | none => .error (if target.path ∈ state.world.dirs then .os else .missing)) id
    else pure none
  if current ≠ target.before.map Prod.fst then Process.raise .stale

/-- The directories above a path that do not exist, the innermost first. -/
def missingDirs : Path -> Run (List Path)
  | [] => pure []
  | name :: dir => do
      if <- look (fun world => world.present (name :: dir)) then return []
      else return (name :: dir) :: (<- missingDirs dir)

/-- `directories.extend(reversed(missing))` and `written.append(path)`. -/
def takeUp (target : Target) (missing : List Path) (state : State) : State :=
  { state with
    directories := state.directories ++ missing.reverse, written := state.written ++ [target],
    quiet := state.quiet && !decide (target.path ∈ state.touched) }

/-- One round of the loop over the changes. -/
def applyChange (change : Target × Option String) : Run Unit := do
  let missing <- missingDirs change.1.path.tail
  Interleaved.change (takeUp change.1 missing)
  match change.2 with
  | none => unlink change.1.path false
  | some content => atomicWrite change.1.path (encoded content) change.1.before.isNone

/-- The write-back of one path. -/
def restore (target : Target) : Run Unit :=
  match target.before with
  | none => unlink target.path true
  | some (bytes, mode) => do
      atomicWrite target.path bytes false
      chmod target.path mode

/-- How `commit` ends. -/
inductive Report where
  | applied
  /-- A `PatchError` before anything is written. -/
  | refused
  /-- The error that stopped the commit, raised again. -/
  | raised
  /-- `RuntimeError("patch rollback unconfirmed")`. -/
  | unconfirmed
deriving DecidableEq

/-- `except OSError: failures.append(...)`: whether the body has failed. -/
def failing (body : Run Unit) : Run Bool :=
  handling (do body; return false) fun _ => return true

/-- The rollback of the written paths, the last one first; whether one failed. -/
def restoreAll : List Target -> Run Bool
  | [] => pure false
  | target :: rest => do
      let failed <- failing (restore target)
      let others <- restoreAll rest
      return failed || others

/-- `except OSError: pass`. -/
def cleanDir (dir : Path) : Run Unit := handling (removeDir dir) fun _ => pure ()

/-- The `except BaseException` clause. -/
def rollBack (written : List Target) (directories : List Path) : Run Report := do
  Interleaved.change fun state => { state with undoing := true }
  let failed <- restoreAll written.reverse
  forEach cleanDir directories.reverse
  return if failed then .unconfirmed else .raised

/-- What the program knows of its own: `written` and `directories`. -/
def ownLists : Run (List Target × List Path) := fun start =>
  (.ok (start.1.written, start.1.directories), start)

/-- `commit`, for changes in the order of their dictionary. -/
def commit (transaction : Transaction) (changes : List (String × Option String)) : Run Report :=
  if ¬ (changes.all (fun change => (transaction.target change.1).isSome) ∧
      transaction.targets.all fun target => changes.any fun change => change.1 = target.name) then
    pure .refused
  else
    handling (do
        forEach checkPreimage transaction.targets
        handling (do
            forEach applyChange (changes.filterMap (fun change =>
              (transaction.target change.1).map fun target => (target, change.2)))
            return .applied)
          (fun _ => do
            let (written, directories) <- ownLists
            rollBack written directories))
      (fun fault => pure (if fault = .stale then .refused else .raised))

end WorkspacePatches
end FixLoop
