import Mathlib.Data.List.Basic
import FixLoop.Library.Interleaved

namespace FixLoop
namespace WorkspaceBroker

open Library
open Interleaved (Process call change peek)

/-!
# Directory entries behind exclusive handles

The commit of an edit holds every file it deals with open without sharing, so
other processes may create, change, rename or delete any entry but these.  The
log says what the commit did, the last first; no operation reads it.
-/

abbrev Text := List Char

/-- How the file system folds names, and the digest of a content. -/
class Files where
  fold : Text -> Text
  digest : Text -> Text

/-- A name of the request, folded, or a private name. -/
inductive Place where
  | named (key : Text)
  | hidden (name : Nat)
deriving DecidableEq

/-- A file, which no two entries share, its content, and whether another
process made it. -/
structure Entry where
  file : Nat
  content : Text
  foreign : Bool
deriving DecidableEq

inductive Fault where
  /-- `FileNotFoundError`. -/
  | missing
  /-- Any other `OSError`. -/
  | os
  | value (text : String)
  /-- `CoordinationError`, a `RuntimeError`. -/
  | coordination
deriving DecidableEq

structure CommitOutcome where
  changedFiles : List Text
  recoveryFiles : List (Text × Place)
  errorCode : String
deriving DecidableEq

/-- What `assert_owner` finds. -/
inductive Ownership where
  | valid
  | cancelled
  | superseded
deriving DecidableEq

inductive Record where
  | intent (path : Text) (recovery : Option Place)
  | committed (path : Text)
  | failed (path : Text) (fault : Fault) (outcome : CommitOutcome)
deriving DecidableEq

inductive Action where
  /-- The file system has renamed the file. -/
  | renamed (entry : Option Entry)
  /-- The file system will delete the file. -/
  | marked (entry : Option Entry)
  | checked (path : Text) (source : Option Entry)
  | recorded (record : Record)
  | moved (path : Text) (recovery : Place)
  | restored (path : Text)
  | installed (path : Text)
  /-- A deletion of a file that was not there. -/
  | passed (path : Text)
  | discarded (path : Text)
  /-- `assert_owner` raised a `CoordinationError`. -/
  | disowned
deriving DecidableEq

/-- The entries, the places held open, those deleted once closed, the number
of files so far, the owner, and the variables of the commit. -/
structure State where
  entries : Place -> Option Entry
  pinned : List Place
  pending : List Place
  files : Nat
  owner : Ownership
  outcome : CommitOutcome
  moved : Bool
  journalFailed : Bool
  log : List Action

def State.empty : State := ⟨fun _ => none, [], [], 0, .valid, ⟨[], [], ""⟩, false, false, []⟩

def State.put (state : State) (place : Place) (entry : Option Entry) : State :=
  { state with entries := fun other => if other = place then entry else state.entries other }

/-- What another process does. -/
inductive Event where
  | create (place : Place) (content : Text)
  | change (place : Place) (content : Text)
  | remove (place : Place)
  | rename (source target : Place)
  | own (owner : Ownership)

/-- The file system lets other processes at every entry that is not held. -/
def act (event : Event) (state : State) : State :=
  match event with
  | .create place content =>
    if place ∈ state.pinned then state
    else { state.put place (some ⟨state.files, content, true⟩) with files := state.files + 1 }
  | .change place content =>
    if place ∈ state.pinned then state
    else state.put place ((state.entries place).map fun entry => { entry with content := content })
  | .remove place => if place ∈ state.pinned then state else state.put place none
  | .rename source target =>
    if source ∈ state.pinned ∨ target ∈ state.pinned ∨ source = target then state
    -- Another file at the target is replaced.
    else (state.put source none).put target (state.entries source)
  | .own owner => { state with owner := owner }

abbrev Run (Value : Type) := Process State Event Fault Value

def around (refusal : Fault) : Interleaved.Surroundings State Event Fault := ⟨act, refusal⟩

/-! ## Single calls -/

/-- A call of the file system, which may raise any `OSError`. -/
def attempt {Value : Type} (effect : State -> Except Fault (Value × State)) : Run Value := do
  call (around .missing) (fun state => .ok ((), state)) id
  call (around .os) effect id

def attempts (update : State -> State) : Run Unit := attempt fun state => .ok ((), update state)

/-- `_relative` with no sharing. -/
def openSource (place : Place) : Run Entry :=
  attempt (fun state =>
    if place ∈ state.pinned then .error .os
    else
      match state.entries place with
      | none => .error .missing
      | some entry => .ok (entry, { state with pinned := place :: state.pinned }))

/-- `_relative` with `create=True`. -/
def createStaging (place : Place) : Run Unit :=
  attempt (fun state =>
    if (state.entries place).isSome then .error .os
    else .ok ((), { state.put place (some ⟨state.files, [], false⟩) with
      pinned := place :: state.pinned, files := state.files + 1 }))

/-- `_disposition`. -/
def State.dispose (place : Place) (pending : Bool) (state : State) : State :=
  { state with
    pending := if pending then place :: state.pending else state.pending.filter (fun other => other ≠ place),
    log := if pending then .marked (state.entries place) :: state.log else state.log }

def State.write (place : Place) (content : Text) (state : State) : State :=
  state.put place ((state.entries place).map fun entry => { entry with content := content })

/-- `WriteFile` for every piece, and `FlushFileBuffers`. -/
def writeFile (place : Place) (content : Text) : Run Unit :=
  attempt fun state => if place ∈ state.pinned then .ok ((), state.write place content) else .error .os

def State.renamed (source target : Place) (state : State) : State :=
  { (state.put source none).put target (state.entries source) with
    pinned := state.pinned.map (fun place => if place = source then target else place),
    pending := state.pending.map (fun place => if place = source then target else place),
    log := .renamed (state.entries source) :: state.log }

/-- `_rename` of the file at a place; it replaces nothing. -/
def rename (source target : Place) : Run Unit :=
  attempt (fun state =>
    if source ∉ state.pinned ∨ (state.entries target).isSome then .error .os
    else .ok ((), state.renamed source target))

def note (action : Action) : Run Unit := change fun state => { state with log := action :: state.log }

/-- `record(event)`; it may also fail once the record is durable. -/
def record (event : Record) : Run Unit := do
  call (around (.value "receipt_invalid")) (fun state => .ok ((), state)) id
  attempts (fun state => { state with log := .recorded event :: state.log })
  attempts id

def assertOwner : Run Unit := do
  let owner <- attempt (fun state => .ok (state.owner, state))
  match owner with
  | .valid => pure ()
  | .cancelled => Process.raise (.value "cancelled: commit cancelled")
  | .superseded => do
      note .disowned
      Process.raise .coordination

def State.closed (state : State) : State :=
  { state with
    entries := fun place => if place ∈ state.pinned ∧ place ∈ state.pending then none else state.entries place,
    pinned := [],
    pending := [] }

def close : Run Unit := change State.closed

end WorkspaceBroker
end FixLoop

namespace FixLoop
namespace WorkspaceBroker

open Library
open Interleaved (Process call change peek handling ensuring)

/-!
# The conditional commit

`GuardedWorkspaceBroker.commit`: all bases are checked and the replacements
staged, then one original after the other is set aside, replaced and deleted.
-/

theorem pathLawful : LawfulBEq Text :=
  inferInstance

attribute [local instance] pathLawful

/-- A mutation of an accepted reply; no content means deletion. -/
structure Mutation where
  path : Text
  content : Option Text

/-- `request.base_versions`, in the order of its items. -/
structure Request where
  baseVersions : List (Text × Option Text)
  distinct : (baseVersions.map Prod.fst).Nodup

/-- The names drawn by `uuid4`. -/
structure Names where
  stage : Text -> Nat
  backup : Text -> Nat

/-- A tuple of `prepared`. -/
structure Item where
  path : Text
  source : Option Entry
  staging : Option Place

def Names.recovery (names : Names) (path : Text) : Place := .hidden (names.backup path)

section

variable [Files]

def named (path : Text) : Place := .named (Files.fold path)

/-- The source and its digest, where the path has an entry. -/
def observe (path : Text) : Run (Option Entry) :=
  handling
    (do
      let entry <- openSource (named path)
      -- `_check`, and the reads of `_digest`.
      attempts id
      attempts id
      pure (some entry))
    (fun fault => if fault = .missing then pure none else Process.raise fault)

def checkBase (path : Text) (expected : Option Text) : Run (Option Entry) := do
  -- `anchored` opens the parents.
  attempts id
  let source <- observe path
  if source.map (fun entry => Files.digest entry.content) = expected then do
    note (.checked path source)
    pure source
  else Process.raise (.value "stale_preimage: base version changed before commit")

/-- A private file, marked for deletion until it is installed. -/
def stage (place : Place) (content : Text) : Run Unit := do
  createStaging place
  attempts (State.dispose place true)
  -- The number of links.
  attempts id
  writeFile place content

def prepare (names : Names) (mutations : List Mutation) (base : Text × Option Text) : Run (Option Item) := do
  let source <- checkBase base.1 base.2
  match mutations.find? (fun mutation => mutation.path = base.1) with
  | none => pure none
  | some mutation =>
    match mutation.content with
    | none => pure (some ⟨base.1, source, none⟩)
    | some content => do
        stage (.hidden (names.stage base.1)) content
        pure (some ⟨base.1, source, some (.hidden (names.stage base.1))⟩)

def prepareAll (names : Names) (mutations : List Mutation) : List (Text × Option Text) -> Run (List Item)
  | [] => pure []
  | base :: rest => do
      let item <- prepare names mutations base
      let items <- prepareAll names mutations rest
      pure (item.toList ++ items)

/-! ## One path -/

/-- The original becomes a private recovery entry. -/
def setAside (names : Names) (path : Text) : Option Entry -> Run Unit
  | none => pure ()
  | some _ => do
      -- `_check`.
      attempts id
      rename (named path) (names.recovery path)
      change fun state => { state with moved := true, log := .moved path (names.recovery path) :: state.log }

/-- The staged file takes the name; nothing is replaced. -/
def putIn (path : Text) (source : Option Entry) : Option Place -> Run Unit
  | none => if source.isNone then note (.passed path) else pure ()
  | some staging => do
      attempts (State.dispose staging false)
      handling (rename staging (named path)) (fun fault => do
        attempts (State.dispose staging true)
        Process.raise fault)
      note (.installed path)

def list (path : Text) (state : State) : State :=
  { state with outcome := { state.outcome with changedFiles := state.outcome.changedFiles ++ [path] } }

def retain (path : Text) (recovery : Place) (state : State) : State :=
  { state with outcome := { state.outcome with recoveryFiles := state.outcome.recoveryFiles ++ [(path, recovery)] } }

def conclude (errorCode : String) (state : State) : State :=
  { state with outcome := { state.outcome with errorCode := errorCode } }

/-- `except (OSError, ValueError)`. -/
def catching {Value : Type} (body : Run Value) (handler : Fault -> Run Value) : Run Value :=
  handling body fun fault => if fault = .coordination then Process.raise fault else handler fault

def confirm (path : Text) : Run Unit :=
  catching (record (.committed path)) (fun fault => do
    change (fun state => { state with journalFailed := true })
    Process.raise fault)

def discard (names : Names) (path : Text) : Option Entry -> Run Unit
  | none => pure ()
  | some _ => do
      attempts (State.dispose (names.recovery path) true)
      note (.discarded path)

/-- The body of the loop. -/
def replace (names : Names) (item : Item) : Run Unit := do
  assertOwner
  record (.intent item.path (item.source.map fun _ => names.recovery item.path))
  setAside names item.path item.source
  putIn item.path item.source item.staging
  change (list item.path)
  confirm item.path
  discard names item.path item.source

/-- The original is put back, or listed where it is. -/
def putBack (names : Names) (path : Text) : Run Unit := do
  let moved <- peek State.moved
  let changed <- peek (fun state => decide (path ∈ state.outcome.changedFiles))
  if moved then
    if changed then change (retain path (names.recovery path))
    else
      -- Only an `OSError` can be raised here.
      handling
        (do
          rename (names.recovery path) (named path)
          note (.restored path))
        (fun _ => change fun state => list path (retain path (names.recovery path) state))
  else pure ()

/-- `except (OSError, ValueError)` of the loop. -/
def report (names : Names) (path : Text) (fault : Fault) : Run Unit := do
  putBack names path
  change (fun state =>
    conclude (if state.outcome.recoveryFiles ≠ [] ∨ state.journalFailed then "execution_uncertain" else "commit_failed")
      state)
  let outcome <- peek State.outcome
  catching (record (.failed path fault outcome)) fun _ => change (conclude "execution_uncertain")

def install (names : Names) : List Item -> Run Unit
  | [] => pure ()
  | item :: rest => do
      change fun state => { state with moved := false, journalFailed := false }
      let stopped <- catching
        (do
          replace names item
          pure false)
        (fun fault => do
          report names item.path fault
          pure true)
      if stopped then pure () else install names rest

def commit (names : Names) (request : Request) (mutations : List Mutation) : Run CommitOutcome :=
  if mutations.isEmpty then peek State.outcome
  else
    ensuring
      (do
        let items <- prepareAll names mutations request.baseVersions
        assertOwner
        install names items
        peek State.outcome)
      close

end

end WorkspaceBroker
end FixLoop
