import Mathlib.Data.Finset.Card
import FixLoop.Library.Machine
import FixLoop.EditLock.Paths

namespace FixLoop
namespace EditLock

open Library

variable [Lettering]

/-!
# The edit lock

Grants of paths for writing and the reads that must come before a write.  The
history is no field of the source: it records, the latest first, what was
granted and which reads were accepted.  What the file system and the sandbox
answer is an input of each call.
-/

inductive Entry where
  | seeded (rel : Text)
  | expanded (rel : Text) (operation : String)
  | read (rel : Text)
  | allowed (rel : Text)
  deriving DecidableEq

structure EditLockState where
  sandboxOnly : Bool
  allowedEdit : Finset Text
  allowedCreate : Finset Text := ∅
  allowedDelete : Finset Text := ∅
  readSet : Finset Text := ∅
  generation : Nat := 0
  requiredReadGeneration : Text -> Nat := fun _ => 0
  readGeneration : Text -> Option Nat := fun _ => none
  unreadWriteRejectCount : Nat := 0
  applyPathRejectCount : Nat := 0
  maxExpand : Nat
  expandCount : Nat := 0
  maxAutoAllow : Nat
  requireExpandBeforeAuto : Bool := false
  history : List Entry

/-- What the file system answers about the repository during one call; an
answer may be an error with a text. -/
structure World where
  resolved : Text -> Option Text
  isFile : Text -> Except String Bool
  present : Text -> Except String Bool
  linked : Text -> Except String Bool
  contained : Text -> Except String Bool

/-- `target.exists() or target.is_symlink()`. -/
def World.occupied (rel : Text) (world : World) : Except String Bool :=
  match world.present rel with
  | .ok false => world.linked rel
  | answer => answer

/-- The answer of a sandbox: what it did and the versions of files that it
reports, which may be `None`. -/
structure Evidence where
  ok : Bool
  actualBackend : String
  sandboxCleanup : String
  sandboxReceiptId : String
  workspaceVersions : List (Text × Option Text)

abbrev Verdict := Bool × String

namespace Evidence

def version? (rel : Text) (evidence : Evidence) : Option (Option Text) :=
  (evidence.workspaceVersions.find? fun entry => decide (entry.1 = rel)).map Prod.snd

def confirmed (evidence : Evidence) : Bool :=
  evidence.ok && evidence.actualBackend == "linux_sandbox" && evidence.sandboxCleanup == "confirmed" &&
    evidence.sandboxReceiptId != ""

/-- `_evidence_path`. -/
def path (raw : Text) (evidence : Evidence) : Option Text :=
  match relativePath raw with
  | none => none
  | some rel =>
    match evidence.version? rel with
    | some (some version) => if evidence.confirmed && version.length == 64 then some rel else none
    | _ => none

end Evidence

namespace EditLockState

/-- `EditLockState(repo_root, allowed_edit, max_expand, max_auto_allow,
sandbox_only)`. -/
def construct (world : World) (allowedEdit : List Text) (maxExpand maxAutoAllow : Int) (sandboxOnly : Bool) :
    EditLockState :=
  let seeds := (allowedEdit.map (normalizeRepoRel world.resolved)).filter (fun rel => rel != [])
  { sandboxOnly := sandboxOnly
    allowedEdit := seeds.toFinset
    maxExpand := maxExpand.toNat
    maxAutoAllow := maxAutoAllow.toNat
    history := seeds.map .seeded }

/-! ## Reads -/

/-- A read may grant an implementation file for editing. -/
def allows (rel : Text) (lock : EditLockState) : Bool :=
  editableSource rel && !isTestPath rel && !(lock.requireExpandBeforeAuto && lock.expandCount == 0) &&
    rel ∉ lock.allowedEdit && lock.allowedEdit.card < lock.maxAutoAllow

def acceptRead (rel : Text) (autoAllowImpl : Bool) (lock : EditLockState) : EditLockState :=
  if autoAllowImpl && lock.allows rel then
    { lock with
      readSet := insert rel lock.readSet
      readGeneration := Function.update lock.readGeneration rel (some (lock.requiredReadGeneration rel))
      allowedEdit := insert rel lock.allowedEdit
      history := .allowed rel :: .read rel :: lock.history }
  else
    { lock with
      readSet := insert rel lock.readSet
      readGeneration := Function.update lock.readGeneration rel (some (lock.requiredReadGeneration rel))
      history := .read rel :: lock.history }

def markRead (world : World) (path : Text) (autoAllowImpl : Bool) (lock : EditLockState) :
    EditLockState × Bool :=
  let rel := normalizeRepoRel world.resolved path
  if lock.sandboxOnly then (lock, false)
  else if rel = [] then (lock, false)
  else
    match world.isFile rel with
    | .ok true => (lock.acceptRead rel autoAllowImpl, true)
    | _ => (lock, false)

def markReadEvidence (path : Text) (evidence : Evidence) (autoAllowImpl : Bool) (lock : EditLockState) :
    EditLockState × Bool :=
  match evidence.path path with
  | none => (lock, false)
  | some rel => (lock.acceptRead rel autoAllowImpl, true)

def seed (world : World) (path : Text) (lock : EditLockState) : EditLockState :=
  let rel := normalizeRepoRel world.resolved path
  let seeded := { lock with allowedEdit := insert rel lock.allowedEdit, history := .seeded rel :: lock.history }
  if rel = [] then lock
  else if lock.sandboxOnly then seeded
  else (seeded.markRead world rel false).1

/-- Each path comes with what the file system answers when it is read. -/
def seedAndPreread (paths : List (World × Text)) (lock : EditLockState) : EditLockState :=
  paths.foldl (fun lock entry => lock.seed entry.1 entry.2) lock

/-! ## Expansions -/

/-- Another generation is required of the path. -/
def expand (rel : Text) (operation : String) (lock : EditLockState) : EditLockState :=
  { lock with
    expandCount := lock.expandCount + 1
    generation := lock.generation + 1
    requiredReadGeneration := Function.update lock.requiredReadGeneration rel (lock.generation + 1)
    history := .expanded rel operation :: lock.history }

def expandChecked (rel : Text) (lock : EditLockState) : EditLockState × Verdict :=
  if rel ∈ lock.allowedEdit then (lock, true, "already_allowed")
  else if lock.maxExpand ≤ lock.expandCount then
    (lock, false, "expand_lock_max:" ++ toString lock.maxExpand)
  else
    ({ lock with allowedEdit := insert rel lock.allowedEdit }.expand rel "modify", true,
      "expanded:" ++ String.ofList rel)

def grantOperation (rel : Text) (operation : String) (lock : EditLockState) : EditLockState × Verdict :=
  if operation = "create" then
    if rel ∈ lock.allowedCreate then (lock, true, "already_allowed")
    else if lock.maxExpand ≤ lock.expandCount then
      (lock, false, "expand_lock_max:" ++ toString lock.maxExpand)
    else
      ({ lock with allowedCreate := insert rel lock.allowedCreate }.expand rel "create", true,
        "expanded:" ++ String.ofList rel ++ ":create")
  else if operation = "delete" then
    if rel ∈ lock.allowedDelete then (lock, true, "already_allowed")
    else if lock.maxExpand ≤ lock.expandCount then
      (lock, false, "expand_lock_max:" ++ toString lock.maxExpand)
    else
      ({ lock with allowedDelete := insert rel lock.allowedDelete }.expand rel "delete", true,
        "expanded:" ++ String.ofList rel ++ ":delete")
  else (lock, false, "invalid_edit_operation")

/-- The error of a call is the text of what it raises. -/
def answered (result : EditLockState × Verdict) : EditLockState × Except String Verdict :=
  (result.1, .ok result.2)

def expandLock (world : World) (path : Text) (operation : String) (lock : EditLockState) :
    EditLockState × Except String Verdict :=
  let rel := normalizeRepoRel world.resolved path
  if lock.sandboxOnly then (lock, .ok (false, "sandbox_read_evidence_required"))
  else if rel = [] then (lock, .ok (false, "path_escape_or_invalid"))
  else if isSensitivePath rel then (lock, .ok (false, "sensitive_path:" ++ String.ofList rel))
  else if operation = "create" then
    match world.occupied rel, world.contained rel with
    | .error text, _ => (lock, .error text)
    | .ok true, _ => (lock, .ok (false, "create_target_exists:" ++ String.ofList rel))
    | .ok false, .error text => (lock, .error text)
    | .ok false, .ok false => (lock, .ok (false, "path_escape_or_invalid"))
    | .ok false, .ok true => answered (lock.grantOperation rel operation)
  else if operation = "delete" then
    match world.isFile rel with
    | .error text => (lock, .error text)
    | .ok false => (lock, .ok (false, "not_a_file:" ++ String.ofList rel))
    | .ok true => answered (lock.grantOperation rel operation)
  else if operation ≠ "modify" then (lock, .ok (false, "invalid_edit_operation"))
  else if rel ∈ lock.allowedEdit then (lock, .ok (true, "already_allowed"))
  else
    match world.isFile rel with
    | .error text => (lock, .ok (false, "stat_failed:" ++ text))
    | .ok false => (lock, .ok (false, "not_a_file:" ++ String.ofList rel))
    | .ok true => answered (lock.expandChecked rel)

def expandLockEvidence (path : Text) (evidence : Evidence) (lock : EditLockState) : EditLockState × Verdict :=
  match evidence.path path with
  | none => (lock, false, "sandbox_read_evidence_required")
  | some rel => lock.expandChecked rel

def expandOperationEvidence (path : Text) (evidence : Evidence) (operation : String) (lock : EditLockState) :
    EditLockState × Verdict :=
  match relativePath path with
  | none => (lock, false, "path_escape_or_invalid")
  | some rel =>
    if !evidence.confirmed || (evidence.version? rel).isNone then
      (lock, false, "sandbox_path_evidence_required")
    else if operation = "create" ∧ (evidence.version? rel).join.isSome then
      (lock, false, "create_target_exists")
    else if operation = "delete" ∧ (evidence.version? rel).join.isNone then
      (lock, false, "delete_target_missing")
    else lock.grantOperation rel operation

/-! ## Writes -/

def granted (operation : String) (lock : EditLockState) : Finset Text :=
  if operation = "modify" then lock.allowedEdit
  else if operation = "create" then lock.allowedCreate
  else if operation = "delete" then lock.allowedDelete
  else ∅

/-- The read generation of a path; none is behind every required one. -/
def unread (rel : Text) (lock : EditLockState) : Bool :=
  rel ∉ lock.readSet ||
    match lock.readGeneration rel with
    | none => true
    | some generation => decide (generation < lock.requiredReadGeneration rel)

def refusePath (reason : String) (lock : EditLockState) : EditLockState × Except String Verdict :=
  ({ lock with applyPathRejectCount := lock.applyPathRejectCount + 1 }, .ok (false, reason))

def refuseUnread (rel : Text) (lock : EditLockState) : EditLockState × Except String Verdict :=
  ({ lock with unreadWriteRejectCount := lock.unreadWriteRejectCount + 1 },
    .ok (false, "unread_before_write:" ++ String.ofList rel ++ ":read_generation=" ++
      (match lock.readGeneration rel with | none => "-1" | some generation => toString generation) ++
      ":required=" ++ toString (lock.requiredReadGeneration rel)))

def checkWrite (world : World) (path : Text) (operation : String) (lock : EditLockState) :
    EditLockState × Except String Verdict :=
  let rel := normalizeRepoRel world.resolved path
  if rel = [] then lock.refusePath "path_escape_or_invalid"
  else if isSensitivePath rel then lock.refusePath ("sensitive_path:" ++ String.ofList rel)
  else if rel ∉ lock.granted operation then
    lock.refusePath ("not_in_allowed_edit:" ++ String.ofList rel)
  else if operation = "create" then
    if lock.sandboxOnly then (lock, .ok (true, ""))
    else
      match world.present rel with
      | .error text => (lock, .error text)
      | .ok true => (lock, .ok (false, "create_target_exists:" ++ String.ofList rel))
      | .ok false => (lock, .ok (true, ""))
  else if lock.unread rel then lock.refuseUnread rel
  else (lock, .ok (true, ""))

end EditLockState

/-- The source sets `require_expand_before_auto` from outside. -/
inductive Call where
  | requireExpandBeforeAuto (value : Bool)
  | seedAndPreread (paths : List (World × Text))
  | markRead (world : World) (path : Text) (autoAllowImpl : Bool)
  | markReadEvidence (path : Text) (evidence : Evidence) (autoAllowImpl : Bool)
  | expandLock (world : World) (path : Text) (operation : String)
  | expandLockEvidence (path : Text) (evidence : Evidence)
  | expandOperationEvidence (path : Text) (evidence : Evidence) (operation : String)
  | checkWrite (world : World) (path : Text) (operation : String)

open EditLockState in
def step (lock : EditLockState) : Call -> EditLockState
  | .requireExpandBeforeAuto value => { lock with requireExpandBeforeAuto := value }
  | .seedAndPreread paths => lock.seedAndPreread paths
  | .markRead world path autoAllowImpl => (lock.markRead world path autoAllowImpl).1
  | .markReadEvidence path evidence autoAllowImpl => (lock.markReadEvidence path evidence autoAllowImpl).1
  | .expandLock world path operation => (lock.expandLock world path operation).1
  | .expandLockEvidence path evidence => (lock.expandLockEvidence path evidence).1
  | .expandOperationEvidence path evidence operation => (lock.expandOperationEvidence path evidence operation).1
  | .checkWrite world path operation => (lock.checkWrite world path operation).1

def machine : Machine EditLockState Call := ⟨step⟩

end EditLock
end FixLoop
