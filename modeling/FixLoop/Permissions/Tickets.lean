import Mathlib.Data.List.Dedup
import Mathlib.Data.List.Lex
import Mathlib.Data.Char
import Mathlib.Data.List.Sort
import FixLoop.EditLock.Paths
import FixLoop.Library.Interleaved
import FixLoop.Library.Keyed
import FixLoop.Library.Machine

namespace FixLoop
namespace Permissions

open Library
open EditLock (Text Lettering relativePath oneOf)

/-!
# Scopes and tickets of the sandbox

The permissions of one identity: a scope, the proposal that waits for a
decision, the tickets that are outstanding and the calls that were consumed.
Each section under the lock reads the whole state and saves it last.
-/

theorem textLawful : LawfulBEq Text := inferInstance

attribute [local instance] textLawful

/-- A `ValueError` of its own, one of `relative_path`, what a callback raises,
or the limit of the recursion. -/
inductive Fault where
  | value (text : String)
  | path (path : Text)
  | callback
  | recursion
deriving DecidableEq

def CAPABILITIES : List String :=
  ["workspace_read", "workspace_write", "python", "pytest", "offline_install", "trusted_data",
    "trusted_control", "trusted_network"]

/-! ## Scopes -/

structure PermissionScope where
  readPaths : List Text
  writePaths : List Text
  capabilities : List Text
  installPaths : List Text
deriving DecidableEq

/-- A proposed execution.  Nothing reads the request and the versions of the
inputs but the digest, so they are texts. -/
structure Action where
  request : Text
  capability : Text
  reads : List Text
  writes : List Text
  installs : List Text
  inputVersions : Text
deriving DecidableEq

section Scopes

variable [Lettering]

/-- `relative_path(path, allow_root=True).casefold()`. -/
def folded (path : Text) : Except Fault Text :=
  if path = ['.'] then .ok (Lettering.casefold ['.'])
  else
    match relativePath path with
    | none => .error (.path path)
    | some accepted => .ok (Lettering.casefold accepted)

/-- `sorted(set(texts))`. -/
def sortedSet (texts : List Text) : List Text := texts.dedup.insertionSort (· ≤ ·)

def paths (values : List Text) : Except Fault (List Text) :=
  if 256 < values.length then .error (.value "permission_invalid: paths")
  else (values.mapM folded).map sortedSet

def covers (scopes : List Text) (path : Text) : Except Fault Bool :=
  (folded path).map (fun path =>
    scopes.any fun scope => scope == ['.'] || scope == path || (scope ++ ['/']).isPrefixOf path)

/-- `all(_covers(scopes, path) for path in asked)`. -/
def coversAll (scopes : List Text) : List Text -> Except Fault Bool
  | [] => .ok true
  | path :: rest => do
      if <- covers scopes path then coversAll scopes rest else .ok false

namespace PermissionScope

/-- `PermissionScope(**raw)`. -/
def build (raw : PermissionScope) : Except Fault PermissionScope := do
  let readPaths <- paths raw.readPaths
  let writePaths <- paths raw.writePaths
  let installPaths <- paths raw.installPaths
  if raw.capabilities.all (oneOf CAPABILITIES) then
    .ok ⟨readPaths, writePaths, sortedSet raw.capabilities, installPaths⟩
  else .error (.value "permission_invalid: unsupported capability")

def allows (scope : PermissionScope) (action : Action) : Except Fault Bool := do
  if action.capability ∈ scope.capabilities then
    if <- coversAll scope.readPaths action.reads then
      if <- coversAll scope.writePaths action.writes then coversAll scope.installPaths action.installs
      else .ok false
    else .ok false
  else .ok false

def extend (scope : PermissionScope) (action : Action) : Except Fault PermissionScope :=
  build ⟨scope.readPaths ++ action.reads, scope.writePaths ++ action.writes,
    scope.capabilities ++ [action.capability], scope.installPaths ++ action.installs⟩

/-- The defaults of a scope. -/
def standard : PermissionScope :=
  ⟨[['.']], [['.']], ["workspace_read", "workspace_write", "python", "pytest", "trusted_data",
    "trusted_control"].map String.toList, []⟩

end PermissionScope

/-- A scope that was built, as every object of this type is. -/
abbrev BuiltScope := {scope : PermissionScope // ∃ raw, PermissionScope.build raw = .ok scope}

end Scopes

/-! ## States -/

/-- `_checksum` of an action and of a policy, for the only identity. -/
class Checksums (Digest : Type) where
  ofAction : Action -> Digest
  ofPolicy : Nat -> PermissionScope -> Digest

open Checksums

inductive Status where
  | pending
  | approved
  | denied
  | stale
  | consumed
deriving DecidableEq

structure Proposal (Digest : Type) where
  id : Text
  status : Status
  action : Action
  actionDigest : Digest
  revision : Nat

/-- The evidence that a call is allowed.  Under an approval it holds the
extended scope and the digest of the approved action. -/
structure Ticket (Digest : Type) where
  authorizationId : Text
  actionDigest : Digest
  revision : Nat
  policyDigest : Digest
  callId : Text
  grantScope : Option PermissionScope
  approvalDigest : Option Digest

inductive Audited (Digest : Type) where
  | allowed (ticket : Ticket Digest)
  | pending (approvalId : Text) (actionDigest : Digest)
  | decided (status : Status) (approvalId : Text) (actionDigest : Digest)
  | scopeChanged
  | cancelled (approvalId : Text)
  | grantCommitted (approvalId : Text) (actionDigest : Digest)
  | started (ticket : Ticket Digest)
  | notStarted (callId : Text)
  | outcome (authorizationId : Text) (actionDigest : Digest) (status receiptId : String)

structure State (Digest : Type) where
  revision : Nat
  scope : PermissionScope
  pending : Option (Proposal Digest)
  tickets : List (Ticket Digest)
  audit : List (Nat × Audited Digest)
  usedCalls : List Text

section Sections

variable {Digest : Type} [DecidableEq Digest] [Checksums Digest] [Lettering]

namespace State

/-- `_validate_state`. -/
def valid (state : State Digest) : Bool :=
  (match state.scope.build with
    | .ok _ => true
    | .error _ => false) &&
    decide (state.tickets.length ≤ 256) &&
    state.pending.all fun pending => decide (pending.actionDigest = ofAction pending.action)

/-- The initial state of `PermissionService`. -/
def opened (scope : BuiltScope) : State Digest := ⟨1, scope.1, none, [], [], []⟩

def policy (state : State Digest) : Digest := ofPolicy state.revision state.scope

/-- `entries[-limit:]`. -/
def lastEntries {Entry : Type} (limit : Nat) (entries : List Entry) : List Entry :=
  entries.drop (entries.length - limit)

/-- `[*audit, entry][-512:]`. -/
def audited (state : State Digest) (entry : Audited Digest) : State Digest :=
  { state with audit := lastEntries 512 (state.audit ++ [(state.revision, entry)]) }

end State

/-- `_locked`, where the state of a file is validated before it is used. -/
def locked {Value : Type} (filed : Bool) (body : State Digest -> Except Fault (Value × State Digest))
    (state : State Digest) : Except Fault (Value × State Digest) :=
  if filed && !state.valid then .error (.value "permission_state_invalid") else body state

/-- What is returned under the lock. -/
inductive Gate (Digest : Type) where
  | waiting (approvalId : Text)
  | refused (status : Status) (approvalId : Text)
  | allowed (ticket : Ticket Digest)
  | proposed (proposal : Proposal Digest)

/-- The evidence for a scope that an approval may have extended. -/
def evidence (action : Action) (callId authorizationId : Text) (scope : PermissionScope) (approved : Option Digest)
    (state : State Digest) : Ticket Digest :=
  ⟨authorizationId, ofAction action, state.revision, state.policy, callId, approved.map (fun _ => scope), approved⟩

/-- The issue of a ticket under a scope that allows the action. -/
def issue (action : Action) (callId authorizationId : Text) (scope : PermissionScope) (approved : Option Digest)
    (state : State Digest) : Except Fault (Gate Digest × State Digest) :=
  let ticket := evidence action callId authorizationId scope approved state
  if callId ∈ state.tickets.map Ticket.callId then .error (.value "authorization_replayed")
  else if 256 ≤ state.tickets.length then .error (.value "permission_ticket_limit")
  else .ok (.allowed ticket, { state with tickets := state.tickets ++ [ticket] }.audited (.allowed ticket))

/-- A proposal that waits is handed out again, another action is proposed. -/
def propose (action : Action) (approvalId : Text) (state : State Digest) : Gate Digest × State Digest :=
  let proposal : Proposal Digest := ⟨approvalId, .pending, action, ofAction action, state.revision⟩
  match state.pending with
  | some pending =>
    if pending.actionDigest = ofAction action ∧ pending.status ≠ .consumed then (.proposed pending, state)
    else (.proposed proposal, { state with pending := some proposal }.audited (.pending approvalId (ofAction action)))
  | none => (.proposed proposal, { state with pending := some proposal }.audited (.pending approvalId (ofAction action)))

/-- The last part of the section, for a scope that an approval may extend. -/
def admitCall (action : Action) (callId authorizationId approvalId : Text) (scope : PermissionScope)
    (approved : Option Digest) (state : State Digest) : Except Fault (Gate Digest × State Digest) := do
  if <- scope.allows action then issue action callId authorizationId scope approved state
  else .ok (propose action approvalId state)

/-- `action["capability"] == "workspace_read" and scope.allows(action)`. -/
def internalRead (action : Action) (scope : PermissionScope) : Except Fault Bool :=
  if action.capability = "workspace_read".toList then scope.allows action else .ok false

/-- The section of `authorize_action` under the lock. -/
def authorizeLocked (action : Action) (callId authorizationId approvalId : Text) (state : State Digest) :
    Except Fault (Gate Digest × State Digest) := do
  if callId ∈ state.usedCalls ∨ callId ∈ state.tickets.map Ticket.callId then
    .error (.value "authorization_replayed")
  else
    let scope <- state.scope.build
    let reads <- internalRead action scope
    match state.pending with
    | none => admitCall action callId authorizationId approvalId scope none state
    | some pending =>
      if pending.status = .pending ∨ pending.status = .approved then
        if reads then admitCall action callId authorizationId approvalId scope none state
        else if pending.actionDigest ≠ ofAction action then .ok (.waiting pending.id, state)
        else if pending.status = .approved then
          if pending.revision ≠ state.revision then .error (.value "approval_stale")
          else
            let extended <- scope.extend action
            admitCall action callId authorizationId approvalId extended (some pending.actionDigest) state
        else admitCall action callId authorizationId approvalId scope none state
      else if pending.actionDigest = ofAction action ∧ (pending.status = .denied ∨ pending.status = .stale) then
        .ok (.refused pending.status pending.id, state)
      else admitCall action callId authorizationId approvalId scope none state

/-- A new revision, without the tickets of the old one. -/
def State.fenced (state : State Digest) (scope : PermissionScope) (pending : Option (Proposal Digest)) :
    State Digest :=
  { state with revision := state.revision + 1, scope := scope, tickets := [], pending := pending }

def resolve (approvalId : Text) (allow : Bool) (state : State Digest) : Except Fault (Unit × State Digest) :=
  match state.pending with
  | some pending =>
    if pending.id ≠ approvalId ∨ pending.status ≠ .pending then .error (.value "approval_stale")
    else
      let status : Status := if allow then .approved else .denied
      .ok ((), (state.fenced state.scope
        (some { pending with status := status, revision := state.revision + 1 })).audited
          (.decided status approvalId pending.actionDigest))
  | none => .error (.value "approval_stale")

def replaceScope (scope : BuiltScope) (state : State Digest) : Except Fault (Unit × State Digest) :=
  .ok ((), (state.fenced scope.1 (state.pending.map (fun pending =>
    { pending with status := .stale }))).audited .scopeChanged)

def initializeScope (scope : BuiltScope) (state : State Digest) : Except Fault (Unit × State Digest) :=
  if state.revision = 1 ∧ state.audit.isEmpty ∧ state.tickets.isEmpty then
    .ok ((), { state with scope := scope.1 })
  else .ok ((), state)

def cancelPending (approvalId : Option Text) (state : State Digest) : Except Fault (Unit × State Digest) :=
  match state.pending with
  | some pending =>
    if (pending.status = .pending ∨ pending.status = .approved) ∧
        (approvalId = none ∨ approvalId = some pending.id) then
      .ok ((), (state.fenced state.scope (some { pending with status := .stale })).audited (.cancelled pending.id))
    else .ok ((), state)
  | none => .ok ((), state)

/-- The ticket is taken away and its call is recorded. -/
def State.taken (state : State Digest) (callId : Text) : State Digest :=
  { state with
      tickets := state.tickets.filter (fun ticket => decide (ticket.callId ≠ callId)),
      usedCalls := state.usedCalls ++ [callId] }

/-- The scope of a grant takes effect. -/
def commitGrant (digest : Digest) (ticket : Ticket Digest) (state : State Digest) :
    Except Fault (Ticket Digest × State Digest) :=
  match ticket.grantScope, state.pending with
  | none, _ => .ok (ticket, state)
  | some scope, some pending =>
    if pending.status ≠ .approved ∨ some pending.actionDigest ≠ ticket.approvalDigest then
      .error (.value "approval_stale")
    else
      let granted := { state with scope := scope, pending := some { pending with status := .consumed } }
      .ok ({ ticket with grantScope := none, policyDigest := granted.policy },
        granted.audited (.grantCommitted pending.id digest))
  | some _, none => .error (.value "approval_stale")

def consumeAction (action : Action) (callId : Text) (state : State Digest) :
    Except Fault (Ticket Digest × State Digest) :=
  match state.tickets.find? (fun ticket => decide (ticket.callId = callId)) with
  | none => .error (.value "authorization_required: missing, changed or revoked ticket")
  | some ticket =>
    if ticket.actionDigest ≠ ofAction action ∨ ticket.revision ≠ state.revision ∨
        ticket.policyDigest ≠ state.policy then
      .error (.value "authorization_required: missing, changed or revoked ticket")
    else if 16384 ≤ state.usedCalls.length then .error (.value "permission_call_limit")
    else
      (commitGrant (ofAction action) ticket (state.taken callId)).map (fun done =>
        (done.1, done.2.audited (.started done.1)))

def assertCurrent (evidence : Ticket Digest) (state : State Digest) : Except Fault (Unit × State Digest) :=
  if evidence.revision ≠ state.revision ∨ evidence.policyDigest ≠ state.policy then
    .error (.value "authorization_revoked")
  else .ok ((), state)

def discard (callId : Text) (state : State Digest) : Except Fault (Unit × State Digest) :=
  if callId ∈ state.tickets.map Ticket.callId then
    .ok ((), { state with tickets :=
      state.tickets.filter (fun ticket => decide (ticket.callId ≠ callId)) }.audited (.notStarted callId))
  else .ok ((), state)

def outcome (evidence : Ticket Digest) (status receiptId : String) (state : State Digest) :
    Except Fault (Unit × State Digest) :=
  .ok ((), state.audited (.outcome evidence.authorizationId evidence.actionDigest status receiptId))

/-- The state and the digest of its policy. -/
def snapshot (state : State Digest) : Except Fault ((State Digest × Digest) × State Digest) :=
  .ok ((state, state.policy), state)

end Sections

end Permissions
end FixLoop
