import FixLoop.Permissions.Tickets

namespace FixLoop
namespace Permissions

open Library
open Interleaved (Process Triple Moves Stable Surroundings Turn)
open EditLock (Text Lettering oneOf)
open Checksums

/-!
# Runs of the permission service

Any number of callers take turns at the sections under the lock.  A log keeps
the state and what happened, the latest event first; authorization is a
program whose callback is answered while other callers go on.
-/

inductive Event where
  | issued (callId : Text) (action : Action)
  | approved (action : Action)
  | cleared
  | consumed (callId : Text) (action : Action) (granted : Bool)

namespace Event

/-- A scope was replaced, or a proposal was resolved or cancelled. -/
def Clears : Event -> Prop
  | approved _ => True
  | cleared => True
  | _ => False

/-- The ticket of the call and action was issued, and nothing cleared it. -/
def Issued (events : List Event) (callId : Text) (action : Action) : Prop :=
  ∃ between earlier,
    events = between ++ issued callId action :: earlier ∧ ∀ event ∈ between, ¬ event.Clears

/-- The action that was approved last, unless a grant was consumed since. -/
def unused : List Event -> Option Action
  | [] => none
  | approved action :: _ => some action
  | consumed _ _ true :: _ => none
  | _ :: rest => unused rest

def consumedCall : Event -> Option Text
  | consumed callId _ _ => some callId
  | _ => none

/-- The calls that were consumed, the latest first. -/
def consumedCalls (events : List Event) : List Text := events.filterMap consumedCall

end Event

structure Log (Digest : Type) where
  state : State Digest
  events : List Event

section Service

variable {Digest : Type} [DecidableEq Digest] [Checksums Digest] [Lettering]

namespace Log

def opened (scope : BuiltScope) : Log Digest := ⟨State.opened scope, []⟩

/-- A section of the service, and what it adds to the events. -/
def through {Value : Type} (filed : Bool) (body : State Digest -> Except Fault (Value × State Digest))
    (happened : State Digest -> Value × State Digest -> List Event) (log : Log Digest) :
    Except Fault (Value × Log Digest) :=
  (locked filed body log.state).map fun done => (done.1, ⟨done.2, happened log.state done ++ log.events⟩)

def authorize (filed : Bool) (action : Action) (callId authorizationId approvalId : Text) :
    Log Digest -> Except Fault (Gate Digest × Log Digest) :=
  through filed (authorizeLocked action callId authorizationId approvalId) (fun _ done =>
    match done.1 with
    | .allowed _ => [.issued callId action]
    | _ => [])

def resolve (filed : Bool) (approvalId : Text) (allow : Bool) : Log Digest -> Except Fault (Unit × Log Digest) :=
  through filed (Permissions.resolve approvalId allow) (fun state _ =>
    if allow then (state.pending.map fun pending => Event.approved pending.action).toList else [.cleared])

def replaceScope (filed : Bool) (scope : BuiltScope) : Log Digest -> Except Fault (Unit × Log Digest) :=
  through filed (Permissions.replaceScope scope) fun _ _ => [.cleared]

def initializeScope (filed : Bool) (scope : BuiltScope) : Log Digest -> Except Fault (Unit × Log Digest) :=
  through filed (Permissions.initializeScope scope) fun _ _ => []

def cancelPending (filed : Bool) (approvalId : Option Text) : Log Digest -> Except Fault (Unit × Log Digest) :=
  through filed (Permissions.cancelPending approvalId) (fun state done =>
    if done.2.revision = state.revision then [] else [.cleared])

def consumeAction (filed : Bool) (action : Action) (callId : Text) :
    Log Digest -> Except Fault (Ticket Digest × Log Digest) :=
  through filed (Permissions.consumeAction action callId) (fun _ done =>
    [.consumed callId action done.1.approvalDigest.isSome])

def assertCurrent (filed : Bool) (evidence : Ticket Digest) : Log Digest -> Except Fault (Unit × Log Digest) :=
  through filed (Permissions.assertCurrent evidence) fun _ _ => []

def discard (filed : Bool) (callId : Text) : Log Digest -> Except Fault (Unit × Log Digest) :=
  through filed (Permissions.discard callId) fun _ _ => []

def outcome (filed : Bool) (evidence : Ticket Digest) (status receiptId : String) :
    Log Digest -> Except Fault (Unit × Log Digest) :=
  through filed (Permissions.outcome evidence status receiptId) fun _ _ => []

def snapshot (filed : Bool) : Log Digest -> Except Fault ((State Digest × Digest) × Log Digest) :=
  through filed Permissions.snapshot fun _ _ => []

end Log

inductive Call (Digest : Type) [Lettering] where
  | authorize (action : Action) (callId authorizationId approvalId : Text)
  | resolve (approvalId : Text) (allow : Bool)
  | replaceScope (scope : BuiltScope)
  | initializeScope (scope : BuiltScope)
  | cancelPending (approvalId : Option Text)
  | consumeAction (action : Action) (callId : Text)
  | assertCurrent (evidence : Ticket Digest)
  | discard (callId : Text)
  | outcome (evidence : Ticket Digest) (status receiptId : String)
  | snapshot

def perform (filed : Bool) : Call Digest -> Log Digest -> Except Fault (Log Digest)
  | .authorize action callId authorizationId approvalId, log =>
    (log.authorize filed action callId authorizationId approvalId).map Prod.snd
  | .resolve approvalId allow, log => (log.resolve filed approvalId allow).map Prod.snd
  | .replaceScope scope, log => (log.replaceScope filed scope).map Prod.snd
  | .initializeScope scope, log => (log.initializeScope filed scope).map Prod.snd
  | .cancelPending approvalId, log => (log.cancelPending filed approvalId).map Prod.snd
  | .consumeAction action callId, log => (log.consumeAction filed action callId).map Prod.snd
  | .assertCurrent evidence, log => (log.assertCurrent filed evidence).map Prod.snd
  | .discard callId, log => (log.discard filed callId).map Prod.snd
  | .outcome evidence status receiptId, log => (log.outcome filed evidence status receiptId).map Prod.snd
  | .snapshot, log => (log.snapshot filed).map Prod.snd

/-- A section that raises saves nothing. -/
def service (filed : Bool) : Machine (Log Digest) (Call Digest) where
  step log call :=
    match perform filed call log with
    | .ok after => after
    | .error _ => log

/-! ## Authorization -/

/-- The callers around a section; the lock of another process is not waited for. -/
def callers (filed : Bool) : Surroundings (Log Digest) (Call Digest) Fault where
  act call log := (service filed).step log call
  refusal := .value "workspace_busy"

/-- What a callback comes to: a decision, none, an interrupt, or an exception. -/
inductive Decision where
  | decided (allow : Bool)
  | undecided
  | interrupted
  | raised

inductive Answer (Digest : Type) where
  | cancelledBefore (actionDigest : Digest)
  | approvalPending (approvalId : Text)
  | refused (status : Status) (approvalId : Text)
  | allowed (ticket : Ticket Digest)
  | cancelled (approvalId : Text)
  | approvalRequired (denied : Bool) (actionDigest : Digest) (revision : Nat) (policyDigest : Digest)
      (proposal : Proposal Digest)

/-- The readings of the cancel token and the drawn ids of one visit. -/
structure Visit where
  cancelled : Bool
  authorizationId : Text
  approvalId : Text
  cancelledLater : Bool

section Authorize

variable (filed : Bool)

def taking {Value : Type} (effect : Log Digest -> Except Fault (Value × Log Digest)) :
    Process (Log Digest) (Call Digest) Fault Value :=
  Interleaved.call (callers filed) effect id

/-- The decision about a proposal; whether it was interrupted. -/
def decided (policy : String) (callback : Option (Proposal Digest -> Decision)) (proposal : Proposal Digest) :
    Process (Log Digest) (Call Digest) Fault Bool :=
  if policy = "never" then taking filed (Log.resolve filed proposal.id false) >>= fun _ => pure false
  else
    match callback with
    | none => pure false
    | some answer =>
      match answer proposal with
      | .decided allow => taking filed (Log.resolve filed proposal.id allow) >>= fun _ => pure false
      | .undecided => pure false
      | .interrupted => taking filed (Log.cancelPending filed (some proposal.id)) >>= fun _ => pure true
      | .raised => Process.raise .callback

/-- The proposal is the pending one and was approved. -/
def approvedNow (proposal : Proposal Digest) (state : State Digest) : Bool :=
  state.pending.any fun pending => decide (pending.id = proposal.id ∧ pending.status = .approved)

/-- What follows a proposal, where `again` is the next visit. -/
def settled (policy : String) (action : Action) (callback : Option (Proposal Digest -> Decision)) (visit : Visit)
    (proposal : Proposal Digest) (again : Process (Log Digest) (Call Digest) Fault (Answer Digest)) :
    Process (Log Digest) (Call Digest) Fault (Answer Digest) :=
  decided filed policy callback proposal >>= fun interrupted =>
    if interrupted then pure (.cancelled proposal.id)
    else
      taking filed (Log.snapshot filed) >>= fun shown =>
        if visit.cancelledLater then
          taking filed (Log.cancelPending filed (some proposal.id)) >>= fun _ => pure (.cancelled proposal.id)
        else if approvedNow proposal shown.1 then again
        else
          pure (.approvalRequired (shown.1.pending.any fun pending => decide (pending.status = .denied))
            (ofAction action) shown.1.revision shown.2 proposal)

/-- `authorize_action`, which visits itself when its proposal was approved. -/
def authorizeAction (policy : String) (action : Action) (callId : Text) :
    Option (Proposal Digest -> Decision) -> List Visit -> Process (Log Digest) (Call Digest) Fault (Answer Digest)
  | _, [] => Process.raise .recursion
  | callback, visit :: visits =>
    if oneOf CAPABILITIES action.capability = false then
      Process.raise (.value "policy_denied: unsupported capability")
    else if visit.cancelled then pure (.cancelledBefore (ofAction action))
    else
      taking filed (Log.authorize filed action callId visit.authorizationId visit.approvalId) >>= fun gate =>
        match gate with
        | .waiting approvalId => pure (.approvalPending approvalId)
        | .refused status approvalId => pure (.refused status approvalId)
        | .allowed ticket => pure (.allowed ticket)
        | .proposed proposal =>
          settled filed policy action callback visit proposal (authorizeAction policy action callId none visits)

end Authorize

end Service

end Permissions
end FixLoop
