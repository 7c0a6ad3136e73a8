import FixLoop.Permissions.Runs
import FixLoop.Permissions.Sections

namespace FixLoop
namespace Permissions

open Library
open Interleaved (Process Triple Moves Stable Surroundings Turn)
open EditLock (Text Lettering oneOf)
open Checksums

/-!
# Authority

A call is consumed with a ticket that nothing has cleared since it was issued,
under a scope that covers its action, and at most once.  The scope grows only
by an action that was approved, once for each approval.
-/

/-- No two actions and no two policies have one checksum. -/
class LawfulChecksums (Digest : Type) [Checksums Digest] : Prop where
  ofAction_injective : Function.Injective (ofAction : Action -> Digest)
  ofPolicy_injective : ∀ {revision other : Nat} {scope another : PermissionScope},
    (ofPolicy revision scope : Digest) = ofPolicy other another -> revision = other ∧ scope = another

namespace Event

theorem Issued.head (callId : Text) (action : Action) (events : List Event) :
    Issued (issued callId action :: events) callId action :=
  ⟨[], events, rfl, fun _ member => (by cases member)⟩

theorem Issued.cons {events : List Event} {callId : Text} {action : Action} (before : Issued events callId action)
    {event : Event} (keeps : ¬ event.Clears) : Issued (event :: events) callId action := by
  rcases before with ⟨between, earlier, rfl, kept⟩
  refine ⟨event :: between, earlier, rfl, fun other member => ?_⟩
  rcases List.mem_cons.mp member with rfl | later
  · exact keeps
  · exact kept other later

end Event

open Event (Issued unused consumedCalls)

section Service

set_option linter.unusedSectionVars false

variable {Digest : Type} [DecidableEq Digest] [Checksums Digest] [Lettering]

/-! ## The invariant -/

/-- The ticket was issued for an action that a scope covers, and no clearing
followed. -/
structure Backed (events : List Event) (ticket : Ticket Digest) (action : Action) (scope : PermissionScope) :
    Prop where
  issued : Issued events ticket.callId action
  actionDigest : ticket.actionDigest = ofAction action
  policyDigest : ∃ revision, ticket.policyDigest = ofPolicy revision scope
  covered : Covered action scope ticket

structure Sound (log : Log Digest) : Prop where
  built : ∃ raw, PermissionScope.build raw = .ok log.state.scope
  backed : ∀ ticket ∈ log.state.tickets, ∃ action scope, Backed log.events ticket action scope
  unusedCalls : ∀ ticket ∈ log.state.tickets, ticket.callId ∉ log.state.usedCalls
  consumed : consumedCalls log.events = log.state.usedCalls.reverse
  distinct : log.state.usedCalls.Nodup
  digest : ∀ pending, log.state.pending = some pending -> pending.actionDigest = ofAction pending.action
  approved : ∀ pending, log.state.pending = some pending -> pending.status = .approved ->
    unused log.events = some pending.action

namespace Sound

theorem opened (scope : BuiltScope) : Sound (Log.opened scope : Log Digest) where
  built := scope.2
  backed := fun _ member => (by cases member)
  unusedCalls := fun _ member => (by cases member)
  consumed := rfl
  distinct := List.nodup_nil
  digest := fun _ none => (by cases none)
  approved := fun _ none => (by cases none)

variable {log : Log Digest} {after : State Digest}

/-- A section without an event: tickets may go, and a proposal may be made. -/
theorem quiet (sound : Sound log) (built : ∃ raw, PermissionScope.build raw = .ok after.scope)
    (tickets : ∀ ticket ∈ after.tickets, ticket ∈ log.state.tickets)
    (usedCalls : after.usedCalls = log.state.usedCalls)
    (pending : after.pending = log.state.pending ∨ ∃ proposal, after.pending = some proposal ∧
      proposal.status = .pending ∧ proposal.actionDigest = ofAction proposal.action) :
    Sound ⟨after, log.events⟩ where
  built := built
  backed := fun ticket member => sound.backed ticket (tickets ticket member)
  unusedCalls := by
    intro ticket member
    rw [usedCalls]
    exact sound.unusedCalls ticket (tickets ticket member)
  consumed := by rw [usedCalls, sound.consumed]
  distinct := by rw [usedCalls]; exact sound.distinct
  digest := by
    intro current waiting
    rcases pending with same | ⟨proposal, same, _, digest⟩
    · exact sound.digest current (same.symm.trans waiting)
    · rw [<- Option.some.inj (same.symm.trans waiting)]
      exact digest
  approved := by
    intro current waiting granted
    rcases pending with same | ⟨proposal, same, fresh, _⟩
    · exact sound.approved current (same.symm.trans waiting) granted
    · rw [<- Option.some.inj (same.symm.trans waiting), fresh] at granted
      cases granted

theorem clearing (sound : Sound log) (built : ∃ raw, PermissionScope.build raw = .ok after.scope)
    (tickets : after.tickets = []) (usedCalls : after.usedCalls = log.state.usedCalls) {event : Event}
    (other : Event.consumedCall event = none)
    (pending : ∀ current, after.pending = some current -> current.actionDigest = ofAction current.action ∧
      (current.status = .approved -> unused (event :: log.events) = some current.action)) :
    Sound ⟨after, event :: log.events⟩ where
  built := built
  backed := by
    intro ticket member
    rw [tickets] at member
    cases member
  unusedCalls := by
    intro ticket member
    rw [tickets] at member
    cases member
  consumed := by rw [consumedCalls, List.filterMap_cons_none other, usedCalls, <- sound.consumed, consumedCalls]
  distinct := by rw [usedCalls]; exact sound.distinct
  digest := fun current waiting => (pending current waiting).1
  approved := fun current waiting => (pending current waiting).2

theorem issuing [LawfulLettering] (sound : Sound log) {action : Action} {callId : Text} {ticket : Ticket Digest}
    (new : callId ∉ log.state.usedCalls) (issues : Issues log.state after ticket)
    (authorizes : Authorizes action callId log.state ticket) : Sound ⟨after, .issued callId action :: log.events⟩ where
  built := by rw [issues.scope]; exact sound.built
  backed := by
    intro other member
    rw [issues.tickets] at member
    rcases List.mem_append.mp member with earlier | last
    · rcases sound.backed other earlier with ⟨known, scope, backed⟩
      exact ⟨known, scope, { backed with issued := backed.issued.cons (fun clears => clears) }⟩
    · rw [List.mem_singleton.mp last]
      rcases authorizes.covered with ⟨scope, read, covered⟩
      rcases sound.built with ⟨raw, built⟩
      rw [PermissionScope.build_build built read] at covered
      refine ⟨action, log.state.scope, ?_, authorizes.actionDigest, ⟨_, authorizes.policyDigest⟩, covered⟩
      rw [authorizes.callId]
      exact .head callId action log.events
  unusedCalls := by
    intro other member
    rw [issues.tickets] at member
    rw [issues.usedCalls]
    rcases List.mem_append.mp member with earlier | last
    · exact sound.unusedCalls other earlier
    · rw [List.mem_singleton.mp last, authorizes.callId]
      exact new
  consumed := by rw [issues.usedCalls]; exact sound.consumed
  distinct := by rw [issues.usedCalls]; exact sound.distinct
  digest := by rw [issues.pending]; exact sound.digest
  approved := by rw [issues.pending]; exact sound.approved

/-- The consumed call leaves the tickets, and a grant uses up its approval. -/
theorem consuming (sound : Sound log) {action : Action} {callId : Text} {used : Ticket Digest}
    (returned : consumeAction action callId log.state = .ok (used, after))
    (built : ∃ raw, PermissionScope.build raw = .ok after.scope) :
    Sound ⟨after, .consumed callId action used.approvalDigest.isSome :: log.events⟩ := by
  rcases consumeAction_ok returned with ⟨ticket, member, named, _, _, approval, tickets, calls, commits⟩
  have new : callId ∉ log.state.usedCalls := by
    rw [<- named]
    exact sound.unusedCalls ticket member
  rcases sound.backed ticket member with ⟨known, scope, backed⟩
  refine ⟨built, ?_, ?_, ?_, ?_, ?_, ?_⟩
  · intro other kept
    rw [tickets] at kept
    rcases sound.backed other (List.mem_of_mem_filter kept) with ⟨known, scope, backed⟩
    exact ⟨known, scope, { backed with issued := backed.issued.cons (fun clears => clears) }⟩
  · intro other kept
    rw [tickets, List.mem_filter] at kept
    rw [calls, List.mem_append, List.mem_singleton, not_or]
    exact ⟨sound.unusedCalls other kept.1, of_decide_eq_true kept.2⟩
  · rw [calls, List.reverse_append, <- sound.consumed]
    rfl
  · rw [calls]
    exact List.Nodup.append sound.distinct (List.nodup_singleton callId) (by simpa using new)
  · intro current waiting
    rcases commits with ⟨_, _, same⟩ | ⟨_, pending, _, was, _, _, _, now⟩
    · exact sound.digest current (same.symm.trans waiting)
    · rw [<- Option.some.inj (now.symm.trans waiting)]
      exact sound.digest pending was
  · intro current waiting granted
    rcases commits with ⟨plain, _, same⟩ | ⟨_, _, _, _, _, _, _, now⟩
    · have without : ticket.approvalDigest = none := by
        rcases backed.covered with ⟨_, none, _⟩ | ⟨extended, some, _⟩
        · exact none
        · rw [plain] at some
          cases some
      rw [approval, without]
      exact sound.approved current (same.symm.trans waiting) granted
    · rw [<- Option.some.inj (now.symm.trans waiting)] at granted
      cases granted

end Sound

/-! ## Authorization as a program -/

theorem through_ok {Value : Type} {filed : Bool} {body : State Digest -> Except Fault (Value × State Digest)}
    {happened : State Digest -> Value × State Digest -> List Event} {log after : Log Digest} {value : Value}
    (returned : log.through filed body happened = .ok (value, after)) :
    ∃ state, body log.state = .ok (value, state) ∧
      after = ⟨state, happened log.state (value, state) ++ log.events⟩ := by
  rcases Fallible.map_ok returned with ⟨⟨other, state⟩, done, same⟩
  cases same
  unfold locked at done
  split at done
  · cases done
  · exact ⟨state, done, rfl⟩

section Programs

variable {filed : Bool}

/-- The log after any sections, of whoever they are. -/
def Later (filed : Bool) (log after : Log Digest) : Prop :=
  ∃ sections, after = (service filed).run log sections

theorem Later.perform {call : Call Digest} {log after : Log Digest}
    (performed : Permissions.perform filed call log = .ok after) : Later filed log after := by
  refine ⟨[call], ?_⟩
  simp only [Machine.run_cons, Machine.run_nil, service, performed]

/-- A section of a program is a section of the service. -/
theorem taking_moves {Value : Type} {effect : Log Digest -> Except Fault (Value × Log Digest)} (call : Call Digest)
    (same : ∀ log, perform filed call log = (effect log).map Prod.snd) :
    Moves (callers filed) (Later filed) (taking filed effect) := by
  apply Moves.call
  · intro log value after returned
    apply @Later.perform _ _ _ _ _ call
    rw [same, returned]
    rfl
  · exact fun log => ⟨[], rfl⟩

variable (policy : String)

theorem decided_moves (callback : Option (Proposal Digest -> Decision)) (proposal : Proposal Digest) :
    Moves (callers filed) (Later filed) (decided filed policy callback proposal) := by
  have resolves (allow : Bool) : Moves (callers filed) (Later filed)
      (taking filed (@Log.resolve Digest _ _ _ filed proposal.id allow) >>= fun _ => pure false) :=
    (taking_moves (.resolve proposal.id allow) fun _ => rfl).bind fun _ => Moves.pure false
  unfold decided
  split
  · exact resolves false
  · split
    · exact Moves.pure false
    · split
      · exact resolves _
      · exact Moves.pure false
      · exact (taking_moves (.cancelPending (some proposal.id)) fun _ => rfl).bind fun _ => Moves.pure true
      · exact Moves.raise _

variable {again : Process (Log Digest) (Call Digest) Fault (Answer Digest)} {log after : Log Digest}

theorem settled_moves (action : Action) (callback : Option (Proposal Digest -> Decision)) (visit : Visit)
    (proposal : Proposal Digest) (next : Moves (callers filed) (Later filed) again) :
    Moves (callers filed) (Later filed) (settled filed policy action callback visit proposal again) := by
  apply (decided_moves policy callback proposal).bind
  intro interrupted
  split
  · exact Moves.pure _
  · apply (taking_moves .snapshot fun _ => rfl).bind
    intro shown
    split
    · exact (taking_moves (.cancelPending (some proposal.id)) fun _ => rfl).bind fun _ => Moves.pure _
    · split
      · exact next
      · exact Moves.pure _

/-- Authorization takes sections of the service, however often it visits itself. -/
theorem authorizeAction_moves (policy : String) (action : Action) (callId : Text)
    (callback : Option (Proposal Digest -> Decision)) (visits : List Visit) :
    Moves (callers filed) (Later filed) (authorizeAction filed policy action callId callback visits) := by
  induction visits generalizing callback with
  | nil => exact Moves.raise _
  | cons visit visits ih =>
    unfold authorizeAction
    split
    · exact Moves.raise _
    · split
      · exact Moves.pure _
      · apply (taking_moves (.authorize action callId visit.authorizationId visit.approvalId) fun _ => rfl).bind
        intro gate
        cases gate with
        | proposed proposal => exact settled_moves policy action callback visit proposal (ih none)
        | _ => exact Moves.pure _

theorem authorizeAction_later (action : Action) (callId : Text)
    (callback : Option (Proposal Digest -> Decision)) (visits : List Visit) (log : Log Digest)
    (turns : List (Turn (Call Digest))) :
    Later filed log (authorizeAction filed policy action callId callback visits (log, turns)).2.1 := by
  have further {middle after : Log Digest} (before : Later filed log middle) (next : Later filed middle after) :
      Later filed log after := by
    rcases before with ⟨first, rfl⟩
    rcases next with ⟨second, rfl⟩
    exact ⟨first ++ second, ((service filed).run_append log first second).symm⟩
  have holds := @authorizeAction_moves Digest _ _ _ filed policy action callId callback visits (Later filed log)
    (fun call middle before => further before ⟨[call], rfl⟩) (fun _ _ before next => further before next)
    (log, turns) ⟨[], rfl⟩
  rcases result : authorizeAction filed policy action callId callback visits (log, turns) with ⟨fault | answer, end'⟩
  · rw [result] at holds
    exact holds
  · rw [result] at holds
    exact holds

/-- Neither the scope nor the consumed calls changed, and no ticket was issued. -/
structure Spares (log after : Log Digest) : Prop where
  scope : after.state.scope = log.state.scope
  usedCalls : after.state.usedCalls = log.state.usedCalls
  tickets : ∀ ticket ∈ after.state.tickets, ticket ∈ log.state.tickets

variable {holds : Log Digest -> Prop}

theorem taking_spares {Value : Type} {effect : Log Digest -> Except Fault (Value × Log Digest)}
    (stable : Stable (callers filed) holds) (kept : ∀ log after, holds log -> Spares log after -> holds after)
    (spares : ∀ log value after, effect log = .ok (value, after) -> Spares log after) :
    Triple holds (taking filed effect) (fun _ => holds) (fun _ => holds) :=
  Triple.call stable (fun log value after before returned => kept log after before (spares log value after returned))
    (fun _ _ before _ => before) fun _ before => before

theorem resolve_spares {approvalId : Text} {allow : Bool} {value : Unit}
    (returned : log.resolve filed approvalId allow = .ok (value, after)) : Spares log after := by
  rcases through_ok returned with ⟨state, body, rfl⟩
  rcases resolve_ok body with ⟨_, _, scope, tickets, usedCalls, _⟩
  refine ⟨scope, usedCalls, fun ticket member => ?_⟩
  rw [tickets] at member
  cases member

theorem cancelPending_spares {approvalId : Option Text} {value : Unit}
    (returned : log.cancelPending filed approvalId = .ok (value, after)) : Spares log after := by
  rcases through_ok returned with ⟨state, body, rfl⟩
  rcases cancelPending_ok body with rfl | ⟨_, _, _, scope, tickets, usedCalls, _⟩
  · exact ⟨rfl, rfl, fun _ member => member⟩
  · refine ⟨scope, usedCalls, fun ticket member => ?_⟩
    rw [tickets] at member
    cases member

theorem decided_spares (stable : Stable (callers filed) holds)
    (kept : ∀ log after, holds log -> Spares log after -> holds after) (policy : String)
    (callback : Option (Proposal Digest -> Decision)) (proposal : Proposal Digest) :
    Triple holds (decided filed policy callback proposal) (fun _ => holds) (fun _ => holds) := by
  have resolves (allow : Bool) : Triple holds
      (taking filed (Log.resolve filed proposal.id allow) >>= fun _ => pure false) (fun _ => holds) (fun _ => holds) :=
    (taking_spares stable kept fun _ _ _ => resolve_spares).bind fun _ => Triple.pure false (fun _ => holds) _
  unfold decided
  split
  · exact resolves false
  · split
    · exact Triple.pure false (fun _ => holds) _
    · split
      · exact resolves _
      · exact Triple.pure false (fun _ => holds) _
      · exact (taking_spares stable kept fun _ _ _ => cancelPending_spares).bind
          (fun _ => Triple.pure true (fun _ => holds) _)
      · exact Triple.raise _ _ fun _ => holds

/-- A ticket was issued, or little changed. -/
theorem authorize_spares {action : Action} {callId authorizationId approvalId : Text} {gate : Gate Digest}
    (returned : log.authorize filed action callId authorizationId approvalId = .ok (gate, after)) :
    (∃ ticket, gate = .allowed ticket) ∨ Spares log after := by
  rcases through_ok returned with ⟨state, body, rfl⟩
  rcases (authorizeLocked_ok body).2 with ⟨ticket, allowed, _⟩ | ⟨_, proposes⟩
  · exact .inl ⟨ticket, allowed⟩
  · refine .inr ⟨proposes.scope, proposes.usedCalls, fun ticket member => ?_⟩
    rw [proposes.tickets] at member
    exact member

theorem settled_spares (stable : Stable (callers filed) holds)
    (kept : ∀ log after, holds log -> Spares log after -> holds after) (policy : String)
    (action : Action) (callback : Option (Proposal Digest -> Decision)) (visit : Visit)
    (proposal : Proposal Digest) (next : Triple holds again (fun _ _ => True) fun _ => holds) :
    Triple holds (settled filed policy action callback visit proposal again) (fun _ _ => True) (fun _ => holds) := by
  have shows : Triple holds (taking filed (Log.snapshot filed)) (fun _ => holds) (fun _ => holds) := by
    apply taking_spares stable kept
    intro log value after returned
    rcases through_ok returned with ⟨state, body, rfl⟩
    cases body
    exact ⟨rfl, rfl, fun _ member => member⟩
  apply (decided_spares stable kept policy callback proposal).bind
  intro interrupted
  split
  · exact fun _ _ => True.intro
  · apply shows.bind
    intro shown
    split
    · exact (taking_spares stable kept fun _ _ _ => cancelPending_spares).bind fun _ _ _ => True.intro
    · split
      · exact next
      · exact fun _ _ => True.intro

/-- Where authorization raises, its own sections changed neither the scope nor
the consumed calls, and issued no ticket. -/
theorem authorizeAction_spares (stable : Stable (callers filed) holds)
    (kept : ∀ log after, holds log -> Spares log after -> holds after) (policy : String) (action : Action)
    (callId : Text) (callback : Option (Proposal Digest -> Decision)) (visits : List Visit) :
    Triple holds (authorizeAction filed policy action callId callback visits) (fun _ _ => True) (fun _ => holds) := by
  induction visits generalizing callback with
  | nil => exact Triple.raise _ _ fun _ => holds
  | cons visit visits ih =>
    unfold authorizeAction
    split
    · exact Triple.raise _ _ fun _ => holds
    · split
      · exact fun _ _ => True.intro
      · have gated : Triple holds
            (taking filed (Log.authorize filed action callId visit.authorizationId visit.approvalId))
            (fun gate log => (∃ ticket, gate = .allowed ticket) ∨ holds log) (fun _ => holds) := by
          apply Triple.call stable
          · intro log gate after before returned
            exact (authorize_spares returned).imp_right (kept log after before)
          · exact fun _ _ before _ => before
          · exact fun _ before => before
        apply gated.bind
        intro gate
        cases gate with
        | proposed proposal =>
          have settles := settled_spares stable kept policy action callback visit proposal (ih none)
          refine settles.mono (fun log before => before.elim (fun issued => ?_) fun before => before)
            (fun _ _ _ => True.intro) fun _ _ failed => failed
          rcases issued with ⟨ticket, same⟩
          cases same
        | _ => exact fun _ _ => True.intro

end Programs

/-! ## Steps -/

/-- What a section does to the scope.  A grant extends it by the action that was
approved last, and the approval is used up. -/
def ScopeKept (log : Log Digest) : Call Digest -> Log Digest -> Prop
  | .replaceScope scope, after => after.state.scope = scope.1
  | .initializeScope scope, after => after.state.scope = scope.1 ∨ after.state.scope = log.state.scope
  | .consumeAction action _, after => after.state.scope = log.state.scope ∨
      (unused log.events = some action ∧ unused after.events = none ∧
        log.state.scope.extend action = .ok after.state.scope)
  | _, after => after.state.scope = log.state.scope

section Lawful

variable [LawfulLettering] [LawfulChecksums Digest]

open LawfulChecksums

variable {log : Log Digest}

variable {used : Ticket Digest} {after : State Digest}

/-- The ticket that a consumption found, for the action and the scope it was
issued for. -/
theorem found_ticket (sound : Sound log) {action : Action} {callId : Text}
    (returned : consumeAction action callId log.state = .ok (used, after)) :
    ∃ ticket ∈ log.state.tickets, ticket.callId = callId ∧
      used.approvalDigest = ticket.approvalDigest ∧ Backed log.events ticket action log.state.scope ∧
        Commits log.state after ticket := by
  rcases consumeAction_ok returned with ⟨ticket, member, named, digest, policy, approval, _, _, commits⟩
  rcases sound.backed ticket member with ⟨known, scope, backed⟩
  have sameAction : known = action := ofAction_injective (backed.actionDigest.symm.trans digest)
  rcases backed.policyDigest with ⟨revision, earlier⟩
  have sameScope : scope = log.state.scope := (ofPolicy_injective (earlier.symm.trans policy)).2
  rw [sameAction, sameScope] at backed
  exact ⟨ticket, member, named, approval, backed, commits⟩

theorem consumed_scope (sound : Sound log) {action : Action} {callId : Text}
    (returned : consumeAction action callId log.state = .ok (used, after)) :
    after.scope.allows action = .ok true ∧
      ((used.approvalDigest = none ∧ after.scope = log.state.scope) ∨
        (used.approvalDigest.isSome ∧ unused log.events = some action ∧
          log.state.scope.extend action = .ok after.scope)) := by
  rcases found_ticket sound returned with ⟨ticket, _, _, approval, backed, commits⟩
  rcases backed.covered with ⟨plain, none, allowed⟩ | ⟨extended, grant, digest, extension, allowed⟩
  · rcases commits with ⟨_, same, _⟩ | ⟨scope, _, some, _⟩
    · rw [same]
      exact ⟨allowed, .inl ⟨approval.trans none, rfl⟩⟩
    · rw [plain] at some
      cases some
  · rcases commits with ⟨none, _⟩ | ⟨scope, pending, some, waiting, granted, approved, now, _⟩
    · rw [none] at grant
      cases grant
    · rw [now, <- Option.some.inj (grant.symm.trans some)]
      have sameDigest : pending.actionDigest = ofAction action := Option.some.inj (approved.trans digest)
      have sameAction : pending.action = action :=
        ofAction_injective ((sound.digest pending waiting).symm.trans sameDigest)
      refine ⟨allowed, .inr ⟨?_, ?_, extension⟩⟩
      · rw [approval, digest]
        rfl
      · rw [<- sameAction]
        exact sound.approved pending waiting granted

theorem perform_sound {filed : Bool} {call : Call Digest} {after : Log Digest} (sound : Sound log)
    (performed : perform filed call log = .ok after) : Sound after ∧ ScopeKept log call after := by
  cases call with
  | authorize action callId authorizationId approvalId =>
    rcases Fallible.map_ok performed with ⟨⟨gate, other⟩, returned, rfl⟩
    rcases through_ok returned with ⟨state, body, rfl⟩
    rcases authorizeLocked_ok body with ⟨new, ⟨ticket, rfl, issues, authorizes⟩ | ⟨refused, proposes⟩⟩
    · exact ⟨sound.issuing new issues authorizes, issues.scope⟩
    · have kept : Sound ⟨state, log.events⟩ :=
        sound.quiet (by rw [proposes.scope]; exact sound.built) (by rw [proposes.tickets]; exact fun _ member => member)
          proposes.usedCalls proposes.pending
      cases gate with
      | allowed ticket => exact absurd rfl (refused ticket)
      | _ => exact ⟨kept, proposes.scope⟩
  | resolve approvalId allow =>
    rcases Fallible.map_ok performed with ⟨⟨⟨⟩, other⟩, returned, rfl⟩
    rcases through_ok returned with ⟨state, body, rfl⟩
    rcases resolve_ok body with ⟨pending, waiting, scope, tickets, usedCalls, now⟩
    have built : ∃ raw, PermissionScope.build raw = .ok state.scope := by
      rw [scope]
      exact sound.built
    have digest := sound.digest pending waiting
    refine ⟨?_, scope⟩
    cases allow with
    | true =>
      simp only [if_true, waiting, Option.map_some, Option.toList_some, List.singleton_append]
      refine sound.clearing built tickets usedCalls rfl fun current current_eq => ?_
      rw [now] at current_eq
      rw [<- Option.some.inj current_eq]
      exact ⟨digest, fun _ => rfl⟩
    | false =>
      refine sound.clearing built tickets usedCalls rfl fun current current_eq => ?_
      rw [now] at current_eq
      rw [<- Option.some.inj current_eq]
      exact ⟨digest, fun approved => (by cases approved)⟩
  | replaceScope scope =>
    rcases Fallible.map_ok performed with ⟨⟨⟨⟩, other⟩, returned, rfl⟩
    rcases through_ok returned with ⟨state, body, rfl⟩
    rcases replaceScope_ok body with ⟨same, tickets, usedCalls, now⟩
    refine ⟨sound.clearing (by rw [same]; exact scope.2) tickets usedCalls rfl
      (fun current current_eq => ?_), same⟩
    rw [now, Option.map_eq_some_iff] at current_eq
    rcases current_eq with ⟨pending, waiting, rfl⟩
    exact ⟨sound.digest pending waiting, fun approved => (by cases approved)⟩
  | initializeScope scope =>
    rcases Fallible.map_ok performed with ⟨⟨⟨⟩, other⟩, returned, rfl⟩
    rcases through_ok returned with ⟨state, body, rfl⟩
    unfold initializeScope at body
    split at body
    · cases body
      exact ⟨sound.quiet scope.2 (fun _ member => member) rfl (.inl rfl), .inl rfl⟩
    · cases body
      exact ⟨sound, .inr rfl⟩
  | cancelPending approvalId =>
    rcases Fallible.map_ok performed with ⟨⟨⟨⟩, other⟩, returned, rfl⟩
    rcases through_ok returned with ⟨state, body, rfl⟩
    rcases cancelPending_ok body with rfl | ⟨pending, waiting, revision, scope, tickets, usedCalls, now⟩
    · rw [if_pos rfl]
      exact ⟨sound, rfl⟩
    · rw [if_neg (by rw [revision]; exact Nat.succ_ne_self _)]
      refine ⟨sound.clearing (by rw [scope]; exact sound.built) tickets usedCalls rfl (fun current current_eq => ?_),
        scope⟩
      rw [now] at current_eq
      rw [<- Option.some.inj current_eq]
      exact ⟨sound.digest pending waiting, fun approved => (by cases approved)⟩
  | consumeAction action callId =>
    rcases Fallible.map_ok performed with ⟨⟨used, other⟩, returned, rfl⟩
    rcases through_ok returned with ⟨state, body, rfl⟩
    rcases consumed_scope sound body with ⟨_, ⟨plain, same⟩ | ⟨granted, approved, extension⟩⟩
    · refine ⟨sound.consuming body ?_, .inl same⟩
      rw [same]
      exact sound.built
    · refine ⟨sound.consuming body ⟨_, extension⟩, .inr ⟨approved, ?_, extension⟩⟩
      simp only [granted, List.singleton_append, unused]
  | assertCurrent evidence =>
    rcases Fallible.map_ok performed with ⟨⟨⟨⟩, other⟩, returned, rfl⟩
    rcases through_ok returned with ⟨state, body, rfl⟩
    unfold assertCurrent at body
    split at body
    · cases body
    · cases body
      exact ⟨sound, rfl⟩
  | discard callId =>
    rcases Fallible.map_ok performed with ⟨⟨⟨⟩, other⟩, returned, rfl⟩
    rcases through_ok returned with ⟨state, body, rfl⟩
    rcases discard_ok body with ⟨scope, tickets, usedCalls, pending⟩
    exact ⟨sound.quiet (by rw [scope]; exact sound.built) tickets usedCalls (.inl pending), scope⟩
  | outcome evidence status receiptId =>
    rcases Fallible.map_ok performed with ⟨⟨⟨⟩, other⟩, returned, rfl⟩
    rcases through_ok returned with ⟨state, body, rfl⟩
    rcases outcome_ok body with ⟨scope, tickets, usedCalls, pending⟩
    refine ⟨sound.quiet ?_ ?_ usedCalls (.inl pending), scope⟩
    · rw [scope]
      exact sound.built
    · rw [tickets]
      exact fun _ member => member
  | snapshot =>
    rcases Fallible.map_ok performed with ⟨⟨shown, other⟩, returned, rfl⟩
    rcases through_ok returned with ⟨state, body, rfl⟩
    cases body
    exact ⟨sound, rfl⟩

theorem service_sound (filed : Bool) (scope : BuiltScope) (calls : List (Call Digest)) :
    Sound ((service filed).run (Log.opened scope) calls) := by
  apply (service filed).invariant_run
  · intro log call sound
    cases performed : perform filed call log with
    | ok after =>
      simp only [service, performed]
      exact (perform_sound sound performed).1
    | error fault =>
      simp only [service, performed]
      exact sound
  · exact Sound.opened scope

end Lawful

end Service

/-! ## A concrete service -/

/-- A checksum is the action itself, or the policy itself. -/
@[reducible] def plainChecksums : Checksums (Action ⊕ Nat × PermissionScope) where
  ofAction := .inl
  ofPolicy := fun revision scope => .inr (revision, scope)

section Examples

attribute [local instance] plainChecksums EditLock.asciiLettering

theorem plain_lawful : LawfulChecksums (Action ⊕ Nat × PermissionScope) where
  ofAction_injective := fun _ _ same => Sum.inl.inj same
  ofPolicy_injective := fun same => Prod.mk.injEq _ _ _ _ ▸ Sum.inr.inj same

theorem toLower_high (char : Char) (high : 97 ≤ char.toNat) : char.toLower = char := by
  unfold Char.toLower
  refine dif_neg fun upper => ?_
  have last : char.toNat ≤ 90 := upper.2
  omega

/-- A letter that changes becomes a small letter. -/
theorem toLower_cases (char : Char) : char.toLower = char ∨ 97 ≤ char.toLower.toNat := by
  unfold Char.toLower
  split
  · next upper =>
      have first : 65 ≤ char.val.toNat := upper.1
      have last : char.val.toNat ≤ 90 := upper.2
      have distance : ('a'.val - 'A'.val).toNat = 32 := by decide
      refine .inr ?_
      change 97 ≤ (char.val + ('a'.val - 'A'.val)).toNat
      rw [UInt32.toNat_add]
      omega
  · exact .inl rfl

theorem ascii_lawful : LawfulLettering where
  casefold_casefold := by
    intro text
    change (text.map Char.toLower).map Char.toLower = text.map Char.toLower
    rw [List.map_map]
    apply List.map_congr_left
    intro char _
    rcases toLower_cases char with same | high
    · exact congrArg Char.toLower same
    · exact toLower_high _ high
  casefold_backslash := by
    intro text plain member
    rcases List.mem_map.mp member with ⟨char, listed, same⟩
    rcases toLower_cases char with kept | high
    · rw [<- kept, same] at listed
      exact plain listed
    · rw [same] at high
      exact absurd high (by decide)

def defaultScope : BuiltScope :=
  ⟨{ PermissionScope.standard with capabilities := sortedSet PermissionScope.standard.capabilities },
    PermissionScope.standard, by rfl⟩

def lookUp : Action := ⟨"r".toList, "trusted_network".toList, [], [], [], []⟩

def readAll : Action := ⟨"r".toList, "workspace_read".toList, [['.']], [], [], []⟩

/-- A read was authorized under the default scope. -/
def readAuthorized : Log (Action ⊕ Nat × PermissionScope) :=
  (service true).run (Log.opened defaultScope) [.authorize readAll ['c'] ['a'] ['p']]

/-- A callback that raises, after the proposal was saved. -/
def raisingCallback : Except Fault (Answer (Action ⊕ Nat × PermissionScope)) ×
    (Log (Action ⊕ Nat × PermissionScope) × List (Turn (Call (Action ⊕ Nat × PermissionScope)))) :=
  authorizeAction true "ask" lookUp ['c'] (some fun _ => .raised) [⟨false, ['a'], ['p'], false⟩]
    (Log.opened defaultScope, [])

end Examples

end Permissions
end FixLoop
