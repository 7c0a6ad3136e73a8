import FixLoop.Library.Fallible
import FixLoop.Permissions.Tickets

namespace FixLoop
namespace Permissions

open Library
open EditLock (Text Lettering relativePath oneOf)
open Checksums

/-!
# What the sections of the permission service do

A scope that was built reads back as itself, so the scope that is checked is
the scope of the state.  Each section has one lemma that says what it returns
and what it changes.
-/

/-! ## Scopes read back -/

/-- A text that was folded is folded, and folding makes no backslash. -/
class LawfulLettering [Lettering] : Prop where
  casefold_casefold : ∀ text : Text, Lettering.casefold (Lettering.casefold text) = Lettering.casefold text
  casefold_backslash : ∀ text : Text, '\\' ∉ text -> '\\' ∉ Lettering.casefold text

theorem not_mem_slashed (path : Text) : '\\' ∉ EditLock.slashed path := by
  intro member
  rcases List.mem_map.mp member with ⟨char, _, same⟩
  by_cases here : char = '\\'
  · rw [if_pos here] at same
    exact absurd same (by decide)
  · rw [if_neg here] at same
    exact here same

theorem sortedSet_sortedSet (texts : List Text) : sortedSet (sortedSet texts) = sortedSet texts := by
  have sorted : (sortedSet texts).Pairwise (· ≤ ·) := List.pairwise_insertionSort (· ≤ ·) texts.dedup
  have distinct : (sortedSet texts).Nodup :=
    (List.perm_insertionSort (· ≤ ·) texts.dedup).nodup_iff.mpr (List.nodup_dedup texts)
  rw [sortedSet, distinct.dedup, sorted.insertionSort_eq]

section Scopes

variable [Lettering] [LawfulLettering]

open LawfulLettering

theorem folded_casefold {text result : Text} (plain : '\\' ∉ text)
    (again : folded (Lettering.casefold text) = .ok result) : result = Lettering.casefold text := by
  unfold folded at again
  split at again
  · next root =>
      rw [<- root, casefold_casefold] at again
      exact (Except.ok.inj again).symm
  · split at again
    · cases again
    · next accepted valid =>
        rw [EditLock.relativePath_slashed valid,
          EditLock.slashed_eq_self.mpr (casefold_backslash text plain), casefold_casefold] at again
        exact (Except.ok.inj again).symm

theorem folded_folded {path once twice : Text} (first : folded path = .ok once)
    (second : folded once = .ok twice) : twice = once := by
  unfold folded at first
  split at first
  · rw [<- Except.ok.inj first] at second ⊢
    exact folded_casefold (by decide) second
  · split at first
    · cases first
    · next accepted valid =>
        rw [<- Except.ok.inj first] at second ⊢
        refine folded_casefold ?_ second
        rw [EditLock.relativePath_slashed valid]
        exact not_mem_slashed path

omit [LawfulLettering] in
theorem paths_ok {values result : List Text} (built : paths values = .ok result) :
    ∃ each, List.Forall₂ (fun value text => folded value = .ok text) values each ∧
      result = sortedSet each := by
  unfold paths at built
  split at built
  · cases built
  · rcases Fallible.map_ok built with ⟨each, returned, same⟩
    exact ⟨each, Fallible.mapM_ok_iff.mp returned, same.symm⟩

omit [Lettering] [LawfulLettering] in
theorem mem_sortedSet {text : Text} {texts : List Text} : text ∈ sortedSet texts <-> text ∈ texts := by
  rw [sortedSet, List.mem_insertionSort, List.mem_dedup]

theorem paths_paths {values once twice : List Text} (first : paths values = .ok once)
    (second : paths once = .ok twice) : twice = once := by
  rcases paths_ok first with ⟨each, made, rfl⟩
  rcases paths_ok second with ⟨again, remade, rfl⟩
  have kept : again = sortedSet each := by
    have folds : ∀ text ∈ sortedSet each, ∃ value, folded value = .ok text := by
      intro text member
      exact Fallible.exists_of_forall₂ made (mem_sortedSet.mp member)
    have same : List.Forall₂ (fun text other => (∃ value, folded value = .ok text) ∧
        folded text = .ok other) (sortedSet each) again := (List.forall₂_and_left _ _).mpr ⟨folds, remade⟩
    have equal : List.Forall₂ Eq (sortedSet each) again :=
      same.imp (fun text other both => by
        rcases both with ⟨⟨value, once⟩, twice⟩
        exact (folded_folded once twice).symm)
    rw [List.forall₂_eq_eq_eq] at equal
    exact equal.symm
  rw [kept, sortedSet_sortedSet]

namespace PermissionScope

omit [LawfulLettering] in
theorem build_ok {raw scope : PermissionScope} (built : raw.build = .ok scope) :
    paths raw.readPaths = .ok scope.readPaths ∧ paths raw.writePaths = .ok scope.writePaths ∧
      paths raw.installPaths = .ok scope.installPaths ∧ scope.capabilities = sortedSet raw.capabilities := by
  rcases Fallible.bind_ok built with ⟨readPaths, reads, built⟩
  rcases Fallible.bind_ok built with ⟨writePaths, writes, built⟩
  rcases Fallible.bind_ok built with ⟨installPaths, installs, built⟩
  split at built
  · cases built
    exact ⟨reads, writes, installs, rfl⟩
  · cases built

/-- What was built reads back as itself, if it is not refused. -/
theorem build_build {raw once twice : PermissionScope} (first : raw.build = .ok once)
    (second : once.build = .ok twice) : twice = once := by
  rcases build_ok first with ⟨reads, writes, installs, named⟩
  rcases build_ok second with ⟨reads', writes', installs', named'⟩
  rw [named, sortedSet_sortedSet, <- named] at named'
  rcases once with ⟨_, _, _, _⟩
  rcases twice with ⟨_, _, _, _⟩
  rw [mk.injEq]
  exact ⟨paths_paths reads reads', paths_paths writes writes', named', paths_paths installs installs'⟩

end PermissionScope

end Scopes

section Sections

set_option linter.unusedSectionVars false

variable {Digest : Type} [DecidableEq Digest] [Checksums Digest] [Lettering]

@[simp] theorem State.audited_scope (state : State Digest) (entry : Audited Digest) :
    (state.audited entry).scope = state.scope := by simp only [State.audited]

@[simp] theorem State.audited_pending (state : State Digest) (entry : Audited Digest) :
    (state.audited entry).pending = state.pending := by simp only [State.audited]

@[simp] theorem State.audited_tickets (state : State Digest) (entry : Audited Digest) :
    (state.audited entry).tickets = state.tickets := by simp only [State.audited]

@[simp] theorem State.audited_usedCalls (state : State Digest) (entry : Audited Digest) :
    (state.audited entry).usedCalls = state.usedCalls := by simp only [State.audited]

/-- The section saved no more than a proposal that waits. -/
structure Proposes (state after : State Digest) : Prop where
  revision : after.revision = state.revision
  scope : after.scope = state.scope
  tickets : after.tickets = state.tickets
  usedCalls : after.usedCalls = state.usedCalls
  pending : after.pending = state.pending ∨ ∃ proposal,
    after.pending = some proposal ∧ proposal.status = .pending ∧ proposal.actionDigest = ofAction proposal.action

theorem Proposes.refl (state : State Digest) : Proposes state state := ⟨rfl, rfl, rfl, rfl, .inl rfl⟩

theorem propose_proposes (action : Action) (approvalId : Text) (state : State Digest) :
    (∃ proposal, (propose action approvalId state).1 = .proposed proposal) ∧
      Proposes state (propose action approvalId state).2 := by
  unfold propose
  split
  · split
    · exact ⟨⟨_, rfl⟩, .refl state⟩
    · exact ⟨⟨_, rfl⟩, rfl, rfl, rfl, rfl, .inr ⟨_, rfl, rfl, rfl⟩⟩
  · exact ⟨⟨_, rfl⟩, rfl, rfl, rfl, rfl, .inr ⟨_, rfl, rfl, rfl⟩⟩

/-- The section issued the ticket. -/
structure Issues (state after : State Digest) (ticket : Ticket Digest) : Prop where
  revision : after.revision = state.revision
  scope : after.scope = state.scope
  tickets : after.tickets = state.tickets ++ [ticket]
  usedCalls : after.usedCalls = state.usedCalls
  pending : after.pending = state.pending

variable {action : Action} {callId authorizationId approvalId : Text} {scope : PermissionScope}
  {state after : State Digest} {gate : Gate Digest}

theorem admit_ok {approved : Option Digest}
    (returned : admitCall action callId authorizationId approvalId scope approved state = .ok (gate, after)) :
    (scope.allows action = .ok true ∧
      gate = .allowed (evidence action callId authorizationId scope approved state) ∧
      Issues state after (evidence action callId authorizationId scope approved state)) ∨
    ((∃ proposal, gate = .proposed proposal) ∧ Proposes state after) := by
  rcases Fallible.bind_ok returned with ⟨allowed, checked, returned⟩
  cases allowed with
  | true =>
    rw [if_pos rfl, issue] at returned
    split at returned
    · cases returned
    · split at returned
      · cases returned
      · cases returned
        exact .inl ⟨checked, rfl, rfl, rfl, rfl, rfl, rfl⟩
  | false =>
    have proposed := propose_proposes action approvalId state
    rw [if_neg (by decide)] at returned
    rw [Except.ok.inj returned] at proposed
    exact .inr proposed

/-- A ticket is issued for the scope of the state, or for its extension by the
action that is approved. -/
def Covered (action : Action) (scope : PermissionScope) (ticket : Ticket Digest) : Prop :=
  (ticket.grantScope = none ∧ ticket.approvalDigest = none ∧ scope.allows action = .ok true) ∨
    ∃ extended, ticket.grantScope = some extended ∧ ticket.approvalDigest = some (ofAction action) ∧
      scope.extend action = .ok extended ∧ extended.allows action = .ok true

/-- What the evidence says of the action and of the state before it. -/
structure Authorizes (action : Action) (callId : Text) (state : State Digest) (ticket : Ticket Digest) : Prop where
  callId : ticket.callId = callId
  actionDigest : ticket.actionDigest = ofAction action
  policyDigest : ticket.policyDigest = state.policy
  covered : ∃ scope, state.scope.build = .ok scope ∧ Covered action scope ticket

/-- A ticket was issued, or at most a proposal was saved. -/
def Admits (action : Action) (callId : Text) (gate : Gate Digest) (state after : State Digest) : Prop :=
  (∃ ticket, gate = .allowed ticket ∧ Issues state after ticket ∧ Authorizes action callId state ticket) ∨
    (∀ ticket, gate ≠ .allowed ticket) ∧ Proposes state after

/-- Without an approval the scope of the state covers the action. -/
theorem admit_plain (read : state.scope.build = .ok scope)
    (returned : admitCall action callId authorizationId approvalId scope none state = .ok (gate, after)) :
    Admits action callId gate state after := by
  rcases admit_ok returned with ⟨allowed, rfl, issues⟩ | ⟨⟨proposal, rfl⟩, proposes⟩
  · exact .inl ⟨_, rfl, issues, rfl, rfl, rfl, scope, read, .inl ⟨rfl, rfl, allowed⟩⟩
  · exact .inr ⟨fun _ same => (by cases same), proposes⟩

theorem admit_approved {extended : PermissionScope} (read : state.scope.build = .ok scope)
    (extension : scope.extend action = .ok extended)
    (returned : admitCall action callId authorizationId approvalId extended (some (ofAction action)) state = .ok (gate, after)) :
    Admits action callId gate state after := by
  rcases admit_ok returned with ⟨allowed, rfl, issues⟩ | ⟨⟨proposal, rfl⟩, proposes⟩
  · exact .inl ⟨_, rfl, issues, rfl, rfl, rfl, scope, read, .inr ⟨extended, rfl, rfl, extension, allowed⟩⟩
  · exact .inr ⟨fun _ same => (by cases same), proposes⟩

theorem authorizeLocked_ok
    (returned : authorizeLocked action callId authorizationId approvalId state = .ok (gate, after)) :
    callId ∉ state.usedCalls ∧ Admits action callId gate state after := by
  unfold authorizeLocked at returned
  split at returned
  · cases returned
  · next new =>
      rw [not_or] at new
      refine ⟨new.1, ?_⟩
      rcases Fallible.bind_ok returned with ⟨scope, read, returned⟩
      rcases Fallible.bind_ok returned with ⟨reads, _, returned⟩
      split at returned
      · exact admit_plain read returned
      · next pending _ =>
          split at returned
          · split at returned
            · exact admit_plain read returned
            · split at returned
              · cases returned
                exact .inr ⟨fun _ same => (by cases same), .refl _⟩
              · next matched =>
                  rw [not_not] at matched
                  split at returned
                  · split at returned
                    · cases returned
                    · rcases Fallible.bind_ok returned with ⟨extended, extension, returned⟩
                      rw [matched] at returned
                      exact admit_approved read extension returned
                  · exact admit_plain read returned
          · split at returned
            · cases returned
              exact .inr ⟨fun _ same => (by cases same), .refl _⟩
            · exact admit_plain read returned

theorem resolve_ok {allow : Bool} (returned : resolve approvalId allow state = .ok ((), after)) :
    ∃ pending, state.pending = some pending ∧ after.scope = state.scope ∧ after.tickets = [] ∧
      after.usedCalls = state.usedCalls ∧ after.pending = some { pending with
        status := if allow then .approved else .denied, revision := state.revision + 1 } := by
  unfold resolve at returned
  split at returned
  · next pending waiting =>
      split at returned
      · cases returned
      · cases returned
        exact ⟨pending, waiting, rfl, rfl, rfl, rfl⟩
  · cases returned

/-- Nothing happened, or a proposal that could still be granted became stale. -/
theorem cancelPending_ok {approvalId : Option Text}
    (returned : cancelPending approvalId state = .ok ((), after)) :
    after = state ∨ ∃ pending, state.pending = some pending ∧ after.revision = state.revision + 1 ∧
      after.scope = state.scope ∧ after.tickets = [] ∧ after.usedCalls = state.usedCalls ∧
        after.pending = some { pending with status := .stale } := by
  unfold cancelPending at returned
  split at returned
  · next pending waiting =>
      split at returned
      · cases returned
        exact .inr ⟨pending, waiting, rfl, rfl, rfl, rfl, rfl⟩
      · cases returned
        exact .inl rfl
  · cases returned
    exact .inl rfl

/-- The approval of a ticket with an extended scope is used up. -/
def Commits (state after : State Digest) (ticket : Ticket Digest) : Prop :=
  (ticket.grantScope = none ∧ after.scope = state.scope ∧ after.pending = state.pending) ∨
    ∃ scope pending, ticket.grantScope = some scope ∧ state.pending = some pending ∧
      pending.status = .approved ∧ some pending.actionDigest = ticket.approvalDigest ∧ after.scope = scope ∧
        after.pending = some { pending with status := .consumed }

theorem commitGrant_ok {digest : Digest} {ticket used : Ticket Digest}
    (returned : commitGrant digest ticket state = .ok (used, after)) :
    Commits state after ticket ∧ used.approvalDigest = ticket.approvalDigest ∧ after.tickets = state.tickets ∧
      after.usedCalls = state.usedCalls := by
  unfold commitGrant at returned
  split at returned
  · next plain =>
      cases returned
      exact ⟨.inl ⟨plain, rfl, rfl⟩, rfl, rfl, rfl⟩
  · next scope pending extended waiting =>
      split at returned
      · cases returned
      · next valid =>
          rw [not_or, not_not, not_not] at valid
          cases returned
          exact ⟨.inr ⟨scope, pending, extended, waiting, valid.1, valid.2, rfl, rfl⟩, rfl, rfl, rfl⟩
  · cases returned

theorem consumeAction_ok {used : Ticket Digest}
    (returned : consumeAction action callId state = .ok (used, after)) :
    ∃ ticket ∈ state.tickets, ticket.callId = callId ∧ ticket.actionDigest = ofAction action ∧
      ticket.policyDigest = state.policy ∧ used.approvalDigest = ticket.approvalDigest ∧
      after.tickets = state.tickets.filter (fun other => decide (other.callId ≠ callId)) ∧
      after.usedCalls = state.usedCalls ++ [callId] ∧ Commits state after ticket := by
  unfold consumeAction at returned
  split at returned
  · cases returned
  · next ticket found =>
      split at returned
      · cases returned
      · next valid =>
          simp only [not_or, not_not] at valid
          split at returned
          · cases returned
          · rcases Fallible.map_ok returned with ⟨⟨done, committed⟩, commits, same⟩
            cases same
            rcases commitGrant_ok commits with ⟨commits, approval, tickets, calls⟩
            have named := List.find?_some found
            refine ⟨ticket, List.mem_of_find?_eq_some found, of_decide_eq_true named, valid.1, valid.2.2, approval, ?_⟩
            simp only [Commits, State.audited_scope, State.audited_pending, State.audited_tickets,
              State.audited_usedCalls]
            exact ⟨tickets, calls, commits⟩

theorem replaceScope_ok {scope : BuiltScope} (returned : replaceScope scope state = .ok ((), after)) :
    after.scope = scope.1 ∧ after.tickets = [] ∧ after.usedCalls = state.usedCalls ∧
      after.pending = state.pending.map (fun pending => { pending with status := .stale }) := by
  cases returned
  simp [State.fenced]

theorem outcome_ok {evidence : Ticket Digest} {status receiptId : String}
    (returned : outcome evidence status receiptId state = .ok ((), after)) :
    after.scope = state.scope ∧ after.tickets = state.tickets ∧ after.usedCalls = state.usedCalls ∧
      after.pending = state.pending := by
  cases returned
  simp

theorem discard_ok (returned : discard callId state = .ok ((), after)) :
    after.scope = state.scope ∧ (∀ ticket ∈ after.tickets, ticket ∈ state.tickets) ∧
      after.usedCalls = state.usedCalls ∧ after.pending = state.pending := by
  unfold discard at returned
  split at returned
  · cases returned
    exact ⟨rfl, fun _ member => List.mem_of_mem_filter member, rfl, rfl⟩
  · cases returned
    exact ⟨rfl, fun _ member => member, rfl, rfl⟩

end Sections

end Permissions
end FixLoop
