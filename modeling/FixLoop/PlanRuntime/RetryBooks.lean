import FixLoop.PlanRuntime.Bookkeeping
import FixLoop.PlanRuntime.ReplannedWrites

namespace FixLoop
namespace PlanRuntime

open Library Program

/-!
# What a retry does to the books

Up to its request a retry is ordinary.  The request is recorded when no other
one is open and its trigger is unheard of.  From there until the commit the
books do not change, so whether the plan has a new version tells whether the
commit has been made, and the open request is closed accordingly.
-/

variable {session : PlanSession} [Hashing]

section Quietness

theorem quiet_planView : Quiet PlanSession.planView := by
  refine quiet_currentPlan.bind fun held => ?_
  cases held with
  | none => exact quiet_fail _
  | some plan => exact (quiet_refuseIf _ _).bind fun _ => quiet_pure _

section

omit [Hashing]

theorem quiet_preflight : Quiet PlanSession.preflight :=
  (quiet_check _).bind (fun _ => quiet_requirePlan.bind (fun _ => quiet_journal.bind (fun _ =>
    (quiet_question _).bind fun _ => quiet_snapshotWorkspace.bind fun _ => quiet_pure _)))

theorem quiet_replanSafetyReason : Quiet PlanSession.replanSafetyReason := by
  intro reply
  cases reply with
  | some reason => exact True.intro
  | none =>
    refine quiet_preflight.bind fun checked => ?_
    cases checked with
    | error reason | ok passed => exact quiet_pure _

theorem quiet_freshSourceRefs : Quiet PlanSession.freshSourceRefs :=
  quiet_journal.bind fun _ => (quiet_question _).bind fun _ => quiet_pure _

end

variable (reading : RetryReading)

theorem quiet_verificationTrigger : Quiet (session.verificationTrigger reading) := by
  refine quiet_requirePlan.bind fun plan => (quiet_ofExcept _).bind fun node => ?_
  refine quiet_journal.bind fun journal => ?_
  split
  · exact quiet_pure _
  · split
    · exact quiet_fail _
    · exact (quiet_ofExcept _).bind fun _ => quiet_pure _

variable [Decoding]

omit [Decoding] in
theorem quiet_isolatedRead (attempt : Attempt) (node : PlanNode) (arguments : Json)
    (call : ChildCall) : Quiet (session.isolatedRead attempt node arguments call) := by
  cases call with
  | refused errorCode =>
    exact (quiet_operationsOf _).bind fun _ => (quiet_question _).bind fun _ => quiet_pure _
  | ran result =>
    refine (quiet_toolPrepare _ _ _ _).bind fun prepared => ?_
    cases prepared with
    | none => exact (quiet_operationsOf _).bind fun _ => (quiet_question _).bind fun _ => quiet_pure _
    | some operation =>
      exact (quiet_toolDispatch _ _).bind (fun _ => (quiet_toolSettle _ _ _).bind (fun _ =>
        (quiet_operationsOf _).bind fun _ => (quiet_question _).bind fun _ => quiet_pure _))

theorem runRead_ordinary (node : PlanNode) (arguments : Json) (call : ChildCall) :
    Ordinary (session.runRead node arguments call) := by
  have invoked : ∀ attempt, Quiet (session.invokeRead attempt node arguments call) := fun attempt =>
    (quiet_check _).bind (fun _ => (quiet_isolatedRead attempt node arguments call).bind (fun _ =>
      quiet_recordResult _ _))
  refine (runNode_ordinary _).bind fun attempt => ?_
  refine (Quiet.ordinary (Appends.caught (invoked attempt))).bind fun ended => ?_
  cases ended with
  | ok recorded => exact (quiet_pure _).then fun _ => (settle_ordinary _).bind fun _ => (quiet_pure _).ordinary
  | error fault =>
    exact (quiet_recordResult _ _).then (fun _ => (settle_ordinary _).bind (fun _ =>
      (quiet_pure _).ordinary))

theorem refreshReplanEvidence_ordinary : Ordinary (session.refreshReplanEvidence reading) := by
  refine quiet_requirePlan.then fun plan => ordinary_forM fun node => ordinary_whenever _ ?_
  refine (quiet_check _).then fun _ => ?_
  refine (ordinary_whenever _ (commitTransition_ordinary _ _ _)).bind fun _ => ?_
  refine quiet_requirePlan.then fun _ => (quiet_ofExcept _).then fun current => ?_
  refine (ordinary_whenever _ (commitTransition_ordinary _ _ _)).bind fun _ => ?_
  split
  · exact (quiet_fail _).ordinary
  · exact runRead_ordinary _ _ _

theorem decideRetry_ordinary [RepairLoop.Texts] (failure : VerificationFailure) :
    Ordinary (session.decideRetry reading failure) := by
  have evaluated : ∀ facts, Quiet (session.evaluateReplan facts) := fun facts =>
    quiet_planView.bind fun _ => (quiet_emit _ _).bind fun _ => quiet_pure _
  have stopped : Quiet PlanSession.stopReason := fun _ => True.intro
  refine quiet_replanSafetyReason.then fun _ => stopped.then fun _ => ?_
  refine quiet_freshSourceRefs.then fun _ => (evaluated _).then fun decision => ?_
  refine ordinary_ite ?_ (quiet_pure _).ordinary
  refine (refreshReplanEvidence_ordinary reading).bind fun _ => quiet_freshSourceRefs.then fun _ => ?_
  exact quiet_replanSafetyReason.then fun _ => (evaluated _).ordinary

theorem quiet_retryCandidate (request : ReplanRequest) (evidenceRefs : List String)
    (generation : Generation) : Quiet (session.retryCandidate request evidenceRefs generation) := by
  have grounded : ∀ planId, Quiet (session.groundedPlan planId evidenceRefs generation) := by
    intro planId
    cases generation with
    | raised fault => exact quiet_fail _
    | rejected reason => exact (quiet_emit _ _).bind fun _ => quiet_fail _
    | proposed nodes conclusion =>
      exact (quiet_question _).bind (fun _ => (quiet_ofExcept _).bind (fun _ =>
        quiet_currentPlan.bind fun _ => (quiet_write ⟨rfl, rfl⟩).bind fun _ => quiet_pure _))
  have committing : Quiet (PlanSession.beforeCommit request) :=
    quiet_replanSafetyReason.bind (fun _ => (quiet_refuseIf _ _).bind (fun _ =>
      quiet_requirePlan.bind (fun _ => (quiet_refuseIf _ _).bind (fun _ =>
        (quiet_check _).bind fun _ => quiet_check _))))
  refine quiet_preflight.bind fun _ => (quiet_ofExcept _).bind fun _ => ?_
  refine quiet_requirePlan.bind fun _ => (grounded _).bind fun _ => quiet_requirePlan.bind fun _ => ?_
  exact (quiet_question _).bind (fun _ => (quiet_refuseIf _ _).bind (fun _ =>
    committing.bind fun _ => quiet_pure _))

end Quietness

section Committing

variable [Decoding]

theorem replanned_next {facts : ReplanFacts} {registry : Registry} {identity : Identity}
    {old candidate after : Plan} {reason : String} {evidenceRefs : List String}
    (accepted : replanned facts registry identity old candidate reason evidenceRefs = .ok after) :
    old.planVersion ≤ maxReplans ∧ after.planVersion = old.planVersion + 1 ∧
      after.replanReason = reason := by
  rcases replanned_ok accepted with ⟨gate, _, refreshed⟩
  have same := refresh_lineage refreshed
  exact ⟨(replanGate_ok gate).1, congrArg Lineage.planVersion same, congrArg Lineage.replanReason same⟩

/-- The books after the call of the planner: the new version is committed, or
nothing has changed and there is a fault. -/
inductive Attempted (request : ReplanRequest) (books : Books) {Result : Type} :
    Except Fault Result -> Books -> Prop where
  | failed (fault : Fault) : Attempted request books (.error fault) books
  | committed (ended : Except Fault Result) (after : Plan)
      (version : after.planVersion = request.planVersion + 1)
      (reason : after.replanReason = verificationReason request.triggerRef) :
      Attempted request books ended (books.withPlan after)

variable {request : ReplanRequest} {books : Books}

omit [Hashing] [Decoding] in
theorem Attempted.failing {Result : Type} (fault : Fault) (later : Journal) (same : later.books = books) :
    Attempted request books (.error fault : Except Fault Result) later.books := by
  rw [same]
  exact .failed fault

omit [Hashing] [Decoding] in
/-- Another end of the same kind. -/
theorem Attempted.ending {now : Books} {Result Other : Type} {ended : Except Fault Result}
    {other : Except Fault Other} (attempted : Attempted request books ended now)
    (faults : ∀ fault, ended = .error fault -> ∃ raised, other = .error raised) :
    Attempted request books other now := by
  cases attempted with
  | failed fault =>
    rcases faults fault rfl with ⟨raised, rfl⟩
    exact .failed raised
  | committed _ after version reason => exact .committed other after version reason

theorem replan_caught {journal : Journal} {before : Plan} (known : journal.books = books)
    (opened : books.Open request) (held : books.plan? = some before)
    (version : before.planVersion = request.planVersion) (candidate : Plan) (evidenceRefs : List String) :
    Booked (session.replan candidate (verificationReason request.triggerRef) evidenceRefs).caught
      journal (fun ended later => Attempted request books ended later.books) := by
  refine (quiet_check _).followedCaught known (fun _ journal known => ?_) Attempted.failing
  have current : journal.plan? = some before := (congrArg Books.plan? known).trans held
  refine requirePlan_caught current ?_
  refine quiet_journal.followedCaught known (fun events journal known => ?_) Attempted.failing
  refine (quiet_question _).followedCaught known (fun ledger journal known => ?_) Attempted.failing
  refine quiet_snapshotWorkspace.followedCaught known (fun workspace journal known => ?_) Attempted.failing
  refine keeps_caught_bind.mpr (keeps_caught_ofExcept ?_)
  split
  · rename_i after accepted
    rcases replanned_next accepted with ⟨budget, next, reason⟩
    have made : after.planVersion = request.planVersion + 1 := version ▸ next
    have committed : ∀ {Result : Type} (ended : Except Fault Result) (later : Journal),
        later.books = books.withPlan after -> Attempted request books ended later.books := by
      intro _ ended later reached
      rw [reached]
      exact .committed ended after made reason
    have change := Books.Change.replanned request before after opened held version budget next reason
    refine Keeps.bindCaught (commit_caught known change) ?_ ?_
    · rintro _ later (reached | ⟨_, fault, impossible⟩)
      · refine Keeps.mono (Quiet.booked (Appends.caught ((quiet_emit _ _).bind (fun _ =>
          quiet_checkpoint.bind fun _ => quiet_pure after))) later) ?_
        exact fun ended last kept => committed ended last (kept.trans reached)
      · cases impossible
    · rintro fault later (reached | ⟨same, _⟩)
      · exact committed (.error fault) later reached
      · exact .failing fault later same
  · exact .failing _ journal known

theorem retryPlan_caught {journal : Journal} {before : Plan} (known : journal.books = books)
    (opened : books.Open request) (held : books.plan? = some before)
    (version : before.planVersion = request.planVersion) (evidenceRefs : List String)
    (generation : Generation) :
    Booked (session.retryPlan request evidenceRefs generation).caught journal
      (fun ended later => Attempted request books ended later.books) := by
  refine (quiet_retryCandidate _ _ _).followedCaught known (fun candidate journal known => ?_)
    Attempted.failing
  refine Keeps.bindCaught (replan_caught known opened held version candidate evidenceRefs) ?_ ?_
  · exact fun after later attempted => attempted.ending nofun
  · exact fun fault later attempted => attempted.ending fun _ _ => ⟨fault, rfl⟩

end Committing

/-! ## Requests that end -/

/-- No request is open. -/
def Books.Settled (books : Books) : Prop :=
  ∀ request ∈ books.lastRequests, request.status ≠ .started

/-- The books are in order, and no request is open. -/
def Closed (books : Books) : Prop := books.InOrder ∧ books.Settled

variable {request : ReplanRequest} {journal : Journal}

section

omit [Hashing]

theorem Books.InOrder.closes {books : Books} (order : books.InOrder) {ended : ReplanRequest}
    (opened : books.Open request) (trigger : ended.triggerRef = request.triggerRef)
    (closed : ended.status ≠ .started) : (books.withRequest ended).Settled := by
  intro other member started
  rcases Books.mem_lastRequests member with rfl | ⟨earlier, different⟩
  · exact closed started
  · rw [opened.eq (order.exclusive.last other earlier started)] at different
    exact different trigger.symm

/-- The last record of the open request is written. -/
theorem close_then {books : Books} {ended : ReplanRequest} {Result : Type} {next : PUnit -> SessionM Result}
    (known : journal.books = books) (order : books.InOrder) (opened : books.Open request)
    (trigger : ended.triggerRef = request.triggerRef) (closed : ended.status ≠ .started)
    (change : books.Change (books.withRequest ended)) (quiet : Quiet (next PUnit.unit)) :
    Booked (write ended.entry >>= next) journal (fun _ later => Closed later.books) := by
  have reached : Journal.books (journal ++ [ended.entry]) = books.withRequest ended := by
    rw [Journal.books_request, known]
  refine keeps_bind.mpr (keeps_write.mpr ⟨?_, ?_⟩)
  · rw [Booking, known, reached]
    exact change
  · refine (quiet.booked _).mono ?_
    intro _ later same
    rw [same, reached]
    exact ⟨order.changed change, order.closes opened trigger closed⟩

/-- The loop of `_reconcile_replans`: the open requests are among those that
are still to come. -/
theorem reconcile_loop {events : Journal} {requests : List ReplanRequest} (order : journal.books.InOrder)
    (names : (requests.map ReplanRequest.triggerRef).Nodup)
    (saved : ∀ plan ∈ events.plans, plan ∈ journal.books.plans)
    (listed : ∀ request ∈ requests, request.status = .started -> request ∈ journal.books.lastRequests)
    (covered : ∀ request ∈ journal.books.lastRequests, request.status = .started -> request ∈ requests) :
    Booked (requests.forM (session.reconcileRequest events)) journal
      (fun _ later => Closed later.books) := by
  induction requests generalizing journal with
  | nil => exact ⟨order, fun request member started => List.not_mem_nil (covered request member started)⟩
  | cons request rest ih =>
    rw [List.map_cons, List.nodup_cons] at names
    change Booked (session.reconcileRequest events request >>= fun _ =>
      rest.forM (session.reconcileRequest events)) journal _
    unfold PlanSession.reconcileRequest
    split
    · rename_i ended
      refine ih order names.2 saved ?_ ?_
      · exact fun other member => listed other (List.mem_cons_of_mem request member)
      · intro other member started
        rcases List.mem_cons.mp (covered other member started) with rfl | later
        · exact absurd started ended
        · exact later
    · rename_i started
      have started : request.status = .started := not_not.mp started
      have opened := order.exclusive.last request (listed request List.mem_cons_self started) started
      split
      · exact True.intro
      · rename_i committed found
        have answers := List.find?_some found
        rw [ReplanRequest.answeredBy, Bool.and_eq_true, Bool.and_eq_true, decide_eq_true_eq,
          decide_eq_true_eq, decide_eq_true_eq] at answers
        have change := Books.Change.committed request committed opened
          (saved committed (List.mem_of_find?_eq_some found)) answers.1.1 answers.2
        have reached := Journal.books_request journal
          { request with status := .committed, committedVersion := some committed.planVersion }
        refine keeps_bind.mpr (keeps_bind.mpr (keeps_write.mpr ⟨?_, ?_⟩))
        · rw [Booking, reached]
          exact change
        refine ((quiet_whenever _ (quiet_emit _ _)).booked _).mono ?_
        intro _ later same
        rw [reached] at same
        have ordered := order.changed change
        rw [← same] at ordered
        refine ih ordered names.2 ?_ ?_ ?_
        · intro plan member
          rw [same]
          exact saved plan member
        · intro other member status
          have different : other.triggerRef ≠ request.triggerRef :=
            fun equal => names.1 (equal ▸ List.mem_map_of_mem member)
          rw [same, Books.lastRequests_withRequest]
          exact mem_enter_of_ne (listed other (List.mem_cons_of_mem request member) status) different
        · intro other member status
          rw [same] at member
          rcases Books.mem_lastRequests member with rfl | ⟨earlier, different⟩
          · cases status
          · rcases List.mem_cons.mp (covered other earlier status) with rfl | later
            · exact absurd rfl different
            · exact later

theorem reconcileReplans_booked (order : journal.books.InOrder) :
    Booked session.reconcileReplans journal (fun _ later => Closed later.books) := by
  refine keeps_bind.mpr (keeps_journal.mpr ?_)
  exact reconcile_loop order (nodup_latest _ _) (fun _ member => member) (fun _ member _ => member)
    (fun _ member _ => member)

end

variable [Decoding]

omit [Hashing] [Decoding] in
/-- The handler closes the request either way. -/
theorem abandonReplan_booked (order : journal.books.InOrder) (opened : journal.books.Open request)
    (fault : Fault) :
    Booked (session.abandonReplan request fault) journal (fun _ later => Closed later.books) := by
  refine Setting.requirePlan_keeps ?_
  intro plan held
  split
  · exact reconcileReplans_booked order
  · rename_i unchanged
    exact close_then rfl order opened rfl nofun
      (.rejected request plan _ opened held (not_not.mp unchanged)) (quiet_emit _ _)

theorem submitReplan_booked {before : Plan} (order : journal.books.InOrder)
    (opened : journal.books.Open request) (held : journal.plan? = some before)
    (version : before.planVersion = request.planVersion) (evidenceRefs : List String)
    (generation : Generation) :
    Booked (session.submitReplan request evidenceRefs generation) journal
      (fun _ later => Closed later.books) := by
  have caught : Booked (session.retryPlan request evidenceRefs generation).caught journal
      (fun ended later => Attempted request journal.books ended later.books) :=
    retryPlan_caught rfl opened held version evidenceRefs generation
  have attempted := caught.preserving (fun _ _ => Booking.inOrder) order
  refine Keeps.bind attempted ?_
  rintro ended later ⟨attempt, ordered⟩
  generalize here : Journal.books later = books at attempt ordered
  cases attempt with
  | failed fault =>
    refine Keeps.bind (abandonReplan_booked (here ▸ ordered) (here ▸ opened) fault) ?_
    exact fun _ _ closed => closed
  | committed _ after made reason =>
    have reopened : (journal.books.withPlan after).Open request := opened
    cases ended with
    | error fault =>
      refine Keeps.bind (abandonReplan_booked (here ▸ ordered) (here ▸ reopened) fault) ?_
      exact fun _ _ closed => closed
    | ok finished =>
      refine Setting.requirePlan_keeps ?_
      intro plan present
      have current : plan = after := by
        have known : (Journal.books later).plan? = some plan := present
        rw [here, Books.plan?_withPlan] at known
        exact (Option.some.inj known).symm
      rw [current]
      have member : after ∈ (journal.books.withPlan after).plans :=
        List.mem_append_right _ List.mem_cons_self
      exact close_then here ordered reopened rfl nofun
        (.committed request after reopened member made reason) (quiet_pure _)

omit [Decoding] in
/-- The request is recorded for a trigger of which nothing has been heard. -/
theorem requestReplan_booked {failure : VerificationFailure} (closed : Closed journal.books)
    (unheard : ∀ other ∈ journal.books.requests, other.triggerRef ≠ failure.triggerRef) :
    Booked (session.requestReplan failure) journal (fun request later =>
      later.books.InOrder ∧ later.books.Open request ∧ ∃ before,
        later.plan? = some before ∧ before.planVersion = request.planVersion) := by
  refine quiet_preflight.followed rfl fun _ later known => ?_
  refine (quiet_ofExcept _).followed known fun _ later known => ?_
  refine quiet_planView.followed known fun _ later known => ?_
  refine (quiet_ofExcept _).followed known fun _ later known => ?_
  refine quiet_snapshotWorkspace.followed known fun _ later known => ?_
  refine Setting.requirePlan_keeps ?_
  intro plan held
  have held : journal.books.plan? = some plan := by
    rw [← known]
    exact held
  generalize made : ReplanRequest.mk failure.triggerRef plan.planVersion plan.planChecksum .started
    none none = request
  have change : journal.books.Change (journal.books.withRequest request) := by
    rw [← made]
    exact .requested _ plan unheard closed.2 rfl held rfl
  have reached : Journal.books (later ++ [request.entry]) = journal.books.withRequest request := by
    rw [Journal.books_request, known]
  refine keeps_bind.mpr (keeps_write.mpr ⟨?_, ?_⟩)
  · rw [Booking, known, reached]
    exact change
  refine (quiet_cut _).followed reached fun _ later known => ?_
  refine (quiet_emit _ _).followed known fun _ later known => ?_
  have current : later.books.plan? = some plan := by
    rw [known]
    exact held
  refine ⟨known ▸ closed.1.changed change, ?_, plan, current, ?_⟩
  · rw [known]
    exact ⟨List.getLast?_concat, by rw [← made]⟩
  · rw [← made]

/-- However the call ends by its own statements, no request is open. -/
theorem retryFromVerification_booked [RepairLoop.Texts] (order : journal.books.InOrder)
    (reading : RetryReading) :
    Booked (session.retryFromVerification reading) journal (fun _ later => Closed later.books) := by
  refine Keeps.bind (reconcileReplans_booked order) ?_
  intro _ journal closed
  refine (quiet_verificationTrigger reading).followed rfl fun failure later known => ?_
  rw [← known] at closed
  refine keeps_bind.mpr (keeps_journal.mpr ?_)
  split
  · exact closed
  · rename_i absent
    have unheard : ∀ other ∈ later.books.requests, other.triggerRef ≠ failure.triggerRef := by
      intro other recorded same
      rcases exists_mem_latest ReplanRequest.triggerRef recorded with ⟨last, listed, named⟩
      exact List.find?_eq_none.mp absent last listed (decide_eq_true (named.trans same))
    refine Keeps.bind ((decideRetry_ordinary reading failure later).preserving
      (fun _ _ => Booking.inOrder) closed.1) ?_
    rintro decision after ⟨same, ordered⟩
    have same : (Journal.books after).requests = later.books.requests := same
    have settled : (Journal.books after).Settled := by
      intro request listed
      rw [Books.lastRequests, same] at listed
      exact closed.2 request listed
    split
    · exact ⟨ordered, settled⟩
    · refine Keeps.bind (requestReplan_booked ⟨ordered, settled⟩ (same ▸ unheard)) ?_
      rintro request last ⟨ordered, opened, before, held, version⟩
      exact submitReplan_booked ordered opened held version _ _

end PlanRuntime
end FixLoop
