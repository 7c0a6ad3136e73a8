import FixLoop.PlanRuntime.VerificationRetry

namespace FixLoop
namespace PlanRuntime

open Library

/-!
# The books of replans

A plan is saved again with every change of its nodes, so the plans of a journal
come in versions.  The books keep the saved plans and the recorded requests.
They are in order when the versions are numbered, every version with a
verification reason belongs to the request that asked for it, and at most one
request is open, the last one recorded.  The changes that keep the books in
order are listed with what has to be known before them.
-/

/-- What the revisions of a plan have in common. -/
structure Lineage where
  planId : String
  planVersion : Int
  parentPlanChecksum : String
  replanReason : String
  replanEvidenceRefs : List String

def Plan.lineage (plan : Plan) : Lineage :=
  ⟨plan.planId, plan.planVersion, plan.parentPlanChecksum, plan.replanReason, plan.replanEvidenceRefs⟩

/-- The first plan of each version, after the version seen before. -/
def begun (seen : Option Int) : List Plan -> List Plan
  | [] => []
  | plan :: rest =>
    if seen = some plan.planVersion then begun seen rest
    else plan :: begun (some plan.planVersion) rest

structure Books where
  plans : List Plan
  requests : List ReplanRequest

def Journal.books (journal : Journal) : Books := ⟨journal.plans, journal.requests⟩

namespace Books

section Accounts

variable (books : Books)

def plan? : Option Plan := books.plans.getLast?

/-- The plans with which the versions begin. -/
def versions : List Plan := begun none books.plans

/-- The versions that were made for a trigger. -/
def versionsFor (triggerRef : String) : List Plan :=
  books.versions.filter fun plan => plan.replanReason = verificationReason triggerRef

def lastRequests : List ReplanRequest := latest ReplanRequest.triggerRef books.requests

/-- The request has been recorded last and is still open. -/
def Open (request : ReplanRequest) : Prop :=
  books.requests.getLast? = some request ∧ request.status = .started

def withPlan (plan : Plan) : Books := { books with plans := books.plans ++ [plan] }

def withRequest (request : ReplanRequest) : Books :=
  { books with requests := books.requests ++ [request] }

/-- The versions are numbered from one, within the budget, and every saved plan
belongs to one of them. -/
structure Numbered : Prop where
  numbers : ∀ (index : Nat) (plan : Plan), books.versions[index]? = some plan ->
    plan.planVersion = (index : Int) + 1
  budget : (books.versions.length : Int) ≤ maxReplans + 1
  current : books.plan?.map Plan.lineage = books.versions.getLast?.map Plan.lineage
  saved : ∀ plan ∈ books.plans, ∃ first ∈ books.versions, first.lineage = plan.lineage

/-- Only the last request may be open, and nothing was recorded for its
trigger before it. -/
structure Exclusive : Prop where
  last : ∀ request ∈ books.lastRequests, request.status = .started ->
    books.Open request
  first : ∀ request, books.Open request -> ∀ other ∈ books.requests,
    other.triggerRef = request.triggerRef -> other = request
  agreed : ∀ request other, request ∈ books.requests -> other ∈ books.requests ->
    request.triggerRef = other.triggerRef -> request.planVersion = other.planVersion

/-- The versions and the requests belong together. -/
structure Matched : Prop where
  caused : ∀ plan triggerRef, plan ∈ books.versions ->
    plan.replanReason = verificationReason triggerRef -> ∃ request ∈ books.requests, request.triggerRef = triggerRef ∧
        plan.planVersion = request.planVersion + 1
  current : ∀ request, books.Open request -> ∃ plan, books.plan? = some plan ∧
    (plan.planVersion = request.planVersion ∨ plan.planVersion = request.planVersion + 1)
  rejected : ∀ request ∈ books.requests, request.status = .rejected ->
    ∀ plan ∈ books.versions, plan.replanReason ≠ verificationReason request.triggerRef
  committed : ∀ request ∈ books.requests, request.status = .committed ->
    request.committedVersion = some (request.planVersion + 1) ∧ ∃ plan ∈ books.versions, plan.replanReason = verificationReason request.triggerRef ∧
        plan.planVersion = request.planVersion + 1

structure InOrder : Prop where
  numbered : books.Numbered
  exclusive : books.Exclusive
  matched : books.Matched

/-- A change that a transaction may make. -/
inductive Change : Books -> Prop where
  | same : Change books
  | created (plan : Plan) (absent : books.plan? = none) (version : plan.planVersion = 1)
      (reason : plan.replanReason = "") : Change (books.withPlan plan)
  | revised (before after : Plan) (held : books.plan? = some before)
      (same : after.lineage = before.lineage) : Change (books.withPlan after)
  | requested (request : ReplanRequest) (plan : Plan)
      (unheard : ∀ other ∈ books.requests, other.triggerRef ≠ request.triggerRef)
      (settled : ∀ other ∈ books.lastRequests, other.status ≠ .started)
      (started : request.status = .started) (held : books.plan? = some plan)
      (version : plan.planVersion = request.planVersion) : Change (books.withRequest request)
  | replanned (request : ReplanRequest) (before after : Plan) (opened : books.Open request)
      (held : books.plan? = some before) (version : before.planVersion = request.planVersion)
      (budget : before.planVersion ≤ maxReplans) (next : after.planVersion = before.planVersion + 1)
      (reason : after.replanReason = verificationReason request.triggerRef) :
      Change (books.withPlan after)
  | rejected (request : ReplanRequest) (plan : Plan) (reason : Option String)
      (opened : books.Open request) (held : books.plan? = some plan)
      (version : plan.planVersion = request.planVersion) :
      Change (books.withRequest { request with status := .rejected, reason := reason })
  | committed (request : ReplanRequest) (plan : Plan) (opened : books.Open request)
      (saved : plan ∈ books.plans) (version : plan.planVersion = request.planVersion + 1)
      (reason : plan.replanReason = verificationReason request.triggerRef) :
      Change (books.withRequest
        { request with status := .committed, committedVersion := some plan.planVersion })

end Accounts

/-! ## Versions -/

theorem begun_append (seen : Option Int) (plans : List Plan) (plan : Plan) :
    begun seen (plans ++ [plan]) = begun seen plans ++
      (if (plans.getLast?.map Plan.planVersion).or seen = some plan.planVersion then [] else [plan]) := by
  induction plans generalizing seen with
  | nil => rfl
  | cons first rest ih =>
    have last : ((first :: rest).getLast?.map Plan.planVersion).or seen =
        (rest.getLast?.map Plan.planVersion).or (some first.planVersion) := by
      cases rest with
      | nil => rfl
      | cons second rest =>
        rw [List.getLast?_cons_cons, List.getLast?_cons, Option.map_some]
        rfl
    rw [List.cons_append, begun, begun, last]
    split
    · rename_i same
      rw [ih, same]
    · rw [ih, List.cons_append]

variable {books : Books}

theorem versions_withPlan (books : Books) (plan : Plan) :
    (books.withPlan plan).versions = books.versions ++
      (if books.plan?.map Plan.planVersion = some plan.planVersion then [] else [plan]) := by
  rw [versions, withPlan, begun_append, Option.or_none]
  rfl

@[simp] theorem plan?_withPlan (books : Books) (plan : Plan) :
    (books.withPlan plan).plan? = some plan := List.getLast?_concat

theorem mem_of_plan? {plan : Plan} (held : books.plan? = some plan) : plan ∈ books.plans :=
  List.mem_of_getLast? held

namespace Numbered

theorem bounds (numbered : books.Numbered) {plan : Plan} (listed : plan ∈ books.versions) :
    1 ≤ plan.planVersion ∧ plan.planVersion ≤ books.versions.length := by
  rcases List.mem_iff_getElem?.mp listed with ⟨index, found⟩
  have number := numbered.numbers index plan found
  have inside := (List.getElem?_eq_some_iff.mp found).1
  omega

/-- The number of a version picks it out. -/
theorem unique (numbered : books.Numbered) {first second : Plan} (left : first ∈ books.versions)
    (right : second ∈ books.versions) (same : first.planVersion = second.planVersion) :
    first = second := by
  rcases List.mem_iff_getElem?.mp left with ⟨here, found⟩
  rcases List.mem_iff_getElem?.mp right with ⟨there, other⟩
  have number := numbered.numbers here first found
  have position : here = there := by
    have second := numbered.numbers there second other
    omega
  rw [position, other] at found
  exact (Option.some.inj found).symm

theorem current_version (numbered : books.Numbered) {plan : Plan} (held : books.plan? = some plan) :
    plan.planVersion = books.versions.length := by
  have same := numbered.current
  rw [held, Option.map_some] at same
  cases last : books.versions.getLast? with
  | none =>
    rw [last] at same
    cases same
  | some first =>
    rw [last, Option.map_some] at same
    have number : plan.planVersion = first.planVersion :=
      congrArg Lineage.planVersion (Option.some.inj same)
    rw [List.getLast?_eq_getElem?] at last
    have position := numbered.numbers _ first last
    have inside := (List.getElem?_eq_some_iff.mp last).1
    omega

theorem versions_eq_nil (numbered : books.Numbered) (absent : books.plan? = none) :
    books.versions = [] := by
  have same := numbered.current
  rw [absent, Option.map_none] at same
  exact List.getLast?_eq_none_iff.mp (Option.map_eq_none_iff.mp same.symm)

theorem begins (numbered : books.Numbered) (plan : Plan)
    (next : plan.planVersion = (books.versions.length : Int) + 1)
    (budget : (books.versions.length : Int) ≤ maxReplans) :
    (books.withPlan plan).versions = books.versions ++ [plan] ∧ (books.withPlan plan).Numbered := by
  have grown : (books.withPlan plan).versions = books.versions ++ [plan] := by
    rw [versions_withPlan, if_neg]
    intro same
    rcases Option.map_eq_some_iff.mp same with ⟨held, known, version⟩
    have number := numbered.current_version known
    omega
  refine ⟨grown, ?_, ?_, ?_, ?_⟩
  · intro index found located
    rw [grown] at located
    by_cases earlier : index < books.versions.length
    · rw [List.getElem?_append_left earlier] at located
      exact numbered.numbers index found located
    · have inside := (List.getElem?_eq_some_iff.mp located).1
      rw [List.length_append, List.length_singleton] at inside
      have here : index = books.versions.length := by omega
      rw [here, List.getElem?_concat_length] at located
      rw [← Option.some.inj located, next, here]
  · rw [grown, List.length_append, List.length_singleton]
    push_cast
    omega
  · rw [plan?_withPlan, grown, List.getLast?_concat]
  · intro saved member
    rw [grown]
    rcases List.mem_append.mp member with earlier | here
    · rcases numbered.saved saved earlier with ⟨first, listed, same⟩
      exact ⟨first, List.mem_append_left _ listed, same⟩
    · rw [List.mem_singleton.mp here]
      exact ⟨plan, List.mem_append_right _ List.mem_cons_self, rfl⟩

theorem revises (numbered : books.Numbered) {before after : Plan} (held : books.plan? = some before)
    (same : after.lineage = before.lineage) :
    (books.withPlan after).versions = books.versions ∧ (books.withPlan after).Numbered := by
  have version : after.planVersion = before.planVersion := congrArg Lineage.planVersion same
  have kept : (books.withPlan after).versions = books.versions := by
    rw [versions_withPlan, held, Option.map_some, version, if_pos rfl, List.append_nil]
  refine ⟨kept, ?_, ?_, ?_, ?_⟩
  · rw [kept]
    exact numbered.numbers
  · rw [kept]
    exact numbered.budget
  · rw [plan?_withPlan, kept, ← numbered.current, held, Option.map_some, Option.map_some, same]
  · intro saved member
    rw [kept]
    rcases List.mem_append.mp member with earlier | here
    · exact numbered.saved saved earlier
    · rw [List.mem_singleton.mp here, same]
      exact numbered.saved before (mem_of_plan? held)

end Numbered

/-! ## Requests -/

variable {request other : ReplanRequest}

theorem Open.mem (opened : books.Open request) : request ∈ books.requests := List.mem_of_getLast? opened.1

theorem Open.eq (first : books.Open request) (second : books.Open other) : other = request :=
  Option.some.inj (second.1.symm.trans first.1)

theorem Open.last (opened : (books.withRequest request).Open other) : other = request :=
  (Option.some.inj (List.getLast?_concat.symm.trans opened.1)).symm

theorem lastRequests_withRequest (books : Books) (request : ReplanRequest) :
    (books.withRequest request).lastRequests =
      enter ReplanRequest.triggerRef request books.lastRequests := latest_append _ _ _

theorem mem_lastRequests (member : other ∈ (books.withRequest request).lastRequests) :
    other = request ∨ (other ∈ books.lastRequests ∧ other.triggerRef ≠ request.triggerRef) := by
  by_cases same : other.triggerRef = request.triggerRef
  · have distinct := nodup_latest ReplanRequest.triggerRef (books.withRequest request).requests
    have entered : request ∈ (books.withRequest request).lastRequests := by
      rw [lastRequests_withRequest]
      exact mem_enter_self _ _ _
    exact Or.inl (List.inj_on_of_nodup_map distinct member entered same)
  · rw [lastRequests_withRequest] at member
    rcases mem_enter member with rfl | earlier
    · exact absurd rfl same
    · exact Or.inr ⟨earlier, same⟩

theorem Numbered.withRequest (numbered : books.Numbered) (request : ReplanRequest) :
    (books.withRequest request).Numbered :=
  ⟨numbered.numbers, numbered.budget, numbered.current, numbered.saved⟩

namespace Exclusive

theorem withPlan (exclusive : books.Exclusive) (plan : Plan) : (books.withPlan plan).Exclusive :=
  ⟨exclusive.last, exclusive.first, exclusive.agreed⟩

theorem requested (exclusive : books.Exclusive) {request : ReplanRequest}
    (unheard : ∀ other ∈ books.requests, other.triggerRef ≠ request.triggerRef)
    (settled : ∀ other ∈ books.lastRequests, other.status ≠ .started) :
    (books.withRequest request).Exclusive := by
  refine ⟨?_, ?_, ?_⟩
  · intro other member started
    rcases mem_lastRequests member with rfl | ⟨earlier, _⟩
    · exact ⟨List.getLast?_concat, started⟩
    · exact absurd started (settled other earlier)
  · intro other opened third member same
    rw [opened.last] at same ⊢
    rcases List.mem_append.mp member with earlier | here
    · exact absurd same (unheard third earlier)
    · exact List.mem_singleton.mp here
  · intro first second left right same
    rcases List.mem_append.mp left with earlier | here
    · rcases List.mem_append.mp right with other | there
      · exact exclusive.agreed first second earlier other same
      · rw [List.mem_singleton.mp there] at same
        exact absurd same (unheard first earlier)
    · rw [List.mem_singleton.mp here] at same ⊢
      rcases List.mem_append.mp right with other | there
      · exact absurd same.symm (unheard second other)
      · rw [List.mem_singleton.mp there]

/-- The record with which the open request ends. -/
theorem concluded (exclusive : books.Exclusive) {request ended : ReplanRequest}
    (opened : books.Open request) (trigger : ended.triggerRef = request.triggerRef)
    (version : ended.planVersion = request.planVersion) (closed : ended.status ≠ .started) :
    (books.withRequest ended).Exclusive := by
  have agrees : ∀ other ∈ books.requests, other.triggerRef = ended.triggerRef ->
      other.planVersion = ended.planVersion := by
    intro other member same
    rw [version]
    exact exclusive.agreed other request member opened.mem (same.trans trigger)
  refine ⟨?_, ?_, ?_⟩
  · intro other member started
    rcases mem_lastRequests member with rfl | ⟨earlier, different⟩
    · exact absurd started closed
    · rw [opened.eq (exclusive.last other earlier started)] at different
      exact absurd trigger.symm different
  · intro other reopened
    rw [reopened.last] at reopened
    exact absurd reopened.2 closed
  · intro first second left right same
    rcases List.mem_append.mp left with earlier | here
    · rcases List.mem_append.mp right with other | there
      · exact exclusive.agreed first second earlier other same
      · rw [List.mem_singleton.mp there] at same ⊢
        exact agrees first earlier same
    · rw [List.mem_singleton.mp here] at same ⊢
      rcases List.mem_append.mp right with other | there
      · exact (agrees second other same.symm).symm
      · rw [List.mem_singleton.mp there]

end Exclusive

/-! ## Changes -/

theorem verificationReason_ne_empty (triggerRef : String) : "" ≠ verificationReason triggerRef := by
  intro empty
  have texts := congrArg String.toList empty
  rw [verificationReason, String.toList_append] at texts
  exact absurd (List.append_eq_nil_iff.mp texts.symm).1 (by decide)

theorem verificationReason_inj {first second : String}
    (same : verificationReason first = verificationReason second) : first = second := by
  have texts := congrArg String.toList same
  rw [verificationReason, verificationReason, String.toList_append, String.toList_append] at texts
  exact String.toList_inj.mp (List.append_cancel_left texts)

namespace InOrder

variable {request : ReplanRequest} {plan : Plan} {triggerRef : String}

/-- Only an open request has a version that goes beyond its own plan version. -/
theorem versionsFor_open (order : books.InOrder) {version : Plan} (opened : books.Open request)
    (held : books.plan? = some plan) (unchanged : plan.planVersion = request.planVersion)
    (listed : version ∈ books.versions) : version.replanReason ≠ verificationReason request.triggerRef := by
  intro reason
  rcases order.matched.caused version request.triggerRef listed reason with
    ⟨cause, recorded, trigger, number⟩
  rw [order.exclusive.first request opened cause recorded trigger] at number
  have bound := (order.numbered.bounds listed).2
  have current := order.numbered.current_version held
  omega

theorem created (order : books.InOrder) (absent : books.plan? = none) (version : plan.planVersion = 1)
    (reason : plan.replanReason = "") : (books.withPlan plan).InOrder := by
  have empty := order.numbered.versions_eq_nil absent
  rcases order.numbered.begins plan (by rw [empty, version]; rfl)
    (by rw [empty]; decide) with ⟨grown, numbered⟩
  rw [empty, List.nil_append] at grown
  have unreasoned : ∀ other triggerRef, other ∈ (books.withPlan plan).versions ->
      other.replanReason ≠ verificationReason triggerRef := by
    intro other triggerRef member
    rw [grown, List.mem_singleton] at member
    rw [member, reason]
    exact verificationReason_ne_empty triggerRef
  refine ⟨numbered, order.exclusive.withPlan _, ?_, ?_, ?_, ?_⟩
  · intro other triggerRef member same
    exact absurd same (unreasoned other triggerRef member)
  · intro request opened
    rcases order.matched.current request opened with ⟨held, known, _⟩
    rw [absent] at known
    cases known
  · intro request recorded status other member
    exact unreasoned other request.triggerRef member
  · intro request recorded status
    rcases (order.matched.committed request recorded status).2 with ⟨made, listed, _⟩
    rw [empty] at listed
    exact False.elim (List.not_mem_nil listed)

theorem revised (order : books.InOrder) {before after : Plan} (held : books.plan? = some before)
    (same : after.lineage = before.lineage) : (books.withPlan after).InOrder := by
  rcases order.numbered.revises held same with ⟨kept, numbered⟩
  have version : after.planVersion = before.planVersion := congrArg Lineage.planVersion same
  refine ⟨numbered, order.exclusive.withPlan _, ?_, ?_, ?_, ?_⟩
  · rw [kept]
    exact order.matched.caused
  · intro request opened
    rcases order.matched.current request opened with ⟨plan, known, number⟩
    rw [held] at known
    cases known
    exact ⟨after, plan?_withPlan books after, version ▸ number⟩
  · rw [kept]
    exact order.matched.rejected
  · rw [kept]
    exact order.matched.committed

theorem replanned (order : books.InOrder) {before after : Plan} (opened : books.Open request)
    (held : books.plan? = some before) (version : before.planVersion = request.planVersion)
    (budget : before.planVersion ≤ maxReplans) (next : after.planVersion = before.planVersion + 1)
    (reason : after.replanReason = verificationReason request.triggerRef) :
    (books.withPlan after).InOrder := by
  have current := order.numbered.current_version held
  rcases order.numbered.begins after (by omega) (by omega) with ⟨grown, numbered⟩
  refine ⟨numbered, order.exclusive.withPlan _, ?_, ?_, ?_, ?_⟩
  · intro other triggerRef member same
    rw [grown] at member
    rcases List.mem_append.mp member with earlier | here
    · exact order.matched.caused other triggerRef earlier same
    · rw [List.mem_singleton.mp here] at same ⊢
      have trigger := verificationReason_inj (reason.symm.trans same)
      exact ⟨request, opened.mem, trigger, by omega⟩
  · intro other reopened
    have same : other = request := Open.eq opened reopened
    rw [same]
    exact ⟨after, plan?_withPlan books after, Or.inr (by omega)⟩
  · intro other recorded status made member
    rw [grown] at member
    rcases List.mem_append.mp member with earlier | here
    · exact order.matched.rejected other recorded status made earlier
    · rw [List.mem_singleton.mp here, reason]
      intro same
      -- nothing but its opening is on record for the open request
      have trigger := verificationReason_inj same
      have itself := order.exclusive.first request opened other recorded trigger.symm
      rw [itself, opened.2] at status
      cases status
  · intro other recorded status
    rcases order.matched.committed other recorded status with ⟨noted, made, listed, cause, number⟩
    refine ⟨noted, made, ?_, cause, number⟩
    rw [grown]
    exact List.mem_append_left _ listed

theorem requested (order : books.InOrder)
    (unheard : ∀ other ∈ books.requests, other.triggerRef ≠ request.triggerRef)
    (settled : ∀ other ∈ books.lastRequests, other.status ≠ .started)
    (started : request.status = .started) (held : books.plan? = some plan)
    (version : plan.planVersion = request.planVersion) : (books.withRequest request).InOrder := by
  have earlier : ∀ other ∈ (books.withRequest request).requests,
      other.status ≠ .started -> other ∈ books.requests := by
    intro other member status
    rcases List.mem_append.mp member with old | here
    · exact old
    · exact absurd (List.mem_singleton.mp here ▸ started) status
  refine ⟨order.numbered.withRequest _, order.exclusive.requested unheard settled, ?_, ?_, ?_, ?_⟩
  · intro made triggerRef listed reason
    rcases order.matched.caused made triggerRef listed reason with ⟨cause, recorded, known⟩
    exact ⟨cause, List.mem_append_left _ recorded, known⟩
  · intro other opened
    rw [opened.last]
    exact ⟨plan, held, Or.inl version⟩
  · intro other member status
    exact order.matched.rejected other (earlier other member (by rw [status]; decide)) status
  · intro other member status
    exact order.matched.committed other (earlier other member (by rw [status]; decide)) status

/-- The open request ends, with a record that fits the versions. -/
theorem concluded (order : books.InOrder) {ended : ReplanRequest} (opened : books.Open request)
    (trigger : ended.triggerRef = request.triggerRef) (version : ended.planVersion = request.planVersion)
    (closed : ended.status ≠ .started)
    (rejected : ended.status = .rejected -> ∀ plan ∈ books.versions, plan.replanReason ≠ verificationReason request.triggerRef)
    (committed : ended.status = .committed -> ended.committedVersion = some (request.planVersion + 1) ∧ ∃ plan ∈ books.versions, plan.replanReason = verificationReason request.triggerRef ∧ plan.planVersion = request.planVersion + 1) :
    (books.withRequest ended).InOrder := by
  refine ⟨order.numbered.withRequest _, order.exclusive.concluded opened trigger version closed, ?_, ?_, ?_, ?_⟩
  · intro made triggerRef listed reason
    rcases order.matched.caused made triggerRef listed reason with ⟨cause, recorded, known⟩
    exact ⟨cause, List.mem_append_left _ recorded, known⟩
  · intro other reopened
    rw [reopened.last] at reopened
    exact absurd reopened.2 closed
  · intro other member status
    rcases List.mem_append.mp member with old | here
    · exact order.matched.rejected other old status
    · rw [List.mem_singleton.mp here] at status ⊢
      rw [trigger]
      exact rejected status
  · intro other member status
    rcases List.mem_append.mp member with old | here
    · exact order.matched.committed other old status
    · rw [List.mem_singleton.mp here] at status ⊢
      rw [trigger, version]
      exact committed status

theorem changed (order : books.InOrder) {after : Books} (change : books.Change after) :
    after.InOrder := by
  cases change with
  | same => exact order
  | created plan absent version reason => exact order.created absent version reason
  | revised before after held same => exact order.revised held same
  | requested request plan unheard settled started held version =>
    exact order.requested unheard settled started held version
  | replanned request before after opened held version budget next reason =>
    exact order.replanned opened held version budget next reason
  | rejected request plan reason opened held version =>
    refine order.concluded opened rfl rfl nofun ?_ nofun
    exact fun _ made listed => order.versionsFor_open opened held version listed
  | committed request plan opened saved version reason =>
    refine order.concluded opened rfl rfl nofun nofun ?_
    intro _
    rcases order.numbered.saved plan saved with ⟨first, listed, same⟩
    have cause : first.replanReason = plan.replanReason := congrArg Lineage.replanReason same
    have number : first.planVersion = plan.planVersion := congrArg Lineage.planVersion same
    exact ⟨congrArg some version, first, listed, cause.trans reason, number.trans version⟩

theorem versionsFor_subsingleton (order : books.InOrder) {first second : Plan}
    (left : first ∈ books.versionsFor triggerRef) (right : second ∈ books.versionsFor triggerRef) :
    first = second := by
  rcases List.mem_filter.mp left with ⟨listed, reason⟩
  rcases List.mem_filter.mp right with ⟨other, same⟩
  rcases order.matched.caused first triggerRef listed (of_decide_eq_true reason) with
    ⟨request, recorded, trigger, number⟩
  rcases order.matched.caused second triggerRef other (of_decide_eq_true same) with
    ⟨cause, noted, named, version⟩
  have agreed := order.exclusive.agreed request cause recorded noted (trigger.trans named.symm)
  refine order.numbered.unique listed other ?_
  omega

theorem versionsFor_length (order : books.InOrder) (triggerRef : String) :
    (books.versionsFor triggerRef).length ≤ 1 := by
  have distinct : books.versions.Nodup := by
    rw [List.nodup_iff_getElem?_ne_getElem?]
    intro here there before inside same
    have found := List.getElem?_eq_getElem inside
    have number := order.numbered.numbers there _ found
    have other := order.numbered.numbers here _ (same.trans found)
    omega
  have unique := distinct.filter fun plan => plan.replanReason = verificationReason triggerRef
  cases versions : books.versionsFor triggerRef with
  | nil => exact Nat.zero_le 1
  | cons first rest =>
    cases rest with
    | nil => exact Nat.le_refl 1
    | cons second rest =>
      have same : first = second := order.versionsFor_subsingleton
        (versions ▸ List.mem_cons_self) (versions ▸ List.mem_cons_of_mem _ List.mem_cons_self)
      change (books.versionsFor triggerRef).Nodup at unique
      rw [versions, same, List.nodup_cons] at unique
      exact absurd List.mem_cons_self unique.1

theorem versionsFor_eq (order : books.InOrder) (member : plan ∈ books.versionsFor triggerRef) :
    books.versionsFor triggerRef = [plan] := by
  have short := order.versionsFor_length triggerRef
  have nonempty := List.length_pos_of_mem member
  rcases List.length_eq_one_iff.mp (Nat.le_antisymm short nonempty) with ⟨first, single⟩
  rw [single, List.mem_singleton] at member
  rw [single, member]

/-- A saved plan with a verification reason is a revision of the version. -/
theorem versionsFor_saved (order : books.InOrder) (saved : plan ∈ books.plans)
    (reason : plan.replanReason = verificationReason triggerRef) :
    ∃ first ∈ books.versionsFor triggerRef, first.lineage = plan.lineage := by
  rcases order.numbered.saved plan saved with ⟨first, listed, same⟩
  have cause : first.replanReason = plan.replanReason := congrArg Lineage.replanReason same
  exact ⟨first, List.mem_filter.mpr ⟨listed, decide_eq_true (cause.trans reason)⟩, same⟩

end InOrder

end Books

end PlanRuntime
end FixLoop
