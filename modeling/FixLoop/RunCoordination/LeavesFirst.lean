import Mathlib.Data.Prod.Lex
import Mathlib.Data.String.Basic
import FixLoop.RunCoordination.CancelReport

namespace FixLoop
namespace RunCoordination

open Library RunCoordinationStore RunCoordinator

/-!
# Leaves first

A resource is registered below one that exists, so the parents of a resource
are ranked.  The resources of a run are therefore sorted by depth with all
descendants before their ancestors, and `cancel` and `reconcile` ask the
adapters in this order.
-/

/-! ## The forest of the resources -/

/-- A registered parent is in the same run and has a smaller rank. -/
structure Rooted (rank : String -> Nat) (db : Database) : Prop where
  named : ∀ id record, db.resource? id = some record -> record.resourceId = id
  parent : ∀ id record, db.resource? id = some record -> record.parentId ≠ "" ->
    ∃ parent, db.resource? record.parentId = some parent ∧ parent.runKey = record.runKey ∧
      rank record.parentId < rank id

variable {rank : String -> Nat}

variable {before after db : Database} {record : ResourceRecord} (coordinator : RunCoordinator)

/-- A resource is written, whose parent is registered. -/
theorem Rooted.insert {next : String -> Nat} {id : String} (rooted : Rooted rank before)
    (resources : after.resources = before.resources.insert id record) (named : record.resourceId = id)
    (kept : ∀ other found, before.resource? other = some found -> next other = rank other)
    (same : ∀ found, before.resource? id = some found -> found.runKey = record.runKey)
    (parented : record.parentId ≠ "" -> ∃ parent, before.resource? record.parentId = some parent ∧ parent.runKey = record.runKey ∧ next record.parentId < next id) :
    Rooted next after := by
  -- What was registered still is, in its run.
  have stays : ∀ other found, before.resource? other = some found ->
      ∃ later, after.resource? other = some later ∧ later.runKey = found.runKey := by
    intro other found held
    by_cases here : other = id
    · cases here
      exact ⟨record, resource?_of_insert resources, (same found held).symm⟩
    · exact ⟨found, (resource?_of_insert_ne resources here).trans held, rfl⟩
  constructor
  · intro other found held
    by_cases here : other = id
    · cases here
      cases Option.some.inj (held.symm.trans (resource?_of_insert resources))
      exact named
    · exact rooted.named other found ((resource?_of_insert_ne resources here).symm.trans held)
  · intro other found held child
    by_cases here : other = id
    · cases here
      cases Option.some.inj (held.symm.trans (resource?_of_insert resources))
      rcases parented child with ⟨parent, listed, run, less⟩
      rcases stays _ parent listed with ⟨later, listed, kept⟩
      exact ⟨later, listed, kept.trans run, less⟩
    · have earlier := (resource?_of_insert_ne resources here).symm.trans held
      rcases rooted.parent other found earlier child with ⟨parent, listed, run, less⟩
      rcases stays _ parent listed with ⟨later, found_, same⟩
      refine ⟨later, found_, same.trans run, ?_⟩
      rw [kept _ parent listed, kept _ found earlier]
      exact less

theorem Rooted.congr (rooted : Rooted rank before) (resources : after.resources = before.resources) :
    Rooted rank after := by
  constructor
  · intro id record found
    rw [resource?_congr resources] at found
    exact rooted.named id record found
  · intro id record found child
    rw [resource?_congr resources] at found ⊢
    exact rooted.parent id record found child

theorem registerResource_parent {store : RunCoordinationStore} {clock : Clock} {lease : OwnerLease}
    {args : RegisterArgs} (accepted : store.registerResource clock lease args before = .ok (record, after))
    (child : args.parentId ≠ "") :
    ∃ parent, before.resource? args.parentId = some parent ∧ parent.runKey = store.key lease.runId := by
  rcases owned_ok accepted with ⟨row, _, _, body⟩
  split at body
  · cases body
  split at body
  · cases body
  split at body
  · cases body
  · next checked =>
      rw [not_and, not_not, Option.any_eq_true] at checked
      rcases checked child with ⟨parent, found, same⟩
      exact ⟨parent, found, of_decide_eq_true same⟩

section Runs

variable [Hashing]

variable {db : Database}

theorem Rooted.step {rank : String -> Nat} (coordinated : Coordinated db) (rooted : Rooted rank db)
    (call : StoreCall) : ∃ next, Rooted next (storeMachine.step db call) := by
  change ∃ next, Rooted next (commit (call.apply db) db)
  rcases commit_cases (call.apply db) db with ⟨fault, _, same⟩ | ⟨reply, accepted⟩
  · rw [same]
    exact ⟨rank, rooted⟩
  generalize commit (call.apply db) db = after at accepted
  cases call with
  | acquire store clock args =>
    rcases Transaction.answer_ok accepted with ⟨lease, inner, _⟩
    exact ⟨rank, rooted.congr (acquire_effect inner).2.1⟩
  | owner call =>
    rcases call.apply_effect accepted with ⟨row, found, owner, effect⟩
    cases effect with
    | kept _ resources _ _ _ | moved _ _ _ resources _ _ _ => exact ⟨rank, rooted.congr resources⟩
    | registered args now op _ fresh _ resources _ _ _ =>
      have other : ∀ {id found}, db.resource? id = some found -> id ≠ args.resourceId := by
        rintro id found held rfl
        cases fresh.symm.trans held
      refine ⟨Function.update rank args.resourceId (rank args.parentId + 1), rooted.insert resources rfl
        (fun id found held => Function.update_of_ne (other held) _ _)
        (fun found held => absurd rfl (other held)) fun child => ?_⟩
      rcases call with ⟨store, clock, lease, _⟩
      cases op
      rcases Transaction.answer_ok accepted with ⟨_, inner, _⟩
      rcases registerResource_parent inner child with ⟨parent, listed, run⟩
      rcases coordinated.keyed _ row found with ⟨workspace, runId⟩
      refine ⟨parent, listed, run.trans ?_, ?_⟩
      · rw [ResourceRecord.runKey, plannedRecord, workspace, runId]
        rfl
      · change Function.update rank _ _ args.parentId < Function.update rank _ _ args.resourceId
        rw [Function.update_of_ne (other listed), Function.update_self]
        exact Nat.lt_succ_self _
    | transitioned args item now op target _ resources _ _ _ =>
      have held := (transitionTarget_found target).1
      refine ⟨rank, rooted.insert resources (rooted.named _ item held) (fun _ _ _ => rfl) ?_
        (fun child => rooted.parent _ item held child)⟩
      intro found same
      cases Option.some.inj (same.symm.trans held)
      rfl

/-- The databases in which parents are ranked. -/
def Ranked (db : Database) : Prop := Coordinated db ∧ ∃ rank, Rooted rank db

theorem Ranked.step (ranked : Ranked db) (call : StoreCall) : Ranked (storeMachine.step db call) := by
  rcases ranked with ⟨coordinated, rank, rooted⟩
  exact ⟨coordinated.step call, rooted.step coordinated call⟩

theorem Reachable.ranked (reachable : Reachable db) : Ranked db := by
  rcases reachable with ⟨calls, rfl⟩
  refine storeMachine.invariant_run (fun _ call holds => holds.step call) ⟨Coordinated.empty, fun _ => 0, ?_⟩ calls
  constructor
  · intro id record found
    cases found
  · intro id record found
    cases found

end Runs

/-! ## The order by depth -/

/-- A resource of the list right below another. -/
def Child (resources : List ResourceRecord) (child parent : ResourceRecord) : Prop :=
  child ∈ resources ∧ parent ∈ resources ∧ child.parentId ≠ "" ∧ child.parentId = parent.resourceId

/-- The parents of listed resources are listed, with smaller ranks. -/
structure Forest (rank : String -> Nat) (resources : List ResourceRecord) : Prop where
  distinct : (resources.map ResourceRecord.resourceId).Nodup
  parent : ∀ record ∈ resources, record.parentId ≠ "" -> ∃ parent ∈ resources, parent.resourceId = record.parentId ∧ rank parent.resourceId < rank record.resourceId

theorem Rooted.forest (rooted : Rooted rank db) (key : RunKey) : Forest rank (db.resourcesOf key) := by
  constructor
  · rw [Database.resourcesOf]
    refine ((List.perm_insertionSort _ _).map _).nodup_iff.mpr ?_
    refine List.Nodup.sublist (List.filter_sublist.map _) ?_
    have same : (db.resources.entries.map Sigma.snd).map ResourceRecord.resourceId = db.resources.keys := by
      rw [AList.keys, List.keys, List.map_map]
      exact List.map_congr_left fun entry member => rooted.named entry.1 entry.2 (AList.mem_lookup_iff.mpr member)
    rw [same]
    exact db.resources.keys_nodup
  · intro record member child
    rcases (mem_resourcesOf db key record).mp member with ⟨⟨id, found⟩, run⟩
    rcases rooted.parent id record found child with ⟨parent, listed, same, less⟩
    refine ⟨parent, (mem_resourcesOf db key parent).mpr ⟨⟨_, listed⟩, same.trans run⟩, rooted.named _ _ listed, ?_⟩
    rw [rooted.named _ _ listed, rooted.named _ _ found]
    exact less

section Depth

variable {rank : String -> Nat} {resources : List ResourceRecord}

variable {record : ResourceRecord}

theorem Forest.find (forest : Forest rank resources) (member : record ∈ resources) :
    resources.find? (fun other => decide (other.resourceId = record.resourceId)) = some record := by
  cases found : resources.find? (fun other => decide (other.resourceId = record.resourceId)) with
  | none => exact absurd (decide_eq_true rfl) (List.find?_eq_none.mp found record member)
  | some other =>
    have same : other.resourceId = record.resourceId := by
      have holds := List.find?_some found
      exact of_decide_eq_true holds
    rw [List.inj_on_of_nodup_map forest.distinct (List.mem_of_find?_eq_some found) member same]

/-- The walk from a resource only needs the ranks up to its own. -/
theorem ancestors_congr (forest : Forest rank resources) {first second : List String}
    (member : record ∈ resources)
    (left : ∀ other ∈ resources, rank other.resourceId ≤ rank record.resourceId -> other.resourceId ∈ first)
    (right : ∀ other ∈ resources, rank other.resourceId ≤ rank record.resourceId -> other.resourceId ∈ second) :
    ancestors resources first record.resourceId = ancestors resources second record.resourceId := by
  induction bound : rank record.resourceId using Nat.strong_induction_on generalizing first second record with
  | _ height ih =>
    rw [ancestors, ancestors]
    by_cases empty : record.resourceId = ""
    · rw [if_neg (fun both => both.1 empty), if_neg fun both => both.1 empty]
    rw [if_pos ⟨empty, left record member (Nat.le_refl _)⟩, if_pos ⟨empty, right record member (Nat.le_refl _)⟩,
      forest.find member]
    refine congrArg (1 + ·) ?_
    by_cases root : record.parentId = ""
    · rw [root, ancestors, ancestors, if_neg (fun both => both.1 rfl), if_neg fun both => both.1 rfl]
    rcases forest.parent record member root with ⟨parent, listed, same, less⟩
    have lower : ∀ {unseen : List String}, (∀ other ∈ resources,
        rank other.resourceId ≤ rank record.resourceId -> other.resourceId ∈ unseen) ->
        ∀ other ∈ resources, rank other.resourceId ≤ rank parent.resourceId ->
          other.resourceId ∈ unseen.erase record.resourceId := by
      intro unseen all other listed below
      refine (List.mem_erase_of_ne fun same => ?_).mpr (all other listed (by omega))
      rw [same] at below
      omega
    rw [<- same]
    exact ih _ (bound ▸ less) listed (lower left) (lower right) rfl

theorem depth_child (forest : Forest rank resources) {child parent : ResourceRecord}
    (edge : Child resources child parent) : depth resources child = 1 + depth resources parent := by
  rcases edge with ⟨_, member, some_, same⟩
  have known : ∀ other ∈ resources, other.resourceId ∈ resources.map ResourceRecord.resourceId :=
    fun other listed => List.mem_map_of_mem listed
  rw [depth, depth, ancestors, if_pos ⟨some_, same ▸ known parent member⟩, same, forest.find member]
  refine congrArg (1 + ·) ?_
  by_cases root : parent.parentId = ""
  · rw [root, ancestors, ancestors, if_neg (fun both => both.1 rfl), if_neg fun both => both.1 rfl]
  rcases forest.parent parent member root with ⟨above, listed, named, less⟩
  rw [<- named]
  refine ancestors_congr forest listed (fun other listed below => ?_) fun other listed _ => known other listed
  refine (List.mem_erase_of_ne fun same => ?_).mpr (known other listed)
  rw [same] at below
  omega

theorem depth_descendant (forest : Forest rank resources) {below above : ResourceRecord}
    (descends : Relation.TransGen (Child resources) below above) : depth resources above < depth resources below := by
  induction descends with
  | single edge =>
    rw [depth_child forest edge]
    omega
  | tail _ edge ih =>
    rw [depth_child forest edge] at ih
    omega

theorem reverseDepth_sorted (resources : List ResourceRecord) :
    (reverseDepth resources).Pairwise (fun left right => depth resources right ≤ depth resources left) := by
  have keys : ∀ left right, precedesByDepth resources left right <->
      (toLex (-(depth resources left : Int), toLex (left.createdAt, left.resourceId)) : Int ×ₗ ℚ ×ₗ String) ≤
        toLex (-(depth resources right : Int), toLex (right.createdAt, right.resourceId)) := by
    intro left right
    rw [Prod.Lex.toLex_le_toLex, Prod.Lex.toLex_le_toLex, precedesByDepth, Database.precedes]
    simp only [neg_lt_neg_iff, neg_inj, Int.ofNat_lt, Nat.cast_inj]
  have total : Std.Total (precedesByDepth resources) := ⟨fun left right => by
    rw [keys, keys]
    exact le_total _ _⟩
  have trans : IsTrans _ (precedesByDepth resources) := ⟨fun left middle right first second => by
    rw [keys] at first second ⊢
    exact first.trans second⟩
  refine (List.pairwise_insertionSort (precedesByDepth resources) resources).imp ?_
  rintro left right (less | ⟨same, _⟩)
  · exact Nat.le_of_lt less
  · exact Nat.le_of_eq same.symm

end Depth

/-- All resources of a run once, and each of them behind its descendants. -/
structure LeavesFirst (key : RunKey) (db : Database) (order : List ResourceRecord) : Prop where
  once : (order.map ResourceRecord.resourceId).Nodup
  all : order.Perm (db.resourcesOf key)
  leaves : ∀ before record after, order = before ++ record :: after -> ∀ other,
    Relation.TransGen (Child (db.resourcesOf key)) other record -> other ∈ before

theorem reverseDepth_leavesFirst (rooted : Rooted rank db) (key : RunKey) :
    LeavesFirst key db (reverseDepth (db.resourcesOf key)) := by
  have forest := rooted.forest key
  have listed := List.perm_insertionSort (precedesByDepth (db.resourcesOf key)) (db.resourcesOf key)
  refine ⟨(listed.map _).nodup_iff.mpr forest.distinct, listed, ?_⟩
  intro before record after split other descends
  have deeper := depth_descendant forest descends
  have member : other ∈ db.resourcesOf key := by
    rcases Relation.TransGen.head'_iff.mp descends with ⟨_, edge, _⟩
    exact edge.1
  have sorted := reverseDepth_sorted (db.resourcesOf key)
  rw [split] at sorted
  have place : other ∈ reverseDepth (db.resourcesOf key) := listed.mem_iff.mpr member
  rw [split, List.mem_append] at place
  rcases place with earlier | later
  · exact earlier
  · have behind := (List.pairwise_cons.mp (List.pairwise_append.mp sorted).2.1).1
    rcases List.mem_cons.mp later with rfl | later
    · exact absurd deeper (Nat.lt_irrefl _)
    · exact absurd (behind other later) (Nat.not_le_of_lt deeper)

/-! ## The loops -/

/-- A store call, which ends the process if it raises. -/
def call {Label Result Answer : Type} (label : Label) (method : Database -> Transaction Answer)
    (next : Answer -> Process Database Label (Except CoordinationFault Result)) :
    Process Database Label (Except CoordinationFault Result) :=
  .atomic label
    (fun db =>
      match method db with
      | .ok result => result.2
      | .error _ => db)
    (fun db =>
      match method db with
      | .ok result => next result.1
      | .error fault => .halt (.error fault))

inductive ReconcileAction where
  | readRun
  | readResources
  | ask (resource : ResourceRecord)
  | transitionResource (resource : ResourceRecord)
  | readRunAgain
  | markRecoveryRequired
  | requestCancel
  | beginCancelling
  | activate

def ReconcileAction.loops : ReconcileAction -> Bool
  | ask _ => true
  | transitionResource _ => true
  | _ => false

/-- The ends of `reconcile`.  The last of them goes on with `cancel`. -/
inductive ReconcileEnd where
  | recoveryRequired (results : List ResourceResult)
  | active (lease : OwnerLease) (results : List ResourceResult)
  | cancels (lease : OwnerLease) (requestId : String) (results : List ResourceResult)

def ReconcileEnd.results : ReconcileEnd -> List ResourceResult
  | recoveryRequired results => results
  | active _ results => results
  | cancels _ _ results => results

abbrev ReconcileProcess := Process Database ReconcileAction (Except CoordinationFault ReconcileEnd)

/-- What `reconcile` reads from its surroundings.  The answer of the adapter of a
resource is a result or the name of an exception's type. -/
structure ReconcileInputs where
  clock : ReconcileAction -> Clock
  fresh : Uuid
  answer : Nat -> ResourceRecord -> Except String ResourceResult

namespace RunCoordinator

/-- `_safe_result` of the method `reconcile`, for a resource that is not settled. -/
def reconcileResult (inputs : ReconcileInputs) (turn : Nat) (resource : ResourceRecord) : ResourceResult :=
  if resource.settled then recordedResult resource "confirmed" ""
  else
    match inputs.answer turn resource with
    | .error exception => raisedResult resource exception
    | .ok result =>
      if result.resourceId ∉ ["", resource.resourceId] then
        raisedResult resource "CoordinationIntegrityError"
      else result

/-- `reconcile` after its loop. -/
def reconcileEnd (coordinator : RunCoordinator) (inputs : ReconcileInputs) (lease : OwnerLease)
    (results : List ResourceResult) : ReconcileProcess :=
  call .readRunAgain (fun db => (coordinator.store.row coordinator.runId db).map fun row => (row, db)) fun current =>
    if results.all ResourceResult.confirmed = false then
      call .markRecoveryRequired (coordinator.store.markRecoveryRequired (inputs.clock .markRecoveryRequired) lease
          "old_execution_unconfirmed")
        (fun _ => .halt (.ok (.recoveryRequired results)))
    else if current.cancelRequestId ≠ "" then
      call .requestCancel (coordinator.store.requestCancel (inputs.clock .requestCancel) lease
          current.cancelRequestId inputs.fresh) fun _ =>
        call .beginCancelling (coordinator.store.beginCancelling (inputs.clock .beginCancelling) lease)
          (fun next => .halt (.ok (.cancels next current.cancelRequestId results)))
    else
      call .activate (coordinator.store.activate (inputs.clock .activate) lease)
        (fun next => .halt (.ok (.active next results)))

/-- The loop of `reconcile`. -/
def reconcileEach (coordinator : RunCoordinator) (inputs : ReconcileInputs) (lease : OwnerLease) (turn : Nat)
    (results : List ResourceResult) : List ResourceRecord -> ReconcileProcess
  | [] => coordinator.reconcileEnd inputs lease results
  | resource :: rest =>
    let result := reconcileResult inputs turn resource
    let transition := call (.transitionResource resource)
      (coordinator.store.transitionResource (inputs.clock (.transitionResource resource)) lease
        { transitionArgs resource result with adoptGeneration := true })
      (fun _ => coordinator.reconcileEach inputs lease (turn + 1) (results ++ [result]) rest)
    if resource.settled then transition else .atomic (.ask resource) id fun _ => transition

def reconcile (coordinator : RunCoordinator) (inputs : ReconcileInputs) : ReconcileProcess :=
  match coordinator.lease with
  | none => .halt (.error (.coordination "resume_owner_missing"))
  | some lease =>
    call .readRun (fun db => (coordinator.store.row coordinator.runId db).map fun row => (row, db)) fun _ =>
      call .readResources (fun db => .ok (coordinator.store.resources coordinator.runId db, db)) fun resources =>
        coordinator.reconcileEach inputs lease 0 [] (reverseDepth resources)

/-- What `cancel` reports of a resource. -/
def cancelResult (coordinator : RunCoordinator) (requestId : String) (turn : Nat) (resource : ResourceRecord) :
    ResourceResult :=
  if resource.settled then recordedResult resource "confirmed" "" else coordinator.safeResult turn resource requestId

/-- The adapter is asked right behind the first of these actions. -/
def cancelTurn (resource : ResourceRecord) : List CancelAction :=
  if resource.settled then [] else [.recordSent, .transitionResource, .recordOutcome]

def reconcileTurn (resource : ResourceRecord) : List ReconcileAction :=
  (if resource.settled then [] else [.ask resource]) ++ [.transitionResource resource]

end RunCoordinator

/-- An exception of the store. -/
def Raised {Result : Type} (result : Except CoordinationFault Result) : Prop :=
  ∃ fault, result = .error fault

section Follows

variable {Label Result Answer : Type} {quiet : Label -> Prop} {returns : Except CoordinationFault Result -> Prop}
  {label : Label} {labels : List Label} {method : Database -> Transaction Answer}
  {next : Answer -> Process Database Label (Except CoordinationFault Result)}

theorem follows_call (rest : ∀ answer, Process.Follows quiet Raised returns labels (next answer)) :
    Process.Follows quiet Raised returns (label :: labels) (call label method next) := by
  refine .act fun db => ?_
  cases method db with
  | error fault => exact .stopped ⟨fault, rfl⟩
  | ok answer => exact rest answer.1

theorem quiet_call (silent : quiet label)
    (rest : ∀ answer, Process.Follows quiet Raised returns [] (next answer)) :
    Process.Follows quiet Raised returns [] (call label method next) := by
  refine .quiet silent fun db => ?_
  cases method db with
  | error fault => exact .stopped ⟨fault, rfl⟩
  | ok answer => exact rest answer.1

end Follows

variable {interferes : Database -> Database -> Prop}

/-- A store call raises, or the process goes on with its answer. -/
theorem call_cases {Label Result Answer : Type} {label : Label} {method : Database -> Transaction Answer}
    {next : Answer -> Process Database Label (Except CoordinationFault Result)} {known : Database -> Prop}
    (stable : ∀ before after, interferes before after -> known before -> known after)
    {final : Database} {trace : List (Label × Database)} {result : Except CoordinationFault Result}
    (holds : known db) (execution : (call label method next).Executes interferes db trace result final) :
    ∃ before rest, known before ∧ trace = (label, before) :: rest ∧
      ((∃ fault, result = .error fault ∧ rest = []) ∨ ∃ answer after,
        method before = .ok (answer, after) ∧ (next answer).Executes interferes after rest result final) := by
  rcases Process.Executes.of_atomic known stable holds execution with ⟨before, rest, held, same, later⟩
  refine ⟨before, rest, held, same, ?_⟩
  cases outcome : method before with
  | error fault =>
    simp only [outcome] at later
    rcases later.of_halt with ⟨ended, raised⟩
    exact .inl ⟨fault, raised, ended⟩
  | ok answer =>
    simp only [outcome] at later
    exact .inr ⟨answer.1, answer.2, rfl, later⟩

theorem transact_eq {Answer : Type} (label : CancelAction) (method : Database -> Transaction Answer)
    (next : Answer -> CancelProcess) : transact label method next = call label method next := rfl

theorem cancelTurn_apart {label : CancelAction} (apart : label ∉ [.recordSent, .transitionResource, .recordOutcome])
    (resource : ResourceRecord) : label ∉ cancelTurn resource := by
  intro listed
  rw [cancelTurn] at listed
  split at listed
  · cases listed
  · exact apart listed

/-- The loop of `cancel`, by induction on the resources that are left. -/
theorem cancelEach_follows (inputs : CancelInputs) (finalize : Bool) (lease : OwnerLease)
    (requestId : String) (turn : Nat) (results : List ResourceResult) (order : List ResourceRecord) :
    Process.Follows (fun label => ∀ resource, label ∉ cancelTurn resource) Raised
      (fun result => ∃ report, result = .ok report ∧ report.resources = results ++
        (order.zipIdx turn).map fun entry => coordinator.cancelResult requestId entry.2 entry.1)
      (order.flatMap cancelTurn) (coordinator.cancelEach inputs finalize lease requestId turn results order) := by
  induction order generalizing turn results with
  | nil =>
    rw [List.zipIdx_nil, List.map_nil, List.append_nil, cancelEach, conclude]
    split
    · dsimp only
      split
      · exact quiet_call (cancelTurn_apart (by decide)) fun _ => .returned ⟨_, rfl, rfl⟩
      · exact .returned ⟨_, rfl, rfl⟩
    · exact quiet_call (cancelTurn_apart (by decide)) fun _ => .returned ⟨_, rfl, rfl⟩
  | cons resource rest ih =>
    have later := ih (turn + 1) (results ++ [coordinator.cancelResult requestId turn resource])
    rw [List.append_assoc] at later
    rw [cancelEach, List.flatMap_cons, cancelTurn, List.zipIdx_cons, List.map_cons]
    by_cases settled : resource.settled = true
    · have told : coordinator.cancelResult requestId turn resource = recordedResult resource "confirmed" "" := by
        rw [cancelResult, if_pos settled]
      rw [if_pos settled, if_pos settled, <- told]
      exact later
    · have told : coordinator.cancelResult requestId turn resource =
          coordinator.safeResult turn resource requestId := by
        rw [cancelResult, if_neg settled]
      rw [if_neg settled, if_neg settled]
      dsimp only
      rw [<- told]
      exact follows_call fun _ => follows_call fun _ => follows_call fun _ => later

theorem reconcileTurn_apart {label : ReconcileAction} (apart : label.loops = false) (resource : ResourceRecord) :
    label ∉ reconcileTurn resource := by
  intro listed
  rw [reconcileTurn] at listed
  rcases List.mem_append.mp listed with asked | moved
  · split at asked
    · cases asked
    · cases List.mem_singleton.mp asked
      cases apart
  · cases List.mem_singleton.mp moved
    cases apart

theorem reconcileEach_follows (inputs : ReconcileInputs) (lease : OwnerLease) (turn : Nat)
    (results : List ResourceResult) (order : List ResourceRecord) :
    Process.Follows (fun label => ∀ resource, label ∉ reconcileTurn resource) Raised
      (fun result => ∃ ended, result = .ok ended ∧ ended.results = results ++
        (order.zipIdx turn).map fun entry => reconcileResult inputs entry.2 entry.1)
      (order.flatMap reconcileTurn) (coordinator.reconcileEach inputs lease turn results order) := by
  induction order generalizing turn results with
  | nil =>
    rw [List.zipIdx_nil, List.map_nil, List.append_nil, reconcileEach, reconcileEnd]
    refine quiet_call (reconcileTurn_apart rfl) fun current => ?_
    split
    · exact quiet_call (reconcileTurn_apart rfl) fun _ => .returned ⟨_, rfl, rfl⟩
    split
    · exact quiet_call (reconcileTurn_apart rfl) (fun _ =>
        quiet_call (reconcileTurn_apart rfl) fun _ => .returned ⟨_, rfl, rfl⟩)
    · exact quiet_call (reconcileTurn_apart rfl) fun _ => .returned ⟨_, rfl, rfl⟩
  | cons resource rest ih =>
    have later := ih (turn + 1) (results ++ [reconcileResult inputs turn resource])
    rw [List.append_assoc] at later
    rw [reconcileEach, List.flatMap_cons, reconcileTurn, List.zipIdx_cons]
    by_cases settled : resource.settled = true
    · rw [if_pos settled, if_pos settled]
      exact follows_call fun _ => later
    · rw [if_neg settled, if_neg settled]
      exact .act fun _ => follows_call fun _ => later

/-- Behind an opening, the actions of a loop are the turns of the resources, leaves
first, and something of none of them, and what is returned tells of each resource.
An exception leaves a first part of these actions. -/
def Sweeps {Label Result : Type} (key : RunKey) (opening : List Label) (turn : ResourceRecord -> List Label)
    (labels : List Label) (result : Except CoordinationFault Result)
    (told : List ResourceRecord -> Result -> Prop) : Prop :=
  ∃ db order loop, LeavesFirst key db order ∧ labels = opening ++ loop ∧
    ∃ ending, (∀ label ∈ ending, ∀ resource, label ∉ turn resource) ∧
      loop.IsPrefix (order.flatMap turn ++ ending) ∧ (Raised result ∨ loop = order.flatMap turn ++ ending ∧
        ∃ value, result = .ok value ∧ told order value)

section Runs

variable [Hashing]

/-- Another thread performs any store call. -/
def Disturbs (before after : Database) : Prop := ∃ call : StoreCall, after = storeMachine.step before call

theorem ranked_stable (before after : Database) (disturbs : Disturbs before after) (ranked : Ranked before) :
    Ranked after := by
  rcases disturbs with ⟨call, rfl⟩
  exact ranked.step call

theorem ranked_of_answer {Answer : Type} {wrap : Answer -> Reply} {call : OwnerCall} {transaction : Transaction Answer}
    {db after : Database} {answer : Answer} (same : call.apply db = transaction.answer wrap) (ranked : Ranked db)
    (accepted : transaction = .ok (answer, after)) : Ranked after := by
  have stepped := ranked.step (.owner call)
  change Ranked (commit (call.apply db) db) at stepped
  rwa [same, accepted] at stepped

variable {db : Database} {coordinator : RunCoordinator}

omit [Hashing] in
theorem Ranked.leavesFirst (ranked : Ranked db) (key : RunKey) :
    LeavesFirst key db (reverseDepth (db.resourcesOf key)) := by
  rcases ranked with ⟨_, rank, rooted⟩
  exact reverseDepth_leavesFirst rooted key

/-- An execution of `cancel` asks no adapter and repeats what is stored, or
sweeps the resources. -/
def Cancels (coordinator : RunCoordinator) (labels : List CancelAction)
    (result : Except CoordinationFault CancelReport) : Prop :=
  ((∀ label ∈ labels, ∀ resource, label ∉ cancelTurn resource) ∧
    ∀ report, result = .ok report -> ∃ db : Database,
      report.resources.map ResourceResult.resourceId =
        (db.resourcesOf (coordinator.store.key coordinator.runId)).map ResourceRecord.resourceId) ∨
  ∃ requestId, Sweeps (coordinator.store.key coordinator.runId)
    [.readRun, .readResources, .requestCancel, .beginCancelling, .listResources] cancelTurn labels result
    (fun order report => report.resources =
      order.zipIdx.map fun entry => coordinator.cancelResult requestId entry.2 entry.1)

/-- An execution of `reconcile` fails before its loop, or sweeps the resources. -/
def Reconciles (coordinator : RunCoordinator) (inputs : ReconcileInputs) (labels : List ReconcileAction)
    (result : Except CoordinationFault ReconcileEnd) : Prop :=
  ((∀ label ∈ labels, ∀ resource, label ∉ reconcileTurn resource) ∧
    ∀ ended, result ≠ .ok ended) ∨
  Sweeps (coordinator.store.key coordinator.runId) [.readRun, .readResources] reconcileTurn labels result
    (fun order ended => ended.results = order.zipIdx.map fun entry => reconcileResult inputs entry.2 entry.1)

omit [Hashing] in
theorem read_ok {Answer : Type} {read : Except CoordinationFault Answer} {after : Database}
    {answer : Answer} (found : read.map (fun answer => (answer, db)) = .ok (answer, after)) :
    read = .ok answer ∧ after = db := by
  cases read with
  | error _ => cases found
  | ok _ =>
    cases found
    exact ⟨rfl, rfl⟩

variable {result : Except CoordinationFault CancelReport}

omit [Hashing] in
theorem Cancels.quiet {labels : List CancelAction}
    (part : labels.IsPrefix [.readRun, .readResources, .requestCancel, .beginCancelling, .listResources])
    (told : ∀ report, result = .ok report -> ∃ db : Database, report.resources.map ResourceResult.resourceId = (db.resourcesOf (coordinator.store.key coordinator.runId)).map ResourceRecord.resourceId) :
    Cancels coordinator labels result := by
  have apart : ∀ label ∈ [CancelAction.readRun, .readResources, .requestCancel, .beginCancelling,
      .listResources], label ∉ [.recordSent, .transitionResource, .recordOutcome] := by decide
  exact .inl ⟨fun label member => cancelTurn_apart (apart label (part.subset member)), told⟩

theorem cancel_leavesFirst {inputs : CancelInputs} {requestId : String} {finalize : Bool} {final : Database}
    {trace : List (CancelAction × Database)} (ranked : Ranked db)
    (execution : (coordinator.cancel inputs requestId finalize).Executes Disturbs db trace result final) :
    Cancels coordinator (trace.map Prod.fst) result := by
  have repeats : ∀ {db : Database} {report : CancelReport} {tell : ResourceRecord -> ResourceResult},
      (∀ resource, (tell resource).resourceId = resource.resourceId) ->
      report.resources = (coordinator.store.resources coordinator.runId db).map tell ->
      ∀ other : CancelReport, Except.ok (ε := CoordinationFault) report = .ok other -> ∃ db : Database,
        other.resources.map ResourceResult.resourceId =
          (db.resourcesOf (coordinator.store.key coordinator.runId)).map ResourceRecord.resourceId := by
    intro db report tell named same other equal
    cases equal
    refine ⟨db, ?_⟩
    rw [same, List.map_map]
    exact List.map_congr_left fun resource _ => named resource
  simp only [RunCoordinator.cancel, inspect, transact_eq] at execution
  rcases call_cases ranked_stable ranked execution with
    ⟨_, _, ranked, rfl, ⟨fault, rfl, rfl⟩ | ⟨current, after, found, execution⟩⟩
  · exact .quiet ⟨_, rfl⟩ nofun
  cases (read_ok found).2
  rcases call_cases ranked_stable ranked execution with
    ⟨_, _, ranked, rfl, ⟨fault, rfl, rfl⟩ | ⟨resources, after, found, execution⟩⟩
  · exact .quiet ⟨_, rfl⟩ nofun
  cases found
  rw [cancelFrom] at execution
  split at execution
  · rcases execution.of_halt with ⟨rfl, rfl⟩
    exact .quiet ⟨_, rfl⟩ (repeats (fun _ => rfl) rfl)
  cases held : coordinator.lease with
  | none =>
    rw [held] at execution
    rcases execution.of_halt with ⟨rfl, rfl⟩
    exact .quiet ⟨_, rfl⟩ nofun
  | some lease =>
    simp only [held] at execution
    split at execution
    · rcases execution.of_halt with ⟨rfl, rfl⟩
      exact .quiet ⟨_, rfl⟩ (repeats (fun _ => rfl) rfl)
    simp only [cancelOpen, inspect, transact_eq] at execution
    rcases call_cases ranked_stable ranked execution with
      ⟨_, _, ranked, rfl, ⟨fault, rfl, rfl⟩ | ⟨recorded, after, accepted, execution⟩⟩
    · exact .quiet ⟨_, rfl⟩ nofun
    have requested := @ranked_of_answer _ _ .requestId ⟨_, _, _, .requestCancel _ _⟩ _ _ _ _ rfl ranked accepted
    rcases call_cases ranked_stable requested execution with
      ⟨_, _, ranked, rfl, ⟨fault, rfl, rfl⟩ | ⟨next, after, accepted, execution⟩⟩
    · exact .quiet ⟨_, rfl⟩ nofun
    have begun := @ranked_of_answer _ _ .lease ⟨_, _, _, .beginCancelling⟩ _ _ _ _ rfl ranked accepted
    rcases call_cases ranked_stable begun execution with
      ⟨listed, loop, ranked, rfl, ⟨fault, rfl, rfl⟩ | ⟨resources, after, found, execution⟩⟩
    · exact .quiet ⟨_, rfl⟩ nofun
    cases found
    have swept := (cancelEach_follows _ _ _ _ _ _ _ _).trace execution
    exact .inr ⟨recorded, listed, _, _, ranked.leavesFirst _, rfl, swept⟩

theorem reconcile_leavesFirst {inputs : ReconcileInputs} {final : Database}
    {trace : List (ReconcileAction × Database)} {result : Except CoordinationFault ReconcileEnd}
    (ranked : Ranked db)
    (execution : (coordinator.reconcile inputs).Executes Disturbs db trace result final) :
    Reconciles coordinator inputs (trace.map Prod.fst) result := by
  rw [reconcile] at execution
  cases held : coordinator.lease with
  | none =>
    rw [held] at execution
    rcases execution.of_halt with ⟨rfl, rfl⟩
    exact .inl ⟨fun label absent => absurd absent List.not_mem_nil, nofun⟩
  | some lease =>
    simp only [held] at execution
    have apart : ∀ label ∈ [ReconcileAction.readRun, .readResources], ∀ resource,
        label ∉ reconcileTurn resource := by
      intro label member
      apply reconcileTurn_apart
      rcases List.mem_pair.mp member with rfl | rfl
      · rfl
      · rfl
    rcases call_cases ranked_stable ranked execution with
      ⟨_, _, ranked, rfl, ⟨fault, rfl, rfl⟩ | ⟨current, after, found, execution⟩⟩
    · exact .inl ⟨fun label member => apart label (List.mem_cons.mpr (.inl (List.mem_singleton.mp member))), nofun⟩
    cases (read_ok found).2
    rcases call_cases ranked_stable ranked execution with
      ⟨listed, loop, ranked, rfl, ⟨fault, rfl, rfl⟩ | ⟨resources, after, found, execution⟩⟩
    · exact .inl ⟨apart, nofun⟩
    cases found
    have swept := (reconcileEach_follows _ _ _ _ _ _).trace execution
    exact .inr ⟨listed, _, _, ranked.leavesFirst _, rfl, swept⟩

end Runs

end RunCoordination
end FixLoop
