import FixLoop.ResourceSupervisor.Executions

namespace FixLoop
namespace ResourceSupervisor

open Library

/-!
# The fence of an execution key

Only the owner of the lock is between acquiring and releasing it, and a child
that has not executed its program yet keeps the lock.  A supervisor that passed
its checks saw neither a record nor a child; a reconciler that emptied the group
leaves a record.
-/

section Key

set_option linter.unusedSectionVars false

variable {Id : Type} [DecidableEq Id]

/-- The checks are behind, and the record is not written. -/
def Phase.armed : Phase -> Bool
  | .checkGroup => true
  | .writing => true
  | _ => false

/-- The record is written, and the controller is not started. -/
def Phase.loaded : Phase -> Bool
  | .makeScratch => true
  | .makeGroup => true
  | .limits => true
  | .forking => true
  | _ => false

/-- The group was found empty. -/
def Phase.emptied : Phase -> Bool
  | .removing => true
  | .reaping => true
  | .cleaning => true
  | .sealing => true
  | _ => false

/-- Before the controller is started. -/
def Phase.early (phase : Phase) : Bool :=
  phase.armed || phase.loaded || phase == .locking || phase == .blocked || phase == .checkPath

/-- What holds of an invocation in the world it is in. -/
structure Fits (world : World Id) (id : Id) (role : Role) (phase : Phase) : Prop where
  owner : phase.inside -> world.owner = some id
  armed : phase.armed -> world.record = none
  recorded : phase.loaded -> world.record ≠ none
  loaded : phase.loaded -> ∀ other, world.child other = .none ∧ world.invocation other ≠ .ended true
  emptied : phase.emptied -> world.members = []
  early : phase.early -> world.child id = .none
  late : phase.early = false -> phase ≠ .popen -> (world.child id).holds = false
  reconciling : role = .reconcile -> phase.supervising = false ∧ world.child id = .none

structure Fenced (world : World Id) : Prop where
  fits : ∀ id role phase, world.invocation id = .running role phase -> Fits world id role phase
  idle : ∀ id, world.invocation id = .idle -> world.child id = .none
  holder : ∀ id, (world.child id).holds -> world.owner = some id
  record : ∀ id, world.child id ≠ .none -> world.record ≠ none
  only : ∀ id other, world.child id ≠ .none -> world.child other ≠ .none -> id = other
  group : world.members ≠ [] -> world.group = true
  resident : ∀ id, world.child id = .joined ∨ world.child id = .executing -> some id ∈ world.members
  known : ∀ id, some id ∈ world.members -> world.child id ≠ .none
  confirmed : ∀ id, world.invocation id = .ended true ->
    world.record ≠ none ∧ world.members = [] ∧ ∀ other, (world.child other).holds = false

namespace World

variable {world : World Id}

variable {id : Id} {next : Invocation}

theorem goto_same : (world.goto id next).invocation id = next := by
  simp only [goto, Function.update_self]

theorem goto_ne {other : Id} (apart : other ≠ id) :
    (world.goto id next).invocation other = world.invocation other := by
  simp only [goto, Function.update_of_ne apart]

theorem become_same {child : Child} : (world.become id child).child id = child := by
  simp only [become, Function.update_self]

theorem become_ne {other : Id} {child : Child} (apart : other ≠ id) :
    (world.become id child).child other = world.child other := by
  simp only [become, Function.update_of_ne apart]

end World

theorem Fenced.fresh : Fenced (World.fresh : World Id) := by
  constructor <;> simp [World.fresh, Child.holds]

namespace Fenced

variable {world : World Id} {id : Id} {role : Role} {phase : Phase}

variable {next : Invocation} {members : List (Option Id)}

/-- Only the invocation itself changes. -/
theorem goto (fenced : Fenced world) (busy : next ≠ .idle) (unconfirmed : next ≠ .ended true)
    (fits : ∀ role phase, next = .running role phase -> Fits world id role phase) :
    Fenced (world.goto id next) := by
  have confirmedBefore (other : Id) (confirmed : (world.goto id next).invocation other = .ended true) :
      world.invocation other = .ended true := by
    by_cases same : other = id
    · rw [same, World.goto_same] at confirmed
      exact absurd confirmed unconfirmed
    · rw [World.goto_ne same] at confirmed
      exact confirmed
  have moved {other : Id} {role : Role} {phase : Phase} (fit : Fits world other role phase) :
      Fits (world.goto id next) other role phase :=
    ⟨fit.owner, fit.armed, fit.recorded, fun loaded another => ⟨(fit.loaded loaded another).1,
      fun confirmed => (fit.loaded loaded another).2 (confirmedBefore another confirmed)⟩,
      fit.emptied, fit.early, fit.late, fit.reconciling⟩
  refine ⟨?_, ?_, fenced.holder, fenced.record, fenced.only, fenced.group, fenced.resident, fenced.known, ?_⟩
  · intro other role phase running
    by_cases same : other = id
    · rw [same, World.goto_same] at running
      rw [same]
      exact moved (fits role phase running)
    · rw [World.goto_ne same] at running
      exact moved (fenced.fits other role phase running)
  · intro other waiting
    by_cases same : other = id
    · rw [same, World.goto_same] at waiting
      exact absurd waiting busy
    · rw [World.goto_ne same] at waiting
      exact fenced.idle other waiting
  · exact fun other confirmed => fenced.confirmed other (confirmedBefore other confirmed)

/-- An invocation may end without a confirmation at any point. -/
theorem ends (fenced : Fenced world) : Fenced (world.goto id (.ended false)) :=
  fenced.goto (by simp) (by simp) fun _ _ running => by cases running

theorem others_outside (fenced : Fenced world) (running : world.invocation id = .running role phase)
    (inside : phase.inside) {other : Id} (apart : other ≠ id) {otherRole : Role} {otherPhase : Phase}
    (also : world.invocation other = .running otherRole otherPhase) : otherPhase.inside = false := by
  by_contra entered
  have first := (fenced.fits id role phase running).owner inside
  have second := (fenced.fits other otherRole otherPhase also).owner (eq_true_of_ne_false entered)
  exact apart (Option.some.inj (second.symm.trans first))

/-- Outside the lock little is required. -/
theorem outside_fits {other : World Id} (outside : phase.inside = false)
    (fit : Fits world id role phase) (same : other.child id = world.child id) : Fits other id role phase := by
  have waits : phase = .locking ∨ phase = .blocked := by
    cases phase <;> simp_all [Phase.inside]
  refine ⟨?_, ?_, ?_, ?_, ?_, ?_, ?_, ?_⟩
  · intro inside
    rw [outside] at inside
    cases inside
  · rcases waits with rfl | rfl <;> exact fun armed => (by cases armed)
  · rcases waits with rfl | rfl <;> exact fun loaded => (by cases loaded)
  · rcases waits with rfl | rfl <;> exact fun loaded => (by cases loaded)
  · rcases waits with rfl | rfl <;> exact fun emptied => (by cases emptied)
  · rw [same]
    exact fit.early
  · rw [same]
    exact fit.late
  · rw [same]
    exact fit.reconciling

/-- The owner of the lock changes the record, the scratch directory or the
group, and goes on. -/
theorem acts (fenced : Fenced world) (running : world.invocation id = .running role phase)
    (inside : phase.inside) {record : Option Record} {scratch group : Bool}
    (recorded : world.record ≠ none -> record ≠ none) (grouped : world.members ≠ [] -> group = true)
    (busy : next ≠ .idle)
    (confirms : next = .ended true -> record ≠ none ∧ world.members = [] ∧ ∀ other, (world.child other).holds = false)
    (fits : ∀ role phase, next = .running role phase -> Fits { world with record, scratch, group } id role phase) :
    Fenced ({ world with record, scratch, group }.goto id next) := by
  refine ⟨?_, ?_, fenced.holder, ?_, fenced.only, grouped, fenced.resident, fenced.known, ?_⟩
  · intro other otherRole otherPhase also
    by_cases same : other = id
    · rw [same, World.goto_same] at also
      rw [same]
      have fit := fits otherRole otherPhase also
      refine ⟨fit.owner, fit.armed, fit.recorded, fun loaded another => ⟨(fit.loaded loaded another).1, fun confirmed => ?_⟩,
        fit.emptied, fit.early, fit.late, fit.reconciling⟩
      by_cases self : another = id
      · rw [self, World.goto_same, also] at confirmed
        cases confirmed
      · rw [World.goto_ne self] at confirmed
        exact (fit.loaded loaded another).2 confirmed
    · rw [World.goto_ne same] at also
      exact outside_fits (fenced.others_outside running inside same also) (fenced.fits other _ _ also) rfl
  · intro other waiting
    by_cases same : other = id
    · rw [same, World.goto_same] at waiting
      exact absurd waiting busy
    · rw [World.goto_ne same] at waiting
      exact fenced.idle other waiting
  · exact fun other started => recorded (fenced.record other started)
  · intro other confirmed
    by_cases same : other = id
    · rw [same, World.goto_same] at confirmed
      exact confirms confirmed
    · rw [World.goto_ne same] at confirmed
      have before := fenced.confirmed other confirmed
      exact ⟨recorded before.1, before.2⟩

/-- The lock is taken when no one is inside and no child keeps it. -/
theorem acquires (fenced : Fenced world) (free : world.free = true) (running : world.invocation id = .running role .locking)
    {next : Phase} (first : next = .checkPath ∧ role = .supervise ∨ next = .reading ∧ role = .reconcile) :
    Fenced ({ world with owner := some id }.goto id (.running role next)) := by
  have nobody (other : Id) : (world.invocation other).inside = false ∧ (world.child other).holds = false := by
    by_contra someone
    have owned : world.owner = some other := by
      cases kept : (world.child other).holds with
      | true => exact fenced.holder other kept
      | false =>
        cases was : world.invocation other with
        | idle | ended confirmed => exact absurd ⟨by rw [was]; rfl, kept⟩ someone
        | running role phase =>
          refine (fenced.fits other role phase was).owner ?_
          by_contra outside
          exact someone ⟨by rw [was, Invocation.inside, eq_false_of_ne_true outside], kept⟩
    simp only [World.free, owned, Bool.and_eq_true, Bool.not_eq_true'] at free
    exact someone free
  have fit := fenced.fits id role .locking running
  refine ⟨?_, ?_, ?_, fenced.record, fenced.only, fenced.group, fenced.resident, fenced.known, ?_⟩
  · intro other otherRole otherPhase also
    by_cases same : other = id
    · rw [same, World.goto_same] at also
      cases also
      rw [same]
      have unforked : world.child id = .none := fit.early rfl
      refine ⟨fun _ => rfl, ?_, ?_, ?_, ?_, fun _ => unforked, fun _ _ => ?_, ?_⟩
      · rcases first with ⟨rfl, _⟩ | ⟨rfl, _⟩ <;> exact fun armed => (by cases armed)
      · rcases first with ⟨rfl, _⟩ | ⟨rfl, _⟩ <;> exact fun loaded => (by cases loaded)
      · rcases first with ⟨rfl, _⟩ | ⟨rfl, _⟩ <;> exact fun loaded => (by cases loaded)
      · rcases first with ⟨rfl, _⟩ | ⟨rfl, _⟩ <;> exact fun emptied => (by cases emptied)
      · exact (nobody id).2
      · rcases first with ⟨_, rfl⟩ | ⟨rfl, _⟩
        · exact fun other => (by cases other)
        · exact fun _ => ⟨rfl, unforked⟩
    · rw [World.goto_ne same] at also
      have outside := (nobody other).1
      rw [also, Invocation.inside] at outside
      exact outside_fits outside (fenced.fits other _ _ also) rfl
  · intro other waiting
    by_cases same : other = id
    · rw [same, World.goto_same] at waiting
      cases waiting
    · rw [World.goto_ne same] at waiting
      exact fenced.idle other waiting
  · intro other kept
    have unkept := (nobody other).2
    change (world.child other).holds = true at kept
    rw [unkept] at kept
    cases kept
  · intro other confirmed
    by_cases same : other = id
    · rw [same, World.goto_same] at confirmed
      cases confirmed
    · rw [World.goto_ne same] at confirmed
      exact fenced.confirmed other confirmed

/-- A child dies, executes its program, or joins the group, with the members
that belong to it. -/
theorem childs (fenced : Fenced world) {next : Child} (started : world.child id ≠ .none)
    (goes : next ≠ .none) (holds : next.holds -> (world.child id).holds)
    (emptied : world.members = [] -> (world.child id).holds = false -> members = [])
    (grouped : members ≠ [] -> world.group = true)
    (stays : ∀ other, other ≠ id -> some other ∈ world.members -> some other ∈ members)
    (lives : next = .joined ∨ next = .executing -> some id ∈ members)
    (known : ∀ other, some other ∈ members -> other = id ∨ some other ∈ world.members) :
    Fenced ({ world with members := members }.become id next) := by
  have none_iff (other : Id) : ({ world with members := members }.become id next).child other = .none <->
      world.child other = .none := by
    by_cases same : other = id
    · rw [same, World.become_same]
      exact ⟨fun none => absurd none goes, fun none => absurd none started⟩
    · rw [World.become_ne same]
  have kept (other : Id) (keeps : (({ world with members := members }.become id next).child other).holds) :
      (world.child other).holds := by
    by_cases same : other = id
    · rw [same, World.become_same] at keeps
      rw [same]
      exact holds keeps
    · rw [World.become_ne same] at keeps
      exact keeps
  have released (other : Id) (free : (world.child other).holds = false) :
      (({ world with members := members }.become id next).child other).holds = false :=
    eq_false_of_ne_true fun keeps => by rw [kept other keeps] at free; cases free
  refine ⟨?_, ?_, ?_, ?_, ?_, grouped, ?_, ?_, ?_⟩
  · intro other role phase running
    have fit := fenced.fits other role phase running
    refine ⟨fit.owner, fit.armed, fit.recorded, fun loaded another => ⟨(none_iff another).mpr (fit.loaded loaded another).1,
      (fit.loaded loaded another).2⟩, fun empty => ?_, fun early => (none_iff other).mpr (fit.early early),
      fun late apart => released other (fit.late late apart),
      fun reconciling => ⟨(fit.reconciling reconciling).1, (none_iff other).mpr (fit.reconciling reconciling).2⟩⟩
    refine emptied (fit.emptied empty) (eq_false_of_ne_true fun keeps => ?_)
    -- An invocation that emptied the group owns the lock, so the child is its own.
    have inside : phase.inside := by cases phase <;> first | rfl | cases empty
    have same : id = other := Option.some.inj ((fenced.holder id keeps).symm.trans (fit.owner inside))
    have unheld := fit.late (by cases phase <;> first | rfl | cases empty) fun popen => by rw [popen] at empty; cases empty
    rw [<- same, keeps] at unheld
    cases unheld
  · exact fun other waiting => (none_iff other).mpr (fenced.idle other waiting)
  · exact fun other keeps => fenced.holder other (kept other keeps)
  · exact fun other there => fenced.record other fun none => there ((none_iff other).mpr none)
  · exact fun one two first second => fenced.only one two (fun none => first ((none_iff one).mpr none))
      (fun none => second ((none_iff two).mpr none))
  · intro other living
    by_cases same : other = id
    · rw [same, World.become_same] at living
      rw [same]
      exact lives living
    · rw [World.become_ne same] at living
      exact stays other same (fenced.resident other living)
  · intro other member none
    rcases known other member with same | earlier
    · rw [same, World.become_same] at none
      exact goes none
    · exact fenced.known other earlier ((none_iff other).mp none)
  · intro other confirmed
    have before := fenced.confirmed other confirmed
    exact ⟨before.1, emptied before.2.1 (before.2.2 id), fun another => released another (before.2.2 another)⟩

/-- Processes that a controller started come and go. -/
theorem populates (fenced : Fenced world) (emptied : world.members = [] -> members = [])
    (grouped : members ≠ [] -> world.group = true)
    (same : ∀ other, some other ∈ members <-> some other ∈ world.members) :
    Fenced { world with members := members } := by
  refine ⟨?_, fenced.idle, fenced.holder, fenced.record, fenced.only, grouped, ?_, ?_, ?_⟩
  · intro other role phase running
    have fit := fenced.fits other role phase running
    exact { fit with emptied := fun empty => emptied (fit.emptied empty) }
  · exact fun other living => (same other).mpr (fenced.resident other living)
  · exact fun other member => fenced.known other ((same other).mp member)
  · intro other confirmed
    have before := fenced.confirmed other confirmed
    exact ⟨before.1, emptied before.2.1, before.2.2⟩

/-- The controller is started once. -/
theorem forks (fenced : Fenced world) (running : world.invocation id = .running .supervise .forking) :
    Fenced ((world.become id .forked).goto id (.running .supervise .popen)) := by
  have fit := fenced.fits id .supervise .forking running
  have nobody := fun other => (fit.loaded rfl other).1
  have unconfirmed := fun other => (fit.loaded rfl other).2
  have owner := fit.owner rfl
  have forked (other : Id) (there : ((world.become id .forked).goto id (.running .supervise .popen)).child other ≠ .none) :
      other = id := by
    by_contra apart
    refine there ?_
    change (world.become id .forked).child other = .none
    rw [World.become_ne apart]
    exact nobody other
  have unconfirmedAfter (other : Id) :
      ((world.become id .forked).goto id (.running .supervise .popen)).invocation other ≠ .ended true := by
    intro confirmed
    by_cases same : other = id
    · rw [same, World.goto_same] at confirmed
      cases confirmed
    · rw [World.goto_ne same] at confirmed
      exact unconfirmed other confirmed
  refine ⟨?_, ?_, ?_, fun _ _ => fit.recorded rfl, ?_, fenced.group, ?_, ?_, ?_⟩
  · intro other role phase also
    by_cases same : other = id
    · rw [same, World.goto_same] at also
      cases also
      rw [same]
      exact ⟨fun _ => owner, fun armed => (by cases armed), fun loaded => (by cases loaded),
        fun loaded => (by cases loaded), fun emptied => (by cases emptied), fun early => (by cases early),
        fun _ popen => absurd rfl popen, fun reconciling => (by cases reconciling)⟩
    · rw [World.goto_ne same] at also
      exact outside_fits (fenced.others_outside running rfl same also) (fenced.fits other _ _ also)
        (World.become_ne same)
  · intro other waiting
    by_cases same : other = id
    · rw [same, World.goto_same] at waiting
      cases waiting
    · change (world.become id .forked).child other = .none
      rw [World.become_ne same]
      exact nobody other
  · intro other keeps
    have same := forked other fun none => by rw [none] at keeps; cases keeps
    rw [same]
    exact owner
  · exact fun one other first second => (forked one first).trans (forked other second).symm
  · intro other living
    have same := forked other fun none => by rw [none] at living; rcases living with none | none <;> cases none
    change (world.become id .forked).child other = .joined ∨ (world.become id .forked).child other = .executing at living
    rw [same, World.become_same] at living
    rcases living with other | other <;> cases other
  · exact fun other member => absurd (nobody other) (fenced.known other member)
  · exact fun other confirmed => absurd confirmed (unconfirmedAfter other)

end Fenced

section Steps

variable {world : World Id} {id : Id} {attempt : Attempt}

variable {phase : Phase} {other : Id}

variable {role : Role}

/-- A phase of a supervisor with its controller started or given up. -/
theorem fits_later {world : World Id} (owner : world.owner = some id)
    (unheld : (world.child id).holds = false) (late : phase.early = false)
    (emptied : phase.emptied -> world.members = [])
    (reconciling : role = .reconcile -> phase.supervising = false ∧ world.child id = .none) :
    Fits world id role phase := by
  have unarmed : phase.armed = false := by
    simp only [Phase.early, Bool.or_eq_false_iff] at late
    exact late.1.1.1.1
  have unloaded : phase.loaded = false := by
    simp only [Phase.early, Bool.or_eq_false_iff] at late
    exact late.1.1.1.2
  refine ⟨fun _ => owner, fun armed => ?_, fun loaded => ?_, fun loaded => ?_, emptied, fun early => ?_,
    fun _ _ => unheld, reconciling⟩
  · rw [unarmed] at armed
    cases armed
  · rw [unloaded] at loaded
    cases loaded
  · rw [unloaded] at loaded
    cases loaded
  · rw [late] at early
    cases early

/-- Before the start of the controller. -/
theorem fits_loaded {world : World Id} (loaded : phase.loaded) (owner : world.owner = some id)
    (recorded : world.record ≠ none)
    (nothing : ∀ other, world.child other = .none ∧ world.invocation other ≠ .ended true) :
    Fits world id .supervise phase := by
  refine ⟨fun _ => owner, fun armed => ?_, fun _ => recorded, fun _ => nothing, fun emptied => ?_,
    fun _ => (nothing id).1, fun _ _ => ?_, fun other => (by cases other)⟩
  · cases phase <;> simp_all [Phase.armed, Phase.loaded]
  · cases phase <;> simp_all [Phase.emptied, Phase.loaded]
  · rw [(nothing id).1]
    rfl

/-- Before the record is written. -/
theorem fits_armed {world : World Id} (armed : phase.armed) (owner : world.owner = some id)
    (unrecorded : world.record = none) (unstarted : world.child id = .none) :
    Fits world id .supervise phase := by
  refine ⟨fun _ => owner, fun _ => unrecorded, fun loaded => ?_, fun loaded => ?_, fun emptied => ?_,
    fun _ => unstarted, fun _ _ => ?_, fun other => (by cases other)⟩
  · cases phase <;> simp_all [Phase.armed, Phase.loaded]
  · cases phase <;> simp_all [Phase.armed, Phase.loaded]
  · cases phase <;> simp_all [Phase.armed, Phase.emptied]
  · rw [unstarted]
    rfl

/-- Outside the lock. -/
theorem fits_waiting {world : World Id} (outside : phase.inside = false)
    (unstarted : world.child id = .none) (shared : phase.supervising = false) : Fits world id role phase := by
  have free : (world.child id).holds = false := by
    rw [unstarted]
    rfl
  constructor <;> cases phase <;> simp_all [Phase.inside, Phase.armed, Phase.loaded, Phase.emptied]

theorem superviseStep_fenced (fenced : Fenced world)
    (running : world.invocation id = .running .supervise phase) :
    Fenced (superviseStep world id attempt phase) := by
  have fit := fenced.fits id .supervise phase running
  -- On the way to `finally`, whatever was reached.
  have gives (inside : phase.inside) (unheld : (world.child id).holds = false) :
      Fenced (world.goto id (.running .supervise .killing)) := by
    refine fenced.goto (by simp) (by simp) fun role next same => ?_
    cases same
    exact fits_later (fit.owner inside) unheld rfl (fun emptied => by cases emptied) fun other => by cases other
  cases phase with
  | checkPath =>
    have unstarted := fit.early rfl
    rw [superviseStep]
    split
    · exact fenced.ends
    · next absent =>
        refine fenced.goto (by simp) (by simp) fun role next same => ?_
        cases same
        exact fits_armed rfl (fit.owner rfl) (by simpa using absent) unstarted
  | checkGroup =>
    rw [superviseStep]
    split
    · exact fenced.ends
    · refine fenced.goto (by simp) (by simp) fun role next same => ?_
      cases same
      exact fits_armed rfl (fit.owner rfl) (fit.armed rfl) (fit.early rfl)
  | writing =>
    have unrecorded := fit.armed rfl
    have nothing (other : Id) : world.child other = .none ∧ world.invocation other ≠ .ended true := by
      refine ⟨?_, fun confirmed => (fenced.confirmed other confirmed).1 unrecorded⟩
      by_contra there
      exact fenced.record other there unrecorded
    cases attempt with
    | done =>
      refine fenced.acts running rfl (fun _ => by simp) fenced.group (by simp) (by simp) fun role next same => ?_
      cases same
      exact fits_loaded rfl (fit.owner rfl) (by simp) nothing
    | failed => exact fenced.ends
    | failedLate =>
      exact fenced.acts running rfl (fun _ => by simp) fenced.group (by simp) (by simp)
        (fun role next same => by cases same)
  | makeScratch =>
    have unheld := fit.late
    have nothing := fit.loaded rfl
    have free : (world.child id).holds = false := by rw [(nothing id).1]; rfl
    rw [superviseStep]
    split
    · exact gives rfl free
    · refine fenced.acts running rfl (fun recorded => recorded) fenced.group (by simp) (by simp)
        (fun role next same => ?_)
      split at same
      · cases same
        exact fits_loaded rfl (fit.owner rfl) (fit.recorded rfl) nothing
      · cases same
        exact fits_later (fit.owner rfl) free rfl (fun emptied => by cases emptied) fun other => by cases other
  | makeGroup =>
    have nothing := fit.loaded rfl
    have free : (world.child id).holds = false := by rw [(nothing id).1]; rfl
    rw [superviseStep]
    split
    · exact gives rfl free
    · refine fenced.acts running rfl (fun recorded => recorded) (fun _ => rfl) (by simp) (by simp)
        (fun role next same => ?_)
      cases same
      exact fits_loaded rfl (fit.owner rfl) (fit.recorded rfl) nothing
  | limits =>
    have nothing := fit.loaded rfl
    have free : (world.child id).holds = false := by rw [(nothing id).1]; rfl
    rw [superviseStep]
    split
    · refine fenced.goto (by simp) (by simp) fun role next same => ?_
      cases same
      exact fits_loaded rfl (fit.owner rfl) (fit.recorded rfl) nothing
    · exact gives rfl free
  | forking =>
    rw [superviseStep]
    split
    · exact fenced.forks running
    · exact gives rfl (by rw [((fit.loaded rfl) id).1]; rfl)
  | popen =>
    rw [superviseStep]
    split
    · exact fenced
    · next free =>
        have unheld := eq_false_of_ne_true free
        split
        · refine fenced.goto (by simp) (by simp) fun role next same => ?_
          cases same
          exact fits_later (fit.owner rfl) unheld rfl (fun emptied => by cases emptied)
            (fun other => by cases other)
        · exact gives rfl unheld
  | relaying =>
    exact gives rfl (fit.late rfl (by simp))
  | reaping =>
    rw [superviseStep]
    split
    · refine fenced.goto (by simp) (by simp) fun role next same => ?_
      cases same
      exact fits_later (fit.owner rfl) (fit.late rfl (by simp)) rfl (fun _ => fit.emptied rfl)
        (fun other => by cases other)
    · exact fenced.ends
  | _ => exact fenced

theorem sharedStep_fenced (fenced : Fenced world) (running : world.invocation id = .running role phase) :
    Fenced (sharedStep world id role attempt phase) := by
  have fit := fenced.fits id role phase running
  -- To a later phase under the lock, with nothing changed.
  have goes {next : Phase} (inside : phase.inside) (late : phase.early = false) (free : phase ≠ .popen)
      (later : next.early = false) (emptied : next.emptied -> world.members = [])
      (shared : role = .reconcile -> next.supervising = false) : Fenced (world.goto id (.running role next)) := by
    refine fenced.goto (by simp) (by simp) fun other phase same => ?_
    cases same
    exact fits_later (fit.owner inside) (fit.late late free) later emptied
      (fun reconciling => ⟨shared reconciling, (fit.reconciling reconciling).2⟩)
  cases phase with
  | locking =>
    cases role with
    | supervise =>
      simp only [sharedStep]
      split
      · exact fenced.ends
      · split
        · next free => exact fenced.acquires free running (.inl ⟨rfl, rfl⟩)
        · exact fenced.ends
    | reconcile =>
      simp only [sharedStep]
      split
      · exact fenced.ends
      · split
        · next free => exact fenced.acquires free running (.inr ⟨rfl, rfl⟩)
        · refine fenced.goto (by simp) (by simp) fun role next same => ?_
          cases same
          exact fits_waiting rfl (fit.early rfl) rfl
  | blocked =>
    rw [sharedStep]
    split
    · refine fenced.goto (by simp) (by simp) fun role next same => ?_
      cases same
      exact fits_waiting rfl (fit.early rfl) rfl
    · exact fenced.ends
  | reading =>
    rw [sharedStep]
    split
    · exact goes rfl rfl (by simp) rfl (fun emptied => by cases emptied) fun _ => rfl
    · exact fenced.ends
  | killing =>
    rw [sharedStep]
    split
    · exact goes rfl rfl (by simp) rfl (fun emptied => by cases emptied) fun _ => rfl
    · next absent =>
        have empty : world.members = [] := by
          by_contra there
          exact absent (fenced.group there)
        cases role with
        | supervise => exact goes rfl rfl (by simp) rfl (fun _ => empty) fun other => by cases other
        | reconcile => exact goes rfl rfl (by simp) rfl (fun _ => empty) fun _ => rfl
  | killWrite =>
    rw [sharedStep]
    split
    · exact goes rfl rfl (by simp) rfl (fun emptied => by cases emptied) fun _ => rfl
    · exact fenced.ends
  | waiting =>
    rw [sharedStep]
    split
    · exact fenced.ends
    · split
      · next empty => exact goes rfl rfl (by simp) rfl (fun _ => List.isEmpty_iff.mp empty) fun _ => rfl
      · exact fenced
  | removing =>
    have empty := fit.emptied rfl
    rw [sharedStep]
    split
    · refine fenced.acts running rfl (fun recorded => recorded) (fun there => absurd empty there) (by simp) (by simp)
        (fun other phase same => ?_)
      cases same
      cases role with
      | supervise =>
        exact fits_later (fit.owner rfl) (fit.late rfl (by simp)) rfl (fun _ => empty) fun other => by cases other
      | reconcile =>
        exact fits_later (fit.owner rfl) (fit.late rfl (by simp)) rfl (fun _ => empty)
          (fun reconciling => ⟨rfl, (fit.reconciling reconciling).2⟩)
    · exact fenced.ends
  | cleaning =>
    rw [sharedStep]
    split
    · refine fenced.acts running rfl (fun recorded => recorded) fenced.group (by simp) (by simp)
        (fun other phase same => ?_)
      cases same
      exact fits_later (fit.owner rfl) (fit.late rfl (by simp)) rfl (fun _ => fit.emptied rfl)
        (fun reconciling => ⟨rfl, (fit.reconciling reconciling).2⟩)
    · exact fenced.ends
  | sealing =>
    have empty := fit.emptied rfl
    cases attempt with
    | done =>
      refine fenced.acts running rfl (fun _ => by simp) fenced.group (by simp) (fun _ => ⟨by simp, empty, ?_⟩)
        (fun other phase same => by cases same)
      -- Whatever child keeps the lock is the owner's own, and it has none.
      intro other
      by_contra keeps
      have owned := fenced.holder other (eq_true_of_ne_false keeps)
      have same : other = id := Option.some.inj (owned.symm.trans (fit.owner rfl))
      rw [same, fit.late rfl (by simp)] at keeps
      exact keeps rfl
    | failed => exact fenced.ends
    | failedLate =>
      exact fenced.acts running rfl (fun _ => by simp) fenced.group (by simp) (by simp)
        (fun other phase same => by cases same)
  | checkPath => exact fenced
  | checkGroup => exact fenced
  | writing => exact fenced
  | makeScratch => exact fenced
  | makeGroup => exact fenced
  | limits => exact fenced
  | forking => exact fenced
  | popen => exact fenced
  | relaying => exact fenced
  | reaping => exact fenced

theorem step_fenced (fenced : Fenced world) (event : Event Id) : Fenced (step world event) := by
  cases event with
  | start id role =>
    rw [step]
    split
    · next idle =>
        refine fenced.goto (by simp) (by simp) fun other phase same => ?_
        cases same
        exact fits_waiting rfl (fenced.idle id idle) rfl
    · exact fenced
  | advance id attempt =>
    rw [step]
    split
    · next role phase running =>
        split
        · next supervising =>
            have role_eq : role = .supervise := by
              cases role with
              | supervise => rfl
              | reconcile =>
                rw [((fenced.fits id _ phase running).reconciling rfl).1] at supervising
                cases supervising
            rw [role_eq] at running
            exact superviseStep_fenced fenced running
        · exact sharedStep_fenced fenced running
    · exact fenced
  | kill id =>
    rw [step]
    split
    · exact fenced.ends
    · exact fenced
  | childJoins id =>
    rw [step]
    split
    · next both =>
        refine fenced.childs (by rw [both.1]; simp) (by simp) (fun _ => by rw [both.1]; rfl) ?_ (fun _ => both.2)
          (fun _ _ member => List.mem_cons_of_mem _ member) (fun _ => List.mem_cons_self) fun other member => ?_
        case refine_2 =>
          rcases List.mem_cons.mp member with same | earlier
          · exact .inl (Option.some.inj same)
          · exact .inr earlier
        intro _ unheld
        rw [both.1] at unheld
        cases unheld
    · exact fenced
  | childExecutes id =>
    rw [step]
    split
    · next joined =>
        exact fenced.childs (by rw [joined]; simp) (by simp) (fun holds => by cases holds) (fun empty _ => empty)
          fenced.group (fun _ _ member => member) (fun _ => fenced.resident id (.inl joined))
          (fun _ member => .inr member)
    · exact fenced
  | childDies id =>
    rw [step]
    split
    · next forked =>
        exact fenced.childs (by rw [forked]; simp) (by simp) (fun holds => by cases holds) (fun empty _ => empty)
          fenced.group (fun _ _ member => member) (fun lives => by rcases lives with other | other <;> cases other)
          (fun _ member => .inr member)
    · exact fenced
  | memberForks =>
    rw [step]
    split
    · exact fenced
    · next populated =>
        have there : world.members ≠ [] := fun empty => populated (List.isEmpty_iff.mpr empty)
        refine fenced.populates (fun empty => absurd empty there) (fun _ => fenced.group there) fun other => ?_
        simp
  | memberExits member =>
    cases member with
    | none =>
      rw [step]
      split
      · next there =>
          have populated : world.members ≠ [] := List.ne_nil_of_mem there
          exact fenced.populates (fun empty => absurd empty populated) (fun _ => fenced.group populated)
            (fun other => List.mem_erase_of_ne (by simp))
      · exact fenced
    | some id =>
      rw [step]
      split
      · next there =>
          have populated : world.members ≠ [] := List.ne_nil_of_mem there
          exact fenced.childs (fenced.known id there) (by simp) (fun holds => by cases holds)
            (fun empty _ => absurd empty populated) (fun _ => fenced.group populated)
            (fun other apart member => (List.mem_erase_of_ne (by simpa using apart)).mpr member)
            (fun lives => by rcases lives with other | other <;> cases other)
            (fun other member => .inr (List.mem_of_mem_erase member))
      · exact fenced

theorem machine_fenced (events : List (Event Id)) : Fenced (machine.run World.fresh events) :=
  @Machine.invariant_run _ _ machine Fenced (fun _ event fenced => step_fenced fenced event) _ Fenced.fresh events

/-! ## What later steps leave alone -/

theorem superviseStep_child (world : World Id) (id : Id) (attempt : Attempt) (phase : Phase) :
    (superviseStep world id attempt phase).child = world.child ∨
      phase = .forking ∧ (superviseStep world id attempt phase).child = (world.become id .forked).child := by
  cases phase with
  | forking =>
    rw [superviseStep]
    split
    · exact .inr ⟨rfl, rfl⟩
    · exact .inl rfl
  | writing => cases attempt <;> exact .inl rfl
  | checkPath | checkGroup | makeScratch | makeGroup | limits | reaping =>
    rw [superviseStep]
    split <;> exact .inl rfl
  | popen =>
    rw [superviseStep]
    split
    · exact .inl rfl
    · split <;> exact .inl rfl
  | locking | blocked | relaying | reading | killing | killWrite | waiting | removing | cleaning | sealing =>
    exact .inl rfl

theorem sharedStep_child (world : World Id) (id : Id) (role : Role) (attempt : Attempt) (phase : Phase) :
    (sharedStep world id role attempt phase).child = world.child := by
  cases phase with
  | sealing => cases attempt <;> rfl
  | locking =>
    cases role <;> simp only [sharedStep] <;> split
    · rfl
    · split <;> rfl
    · rfl
    · split <;> rfl
  | waiting =>
    rw [sharedStep]
    split
    · rfl
    · split <;> rfl
  | blocked | reading | killing | killWrite | removing | cleaning =>
    rw [sharedStep]
    split <;> rfl
  | checkPath | checkGroup | writing | makeScratch | makeGroup | limits | forking | popen | relaying | reaping => rfl

theorem superviseStep_invocation (apart : other ≠ id) (phase : Phase) :
    (superviseStep world id attempt phase).invocation other = world.invocation other := by
  cases phase with
  | writing => cases attempt <;> exact World.goto_ne apart
  | relaying => exact World.goto_ne apart
  | checkPath | checkGroup | makeScratch | makeGroup | limits | forking | reaping =>
    rw [superviseStep]
    split <;> exact World.goto_ne apart
  | popen =>
    rw [superviseStep]
    split
    · rfl
    · split <;> exact World.goto_ne apart
  | locking | blocked | reading | killing | killWrite | waiting | removing | cleaning | sealing => rfl

theorem sharedStep_invocation (apart : other ≠ id) (role : Role) (phase : Phase) :
    (sharedStep world id role attempt phase).invocation other = world.invocation other := by
  cases phase with
  | sealing => cases attempt <;> exact World.goto_ne apart
  | locking =>
    cases role <;> simp only [sharedStep] <;> split
    · exact World.goto_ne apart
    · split <;> exact World.goto_ne apart
    · exact World.goto_ne apart
    · split <;> exact World.goto_ne apart
  | waiting =>
    rw [sharedStep]
    split
    · exact World.goto_ne apart
    · split
      · exact World.goto_ne apart
      · rfl
  | blocked | reading | killing | killWrite | removing | cleaning =>
    rw [sharedStep]
    split <;> exact World.goto_ne apart
  | checkPath | checkGroup | writing | makeScratch | makeGroup | limits | forking | popen | relaying | reaping => rfl

/-- A controller is only started by a supervisor that is about to fork. -/
theorem step_starts (fenced : Fenced world) (event : Event Id) (unstarted : world.child other = .none) :
    (step world event).child other = .none ∨ ∃ id, world.invocation id = .running .supervise .forking := by
  have keeps {id : Id} (started : world.child id ≠ .none) {next : Child} {members : List (Option Id)} :
      ({ world with members := members }.become id next).child other = .none := by
    rw [World.become_ne fun same => started (by rw [<- same]; exact unstarted)]
    exact unstarted
  cases event with
  | advance id attempt =>
    rw [step]
    split
    · next role phase running =>
        split
        · next supervising =>
            rcases superviseStep_child world id attempt phase with same | ⟨forking, _⟩
            · rw [same]
              exact .inl unstarted
            · refine .inr ⟨id, ?_⟩
              cases role with
              | supervise => rw [running, forking]
              | reconcile =>
                rw [((fenced.fits id _ phase running).reconciling rfl).1] at supervising
                cases supervising
        · rw [sharedStep_child]
          exact .inl unstarted
    · exact .inl unstarted
  | childJoins id =>
    rw [step]
    split
    · next both => exact .inl (keeps (by rw [both.1]; simp))
    · exact .inl unstarted
  | childExecutes id =>
    rw [step]
    split
    · next joined => exact .inl (@keeps id (by rw [joined]; simp) .executing world.members)
    · exact .inl unstarted
  | childDies id =>
    rw [step]
    split
    · next forked => exact .inl (@keeps id (by rw [forked]; simp) .dead world.members)
    · exact .inl unstarted
  | memberExits member =>
    cases member with
    | none =>
      rw [step]
      split <;> exact .inl unstarted
    | some id =>
      rw [step]
      split
      · next there => exact .inl (keeps (fenced.known id there))
      · exact .inl unstarted
  | _ =>
    rw [step]
    split <;> exact .inl unstarted

theorem step_ended (event : Event Id) {confirmed : Bool} (ended : world.invocation other = .ended confirmed) :
    (step world event).invocation other = .ended confirmed := by
  cases event with
  | start id role =>
    rw [step]
    split
    · next idle =>
        rw [World.goto_ne fun same => by rw [same, idle] at ended; cases ended]
        exact ended
    · exact ended
  | advance id attempt =>
    rw [step]
    split
    · next running =>
        have apart : other ≠ id := fun same => by rw [same, running] at ended; cases ended
        split
        · rw [superviseStep_invocation apart]
          exact ended
        · rw [sharedStep_invocation apart]
          exact ended
    · exact ended
  | kill id =>
    rw [step]
    split
    · next running =>
        rw [World.goto_ne fun same => by rw [same, running] at ended; cases ended]
        exact ended
    · exact ended
  | memberExits member =>
    cases member with
    | none | some id =>
      rw [step]
      split <;> exact ended
  | _ =>
    rw [step]
    split <;> exact ended

end Steps

/-! ## Runs -/

/-- A process of the key is alive. -/
def World.Alive (world : World Id) : Prop :=
  world.members ≠ [] ∨ ∃ id, world.child id = .forked ∨ world.child id = .joined ∨ world.child id = .executing

theorem not_alive {world : World Id} (fenced : Fenced world) {id : Id} (confirmed : world.invocation id = .ended true) :
    ¬ world.Alive := by
  rcases fenced.confirmed id confirmed with ⟨_, empty, free⟩
  rintro (populated | ⟨other, forked | joined | executing⟩)
  · exact populated empty
  · have unheld := free other
    rw [forked] at unheld
    cases unheld
  · have member := fenced.resident other (.inl joined)
    rw [empty] at member
    cases member
  · have member := fenced.resident other (.inr executing)
    rw [empty] at member
    cases member

/-- After a confirmation nothing is started. -/
theorem run_unstarted {world : World Id} (fenced : Fenced world) {id other : Id}
    (confirmed : world.invocation id = .ended true) (unstarted : world.child other = .none) (later : List (Event Id)) :
    Fenced (machine.run world later) ∧ (machine.run world later).invocation id = .ended true ∧
      (machine.run world later).child other = .none := by
  induction later generalizing world with
  | nil => exact ⟨fenced, confirmed, unstarted⟩
  | cons event rest ih =>
    refine ih (step_fenced fenced event) (step_ended event confirmed) ?_
    rcases step_starts fenced event unstarted with same | ⟨starter, forking⟩
    · exact same
    · exact absurd confirmed ((fenced.fits starter _ _ forking).loaded rfl id).2

/-- At most one controller is ever started, and a confirmed cleanup leaves no
process and no later start. -/
theorem key_runs_once (events : List (Event Id)) :
    (∀ id other, (machine.run World.fresh events).child id ≠ .none ->
      (machine.run World.fresh events).child other ≠ .none -> id = other) ∧
    (∀ id, (machine.run World.fresh events).invocation id = .ended true -> ∀ later,
      ¬ (machine.run (machine.run World.fresh events) later).Alive ∧
        ∀ other, (machine.run World.fresh events).child other = .none ->
          (machine.run (machine.run World.fresh events) later).child other = .none) := by
  have fenced : Fenced (machine.run World.fresh events) := machine_fenced events
  refine ⟨fenced.only, fun id confirmed later => ⟨?_, fun other unstarted => ?_⟩⟩
  · have reached : Fenced (machine.run (machine.run World.fresh events) later) :=
      @Machine.invariant_run _ _ machine Fenced (fun _ event fenced => step_fenced fenced event) _ fenced later
    have kept : (machine.run (machine.run World.fresh events) later).invocation id = .ended true :=
      @Machine.invariant_run _ _ machine (fun world => world.invocation id = .ended true)
        (fun _ event ended => step_ended event ended) _ confirmed later
    exact not_alive reached kept
  · exact (run_unstarted fenced confirmed unstarted later).2.2


end Key

end ResourceSupervisor
end FixLoop
