import FixLoop.Workbench.Ownership

namespace FixLoop
namespace Workbench

open Library

/-!
# Live owners never overlap

The registry lock serialises the constructors, and what carries the argument
is what a constructor knows of the owners that are already there: each of them
has a record that the constructor either has yet to probe or has kept as
active after comparing its root.  An owner is dropped from the registry only
by a constructor that held its lock for a moment, and then it is gone.
-/

variable [RootKeys]

/-- The owner has the lock. -/
def Owner.holds (owner : Owner) : Lock -> Bool
  | .registry => owner.phase.holdsRegistry
  | .project key =>
    owner.phase.probes == some key ||
      (owner.phase.holdsRoot && key == RootKeys.key owner.root)

/-- What a constructor knows while it holds the registry lock. -/
structure Survey (directory : LockDirectory) (root : Root) (rest : Records) (active : Table Root) :
    Prop where
  unread : ∀ key other, (key, other) ∈ rest -> directory.registry.lookup key = some other
  kept : ∀ key other, active.lookup key = some other ->
    directory.registry.lookup key = some other
  clear : ∀ key other, active.lookup key = some other -> overlaps root other = false
  complete : ∀ id owner, directory.owners id = some owner -> owner.phase.settled = true ->
    (RootKeys.key owner.root, owner.root) ∈ rest ∨
      active.lookup (RootKeys.key owner.root) = some owner.root

def Surveyed (directory : LockDirectory) (owner : Owner) : Prop :=
  match owner.phase with
  | .probing rest active | .probed _ rest active => Survey directory owner.root rest active
  | .locking active | .locked active => Survey directory owner.root [] active
  | _ => True

structure Sound (directory : LockDirectory) : Prop where
  held : ∀ lock id, directory.locks lock = some id <-> ∃ owner,
    directory.owners id = some owner ∧ owner.holds lock = true
  registered : ∀ id owner, directory.owners id = some owner -> owner.phase.settled = true ->
    directory.registry.lookup (RootKeys.key owner.root) = some owner.root
  surveyed : ∀ id owner, directory.owners id = some owner -> Surveyed directory owner
  apart : ∀ first second one other, first ≠ second -> directory.owners first = some one ->
    directory.owners second = some other -> one.phase.holdsRoot = true ->
      other.phase.holdsRoot = true -> overlaps one.root other.root = false

section Steps

variable {directory after : LockDirectory} {id : Nat} {owner : Owner}

theorem Sound.holder (sound : Sound directory) {other : Nat} {one : Owner} {lock : Lock}
    (stored : directory.owners id = some owner) (holds : owner.holds lock = true)
    (listed : directory.owners other = some one) (also : one.holds lock = true) : id = other := by
  have first := (sound.held lock id).mpr ⟨owner, stored, holds⟩
  have second := (sound.held lock other).mpr ⟨one, listed, also⟩
  exact Option.some.inj (first.symm.trans second)

/-- Every settled owner of the second directory was settled in the first. -/
def SettledFrom (directory after : LockDirectory) : Prop :=
  ∀ id owner, after.owners id = some owner -> owner.phase.settled = true ->
    ∃ old, directory.owners id = some old ∧ old.phase.settled = true ∧
      old.root = owner.root

theorem Survey.shrink {root : Root} {rest : Records} {active : Table Root}
    (survey : Survey directory root rest active) (registry : after.registry = directory.registry)
    (settled : SettledFrom directory after) : Survey after root rest active where
  unread := by
    rw [registry]
    exact survey.unread
  kept := by
    rw [registry]
    exact survey.kept
  clear := survey.clear
  complete := by
    intro id owner stored there
    rcases settled id owner stored there with ⟨old, listed, known, same⟩
    rw [<- same]
    exact survey.complete id old listed known

theorem Surveyed.shrink (surveyed : Surveyed directory owner)
    (registry : after.registry = directory.registry) (settled : SettledFrom directory after) :
    Surveyed after owner := by
  unfold Surveyed at surveyed ⊢
  split at surveyed
  · exact surveyed.shrink registry settled
  · exact surveyed.shrink registry settled
  · exact surveyed.shrink registry settled
  · exact surveyed.shrink registry settled
  · exact True.intro

/-- The owner changes into another one or is gone.  A lock stays as it is, or
it was free or its own and is now its own or free. -/
structure Moved (directory after : LockDirectory) (id : Nat) (owner : Owner) (new : Option Owner) :
    Prop where
  stored : directory.owners id = some owner
  owners : after.owners = Function.update directory.owners id new
  locks : ∀ lock, (after.locks lock = directory.locks lock ∧
      new.any (fun moved => moved.holds lock) = owner.holds lock) ∨
    ((directory.locks lock = none ∨ directory.locks lock = some id) ∧
      after.locks lock = if new.any (fun moved => moved.holds lock) then some id else none)

variable {new : Option Owner}

theorem Moved.held (moved : Moved directory after id owner new) (sound : Sound directory) (lock : Lock)
    (holder : Nat) :
    after.locks lock = some holder <-> ∃ other,
      after.owners holder = some other ∧ other.holds lock = true := by
  have mine : (∃ other, after.owners id = some other ∧ other.holds lock = true) <->
      new.any (fun moved => moved.holds lock) = true := by
    rw [moved.owners, Function.update_self, Option.any_eq_true]
  by_cases same : holder = id
  · subst same
    rw [mine]
    rcases moved.locks lock with ⟨unchanged, equal⟩ | ⟨-, changed⟩
    · rw [unchanged, equal, sound.held, moved.stored]
      simp only [Option.some.injEq, exists_eq_left']
    · rw [changed]
      by_cases holds : new.any (fun moved => moved.holds lock) = true
      · simp only [holds, if_true]
      · simp only [holds, if_false, reduceCtorEq]
  · rw [moved.owners, Function.update_of_ne same]
    rcases moved.locks lock with ⟨unchanged, -⟩ | ⟨before, changed⟩
    · rw [unchanged, sound.held]
    · rw [<- sound.held, changed]
      constructor
      · intro taken
        by_cases holds : new.any (fun moved => moved.holds lock) = true
        · rw [if_pos holds] at taken
          exact absurd (Option.some.inj taken).symm same
        · rw [if_neg holds] at taken
          cases taken
      · intro taken
        rcases before with free | own
        · rw [free] at taken
          cases taken
        · rw [own] at taken
          exact absurd (Option.some.inj taken).symm same

/-- An owner afterwards is the one that moved or one from before. -/
theorem Moved.read (moved : Moved directory after id owner new) {other : Nat} {one : Owner}
    (listed : after.owners other = some one) :
    (other = id ∧ new = some one) ∨ (other ≠ id ∧ directory.owners other = some one) := by
  rw [moved.owners] at listed
  by_cases same : other = id
  · subst same
    rw [Function.update_self] at listed
    exact Or.inl ⟨rfl, listed⟩
  · rw [Function.update_of_ne same] at listed
    exact Or.inr ⟨same, listed⟩

/-- An owner moves without becoming settled. -/
theorem Moved.sound (moved : Moved directory after id owner new)
    (registry : after.registry = directory.registry) (sound : Sound directory)
    (settled : ∀ next, new = some next -> next.phase.settled = true -> owner.phase.settled = true ∧ owner.root = next.root)
    (surveyed : ∀ next, new = some next -> Surveyed directory next)
    (apart : ∀ next, new = some next -> next.phase.holdsRoot = true -> ∀ other one, other ≠ id -> directory.owners other = some one -> one.phase.holdsRoot = true -> overlaps next.root one.root = false) :
    Sound after := by
  have fromBefore : SettledFrom directory after := by
    intro other one listed there
    rcases moved.read listed with ⟨rfl, made⟩ | ⟨-, listed⟩
    · rcases settled one made there with ⟨old, same⟩
      exact ⟨owner, moved.stored, old, same⟩
    · exact ⟨one, listed, there, rfl⟩
  constructor
  · exact moved.held sound
  · intro other one listed there
    rcases fromBefore other one listed there with ⟨old, known, before, same⟩
    rw [registry, <- same]
    exact sound.registered other old known before
  · intro other one listed
    rcases moved.read listed with ⟨-, made⟩ | ⟨-, listed⟩
    · exact (surveyed one made).shrink registry fromBefore
    · exact (sound.surveyed other one listed).shrink registry fromBefore
  · intro first second one other different firstListed secondListed firstHolds secondHolds
    rcases moved.read firstListed with ⟨rfl, made⟩ | ⟨firstOther, oldFirst⟩
    · rcases moved.read secondListed with ⟨rfl, -⟩ | ⟨secondOther, oldSecond⟩
      · exact absurd rfl different
      · exact apart one made firstHolds second other secondOther oldSecond secondHolds
    · rcases moved.read secondListed with ⟨rfl, made⟩ | ⟨-, oldSecond⟩
      · rw [overlaps_comm]
        exact apart other made secondHolds first one firstOther oldFirst firstHolds
      · exact sound.apart first second one other different oldFirst oldSecond firstHolds secondHolds

/-! ## The ways an owner moves -/

variable {phase : Phase} {lock : Lock}

theorem moved_enter (stored : directory.owners id = some owner)
    (same : ∀ lock, Owner.holds { owner with phase := phase } lock = owner.holds lock) :
    Moved directory (directory.enter id owner phase) id owner
      (some { owner with phase := phase }) :=
  ⟨stored, rfl, fun lock => Or.inl ⟨rfl, same lock⟩⟩

theorem moved_take (stored : directory.owners id = some owner) (free : directory.locks lock = none)
    (gains : Owner.holds { owner with phase := phase } lock = true)
    (same : ∀ other, other ≠ lock ->
      Owner.holds { owner with phase := phase } other = owner.holds other) :
    Moved directory ((directory.take lock id).enter id owner phase) id owner
      (some { owner with phase := phase }) := by
  refine ⟨stored, rfl, fun other => ?_⟩
  by_cases this : other = lock
  · subst this
    refine Or.inr ⟨Or.inl free, ?_⟩
    rw [Option.any_some, gains]
    exact Function.update_self _ _ _
  · exact Or.inl ⟨Function.update_of_ne this _ _, same other this⟩

theorem moved_release (stored : directory.owners id = some owner)
    (had : directory.locks lock = some id)
    (loses : Owner.holds { owner with phase := phase } lock = false)
    (same : ∀ other, other ≠ lock ->
      Owner.holds { owner with phase := phase } other = owner.holds other) :
    Moved directory ((directory.release lock).enter id owner phase) id owner
      (some { owner with phase := phase }) := by
  refine ⟨stored, rfl, fun other => ?_⟩
  by_cases this : other = lock
  · subst this
    refine Or.inr ⟨Or.inr had, ?_⟩
    rw [Option.any_some, loses]
    exact Function.update_self _ _ _
  · exact Or.inl ⟨Function.update_of_ne this _ _, same other this⟩

theorem moved_gone (stored : directory.owners id = some owner)
    (had : directory.locks lock = some id)
    (only : ∀ other, other ≠ lock -> owner.holds other = false) :
    Moved directory ((directory.release lock).retire id) id owner none := by
  refine ⟨stored, rfl, fun other => ?_⟩
  by_cases this : other = lock
  · subst this
    exact Or.inr ⟨Or.inr had, Function.update_self _ _ _⟩
  · exact Or.inl ⟨Function.update_of_ne this _ _, (only other this).symm⟩

theorem moved_retire (stored : directory.owners id = some owner)
    (nothing : ∀ lock, owner.holds lock = false) :
    Moved directory (directory.retire id) id owner none :=
  ⟨stored, rfl, fun lock => Or.inl ⟨rfl, (nothing lock).symm⟩⟩

/-- An owner that is gone keeps nobody from anything. -/
theorem Moved.sound_gone (moved : Moved directory after id owner none)
    (registry : after.registry = directory.registry) (sound : Sound directory) : Sound after :=
  moved.sound registry sound (fun _ impossible => by cases impossible)
    (fun _ impossible => by cases impossible) fun _ impossible => by cases impossible

/-- The owner keeps its root and does not become settled. -/
theorem Moved.sound_some (moved : Moved directory after id owner (some { owner with phase := phase }))
    (registry : after.registry = directory.registry) (sound : Sound directory)
    (settled : phase.settled = true -> owner.phase.settled = true)
    (surveyed : Surveyed directory { owner with phase := phase })
    (apart : phase.holdsRoot = true -> owner.phase.holdsRoot = true) : Sound after := by
  refine moved.sound registry sound ?_ ?_ ?_
  · rintro next made there
    cases made
    exact ⟨settled there, rfl⟩
  · rintro next made
    cases made
    exact surveyed
  · rintro next made there other one different listed holds
    cases made
    exact sound.apart id other owner one (Ne.symm different) moved.stored listed (apart there) holds

theorem locks_of_holds (sound : Sound directory) (stored : directory.owners id = some owner)
    (holds : owner.holds lock = true) : directory.locks lock = some id :=
  (sound.held lock id).mpr ⟨owner, stored, holds⟩

/-- A settled owner has its root locked. -/
theorem holds_of_settled (settled : owner.phase.settled = true) :
    owner.holds (.project (RootKeys.key owner.root)) = true := by
  rw [Owner.holds, Bool.or_eq_true]
  right
  rw [Bool.and_eq_true]
  refine ⟨?_, beq_self_eq_true _⟩
  cases known : owner.phase with
  | published => rfl
  | leaving => rfl
  | live => rfl
  | leaked => rfl
  | _ =>
    rw [known] at settled
    cases settled

omit [RootKeys] in
/-- Outside the registry lock, whoever holds its root is settled. -/
theorem settled_of_holdsRoot (holds : owner.phase.holdsRoot = true)
    (outside : owner.phase.holdsRegistry = false) : owner.phase.settled = true := by
  cases known : owner.phase with
  | live => rfl
  | leaked => rfl
  | opening =>
    rw [known] at holds
    cases holds
  | _ =>
    rw [known] at outside
    cases outside

theorem surveyed_outside (outside : owner.phase.holdsRegistry = false) : Surveyed directory owner := by
  unfold Surveyed
  cases known : owner.phase with
  | opening => exact True.intro
  | live => exact True.intro
  | leaked => exact True.intro
  | _ =>
    rw [known] at outside
    cases outside

/-- While an owner holds the registry lock, no other one does. -/
theorem Sound.outside (sound : Sound directory) (stored : directory.owners id = some owner)
    (inside : owner.phase.holdsRegistry = true) {other : Nat} {one : Owner} (different : other ≠ id)
    (listed : directory.owners other = some one) : one.phase.holdsRegistry = false := by
  by_contra also
  rw [Bool.not_eq_false] at also
  exact different (@Sound.holder _ directory id owner sound other one .registry stored inside listed
    also).symm

theorem Survey.start (sound : Sound directory) (root : Root) :
    Survey directory root directory.registry.rows ∅ where
  unread := fun _ _ listed => Table.mem_rows.mp listed
  kept := fun key other stored => by
    rw [AList.lookup_empty] at stored
    cases stored
  clear := fun key other stored => by
    rw [AList.lookup_empty] at stored
    cases stored
  complete := fun other one stored there =>
    Or.inl (Table.mem_rows.mpr (sound.registered other one stored there))

variable {root other : Root} {key : String} {rest : Records} {active : Table Root}

/-- A record whose lock nobody holds is the record of no owner. -/
theorem Survey.drop (survey : Survey directory root ((key, other) :: rest) active)
    (sound : Sound directory) (free : directory.locks (.project key) = none) :
    Survey directory root rest active where
  unread := fun _ _ listed => survey.unread _ _ (List.mem_cons_of_mem _ listed)
  kept := survey.kept
  clear := survey.clear
  complete := by
    intro holder one stored there
    rcases survey.complete holder one stored there with listed | found
    · rcases List.mem_cons.mp listed with same | listed
      · cases same
        rw [locks_of_holds sound stored (holds_of_settled there)] at free
        cases free
      · exact Or.inl listed
    · exact Or.inr found

/-- A record whose lock is held is kept after its root has been compared. -/
theorem Survey.keep (survey : Survey directory root ((key, other) :: rest) active)
    (apart : overlaps root other = false) :
    Survey directory root rest (active.insert key other) where
  unread := fun _ _ listed => survey.unread _ _ (List.mem_cons_of_mem _ listed)
  kept := by
    intro name found stored
    rcases Table.lookup_insert_some stored with ⟨rfl, rfl⟩ | ⟨-, stored⟩
    · exact survey.unread _ _ List.mem_cons_self
    · exact survey.kept name found stored
  clear := by
    intro name found stored
    rcases Table.lookup_insert_some stored with ⟨-, rfl⟩ | ⟨-, stored⟩
    · exact apart
    · exact survey.clear name found stored
  complete := by
    intro holder one stored there
    rcases survey.complete holder one stored there with listed | found
    · rcases List.mem_cons.mp listed with same | listed
      · cases same
        exact Or.inr (AList.lookup_insert active)
      · exact Or.inl listed
    · right
      by_cases same : RootKeys.key one.root = key
      · have recorded := survey.kept _ _ found
        rw [same, survey.unread key other List.mem_cons_self] at recorded
        cases recorded
        rw [same]
        exact AList.lookup_insert active
      · rw [AList.lookup_insert_ne same]
        exact found

/-- When all records are read, the root overlaps no root that is held. -/
theorem Survey.apart (survey : Survey directory root [] active) {holder : Nat} {one : Owner}
    (stored : directory.owners holder = some one) (there : one.phase.settled = true) :
    overlaps root one.root = false := by
  rcases survey.complete holder one stored there with listed | found
  · exact absurd listed List.not_mem_nil
  · exact survey.clear _ _ found

omit [RootKeys] in
theorem free_iff {outcome : Outcome} (free : directory.free lock outcome = true) :
    directory.locks lock = none := by
  rw [LockDirectory.free, Bool.and_eq_true] at free
  exact Option.isNone_iff_eq_none.mp free.1

/-! ## Every step keeps the invariant -/

/-- A constructor that has locked its root replaces the registry. -/
theorem sound_publish (sound : Sound directory) (stored : directory.owners id = some owner)
    (phase : owner.phase = .locked active) :
    Sound { directory.enter id owner .published with
      registry := active.insert (RootKeys.key owner.root) owner.root } := by
  have inside : owner.phase.holdsRegistry = true := by rw [phase]; rfl
  have survey := sound.surveyed id owner stored
  rw [Surveyed, phase] at survey
  have moved : Moved directory { directory.enter id owner .published with
      registry := active.insert (RootKeys.key owner.root) owner.root } id owner
      (some { owner with phase := .published }) := by
    refine ⟨stored, rfl, fun lock => Or.inl ⟨rfl, ?_⟩⟩
    cases lock with
    | registry => rw [Option.any_some, Owner.holds, Owner.holds, inside]; rfl
    | project key => rw [Option.any_some, Owner.holds, Owner.holds, phase]; rfl
  have mine : owner.holds (.project (RootKeys.key owner.root)) = true := by
    rw [Owner.holds, phase]
    exact beq_self_eq_true _
  constructor
  · exact moved.held sound
  · intro other one listed there
    rcases moved.read listed with ⟨rfl, made⟩ | ⟨different, listed⟩
    · cases made
      exact AList.lookup_insert active
    · have apart : RootKeys.key one.root ≠ RootKeys.key owner.root := by
        intro same
        have also := holds_of_settled there
        rw [same] at also
        exact different (sound.holder stored mine listed also).symm
      rcases survey.complete other one listed there with impossible | found
      · exact absurd impossible List.not_mem_nil
      · exact (AList.lookup_insert_ne apart).trans found
  · intro other one listed
    rcases moved.read listed with ⟨rfl, made⟩ | ⟨different, listed⟩
    · cases made
      exact True.intro
    · exact surveyed_outside (sound.outside stored inside different listed)
  · intro first second one two different firstListed secondListed firstHolds secondHolds
    have holds : owner.phase.holdsRoot = true := by rw [phase]; rfl
    rcases moved.read firstListed with ⟨rfl, made⟩ | ⟨-, oldFirst⟩
    · cases made
      rcases moved.read secondListed with ⟨rfl, -⟩ | ⟨-, oldSecond⟩
      · exact absurd rfl different
      · exact sound.apart first second owner two different stored oldSecond holds secondHolds
    · rcases moved.read secondListed with ⟨rfl, made⟩ | ⟨-, oldSecond⟩
      · cases made
        exact sound.apart first second one owner different oldFirst stored firstHolds holds
      · exact sound.apart first second one two different oldFirst oldSecond firstHolds secondHolds

/-- A constructor that has read all records locks its root. -/
theorem sound_lock (sound : Sound directory) (stored : directory.owners id = some owner)
    (phase : owner.phase = .locking active) (free : directory.locks owner.rootLock = none) :
    Sound ((directory.take owner.rootLock id).enter id owner (.locked active)) := by
  have inside : owner.phase.holdsRegistry = true := by rw [phase]; rfl
  have survey := sound.surveyed id owner stored
  rw [Surveyed, phase] at survey
  have moved := @moved_take _ directory id owner (.locked active) owner.rootLock stored free
    (beq_self_eq_true _) (by
      intro lock different
      cases lock with
      | registry => rw [Owner.holds, Owner.holds, phase]; rfl
      | project key =>
        have other : (key == RootKeys.key owner.root) = false :=
          beq_eq_false_iff_ne.mpr fun same => different (congrArg Lock.project same)
        simp only [Owner.holds, phase, Phase.probes, Phase.holdsRoot, other, Bool.and_false])
  refine moved.sound rfl sound ?_ ?_ ?_
  · rintro next made there
    cases made
    cases there
  · rintro next made
    cases made
    exact survey
  · rintro next made - other one different listed holds
    cases made
    exact survey.apart listed
      (settled_of_holdsRoot holds (sound.outside stored inside different listed))

/-- An owner that leaves the loop or the constructor by an exception. -/
theorem sound_fail (sound : Sound directory) (stored : directory.owners id = some owner)
    (inside : owner.phase.holdsRegistry = true) (unprobing : owner.phase.probes = none) :
    Sound (directory.enter id owner (.failing owner.phase.holdsRoot)) := by
  refine (moved_enter stored fun lock => ?_).sound_some rfl sound (fun impossible => by cases impossible)
    True.intro fun holds => holds
  cases lock with
  | registry => rw [Owner.holds, Owner.holds, inside]; rfl
  | project key => rw [Owner.holds, Owner.holds, unprobing]; rfl

/-- A step of a constructor in which its locks stay as they are. -/
theorem sound_enter {phase : Phase} (sound : Sound directory)
    (stored : directory.owners id = some owner)
    (registry : phase.holdsRegistry = owner.phase.holdsRegistry)
    (probes : phase.probes = owner.phase.probes) (root : phase.holdsRoot = owner.phase.holdsRoot)
    (settled : phase.settled = true -> owner.phase.settled = true)
    (surveyed : Surveyed directory { owner with phase := phase }) :
    Sound (directory.enter id owner phase) := by
  refine (moved_enter stored fun lock => ?_).sound_some rfl sound settled surveyed
    (fun holds => root ▸ holds)
  cases lock with
  | registry => exact registry
  | project key => rw [Owner.holds, Owner.holds, probes, root]

/-- The owner releases the registry lock. -/
theorem sound_leave {phase : Phase} (sound : Sound directory)
    (stored : directory.owners id = some owner) (known : owner.phase = .leaving)
    (outside : phase.holdsRegistry = false) (probes : phase.probes = none)
    (root : phase.holdsRoot = true) : Sound ((directory.release .registry).enter id owner phase) := by
  have had := @locks_of_holds _ directory id owner .registry sound stored
    (by rw [Owner.holds, known]; rfl)
  refine (moved_release stored had outside ?_).sound_some rfl sound (fun _ => by rw [known]; rfl)
    (surveyed_outside outside) fun _ => by rw [known]; rfl
  intro lock different
  cases lock with
  | registry => exact absurd rfl different
  | project key =>
    rw [Owner.holds, Owner.holds, probes, root, known]
    rfl

/-- The loop closes the lock it has probed. -/
theorem sound_unprobe {phase : Phase} (sound : Sound directory)
    (stored : directory.owners id = some owner) (known : owner.phase = .probed key rest active)
    (inside : phase.holdsRegistry = true) (probes : phase.probes = none)
    (root : phase.holdsRoot = false) (settled : phase.settled = false)
    (surveyed : Surveyed directory { owner with phase := phase }) :
    Sound ((directory.release (.project key)).enter id owner phase) := by
  have had := @locks_of_holds _ directory id owner (.project key) sound stored
    (by rw [Owner.holds, known]; exact Bool.or_eq_true_iff.mpr (Or.inl (beq_self_eq_true _)))
  refine (moved_release stored had ?_ ?_).sound_some rfl sound ?_ surveyed ?_
  · rw [Owner.holds, probes, root]
    rfl
  · intro lock different
    cases lock with
    | registry => rw [Owner.holds, Owner.holds, inside, known]; rfl
    | project other =>
      have apart : (some key == some other) = false :=
        beq_eq_false_iff_ne.mpr fun same => by cases same; exact different rfl
      rw [Owner.holds, Owner.holds, probes, root, known]
      simp only [Phase.probes, Phase.holdsRoot, apart, Bool.false_and, Bool.or_false]
      rfl
  · intro impossible
    rw [settled] at impossible
    cases impossible
  · intro impossible
    rw [root] at impossible
    cases impossible

/-- The loop takes a lock that nobody holds. -/
theorem sound_probe (sound : Sound directory) (stored : directory.owners id = some owner)
    (known : owner.phase = .probing ((key, other) :: rest) active)
    (free : directory.locks (.project key) = none) :
    Sound ((directory.take (.project key) id).enter id owner (.probed key rest active)) := by
  have survey := sound.surveyed id owner stored
  rw [Surveyed, known] at survey
  refine (moved_take stored free ?_ ?_).sound_some rfl sound (fun impossible => by cases impossible)
    (survey.drop sound free) fun impossible => by cases impossible
  · exact Bool.or_eq_true_iff.mpr (Or.inl (beq_self_eq_true _))
  · intro lock different
    cases lock with
    | registry => rw [Owner.holds, Owner.holds, known]; rfl
    | project name =>
      have apart : (some key == some name) = false :=
        beq_eq_false_iff_ne.mpr fun same => by cases same; exact different rfl
      rw [Owner.holds, Owner.holds, known]
      simp only [Phase.probes, Phase.holdsRoot, apart, Bool.false_and, Bool.or_false]
      rfl

theorem sound_unlock (sound : Sound directory) (stored : directory.owners id = some owner)
    (known : owner.phase = .failing true) :
    Sound ((directory.release owner.rootLock).enter id owner .raising) := by
  have had := @locks_of_holds _ directory id owner owner.rootLock sound stored
    (by rw [Owner.rootLock, Owner.holds, known]; exact beq_self_eq_true _)
  refine (moved_release stored had rfl ?_).sound_some rfl sound (fun impossible => by cases impossible)
    True.intro fun impossible => by cases impossible
  intro lock different
  cases lock with
  | registry => rw [Owner.holds, Owner.holds, known]; rfl
  | project name =>
    have apart : (name == RootKeys.key owner.root) = false :=
      beq_eq_false_iff_ne.mpr fun same => different (congrArg Lock.project same)
    simp only [Owner.holds, known, Phase.probes, Phase.holdsRoot, apart, Bool.and_false]

theorem sound_advance (sound : Sound directory) (stored : directory.owners id = some owner)
    (outcome : Outcome) : Sound (directory.advance id owner outcome) := by
  have survey := sound.surveyed id owner stored
  unfold LockDirectory.advance
  cases known : owner.phase with
  | opening =>
    dsimp only
    by_cases free : directory.free .registry outcome = true
    · rw [if_pos free]
      refine (moved_take stored (free_iff free) rfl ?_).sound_some rfl sound
        (fun impossible => by cases impossible) True.intro fun impossible => by cases impossible
      intro lock different
      cases lock with
      | registry => exact absurd rfl different
      | project key => rw [Owner.holds, Owner.holds, known]; rfl
    · rw [if_neg free]
      refine (moved_retire stored fun lock => ?_).sound_gone rfl sound
      cases lock with
      | registry | project key => rw [Owner.holds, known]; rfl
  | reading =>
    dsimp only
    by_cases fine : outcome = .fine
    · rw [if_pos fine]
      exact sound_enter sound stored (by rw [known]; rfl) (by rw [known]; rfl) (by rw [known]; rfl)
        (fun impossible => by cases impossible) (Survey.start sound owner.root)
    · rw [if_neg fine]
      have failed := sound_fail sound stored (by rw [known]; rfl) (by rw [known]; rfl)
      rw [known] at failed
      exact failed
  | probing rest active =>
    rw [Surveyed, known] at survey
    have failed := sound_fail sound stored (by rw [known]; rfl) (by rw [known]; rfl)
    rw [known] at failed
    cases rest with
    | nil =>
      exact sound_enter sound stored (by rw [known]; rfl) (by rw [known]; rfl)
        (by rw [known]; rfl) (fun impossible => by cases impossible) survey
    | cons record rest =>
      dsimp only
      by_cases raised : outcome = .raised
      · rw [if_pos raised]
        exact failed
      · rw [if_neg raised]
        by_cases free : directory.free (.project record.1) outcome = true
        · rw [if_pos free]
          exact sound_probe sound stored known (free_iff free)
        · rw [if_neg free]
          by_cases overlap : overlaps owner.root record.2 = true
          · rw [if_pos overlap]
            exact failed
          · rw [if_neg overlap]
            exact sound_enter sound stored (by rw [known]; rfl) (by rw [known]; rfl)
              (by rw [known]; rfl) (fun impossible => by cases impossible)
              (survey.keep (Bool.not_eq_true _ |>.mp overlap))
  | probed key rest active =>
    rw [Surveyed, known] at survey
    dsimp only
    by_cases fine : outcome = .fine
    · rw [if_pos fine]
      exact sound_unprobe sound stored known rfl rfl rfl rfl survey
    · rw [if_neg fine]
      exact sound_unprobe sound stored known rfl rfl rfl rfl True.intro
  | locking active =>
    dsimp only
    by_cases free : directory.free owner.rootLock outcome = true
    · rw [if_pos free]
      exact sound_lock sound stored known (free_iff free)
    · rw [if_neg free]
      have failed := sound_fail sound stored (by rw [known]; rfl) (by rw [known]; rfl)
      rw [known] at failed
      exact failed
  | locked active =>
    dsimp only
    by_cases fine : outcome = .fine
    · rw [if_pos fine]
      exact sound_publish sound stored known
    · rw [if_neg fine]
      have failed := sound_fail sound stored (by rw [known]; rfl) (by rw [known]; rfl)
      rw [known] at failed
      exact failed
  | published =>
    dsimp only
    by_cases fine : outcome = .fine
    · rw [if_pos fine]
      exact sound_enter sound stored (by rw [known]; rfl) (by rw [known]; rfl) (by rw [known]; rfl)
        (fun _ => by rw [known]; rfl) True.intro
    · rw [if_neg fine]
      have failed := sound_fail sound stored (by rw [known]; rfl) (by rw [known]; rfl)
      rw [known] at failed
      exact failed
  | leaving =>
    dsimp only
    by_cases fine : outcome = .fine
    · rw [if_pos fine]
      exact sound_leave sound stored known rfl rfl rfl
    · rw [if_neg fine]
      exact sound_leave sound stored known rfl rfl rfl
  | failing holdsRoot =>
    cases holdsRoot with
    | true => exact sound_unlock sound stored known
    | false =>
      exact sound_enter sound stored (by rw [known]; rfl) (by rw [known]; rfl)
        (by rw [known]; rfl) (fun impossible => by cases impossible) True.intro
  | raising =>
    have had := @locks_of_holds _ directory id owner .registry sound stored
      (by rw [Owner.holds, known]; rfl)
    refine (moved_gone stored had fun lock different => ?_).sound_gone rfl sound
    cases lock with
    | registry => exact absurd rfl different
    | project key => rw [Owner.holds, known]; rfl
  | live => exact sound
  | leaked => exact sound

theorem sound_close (sound : Sound directory) (stored : directory.owners id = some owner) :
    Sound (directory.close id owner) := by
  have gone : owner.phase = .live ∨ owner.phase = .leaked ->
      Sound ((directory.release owner.rootLock).retire id) := by
    intro known
    have settled : owner.phase.settled = true := by
      rcases known with known | known
      · rw [known]; rfl
      · rw [known]; rfl
    refine (moved_gone stored (locks_of_holds sound stored (holds_of_settled settled))
      fun lock different => ?_).sound_gone rfl sound
    cases lock with
    | registry =>
      rcases known with known | known
      · rw [Owner.holds, known]; rfl
      · rw [Owner.holds, known]; rfl
    | project name =>
      have apart : (name == RootKeys.key owner.root) = false :=
        beq_eq_false_iff_ne.mpr fun same => different (congrArg Lock.project same)
      rcases known with known | known
      · simp only [Owner.holds, known, Phase.probes, apart, Bool.and_false, Bool.or_false]
        rfl
      · simp only [Owner.holds, known, Phase.probes, apart, Bool.and_false, Bool.or_false]
        rfl
  unfold LockDirectory.close
  cases known : owner.phase with
  | live => exact gone (Or.inl known)
  | leaked => exact gone (Or.inr known)
  | _ => exact sound

theorem sound_construct (sound : Sound directory) (absent : directory.owners id = none)
    (process : Nat) (root : Root) :
    Sound { directory with
      owners := Function.update directory.owners id (some ⟨process, root, .opening⟩) } := by
  have read : ∀ other one,
      Function.update directory.owners id (some ⟨process, root, .opening⟩) other = some one ->
        one.phase = .opening ∨ directory.owners other = some one := by
    intro other one listed
    by_cases same : other = id
    · subst same
      rw [Function.update_self] at listed
      cases listed
      exact Or.inl rfl
    · rw [Function.update_of_ne same] at listed
      exact Or.inr listed
  have fromBefore : SettledFrom directory { directory with
      owners := Function.update directory.owners id (some ⟨process, root, .opening⟩) } := by
    intro other one listed there
    rcases read other one listed with opening | listed
    · rw [opening] at there
      cases there
    · exact ⟨one, listed, there, rfl⟩
  constructor
  · intro lock other
    refine (sound.held lock other).trans ?_
    by_cases same : other = id
    · subst same
      simp only [absent, Function.update_self, Option.some.injEq, exists_eq_left', reduceCtorEq,
        false_and, exists_false, false_iff]
      cases lock with
      | registry | project key => exact Bool.false_ne_true
    · simp only [Function.update_of_ne same]
  · intro other one listed there
    rcases fromBefore other one listed there with ⟨old, known, before, same⟩
    rw [<- same]
    exact sound.registered other old known before
  · intro other one listed
    rcases read other one listed with opening | listed
    · exact surveyed_outside (by rw [opening]; rfl)
    · exact (sound.surveyed other one listed).shrink rfl fromBefore
  · intro first second one other different firstListed secondListed firstHolds secondHolds
    rcases read first one firstListed with opening | firstListed
    · rw [opening] at firstHolds
      cases firstHolds
    · rcases read second other secondListed with opening | secondListed
      · rw [opening] at secondHolds
        cases secondHolds
      · exact sound.apart first second one other different firstListed secondListed firstHolds
          secondHolds

theorem sound_crash (sound : Sound directory) (process : Nat) : Sound (directory.crash process) := by
  have read : ∀ other one, (directory.crash process).owners other = some one ->
      directory.owners other = some one :=
    fun other one listed => (Option.filter_eq_some_iff.mp listed).1
  have fromBefore : SettledFrom directory (directory.crash process) :=
    fun other one listed there => ⟨one, read other one listed, there, rfl⟩
  constructor
  · intro lock other
    simp only [LockDirectory.crash, Option.filter_eq_some_iff, sound.held]
    constructor
    · rintro ⟨⟨one, listed, holds⟩, survives⟩
      rw [listed, Option.isSome_filter, Option.any_some] at survives
      exact ⟨one, ⟨listed, survives⟩, holds⟩
    · rintro ⟨one, ⟨listed, survives⟩, holds⟩
      refine ⟨⟨one, listed, holds⟩, ?_⟩
      rw [listed, Option.isSome_filter, Option.any_some]
      exact survives
  · intro other one listed there
    exact sound.registered other one (read other one listed) there
  · intro other one listed
    exact (sound.surveyed other one (read other one listed)).shrink rfl fromBefore
  · intro first second one other different firstListed secondListed firstHolds secondHolds
    exact sound.apart first second one other different (read first one firstListed)
      (read second other secondListed) firstHolds secondHolds

end Steps

theorem sound_next {directory : LockDirectory} (sound : Sound directory) (event : ServiceEvent) :
    Sound (directory.next event) := by
  cases event with
  | construct id process root =>
    unfold LockDirectory.next
    dsimp only
    by_cases absent : (directory.owners id).isNone = true
    · rw [if_pos absent]
      exact sound_construct sound (Option.isNone_iff_eq_none.mp absent) process root
    · rw [if_neg absent]
      exact sound
  | advance id outcome =>
    cases stored : directory.owners id with
    | none =>
      simp only [LockDirectory.next, stored]
      exact sound
    | some owner =>
      simp only [LockDirectory.next, stored]
      exact sound_advance sound stored outcome
  | close id =>
    cases stored : directory.owners id with
    | none =>
      simp only [LockDirectory.next, stored]
      exact sound
    | some owner =>
      simp only [LockDirectory.next, stored]
      exact sound_close sound stored
  | crash process => exact sound_crash sound process

theorem sound_idle (registry : Table Root) : Sound (LockDirectory.idle registry) := by
  constructor
  · intro lock id
    constructor
    · intro impossible
      cases impossible
    · rintro ⟨owner, impossible, -⟩
      cases impossible
  · intro id owner impossible
    cases impossible
  · intro id owner impossible
    cases impossible
  · intro first second one other different impossible
    cases impossible

/-- No two live owners hold roots one of which equals or contains the other. -/
def OwnersApart (directory : LockDirectory) : Prop :=
  ∀ first second one other, first ≠ second -> directory.owners first = some one ->
    directory.owners second = some other -> one.phase = .live -> other.phase = .live ->
      ¬one.root.Contains other.root

/-- Whatever the services do in whatever order, and wherever their calls fail
or their processes die, live owners never overlap. -/
theorem owners_apart (registry : Table Root) (events : List ServiceEvent) :
    OwnersApart (services.run (LockDirectory.idle registry) events) := by
  have sound := @Machine.invariant_run _ _ services Sound
    (fun _ event sound => sound_next sound event) _ (sound_idle registry) events
  intro first second one other different firstListed secondListed firstLive secondLive contains
  have apart := sound.apart first second one other different firstListed secondListed
    (by rw [firstLive]; rfl) (by rw [secondLive]; rfl)
  rw [overlaps_iff.mpr (Or.inl contains)] at apart
  cases apart

end Workbench
end FixLoop
