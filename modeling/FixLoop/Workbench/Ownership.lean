import FixLoop.Library.Machine
import FixLoop.Library.Table

namespace FixLoop
namespace Workbench

open Library

/-!
# Ownership of project roots

`ProjectOwnership` as a protocol between any number of services that share one
lock directory.  An owner is one constructor call and the object it returns.
Each of its steps is one call to the operating system: an attempt to take an
advisory lock, which fails while anyone holds it, a release, the reading of
the registry or its atomic replacement.  Steps of different owners interleave,
every step may fail, and a process may die between any two of them.
-/

/-! ## Roots -/

/-- An absolute path as `pathlib` splits it; the first part is the anchor. -/
structure Root where
  parts : List String
  anchored : parts ≠ []
deriving DecidableEq

namespace Root

/-- `path.parents`, the nearest first. -/
def parents (root : Root) : List (List String) :=
  ((List.range (root.parts.length - 1)).map fun count => root.parts.take (count + 1)).reverse

/-- The first root equals or contains the second. -/
def Contains (root other : Root) : Prop := root.parts <+: other.parts

end Root

def overlaps (a b : Root) : Bool :=
  a == b || a.parts ∈ b.parents || b.parts ∈ a.parents

theorem mem_parents {root other : Root} :
    root.parts ∈ other.parents <-> root.Contains other ∧ root ≠ other := by
  rw [Root.parents, List.mem_reverse, List.mem_map]
  constructor
  · rintro ⟨count, below, same⟩
    rw [List.mem_range] at below
    constructor
    · rw [Root.Contains, <- same]
      exact List.take_prefix _ _
    · rintro rfl
      have shorter := congrArg List.length same
      rw [List.length_take] at shorter
      omega
  · rintro ⟨⟨rest, whole⟩, different⟩
    have filled : 0 < root.parts.length := List.length_pos_iff.mpr root.anchored
    have longer : root.parts.length < other.parts.length := by
      rw [<- whole, List.length_append]
      cases rest with
      | nil =>
        rw [List.append_nil] at whole
        cases root
        cases other
        cases whole
        exact absurd rfl different
      | cons part rest =>
        rw [List.length_cons]
        omega
    refine ⟨root.parts.length - 1, List.mem_range.mpr (by omega), ?_⟩
    rw [Nat.sub_add_cancel filled, <- whole, List.take_left]

theorem overlaps_iff {a b : Root} : overlaps a b = true <-> a.Contains b ∨ b.Contains a := by
  simp only [overlaps, Bool.or_eq_true, beq_iff_eq, decide_eq_true_eq, mem_parents]
  by_cases same : a = b
  · subst same
    exact ⟨fun _ => Or.inl (List.prefix_refl _), fun _ => Or.inl (Or.inl rfl)⟩
  · constructor
    · rintro ((same' | ⟨inside, -⟩) | ⟨inside, -⟩)
      · exact absurd same' same
      · exact Or.inl inside
      · exact Or.inr inside
    · rintro (inside | inside)
      · exact Or.inl (Or.inr ⟨inside, same⟩)
      · exact Or.inr ⟨inside, fun impossible => same impossible.symm⟩

theorem overlaps_comm (a b : Root) : overlaps a b = overlaps b a := by
  rw [Bool.eq_iff_iff, overlaps_iff, overlaps_iff]
  exact Or.comm

/-- The key of a root: the digest of its normalised text.  Nothing is assumed
of it, not even that different roots have different keys. -/
class RootKeys where
  key : Root -> String

/-! ## Owners -/

inductive Lock where
  | registry
  | project (key : String)
deriving DecidableEq

/-- The records of the registry that are yet to be probed. -/
abbrev Records := List (String × Root)

/-- Where an owner is in its constructor, or what has become of it. -/
inductive Phase where
  /-- Before `ServiceOwnership(directory / "registry.lock")`. -/
  | opening
  /-- The registry is locked and about to be read. -/
  | reading
  /-- The loop over the records, with what it has found active. -/
  | probing (rest : Records) (active : Table Root)
  /-- The loop holds the lock of a record that nobody held. -/
  | probed (key : String) (rest : Records) (active : Table Root)
  /-- Before the lock of the root itself. -/
  | locking (active : Table Root)
  /-- The root is locked, the registry not yet replaced. -/
  | locked (active : Table Root)
  /-- The registry is replaced; the directory is to be synchronised. -/
  | published
  /-- The registry is to be unlocked. -/
  | leaving
  /-- An exception: the root, if it is locked, is to be unlocked. -/
  | failing (holdsRoot : Bool)
  /-- An exception: the registry is to be unlocked. -/
  | raising
  /-- The constructor has returned. -/
  | live
  /-- Closing the registry lock failed: no object was returned, but its file
  of the root is open until it is collected. -/
  | leaked

structure Owner where
  process : Nat
  root : Root
  phase : Phase

namespace Phase

def holdsRegistry : Phase -> Bool
  | reading | probing _ _ | probed _ _ _ | locking _ | locked _ | published | leaving | failing _
  | raising => true
  | opening | live | leaked => false

def holdsRoot : Phase -> Bool
  | locked _ | published | leaving | live | leaked => true
  | failing holds => holds
  | _ => false

def probes : Phase -> Option String
  | probed key _ _ => some key
  | _ => none

/-- The registry names the owner. -/
def settled : Phase -> Bool
  | published | leaving | live | leaked => true
  | _ => false

end Phase

/-- The owners, the locks of the operating system with their holders, and
the contents of `projects.json`; a missing file counts as an empty one. -/
structure LockDirectory where
  owners : Nat -> Option Owner
  locks : Lock -> Option Nat
  registry : Table Root

namespace LockDirectory

def enter (directory : LockDirectory) (id : Nat) (owner : Owner) (phase : Phase) : LockDirectory :=
  { directory with owners := Function.update directory.owners id (some { owner with phase := phase }) }

def retire (directory : LockDirectory) (id : Nat) : LockDirectory :=
  { directory with owners := Function.update directory.owners id none }

def take (directory : LockDirectory) (lock : Lock) (id : Nat) : LockDirectory :=
  { directory with locks := Function.update directory.locks lock (some id) }

def release (directory : LockDirectory) (lock : Lock) : LockDirectory :=
  { directory with locks := Function.update directory.locks lock none }

end LockDirectory

/-- How a call to the operating system ends: as it should, with an error that
`ServiceOwnership` reports as a conflict, or with another error. -/
inductive Outcome where
  | fine
  | refused
  | raised
deriving DecidableEq

variable [RootKeys]

def Owner.rootLock (owner : Owner) : Lock := .project (RootKeys.key owner.root)

/-- An attempt to take a lock that nobody holds, if it is not refused. -/
def LockDirectory.free (directory : LockDirectory) (lock : Lock) (outcome : Outcome) : Bool :=
  (directory.locks lock).isNone && outcome == .fine

/-- One step of an owner. -/
def LockDirectory.advance (directory : LockDirectory) (id : Nat) (owner : Owner)
    (outcome : Outcome) : LockDirectory :=
  match owner.phase with
  | .opening =>
    if directory.free .registry outcome then (directory.take .registry id).enter id owner .reading
    else directory.retire id
  | .reading =>
    if outcome = .fine then directory.enter id owner (.probing directory.registry.rows ∅)
    else directory.enter id owner (.failing false)
  | .probing [] active => directory.enter id owner (.locking active)
  | .probing ((key, root) :: rest) active =>
    if outcome = .raised then directory.enter id owner (.failing false)
    else if directory.free (.project key) outcome then
      (directory.take (.project key) id).enter id owner (.probed key rest active)
    else if overlaps owner.root root then directory.enter id owner (.failing false)
    else directory.enter id owner (.probing rest (active.insert key root))
  | .probed key rest active =>
    if outcome = .fine then
      (directory.release (.project key)).enter id owner (.probing rest active)
    else (directory.release (.project key)).enter id owner (.failing false)
  | .locking active =>
    if directory.free owner.rootLock outcome then
      (directory.take owner.rootLock id).enter id owner (.locked active)
    else directory.enter id owner (.failing false)
  | .locked active =>
    if outcome = .fine then
      { directory.enter id owner .published with
        registry := active.insert (RootKeys.key owner.root) owner.root }
    else directory.enter id owner (.failing true)
  | .published =>
    if outcome = .fine then directory.enter id owner .leaving
    else directory.enter id owner (.failing true)
  | .leaving =>
    if outcome = .fine then (directory.release .registry).enter id owner .live
    else (directory.release .registry).enter id owner .leaked
  | .failing true => (directory.release owner.rootLock).enter id owner .raising
  | .failing false => directory.enter id owner .raising
  | .raising => (directory.release .registry).retire id
  | .live | .leaked => directory

/-- `close`, or the collection of an object that was never returned. -/
def LockDirectory.close (directory : LockDirectory) (id : Nat) (owner : Owner) : LockDirectory :=
  match owner.phase with
  | .live | .leaked => (directory.release owner.rootLock).retire id
  | _ => directory

omit [RootKeys] in
/-- The owners of the process are gone and the locks they held are free. -/
def LockDirectory.crash (directory : LockDirectory) (process : Nat) : LockDirectory :=
  let survives := fun owner : Owner => owner.process != process
  { directory with
    owners := fun id => (directory.owners id).filter survives
    locks := fun lock => (directory.locks lock).filter (fun id =>
      ((directory.owners id).filter survives).isSome) }

/-- What happens next in one of the services. -/
inductive ServiceEvent where
  | construct (id process : Nat) (root : Root)
  | advance (id : Nat) (outcome : Outcome)
  | close (id : Nat)
  | crash (process : Nat)

def LockDirectory.next (directory : LockDirectory) : ServiceEvent -> LockDirectory
  | .construct id process root =>
    if (directory.owners id).isNone then
      { directory with owners := Function.update directory.owners id (some ⟨process, root, .opening⟩) }
    else directory
  | .advance id outcome =>
    match directory.owners id with
    | some owner => directory.advance id owner outcome
    | none => directory
  | .close id =>
    match directory.owners id with
    | some owner => directory.close id owner
    | none => directory
  | .crash process => directory.crash process

/-- The services on one lock directory. -/
def services : Machine LockDirectory ServiceEvent where
  step := LockDirectory.next

/-- No service runs; the registry may be left over from earlier ones. -/
def LockDirectory.idle (registry : Table Root) : LockDirectory :=
  ⟨fun _ => none, fun _ => none, registry⟩

end Workbench
end FixLoop
