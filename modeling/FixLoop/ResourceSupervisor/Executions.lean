import Mathlib.Logic.Function.Basic
import FixLoop.Library.Machine

namespace FixLoop
namespace ResourceSupervisor

open Library

/-!
# Invocations for one execution key

Any number of supervisors and reconcilers work on one key.  They share the
lock, the state file, the control group and the scratch directory, and any of
them may be killed between two of its steps.  A forked controller shares the
open file of the lock until it executes its program, and it joins the group
before.
-/

/-- What an operation on a file comes to; the last one took effect and raised. -/
inductive Attempt where
  | done
  | failed
  | failedLate
deriving DecidableEq

inductive Role where
  | supervise
  | reconcile
deriving DecidableEq

/-- The operation that comes next. -/
inductive Phase where
  | locking
  | blocked
  | checkPath
  | checkGroup
  | writing
  | makeScratch
  | makeGroup
  | limits
  | forking
  | popen
  | relaying
  | reading
  | killing
  | killWrite
  | waiting
  | removing
  | reaping
  | cleaning
  | sealing
deriving DecidableEq

/-- An invocation that ended returned a confirmed cleanup or not. -/
inductive Invocation where
  | idle
  | running (role : Role) (phase : Phase)
  | ended (confirmed : Bool)
deriving DecidableEq

inductive Child where
  | none
  | forked
  | joined
  | executing
  | dead
deriving DecidableEq

inductive Record where
  | started
  | terminal
deriving DecidableEq

section Key

variable {Id : Type} [DecidableEq Id]

/-- The members of the group are controllers and what they start. -/
structure World (Id : Type) where
  owner : Option Id
  record : Option Record
  scratch : Bool
  group : Bool
  members : List (Option Id)
  child : Id -> Child
  invocation : Id -> Invocation

def Phase.inside : Phase -> Bool
  | .locking => false
  | .blocked => false
  | _ => true

def Invocation.inside : Invocation -> Bool
  | .running _ phase => phase.inside
  | _ => false

/-- The child has a copy of the open files of its parent. -/
def Child.holds : Child -> Bool
  | .forked => true
  | .joined => true
  | _ => false

namespace World

/-- Nothing of the key is there. -/
def fresh : World Id := ⟨none, none, false, false, [], fun _ => .none, fun _ => .idle⟩

/-- The lock is free when its last holder has closed it. -/
def free (world : World Id) : Bool :=
  match world.owner with
  | none => true
  | some id => !(world.invocation id).inside && !(world.child id).holds

def goto (world : World Id) (id : Id) (invocation : Invocation) : World Id :=
  { world with invocation := Function.update world.invocation id invocation }

def become (world : World Id) (id : Id) (child : Child) : World Id :=
  { world with child := Function.update world.child id child }

end World

/-- After `kill_group` a supervisor reaps its child. -/
def afterKill : Role -> Phase
  | .supervise => .reaping
  | .reconcile => .cleaning

/-- The steps under the lock that only a supervisor takes. -/
def superviseStep (world : World Id) (id : Id) (attempt : Attempt) : Phase -> World Id
  | .checkPath =>
    if world.record.isSome then world.goto id (.ended false) else world.goto id (.running .supervise .checkGroup)
  | .checkGroup => if world.group then world.goto id (.ended false) else world.goto id (.running .supervise .writing)
  | .writing =>
    match attempt with
    | .done => { world with record := some .started }.goto id (.running .supervise .makeScratch)
    | .failed => world.goto id (.ended false)
    | .failedLate => { world with record := some .started }.goto id (.ended false)
  | .makeScratch =>
    if attempt = Attempt.failed ∨ world.scratch then world.goto id (.running .supervise .killing)
    else
      { world with scratch := true }.goto id
        (.running .supervise (if attempt = Attempt.done then .makeGroup else .killing))
  | .makeGroup =>
    if attempt ≠ Attempt.done ∨ world.group then world.goto id (.running .supervise .killing)
    else { world with group := true }.goto id (.running .supervise .limits)
  | .limits => world.goto id (.running .supervise (if attempt = Attempt.done then .forking else .killing))
  | .forking =>
    if attempt = Attempt.done then (world.become id .forked).goto id (.running .supervise .popen)
    else world.goto id (.running .supervise .killing)
  | .popen =>
    if (world.child id).holds then world
    else world.goto id (.running .supervise (if attempt = Attempt.done then .relaying else .killing))
  | .relaying => world.goto id (.running .supervise .killing)
  | .reaping => world.goto id (if attempt = Attempt.done then .running .supervise .cleaning else .ended false)
  | _ => world

/-- The steps of `execution_lock`, `kill_group`, `cleanup_scratch` and of the
last `_write`.  Where an exception is on its way, a supervisor does not write. -/
def sharedStep (world : World Id) (id : Id) (role : Role) (attempt : Attempt) : Phase -> World Id
  | .locking =>
    if attempt ≠ Attempt.done then world.goto id (.ended false)
    else if world.free then
      { world with owner := some id }.goto id
        (.running role (match role with | .supervise => .checkPath | .reconcile => .reading))
    else world.goto id (match role with | .supervise => .ended false | .reconcile => .running role .blocked)
  | .blocked => world.goto id (if attempt = Attempt.done then .running role .locking else .ended false)
  | .reading => world.goto id (if attempt = Attempt.done then .running role .killing else .ended false)
  | .killing => world.goto id (.running role (if world.group then .killWrite else afterKill role))
  | .killWrite => world.goto id (if attempt = Attempt.done then .running role .waiting else .ended false)
  | .waiting =>
    if attempt ≠ Attempt.done then world.goto id (.ended false)
    else if world.members.isEmpty then world.goto id (.running role .removing)
    else world
  | .removing =>
    if attempt = Attempt.done ∧ world.members.isEmpty then
      { world with group := false }.goto id (.running role (afterKill role))
    else world.goto id (.ended false)
  | .cleaning =>
    if attempt = Attempt.done then { world with scratch := false }.goto id (.running role .sealing)
    else world.goto id (.ended false)
  | .sealing =>
    match attempt with
    | .done => { world with record := some .terminal }.goto id (.ended (role = Role.reconcile))
    | .failed => world.goto id (.ended false)
    | .failedLate => { world with record := some .terminal }.goto id (.ended false)
  | _ => world

/-- A phase that a supervisor alone goes through. -/
def Phase.supervising : Phase -> Bool
  | .checkPath => true
  | .checkGroup => true
  | .writing => true
  | .makeScratch => true
  | .makeGroup => true
  | .limits => true
  | .forking => true
  | .popen => true
  | .relaying => true
  | .reaping => true
  | _ => false

inductive Event (Id : Type) where
  | start (id : Id) (role : Role)
  | advance (id : Id) (attempt : Attempt)
  | kill (id : Id)
  | childJoins (id : Id)
  | childExecutes (id : Id)
  | childDies (id : Id)
  | memberForks
  | memberExits (member : Option Id)

def step (world : World Id) : Event Id -> World Id
  | .start id role => if world.invocation id = .idle then world.goto id (.running role .locking) else world
  | .advance id attempt =>
    match world.invocation id with
    | .running role phase =>
      if phase.supervising then superviseStep world id attempt phase else sharedStep world id role attempt phase
    | _ => world
  | .kill id =>
    match world.invocation id with
    | .running _ _ => world.goto id (.ended false)
    | _ => world
  | .childJoins id =>
    if world.child id = .forked ∧ world.group then { world with members := some id :: world.members }.become id .joined
    else world
  | .childExecutes id => if world.child id = .joined then world.become id .executing else world
  | .childDies id => if world.child id = .forked then world.become id .dead else world
  | .memberForks => if world.members.isEmpty then world else { world with members := none :: world.members }
  | .memberExits member =>
    if member ∈ world.members then
      match member with
      | some id => { world with members := world.members.erase (some id) }.become id .dead
      | none => { world with members := world.members.erase none }
    else world

/-- Every interleaving of any number of invocations. -/
def machine : Machine (World Id) (Event Id) where
  step := step

end Key

end ResourceSupervisor
end FixLoop
