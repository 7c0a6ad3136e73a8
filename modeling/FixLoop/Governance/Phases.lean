import Mathlib.Data.Rat.Defs
import FixLoop.Library.Machine
import FixLoop.Library.Recent

namespace FixLoop
namespace Governance

open Library

/-!
# Phases and statuses of a repair

The phase of a repair moves along a table, its status is set at will.  Both
leave entries in one history, of which the last hundred are kept.
-/

inductive RepairPhase where
  | intent
  | seed
  | localize
  | context
  | patch
  | verify
  | recovery
  | done
  | failed
deriving DecidableEq

namespace RepairPhase

def all : List RepairPhase := [intent, seed, localize, context, patch, verify, recovery, done, failed]

def value : RepairPhase -> String
  | intent => "intent"
  | seed => "seed"
  | localize => "localize"
  | context => "context"
  | patch => "patch"
  | verify => "verify"
  | recovery => "recovery"
  | done => "done"
  | failed => "failed"

/-- The phase with this value, if there is one. -/
def ofValue? (value : String) : Option RepairPhase := all.find? fun phase => phase.value == value

end RepairPhase

inductive RepairStatus where
  | pending
  | waitingApproval
  | pendingVerify
  | fixed
  | failed
  | exhausted
  | timeout
  | userCancel
  | recoveryRequired
  | regression
deriving DecidableEq

namespace RepairStatus

def all : List RepairStatus :=
  [pending, waitingApproval, pendingVerify, fixed, failed, exhausted, timeout, userCancel, recoveryRequired, regression]

def value : RepairStatus -> String
  | pending => "pending"
  | waitingApproval => "waiting_approval"
  | pendingVerify => "pending_verify"
  | fixed => "fixed"
  | failed => "failed"
  | exhausted => "exhausted"
  | timeout => "timeout"
  | userCancel => "user_cancel"
  | recoveryRequired => "recovery_required"
  | regression => "regression"

def ofValue? (value : String) : Option RepairStatus := all.find? fun status => status.value == value

end RepairStatus

/-- `_ALLOWED.get(phase, set())`. -/
def allowedFrom : String -> List String
  | "" => ["intent", "seed", "localize", "context", "patch", "verify", "recovery"]
  | "intent" => ["context", "localize", "patch", "recovery"]
  | "seed" => ["localize", "context", "patch", "verify", "recovery"]
  | "localize" => ["seed", "context", "patch", "verify", "recovery", "failed"]
  | "context" => ["seed", "localize", "patch", "verify", "recovery", "failed"]
  | "patch" => ["verify", "patch", "recovery", "done", "failed"]
  | "verify" => ["patch", "verify", "recovery", "done", "failed"]
  | "recovery" => ["seed", "patch", "verify", "context", "done", "failed"]
  | _ => []

structure PhaseTransition where
  fromPhase : String
  toPhase : String
  revision : Int
  reason : String := ""
  time : ℚ := 0
  valid : Bool := true
  actor : String := "runtime"
  correlationId : String := ""

/-- An entry of `phase_history`: what `set_status` appends, or a transition,
which alone has the key `to_phase`. -/
inductive HistoryEntry where
  | status (fromStatus toStatus reason : String) (revision : Int)
  | transition (transition : PhaseTransition)

def HistoryEntry.isTransition : HistoryEntry -> Bool
  | .status .. => false
  | .transition _ => true

structure RepairPhaseFSM where
  phase : String
  revision : Int
  history : List HistoryEntry

/-- What a transition is asked for with. -/
structure Target where
  toPhase : String
  reason : String := ""
  allowRecovery : Bool := false
  actor : String := "runtime"
  correlationId : String := ""
  time : ℚ

namespace RepairPhaseFSM

/-- The move is in the table, or it is a recovery that is allowed anyway. -/
def allows (fsm : RepairPhaseFSM) (target : Target) : Bool :=
  (allowedFrom fsm.phase).contains target.toPhase || (target.allowRecovery && target.toPhase == "recovery")

def transition (fsm : RepairPhaseFSM) (target : Target) : RepairPhaseFSM × PhaseTransition :=
  match RepairPhase.ofValue? target.toPhase with
  | none =>
    let attempt : PhaseTransition :=
      { fromPhase := fsm.phase
        toPhase := target.toPhase
        revision := fsm.revision
        reason := "unknown_phase"
        time := target.time
        valid := false
        actor := target.actor
        correlationId := target.correlationId }
    ({ fsm with history := fsm.history ++ [.transition attempt] }, attempt)
  | some _ =>
    let attempt : PhaseTransition :=
      { fromPhase := fsm.phase
        toPhase := target.toPhase
        revision := fsm.revision + 1
        reason := target.reason
        time := target.time
        valid := fsm.allows target
        actor := target.actor
        correlationId := target.correlationId }
    ({ phase := if fsm.allows target then target.toPhase else fsm.phase
       revision := if fsm.allows target then fsm.revision + 1 else fsm.revision
       history := (fsm.history ++ [HistoryEntry.transition attempt]).rtake 100 }, attempt)

end RepairPhaseFSM

/-- The fields of a repair state that its phases and statuses concern;
`phaseRevision` is the one of `execution`, `phaseFsm` the snapshot among the
node timings. -/
structure RepairState where
  phase : RepairPhase := .localize
  status : RepairStatus := .pending
  stateRevision : Int := 0
  phaseRevision : Int := 0
  phaseHistory : List HistoryEntry := []
  phaseFsm : Option RepairPhaseFSM := none

namespace RepairState

/-- A status that does not exist is refused with a `ValueError`. -/
def setStatus (state : RepairState) (status reason : String) : RepairState :=
  match RepairStatus.ofValue? status with
  | none => state
  | some normalized =>
    if state.status = normalized then state
    else
      { state with
        status := normalized
        stateRevision := state.stateRevision + 1
        phaseHistory := (state.phaseHistory ++
          [HistoryEntry.status state.status.value normalized.value reason (state.stateRevision + 1)]).rtake 100 }

/-- `RepairPhaseFSM.from_state`. -/
def fsm (state : RepairState) : RepairPhaseFSM where
  phase := state.phase.value
  revision := state.phaseRevision
  history := state.phaseHistory.filter HistoryEntry.isTransition

/-- `RepairPhaseFSM.apply`, which `transition_phase` calls. -/
def transitionPhase (state : RepairState) (target : Target) : RepairState :=
  let moved := state.fsm.transition target
  { state with
    phase := if moved.2.valid then (RepairPhase.ofValue? moved.2.toPhase).getD state.phase else state.phase
    stateRevision := if moved.2.valid then max state.stateRevision moved.2.revision else state.stateRevision
    phaseHistory := moved.1.history
    phaseRevision := moved.1.revision
    phaseFsm := some moved.1 }

end RepairState

inductive Call where
  | setStatus (status reason : String)
  | transitionPhase (target : Target)

def machine : Machine RepairState Call where
  step state
    | .setStatus status reason => state.setStatus status reason
    | .transitionPhase target => state.transitionPhase target

/-- What a call has to leave in the history: a change of the status, or any
attempt to move to a phase. -/
def entryOf (state : RepairState) : Call -> List HistoryEntry
  | .setStatus status reason =>
    match RepairStatus.ofValue? status with
    | none => []
    | some normalized =>
      if state.status = normalized then []
      else [.status state.status.value normalized.value reason (state.stateRevision + 1)]
  | .transitionPhase target => [.transition (state.fsm.transition target).2]

/-- What the calls of a run have to leave, in their order. -/
def recorded (state : RepairState) : List Call -> List HistoryEntry
  | [] => []
  | call :: rest => entryOf state call ++ recorded (machine.step state call) rest

end Governance
end FixLoop
