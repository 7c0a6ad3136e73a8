import FixLoop.PlanRuntime.ConstraintRecords
import FixLoop.PlanRuntime.DecisionCalls
import FixLoop.PlanRuntime.Status

namespace FixLoop
namespace PlanRuntime

open Library
open Fallible (bind_ok map_ok)

/-!
# Histories that the producing calls build

A task appends what the calls return.  The history of constraints stays
accepted in every run.  The history of decisions stays accepted exactly as
long as every accepted `new_decision` fits.
-/

section Producers

variable [Hashing]

/-! ## Calls that append a decision -/

/-- A plan that `validate_plan` has accepted. -/
structure CheckedPlan [Decoding] where
  plan : Plan
  registry : Registry
  identity : Identity
  valid : validatePlan plan registry identity = .ok ()

inductive DecisionCall [Decoding] where
  | new (plan : CheckedPlan) (evidence : Evidence) (args : DecisionArgs)
  | revoke (plan : CheckedPlan) (args : RevokeArgs)

variable [Decoding]

namespace DecisionCall

def perform (records : List Record) : DecisionCall -> Except Fault Record
  | new plan evidence args => newDecision records plan.plan evidence args
  | revoke plan args => revokedDecision records plan.plan args

/-- The call names the record it follows. -/
def Targets (key : String) (expected : Int) : DecisionCall -> Prop
  | new _ _ args => args.decisionId = .str key ∧ args.expectedRevision = .int expected
  | revoke _ args => args.decisionId = .str key ∧ args.expectedRevision = .int expected

/-- An accepted `new_decision` fits. -/
def KeepsChain (records : List Record) : DecisionCall -> Prop
  | new plan evidence args =>
    (newDecision records plan.plan evidence args).isOk = true -> Fits records plan.plan evidence args
  | revoke _ _ => True

end DecisionCall

/-- The task appends the record that a call returns. -/
def decisions : Machine (List Record) DecisionCall where
  step records call :=
    match call.perform records with
    | .ok record => records ++ [record]
    | .error _ => records

section

variable {records : List Record} {call : DecisionCall}

theorem step_of_ok {record : Record} (returned : call.perform records = .ok record) :
    decisions.step records call = records ++ [record] := by
  simp only [decisions, returned]

theorem step_of_error {fault : Fault} (failed : call.perform records = .error fault) :
    decisions.step records call = records := by
  simp only [decisions, failed]

end

variable {records : List Record}

/-- An accepted history stays accepted over a call exactly when the call keeps
the chain. -/
theorem accepted_step (accepted : Accepted records) (call : DecisionCall) :
    Accepted (decisions.step records call) <-> call.KeepsChain records := by
  cases returned : call.perform records with
  | error fault =>
    rw [step_of_error returned]
    refine ⟨fun _ => ?_, fun _ => accepted⟩
    cases call with
    | new plan evidence args =>
      change newDecision records plan.plan evidence args = _ at returned
      rw [DecisionCall.KeepsChain, returned]
      exact fun impossible => by cases impossible
    | revoke plan args => exact True.intro
  | ok record =>
    rw [step_of_ok returned]
    cases call with
    | new plan evidence args =>
      change newDecision records plan.plan evidence args = _ at returned
      rcases newDecision_ok returned with ⟨made⟩
      rw [accepted_concat made.read made.isDecision,
        made.checked_iff (validatePlan_ok plan.valid).version, DecisionCall.KeepsChain, returned]
      exact ⟨fun fits _ => fits, fun fits => fits rfl⟩
    | revoke plan args =>
      rcases revokedDecision_ok returned with ⟨made⟩
      exact ⟨fun _ => True.intro, fun _ => made.accepted⟩

/-- What an accepted call that names a record has found, and what it returns. -/
theorem perform_targets {call : DecisionCall} {key : String} {expected : Int} {record : Record}
    (targets : call.Targets key expected) (returned : call.perform records = .ok record) :
    isDecision record = true ∧ decisionId record = key ∧
      isInt (expected + 1) (record.get "revision") = true ∧
      ∃ history previous, decisionsOf records = .ok history ∧
        Revisions.newest decisionId key history = some previous ∧ revision previous = expected := by
  cases call with
  | new plan evidence args =>
    rcases newDecision_ok returned with ⟨made⟩
    have follows := made.follows
    cases previous : made.previous with
    | none =>
      rw [previous] at follows
      cases follows with
      | fresh none _ => rw [targets.1] at none; cases none
    | some before =>
      rw [previous] at follows
      cases follows with
      | next given number nonempty found current =>
        rw [targets.1] at given
        rw [targets.2] at number
        cases given
        cases number
        refine ⟨made.isDecision, ?_, ?_, made.history, before, made.read, found, current⟩
        · rw [made.decisionId_eq, targets.1, keyOfCall_str nonempty]
        · rw [congrArg (Record.get "revision") made.made, previous, <- current]
          exact isInt_self _
  | revoke plan args =>
    rcases revokedDecision_ok returned with ⟨made⟩
    have given := made.given
    have number := made.number
    rw [targets.1] at given
    rw [targets.2] at number
    cases number
    have same : key = made.key := Json.str.inj given
    subst same
    refine ⟨made.isDecision, made.decisionId_eq, ?_, made.history, made.previous, made.read, made.found,
      made.current⟩
    rw [congrArg (Record.get "revision") made.made, get_revision_revocation, made.current]
    exact isInt_self _

/-- Of two accepted calls that name the same record, the second one's record
does not fit behind the first one's, and the second call is refused there. -/
theorem decision_conflict {first second : DecisionCall} {key : String} {expected : Int} {one other : Record}
    (firstTargets : first.Targets key expected) (secondTargets : second.Targets key expected)
    (firstReturned : first.perform records = .ok one) (secondReturned : second.perform records = .ok other)
    (appended : Accepted (records ++ [one])) :
    ¬ Accepted (records ++ [one] ++ [other]) ∧
      ∀ again, second.perform (records ++ [one]) ≠ .ok again := by
  rcases perform_targets firstTargets firstReturned with ⟨decision, named, number, history, previous, read,
    _, _⟩
  rcases perform_targets secondTargets secondReturned with ⟨otherDecision, otherNamed, otherNumber, _⟩
  have checked := (accepted_concat read decision).mp appended
  have after : decisionsOf (records ++ [one]) = .ok (Revisions.receive decisionId superseded one history) :=
    decisionsOf_concat.mpr ⟨history, read, admitDecision_ok.mpr (Or.inr ⟨decision, checked, rfl⟩)⟩
  have newest : Revisions.newest decisionId key (Revisions.receive decisionId superseded one history) =
      some one := by
    rw [<- named]
    exact Revisions.newest_receive decisionId superseded one history
  have current : revision one = expected + 1 := isInt_get number
  constructor
  · intro both
    have next := ((accepted_concat after otherDecision).mp both).revision
    rw [otherNamed, newest, isInt_get otherNumber, nextRevision, current] at next
    omega
  · intro again returned
    rcases perform_targets secondTargets returned with ⟨_, _, _, _, found, reread, held, same⟩
    rw [after] at reread
    cases reread
    rw [newest] at held
    cases held
    omega

/-! ## Histories of any run -/

/-- The task appends the record that a call of `new_constraint` returns. -/
def constraints : Machine (List Record) ConstraintArgs where
  step records args :=
    match newConstraint records args with
    | .ok record => records ++ [record]
    | .error _ => records

omit [Decoding] in
theorem constraintsAccepted_step (accepted : ConstraintsAccepted records) (args : ConstraintArgs) :
    ConstraintsAccepted (constraints.step records args) := by
  cases returned : newConstraint records args with
  | error fault =>
    simp only [constraints, returned]
    exact accepted
  | ok record =>
    simp only [constraints, returned]
    rcases newConstraint_ok returned with ⟨made⟩
    exact made.accepted

/-- An accepted history shows the decisions among its records. -/
structure DecisionsOrdered (records history : List Record) (key : String) : Prop where
  ordered : Revisions.Ordered superseded revision revoked
    (Revisions.under decisionId key (records.filter isDecision))
    (Revisions.under decisionId key history.reverse)

structure ConstraintsOrdered (records history : List Record) (key : String) : Prop where
  ordered : Revisions.Ordered superseded revision revoked (Revisions.under constraintId key records)
    (Revisions.under constraintId key history.reverse)

omit [Decoding] in
theorem decisionsOrdered {history : List Record} (accepted : decisionHistory records = .ok history)
    (key : String) : DecisionsOrdered records history key := by
  rcases map_ok accepted with ⟨shown, read, same⟩
  subst same
  refine ⟨?_⟩
  rw [List.reverse_reverse]
  exact (decisionsOf_admitted read).ordered decisionId_superseded revision_superseded key

omit [Decoding] in
theorem constraintsOrdered {history : List Record} (accepted : constraintHistory records = .ok history)
    (key : String) : ConstraintsOrdered records history key := by
  rcases map_ok accepted with ⟨shown, read, same⟩
  subst same
  refine ⟨?_⟩
  rw [List.reverse_reverse]
  exact (constraintsOf_admitted read).ordered constraintId_superseded revision_superseded key

/-- From an accepted history of decisions, the runs that keep it accepted are
exactly those in which every accepted `new_decision` fits; every run keeps a
history of constraints accepted.  Each identifier of an accepted history has
the revisions from one on, of which only the last is in force and only the
last may be a revocation, and of two calls that name the same record only one
can be appended. -/
theorem record_producers :
    (∀ (start : List Record) (calls : List DecisionCall), Accepted start ->
        (decisions.Visits Accepted start calls <->
          decisions.Along (fun records call => call.KeepsChain records) start calls)) ∧
      (∀ (start : List Record) (calls : List ConstraintArgs), ConstraintsAccepted start ->
        constraints.Visits ConstraintsAccepted start calls) ∧
      (∀ records history, decisionHistory records = .ok history ->
        ∀ key, DecisionsOrdered records history key) ∧
      (∀ records history, constraintHistory records = .ok history ->
        ∀ key, ConstraintsOrdered records history key) ∧
      (∀ (records : List Record) (first second : DecisionCall) (key : String) (expected : Int)
          (one other : Record), first.Targets key expected -> second.Targets key expected ->
        first.perform records = .ok one -> second.perform records = .ok other ->
        Accepted (records ++ [one]) ->
        ¬ Accepted (records ++ [one] ++ [other]) ∧
          ∀ again, second.perform (records ++ [one]) ≠ .ok again) ∧
      (∀ (records : List Record) (first second : ConstraintArgs) (key : String) (expected : Int)
          (one other : Record), first.Targets key expected -> second.Targets key expected ->
        newConstraint records first = .ok one -> newConstraint records second = .ok other ->
        ¬ ConstraintsAccepted (records ++ [one] ++ [other]) ∧
          ∀ again, newConstraint (records ++ [one]) second ≠ .ok again) := by
  refine ⟨?_, ?_, fun _ _ accepted key => decisionsOrdered accepted key,
    fun _ _ accepted key => constraintsOrdered accepted key, ?_, ?_⟩
  · intro start calls accepted
    exact @Machine.visits_iff_along _ _ decisions (fun _ => True) Accepted _ (fun _ _ _ => True.intro)
      (fun _ call _ kept => accepted_step kept call) start True.intro accepted calls
  · intro start calls accepted
    have always (records : List Record) (args : ConstraintArgs) (_ : True)
        (kept : ConstraintsAccepted records) :
        ConstraintsAccepted (constraints.step records args) <-> True :=
      iff_true_intro (constraintsAccepted_step kept args)
    exact (constraints.visits_iff_along (fun _ _ _ => True.intro) always True.intro accepted calls).mpr
      (constraints.along_trivial start calls)
  · intro records first second key expected one other firstTargets secondTargets firstReturned
      secondReturned appended
    exact decision_conflict firstTargets secondTargets firstReturned secondReturned appended
  · intro records first second key expected one other firstTargets secondTargets firstReturned
      secondReturned
    exact constraint_conflict firstTargets secondTargets firstReturned secondReturned

end Producers

section Blank

attribute [local instance] Hashing.constant Decoding.emptyDict

/-- The user's choice for a node, with nothing that the validator would refuse
but the name of the node. -/
def userChoice (nodeId : String) : DecisionArgs :=
  { statement := .str "keep", rationale := .str "", source := .str "user", evidenceRefs := .arr [],
    nodeId := .str nodeId, decisionId := .null, expectedRevision := .null, sourceKind := .str "user",
    sourceRefs := .arr [.str "message"], uuid := "1" }

def planOf (nodeId : String) : Plan := { twoReads with nodes := [readNode nodeId] }

def noEvidence : Evidence := fun _ => ⟨"invalid", none⟩

/-- A plan may call a node by a blank.  A decision for that node is returned
and then refused by the validator, and with it the history. -/
theorem record_producers_blank :
    validatePlan (planOf " ") readRegistry twoReads.identity = .ok () ∧ Accepted [] ∧
      ∃ record, newDecision [] (planOf " ") noEvidence (userChoice " ") = .ok record ∧
        ¬ Accepted [record] := by
  refine ⟨rfl, ⟨[], rfl⟩, ?_⟩
  have returns : (newDecision [] (planOf " ") noEvidence (userChoice " ")).isOk = true := by
    decide +kernel
  have refused : (newDecision [] (planOf " ") noEvidence (userChoice " ") >>= fun record =>
      decisionHistory [record]).isOk = false := by
    decide +kernel
  cases returned : newDecision [] (planOf " ") noEvidence (userChoice " ") with
  | error fault =>
    rw [returned] at returns
    cases returns
  | ok record =>
    refine ⟨record, rfl, ?_⟩
    rintro ⟨history, accepted⟩
    rw [returned] at refused
    change (decisionHistory [record]).isOk = false at refused
    rw [accepted] at refused
    cases refused

def checkedRead : CheckedPlan := ⟨planOf "a", readRegistry, twoReads.identity, rfl⟩

/-- A decision for a proper node and its revocation. -/
theorem record_producers_revoked :
    decisions.Visits Accepted [] [.new checkedRead noEvidence (userChoice "a"),
      .revoke checkedRead ⟨.str "decision-1", .int 1, .arr [.str "message"]⟩] := by
  refine (record_producers.1 [] _ ⟨[], rfl⟩).mpr ⟨fun _ => ?_, True.intro, True.intro⟩
  refine ⟨by decide +kernel, by decide +kernel, ?_, ?_, ?_⟩
  · intro history read key previous given
    cases given
  · intro given ref refs member
    cases refs
    cases member
  · intro _ history read
    cases read
    rfl

end Blank

end PlanRuntime
end FixLoop
