import FixLoop.PlanRuntime.DecisionChains

namespace FixLoop
namespace PlanRuntime

open Library
open Fallible (bind_ok map_ok)

/-!
# Explicit constraints

`constraint_records.py`: the validator of the append-only history of
constraints and the one call that produces the records to append.  The call
returns a record only after the validator has accepted it.
-/

/-! ## `constraint_history` -/

def constraintId (record : Record) : String := record.text "constraint_id"

/-- `{"constraint_id": key, "revision": revision}`. -/
def constraintRef (key : String) (revision : Int) : Json :=
  .obj [("constraint_id", .str key), ("revision", .int revision)]

/-- `isinstance(value, list) and value`. -/
def isFilledList : Json -> Bool
  | .arr items => !items.isEmpty
  | _ => false

def checkConstraint (previous : Option Record) (key : String) (record : Record) :
    Except Fault Unit := do
  raiseIf (isInt (nextRevision previous) (record.get "revision") = false) "constraint_chain_invalid"
  let known <- isOneOf ["active", "revoked"] (record.get "status")
  raiseIf (known = false) "constraint_chain_invalid"
  raiseIf ((record.get "status").same (.str "revoked") = true ∧ previous.isNone)
    "constraint_chain_invalid"
  raiseIf (wasRevoked previous = true) "constraint_chain_invalid"
  raiseIf (notBlank (record.get "statement") = false) "constraint_chain_invalid"
  let sourced <- isOneOf ["user", "runtime"] (record.get "source_kind")
  raiseIf (sourced = false) "constraint_chain_invalid"
  raiseIf (isFilledList (record.get "source_refs") = false) "constraint_chain_invalid"
  raiseIf ((record.get "supersedes_ref").same (supersedes (constraintRef key) previous) = false)
    "constraint_chain_invalid"

/-- One record of the history, which is kept newest first. -/
def admitConstraint [Hashing] (history : List Record) (record : Record) : Except Fault (List Record) := do
  raiseIf (((record.get? "checksum").getD (.str "")).same
    (.str (Hashing.digest (.obj (record.without "checksum")))) = false) "constraint_checksum_invalid"
  match record.get "constraint_id" with
  | .str key =>
    raiseIf (key = "") "constraint_chain_invalid"
    checkConstraint (Revisions.newest constraintId key history) key record
    return Revisions.receive constraintId superseded record history
  | _ => .error "constraint_chain_invalid"

/-- The history of the records, newest first. -/
def constraintsOf [Hashing] (records : List Record) : Except Fault (List Record) :=
  records.foldlM admitConstraint []

def constraintHistory [Hashing] (records : List Record) : Except Fault (List Record) :=
  (constraintsOf records).map List.reverse

/-! ## `new_constraint` -/

structure ConstraintArgs where
  action : Json
  sourceRefs : Json
  sourceKind : Json
  statement : Json
  constraintId : Json
  expectedRevision : Json
  /-- The hex digits that a new identifier would get. -/
  uuid : String

/-- `latest.get(constraint_id) if isinstance(constraint_id, str) else None`. -/
def namedConstraint (history : List Record) (given : Json) : Option Record :=
  match given with
  | .str key => Revisions.newest constraintId key history
  | _ => none

def isNull : Json -> Bool
  | .null => true
  | _ => false

/-- An addition names no earlier record; any other action names the active
record and its revision. -/
def checkRevision (args : ConstraintArgs) (previous : Option Record) : Except Fault Unit :=
  if args.action.same (.str "add") then
    raiseIf (isNull args.constraintId = false ∨ isNull args.expectedRevision = false)
      "constraint_revision_conflict"
  else
    match previous with
    | none => .error "constraint_revision_conflict"
    | some previous =>
      raiseIf ((previous.get "status").same (.str "active") = false ∨
          isInt (revision previous) args.expectedRevision = false)
        "constraint_revision_conflict"

/-- The record of a call before it gets its checksum. -/
def constraintBody (args : ConstraintArgs) (previous : Option Record) : Record :=
  let key := keyOfCall args.constraintId "constraint" args.uuid
  let revoking := args.action.same (.str "revoke")
  [("constraint_id", .str key), ("revision", .int (nextRevision previous)),
    ("status", .str (if revoking then "revoked" else "active")),
    ("statement", if revoking then (previous.map (Record.get "statement")).getD .null
      else args.statement),
    ("source_kind", args.sourceKind), ("source_refs", args.sourceRefs),
    ("supersedes_ref", supersedes (constraintRef key) previous)]

def newConstraint [Hashing] (records : List Record) (args : ConstraintArgs) : Except Fault Record := do
  let history <- constraintsOf records
  let previous := namedConstraint history args.constraintId
  let known <- isOneOf ["add", "replace", "revoke"] args.action
  raiseIf (known = false) "constraint_action_invalid"
  checkRevision args previous
  let record := sealed (constraintBody args previous)
  let _ <- constraintHistory (records ++ [record])
  return record

/-! ## The history of accepted records -/

section

variable [Hashing]

structure CheckedConstraint (history : List Record) (record : Record) : Prop where
  named : constraintId record ≠ ""
  revision : isInt (nextRevision (Revisions.newest constraintId (constraintId record) history))
    (record.get "revision") = true
  unrevoked : wasRevoked (Revisions.newest constraintId (constraintId record) history) = false
  status : record.get "status" = .str "active" ∨ record.get "status" = .str "revoked"

variable {record : Record} {key : String} {history records : List Record} {args : ConstraintArgs}
  {expected : Int}

omit [Hashing] in
theorem constraintId_of_get (named : record.get "constraint_id" = .str key) : constraintId record = key := by
  rw [constraintId, Record.text, named]
  rfl

theorem admitConstraint_ok {after : List Record} (admitted : admitConstraint history record = .ok after) :
    CheckedConstraint history record ∧ after = Revisions.receive constraintId superseded record history := by
  rcases raiseIf_bind_ok.mp admitted with ⟨_, admitted⟩
  cases named : record.get "constraint_id" with
  | str key =>
    rw [named] at admitted
    rcases raiseIf_bind_ok.mp admitted with ⟨nonempty, admitted⟩
    rcases bind_ok admitted with ⟨_, passed, same⟩
    have here := constraintId_of_get named
    subst here
    simp only [checkConstraint, raiseIf_bind_ok, isOneOf_bind_ok, Bool.not_eq_false] at passed
    rcases passed with ⟨revision, status, _, unrevoked, _⟩
    exact ⟨⟨nonempty, revision, Bool.eq_false_of_not_eq_true unrevoked, status⟩,
      (Except.ok.inj same).symm⟩
  | _ => rw [named] at admitted; cases admitted

theorem constraintsOf_concat {after : List Record} :
    constraintsOf (records ++ [record]) = .ok after <->
      ∃ history, constraintsOf records = .ok history ∧
        admitConstraint history record = .ok after := by
  rw [constraintsOf, List.foldlM_append]
  constructor
  · intro returned
    rcases bind_ok returned with ⟨history, first, second⟩
    rcases bind_ok second with ⟨_, admitted, same⟩
    cases same
    exact ⟨history, first, admitted⟩
  · rintro ⟨history, first, admitted⟩
    rw [constraintsOf] at first
    rw [first]
    change (admitConstraint history record >>= fun after => pure after) = _
    rw [admitted]
    rfl

/-- The records are accepted by `constraint_history`. -/
def ConstraintsAccepted (records : List Record) : Prop :=
  ∃ history, constraintHistory records = .ok history

theorem constraintsAccepted_iff :
    ConstraintsAccepted records <-> ∃ history, constraintsOf records = .ok history := by
  constructor
  · rintro ⟨_, returned⟩
    rcases map_ok returned with ⟨history, kept, _⟩
    exact ⟨history, kept⟩
  · rintro ⟨history, kept⟩
    exact ⟨history.reverse, by rw [constraintHistory, kept]; rfl⟩

omit [Hashing] in
theorem constraintId_superseded (record : Record) :
    constraintId (superseded record) = constraintId record := by
  rw [constraintId, superseded, Record.text, Record.get_set_ne (by decide)]
  rfl

omit [Hashing] in
theorem CheckedConstraint.follows (checked : CheckedConstraint history record) :
    Revisions.Follows constraintId PlanRuntime.revision revoked record history :=
  follows_of_next (isInt_get checked.revision) checked.unrevoked

theorem constraintsOf_admitted (accepted : constraintsOf records = .ok history) :
    Revisions.Admitted constraintId superseded PlanRuntime.revision revoked records history := by
  induction records using List.reverseRecOn generalizing history with
  | nil =>
    cases accepted
    exact .none
  | append_singleton records record ih =>
    rcases constraintsOf_concat.mp accepted with ⟨before, first, admitted⟩
    rcases admitConstraint_ok admitted with ⟨checked, same⟩
    subst same
    exact .more (ih first) checked.follows

/-! ## What an accepted call has found -/

structure NewConstraint (records : List Record) (args : ConstraintArgs) (record : Record) where
  history : List Record
  read : constraintsOf records = .ok history
  checked : checkRevision args (namedConstraint history args.constraintId) = .ok ()
  made : record = sealed (constraintBody args (namedConstraint history args.constraintId))
  accepted : ConstraintsAccepted (records ++ [record])

theorem newConstraint_ok (returned : newConstraint records args = .ok record) :
    Nonempty (NewConstraint records args record) := by
  rcases bind_ok returned with ⟨history, read, returned⟩
  rcases bind_ok returned with ⟨known, _, returned⟩
  rcases raiseIf_bind_ok.mp returned with ⟨_, returned⟩
  rcases bind_ok returned with ⟨_, checked, returned⟩
  rcases bind_ok returned with ⟨after, accepted, returned⟩
  cases returned
  exact ⟨⟨history, read, checked, rfl, ⟨after, accepted⟩⟩⟩

theorem accepted_constraint_concat (read : constraintsOf records = .ok history)
    (accepted : ConstraintsAccepted (records ++ [record])) :
    CheckedConstraint history record ∧
      constraintsOf (records ++ [record]) = .ok (Revisions.receive constraintId superseded record history) := by
  rcases constraintsAccepted_iff.mp accepted with ⟨after, returned⟩
  rcases constraintsOf_concat.mp returned with ⟨before, first, admitted⟩
  rw [read] at first
  cases first
  rcases admitConstraint_ok admitted with ⟨checked, same⟩
  rw [returned, same]
  exact ⟨checked, rfl⟩

/-- The call names the record it follows. -/
def ConstraintArgs.Targets (args : ConstraintArgs) (key : String) (expected : Int) : Prop :=
  args.constraintId = .str key ∧ args.expectedRevision = .int expected

theorem constraintsOf_named (accepted : constraintsOf records = .ok history) (member : record ∈ history) :
    constraintId record ≠ "" := by
  induction records using List.reverseRecOn generalizing history record with
  | nil =>
    cases accepted
    exact absurd member List.not_mem_nil
  | append_singleton records last ih =>
    rcases constraintsOf_concat.mp accepted with ⟨before, first, admitted⟩
    rcases admitConstraint_ok admitted with ⟨checked, same⟩
    subst same
    rcases List.mem_cons.mp member with here | older
    · rw [here]
      exact checked.named
    · rcases Revisions.mem_retireNewest older with kept | ⟨original, listed, same⟩
      · exact ih first kept
      · rw [same, constraintId_superseded]
        exact ih first listed

omit [Hashing] in
/-- A call that names a record names the newest one and its revision. -/
theorem checkRevision_ok {result : Unit} (targets : args.Targets key expected)
    (checked : checkRevision args (namedConstraint history args.constraintId) = .ok result) :
    ∃ previous, Revisions.newest constraintId key history = some previous ∧
      revision previous = expected := by
  unfold checkRevision at checked
  rw [targets.1, targets.2] at checked
  by_cases adds : args.action.same (.str "add") = true
  · rw [if_pos adds] at checked
    exact absurd (Or.inl rfl) (raiseIf_ok checked)
  · rw [if_neg adds, namedConstraint] at checked
    cases found : Revisions.newest constraintId key history with
    | none =>
      rw [found] at checked
      cases checked
    | some previous =>
      rw [found] at checked
      have passed := raiseIf_ok checked
      rw [not_or, Bool.not_eq_false, Bool.not_eq_false] at passed
      exact ⟨previous, rfl, (eq_of_beq passed.2).symm⟩

/-- What an accepted call that names a record has found, and what it returns. -/
theorem NewConstraint.targets (call : NewConstraint records args record)
    (targets : args.Targets key expected) :
    constraintId record = key ∧ isInt (expected + 1) (record.get "revision") = true ∧
      ∃ previous, Revisions.newest constraintId key call.history = some previous ∧
        revision previous = expected := by
  rcases checkRevision_ok targets call.checked with ⟨previous, found, current⟩
  have nonempty : key ≠ "" := by
    rw [<- Revisions.keyOf_newest constraintId found]
    exact constraintsOf_named call.read (Revisions.mem_of_newest constraintId found)
  have named : namedConstraint call.history args.constraintId = some previous := by
    rw [targets.1]
    exact found
  refine ⟨?_, ?_, previous, found, current⟩
  · rw [congrArg constraintId call.made]
    change keyOfCall args.constraintId "constraint" args.uuid = key
    rw [targets.1, keyOfCall_str nonempty]
  · rw [congrArg (Record.get "revision") call.made, named, <- current]
    exact beq_self_eq_true _

/-- Of two accepted calls that name the same record, the second one's record
does not fit behind the first one's, and the second call is refused there. -/
theorem constraint_conflict {first second : ConstraintArgs} {one other : Record}
    (firstTargets : first.Targets key expected) (secondTargets : second.Targets key expected)
    (firstReturned : newConstraint records first = .ok one)
    (secondReturned : newConstraint records second = .ok other) :
    ¬ ConstraintsAccepted (records ++ [one] ++ [other]) ∧
      ∀ again, newConstraint (records ++ [one]) second ≠ .ok again := by
  rcases newConstraint_ok firstReturned with ⟨made⟩
  rcases newConstraint_ok secondReturned with ⟨otherMade⟩
  rcases made.targets firstTargets with ⟨named, number, _⟩
  rcases otherMade.targets secondTargets with ⟨otherNamed, otherNumber, _⟩
  rcases accepted_constraint_concat made.read made.accepted with ⟨_, after⟩
  have newest : Revisions.newest constraintId key (Revisions.receive constraintId superseded one made.history) =
      some one := by
    rw [<- named]
    exact Revisions.newest_receive constraintId superseded one made.history
  have current : revision one = expected + 1 := isInt_get number
  constructor
  · intro both
    have next := isInt_get (accepted_constraint_concat after both).1.revision
    rw [otherNamed, newest, isInt_get otherNumber, nextRevision, current] at next
    omega
  · intro again returned
    rcases newConstraint_ok returned with ⟨repeated⟩
    rcases repeated.targets secondTargets with ⟨_, _, found, held, same⟩
    have read := repeated.read
    rw [after] at read
    rw [<- Except.ok.inj read, newest] at held
    cases held
    omega

end

end PlanRuntime
end FixLoop
