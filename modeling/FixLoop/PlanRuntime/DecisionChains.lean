import FixLoop.Library.Fallible
import FixLoop.PlanRuntime.Decisions

namespace FixLoop
namespace PlanRuntime

open Library
open Fallible (bind_ok map_ok)

/-!
# Chains of decisions

What the validator asks of one record, what the producing calls put into a
record, and when the one meets the other.
-/

theorem raiseIf_bind_ok {Result : Type} {condition : Prop} [Decidable condition] {fault : Fault}
    {next : Unit -> Except Fault Result} {result : Result} :
    (raiseIf condition fault >>= next) = .ok result <-> ¬ condition ∧ next () = .ok result := by
  by_cases holds : condition
  · rw [raiseIf, if_pos holds]
    exact ⟨fun failed => (by cases failed), fun both => absurd holds both.1⟩
  · rw [raiseIf, if_neg holds]
    exact ⟨fun returned => ⟨holds, returned⟩, fun both => both.2⟩

theorem isOneOf_ok {first second : String} {value : Json} :
    isOneOf [first, second] value = .ok true <-> value = .str first ∨ value = .str second := by
  cases value with
  | str name =>
    rw [isOneOf, Except.ok.injEq, decide_eq_true_iff, List.mem_pair, Json.str.injEq, Json.str.injEq]
  | _ => simp [isOneOf]

theorem isOneOf_bind_ok {Result : Type} {first second : String} {value : Json} {fault : Fault}
    {next : Unit -> Except Fault Result} {result : Result} :
    (isOneOf [first, second] value >>= fun known => raiseIf (known = false) fault >>= next) =
        .ok result <->
      (value = .str first ∨ value = .str second) ∧ next () = .ok result := by
  rw [<- isOneOf_ok]
  cases isOneOf [first, second] value with
  | error fault => exact ⟨fun failed => (by cases failed), fun both => (by cases both.1)⟩
  | ok known =>
    change (raiseIf (known = false) fault >>= next) = .ok result <-> _
    rw [raiseIf_bind_ok, Bool.not_eq_false, Except.ok.injEq]

/-- A decision stays with the node, the plan and the kind of source of the
revision before it, and its plan version does not go back. -/
structure SameScope (previous record : Record) : Prop where
  node : (previous.get "node_id").same (record.get "node_id") = true
  plan : (previous.get "plan_id").same (record.get "plan_id") = true
  version : previous.number "plan_version" ≤ record.number "plan_version"
  kind : (sourceKind previous).same (sourceKind record) = true

structure AdmissibleDecision (previous : Option Record) (key : String) (record : Record) : Prop where
  revision : isInt (nextRevision previous) (record.get "revision") = true
  supersedes : (record.get "supersedes_ref").same (supersedes (decisionRef key) previous) = true
  status : record.get "status" = .str "active" ∨ record.get "status" = .str "revoked"
  started : ¬ ((record.get "status").same (.str "revoked") = true ∧ previous.isNone)
  unrevoked : wasRevoked previous = false
  named : ["statement", "source", "node_id", "plan_id"].all
    (fun name => notBlank (record.get name)) = true
  rationale : isText (record.get "rationale") = true
  version : isVersion (record.get "plan_version") = true
  evidence : evidenceFits (sourceKind record) (record.get "evidence_refs")
    (record.get "evidence_checksums") = true
  kind : sourceKind record = .str "user" ∨ sourceKind record = .str "technical"
  sourced : ¬ ((sourceKind record).same (.str "user") = true ∧
    (record.get "source_refs").truthy = false)
  scope : ∀ before, previous = some before -> SameScope before record

variable {record : Record} {history records : List Record}

theorem checkScope_ok {previous : Option Record} {result : Unit} :
    checkScope previous record = .ok result <->
      ∀ before, previous = some before -> SameScope before record := by
  cases previous with
  | none => exact ⟨fun _ _ impossible => (by cases impossible), fun _ => rfl⟩
  | some before =>
    constructor
    · intro passed other same
      cases same
      have unmoved := raiseIf_ok passed
      simp only [not_or, Bool.not_eq_false, not_lt] at unmoved
      exact ⟨unmoved.1, unmoved.2.1, unmoved.2.2.1, unmoved.2.2.2⟩
    · intro scope
      have unmoved := scope before rfl
      refine if_neg ?_
      simp only [not_or, Bool.not_eq_false, not_lt]
      exact ⟨unmoved.node, unmoved.plan, unmoved.version, unmoved.kind⟩

theorem checkDecision_ok {previous : Option Record} {key : String} {result : Unit} :
    checkDecision previous key record = .ok result <-> AdmissibleDecision previous key record := by
  simp only [checkDecision, raiseIf_bind_ok, isOneOf_bind_ok, Bool.not_eq_false, checkScope_ok]
  constructor
  · rintro ⟨revision, names, status, started, unrevoked, named, rationale, version, evidence, kind,
      sourced, scope⟩
    exact ⟨revision, names, status, started, by simpa using unrevoked, named, rationale, version,
      evidence, kind, sourced, scope⟩
  · rintro ⟨revision, names, status, started, unrevoked, named, rationale, version, evidence, kind,
      sourced, scope⟩
    exact ⟨revision, names, status, started, by simpa using unrevoked, named, rationale, version,
      evidence, kind, sourced, scope⟩

theorem decisionId_of_get {key : String} (named : record.get "decision_id" = .str key) :
    decisionId record = key := by
  rw [decisionId, Record.text, named]
  rfl

theorem isInt_get {expected : Int} (read : isInt expected (record.get "revision") = true) :
    revision record = expected := by
  rw [revision, Record.number]
  cases value : record.get "revision" with
  | int number =>
    rw [value] at read
    exact eq_of_beq read
  | _ => rw [value] at read; cases read

theorem decisionId_superseded (record : Record) : decisionId (superseded record) = decisionId record := by
  rw [decisionId, superseded, Record.text, Record.get_set_ne (by decide)]
  rfl

theorem revision_superseded (record : Record) : revision (superseded record) = revision record := by
  rw [revision, superseded, Record.number, Record.get_set_ne (by decide)]
  rfl

/-- The checks of a validator make a record a follower of its history. -/
theorem follows_of_next {keyOf : Record -> String}
    (next : revision record = nextRevision (Revisions.newest keyOf (keyOf record) history))
    (unrevoked : wasRevoked (Revisions.newest keyOf (keyOf record) history) = false) :
    Revisions.Follows keyOf revision revoked record history := by
  rw [Revisions.Follows]
  cases found : Revisions.newest keyOf (keyOf record) history with
  | none =>
    rw [found] at next
    exact next
  | some previous =>
    rw [found] at next unrevoked
    refine ⟨next, fun final => ?_⟩
    rw [revoked] at final
    rw [wasRevoked, Option.any_some, final] at unrevoked
    simp at unrevoked

/-! ## The history of accepted records -/

variable [Hashing]

structure Checked (history : List Record) (record : Record) : Prop where
  checksum : ((record.get? "checksum").getD (.str "")).same
    (.str (Hashing.digest (.obj (record.without "checksum")))) = true
  key : record.get "decision_id" = .str (decisionId record)
  named : decisionId record ≠ ""
  admissible : AdmissibleDecision (Revisions.newest decisionId (decisionId record) history)
    (decisionId record) record

def isDecision (record : Record) : Bool := (record.get "record_type").same (.str "decision")

/-- A record that is no decision leaves the history alone; a decision is
admitted exactly when it passes the checks. -/
theorem admitDecision_ok {after : List Record} :
    admitDecision history record = .ok after <->
      (isDecision record = false ∧ after = history) ∨
        (isDecision record = true ∧ Checked history record ∧
          after = Revisions.receive decisionId superseded record history) := by
  rw [admitDecision]
  by_cases other : (record.get "record_type").same (.str "decision") = false
  · rw [if_pos other, Except.ok.injEq]
    constructor
    · intro same
      exact Or.inl ⟨other, same.symm⟩
    · rintro (⟨_, same⟩ | ⟨decision, _⟩)
      · exact same.symm
      · rw [isDecision, other] at decision
        cases decision
  · rw [if_neg other, raiseIf_bind_ok, Bool.not_eq_false]
    have decision : isDecision record = true := Bool.of_not_eq_false other
    constructor
    · rintro ⟨checksum, admitted⟩
      cases named : record.get "decision_id" with
      | str key =>
        rw [named] at admitted
        rcases raiseIf_bind_ok.mp admitted with ⟨nonempty, checked⟩
        rcases bind_ok checked with ⟨_, passed, same⟩
        have here := decisionId_of_get named
        subst here
        exact Or.inr ⟨decision, ⟨checksum, named, nonempty, checkDecision_ok.mp passed⟩,
          (Except.ok.inj same).symm⟩
      | _ => rw [named] at admitted; cases admitted
    · rintro (⟨skipped, _⟩ | ⟨_, checked, same⟩)
      · rw [skipped] at decision
        cases decision
      · refine ⟨checked.checksum, ?_⟩
        rw [checked.key]
        refine raiseIf_bind_ok.mpr ⟨checked.named, ?_⟩
        have passed : checkDecision _ _ record = .ok () := checkDecision_ok.mpr checked.admissible
        rw [passed, same]
        rfl

theorem decisionsOf_concat {after : List Record} :
    decisionsOf (records ++ [record]) = .ok after <->
      ∃ history, decisionsOf records = .ok history ∧ admitDecision history record = .ok after := by
  rw [decisionsOf, List.foldlM_append]
  constructor
  · intro returned
    rcases bind_ok returned with ⟨history, first, second⟩
    rcases bind_ok second with ⟨_, admitted, same⟩
    cases same
    exact ⟨history, first, admitted⟩
  · rintro ⟨history, first, admitted⟩
    rw [decisionsOf] at first
    rw [first]
    change (admitDecision history record >>= fun after => pure after) = _
    rw [admitted]
    rfl

/-- The records are accepted by `decision_history`. -/
def Accepted (records : List Record) : Prop :=
  ∃ history, decisionHistory records = .ok history

theorem accepted_iff : Accepted records <-> ∃ history, decisionsOf records = .ok history := by
  constructor
  · rintro ⟨_, returned⟩
    rcases map_ok returned with ⟨history, kept, _⟩
    exact ⟨history, kept⟩
  · rintro ⟨history, kept⟩
    exact ⟨history.reverse, by rw [decisionHistory, kept]; rfl⟩

theorem Checked.revision (checked : Checked history record) :
    revision record = nextRevision (Revisions.newest decisionId (decisionId record) history) :=
  isInt_get checked.admissible.revision

theorem Checked.follows (checked : Checked history record) :
    Revisions.Follows decisionId PlanRuntime.revision revoked record history :=
  follows_of_next checked.revision checked.admissible.unrevoked

/-- The history of accepted records is built by admitting the decisions
among them one after another. -/
theorem decisionsOf_admitted (accepted : decisionsOf records = .ok history) :
    Revisions.Admitted decisionId superseded PlanRuntime.revision revoked
      (records.filter isDecision) history := by
  induction records using List.reverseRecOn generalizing history with
  | nil =>
    cases accepted
    exact .none
  | append_singleton records record ih =>
    rcases decisionsOf_concat.mp accepted with ⟨before, first, admitted⟩
    rw [List.filter_append]
    rcases admitDecision_ok.mp admitted with ⟨skipped, same⟩ | ⟨decision, checked, same⟩
    · subst same
      rw [List.filter_cons_of_neg (by rw [skipped]; exact Bool.false_ne_true), List.filter_nil,
        List.append_nil]
      exact ih first
    · subst same
      rw [List.filter_cons_of_pos decision, List.filter_nil]
      exact .more (ih first) checked.follows

omit [Hashing] in
theorem isDecision_superseded (record : Record) (decision : isDecision record = true) :
    isDecision (superseded record) = true := by
  rw [isDecision, superseded, Record.get_set_ne (by decide)]
  exact decision

theorem isDecision_of_mem (accepted : decisionsOf records = .ok history) (member : record ∈ history) :
    isDecision record = true :=
  (decisionsOf_admitted accepted).all isDecision_superseded
    (fun _ listed => (List.mem_filter.mp listed).2) record member

/-- A decision is accepted at the end exactly when it passes the checks. -/
theorem accepted_concat (read : decisionsOf records = .ok history) (decision : isDecision record = true) :
    Accepted (records ++ [record]) <-> Checked history record := by
  rw [accepted_iff]
  constructor
  · rintro ⟨after, returned⟩
    rcases decisionsOf_concat.mp returned with ⟨before, first, admitted⟩
    rw [read] at first
    cases first
    rcases admitDecision_ok.mp admitted with ⟨skipped, _⟩ | ⟨_, checked, _⟩
    · rw [skipped] at decision
      cases decision
    · exact checked
  · intro checked
    exact ⟨_, decisionsOf_concat.mpr
      ⟨history, read, admitDecision_ok.mpr (Or.inr ⟨decision, checked, rfl⟩)⟩⟩

end PlanRuntime
end FixLoop
