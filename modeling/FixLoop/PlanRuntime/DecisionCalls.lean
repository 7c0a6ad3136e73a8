import FixLoop.PlanRuntime.DecisionChains

namespace FixLoop
namespace PlanRuntime

open Library
open Fallible (bind_ok map_ok)

/-!
# What the decision calls append

`new_decision` does not ask the validator about the record it returns.  The
record passes exactly when the call meets the conditions that the validator
checks and the call does not.  `revoked_decision` does ask.
-/

variable {value : Json} {given : List Json} {evidence : Evidence} {history : List Record}
  {args : DecisionArgs} {previous : Option Record}

theorem isReference_iff : isReference value = true <-> ∃ ref, value = .str ref ∧ ref ≠ "" := by
  cases value with
  | str ref =>
    change (ref != "") = true <-> _
    rw [bne_iff_ne]
    exact ⟨fun nonempty => ⟨ref, rfl, nonempty⟩, by rintro ⟨_, same, nonempty⟩; cases same; exact nonempty⟩
  | _ => simp [isReference]

theorem mem_distinctRefs {ref : String} : ref ∈ distinctRefs given <-> .str ref ∈ given := by
  rw [distinctRefs, List.mem_eraseDups, List.mem_filterMap]
  constructor
  · rintro ⟨value, member, read⟩
    cases value with
    | str other => cases read; exact member
    | _ => cases read
  · intro member
    exact ⟨_, member, rfl⟩

theorem checksumEntry_ok {ref : String} {entry : String × Json} :
    checksumEntry evidence ref = .ok entry <->
      entry.1 = ref ∧ (evidence ref).recordChecksum = some entry.2 := by
  rcases entry with ⟨name, checksum⟩
  rw [checksumEntry]
  cases (evidence ref).recordChecksum with
  | none => simp
  | some other => simp [Prod.ext_iff, eq_comm]

/-- The dictionary of checksums has one entry for each reference. -/
theorem checksums_ok {refs : List String} {entries : Record}
    (returned : refs.mapM (checksumEntry evidence) = .ok entries) :
    (∀ entry ∈ entries, entry.1 ∈ refs ∧ (evidence entry.1).recordChecksum = some entry.2) ∧
      ∀ ref ∈ refs, ∃ entry ∈ entries, entry.1 = ref := by
  induction refs generalizing entries with
  | nil =>
    cases returned
    exact ⟨fun _ member => absurd member List.not_mem_nil, fun _ member => absurd member List.not_mem_nil⟩
  | cons ref refs ih =>
    rw [List.mapM_cons] at returned
    rcases bind_ok returned with ⟨entry, first, returned⟩
    rcases bind_ok returned with ⟨others, rest, same⟩
    cases same
    rcases ih rest with ⟨sound, complete⟩
    rcases checksumEntry_ok.mp first with ⟨named, checksum⟩
    constructor
    · intro other member
      rcases List.mem_cons.mp member with here | later
      · subst here
        exact ⟨by rw [named]; exact List.mem_cons_self, by rw [named]; exact checksum⟩
      · exact ⟨List.mem_cons_of_mem _ (sound other later).1, (sound other later).2⟩
    · intro other member
      rcases List.mem_cons.mp member with here | later
      · exact ⟨entry, List.mem_cons_self, named.trans here.symm⟩
      · rcases complete other later with ⟨found, listed, same⟩
        exact ⟨found, List.mem_cons_of_mem _ listed, same⟩

/-- What is left to check of the references of a new decision. -/
theorem evidenceFits_iff {kind : Json} {entries : Record} (references : given.all isReference = true)
    (enough : kind.same (.str "user") = true ∨ given ≠ [])
    (returned : (distinctRefs given).mapM (checksumEntry evidence) = .ok entries) :
    evidenceFits kind (texts (distinctRefs given)) (.obj entries) = true <->
      ∀ ref, .str ref ∈ given -> ∀ checksum, (evidence ref).recordChecksum = some checksum ->
        isChecksum checksum = true := by
  rcases checksums_ok returned with ⟨sound, complete⟩
  have nonempty : (kind.same (.str "user") || !((distinctRefs given).map Json.str).isEmpty) = true := by
    rw [Bool.or_eq_true]
    refine enough.imp id fun some => ?_
    rcases List.exists_mem_of_ne_nil _ some with ⟨value, member⟩
    rcases isReference_iff.mp (List.all_eq_true.mp references value member) with ⟨ref, same, _⟩
    subst same
    have listed := List.mem_map_of_mem (f := Json.str) (mem_distinctRefs.mpr member)
    cases shape : (distinctRefs given).map Json.str with
    | nil => rw [shape] at listed; exact absurd listed List.not_mem_nil
    | cons _ _ => rfl
  have allReferences : ((distinctRefs given).map Json.str).all isReference = true := by
    refine List.all_eq_true.mpr fun value member => ?_
    rcases List.mem_map.mp member with ⟨ref, listed, same⟩
    subst same
    exact List.all_eq_true.mp references _ (mem_distinctRefs.mp listed)
  have keysListed : entries.all
      (fun entry => ((distinctRefs given).map Json.str).any fun ref => ref.same (.str entry.1)) = true := by
    refine List.all_eq_true.mpr fun entry member => List.any_eq_true.mpr ⟨.str entry.1, ?_, ?_⟩
    · exact List.mem_map_of_mem (sound entry member).1
    · rw [Json.same_str, beq_self_eq_true]
  have refsKeyed : ((distinctRefs given).map Json.str).all
      (fun ref => entries.any fun entry => ref.same (.str entry.1)) = true := by
    refine List.all_eq_true.mpr fun value member => ?_
    rcases List.mem_map.mp member with ⟨ref, listed, same⟩
    rcases complete ref listed with ⟨entry, found, named⟩
    subst same
    exact List.any_eq_true.mpr ⟨entry, found, by rw [Json.same_str, named, beq_self_eq_true]⟩
  change ((_ && _ && _ && _ && _) = true) <-> _
  rw [nonempty, allReferences, keysListed, refsKeyed, Bool.true_and, Bool.true_and, Bool.true_and,
    Bool.true_and, List.all_eq_true]
  constructor
  · intro checked ref member checksum inspected
    rcases complete ref (mem_distinctRefs.mpr member) with ⟨entry, found, named⟩
    have held := (sound entry found).2
    rw [named, inspected] at held
    cases held
    exact checked entry found
  · intro fits entry member
    exact fits entry.1 (mem_distinctRefs.mp (sound entry member).1) entry.2 (sound entry member).2

/-! ## What an accepted call has checked -/

/-- The record that a call follows: none for a new identifier, otherwise the
newest one under the identifier, with the expected revision. -/
inductive Follows (history : List Record) (args : DecisionArgs) : Option Record -> Prop where
  | fresh : args.decisionId = .null -> args.expectedRevision = .null -> Follows history args none
  | next {key : String} {expected : Int} {previous : Record} :
      args.decisionId = .str key -> args.expectedRevision = .int expected -> key ≠ "" ->
      Revisions.newest decisionId key history = some previous -> revision previous = expected ->
      Follows history args (some previous)

theorem Follows.key_ne_empty {key : String} (follows : Follows history args previous)
    (given : args.decisionId = .str key) : key ≠ "" := by
  cases follows with
  | fresh none _ => rw [none] at given; cases given
  | next other _ nonempty _ _ =>
    rw [given] at other
    cases other
    exact nonempty

theorem Follows.none_of_fresh (follows : Follows history args previous) (fresh : args.decisionId = .null) :
    previous = none := by
  cases follows with
  | fresh _ _ => rfl
  | next given _ _ _ _ => rw [given] at fresh; cases fresh

/-- A record that is followed is the newest one under the given identifier. -/
theorem Follows.newest (follows : Follows history args previous)
    (fresh : args.decisionId = .null -> Revisions.newest decisionId (generatedId "decision" args.uuid) history = none) :
    Revisions.newest decisionId (keyOfCall args.decisionId "decision" args.uuid) history = previous := by
  cases follows with
  | fresh none _ =>
    have missing := fresh none
    rw [none]
    exact missing
  | next given _ nonempty found _ =>
    rw [given, keyOfCall_str nonempty]
    exact found

theorem previousDecision_ok
    (returned : previousDecision history args.decisionId args.expectedRevision = .ok previous) :
    Follows history args previous := by
  revert returned
  unfold previousDecision
  split
  · next fresh none =>
      intro returned
      cases returned
      exact .fresh fresh none
  · next key expected given number =>
      intro returned
      rcases raiseIf_bind_ok.mp returned with ⟨possible, returned⟩
      rw [not_or] at possible
      cases found : Revisions.newest decisionId key history with
      | none =>
        rw [found] at returned
        cases returned
      | some entry =>
        rw [found] at returned
        rcases raiseIf_bind_ok.mp returned with ⟨same, returned⟩
        cases returned
        exact .next given number possible.1 found (Decidable.not_not.mp same)
  · intro impossible
    cases impossible

structure ContentChecked (args : DecisionArgs) (given : List Json) : Prop where
  refs : args.evidenceRefs = .arr given
  statement : notBlank args.statement = true
  source : notBlank args.source = true
  rationale : isText args.rationale = true
  enough : args.sourceKind.same (.str "user") = true ∨ given ≠ []
  kind : args.sourceKind = .str "user" ∨ args.sourceKind = .str "technical"
  sourced : ¬ (args.sourceKind.same (.str "user") = true ∧ args.sourceRefs.truthy = false)
  references : given.all isReference = true

theorem checkContent_ok (returned : checkContent args = .ok given) : ContentChecked args given := by
  rw [checkContent] at returned
  rcases raiseIf_bind_ok.mp returned with ⟨texts, returned⟩
  simp only [not_or, Bool.not_eq_false] at texts
  cases refs : args.evidenceRefs with
  | arr items =>
    simp only [refs, raiseIf_bind_ok, isOneOf_bind_ok] at returned
    rcases returned with ⟨enough, kind, sourced, references, returned⟩
    cases returned
    refine ⟨refs, texts.1, texts.2.1, texts.2.2, ?_, kind, sourced, Bool.of_not_eq_false references⟩
    by_cases user : args.sourceKind.same (.str "user") = true
    · exact Or.inl user
    · exact Or.inr fun empty => enough ⟨Bool.eq_false_of_not_eq_true user, empty⟩
  | _ => rw [refs] at returned; cases returned

/-- What every accepted call of `new_decision` has found. -/
structure NewDecision [Hashing] (records : List Record) (plan : Plan) (evidence : Evidence)
    (args : DecisionArgs) (record : Record) where
  history : List Record
  previous : Option Record
  given : List Json
  checksums : Record
  sourceRefs : List Json
  read : decisionsOf records = .ok history
  onePlan : ∀ entry ∈ Revisions.latest decisionId history,
    (entry.get "plan_id").same (.str plan.planId) = true
  follows : Follows history args previous
  scope : ∀ before, previous = some before ->
    (before.get "node_id").same args.nodeId = true ∧ (sourceKind before).same args.sourceKind = true ∧
      (before.get "status").same (.str "revoked") = false
  content : ContentChecked args given
  listed : listOf args.sourceRefs = .ok sourceRefs
  inspected : (distinctRefs given).mapM (checksumEntry evidence) = .ok checksums
  made : record = sealed (decisionBody plan args previous (distinctRefs given) checksums sourceRefs)

theorem newDecision_ok [Hashing] {records : List Record} {plan : Plan} {record : Record}
    (returned : newDecision records plan evidence args = .ok record) :
    Nonempty (NewDecision records plan evidence args record) := by
  rcases bind_ok returned with ⟨history, read, returned⟩
  rcases raiseIf_bind_ok.mp returned with ⟨onePlan, returned⟩
  rcases bind_ok returned with ⟨previous, follows, returned⟩
  rcases raiseIf_bind_ok.mp returned with ⟨scope, returned⟩
  rcases bind_ok returned with ⟨given, content, returned⟩
  rcases raiseIf_bind_ok.mp returned with ⟨_, returned⟩
  rcases bind_ok returned with ⟨sourceRefs, listed, returned⟩
  rcases bind_ok returned with ⟨checksums, inspected, returned⟩
  cases returned
  refine ⟨⟨history, previous, given, checksums, sourceRefs, read, ?_, previousDecision_ok follows, ?_,
    checkContent_ok content, listed, inspected, rfl⟩⟩
  · intro entry member
    by_contra other
    refine onePlan (List.any_eq_true.mpr ⟨entry, member, ?_⟩)
    rw [Bool.eq_false_of_not_eq_true other]
    rfl
  · intro before same
    subst same
    rw [Option.any_some, Bool.not_eq_true, Bool.or_eq_false_iff, Bool.or_eq_false_iff,
      Bool.not_eq_false', Bool.not_eq_false'] at scope
    exact ⟨scope.1.1, scope.1.2, scope.2⟩

/-! ## When the validator accepts the new record -/

/-- What the validator asks of a new decision and `new_decision` does not:
a node and a plan that are not blank, a plan version that does not go back,
checksums of 64 characters and a new identifier that is new. -/
structure Fits [Hashing] (records : List Record) (plan : Plan) (evidence : Evidence)
    (args : DecisionArgs) : Prop where
  node : notBlank args.nodeId = true
  planNamed : notBlank (.str plan.planId) = true
  version : ∀ history, decisionsOf records = .ok history ->
    ∀ key previous, args.decisionId = .str key ->
      Revisions.newest decisionId key history = some previous ->
      previous.number "plan_version" ≤ plan.planVersion
  checksums : ∀ given ref, args.evidenceRefs = .arr given -> .str ref ∈ given ->
    ∀ checksum, (evidence ref).recordChecksum = some checksum -> isChecksum checksum = true
  fresh : args.decisionId = .null -> ∀ history, decisionsOf records = .ok history ->
    Revisions.newest decisionId (generatedId "decision" args.uuid) history = none

theorem same_supersedes (key : String) (previous : Option Record) :
    (supersedes (decisionRef key) previous).same (supersedes (decisionRef key) previous) = true := by
  cases previous with
  | none => rfl
  | some entry => simp [supersedes, decisionRef, Json.same, Json.sameMembers, Json.number?]

/-- Only the missing record is superseded by no reference. -/
theorem previous_none_of_same {key : String}
    (same : Json.null.same (supersedes (decisionRef key) previous) = true) : previous = none := by
  cases previous with
  | none => rfl
  | some entry => simp [supersedes, decisionRef, Json.same, Json.number?] at same

theorem isInt_self (number : Int) : isInt number (.int number) = true := beq_self_eq_true number

theorem same_str_right {text : String} (same : value.same (.str text) = true) : value = .str text := by
  cases value with
  | str other => rw [Json.same_str] at same; rw [eq_of_beq same]
  | _ => simp [Json.same, Json.number?] at same

theorem truthy_of_listOf_nil (empty : listOf value = .ok []) : value.truthy = false := by
  cases value with
  | arr items => cases empty; rfl
  | str text =>
    have none := List.map_eq_nil_iff.mp (Except.ok.inj empty)
    rw [Json.truthy, String.toList_eq_nil_iff.mp none]
    rfl
  | obj members =>
    rw [List.map_eq_nil_iff.mp (Except.ok.inj empty)]
    rfl
  | null => rfl
  | _ => cases empty

section

variable [Hashing] {records : List Record} {plan : Plan} {evidence : Evidence} {args : DecisionArgs}
  {record : Record}

theorem NewDecision.decisionId_eq (call : NewDecision records plan evidence args record) :
    decisionId record = keyOfCall args.decisionId "decision" args.uuid := by
  rw [call.made]
  rfl

theorem NewDecision.isDecision (call : NewDecision records plan evidence args record) :
    isDecision record = true := by
  rw [call.made]
  exact (Json.same_str _ _).trans (beq_self_eq_true _)

theorem NewDecision.sourceKind_eq (call : NewDecision records plan evidence args record) :
    sourceKind record = args.sourceKind := by
  rw [call.made]
  rfl

theorem NewDecision.key_ne_empty (call : NewDecision records plan evidence args record) :
    decisionId record ≠ "" := by
  rw [call.decisionId_eq]
  cases given : args.decisionId with
  | str key =>
    rw [keyOfCall_str (call.follows.key_ne_empty given)]
    exact call.follows.key_ne_empty given
  | _ => exact generatedId_ne_empty _ _

variable (call : NewDecision records plan evidence args record)

theorem NewDecision.newest_of_fresh
    (fresh : args.decisionId = .null -> Revisions.newest decisionId (generatedId "decision" args.uuid) call.history = none) :
    Revisions.newest decisionId (decisionId record) call.history = call.previous := by
  rw [call.decisionId_eq]
  exact call.follows.newest fresh

/-- The new record carries its own digest. -/
theorem NewDecision.checksum (call : NewDecision records plan evidence args record) :
    ((record.get? "checksum").getD (.str "")).same
      (.str (Hashing.digest (.obj (record.without "checksum")))) = true := by
  rw [call.made]
  exact (Json.same_str _ _).trans (beq_self_eq_true _)

/-- The record of an accepted call passes the checks of the validator exactly
when the call fits. -/
theorem NewDecision.checked_iff (version : 1 ≤ plan.planVersion) :
    Checked call.history record <-> Fits records plan evidence args := by
  have only {history : List Record} (read : decisionsOf records = .ok history) : history = call.history :=
    Except.ok.inj (read.symm.trans call.read)
  have content := call.content
  have made := call.made
  have field (name : String) : record.get name = (sealed (decisionBody plan args call.previous
      (distinctRefs call.given) call.checksums call.sourceRefs)).get name :=
    congrArg (Record.get name) made
  constructor
  · intro checked
    have admissible := checked.admissible
    have named := List.all_eq_true.mp admissible.named
    refine ⟨?_, ?_, ?_, ?_, ?_⟩
    · have node := named "node_id" (by simp)
      rw [made] at node
      exact node
    · have planId := named "plan_id" (by simp)
      rw [made] at planId
      exact planId
    · intro history read key previous given found
      rw [only read] at found
      rw [call.decisionId_eq, given, keyOfCall_str (call.follows.key_ne_empty given)] at admissible
      have forward := (admissible.scope previous found).version
      rw [made] at forward
      exact forward
    · intro given ref refs member checksum inspected
      have fits := admissible.evidence
      have same : given = call.given := Json.arr.inj (refs.symm.trans content.refs)
      rw [call.sourceKind_eq, made] at fits
      exact (evidenceFits_iff content.references content.enough call.inspected).mp fits ref
        (same ▸ member) checksum inspected
    · intro fresh history read
      rw [only read]
      have previous := call.follows.none_of_fresh fresh
      have names := admissible.supersedes
      rw [call.decisionId_eq, fresh] at names
      have unnamed : record.get "supersedes_ref" = .null := by
        rw [made, previous]
        rfl
      rw [unnamed] at names
      exact previous_none_of_same names
  · intro fits
    have newest := call.newest_of_fresh fun none => fits.fresh none _ call.read
    refine ⟨call.checksum, by rw [field, call.decisionId_eq]; rfl, call.key_ne_empty, ?_⟩
    rw [newest]
    refine ⟨?_, ?_, ?_, ?_, ?_, ?_, ?_, ?_, ?_, ?_, ?_, ?_⟩
    · rw [field]
      exact isInt_self _
    · rw [call.decisionId_eq, field]
      exact same_supersedes _ _
    · rw [field]
      exact Or.inl rfl
    · rintro ⟨withdrawn, _⟩
      rw [field] at withdrawn
      exact absurd (Json.str.inj (same_str_right withdrawn)) (by decide)
    · cases same : call.previous with
      | none => rfl
      | some before => exact (call.scope before same).2.2
    · refine List.all_eq_true.mpr fun name member => ?_
      rw [field]
      simp only [List.mem_cons, List.not_mem_nil, or_false] at member
      rcases member with rfl | rfl | rfl | rfl
      · exact content.statement
      · exact content.source
      · exact fits.node
      · exact fits.planNamed
    · rw [field]
      exact content.rationale
    · rw [field]
      exact decide_eq_true version
    · rw [call.sourceKind_eq, field, field]
      exact (evidenceFits_iff content.references content.enough call.inspected).mpr
        (fun ref member => fits.checksums call.given ref content.refs member)
    · rw [call.sourceKind_eq]
      exact content.kind
    · rintro ⟨user, unsourced⟩
      rw [call.sourceKind_eq] at user
      refine content.sourced ⟨user, ?_⟩
      have items := call.listed
      have empty : call.sourceRefs = [] := by
        rw [field] at unsourced
        cases shape : call.sourceRefs with
        | nil => rfl
        | cons first rest =>
          rw [shape] at unsourced
          cases unsourced
      rw [empty] at items
      exact truthy_of_listOf_nil items
    · intro before same
      have scope := call.scope before same
      have found : Revisions.newest decisionId (decisionId record) call.history = some before :=
        newest.trans same
      refine ⟨?_, ?_, ?_, ?_⟩
      · rw [field]
        exact scope.1
      · rw [field]
        exact call.onePlan before (Revisions.mem_latest decisionId found)
      · have follows := call.follows
        rw [same] at follows
        cases follows with
        | next given _ _ known _ =>
          rw [Record.number, Record.number, field]
          exact fits.version _ call.read _ _ given known
      · rw [call.sourceKind_eq]
        exact scope.2.1

/-! ## Revocations -/

/-- What every accepted call of `revoked_decision` has found; the validator
has accepted the record. -/
structure Revocation [Hashing] (records : List Record) (plan : Plan) (args : RevokeArgs)
    (record : Record) where
  history : List Record
  key : String
  expected : Int
  previous : Record
  read : decisionsOf records = .ok history
  given : args.decisionId = .str key
  number : args.expectedRevision = .int expected
  found : Revisions.newest decisionId key history = some previous
  current : revision previous = expected
  made : record = sealed (revocationBody plan args key previous)
  accepted : Accepted (records ++ [record])

omit [Hashing] in
theorem activeDecision_ok {history : List Record} {args : RevokeArgs} {planId key : String}
    {previous : Record} (returned : activeDecision history args planId = .ok (key, previous)) :
    ∃ expected, args.decisionId = .str key ∧ args.expectedRevision = .int expected ∧
      Revisions.newest decisionId key history = some previous ∧ revision previous = expected := by
  revert returned
  unfold activeDecision
  split
  · next name expected given number =>
      intro returned
      cases found : Revisions.newest decisionId name history with
      | none =>
        rw [found] at returned
        cases returned
      | some entry =>
        rw [found] at returned
        rcases raiseIf_bind_ok.mp returned with ⟨current, returned⟩
        rw [not_or, not_or, Decidable.not_not] at current
        cases returned
        exact ⟨expected, given, number, found, current.2.1⟩
  · intro impossible
    cases impossible

theorem revokedDecision_ok {args : RevokeArgs}
    (returned : revokedDecision records plan args = .ok record) :
    Nonempty (Revocation records plan args record) := by
  rcases bind_ok returned with ⟨history, read, returned⟩
  rcases bind_ok returned with ⟨⟨key, previous⟩, active, returned⟩
  rcases bind_ok returned with ⟨after, accepted, returned⟩
  cases returned
  rcases activeDecision_ok active with ⟨expected, given, number, found, current⟩
  exact ⟨⟨history, key, expected, previous, read, given, number, found, current, rfl, ⟨after, accepted⟩⟩⟩

/-- A revocation changes five members and the checksum. -/
theorem get_revocation (args : RevokeArgs) (key : String) (previous : Record) {name : String}
    (kept : name ∉ ["revision", "status", "plan_version", "source_refs", "supersedes_ref", "checksum"]) :
    (sealed (revocationBody plan args key previous)).get name = previous.get name := by
  simp only [List.mem_cons, List.not_mem_nil, or_false, not_or] at kept
  rcases kept with ⟨revision, status, version, sources, names, checksum⟩
  rw [sealed, Record.get, Record.get?_append, revocationBody, Record.get?_without_ne checksum,
    Record.get?_set_ne names, Record.get?_set_ne sources, Record.get?_set_ne version,
    Record.get?_set_ne status, Record.get?_set_ne revision, Record.get?_cons, if_neg (Ne.symm checksum)]
  exact congrArg (fun found => Option.getD found Json.null) Option.or_none

theorem get_revision_revocation (args : RevokeArgs) (key : String) (previous : Record) :
    (sealed (revocationBody plan args key previous)).get "revision" = .int (revision previous + 1) := by
  rw [sealed, Record.get, Record.get?_append, revocationBody, Record.get?_without_ne (by decide),
    Record.get?_set_ne (by decide), Record.get?_set_ne (by decide), Record.get?_set_ne (by decide),
    Record.get?_set_ne (by decide), Record.get?_set_self]
  rfl

theorem Revocation.decisionId_eq {args : RevokeArgs} (call : Revocation records plan args record) :
    decisionId record = call.key := by
  have kept := (congrArg (Record.get "decision_id") call.made).trans
    (get_revocation args call.key call.previous (by decide))
  rw [decisionId, Record.text, kept]
  exact Revisions.keyOf_newest decisionId call.found

theorem Revocation.isDecision {args : RevokeArgs} (call : Revocation records plan args record) :
    isDecision record = true := by
  have kept := (congrArg (Record.get "record_type") call.made).trans
    (get_revocation args call.key call.previous (by decide))
  rw [PlanRuntime.isDecision, kept]
  exact isDecision_of_mem call.read (Revisions.mem_of_newest decisionId call.found)

end

end PlanRuntime
end FixLoop
