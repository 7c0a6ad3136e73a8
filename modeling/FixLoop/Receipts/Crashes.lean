import Mathlib.Data.List.Nodup
import FixLoop.Receipts.Journal

namespace FixLoop
namespace Receipts

open Library
open Durable (Fate Ending Program Triple ReadOnly raise look write handling)

/-!
# Crashes of the receipt journal

What holds of the journal wherever an operation stops.  A terminal transition
that stops between its two writes leaves a pair that does not match; without
such a stop every call that ended has its receipt.
-/

section Store

set_option linter.unusedSectionVars false

variable {Envelope Mutation Key : Type} [DecidableEq Envelope] [DecidableEq Mutation] [DecidableEq Key]

/-- The last record of a call. -/
def lastOf (history : List (Record Envelope Mutation Key)) (callId : Text) : Option (Record Envelope Mutation Key) :=
  history.find? fun record => decide (record.callId = callId)

/-- A result that is uncertain, or whose cleanup is confirmed. -/
def SandboxResult.Fine (result : SandboxResult) : Prop :=
  result.executionStatus = "uncertain" ∨ result.cleanup = "confirmed"

/-- What the journal never loses. -/
structure Sound (binding : Binding) (journal : Journal Envelope Mutation Key) : Prop where
  head : journal.registry = journal.history.head?
  past : ∀ callId record, lastOf journal.history callId = some record ->
    (∀ now, journal.registry = some now -> now.callId ≠ callId) ->
      record.stage = .terminal ∧ journal.receipts callId = some record
  unknown : ∀ callId, lastOf journal.history callId = none -> journal.receipts callId = none
  unfinished : ∀ now, journal.registry = some now -> now.stage ≠ .terminal -> journal.receipts now.callId = none
  named : ∀ callId record, journal.receipts callId = some record ->
    record.callId = callId ∧ record.stage = .terminal
  ordered : journal.history.Pairwise (fun newer older => older.sequence < newer.sequence ∨
    older.callId = newer.callId ∧ older.sequence = newer.sequence)
  plannedOnce : ((journal.history.filter fun record => decide (record.stage = .planned)).map Record.callId).Nodup
  valid : ∀ record ∈ journal.history, validCallId record.callId = true ∧ record.binding = binding
  fine : ∀ record ∈ journal.history, record.stage = .terminal ->
    ∃ result, record.result = some result ∧ result.Fine

/-- The registry and the receipt of a call that ended agree. -/
def Paired (journal : Journal Envelope Mutation Key) : Prop :=
  ∀ now, journal.registry = some now -> now.stage = .terminal -> journal.receipts now.callId = some now

theorem Sound.empty (binding : Binding) : Sound binding (Journal.empty : Journal Envelope Mutation Key) := by
  constructor <;> simp [Journal.empty, lastOf]

/-! ## Reading -/

theorem current_readOnly : ReadOnly (current : Act Envelope Mutation Key _) := by
  apply (ReadOnly.look Journal.registry).bind
  intro data
  split
  · exact ReadOnly.raise _
  · exact ReadOnly.pure _

variable (callId : Text) {record : Record Envelope Mutation Key}

theorem receipt_readOnly : ReadOnly (receipt callId : Act Envelope Mutation Key _) := ReadOnly.look _

theorem inspect_readOnly : ReadOnly (inspect callId : Act Envelope Mutation Key _) := by
  unfold inspect
  split
  · exact ReadOnly.raise _
  · apply current_readOnly.bind
    intro now
    apply (receipt_readOnly callId).bind
    intro saved
    split
    · split
      · split
        · exact ReadOnly.raise _
        · exact ReadOnly.pure _
      · split
        · exact ReadOnly.raise _
        · exact ReadOnly.pure _
    · split
      · exact ReadOnly.raise _
      · exact ReadOnly.pure _

theorem reopens_readOnly (record : Record Envelope Mutation Key) (ended : Ended Key) :
    ReadOnly (reopens callId record ended : Act Envelope Mutation Key Bool) := by
  unfold reopens
  split
  · exact (inspect_readOnly callId).bind fun _ => ReadOnly.pure _
  · exact ReadOnly.pure _

theorem reconcile_readOnly (policyDigest : Text) : ReadOnly (reconcile policyDigest : Act Envelope Mutation Key _) := by
  apply current_readOnly.bind
  intro data
  split
  · exact ReadOnly.pure _
  · split
    · exact ReadOnly.raise _
    · split
      · exact ReadOnly.raise _
      · apply (receipt_readOnly _).bind
        intro saved
        split
        · exact ReadOnly.raise _
        · split
          · exact ReadOnly.raise _
          · exact ReadOnly.pure _

variable {binding : Binding} {journal : Journal Envelope Mutation Key}

/-- The registry of a sound journal is read as it is. -/
theorem current_eq (sound : Sound binding journal) : current journal = (.returned journal.registry, journal) := by
  have allowed : journal.registry.any (fun record => !validCallId record.callId) = false := by
    cases now : journal.registry with
    | none => rfl
    | some record =>
      have member : record ∈ journal.history := by
        rw [sound.head] at now
        exact List.mem_of_mem_head? now
      simp only [Option.any_some, (sound.valid record member).1, Bool.not_true]
  simp only [current, Bind.bind, look, allowed, Bool.false_eq_true, if_false]
  rfl

theorem reconcile_paired (sound : Sound binding journal) {policyDigest : Text}
    {found : Option (Record Envelope Mutation Key)}
    (returned : reconcile policyDigest journal = (.returned found, journal)) :
    Paired journal ∧ ∀ now, journal.registry = some now -> now.stage = .terminal := by
  rcases Durable.bind_returned returned with ⟨data, middle, read, returned⟩
  rw [current_eq sound] at read
  cases read
  cases now : journal.registry with
  | none => exact ⟨fun _ some => (by rw [now] at some; cases some), fun _ some => (by cases some)⟩
  | some record =>
    rw [now] at returned
    dsimp only at returned
    split at returned
    · cases returned
    · split at returned
      · cases returned
      · next terminal =>
          rw [not_not] at terminal
          rcases Durable.bind_returned returned with ⟨saved, middle, read, returned⟩
          cases read
          split at returned
          · cases returned
          · next matched =>
              rw [not_not] at matched
              refine ⟨fun other same _ => ?_, fun other same => ?_⟩
              · rw [now] at same
                cases same
                exact matched
              · cases same
                exact terminal

/-! ## Writing -/

theorem lastOf_cons (record : Record Envelope Mutation Key) (rest : List (Record Envelope Mutation Key)) (callId : Text) :
    lastOf (record :: rest) callId = if record.callId = callId then some record else lastOf rest callId := by
  by_cases same : record.callId = callId <;> simp [lastOf, same]

variable {history : List (Record Envelope Mutation Key)} {ended : Ended Key} (native : Native Envelope Key)
  (execution : Execution Envelope Mutation Key)

theorem lastOf_mem {callId : Text} (last : lastOf history callId = some record) :
    record ∈ history ∧ record.callId = callId := by
  rw [lastOf, List.find?_eq_some_iff_append] at last
  rcases last with ⟨same, before, after, split, _⟩
  rw [split]
  exact ⟨List.mem_append_right before List.mem_cons_self, of_decide_eq_true same⟩

theorem lastOf_none {callId : Text} :
    lastOf history callId = none <-> ∀ record ∈ history, record.callId ≠ callId := by
  simp [lastOf]

namespace Sound

variable {now : Record Envelope Mutation Key}

theorem history_eq (sound : Sound binding journal) (current : journal.registry = some now) :
    ∃ rest, journal.history = now :: rest := by
  cases past : journal.history with
  | nil =>
    rw [sound.head, past] at current
    cases current
  | cons first rest =>
    rw [sound.head, past] at current
    cases current
    exact ⟨rest, rfl⟩

theorem lastOf_now (sound : Sound binding journal) (current : journal.registry = some now) :
    lastOf journal.history now.callId = some now := by
  rcases sound.history_eq current with ⟨rest, past⟩
  rw [past, lastOf_cons, if_pos rfl]

/-- No record is later than that of the registry. -/
theorem latest (sound : Sound binding journal) {older : Record Envelope Mutation Key}
    (current : journal.registry = some now) (member : older ∈ journal.history) :
    older.sequence < now.sequence ∨ older.callId = now.callId ∧ older.sequence = now.sequence := by
  rcases sound.history_eq current with ⟨rest, past⟩
  have ordered := sound.ordered
  rw [past] at ordered member
  rcases List.mem_cons.mp member with rfl | earlier
  · exact .inr ⟨rfl, rfl⟩
  · exact (List.pairwise_cons.mp ordered).1 older earlier

/-- The registry goes on with a later record of the same call. -/
theorem continues (sound : Sound binding journal) {record : Record Envelope Mutation Key}
    (current : journal.registry = some now) (callId : record.callId = now.callId)
    (sequence : record.sequence = now.sequence) (bound : record.binding = now.binding)
    (later : record.stage ≠ .planned) (ends : record.stage ≠ .terminal -> now.stage ≠ .terminal)
    (fine : record.stage = .terminal -> ∃ result, record.result = some result ∧ result.Fine) :
    Sound binding (saveRegistry record journal) := by
  have member : now ∈ journal.history := (lastOf_mem (sound.lastOf_now current)).1
  refine ⟨rfl, ?_, ?_, ?_, sound.named, ?_, ?_, ?_, ?_⟩
  · intro other last found apart
    have different : record.callId ≠ other := apart record rfl
    have before : lastOf journal.history other = some last := by
      rw [saveRegistry, lastOf_cons, if_neg different] at found
      exact found
    refine sound.past other last before fun known same => ?_
    rw [current] at same
    cases same
    rw [<- callId]
    exact different
  · intro other missing
    rw [saveRegistry, lastOf_cons] at missing
    split at missing
    · cases missing
    · exact sound.unknown other missing
  · intro known same open'
    cases same
    rw [callId]
    exact sound.unfinished now current (ends open')
  · refine List.pairwise_cons.mpr ⟨fun older earlier => ?_, sound.ordered⟩
    rw [callId, sequence]
    exact sound.latest current earlier
  · rw [saveRegistry, List.filter_cons_of_neg (by simpa using later)]
    exact sound.plannedOnce
  · intro other among
    rcases List.mem_cons.mp among with rfl | earlier
    · rw [callId, bound]
      exact sound.valid now member
    · exact sound.valid other earlier
  · intro other among
    rcases List.mem_cons.mp among with rfl | earlier
    · exact fine
    · exact sound.fine other earlier

/-- A new call, where the last one has its receipt. -/
theorem starts (sound : Sound binding journal) (paired : Paired journal)
    (over' : ∀ now, journal.registry = some now -> now.stage = .terminal) {callId : Text}
    (new : journal.receipts callId = none) (valid : validCallId callId = true) (envelope : Envelope) :
    Sound binding (saveRegistry ⟨callId, .planned, (journal.registry.map Record.sequence).getD 0 + 1, binding, envelope,
      [], none, false, none, none⟩ journal) := by
  -- Every known call has a receipt.
  have filed (other : Text) (record : Record Envelope Mutation Key) (last : lastOf journal.history other = some record) :
      record.stage = .terminal ∧ journal.receipts other = some record := by
    by_cases held : ∃ now, journal.registry = some now ∧ now.callId = other
    · rcases held with ⟨now, current, rfl⟩
      rw [sound.lastOf_now current] at last
      cases last
      exact ⟨over' _ current, paired _ current (over' _ current)⟩
    · exact sound.past other record last fun now current same => held ⟨now, current, same⟩
  have unknown : lastOf journal.history callId = none := by
    cases last : lastOf journal.history callId with
    | none => rfl
    | some record =>
      have there := (filed callId record last).2
      rw [new] at there
      cases there
  refine ⟨rfl, ?_, ?_, ?_, sound.named, ?_, ?_, ?_, ?_⟩
  · intro other last found apart
    have different : callId ≠ other := apart _ rfl
    rw [saveRegistry, lastOf_cons, if_neg different] at found
    exact filed other last found
  · intro other missing
    rw [saveRegistry, lastOf_cons] at missing
    split at missing
    · cases missing
    · exact sound.unknown other missing
  · intro known same _
    cases same
    exact new
  · refine List.pairwise_cons.mpr ⟨fun older earlier => .inl ?_, sound.ordered⟩
    cases current : journal.registry with
    | none =>
      rw [sound.head] at current
      rw [List.head?_eq_none_iff.mp current] at earlier
      cases earlier
    | some now =>
      rcases sound.latest current earlier with less | ⟨_, same⟩
      · exact Nat.lt_succ_of_lt less
      · exact Nat.lt_succ_of_le (Nat.le_of_eq same)
  · rw [saveRegistry, List.filter_cons_of_pos (by simp), List.map_cons, List.nodup_cons]
    refine ⟨fun member => ?_, sound.plannedOnce⟩
    rcases List.mem_map.mp member with ⟨record, listed, same⟩
    exact (lastOf_none.mp unknown) record (List.mem_of_mem_filter listed) same
  · intro other among
    rcases List.mem_cons.mp among with rfl | earlier
    · exact ⟨valid, rfl⟩
    · exact sound.valid other earlier
  · intro other among terminal
    rcases List.mem_cons.mp among with rfl | earlier
    · cases terminal
    · exact sound.fine other earlier terminal

end Sound

theorem saveReceipt_same (record : Record Envelope Mutation Key) (journal : Journal Envelope Mutation Key) :
    (saveReceipt record journal).receipts record.callId = some record := by
  simp only [saveReceipt, if_true]

theorem saveReceipt_other (record : Record Envelope Mutation Key) (journal : Journal Envelope Mutation Key)
    {callId : Text} (different : callId ≠ record.callId) :
    (saveReceipt record journal).receipts callId = journal.receipts callId := by
  simp only [saveReceipt, if_neg different]

namespace Sound

/-- The receipt of the call in the registry. -/
theorem files (sound : Sound binding journal) {now : Record Envelope Mutation Key}
    (current : journal.registry = some now) (terminal : now.stage = .terminal) :
    Sound binding (saveReceipt now journal) ∧ Paired (saveReceipt now journal) := by
  refine ⟨⟨sound.head, ?_, ?_, ?_, ?_, sound.ordered, sound.plannedOnce, sound.valid, sound.fine⟩, ?_⟩
  · intro other last found apart
    have different : other ≠ now.callId := (apart now current).symm
    rw [saveReceipt_other now journal different]
    exact sound.past other last found apart
  · intro other missing
    have different : other ≠ now.callId := by
      rintro rfl
      have known := sound.lastOf_now current
      rw [show journal.history = (saveReceipt now journal).history from rfl, missing] at known
      cases known
    rw [saveReceipt_other now journal different]
    exact sound.unknown other missing
  · intro known same open'
    have held : known = now := Option.some.inj (same.symm.trans current)
    rw [held] at open'
    exact absurd terminal open'
  · intro other record saved
    by_cases same : other = now.callId
    · rw [same, saveReceipt_same] at saved
      cases saved
      exact ⟨same.symm, terminal⟩
    · rw [saveReceipt_other now journal same] at saved
      exact sound.named other record saved
  · intro known same _
    have held : known = now := Option.some.inj (same.symm.trans current)
    rw [held]
    exact saveReceipt_same now journal

end Sound

/-! ## Operations that stop anywhere -/

/-- What holds of the journal whichever way an operation stopped; the pairing
where the writes of the terminal transitions were whole. -/
def Kept (binding : Binding) (whole : Prop) (journal : Journal Envelope Mutation Key) : Prop :=
  Sound binding journal ∧ (whole -> Paired journal)

/-- Nothing comes between the two writes: the first has no effect, or it
succeeds and the second takes effect. -/
def Fates.Whole (fates : Fates) : Prop := fates.registry.takes = true -> fates.registry = .done ∧ fates.receipt.takes = true

variable {whole : Prop}

theorem current_triple (whole : Prop) :
    Triple (Kept binding whole) (current : Act Envelope Mutation Key _)
      (fun now journal => Kept binding whole journal ∧ journal.registry = now) (Kept binding whole) := by
  intro journal kept
  rw [current_eq kept.1]
  exact ⟨kept, rfl⟩

/-- A record of a call that has not ended is not paired with anything. -/
theorem paired_open (open' : record.stage ≠ .terminal) : Paired (saveRegistry record journal) := by
  intro now same terminal
  cases same
  exact absurd terminal open'

theorem kept_open (sound : Sound binding (saveRegistry record journal)) (open' : record.stage ≠ .terminal) :
    Kept binding whole (saveRegistry record journal) :=
  ⟨sound, fun _ => paired_open open'⟩

/-- The write of a record of a call that has not ended. -/
theorem write_open {pre : Journal Envelope Mutation Key -> Prop} (fate : Fate)
    (kept : ∀ journal, pre journal -> Kept binding whole journal)
    (sound : ∀ journal, pre journal -> Sound binding (saveRegistry record journal))
    (open' : record.stage ≠ .terminal) :
    Triple pre (write Fault.os fate (saveRegistry record)) (fun _ => Kept binding whole) (Kept binding whole) :=
  Triple.write (fun _ journal holds => kept_open (sound journal holds) open') (fun _ => kept)
    (fun _ _ journal holds => kept_open (sound journal holds) open')

theorem plan_triple (envelope : Envelope) (fate : Fate) :
    Triple (fun journal : Journal Envelope Mutation Key => Sound binding journal ∧ Paired journal)
      (plan callId envelope binding fate) (fun _ => Kept binding whole) (Kept binding whole) := by
  have weaker (journal : Journal Envelope Mutation Key) (holds : Sound binding journal ∧ Paired journal) :
      Kept binding whole journal := ⟨holds.1, fun _ => holds.2⟩
  unfold plan
  split
  · exact (Triple.raise _ _ _).mono weaker (fun _ _ => id) fun _ => id
  · next valid =>
      rw [Bool.not_eq_true, Bool.not_eq_false'] at valid
      refine Triple.bind ((current_triple True).mono (fun journal holds => ⟨holds.1, fun _ => holds.2⟩)
        (fun _ _ => id) fun journal kept => ⟨kept.1, fun _ => kept.2 True.intro⟩) fun previous => ?_
      have kept (journal : Journal Envelope Mutation Key) (holds : Kept binding True journal ∧ journal.registry = previous) :
          Kept binding whole journal := ⟨holds.1.1, fun _ => holds.1.2 True.intro⟩
      split
      · exact (Triple.raise _ _ _).mono kept (fun _ _ => id) fun _ => id
      · next over' =>
          refine Triple.bind ((Triple.reads (receipt_readOnly callId) _).mono (fun _ => id) (fun _ _ => id) kept)
            (fun saved => ?_)
          split
          · exact (Triple.raise _ _ _).mono (fun journal holds => kept journal holds.1) (fun _ _ => id) fun _ => id
          · next new =>
              apply write_open fate (fun journal holds => kept journal holds.1) _ fun same => by cases same
              rintro journal ⟨⟨⟨sound, paired⟩, rfl⟩, read⟩
              refine sound.starts (paired True.intro) (fun now current => ?_) ?_ valid envelope
              · by_contra running
                rw [current] at over'
                exact over' (decide_eq_true running)
              · have found : journal.receipts callId = saved := by
                  cases read
                  rfl
                rw [found]
                exact Option.not_isSome_iff_eq_none.mp new

theorem begin_triple (fate : Fate) :
    Triple (Kept binding whole) (begin callId fate : Act Envelope Mutation Key Unit) (fun _ => Kept binding whole)
      (Kept binding whole) := by
  have kept (previous : Option (Record Envelope Mutation Key)) (journal : Journal Envelope Mutation Key)
      (holds : Kept binding whole journal ∧ journal.registry = previous) : Kept binding whole journal := holds.1
  unfold begin
  split
  · exact Triple.raise _ _ _
  · apply Triple.bind (current_triple whole)
    intro previous
    cases previous with
    | none => exact (Triple.raise _ _ _).mono (kept _) (fun _ _ => id) fun _ => id
    | some record =>
      dsimp only
      split
      · exact (Triple.raise _ _ _).mono (kept _) (fun _ _ => id) fun _ => id
      · split
        · exact (Triple.raise _ _ _).mono (kept _) (fun _ _ => id) fun _ => id
        · next planned =>
            rw [not_not] at planned
            apply write_open fate (kept _) _ fun same => by cases same
            intro journal holds
            exact holds.1.1.continues holds.2 rfl rfl rfl (fun same => by cases same)
              (fun _ terminal => by rw [planned] at terminal; cases terminal) fun same => by cases same

theorem recordMutation_triple (event : Mutation) (fate : Fate) :
    Triple (Kept binding whole) (recordMutation callId event fate : Act Envelope Mutation Key Unit)
      (fun _ => Kept binding whole) (Kept binding whole) := by
  have kept (previous : Option (Record Envelope Mutation Key)) (journal : Journal Envelope Mutation Key)
      (holds : Kept binding whole journal ∧ journal.registry = previous) : Kept binding whole journal := holds.1
  apply Triple.bind (current_triple whole)
  intro now
  cases now with
  | none => exact (Triple.raise _ _ _).mono (kept _) (fun _ _ => id) fun _ => id
  | some record =>
    dsimp only
    split
    · exact (Triple.raise _ _ _).mono (kept _) (fun _ _ => id) fun _ => id
    · next running =>
        rw [not_or, not_not, not_not] at running
        split
        · exact (Triple.raise _ _ _).mono (kept _) (fun _ _ => id) fun _ => id
        · have open' : record.stage ≠ .terminal := fun terminal => by
            rw [running.2] at terminal
            cases terminal
          refine write_open fate (kept (some record)) ?_ open'
          intro journal holds
          exact holds.1.1.continues holds.2 rfl rfl rfl (fun planned => by rw [running.2] at planned; cases planned)
            (fun _ => open') fun terminal => absurd terminal open'

theorem finish_writes (fine : ended.result.Fine) (fates : Fates) (paired : whole -> fates.Whole) :
    Triple (fun journal : Journal Envelope Mutation Key => Kept binding whole journal ∧ journal.registry = some record)
      (do write Fault.os fates.registry (saveRegistry (record.finished ended))
          write Fault.os fates.receipt (saveReceipt (record.finished ended)))
      (fun _ => Kept binding whole) (Kept binding whole) := by
  have soundly (journal : Journal Envelope Mutation Key)
      (holds : Kept binding whole journal ∧ journal.registry = some record) :
      Sound binding (saveRegistry (record.finished ended) journal) :=
    holds.1.1.continues holds.2 rfl rfl rfl (fun same => by cases same) (fun open' => absurd rfl open')
      (fun _ => ⟨ended.result, rfl, fine⟩)
  -- Between the two writes the pair does not match.
  have first : Triple
      (fun journal : Journal Envelope Mutation Key => Kept binding whole journal ∧ journal.registry = some record)
      (write Fault.os fates.registry (saveRegistry (record.finished ended)))
      (fun _ journal => fates.registry = .done ∧ Sound binding journal ∧
        journal.registry = some (record.finished ended)) (Kept binding whole) := by
    refine Triple.write ?_ (fun _ _ holds => holds.1) ?_
    · intro succeeded journal holds
      exact ⟨succeeded, soundly journal holds, rfl⟩
    · intro cut takes journal holds
      exact ⟨soundly journal holds, fun known => absurd (paired known takes).1 cut⟩
  have filed (journal : Journal Envelope Mutation Key) (sound : Sound binding journal)
      (current : journal.registry = some (record.finished ended)) :
      Kept binding whole (saveReceipt (record.finished ended) journal) :=
    ⟨(sound.files current rfl).1, fun _ => (sound.files current rfl).2⟩
  refine first.bind fun _ => Triple.write ?_ ?_ ?_
  · intro _ journal holds
    exact filed journal holds.2.1 holds.2.2
  · intro lost journal holds
    refine ⟨holds.2.1, fun known => ?_⟩
    have takes := (paired known (by rw [holds.1]; rfl)).2
    rw [lost] at takes
    cases takes
  · intro _ _ journal holds
    exact filed journal holds.2.1 holds.2.2

theorem finish_triple (fine : ended.result.Fine) (fates : Fates) (paired : whole -> fates.Whole) :
    Triple (Kept binding whole) (finish callId ended fates.registry fates.receipt : Act Envelope Mutation Key Unit)
      (fun _ => Kept binding whole) (Kept binding whole) := by
  have kept (previous : Option (Record Envelope Mutation Key)) (journal : Journal Envelope Mutation Key)
      (holds : Kept binding whole journal ∧ journal.registry = previous) : Kept binding whole journal := holds.1
  unfold finish
  split
  · exact Triple.raise _ _ _
  · apply Triple.bind (current_triple whole)
    intro previous
    cases previous with
    | none => exact (Triple.raise _ _ _).mono (kept _) (fun _ _ => id) fun _ => id
    | some record =>
      dsimp only
      split
      · exact (Triple.raise _ _ _).mono (kept _) (fun _ _ => id) fun _ => id
      · refine Triple.bind ((Triple.reads (reopens_readOnly callId record ended) _).mono (fun _ => id) (fun _ _ => id)
          (kept _)) fun allowed => ?_
        split
        · exact (finish_writes fine fates paired).mono (fun _ holds => holds.1) (fun _ _ => id) fun _ => id
        · exact (Triple.raise _ _ _).mono (fun journal holds => kept _ journal holds.1) (fun _ _ => id) fun _ => id

theorem recordAll_triple (events : List (Mutation × Fate)) :
    Triple (Kept binding whole) (recordAll callId events : Act Envelope Mutation Key Unit) (fun _ => Kept binding whole)
      (Kept binding whole) := by
  induction events with
  | nil => exact Triple.pure () (fun _ => Kept binding whole) _
  | cons event rest ih =>
    exact ((recordMutation_triple callId event.1 event.2).handling
      (fun _ => Triple.pure () (fun _ => Kept binding whole) _)).bind fun _ => ih

/-! ## The backend -/

theorem recoveredResult_fine (mutations : Bool) : (recoveredResult mutations).Fine := by
  cases mutations
  · exact .inr rfl
  · exact .inl rfl

theorem executionResult_fine (conclusion : Conclusion) (cleanupFailed : Bool) :
    (executionResult conclusion cleanupFailed).Fine := by
  cases cleanupFailed with
  | true => exact .inl rfl
  | false =>
    cases conclusion with
    | unfinished => exact .inl rfl
    | _ => exact .inr rfl

theorem recoverRecord_triple (fates : Fates) (outcome : Fate) (record : Record Envelope Mutation Key)
    (paired : whole -> fates.Whole) :
    Triple (Kept binding whole) (recoverRecord binding native fates.registry fates.receipt outcome record)
      (fun _ => Kept binding whole) (Kept binding whole) := by
  unfold recoverRecord
  split
  · exact Triple.raise _ _ _
  · split
    · exact Triple.raise _ _ _
    · split
      · exact Triple.raise _ _ _
      · exact (finish_triple record.callId (recoveredResult_fine _) fates paired).bind
          (fun _ => Triple.write (fun _ _ => id) (fun _ _ => id) fun _ _ _ => id)

theorem recoverLocked_triple (fates : Fates) (outcome : Fate) (paired : whole -> fates.Whole) :
    Triple (Kept binding whole)
      (recoverLocked binding native fates.registry fates.receipt outcome : Act Envelope Mutation Key Unit)
      (fun _ => Kept binding whole) (Kept binding whole) := by
  refine Triple.bind ((current_triple whole).mono (fun _ => id) (fun _ _ holds => holds.1) fun _ => id) fun now => ?_
  cases now with
  | none => exact Triple.pure () (fun _ => Kept binding whole) _
  | some record =>
    have recovered : Triple (Kept binding whole) (recoverRecord binding native fates.registry fates.receipt outcome record)
        (fun _ => Kept binding whole) (Kept binding whole) := recoverRecord_triple native fates outcome record paired
    dsimp only
    split
    · refine Triple.bind ((Triple.reads (inspect_readOnly record.callId) _).mono (fun _ => id)
        (fun _ _ holds => holds.1) fun _ => id) fun _ => ?_
      split
      · exact Triple.pure () (fun _ => Kept binding whole) _
      · exact recovered
    · exact recovered

/-- The terminal transitions of an operation were whole. -/
def Operation.Whole : Operation Envelope Mutation Key -> Prop
  | .recover _ fates _ => fates.Whole
  | .execute execution => execution.recovery.Whole ∧ execution.ending.Whole

theorem executeLocked_triple (paired : whole -> execution.ending.Whole) :
    Triple (Kept binding whole) (executeLocked execution) (fun _ => Kept binding whole) (Kept binding whole) := by
  refine Triple.bind (Triple.handling ((begin_triple _ _).bind (fun _ =>
    Triple.pure _ (fun _ => Kept binding whole) _)) fun _ => Triple.pure _ (fun _ => Kept binding whole) _)
    (fun started => ?_)
  refine (recordAll_triple _ _).bind fun _ => ?_
  exact Triple.handling (finish_triple execution.callId (executionResult_fine _ _) execution.ending paired)
    (fun _ => Triple.pure () (fun _ => Kept binding whole) _)

theorem execute_triple (paired : whole -> execution.recovery.Whole ∧ execution.ending.Whole) :
    Triple (Kept binding whole) (execute binding execution) (fun _ => Kept binding whole) (Kept binding whole) := by
  refine (recoverLocked_triple execution.native execution.recovery execution.outcome
    (fun known => (paired known).1)).bind fun _ => ?_
  have checked : Triple (Kept binding whole) (reconcile binding.policyDigest : Act Envelope Mutation Key _)
      (fun _ journal => Sound binding journal ∧ Paired journal) (Kept binding whole) :=
    (Triple.reads (reconcile_readOnly binding.policyDigest) (Kept binding whole)).mono (fun _ => id)
      (fun found journal holds => ⟨holds.1.1, (reconcile_paired holds.1.1 holds.2).1⟩) fun _ => id
  refine checked.bind fun _ => ?_
  have weaker (journal : Journal Envelope Mutation Key) (holds : Sound binding journal ∧ Paired journal) :
      Kept binding whole journal := ⟨holds.1, fun _ => holds.2⟩
  refine Triple.bind ((Triple.reads current_readOnly _).mono (fun _ => id) (fun _ _ holds => holds.1) weaker)
    (fun now => ?_)
  split
  · exact (Triple.raise _ _ _).mono weaker (fun _ _ => id) fun _ => id
  · split
    · exact (Triple.raise _ _ _).mono weaker (fun _ _ => id) fun _ => id
    · exact (plan_triple execution.callId execution.envelope execution.planning).bind
        (fun _ => executeLocked_triple execution fun known => (paired known).2)

theorem perform_triple (operation : Operation Envelope Mutation Key) (paired : whole -> operation.Whole) :
    Triple (Kept binding whole) (perform binding operation) (fun _ => Kept binding whole) (Kept binding whole) := by
  cases operation with
  | recover native fates outcome =>
    refine (recoverLocked_triple native fates outcome paired).bind fun _ => ?_
    refine Triple.bind ((Triple.reads (reconcile_readOnly binding.policyDigest) _).mono (fun _ => id)
      (fun _ _ holds => holds.1) fun _ => id) fun _ => ?_
    exact Triple.pure () (fun _ => Kept binding whole) _
  | execute execution => exact execute_triple execution paired

/-- What holds of the journal after every run of operations. -/
theorem kept_run (binding : Binding) (whole : Prop) (operations : List (Operation Envelope Mutation Key))
    (paired : whole -> ∀ operation ∈ operations, operation.Whole) :
    Kept binding whole ((machine binding).run (Journal.empty : Journal Envelope Mutation Key) operations) := by
  have initially : Kept binding whole (Journal.empty : Journal Envelope Mutation Key) :=
    ⟨Sound.empty binding, fun _ now same => by cases same⟩
  exact (machine binding).invariant_along
    (fun journal operation kept condition => (perform_triple operation condition.1).leaves kept) initially operations
    ((machine binding).along_with (fun operation member known => paired known operation member)
      ((machine binding).along_trivial _ operations))

end Store

end Receipts
end FixLoop
