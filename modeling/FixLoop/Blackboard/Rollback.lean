import FixLoop.Blackboard.Revisions

namespace FixLoop
namespace Blackboard

open Library

/-!
# Compare-and-set and rollback
-/

/-! ## Compare-and-set -/

/-- The entry of the key, if there is one, has the revision at least. -/
structure AtLeast (key : String) (least : Nat) (board : Board) : Prop where
  reached : least ≤ board.revision
  found : ∀ entry, board.find? key = some entry -> least ≤ entry.revision

/-- On the way through the operations an entry of the key was expired when
expired entries were removed. -/
def Lapses (key : String) (board : Board) : List Operation -> Prop
  | [] => False
  | operation :: rest =>
    (∃ entry now, board.find? key = some entry ∧ operation.purges = some now ∧
      entry.expired now = true) ∨ Lapses key (step board operation) rest

variable {board : Board}

theorem lapses_append {key : String} {first : List Operation} (second : List Operation) :
    Lapses key board (first ++ second) <->
      Lapses key board first ∨ Lapses key (machine.run board first) second := by
  induction first generalizing board with
  | nil => exact ⟨.inr, fun either => either.resolve_left id⟩
  | cons operation rest ih =>
    rw [List.cons_append, Lapses, Lapses, ih, or_assoc]
    rfl

section Keys

variable {board : Board} {key : String}

variable {entry : BlackboardEntry}

theorem Operation.found_of_purged (ordered : Ordered board) (operation : Operation)
    (found : (operation.purged board).find? key = some entry) : board.find? key = some entry := by
  rw [operation.purged_find? ordered.distinct key] at found
  exact (Option.filter_eq_some_iff.mp found).1

variable {operation : Operation} {operations : List Operation}

theorem AtLeast.step {least : Nat} (atLeast : AtLeast key least board) (ordered : Ordered board)
    (kept : operation.restores = false) : AtLeast key least (step board operation) := by
  refine ⟨atLeast.reached.trans (step_revision board kept).1, ?_⟩
  intro other found
  rcases step_effect board kept with ⟨_, entries, _⟩ | ⟨entry, _, entries, issued, _, _⟩
  · rw [Board.find?, entries] at found
    exact atLeast.found other (Operation.found_of_purged ordered operation found)
  · rw [Board.find?, entries] at found
    by_cases same : entry.key = key
    · subst same
      rw [Keyed.find?_store_self] at found
      cases found
      rw [issued, operation.purged_revision]
      exact Nat.le_succ_of_le atLeast.reached
    · rw [Keyed.find?_store_ne same] at found
      exact atLeast.found other (Operation.found_of_purged ordered operation found)

/-- An entry that is not expired at the step stays or is replaced. -/
theorem held_step (ordered : Ordered board) (kept : operation.restores = false)
    (held : board.find? key = some entry) :
    (∃ now, operation.purges = some now ∧ entry.expired now = true) ∨
      ∃ next, (step board operation).find? key = some next := by
  have purged := operation.purged_find? ordered.distinct key
  rw [held] at purged
  by_cases lapsed : ∃ now, operation.purges = some now ∧ entry.expired now = true
  · exact .inl lapsed
  · have stays : (operation.purged board).find? key = some entry := by
      rw [purged]
      refine Option.filter_some_pos ?_
      cases purges : operation.purges with
      | none => rfl
      | some now =>
        show (!entry.expired now) = true
        rw [Bool.not_eq_true']
        exact eq_false_of_ne_true fun expired => lapsed ⟨now, purges, expired⟩
    refine .inr ?_
    rcases step_effect board kept with ⟨_, entries, _⟩ | ⟨stored, _, entries, _, _, _⟩
    · exact ⟨entry, by rw [Board.find?, entries]; exact stays⟩
    · by_cases same : stored.key = key
      · exact ⟨stored, by rw [Board.find?, entries, <- same, Keyed.find?_store_self]⟩
      · exact ⟨entry, by rw [Board.find?, entries, Keyed.find?_store_ne same]; exact stays⟩

theorem held_run (unrestored : Unrestored operations) (ordered : Ordered board)
    (held : board.find? key = some entry) :
    Lapses key board operations ∨ ∃ last, (machine.run board operations).find? key = some last := by
  induction operations generalizing board entry with
  | nil => exact .inr ⟨entry, held⟩
  | cons operation rest ih =>
    rcases held_step ordered (unrestored operation List.mem_cons_self) held with
      ⟨now, purges, expired⟩ | ⟨next, found⟩
    · exact .inl (.inl ⟨entry, now, held, purges, expired⟩)
    · exact (ih unrestored.tail (ordered.step operation) found).imp_left .inr

theorem atLeast_run (unrestored : Unrestored operations) (ordered : Ordered board) {least : Nat}
    (atLeast : AtLeast key least board) : AtLeast key least (machine.run board operations) := by
  induction operations generalizing board with
  | nil => exact atLeast
  | cons operation rest ih =>
    exact ih unrestored.tail (ordered.step operation)
      (atLeast.step ordered (unrestored operation List.mem_cons_self))

end Keys

section Writes

variable {board : Board} {now created : Moment} {entryId : Identifier} {key : String} {value : Json}
  {sourceAgent : String} {ttl : Option ℚ} {expectedRevision : Option Int} {evidenceRefs : List String}

/-- An accepted write met its expectation, and the entry it replaces has its
source. -/
theorem writeOutcome_accepted {replaced : Option BlackboardEntry}
    (outcome : board.writeOutcome key value sourceAgent expectedRevision = .accepted replaced) :
    (∀ expected, expectedRevision = some expected -> expected = board.entryRevision key) ∧
      ∀ existing, board.find? key = some existing -> existing.sourceAgent = sourceAgent := by
  unfold Board.writeOutcome at outcome
  split at outcome
  · cases outcome
  · split at outcome
    · cases outcome
    · next met =>
        constructor
        · intro expected asked
          subst asked
          by_contra differ
          have kept := Option.filter_some_pos (p := fun expected => expected != (board.entryRevision key : Int))
            (bne_iff_ne.mpr differ)
          cases kept.symm.trans met
        · intro existing found
          rw [found] at outcome
          by_contra differ
          cases (if_pos differ).symm.trans outcome

theorem write_accepted
    (accepted : (board.write now created entryId key value sourceAgent ttl expectedRevision evidenceRefs).2 = true) :
    (∀ expected, expectedRevision = some expected ->
      expected = (board.purgeExpired now).entryRevision key) ∧
    ∀ existing, (board.purgeExpired now).find? key = some existing -> existing.sourceAgent = sourceAgent := by
  rw [Board.write, Board.writeInto] at accepted
  cases outcome : (board.purgeExpired now).writeOutcome key value sourceAgent expectedRevision with
  | accepted replaced => exact writeOutcome_accepted outcome
  | _ => rw [outcome] at accepted; cases accepted

theorem write_stored
    (accepted : (board.write now created entryId key value sourceAgent ttl expectedRevision evidenceRefs).2 = true) :
    ∃ entry, entry.key = key ∧
      Stored (board.purgeExpired now) entry
        (board.write now created entryId key value sourceAgent ttl expectedRevision evidenceRefs).1 := by
  have effect := Board.writeInto_effect (board.purgeExpired now) created entryId key value sourceAgent ttl
    expectedRevision evidenceRefs
  rw [Board.write] at accepted
  rw [accepted] at effect
  cases effect with
  | stored entry same stored => exact ⟨entry, same, stored⟩

end Writes

theorem Ordered.entryRevision_le (ordered : Ordered board) (key : String) :
    board.entryRevision key ≤ board.revision := by
  unfold Board.entryRevision
  cases found : board.find? key with
  | none => exact Nat.zero_le _
  | some entry => exact ordered.bounded entry (Keyed.find?_some found).1

/-- Of two writes of one key with the same expectation, both are accepted only
if they expect no entry, and if the entry of the first one has expired. -/
theorem second_write (ordered : Ordered board) {key : String} {expected : Int} {now created : Moment}
    {entryId : Identifier} {value : Json} {sourceAgent : String} {ttl : Option ℚ}
    {evidenceRefs : List String}
    (first : (board.write now created entryId key value sourceAgent ttl (some expected) evidenceRefs).2 = true)
    {between : List Operation} (unrestored : Unrestored between) {laterNow laterCreated : Moment}
    {laterId : Identifier} {laterValue : Json} {laterSource : String} {laterTtl : Option ℚ}
    {laterRefs : List String}
    (second : ((machine.run (board.write now created entryId key value sourceAgent ttl (some expected) evidenceRefs).1 between).write laterNow laterCreated laterId key laterValue laterSource laterTtl (some expected) laterRefs).2 = true) :
    expected = 0 ∧ Lapses key (board.write now created entryId key value sourceAgent ttl (some expected)
      evidenceRefs).1 (between ++ [.write laterNow laterCreated laterId key laterValue laterSource laterTtl
        (some expected) laterRefs]) := by
  rcases write_stored first with ⟨entry, keyed, entries, issued, revision, _⟩
  have purged := Operation.purged_ordered ordered (.write now created entryId key value sourceAgent ttl
    (some expected) evidenceRefs)
  have within : expected ≤ (board.revision : Int) := by
    rw [(write_accepted first).1 expected rfl]
    exact Int.ofNat_le.mpr (purged.entryRevision_le key)
  have after : Ordered (board.write now created entryId key value sourceAgent ttl (some expected) evidenceRefs).1 :=
    ordered.step (.write now created entryId key value sourceAgent ttl (some expected) evidenceRefs)
  generalize (board.write now created entryId key value sourceAgent ttl (some expected) evidenceRefs).1 = start
    at entries revision after second
  have held : start.find? key = some entry := by
    rw [Board.find?, entries, <- keyed, Keyed.find?_store_self]
  have atLeast : AtLeast key (board.revision + 1) start := by
    refine ⟨Nat.le_of_eq revision.symm, ?_⟩
    intro other found
    cases held.symm.trans found
    exact Nat.le_of_eq issued.symm
  have later := atLeast_run unrestored after atLeast
  have middle : Ordered (machine.run start between) :=
    machine.invariant_run (fun _ operation ordered => ordered.step operation) after between
  have met := (write_accepted second).1 expected rfl
  -- An entry that is still there is too new for the expectation.
  have absent : ((machine.run start between).purgeExpired laterNow).find? key = none := by
    cases found : ((machine.run start between).purgeExpired laterNow).find? key with
    | none => rfl
    | some other =>
      have least := later.found other (Operation.found_of_purged middle
        (.write laterNow laterCreated laterId key laterValue laterSource laterTtl (some expected) laterRefs) found)
      rw [Board.entryRevision, found] at met
      have exact_ : expected = (other.revision : Int) := met
      omega
  refine ⟨by rw [met, Board.entryRevision, absent]; rfl, (lapses_append _).mpr ?_⟩
  rcases held_run unrestored after held with lapsed | ⟨last, there⟩
  · exact .inl lapsed
  · refine .inr (.inl ⟨last, laterNow, there, rfl, ?_⟩)
    by_contra valid
    have kept := Operation.purged_find? middle.distinct
      (.write laterNow laterCreated laterId key laterValue laterSource laterTtl (some expected) laterRefs) key
    rw [there, Option.filter_some_pos (by
      show (!last.expired laterNow) = true
      rw [Bool.not_eq_true']
      exact eq_false_of_ne_true valid)] at kept
    cases absent.symm.trans kept

/-! ## What snapshots keep -/

/-- What holds of every board, so that a snapshot has all of it. -/
structure Filed (board : Board) : Prop where
  created : ∀ entry ∈ board.entries, entry.createdAt ≠ 0
  distinct : Keyed.Distinct Prod.fst board.proposals
  named : ∀ proposal ∈ board.proposals, proposal.2.text "proposal_id" = proposal.1 ∧ proposal.1 ≠ ""
  history : board.conflictHistory = [] -> board.conflicts = []
  sequenced : board.eventSequence = 0 -> ∀ event ∈ board.events, event.sequence = 0

namespace Filed

variable {board : Board}

theorem appendEvent (filed : Filed board) (eventType : String) (payload : Record) :
    Filed (board.appendEvent eventType payload) :=
  ⟨filed.created, filed.distinct, filed.named, filed.history, fun zero => absurd zero (Nat.succ_ne_zero _)⟩

theorem recordConflict (filed : Filed board) (conflict : Record) : Filed (board.recordConflict conflict) :=
  ⟨filed.created, filed.distinct, filed.named, fun empty => absurd empty (List.append_ne_nil_of_right_ne_nil _
    (List.cons_ne_nil _ _)), fun zero => absurd zero (Nat.succ_ne_zero _)⟩

theorem purgeExpired (filed : Filed board) (now : Moment) : Filed (board.purgeExpired now) :=
  ⟨fun entry member => filed.created entry (List.mem_of_mem_filter member), filed.distinct, filed.named,
    filed.history, filed.sequenced⟩

theorem store (filed : Filed board) (entry : BlackboardEntry) (dated : entry.createdAt ≠ 0) (revision : Nat) :
    Filed { board.store entry with revision := revision } := by
  refine ⟨?_, filed.distinct, filed.named, filed.history, filed.sequenced⟩
  intro other member
  rcases Keyed.mem_store member with rfl | old
  · exact dated
  · exact filed.created other old

theorem acceptMerge (filed : Filed board) (proposal : Record) {entry : BlackboardEntry}
    (dated : entry.createdAt ≠ 0) : Filed (board.acceptMerge proposal entry).1 := by
  unfold Board.acceptMerge
  dsimp only
  refine appendEvent ?_ _ _
  refine ⟨?_, ?_, ?_, filed.history, filed.sequenced⟩
  · exact (filed.store { entry with revision := board.revision + 1 } dated 0).created
  · exact Keyed.distinct_filter _ filed.distinct
  · exact fun other member => filed.named other (List.mem_of_mem_filter member)

theorem mergeInto (filed : Filed board) (created : Moment) (proposal : Record) :
    Filed (board.mergeInto created proposal).1 := by
  unfold Board.mergeInto
  cases outcome : board.mergeOutcome proposal with
  | conflicted existing => exact filed.recordConflict _
  | confirmed existing =>
    exact filed.acceptMerge proposal
      (filed.created existing (Keyed.find?_some (Board.mergeOutcome_confirmed outcome)).1)
  | created => exact filed.acceptMerge proposal (ne_of_gt created.positive)
  | _ => exact (filed.recordConflict _).appendEvent _ _

theorem writeInto (filed : Filed board) (created : Moment) (entryId : Identifier) (key : String) (value : Json)
    (sourceAgent : String) (ttl : Option ℚ) (expectedRevision : Option Int) (evidenceRefs : List String) :
    Filed (board.writeInto created entryId key value sourceAgent ttl expectedRevision evidenceRefs).1 := by
  unfold Board.writeInto
  cases board.writeOutcome key value sourceAgent expectedRevision with
  | accepted existing => exact (filed.store _ (ne_of_gt created.positive) _).appendEvent _ _
  | _ => exact (filed.recordConflict _).appendEvent _ _

theorem settled (filed : Filed board) (kept : Record -> Bool) (closed : List Record) :
    Filed { board with
      conflicts := board.conflicts.filter kept
      conflictHistory := board.conflictHistory ++ closed } := by
  refine ⟨filed.created, filed.distinct, filed.named, ?_, filed.sequenced⟩
  intro empty
  show board.conflicts.filter kept = []
  rw [filed.history (List.append_eq_nil_iff.mp empty).1, List.filter_nil]

theorem propose (filed : Filed board) (proposalId : Identifier) (key : String) (value : Json)
    (sourceAgent : String) (evidenceRefs : List String) (baseRevision baseEntryRevision : Option Int)
    (ttl : Option ℚ) :
    Filed (board.propose proposalId key value sourceAgent evidenceRefs baseRevision baseEntryRevision ttl).1 := by
  unfold Board.propose
  dsimp only
  refine appendEvent ?_ _ _
  refine ⟨filed.created, Keyed.distinct_store _ filed.distinct, ?_, filed.history, filed.sequenced⟩
  intro proposal member
  rcases Keyed.mem_store member with rfl | old
  · exact ⟨rfl, proposalId.nonempty⟩
  · exact filed.named proposal old

theorem restored (board : Board) (now : Moment) (fresh : String -> Identifier) (data : Snapshot) :
    Filed (board.restored now fresh data) := by
  refine ⟨?_, Keyed.distinct_ofItems _, ?_, ?_, ?_⟩
  · intro entry member
    rcases List.mem_map.mp (List.mem_of_mem_filter (Keyed.mem_ofItems member)) with ⟨record, _, rfl⟩
    unfold BlackboardEntry.fromDict
    by_cases undated : record.createdAt = 0
    · simp only [if_pos undated]
      exact ne_of_gt now.positive
    · simp only [if_neg undated]
      exact undated
  · intro proposal member
    rcases List.mem_map.mp (Keyed.mem_ofItems member) with ⟨record, kept, rfl⟩
    exact ⟨rfl, of_decide_eq_true (List.mem_filter.mp kept).2⟩
  · intro empty
    by_cases given : data.conflictHistory ≠ []
    · exact absurd ((if_pos given).symm.trans empty) given
    · exact (if_neg given).symm.trans empty
  · intro zero event member
    by_cases given : data.eventSequence ≠ 0
    · exact absurd ((if_pos given).symm.trans zero) given
    · have none : largest (data.events.map Event.sequence) = 0 := (if_neg given).symm.trans zero
      have least := largest_bounds (data.events.map Event.sequence) event.sequence (List.mem_map_of_mem member)
      rw [none] at least
      exact Nat.le_zero.mp least

theorem step (filed : Filed board) (operation : Operation) : Filed (step board operation) := by
  cases operation with
  | registerNamespace policy => exact ⟨filed.created, filed.distinct, filed.named, filed.history, filed.sequenced⟩
  | propose proposalId key value sourceAgent evidenceRefs baseRevision baseEntryRevision ttl =>
    exact filed.propose proposalId key value sourceAgent evidenceRefs baseRevision baseEntryRevision ttl
  | mergeProposal now created proposal => exact (filed.purgeExpired now).mergeInto created proposal
  | write now created entryId key value sourceAgent ttl expectedRevision evidenceRefs =>
    exact (filed.purgeExpired now).writeInto created entryId key value sourceAgent ttl expectedRevision evidenceRefs
  | read now key | snapshot now => exact filed.purgeExpired now
  | restoreSnapshot now fresh data =>
    rw [Blackboard.step, Board.restoreSnapshot]
    by_cases unsupported : data.version ≠ "1.0" ∧ data.version ≠ BLACKBOARD_SCHEMA_VERSION
    · rw [if_pos unsupported]
      exact filed
    · rw [if_neg unsupported]
      exact restored board now fresh data
  | resolveConflict key winnerSource | rejectConflict key reason => exact filed.settled _ _
  | applyConflictWinner now created entryId key value winnerSource =>
    exact ((filed.purgeExpired now).store _ (ne_of_gt created.positive) _).settled _ _

end Filed

theorem filed_run (policies : List NamespacePolicy) (operations : List Operation) :
    Filed (machine.run { namespacePolicies := policies } operations) :=
  machine.invariant_run (fun _ operation filed => filed.step operation)
    ⟨(fun entry member => by cases member), List.nodup_nil, (fun proposal member => by cases member),
      fun _ => rfl, (fun _ event member => by cases member)⟩ operations

/-! ## Snapshots and transactions -/

/-- The entries are ones that a snapshot can name. -/
def Named (board : Board) : Prop :=
  ∀ entry ∈ board.entries, entry.key ≠ "" ∧ entry.entryId ≠ ""

section Restored

variable {board : Board} (now later : Moment) (fresh : String -> Identifier)

theorem records_snapshot : (board.snapshot now).2.records = (board.purgeExpired now).entries := by
  rw [Snapshot.records]
  by_cases empty : (board.snapshot now).2.entryRecords ≠ []
  · rw [if_pos empty]
    rfl
  · have none : (board.purgeExpired now).entries = [] := not_not.mp empty
    rw [if_neg empty, Board.snapshot, none]
    rfl

theorem fromDict_of_dated {record : BlackboardEntry} (dated : record.createdAt ≠ 0) (named : record.entryId ≠ "") :
    record.fromDict later fresh = record := by
  unfold BlackboardEntry.fromDict
  simp only [if_neg dated, if_neg named]

theorem restoredEntries_snapshot (ordered : Ordered board) (filed : Filed board) (named : Named board) :
    (board.snapshot now).2.restoredEntries later fresh = ((board.purgeExpired now).purgeExpired later).entries := by
  have same : (board.purgeExpired now).entries.map (BlackboardEntry.fromDict later fresh) =
      (board.purgeExpired now).entries := by
    refine (List.map_congr_left fun entry member => ?_).trans (List.map_id _)
    have listed := List.mem_of_mem_filter member
    exact fromDict_of_dated later fresh (filed.created entry listed) (named entry listed).2
  have kept : (board.purgeExpired now).entries.filter
      (fun entry => decide (entry.key ≠ "") && !entry.expired later) =
        ((board.purgeExpired now).purgeExpired later).entries := by
    refine List.filter_congr fun entry member => ?_
    rw [decide_eq_true (named entry (List.mem_of_mem_filter member)).1, Bool.true_and]
  rw [Snapshot.restoredEntries, records_snapshot, same, kept]
  exact Keyed.ofItems_of_distinct (Keyed.distinct_filter _ (Keyed.distinct_filter _ ordered.distinct))

theorem proposals_snapshot (filed : Filed board) :
    Keyed.ofItems Prod.fst (((board.snapshot now).2.proposals.filter
      (fun proposal => decide (proposal.text "proposal_id" ≠ ""))).map
        (fun proposal => (proposal.text "proposal_id", proposal))) = board.proposals := by
  have whole : (board.proposals.map Prod.snd).filter
      (fun proposal => decide (proposal.text "proposal_id" ≠ "")) = board.proposals.map Prod.snd := by
    refine List.filter_eq_self.mpr fun record member => ?_
    rcases List.mem_map.mp member with ⟨proposal, listed, rfl⟩
    rw [(filed.named proposal listed).1]
    exact decide_eq_true (filed.named proposal listed).2
  have same : (board.proposals.map Prod.snd).map (fun proposal => (proposal.text "proposal_id", proposal)) =
      board.proposals := by
    rw [List.map_map]
    refine (List.map_congr_left fun proposal listed => ?_).trans (List.map_id board.proposals)
    exact Prod.ext (filed.named proposal listed).1 rfl
  show Keyed.ofItems Prod.fst (((board.proposals.map Prod.snd).filter _).map _) = board.proposals
  rw [whole, same]
  exact Keyed.ofItems_of_distinct filed.distinct

theorem largest_le {numbers : List Nat} {bound : Nat} (below : ∀ number ∈ numbers, number ≤ bound) :
    largest numbers ≤ bound := by
  suffices general : ∀ (numbers : List Nat) (start : Nat), start ≤ bound ->
      (∀ number ∈ numbers, number ≤ bound) -> numbers.foldl max start ≤ bound from
    general numbers 0 (Nat.zero_le bound) below
  intro numbers
  induction numbers with
  | nil => exact fun start within _ => within
  | cons head rest ih =>
    intro start within below
    exact ih _ (Nat.max_le.mpr ⟨within, below head List.mem_cons_self⟩)
      (fun number member => below number (List.mem_cons_of_mem head member))

theorem restored_snapshot (ordered : Ordered board) (filed : Filed board) (named : Named board) (target : Board) :
    target.restoreSnapshot later fresh (board.snapshot now).2 = .ok
      { (board.purgeExpired now).purgeExpired later with namespacePolicies := target.namespacePolicies } := by
  have entries := restoredEntries_snapshot now later fresh ordered filed named
  have revision : max board.revision (largest (((board.purgeExpired now).purgeExpired later).entries.map
      BlackboardEntry.revision)) = board.revision := by
    refine Nat.max_eq_left (largest_le fun number member => ?_)
    rcases List.mem_map.mp member with ⟨entry, listed, rfl⟩
    exact ordered.bounded entry (List.mem_of_mem_filter (List.mem_of_mem_filter listed))
  have history : (if board.conflictHistory ≠ [] then board.conflictHistory else board.conflicts) =
      board.conflictHistory := by
    by_cases empty : board.conflictHistory = []
    · rw [if_neg (not_not.mpr empty), empty, filed.history empty]
    · rw [if_pos empty]
  have sequence : (if board.eventSequence ≠ 0 then board.eventSequence
      else largest (board.events.map Event.sequence)) = board.eventSequence := by
    by_cases zero : board.eventSequence = 0
    · rw [if_neg (not_not.mpr zero), zero]
      refine Nat.le_zero.mp (largest_le fun number member => ?_)
      rcases List.mem_map.mp member with ⟨event, listed, rfl⟩
      exact Nat.le_of_eq (filed.sequenced zero event listed)
    · rw [if_pos zero]
  have supported : ¬ ((board.snapshot now).2.version ≠ "1.0" ∧
      (board.snapshot now).2.version ≠ BLACKBOARD_SCHEMA_VERSION) := fun both => both.2 rfl
  rw [Board.restoreSnapshot, if_neg supported]
  refine congrArg Except.ok (Board.ext entries rfl history ?_ (proposals_snapshot now filed) rfl sequence rfl)
  rw [Board.restored, entries]
  exact revision

/-- A body that raises leaves of the transaction only that what has expired is
gone. -/
theorem transaction_raised (ordered : Ordered board) (filed : Filed board) (named : Named board)
    {body : Board -> Board × Bool} (raised : (body (board.purgeExpired now)).2 = true) :
    board.transaction now later fresh body =
      { (board.purgeExpired now).purgeExpired later with
        namespacePolicies := (body (board.purgeExpired now)).1.namespacePolicies } := by
  have returned := restored_snapshot now later fresh ordered filed named (body (board.purgeExpired now)).1
  have after : (body (board.snapshot now).1).2 = true := raised
  rw [Board.transaction, if_pos after]
  dsimp only
  rw [show (body (board.snapshot now).1).1 = (body (board.purgeExpired now)).1 from rfl, returned]

end Restored

theorem purgeExpired_unexpired {now : Moment}
    (unexpired : ∀ entry ∈ board.entries, entry.expired now = false) :
    board.purgeExpired now = board := by
  refine Board.ext ?_ rfl rfl rfl rfl rfl rfl rfl
  exact List.filter_eq_self.mpr fun entry member => by rw [unexpired entry member]; rfl

/-- From any board, as long as nothing is restored: revisions grow, accepted
operations issue new ones, an expectation is met twice only where an entry has
expired, and no other source's entry is replaced by a write.  Snapshots and
transactions give back all but the expired entries. -/
theorem revisions_and_rollback (policies : List NamespacePolicy) (before : List Operation) :
    let board := machine.run { namespacePolicies := policies } before
    (∀ entry ∈ board.entries, entry.revision ≤ board.revision) ∧
    (∀ later : List Operation, Unrestored later ->
      board.revision ≤ (machine.run board later).revision ∧
      (issuedAlong board later).Pairwise (fun earlier next => earlier < next) ∧
      ∀ revision ∈ issuedAlong board later, board.revision < revision) ∧
    (∀ operation : Operation, operation.restores = false ->
      operation.issued board = (operation.accepted board).map fun _ => board.revision + 1) ∧
    (∀ (now created : Moment) (entryId : Identifier) (key : String) (value : Json) (sourceAgent : String)
        (ttl : Option ℚ) (expected : Int) (evidenceRefs : List String) (between : List Operation)
        (laterNow laterCreated : Moment) (laterId : Identifier) (laterValue : Json) (laterSource : String)
        (laterTtl : Option ℚ) (laterRefs : List String),
      (board.write now created entryId key value sourceAgent ttl (some expected) evidenceRefs).2 = true ->
      Unrestored between ->
      ((machine.run (board.write now created entryId key value sourceAgent ttl (some expected) evidenceRefs).1
        between).write laterNow laterCreated laterId key laterValue laterSource laterTtl (some expected)
          laterRefs).2 = true ->
      expected = 0 ∧
        Lapses key (board.write now created entryId key value sourceAgent ttl (some expected) evidenceRefs).1
          (between ++ [.write laterNow laterCreated laterId key laterValue laterSource laterTtl (some expected)
            laterRefs])) ∧
    (∀ (now created : Moment) (entryId : Identifier) (key : String) (value : Json) (sourceAgent : String)
        (ttl : Option ℚ) (expectedRevision : Option Int) (evidenceRefs : List String) (existing : BlackboardEntry),
      (board.write now created entryId key value sourceAgent ttl expectedRevision evidenceRefs).2 = true ->
      (board.purgeExpired now).find? key = some existing -> existing.sourceAgent = sourceAgent) ∧
    (Named board -> ∀ (now later : Moment) (fresh : String -> Identifier),
      (∀ target : Board,
        (∀ entry ∈ board.entries, entry.expired now = false ∧ entry.expired later = false) ->
        target.restoreSnapshot later fresh (board.snapshot now).2 =
          .ok { board with namespacePolicies := target.namespacePolicies }) ∧
      ∀ body : Board -> Board × Bool, (body (board.purgeExpired now)).2 = true ->
        board.transaction now later fresh body =
          { (board.purgeExpired now).purgeExpired later with
            namespacePolicies := (body (board.purgeExpired now)).1.namespacePolicies }) := by
  intro board
  have ordered : Ordered board := ordered_run policies before
  have filed : Filed board := filed_run policies before
  refine ⟨ordered.bounded, ?_, ?_, ?_, ?_, ?_⟩
  · exact fun later unrestored => ⟨run_revision board unrestored, issuedAlong_increasing board unrestored⟩
  · exact fun operation kept => issued_eq board kept
  · intro now created entryId key value sourceAgent ttl expected evidenceRefs between laterNow laterCreated laterId
      laterValue laterSource laterTtl laterRefs first unrestored second
    exact second_write ordered first unrestored second
  · intro now created entryId key value sourceAgent ttl expectedRevision evidenceRefs existing accepted found
    exact (write_accepted accepted).2 existing found
  · intro named now later fresh
    refine ⟨?_, fun body raised => transaction_raised now later fresh ordered filed named raised⟩
    intro target unexpired
    have same := restored_snapshot now later fresh ordered filed named target
    rw [purgeExpired_unexpired (fun entry member => (unexpired entry member).1),
      purgeExpired_unexpired fun entry member => (unexpired entry member).2] at same
    exact same

/-- Restoring the first snapshot takes the revision back, an entry that expires
lets a second write with the expectation of the first one through, an entry
under the empty key is lost by a snapshot, and one without an id gets another. -/
theorem revision_taken_back :
    let early : Moment := ⟨1, by decide⟩
    let late : Moment := ⟨9, by decide⟩
    let entryId : Identifier := ⟨"e", by decide⟩
    let start : Board := { namespacePolicies := [] }
    let write (now : Moment) : Operation := .write now now entryId "k" .null "a" (some 2) (some 0) []
    let board := machine.run start [write early]
    let unnamed := machine.run start [.write early early entryId "" .null "a" none none []]
    let merged := machine.run start [.mergeProposal early early [("key", .str "k")]]
    (machine.run board [.restoreSnapshot early (fun _ => entryId) (start.snapshot early).2]).revision <
        board.revision ∧
      (write early).accepted start = some "k" ∧ (write late).accepted board = some "k" ∧
      unnamed.entries.length = 1 ∧
      (unnamed.restored early (fun _ => entryId) (unnamed.snapshot early).2).entries.length = 0 ∧
      merged.entries.map BlackboardEntry.entryId = [""] ∧
      (merged.restored early (fun _ => entryId) (merged.snapshot early).2).entries.map
        BlackboardEntry.entryId = ["e"] := by
  refine ⟨?_, ?_, ?_, ?_, ?_, ?_, ?_⟩
  all_goals decide +kernel

end Blackboard
end FixLoop
