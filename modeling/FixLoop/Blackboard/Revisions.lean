import FixLoop.Blackboard.Runs

namespace FixLoop
namespace Blackboard

open Library

/-!
# Revisions

Only accepted writes, merges and winners change entries, and each gives its
entry the next revision of the board.
-/

/-! ## What an accepted call does -/

/-- Entries and revision are those of the board; an event may have been logged
and a conflict recorded. -/
def Silent (board after : Board) : Prop := after.entries = board.entries ∧ after.revision = board.revision

/-- The entry is stored with the next revision; its time is a new one or that
of an entry there was. -/
structure Stored (board : Board) (entry : BlackboardEntry) (after : Board) : Prop where
  entries : after.entries = Keyed.store BlackboardEntry.key entry board.entries
  issued : entry.revision = board.revision + 1
  revision : after.revision = board.revision + 1
  dated : 0 < entry.createdAt ∨ ∃ old ∈ board.entries, old.createdAt = entry.createdAt

/-- What a call made of the board: nothing to its entries, or one entry under
the key with the next revision. -/
inductive Effect (board : Board) (key : String) (after : Board) : Bool -> Prop
  | refused (silent : Silent board after) : Effect board key after false
  | stored (entry : BlackboardEntry) (same : entry.key = key) (stored : Stored board entry after) :
      Effect board key after true

namespace Board

variable {board : Board}

theorem find?_key {key : String} {entry : BlackboardEntry} (found : board.find? key = some entry) :
    entry.key = key := (Keyed.find?_some found).2

variable {proposal : Record} {existing : BlackboardEntry}

theorem mergeValue_key (confirmed : board.mergeValue proposal = .confirmed existing) :
    board.find? (proposal.text "key") = some existing := by
  unfold mergeValue at confirmed
  split at confirmed
  · cases confirmed
  · next found =>
      split at confirmed
      · cases confirmed
        exact found
      · cases confirmed

theorem mergeOutcome_confirmed (confirmed : board.mergeOutcome proposal = .confirmed existing) :
    board.find? (proposal.text "key") = some existing := by
  unfold mergeOutcome at confirmed
  split at confirmed
  · cases confirmed
  · split at confirmed
    · split at confirmed
      · cases confirmed
      · exact mergeValue_key confirmed
    · split at confirmed
      · cases confirmed
      · exact mergeValue_key confirmed

/-- The merge was accepted. -/
def merges (proposal : Record) (board : Board) : Bool :=
  match board.mergeOutcome proposal with
  | .confirmed _ => true
  | .created => true
  | _ => false

theorem mergeInto_effect (board : Board) (created : Moment) (proposal : Record) :
    Effect board (proposal.text "key") (board.mergeInto created proposal).1 (board.merges proposal) := by
  unfold mergeInto merges
  cases outcome : board.mergeOutcome proposal with
  | confirmed existing =>
    have found := mergeOutcome_confirmed outcome
    have keyed : existing.key = proposal.text "key" := find?_key found
    exact .stored { existing with
        evidenceRefs := (existing.evidenceRefs ++ proposal.texts "evidence_refs").eraseDups
        revision := board.revision + 1 }
      keyed ⟨rfl, rfl, rfl, .inr ⟨existing, (Keyed.find?_some found).1, rfl⟩⟩
  | created =>
    exact .stored _ rfl ⟨rfl, rfl, rfl, .inl created.positive⟩
  | _ => exact .refused ⟨rfl, rfl⟩

theorem writeInto_effect (board : Board) (created : Moment) (entryId : Identifier) (key : String) (value : Json)
    (sourceAgent : String) (ttl : Option ℚ) (expectedRevision : Option Int) (evidenceRefs : List String) :
    Effect board key
      (board.writeInto created entryId key value sourceAgent ttl expectedRevision evidenceRefs).1
      (board.writeInto created entryId key value sourceAgent ttl expectedRevision evidenceRefs).2 := by
  unfold writeInto
  cases board.writeOutcome key value sourceAgent expectedRevision with
  | accepted existing => exact .stored _ rfl ⟨rfl, rfl, rfl, .inl created.positive⟩
  | _ => exact .refused ⟨rfl, rfl⟩

theorem applyWinner_stored (board : Board) (created : Moment) (entryId : Identifier) (key : String) (value : Json)
    (winnerSource : String) :
    Effect board key (board.applyWinner created entryId key value winnerSource) true :=
  .stored _ rfl ⟨rfl, rfl, rfl, .inl created.positive⟩

end Board

/-! ## Operations -/

namespace Operation

/-- The time at which the operation removes expired entries. -/
def purges : Operation -> Option Moment
  | .mergeProposal now _ _ => some now
  | .write now _ _ _ _ _ _ _ _ => some now
  | .read now _ => some now
  | .snapshot now => some now
  | .applyConflictWinner now _ _ _ _ _ => some now
  | _ => none

/-- The board on which the operation decides. -/
def purged (board : Board) (operation : Operation) : Board :=
  match operation.purges with
  | none => board
  | some now => board.purgeExpired now

def restores : Operation -> Bool
  | .restoreSnapshot _ _ _ => true
  | _ => false

/-- The key whose write, merge or winner the board reports as accepted. -/
def accepted (board : Board) : Operation -> Option String
  | .mergeProposal now created proposal =>
    if ((board.mergeProposal now created proposal).2.get "status").str? = some "accepted" then
      some (proposal.text "key")
    else none
  | .write now created entryId key value sourceAgent ttl expectedRevision evidenceRefs =>
    if (board.write now created entryId key value sourceAgent ttl expectedRevision evidenceRefs).2 then some key
    else none
  | .applyConflictWinner _ _ _ key _ _ => some key
  | _ => none

/-- The revision that an accepted operation gives to its key. -/
def issued (board : Board) (operation : Operation) : Option Nat :=
  (operation.accepted board).bind fun key => ((step board operation).find? key).map BlackboardEntry.revision

end Operation

open Operation

variable (board : Board) {operation : Operation}

theorem mergeInto_reported (created : Moment) (proposal : Record) :
    ((board.mergeInto created proposal).2.get "status").str? = some "accepted" <->
      board.merges proposal = true := by
  have accepts (entry : BlackboardEntry) :
      ((board.acceptMerge proposal entry).2.get "status").str? = some "accepted" := by
    rw [Board.acceptMerge, Record.get_set_ne (by decide), Record.get_set_self, Json.str?]
  unfold Board.mergeInto Board.merges
  cases board.mergeOutcome proposal with
  | rejected => simp [Record.get_set_self, Json.str?]
  | staleEntry => simp [Record.get_set_ne (by decide : "status" ≠ "current_entry_revision"), Json.str?]
  | staleBoard => simp [Record.get_set_ne (by decide : "status" ≠ "current_revision"), Json.str?]
  | conflicted existing =>
    simp [Record.get_set_ne (by decide : "status" ≠ "existing_value"),
      Record.get_set_ne (by decide : "status" ≠ "existing_source"), Json.str?]
  | confirmed existing | created => exact iff_of_true (accepts _) rfl

/-- What an operation does that restores nothing. -/
theorem step_effect (kept : operation.restores = false) :
    (operation.accepted board = none ∧ Silent (operation.purged board) (step board operation)) ∨
      ∃ entry, operation.accepted board = some entry.key ∧
        Stored (operation.purged board) entry (step board operation) := by
  cases operation with
  | mergeProposal now created proposal =>
    have reported := mergeInto_reported (board.purgeExpired now) created proposal
    cases merges : (board.purgeExpired now).merges proposal with
    | false =>
      have effect := Board.mergeInto_effect (board.purgeExpired now) created proposal
      rw [merges] at reported effect
      cases effect with
      | refused silent => exact .inl ⟨if_neg (fun accepted => Bool.noConfusion (reported.mp accepted)), silent⟩
    | true =>
      have effect := Board.mergeInto_effect (board.purgeExpired now) created proposal
      rw [merges] at reported effect
      cases effect with
      | stored entry same stored =>
        exact .inr ⟨entry, by rw [same]; exact if_pos (reported.mpr rfl), stored⟩
  | write now created entryId key value sourceAgent ttl expectedRevision evidenceRefs =>
    have effect := Board.writeInto_effect (board.purgeExpired now) created entryId key value sourceAgent ttl
      expectedRevision evidenceRefs
    cases answer : ((board.purgeExpired now).writeInto created entryId key value sourceAgent ttl
        expectedRevision evidenceRefs).2 with
    | false =>
      rw [answer] at effect
      cases effect with
      | refused silent => exact .inl ⟨if_neg (fun accepted => Bool.noConfusion (answer.symm.trans accepted)), silent⟩
    | true =>
      rw [answer] at effect
      cases effect with
      | stored entry same stored => exact .inr ⟨entry, by rw [same]; exact if_pos answer, stored⟩
  | restoreSnapshot => cases kept
  | applyConflictWinner now created entryId key value winnerSource =>
    cases Board.applyWinner_stored (board.purgeExpired now) created entryId key value winnerSource with
    | stored entry same stored => exact .inr ⟨entry, by rw [same]; rfl, stored⟩
  | _ => exact .inl ⟨rfl, rfl, rfl⟩

/-! ## Revisions along a run -/

/-- Each key has one entry, and no entry is ahead of the board. -/
structure Ordered (board : Board) : Prop where
  distinct : Keyed.Distinct BlackboardEntry.key board.entries
  bounded : ∀ entry ∈ board.entries, entry.revision ≤ board.revision

theorem Operation.purged_revision (operation : Operation) :
    (operation.purged board).revision = board.revision := by
  unfold Operation.purged
  split
  · rfl
  · rfl

/-- What is found before the operation is found when it decides, unless it has
expired by then. -/
theorem Operation.purged_find? {board : Board} (distinct : Keyed.Distinct BlackboardEntry.key board.entries)
    (operation : Operation) (key : String) :
    (operation.purged board).find? key =
      (board.find? key).filter (fun entry =>
        (operation.purges.map fun now => !entry.expired now).getD true) := by
  unfold Operation.purged
  cases operation.purges with
  | none =>
    cases board.find? key with
    | none => rfl
    | some entry => rfl
  | some now => exact Keyed.find?_filter (fun entry => !entry.expired now) distinct key

theorem Operation.purged_ordered {board : Board} (ordered : Ordered board) (operation : Operation) :
    Ordered (operation.purged board) := by
  unfold Operation.purged
  split
  · exact ordered
  · exact ⟨Keyed.distinct_filter _ ordered.distinct,
      fun entry member => ordered.bounded entry (List.mem_of_mem_filter member)⟩

theorem largest_bounds (numbers : List Nat) : ∀ number ∈ numbers, number ≤ largest numbers := by
  suffices general : ∀ (numbers : List Nat) (start : Nat), start ≤ numbers.foldl max start ∧
      ∀ number ∈ numbers, number ≤ numbers.foldl max start from (general numbers 0).2
  intro numbers
  induction numbers with
  | nil => exact fun start => ⟨Nat.le_refl start, fun number member => by cases member⟩
  | cons head rest ih =>
    intro start
    have later := ih (max start head)
    refine ⟨(Nat.le_max_left start head).trans later.1, ?_⟩
    intro number member
    rcases List.mem_cons.mp member with rfl | listed
    · exact (Nat.le_max_right start number).trans later.1
    · exact later.2 number listed

namespace Ordered

variable {board : Board}

theorem silent (ordered : Ordered board) {after : Board} (silent : Silent board after) : Ordered after := by
  rcases silent with ⟨entries, revision⟩
  exact ⟨by rw [entries]; exact ordered.distinct, by rw [entries, revision]; exact ordered.bounded⟩

theorem stored (ordered : Ordered board) {entry : BlackboardEntry} {after : Board}
    (stored : Stored board entry after) : Ordered after := by
  rcases stored with ⟨entries, issued, revision, _⟩
  refine ⟨by rw [entries]; exact Keyed.distinct_store entry ordered.distinct, ?_⟩
  intro other member
  rw [entries] at member
  rw [revision]
  rcases Keyed.mem_store member with rfl | old
  · exact Nat.le_of_eq issued
  · exact Nat.le_succ_of_le (ordered.bounded other old)

theorem restored (ordered : Ordered board) (now : Moment) (fresh : String -> Identifier) (data : Snapshot) :
    Ordered (step board (.restoreSnapshot now fresh data)) := by
  rw [Blackboard.step, Board.restoreSnapshot]
  by_cases unsupported : data.version ≠ "1.0" ∧ data.version ≠ BLACKBOARD_SCHEMA_VERSION
  · rw [if_pos unsupported]
    exact ordered
  · rw [if_neg unsupported]
    refine ⟨Keyed.distinct_ofItems _, ?_⟩
    intro entry member
    exact (largest_bounds _ _ (List.mem_map_of_mem member)).trans (Nat.le_max_right _ _)

theorem step (ordered : Ordered board) (operation : Operation) : Ordered (step board operation) := by
  cases kept : operation.restores with
  | true =>
    cases operation with
    | restoreSnapshot now fresh data => exact ordered.restored now fresh data
    | _ => cases kept
  | false =>
    rcases step_effect board kept with ⟨_, silent⟩ | ⟨entry, _, stored⟩
    · exact (operation.purged_ordered ordered).silent silent
    · exact (operation.purged_ordered ordered).stored stored

end Ordered

theorem ordered_run (policies : List NamespacePolicy) (operations : List Operation) :
    Ordered (machine.run { namespacePolicies := policies } operations) :=
  machine.invariant_run (fun _ operation ordered => ordered.step operation)
    ⟨List.nodup_nil, fun entry member => by cases member⟩ operations

/-- An accepted operation gives its key the next revision. -/
theorem issued_eq (kept : operation.restores = false) :
    operation.issued board = (operation.accepted board).map (fun _ => board.revision + 1) := by
  unfold Operation.issued
  rcases step_effect board kept with ⟨none, _⟩ | ⟨entry, some, entries, issued, _, _⟩
  · rw [none]
    rfl
  · rw [some, Option.bind_some, Option.map_some, Board.find?, entries, Keyed.find?_store_self, Option.map_some,
      issued, operation.purged_revision]

theorem step_revision (kept : operation.restores = false) :
    board.revision ≤ (step board operation).revision ∧
      ∀ revision, operation.issued board = some revision -> revision = (step board operation).revision ∧
        board.revision < revision := by
  rw [issued_eq board kept]
  rcases step_effect board kept with ⟨none, _, same⟩ | ⟨entry, some, _, _, next, _⟩
  · rw [same, operation.purged_revision, none]
    refine ⟨Nat.le_refl _, ?_⟩
    intro revision issued
    cases issued
  · rw [next, operation.purged_revision, some]
    refine ⟨Nat.le_succ _, ?_⟩
    intro revision issued
    cases issued
    exact ⟨rfl, Nat.lt_succ_self _⟩

/-- The revisions that a run issues, in their order. -/
def issuedAlong (board : Board) : List Operation -> List Nat
  | [] => []
  | operation :: rest => (operation.issued board).toList ++ issuedAlong (step board operation) rest

def Unrestored (operations : List Operation) : Prop :=
  ∀ operation ∈ operations, operation.restores = false

theorem Unrestored.tail {operation : Operation} {rest : List Operation}
    (unrestored : Unrestored (operation :: rest)) : Unrestored rest :=
  fun other member => unrestored other (List.mem_cons_of_mem operation member)

variable {operations : List Operation}

theorem run_revision (unrestored : Unrestored operations) :
    board.revision ≤ (machine.run board operations).revision := by
  induction operations generalizing board with
  | nil => exact Nat.le_refl _
  | cons operation rest ih =>
    exact (step_revision board (unrestored operation List.mem_cons_self)).1.trans
      (ih (step board operation) unrestored.tail)

/-- Every revision that is issued is larger than all before it. -/
theorem issuedAlong_increasing (unrestored : Unrestored operations) :
    (issuedAlong board operations).Pairwise (fun earlier later => earlier < later) ∧
      ∀ revision ∈ issuedAlong board operations, board.revision < revision := by
  induction operations generalizing board with
  | nil => exact ⟨.nil, fun revision member => by cases member⟩
  | cons operation rest ih =>
    have here := step_revision board (unrestored operation List.mem_cons_self)
    have later := ih (step board operation) unrestored.tail
    rw [issuedAlong]
    cases issued : operation.issued board with
    | none =>
      exact ⟨later.1, fun revision member => here.1.trans_lt (later.2 revision member)⟩
    | some revision =>
      rcases here.2 revision issued with ⟨last, above⟩
      refine ⟨List.pairwise_cons.mpr ⟨fun next member => last ▸ later.2 next member, later.1⟩, ?_⟩
      intro next member
      rcases List.mem_cons.mp member with rfl | listed
      · exact above
      · exact here.1.trans_lt (later.2 next listed)

end Blackboard
end FixLoop
