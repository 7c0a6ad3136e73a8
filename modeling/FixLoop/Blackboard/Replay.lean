import FixLoop.Blackboard.Rollback

namespace FixLoop
namespace Blackboard

open Library

/-!
# Replays of the event log

A replay repeats the logged writes on an empty board.  It rebuilds the board
as long as the log mirrors the entries: the last logged write of each key has
the value of its entry, and every logged write has the source of the entry.
-/

/-! ## Logged writes -/

namespace Event

def isWrite (event : Event) : Bool := decide (event.eventType = "blackboard_write")

def key (event : Event) : String := event.payload.text "key"

def value (event : Event) : Json := event.payload.get "value"

def source (event : Event) : String := event.payload.text "source_agent"

def writesTo (key : String) (event : Event) : Bool := event.isWrite && decide (event.key = key)

end Event

def lastWrite (key : String) (events : List Event) : Option Event :=
  (events.filter (Event.writesTo key)).getLast?

/-- Each logged write that leaves the log, when `count` events come in, has a
later one of its key in the log or is followed by one of the key `written`. -/
def Kept (count : Nat) (written : Option String) (events : List Event) : Prop :=
  ∀ event ∈ events.take (events.length + count - 1000), event.isWrite = true ->
    written = some event.key ∨
      ∃ later ∈ events.drop (events.length + count - 1000), later.writesTo event.key = true

theorem lastWrite_append (key : String) (first second : List Event) :
    lastWrite key (first ++ second) = (lastWrite key second).or (lastWrite key first) := by
  rw [lastWrite, List.filter_append, List.getLast?_append]
  rfl

variable {events : List Event} {board : Board}

theorem lastWrite_none {key : String} :
    lastWrite key events = none <-> ∀ event ∈ events, event.writesTo key = false := by
  rw [lastWrite, List.getLast?_eq_none_iff, List.filter_eq_nil_iff]
  exact forall_congr' fun event => forall_congr' fun _ => Iff.of_eq (Bool.not_eq_true _)

theorem lastWrite_quiet {new : List Event} (quiet : ∀ event ∈ new, event.isWrite = false)
    (key : String) : lastWrite key new = none :=
  lastWrite_none.mpr fun event member => by rw [Event.writesTo, quiet event member, Bool.false_and]

theorem lastWrite_drop {key : String} (count : Nat)
    (later : ∀ event ∈ events.take count, event.writesTo key = true -> ∃ other ∈ events.drop count, other.writesTo key = true) :
    lastWrite key (events.drop count) = lastWrite key events := by
  have split := lastWrite_append key (events.take count) (events.drop count)
  rw [List.take_append_drop] at split
  cases last : lastWrite key (events.drop count) with
  | some event => rw [split, last, Option.some_or]
  | none =>
    have before : lastWrite key (events.take count) = none := by
      refine lastWrite_none.mpr (fun event member => ?_)
      by_contra writes
      rcases later event member (eq_true_of_ne_false writes) with ⟨other, listed, also⟩
      exact Bool.noConfusion ((lastWrite_none.mp last other listed).symm.trans also)
    rw [split, last, Option.none_or, before]

/-- Items that have left a bounded list do not come back. -/
theorem drop_append_drop (limit : Nat) (events new : List Event) :
    (events.drop (events.length - limit) ++ new).drop
        ((events.drop (events.length - limit) ++ new).length - limit) =
      (events ++ new).drop ((events ++ new).length - limit) := by
  rw [<- List.drop_append_of_le_length (Nat.sub_le _ _), List.drop_drop, List.length_drop, List.length_append]
  congr 1
  omega

theorem lastEvents_append (events new : List Event) :
    lastEvents (lastEvents events ++ new) = lastEvents (events ++ new) := by
  unfold lastEvents
  exact drop_append_drop 1000 events new

theorem recordConflict_logged (board : Board) (conflict : Record) (eventType : String) (payload : Record) :
    ∃ item, ((board.recordConflict conflict).appendEvent eventType payload).events =
      lastEvents (board.events ++ [⟨board.eventSequence + 1, "conflict_detected", item⟩,
        ⟨board.eventSequence + 2, eventType, payload⟩]) := by
  refine ⟨Record.update conflict [("lifecycle", .str "pending")], ?_⟩
  show lastEvents (lastEvents (board.events ++ [_]) ++ [_]) = _
  rw [lastEvents_append, List.append_assoc]
  rfl

theorem lastEvents_eq {new : List Event} (few : new.length ≤ 1000) :
    lastEvents (events ++ new) = events.drop (events.length + new.length - 1000) ++ new := by
  have within : events.length + new.length - 1000 ≤ events.length := by omega
  unfold lastEvents
  rw [List.length_append]
  exact List.drop_append_of_le_length within

/-! ## Entries and their log -/

/-- The value under a key, with its source. -/
def Board.view (board : Board) (key : String) : Option (Json × String) :=
  (board.find? key).map fun entry => (entry.value, entry.sourceAgent)

variable (entry : BlackboardEntry) {operation : Operation}

theorem view_stored {after : Board}
    (entries : after.entries = Keyed.store BlackboardEntry.key entry board.entries) :
    after.view entry.key = some (entry.value, entry.sourceAgent) ∧
      ∀ key, key ≠ entry.key -> after.view key = board.view key := by
  refine ⟨?_, ?_⟩
  · rw [Board.view, Board.find?, entries, Keyed.find?_store_self]
    rfl
  · intro key apart
    rw [Board.view, Board.find?, entries, Keyed.find?_store_ne apart.symm]
    rfl

structure Lasting (board : Board) : Prop where
  distinct : Keyed.Distinct BlackboardEntry.key board.entries
  lasting : ∀ entry ∈ board.entries, entry.ttl = none
  policies : ∀ policy ∈ board.namespacePolicies, policy.defaultTtl = none

structure Mirrors (events : List Event) (board : Board) : Prop where
  values : ∀ key, (board.view key).map Prod.fst = (lastWrite key events).map Event.value
  sources : ∀ event ∈ events, event.isWrite = true ->
    (board.view event.key).map Prod.snd = some event.source
  timeless : ∀ event ∈ events, event.isWrite = true -> (event.payload.get "ttl").number? = none

namespace Mirrors

variable {events : List Event} {board after : Board}

theorem quiet (mirrors : Mirrors events board) {new : List Event}
    (silent : ∀ event ∈ new, event.isWrite = false) (same : ∀ key, after.view key = board.view key) :
    Mirrors (events ++ new) after := by
  refine ⟨?_, ?_, ?_⟩
  · intro key
    rw [lastWrite_append, lastWrite_quiet silent, Option.none_or, same]
    exact mirrors.values key
  · intro event member writes
    rw [same]
    rcases List.mem_append.mp member with old | added
    · exact mirrors.sources event old writes
    · exact Bool.noConfusion ((silent event added).symm.trans writes)
  · intro event member writes
    rcases List.mem_append.mp member with old | added
    · exact mirrors.timeless event old writes
    · exact Bool.noConfusion ((silent event added).symm.trans writes)

/-- An entry is stored and its write is logged. -/
theorem written (mirrors : Mirrors events board) {entry : BlackboardEntry} {event : Event}
    (entries : after.entries = Keyed.store BlackboardEntry.key entry board.entries) (writes : event.isWrite = true)
    (timeless : (event.payload.get "ttl").number? = none) (key : event.key = entry.key)
    (value : event.value = entry.value) (source : event.source = entry.sourceAgent)
    (owned : ∀ existing, board.find? entry.key = some existing -> existing.sourceAgent = entry.sourceAgent) :
    Mirrors (events ++ [event]) after := by
  have views := view_stored entry entries
  rw [<- key, <- source] at owned
  rw [<- key, <- value, <- source] at views
  rcases views with ⟨stored, others⟩
  refine ⟨?_, ?_, ?_⟩
  · intro key
    rw [lastWrite_append]
    by_cases here : event.key = key
    · have last : lastWrite key [event] = some event := by
        simp [lastWrite, Event.writesTo, writes, here]
      rw [last, Option.some_or, <- here, stored]
      rfl
    · have none : lastWrite key [event] = none := by
        simp [lastWrite, Event.writesTo, here]
      rw [none, Option.none_or, others key (Ne.symm here)]
      exact mirrors.values key
  · intro other member also
    rcases List.mem_append.mp member with old | added
    · by_cases here : other.key = event.key
      · have known := mirrors.sources other old also
        rw [here, Board.view] at known
        rw [here, stored]
        cases found : board.find? event.key with
        | none => rw [found] at known; cases known
        | some existing =>
          rw [found] at known
          rw [Option.map_some, <- owned existing found]
          exact known
      · rw [others other.key here]
        exact mirrors.sources other old also
    · rw [List.mem_singleton.mp added, stored]
      rfl
  · intro other member also
    rcases List.mem_append.mp member with old | added
    · exact mirrors.timeless other old also
    · rw [List.mem_singleton.mp added]
      exact timeless

/-- Events leave the log. -/
theorem dropped (mirrors : Mirrors events board) (count : Nat)
    (later : ∀ event ∈ events.take count, event.isWrite = true ->
      ∃ other ∈ events.drop count, other.writesTo event.key = true) :
    Mirrors (events.drop count) board := by
  refine ⟨?_, fun event member => mirrors.sources event (List.mem_of_mem_drop member),
    fun event member => mirrors.timeless event (List.mem_of_mem_drop member)⟩
  intro key
  rw [lastWrite_drop count]
  · exact mirrors.values key
  · intro event member writes
    rw [Event.writesTo, Bool.and_eq_true, decide_eq_true_eq] at writes
    rw [<- writes.2]
    exact later event member writes.1

/-- New events push out what need not stay. -/
theorem last {new : List Event} (mirrors : Mirrors (events ++ new) board) (few : new.length ≤ 1000)
    {key : Option String} (kept : Kept new.length key events)
    (written : ∀ name, key = some name -> ∃ event ∈ new, event.writesTo name = true) :
    Mirrors (lastEvents (events ++ new)) board := by
  have within : events.length + new.length - 1000 ≤ events.length := by omega
  rw [lastEvents_eq few, <- List.drop_append_of_le_length within]
  refine mirrors.dropped _ ?_
  rw [List.take_append_of_le_length within, List.drop_append_of_le_length within]
  intro event member writes
  rcases kept event member writes with here | ⟨other, listed, also⟩
  · rcases written event.key here with ⟨other, added, also⟩
    exact ⟨other, List.mem_append_right _ added, also⟩
  · exact ⟨other, List.mem_append_left _ listed, also⟩

end Mirrors

theorem longest_mem {policies : List NamespacePolicy} {policy : NamespacePolicy}
    (found : longest policies = some policy) : policy ∈ policies := by
  induction policies generalizing policy with
  | nil => cases found
  | cons head rest ih =>
    rw [longest] at found
    cases later : longest rest with
    | none =>
      rw [later] at found
      cases found
      exact List.mem_cons_self
    | some other =>
      rw [later] at found
      dsimp only at found
      split at found
      · cases found
        exact List.mem_cons_of_mem _ (ih later)
      · cases found
        exact List.mem_cons_self

namespace Lasting

variable {board : Board}

theorem purgeExpired (lasting : Lasting board) (now : Moment) : board.purgeExpired now = board :=
  purgeExpired_unexpired fun entry member => by rw [BlackboardEntry.expired, lasting.lasting entry member]

theorem ttlFor (lasting : Lasting board) (key : String) : board.ttlFor key none = none := by
  rw [Board.ttlFor, Option.none_or]
  cases found : board.policyFor key with
  | none => rfl
  | some policy => exact lasting.policies policy (List.mem_of_mem_filter (longest_mem found))

theorem stored (lasting : Lasting board) (entry : BlackboardEntry) (untimed : entry.ttl = none) {after : Board}
    (entries : after.entries = Keyed.store BlackboardEntry.key entry board.entries)
    (policies : after.namespacePolicies = board.namespacePolicies) : Lasting after := by
  refine ⟨?_, ?_, ?_⟩
  · rw [entries]
    exact Keyed.distinct_store entry lasting.distinct
  · intro other member
    rw [entries] at member
    rcases Keyed.mem_store member with rfl | old
    · exact untimed
    · exact lasting.lasting other old
  · rw [policies]
    exact lasting.policies

end Lasting

/-- A stored entry with the value and the source of the old one. -/
theorem view_kept {after : Board}
    (entries : after.entries = Keyed.store BlackboardEntry.key entry board.entries)
    (same : board.view entry.key = some (entry.value, entry.sourceAgent)) (key : String) :
    after.view key = board.view key := by
  by_cases here : key = entry.key
  · rw [here, (view_stored entry entries).1, same]
  · exact (view_stored entry entries).2 key here

/-! ## Steps -/

/-- The operation is one of a board without times to live that restores nothing. -/
def Operation.Timeless : Operation -> Prop
  | .registerNamespace _ => False
  | .mergeProposal _ _ proposal => (proposal.get "ttl").number? = none
  | .write _ _ _ _ _ _ ttl _ _ => ttl = none
  | .restoreSnapshot _ _ _ => False
  | _ => True

theorem Operation.Timeless.unrestored (timeless : operation.Timeless) : operation.restores = false := by
  cases operation with
  | restoreSnapshot => exact timeless.elim
  | _ => rfl

/-- The merge stores no new key, and no last write of a key leaves the log. -/
def MergeKept (board : Board) : Board.MergeOutcome -> Prop
  | .created => False
  | .conflicted _ => Kept 1 none board.events
  | .confirmed _ => Kept 1 none board.events
  | _ => Kept 2 none board.events

def WriteKept (board : Board) (key : String) : Board.WriteOutcome -> Prop
  | .accepted _ => Kept 1 (some key) board.events
  | _ => Kept 2 none board.events

/-- The replay can follow the operation: no merge stores a new key, a winner
is what its key has already, and no last write of a key leaves the log. -/
def Replayable (board : Board) : Operation -> Prop
  | .propose _ _ _ _ _ _ _ _ => Kept 1 none board.events
  | .mergeProposal now _ proposal => MergeKept board ((board.purgeExpired now).mergeOutcome proposal)
  | .write now _ _ key value sourceAgent _ expectedRevision _ =>
    WriteKept board key ((board.purgeExpired now).writeOutcome key value sourceAgent expectedRevision)
  | .applyConflictWinner now _ _ key value winnerSource =>
    (board.purgeExpired now).view key = some (value, winnerSource)
  | _ => True

/-- The state of the log and of the entries that a replay can rebuild. -/
structure Mirrored (board : Board) : Prop where
  lasting : Lasting board
  mirrors : Mirrors board.events board

namespace Mirrored

variable {board after : Board}

/-- One event that is no write comes in. -/
theorem one (mirrored : Mirrored board) (event : Event) (silent : event.isWrite = false)
    (kept : Kept 1 none board.events) (lasting : Lasting after)
    (same : ∀ key, after.view key = board.view key)
    (logged : after.events = lastEvents (board.events ++ [event])) : Mirrored after := by
  refine ⟨lasting, ?_⟩
  rw [logged]
  have appended : Mirrors (board.events ++ [event]) after :=
    mirrored.mirrors.quiet (fun other member => by rw [List.mem_singleton.mp member, silent]) same
  exact appended.last (Nat.le_add_left 1 999) kept fun name impossible => by cases impossible

theorem conflict (mirrored : Mirrored board) (conflict : Record) {eventType : String} (payload : Record)
    (silent : eventType ≠ "blackboard_write") (kept : Kept 2 none board.events) :
    Mirrored ((board.recordConflict conflict).appendEvent eventType payload) := by
  refine ⟨⟨mirrored.lasting.distinct, mirrored.lasting.lasting, mirrored.lasting.policies⟩, ?_⟩
  rcases recordConflict_logged board conflict eventType payload with ⟨item, logged⟩
  rw [logged]
  have appended : Mirrors (board.events ++ [⟨board.eventSequence + 1, "conflict_detected", item⟩,
      ⟨board.eventSequence + 2, eventType, payload⟩]) ((board.recordConflict conflict).appendEvent eventType payload) :=
    mirrored.mirrors.quiet (by simp [Event.isWrite, silent]) fun key => rfl
  exact appended.last (Nat.le_add_left 2 998) kept fun name impossible => by cases impossible

variable {entry : BlackboardEntry}

/-- An entry is stored that replaces nothing of another value or source, and a
merge is logged. -/
theorem confirmed (mirrored : Mirrored board) (proposal : Record) (untimed : entry.ttl = none)
    (same : board.view entry.key = some (entry.value, entry.sourceAgent)) (kept : Kept 1 none board.events) :
    Mirrored (board.acceptMerge proposal entry).1 :=
  mirrored.one ⟨board.eventSequence + 1, "blackboard_merge",
      (proposal.set "status" (.str "accepted")).set "revision" (.int (board.revision + 1))⟩ rfl kept
    (mirrored.lasting.stored { entry with revision := board.revision + 1 } untimed rfl rfl)
    (view_kept { entry with revision := board.revision + 1 } rfl same) rfl

/-- An entry is stored and its write is logged. -/
theorem accepted (mirrored : Mirrored board) {event : Event}
    (entries : after.entries = Keyed.store BlackboardEntry.key entry board.entries)
    (policies : after.namespacePolicies = board.namespacePolicies)
    (logged : after.events = lastEvents (board.events ++ [event])) (untimed : entry.ttl = none)
    (writes : event.isWrite = true) (timeless : (event.payload.get "ttl").number? = none)
    (key : event.key = entry.key) (value : event.value = entry.value)
    (source : event.source = entry.sourceAgent)
    (owned : ∀ existing, board.find? entry.key = some existing -> existing.sourceAgent = entry.sourceAgent)
    (kept : Kept 1 (some entry.key) board.events) : Mirrored after := by
  refine ⟨mirrored.lasting.stored entry untimed entries policies, ?_⟩
  have appended : Mirrors (board.events ++ [event]) after :=
    mirrored.mirrors.written entries writes timeless key value source owned
  rw [logged]
  refine appended.last (Nat.le_add_left 1 999) kept fun name same => ?_
  cases same
  exact ⟨event, List.mem_singleton_self event, by rw [Event.writesTo, writes, key]; simp⟩

theorem mergeInto (mirrored : Mirrored board) (created : Moment) (proposal : Record)
    (replayable : MergeKept board (board.mergeOutcome proposal)) :
    Mirrored (board.mergeInto created proposal).1 := by
  unfold Board.mergeInto
  cases outcome : board.mergeOutcome proposal with
  | conflicted existing =>
    rw [outcome] at replayable
    exact mirrored.one ⟨board.eventSequence + 1, "conflict_detected", _⟩ rfl replayable
      ⟨mirrored.lasting.distinct, mirrored.lasting.lasting, mirrored.lasting.policies⟩ (fun key => rfl) rfl
  | confirmed existing =>
    rw [outcome] at replayable
    have found := Board.mergeOutcome_confirmed outcome
    refine mirrored.confirmed proposal (mirrored.lasting.lasting existing (Keyed.find?_some found).1) ?_ replayable
    show board.view existing.key = some (existing.value, existing.sourceAgent)
    rw [Board.find?_key found, Board.view, found]
    rfl
  | created =>
    rw [outcome] at replayable
    exact replayable.elim
  | _ =>
    rw [outcome] at replayable
    exact mirrored.conflict _ _ (by decide) replayable

theorem writeInto (mirrored : Mirrored board) (created : Moment) (entryId : Identifier) (key : String)
    (value : Json) (sourceAgent : String) (expectedRevision : Option Int) (evidenceRefs : List String)
    (replayable : WriteKept board key (board.writeOutcome key value sourceAgent expectedRevision)) :
    Mirrored (board.writeInto created entryId key value sourceAgent none expectedRevision evidenceRefs).1 := by
  unfold Board.writeInto
  cases outcome : board.writeOutcome key value sourceAgent expectedRevision with
  | accepted existing =>
    rw [outcome] at replayable
    refine mirrored.accepted rfl rfl rfl (mirrored.lasting.ttlFor key) rfl ?_ rfl rfl rfl
      (writeOutcome_accepted outcome).2 replayable
    rw [mirrored.lasting.ttlFor key]
    rfl
  | _ =>
    rw [outcome] at replayable
    exact mirrored.conflict _ _ (by decide) replayable

end Mirrored

theorem mirrored_step (mirrored : Mirrored board) (timeless : operation.Timeless)
    (replayable : Replayable board operation) : Mirrored (step board operation) := by
  have purged (now : Moment) := mirrored.lasting.purgeExpired now
  cases operation with
  | registerNamespace | restoreSnapshot => exact timeless.elim
  | propose proposalId key value sourceAgent evidenceRefs baseRevision baseEntryRevision ttl =>
    exact mirrored.one ⟨board.eventSequence + 1, "proposal_created", _⟩ rfl replayable
      ⟨mirrored.lasting.distinct, mirrored.lasting.lasting, mirrored.lasting.policies⟩ (fun key => rfl) rfl
  | mergeProposal now created proposal =>
    rw [Replayable, purged] at replayable
    rw [step, Board.mergeProposal, purged]
    exact mirrored.mergeInto created proposal replayable
  | write now created entryId key value sourceAgent ttl expectedRevision evidenceRefs =>
    cases timeless
    rw [Replayable, purged] at replayable
    rw [step, Board.write, purged]
    exact mirrored.writeInto created entryId key value sourceAgent expectedRevision evidenceRefs replayable
  | read now key =>
    rw [step, Board.read, purged]
    exact mirrored
  | snapshot now =>
    rw [step, Board.snapshot, purged]
    exact mirrored
  | resolveConflict key winnerSource
  | rejectConflict key reason => exact ⟨⟨mirrored.lasting.distinct, mirrored.lasting.lasting,
      mirrored.lasting.policies⟩, ⟨mirrored.mirrors.values, mirrored.mirrors.sources, mirrored.mirrors.timeless⟩⟩
  | applyConflictWinner now created entryId key value winnerSource =>
    rw [Replayable, purged] at replayable
    rw [step, Board.applyConflictWinner, purged]
    have views : ∀ other, (board.applyWinner created entryId key value winnerSource).view other =
        board.view other := view_kept _ rfl replayable
    have lasting : Lasting (board.applyWinner created entryId key value winnerSource) :=
      mirrored.lasting.stored _ rfl rfl rfl
    refine ⟨lasting, ⟨?_, ?_, mirrored.mirrors.timeless⟩⟩
    · intro other
      rw [views]
      exact mirrored.mirrors.values other
    · intro event member writes
      rw [views]
      exact mirrored.mirrors.sources event member writes

/-! ## Sequence numbers -/

structure Sequenced (board : Board) : Prop where
  sorted : board.events.Pairwise (fun earlier later => earlier.sequence < later.sequence)
  bounded : ∀ event ∈ board.events, event.sequence ≤ board.eventSequence

namespace Sequenced

variable {board : Board}

/-- The next number goes to the event that comes in. -/
theorem logged (sequenced : Sequenced board) {after : Board} {event : Event}
    (numbered : event.sequence = board.eventSequence + 1)
    (events : after.events = lastEvents (board.events ++ [event]))
    (next : after.eventSequence = board.eventSequence + 1) : Sequenced after := by
  have whole : (board.events ++ [event]).Pairwise (fun earlier later => earlier.sequence < later.sequence) := by
    refine List.pairwise_append.mpr ⟨sequenced.sorted, List.pairwise_singleton _ _, ?_⟩
    intro earlier member later last
    rw [List.mem_singleton.mp last, numbered]
    exact Nat.lt_succ_of_le (sequenced.bounded earlier member)
  have part : List.Sublist after.events (board.events ++ [event]) := by
    rw [events]
    unfold lastEvents
    exact List.drop_sublist _ _
  refine ⟨whole.sublist part, ?_⟩
  intro other member
  rw [next]
  rcases List.mem_append.mp (part.mem member) with old | added
  · exact Nat.le_succ_of_le (sequenced.bounded other old)
  · rw [List.mem_singleton.mp added]
    exact Nat.le_of_eq numbered

theorem appendEvent (sequenced : Sequenced board) (eventType : String) (payload : Record) :
    Sequenced (board.appendEvent eventType payload) := sequenced.logged rfl rfl rfl

theorem recordConflict (sequenced : Sequenced board) (conflict : Record) :
    Sequenced (board.recordConflict conflict) := sequenced.logged rfl rfl rfl

theorem mergeInto (sequenced : Sequenced board) (created : Moment) (proposal : Record) :
    Sequenced (board.mergeInto created proposal).1 := by
  have accepts (entry : BlackboardEntry) : Sequenced (board.acceptMerge proposal entry).1 :=
    sequenced.logged rfl rfl rfl
  unfold Board.mergeInto
  cases board.mergeOutcome proposal with
  | conflicted existing => exact sequenced.recordConflict _
  | confirmed existing => exact accepts _
  | created => exact accepts _
  | _ => exact (sequenced.recordConflict _).appendEvent _ _

theorem writeInto (sequenced : Sequenced board) (created : Moment) (entryId : Identifier) (key : String)
    (value : Json) (sourceAgent : String) (ttl : Option ℚ) (expectedRevision : Option Int)
    (evidenceRefs : List String) :
    Sequenced (board.writeInto created entryId key value sourceAgent ttl expectedRevision evidenceRefs).1 := by
  unfold Board.writeInto
  cases board.writeOutcome key value sourceAgent expectedRevision with
  | accepted existing => exact sequenced.logged rfl rfl rfl
  | _ => exact (sequenced.recordConflict _).appendEvent _ _

theorem step (sequenced : Sequenced board) {operation : Operation} (kept : operation.restores = false) :
    Sequenced (step board operation) := by
  have purged (now : Moment) : Sequenced (board.purgeExpired now) := ⟨sequenced.sorted, sequenced.bounded⟩
  cases operation with
  | propose => exact sequenced.logged rfl rfl rfl
  | mergeProposal now created proposal => exact (purged now).mergeInto created proposal
  | write now created entryId key value sourceAgent ttl expectedRevision evidenceRefs =>
    exact (purged now).writeInto created entryId key value sourceAgent ttl expectedRevision evidenceRefs
  | restoreSnapshot => cases kept
  | read now key => exact purged now
  | snapshot now => exact purged now
  | _ => exact ⟨sequenced.sorted, sequenced.bounded⟩

end Sequenced

/-! ## The replay -/

theorem consistent (mirrors : Mirrors events board) {first second : Event} (listed : first ∈ events)
    (also : second ∈ events) (writes : first.isWrite = true) (writesToo : second.isWrite = true)
    (same : first.key = second.key) : first.source = second.source := by
  have known := mirrors.sources first listed writes
  rw [same, mirrors.sources second also writesToo] at known
  exact (Option.some.inj known).symm

theorem writeOutcome_owned {key : String} {value : Json} {sourceAgent : String}
    (policies : board.namespacePolicies = [])
    (owned : ∀ existing, board.find? key = some existing -> existing.sourceAgent = sourceAgent) :
    board.writeOutcome key value sourceAgent none = .accepted (board.find? key) := by
  have valid : board.validateWrite key value sourceAgent = (true, "") := by
    rw [Board.validateWrite, Board.policyFor, policies]
    rfl
  rw [Board.writeOutcome, valid]
  cases found : board.find? key with
  | none => rfl
  | some existing => exact if_neg (not_not.mpr (owned existing found))

/-- The write of a logged event is accepted by a board that mirrors the events
before it. -/
theorem replayed_write {earlier : List Event} {rebuilt : Board} (mirrors : Mirrors events board)
    (known : Mirrors earlier rebuilt) (lasting : Lasting rebuilt)
    (policies : rebuilt.namespacePolicies = []) (within : earlier ⊆ events) {event : Event}
    (listed : event ∈ events) (writes : event.isWrite = true) (reading : Board.Reading) :
    let after := (rebuilt.write reading.now reading.created reading.entryId event.key event.value event.source
      (event.payload.get "ttl").number? none (event.payload.texts "evidence_refs")).1
    Lasting after ∧ after.namespacePolicies = [] ∧ Mirrors (earlier ++ [event]) after := by
  have owned : ∀ existing, rebuilt.find? event.key = some existing -> existing.sourceAgent = event.source := by
    intro existing found
    have logged := known.values event.key
    rw [Board.view, found] at logged
    cases last : lastWrite event.key earlier with
    | none => rw [last] at logged; cases logged
    | some other =>
      have chosen := List.mem_filter.mp (List.mem_of_getLast? last)
      rw [Event.writesTo, Bool.and_eq_true, decide_eq_true_eq] at chosen
      have source := known.sources other chosen.1 chosen.2.1
      rw [chosen.2.2, Board.view, found] at source
      rw [<- consistent mirrors (within chosen.1) listed chosen.2.1 writes chosen.2.2]
      exact Option.some.inj source
  intro after
  have written : after = (rebuilt.writeInto reading.created reading.entryId event.key event.value event.source
      none none (event.payload.texts "evidence_refs")).1 := by
    show (rebuilt.write _ _ _ _ _ _ _ _ _).1 = _
    rw [Board.write, lasting.purgeExpired, mirrors.timeless event listed writes]
  rw [written, Board.writeInto, writeOutcome_owned policies owned]
  refine ⟨lasting.stored _ (lasting.ttlFor event.key) rfl rfl, policies, ?_⟩
  exact known.written rfl writes (mirrors.timeless event listed writes) rfl rfl rfl owned

theorem replay_mirrors (mirrors : Mirrors events board) (readings : Event -> Board.Reading) :
    ∀ replayed : List Event, replayed ⊆ events ->
      let rebuilt := replayed.foldl (Board.replayEvent readings) { namespacePolicies := [] }
      Lasting rebuilt ∧ rebuilt.namespacePolicies = [] ∧ Mirrors replayed rebuilt := by
  intro replayed
  induction replayed using List.reverseRecOn with
  | nil =>
    intro _
    refine ⟨⟨List.nodup_nil, (fun entry member => by cases member), (fun policy member => by cases member)⟩,
      rfl, ?_⟩
    exact ⟨fun key => rfl, (fun event member => by cases member), (fun event member => by cases member)⟩
  | append_singleton earlier event ih =>
    intro within
    rcases ih (fun other member => within (List.mem_append_left _ member)) with ⟨lasting, policies, known⟩
    rw [List.foldl_append, List.foldl_cons, List.foldl_nil]
    generalize earlier.foldl (Board.replayEvent readings) { namespacePolicies := [] } = rebuilt
      at lasting policies known
    have listed := within (List.mem_append_right _ (List.mem_singleton_self event))
    unfold Board.replayEvent
    by_cases writes : event.eventType = "blackboard_write"
    · rw [if_pos writes]
      exact replayed_write mirrors known lasting policies (fun other member => within
        (List.mem_append_left _ member)) listed (decide_eq_true writes) (readings event)
    · rw [if_neg writes]
      refine ⟨lasting, policies, known.quiet ?_ fun key => rfl⟩
      intro other member
      rw [List.mem_singleton.mp member]
      exact decide_eq_false writes

/-- The log is replayed in its own order. -/
theorem replayEvents_eq (sequenced : Sequenced board) (readings : Event -> Board.Reading)
    (policies : List NamespacePolicy) :
    Board.replayEvents readings policies board.events =
      board.events.foldl (Board.replayEvent readings) { namespacePolicies := policies } := by
  have sorted : board.events.mergeSort (fun first second => first.sequence ≤ second.sequence) = board.events :=
    List.mergeSort_of_pairwise (sequenced.sorted.imp fun less => decide_eq_true (Nat.le_of_lt less))
  rw [Board.replayEvents, sorted]

theorem sequenced_new (policies : List NamespacePolicy) : Sequenced { namespacePolicies := policies } :=
  ⟨.nil, (fun event member => by cases member)⟩

theorem sequenced_run (sequenced : Sequenced board) {operations : List Operation}
    (unrestored : Unrestored operations) : Sequenced (machine.run board operations) := by
  induction operations generalizing board with
  | nil => exact sequenced
  | cons operation rest ih =>
    exact ih (sequenced.step (unrestored operation List.mem_cons_self)) unrestored.tail

theorem replayEvents_mirrors (mirrored : Mirrored board) (sequenced : Sequenced board)
    (readings : Event -> Board.Reading) :
    Lasting (Board.replayEvents readings [] board.events) ∧
      Mirrors board.events (Board.replayEvents readings [] board.events) := by
  rw [replayEvents_eq sequenced]
  have replayed := replay_mirrors mirrored.mirrors readings board.events (List.Subset.refl _)
  exact ⟨replayed.1, replayed.2.2⟩

/-- Every key of the replay reads as on the board. -/
def Rebuilds (board : Board) : Prop :=
  ∀ (readings : Event -> Board.Reading) (now later : Moment) (key : String),
    ((Board.replayEvents readings [] board.events).read later key).2 = (board.read now key).2

theorem rebuilds (mirrored : Mirrored board) (sequenced : Sequenced board) : Rebuilds board := by
  intro readings now later key
  rcases replayEvents_mirrors mirrored sequenced readings with ⟨lasting, mirrors⟩
  have same := (mirrors.values key).trans (mirrored.mirrors.values key).symm
  rw [Board.view, Board.view, Option.map_map, Option.map_map] at same
  rw [Board.read, Board.read, lasting.purgeExpired, mirrored.lasting.purgeExpired]
  exact congrArg (fun value => value.getD Json.null) same

/-- In a run without times to live whose every operation the replay can
follow, the replay of the log rebuilds every board on the way. -/
theorem replay_rebuilds (policies : List NamespacePolicy)
    (untimed : ∀ policy ∈ policies, policy.defaultTtl = none) (operations : List Operation)
    (timeless : ∀ operation ∈ operations, operation.Timeless)
    (replayable : machine.Along Replayable { namespacePolicies := policies } operations) :
    machine.Visits Rebuilds { namespacePolicies := policies } operations := by
  have start : Mirrored { namespacePolicies := policies } ∧ Sequenced { namespacePolicies := policies } := by
    refine ⟨⟨⟨List.nodup_nil, (fun entry member => by cases member), untimed⟩, ⟨fun key => rfl,
      (fun event member => by cases member), (fun event member => by cases member)⟩⟩, ?_⟩
    exact sequenced_new policies
  have preserved : ∀ (board : Board) (operation : Operation), Mirrored board ∧ Sequenced board ->
      operation.Timeless ∧ Replayable board operation ->
      Mirrored (step board operation) ∧ Sequenced (step board operation) := by
    rintro board operation ⟨mirrored, sequenced⟩ ⟨timeless, replayable⟩
    exact ⟨mirrored_step mirrored timeless replayable, sequenced.step timeless.unrestored⟩
  exact machine.visits_along preserved (fun _ known => rebuilds known.1 known.2) start operations
    (machine.along_with timeless replayable)

theorem kept_of_few {count : Nat} (few : events.length + count ≤ 1000) (key : Option String) :
    Kept count key events := by
  rw [Kept, Nat.sub_eq_zero_of_le few]
  intro event member
  cases member

theorem write_replayable (board : Board) (few : board.events.length + 2 ≤ 1000) (now created : Moment)
    (entryId : Identifier) (key : String) (value : Json) (sourceAgent : String) (ttl : Option ℚ)
    (expectedRevision : Option Int) (evidenceRefs : List String) :
    Replayable board (.write now created entryId key value sourceAgent ttl expectedRevision evidenceRefs) := by
  rw [Replayable]
  cases (board.purgeExpired now).writeOutcome key value sourceAgent expectedRevision with
  | accepted existing => exact kept_of_few (Nat.le_of_succ_le few) _
  | _ => exact kept_of_few few _

theorem written_twice :
    let early : Moment := ⟨1, by decide⟩
    let write (value : Json) : Operation := .write early early ⟨"e", by decide⟩ "k" value "a" none none []
    Rebuilds (machine.run { namespacePolicies := [] } [write (.int 1), write (.int 2)]) := by
  intro early write
  refine machine.visits_last (replay_rebuilds [] (fun policy member => by cases member)
    [write (.int 1), write (.int 2)] ?_ ⟨?_, ?_, True.intro⟩)
  · intro operation member
    rcases List.mem_cons.mp member with rfl | later
    · rfl
    · rw [List.mem_singleton.mp later]
      rfl
  · exact write_replayable _ (by decide) _ _ _ _ _ _ _ _ _
  · exact write_replayable _ (by decide +kernel) _ _ _ _ _ _ _ _ _

/-- The replay knows neither the merge that stores a value nor the winner that
replaces one, and then refuses the winner's own accepted write. -/
theorem merge_not_replayed :
    let early : Moment := ⟨1, by decide⟩
    let entryId : Identifier := ⟨"e", by decide⟩
    let start : Board := { namespacePolicies := [] }
    let merged := machine.run start [.mergeProposal early early [("key", .str "k"), ("value", .int 1)]]
    let won := machine.run start [.write early early entryId "k" (.int 1) "a" none none [],
      .applyConflictWinner early early entryId "k" (.int 2) "b",
      .write early early entryId "k" (.int 3) "b" none none []]
    let replay (board : Board) := Board.replayEvents (fun _ => ⟨early, early, entryId⟩) [] board.events
    (merged.read early "k").2.int? = some 1 ∧ ((replay merged).read early "k").2.int? = none ∧
      (won.read early "k").2.int? = some 3 ∧ ((replay won).read early "k").2.int? = some 1 := by
  intro early entryId start merged won replay
  have sequenced : Sequenced won := sequenced_run (sequenced_new []) (by simp [Unrestored, Operation.restores])
  refine ⟨?_, ?_, ?_, ?_⟩
  · decide +kernel
  · decide +kernel
  · decide +kernel
  · rw [show replay won = _ from replayEvents_eq sequenced _ []]
    decide +kernel

end Blackboard
end FixLoop
