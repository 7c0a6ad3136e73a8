import FixLoop.Workbench.History

namespace FixLoop
namespace Workbench

open Library

/-!
# The event log of a run

The log of a run and its rows tell one story.  The invariant lists the few
logs that a run can have, by the status of its row and of its candidate; every
change of the history appends to one log what the rows have just become.
-/

/-- An event without its run and number. -/
abbrev Entry := EventKind × EventPayload

def Event.entry (event : Event) : Entry := (event.kind, event.payload)

/-- The log of a run that has begun: queued, and perhaps started. -/
inductive Opening (runId : Id) : List Entry -> Prop
  | queued (run : Run) (status : run.status = .queued) : Opening runId [(.runQueued, .run runId run)]
  | started (run running : Run) (status : run.status = .queued) (going : running.status = .running) :
      Opening runId [(.runQueued, .run runId run), (.runStarted, .run runId running)]

/-- The logs that go with a run and its candidate. -/
inductive Lifecycle (runId : Id) : Option Run -> Option Candidate -> List Entry -> Prop
  | absent : Lifecycle runId none none []
  | queued (run : Run) (status : run.status = .queued) :
      Lifecycle runId (some run) none [(.runQueued, .run runId run)]
  | running (run running : Run) (status : run.status = .queued)
      (going : running.status = .running) :
      Lifecycle runId (some running) none
        [(.runQueued, .run runId run), (.runStarted, .run runId running)]
  | finished (opening : List Entry) (run : Run) (opened : Opening runId opening)
      (ended : run.status.terminal = true) :
      Lifecycle runId (some run) none (opening ++ [(.runFinished, .run runId run)])
  | ready (opening : List Entry) (run : Run) (candidate : Candidate)
      (opened : Opening runId opening) (succeeded : run.status = .succeeded)
      (waiting : candidate.status = .ready) :
      Lifecycle runId (some run) (some candidate) (opening ++ [(.runFinished, .run runId run)])
  | settled (opening : List Entry) (run : Run) (candidate : Candidate) (kind : EventKind)
      (payload : EventPayload) (opened : Opening runId opening) (succeeded : run.status = .succeeded)
      (gone : candidate.status ≠ .ready)
      (settling : kind = .candidateApplied ∨ kind = .candidateDiscarded) :
      Lifecycle runId (some run) (some candidate)
        (opening ++ [(.runFinished, .run runId run), (kind, payload)])

/-- The log of every run is numbered from one and goes with its rows. -/
structure Mirrors (db : Database) (runId : Id) : Prop where
  numbered : (db.eventsOf runId).map Event.sequence = List.range' 1 (db.eventsOf runId).length
  told : Lifecycle runId (db.runs.lookup runId) (db.candidates.lookup runId)
    ((db.eventsOf runId).map Event.entry)

/-! ## One more event -/

variable {runId : Id}

theorem nextSequence_eq {db : Database}
    (numbered : (db.eventsOf runId).map Event.sequence = List.range' 1 (db.eventsOf runId).length) :
    db.nextSequence runId = (db.eventsOf runId).length + 1 := by
  have largest : ∀ count, (List.range' 1 count).foldr max 0 = count := by
    intro count
    induction count with
    | zero => rfl
    | succ count ih =>
      have below : ∀ (items : List Nat) (top : Nat),
          (items ++ [top]).foldr max 0 = max (items.foldr max 0) top := by
        intro items top
        induction items with
        | nil => exact Nat.max_comm top 0
        | cons item rest ih => rw [List.cons_append, List.foldr_cons, List.foldr_cons, ih, Nat.max_assoc]
      rw [List.range'_concat, below, ih]
      omega
  rw [Database.nextSequence, numbered, largest]

theorem eventsOf_logged (db : Database) (runId : Id) (kind : EventKind) (payload : EventPayload) :
    (db.logged runId kind payload).eventsOf runId =
      db.eventsOf runId ++ [⟨runId, db.nextSequence runId, kind, payload⟩] := by
  simp only [Database.eventsOf, Database.logged, List.filter_append, List.filter_cons, beq_self_eq_true,
    if_true, List.filter_nil]

theorem eventsOf_logged_other (db : Database) {other : Id} (different : other ≠ runId) (kind : EventKind)
    (payload : EventPayload) : (db.logged runId kind payload).eventsOf other = db.eventsOf other := by
  have apart : (runId == other) = false := beq_eq_false_iff_ne.mpr (Ne.symm different)
  simp only [Database.eventsOf, Database.logged, List.filter_append, List.filter_cons, apart,
    Bool.false_eq_true, if_false, List.filter_nil, List.append_nil]

/-- An event is appended to the log of a run whose rows have moved on. -/
theorem Mirrors.logged {db moved : Database} {runId : Id} (mirrors : Mirrors db runId)
    {kind : EventKind} {payload : EventPayload} (events : moved.events = db.events)
    (told : Lifecycle runId (moved.runs.lookup runId) (moved.candidates.lookup runId)
      ((db.eventsOf runId).map Event.entry ++ [(kind, payload)])) :
    Mirrors (moved.logged runId kind payload) runId := by
  have same : moved.eventsOf runId = db.eventsOf runId := by
    rw [Database.eventsOf, events]
    rfl
  constructor
  · rw [eventsOf_logged, List.map_append, List.length_append, same]
    rw [show moved.nextSequence runId = db.nextSequence runId by
      rw [Database.nextSequence, same]; rfl]
    rw [mirrors.numbered, nextSequence_eq mirrors.numbered, List.length_singleton, List.range'_concat,
      Nat.one_mul, Nat.add_comm 1]
    rfl
  · rw [eventsOf_logged, List.map_append, same]
    exact told

/-- Rows and logs of other runs. -/
theorem Mirrors.same {db after : Database} (mirrors : Mirrors db runId)
    (events : after.eventsOf runId = db.eventsOf runId)
    (runs : after.runs.lookup runId = db.runs.lookup runId)
    (candidates : after.candidates.lookup runId = db.candidates.lookup runId) : Mirrors after runId := by
  constructor
  · rw [events]
    exact mirrors.numbered
  · rw [events, runs, candidates]
    exact mirrors.told

section Rows

variable {runId : Id} {run : Run} {candidate : Candidate} {log : List Entry}

variable {candidate? : Option Candidate}

theorem Lifecycle.of_absent (told : Lifecycle runId none candidate? log) : candidate? = none ∧ log = [] := by
  cases told
  exact ⟨rfl, rfl⟩

theorem Lifecycle.of_queued (told : Lifecycle runId (some run) candidate? log)
    (queued : run.status = .queued) : candidate? = none ∧ log = [(.runQueued, .run runId run)] := by
  cases told with
  | queued run status => exact ⟨rfl, rfl⟩
  | running first run status going =>
    rw [queued] at going
    cases going
  | finished opening run opened ended =>
    rw [queued] at ended
    cases ended
  | ready opening run candidate opened succeeded
  | settled opening run candidate kind payload opened succeeded =>
    rw [queued] at succeeded
    cases succeeded

theorem Lifecycle.of_active (told : Lifecycle runId (some run) candidate? log)
    (active : run.status.active = true) : candidate? = none ∧ Opening runId log := by
  cases told with
  | queued run status => exact ⟨rfl, Opening.queued run status⟩
  | running first run status going => exact ⟨rfl, Opening.started first run status going⟩
  | finished opening run opened ended =>
    rw [RunStatus.terminal_iff, active] at ended
    cases ended
  | ready opening run candidate opened succeeded
  | settled opening run candidate kind payload opened succeeded =>
    rw [succeeded] at active
    cases active

theorem Lifecycle.of_succeeded (told : Lifecycle runId (some run) none log)
    (succeeded : run.status = .succeeded) : ∃ opening,
      Opening runId opening ∧ log = opening ++ [(.runFinished, .run runId run)] := by
  cases told with
  | queued run status =>
    rw [succeeded] at status
    cases status
  | running first run status going =>
    rw [succeeded] at going
    cases going
  | finished opening run opened ended => exact ⟨opening, opened, rfl⟩

theorem Lifecycle.of_ready {run? : Option Run} (told : Lifecycle runId run? (some candidate) log)
    (ready : candidate.status = .ready) : ∃ opening run,
      run? = some run ∧ run.status = .succeeded ∧ Opening runId opening ∧
        log = opening ++ [(.runFinished, .run runId run)] := by
  cases told with
  | ready opening run candidate opened succeeded => exact ⟨opening, run, rfl, succeeded, opened, rfl⟩
  | settled opening run candidate kind payload opened succeeded gone => exact absurd ready gone

end Rows

section Keeping

variable {db : Database} {runId : Id}

theorem Mirrors.settle (mirrors : Mirrors db runId) {candidate settled : Candidate}
    (stored : db.candidates.lookup runId = some candidate) (ready : candidate.status = .ready)
    (gone : settled.status ≠ .ready) {kind : EventKind} {payload : EventPayload}
    (settling : kind = .candidateApplied ∨ kind = .candidateDiscarded) :
    Mirrors (Database.logged { db with candidates := db.candidates.insert runId settled }
      runId kind payload) runId := by
  have told := mirrors.told
  rw [stored] at told
  rcases told.of_ready ready with ⟨opening, run, listed, succeeded, opened, log⟩
  refine @Mirrors.logged db { db with candidates := db.candidates.insert runId settled } runId mirrors
    kind payload rfl ?_
  rw [log, List.append_assoc]
  dsimp only
  rw [AList.lookup_insert, listed]
  exact Lifecycle.settled opening run settled kind payload opened succeeded gone settling

/-- A change tells the log of the run it is about what it does to its rows,
and leaves the logs of all other runs alone. -/
theorem Mirrors.change {after : Database} (mirrors : ∀ runId, Mirrors db runId)
    (change : Change db after) : ∀ runId, Mirrors after runId := by
  intro runId
  cases change with
  | @turnAdded nodeId newRun branchId node branch fresh freshRun kind home parent idle stored owner =>
    by_cases same : runId = newRun
    · subst same
      refine @Mirrors.logged db _ runId (mirrors runId) _ _ rfl ?_
      have told := (mirrors runId).told
      rw [Table.lookup_of_notMem freshRun] at told
      rcases told.of_absent with ⟨uncandidated, silent⟩
      dsimp only
      rw [AList.lookup_insert, uncandidated, silent]
      exact Lifecycle.queued _ rfl
    · exact (mirrors runId).same (eventsOf_logged_other _ same _ _) (AList.lookup_insert_ne same) rfl
  | @runStarted started run stored queued =>
    by_cases same : runId = started
    · subst same
      refine @Mirrors.logged db _ runId (mirrors runId) _ _ rfl ?_
      have told := (mirrors runId).told
      rw [stored] at told
      rcases told.of_queued queued with ⟨uncandidated, log⟩
      dsimp only
      rw [AList.lookup_insert, uncandidated, log]
      exact Lifecycle.running run _ queued rfl
    · exact (mirrors runId).same (eventsOf_logged_other _ same _ _) (AList.lookup_insert_ne same) rfl
  | @runFinished ending run finished stored active ended started home node =>
    by_cases same : runId = ending
    · subst same
      refine @Mirrors.logged db _ runId (mirrors runId) _ _ rfl ?_
      have told := (mirrors runId).told
      rw [stored] at told
      rcases told.of_active active with ⟨uncandidated, opened⟩
      dsimp only
      rw [AList.lookup_insert, uncandidated]
      exact Lifecycle.finished _ finished opened ended
    · exact (mirrors runId).same (eventsOf_logged_other _ same _ _) (AList.lookup_insert_ne same) rfl
  | @candidateAdded proposing run candidate stored succeeded fresh ready =>
    by_cases same : runId = proposing
    · subst same
      have told := (mirrors runId).told
      rw [stored, Table.lookup_of_notMem fresh] at told
      rcases told.of_succeeded succeeded with ⟨opening, opened, log⟩
      refine ⟨(mirrors runId).numbered, ?_⟩
      change Lifecycle runId (db.runs.lookup runId) _ ((db.eventsOf runId).map Event.entry)
      rw [stored, log]
      dsimp only
      rw [AList.lookup_insert]
      exact Lifecycle.ready opening run candidate opened succeeded ready
    · exact (mirrors runId).same rfl rfl (AList.lookup_insert_ne same)
  | @candidateApplied settling operationId candidate settled stored ready applied =>
    by_cases same : runId = settling
    · subst same
      refine (mirrors runId).settle stored ready ?_ (Or.inl rfl)
      rw [applied]
      decide
    · exact (mirrors runId).same (eventsOf_logged_other _ same _ _) rfl (AList.lookup_insert_ne same)
  | @candidateDiscarded settling candidate settled stored ready discarded =>
    by_cases same : runId = settling
    · subst same
      refine (mirrors runId).settle stored ready ?_ (Or.inr rfl)
      rw [discarded]
      decide
    · exact (mirrors runId).same (eventsOf_logged_other _ same _ _) rfl (AList.lookup_insert_ne same)
  | _ => exact (mirrors runId).same rfl rfl rfl

end Keeping

/-! ## What every log has -/

/-- An event by which a candidate leaves the ready state. -/
def EventKind.settles (kind : EventKind) : Bool :=
  kind ∈ [.candidateApplied, .candidateDiscarded]

/-- The status after one more event. -/
def replayed (status : Option RunStatus) : Entry -> Option RunStatus
  | (.runQueued, _) => some .queued
  | (.runStarted, _) => some .running
  | (.runFinished, .run _ run) => some run.status
  | _ => status

/-- The status told by a log. -/
def replay (log : List Entry) : Option RunStatus := log.foldl replayed none

/-- What is promised of the log of a run with this row. -/
structure LogHolds (runId : Id) (run : Run) (events : List Event) : Prop where
  numbered : events.map Event.sequence = List.range' 1 events.length
  queuedFirst : (events.map Event.kind).head? = some .runQueued
  startedOnce : (events.map Event.kind).count .runStarted ≤ 1
  startedBefore : (events.map Event.kind).Pairwise
    (fun earlier later => ¬(earlier = .runFinished ∧ later = .runStarted))
  finishedOnce : (events.map Event.kind).count .runFinished = if run.status.terminal then 1 else 0
  settledAfter : ∀ before kind payload after,
    events.map Event.entry = before ++ (kind, payload) :: after -> kind.settles = true ->
      ∃ row, (.runFinished, .run runId row) ∈ before ∧ row.status = .succeeded
  settledOnce : ((events.map Event.kind).filter EventKind.settles).length ≤ 1
  replays : replay (events.map Event.entry) = some run.status

theorem split_last {Item : Type} {start before after : List Item} {last item : Item}
    (same : start ++ [last] = before ++ item :: after) :
    item ∈ start ∨ before = start := by
  rcases List.eq_nil_or_concat after with rfl | ⟨rest, final, rfl⟩
  · exact Or.inr (List.append_inj' same rfl).1.symm
  · rw [List.concat_eq_append, <- List.cons_append, <- List.append_assoc] at same
    rw [(List.append_inj' same rfl).1]
    exact Or.inl (List.mem_append_right _ List.mem_cons_self)

section Logs

variable {runId : Id} {run : Run} {candidate : Option Candidate} {log : List Entry}

/-- The kinds of the events of a run, one list for each stage. -/
theorem Opening.kinds (opened : Opening runId log) :
    log.map Prod.fst = [.runQueued] ∨ log.map Prod.fst = [.runQueued, .runStarted] := by
  cases opened with
  | queued => exact Or.inl rfl
  | started => exact Or.inr rfl

variable {kind : EventKind} {payload : EventPayload}

/-- Before a run has ended, its log settles nothing. -/
theorem Opening.unsettled (opened : Opening runId log) (member : (kind, payload) ∈ log) :
    kind.settles = false := by
  have named : kind ∈ log.map Prod.fst := List.mem_map_of_mem member
  rcases opened.kinds with kinds | kinds
  · rw [kinds, List.mem_singleton] at named
    rw [named]
    rfl
  · rw [kinds, List.mem_cons, List.mem_singleton] at named
    rcases named with named | named
    · rw [named]
      rfl
    · rw [named]
      rfl

/-- The kinds of events in the order of a run. -/
def KindsHold (kinds : List EventKind) (ended : Bool) : Prop :=
  kinds.head? = some .runQueued ∧ kinds.count .runStarted ≤ 1 ∧
    kinds.Pairwise (fun earlier later => ¬(earlier = .runFinished ∧ later = .runStarted)) ∧
      kinds.count .runFinished = (if ended then 1 else 0) ∧
        (kinds.filter EventKind.settles).length ≤ 1

instance (kinds : List EventKind) (ended : Bool) : Decidable (KindsHold kinds ended) :=
  inferInstanceAs (Decidable (_ ∧ _))

theorem Opening.kinds_append (opened : Opening runId log) (rest : List EventKind) {later : List Entry}
    (more : later.map Prod.fst = rest) {ended : Bool}
    (unstarted : KindsHold ([.runQueued] ++ rest) ended)
    (started : KindsHold ([.runQueued, .runStarted] ++ rest) ended) :
    KindsHold ((log ++ later).map Prod.fst) ended := by
  rw [List.map_append, more]
  rcases opened.kinds with kinds | kinds
  · rw [kinds]
    exact unstarted
  · rw [kinds]
    exact started

theorem Lifecycle.kinds (told : Lifecycle runId (some run) candidate log) :
    KindsHold (log.map Prod.fst) run.status.terminal := by
  cases told with
  | queued run status =>
    rw [status]
    exact (by decide : KindsHold [.runQueued] false)
  | running first run status going =>
    rw [going]
    exact (by decide : KindsHold [.runQueued, .runStarted] false)
  | finished opening run opened ended =>
    rw [ended]
    exact opened.kinds_append [.runFinished] rfl (by decide) (by decide)
  | ready opening run candidate opened succeeded =>
    rw [succeeded]
    exact opened.kinds_append [.runFinished] rfl (by decide) (by decide)
  | settled opening run candidate kind payload opened succeeded gone settling =>
    rw [succeeded]
    rcases settling with rfl | rfl
    · exact opened.kinds_append [.runFinished, .candidateApplied] rfl (by decide) (by decide)
    · exact opened.kinds_append [.runFinished, .candidateDiscarded] rfl (by decide) (by decide)

theorem Lifecycle.replays (told : Lifecycle runId (some run) candidate log) :
    replay log = some run.status := by
  cases told with
  | queued run status =>
    rw [status]
    rfl
  | running first run status going =>
    rw [going]
    rfl
  | finished opening run opened ended | ready opening run candidate opened succeeded =>
    rw [replay, List.foldl_append]
    rfl
  | settled opening run candidate kind payload opened succeeded gone settling =>
    rw [replay, List.foldl_append]
    rcases settling with rfl | rfl
    · rfl
    · rfl

theorem Opening.finished_unsettled {opening : List Entry} (opened : Opening runId opening)
    (member : (kind, payload) ∈ opening ++ [(.runFinished, .run runId run)]) : kind.settles = false := by
  rcases List.mem_append.mp member with early | final
  · exact opened.unsettled early
  · cases List.mem_singleton.mp final
    rfl

/-- A candidate is settled only after its run has succeeded. -/
theorem Lifecycle.settles_after (told : Lifecycle runId (some run) candidate log)
    {before after : List Entry} (split : log = before ++ (kind, payload) :: after)
    (settles : kind.settles = true) :
    ∃ row, (.runFinished, .run runId row) ∈ before ∧ row.status = .succeeded := by
  have member : (kind, payload) ∈ log := by
    rw [split]
    exact List.mem_append_right _ List.mem_cons_self
  have impossible : ∀ {goal : Prop}, kind.settles = false -> goal := by
    intro goal unsettled
    rw [settles] at unsettled
    cases unsettled
  cases told with
  | queued run status => exact impossible ((Opening.queued run status).unsettled member)
  | running first run status going =>
    exact impossible ((Opening.started first run status going).unsettled member)
  | finished opening run opened ended => exact impossible (opened.finished_unsettled member)
  | ready opening run candidate opened succeeded =>
    exact impossible (opened.finished_unsettled member)
  | settled opening run candidate other value opened succeeded gone settling =>
    rw [show opening ++ [(.runFinished, .run runId run), (other, value)] =
      (opening ++ [(.runFinished, .run runId run)]) ++ [(other, value)] by
        rw [List.append_assoc]; rfl] at split
    rcases split_last split with early | whole
    · exact impossible (opened.finished_unsettled early)
    · rw [whole]
      exact ⟨run, List.mem_append_right _ List.mem_cons_self, succeeded⟩

end Logs

theorem Mirrors.holds {db : Database} {run : Run} (mirrors : Mirrors db runId)
    (stored : db.runs.lookup runId = some run) : LogHolds runId run (db.eventsOf runId) := by
  have told := mirrors.told
  rw [stored] at told
  have same : (db.eventsOf runId).map Event.kind =
      ((db.eventsOf runId).map Event.entry).map Prod.fst := by
    rw [List.map_map]
    rfl
  have kinds := told.kinds
  rw [<- same] at kinds
  rcases kinds with ⟨first, started, before, finished, settled⟩
  exact ⟨mirrors.numbered, first, started, before, finished,
    fun _ _ _ _ split settles => told.settles_after split settles, settled, told.replays⟩

theorem mirrors_fresh (runId : Id) : Mirrors Database.fresh runId :=
  ⟨rfl, Lifecycle.absent⟩

/-- The log of every run tells the story of its row. -/
def LogsMirror (db : Database) : Prop :=
  ∀ runId run, db.runs.lookup runId = some run -> LogHolds runId run (db.eventsOf runId)

/-- After any sequence of store calls on a new database the log of every run
mirrors its row. -/
theorem logs_mirror [Projects] (calls : List Call) :
    LogsMirror (workbenchStore.run Database.fresh calls) := by
  have known := @Machine.invariant_run _ _ workbenchStore
    (fun db => Consistent db ∧ ∀ runId, Mirrors db runId) (fun db call known => by
      refine ⟨known.1.after call, ?_⟩
      change ∀ runId, Mirrors (db.after call) runId
      rcases after_cases db call with ⟨committed, commits, same⟩ | ⟨-, same⟩
      · rw [same]
        exact (call_changes known.1.runs.homed commits).keeps
          (fun _ _ mirrors change => Mirrors.change mirrors change) known.2
      · rw [same]
        exact known.2) Database.fresh ⟨consistent_fresh, mirrors_fresh⟩ calls
  intro runId run stored
  exact (known.2 runId).holds stored

end Workbench
end FixLoop
