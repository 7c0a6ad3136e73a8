import FixLoop.WorkspaceBroker.Originals

namespace FixLoop
namespace WorkspaceBroker

open Library

/-!
# What the commit keeps

Where every original is while the files are held, and what must have happened
before each action of the commit.
-/

section

set_option linter.unusedSectionVars false

variable [Files]

/-- The base of every path has been checked. -/
def AllChecked (request : Request) (log : List Action) : Prop :=
  ∀ base ∈ request.baseVersions, ∃ source, .checked base.1 source ∈ log

/-- What must have happened before an action. -/
def Requires (request : Request) (contents : Text -> Option Text) : Action -> List Action -> Prop
  | .checked path source, _ =>
    (path, source.map fun entry => Files.digest entry.content) ∈ request.baseVersions
  | .moved path recovery, earlier =>
    AllChecked request earlier ∧ .recorded (.intent path (some recovery)) ∈ earlier
  | .restored path, earlier => ∃ recovery, .moved path recovery ∈ earlier
  | .installed path, earlier =>
    AllChecked request earlier ∧ ∃ recovery, .recorded (.intent path recovery) ∈ earlier
  | .recorded (.committed path), earlier => ∀ content, contents path = some content -> .installed path ∈ earlier
  | .discarded path, earlier => .recorded (.committed path) ∈ earlier
  | .passed path, earlier => .checked path none ∈ earlier ∧ contents path = none
  -- What is renamed is an original whose intent is recorded, or a file of the commit.
  | .renamed entry, earlier => AllChecked request earlier ∧ ∃ value, entry = some value ∧
      (value.foreign = false ∨ ∃ path recovery, .checked path (some value) ∈ earlier ∧
        .recorded (.intent path recovery) ∈ earlier)
  -- What is deleted is an original whose replacement is recorded, or a file of the commit.
  | .marked entry, earlier => ∃ value, entry = some value ∧ (value.foreign = false ∨
      ∃ path, .checked path (some value) ∈ earlier ∧ .recorded (.committed path) ∈ earlier)
  | _, _ => True

def Ordered (request : Request) (contents : Text -> Option Text) : List Action -> Prop
  | [] => True
  | action :: earlier => Requires request contents action earlier ∧ Ordered request contents earlier

/-- The original stands at its path. -/
structure Standing (path : Text) (entry : Entry) (state : State) : Prop where
  held : Held (named path) entry state
  kept : named path ∉ state.pending
  unlisted : path ∉ state.outcome.changedFiles
  unretained : ∀ place, (path, place) ∉ state.outcome.recoveryFiles

/-- The original is at the recovery entry that the outcome names. -/
def Retained (path : Text) (entry : Entry) (state : State) : Prop :=
  ∃ name, Held (.hidden name) entry state ∧ .hidden name ∉ state.pending ∧
    (path, .hidden name) ∈ state.outcome.recoveryFiles ∧ path ∈ state.outcome.changedFiles

/-- The original is deleted once the handles are closed. -/
def Discarded (path : Text) (entry : Entry) (state : State) : Prop :=
  ∃ name, Held (.hidden name) entry state ∧ .hidden name ∈ state.pending ∧
    .discarded path ∈ state.log ∧ path ∈ state.outcome.changedFiles

def Fate (path : Text) (entry : Entry) (state : State) : Prop :=
  Standing path entry state ∨ Retained path entry state ∨ Discarded path entry state

/-- The replacement stands at its path. -/
def Installed (contents : Text -> Option Text) (path : Text) (state : State) : Prop :=
  ∃ entry, contents path = some entry.content ∧ entry.foreign = false ∧ Held (named path) entry state ∧
    named path ∉ state.pending

/-- What holds at every step, of the live paths' originals too. -/
structure Careful (request : Request) (contents : Text -> Option Text) (live : Text -> Prop) (state : State) : Prop where
  wf : Wf state
  ordered : Ordered request contents state.log
  foreign : ∀ path entry, .checked path (some entry) ∈ state.log -> entry.foreign = true
  apart : ∀ path other entry otherEntry, .checked path (some entry) ∈ state.log ->
    .checked other (some otherEntry) ∈ state.log -> entry.file = otherEntry.file -> path = other
  once : ∀ path source other, .checked path source ∈ state.log -> .checked path other ∈ state.log -> source = other
  listed : ∀ path ∈ state.outcome.changedFiles, ∃ source, .checked path source ∈ state.log
  installed : ∀ path, .installed path ∈ state.log -> Installed contents path state
  fates : ∀ path entry, live path -> .checked path (some entry) ∈ state.log -> Fate path entry state
  new : ∀ path, live path -> .checked path none ∈ state.log ->
    (path ∈ state.outcome.changedFiles <-> .installed path ∈ state.log ∨ .passed path ∈ state.log)

variable {request : Request} {contents : Text -> Option Text} {live : Text -> Prop} {before after state : State}

variable {path : Text} {entry : Entry} {added : List Action}

/-- An original is held wherever it is. -/
theorem Fate.held (fate : Fate path entry state) :
    ∃ place, Held place entry state ∧ (place = named path ∨ ∃ name, place = .hidden name) := by
  rcases fate with standing | ⟨name, held, _⟩ | ⟨name, held, _⟩
  · exact ⟨_, standing.held, .inl rfl⟩
  · exact ⟨_, held, .inr ⟨name, rfl⟩⟩
  · exact ⟨_, held, .inr ⟨name, rfl⟩⟩

theorem Fate.beside (beside : Beside before after) (fate : Fate path entry before) :
    Fate path entry after := by
  rcases fate with standing | ⟨name, held, kept, retained⟩ | ⟨name, held, pending, logged, changed⟩
  · refine .inl ⟨standing.held.beside beside, ?_, ?_, ?_⟩
    · rw [beside.pending]
      exact standing.kept
    · rw [beside.outcome]
      exact standing.unlisted
    · rw [beside.outcome]
      exact standing.unretained
  · rw [<- beside.pending] at kept
    rw [<- beside.outcome] at retained
    exact .inr (.inl ⟨name, held.beside beside, kept, retained⟩)
  · rw [<- beside.pending] at pending
    rw [<- beside.log] at logged
    rw [<- beside.outcome] at changed
    exact .inr (.inr ⟨name, held.beside beside, pending, logged, changed⟩)

theorem Installed.beside (beside : Beside before after) (there : Installed contents path before) :
    Installed contents path after := by
  rcases there with ⟨entry, content, own, held, kept⟩
  rw [<- beside.pending] at kept
  exact ⟨entry, content, own, held.beside beside, kept⟩

theorem careful_steady : Steady (Careful request contents live) := by
  intro before after beside careful
  refine ⟨beside.wf careful.wf, ?_, ?_, ?_, ?_, ?_, ?_, ?_, ?_⟩
  · rw [beside.log]
    exact careful.ordered
  · rw [beside.log]
    exact careful.foreign
  · rw [beside.log]
    exact careful.apart
  · rw [beside.log]
    exact careful.once
  · rw [beside.log, beside.outcome]
    exact careful.listed
  · rw [beside.log]
    exact fun path there => (careful.installed path there).beside beside
  · rw [beside.log]
    exact fun path entry among known => (careful.fates path entry among known).beside beside
  · rw [beside.log, beside.outcome]
    exact careful.new

/-- An action that neither checks a base nor installs a file. -/
def Action.quiet : Action -> Bool
  | .checked _ _ => false
  | .installed _ => false
  | _ => true

/-- An update that adds quiet actions and concerns no live path. -/
structure Minor (live : Text -> Prop) (before after : State) (added : List Action) : Prop where
  log : after.log = added ++ before.log
  quiet : ∀ action ∈ added, action.quiet = true
  passes : ∀ path, live path -> .passed path ∉ added
  changed : ∀ path, live path -> (path ∈ after.outcome.changedFiles <-> path ∈ before.outcome.changedFiles)
  retained : ∀ path place, live path ->
    ((path, place) ∈ after.outcome.recoveryFiles <-> (path, place) ∈ before.outcome.recoveryFiles)
  listed : ∀ path ∈ after.outcome.changedFiles, path ∈ before.outcome.changedFiles ∨
    ∃ source, .checked path source ∈ before.log

namespace Minor

variable {added : List Action} (minor : Minor live before after added)

include minor

theorem checked {path : Text} {source : Option Entry} :
    .checked path source ∈ after.log <-> .checked path source ∈ before.log := by
  rw [minor.log, List.mem_append]
  refine or_iff_right fun new => ?_
  have quiet := minor.quiet _ new
  cases quiet

theorem installed {path : Text} : .installed path ∈ after.log <-> .installed path ∈ before.log := by
  rw [minor.log, List.mem_append]
  refine or_iff_right fun new => ?_
  have quiet := minor.quiet _ new
  cases quiet

theorem kept {action : Action} (known : action ∈ before.log) : action ∈ after.log := by
  rw [minor.log]
  exact List.mem_append_right added known

end Minor

theorem Fate.minor {spared : Place -> Prop} (spares : Spares spared before after)
    (minor : Minor live before after added) (among : live path)
    (safe : ∀ place, Held place entry before -> spared place) (fate : Fate path entry before) :
    Fate path entry after := by
  rcases fate with standing | ⟨name, held, kept, retained, changed⟩ | ⟨name, held, pending, logged, changed⟩
  · have safely := safe _ standing.held
    exact .inl ⟨spares.held _ entry safely standing.held,
      fun pending => standing.kept ((spares.pending _ entry safely standing.held).mp pending),
      fun listed => standing.unlisted ((minor.changed path among).mp listed),
      fun place retained => standing.unretained place ((minor.retained path place among).mp retained)⟩
  · have safely := safe _ held
    exact .inr (.inl ⟨name, spares.held _ entry safely held,
      fun pending => kept ((spares.pending _ entry safely held).mp pending),
      (minor.retained path _ among).mpr retained, (minor.changed path among).mpr changed⟩)
  · have safely := safe _ held
    exact .inr (.inr ⟨name, spares.held _ entry safely held, (spares.pending _ entry safely held).mpr pending,
      minor.kept logged, (minor.changed path among).mpr changed⟩)

theorem Installed.spared {spared : Place -> Prop} (spares : Spares spared before after)
    (safe : ∀ entry, entry.foreign = false -> Held (named path) entry before -> spared (named path))
    (there : Installed contents path before) : Installed contents path after := by
  rcases there with ⟨entry, content, own, held, kept⟩
  have safely := safe entry own held
  exact ⟨entry, content, own, spares.held _ entry safely held,
    fun pending => kept ((spares.pending _ entry safely held).mp pending)⟩

/-- What a minor update keeps, where it spares the live originals and the
files that are installed. -/
theorem Careful.minor {spared : Place -> Prop} (careful : Careful request contents live before)
    (wf : Wf after) (ordered : Ordered request contents after.log) (spares : Spares spared before after)
    (minor : Minor live before after added)
    (originals : ∀ path entry place, live path -> .checked path (some entry) ∈ before.log -> Held place entry before -> spared place)
    (installs : ∀ path entry, entry.foreign = false -> Held (named path) entry before -> spared (named path)) :
    Careful request contents live after := by
  refine ⟨wf, ordered, ?_, ?_, ?_, ?_, ?_, ?_, ?_⟩
  · exact fun path entry known => careful.foreign path entry (minor.checked.mp known)
  · exact fun path other entry otherEntry known also =>
      careful.apart path other entry otherEntry (minor.checked.mp known) (minor.checked.mp also)
  · exact fun path source other known also => careful.once path source other (minor.checked.mp known) (minor.checked.mp also)
  · intro path changed
    rcases minor.listed path changed with earlier | ⟨source, known⟩
    · rcases careful.listed path earlier with ⟨source, known⟩
      exact ⟨source, minor.checked.mpr known⟩
    · exact ⟨source, minor.checked.mpr known⟩
  · exact fun path there => (careful.installed path (minor.installed.mp there)).spared spares (installs path)
  · intro path entry among known
    have earlier := minor.checked.mp known
    exact (careful.fates path entry among earlier).minor spares minor among (originals path entry · among earlier)
  · intro path among known
    rw [minor.changed path among, careful.new path among (minor.checked.mp known), minor.installed]
    refine or_congr_right ⟨minor.kept, fun there => ?_⟩
    rw [minor.log, List.mem_append] at there
    exact there.resolve_left (minor.passes path among)

theorem minor_dispose (live : Text -> Prop) (state : State) (place : Place) :
    Minor live state (state.dispose place true) [.marked (state.entries place)] := by
  refine ⟨rfl, fun action member => ?_, fun path _ member => ?_, fun _ _ => Iff.rfl, fun _ _ _ => Iff.rfl,
    fun _ changed => .inl changed⟩
  · rw [List.mem_singleton.mp member]
    rfl
  · cases List.mem_singleton.mp member

theorem minor_undispose (live : Text -> Prop) (state : State) (place : Place) :
    Minor live state (state.dispose place false) [] :=
  ⟨rfl, fun _ member => (by cases member), fun _ _ member => (by cases member), fun _ _ => Iff.rfl, fun _ _ _ => Iff.rfl,
    fun _ changed => .inl changed⟩

theorem minor_rename (live : Text -> Prop) (state : State) (source target : Place) :
    Minor live state (state.renamed source target) [.renamed (state.entries source)] := by
  refine ⟨rfl, fun action member => ?_, fun path _ member => ?_, fun _ _ => Iff.rfl, fun _ _ _ => Iff.rfl,
    fun _ changed => .inl changed⟩
  · rw [List.mem_singleton.mp member]
    rfl
  · cases List.mem_singleton.mp member

/-! ## Items that wait -/

/-- An item whose turn has not come: its replacement is staged. -/
structure Waiting (contents : Text -> Option Text) (item : Item) (state : State) : Prop where
  known : .checked item.path item.source ∈ state.log
  unlisted : item.path ∉ state.outcome.changedFiles
  idle : .installed item.path ∉ state.log ∧ .passed item.path ∉ state.log
  staged : ∀ place, item.staging = some place -> ∃ name entry, place = .hidden name ∧
    contents item.path = some entry.content ∧ entry.foreign = false ∧ Held place entry state
  bare : item.staging = none -> contents item.path = none

/-- Two items of one queue. -/
def Item.Apart (first second : Item) : Prop :=
  first.path ≠ second.path ∧ ∀ place, first.staging = some place -> second.staging ≠ some place

def Queue (contents : Text -> Option Text) (items : List Item) (state : State) : Prop :=
  items.Pairwise Item.Apart ∧ ∀ item ∈ items, Waiting contents item state

theorem waiting_steady (item : Item) : Steady (Waiting contents item) := by
  intro before after beside waiting
  refine ⟨?_, ?_, ?_, ?_, waiting.bare⟩
  · rw [beside.log]
    exact waiting.known
  · rw [beside.outcome]
    exact waiting.unlisted
  · rw [beside.log]
    exact waiting.idle
  · intro place same
    rcases waiting.staged place same with ⟨name, entry, hidden, content, own, held⟩
    exact ⟨name, entry, hidden, content, own, held.beside beside⟩

theorem queue_steady (items : List Item) : Steady (Queue contents items) :=
  fun _ _ beside queue =>
    ⟨queue.1, fun item member => waiting_steady item _ _ beside (queue.2 item member)⟩

theorem Waiting.minor {item : Item} (waiting : Waiting contents item before)
    (minor : Minor live before after added) (among : live item.path)
    (kept : ∀ place entry, item.staging = some place -> Held place entry before -> Held place entry after) :
    Waiting contents item after := by
  refine ⟨minor.kept waiting.known, fun changed => waiting.unlisted ((minor.changed item.path among).mp changed), ⟨?_, ?_⟩,
    ?_, waiting.bare⟩
  · exact fun there => waiting.idle.1 (minor.installed.mp there)
  · intro there
    rw [minor.log, List.mem_append] at there
    exact waiting.idle.2 (there.resolve_left (minor.passes item.path among))
  · intro place same
    rcases waiting.staged place same with ⟨name, entry, hidden, content, own, held⟩
    exact ⟨name, entry, hidden, content, own, kept place entry same held⟩

/-- What holds while an item is dealt with, whatever has become of it. -/
structure Busy (request : Request) (contents : Text -> Option Text) (item : Item) (rest : List Item) (state : State) :
    Prop where
  careful : Careful request contents (fun path => path ≠ item.path) state
  all : AllChecked request state.log
  known : .checked item.path item.source ∈ state.log
  owned : .disowned ∉ state.log
  whole : state.outcome.recoveryFiles = []
  queue : Queue contents rest state
  apart : ∀ other ∈ rest, item.Apart other

theorem busy_steady (item : Item) (rest : List Item) : Steady (Busy request contents item rest) := by
  intro before after beside busy
  refine ⟨careful_steady _ _ beside busy.careful, ?_, ?_, ?_, ?_, queue_steady rest _ _ beside busy.queue, busy.apart⟩
  · rw [beside.log]
    exact busy.all
  · rw [beside.log]
    exact busy.known
  · rw [beside.log]
    exact busy.owned
  · rw [beside.outcome]
    exact busy.whole

theorem AllChecked.append {log : List Action} (all : AllChecked request log) (added : List Action) :
    AllChecked request (added ++ log) := by
  intro base member
  rcases all base member with ⟨source, known⟩
  exact ⟨source, List.mem_append_right added known⟩

theorem Busy.minor {spared : Place -> Prop} {item : Item} {rest : List Item}
    (busy : Busy request contents item rest before) (wf : Wf after)
    (ordered : Ordered request contents after.log) (spares : Spares spared before after)
    (minor : Minor (fun path => path ≠ item.path) before after added) (owned : .disowned ∉ added)
    (whole : after.outcome.recoveryFiles = before.outcome.recoveryFiles)
    (originals : ∀ path entry place, path ≠ item.path -> .checked path (some entry) ∈ before.log -> Held place entry before -> spared place)
    (installs : ∀ path entry, entry.foreign = false -> Held (named path) entry before -> spared (named path))
    (stagings : ∀ other place, other ∈ rest -> other.staging = some place -> spared place) :
    Busy request contents item rest after := by
  refine ⟨busy.careful.minor wf ordered spares minor originals installs, ?_, minor.kept busy.known, ?_,
    whole.trans busy.whole, ⟨busy.queue.1, fun other member => ?_⟩, busy.apart⟩
  · rw [minor.log]
    exact busy.all.append added
  · rw [minor.log, List.mem_append, not_or]
    exact ⟨owned, busy.owned⟩
  · exact (busy.queue.2 other member).minor minor (busy.apart other member).1.symm
      (fun place entry staging held => spares.held place entry (stagings other place member staging) held)

/-- An update that moves nothing. -/
theorem Busy.logged {added : List Action} {item : Item} {rest : List Item} (busy : Busy request contents item rest before)
    (ordered : Ordered request contents after.log) (entries : after.entries = before.entries)
    (pinned : after.pinned = before.pinned) (pending : after.pending = before.pending) (files : after.files = before.files)
    (minor : Minor (fun path => path ≠ item.path) before after added) (owned : .disowned ∉ added)
    (whole : after.outcome.recoveryFiles = before.outcome.recoveryFiles) : Busy request contents item rest after := by
  have wf : Wf after := by
    have earlier := busy.careful.wf
    constructor
    · rw [entries]
      exact earlier.single
    · rw [entries, files]
      exact earlier.fresh
    · rw [entries, pinned]
      exact earlier.own
    · rw [entries, pinned]
      exact earlier.occupied
    · rw [pending, pinned]
      exact earlier.pending
  have spares : Spares (fun _ => True) before after :=
    ⟨fun place entry _ held => ⟨(congrFun entries place).trans held.1, pinned ▸ held.2⟩,
      fun place entry _ _ => by rw [pending]⟩
  exact busy.minor wf ordered spares minor owned whole (fun _ _ _ _ _ _ => True.intro) (fun _ _ _ _ => True.intro)
    (fun _ _ _ _ => True.intro)

end

end WorkspaceBroker
end FixLoop
