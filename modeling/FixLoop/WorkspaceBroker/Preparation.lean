import FixLoop.WorkspaceBroker.Report

namespace FixLoop
namespace WorkspaceBroker

open Library
open Interleaved (Process Triple Stable call change peek handling ensuring)

/-!
# The preparation of a commit

Bases are checked and replacements staged; no entry of the workspace changes.
-/

/-- The content that is to stand at a path. -/
def replacement (mutations : List Mutation) (path : Text) : Option Text :=
  (mutations.find? fun mutation => mutation.path = path).bind Mutation.content

/-- An action that leaves every entry of the workspace as it is. -/
def Action.harmless : Action -> Bool
  | .marked _ => true
  | .checked _ _ => true
  | .disowned => true
  | _ => false

section

set_option linter.unusedSectionVars false

variable [Files]

/-- What holds while the bases are checked. -/
structure Gathered (request : Request) (contents : Text -> Option Text) (items : List Item)
    (todo : List (Text × Option Text)) (state : State) : Prop where
  careful : Careful request contents (fun _ => True) state
  harmless : ∀ action ∈ state.log, action.harmless = true
  owned : .disowned ∉ state.log
  blank : state.outcome = ⟨[], [], ""⟩
  queue : Queue contents items state
  covered : ∀ base ∈ request.baseVersions, base ∈ todo ∨ ∃ source, .checked base.1 source ∈ state.log
  ahead : ∀ base ∈ todo, base ∈ request.baseVersions ∧ ∀ source, .checked base.1 source ∉ state.log
  distinct : (todo.map Prod.fst).Nodup

/-- No entry of the workspace has been changed. -/
structure Halted (request : Request) (contents : Text -> Option Text) (state : State) : Prop where
  careful : Careful request contents (fun _ => True) state
  harmless : ∀ action ∈ state.log, action.harmless = true
  blank : state.outcome = ⟨[], [], ""⟩

variable {request : Request} {contents : Text -> Option Text} {items : List Item} {todo : List (Text × Option Text)}

variable {state : State}

theorem Gathered.halted (gathered : Gathered request contents items todo state) :
    Halted request contents state := ⟨gathered.careful, gathered.harmless, gathered.blank⟩

theorem gathered_steady : Steady (Gathered request contents items todo) := by
  intro before after beside gathered
  refine ⟨careful_steady _ _ beside gathered.careful, ?_, ?_, beside.outcome.trans gathered.blank,
    queue_steady items _ _ beside gathered.queue, ?_, ?_, gathered.distinct⟩
  · rw [beside.log]
    exact gathered.harmless
  · rw [beside.log]
    exact gathered.owned
  · rw [beside.log]
    exact gathered.covered
  · rw [beside.log]
    exact gathered.ahead

variable {before after : State} {added : List Action}

/-- An update that concerns no original and no staged file. -/
theorem Gathered.minor {spared : Place -> Prop} (gathered : Gathered request contents items todo before)
    (wf : Wf after) (ordered : Ordered request contents after.log) (spares : Spares spared before after)
    (minor : Minor (fun _ => True) before after added) (outcome : after.outcome = before.outcome)
    (harmless : ∀ action ∈ added, action.harmless = true) (owned : .disowned ∉ added)
    (originals : ∀ path entry place, .checked path (some entry) ∈ before.log -> Held place entry before -> spared place)
    (installs : ∀ path entry, entry.foreign = false -> Held (named path) entry before -> spared (named path))
    (stagings : ∀ item place, item ∈ items -> item.staging = some place -> spared place) :
    Gathered request contents items todo after := by
  refine ⟨gathered.careful.minor wf ordered spares minor (fun path entry place _ => originals path entry place) installs, ?_,
    ?_, outcome.trans gathered.blank, ⟨gathered.queue.1, fun item member => ?_⟩, ?_, ?_, gathered.distinct⟩
  · intro action member
    rw [minor.log, List.mem_append] at member
    exact member.elim (harmless action) (gathered.harmless action)
  · rw [minor.log, List.mem_append, not_or]
    exact ⟨owned, gathered.owned⟩
  · exact (gathered.queue.2 item member).minor minor True.intro
      (fun place entry staging held => spares.held place entry (stagings item place member staging) held)
  · exact fun base member => (gathered.covered base member).imp id fun known => known.imp fun _ => minor.kept
  · exact fun base member => ⟨(gathered.ahead base member).1,
      fun source known => (gathered.ahead base member).2 source (minor.checked.mp known)⟩

theorem minor_nothing (live : Text -> Prop) (log : after.log = before.log)
    (outcome : after.outcome = before.outcome) : Minor live before after [] := by
  refine ⟨log, fun _ member => (by cases member), fun _ _ member => (by cases member), fun path _ => ?_, fun path place _ => ?_,
    fun path changed => ?_⟩
  · rw [outcome]
  · rw [outcome]
  · rw [outcome] at changed
    exact .inl changed

/-! ## Sources -/

/-- A source that is open, of no path checked before. -/
structure Opened (path : Text) (entry : Entry) (state : State) : Prop where
  held : Held (named path) entry state
  kept : named path ∉ state.pending
  foreign : entry.foreign = true
  unknown : ∀ other found, .checked other (some found) ∈ state.log -> found.file ≠ entry.file

def Observed (path : Text) (source : Option Entry) (state : State) : Prop :=
  ∀ entry, source = some entry -> Opened path entry state

theorem observed_steady (path : Text) (source : Option Entry) : Steady (Observed path source) := by
  intro before after beside observed entry same
  have opened := observed entry same
  refine ⟨opened.held.beside beside, ?_, opened.foreign, ?_⟩
  · rw [beside.pending]
    exact opened.kept
  · rw [beside.log]
    exact opened.unknown

theorem Gathered.opens {path : Text} {entry : Entry} (gathered : Gathered request contents items todo state)
    (free : named path ∉ state.pinned) (there : state.entries (named path) = some entry) :
    Gathered request contents items todo (state.opened (named path)) ∧ Opened path entry (state.opened (named path)) := by
  have careful := gathered.careful
  constructor
  · exact gathered.minor (opened_wf careful.wf there) careful.ordered (opened_spares _ state) (minor_nothing _ rfl rfl) rfl
      (fun _ member => by cases member) (fun member => by cases member) (fun _ _ _ _ _ => True.intro)
      (fun _ _ _ _ => True.intro) fun _ _ _ _ => True.intro
  · refine ⟨⟨there, List.mem_cons_self⟩, fun pending => free (careful.wf.pending _ pending), ?_, ?_⟩
    · by_contra mine
      exact free (careful.wf.own _ entry there (Bool.not_eq_true _ ▸ mine))
    · intro other found known same
      rcases (careful.fates other found True.intro known).held with ⟨place, held, _⟩
      have at' := careful.wf.single place _ found entry held.1 there same
      exact free (at' ▸ held.2)

theorem observe_triple (path : Text) :
    Triple (Gathered request contents items todo) (observe path)
      (fun source state => Gathered request contents items todo state ∧ Observed path source state)
      (fun _ => Gathered request contents items todo) := by
  have opened : Triple (Gathered request contents items todo) (openSource (named path))
      (fun entry state => Gathered request contents items todo state ∧ Observed path (some entry) state)
      (fun _ => Gathered request contents items todo) := by
    apply openSource_triple gathered_steady
    · intro state entry gathered free there
      have both := gathered.opens free there
      exact ⟨both.1, fun other same => Option.some.inj same ▸ both.2⟩
    · exact fun fault state _ gathered => gathered
  have steady (source : Option Entry) :
      Steady (fun state => Gathered request contents items todo state ∧ Observed path source state) :=
    fun before after beside both => ⟨gathered_steady _ _ beside both.1, observed_steady path source _ _ beside both.2⟩
  have body := opened.bind (fun entry => (attempts_id (steady (some entry)) fun fault state _ both => both.1).bind
    (fun _ => (attempts_id (steady (some entry)) fun fault state _ both => both.1).bind (fun _ =>
      Triple.pure (some entry) (fun source state => Gathered request contents items todo state ∧ Observed path source state)
        (fun _ => Gathered request contents items todo))))
  refine body.handling fun fault => ?_
  split
  · exact (Triple.pure none (fun source state => Gathered request contents items todo state ∧ Observed path source state)
      _).mono (fun state gathered => ⟨gathered, fun entry same => by cases same⟩) (fun _ _ => id) fun _ _ => id
  · exact Triple.raise fault _ fun _ => Gathered request contents items todo

theorem Gathered.checks {path : Text} {expected : Option Text} {source : Option Entry}
    (gathered : Gathered request contents items ((path, expected) :: todo) state)
    (observed : Observed path source state)
    (matched : source.map (fun entry => Files.digest entry.content) = expected) :
    Gathered request contents items todo { state with log := .checked path source :: state.log } := by
  have careful := gathered.careful
  have here := gathered.ahead _ List.mem_cons_self
  have apart := List.nodup_cons.mp (show (path :: todo.map Prod.fst).Nodup from gathered.distinct)
  have unlisted (other : Text) : other ∉ state.outcome.changedFiles := by
    rw [gathered.blank]
    exact fun member => by cases member
  have earlier {action : Action} (different : action ≠ .checked path source)
      (member : action ∈ Action.checked path source :: state.log) : action ∈ state.log :=
    List.mem_of_ne_of_mem different member
  have known {other : Text} {found : Option Entry} (member : .checked other found ∈ Action.checked path source :: state.log) :
      (other = path ∧ found = source) ∨ .checked other found ∈ state.log := by
    rcases List.mem_cons.mp member with same | before
    · exact .inl ⟨(Action.checked.inj same).1, (Action.checked.inj same).2⟩
    · exact .inr before
  refine ⟨⟨⟨careful.wf.single, careful.wf.fresh, careful.wf.own, careful.wf.occupied, careful.wf.pending⟩, ⟨?_, careful.ordered⟩,
    ?_, ?_, ?_, fun other changed => absurd changed (unlisted other), ?_, ?_, ?_⟩, ?_, ?_, gathered.blank,
    ⟨gathered.queue.1, ?_⟩, ?_, ?_, apart.2⟩
  · rw [<- matched] at here
    exact here.1
  · intro other entry member
    rcases known member with ⟨rfl, same⟩ | before
    · exact (observed entry same.symm).foreign
    · exact careful.foreign other entry before
  · intro first second one two member also equal
    rcases known member with ⟨rfl, same⟩ | before
    · rcases known also with ⟨rfl, _⟩ | later
      · rfl
      · exact absurd equal.symm ((observed one same.symm).unknown second two later)
    · rcases known also with ⟨rfl, same⟩ | later
      · exact absurd equal ((observed two same.symm).unknown first one before)
      · exact careful.apart first second one two before later equal
  · intro other found again member also
    rcases known member with ⟨rfl, same⟩ | before
    · rcases known also with ⟨_, too⟩ | later
      · exact same.trans too.symm
      · exact absurd later (here.2 again)
    · rcases known also with ⟨rfl, _⟩ | later
      · exact absurd before (here.2 found)
      · exact careful.once other found again before later
  · exact fun other member => careful.installed other (earlier (fun same => by cases same) member)
  · intro other entry _ member
    rcases known member with ⟨rfl, same⟩ | before
    · have opened := observed entry same.symm
      refine .inl ⟨opened.held, opened.kept, unlisted other, fun place retained => ?_⟩
      have nothing : (other, place) ∈ state.outcome.recoveryFiles := retained
      rw [gathered.blank] at nothing
      cases nothing
    · rcases careful.fates other entry True.intro before with standing | ⟨_, _, _, _, changed⟩ | ⟨_, _, _, _, changed⟩
      · exact .inl ⟨standing.held, standing.kept, standing.unlisted, standing.unretained⟩
      · exact absurd changed (unlisted other)
      · exact absurd changed (unlisted other)
  · intro other _ member
    constructor
    · exact fun changed => absurd changed (unlisted other)
    · rintro (there | there)
      · have harmless := gathered.harmless _ (earlier (fun same => by cases same) there)
        cases harmless
      · have harmless := gathered.harmless _ (earlier (fun same => by cases same) there)
        cases harmless
  · intro action member
    rcases List.mem_cons.mp member with rfl | before
    · rfl
    · exact gathered.harmless action before
  · exact fun member => gathered.owned (earlier (fun same => by cases same) member)
  · intro item member
    have waiting := gathered.queue.2 item member
    exact ⟨List.mem_cons_of_mem _ waiting.known, waiting.unlisted,
      ⟨fun there => waiting.idle.1 (earlier (fun same => by cases same) there),
        fun there => waiting.idle.2 (earlier (fun same => by cases same) there)⟩, waiting.staged, waiting.bare⟩
  · intro base member
    rcases gathered.covered base member with among | ⟨found, before⟩
    · rcases List.mem_cons.mp among with rfl | later
      · exact .inr ⟨source, List.mem_cons_self⟩
      · exact .inl later
    · exact .inr ⟨found, List.mem_cons_of_mem _ before⟩
  · intro base member
    refine ⟨(gathered.ahead base (List.mem_cons_of_mem _ member)).1, fun found there => ?_⟩
    rcases known there with ⟨same, _⟩ | before
    · exact apart.1 (same ▸ List.mem_map_of_mem member)
    · exact (gathered.ahead base (List.mem_cons_of_mem _ member)).2 found before

/-- The path has been checked, and nothing is staged for it. -/
def Checked (items : List Item) (path : Text) (source : Option Entry) (state : State) : Prop :=
  .checked path source ∈ state.log ∧ ∀ item ∈ items, item.path ≠ path

theorem checked_steady (path : Text) (source : Option Entry) : Steady (Checked items path source) := by
  intro before after beside checked
  refine ⟨?_, checked.2⟩
  rw [beside.log]
  exact checked.1

theorem checkBase_triple (path : Text) (expected : Option Text) :
    Triple (Gathered request contents items ((path, expected) :: todo)) (checkBase path expected)
      (fun source state => Gathered request contents items todo state ∧ Checked items path source state)
      (fun _ => Halted request contents) := by
  have observed : Triple (Gathered request contents items ((path, expected) :: todo)) (observe path)
      (fun source state => Gathered request contents items ((path, expected) :: todo) state ∧ Observed path source state)
      (fun _ => Halted request contents) :=
    (observe_triple path).mono (fun _ => id) (fun _ _ => id) fun _ state gathered => gathered.halted
  refine (attempts_id gathered_steady fun fault state _ gathered => gathered.halted).bind (fun _ =>
    observed.bind fun source => ?_)
  split
  · next matched =>
      have noted : Triple (fun state => Gathered request contents items ((path, expected) :: todo) state ∧
            Observed path source state) (note (.checked path source))
          (fun _ state => Gathered request contents items todo state ∧ Checked items path source state)
          (fun _ => Halted request contents) := by
        apply Triple.change
        rintro state ⟨gathered, observed⟩
        refine ⟨gathered.checks observed matched, List.mem_cons_self, fun item member same => ?_⟩
        have known := (gathered.queue.2 item member).known
        rw [same] at known
        exact (gathered.ahead _ List.mem_cons_self).2 _ known
      exact noted.bind (fun _ => Triple.pure source (fun source state => Gathered request contents items todo state ∧
        Checked items path source state) _)
  · exact (Triple.raise _ _ fun _ => Halted request contents).mono (fun state both => both.1.halted) (fun _ _ => id)
      (fun _ _ => id)

/-! ## Staging -/

/-- A file that is being staged for a path. -/
structure Staging (request : Request) (contents : Text -> Option Text) (items : List Item)
    (todo : List (Text × Option Text)) (path : Text) (source : Option Entry) (name : Nat) (holds : Entry -> Prop)
    (state : State) : Prop where
  gathered : Gathered request contents items todo state
  checked : Checked items path source state
  staged : ∃ entry, holds entry ∧ entry.foreign = false ∧ Held (.hidden name) entry state
  apart : ∀ item ∈ items, item.staging ≠ some (.hidden name)

variable {path : Text} {source : Option Entry} {name : Nat} {holds : Entry -> Prop}

theorem staging_steady : Steady (Staging request contents items todo path source name holds) := by
  intro before after beside staging
  refine ⟨gathered_steady _ _ beside staging.gathered, checked_steady path source _ _ beside staging.checked, ?_,
    staging.apart⟩
  rcases staging.staged with ⟨entry, told, own, held⟩
  exact ⟨entry, told, own, held.beside beside⟩

/-- An update of the file that is being staged. -/
theorem Staging.minor {later : Entry -> Prop}
    (staging : Staging request contents items todo path source name holds before) (wf : Wf after)
    (ordered : Ordered request contents after.log)
    (spares : Spares (fun place => place ≠ .hidden name) before after)
    (minor : Minor (fun _ => True) before after added) (outcome : after.outcome = before.outcome)
    (harmless : ∀ action ∈ added, action.harmless = true) (owned : .disowned ∉ added)
    (staged : ∃ entry, later entry ∧ entry.foreign = false ∧ Held (.hidden name) entry after) :
    Staging request contents items todo path source name later after := by
  refine ⟨staging.gathered.minor wf ordered spares minor outcome harmless owned ?_ (fun _ _ _ _ same => by cases same) ?_,
    ⟨minor.kept staging.checked.1, staging.checked.2⟩, staged, staging.apart⟩
  · rintro other found place known here rfl
    rcases staging.staged with ⟨entry, _, own, held⟩
    have made := staging.gathered.careful.foreign other found known
    rw [here.unique held, own] at made
    cases made
  · rintro item place member stagingOther rfl
    exact staging.apart item member stagingOther

theorem created_staging (gathered : Gathered request contents items todo state)
    (checked : Checked items path source state) (free : state.entries (.hidden name) = none) :
    Staging request contents items todo path source name (fun _ => True) (state.created (.hidden name)) := by
  have careful := gathered.careful
  refine ⟨gathered.minor (created_wf careful.wf free) careful.ordered (created_spares careful.wf free)
      (minor_nothing _ rfl rfl) rfl (fun _ member => by cases member) (fun member => by cases member)
      (fun _ _ _ _ _ => True.intro) (fun _ _ _ _ => True.intro) (fun _ _ _ _ => True.intro), checked,
    ⟨_, True.intro, rfl, created_held state _⟩, fun item member staging => ?_⟩
  rcases (gathered.queue.2 item member).staged _ staging with ⟨_, entry, _, _, _, held⟩
  exact free_unpinned careful.wf free held.2

theorem stage_triple (content : Text) :
    Triple (fun state => Gathered request contents items todo state ∧ Checked items path source state)
      (stage (.hidden name) content)
      (fun _ => Staging request contents items todo path source name fun entry => entry.content = content)
      (fun _ => Halted request contents) := by
  have steady : Steady (fun state => Gathered request contents items todo state ∧ Checked items path source state) :=
    fun before after beside both => ⟨gathered_steady _ _ beside both.1, checked_steady path source _ _ beside both.2⟩
  have fails {holds : Entry -> Prop} (fault : Fault) (state : State) (_ : Fault.io fault)
      (staging : Staging request contents items todo path source name holds state) : Halted request contents state :=
    staging.gathered.halted
  have created : Triple (fun state => Gathered request contents items todo state ∧ Checked items path source state)
      (createStaging (.hidden name)) (fun _ => Staging request contents items todo path source name fun _ => True)
      (fun _ => Halted request contents) :=
    createStaging_triple steady (fun state both free => created_staging both.1 both.2 free)
      (fun fault state _ both => both.1.halted)
  have disposed : Triple (Staging request contents items todo path source name fun _ => True)
      (attempts (State.dispose (.hidden name) true))
      (fun _ => Staging request contents items todo path source name fun _ => True) (fun _ => Halted request contents) := by
    refine attempts_triple staging_steady (fun state staging => ?_) fails
    rcases staging.staged with ⟨entry, _, own, held⟩
    have careful := staging.gathered.careful
    refine staging.minor (dispose_wf careful.wf held.2 true) ⟨⟨entry, held.1, .inl own⟩, careful.ordered⟩
      (dispose_spares _ true state) (minor_dispose _ state _) rfl (fun action member => ?_) (fun member => by simp at member)
      ⟨entry, True.intro, own, held⟩
    rw [List.mem_singleton.mp member]
    rfl
  have written : Triple (Staging request contents items todo path source name fun _ => True)
      (writeFile (.hidden name) content)
      (fun _ => Staging request contents items todo path source name fun entry => entry.content = content)
      (fun _ => Halted request contents) := by
    refine writeFile_triple staging_steady (fun state staging => ?_) fails
    rcases staging.staged with ⟨entry, _, own, held⟩
    have careful := staging.gathered.careful
    exact staging.minor (write_wf careful.wf _ content) careful.ordered (write_spares _ content state)
      (minor_nothing _ rfl rfl) rfl (fun _ member => by cases member) (fun member => by cases member)
      ⟨{ entry with content := content }, rfl, own, write_held held content⟩
  exact created.bind fun _ => disposed.bind fun _ => (attempts_id staging_steady fails).bind fun _ => written

/-- One more item waits. -/
theorem Gathered.append {item : Item} (gathered : Gathered request contents items todo state)
    (waiting : Waiting contents item state) (apart : ∀ other ∈ items, Item.Apart other item) :
    Gathered request contents (items ++ [item]) todo state := by
  refine { gathered with queue := ⟨?_, fun other member => ?_⟩ }
  · refine List.pairwise_append.mpr ⟨gathered.queue.1, List.pairwise_singleton _ _, fun other member last same => ?_⟩
    rw [List.mem_singleton.mp same]
    exact apart other member
  · rcases List.mem_append.mp member with earlier | last
    · exact gathered.queue.2 other earlier
    · rw [List.mem_singleton.mp last]
      exact waiting

theorem Gathered.idle (gathered : Gathered request contents items todo state) (path : Text) :
    path ∉ state.outcome.changedFiles ∧ .installed path ∉ state.log ∧ .passed path ∉ state.log := by
  refine ⟨?_, fun there => ?_, fun there => ?_⟩
  · rw [gathered.blank]
    exact fun member => by cases member
  · have harmless := gathered.harmless _ there
    cases harmless
  · have harmless := gathered.harmless _ there
    cases harmless

theorem prepare_triple (names : Names) (mutations : List Mutation) (base : Text × Option Text) :
    Triple (Gathered request (replacement mutations) items (base :: todo)) (prepare names mutations base)
      (fun item => Gathered request (replacement mutations) (items ++ item.toList) todo)
      (fun _ => Halted request (replacement mutations)) := by
  refine (checkBase_triple base.1 base.2).bind fun source => ?_
  cases found : mutations.find? (fun mutation => mutation.path = base.1) with
  | none =>
    refine (Triple.pure none (fun item => Gathered request (replacement mutations) (items ++ item.toList) todo) _).mono
      (fun state both => ?_) (fun _ _ => id) fun _ _ => id
    rw [Option.toList_none, List.append_nil]
    exact both.1
  | some mutation =>
    have content : replacement mutations base.1 = mutation.content := by
      rw [replacement, found]
      rfl
    dsimp only
    cases deleted : mutation.content with
    | none =>
      refine (Triple.pure (some _) (fun item => Gathered request (replacement mutations) (items ++ item.toList) todo)
        _).mono (fun state both => ?_) (fun _ _ => id) fun _ _ => id
      have idle := both.1.idle base.1
      refine both.1.append ⟨both.2.1, idle.1, idle.2, fun place same => (by cases same), fun _ => content.trans deleted⟩
        (fun other member => ⟨both.2.2 other member, fun place _ same => by cases same⟩)
    | some text =>
      refine (stage_triple text).bind fun _ => ?_
      refine (Triple.pure (some _) (fun item => Gathered request (replacement mutations) (items ++ item.toList) todo)
        _).mono (fun state staging => ?_) (fun _ _ => id) fun _ _ => id
      have idle := staging.gathered.idle base.1
      rcases staging.staged with ⟨entry, same, own, held⟩
      refine staging.gathered.append ⟨staging.checked.1, idle.1, idle.2, fun place is => ?_, fun same => (by cases same)⟩
        (fun other member => ⟨staging.checked.2 other member, fun place is also => ?_⟩)
      · cases is
        exact ⟨_, entry, rfl, content.trans (deleted.trans (congrArg some same.symm)), own, held⟩
      · cases also
        exact staging.apart other member is

theorem prepareAll_triple (names : Names) (mutations : List Mutation) (todo : List (Text × Option Text))
    (items : List Item) :
    Triple (Gathered request (replacement mutations) items todo) (prepareAll names mutations todo)
      (fun rest => Gathered request (replacement mutations) (items ++ rest) [])
      (fun _ => Halted request (replacement mutations)) := by
  induction todo generalizing items with
  | nil =>
    refine (Triple.pure [] (fun rest => Gathered request (replacement mutations) (items ++ rest) []) _).mono
      (fun state gathered => ?_) (fun _ _ => id) fun _ _ => id
    rw [List.append_nil]
    exact gathered
  | cons base rest ih =>
    refine (prepare_triple names mutations base).bind fun item => (ih (items ++ item.toList)).bind fun later => ?_
    refine (Triple.pure (item.toList ++ later) (fun rest => Gathered request (replacement mutations) (items ++ rest) [])
      _).mono (fun state gathered => ?_) (fun _ _ => id) fun _ _ => id
    rw [<- List.append_assoc]
    exact gathered

end

end WorkspaceBroker
end FixLoop
