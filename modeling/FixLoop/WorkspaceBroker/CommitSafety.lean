import FixLoop.WorkspaceBroker.Preparation

namespace FixLoop
namespace WorkspaceBroker

open Library
open Interleaved (Process Triple Stable Moves Turn call change peek handling ensuring)

/-!
# Originals and reports of a commit

Wherever a commit fails and whatever other processes do, no original is lost.
The report is truthful unless a `CoordinationError` is raised after a change,
or a file that was not there is deleted.
-/

section

set_option linter.unusedSectionVars false

variable [Files] {request : Request} {contents : Text -> Option Text}

/-- What holds when a commit has ended. -/
structure Safe (request : Request) (contents : Text -> Option Text) (result : Except Fault CommitOutcome)
    (state : State) : Prop where
  ordered : Ordered request contents state.log
  originals : ∀ path entry, .checked path (some entry) ∈ state.log ->
    state.entries (named path) = some entry ∨ .discarded path ∈ state.log ∨
      ∃ outcome place, result = .ok outcome ∧ (path, place) ∈ outcome.recoveryFiles ∧
        state.entries place = some entry
  installed : ∀ path, .installed path ∈ state.log ->
    ∃ entry, contents path = some entry.content ∧ state.entries (named path) = some entry

/-- The action changes an entry of the workspace. -/
def Action.changes : Action -> Bool
  | .renamed _ => true
  | .moved _ _ => true
  | .restored _ => true
  | .installed _ => true
  | .discarded _ => true
  | _ => false

/-- The original no longer stands, or a new file has been installed. -/
def Changed (path : Text) (state : State) : Prop :=
  (∃ entry, .checked path (some entry) ∈ state.log ∧ state.entries (named path) ≠ some entry) ∨
    .checked path none ∈ state.log ∧ .installed path ∈ state.log

/-- The outcome, where something was changed. -/
structure Reports (outcome : CommitOutcome) (state : State) : Prop where
  exactly : ∀ path, path ∈ outcome.changedFiles <-> Changed path state
  uncertain : outcome.recoveryFiles ≠ [] -> outcome.errorCode = "execution_uncertain"

def Truthful (result : Except Fault CommitOutcome) (state : State) : Prop :=
  (∃ action ∈ state.log, action.changes = true) ->
    ∃ outcome, result = .ok outcome ∧ Reports outcome state

/-- Where something was changed, no `CoordinationError` was raised, and no
file deleted that was not there. -/
def Steadfast (log : List Action) : Prop :=
  (∃ action ∈ log, action.changes = true) ->
    .disowned ∉ log ∧ ∀ path, .passed path ∉ log

theorem Ordered.requires {log : List Action} (ordered : Ordered request contents log) {action : Action}
    (member : action ∈ log) : ∃ earlier, Requires request contents action earlier ∧
      ∀ other ∈ earlier, other ∈ log := by
  induction log with
  | nil => cases member
  | cons last earlier ih =>
    rcases List.mem_cons.mp member with rfl | before
    · exact ⟨earlier, ordered.1, fun other => List.mem_cons_of_mem _⟩
    · rcases ih ordered.2 before with ⟨first, required, within⟩
      exact ⟨first, required, fun other there => List.mem_cons_of_mem _ (within other there)⟩

variable {state : State} (names : Names)

theorem closed_kept {place : Place} (kept : place ∉ state.pending) :
    state.closed.entries place = state.entries place := if_neg fun both => kept both.2

theorem closed_some {place : Place} {entry : Entry} (there : state.closed.entries place = some entry) :
    state.entries place = some entry := by
  by_cases gone : place ∈ state.pinned ∧ place ∈ state.pending
  · rw [show state.closed.entries place = none from if_pos gone] at there
    cases there
  · exact (if_neg gone).symm.trans there

theorem Careful.safe (careful : Careful request contents (fun _ => True) state)
    (result : Except Fault CommitOutcome)
    (retained : state.outcome.recoveryFiles ≠ [] -> result = .ok state.outcome) :
    Safe request contents result state.closed := by
  refine ⟨careful.ordered, fun path entry known => ?_, fun path there => ?_⟩
  · rcases careful.fates path entry True.intro known with standing | ⟨name, held, kept, listed, _⟩ | ⟨_, _, _, logged, _⟩
    · exact .inl ((closed_kept standing.kept).trans standing.held.1)
    · refine .inr (.inr ⟨state.outcome, .hidden name, retained (List.ne_nil_of_mem listed), listed, ?_⟩)
      exact (closed_kept kept).trans held.1
    · exact .inr (.inl logged)
  · rcases careful.installed path there with ⟨entry, content, _, held, kept⟩
    exact ⟨entry, content, (closed_kept kept).trans held.1⟩

/-- What is listed as changed, up to deletions of files that were not there. -/
theorem Careful.listed_iff (careful : Careful request contents (fun _ => True) state) (path : Text) :
    path ∈ state.outcome.changedFiles <-> Changed path state.closed ∨ .passed path ∈ state.log := by
  constructor
  · intro changed
    rcases careful.listed path changed with ⟨source, known⟩
    cases source with
    | none =>
      rcases (careful.new path True.intro known).mp changed with there | passed
      · exact .inl (.inr ⟨known, there⟩)
      · exact .inr passed
    | some entry =>
      refine .inl (.inl ⟨entry, known, fun stands => ?_⟩)
      have away {name : Nat} (held : Held (.hidden name) entry state) : False := by
        have same := careful.wf.single _ _ entry entry held.1 (closed_some stands) rfl
        cases same
      rcases careful.fates path entry True.intro known with standing | ⟨_, held, _⟩ | ⟨_, held, _⟩
      · exact standing.unlisted changed
      · exact away held
      · exact away held
  · rintro ((⟨entry, known, gone⟩ | ⟨known, there⟩) | passed)
    · rcases careful.fates path entry True.intro known with standing | ⟨_, _, _, _, changed⟩ | ⟨_, _, _, _, changed⟩
      · exact absurd ((closed_kept standing.kept).trans standing.held.1) gone
      · exact changed
      · exact changed
    · exact (careful.new path True.intro known).mpr (.inl there)
    · rcases careful.ordered.requires passed with ⟨earlier, required, within⟩
      exact (careful.new path True.intro (within _ required.1)).mpr (.inr passed)

/-- A file that was not there and was deleted is no change. -/
theorem Careful.passed_unchanged (careful : Careful request contents (fun _ => True) state) {path : Text}
    (passed : .passed path ∈ state.log) : ¬Changed path state.closed := by
  rcases careful.ordered.requires passed with ⟨earlier, required, within⟩
  rintro (⟨entry, known, _⟩ | ⟨_, there⟩)
  · have same := careful.once path _ _ known (within _ required.1)
    cases same
  · rcases careful.installed path there with ⟨entry, content, _⟩
    rw [required.2] at content
    cases content

theorem Concluded.truthful (concluded : Concluded request contents state) :
    Truthful (.ok state.outcome) state.closed <-> Steadfast state.log := by
  have careful := concluded.careful
  refine imp_congr_right fun _ => ⟨?_, ?_⟩
  · rintro ⟨outcome, same, reports⟩
    cases same
    refine ⟨concluded.owned, fun path passed => ?_⟩
    exact careful.passed_unchanged passed ((reports.exactly path).mp ((careful.listed_iff path).mpr (.inr passed)))
  · rintro ⟨_, none'⟩
    refine ⟨_, rfl, fun path => ?_, concluded.uncertain⟩
    exact (careful.listed_iff path).trans (or_iff_left (none' path))

theorem Halted.unchanged (halted : Halted request contents state) :
    ¬∃ action ∈ state.log, action.changes = true := by
  rintro ⟨action, member, changes⟩
  have harmless := halted.harmless action member
  cases action with
  | marked entry | checked path source | recorded record | passed path | disowned => cases changes
  | _ => cases harmless

theorem Gathered.empty (contents : Text -> Option Text) (request : Request) :
    Gathered request contents [] request.baseVersions State.empty := by
  have nothing {Claim : Prop} {action : Action} (member : action ∈ State.empty.log) : Claim := by cases member
  refine ⟨⟨⟨?_, ?_, ?_, ?_, ?_⟩, True.intro, ?_, ?_, ?_, ?_, ?_, ?_, ?_⟩, ?_, ?_, rfl, ⟨List.Pairwise.nil, ?_⟩, ?_, ?_,
    request.distinct⟩
  · exact fun place other entry otherEntry there => by cases there
  · exact fun place entry there => by cases there
  · exact fun place entry there => by cases there
  · exact fun place held => by cases held
  · exact fun place pending => by cases pending
  · exact fun path entry => nothing
  · exact fun path other entry otherEntry known => nothing known
  · exact fun path source other known => nothing known
  · exact fun path changed => by cases changed
  · exact fun path => nothing
  · exact fun path entry _ => nothing
  · exact fun path _ => nothing
  · exact fun action => nothing
  · exact nothing
  · exact fun item member => by cases member
  · exact fun base member => .inl member
  · exact fun base member => ⟨member, fun source => nothing⟩

theorem Gathered.ready {items : List Item} (gathered : Gathered request contents items [] state) :
    Ready request contents items state := by
  refine ⟨gathered.careful, fun base member => ?_, gathered.owned, ?_, gathered.queue⟩
  · exact (gathered.covered base member).resolve_left fun none' => by cases none'
  · rw [gathered.blank]

theorem Gathered.disowned {items : List Item} (gathered : Gathered request contents items [] state) :
    Halted request contents { state with log := .disowned :: state.log } := by
  have careful := gathered.careful
  have minor : Minor (fun _ => True) state { state with log := .disowned :: state.log } [.disowned] :=
    minor_note rfl fun path _ same => by cases same
  have spares : Spares (fun _ => True) state { state with log := .disowned :: state.log } :=
    ⟨fun _ _ _ held => held, fun _ _ _ _ => Iff.rfl⟩
  refine ⟨careful.minor ⟨careful.wf.single, careful.wf.fresh, careful.wf.own, careful.wf.occupied, careful.wf.pending⟩
    ⟨True.intro, careful.ordered⟩ spares minor (fun _ _ _ _ _ _ => True.intro) (fun _ _ _ _ => True.intro), ?_,
    gathered.blank⟩
  intro action member
  rcases List.mem_cons.mp member with rfl | before
  · rfl
  · exact gathered.harmless action before

theorem commit_triple (request : Request) (mutations : List Mutation) :
    Triple (fun state => state = State.empty) (commit names request mutations)
      (fun outcome after => ∃ state, Concluded request (replacement mutations) state ∧
        state.outcome = outcome ∧ after = state.closed)
      (fun _ after => ∃ state, (Halted request (replacement mutations) state ∨
        Broken request (replacement mutations) state) ∧ after = state.closed) := by
  have gathered := Gathered.empty (replacement mutations) request
  unfold commit
  split
  · rintro ⟨state, turns⟩ same
    have closed : State.empty = State.empty.closed := by
      simp [State.closed, State.empty]
    dsimp only at same
    rw [same]
    exact ⟨State.empty, ⟨⟨gathered.careful, gathered.owned⟩, fun retained => absurd rfl retained⟩, rfl, closed⟩
  · have prepared : Triple (fun state => state = State.empty) (prepareAll names mutations request.baseVersions)
        (fun items => Gathered request (replacement mutations) items [])
        (fun _ state => Halted request (replacement mutations) state ∨ Broken request (replacement mutations) state) :=
      (prepareAll_triple names mutations request.baseVersions []).mono (fun state same => same ▸ gathered)
        (fun items state => id) fun _ state => .inl
    have owned (items : List Item) : Triple (Gathered request (replacement mutations) items []) assertOwner
        (fun _ => Gathered request (replacement mutations) items [])
        (fun _ state => Halted request (replacement mutations) state ∨ Broken request (replacement mutations) state) :=
      assertOwner_triple gathered_steady (fun fault state _ gathered => .inl gathered.halted)
        (fun state gathered => .inl gathered.disowned)
    have installed (items : List Item) : Triple (Gathered request (replacement mutations) items []) (install names items)
        (fun _ => Concluded request (replacement mutations))
        (fun _ state => Halted request (replacement mutations) state ∨ Broken request (replacement mutations) state) :=
      (install_triple items).mono (fun state gathered => gathered.ready) (fun _ _ => id) fun _ state ended => .inr ended.2
    have looked : Triple (Concluded request (replacement mutations)) (peek State.outcome : Run CommitOutcome)
        (fun outcome state => Concluded request (replacement mutations) state ∧ state.outcome = outcome)
        (fun _ state => Halted request (replacement mutations) state ∨ Broken request (replacement mutations) state) :=
      Triple.peek fun state concluded => ⟨concluded, rfl⟩
    refine Triple.ensuring (prepared.bind (fun items => (owned items).bind (fun _ => (installed items).bind (fun _ =>
      looked)))) (fun outcome => Triple.change ?_) fun fault => Triple.change ?_
    · exact fun state both => ⟨state, both.1, both.2, rfl⟩
    · exact fun state either => ⟨state, either, rfl⟩

/-! ## Entries of other processes -/

/-- An entry that the commit does not hold stays. -/
def Gentle (before after : State) : Prop :=
  ∀ place entry, before.entries place = some entry -> place ∉ before.pinned -> after.entries place = some entry

theorem attempt_gentle {Value : Type} {effect : State -> Except Fault (Value × State)}
    (gentle : ∀ state value after, effect state = .ok (value, after) -> Gentle state after) :
    Moves (around .os) Gentle (attempt effect) := by
  intro holds stable closed
  have first : Triple holds (call (around .missing) (fun state => .ok ((), state)) id) (fun _ : Unit => holds)
      (fun _ => holds) := by
    refine Triple.call stable ?_ ?_ fun _ initially => initially
    · intro state value after initially same
      cases same
      exact initially
    · intro state fault initially same
      cases same
  refine first.bind fun _ => Triple.call stable ?_ (fun _ _ initially _ => initially) fun _ initially => initially
  exact fun state value after initially same => closed state after initially (gentle state value after same)

theorem attempts_gentle {update : State -> State} (gentle : ∀ state, Gentle state (update state)) :
    Moves (around .os) Gentle (attempts update) := by
  apply attempt_gentle
  intro state value after same
  cases same
  exact gentle state

theorem gentle_same {before after : State} (entries : after.entries = before.entries) : Gentle before after :=
  fun place _ there _ => (congrFun entries place).trans there

/-- A step of the commit itself. -/
theorem change_gentle {update : State -> State} (same : ∀ state, (update state).entries = state.entries) :
    Moves (around .os) Gentle (change update) := Moves.change fun state => gentle_same (same state)

theorem note_gentle (action : Action) : Moves (around .os) Gentle (note action) :=
  change_gentle fun _ => rfl

theorem wait_gentle : Moves (around .os) Gentle (attempts id) := attempts_gentle fun _ => gentle_same rfl

theorem record_gentle (event : Record) : Moves (around .os) Gentle (record event) := by
  have first : Moves (around .os) Gentle
      (call (around (.value "receipt_invalid")) (fun state => .ok ((), state)) id : Run Unit) := by
    intro holds stable closed
    refine Triple.call stable ?_ ?_ fun _ initially => initially
    · intro state value after initially same
      cases same
      exact initially
    · intro state fault initially same
      cases same
  have written : Moves (around .os) Gentle (attempts fun state => { state with log := .recorded event :: state.log }) :=
    attempts_gentle fun _ => gentle_same rfl
  exact first.bind fun _ => written.bind fun _ => wait_gentle

theorem rename_gentle (source target : Place) : Moves (around .os) Gentle (rename source target) := by
  apply attempt_gentle
  intro state value after result place _ there free
  split at result
  · cases result
  · next allowed =>
      rw [not_or, not_not, Option.not_isSome_iff_eq_none] at allowed
      cases result
      have apart : place ≠ source := by
        rintro rfl
        exact free allowed.1
      have different : place ≠ target := by
        rintro rfl
        rw [allowed.2] at there
        cases there
      exact (renamed_other apart different).trans there

theorem assertOwner_gentle : Moves (around .os) Gentle assertOwner := by
  have read : Moves (around .os) Gentle (attempt fun state => .ok (state.owner, state)) := by
    apply attempt_gentle
    intro state value after same
    cases same
    exact gentle_same rfl
  refine read.bind fun owner => ?_
  cases owner with
  | valid => exact Moves.pure ()
  | cancelled => exact Moves.raise _
  | superseded => exact (note_gentle _).bind fun _ => Moves.raise _

theorem catching_gentle {Value : Type} {body : Run Value} {handler : Fault -> Run Value}
    (gentle : Moves (around .os) Gentle body) (handled : ∀ fault, Moves (around .os) Gentle (handler fault)) :
    Moves (around .os) Gentle (catching body handler) := by
  refine gentle.handling fun fault => ?_
  split
  · exact Moves.raise fault
  · exact handled fault

theorem dispose_gentle (place : Place) (pending : Bool) : Moves (around .os) Gentle (attempts (State.dispose place pending)) :=
  attempts_gentle fun _ => gentle_same rfl

theorem checkBase_gentle (path : Text) (expected : Option Text) :
    Moves (around .os) Gentle (checkBase path expected) := by
  have opened : Moves (around .os) Gentle (openSource (named path)) := by
    apply attempt_gentle
    intro state value after result
    split at result
    · cases result
    · split at result
      · cases result
      · cases result
        exact gentle_same rfl
  have observed : Moves (around .os) Gentle (observe path) := by
    refine (opened.bind fun entry => wait_gentle.bind fun _ => wait_gentle.bind fun _ => Moves.pure _).handling
      (fun fault => ?_)
    split
    · exact Moves.pure none
    · exact Moves.raise fault
  refine wait_gentle.bind fun _ => observed.bind fun source => ?_
  split
  · exact (note_gentle _).bind fun _ => Moves.pure source
  · exact Moves.raise _

theorem stage_gentle (place : Place) (content : Text) : Moves (around .os) Gentle (stage place content) := by
  have created : Moves (around .os) Gentle (createStaging place) := by
    apply attempt_gentle
    intro state value after result other entry there free
    split at result
    · cases result
    · next allowed =>
        cases result
        have different : other ≠ place := by
          rintro rfl
          rw [there] at allowed
          exact allowed rfl
        exact (put_other state _ different).trans there
  have written : Moves (around .os) Gentle (writeFile place content) := by
    apply attempt_gentle
    intro state value after result other entry there free
    split at result
    · next held =>
        cases result
        have different : other ≠ place := by
          rintro rfl
          exact free held
        exact (put_other state _ different).trans there
    · cases result
  exact created.bind fun _ => (dispose_gentle place true).bind fun _ => wait_gentle.bind fun _ => written

theorem prepareAll_gentle (mutations : List Mutation) (todo : List (Text × Option Text)) :
    Moves (around .os) Gentle (prepareAll names mutations todo) := by
  induction todo with
  | nil => exact Moves.pure []
  | cons base rest ih =>
    have prepared : Moves (around .os) Gentle (prepare names mutations base) := by
      refine (checkBase_gentle base.1 base.2).bind fun source => ?_
      split
      · exact Moves.pure none
      · split
        · exact Moves.pure _
        · exact (stage_gentle _ _).bind fun _ => Moves.pure _
    exact prepared.bind fun item => ih.bind fun items => Moves.pure _

theorem replace_gentle (item : Item) : Moves (around .os) Gentle (replace names item) := by
  have aside : Moves (around .os) Gentle (setAside names item.path item.source) := by
    cases item.source with
    | none => exact Moves.pure ()
    | some entry =>
      exact wait_gentle.bind fun _ => (rename_gentle _ _).bind fun _ => change_gentle (by intro _; rfl)
  have put : Moves (around .os) Gentle (putIn item.path item.source item.staging) := by
    cases item.staging with
    | none =>
      change Moves (around .os) Gentle (if item.source.isNone then note (.passed item.path) else pure ())
      split
      · exact note_gentle _
      · exact Moves.pure ()
    | some staging =>
      exact (dispose_gentle staging false).bind (fun _ => ((rename_gentle staging _).handling (fun fault =>
        (dispose_gentle staging true).bind fun _ => Moves.raise fault)).bind fun _ => note_gentle _)
  have discarded : Moves (around .os) Gentle (discard names item.path item.source) := by
    cases item.source with
    | none => exact Moves.pure ()
    | some entry => exact (dispose_gentle _ true).bind fun _ => note_gentle _
  have confirmed : Moves (around .os) Gentle (confirm item.path) :=
    catching_gentle (record_gentle _) (fun fault => Moves.bind (change_gentle (by intro _; rfl))
      (fun _ => Moves.raise fault))
  exact assertOwner_gentle.bind (fun _ => (record_gentle _).bind (fun _ => aside.bind (fun _ => put.bind (fun _ =>
    (change_gentle (by intro _; rfl)).bind fun _ => confirmed.bind fun _ => discarded))))

theorem report_gentle (path : Text) (fault : Fault) :
    Moves (around .os) Gentle (report names path fault) := by
  have back : Moves (around .os) Gentle (putBack names path) := by
    refine (Moves.peek _).bind fun moved => (Moves.peek _).bind fun changed => ?_
    split
    · split
      · exact change_gentle (by intro _; rfl)
      · exact ((rename_gentle _ _).bind fun _ => note_gentle _).handling
          (fun fault => change_gentle (by intro _; rfl))
    · exact Moves.pure ()
  exact back.bind (fun _ => (change_gentle (by intro _; rfl)).bind (fun _ => (Moves.peek _).bind (fun outcome =>
    catching_gentle (record_gentle _) fun _ => change_gentle (by intro _; rfl))))

theorem commit_gentle (request : Request) (mutations : List Mutation) :
    Moves (around .os) Gentle (commit names request mutations) := by
  have installed (items : List Item) : Moves (around .os) Gentle (install names items) := by
    induction items with
    | nil => exact Moves.pure ()
    | cons item rest ih =>
      refine (change_gentle (by intro _; rfl)).bind (fun _ => (catching_gentle ((replace_gentle names item).bind
        (fun _ => Moves.pure false)) (fun fault => (report_gentle names item.path fault).bind (fun _ =>
          Moves.pure true))).bind fun stopped => ?_)
      cases stopped with
      | true => exact Moves.pure ()
      | false => exact ih
  have closing : Moves (around .os) Gentle close := by
    refine Moves.change fun state place entry there free => ?_
    exact (if_neg fun both => free both.1).trans there
  unfold commit
  split
  · exact Moves.peek _
  · exact ((prepareAll_gentle names mutations _).bind (fun items => assertOwner_gentle.bind (fun _ =>
      (installed items).bind fun _ => Moves.peek _))).ensuring closing

/-- For every schedule of refused calls and of other processes' steps: no
original is lost, no entry of another process touched, and the report is
truthful exactly where the surroundings and the mutations are steadfast. -/
theorem commit_reports (names : Names) (request : Request) (mutations : List Mutation) (turns : List (Turn Event)) :
    Safe request (replacement mutations) (commit names request mutations (State.empty, turns)).1
        (commit names request mutations (State.empty, turns)).2.1 ∧
      Moves (around .os) Gentle (commit names request mutations) ∧
      (Truthful (commit names request mutations (State.empty, turns)).1
          (commit names request mutations (State.empty, turns)).2.1 <->
        Steadfast (commit names request mutations (State.empty, turns)).2.1.log) := by
  have outcome := commit_triple names request mutations (State.empty, turns) rfl
  rcases ran : commit names request mutations (State.empty, turns) with ⟨fault | value, after, left⟩
  · rw [ran] at outcome
    rcases outcome with ⟨state, halted | broken, rfl⟩
    · refine ⟨halted.careful.safe _ (fun retained => ?_), commit_gentle names request mutations, ?_⟩
      · rw [halted.blank] at retained
        exact absurd rfl retained
      · exact ⟨fun _ changes => absurd changes halted.unchanged, fun _ changes => absurd changes halted.unchanged⟩
    · refine ⟨broken.1.safe _ (fun retained => absurd broken.2.2 retained), commit_gentle names request mutations, ?_⟩
      refine imp_congr_right fun _ => ⟨fun reports => ?_, fun steadfast => absurd broken.2.1 steadfast.1⟩
      rcases reports with ⟨_, same, _⟩
      cases same
  · rw [ran] at outcome
    rcases outcome with ⟨state, concluded, rfl, rfl⟩
    exact ⟨concluded.careful.safe _ (fun _ => rfl), commit_gentle names request mutations, concluded.truthful⟩

end

section Examples

/-- Names and contents as they are. -/
local instance plain : Files := ⟨id, id⟩

def drawn : Names := ⟨fun path => path.length, fun path => path.length + 10⟩

/-- Two files that are to be replaced. -/
def pair : Request := ⟨[(['a'], some ['1']), (['b', 'b'], some ['2'])], by decide⟩

def pairMutations : List Mutation := [⟨['a'], some ['3']⟩, ⟨['b', 'b'], some ['4']⟩]

/-- The two files are there before the first call, and the run is superseded
once a number of calls have been made. -/
def superseding (calls : Nat) : List (Turn Event) :=
  ⟨[.create (.named ['a']) ['1'], .create (.named ['b', 'b']) ['2']], false⟩ ::
    (List.replicate calls ⟨[], false⟩ ++ [⟨[.own .superseded], false⟩])

/-- The first file has been replaced when the owner check of the second one
raises; no outcome is returned. -/
theorem superseded_after_change :
    (commit drawn pair pairMutations (State.empty, superseding 40)).1 = .error .coordination ∧
      .installed ['a'] ∈ (commit drawn pair pairMutations (State.empty, superseding 40)).2.1.log ∧
      ((commit drawn pair pairMutations (State.empty, superseding 40)).2.1.entries (.named ['a'])).map Entry.content =
        some ['3'] := by
  refine ⟨rfl, ?_, rfl⟩
  decide

end Examples

end WorkspaceBroker
end FixLoop
