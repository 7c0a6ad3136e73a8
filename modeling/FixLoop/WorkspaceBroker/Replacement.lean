import FixLoop.WorkspaceBroker.Invariant

namespace FixLoop
namespace WorkspaceBroker

open Library
open Interleaved (Process Triple Stable call change peek handling ensuring)

/-!
# One replacement

What each step of the loop establishes about the item at hand, and in which
states it can fail.
-/

section

set_option linter.unusedSectionVars false

variable [Files] {request : Request} {contents : Text -> Option Text} (names : Names) (item : Item) (rest : List Item)

/-- Nothing has been done about the item. -/
structure Fresh (request : Request) (contents : Text -> Option Text) (item : Item) (rest : List Item) (state : State) :
    Prop where
  busy : Busy request contents item rest state
  waiting : Waiting contents item state
  still : state.moved = false
  standing : ∀ entry, item.source = some entry -> Standing item.path entry state

/-- The original, if there is one, has been set aside. -/
structure Away (names : Names) (item : Item) (state : State) : Prop where
  away : ∀ entry, item.source = some entry -> state.moved = true ∧ Held (names.recovery item.path) entry state ∧
    names.recovery item.path ∉ state.pending ∧ .moved item.path (names.recovery item.path) ∈ state.log
  new : item.source = none -> state.moved = false

structure Aside (request : Request) (contents : Text -> Option Text) (names : Names) (item : Item) (rest : List Item)
    (state : State) : Prop where
  busy : Busy request contents item rest state
  waiting : Waiting contents item state
  away : Away names item state
  intended : ∃ recovery, .recorded (.intent item.path recovery) ∈ state.log

/-- The replacement is installed, or the deletion is done. -/
structure Put (request : Request) (contents : Text -> Option Text) (names : Names) (item : Item) (rest : List Item)
    (state : State) : Prop where
  busy : Busy request contents item rest state
  away : Away names item state
  done : ∀ content, contents item.path = some content -> .installed item.path ∈ state.log
  new : item.source = none -> .installed item.path ∈ state.log ∨ .passed item.path ∈ state.log

structure Listed (request : Request) (contents : Text -> Option Text) (names : Names) (item : Item) (rest : List Item)
    (state : State) : Prop extends Put request contents names item rest state where
  changed : item.path ∈ state.outcome.changedFiles

/-- A `CoordinationError` has been raised. -/
def Broken (request : Request) (contents : Text -> Option Text) (state : State) : Prop :=
  Careful request contents (fun _ => True) state ∧ .disowned ∈ state.log ∧ state.outcome.recoveryFiles = []

/-- Where the body of the loop can fail. -/
def Failing (request : Request) (contents : Text -> Option Text) (names : Names) (item : Item) (rest : List Item)
    (state : State) : Prop :=
  Fresh request contents item rest state ∨ Aside request contents names item rest state ∨
    Listed request contents names item rest state

def Stopped (request : Request) (contents : Text -> Option Text) (names : Names) (item : Item) (rest : List Item)
    (fault : Fault) (state : State) : Prop :=
  (fault = .coordination -> Broken request contents state) ∧
    (fault ≠ .coordination -> Failing request contents names item rest state)

variable {names item rest}

variable {state : State} {action : Action}

theorem Stopped.of_io {fault : Fault} (raised : Fault.io fault)
    (failing : Failing request contents names item rest state) :
    Stopped request contents names item rest fault state := by
  refine ⟨fun same => ?_, fun _ => failing⟩
  subst same
  rcases raised with same | same
  · cases same
  · cases same

theorem fresh_steady : Steady (Fresh request contents item rest) := by
  intro before after beside fresh
  refine ⟨busy_steady item rest _ _ beside fresh.busy, waiting_steady item _ _ beside fresh.waiting,
    beside.moved.trans fresh.still, fun entry same => ?_⟩
  have standing := fresh.standing entry same
  refine ⟨standing.held.beside beside, ?_, ?_, ?_⟩
  · rw [beside.pending]
    exact standing.kept
  · rw [beside.outcome]
    exact standing.unlisted
  · rw [beside.outcome]
    exact standing.unretained

theorem away_steady : Steady (Away names item) := by
  intro before after beside away
  refine ⟨fun entry same => ?_, fun same => beside.moved.trans (away.new same)⟩
  rcases away.away entry same with ⟨moved, held, kept, logged⟩
  refine ⟨beside.moved.trans moved, held.beside beside, ?_, ?_⟩
  · rw [beside.pending]
    exact kept
  · rw [beside.log]
    exact logged

theorem aside_steady : Steady (Aside request contents names item rest) := by
  intro before after beside aside
  refine ⟨busy_steady item rest _ _ beside aside.busy, waiting_steady item _ _ beside aside.waiting,
    away_steady _ _ beside aside.away, ?_⟩
  rw [beside.log]
  exact aside.intended

theorem put_steady : Steady (Put request contents names item rest) := by
  intro before after beside put
  refine ⟨busy_steady item rest _ _ beside put.busy, away_steady _ _ beside put.away, ?_, ?_⟩
  · rw [beside.log]
    exact put.done
  · rw [beside.log]
    exact put.new

theorem listed_steady : Steady (Listed request contents names item rest) := by
  intro before after beside listed
  refine ⟨put_steady _ _ beside listed.toPut, ?_⟩
  rw [beside.outcome]
  exact listed.changed

/-- The item whose turn it is has its fate as well. -/
theorem Careful.whole {path : Text} {source : Option Entry}
    (careful : Careful request contents (fun other => other ≠ path) state)
    (known : .checked path source ∈ state.log)
    (fate : ∀ entry, source = some entry -> Fate path entry state)
    (new : source = none -> (path ∈ state.outcome.changedFiles <-> .installed path ∈ state.log ∨ .passed path ∈ state.log)) :
    Careful request contents (fun _ => True) state := by
  refine { careful with fates := ?_, new := ?_ }
  · intro other entry _ there
    by_cases same : other = path
    · subst same
      exact fate entry (careful.once other source _ known there)
    · exact careful.fates other entry same there
  · intro other _ there
    by_cases same : other = path
    · subst same
      exact new (careful.once other source _ known there)
    · exact careful.new other same there

theorem Fresh.whole (fresh : Fresh request contents item rest state) :
    Careful request contents (fun _ => True) state := by
  refine fresh.busy.careful.whole fresh.busy.known (fun entry same => .inl (fresh.standing entry same)) fun _ => ?_
  constructor
  · exact fun changed => absurd changed fresh.waiting.unlisted
  · rintro (there | there)
    · exact absurd there fresh.waiting.idle.1
    · exact absurd there fresh.waiting.idle.2

/-- One more quiet action. -/
theorem minor_note {live : Text -> Prop} (quiet : action.quiet = true)
    (passes : ∀ path, live path -> action ≠ .passed path) :
    Minor live state { state with log := action :: state.log } [action] := by
  refine ⟨rfl, ?_, ?_, fun _ _ => Iff.rfl, fun _ _ _ => Iff.rfl, fun _ changed => .inl changed⟩
  · intro other member
    rw [List.mem_singleton.mp member]
    exact quiet
  · intro path among member
    exact passes path among (List.mem_singleton.mp member).symm

theorem Busy.noted (busy : Busy request contents item rest state) (quiet : action.quiet = true)
    (required : Requires request contents action state.log)
    (passes : ∀ path, path ≠ item.path -> action ≠ .passed path) (owned : action ≠ .disowned) :
    Busy request contents item rest { state with log := action :: state.log } :=
  busy.logged ⟨required, busy.careful.ordered⟩ rfl rfl rfl rfl (minor_note quiet passes)
    (fun member => owned (List.mem_singleton.mp member).symm) rfl

theorem Waiting.noted (waiting : Waiting contents item state) (quiet : action.quiet = true)
    (passes : action ≠ .passed item.path) :
    Waiting contents item { state with log := action :: state.log } := by
  refine ⟨List.mem_cons_of_mem _ waiting.known, waiting.unlisted, ⟨?_, ?_⟩, waiting.staged, waiting.bare⟩
  · intro member
    rcases List.mem_cons.mp member with same | earlier
    · rw [<- same] at quiet
      cases quiet
    · exact waiting.idle.1 earlier
  · intro member
    rcases List.mem_cons.mp member with same | earlier
    · exact passes same.symm
    · exact waiting.idle.2 earlier

theorem assertOwner_triple {pre : State -> Prop} {failed : Fault -> State -> Prop} (steady : Steady pre)
    (fails : ∀ fault state, fault ≠ .coordination -> pre state -> failed fault state)
    (disowns : ∀ state, pre state -> failed .coordination { state with log := .disowned :: state.log }) :
    Triple pre assertOwner (fun _ => pre) failed := by
  have read : Triple pre (attempt fun state => .ok (state.owner, state)) (fun _ => pre) failed := by
    apply attempt_triple steady
    · intro state value after initially same
      cases same
      exact initially
    · intro fault state raised initially
      refine fails fault state (fun same => ?_) initially
      subst same
      rcases raised with same | same
      · cases same
      · cases same
    · intro state fault _ same
      cases same
  refine read.bind fun owner => ?_
  cases owner with
  | valid => exact Triple.pure () (fun _ => pre) failed
  | cancelled =>
    exact (Triple.raise (.value "cancelled: commit cancelled") (fun _ => pre) failed).mono
      (fun state initially => fails _ state (fun same => by cases same) initially) (fun _ _ => id) fun _ _ => id
  | superseded =>
    have noted : Triple pre (note .disowned) (fun _ => failed .coordination) failed := Triple.change disowns
    exact noted.bind fun _ => Triple.raise .coordination (fun _ => pre) failed

/-! ## The steps -/

theorem Fresh.disowned (fresh : Fresh request contents item rest state) :
    Broken request contents { state with log := .disowned :: state.log } := by
  refine ⟨?_, List.mem_cons_self, fresh.busy.whole⟩
  have careful := fresh.whole
  have minor : Minor (fun _ => True) state { state with log := .disowned :: state.log } [.disowned] :=
    minor_note rfl fun path _ same => by cases same
  have wf : Wf { state with log := .disowned :: state.log } :=
    ⟨careful.wf.single, careful.wf.fresh, careful.wf.own, careful.wf.occupied, careful.wf.pending⟩
  have spares : Spares (fun _ => True) state { state with log := .disowned :: state.log } :=
    ⟨fun _ _ _ held => held, fun _ _ _ _ => Iff.rfl⟩
  exact careful.minor wf ⟨True.intro, careful.ordered⟩ spares minor (fun _ _ _ _ _ _ => True.intro)
    (fun _ _ _ _ => True.intro)

theorem owner_step :
    Triple (Fresh request contents item rest) assertOwner (fun _ => Fresh request contents item rest)
      (Stopped request contents names item rest) :=
  assertOwner_triple fresh_steady (fun _ _ caught fresh => ⟨fun same => absurd same caught, fun _ => .inl fresh⟩)
    (fun _ fresh => ⟨fun _ => fresh.disowned, fun other => absurd rfl other⟩)

theorem intent_step (recovery : Option Place) :
    Triple (Fresh request contents item rest) (record (.intent item.path recovery))
      (fun _ state => Fresh request contents item rest state ∧ .recorded (.intent item.path recovery) ∈ state.log)
      (Stopped request contents names item rest) := by
  apply record_triple fresh_steady (fun state => Fresh request contents item rest state ∧
    .recorded (.intent item.path recovery) ∈ state.log)
  · intro before after beside both
    refine ⟨fresh_steady _ _ beside both.1, ?_⟩
    rw [beside.log]
    exact both.2
  · intro state fresh
    refine ⟨⟨fresh.busy.noted rfl True.intro (fun _ _ same => by cases same) (fun same => by cases same),
      fresh.waiting.noted rfl (fun same => by cases same), fresh.still, fun entry same => ?_⟩, List.mem_cons_self⟩
    have standing := fresh.standing entry same
    exact ⟨standing.held, standing.kept, standing.unlisted, standing.unretained⟩
  · exact fun _ both => both
  · intro fault state caught initially
    refine ⟨fun same => absurd same caught, fun _ => .inl ?_⟩
    rcases initially with fresh | both
    · exact fresh
    · exact both.1

theorem Careful.other_original {path other : Text} {entry found : Entry} {place : Place}
    (careful : Careful request contents (fun other => other ≠ path) state)
    (known : .checked path (some entry) ∈ state.log) (different : other ≠ path)
    (also : .checked other (some found) ∈ state.log) (there : Held place entry state)
    (here : Held place found state) : False :=
  different (careful.apart other path found entry also known (congrArg Entry.file (here.unique there)))

theorem aside_step :
    Triple (fun state => Fresh request contents item rest state ∧
        .recorded (.intent item.path (item.source.map fun _ => names.recovery item.path)) ∈ state.log)
      (setAside names item.path item.source) (fun _ => Aside request contents names item rest)
      (Stopped request contents names item rest) := by
  cases source : item.source with
  | none =>
    refine (Triple.pure () (fun _ => Aside request contents names item rest) _).mono (fun state both => ?_)
      (fun _ _ => id) fun _ _ => id
    exact ⟨both.1.busy, both.1.waiting, ⟨fun entry same => (by rw [source] at same; cases same), fun _ => both.1.still⟩,
      ⟨_, both.2⟩⟩
  | some entry =>
    have steady : Steady (fun state => Fresh request contents item rest state ∧
        .recorded (.intent item.path (some (names.recovery item.path))) ∈ state.log) := by
      intro before after beside both
      refine ⟨fresh_steady _ _ beside both.1, ?_⟩
      rw [beside.log]
      exact both.2
    have fails (fault : Fault) (state : State) (raised : Fault.io fault)
        (both : Fresh request contents item rest state ∧
          .recorded (.intent item.path (some (names.recovery item.path))) ∈ state.log) :
        Stopped request contents names item rest fault state := Stopped.of_io raised (.inl both.1)
    refine (attempts_id steady fails).bind fun _ => ?_
    -- The rename and the note of it.
    refine Triple.bind (rename_triple steady (fun state both free => ?_) fails) fun _ => Triple.change fun _ => id
    have fresh := both.1
    have standing := fresh.standing entry source
    have known := fresh.busy.known
    rw [source] at known
    have wf := fresh.busy.careful.wf
    have spares : Spares (fun place => place ≠ named item.path) state
        (state.renamed (named item.path) (names.recovery item.path)) := renamed_spares wf free
    let after : State := { state.renamed (named item.path) (names.recovery item.path) with
      moved := true, log := [.moved item.path (names.recovery item.path), .renamed (state.entries (named item.path))] ++
        state.log }
    have minor (live : Text -> Prop) : Minor live state after
        [.moved item.path (names.recovery item.path), .renamed (state.entries (named item.path))] := by
      refine ⟨rfl, fun action member => ?_, fun path _ member => ?_, fun _ _ => Iff.rfl, fun _ _ _ => Iff.rfl,
        fun _ changed => .inl changed⟩
      · simp only [List.mem_cons, List.not_mem_nil, or_false] at member
        rcases member with rfl | rfl
        · rfl
        · rfl
      · simp at member
    have original : Requires request contents (.renamed (state.entries (named item.path))) state.log :=
      ⟨fresh.busy.all, entry, standing.held.1, .inr ⟨item.path, _, known, both.2⟩⟩
    have later : Spares (fun place => place ≠ named item.path) state after := ⟨spares.held, spares.pending⟩
    have busy : Busy request contents item rest after := by
      have moved := renamed_wf wf free standing.held
      refine fresh.busy.minor ⟨moved.single, moved.fresh, moved.own, moved.occupied, moved.pending⟩
        ⟨⟨fresh.busy.all.append [.renamed _], List.mem_cons_of_mem _ both.2⟩, original, fresh.busy.careful.ordered⟩ later
        (minor _) ?_ rfl ?_ ?_ ?_
      · exact fun member => by simp at member
      · rintro path found place different also here rfl
        exact fresh.busy.careful.other_original known different also standing.held here
      · rintro path found own here same
        rw [same] at here
        have foreign := fresh.busy.careful.foreign item.path entry known
        rw [standing.held.unique here, own] at foreign
        cases foreign
      · intro other place member staging
        rcases (fresh.busy.queue.2 other member).staged place staging with ⟨name, _, rfl, _⟩
        exact fun same => by cases same
    refine ⟨busy, ?_, ⟨fun found same => ?_, fun same => (by rw [source] at same; cases same)⟩,
      ⟨_, List.mem_cons_of_mem _ (List.mem_cons_of_mem _ both.2)⟩⟩
    · refine fresh.waiting.minor (minor fun _ => True) True.intro fun place staged staging held => ?_
      rcases fresh.waiting.staged place staging with ⟨name, _, rfl, _⟩
      exact later.held _ staged (fun same => by cases same) held
    · rw [source] at same
      cases same
      exact ⟨rfl, renamed_held wf free standing.held, fun pending => standing.kept ((renamed_pending wf free).mp pending),
        List.mem_cons_self⟩

/-- A change of what is pending of the staged file. -/
theorem Aside.disposed {name : Nat} (aside : Aside request contents names item rest state)
    (staging : item.staging = some (.hidden name)) (pending : Bool) :
    Aside request contents names item rest (state.dispose (.hidden name) pending) := by
  rcases aside.waiting.staged _ staging with ⟨_, staged, _, content, own, held⟩
  have careful := aside.busy.careful
  have spares := dispose_spares (.hidden name) pending state
  have minors (live : Text -> Prop) : ∃ added, Minor live state (state.dispose (.hidden name) pending) added ∧
      .disowned ∉ added := by
    cases pending with
    | true => exact ⟨_, minor_dispose live state (.hidden name), fun member => by simp at member⟩
    | false => exact ⟨_, minor_undispose live state (.hidden name), fun member => by cases member⟩
  have ordered : Ordered request contents (state.dispose (.hidden name) pending).log := by
    cases pending with
    | true => exact ⟨⟨staged, held.1, .inl own⟩, careful.ordered⟩
    | false => exact careful.ordered
  have later {action : Action} (known : action ∈ state.log) : action ∈ (state.dispose (.hidden name) pending).log := by
    rcases minors (fun _ => True) with ⟨added, minor, _⟩
    exact minor.kept known
  rcases minors (fun path => path ≠ item.path) with ⟨added, minor, owned⟩
  refine ⟨aside.busy.minor (dispose_wf careful.wf held.2 pending) ordered spares minor owned rfl ?_ ?_ ?_, ?_, ?_,
    aside.intended.imp fun _ => later⟩
  · intro path found place different also here same
    subst same
    have foreign := careful.foreign path found also
    rw [here.unique held, own] at foreign
    cases foreign
  · exact fun path found _ _ same => by cases same
  · rintro other place member stagingOther rfl
    exact (aside.busy.apart other member).2 _ staging stagingOther
  · rcases minors (fun _ => True) with ⟨_, minor, _⟩
    exact aside.waiting.minor minor True.intro fun _ _ _ held => held
  · refine ⟨fun entry same => ?_, aside.away.new⟩
    rcases aside.away.away entry same with ⟨moved, away, kept, logged⟩
    refine ⟨moved, away, fun member => kept ((spares.pending _ entry ?_ away).mp member), later logged⟩
    intro same'
    rw [same'] at away
    have foreign := careful.foreign item.path entry (same ▸ aside.busy.known)
    rw [away.unique held, own] at foreign
    cases foreign

theorem Busy.installs (busy : Busy request contents item rest state)
    (installed : Installed contents item.path state)
    (intended : ∃ recovery, .recorded (.intent item.path recovery) ∈ state.log) :
    Busy request contents item rest { state with log := .installed item.path :: state.log } := by
  have careful := busy.careful
  have checked {path : Text} {source : Option Entry}
      (known : .checked path source ∈ Action.installed item.path :: state.log) : .checked path source ∈ state.log :=
    List.mem_of_ne_of_mem (fun same => by cases same) known
  refine ⟨⟨⟨careful.wf.single, careful.wf.fresh, careful.wf.own, careful.wf.occupied, careful.wf.pending⟩,
      ⟨⟨busy.all, intended⟩, careful.ordered⟩, ?_, ?_, ?_, ?_, ?_, ?_, ?_⟩,
    busy.all.append [.installed item.path], List.mem_cons_of_mem _ busy.known, ?_, busy.whole, ⟨busy.queue.1, ?_⟩,
    busy.apart⟩
  · exact fun path entry known => careful.foreign path entry (checked known)
  · exact fun path other entry otherEntry known also => careful.apart path other entry otherEntry (checked known) (checked also)
  · exact fun path source other known also => careful.once path source other (checked known) (checked also)
  · intro path changed
    rcases careful.listed path changed with ⟨source, known⟩
    exact ⟨source, List.mem_cons_of_mem _ known⟩
  · intro path there
    rcases List.mem_cons.mp there with same | earlier
    · cases same
      exact installed
    · exact careful.installed path earlier
  · intro path entry among known
    rcases careful.fates path entry among (checked known) with standing | retained | ⟨name, held, pending, logged, changed⟩
    · exact .inl ⟨standing.held, standing.kept, standing.unlisted, standing.unretained⟩
    · exact .inr (.inl retained)
    · exact .inr (.inr ⟨name, held, pending, List.mem_cons_of_mem _ logged, changed⟩)
  · intro path among known
    rw [careful.new path among (checked known)]
    refine or_congr ⟨List.mem_cons_of_mem _, fun there => ?_⟩ ⟨List.mem_cons_of_mem _, fun there => ?_⟩
    · exact List.mem_of_ne_of_mem (fun same => among (Action.installed.inj same)) there
    · exact List.mem_of_ne_of_mem (fun same => by cases same) there
  · exact fun member => busy.owned (List.mem_of_ne_of_mem (fun same => by cases same) member)
  · intro other member
    have waiting := busy.queue.2 other member
    refine ⟨List.mem_cons_of_mem _ waiting.known, waiting.unlisted, ⟨fun there => ?_, fun there => ?_⟩, waiting.staged,
      waiting.bare⟩
    · exact waiting.idle.1 (List.mem_of_ne_of_mem (fun same => (busy.apart other member).1 (Action.installed.inj same).symm)
        there)
    · exact waiting.idle.2 (List.mem_of_ne_of_mem (fun same => by cases same) there)

/-- The staged file takes the name of the path. -/
theorem Aside.put {name : Nat} (aside : Aside request contents names item rest state)
    (staging : item.staging = some (.hidden name)) (kept : .hidden name ∉ state.pending)
    (free : state.entries (named item.path) = none) :
    Put request contents names item rest { state.renamed (.hidden name) (named item.path) with
      log := .installed item.path :: (state.renamed (.hidden name) (named item.path)).log } := by
  rcases aside.waiting.staged _ staging with ⟨_, staged, _, content, own, held⟩
  have careful := aside.busy.careful
  have spares : Spares (fun place => place ≠ .hidden name) state (state.renamed (.hidden name) (named item.path)) :=
    renamed_spares careful.wf free
  have foreign {path : Text} {found : Entry} {place : Place} (also : .checked path (some found) ∈ state.log)
      (here : Held place found state) : place ≠ .hidden name := by
    rintro rfl
    have made := careful.foreign path found also
    rw [here.unique held, own] at made
    cases made
  have busy : Busy request contents item rest (state.renamed (.hidden name) (named item.path)) := by
    refine aside.busy.minor (renamed_wf careful.wf free held) ⟨⟨aside.busy.all, staged, held.1, .inl own⟩, careful.ordered⟩ spares
      (minor_rename _ state _ _) (fun member => by simp at member) rfl (fun path found place _ also here => foreign also here) (fun path found _ _ same => by cases same) ?_
    rintro other place member stagingOther rfl
    exact (aside.busy.apart other member).2 _ staging stagingOther
  refine ⟨busy.installs ⟨staged, content, own, renamed_held careful.wf free held, fun pending => ?_⟩
      (aside.intended.imp fun _ => List.mem_cons_of_mem _), ⟨fun entry same => ?_, aside.away.new⟩, fun _ _ => List.mem_cons_self, fun _ => .inl List.mem_cons_self⟩
  · exact kept ((renamed_pending careful.wf free).mp pending)
  · rcases aside.away.away entry same with ⟨moved, away, unpending, logged⟩
    have apart := foreign (same ▸ aside.busy.known) away
    exact ⟨moved, spares.held _ entry apart away, fun pending => unpending ((spares.pending _ entry apart away).mp pending),
      List.mem_cons_of_mem _ (List.mem_cons_of_mem _ logged)⟩

theorem put_step :
    Triple (Aside request contents names item rest) (putIn item.path item.source item.staging)
      (fun _ => Put request contents names item rest) (Stopped request contents names item rest) := by
  cases staging : item.staging with
  | none =>
    have done (state : State) (aside : Aside request contents names item rest state) (content : Text)
        (has : contents item.path = some content) : .installed item.path ∈ state.log := by
      rw [aside.waiting.bare staging] at has
      cases has
    cases source : item.source with
    | none =>
      rw [show putIn item.path none none = note (.passed item.path) from rfl]
      apply Triple.change
      intro state aside
      refine ⟨aside.busy.noted rfl ⟨source ▸ aside.busy.known, aside.waiting.bare staging⟩ ?_
        (fun same => by cases same), ⟨fun entry same => ?_, aside.away.new⟩,
        fun content has => List.mem_cons_of_mem _ (done state aside content has), fun _ => .inr List.mem_cons_self⟩
      · exact fun path different same => different (Action.passed.inj same).symm
      · rw [source] at same
        cases same
    | some entry =>
      refine (Triple.pure () (fun _ => Put request contents names item rest) _).mono (fun state aside => ?_)
        (fun _ _ => id) fun _ _ => id
      exact ⟨aside.busy, aside.away, done state aside, fun same => by rw [source] at same; cases same⟩
  | some place =>
    -- The staged file is at a private place.
    by_cases hidden : ∃ name, place = .hidden name
    · rcases hidden with ⟨name, rfl⟩
      have disposed : Triple (Aside request contents names item rest) (attempts (State.dispose (.hidden name) false))
          (fun _ state => Aside request contents names item rest state ∧ .hidden name ∉ state.pending)
          (Stopped request contents names item rest) :=
        attempts_triple aside_steady (fun state aside => ⟨aside.disposed staging false, dispose_kept _ state⟩)
          (fun fault state raised aside => .of_io raised (.inr (.inl aside)))
      have steady : Steady (fun state => Aside request contents names item rest state ∧ .hidden name ∉ state.pending) := by
        intro before after beside both
        refine ⟨aside_steady _ _ beside both.1, ?_⟩
        rw [beside.pending]
        exact both.2
      have renamed : Triple (fun state => Aside request contents names item rest state ∧ .hidden name ∉ state.pending)
          (rename (.hidden name) (named item.path))
          (fun _ state => Put request contents names item rest { state with log := .installed item.path :: state.log })
          (fun fault state => Fault.io fault ∧ Aside request contents names item rest state) :=
        rename_triple steady (fun state both free => both.1.put staging both.2 free)
          (fun fault state raised both => ⟨raised, both.1⟩)
      refine disposed.bind (fun _ => Triple.bind (renamed.handling fun fault => ?_) fun _ => Triple.change fun _ => id)
      -- The staged file is deleted, and the fault passed on.
      have marked : Triple (fun state => Fault.io fault ∧ Aside request contents names item rest state)
          (attempts (State.dispose (.hidden name) true))
          (fun _ state => Fault.io fault ∧ Aside request contents names item rest state)
          (Stopped request contents names item rest) := by
        apply attempts_triple
        · exact fun before after beside both => ⟨both.1, aside_steady _ _ beside both.2⟩
        · exact fun state both => ⟨both.1, both.2.disposed staging true⟩
        · exact fun other state raised both => .of_io raised (.inr (.inl both.2))
      refine marked.bind fun _ => ?_
      exact (Triple.raise fault _ _).mono (fun state both => .of_io both.1 (.inr (.inl both.2))) (fun _ _ => id)
        (fun _ _ => id)
    · intro start aside
      rcases aside.waiting.staged place staging with ⟨name, _, same, _⟩
      exact absurd ⟨name, same⟩ hidden

theorem list_step {failed : Fault -> State -> Prop} :
    Triple (Put request contents names item rest) (change (list item.path) : Run Unit)
      (fun _ => Listed request contents names item rest) failed := by
  apply Triple.change
  intro state put
  have minor : Minor (fun path => path ≠ item.path) state (list item.path state) [] := by
    refine ⟨rfl, fun _ member => (by cases member), fun _ _ member => (by cases member), fun path different => ?_,
      fun _ _ _ => Iff.rfl, fun path changed => ?_⟩
    · exact List.mem_append.trans (or_iff_left fun same => different (List.mem_singleton.mp same))
    · rcases List.mem_append.mp changed with earlier | same
      · exact .inl earlier
      · rw [List.mem_singleton.mp same]
        exact .inr ⟨item.source, put.busy.known⟩
  exact ⟨⟨put.busy.logged put.busy.careful.ordered rfl rfl rfl rfl minor (fun member => by cases member) rfl,
    ⟨put.away.away, put.away.new⟩, put.done, put.new⟩, List.mem_append_right _ (List.mem_singleton.mpr rfl)⟩

theorem Listed.noted (listed : Listed request contents names item rest state) (quiet : action.quiet = true)
    (required : Requires request contents action state.log)
    (passes : ∀ path, path ≠ item.path -> action ≠ .passed path) (owned : action ≠ .disowned) :
    Listed request contents names item rest { state with log := action :: state.log } := by
  refine ⟨⟨listed.busy.noted quiet required passes owned, ⟨fun entry same => ?_, listed.away.new⟩,
    fun content has => List.mem_cons_of_mem _ (listed.done content has), fun same => ?_⟩, listed.changed⟩
  · rcases listed.away.away entry same with ⟨moved, held, kept, logged⟩
    exact ⟨moved, held, kept, List.mem_cons_of_mem _ logged⟩
  · exact (listed.new same).imp (List.mem_cons_of_mem _) (List.mem_cons_of_mem _)

theorem confirm_step :
    Triple (Listed request contents names item rest) (confirm item.path)
      (fun _ state => Listed request contents names item rest state ∧ .recorded (.committed item.path) ∈ state.log)
      (Stopped request contents names item rest) := by
  have recorded : Triple (Listed request contents names item rest) (record (.committed item.path))
      (fun _ state => Listed request contents names item rest state ∧ .recorded (.committed item.path) ∈ state.log)
      (fun fault state => fault ≠ .coordination ∧ Listed request contents names item rest state) := by
    apply record_triple listed_steady (fun state => Listed request contents names item rest state ∧
      .recorded (.committed item.path) ∈ state.log)
    · intro before after beside both
      refine ⟨listed_steady _ _ beside both.1, ?_⟩
      rw [beside.log]
      exact both.2
    · intro state listed
      exact ⟨listed.noted rfl listed.done (fun _ _ same => by cases same) (fun same => by cases same), List.mem_cons_self⟩
    · exact fun _ both => both
    · intro fault state caught initially
      refine ⟨caught, ?_⟩
      rcases initially with listed | both
      · exact listed
      · exact both.1
  refine recorded.handling fun fault => ?_
  split
  · next coordination =>
      intro start both
      exact absurd coordination both.1
  · next caught =>
      have stopped : Triple (fun state => fault ≠ .coordination ∧ Listed request contents names item rest state)
          (change (fun state => { state with journalFailed := true }) : Run Unit)
          (fun _ => Stopped request contents names item rest fault) (Stopped request contents names item rest) := by
        apply Triple.change
        intro state both
        refine ⟨fun same => absurd same both.1, fun _ => .inr (.inr ?_)⟩
        have listed := both.2
        have minor : Minor (fun path => path ≠ item.path) state { state with journalFailed := true } [] :=
          ⟨rfl, fun _ member => (by cases member), fun _ _ member => (by cases member), fun _ _ => Iff.rfl,
            fun _ _ _ => Iff.rfl, fun _ changed => .inl changed⟩
        exact ⟨⟨listed.busy.logged listed.busy.careful.ordered rfl rfl rfl rfl minor (fun member => by cases member) rfl,
          ⟨listed.away.away, listed.away.new⟩, listed.done, listed.new⟩, listed.changed⟩
      exact stopped.bind fun _ => Triple.raise fault _ _

/-- What holds between two items. -/
structure Ready (request : Request) (contents : Text -> Option Text) (items : List Item) (state : State) : Prop where
  careful : Careful request contents (fun _ => True) state
  all : AllChecked request state.log
  owned : .disowned ∉ state.log
  whole : state.outcome.recoveryFiles = []
  queue : Queue contents items state

theorem Busy.ready (busy : Busy request contents item rest state)
    (careful : Careful request contents (fun _ => True) state) : Ready request contents rest state :=
  ⟨careful, busy.all, busy.owned, busy.whole, busy.queue⟩

/-- The original is marked for deletion. -/
theorem Listed.discarded {entry : Entry} (listed : Listed request contents names item rest state)
    (committed : .recorded (.committed item.path) ∈ state.log) (source : item.source = some entry) :
    Ready request contents rest { state.dispose (names.recovery item.path) true with
      log := .discarded item.path :: (state.dispose (names.recovery item.path) true).log } := by
  rcases listed.away.away entry source with ⟨_, held, _, _⟩
  have careful := listed.busy.careful
  have known := listed.busy.known
  rw [source] at known
  have spares := dispose_spares (names.recovery item.path) true state
  have disposed : Busy request contents item rest (state.dispose (names.recovery item.path) true) := by
    refine listed.busy.minor (dispose_wf careful.wf held.2 true)
      ⟨⟨entry, held.1, .inr ⟨item.path, known, committed⟩⟩, careful.ordered⟩ spares (minor_dispose _ state _)
      (fun member => by simp at member) rfl ?_ (fun path found _ _ same => by cases same) ?_
    · rintro path found place different also here rfl
      exact careful.other_original known different also held here
    · rintro other place member staging rfl
      rcases (listed.busy.queue.2 other member).staged _ staging with ⟨_, staged, _, _, own, there⟩
      have made := careful.foreign item.path entry known
      rw [held.unique there, own] at made
      cases made
  have busy : Busy request contents item rest { state.dispose (names.recovery item.path) true with
      log := .discarded item.path :: (state.dispose (names.recovery item.path) true).log } :=
    disposed.noted rfl (List.mem_cons_of_mem _ committed) (fun _ _ same => by cases same)
    (fun same => by cases same)
  refine busy.ready (busy.careful.whole busy.known (fun other same => ?_) fun same => ?_)
  · rw [source] at same
    cases same
    exact .inr (.inr ⟨names.backup item.path, held, List.mem_cons_self, List.mem_cons_self, listed.changed⟩)
  · rw [source] at same
    cases same

theorem discard_step :
    Triple (fun state => Listed request contents names item rest state ∧ .recorded (.committed item.path) ∈ state.log)
      (discard names item.path item.source) (fun _ => Ready request contents rest)
      (Stopped request contents names item rest) := by
  cases source : item.source with
  | none =>
    refine (Triple.pure () (fun _ => Ready request contents rest) _).mono (fun state both => ?_) (fun _ _ => id)
      (fun _ _ => id)
    have listed := both.1
    refine listed.busy.ready (listed.busy.careful.whole listed.busy.known (fun entry same => ?_) fun _ => ?_)
    · rw [source] at same
      cases same
    · exact ⟨fun _ => listed.new source, fun _ => listed.changed⟩
  | some entry =>
    have steady : Steady (fun state => Listed request contents names item rest state ∧
        .recorded (.committed item.path) ∈ state.log) := by
      intro before after beside both
      refine ⟨listed_steady _ _ beside both.1, ?_⟩
      rw [beside.log]
      exact both.2
    refine Triple.bind (attempts_triple steady (fun state both => ?_)
      (fun fault state raised both => .of_io raised (.inr (.inr both.1)))) fun _ => Triple.change fun _ => id
    exact both.1.discarded both.2 source

/-- The body of the loop. -/
theorem replace_triple :
    Triple (Fresh request contents item rest) (replace names item) (fun _ => Ready request contents rest)
      (Stopped request contents names item rest) :=
  owner_step.bind (fun _ => (intent_step _).bind (fun _ => aside_step.bind (fun _ => put_step.bind (fun _ =>
    list_step.bind fun _ => confirm_step.bind fun _ => discard_step))))

end

end WorkspaceBroker
end FixLoop
