import FixLoop.WorkspaceBroker.Replacement

namespace FixLoop
namespace WorkspaceBroker

open Library
open Interleaved (Process Triple Stable call change peek handling ensuring)

/-!
# Reports of failed replacements

After a failure the original is put back or listed, and the loop ends.
-/

section

set_option linter.unusedSectionVars false

variable [Files] {request : Request} {contents : Text -> Option Text} {names : Names} {item : Item} {rest : List Item}

/-- The outcome tells where every original is. -/
structure Settled (request : Request) (contents : Text -> Option Text) (state : State) : Prop where
  careful : Careful request contents (fun _ => True) state
  owned : .disowned ∉ state.log

structure Concluded (request : Request) (contents : Text -> Option Text) (state : State) : Prop extends
    Settled request contents state where
  uncertain : state.outcome.recoveryFiles ≠ [] -> state.outcome.errorCode = "execution_uncertain"

theorem settled_steady : Steady (Settled request contents) := by
  intro before after beside settled
  refine ⟨careful_steady _ _ beside settled.careful, ?_⟩
  rw [beside.log]
  exact settled.owned

theorem concluded_steady : Steady (Concluded request contents) := by
  intro before after beside concluded
  refine ⟨settled_steady _ _ beside concluded.toSettled, ?_⟩
  rw [beside.outcome]
  exact concluded.uncertain

theorem failing_steady : Steady (Failing request contents names item rest) := by
  rintro before after beside (fresh | aside | listed)
  · exact .inl (fresh_steady _ _ beside fresh)
  · exact .inr (.inl (aside_steady _ _ beside aside))
  · exact .inr (.inr (listed_steady _ _ beside listed))

variable {state : State}

/-- Without an original to put back, nothing remains to be done. -/
theorem Failing.unmoved (failing : Failing request contents names item rest state)
    (still : state.moved = false) : Settled request contents state := by
  have unsourced (away : Away names item state) : item.source = none := by
    cases source : item.source with
    | none => rfl
    | some entry =>
      rw [(away.away entry source).1] at still
      cases still
  rcases failing with fresh | aside | listed
  · exact ⟨fresh.whole, fresh.busy.owned⟩
  · have source := unsourced aside.away
    refine ⟨aside.busy.careful.whole aside.busy.known (fun entry same => ?_) (fun _ => ?_), aside.busy.owned⟩
    · rw [source] at same
      cases same
    · constructor
      · exact fun changed => absurd changed aside.waiting.unlisted
      · rintro (there | there)
        · exact absurd there aside.waiting.idle.1
        · exact absurd there aside.waiting.idle.2
  · have source := unsourced listed.away
    refine ⟨listed.busy.careful.whole listed.busy.known (fun entry same => ?_) (fun _ => ?_), listed.busy.owned⟩
    · rw [source] at same
      cases same
    · exact ⟨fun _ => listed.new source, fun _ => listed.changed⟩

/-- The original is listed where it is. -/
theorem retained_settled {after : State} {entry : Entry} (busy : Busy request contents item rest state)
    (away : Away names item state) (source : item.source = some entry)
    (entries : after.entries = state.entries) (pinned : after.pinned = state.pinned)
    (pending : after.pending = state.pending) (files : after.files = state.files)
    (log : after.log = state.log)
    (changed : ∀ path, path ∈ after.outcome.changedFiles <-> path ∈ state.outcome.changedFiles ∨ path = item.path)
    (retained : after.outcome.recoveryFiles = state.outcome.recoveryFiles ++ [(item.path, names.recovery item.path)]) :
    Settled request contents after := by
  have careful := busy.careful
  have minor : Minor (fun path => path ≠ item.path) state after [] := by
    refine ⟨log, fun _ member => (by cases member), fun _ _ member => (by cases member), fun path different => ?_,
      fun path place different => ?_, fun path there => ?_⟩
    · exact (changed path).trans (or_iff_left different)
    · rw [retained, List.mem_append, List.mem_singleton]
      exact or_iff_left fun same => different (congrArg Prod.fst same)
    · rcases (changed path).mp there with earlier | rfl
      · exact .inl earlier
      · exact .inr ⟨item.source, busy.known⟩
  have wf : Wf after := by
    constructor
    · rw [entries]
      exact careful.wf.single
    · rw [entries, files]
      exact careful.wf.fresh
    · rw [entries, pinned]
      exact careful.wf.own
    · rw [entries, pinned]
      exact careful.wf.occupied
    · rw [pending, pinned]
      exact careful.wf.pending
  have spares : Spares (fun _ => True) state after :=
    ⟨fun place found _ held => ⟨(congrFun entries place).trans held.1, pinned ▸ held.2⟩,
      fun place found _ _ => by rw [pending]⟩
  have ordered : Ordered request contents after.log := by
    rw [log]
    exact careful.ordered
  have others := careful.minor wf ordered spares minor (fun _ _ _ _ _ _ => True.intro) fun _ _ _ _ => True.intro
  refine ⟨others.whole (minor.kept busy.known) (fun found same => ?_) (fun same => ?_), ?_⟩
  · rw [source] at same
    cases same
    rcases away.away entry source with ⟨_, held, kept, _⟩
    refine .inr (.inl ⟨names.backup item.path, spares.held _ entry True.intro held, ?_, ?_, ?_⟩)
    · exact fun member => kept ((spares.pending _ entry True.intro held).mp member)
    · rw [retained]
      exact List.mem_append_right _ (List.mem_singleton.mpr rfl)
    · exact (changed item.path).mpr (.inr rfl)
  · rw [source] at same
    cases same
  · rw [log]
    exact busy.owned

/-- The original is put back. -/
theorem Aside.restored {entry : Entry} (aside : Aside request contents names item rest state)
    (source : item.source = some entry) (free : state.entries (named item.path) = none) :
    Settled request contents { state.renamed (names.recovery item.path) (named item.path) with
      log := .restored item.path :: (state.renamed (names.recovery item.path) (named item.path)).log } := by
  rcases aside.away.away entry source with ⟨_, held, kept, logged⟩
  have careful := aside.busy.careful
  have known := aside.busy.known
  rw [source] at known
  have spares : Spares (fun place => place ≠ names.recovery item.path) state
      (state.renamed (names.recovery item.path) (named item.path)) := renamed_spares careful.wf free
  have renamed : Busy request contents item rest (state.renamed (names.recovery item.path) (named item.path)) := by
    have original : Requires request contents (.renamed (state.entries (names.recovery item.path))) state.log :=
      ⟨aside.busy.all, entry, held.1, .inr ⟨item.path, aside.intended.choose, known, aside.intended.choose_spec⟩⟩
    refine aside.busy.minor (renamed_wf careful.wf free held) ⟨original, careful.ordered⟩ spares (minor_rename _ state _ _)
      (fun member => by simp at member) rfl ?_ (fun path found _ _ same => by cases same) ?_
    · rintro path found place different also here rfl
      exact careful.other_original known different also held here
    · rintro other place member staging rfl
      rcases (aside.busy.queue.2 other member).staged _ staging with ⟨_, staged, _, _, own, there⟩
      have made := careful.foreign item.path entry known
      rw [held.unique there, own] at made
      cases made
  have busy : Busy request contents item rest { state.renamed (names.recovery item.path) (named item.path) with
      log := .restored item.path :: (state.renamed (names.recovery item.path) (named item.path)).log } :=
    renamed.noted rfl ⟨_, List.mem_cons_of_mem _ logged⟩ (fun _ _ same => by cases same) fun same => by cases same
  refine ⟨busy.careful.whole busy.known (fun found same => ?_) (fun same => ?_), busy.owned⟩
  · rw [source] at same
    cases same
    refine .inl ⟨renamed_held careful.wf free held, fun pending => kept ((renamed_pending careful.wf free).mp pending),
      aside.waiting.unlisted, fun place member => ?_⟩
    have retained : (item.path, place) ∈ state.outcome.recoveryFiles := member
    rw [aside.busy.whole] at retained
    cases retained
  · rw [source] at same
    cases same

/-- An original that has been moved, of a path that is not listed. -/
theorem Failing.aside (failing : Failing request contents names item rest state)
    (moved : state.moved = true) (unlisted : item.path ∉ state.outcome.changedFiles) :
    Aside request contents names item rest state := by
  rcases failing with fresh | aside | listed
  · rw [fresh.still] at moved
    cases moved
  · exact aside
  · exact absurd listed.changed unlisted

theorem Failing.listed (failing : Failing request contents names item rest state)
    (changed : item.path ∈ state.outcome.changedFiles) : Listed request contents names item rest state := by
  rcases failing with fresh | aside | listed
  · exact absurd changed fresh.waiting.unlisted
  · exact absurd changed aside.waiting.unlisted
  · exact listed

theorem Away.sourced (away : Away names item state) (moved : state.moved = true) :
    ∃ entry, item.source = some entry := by
  cases source : item.source with
  | none =>
    rw [away.new source] at moved
    cases moved
  | some entry => exact ⟨entry, rfl⟩

theorem putBack_triple (failed : Fault -> State -> Prop) :
    Triple (Failing request contents names item rest) (putBack names item.path)
      (fun _ => Settled request contents) failed := by
  have first : Triple (Failing request contents names item rest) (peek State.moved : Run Bool)
      (fun moved state => Failing request contents names item rest state ∧ state.moved = moved) failed :=
    Triple.peek fun _ failing => ⟨failing, rfl⟩
  refine first.bind fun moved => ?_
  have second : Triple (fun state => Failing request contents names item rest state ∧ state.moved = moved)
      (peek (fun state => decide (item.path ∈ state.outcome.changedFiles)) : Run Bool)
      (fun changed state => (Failing request contents names item rest state ∧ state.moved = moved) ∧
        decide (item.path ∈ state.outcome.changedFiles) = changed) failed :=
    Triple.peek fun _ both => ⟨both, rfl⟩
  refine second.bind fun changed => ?_
  cases moved with
  | false =>
    exact (Triple.pure () (fun _ => Settled request contents) _).mono (fun state both => both.1.1.unmoved both.1.2)
      (fun _ _ => id) fun _ _ => id
  | true =>
    cases changed with
    | true =>
      apply Triple.change
      rintro state ⟨⟨failing, moved⟩, changed⟩
      have listed := failing.listed (of_decide_eq_true changed)
      rcases listed.away.sourced moved with ⟨entry, source⟩
      refine retained_settled listed.busy listed.away source rfl rfl rfl rfl rfl (fun path => ?_) rfl
      exact ⟨.inl, fun either => either.elim id fun same => same ▸ listed.changed⟩
    | false =>
      have renamed : Triple (fun state => (Failing request contents names item rest state ∧ state.moved = true) ∧
            decide (item.path ∈ state.outcome.changedFiles) = false)
          (rename (names.recovery item.path) (named item.path))
          (fun _ state => Settled request contents { state with log := .restored item.path :: state.log })
          (fun _ state => Aside request contents names item rest state ∧ state.moved = true) := by
        apply rename_triple
        · intro before after beside both
          refine ⟨⟨failing_steady _ _ beside both.1.1, beside.moved.trans both.1.2⟩, ?_⟩
          rw [beside.outcome]
          exact both.2
        · rintro state ⟨⟨failing, moved⟩, unlisted⟩ free
          have aside := failing.aside moved (of_decide_eq_false unlisted)
          rcases aside.away.sourced moved with ⟨entry, source⟩
          exact aside.restored source free
        · rintro fault state _ ⟨⟨failing, moved⟩, unlisted⟩
          exact ⟨failing.aside moved (of_decide_eq_false unlisted), moved⟩
      refine Triple.handling (renamed.bind fun _ => Triple.change fun _ => id) fun fault => Triple.change ?_
      rintro state ⟨aside, moved⟩
      rcases aside.away.sourced moved with ⟨entry, source⟩
      refine retained_settled aside.busy aside.away source rfl rfl rfl rfl rfl (fun path => ?_) rfl
      exact List.mem_append.trans (or_congr_right List.mem_singleton)

theorem Settled.coded (settled : Settled request contents state) (errorCode : String) :
    Settled request contents (conclude errorCode state) := by
  have careful := settled.careful
  have minor : Minor (fun _ => True) state (conclude errorCode state) [] :=
    ⟨rfl, fun _ member => (by cases member), fun _ _ member => (by cases member), fun _ _ => Iff.rfl, fun _ _ _ => Iff.rfl,
      fun _ changed => .inl changed⟩
  have wf : Wf (conclude errorCode state) :=
    ⟨careful.wf.single, careful.wf.fresh, careful.wf.own, careful.wf.occupied, careful.wf.pending⟩
  have spares : Spares (fun _ => True) state (conclude errorCode state) :=
    ⟨fun _ _ _ held => held, fun _ _ _ _ => Iff.rfl⟩
  exact ⟨careful.minor wf careful.ordered spares minor (fun _ _ _ _ _ _ => True.intro) (fun _ _ _ _ => True.intro),
    settled.owned⟩

theorem report_triple (fault : Fault) (failed : Fault -> State -> Prop) :
    Triple (Failing request contents names item rest) (report names item.path fault)
      (fun _ => Concluded request contents) failed := by
  refine (putBack_triple failed).bind fun _ => ?_
  have coded : Triple (Settled request contents)
      (change (fun state => conclude (if state.outcome.recoveryFiles ≠ [] ∨ state.journalFailed then "execution_uncertain"
        else "commit_failed") state) : Run Unit) (fun _ => Concluded request contents) failed := by
    apply Triple.change
    intro state settled
    refine ⟨settled.coded _, fun retained => ?_⟩
    exact if_pos (.inl retained)
  have looked : Triple (Concluded request contents) (peek State.outcome : Run CommitOutcome)
      (fun _ => Concluded request contents) failed := Triple.peek fun _ concluded => concluded
  refine coded.bind fun _ => looked.bind fun outcome => ?_
  have noted {state : State} (concluded : Concluded request contents state) :
      Concluded request contents { state with log := .recorded (.failed item.path fault outcome) :: state.log } := by
    have careful := concluded.careful
    have minor : Minor (fun _ => True) state
        { state with log := .recorded (.failed item.path fault outcome) :: state.log }
        [.recorded (.failed item.path fault outcome)] := minor_note rfl fun path _ same => by cases same
    have spares : Spares (fun _ => True) state
        { state with log := .recorded (.failed item.path fault outcome) :: state.log } :=
      ⟨fun _ _ _ held => held, fun _ _ _ _ => Iff.rfl⟩
    refine ⟨⟨careful.minor ⟨careful.wf.single, careful.wf.fresh, careful.wf.own, careful.wf.occupied, careful.wf.pending⟩
      ⟨True.intro, careful.ordered⟩ spares minor (fun _ _ _ _ _ _ => True.intro) (fun _ _ _ _ => True.intro), ?_⟩,
      concluded.uncertain⟩
    exact fun member => concluded.owned (List.mem_of_ne_of_mem (fun same => by cases same) member)
  have recorded : Triple (Concluded request contents) (record (.failed item.path fault outcome))
      (fun _ => Concluded request contents)
      (fun fault state => fault ≠ .coordination ∧ Concluded request contents state) := by
    apply record_triple concluded_steady (Concluded request contents) concluded_steady
    · exact fun state concluded => noted concluded
    · exact fun _ concluded => concluded
    · exact fun other state caught either => ⟨caught, either.elim id id⟩
  refine recorded.handling fun other => ?_
  split
  · next coordination =>
      intro start both
      exact absurd coordination both.1
  · apply Triple.change
    exact fun state both => ⟨both.2.toSettled.coded _, fun _ => rfl⟩

/-- Where the loop ends. -/
def Ended (request : Request) (contents : Text -> Option Text) (fault : Fault) (state : State) : Prop :=
  fault = .coordination ∧ Broken request contents state

theorem Ready.fresh (ready : Ready request contents (item :: rest) state) :
    Fresh request contents item rest { state with moved := false, journalFailed := false } := by
  have waiting := ready.queue.2 item List.mem_cons_self
  have apart := List.pairwise_cons.mp ready.queue.1
  have careful := ready.careful
  refine ⟨⟨?_, ready.all, waiting.known, ready.owned, ready.whole,
    ⟨apart.2, fun other member => ?_⟩, apart.1⟩, ?_, rfl, fun entry source => ?_⟩
  · refine ⟨⟨careful.wf.single, careful.wf.fresh, careful.wf.own, careful.wf.occupied, careful.wf.pending⟩,
      careful.ordered, careful.foreign, careful.apart, careful.once, careful.listed, careful.installed, ?_, ?_⟩
    · intro path entry _ known
      rcases careful.fates path entry True.intro known with standing | retained | discarded
      · exact .inl ⟨standing.held, standing.kept, standing.unlisted, standing.unretained⟩
      · exact .inr (.inl retained)
      · exact .inr (.inr discarded)
    · exact fun path _ => careful.new path True.intro
  · have later := ready.queue.2 other (List.mem_cons_of_mem item member)
    exact ⟨later.known, later.unlisted, later.idle, later.staged, later.bare⟩
  · exact ⟨waiting.known, waiting.unlisted, waiting.idle, waiting.staged, waiting.bare⟩
  · have known := waiting.known
    rw [source] at known
    rcases careful.fates item.path entry True.intro known with standing | ⟨name, _, _, _, changed⟩ | ⟨name, _, _, _, changed⟩
    · exact ⟨standing.held, standing.kept, standing.unlisted, standing.unretained⟩
    · exact absurd changed waiting.unlisted
    · exact absurd changed waiting.unlisted

theorem Ready.concluded {items : List Item} (ready : Ready request contents items state) :
    Concluded request contents state :=
  ⟨⟨ready.careful, ready.owned⟩, fun retained => absurd ready.whole retained⟩

theorem install_triple (items : List Item) :
    Triple (Ready request contents items) (install names items) (fun _ => Concluded request contents)
      (Ended request contents) := by
  induction items with
  | nil =>
    exact (Triple.pure () (fun _ => Concluded request contents) _).mono (fun _ ready => ready.concluded) (fun _ _ => id)
      (fun _ _ => id)
  | cons item rest ih =>
    have begun : Triple (Ready request contents (item :: rest))
        (change (fun state => { state with moved := false, journalFailed := false }) : Run Unit)
        (fun _ => Fresh request contents item rest) (Ended request contents) := Triple.change fun _ ready => ready.fresh
    -- Whether the loop stops here.
    let next (stopped : Bool) (state : State) : Prop :=
      if stopped then Concluded request contents state else Ready request contents rest state
    have body : Triple (Fresh request contents item rest)
        (do replace names item; pure false : Run Bool) next (Stopped request contents names item rest) :=
      replace_triple.bind fun _ => (Triple.pure false next _).mono (fun _ ready => ready) (fun _ _ => id) fun _ _ => id
    refine begun.bind fun _ => Triple.bind (body.handling fun fault => ?_) fun stopped => ?_
    · split
      · next coordination =>
          exact (Triple.raise fault _ _).mono (fun state stopped => ⟨coordination, stopped.1 coordination⟩)
            (fun _ _ => id) fun _ _ => id
      · next caught =>
          have reported : Triple (Stopped request contents names item rest fault) (report names item.path fault)
              (fun _ => Concluded request contents) (Ended request contents) :=
            (report_triple fault _).mono (fun state stopped => stopped.2 caught) (fun _ _ => id) fun _ _ => id
          exact reported.bind (fun _ => (Triple.pure true next _).mono (fun _ concluded => concluded) (fun _ _ => id)
            (fun _ _ => id))
    · cases stopped with
      | true => exact Triple.pure () (fun _ => Concluded request contents) _
      | false => exact ih

end

end WorkspaceBroker
end FixLoop
