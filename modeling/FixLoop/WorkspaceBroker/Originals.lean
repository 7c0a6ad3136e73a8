import FixLoop.WorkspaceBroker.Commit

namespace FixLoop
namespace WorkspaceBroker

open Library
open Interleaved (Process Triple Stable call change peek handling ensuring)

/-!
# Entries that the commit holds

What other processes leave as it is, and what each call of the commit leaves.
-/

/-- The entry stands at a place that is held open. -/
def Held (place : Place) (entry : Entry) (state : State) : Prop :=
  state.entries place = some entry ∧ place ∈ state.pinned

/-- No file has two entries, and the files made by the commit are held. -/
structure Wf (state : State) : Prop where
  single : ∀ place other entry otherEntry, state.entries place = some entry ->
    state.entries other = some otherEntry -> entry.file = otherEntry.file -> place = other
  fresh : ∀ place entry, state.entries place = some entry -> entry.file < state.files
  own : ∀ place entry, state.entries place = some entry -> entry.foreign = false -> place ∈ state.pinned
  occupied : ∀ place ∈ state.pinned, ∃ entry, state.entries place = some entry
  pending : ∀ place ∈ state.pending, place ∈ state.pinned

/-- What other processes leave as it is. -/
structure Beside (before after : State) : Prop where
  pinned : after.pinned = before.pinned
  pending : after.pending = before.pending
  outcome : after.outcome = before.outcome
  moved : after.moved = before.moved
  journalFailed : after.journalFailed = before.journalFailed
  log : after.log = before.log
  held : ∀ place ∈ before.pinned, after.entries place = before.entries place
  wf : Wf before -> Wf after

theorem Beside.refl (state : State) : Beside state state :=
  ⟨rfl, rfl, rfl, rfl, rfl, rfl, fun _ _ => rfl, id⟩

@[simp] theorem put_same (state : State) (place : Place) (entry : Option Entry) :
    (state.put place entry).entries place = entry := if_pos rfl

variable {place : Place} {state : State} {post : Unit -> State -> Prop} {entry : Entry}

theorem put_other (state : State) {other : Place} (entry : Option Entry) (different : other ≠ place) :
    (state.put place entry).entries other = state.entries other := if_neg different

/-- An entry that is not held is replaced by a file that stands nowhere else. -/
theorem Wf.put (wf : Wf state) {entry : Option Entry} (free : place ∉ state.pinned) (files : Nat)
    (more : state.files ≤ files)
    (new : ∀ value, entry = some value -> value.foreign = true ∧ value.file < files ∧ ∀ other otherEntry, other ≠ place -> state.entries other = some otherEntry -> otherEntry.file ≠ value.file) :
    Wf { state.put place entry with files := files } := by
  have kept {other : Place} {value : Entry} (there : (state.put place entry).entries other = some value)
      (different : other ≠ place) : state.entries other = some value := (put_other state entry different).symm.trans there
  have added {value : Entry} (there : (state.put place entry).entries place = some value) : entry = some value :=
    (put_same state place entry).symm.trans there
  refine ⟨?_, ?_, ?_, ?_, wf.pending⟩
  · intro first second one two there here equal
    by_cases atFirst : first = place
    · by_cases atSecond : second = place
      · rw [atFirst, atSecond]
      · subst atFirst
        exact absurd equal.symm ((new one (added there)).2.2 second two atSecond (kept here atSecond))
    · by_cases atSecond : second = place
      · subst atSecond
        exact absurd equal ((new two (added here)).2.2 first one atFirst (kept there atFirst))
      · exact wf.single first second one two (kept there atFirst) (kept here atSecond) equal
  · intro other value there
    by_cases here : other = place
    · subst here
      exact (new value (added there)).2.1
    · exact Nat.lt_of_lt_of_le (wf.fresh other value (kept there here)) more
  · intro other value there mine
    by_cases here : other = place
    · subst here
      rw [(new value (added there)).1] at mine
      cases mine
    · exact wf.own other value (kept there here) mine
  · intro other held
    have different : other ≠ place := by
      rintro rfl
      exact free held
    rcases wf.occupied other held with ⟨value, there⟩
    exact ⟨value, (put_other state entry different).trans there⟩

theorem Wf.remove (wf : Wf state) (free : place ∉ state.pinned) : Wf (state.put place none) :=
  wf.put free state.files (Nat.le_refl _) fun value same => by cases same

/-- Other processes keep the files apart. -/
theorem act_wf (event : Event) (state : State) (wf : Wf state) : Wf (act event state) := by
  cases event with
  | create place content =>
    simp only [act]
    split
    · exact wf
    · next free =>
        refine wf.put free _ (Nat.le_succ _) fun value same => ?_
        cases same
        exact ⟨rfl, Nat.lt_succ_self _, fun other otherEntry _ there => Nat.ne_of_lt (wf.fresh other otherEntry there)⟩
  | change place content =>
    simp only [act]
    split
    · exact wf
    · next free =>
        refine wf.put free _ (Nat.le_refl _) fun value same => ?_
        rcases Option.map_eq_some_iff.mp same with ⟨old, there, rfl⟩
        refine ⟨?_, wf.fresh place old there, fun other otherEntry different here equal => ?_⟩
        · by_contra mine
          exact free (wf.own place old there (Bool.not_eq_true _ ▸ mine))
        · exact different (wf.single other place otherEntry old here there equal)
  | remove place =>
    simp only [act]
    split
    · exact wf
    · next free => exact wf.remove free
  | rename source target =>
    simp only [act]
    split
    · exact wf
    · next free =>
        rw [not_or, not_or] at free
        refine (wf.remove free.1).put free.2.1 _ (Nat.le_refl _) fun value there => ?_
        refine ⟨?_, wf.fresh source value there, fun other otherEntry _ here equal => ?_⟩
        · by_contra mine
          exact free.1 (wf.own source value there (Bool.not_eq_true _ ▸ mine))
        · by_cases same : other = source
          · subst same
            rw [put_same] at here
            cases here
          · rw [put_other state none same] at here
            exact same (wf.single other source otherEntry value here there equal)
  | own owner => exact ⟨wf.single, wf.fresh, wf.own, wf.occupied, wf.pending⟩

theorem act_beside (event : Event) (state : State) : Beside state (act event state) := by
  have unheld (before : State) {place : Place} (entry : Option Entry) (free : place ∉ before.pinned) (other : Place)
      (held : other ∈ before.pinned) : (before.put place entry).entries other = before.entries other := by
    apply put_other
    rintro rfl
    exact free held
  have wf := act_wf event state
  cases event with
  | create place content =>
    by_cases free : place ∈ state.pinned
    · rw [show act (.create place content) state = state from if_pos free]
      exact Beside.refl state
    · rw [show act (.create place content) state = _ from if_neg free] at wf ⊢
      exact ⟨rfl, rfl, rfl, rfl, rfl, rfl, unheld state _ free, wf⟩
  | change place content =>
    by_cases free : place ∈ state.pinned
    · rw [show act (.change place content) state = state from if_pos free]
      exact Beside.refl state
    · rw [show act (.change place content) state = _ from if_neg free] at wf ⊢
      exact ⟨rfl, rfl, rfl, rfl, rfl, rfl, unheld state _ free, wf⟩
  | remove place =>
    by_cases free : place ∈ state.pinned
    · rw [show act (.remove place) state = state from if_pos free]
      exact Beside.refl state
    · rw [show act (.remove place) state = _ from if_neg free] at wf ⊢
      exact ⟨rfl, rfl, rfl, rfl, rfl, rfl, unheld state _ free, wf⟩
  | rename source target =>
    by_cases free : source ∈ state.pinned ∨ target ∈ state.pinned ∨ source = target
    · rw [show act (.rename source target) state = state from if_pos free]
      exact Beside.refl state
    · rw [show act (.rename source target) state = _ from if_neg free] at wf ⊢
      rw [not_or, not_or] at free
      refine ⟨rfl, rfl, rfl, rfl, rfl, rfl, fun other held => ?_, wf⟩
      exact (unheld (state.put source none) _ free.2.1 other held).trans (unheld state none free.1 other held)
  | own owner =>
    exact ⟨rfl, rfl, rfl, rfl, rfl, rfl, fun _ _ => rfl, wf⟩

/-- What other processes cannot break. -/
def Steady (holds : State -> Prop) : Prop := ∀ before after, Beside before after -> holds before -> holds after

theorem Steady.stable {holds : State -> Prop} (steady : Steady holds) (refusal : Fault) :
    Stable (around refusal) holds :=
  fun event state initially => steady state _ (act_beside event state) initially

/-- An `OSError`. -/
def Fault.io (fault : Fault) : Prop := fault = .missing ∨ fault = .os

variable {Value : Type} {pre : State -> Prop} {failed : Fault -> State -> Prop}

theorem attempt_triple {effect : State -> Except Fault (Value × State)} {post : Value -> State -> Prop}
    (steady : Steady pre)
    (works : ∀ state value after, pre state -> effect state = .ok (value, after) -> post value after)
    (fails : ∀ fault state, Fault.io fault -> pre state -> failed fault state)
    (raises : ∀ state fault, pre state -> effect state = .error fault -> Fault.io fault) :
    Triple pre (attempt effect) post failed := by
  have first : Triple pre (call (around .missing) (fun state => .ok ((), state)) id) (fun _ : Unit => pre) failed := by
    apply Triple.call (steady.stable .missing)
    · intro state value after initially same
      cases same
      exact initially
    · intro state fault initially same
      cases same
    · intro state initially
      exact fails .missing state (.inl rfl) initially
  refine first.bind fun _ => Triple.call (steady.stable .os) works ?_ ?_
  · intro state fault initially same
    exact fails fault state (raises state fault initially same) initially
  · intro state initially
    exact fails .os state (.inr rfl) initially

theorem attempts_triple {update : State -> State} (steady : Steady pre)
    (works : ∀ state, pre state -> post () (update state))
    (fails : ∀ fault state, Fault.io fault -> pre state -> failed fault state) :
    Triple pre (attempts update) post failed := by
  apply attempt_triple steady _ fails
  · intro state fault _ same
    cases same
  · intro state value after initially same
    cases same
    exact works state initially

/-- A call that leaves everything as it is. -/
theorem attempts_id (steady : Steady pre) (fails : ∀ fault state, Fault.io fault -> pre state -> failed fault state) :
    Triple pre (attempts id) (fun _ => pre) failed :=
  attempts_triple steady (fun _ initially => initially) fails

/-- A record either fails or is durable; it may be durable and fail. -/
theorem record_triple {event : Record} (steady : Steady pre) (written : State -> Prop)
    (writtenSteady : Steady written)
    (writes : ∀ state, pre state -> written { state with log := .recorded event :: state.log })
    (works : ∀ state, written state -> post () state)
    (fails : ∀ fault state, fault ≠ .coordination -> pre state ∨ written state -> failed fault state) :
    Triple pre (record event) post failed := by
  have io {fault : Fault} (raised : Fault.io fault) : fault ≠ .coordination := by
    rcases raised with rfl | rfl
    · exact fun same => by cases same
    · exact fun same => by cases same
  have first : Triple pre (call (around (.value "receipt_invalid")) (fun state => .ok ((), state)) id)
      (fun _ : Unit => pre) failed := by
    apply Triple.call (steady.stable _)
    · intro state value after initially same
      cases same
      exact initially
    · intro state fault initially same
      cases same
    · intro state initially
      exact fails _ state (fun same => by cases same) (.inl initially)
  have second : Triple pre (attempts fun state => { state with log := .recorded event :: state.log })
      (fun _ => written) failed :=
    attempts_triple steady writes fun fault state raised initially => fails fault state (io raised) (.inl initially)
  refine first.bind fun _ => second.bind fun _ => ?_
  exact attempts_triple writtenSteady works
    (fun fault state raised initially => fails fault state (io raised) (.inr initially))

/-! ## Updates -/

theorem Held.beside {before after : State} (beside : Beside before after) (held : Held place entry before) :
    Held place entry after :=
  ⟨(beside.held place held.2).trans held.1, beside.pinned ▸ held.2⟩

theorem Held.unique {other : Entry} (held : Held place entry state) (again : Held place other state) :
    entry = other := Option.some.inj (held.1.symm.trans again.1)

/-- What an update leaves of the entries that are held. -/
structure Spares (spared : Place -> Prop) (before after : State) : Prop where
  held : ∀ place entry, spared place -> Held place entry before -> Held place entry after
  pending : ∀ place entry, spared place -> Held place entry before ->
    (place ∈ after.pending <-> place ∈ before.pending)

section Renaming

variable {state : State} {source target : Place}

theorem renamed_target (state : State) (source target : Place) :
    (state.renamed source target).entries target = state.entries source := put_same _ _ _

theorem renamed_other {place : Place} (apart : place ≠ source) (different : place ≠ target) :
    (state.renamed source target).entries place = state.entries place :=
  (put_other (state.put source none) _ different).trans (put_other state none apart)

theorem mem_map_renamed {places : List Place} {place : Place} (apart : place ≠ source) (different : place ≠ target) :
    place ∈ places.map (fun other => if other = source then target else other) <-> place ∈ places := by
  constructor
  · intro member
    rcases List.mem_map.mp member with ⟨other, listed, same⟩
    split at same
    · exact absurd same.symm different
    · exact same ▸ listed
  · intro member
    exact List.mem_map.mpr ⟨place, member, if_neg apart⟩

theorem target_mem_renamed {places : List Place} (free : target ∉ places) :
    target ∈ places.map (fun other => if other = source then target else other) <-> source ∈ places := by
  constructor
  · intro member
    rcases List.mem_map.mp member with ⟨other, listed, same⟩
    split at same
    · next here => exact here ▸ listed
    · exact absurd (same ▸ listed) free
  · intro member
    exact List.mem_map.mpr ⟨source, member, if_pos rfl⟩

variable (wf : Wf state) (free : state.entries target = none)

include wf free

theorem free_unpinned : target ∉ state.pinned := by
  intro held
  rcases wf.occupied target held with ⟨entry, there⟩
  rw [free] at there
  cases there

theorem renamed_spares : Spares (fun place => place ≠ source) state (state.renamed source target) := by
  have different {place : Place} {entry : Entry} (held : Held place entry state) : place ≠ target := by
    rintro rfl
    exact free_unpinned wf free held.2
  constructor
  · intro place entry apart held
    exact ⟨(renamed_other apart (different held)).trans held.1, (mem_map_renamed apart (different held)).mpr held.2⟩
  · intro place entry apart held
    exact mem_map_renamed apart (different held)

theorem renamed_held {entry : Entry} (held : Held source entry state) :
    Held target entry (state.renamed source target) :=
  ⟨(renamed_target state source target).trans held.1, (target_mem_renamed (free_unpinned wf free)).mpr held.2⟩

theorem renamed_pending : target ∈ (state.renamed source target).pending <-> source ∈ state.pending :=
  target_mem_renamed fun pending => free_unpinned wf free (wf.pending target pending)

/-- A rename of a file that is held keeps the files apart. -/
theorem renamed_wf {entry : Entry} (held : Held source entry state) : Wf (state.renamed source target) := by
  have distinct : source ≠ target := by
    rintro rfl
    exact free_unpinned wf free held.2
  -- Where an entry stood before.
  let origin (place : Place) : Place := if place = target then source else place
  have gone : (state.renamed source target).entries source = none :=
    (put_other (state.put source none) _ distinct).trans (put_same state source none)
  have came {place : Place} {value : Entry} (there : (state.renamed source target).entries place = some value) :
      place ≠ source ∧ state.entries (origin place) = some value := by
    have apart : place ≠ source := by
      rintro rfl
      rw [gone] at there
      cases there
    refine ⟨apart, ?_⟩
    by_cases here : place = target
    · rw [show origin place = source from if_pos here]
      rw [here, renamed_target] at there
      exact there
    · rw [show origin place = place from if_neg here]
      exact (renamed_other apart here).symm.trans there
  refine ⟨?_, ?_, ?_, ?_, ?_⟩
  · intro first second one two there here equal
    have same := wf.single _ _ one two (came there).2 (came here).2 equal
    by_cases atFirst : first = target
    · by_cases atSecond : second = target
      · rw [atFirst, atSecond]
      · rw [show origin first = source from if_pos atFirst, show origin second = second from if_neg atSecond] at same
        exact absurd same.symm (came here).1
    · by_cases atSecond : second = target
      · rw [show origin first = first from if_neg atFirst, show origin second = source from if_pos atSecond] at same
        exact absurd same (came there).1
      · rw [show origin first = first from if_neg atFirst, show origin second = second from if_neg atSecond] at same
        exact same
  · intro place value there
    exact wf.fresh _ value (came there).2
  · intro place value there mine
    by_cases here : place = target
    · rw [here]
      exact (renamed_held wf free held).2
    · have stood := (came there).2
      rw [show origin place = place from if_neg here] at stood
      exact (mem_map_renamed (came there).1 here).mpr (wf.own place value stood mine)
  · intro place member
    by_cases here : place = target
    · rw [here]
      exact ⟨entry, (renamed_held wf free held).1⟩
    · by_cases there : place = source
      · subst there
        rcases List.mem_map.mp member with ⟨other, listed, same⟩
        split at same
        · exact absurd same.symm distinct
        · next apart => exact absurd same apart
      · rcases wf.occupied place ((mem_map_renamed there here).mp member) with ⟨value, stood⟩
        exact ⟨value, (renamed_other there here).trans stood⟩
  · intro place member
    rcases List.mem_map.mp member with ⟨other, listed, same⟩
    exact List.mem_map.mpr ⟨other, wf.pending other listed, same⟩

end Renaming

theorem rename_triple {source target : Place} {pre : State -> Prop} {failed : Fault -> State -> Prop}
    (steady : Steady pre)
    (works : ∀ state, pre state -> state.entries target = none -> post () (state.renamed source target))
    (fails : ∀ fault state, Fault.io fault -> pre state -> failed fault state) :
    Triple pre (rename source target) post failed := by
  apply attempt_triple steady _ fails
  · intro state fault _ result
    split at result
    · cases result
      exact .inr rfl
    · cases result
  · intro state value after initially result
    split at result
    · cases result
    · next free =>
        rw [not_or, Option.not_isSome_iff_eq_none] at free
        cases result
        exact works state initially free.2

theorem dispose_spares (place : Place) (pending : Bool) (state : State) :
    Spares (fun other => other ≠ place) state (state.dispose place pending) := by
  refine ⟨fun _ _ _ held => held, fun other entry apart held => ?_⟩
  cases pending with
  | true => exact List.mem_cons.trans (or_iff_right apart)
  | false => exact List.mem_filter.trans (and_iff_left (decide_eq_true apart))

theorem dispose_wf (wf : Wf state) (held : place ∈ state.pinned) (pending : Bool) :
    Wf (state.dispose place pending) := by
  refine ⟨wf.single, wf.fresh, wf.own, wf.occupied, fun other member => ?_⟩
  cases pending with
  | true =>
    rcases List.mem_cons.mp member with rfl | earlier
    · exact held
    · exact wf.pending other earlier
  | false => exact wf.pending other (List.mem_of_mem_filter member)

theorem dispose_kept (place : Place) (state : State) : place ∉ (state.dispose place false).pending := by
  intro member
  exact of_decide_eq_true (List.mem_filter.mp member).2 rfl

theorem write_wf (wf : Wf state) (place : Place) (content : Text) : Wf (state.write place content) := by
  -- Every entry keeps its file and its maker.
  have same {other : Place} {value : Entry} (there : (state.write place content).entries other = some value) :
      ∃ old, state.entries other = some old ∧ old.file = value.file ∧ old.foreign = value.foreign := by
    by_cases here : other = place
    · subst here
      rcases Option.map_eq_some_iff.mp ((put_same state other _).symm.trans there) with ⟨old, stood, rfl⟩
      exact ⟨old, stood, rfl, rfl⟩
    · exact ⟨value, (put_other state _ here).symm.trans there, rfl, rfl⟩
  refine ⟨?_, ?_, ?_, ?_, wf.pending⟩
  · intro first second one two there here equal
    rcases same there with ⟨old, stood, file, _⟩
    rcases same here with ⟨other, stands, otherFile, _⟩
    exact wf.single first second old other stood stands (file.trans (equal.trans otherFile.symm))
  · intro other value there
    rcases same there with ⟨old, stood, file, _⟩
    exact Nat.lt_of_le_of_lt (Nat.le_of_eq file.symm) (wf.fresh other old stood)
  · intro other value there mine
    rcases same there with ⟨old, stood, _, maker⟩
    exact wf.own other old stood (maker.trans mine)
  · intro other held
    rcases wf.occupied other held with ⟨value, stood⟩
    by_cases here : other = place
    · subst here
      exact ⟨{ value with content := content }, (put_same state other _).trans (congrArg _ stood)⟩
    · exact ⟨value, (put_other state _ here).trans stood⟩

theorem write_spares (place : Place) (content : Text) (state : State) :
    Spares (fun other => other ≠ place) state (state.write place content) :=
  ⟨fun _ _ apart held => ⟨(put_other state _ apart).trans held.1, held.2⟩, fun _ _ _ _ => Iff.rfl⟩

theorem write_held (held : Held place entry state) (content : Text) :
    Held place { entry with content := content } (state.write place content) :=
  ⟨(put_same state place _).trans (congrArg _ held.1), held.2⟩

theorem writeFile_triple {content : Text} {pre : State -> Prop} {failed : Fault -> State -> Prop}
    (steady : Steady pre) (works : ∀ state, pre state -> post () (state.write place content))
    (fails : ∀ fault state, Fault.io fault -> pre state -> failed fault state) :
    Triple pre (writeFile place content) post failed := by
  apply attempt_triple steady _ fails
  · intro state fault _ result
    split at result
    · cases result
    · cases result
      exact .inr rfl
  · intro state value after initially result
    split at result
    · cases result
      exact works state initially
    · cases result

/-- The state with one more file held open. -/
def State.opened (place : Place) (state : State) : State := { state with pinned := place :: state.pinned }

theorem opened_wf (wf : Wf state) (there : state.entries place = some entry) : Wf (state.opened place) := by
  refine ⟨wf.single, wf.fresh, fun other value stood mine => List.mem_cons_of_mem place (wf.own other value stood mine),
    fun other member => ?_, fun other pending => List.mem_cons_of_mem place (wf.pending other pending)⟩
  rcases List.mem_cons.mp member with rfl | earlier
  · exact ⟨entry, there⟩
  · exact wf.occupied other earlier

theorem opened_spares (place : Place) (state : State) : Spares (fun _ => True) state (state.opened place) :=
  ⟨fun _ _ _ held => ⟨held.1, List.mem_cons_of_mem place held.2⟩, fun _ _ _ _ => Iff.rfl⟩

theorem openSource_triple {pre : State -> Prop} {failed : Fault -> State -> Prop}
    {post : Entry -> State -> Prop} (steady : Steady pre)
    (works : ∀ state entry, pre state -> place ∉ state.pinned -> state.entries place = some entry -> post entry (state.opened place))
    (fails : ∀ fault state, Fault.io fault -> pre state -> failed fault state) :
    Triple pre (openSource place) post failed := by
  apply attempt_triple steady _ fails
  · intro state fault _ result
    split at result
    · cases result
      exact .inr rfl
    · split at result
      · cases result
        exact .inl rfl
      · cases result
  · intro state value after initially result
    split at result
    · cases result
    · next free =>
        split at result
        · cases result
        · next entry there =>
            cases result
            exact works state _ initially free there

/-- The state with a new file of the commit. -/
def State.created (place : Place) (state : State) : State :=
  { state.put place (some ⟨state.files, [], false⟩) with pinned := place :: state.pinned, files := state.files + 1 }

theorem createStaging_triple {pre : State -> Prop} {failed : Fault -> State -> Prop} (steady : Steady pre)
    (works : ∀ state, pre state -> state.entries place = none -> post () (state.created place))
    (fails : ∀ fault state, Fault.io fault -> pre state -> failed fault state) :
    Triple pre (createStaging place) post failed := by
  apply attempt_triple steady _ fails
  · intro state fault _ result
    split at result
    · cases result
      exact .inr rfl
    · cases result
  · intro state value after initially result
    split at result
    · cases result
    · next free =>
        cases result
        exact works state initially (Option.not_isSome_iff_eq_none.mp free)

section Creating

variable {state : State} {place : Place} (wf : Wf state) (free : state.entries place = none)

include wf free

theorem created_wf : Wf (state.created place) := by
  have kept {other : Place} {value : Entry} (there : (state.created place).entries other = some value)
      (different : other ≠ place) : state.entries other = some value := (put_other state _ different).symm.trans there
  have added {value : Entry} (there : (state.created place).entries place = some value) :
      value = ⟨state.files, [], false⟩ := Option.some.inj (there.symm.trans (put_same state place _))
  refine ⟨?_, ?_, ?_, ?_, fun other pending => List.mem_cons_of_mem place (wf.pending other pending)⟩
  · intro first second one two there here equal
    by_cases atFirst : first = place
    · by_cases atSecond : second = place
      · rw [atFirst, atSecond]
      · subst atFirst
        have older := wf.fresh second two (kept here atSecond)
        rw [<- equal, added there] at older
        exact absurd older (Nat.lt_irrefl _)
    · by_cases atSecond : second = place
      · subst atSecond
        have older := wf.fresh first one (kept there atFirst)
        rw [equal, added here] at older
        exact absurd older (Nat.lt_irrefl _)
      · exact wf.single first second one two (kept there atFirst) (kept here atSecond) equal
  · intro other value there
    by_cases here : other = place
    · subst here
      rw [added there]
      exact Nat.lt_succ_self _
    · exact Nat.lt_succ_of_lt (wf.fresh other value (kept there here))
  · intro other value there mine
    by_cases here : other = place
    · rw [here]
      exact List.mem_cons_self
    · exact List.mem_cons_of_mem place (wf.own other value (kept there here) mine)
  · intro other member
    rcases List.mem_cons.mp member with rfl | earlier
    · exact ⟨_, put_same state other _⟩
    · have different : other ≠ place := by
        rintro rfl
        exact free_unpinned wf free earlier
      rcases wf.occupied other earlier with ⟨value, there⟩
      exact ⟨value, (put_other state _ different).trans there⟩

theorem created_spares : Spares (fun _ => True) state (state.created place) := by
  refine ⟨fun other entry _ held => ?_, fun _ _ _ _ => Iff.rfl⟩
  have different : other ≠ place := by
    rintro rfl
    exact free_unpinned wf free held.2
  exact ⟨(put_other state _ different).trans held.1, List.mem_cons_of_mem place held.2⟩

omit wf free in
theorem created_held (state : State) (place : Place) : Held place ⟨state.files, [], false⟩ (state.created place) :=
  ⟨put_same state place _, List.mem_cons_self⟩

end Creating

end WorkspaceBroker
end FixLoop
