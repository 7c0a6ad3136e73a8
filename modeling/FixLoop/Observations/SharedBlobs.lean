import FixLoop.Observations.Collection

namespace FixLoop
namespace Observations

open Library

/-!
# Blobs that sessions share

A blob is named by its text, so the records of several sessions may refer to
one blob, while a collection looks at the records of its own registry only.
-/

section Sharing

set_option linter.unusedSectionVars false

variable {Who Digest : Type} [DecidableEq Who] [DecidableEq Digest] [Texts Digest]

/-! ## What a collection does to the rows and the blobs -/

namespace ObservationStore

variable {store : ObservationStore Digest}

/-- The blob stays, or it is gone with a record that was removed and no record
of the registry refers to it any more. -/
def Unlinked (store after : ObservationStore Digest) (records : List (Record Digest)) (checksum : Digest) : Prop :=
  after.files checksum = none ∧
    (∃ record ∈ records, record ∈ store.registry ∧ record.rawRef = .blob checksum) ∧
    ∀ other ∈ after.registry, other.rawRef ≠ .blob checksum

variable {record : Record Digest} {observationId : String}

theorem collect_missing (missing : store.find? record.observationId = none) :
    store.collect record = store := if_pos missing

theorem unlink_cases (registry : List (Record Digest)) (rawRef : RawRef Digest) (files : Digest -> Option ByteArray)
    (checksum : Digest) :
    unlink registry rawRef files checksum = files checksum ∨
      unlink registry rawRef files checksum = none ∧ rawRef = .blob checksum ∧
        ∀ other ∈ registry, other.rawRef ≠ .blob checksum := by
  cases rawRef with
  | memory observationId => exact .inl rfl
  | blob named =>
    rw [unlink]
    split
    · exact .inl rfl
    · next unreferenced =>
        by_cases same : checksum = named
        · rw [same, Function.update_self]
          refine .inr ⟨rfl, rfl, fun other member refers => unreferenced ?_⟩
          exact List.any_eq_true.mpr ⟨other, member, decide_eq_true refers⟩
        · exact .inl (Function.update_of_ne same _ _)

variable (records : List (Record Digest))

theorem gc_fold_files
    (agree : ∀ record ∈ records, ∀ other ∈ store.registry, other.observationId = record.observationId -> other = record)
    (checksum : Digest) :
    (records.foldl (fun left record => left.collect record) store).files checksum = store.files checksum ∨
      store.Unlinked (records.foldl (fun left record => left.collect record) store) records checksum := by
  induction records generalizing store with
  | nil => exact .inl rfl
  | cons record rest ih =>
    rw [List.foldl_cons]
    by_cases missing : store.find? record.observationId = none
    · rw [collect_missing missing]
      rcases ih (fun other member => agree other (List.mem_cons_of_mem record member)) with
        same | ⟨gone, ⟨removed, listed, held, refers⟩, unreferenced⟩
      · exact .inl same
      · exact .inr ⟨gone, ⟨removed, List.mem_cons_of_mem record listed, held, refers⟩, unreferenced⟩
    · have smaller : ∀ other ∈ (store.collect record).registry, other ∈ store.registry := by
        intro other member
        rw [collect_registry] at member
        exact (List.mem_filter.mp member).1
      have present : record ∈ store.registry := by
        rcases Option.ne_none_iff_exists'.mp missing with ⟨found, found_eq⟩
        have here := Keyed.find?_some found_eq
        rw [agree record List.mem_cons_self found here.1 here.2] at here
        exact here.1
      have registry := @gc_fold_registry Digest _ _ (store.collect record) rest
      have files : (store.collect record).files =
          unlink (Keyed.without Record.observationId record.observationId store.registry) record.rawRef
            store.files := by
        rw [collect, if_neg missing]
      rcases ih (fun other member later here => agree other (List.mem_cons_of_mem record member) later (smaller later here)) with
        same | ⟨gone, ⟨removed, listed, held, refers⟩, unreferenced⟩
      · rw [same, files]
        rcases unlink_cases (Keyed.without Record.observationId record.observationId store.registry) record.rawRef
          store.files checksum with kept | ⟨gone, refers, unreferenced⟩
        · exact .inl kept
        · refine .inr ⟨?_, ⟨record, List.mem_cons_self, present, refers⟩, fun other member => ?_⟩
          · rw [same, files, gone]
          · rw [registry, collect_registry] at member
            exact unreferenced other (List.mem_filter.mp member).1
      · exact .inr ⟨gone, ⟨removed, List.mem_cons_of_mem record listed, smaller removed held, refers⟩, unreferenced⟩

theorem gc_fold_rows {row : Record Digest}
    (member : row ∈ (records.foldl (fun left record => left.collect record) store).rows) :
    row ∈ store.rows ∧ ∀ record ∈ records, record ∈ store.registry ->
      row.observationId ≠ record.observationId := by
  induction records generalizing store with
  | nil => exact ⟨member, fun _ nothing => (List.not_mem_nil nothing).elim⟩
  | cons record rest ih =>
    change row ∈ (rest.foldl (fun left record => left.collect record) (store.collect record)).rows at member
    rcases ih member with ⟨kept, others⟩
    by_cases missing : store.find? record.observationId = none
    · rw [collect_missing missing] at kept others
      refine ⟨kept, fun removed listed held => ?_⟩
      rcases List.mem_cons.mp listed with rfl | later
      · exact absurd rfl (Keyed.find?_none.mp missing removed held)
      · exact others removed later held
    · have rows : (store.collect record).rows =
          Keyed.without Record.observationId record.observationId store.rows := by
        rw [collect, if_neg missing]
      rw [rows] at kept
      rcases List.mem_filter.mp kept with ⟨kept, apart⟩
      refine ⟨kept, fun removed listed held => ?_⟩
      by_cases same : removed.observationId = record.observationId
      · rw [same]
        exact of_decide_eq_true apart
      · have later := (List.mem_cons.mp listed).resolve_left fun equal => same (by rw [equal])
        refine others removed later ?_
        rw [collect_registry]
        exact List.mem_filter.mpr ⟨held, decide_eq_true same⟩

theorem removals_agree (sound : store.Sound) {maxRecords : ℤ} :
    ∀ record ∈ store.removals maxRecords, ∀ other ∈ store.registry,
      other.observationId = record.observationId -> other = record :=
  fun _ removed _ member same => List.inj_on_of_nodup_map sound.distinct member (removals_listed removed) same

/-! ## A store that is opened anew -/

theorem find?_load (record : Record Digest) (named : observationId ≠ "") :
    (store.load record).find? observationId =
      (store.find? observationId).or (if record.observationId = observationId then some record else none) := by
  rw [load]
  by_cases same : record.observationId = observationId
  · rw [if_pos same, <- same]
    split
    · next missing =>
        rw [missing.2]
        exact Keyed.find?_store_self record store.registry
    · next present =>
        rcases Option.ne_none_iff_exists'.mp (fun missing => present ⟨same ▸ named, missing⟩) with ⟨found, found_eq⟩
        rw [found_eq]
        rfl
  · rw [if_neg same, Option.or_none]
    split
    · exact Keyed.find?_store_ne same store.registry
    · rfl

theorem find?_loaded (named : observationId ≠ "") :
    (records.foldl (fun loaded record => loaded.load record) store).find? observationId =
      (store.find? observationId).or (Keyed.find? Record.observationId observationId records) := by
  induction records generalizing store with
  | nil => exact (Option.or_none).symm
  | cons record rest ih =>
    rw [List.foldl_cons, ih, find?_load record named, Option.or_assoc, Keyed.find?_cons]
    by_cases same : record.observationId = observationId
    · rw [if_pos same, if_pos same]
      rfl
    · rw [if_neg same, if_neg same]
      rfl

theorem loaded_shared (records : List (Record Digest)) :
    (records.foldl (fun loaded record => loaded.load record) store).files = store.files ∧
      (records.foldl (fun loaded record => loaded.load record) store).rows = store.rows := by
  induction records generalizing store with
  | nil => exact ⟨rfl, rfl⟩
  | cons record rest ih =>
    have first : (store.load record).files = store.files ∧ (store.load record).rows = store.rows := by
      rw [load]
      split
      · exact ⟨rfl, rfl⟩
      · exact ⟨rfl, rfl⟩
    exact ⟨ih.1.trans first.1, ih.2.trans first.2⟩

theorem mem_loaded
    (member : record ∈ (records.foldl (fun loaded record => loaded.load record) store).registry) :
    record ∈ store.registry ∨ record ∈ records := by
  induction records generalizing store with
  | nil => exact .inl member
  | cons head rest ih =>
    rcases ih member with here | later
    · change record ∈ (store.load head).registry at here
      rw [load] at here
      split at here
      · rcases Keyed.mem_store here with rfl | before
        · exact .inr List.mem_cons_self
        · exact .inl before
      · exact .inl here
    · exact .inr (List.mem_cons_of_mem head later)

end ObservationStore

/-- A new session of the scope of the record. -/
def World.reopened (world : World Who Digest) (record : Record Digest) : ObservationStore Digest :=
  ObservationStore.opened ⟨record.workspaceId, record.sessionId, [], [], [], world.files, world.rows⟩

/-- Every record of a registry expands to its text there, and every record of
the database in a new session of its scope. -/
structure World.Expandable (world : World Who Digest) : Prop where
  registries : ∀ who record now, record ∈ (world.store who).registry ->
    ((world.store who).expand record.observationId now).1 = record.text
  rows : ∀ record now, record ∈ world.rows ->
    ((world.reopened record).expand record.observationId now).1 = record.text

/-! ## Records that are held -/

/-- The record has no text, or its blob holds it and it has no carriage return. -/
def HeldRecord (files : Digest -> Option ByteArray) (record : Record Digest) : Prop :=
  record.observationId ≠ "" ∧
    (record.text = "" ∨ record.rawRef = .blob record.checksum ∧
      files record.checksum = some (TextFiles.encode record.text) ∧ '\r' ∉ record.text.toList)

variable {record : Record Digest}

theorem HeldRecord.invalidated {files : Digest -> Option ByteArray} (held : HeldRecord files record)
    (reason : String) (now : ℚ) : HeldRecord files (ObservationStore.invalidated reason now record) := held

namespace ObservationStore

variable {store : ObservationStore Digest}

variable {raw : Record Digest}

theorem checked_empty (distinct : Function.Injective (sha256 : ByteArray -> Digest)) (filed : Filed raw)
    (empty : raw.text = "") (now : ℚ) (text : String) : (store.checked raw now text).1 = "" := by
  by_cases same : text = raw.text
  · rw [same, checked_same filed now, empty]
  · rw [checked_other distinct filed now same]

variable {observationId : String}

/-- Nothing else is ever returned for a record without text. -/
theorem expand_empty (distinct : Function.Injective (sha256 : ByteArray -> Digest))
    (found : store.find? observationId = some raw) (filed : Filed raw) (empty : raw.text = "") (now : ℚ) :
    (store.expand observationId now).1 = "" := by
  unfold expand
  rw [found]
  dsimp only
  split
  · rfl
  · cases store.heldText raw with
    | none => rfl
    | some text => exact checked_empty distinct filed empty now text

theorem expand_held (distinct : Function.Injective (sha256 : ByteArray -> Digest)) (sound : store.Sound)
    (found : store.find? observationId = some raw) (held : HeldRecord store.files raw) (now : ℚ) :
    (store.expand observationId now).1 = raw.text := by
  have filed := (sound.registry raw (Keyed.find?_some found).1).1
  rcases held.2 with empty | ⟨blob, unmodified, free⟩
  · rw [empty]
    exact expand_empty distinct found filed empty now
  · exact congrArg Prod.fst ((expand_unmodified distinct sound found blob now unmodified).mpr free)

end ObservationStore

namespace ObservationStore

variable {store : ObservationStore Digest}

/-- Another text is never written over a blob that is held. -/
theorem persistRaw_held {record : Record Digest} (filed : Filed record) (held : HeldRecord store.files record)
    (observationId rawText : String) (written : Bool) :
    HeldRecord (store.persistRaw observationId rawText (sha256 (TextFiles.encode rawText)) written).1.files record := by
  refine ⟨held.1, held.2.imp id ?_⟩
  rintro ⟨blob, unmodified, free⟩
  refine ⟨blob, ?_, free⟩
  rw [persistRaw]
  split
  · split
    · exact unmodified
    · next absent =>
        have apart : record.checksum ≠ sha256 (TextFiles.encode rawText) := by
          intro same
          refine absent ?_
          rw [<- same, unmodified, Option.map_some, <- filed.checksum]
        exact (Function.update_of_ne apart _ _).trans unmodified
  · exact unmodified

theorem put_new {input : Put} (new : store.existing input.dedupKey = none) :
    (store.put input).1.registry = Keyed.store Record.observationId (store.put input).2 store.registry ∧
      (store.put input).1.rows = Keyed.store Record.observationId (store.put input).2 store.rows ∧
      (store.put input).1.files = (store.persistRaw input.observationId (Texts.sanitize Digest input.rawText)
        (sha256 (TextFiles.encode (Texts.sanitize Digest input.rawText))) input.written).1.files ∧
      (store.put input).2.observationId = input.observationId ∧
      (store.put input).2.text = Texts.sanitize Digest input.rawText := by
  rcases store.persistRaw_kept input.observationId (Texts.sanitize Digest input.rawText)
    (sha256 (TextFiles.encode (Texts.sanitize Digest input.rawText))) input.written with ⟨registry, rows, _⟩
  unfold put
  rw [new]
  dsimp only [persistRecord]
  rw [registry, rows]
  exact ⟨rfl, rfl, rfl, rfl, rfl⟩

theorem observationId_named (input : Put) : input.observationId ≠ "" := by
  intro empty
  have letters := congrArg String.toList empty
  rw [Put.observationId, String.toList_append] at letters
  cases letters

end ObservationStore

structure World.Held (world : World Who Digest) : Prop where
  registries : ∀ who record, record ∈ (world.store who).registry -> HeldRecord world.files record
  rows : ∀ record ∈ world.rows, HeldRecord world.files record

variable {world : World Who Digest}

theorem World.find?_reopened (sound : world.Sound) (member : record ∈ world.rows)
    (named : record.observationId ≠ "") :
    (world.reopened record).find? record.observationId = some record := by
  have here : Keyed.find? Record.observationId record.observationId world.rows = some record :=
    Keyed.find?_of_mem sound.distinctRows member
  have filtered := Keyed.find?_filter (ObservationStore.inScope 
    ⟨record.workspaceId, record.sessionId, [], [], [], world.files, world.rows⟩) sound.distinctRows record.observationId
  have scope : ObservationStore.inScope
      ⟨record.workspaceId, record.sessionId, [], [], [], world.files, world.rows⟩ record = true := by
    rw [ObservationStore.inScope, decide_eq_true rfl, decide_eq_true rfl]
    rfl
  rw [here, Option.filter_some_pos scope] at filtered
  rw [reopened, ObservationStore.opened, ObservationStore.find?_loaded _ named]
  exact (Option.none_or).trans filtered

theorem World.Held.expandable (distinct : Function.Injective (sha256 : ByteArray -> Digest))
    (sound : world.Sound) (held : world.Held) : world.Expandable where
  registries := fun who record now member =>
    ObservationStore.expand_held distinct (sound.sessions who)
      (Keyed.find?_of_mem (sound.sessions who).distinct member) (held.registries who record member) now
  rows := fun record now member => by
    have base : ObservationStore.Sound
        ⟨record.workspaceId, record.sessionId, [], [], [], world.files, world.rows⟩ :=
      ⟨fun _ nothing => (List.not_mem_nil nothing).elim, List.nodup_nil, sound.rows, sound.distinctRows⟩
    have files : (world.reopened record).files = world.files := (ObservationStore.loaded_shared _).1
    have kept : HeldRecord (world.reopened record).files record := files ▸ held.rows record member
    exact ObservationStore.expand_held distinct base.opened.sound
      (World.find?_reopened sound member (held.rows record member).1) kept now

/-! ## Careful runs -/

/-- A record that a collection leaves somewhere: in the database, or in the
registry of another session. -/
def World.Elsewhere (world : World Who Digest) (who : Who) (maxRecords : ℤ) (record : Record Digest) : Prop :=
  (record ∈ world.rows ∧ ∀ removed ∈ (world.store who).removals maxRecords,
    record.observationId ≠ removed.observationId) ∨
  ∃ other, other ≠ who ∧ record ∈ (world.store other).registry

/-- No record elsewhere needs a blob that goes with the records of this registry. -/
def World.Unshared (world : World Who Digest) (who : Who) (maxRecords : ℤ) : Prop :=
  ∀ removed checksum, removed ∈ (world.store who).removals maxRecords -> removed.rawRef = .blob checksum ->
    (∀ stays ∈ (world.store who).registry, stays ∉ (world.store who).removals maxRecords ->
      stays.rawRef ≠ .blob checksum) ->
    ∀ record, world.Elsewhere who maxRecords record -> record.rawRef = .blob checksum -> record.text = ""

/-- A new record has no text, or a text without carriage returns that is
written to its blob; a collection removes no blob that is needed elsewhere;
and nobody else changes the blobs. -/
def Careful (world : World Who Digest) : Call Who Digest -> Prop
  | .put who input =>
    (world.store who).existing input.dedupKey = none ->
      Texts.sanitize Digest input.rawText = "" ∨
        input.written = true ∧ '\r' ∉ (Texts.sanitize Digest input.rawText).toList
  | .gc who maxRecords => world.Unshared who maxRecords
  | .tamper _ _ => False
  | _ => True

/-- What the store of one session may do to the records of all. -/
structure World.Keeps (world : World Who Digest) (who : Who) (after : ObservationStore Digest) : Prop where
  registry : ∀ record ∈ after.registry, HeldRecord after.files record
  rows : ∀ record ∈ after.rows, HeldRecord after.files record
  others : ∀ other record, other ≠ who -> record ∈ (world.store other).registry -> HeldRecord after.files record

theorem World.Keeps.held {who : Who} {after : ObservationStore Digest} (keeps : world.Keeps who after) :
    (world.written who after).Held where
  registries := fun other record member => by
    by_cases same : other = who
    · have here : (world.written who after).sessions other =
          ⟨after.workspaceId, after.sessionId, after.registry, after.index, after.blobs⟩ := by
        rw [same]
        exact Function.update_self who _ world.sessions
      rw [store, here] at member
      exact keeps.registry record member
    · have elsewhere : (world.written who after).sessions other = world.sessions other :=
        Function.update_of_ne same _ world.sessions
      rw [store, elsewhere] at member
      exact keeps.others other record same member
  rows := keeps.rows

/-- The blobs are as before. -/
theorem World.Held.keeps {world : World Who Digest} (held : world.Held) (who : Who)
    {after : ObservationStore Digest} (files : after.files = world.files)
    (registry : ∀ record ∈ after.registry, HeldRecord world.files record)
    (rows : ∀ record ∈ after.rows, HeldRecord world.files record) : world.Keeps who after where
  registry := by rw [files]; exact registry
  rows := by rw [files]; exact rows
  others := fun other record _ member => files ▸ held.registries other record member

namespace World.Held

variable {world : World Who Digest} (held : world.Held) (who : Who)

include held

theorem same : world.Keeps who (world.store who) :=
  held.keeps who rfl (held.registries who) held.rows

theorem openStore : world.Keeps who (world.store who).opened := by
  have shared := @ObservationStore.loaded_shared Digest _ _ (world.store who)
    ((world.store who).rows.filter (world.store who).inScope)
  refine held.keeps who shared.1 (fun record member => ?_) fun record member => ?_
  · rcases ObservationStore.mem_loaded _ member with mine | row
    · exact held.registries who record mine
    · exact held.rows record (List.mem_filter.mp row).1
  · rw [ObservationStore.opened, shared.2] at member
    exact held.rows record member

theorem invalidate (predicate : Record Digest -> Bool) (reason : String) (now : ℚ) :
    world.Keeps who ((world.store who).invalidate predicate reason now) := by
  refine held.keeps who rfl (fun record member => ?_) ?_
  · rcases ObservationStore.mem_invalidate member with ⟨before, listed, rfl | rfl⟩
    · exact held.registries who _ listed
    · exact (held.registries who before listed).invalidated reason now
  · refine ObservationStore.rows_persisted _ held.rows fun record member => ?_
    rcases List.mem_map.mp member with ⟨before, chosen, rfl⟩
    exact (held.registries who before (List.mem_filter.mp chosen).1).invalidated reason now

theorem expand (observationId : String) (now : ℚ) :
    world.Keeps who ((world.store who).expand observationId now).2 := by
  unfold ObservationStore.expand
  split
  · exact held.same who
  · split
    · exact held.same who
    · split
      · exact held.same who
      · rw [ObservationStore.checked]
        split
        · exact held.invalidate who _ _ now
        · exact held.same who

theorem put (distinct : Function.Injective (sha256 : ByteArray -> Digest)) (sound : world.Sound) (input : Put) (careful : Careful world (.put who input)) :
    world.Keeps who ((world.store who).put input).1 := by
  by_cases known : (world.store who).existing input.dedupKey = none
  · rcases ObservationStore.put_new known with ⟨registry, rows, files, named, text⟩
    have kept : ∀ record, Filed record -> HeldRecord world.files record ->
        HeldRecord ((world.store who).put input).1.files record := by
      intro record filed before
      rw [files]
      exact ObservationStore.persistRaw_held filed before input.observationId _ input.written
    have added : HeldRecord ((world.store who).put input).1.files ((world.store who).put input).2 := by
      refine ⟨named ▸ ObservationStore.observationId_named input, ?_⟩
      rcases careful known with empty | ⟨written, free⟩
      · exact .inl (text.trans empty)
      · rcases ObservationStore.put_created distinct input known written with ⟨_, _, _, blob, stored⟩
        exact .inr ⟨blob, stored, text ▸ free⟩
    refine ⟨fun record member => ?_, fun record member => ?_, fun other record _ member => ?_⟩
    · rw [registry] at member
      rcases Keyed.mem_store member with rfl | before
      · exact added
      · exact kept record ((sound.sessions who).registry record before).1 (held.registries who record before)
    · rw [rows] at member
      rcases Keyed.mem_store member with rfl | before
      · exact added
      · exact kept record (sound.rows record before) (held.rows record before)
    · exact kept record ((sound.sessions other).registry record member).1 (held.registries other record member)
  · rcases Option.ne_none_iff_exists'.mp known with ⟨record, existing⟩
    have same : (world.store who).put input = (world.store who, record) := by
      unfold ObservationStore.put
      rw [existing]
    rw [same]
    exact held.same who

/-- A record that stays after a collection keeps its blob. -/
theorem gc_record (sound : world.Sound) {maxRecords : ℤ} (careful : world.Unshared who maxRecords)
    {record : Record Digest} (before : HeldRecord world.files record)
    (stays : record ∈ ((world.store who).gc maxRecords).registry ∨ world.Elsewhere who maxRecords record) :
    HeldRecord ((world.store who).gc maxRecords).files record := by
  refine ⟨before.1, ?_⟩
  rcases before.2 with empty | ⟨blob, unmodified, free⟩
  · exact .inl empty
  · rcases ObservationStore.gc_fold_files _ (ObservationStore.removals_agree (sound.sessions who)) record.checksum with
      same | ⟨_, ⟨removed, listed, _, refers⟩, unreferenced⟩
    · exact .inr ⟨blob, same.trans unmodified, free⟩
    · rcases stays with here | elsewhere
      · exact absurd blob (unreferenced record here)
      · refine .inl (careful removed record.checksum listed refers (fun other member left => ?_) record elsewhere blob)
        refine unreferenced other ?_
        show other ∈ ((world.store who).gc maxRecords).registry
        rw [ObservationStore.gc_registry (sound.sessions who)]
        exact List.mem_filter.mpr ⟨member, decide_eq_true left⟩

theorem gc (sound : world.Sound) {maxRecords : ℤ} (careful : world.Unshared who maxRecords) :
    world.Keeps who ((world.store who).gc maxRecords) where
  registry := fun record member => by
    refine held.gc_record who sound careful (held.registries who record ?_) (.inl member)
    rw [ObservationStore.gc_registry (sound.sessions who)] at member
    exact (List.mem_filter.mp member).1
  rows := fun record member => by
    rcases ObservationStore.gc_fold_rows _ member with ⟨listed, apart⟩
    refine held.gc_record who sound careful (held.rows record listed) (.inr (.inl ⟨listed, ?_⟩))
    exact fun removed chosen => apart removed chosen (ObservationStore.removals_listed chosen)
  others := fun other record same member =>
    held.gc_record who sound careful (held.registries other record member) (.inr (.inr ⟨other, same, member⟩))

end World.Held

theorem held_step (distinct : Function.Injective (sha256 : ByteArray -> Digest)) (sound : world.Sound)
    (held : world.Held) (call : Call Who Digest) (careful : Careful world call) : (step world call).Held := by
  cases call with
  | openStore who => exact (held.openStore who).held
  | put who input => exact (held.put who distinct sound input careful).held
  | invalidate who predicate reason now => exact (held.invalidate who predicate reason now).held
  | expand who observationId now => exact (held.expand who observationId now).held
  | gc who maxRecords => exact (held.gc who sound careful).held
  | tamper checksum content => exact careful.elim

/-- After any calls, a collection removes the stale records and the oldest
active ones beyond its limit, and so leaves as many active ones as the limit
allows, exactly where the stale records come first; and on every careful run
every record expands to its text, in whatever registry it is or from the
database. -/
theorem collections_keep (distinct : Function.Injective (sha256 : ByteArray -> Digest))
    (scope : Who -> String × String) (calls : List (Call Who Digest)) :
    (∀ who, let store := (machine.run (start scope : World Who Digest) calls).store who
      (∀ maxRecords, (store.gc maxRecords).registry = store.kept maxRecords <-> store.StaleFirst maxRecords) ∧
      ∀ maxRecords : Nat, (store.kept maxRecords).length = min maxRecords store.actives.length) ∧
    (machine.Along Careful (start scope : World Who Digest) calls ->
      machine.Visits World.Expandable (start scope : World Who Digest) calls) := by
  refine ⟨fun who => ?_, fun careful => ?_⟩
  · have sound := (sound_run scope calls).sessions who
    exact ⟨fun maxRecords => ObservationStore.gc_exact sound maxRecords,
      fun maxRecords => ObservationStore.length_kept sound maxRecords⟩
  · have initially : (start scope : World Who Digest).Sound ∧ (start scope : World Who Digest).Held :=
      ⟨sound_start scope, fun _ _ member => (List.not_mem_nil member).elim,
        fun _ member => (List.not_mem_nil member).elim⟩
    have preserved : ∀ (world : World Who Digest) (call : Call Who Digest), world.Sound ∧ world.Held ->
        Careful world call -> (machine.step world call).Sound ∧ (machine.step world call).Held :=
      fun world call both careful => ⟨sound_step both.1 call, held_step distinct both.1 both.2 call careful⟩
    exact machine.visits_along preserved (fun world both => World.Held.expandable distinct both.1 both.2) initially
      calls careful

end Sharing

section Examples

attribute [local instance] plainTexts TextFiles.bytesEqual

/-- An observation of a text of its own. -/
def observed (drawn : String) (now : ℚ) : Put := ⟨"key" ++ drawn, "text" ++ drawn, "", [], drawn, now, true⟩

/-- An observation that is made and becomes stale. -/
def madeStale : List (Call Unit ByteArray) :=
  [.put () (observed "1" 1), .invalidate () (fun _ => true) "source_version_changed" 2]

theorem stale_collected :
    ((afterCalls madeStale).gc 0).registry = (afterCalls madeStale).kept 0 ∧
      (machine.run (start fun _ : Unit => ("w", "s")) madeStale : World Unit ByteArray).Expandable := by
  have keeps := collections_keep (fun _ _ same => same) (fun _ : Unit => ("w", "s")) madeStale
  have careful : machine.Along Careful (start (fun _ : Unit => ("w", "s")) : World Unit ByteArray) madeStale :=
    ⟨fun _ => .inr ⟨rfl, by decide +kernel⟩, True.intro, True.intro⟩
  exact ⟨((keeps.1 ()).1 0).mpr (.inl (by decide +kernel)), machine.visits_last (keeps.2 careful)⟩

/-- Two active observations, and a later one that is stale. -/
def staleLast : List (Call Unit ByteArray) :=
  [.put () (observed "1" 1), .put () (observed "2" 2), .put () (observed "3" 3),
    .invalidate () (fun record => decide (record.observationId = "OBS-3")) "source_version_changed" 4]

/-- Two sessions observe the same text, and the first one collects all it has. -/
def sharedText : List (Call Bool ByteArray) :=
  [.put false ⟨"key1", "ok", "", [], "1", 1, true⟩, .put true ⟨"key2", "ok", "", [], "2", 2, true⟩, .gc false 0]

/-- No active record is left where one should be, and a blob is lost that
another session refers to. -/
theorem collections_lose :
    ((afterCalls staleLast).actives.length = 2 ∧ ((afterCalls staleLast).gc 1).registry = []) ∧
    (((machine.run (start fun who : Bool => ("w", if who then "b" else "a")) sharedText).store true).find?
        "OBS-2").map Record.text = some "ok" ∧
      (((machine.run (start fun who : Bool => ("w", if who then "b" else "a")) sharedText).store true).expand
        "OBS-2" 3).1 = "" := by
  refine ⟨⟨?_, ?_⟩, ?_, ?_⟩
  · decide +kernel
  · decide +kernel
  · decide +kernel
  · decide +kernel

end Examples

end Observations
end FixLoop
