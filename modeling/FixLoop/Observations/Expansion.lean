import FixLoop.Observations.Store

namespace FixLoop
namespace Observations

open Library

/-!
# What an observation expands to

Every record tells the digest of the text that was persisted for it, so an
expansion returns that text or finds that what it read is another one.
-/

section Records

set_option linter.unusedSectionVars false

variable {Who Digest : Type} [DecidableEq Who] [DecidableEq Digest] [Texts Digest]

/-- The record tells the digest of its text and refers to the blob of that name. -/
structure Filed (record : Record Digest) : Prop where
  checksum : record.checksum = sha256 (TextFiles.encode record.text)
  rawRef : ∀ named, record.rawRef = .blob named -> named = record.checksum

theorem Filed.invalidated {record : Record Digest} (filed : Filed record) (reason : String) (now : ℚ) :
    Filed (ObservationStore.invalidated reason now record) := ⟨filed.checksum, filed.rawRef⟩

/-- The records of the registry are of this workspace, and no two have one identifier. -/
structure ObservationStore.Sound (store : ObservationStore Digest) : Prop where
  registry : ∀ record ∈ store.registry, Filed record ∧ record.workspaceId = store.workspaceId
  distinct : Keyed.Distinct Record.observationId store.registry
  rows : ∀ record ∈ store.rows, Filed record
  distinctRows : Keyed.Distinct Record.observationId store.rows

/-- The same workspace after a method of the store. -/
structure ObservationStore.Preserved (store after : ObservationStore Digest) : Prop where
  sound : after.Sound
  workspaceId : after.workspaceId = store.workspaceId

namespace ObservationStore

variable {store : ObservationStore Digest}

theorem Sound.preserved (sound : store.Sound) : store.Preserved store := ⟨sound, rfl⟩

variable {record : Record Digest}

theorem Sound.load (sound : store.Sound) (filed : Filed record)
    (here : record.workspaceId = store.workspaceId) : (store.load record).Sound := by
  rw [ObservationStore.load]
  split
  · refine ⟨fun other member => ?_, Keyed.distinct_store record sound.distinct, sound.rows, sound.distinctRows⟩
    rcases Keyed.mem_store member with rfl | listed
    · exact ⟨filed, here⟩
    · exact sound.registry other listed
  · exact sound

theorem load_workspaceId (record : Record Digest) : (store.load record).workspaceId = store.workspaceId := by
  rw [ObservationStore.load]
  split
  · rfl
  · rfl

theorem Sound.opened (sound : store.Sound) : store.Preserved store.opened := by
  suffices general : ∀ (records : List (Record Digest)) (loaded : ObservationStore Digest),
      (∀ record ∈ records, Filed record ∧ record.workspaceId = loaded.workspaceId) -> loaded.Sound ->
      loaded.Preserved (records.foldl (fun loaded record => loaded.load record) loaded) by
    refine general _ store (fun record member => ?_) sound
    rcases List.mem_filter.mp member with ⟨listed, scope⟩
    rw [inScope, Bool.and_eq_true, decide_eq_true_eq] at scope
    exact ⟨sound.rows record listed, scope.1⟩
  intro records
  induction records with
  | nil => exact fun loaded _ sound => sound.preserved
  | cons record rest ih =>
    intro loaded all sound
    have first := all record List.mem_cons_self
    have later := ih (loaded.load record)
      (fun other member => by
        rw [load_workspaceId]
        exact all other (List.mem_cons_of_mem record member))
      (sound.load first.1 first.2)
    exact ⟨later.sound, later.workspaceId.trans (load_workspaceId record)⟩

theorem created_filed (input : Put) {rawRef : RawRef Digest}
    (named : ∀ checksum, rawRef = .blob checksum ->
      checksum = sha256 (TextFiles.encode (Texts.sanitize Digest input.rawText))) :
    Filed (store.created input rawRef) := ⟨rfl, named⟩

theorem persistRaw_named (observationId rawText : String) (checksum named : Digest) (written : Bool)
    (blob : (store.persistRaw observationId rawText checksum written).2 = .blob named) : named = checksum := by
  rw [persistRaw] at blob
  split at blob
  · split at blob
    · exact (RawRef.blob.inj blob).symm
    · exact (RawRef.blob.inj blob).symm
  · cases blob

theorem persistRaw_kept (observationId rawText : String) (checksum : Digest) (written : Bool) :
    (store.persistRaw observationId rawText checksum written).1.registry = store.registry ∧
      (store.persistRaw observationId rawText checksum written).1.rows = store.rows ∧
      (store.persistRaw observationId rawText checksum written).1.workspaceId = store.workspaceId := by
  rw [persistRaw]
  split
  · split
    · exact ⟨rfl, rfl, rfl⟩
    · exact ⟨rfl, rfl, rfl⟩
  · exact ⟨rfl, rfl, rfl⟩

theorem Sound.put (sound : store.Sound) (input : Put) : store.Preserved (store.put input).1 := by
  unfold ObservationStore.put
  split
  · exact sound.preserved
  · dsimp only
    have filed := store.created_filed input (store.persistRaw_named input.observationId
      (Texts.sanitize Digest input.rawText) (sha256 (TextFiles.encode (Texts.sanitize Digest input.rawText))) ·
      input.written)
    rcases store.persistRaw_kept input.observationId (Texts.sanitize Digest input.rawText)
      (sha256 (TextFiles.encode (Texts.sanitize Digest input.rawText))) input.written with ⟨registry, rows, workspace⟩
    refine ⟨⟨fun record member => ?_, ?_, fun record member => ?_, ?_⟩, workspace⟩
    · rcases Keyed.mem_store member with rfl | listed
      · exact ⟨filed, workspace.symm⟩
      · rw [registry] at listed
        refine ⟨(sound.registry record listed).1, (sound.registry record listed).2.trans workspace.symm⟩
    · refine Keyed.distinct_store _ ?_
      rw [registry]
      exact sound.distinct
    · rcases Keyed.mem_store member with rfl | listed
      · exact filed
      · rw [rows] at listed
        exact sound.rows record listed
    · refine Keyed.distinct_store _ ?_
      show Keyed.Distinct Record.observationId (store.persistRaw _ _ _ _).1.rows
      rw [rows]
      exact sound.distinctRows

theorem rows_persisted {property : Record Digest -> Prop} (records : List (Record Digest))
    {rows : List (Record Digest)} (all : ∀ record ∈ rows, property record)
    (written : ∀ record ∈ records, property record) :
    ∀ record ∈ records.foldl (fun rows record => Keyed.store Record.observationId record rows) rows,
        property record := by
  induction records generalizing rows with
  | nil => exact all
  | cons head rest ih =>
    refine ih (fun record member => ?_) fun record member => written record (List.mem_cons_of_mem head member)
    rcases Keyed.mem_store member with rfl | listed
    · exact written _ List.mem_cons_self
    · exact all record listed

theorem invalidate_keys (predicate : Record Digest -> Bool) (reason : String) (now : ℚ) :
    (store.invalidate predicate reason now).registry.map Record.observationId =
      store.registry.map Record.observationId := by
  rw [invalidate, List.map_map]
  refine List.map_congr_left fun record _ => ?_
  rw [Function.comp]
  split
  · rfl
  · rfl

/-- A record of the registry as it was, or as it was marked. -/
theorem mem_invalidate {predicate : Record Digest -> Bool} {reason : String} {now : ℚ}
    (member : record ∈ (store.invalidate predicate reason now).registry) :
    ∃ before ∈ store.registry, (record = before ∨ record = invalidated reason now before) := by
  rcases List.mem_map.mp member with ⟨before, listed, same⟩
  refine ⟨before, listed, ?_⟩
  split at same
  · exact .inr same.symm
  · exact .inl same.symm

theorem Sound.invalidate (sound : store.Sound) (predicate : Record Digest -> Bool) (reason : String) (now : ℚ) :
    store.Preserved (store.invalidate predicate reason now) := by
  refine ⟨⟨fun record member => ?_, ?_, ?_, Keyed.distinct_foldl_store _ sound.distinctRows⟩, rfl⟩
  · rcases mem_invalidate member with ⟨before, listed, rfl | rfl⟩
    · exact sound.registry _ listed
    · exact ⟨(sound.registry before listed).1.invalidated reason now, (sound.registry before listed).2⟩
  · rw [Keyed.Distinct, invalidate_keys]
    exact sound.distinct
  · refine rows_persisted _ sound.rows fun record member => ?_
    rcases List.mem_map.mp member with ⟨before, chosen, rfl⟩
    exact (sound.registry before (List.mem_filter.mp chosen).1).1.invalidated reason now

theorem Sound.expand (sound : store.Sound) (observationId : String) (now : ℚ) :
    store.Preserved (store.expand observationId now).2 := by
  unfold ObservationStore.expand
  split
  · exact sound.preserved
  · split
    · exact sound.preserved
    · split
      · exact sound.preserved
      · rw [checked]
        split
        · exact sound.invalidate _ _ now
        · exact sound.preserved

theorem Sound.collect (sound : store.Sound) (record : Record Digest) : store.Preserved (store.collect record) := by
  rw [ObservationStore.collect]
  split
  · exact sound.preserved
  · exact ⟨⟨fun other member => sound.registry other (List.mem_filter.mp member).1,
      Keyed.distinct_filter _ sound.distinct, fun other member => sound.rows other (List.mem_filter.mp member).1,
      Keyed.distinct_filter _ sound.distinctRows⟩, rfl⟩

theorem Sound.gc (sound : store.Sound) (maxRecords : ℤ) : store.Preserved (store.gc maxRecords) := by
  suffices general : ∀ (records : List (Record Digest)) (left : ObservationStore Digest), left.Sound ->
      left.Preserved (records.foldl (fun left record => left.collect record) left) from
    general (store.removals maxRecords) store sound
  intro records
  induction records with
  | nil => exact fun left sound => sound.preserved
  | cons record rest ih =>
    intro left sound
    have first := sound.collect record
    have later := ih (left.collect record) first.sound
    exact ⟨later.sound, later.workspaceId.trans first.workspaceId⟩

end ObservationStore

/-- What every session holds, and what they share, is sound. -/
structure World.Sound (world : World Who Digest) : Prop where
  sessions : ∀ who, (world.store who).Sound
  rows : ∀ record ∈ world.rows, Filed record
  distinctRows : Keyed.Distinct Record.observationId world.rows

variable {world : World Who Digest} (scope : Who -> String × String)

theorem World.Sound.written (sound : world.Sound) (who : Who) {store : ObservationStore Digest}
    (preserved : (world.store who).Preserved store) : (world.written who store).Sound := by
  refine ⟨fun other => ?_, preserved.sound.rows, preserved.sound.distinctRows⟩
  by_cases same : other = who
  · have here : (world.written who store).sessions other =
        ⟨store.workspaceId, store.sessionId, store.registry, store.index, store.blobs⟩ := by
      rw [same]
      exact Function.update_self who _ world.sessions
    rw [World.store, here]
    exact ⟨preserved.sound.registry, preserved.sound.distinct, preserved.sound.rows, preserved.sound.distinctRows⟩
  · have elsewhere : (world.written who store).sessions other = world.sessions other :=
      Function.update_of_ne same _ world.sessions
    rw [World.store, elsewhere]
    exact ⟨(sound.sessions other).registry, (sound.sessions other).distinct, preserved.sound.rows,
      preserved.sound.distinctRows⟩

theorem sound_step (sound : world.Sound) (call : Call Who Digest) : (step world call).Sound := by
  cases call with
  | openStore who => exact sound.written who (sound.sessions who).opened
  | put who input => exact sound.written who ((sound.sessions who).put input)
  | invalidate who predicate reason now => exact sound.written who ((sound.sessions who).invalidate predicate reason now)
  | expand who observationId now => exact sound.written who ((sound.sessions who).expand observationId now)
  | gc who maxRecords => exact sound.written who ((sound.sessions who).gc maxRecords)
  | tamper checksum content =>
    exact ⟨fun who => ⟨(sound.sessions who).registry, (sound.sessions who).distinct, sound.rows, sound.distinctRows⟩,
      sound.rows, sound.distinctRows⟩

theorem sound_start : (start scope : World Who Digest).Sound :=
  ⟨fun _ => ⟨fun _ member => (List.not_mem_nil member).elim, List.nodup_nil,
      fun _ member => (List.not_mem_nil member).elim, List.nodup_nil⟩,
    fun _ member => (List.not_mem_nil member).elim, List.nodup_nil⟩

theorem sound_run (calls : List (Call Who Digest)) :
    (machine.run (start scope : World Who Digest) calls).Sound := by
  have preserved : ∀ (world : World Who Digest) (call : Call Who Digest), world.Sound ->
      (machine.step world call).Sound := fun _ call sound => sound_step sound call
  exact machine.invariant_run preserved (sound_start scope) calls

/-! ## Expansions -/

namespace ObservationStore

variable {store : ObservationStore Digest} {raw : Record Digest} {observationId : String} {checksum : Digest}

theorem expand_blob (sound : store.Sound) (found : store.find? observationId = some raw)
    (blob : raw.rawRef = .blob checksum) (now : ℚ) :
    store.expand observationId now =
      ((readBlob store.files checksum).map (store.checked raw now)).getD ("", store) := by
  have home : store.foreign raw = false := by
    simp [foreign, (sound.registry raw (Keyed.find?_some found).1).2]
  have held : store.heldText raw = readBlob store.files checksum := by
    rw [heldText, blob]
  unfold expand
  rw [found]
  dsimp only
  rw [if_neg (Bool.eq_false_iff.mp home), held]
  cases readBlob store.files checksum with
  | none => rfl
  | some text => rfl

theorem checked_same (filed : Filed raw) (now : ℚ) : store.checked raw now raw.text = (raw.text, store) := by
  rw [checked, if_neg]
  rw [filed.checksum]
  exact not_not.mpr rfl

/-- Digests that are equal only of equal bytes tell another text apart. -/
theorem checked_other (distinct : Function.Injective (sha256 : ByteArray -> Digest)) (filed : Filed raw) (now : ℚ)
    {text : String} (other : text ≠ raw.text) :
    store.checked raw now text = ("",
      store.invalidate (fun item => decide (item.observationId = raw.observationId)) "blob_checksum_mismatch" now) := by
  rw [checked, if_pos]
  rw [filed.checksum]
  exact fun equal => other (TextFiles.encode_injective (distinct equal))

theorem find?_invalidate (found : store.find? observationId = some raw) (predicate : Record Digest -> Bool)
    (reason : String) (now : ℚ) :
    (store.invalidate predicate reason now).find? observationId =
      some (if invalidates predicate raw then invalidated reason now raw else raw) := by
  have kept : ∀ record : Record Digest,
      (if invalidates predicate record then invalidated reason now record else record).observationId =
        record.observationId := by
    intro record
    split
    · rfl
    · rfl
  rw [find?, invalidate, Keyed.find?_map kept]
  exact congrArg (Option.map _) found

/-- An unmodified blob is expanded exactly where its text has no carriage return. -/
theorem expand_unmodified (distinct : Function.Injective (sha256 : ByteArray -> Digest)) (sound : store.Sound)
    (found : store.find? observationId = some raw) (blob : raw.rawRef = .blob checksum) (now : ℚ)
    (unmodified : store.files checksum = some (TextFiles.encode raw.text)) :
    store.expand observationId now = (raw.text, store) <-> '\r' ∉ raw.text.toList := by
  have filed := (sound.registry raw (Keyed.find?_some found).1).1
  rcases TextFiles.readText_encode_isSome raw.text with ⟨read, reads⟩
  have held : readBlob store.files checksum = some read := by
    rw [readBlob, unmodified, Option.map_some, reads, Option.getD_some]
  rw [expand_blob sound found blob, held, Option.map_some, Option.getD_some, <- TextFiles.readText_encode, reads,
    Option.some.injEq]
  by_cases same : read = raw.text
  · rw [same]
    exact ⟨fun _ => rfl, fun _ => checked_same filed now⟩
  · rw [checked_other distinct filed now same]
    refine ⟨fun equal => ?_, fun equal => absurd equal same⟩
    have empty : raw.text = "" := (congrArg Prod.fst equal).symm
    have free : '\r' ∉ raw.text.toList := by
      rw [empty]
      exact List.not_mem_nil
    rw [TextFiles.readText_encode.mpr free] at reads
    exact (Option.some.inj reads).symm

/-- The expansion answers nothing and leaves the record stale. -/
def Refuses (store : ObservationStore Digest) (observationId : String) (now : ℚ) : Prop :=
  (store.expand observationId now).1 = "" ∧
    ((store.expand observationId now).2.find? observationId).map Record.lifecycle = some .stale

/-- A blob is refused exactly where it is read as another text. -/
theorem expand_modified (distinct : Function.Injective (sha256 : ByteArray -> Digest)) (sound : store.Sound)
    (found : store.find? observationId = some raw) (blob : raw.rawRef = .blob checksum) (now : ℚ)
    (active : raw.lifecycle = .active) :
    store.Refuses observationId now <->
      ∃ read, readBlob store.files checksum = some read ∧ read ≠ raw.text := by
  have filed := (sound.registry raw (Keyed.find?_some found).1).1
  have unmarked : (store.find? observationId).map Record.lifecycle ≠ some .stale := by
    rw [found, Option.map_some, active]
    exact fun same => by cases same
  rw [Refuses, expand_blob sound found blob]
  cases held : readBlob store.files checksum with
  | none =>
    refine ⟨fun refused => absurd refused.2 unmarked, fun other => ?_⟩
    rcases other with ⟨_, missing, _⟩
    cases missing
  | some read =>
    rw [Option.map_some, Option.getD_some]
    by_cases same : read = raw.text
    · rw [same, checked_same filed now]
      refine ⟨fun refused => absurd refused.2 unmarked, fun other => ?_⟩
      rcases other with ⟨_, here, apart⟩
      exact absurd (Option.some.inj here).symm apart
    · rw [checked_other distinct filed now same]
      refine ⟨fun _ => ⟨read, rfl, same⟩, fun _ => ⟨rfl, ?_⟩⟩
      have chosen : invalidates (fun item => decide (item.observationId = raw.observationId)) raw = true := by
        rw [invalidates, active, decide_eq_true rfl, decide_eq_true rfl, Bool.and_self]
      rw [find?_invalidate found, if_pos chosen]
      rfl

/-- What a call that creates a record leaves behind. -/
theorem put_created (distinct : Function.Injective (sha256 : ByteArray -> Digest)) (input : Put)
    (new : store.existing input.dedupKey = none) (written : input.written = true) :
    (store.put input).1.find? input.observationId = some (store.put input).2 ∧
      (store.put input).2.text = Texts.sanitize Digest input.rawText ∧
      (store.put input).2.lifecycle = .active ∧
      (store.put input).2.rawRef = .blob (store.put input).2.checksum ∧
      (store.put input).1.files (store.put input).2.checksum = some (TextFiles.encode (store.put input).2.text) := by
  have stored := @Keyed.find?_store_self (Record Digest) String _ Record.observationId
    (store.created input (.blob (sha256 (TextFiles.encode (Texts.sanitize Digest input.rawText))))) store.registry
  unfold put
  rw [new]
  dsimp only
  rw [written, persistRaw, if_pos rfl]
  split
  · next present =>
      refine ⟨stored, rfl, rfl, rfl, ?_⟩
      rcases Option.map_eq_some_iff.mp present with ⟨content, held, digest⟩
      exact held.trans (congrArg some (distinct digest))
  · exact ⟨stored, rfl, rfl, rfl, Function.update_self _ _ _⟩

end ObservationStore

/-- After any calls of any sessions, and whatever became of the blobs: a record
that is created can be found, with its text in its blob; from a blob that is
unmodified it expands to that text, and nothing changes, exactly where the text
has no carriage return; and from a modified blob an active record expands to
nothing and becomes stale exactly where the blob reads as another text. -/
theorem stored_observations_expand (distinct : Function.Injective (sha256 : ByteArray -> Digest))
    (scope : Who -> String × String) (calls : List (Call Who Digest)) (who : Who) :
    let store := (machine.run (start scope : World Who Digest) calls).store who
    (∀ input : Put, store.existing input.dedupKey = none -> input.written = true ->
      (store.put input).1.find? input.observationId = some (store.put input).2 ∧
      (store.put input).2.text = Texts.sanitize Digest input.rawText ∧
      (store.put input).2.lifecycle = .active ∧
      (store.put input).2.rawRef = .blob (store.put input).2.checksum ∧
      (store.put input).1.files (store.put input).2.checksum = some (TextFiles.encode (store.put input).2.text)) ∧
    ∀ (observationId : String) (record : Record Digest) (checksum : Digest) (now : ℚ),
      store.find? observationId = some record -> record.rawRef = .blob checksum ->
      (store.files checksum = some (TextFiles.encode record.text) ->
        (store.expand observationId now = (record.text, store) <-> '\r' ∉ record.text.toList)) ∧
      (store.files checksum ≠ some (TextFiles.encode record.text) -> record.lifecycle = .active ->
        (store.Refuses observationId now <->
          ∃ read,
            ObservationStore.readBlob store.files checksum = some read ∧ read ≠ record.text)) := by
  intro store
  have sound : store.Sound := (sound_run scope calls).sessions who
  refine ⟨fun input new written => ObservationStore.put_created distinct input new written, ?_⟩
  intro observationId record checksum now found blob
  exact ⟨fun unmodified => ObservationStore.expand_unmodified distinct sound found blob now unmodified,
    fun _ active => ObservationStore.expand_modified distinct sound found blob now active⟩

end Records

/-- The digest of bytes is the bytes themselves, and nothing is redacted. -/
@[reducible] def plainTexts : Texts ByteArray := ⟨id, id⟩

/-- The output of a tool with the line ends of another system. -/
def crlf : Put := ⟨"key", "ok\r\n", "", [], "1", 0, true⟩

/-- Another line end, which reads as the same text. -/
def lf : Put := ⟨"key", "ok\n", "", [], "1", 0, true⟩

section Examples

attribute [local instance] plainTexts TextFiles.bytesEqual

def afterCalls (calls : List (Call Unit ByteArray)) : ObservationStore ByteArray :=
  (machine.run (start fun _ : Unit => ("w", "s")) calls).store ()

/-- A text with line feeds only is returned. -/
theorem line_feeds_expand : (afterCalls [.put () lf]).expand "OBS-1" 1 = ("ok\n", afterCalls [.put () lf]) := by
  have found : (afterCalls [.put () lf]).find? "OBS-1" =
      some (((start (fun _ : Unit => ("w", "s")) : World Unit ByteArray).store ()).put lf).2 := by decide +kernel
  have expands := ((stored_observations_expand (fun _ _ same => same) (fun _ : Unit => ("w", "s"))
    [Call.put () lf] ()).2 "OBS-1" _ _ 1 found rfl).1 (by decide +kernel)
  exact expands.mpr (by decide +kernel)

/-- The text of an unmodified blob is not returned, and a blob whose line ends
were changed is not refused. -/
theorem line_ends_change :
    (((afterCalls [.put () crlf]).find? "OBS-1").map Record.text = some "ok\r\n" ∧
      (afterCalls [.put () crlf]).files (TextFiles.encode "ok\r\n") = some (TextFiles.encode "ok\r\n") ∧
      ((afterCalls [.put () crlf]).expand "OBS-1" 1).1 = "" ∧
      (((afterCalls [.put () crlf]).expand "OBS-1" 1).2.find? "OBS-1").map Record.lifecycle = some .stale) ∧
    ((afterCalls [.put () lf, .tamper (TextFiles.encode "ok\n") (some (TextFiles.encode "ok\r\n"))]).files
        (TextFiles.encode "ok\n") = some (TextFiles.encode "ok\r\n") ∧
      ((afterCalls [.put () lf, .tamper (TextFiles.encode "ok\n") (some (TextFiles.encode "ok\r\n"))]).expand
        "OBS-1" 1).1 = "ok\n") := by
  refine ⟨⟨?_, ?_, ?_, ?_⟩, ?_, ?_⟩
  · decide +kernel
  · decide +kernel
  · decide +kernel
  · decide +kernel
  · decide +kernel
  · decide +kernel

end Examples

end Observations
end FixLoop
