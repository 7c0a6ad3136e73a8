import Mathlib.Algebra.Order.Ring.Unbundled.Rat
import Mathlib.Data.List.Sort
import FixLoop.Library.Keyed
import FixLoop.Library.Machine
import FixLoop.Library.Strings

namespace FixLoop
namespace Observations

open Library

/-!
# The observation store

Every session keeps its own registry of observations.  The sessions of one
state root share a database of records and a directory of blobs, where a blob
is named by the digest of what it holds.
-/

/-- The digest of bytes, and what `_sanitize` makes of a raw text. -/
class Texts (Digest : Type) where
  sha256 : ByteArray -> Digest
  sanitize : String -> String

export Texts (sha256)

inductive Lifecycle where
  | active
  | stale
  deriving DecidableEq

/-- A reference to the session's own blobs, or to the file `blob-<digest>.txt`. -/
inductive RawRef (Digest : Type) where
  | memory (observationId : String)
  | blob (checksum : Digest)
  deriving DecidableEq

/-- The text is no field of the source: it is what was persisted for the record. -/
structure Record (Digest : Type) where
  observationId : String
  sourceVersion : String
  rawRef : RawRef Digest
  createdAt : ℚ
  stale : Bool
  dedupKey : String
  workspaceId : String
  sessionId : String
  lifecycle : Lifecycle
  dependencies : List String
  supersedes : String
  invalidationReason : String
  invalidatedAt : ℚ
  checksum : Digest
  text : String
  deriving DecidableEq

/-- What a session holds and what it shares with the others. -/
structure ObservationStore (Digest : Type) where
  workspaceId : String
  sessionId : String
  registry : List (Record Digest)
  index : List (String × String)
  blobs : List (String × String)
  files : Digest -> Option ByteArray
  rows : List (Record Digest)

/-- A call of `put`: the key is what `_dedup_key` makes of it, the digits are
drawn for a new record, and the file operations succeed or fail. -/
structure Put where
  dedupKey : String
  rawText : String
  sourceVersion : String
  dependencies : List String
  drawn : String
  now : ℚ
  written : Bool

def Put.observationId (input : Put) : String := "OBS-" ++ input.drawn

namespace ObservationStore

variable {Digest : Type} [DecidableEq Digest] [Texts Digest] (store : ObservationStore Digest)

abbrev find? (observationId : String) : Option (Record Digest) :=
  Keyed.find? Record.observationId observationId store.registry

/-- `SELECT ... WHERE workspace_id = ? AND (session_id = ? OR ? = '')`. -/
def inScope (record : Record Digest) : Bool :=
  decide (record.workspaceId = store.workspaceId) &&
    (decide (record.sessionId = store.sessionId) || decide (store.sessionId = ""))

def load (record : Record Digest) : ObservationStore Digest :=
  if record.observationId ≠ "" ∧ store.find? record.observationId = none then
    { store with
      registry := Keyed.store Record.observationId record store.registry
      index := Keyed.store Prod.fst (record.dedupKey, record.observationId) store.index }
  else store

/-- `ObservationStore(state, root, state_root)`. -/
def opened : ObservationStore Digest :=
  (store.rows.filter store.inScope).foldl (fun loaded record => loaded.load record) store

def persistRecord (record : Record Digest) : ObservationStore Digest :=
  { store with rows := Keyed.store Record.observationId record store.rows }

def persistRaw (observationId rawText : String) (checksum : Digest) (written : Bool) :
    ObservationStore Digest × RawRef Digest :=
  if written then
    if (store.files checksum).map sha256 = some checksum then (store, .blob checksum)
    else
      ({ store with files := Function.update store.files checksum (some (TextFiles.encode rawText)) },
        .blob checksum)
  else
    ({ store with blobs := Keyed.store Prod.fst (observationId, rawText) store.blobs }, .memory observationId)

/-- `self.state["observation_index"].get(key)`. -/
def existingId (dedupKey : String) : Option String :=
  ((Keyed.find? Prod.fst dedupKey store.index).map Prod.snd).filter fun existing => decide (existing ≠ "")

/-- The active record that a call would only repeat. -/
def existing (dedupKey : String) : Option (Record Digest) :=
  ((store.existingId dedupKey).bind store.find?).filter
    (fun record => decide (record.lifecycle = .active) && !record.stale)

def created (input : Put) (rawRef : RawRef Digest) : Record Digest where
  observationId := input.observationId
  sourceVersion := input.sourceVersion
  rawRef := rawRef
  createdAt := input.now
  stale := false
  dedupKey := input.dedupKey
  workspaceId := store.workspaceId
  sessionId := store.sessionId
  lifecycle := .active
  dependencies := input.dependencies
  supersedes := (store.existingId input.dedupKey).getD ""
  invalidationReason := ""
  invalidatedAt := 0
  checksum := sha256 (TextFiles.encode (Texts.sanitize Digest input.rawText))
  text := Texts.sanitize Digest input.rawText

def put (input : Put) : ObservationStore Digest × Record Digest :=
  match store.existing input.dedupKey with
  | some record => (store, record)
  | none =>
    let safeRaw := Texts.sanitize Digest input.rawText
    let resultDigest : Digest := sha256 (TextFiles.encode safeRaw)
    let persisted := store.persistRaw input.observationId safeRaw resultDigest input.written
    let record := store.created input persisted.2
    ({ persisted.1 with
        registry := Keyed.store Record.observationId record persisted.1.registry
        index := Keyed.store Prod.fst (input.dedupKey, input.observationId) persisted.1.index }.persistRecord
      record, record)

/-- The record is active and meets the predicate. -/
def invalidates (predicate : Record Digest -> Bool) (record : Record Digest) : Bool :=
  decide (record.lifecycle = .active) && predicate record

def invalidated (reason : String) (now : ℚ) (record : Record Digest) : Record Digest :=
  { record with stale := true, lifecycle := .stale, invalidationReason := reason, invalidatedAt := now }

def invalidate (predicate : Record Digest -> Bool) (reason : String) (now : ℚ) : ObservationStore Digest :=
  let chosen := store.registry.filter (invalidates predicate)
  { store with
    registry := store.registry.map (fun record =>
      if invalidates predicate record then invalidated reason now record else record)
    rows := (chosen.map (invalidated reason now)).foldl
      (fun rows record => Keyed.store Record.observationId record rows) store.rows }

def markStaleForVersion (sourceVersion : String) (now : ℚ) : ObservationStore Digest :=
  store.invalidate
    (fun record => decide (sourceVersion ≠ "") && decide (record.sourceVersion = sourceVersion))
    "source_version_changed" now

def invalidatePaths (paths : List String) (reason : String) (now : ℚ) : ObservationStore Digest :=
  store.invalidate
    (fun record => paths.any fun path => decide (path ≠ "") && record.dependencies.contains path) reason now

/-- The text of the blob: a file that is missing reads as no text, and a file
that cannot be decoded as a `ValueError`. -/
def readBlob (files : Digest -> Option ByteArray) (checksum : Digest) : Option String :=
  ((files checksum).map TextFiles.readText).getD (some "")

def checked (raw : Record Digest) (now : ℚ) (text : String) : String × ObservationStore Digest :=
  if sha256 (TextFiles.encode text) ≠ raw.checksum then
    ("", store.invalidate (fun item => decide (item.observationId = raw.observationId)) "blob_checksum_mismatch" now)
  else (text, store)

def foreign (record : Record Digest) : Bool :=
  decide (record.workspaceId ≠ "") && decide (store.workspaceId ≠ "") &&
    decide (record.workspaceId ≠ store.workspaceId)

/-- What the reference holds for the record. -/
def heldText (record : Record Digest) : Option String :=
  match record.rawRef with
  | .memory _ => some (((Keyed.find? Prod.fst record.observationId store.blobs).map Prod.snd).getD "")
  | .blob checksum => readBlob store.files checksum

def expand (observationId : String) (now : ℚ) : String × ObservationStore Digest :=
  match store.find? observationId with
  | none => ("", store)
  | some raw =>
    if store.foreign raw then ("", store)
    else
      match store.heldText raw with
      | none => ("", store)
      | some text => store.checked raw now text

/-- `sorted(self.registry.values(), key=...)`, where records of one time keep their order. -/
def candidates : List (Record Digest) :=
  store.registry.insertionSort fun first second => first.createdAt ≤ second.createdAt

def staleOnes : List (Record Digest) :=
  store.candidates.filter fun record => decide (record.lifecycle = .stale)

def excess (maxRecords : ℤ) : Nat := ((store.registry.length : ℤ) - maxRecords).toNat

def removals (maxRecords : ℤ) : List (Record Digest) :=
  store.staleOnes ++
    if (store.registry.length : ℤ) - store.staleOnes.length > maxRecords then
      store.candidates.take (store.excess maxRecords)
    else []

/-- The files without the blob, unless another record of the registry refers to it. -/
def unlink (registry : List (Record Digest)) (rawRef : RawRef Digest) (files : Digest -> Option ByteArray) :
    Digest -> Option ByteArray :=
  match rawRef with
  | .memory _ => files
  | .blob checksum =>
    if registry.any (fun other => decide (other.rawRef = rawRef)) then files
    else Function.update files checksum none

def collect (record : Record Digest) : ObservationStore Digest :=
  if store.find? record.observationId = none then store
  else
    let registry := Keyed.without Record.observationId record.observationId store.registry
    { store with
      registry := registry
      blobs := Keyed.without Prod.fst record.observationId store.blobs
      rows := Keyed.without Record.observationId record.observationId store.rows
      files := unlink registry record.rawRef store.files }

def gc (maxRecords : ℤ) : ObservationStore Digest :=
  (store.removals maxRecords).foldl (fun left record => left.collect record) store

end ObservationStore

/-! ## Sessions of one state root -/

structure Session (Digest : Type) where
  workspaceId : String
  sessionId : String
  registry : List (Record Digest)
  index : List (String × String)
  blobs : List (String × String)

structure World (Who Digest : Type) where
  sessions : Who -> Session Digest
  files : Digest -> Option ByteArray
  rows : List (Record Digest)

/-- Something else may put any content in place of a blob. -/
inductive Call (Who Digest : Type) where
  | openStore (who : Who)
  | put (who : Who) (input : Put)
  | invalidate (who : Who) (predicate : Record Digest -> Bool) (reason : String) (now : ℚ)
  | expand (who : Who) (observationId : String) (now : ℚ)
  | gc (who : Who) (maxRecords : ℤ)
  | tamper (checksum : Digest) (content : Option ByteArray)

section Runs

variable {Who Digest : Type} [DecidableEq Who] [DecidableEq Digest] [Texts Digest]

def World.store (world : World Who Digest) (who : Who) : ObservationStore Digest where
  workspaceId := (world.sessions who).workspaceId
  sessionId := (world.sessions who).sessionId
  registry := (world.sessions who).registry
  index := (world.sessions who).index
  blobs := (world.sessions who).blobs
  files := world.files
  rows := world.rows

def World.written (world : World Who Digest) (who : Who) (store : ObservationStore Digest) : World Who Digest where
  sessions := Function.update world.sessions who
    ⟨store.workspaceId, store.sessionId, store.registry, store.index, store.blobs⟩
  files := store.files
  rows := store.rows

def step (world : World Who Digest) : Call Who Digest -> World Who Digest
  | .openStore who => world.written who (world.store who).opened
  | .put who input => world.written who ((world.store who).put input).1
  | .invalidate who predicate reason now => world.written who ((world.store who).invalidate predicate reason now)
  | .expand who observationId now => world.written who ((world.store who).expand observationId now).2
  | .gc who maxRecords => world.written who ((world.store who).gc maxRecords)
  | .tamper checksum content => { world with files := Function.update world.files checksum content }

def machine : Machine (World Who Digest) (Call Who Digest) := ⟨step⟩

/-- No session has observed anything yet. -/
def start (scope : Who -> String × String) : World Who Digest where
  sessions := fun who => ⟨(scope who).1, (scope who).2, [], [], []⟩
  files := fun _ => none
  rows := []

end Runs

end Observations
end FixLoop
