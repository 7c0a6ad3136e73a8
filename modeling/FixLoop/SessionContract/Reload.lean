import FixLoop.Library.JsonFields

namespace FixLoop
namespace SessionContract

open Library

/-!
# Checkpoint envelopes

An envelope is sealed with the hash of its other fields.  Reading one back
replaces what is missing or counts as false by defaults and converts the rest
to the types of the fields.
-/

def checkpointEnvelopeVersion : String := "3.0"

structure CheckpointEnvelope where
  checkpointId : String
  sequence : Int
  trigger : String
  safePoint : String
  identity : List (Key × Value)
  runtimeControl : List (Key × Value) := []
  taskState : List (Key × Value) := []
  contextManifest : List (Key × Value) := []
  workspaceManifest : List (Key × Value) := []
  actionLedger : List Value := []
  sideEffects : List Value := []
  observationManifest : List Value := []
  terminalStatus : String := "running"
  parentCheckpointId : String := ""
  createdAt : ℚ
  committedAt : ℚ := 0
  schemaVersion : String := checkpointEnvelopeVersion
  checksum : String := ""

namespace CheckpointEnvelope

def payloadForIntegrity (env : CheckpointEnvelope) : List (Key × Value) :=
  [(.str "checkpoint_id", .str env.checkpointId),
    (.str "sequence", .int env.sequence),
    (.str "trigger", .str env.trigger),
    (.str "safe_point", .str env.safePoint),
    (.str "identity", .dict env.identity),
    (.str "runtime_control", .dict env.runtimeControl),
    (.str "task_state", .dict env.taskState),
    (.str "context_manifest", .dict env.contextManifest),
    (.str "workspace_manifest", .dict env.workspaceManifest),
    (.str "action_ledger", .list env.actionLedger),
    (.str "side_effects", .list env.sideEffects),
    (.str "observation_manifest", .list env.observationManifest),
    (.str "terminal_status", .str env.terminalStatus),
    (.str "parent_checkpoint_id", .str env.parentCheckpointId),
    (.str "created_at", .float env.createdAt),
    (.str "committed_at", .float env.committedAt),
    (.str "schema_version", .str env.schemaVersion)]

def toDict (env : CheckpointEnvelope) : List (Key × Value) :=
  env.payloadForIntegrity ++ [(.str "checksum", .str env.checksum)]

section Sealing

variable [Hashing] (spell : ℚ -> String)

/-- `_stable_hash`; keys that cannot be sorted are a `TypeError`. -/
def stableHash (value : Value) : Option String := (value.dumps spell).map Hashing.digest

/-- The envelope with the time at which it is committed. -/
def stamped (env : CheckpointEnvelope) (now : ℚ) : CheckpointEnvelope :=
  { env with committedAt := if env.committedAt = 0 then now else env.committedAt }

/-- `seal`, at a time. -/
def sealAt (env : CheckpointEnvelope) (now : ℚ) : Option CheckpointEnvelope :=
  (stableHash spell (.dict (env.stamped now).payloadForIntegrity)).map
    (fun checksum => { env.stamped now with checksum })

def verify (env : CheckpointEnvelope) : Option Bool :=
  if env.checksum = "" then some false
  else (stableHash spell (.dict env.payloadForIntegrity)).map fun digest => decide (env.checksum = digest)

end Sealing

section Reading

variable [Builtins] (raw : List (Key × Value))

/-- `str(data.get(key) or default)`. -/
def textOr (key default : String) : String := ((Value.given (Value.get? raw key)).map Value.toStr).getD default

/-- `dict(data.get(key) or {})`. -/
def dictOf (key : String) : Except CoercionError (List (Key × Value)) :=
  ((Value.given (Value.get? raw key)).map Value.toDict).getD (.ok [])

/-- `list(data.get(key) or [])`. -/
def listOf (key : String) : Except CoercionError (List Value) :=
  ((Value.given (Value.get? raw key)).map Value.toList).getD (.ok [])

def floatOr (key : String) (default : ℚ) : Except CoercionError ℚ :=
  ((Value.given (Value.get? raw key)).map Value.toFloat).getD (.ok default)

/-- The version of the dictionary is the current one. -/
def current : Bool :=
  match Value.get? raw "schema_version" with
  | some (.str version) => version == checkpointEnvelopeVersion
  | _ => false

/-- `from_dict`, with a fresh identifier and at a time. -/
def fromDict (fresh : String) (now : ℚ) : Except CoercionError CheckpointEnvelope := do
  if current raw = false then throw (.value "unsupported_checkpoint_envelope_version")
  let sequence <- ((Value.given (Value.get? raw "sequence")).map Value.toInt).getD (.ok 0)
  let identity <- dictOf raw "identity"
  let runtimeControl <- dictOf raw "runtime_control"
  let taskState <- dictOf raw "task_state"
  let contextManifest <- dictOf raw "context_manifest"
  let workspaceManifest <- dictOf raw "workspace_manifest"
  let actionLedger <- listOf raw "action_ledger"
  let sideEffects <- listOf raw "side_effects"
  let observationManifest <- listOf raw "observation_manifest"
  let createdAt <- floatOr raw "created_at" now
  let committedAt <- floatOr raw "committed_at" 0
  return {
    checkpointId := textOr raw "checkpoint_id" ("cp-" ++ fresh)
    sequence
    trigger := textOr raw "trigger" "ask_end"
    safePoint := textOr raw "safe_point" "full_session"
    identity
    runtimeControl
    taskState
    contextManifest
    workspaceManifest
    actionLedger
    sideEffects
    observationManifest
    terminalStatus := textOr raw "terminal_status" "running"
    parentCheckpointId := textOr raw "parent_checkpoint_id" ""
    createdAt
    committedAt
    schemaVersion := textOr raw "schema_version" checkpointEnvelopeVersion
    checksum := textOr raw "checksum" "" }

end Reading

end CheckpointEnvelope

/-!
# Reloading a sealed envelope

What a sealed envelope is read back as, and which dictionaries pass for it.
-/

namespace CheckpointEnvelope

/-! ## Envelopes of decoded values -/

/-- The dictionary holds decoded values, its members in the order of the
keys. -/
def DecodedDict (members : List (Key × Value)) : Prop :=
  ∃ trees, members = Json.membersToValue trees ∧ (Json.obj trees).Ordered

def DecodedList (items : List Value) : Prop :=
  ∃ trees, items = Json.itemsToValue trees ∧ Json.itemsOrdered trees

/-- The free-form fields hold JSON values with texts as keys. -/
structure Representable (env : CheckpointEnvelope) : Prop where
  identity : DecodedDict env.identity
  runtimeControl : DecodedDict env.runtimeControl
  taskState : DecodedDict env.taskState
  contextManifest : DecodedDict env.contextManifest
  workspaceManifest : DecodedDict env.workspaceManifest
  actionLedger : DecodedList env.actionLedger
  sideEffects : DecodedList env.sideEffects
  observationManifest : DecodedList env.observationManifest

/-- No field has a value that `from_dict` refuses or replaces by a default. -/
structure Settled (env : CheckpointEnvelope) : Prop where
  schemaVersion : env.schemaVersion = checkpointEnvelopeVersion
  checkpointId : env.checkpointId ≠ ""
  trigger : env.trigger ≠ ""
  safePoint : env.safePoint ≠ ""
  terminalStatus : env.terminalStatus ≠ ""
  createdAt : env.createdAt ≠ 0

/-- The value is encoded, and written and read back it is the same. -/
structure Survives (spell : ℚ -> String) (value : Value) : Prop where
  encoded : (value.dumps spell).isSome = true
  reloaded : ((value.write spell).loads).toValue = value

variable {spell : ℚ -> String}

theorem survives_toValue (tree : Json) (ordered : tree.Ordered) : Survives spell tree.toValue where
  encoded := by rw [Json.dumps_toValue spell tree ordered]; rfl
  reloaded := by rw [Json.write_toValue, Json.loads_ordered tree ordered]

theorem DecodedDict.survives {members : List (Key × Value)} (decoded : DecodedDict members) :
    Survives spell (.dict members) := by
  obtain ⟨trees, rfl, ordered⟩ := decoded
  exact survives_toValue (.obj trees) ordered

theorem DecodedList.survives {items : List Value} (decoded : DecodedList items) : Survives spell (.list items) := by
  obtain ⟨trees, rfl, ordered⟩ := decoded
  exact survives_toValue (.arr trees) ordered

theorem survives_str (text : String) : Survives spell (.str text) := survives_toValue (.str text) True.intro

theorem survives_int (number : Int) : Survives spell (.int number) := survives_toValue (.int number) True.intro

theorem survives_float (number : ℚ) : Survives spell (.float number) :=
  survives_toValue (.float number) True.intro

variable {env : CheckpointEnvelope}

/-- Every field of a representable envelope is written and read back. -/
theorem Representable.survives (representable : env.Representable) :
    ∀ member ∈ env.toDict, Survives spell member.2 := by
  simp only [toDict, payloadForIntegrity, List.cons_append, List.nil_append, List.forall_mem_cons]
  exact ⟨survives_str _, survives_int _, survives_str _, survives_str _, representable.identity.survives,
    representable.runtimeControl.survives, representable.taskState.survives, representable.contextManifest.survives,
    representable.workspaceManifest.survives, representable.actionLedger.survives, representable.sideEffects.survives,
    representable.observationManifest.survives, survives_str _, survives_str _, survives_float _, survives_float _,
    survives_str _, survives_str _, fun _ member => absurd member List.not_mem_nil⟩

theorem text_toDict (env : CheckpointEnvelope) : env.toDict.map (fun member => member.1.text spell) =
    ["checkpoint_id", "sequence", "trigger", "safe_point", "identity", "runtime_control", "task_state",
      "context_manifest", "workspace_manifest", "action_ledger", "side_effects", "observation_manifest",
      "terminal_status", "parent_checkpoint_id", "created_at", "committed_at", "schema_version", "checksum"] := rfl

theorem distinct_toDict (env : CheckpointEnvelope) : (env.toDict.map fun member => member.1.text spell).Nodup := by
  rw [text_toDict]
  decide

theorem distinct_payload (env : CheckpointEnvelope) :
    (env.payloadForIntegrity.map fun member => member.1.text spell).Nodup := by
  have whole := @distinct_toDict spell env
  rw [toDict, List.map_append] at whole
  exact (List.nodup_append.mp whole).1

/-! ## Reading a written envelope -/

/-- What is found in the dictionary that is read back. -/
theorem get?_toDict (representable : env.Representable) {key : String} {value : Value}
    (listed : (Key.str key, value) ∈ env.toDict) :
    Value.get? (Value.reloaded spell env.toDict) key = some value := by
  rw [get?_reloaded spell (distinct_toDict env) listed, (representable.survives _ listed).reloaded]

section Fields

variable [Builtins] {raw : List (Key × Value)}

variable {key : String}

theorem textOr_of_get {text : String} (found : Value.get? raw key = some (.str text)) (default : String) :
    textOr raw key default = if text = "" then default else text := by
  rw [textOr, found, Value.given]
  by_cases empty : text = ""
  · rw [if_neg (by simp [Value.truthy, empty]), if_pos empty]
    rfl
  · rw [if_pos (by simp [Value.truthy, empty]), if_neg empty]
    rfl

omit [Builtins] in
theorem dictOf_of_get {members : List (Key × Value)} (found : Value.get? raw key = some (.dict members)) :
    dictOf raw key = .ok members := by
  rw [dictOf, found, Value.given]
  cases members with
  | nil => rfl
  | cons member rest => rfl

omit [Builtins] in
theorem listOf_of_get {items : List Value} (found : Value.get? raw key = some (.list items)) :
    listOf raw key = .ok items := by
  rw [listOf, found, Value.given]
  cases items with
  | nil => rfl
  | cons item rest => rfl

theorem floatOr_of_get {number : ℚ} (found : Value.get? raw key = some (.float number)) (default : ℚ) :
    floatOr raw key default = .ok (if number = 0 then default else number) := by
  rw [floatOr, found, Value.given]
  by_cases zero : number = 0
  · rw [if_neg (by simp [Value.truthy, zero]), if_pos zero]
    rfl
  · rw [if_pos (by simp [Value.truthy, zero]), if_neg zero]
    rfl

end Fields

/-- The envelope with defaults in place of empty texts and of a time that is
zero. -/
def defaulted (env : CheckpointEnvelope) (fresh : String) (now : ℚ) : CheckpointEnvelope :=
  { env with
    checkpointId := if env.checkpointId = "" then "cp-" ++ fresh else env.checkpointId
    trigger := if env.trigger = "" then "ask_end" else env.trigger
    safePoint := if env.safePoint = "" then "full_session" else env.safePoint
    terminalStatus := if env.terminalStatus = "" then "running" else env.terminalStatus
    createdAt := if env.createdAt = 0 then now else env.createdAt }

theorem Settled.defaulted (settled : env.Settled) (fresh : String) (now : ℚ) :
    env.defaulted fresh now = env := by
  rw [CheckpointEnvelope.defaulted, if_neg settled.checkpointId, if_neg settled.trigger, if_neg settled.safePoint,
    if_neg settled.terminalStatus, if_neg settled.createdAt]

/-- What a dictionary with the fields of an envelope is read as, whatever is
made of its sequence. -/
theorem fromDict_of_found [Builtins] {raw : List (Key × Value)}
    (found : ∀ {key : String} {value : Value}, (Key.str key, value) ∈ env.toDict -> key ≠ "sequence" -> Value.get? raw key = some value)
    (sequence : ((Value.given (Value.get? raw "sequence")).map Value.toInt).getD (.ok 0) = .ok env.sequence)
    (version : env.schemaVersion = checkpointEnvelopeVersion) (fresh : String) (now : ℚ) :
    fromDict raw fresh now = .ok (env.defaulted fresh now) := by
  have field : ∀ {key : String} {value : Value} (index : Nat), env.toDict[index]? = some (Key.str key, value) ->
      key ≠ "sequence" -> Value.get? raw key = some value :=
    fun index listed apart => found (List.mem_of_getElem? listed) apart
  have isCurrent : current raw = true := by
    rw [current, field 16 rfl (by decide)]
    exact beq_iff_eq.mpr version
  have parent : (if env.parentCheckpointId = "" then "" else env.parentCheckpointId) = env.parentCheckpointId := by
    by_cases empty : env.parentCheckpointId = "" <;> simp [empty]
  have checksum : (if env.checksum = "" then "" else env.checksum) = env.checksum := by
    by_cases empty : env.checksum = "" <;> simp [empty]
  have committed : (if env.committedAt = 0 then 0 else env.committedAt) = env.committedAt := by
    by_cases zero : env.committedAt = 0 <;> simp [zero]
  have schema : (if env.schemaVersion = "" then checkpointEnvelopeVersion else env.schemaVersion) = env.schemaVersion := by
    rw [version]
    decide
  rw [fromDict, if_neg (by rw [isCurrent]; decide), sequence,
    dictOf_of_get (field 4 rfl (by decide)),
    dictOf_of_get (field 5 rfl (by decide)),
    dictOf_of_get (field 6 rfl (by decide)),
    dictOf_of_get (field 7 rfl (by decide)),
    dictOf_of_get (field 8 rfl (by decide)),
    listOf_of_get (field 9 rfl (by decide)),
    listOf_of_get (field 10 rfl (by decide)),
    listOf_of_get (field 11 rfl (by decide)),
    floatOr_of_get (field 14 rfl (by decide)),
    floatOr_of_get (field 15 rfl (by decide)), committed,
    textOr_of_get (field 0 rfl (by decide)),
    textOr_of_get (field 2 rfl (by decide)),
    textOr_of_get (field 3 rfl (by decide)),
    textOr_of_get (field 12 rfl (by decide)),
    textOr_of_get (field 13 rfl (by decide)), parent,
    textOr_of_get (field 16 rfl (by decide)), schema,
    textOr_of_get (field 17 rfl (by decide)), checksum]
  rfl

/-- What a written envelope is read back as. -/
theorem fromDict_reloaded [Builtins] {env : CheckpointEnvelope} (representable : env.Representable)
    (version : env.schemaVersion = checkpointEnvelopeVersion) (fresh : String) (now : ℚ) :
    fromDict (Value.reloaded spell env.toDict) fresh now = .ok (env.defaulted fresh now) := by
  apply fromDict_of_found _ _ version
  · exact fun listed _ => get?_toDict representable listed
  · rw [get?_toDict representable (List.mem_of_getElem? (i := 1) rfl), Value.given]
    by_cases zero : env.sequence = 0 <;> simp [Value.truthy, Value.toInt, zero]

/-! ## Sealing -/

theorem dumps_payload {env : CheckpointEnvelope} (representable : env.Representable) :
    ((Value.dict env.payloadForIntegrity).dumps spell).isSome = true := by
  apply dumps_dict_isSome
  intro member listed
  refine ⟨?_, (representable.survives member (List.mem_append_left _ listed)).encoded⟩
  revert member
  simp only [payloadForIntegrity, List.forall_mem_cons]
  exact ⟨rfl, rfl, rfl, rfl, rfl, rfl, rfl, rfl, rfl, rfl, rfl, rfl, rfl, rfl, rfl, rfl, rfl,
    fun _ member => absurd member List.not_mem_nil⟩

theorem str_of_dumps {first second : String}
    (same : (Value.str first).dumps spell = (Value.str second).dumps spell) : first = second := by
  simpa [Value.dumps] using same

theorem float_of_dumps {first second : ℚ}
    (same : (Value.float first).dumps spell = (Value.float second).dumps spell) : first = second := by
  simpa [Value.dumps] using same

section Sealing

variable [Hashing]

theorem sealAt_eq_some {env sealed : CheckpointEnvelope} {now : ℚ} (success : env.sealAt spell now = some sealed) :
    ∃ tree, (Value.dict sealed.payloadForIntegrity).dumps spell = some tree ∧
      sealed = { env.stamped now with checksum := Hashing.digest tree } := by
  obtain ⟨checksum, hashed, rfl⟩ := Option.map_eq_some_iff.mp success
  obtain ⟨tree, encoded, rfl⟩ := Option.map_eq_some_iff.mp hashed
  exact ⟨tree, encoded, rfl⟩

theorem verify_sealed {env sealed : CheckpointEnvelope} {now : ℚ} (success : env.sealAt spell now = some sealed) :
    sealed.verify spell = some true := by
  obtain ⟨tree, encoded, same⟩ := sealAt_eq_some success
  have checksum : sealed.checksum = Hashing.digest tree := by rw [same]
  rw [verify, if_neg (checksum ▸ Hashing.digest_ne_empty tree), stableHash, encoded]
  simp [checksum]

theorem Representable.sealAt {env : CheckpointEnvelope} (representable : env.Representable) (now : ℚ) :
    ∃ sealed, env.sealAt spell now = some sealed := by
  have stamped : (env.stamped now).Representable :=
    { identity := representable.identity
      runtimeControl := representable.runtimeControl
      taskState := representable.taskState
      contextManifest := representable.contextManifest
      workspaceManifest := representable.workspaceManifest
      actionLedger := representable.actionLedger
      sideEffects := representable.sideEffects
      observationManifest := representable.observationManifest }
  obtain ⟨tree, encoded⟩ := Option.isSome_iff_exists.mp (@dumps_payload spell _ stamped)
  exact ⟨_, by rw [CheckpointEnvelope.sealAt, stableHash, encoded]; rfl⟩

/-! ## Dictionaries that pass -/

/-- Every field is written as the same text. -/
structure SameText (spell : ℚ -> String) (first second : CheckpointEnvelope) : Prop where
  checkpointId : first.checkpointId = second.checkpointId
  sequence : first.sequence = second.sequence
  trigger : first.trigger = second.trigger
  safePoint : first.safePoint = second.safePoint
  identity : (Value.dict first.identity).dumps spell = (Value.dict second.identity).dumps spell
  runtimeControl : (Value.dict first.runtimeControl).dumps spell = (Value.dict second.runtimeControl).dumps spell
  taskState : (Value.dict first.taskState).dumps spell = (Value.dict second.taskState).dumps spell
  contextManifest : (Value.dict first.contextManifest).dumps spell = (Value.dict second.contextManifest).dumps spell
  workspaceManifest :
    (Value.dict first.workspaceManifest).dumps spell = (Value.dict second.workspaceManifest).dumps spell
  actionLedger : (Value.list first.actionLedger).dumps spell = (Value.list second.actionLedger).dumps spell
  sideEffects : (Value.list first.sideEffects).dumps spell = (Value.list second.sideEffects).dumps spell
  observationManifest :
    (Value.list first.observationManifest).dumps spell = (Value.list second.observationManifest).dumps spell
  terminalStatus : first.terminalStatus = second.terminalStatus
  parentCheckpointId : first.parentCheckpointId = second.parentCheckpointId
  createdAt : first.createdAt = second.createdAt
  committedAt : first.committedAt = second.committedAt
  schemaVersion : first.schemaVersion = second.schemaVersion
  checksum : first.checksum = second.checksum

/-- Envelopes that verify with one checksum have the same fields, unless two
texts have one digest. -/
theorem sameText_of_verify (injective : Function.Injective (Hashing.digest : Json -> String))
    {first second : CheckpointEnvelope} (firstVerifies : first.verify spell = some true)
    (secondVerifies : second.verify spell = some true) (checksum : first.checksum = second.checksum) :
    SameText spell first second := by
  have hashed : ∀ {env : CheckpointEnvelope}, env.verify spell = some true -> ∃ tree,
      (Value.dict env.payloadForIntegrity).dumps spell = some tree ∧ env.checksum = Hashing.digest tree := by
    intro env verifies
    unfold verify at verifies
    split_ifs at verifies with empty
    · cases verifies
    obtain ⟨digest, hashed, same⟩ := Option.map_eq_some_iff.mp verifies
    obtain ⟨tree, encoded, rfl⟩ := Option.map_eq_some_iff.mp hashed
    exact ⟨tree, encoded, of_decide_eq_true same⟩
  obtain ⟨tree, firstEncoded, firstSum⟩ := hashed firstVerifies
  obtain ⟨other, secondEncoded, secondSum⟩ := hashed secondVerifies
  have same : tree = other := injective (by rw [← firstSum, ← secondSum, checksum])
  subst same
  have text : ∀ {key : Key} {value other : Value}, (key, value) ∈ first.payloadForIntegrity ->
      (key, other) ∈ second.payloadForIntegrity -> value.dumps spell = other.dumps spell :=
    fun here there => dumps_member_eq (distinct_payload first) firstEncoded secondEncoded here there
  exact
    { checkpointId := str_of_dumps (text (List.mem_of_getElem? (i := 0) rfl) (List.mem_of_getElem? (i := 0) rfl))
      sequence := by
        have equal := text (List.mem_of_getElem? (l := first.payloadForIntegrity) (i := 1) rfl)
          (List.mem_of_getElem? (l := second.payloadForIntegrity) (i := 1) rfl)
        simpa [Value.dumps] using equal
      trigger := str_of_dumps (text (List.mem_of_getElem? (i := 2) rfl) (List.mem_of_getElem? (i := 2) rfl))
      safePoint := str_of_dumps (text (List.mem_of_getElem? (i := 3) rfl) (List.mem_of_getElem? (i := 3) rfl))
      identity := text (List.mem_of_getElem? (i := 4) rfl) (List.mem_of_getElem? (i := 4) rfl)
      runtimeControl := text (List.mem_of_getElem? (i := 5) rfl) (List.mem_of_getElem? (i := 5) rfl)
      taskState := text (List.mem_of_getElem? (i := 6) rfl) (List.mem_of_getElem? (i := 6) rfl)
      contextManifest := text (List.mem_of_getElem? (i := 7) rfl) (List.mem_of_getElem? (i := 7) rfl)
      workspaceManifest := text (List.mem_of_getElem? (i := 8) rfl) (List.mem_of_getElem? (i := 8) rfl)
      actionLedger := text (List.mem_of_getElem? (i := 9) rfl) (List.mem_of_getElem? (i := 9) rfl)
      sideEffects := text (List.mem_of_getElem? (i := 10) rfl) (List.mem_of_getElem? (i := 10) rfl)
      observationManifest := text (List.mem_of_getElem? (i := 11) rfl) (List.mem_of_getElem? (i := 11) rfl)
      terminalStatus := str_of_dumps (text (List.mem_of_getElem? (i := 12) rfl) (List.mem_of_getElem? (i := 12) rfl))
      parentCheckpointId :=
        str_of_dumps (text (List.mem_of_getElem? (i := 13) rfl) (List.mem_of_getElem? (i := 13) rfl))
      createdAt := float_of_dumps (text (List.mem_of_getElem? (i := 14) rfl) (List.mem_of_getElem? (i := 14) rfl))
      committedAt := float_of_dumps (text (List.mem_of_getElem? (i := 15) rfl) (List.mem_of_getElem? (i := 15) rfl))
      schemaVersion := str_of_dumps (text (List.mem_of_getElem? (i := 16) rfl) (List.mem_of_getElem? (i := 16) rfl))
      checksum }

/-- A settled envelope of JSON values is reloaded as it was sealed and then
verifies; a dictionary that passes for it is read as the same fields. -/
theorem sealed_reload [Builtins] (env : CheckpointEnvelope) (now : ℚ) (representable : env.Representable)
    (settled : env.Settled) : ∃ sealed, env.sealAt spell now = some sealed ∧
      (∀ fresh later, fromDict (Value.reloaded spell sealed.toDict) fresh later = .ok sealed) ∧
      sealed.verify spell = some true ∧
      (Function.Injective (Hashing.digest : Json -> String) -> ∀ raw fresh later read,
        fromDict raw fresh later = .ok read -> read.verify spell = some true -> read.checksum = sealed.checksum ->
          SameText spell read sealed) := by
  obtain ⟨sealed, success⟩ := @Representable.sealAt spell _ _ representable now
  have verifies := verify_sealed success
  obtain ⟨tree, -, same⟩ := sealAt_eq_some success
  have sealedRepresentable : sealed.Representable := by
    subst same
    exact
      { identity := representable.identity
        runtimeControl := representable.runtimeControl
        taskState := representable.taskState
        contextManifest := representable.contextManifest
        workspaceManifest := representable.workspaceManifest
        actionLedger := representable.actionLedger
        sideEffects := representable.sideEffects
        observationManifest := representable.observationManifest }
  have sealedSettled : sealed.Settled := by
    subst same
    exact
      { schemaVersion := settled.schemaVersion
        checkpointId := settled.checkpointId
        trigger := settled.trigger
        safePoint := settled.safePoint
        terminalStatus := settled.terminalStatus
        createdAt := settled.createdAt }
  refine ⟨sealed, success, ?_, verifies, ?_⟩
  · intro fresh later
    rw [fromDict_reloaded sealedRepresentable sealedSettled.schemaVersion, sealedSettled.defaulted]
  · intro injective raw fresh later read _ readVerifies checksum
    exact sameText_of_verify injective readVerifies verifies checksum

end Sealing

theorem decodedDict_nil : DecodedDict [] := ⟨[], rfl, List.Pairwise.nil, True.intro⟩

theorem decodedList_nil : DecodedList [] := ⟨[], rfl, True.intro⟩

/-- An envelope without free-form data. -/
def plain (trigger : String) : CheckpointEnvelope :=
  { checkpointId := "cp-1", sequence := 1, trigger, safePoint := "full_session", identity := [], createdAt := 1 }

theorem plain_representable (trigger : String) : (plain trigger).Representable where
  identity := decodedDict_nil
  runtimeControl := decodedDict_nil
  taskState := decodedDict_nil
  contextManifest := decodedDict_nil
  workspaceManifest := decodedDict_nil
  actionLedger := decodedList_nil
  sideEffects := decodedList_nil
  observationManifest := decodedList_nil

/-- Constructors that refuse every text. -/
@[reducible] def refusing : Builtins := ⟨fun _ => "", fun _ => none, fun _ => none⟩

theorem sealed_reload_plain : ∃ sealed,
    @sealAt Hashing.constant (fun _ => "") (plain "ask_end") 2 = some sealed ∧
      (∀ fresh later, @fromDict refusing (Value.reloaded (fun _ => "") sealed.toDict) fresh later = .ok sealed) ∧
      @verify Hashing.constant (fun _ => "") sealed = some true := by
  obtain ⟨sealed, success, reloaded, verifies, -⟩ := @sealed_reload (fun _ => "") Hashing.constant refusing
    (plain "ask_end") 2 (plain_representable _)
    { schemaVersion := rfl
      checkpointId := by decide
      trigger := by decide
      safePoint := by decide
      terminalStatus := by decide
      createdAt := by decide }
  exact ⟨sealed, success, reloaded, verifies⟩

/-- An envelope that was sealed with an empty trigger comes back with another
one. -/
theorem empty_trigger_replaced : ¬ ∀ (spell : ℚ -> String) (_hashing : Hashing) (_builtins : Builtins)
    (env : CheckpointEnvelope) (now : ℚ), env.Representable -> ∃ sealed, env.sealAt spell now = some sealed ∧
      ∀ fresh later, ∃ read,
        fromDict (Value.reloaded spell sealed.toDict) fresh later = .ok read ∧ read = sealed ∧
          read.verify spell = some true := by
  intro always
  obtain ⟨sealed, success, reloads⟩ :=
    always (fun _ => "") Hashing.constant refusing (plain "") 2 (plain_representable "")
  obtain ⟨tree, -, rfl⟩ := @sealAt_eq_some _ Hashing.constant _ _ _ success
  obtain ⟨read, returned, same, -⟩ := reloads "" 0
  have sealedRepresentable : ({ (plain "").stamped 2 with checksum := @Hashing.digest Hashing.constant tree } :
      CheckpointEnvelope).Representable := { plain_representable "" with }
  have reloaded := @fromDict_reloaded (fun _ => "") refusing _ sealedRepresentable rfl "" 0
  have defaultedIs := Except.ok.inj (returned.symm.trans reloaded)
  have replaced : "ask_end" = "" := congrArg trigger (defaultedIs.symm.trans same)
  exact absurd replaced (by decide)

end CheckpointEnvelope

end SessionContract
end FixLoop
