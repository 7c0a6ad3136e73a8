import Mathlib.Data.List.Nodup
import Mathlib.Data.Rat.Defs
import FixLoop.Library.Machine
import FixLoop.Library.Strings

namespace FixLoop
namespace WorkingMemory

open Library

/-!
# The evidence ledger

Reads and searches are recorded under ids made from the length of the ledger.
The ledger keeps the last ten entries, so every entry from the eleventh on is
recorded under the same id.
-/

def MAX_EVIDENCE_ENTRIES : Nat := 10

structure Evidence (Digest : Type) where
  id : String := ""
  kind : String
  path : String
  pattern : Option String := none
  lines : Option (Int × Int) := none
  contentHash : Digest
  summary : String
  duplicateCount : Nat := 0
  createdAt : ℚ
  lastSeenAt : ℚ
  stale : Bool := false
  status : String := "live"
  confidence : ℚ
  contentExcerpt : String

/-- `working["read_cache"]` is a function of the fingerprint. -/
structure Working (Digest : Type) where
  ledger : List (Evidence Digest) := []
  readCache : Digest -> Option Nat := fun _ => none
  evidenceRefs : List String := []

structure Recorded (Digest : Type) where
  duplicate : Bool
  entry : Evidence Digest

/-- `record_read_evidence` and `record_search_evidence`. -/
inductive Recording where
  | read (path : String) (start stop : Int) (text : String)
  | search (pattern path text : String)

inductive Call where
  | record (recording : Recording)
  | invalidateFileSummary (path : String)

/-- `int(line or 1)`. -/
def orOne (line : Int) : Int := if line = 0 then 1 else line

def entryId (number : Nat) : String := "E" ++ toString number

section

variable {Digest : Type}

namespace Evidence

variable (now : ℚ) (entry : Evidence Digest)

def seen : Evidence Digest := { entry with duplicateCount := entry.duplicateCount + 1, lastSeenAt := now }

def invalidated (path : String) : Evidence Digest :=
  if entry.path = path then { entry with stale := true, status := "stale", lastSeenAt := now } else entry

/-- What is never changed in an entry. -/
def original : Evidence Digest :=
  { entry with duplicateCount := 0, lastSeenAt := 0, stale := false, status := "" }

@[simp] theorem seen_original : (entry.seen now).original = entry.original := rfl

@[simp] theorem invalidated_original (path : String) : (entry.invalidated now path).original = entry.original := by
  unfold invalidated
  split <;> rfl

end Evidence

theorem Evidence.id_of_original {first second : Evidence Digest} (same : first.original = second.original) :
    first.id = second.id := by
  have ids := congrArg Evidence.id same
  exact ids

variable [DecidableEq Digest]

def lastPlace (fp : Digest) : List (Evidence Digest) -> Option Nat
  | [] => none
  | entry :: rest =>
    match lastPlace fp rest with
    | some place => some (place + 1)
    | none => if entry.contentHash = fp then some 0 else none

namespace Working

/-- `_trim_evidence_ledger`. -/
def trim (working : Working Digest) : Working Digest :=
  if working.ledger.length ≤ MAX_EVIDENCE_ENTRIES then working
  else
    let kept := working.ledger.drop (working.ledger.length - MAX_EVIDENCE_ENTRIES)
    { working with ledger := kept, readCache := fun fp => lastPlace fp kept }

/-- The place and the entry that the cache has for a fingerprint. -/
def known (working : Working Digest) (fp : Digest) : Option (Nat × Evidence Digest) :=
  (working.readCache fp).bind fun idx => (working.ledger[idx]?).map fun entry => (idx, entry)

def numbered (working : Working Digest) (entry : Evidence Digest) : Evidence Digest :=
  { entry with id := entryId (working.ledger.length + 1) }

/-- The part that both recordings share; the entry comes without its id. -/
def record (now : ℚ) (entry : Evidence Digest) (working : Working Digest) : Working Digest × Recorded Digest :=
  match working.known entry.contentHash with
  | some (idx, found) =>
    ({ working with ledger := working.ledger.modify idx (Evidence.seen now) }, ⟨true, found.seen now⟩)
  | none =>
    (trim { ledger := working.ledger ++ [working.numbered entry]
            readCache := Function.update working.readCache entry.contentHash (some working.ledger.length)
            evidenceRefs := working.evidenceRefs ++ [(working.numbered entry).id] },
      ⟨false, working.numbered entry⟩)

def invalidateFileSummary (now : ℚ) (path : String) (working : Working Digest) : Working Digest where
  ledger := working.ledger.map (fun entry => entry.invalidated now path)
  readCache := fun fp => (working.readCache fp).filter (fun idx =>
    decide ((working.ledger[idx]?).map Evidence.path ≠ some path))
  evidenceRefs := working.evidenceRefs

end Working

/-- `expand_evidence`: the content; none where nothing is found. -/
def expandEvidence (ledger : List (Evidence Digest)) (refId : String) (maxChars : Nat) : Option String :=
  (ledger.find? fun entry => entry.id == refId).map fun entry => Strings.first maxChars entry.contentExcerpt

end

section

-- `digest` has the first sixteen digits of a hexadecimal SHA-256, which are never empty.
variable {Digest : Type} (digest : String -> Digest)

def readFingerprint (path : String) (start stop : Int) (text : String) : Digest :=
  digest (Strings.joinLines [
    String.ofList ((Strings.strip path).toList.map fun char => if char = '\\' then '/' else char),
    toString (max 1 (orOne start)), toString (max 1 (orOne stop)), Strings.first 1200 (Strings.strip text)])

def Recording.entry (now : ℚ) : Recording -> Evidence Digest
  | .read path start stop text =>
    { kind := "read_file"
      path := path
      lines := some (orOne start, orOne stop)
      contentHash := readFingerprint digest path start stop text
      summary := Strings.first 180 (Strings.strip text)
      createdAt := now
      lastSeenAt := now
      confidence := 7 / 10
      contentExcerpt := Strings.first 4000 text }
  | .search pattern path text =>
    { kind := "search"
      path := path
      pattern := some pattern
      contentHash := readFingerprint digest ("search::" ++ path ++ "::" ++ pattern) 1 1 text
      summary := Strings.first 180 (Strings.strip text)
      createdAt := now
      lastSeenAt := now
      confidence := 6 / 10
      contentExcerpt := Strings.first 4000 text }

variable [DecidableEq Digest]

/-- What a call makes of the memory, and what it returns. -/
def Call.perform (now : ℚ) (working : Working Digest) : Call -> Working Digest × Option (Recorded Digest)
  | .record recording =>
    let recorded := working.record now (recording.entry digest now)
    (recorded.1, some recorded.2)
  | .invalidateFileSummary path => (working.invalidateFileSummary now path, none)

/-- The memory, and the entries that calls have returned. -/
structure History (Digest : Type) where
  working : Working Digest := {}
  issued : List (Evidence Digest) := []

def machine : Machine (History Digest) (ℚ × Call) where
  step history input :=
    let performed := input.2.perform digest input.1 history.working
    { working := performed.1
      issued := history.issued ++ (performed.2.map Recorded.entry).toList }

/-- The ids are distinct, and what was returned under an id is all that it
denotes; the cache has the places of the live entries. -/
structure Unambiguous (history : History Digest) : Prop where
  distinct : (history.working.ledger.map Evidence.id).Nodup
  same : ∀ given ∈ history.issued, ∀ entry ∈ history.working.ledger,
    entry.id = given.id -> entry.original = given.original
  expanded : ∀ given ∈ history.issued, ∀ maxChars content,
    expandEvidence history.working.ledger given.id maxChars = some content ->
      content = Strings.first maxChars given.contentExcerpt
  cached : ∀ fp idx, history.working.readCache fp = some idx <-> ∃ entry,
    history.working.ledger[idx]? = some entry ∧ entry.stale = false ∧ entry.contentHash = fp
  honest : ∀ now (recording : Recording),
    (history.working.record now (recording.entry digest now)).2.duplicate = true -> ∃ live ∈ history.working.ledger, live.stale = false ∧ live.contentHash = (recording.entry digest now).contentHash

/-- No stale entry is the last one of its fingerprint. -/
def LastLive : List (Evidence Digest) -> Prop
  | [] => True
  | entry :: rest => (entry.stale = true -> ∃ later ∈ rest, later.contentHash = entry.contentHash) ∧ LastLive rest

/-- The fingerprint is known, or there is room for the entry.  The eleventh
entry is the last one; it pushes out the first. -/
def Working.Room (working : Working Digest) (entry : Evidence Digest) : Prop :=
  working.known entry.contentHash ≠ none ∨ working.evidenceRefs.length < MAX_EVIDENCE_ENTRIES ∨
    working.evidenceRefs.length = MAX_EVIDENCE_ENTRIES ∧ LastLive (working.ledger.tail ++ [working.numbered entry])

def Roomy (history : History Digest) (input : ℚ × Call) : Prop :=
  ∀ recording, input.2 = .record recording ->
    history.working.Room (recording.entry digest input.1)

variable {digest}

/-- The last two fields follow from the others. -/
theorem unambiguous_iff {history : History Digest} : Unambiguous digest history <->
    (history.working.ledger.map Evidence.id).Nodup ∧
      (∀ given ∈ history.issued, ∀ entry ∈ history.working.ledger,
        entry.id = given.id -> entry.original = given.original) ∧
      ∀ fp idx, history.working.readCache fp = some idx <-> ∃ entry,
        history.working.ledger[idx]? = some entry ∧ entry.stale = false ∧ entry.contentHash = fp := by
  refine ⟨fun sound => ⟨sound.distinct, sound.same, sound.cached⟩, ?_⟩
  rintro ⟨distinct, same, cached⟩
  refine ⟨distinct, same, ?_, cached, ?_⟩
  · intro given issued maxChars content expanded
    rcases Option.map_eq_some_iff.mp expanded with ⟨entry, found, rfl⟩
    have id := List.find?_some found
    have original := same given issued entry (List.mem_of_find?_eq_some found) (by simpa using id)
    exact congrArg (fun entry => Strings.first maxChars entry.contentExcerpt) original
  · intro now recording duplicate
    unfold Working.record at duplicate
    split at duplicate
    next idx found known =>
      rcases Option.bind_eq_some_iff.mp known with ⟨place, placed, there⟩
      rcases (cached _ _).mp placed with ⟨live, at_, fresh, hash⟩
      exact ⟨live, List.mem_of_getElem? at_, fresh, hash⟩
    next => cases duplicate

/-! ## The ids of all runs -/

/-- The ids are numbered up to the eleventh, which all later entries get. -/
structure Numbered (history : History Digest) : Prop where
  refs : history.working.evidenceRefs =
    (List.range history.working.evidenceRefs.length).map (fun place => entryId (min place MAX_EVIDENCE_ENTRIES + 1))
  ledger : history.working.ledger.map Evidence.id =
    history.working.evidenceRefs.drop (history.working.evidenceRefs.length - MAX_EVIDENCE_ENTRIES)
  issued : ∀ given ∈ history.issued, given.id ∈ history.working.evidenceRefs

omit [DecidableEq Digest] in
theorem Numbered.length {history : History Digest} (numbered : Numbered history) :
    history.working.ledger.length = min history.working.evidenceRefs.length MAX_EVIDENCE_ENTRIES := by
  have size := congrArg List.length numbered.ledger
  rw [List.length_map, List.length_drop] at size
  omega

theorem trim_ledger (working : Working Digest) :
    working.trim.ledger = working.ledger.drop (working.ledger.length - MAX_EVIDENCE_ENTRIES) := by
  unfold Working.trim
  split
  next short => rw [Nat.sub_eq_zero_of_le short, List.drop_zero]
  next => rfl

theorem trim_evidenceRefs (working : Working Digest) : working.trim.evidenceRefs = working.evidenceRefs := by
  unfold Working.trim
  split <;> rfl

section

variable {history after : History Digest}
  (originals : after.working.ledger.map Evidence.original = history.working.ledger.map Evidence.original)
  (issued : ∀ given ∈ after.issued, given ∈ history.issued ∨
    given.original ∈ history.working.ledger.map Evidence.original)

include originals

omit [DecidableEq Digest] in
theorem ids_of_originals : after.working.ledger.map Evidence.id = history.working.ledger.map Evidence.id := by
  have ids := congrArg (List.map Evidence.id) originals
  rw [List.map_map, List.map_map] at ids
  exact ids

include issued

omit [DecidableEq Digest] in
/-- Calls that add no entry change no id. -/
theorem Numbered.of_originals (numbered : Numbered history)
    (refs : after.working.evidenceRefs = history.working.evidenceRefs) : Numbered after := by
  have ids := ids_of_originals originals
  refine ⟨by rw [refs]; exact numbered.refs, by rw [refs, ids]; exact numbered.ledger, ?_⟩
  intro given member
  rw [refs]
  rcases issued given member with before | here
  · exact numbered.issued given before
  · rcases List.mem_map.mp here with ⟨entry, listed, same⟩
    have id := Evidence.id_of_original same
    have listed := List.mem_map_of_mem (f := Evidence.id) listed
    rw [numbered.ledger, id] at listed
    exact List.mem_of_mem_drop listed

theorem Unambiguous.of_originals (sound : Unambiguous digest history)
    (cached : ∀ fp idx, after.working.readCache fp = some idx <-> ∃ entry,
      after.working.ledger[idx]? = some entry ∧ entry.stale = false ∧ entry.contentHash = fp) :
    Unambiguous digest after := by
  have ids := ids_of_originals originals
  refine unambiguous_iff.mpr ⟨by rw [ids]; exact sound.distinct, ?_, cached⟩
  intro given member entry listed id
  have listed := List.mem_map_of_mem (f := Evidence.original) listed
  rw [originals] at listed
  rcases List.mem_map.mp listed with ⟨old, there, same⟩
  have old_id := (Evidence.id_of_original same).trans id
  rcases issued given member with before | here
  · rw [<- same]
    exact sound.same given before old there old_id
  · rcases List.mem_map.mp here with ⟨other, also, given_eq⟩
    have other_id := Evidence.id_of_original given_eq
    rw [<- same, <- given_eq, List.inj_on_of_nodup_map sound.distinct there also (old_id.trans other_id.symm)]

end

section

omit [DecidableEq Digest]

theorem originals_modify (ledger : List (Evidence Digest)) (now : ℚ) (idx : Nat) :
    (ledger.modify idx (Evidence.seen now)).map Evidence.original = ledger.map Evidence.original := by
  apply List.ext_getElem?
  intro place
  rw [List.getElem?_map, List.getElem?_map, List.getElem?_modify]
  cases ledger[place]? with
  | none => rfl
  | some entry => simp only [Option.map_some]; split <;> rfl

theorem originals_invalidated (ledger : List (Evidence Digest)) (now : ℚ) (path : String) :
    (ledger.map fun entry => entry.invalidated now path).map Evidence.original = ledger.map Evidence.original := by
  rw [List.map_map]
  exact List.map_congr_left fun entry _ => entry.invalidated_original now path

theorem cached_invalidated {working : Working Digest} (now : ℚ) (path : String)
    (cached : ∀ fp idx, working.readCache fp = some idx <-> ∃ entry,
      working.ledger[idx]? = some entry ∧ entry.stale = false ∧ entry.contentHash = fp) (fp : Digest) (idx : Nat) :
    (working.invalidateFileSummary now path).readCache fp = some idx <-> ∃ entry,
      (working.invalidateFileSummary now path).ledger[idx]? = some entry ∧ entry.stale = false ∧
        entry.contentHash = fp := by
  simp only [Working.invalidateFileSummary, Option.filter_eq_some_iff, List.getElem?_map, decide_eq_true_eq]
  constructor
  · rintro ⟨placed, other⟩
    rcases (cached fp idx).mp placed with ⟨entry, there, live, hash⟩
    have other : entry.path ≠ path := by simpa [there] using other
    exact ⟨entry, by simp [there, Evidence.invalidated, other], live, hash⟩
  · rintro ⟨entry, there, live, hash⟩
    rcases Option.map_eq_some_iff.mp there with ⟨old, here, rfl⟩
    unfold Evidence.invalidated at live hash
    split at live
    · cases live
    next other =>
      rw [if_neg other] at hash
      exact ⟨(cached fp idx).mpr ⟨old, here, live, hash⟩, by simpa [here] using other⟩

theorem cached_seen {ledger : List (Evidence Digest)} (now : ℚ) (place idx : Nat) (fp : Digest) :
    (∃ entry, (ledger.modify place (Evidence.seen now))[idx]? = some entry ∧ entry.stale = false ∧
      entry.contentHash = fp) <->
    ∃ entry, ledger[idx]? = some entry ∧ entry.stale = false ∧ entry.contentHash = fp := by
  rw [List.getElem?_modify]
  cases ledger[idx]? with
  | none => simp
  | some entry => by_cases here : place = idx <;> simp [here, Evidence.seen]

end

theorem lastPlace_eq_none {fp : Digest} {entries : List (Evidence Digest)} :
    lastPlace fp entries = none <-> ∀ entry ∈ entries, entry.contentHash ≠ fp := by
  induction entries with
  | nil => simp [lastPlace]
  | cons entry rest ih =>
    rw [List.forall_mem_cons, <- ih, lastPlace]
    cases lastPlace fp rest <;> simp

theorem lastPlace_some {fp : Digest} {entries : List (Evidence Digest)} {idx : Nat}
    (found : lastPlace fp entries = some idx) :
    ∃ entry, entries[idx]? = some entry ∧ entry.contentHash = fp := by
  induction entries generalizing idx with
  | nil => cases found
  | cons entry rest ih =>
    rw [lastPlace] at found
    cases later : lastPlace fp rest with
    | some place =>
      rw [later] at found
      cases found
      exact ih later
    | none =>
      simp only [later, Option.ite_none_right_eq_some, Option.some.injEq] at found
      rcases found with ⟨hash, rfl⟩
      exact ⟨entry, rfl, hash⟩

theorem lastLive_iff {entries : List (Evidence Digest)} : LastLive entries <->
    ∀ fp idx entry, lastPlace fp entries = some idx -> entries[idx]? = some entry -> entry.stale = false := by
  induction entries with
  | nil => simp [LastLive, lastPlace]
  | cons first rest ih =>
    rw [LastLive, ih]
    constructor
    · rintro ⟨renewed, live⟩ fp idx entry found there
      rw [lastPlace] at found
      cases later : lastPlace fp rest with
      | some place =>
        rw [later] at found
        cases found
        exact live fp place entry later there
      | none =>
        simp only [later, Option.ite_none_right_eq_some, Option.some.injEq] at found
        rcases found with ⟨hash, rfl⟩
        cases there
        rw [<- Bool.not_eq_true]
        intro stale
        rcases renewed stale with ⟨other, member, same⟩
        exact lastPlace_eq_none.mp later other member (same.trans hash)
    · intro live
      constructor
      · intro stale
        by_contra none_
        have last : lastPlace first.contentHash rest = none :=
          lastPlace_eq_none.mpr fun other member same => none_ ⟨other, member, same⟩
        have fresh := live first.contentHash 0 first (by simp [lastPlace, last]) rfl
        rw [stale] at fresh
        cases fresh
      · intro fp idx entry found there
        exact live fp (idx + 1) entry (by rw [lastPlace, found]) there

/-- Where live entries have distinct fingerprints, the last places are those
of the live entries exactly where the last entries are live. -/
theorem cached_lastPlace {entries : List (Evidence Digest)}
    (unique : ∀ (i j : Nat) (first second : Evidence Digest), entries[i]? = some first -> entries[j]? = some second ->
      first.stale = false -> second.stale = false -> first.contentHash = second.contentHash -> i = j) :
    (∀ fp idx, lastPlace fp entries = some idx <-> ∃ entry,
      entries[idx]? = some entry ∧ entry.stale = false ∧ entry.contentHash = fp) <-> LastLive entries := by
  rw [lastLive_iff]
  constructor
  · intro cached fp idx entry found there
    rcases (cached fp idx).mp found with ⟨other, here, live, -⟩
    rw [there] at here
    cases here
    exact live
  · intro live fp idx
    constructor
    · intro found
      rcases lastPlace_some found with ⟨entry, there, hash⟩
      exact ⟨entry, there, live fp idx entry found there, hash⟩
    · rintro ⟨entry, there, fresh, hash⟩
      cases found : lastPlace fp entries with
      | none => exact absurd hash (lastPlace_eq_none.mp found entry (List.mem_of_getElem? there))
      | some place =>
        rcases lastPlace_some found with ⟨last, here, same⟩
        rw [unique place idx last entry here there (live fp place last found here) fresh (same.trans hash.symm)]

/-! ## Recordings -/

def History.recorded (now : ℚ) (entry : Evidence Digest) (history : History Digest) : History Digest where
  working := (history.working.record now entry).1
  issued := history.issued ++ [(history.working.record now entry).2.entry]

section

variable {history : History Digest} {now : ℚ} {entry : Evidence Digest}

section Known

variable (now) {idx : Nat} {found : Evidence Digest}
  (known : history.working.known entry.contentHash = some (idx, found))

include known

theorem recorded_of_known : history.recorded now entry =
    { working := { history.working with ledger := history.working.ledger.modify idx (Evidence.seen now) }
      issued := history.issued ++ [found.seen now] } := by
  rw [History.recorded, Working.record, known]

theorem issued_of_known : ∀ given ∈ (history.recorded now entry).issued, given ∈ history.issued ∨
    given.original ∈ history.working.ledger.map Evidence.original := by
  rw [recorded_of_known _ known]
  intro given member
  rcases List.mem_append.mp member with before | here
  · exact .inl before
  · rcases Option.bind_eq_some_iff.mp known with ⟨place, -, there⟩
    rcases Option.map_eq_some_iff.mp there with ⟨other, listed, same⟩
    cases same
    rw [List.mem_singleton.mp here, Evidence.seen_original]
    exact .inr (List.mem_map_of_mem (List.mem_of_getElem? listed))

theorem unambiguous_of_known (sound : Unambiguous digest history) :
    Unambiguous digest (history.recorded now entry) := by
  have issued := issued_of_known now known
  rw [recorded_of_known _ known] at issued ⊢
  apply sound.of_originals (originals_modify _ _ _) issued
  intro fp place
  exact (sound.cached fp place).trans (cached_seen now idx place fp).symm

end Known

section New

variable (now) (new : history.working.known entry.contentHash = none)

include new

theorem recorded_of_new : (history.recorded now entry).working.ledger =
      (history.working.ledger ++ [history.working.numbered entry]).drop
        (history.working.ledger.length + 1 - MAX_EVIDENCE_ENTRIES) ∧
    (history.recorded now entry).working.evidenceRefs =
      history.working.evidenceRefs ++ [entryId (history.working.ledger.length + 1)] ∧
    (history.recorded now entry).issued = history.issued ++ [history.working.numbered entry] := by
  rw [History.recorded, Working.record, new]
  refine ⟨?_, trim_evidenceRefs _, rfl⟩
  rw [trim_ledger, List.length_append, List.length_singleton]

end New

theorem Numbered.recorded (numbered : Numbered history) : Numbered (history.recorded now entry) := by
  cases known : history.working.known entry.contentHash with
  | some found =>
    apply numbered.of_originals _ (issued_of_known _ known)
    · rw [recorded_of_known _ known]
    · rw [recorded_of_known _ known]
      exact originals_modify _ _ _
  | none =>
    rcases recorded_of_new now known with ⟨ledger, refs, issued⟩
    have size := numbered.length
    refine ⟨?_, ?_, ?_⟩
    · rw [refs, List.length_append, List.length_singleton, List.range_succ, List.map_append, <- numbered.refs, size]
      rfl
    · rw [ledger, refs, List.map_drop, List.map_append, numbered.ledger, List.map_singleton,
        <- List.drop_append_of_le_length (Nat.sub_le _ _), List.drop_drop, List.length_append, List.length_singleton]
      exact congrArg (fun count => List.drop count _) (by rw [size]; omega)
    · intro given member
      rw [issued] at member
      rw [refs, List.mem_append]
      rcases List.mem_append.mp member with before | here
      · exact .inl (numbered.issued given before)
      · rw [List.mem_singleton.mp here]
        exact .inr (List.mem_singleton_self _)

omit [DecidableEq Digest] in
/-- The first eleven ids are distinct. -/
theorem refs_nodup {after : History Digest} (numbered : Numbered after)
    (few : after.working.evidenceRefs.length ≤ MAX_EVIDENCE_ENTRIES + 1) : after.working.evidenceRefs.Nodup := by
  have all : ((List.range (MAX_EVIDENCE_ENTRIES + 1)).map
      (fun place => entryId (min place MAX_EVIDENCE_ENTRIES + 1))).Nodup := by decide +kernel
  rw [numbered.refs]
  exact all.sublist ((List.range_sublist.mpr few).map _)

omit [DecidableEq Digest] in
/-- A twelfth entry gets the id of the eleventh. -/
theorem refs_repeat {after : History Digest} (numbered : Numbered after)
    (many : MAX_EVIDENCE_ENTRIES + 1 < after.working.evidenceRefs.length) :
    ¬ (after.working.ledger.map Evidence.id).Nodup := by
  rw [numbered.ledger, numbered.refs]
  generalize after.working.evidenceRefs.length = count at many
  rcases Nat.exists_eq_add_of_le many with ⟨more, whole⟩
  have whole : count = MAX_EVIDENCE_ENTRIES + more + 1 + 1 := by omega
  subst whole
  rw [List.length_map, List.length_range, List.range_succ, List.range_succ, List.append_assoc, List.map_append,
    List.drop_append_of_le_length (by simp [MAX_EVIDENCE_ENTRIES]), List.nodup_append']
  rintro ⟨-, distinct, -⟩
  have same : min (MAX_EVIDENCE_ENTRIES + more + 1) MAX_EVIDENCE_ENTRIES = MAX_EVIDENCE_ENTRIES := by omega
  simp [same] at distinct

section Sound

variable (numbered : Numbered history) (sound : Unambiguous digest history) (live : entry.stale = false)
  (new : history.working.known entry.contentHash = none)

include sound new in
theorem unknown {idx : Nat} {old : Evidence Digest} (there : history.working.ledger[idx]? = some old)
    (fresh : old.stale = false) : old.contentHash ≠ entry.contentHash := by
  intro same
  have placed := (sound.cached _ _).mpr ⟨old, there, fresh, same⟩
  rw [Working.known, placed, Option.bind_some, there] at new
  cases new

variable (now) in
include numbered sound new in
/-- A new id denotes nothing else. -/
theorem same_recorded (few : history.working.evidenceRefs.length ≤ MAX_EVIDENCE_ENTRIES) :
    ((history.recorded now entry).working.ledger.map Evidence.id).Nodup ∧
      ∀ given ∈ (history.recorded now entry).issued,
        ∀ other ∈ (history.recorded now entry).working.ledger,
          other.id = given.id -> other.original = given.original := by
  have after : Numbered (history.recorded now entry) := numbered.recorded
  rcases recorded_of_new now new with ⟨ledger, refs, issued⟩
  have distinct := refs_nodup after (by rw [refs, List.length_append, List.length_singleton]; omega)
  refine ⟨after.ledger ▸ distinct.sublist (List.drop_sublist _ _), ?_⟩
  rw [refs, List.nodup_append'] at distinct
  have fresh : entryId (history.working.ledger.length + 1) ∉ history.working.evidenceRefs := fun member =>
    distinct.2.2 member (List.mem_singleton_self _)
  intro given member other listed id
  rw [issued] at member
  rw [ledger] at listed
  have old : ∀ other ∈ history.working.ledger, other.id ∈ history.working.evidenceRefs := by
    intro other there
    have there := List.mem_map_of_mem (f := Evidence.id) there
    rw [numbered.ledger] at there
    exact List.mem_of_mem_drop there
  rcases List.mem_append.mp (List.mem_of_mem_drop listed) with there | here
  · rcases List.mem_append.mp member with before | now_
    · exact sound.same given before other there id
    · rw [List.mem_singleton.mp now_] at id
      have known := old other there
      rw [id] at known
      exact absurd known fresh
  · rw [List.mem_singleton.mp here] at id ⊢
    rcases List.mem_append.mp member with before | now_
    · have known := numbered.issued given before
      rw [<- id] at known
      exact absurd known fresh
    · rw [List.mem_singleton.mp now_]

include sound live new in
theorem cached_appended (fp : Digest) (idx : Nat) :
    Function.update history.working.readCache entry.contentHash (some history.working.ledger.length) fp = some idx <->
      ∃ other, (history.working.ledger ++ [history.working.numbered entry])[idx]? = some other ∧
        other.stale = false ∧ other.contentHash = fp := by
  rcases Nat.lt_trichotomy idx history.working.ledger.length with inside | rfl | outside
  · rw [List.getElem?_append_left inside, <- sound.cached]
    by_cases same : fp = entry.contentHash
    · subst same
      rw [Function.update_self]
      constructor
      · intro last
        cases last
        exact absurd inside (Nat.lt_irrefl _)
      · intro placed
        rcases (sound.cached _ _).mp placed with ⟨old, there, fresh, hash⟩
        exact absurd hash (unknown sound new there fresh)
    · rw [Function.update_of_ne same]
  · rw [List.getElem?_concat_length]
    by_cases same : fp = entry.contentHash
    · subst same
      rw [Function.update_self]
      exact iff_of_true rfl ⟨_, rfl, live, rfl⟩
    · rw [Function.update_of_ne same]
      refine iff_of_false ?_ ?_
      · intro placed
        rcases (sound.cached _ _).mp placed with ⟨old, there, -⟩
        simp at there
      · rintro ⟨other, here, -, hash⟩
        cases here
        exact same hash.symm
  · refine iff_of_false ?_ ?_
    · by_cases same : fp = entry.contentHash
      · subst same
        rw [Function.update_self, Option.some.injEq]
        omega
      · rw [Function.update_of_ne same]
        intro placed
        rcases (sound.cached _ _).mp placed with ⟨old, there, -⟩
        rw [List.getElem?_eq_none (Nat.le_of_lt outside)] at there
        cases there
    · rintro ⟨other, there, -⟩
      rw [List.getElem?_eq_none (by simp; omega)] at there
      cases there

include sound live new in
theorem unique_live (i j : Nat) (first second : Evidence Digest)
    (left : (history.working.ledger ++ [history.working.numbered entry])[i]? = some first)
    (right : (history.working.ledger ++ [history.working.numbered entry])[j]? = some second)
    (fresh : first.stale = false) (also : second.stale = false) (hash : first.contentHash = second.contentHash) :
    i = j := by
  have one := (cached_appended sound live new _ _).mpr ⟨first, left, fresh, hash⟩
  have other := (cached_appended sound live new _ _).mpr ⟨second, right, also, rfl⟩
  rw [one] at other
  exact Option.some.inj other

include numbered sound live new in
/-- A new entry leaves the references unambiguous exactly where there is room
for it. -/
theorem unambiguous_recorded_iff : Unambiguous digest (history.recorded now entry) <->
    history.working.Room entry := by
  have known : ¬ history.working.known entry.contentHash ≠ none := fun some_ => some_ new
  have size := numbered.length
  rcases recorded_of_new now new with ⟨ledger, refs, issued⟩
  rw [Working.Room, or_iff_right known]
  rcases Nat.lt_trichotomy history.working.evidenceRefs.length MAX_EVIDENCE_ENTRIES with few | full | many
  · refine iff_of_true ?_ (.inl few)
    have same := same_recorded now numbered sound new (Nat.le_of_lt few)
    refine unambiguous_iff.mpr ⟨same.1, same.2, ?_⟩
    have short : (history.working.ledger ++ [history.working.numbered entry]).length ≤ MAX_EVIDENCE_ENTRIES := by
      rw [List.length_append, List.length_singleton]
      omega
    rw [History.recorded, Working.record, new]
    simp only [Working.trim, if_pos short]
    exact cached_appended sound live new
  · have same := same_recorded now numbered sound new (Nat.le_of_eq full)
    have long : ¬ (history.working.ledger ++ [history.working.numbered entry]).length ≤ MAX_EVIDENCE_ENTRIES := by
      rw [List.length_append, List.length_singleton]
      omega
    have drops : (history.working.ledger ++ [history.working.numbered entry]).drop
        ((history.working.ledger ++ [history.working.numbered entry]).length - MAX_EVIDENCE_ENTRIES) =
        history.working.ledger.tail ++ [history.working.numbered entry] := by
      have one : history.working.ledger.length + 1 - MAX_EVIDENCE_ENTRIES = 1 := by omega
      rw [List.length_append, List.length_singleton, one, List.drop_append_of_le_length (by
        rw [size, full]; decide), List.drop_one]
    have unique := unique_live sound live new
    have shifted : ∀ place, (history.working.ledger.tail ++ [history.working.numbered entry])[place]? =
        (history.working.ledger ++ [history.working.numbered entry])[place + 1]? := by
      intro place
      cases whole : history.working.ledger with
      | nil =>
        rw [whole, full] at size
        cases size
      | cons first rest => rfl
    have cached := @cached_lastPlace Digest _ (history.working.ledger.tail ++ [history.working.numbered entry])
      (fun i j first second left right fresh also hash => Nat.succ.inj (unique (i + 1) (j + 1) first second
        (shifted i ▸ left) (shifted j ▸ right) fresh also hash))
    rw [or_iff_right (by omega), and_iff_right full, <- cached, unambiguous_iff]
    refine ⟨fun all => ?_, fun all => ⟨same.1, same.2, ?_⟩⟩
    · have all := all.2.2
      rw [History.recorded, Working.record, new] at all
      simp only [Working.trim, if_neg long, drops] at all
      exact all
    · rw [History.recorded, Working.record, new]
      simp only [Working.trim, if_neg long, drops]
      exact all
  · refine iff_of_false (fun sound => ?_) fun room => by omega
    refine refs_repeat numbered.recorded ?_ sound.distinct
    rw [refs, List.length_append, List.length_singleton]
    omega

end Sound

end

theorem numbered_step (history : History Digest) (input : ℚ × Call) (numbered : Numbered history) :
    Numbered ((machine digest).step history input) := by
  rcases input with ⟨now, recording | path⟩
  · exact numbered.recorded
  · refine Numbered.of_originals (originals_invalidated _ _ _) ?_ numbered rfl
    intro given member
    exact .inl (by simpa [machine, Call.perform] using member)

theorem unambiguous_step (history : History Digest) (input : ℚ × Call) (numbered : Numbered history)
    (sound : Unambiguous digest history) :
    Unambiguous digest ((machine digest).step history input) <-> Roomy digest history input := by
  rcases input with ⟨now, recording | path⟩
  · have room : Roomy digest history (now, .record recording) <->
        history.working.Room (recording.entry digest now) := by
      constructor
      · intro roomy
        exact roomy recording rfl
      · rintro room _ ⟨⟩
        exact room
    rw [room]
    cases known : history.working.known (recording.entry digest now).contentHash with
    | some found =>
      refine iff_of_true (unambiguous_of_known _ known sound) (.inl ?_)
      rw [known]
      nofun
    | none =>
      have live : (recording.entry digest now).stale = false := by cases recording <;> rfl
      exact unambiguous_recorded_iff numbered sound live known
  · refine iff_of_true ?_ nofun
    apply sound.of_originals
    · exact originals_invalidated _ _ _
    · intro given member
      exact .inl (by simpa [machine, Call.perform] using member)
    · exact cached_invalidated now path sound.cached

/-- In every run the references are numbered, the ledger has the last ten of
them, and every entry that was returned has one. -/
theorem references_numbered (digest : String -> Digest) (calls : List (ℚ × Call)) :
    Numbered ((machine digest).run {} calls) :=
  (machine digest).invariant_run numbered_step ⟨rfl, rfl, fun _ member => absurd member List.not_mem_nil⟩ calls

/-- The references stay unambiguous in exactly the runs in which there is room
for every entry. -/
theorem references_unambiguous (digest : String -> Digest) (calls : List (ℚ × Call)) :
    (machine digest).Visits (Unambiguous digest) {} calls <-> (machine digest).Along (Roomy digest) {} calls := by
  refine (machine digest).visits_iff_along numbered_step unambiguous_step
    ⟨rfl, rfl, fun given member => absurd member List.not_mem_nil⟩ ?_ calls
  refine unambiguous_iff.mpr ⟨List.nodup_nil, fun given member => absurd member List.not_mem_nil, ?_⟩
  simp

/-- Twelve reads of twelve files. -/
theorem twelve_reads_repeat_an_id : ¬ Unambiguous id ((machine id).run {} ((List.range 12).map (fun place =>
    (0, .record (.read (toString place) 1 1 ""))))) := by
  intro sound
  have distinct := sound.distinct
  revert distinct
  decide +kernel

end

end WorkingMemory
end FixLoop
