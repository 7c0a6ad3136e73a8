import FixLoop.Library.HashChain
import FixLoop.Library.JsonText
import FixLoop.PlanRuntime.Models

namespace FixLoop
namespace PlanRuntime

open Library

/-!
# The table of events

`append_many` chains the checksums of the payloads as the caller holds them,
and `events` checks them against the payloads as they are decoded.  The two
agree when the text of a payload has the keys of its dictionaries in order.
-/

/-- A row of the table.  A payload whose text is no JSON has no tree. -/
structure Row where
  seq : Int
  kind : String
  encoded : Option Json
  previous : String
  checksum : String

/-- An event as `events` returns it. -/
structure Event where
  seq : Int
  kind : String
  payload : Json
  previous : String
  checksum : String

section Table

variable [Hashing] (spell : ℚ -> String)

/-- The digest of an event, given the text of its payload. -/
def eventDigest (seq : Int) (previous : String) (body : String × Json) : String :=
  Hashing.digest (.obj [("kind", .str body.1), ("payload", body.2), ("previous", .str previous),
    ("seq", .int seq)])

/-- The loop of `append_many`. -/
def appendRows : Int -> String -> List (String × Value) -> Except Fault (List Row)
  | _, _, [] => .ok []
  | seq, previous, (kind, payload) :: rest =>
    match payload.dumps spell with
    | none => .error "TypeError"
    | some encoded => do
        let checksum := eventDigest seq previous (kind, encoded)
        let later <- appendRows (seq + 1) checksum rest
        .ok (⟨seq, kind, some encoded, previous, checksum⟩ :: later)

/-- The number and the checksum with which a row goes on after the given rows;
the first ones are those of an empty list. -/
def following (seq : Int) (previous : String) (rows : List Row) : Int × String :=
  match rows.getLast? with
  | some row => (row.seq + 1, row.checksum)
  | none => (seq, previous)

/-- `append_many`, with the table after it and the numbers of the new rows. -/
def appendMany (table : List Row) (entries : List (String × Value)) :
    Except Fault (List Row × List Int) := do
  let (seq, previous) := following 1 "" table
  let rows <- appendRows spell seq previous entries
  .ok (table ++ rows, rows.map Row.seq)

/-- A sequence of batches, all of which are accepted. -/
def appendBatches (table : List Row) : List (List (String × Value)) -> Except Fault (List Row)
  | [] => .ok table
  | entries :: rest => do
      let (table, _) <- appendMany spell table entries
      appendBatches table rest

/-- The loop of `events`. -/
def readRows : Int -> String -> List Row -> Except Fault (List Event)
  | _, _, [] => .ok []
  | seq, previous, row :: rest =>
    match row.encoded with
    | none => .error "JSONDecodeError"
    | some encoded => do
        let payload := encoded.loads
        raiseIf (row.seq ≠ seq ∨ row.previous ≠ previous ∨
            eventDigest row.seq row.previous (row.kind, payload) ≠ row.checksum)
          "journal_integrity_invalid"
        let later <- readRows (seq + 1) row.checksum rest
        .ok (⟨row.seq, row.kind, payload, row.previous, row.checksum⟩ :: later)

def events (table : List Row) : Except Fault (List Event) := readRows 1 "" table

/-- The part of `verify_checkpoint` that compares the position of a seal with
the events. -/
def checkPosition (found : List Event) (sequence : Int) (checksum : String) : Except Fault Unit := do
  raiseIf (¬ (1 ≤ sequence ∧ sequence ≤ found.length)) "checkpoint_journal_mismatch"
  raiseIf (((found[(sequence - 1).toNat]?).map Event.checksum) ≠ some checksum)
    "checkpoint_journal_mismatch"

end Table

section Appending

variable [Hashing] {spell : ℚ -> String}

theorem appendRows_cons {seq : Int} {previous kind : String} {payload : Value}
    {rest : List (String × Value)} {rows : List Row}
    (accepted : appendRows spell seq previous ((kind, payload) :: rest) = .ok rows) :
    ∃ encoded later, payload.dumps spell = some encoded ∧
      appendRows spell (seq + 1) (eventDigest seq previous (kind, encoded)) rest = .ok later ∧
      rows = ⟨seq, kind, some encoded, previous, eventDigest seq previous (kind, encoded)⟩ :: later := by
  rw [appendRows] at accepted
  split at accepted
  · cases accepted
  rename_i encoded written
  rcases bind_ok accepted with ⟨later, appended, same⟩
  cases same
  exact ⟨encoded, later, written, appended, rfl⟩

omit [Hashing] in
theorem following_cons (seq : Int) (previous : String) (row : Row) (rows : List Row) :
    following seq previous (row :: rows) = following (row.seq + 1) row.checksum rows := by
  cases rows with
  | nil => rfl
  | cons next rest =>
    rw [following, following, List.getLast?_cons_cons]
    cases ends : (next :: rest).getLast? with
    | none => exact absurd ends (by simp)
    | some last => rfl

theorem appendRows_append {seq : Int} {previous : String} {first second : List (String × Value)}
    {rows more : List Row} (earlier : appendRows spell seq previous first = .ok rows)
    (later : appendRows spell (following seq previous rows).1 (following seq previous rows).2 second =
      .ok more) :
    appendRows spell seq previous (first ++ second) = .ok (rows ++ more) := by
  induction first generalizing seq previous rows with
  | nil =>
    cases earlier
    exact later
  | cons entry rest ih =>
    rcases entry with ⟨kind, payload⟩
    rcases appendRows_cons earlier with ⟨encoded, remaining, written, appended, rfl⟩
    rw [following_cons] at later
    rw [List.cons_append, appendRows, written]
    dsimp only
    rw [ih appended later]
    rfl

theorem appendBatches_ok {batches : List (List (String × Value))} {done : List (String × Value)}
    {table last : List Row} (before : appendRows spell 1 "" done = .ok table)
    (accepted : appendBatches spell table batches = .ok last) :
    appendRows spell 1 "" (done ++ batches.flatten) = .ok last := by
  induction batches generalizing done table with
  | nil =>
    cases accepted
    rw [List.flatten_nil, List.append_nil]
    exact before
  | cons entries rest ih =>
    rcases bind_ok accepted with ⟨⟨reached, numbers⟩, appended, accepted⟩
    rcases bind_ok appended with ⟨rows, written, same⟩
    cases same
    rw [List.flatten_cons, ← List.append_assoc]
    exact ih (appendRows_append before written) accepted

end Appending

section Reading

variable [Hashing] {spell : ℚ -> String}

/-- The value that is read back for a payload. -/
def normal (spell : ℚ -> String) (payload : Value) : Json := ((payload.dumps spell).getD .null).loads

/-- The text of a payload has the keys of its dictionaries in order. -/
def Settled (spell : ℚ -> String) (payload : Value) : Prop :=
  ∀ encoded, payload.dumps spell = some encoded -> encoded.loads = encoded

/-- The events are those of the entries, numbered from the given number on. -/
structure Reads (spell : ℚ -> String) (seq : Int) (entries : List (String × Value))
    (found : List Event) : Prop where
  contents : found.map (fun event => (event.kind, event.payload)) =
    entries.map (fun entry => (entry.1, normal spell entry.2))
  numbers : ∀ (index : Nat) (event : Event), found[index]? = some event ->
    event.seq = seq + index

variable {seq : Int} {previous : String} {rows : List Row} {found : List Event}

/-- A row passes the checks where its payload is read back as it was written. -/
theorem readRows_cons {kind : String} {encoded : Json} (settled : encoded.loads = encoded) (rest : List Row) :
    readRows seq previous (⟨seq, kind, some encoded, previous,
        eventDigest seq previous (kind, encoded)⟩ :: rest) =
      (readRows (seq + 1) (eventDigest seq previous (kind, encoded)) rest).map (fun later =>
        ⟨seq, kind, encoded, previous, eventDigest seq previous (kind, encoded)⟩ :: later) := by
  rw [readRows]
  dsimp only
  rw [settled, raiseIf, if_neg]
  · rfl
  · rw [not_or, not_or, not_not, not_not, not_not]
    exact ⟨rfl, rfl, rfl⟩

theorem readRows_settled {entries : List (String × Value)}
    (accepted : appendRows spell seq previous entries = .ok rows)
    (settled : ∀ entry ∈ entries, Settled spell entry.2) :
    ∃ found, readRows seq previous rows = .ok found ∧ Reads spell seq entries found := by
  induction entries generalizing seq previous rows with
  | nil =>
    cases accepted
    exact ⟨[], rfl, rfl, nofun⟩
  | cons entry rest ih =>
    rcases entry with ⟨kind, payload⟩
    rcases appendRows_cons accepted with ⟨encoded, remaining, written, appended, rfl⟩
    have same := settled (kind, payload) List.mem_cons_self encoded written
    rcases ih appended (fun entry listed => settled entry (List.mem_cons_of_mem _ listed)) with
      ⟨later, read, reads⟩
    rw [readRows_cons same, read]
    refine ⟨_, rfl, ?_, ?_⟩
    · have value : normal spell payload = encoded := by
        rw [normal, written]
        exact same
      rw [List.map_cons, List.map_cons, reads.contents, value]
    · intro index event here
      cases index with
      | zero =>
        cases here
        exact (Int.add_zero seq).symm
      | succ index =>
        rw [reads.numbers index event here]
        push_cast
        omega

/-- Where the digest tells values apart, a payload that is not read back as it
was written makes the table unreadable. -/
theorem readRows_unsettled (injective : Function.Injective (Hashing.digest : Json -> String))
    {entries : List (String × Value)} (accepted : appendRows spell seq previous entries = .ok rows)
    (unsettled : ¬ ∀ entry ∈ entries, Settled spell entry.2) :
    readRows seq previous rows = .error "journal_integrity_invalid" := by
  induction entries generalizing seq previous rows with
  | nil => exact absurd (fun _ member => False.elim (List.not_mem_nil member)) unsettled
  | cons entry rest ih =>
    rcases entry with ⟨kind, payload⟩
    rcases appendRows_cons accepted with ⟨encoded, remaining, written, appended, rfl⟩
    by_cases same : encoded.loads = encoded
    · have later : ¬ ∀ entry ∈ rest, Settled spell entry.2 := by
        intro all
        refine unsettled (List.forall_mem_cons.mpr ⟨?_, all⟩)
        intro other found
        cases written.symm.trans found
        exact same
      rw [readRows_cons same, ih appended later]
      rfl
    · rw [readRows]
      dsimp only
      rw [raiseIf, if_pos]
      · rfl
      · right
        right
        intro equal
        have bodies := injective equal
        simp only [Json.obj.injEq, List.cons.injEq, Prod.mk.injEq, true_and, and_true] at bodies
        exact same bodies

/-! ## Tampering -/

def Event.link (event : Event) : Link (String × Json) :=
  ⟨event.seq, event.previous, event.checksum, (event.kind, event.payload)⟩

omit [Hashing] in
theorem link_injective : Function.Injective Event.link := by
  rintro ⟨_, _, _, _, _⟩ ⟨_, _, _, _, _⟩ same
  cases same
  rfl

theorem readRows_chained (accepted : readRows seq previous rows = .ok found) :
    Chained eventDigest seq previous (found.map Event.link) := by
  induction rows generalizing seq previous found with
  | nil =>
    cases accepted
    exact True.intro
  | cons row rest ih =>
    rw [readRows] at accepted
    split at accepted
    · cases accepted
    rcases bind_ok accepted with ⟨_, checked, accepted⟩
    rcases bind_ok accepted with ⟨later, read, same⟩
    cases same
    have sound := raiseIf_ok checked
    rw [not_or, not_or, not_not, not_not, not_not] at sound
    exact ⟨sound.1, sound.2.1, sound.2.2.symm, ih read⟩

theorem eventDigest_binding (injective : Function.Injective (Hashing.digest : Json -> String)) :
    Binding eventDigest := by
  intro seq previous body seq' previous' body' equal
  have bodies := injective equal
  simp only [Json.obj.injEq, List.cons.injEq, Prod.mk.injEq, true_and, and_true, Json.str.injEq,
    Json.int.injEq] at bodies
  exact ⟨bodies.2.2.2, bodies.2.2.1, Prod.ext bodies.1 bodies.2.1⟩

/-- Two tables that are read and end alike have the same events, and so have
the parts up to a position that is found in both. -/
def TamperEvident : Prop := ∀ first second found other,
  events first = .ok found -> events second = .ok other ->
    (found ≠ [] -> found.getLast?.map (fun event => (event.seq, event.checksum)) =
        other.getLast?.map (fun event => (event.seq, event.checksum)) -> found = other) ∧
    ∀ sequence checksum, checkPosition found sequence checksum = .ok () ->
      checkPosition other sequence checksum = .ok () ->
        found.take sequence.toNat = other.take sequence.toNat

omit [Hashing] in
theorem last_link {last : Event} (ends : found.getLast? = some last) :
    (found.map Event.link).getLast? = some last.link := by
  rw [List.getLast?_map, ends, Option.map_some]

/-- Chains of events of one length that end alike are equal. -/
theorem events_eq_of_last (injective : Function.Injective (Hashing.digest : Json -> String))
    {other : List Event} (left : Chained eventDigest 1 "" (found.map Event.link))
    (right : Chained eventDigest 1 "" (other.map Event.link)) {last also : Event}
    (ends : found.getLast? = some last) (alike : other.getLast? = some also)
    (lengths : found.length = other.length) (checksum : last.checksum = also.checksum) : found = other := by
  have nonempty : found.map Event.link ≠ [] := by
    intro empty
    have finish := last_link ends
    rw [empty] at finish
    cases finish
  have same : (found.map Event.link).length = (other.map Event.link).length := by
    rw [List.length_map, List.length_map, lengths]
  refine List.map_injective_iff.mpr link_injective
    (left.eq_of_last (eventDigest_binding injective) right nonempty same ?_).1
  rw [last_link ends, last_link alike]
  exact congrArg some checksum

omit [Hashing] in
theorem checkPosition_ok {sequence : Int} {checksum : String}
    (accepted : checkPosition found sequence checksum = .ok ()) :
    ∃ count : Nat, sequence = count + 1 ∧ ∃ event, found[count]? = some event ∧
      event.checksum = checksum := by
  rcases bind_ok accepted with ⟨_, bounds, accepted⟩
  have bounds := not_not.mp (raiseIf_ok bounds)
  have same := not_not.mp (raiseIf_ok accepted)
  rcases Option.map_eq_some_iff.mp same with ⟨event, there, equal⟩
  exact ⟨(sequence - 1).toNat, by omega, event, there, equal⟩

omit [Hashing] in
theorem getLast?_take {count : Nat} {event : Event} (there : found[count]? = some event) :
    (found.take (count + 1)).getLast? = some event ∧ (found.take (count + 1)).length = count + 1 := by
  rcases List.getElem?_eq_some_iff.mp there with ⟨bound, _⟩
  rw [List.length_take, Nat.min_eq_left bound, List.take_add_one, there]
  exact ⟨List.getLast?_concat, rfl⟩

theorem tamperEvident (injective : Function.Injective (Hashing.digest : Json -> String)) :
    TamperEvident := by
  intro first second found other read reread
  have left := readRows_chained read
  have right := readRows_chained reread
  refine ⟨?_, ?_⟩
  · intro nonempty same
    have ends := List.getLast?_eq_some_getLast nonempty
    rw [ends, Option.map_some] at same
    rcases Option.map_eq_some_iff.mp same.symm with ⟨last, alike, equal⟩
    rw [Prod.mk.injEq] at equal
    have lengths : found.length = other.length := by
      have one := left.last_seq (last_link ends)
      have two := right.last_seq (last_link alike)
      have number : last.link.seq = (found.getLast nonempty).link.seq := equal.1
      rw [List.length_map] at one two
      omega
    exact events_eq_of_last injective left right ends alike lengths equal.2.symm
  · intro sequence checksum position reposition
    rcases checkPosition_ok position with ⟨count, rfl, event, there, equal⟩
    rcases checkPosition_ok reposition with ⟨again, same, last, here, also⟩
    have counts : again = count := by omega
    subst counts
    have length : ((again : Int) + 1).toNat = again + 1 := by omega
    rw [length]
    rcases getLast?_take there with ⟨ends, long⟩
    rcases getLast?_take here with ⟨alike, equally⟩
    have shorter := left.take (again + 1)
    have shorter' := right.take (again + 1)
    rw [← List.map_take] at shorter shorter'
    exact events_eq_of_last injective shorter shorter' ends alike (long.trans equally.symm)
      (equal.trans also.symm)

/-! ## The round trip -/

/-- A journal of accepted batches is read back if and, where the digest tells
values apart, only if the texts of the payloads have the keys of their
dictionaries in order.  This is so for all payloads with texts as keys, and a
decoded payload is read back unchanged.  No part of a table up to its last
event or up to a checkpoint has other events and the same end. -/
theorem journal_round_trip (spell : ℚ -> String) :
    (∀ batches table, appendBatches spell [] batches = .ok table ->
      ((∀ entry ∈ batches.flatten, Settled spell entry.2) ->
        ∃ found, events table = .ok found ∧ Reads spell 1 batches.flatten found) ∧
      (Function.Injective (Hashing.digest : Json -> String) ->
        (¬ ∀ entry ∈ batches.flatten, Settled spell entry.2) ->
          events table = .error "journal_integrity_invalid")) ∧
    (∀ payload : Value, payload.TextKeyed -> Settled spell payload) ∧
    (∀ value : Json, value.Ordered ->
      Settled spell value.toValue ∧ normal spell value.toValue = value) ∧
    (Function.Injective (Hashing.digest : Json -> String) -> TamperEvident) := by
  refine ⟨?_, ?_, ?_, tamperEvident⟩
  · intro batches table accepted
    have empty : appendRows spell 1 "" [] = .ok [] := rfl
    have written := appendBatches_ok empty accepted
    exact ⟨fun settled => readRows_settled written settled,
      fun injective unsettled => readRows_unsettled injective written unsettled⟩
  · intro payload keyed encoded written
    rcases payload.dumps_ordered spell keyed with ⟨tree, same, ordered⟩
    cases written.symm.trans same
    exact Json.loads_ordered _ ordered
  · intro value ordered
    have written := value.dumps_toValue spell ordered
    refine ⟨?_, ?_⟩
    · intro encoded same
      cases written.symm.trans same
      exact value.loads_ordered ordered
    · rw [normal, written]
      exact value.loads_ordered ordered

end Reading

section Changed

attribute [local instance] Hashing.spelled

def spellNothing (_ : ℚ) : String := ""

def tuplePayload : Value := .dict [(.str "paths", .tuple [.str "a"])]

def numberedPayload : Value := .dict [(.int 9, .null), (.int 10, .null)]

/-- The rows of one accepted batch. -/
def tableOf (entries : List (String × Value)) : List Row :=
  match appendMany spellNothing [] entries with
  | .ok (table, _) => table
  | .error _ => []

/-- A row whose text names a member twice. -/
def repeated (row : Row) : Row :=
  { row with encoded := some (.obj [("a", .int 1), ("a", .int 2)]) }

def savedTable : List Row := tableOf [("trace", .dict [(.str "a", .int 2)])]

/-- A tuple is read back as a list, a batch with two numbers as keys makes the
table unreadable, and another text of the same payload is not noticed. -/
theorem journal_round_trip_changed :
    (∃ table, appendBatches spellNothing [] [[("trace", tuplePayload)]] = .ok table ∧
      ∃ event, events table = .ok [event] ∧ event.payload.toValue ≠ tuplePayload) ∧
    (∃ table, appendBatches spellNothing [] [[("trace", numberedPayload)]] = .ok table ∧
      events table = .error "journal_integrity_invalid") ∧
    savedTable ≠ savedTable.map repeated ∧
      (events savedTable).toOption = (events (savedTable.map repeated)).toOption ∧
      (events savedTable).isOk = true := by
  refine ⟨⟨_, rfl, _, rfl, nofun⟩, ⟨_, rfl, rfl⟩, ?_, rfl, rfl⟩
  intro same
  cases same

end Changed

end PlanRuntime
end FixLoop
