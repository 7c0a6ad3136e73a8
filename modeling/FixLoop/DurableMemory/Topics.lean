import Mathlib.Data.List.Lex
import Mathlib.Data.Char
import Mathlib.Data.List.Sort
import FixLoop.DurableMemory.Subjects

namespace FixLoop
namespace DurableMemory

open Library Scanning
open EditLock (Text strip)

/-!
# Topics and their files

A topic is a list of entries.  It is kept in one file, or, beyond a size, in
chunk files of fifteen entries, which are read back in the order of their
names.
-/

variable [Alphabet]

/-! ## Entries -/

/-- `AUTHORITY_ORDER.get(authority, 1)`. -/
def authorityRank (authority : Text) : Nat :=
  if authority = "user".toList then 3 else if authority = "agent".toList then 2 else 1

/-- `re.search(r"\[authority:(\w+)\]", text)`: the name. -/
def searchAuthority : Text -> Option Text
  | [] => none
  | char :: rest =>
    match authorityAt (char :: rest) with
    | some found => some found.1
    | none => searchAuthority rest

inductive ConflictResolution where
  | none
  | equivalent
  | override
  | invalid
deriving DecidableEq

def resolveConflict (existing new newAuthority : Text) : ConflictResolution :=
  if existing = [] then .none
  else if Alphabet.lower (strip existing) = Alphabet.lower (strip new) then .equivalent
  else if authorityRank ((searchAuthority existing).getD "auto".toList) < authorityRank newAuthority then .override
  else .invalid

def sameSubject (text entry : Text) : Bool := subjectKey entry == subjectKey text

/-- `_upsert_entry`, with the time in seconds. -/
def upsertEntry (entries : List Text) (newText authority : Text) (now : Nat) : List Text :=
  match entries.findIdx? (sameSubject newText) with
  | none => entries ++ [newText]
  | some i =>
    match resolveConflict (entries.getD i []) newText authority with
    | .override | .equivalent => entries.set i newText
    | .invalid => entries ++ [versioned newText (entries.countP (sameSubject newText) + 1) now]
    | .none => entries

def latestEntry (entries : List Text) (subject : Text) : Option Text :=
  (entries.filter (sameSubject subject)).getLast?

/-! ## Files -/

/-- The files of a topic: the single file, and the directory of chunk files by
their names. -/
structure TopicFiles where
  inline : Option Text
  chunks : Option (List (Text × Text))

def chunkThresholdBytes : Nat := 32768

def chunkEntriesPerFile : Nat := 15

/-- `len(text.encode("utf-8"))`. -/
def byteSize (text : Text) : Nat := text.foldl (fun size char => size + char.utf8Size) 0

/-- Universal newlines, as a file is read. -/
def universal : Text -> Text
  | [] => []
  | '\r' :: '\n' :: rest => '\n' :: universal rest
  | '\r' :: rest => '\n' :: universal rest
  | char :: rest => char :: universal rest

/-- `"\n\n---\n\n".join(entries) + "\n"`. -/
def joined : List Text -> Text
  | [] => ['\n']
  | [entry] => entry ++ ['\n']
  | entry :: next :: rest => entry ++ '\n' :: (rule ++ '\n' :: joined (next :: rest))

/-- The entries in the text of a file. -/
def readEntries (content : Text) : List Text :=
  ((splitText rule (universal content)).map strip).filter fun entry => entry ≠ []

/-- `_topic_strategy`. -/
def TopicFiles.isChunked (files : TopicFiles) : Bool :=
  files.chunks.isSome || files.inline.any fun content => chunkThresholdBytes < byteSize content

def readChunked (files : TopicFiles) : List Text :=
  match files.chunks with
  | none => []
  | some files => (files.insertionSort fun first second => first.1 ≤ second.1).flatMap fun file => readEntries file.2

def readTopic (files : TopicFiles) (chunked : Bool) : List Text :=
  if chunked then readChunked files
  else
    match files.inline with
    | none => []
    | some content => readEntries content

/-- `f"chunk-{ci}.md"`. -/
def chunkName (ci : Nat) : Text := "chunk-".toList ++ Nat.toDigits 10 ci ++ ".md".toList

def chunkFiles (entries : List Text) : List (Text × Text) :=
  (List.range ((entries.length + (chunkEntriesPerFile - 1)) / chunkEntriesPerFile)).map (fun ci =>
    (chunkName ci, joined ((entries.drop (chunkEntriesPerFile * ci)).take chunkEntriesPerFile)))

/-- `_write_topic`: whatever files there were before are removed. -/
def writeTopic (entries : List Text) : TopicFiles :=
  if entries = [] then ⟨none, none⟩
  else if byteSize (joined entries) ≤ chunkThresholdBytes then ⟨some (joined entries), none⟩
  else ⟨none, some (chunkFiles entries)⟩

def TopicFiles.entries (files : TopicFiles) : List Text := readTopic files files.isChunked

/-! ## `promote` -/

inductive Topic where
  | projectConventions
  | keyDecisions
  | dependencyFacts
  | userPreferences
deriving DecidableEq

def normalizeTopic (topic : Text) : Topic :=
  let t := Alphabet.lower topic
  if t = "key-decisions".toList ∨ t = "decision".toList then .keyDecisions
  else if t = "dependency-facts".toList ∨ t = "dependency".toList then .dependencyFacts
  else if t = "user-preferences".toList ∨ t = "preference".toList then .userPreferences
  else .projectConventions

/-- An entry to promote, with the time at which it is upserted. -/
structure Promotion where
  topic : Text
  text : Text
  now : Nat

/-- A call of `promote`, with the values of sensitive environment variables. -/
structure Call where
  promotions : List Promotion
  authority : Text
  secrets : List Text

/-- The texts for a topic, redacted, and their times. -/
def Call.texts (call : Call) (topic : Topic) : List (Text × Nat) :=
  (call.promotions.filter fun promotion => normalizeTopic promotion.topic = topic).map
    (fun promotion => (redactValue call.secrets promotion.text, promotion.now))

/-- The loop over the texts of a topic. -/
def upsertAll (authority : Text) (entries : List Text) (texts : List (Text × Nat)) : List Text :=
  texts.foldl (fun entries text => upsertEntry entries text.1 authority text.2) entries

/-- `promote`.  The topics are written one after another, each in files of its
own. -/
def promote (store : Topic -> TopicFiles) (call : Call) : Topic -> TopicFiles := fun topic =>
  if call.texts topic = [] then store topic
  else
    let existing := (store topic).entries.map (redactValue call.secrets)
    writeTopic (upsertAll call.authority existing (call.texts topic))

/-- The entries that folding `_upsert_entry` over the texts of a call gives. -/
def Call.folded (call : Call) (topic : Topic) (entries : List Text) : List Text :=
  if call.texts topic = [] then entries
  else upsertAll call.authority (entries.map (redactValue call.secrets)) (call.texts topic)

section Reading

omit [Alphabet]

theorem universal_eq_self {text : Text} (noReturn : '\r' ∉ text) : universal text = text := by
  fun_induction universal text with
  | case1 => rfl
  | case2 rest ih => exact absurd List.mem_cons_self noReturn
  | case3 rest other ih => exact absurd List.mem_cons_self noReturn
  | case4 char rest _ _ ih => rw [ih fun member => noReturn (List.mem_cons_of_mem _ member)]

/-- The separator does not begin within a written entry. -/
theorem rule_free {entry rest : Text} (noRule : ¬ rule.IsInfix ('\n' :: (entry ++ ['\n'])))
    (next : rest = [] ∨ ∃ more, rest = rule ++ more) {tail : Text} (filled : tail ≠ [])
    (ends : tail.IsSuffix ('\n' :: (entry ++ ['\n']))) : ¬ rule.IsPrefix (tail ++ rest) := by
  intro opens
  -- the tail ends in `\n`, and the separator has no `\n` but its ends
  rcases List.eq_nil_or_concat tail with empty | ⟨front, last, same⟩
  · exact filled empty
  have newline : last = '\n' := by
    rcases ends with ⟨before, whole⟩
    rw [same, List.concat_eq_append, <- List.append_assoc, <- List.cons_append] at whole
    exact (List.append_inj' whole rfl).2 |> List.cons.inj |>.1
  rw [same, newline, List.concat_eq_append] at opens ends
  rcases front with _ | ⟨a, _ | ⟨b, _ | ⟨c, _ | ⟨d, front⟩⟩⟩⟩
  · rcases next with rfl | ⟨more, rfl⟩
    · exact absurd opens.length_le (by decide)
    · rcases opens with ⟨after, whole⟩
      cases whole
  · rcases opens with ⟨after, whole⟩
    cases whole
  · rcases opens with ⟨after, whole⟩
    cases whole
  · rcases opens with ⟨after, whole⟩
    cases whole
  · refine noRule (List.IsInfix.trans ?_ ends.isInfix)
    refine (List.prefix_of_prefix_length_le opens (List.prefix_append _ rest) ?_).isInfix
    simp [rule]

theorem strip_between {entry lead : Text} (writable : Writable entry)
    (blank : ∀ char ∈ lead, Strings.isSpace char = true) :
    strip (lead ++ (entry ++ ['\n'])) = entry := by
  have edges := strip_eq_iff.mp writable.stripped
  cases shape : entry with
  | nil => exact absurd shape writable.nonempty
  | cons char rest =>
    have solid : ¬ Strings.isSpace char = true := Bool.eq_false_iff.mp (edges.1 char (by rw [shape]; rfl))
    unfold strip
    rw [List.dropWhile_append_of_pos blank, List.cons_append, List.dropWhile_cons_of_neg solid,
      <- List.cons_append, List.reverse_append, List.reverse_singleton, List.singleton_append,
      List.dropWhile_cons_of_pos rfl]
    cases reversed : (char :: rest).reverse with
    | nil => exact absurd (List.reverse_eq_nil_iff.mp reversed) (List.cons_ne_nil _ _)
    | cons last others =>
      have ends : (char :: rest).getLast? = some last := by rw [<- List.head?_reverse, reversed]; rfl
      have stops : ¬ Strings.isSpace last = true := Bool.eq_false_iff.mp (edges.2 last (by rw [shape]; exact ends))
      rw [List.dropWhile_cons_of_neg stops, <- reversed, List.reverse_reverse]

theorem split_joined {entries : List Text} (filled : entries ≠ [])
    (writable : ∀ entry ∈ entries, Writable entry) {lead : Text} (leads : lead = [] ∨ lead = ['\n']) :
    (splitFrom rule 0 [] (lead ++ joined entries)).map strip = entries := by
  have blank (lead : Text) (leads : lead = [] ∨ lead = ['\n']) (char : Char) (member : char ∈ lead) :
      Strings.isSpace char = true := by
    rcases leads with rfl | rfl
    · cases member
    · rw [List.mem_singleton.mp member]
      rfl
  have ending (lead entry : Text) (leads : lead = [] ∨ lead = ['\n']) :
      (lead ++ (entry ++ ['\n'])).IsSuffix ('\n' :: (entry ++ ['\n'])) := by
    rcases leads with rfl | rfl
    · exact List.suffix_cons _ _
    · exact List.suffix_rfl
  induction entries generalizing lead with
  | nil => exact absurd rfl filled
  | cons entry others ih =>
    have here := writable entry List.mem_cons_self
    have piece (rest : Text) (next : rest = [] ∨ ∃ more, rest = rule ++ more) :
        splitFrom rule 0 [] ((lead ++ (entry ++ ['\n'])) ++ rest) =
          splitFrom rule 0 (lead ++ (entry ++ ['\n'])) rest :=
      splitFrom_append (fun tail filled ends =>
        rule_free here.noRule next filled (ends.trans (ending lead entry leads))) []
    cases others with
    | nil =>
      have alone := piece [] (Or.inl rfl)
      rw [List.append_nil] at alone
      rw [joined, alone, splitFrom, List.map_singleton, strip_between here (blank lead leads)]
    | cons next rest =>
      have later := ih (List.cons_ne_nil _ _) (fun entry member => writable entry (List.mem_cons_of_mem _ member))
        (Or.inr rfl)
      have whole : lead ++ joined (entry :: next :: rest) =
          (lead ++ (entry ++ ['\n'])) ++ (rule ++ (['\n'] ++ joined (next :: rest))) := by
        simp [joined]
      rw [whole, piece _ (Or.inr ⟨_, rfl⟩), splitFrom_separator (by decide), List.map_cons,
        strip_between here (blank lead leads), later]

theorem noReturn_joined {entries : List Text} (noReturn : ∀ entry ∈ entries, '\r' ∉ entry) :
    '\r' ∉ joined entries := by
  fun_induction joined entries with
  | case1 => decide
  | case2 entry =>
    rw [List.mem_append, not_or]
    exact ⟨noReturn entry List.mem_cons_self, by decide⟩
  | case3 entry next rest ih =>
    have later := ih fun entry member => noReturn entry (List.mem_cons_of_mem _ member)
    have separator : '\r' ∉ rule := by decide
    simp only [List.mem_append, List.mem_cons, not_or]
    exact ⟨noReturn entry List.mem_cons_self, by decide, separator, by decide, later⟩

/-- What a topic may hold. -/
def Storable (entries : List Text) : Prop := ∀ entry ∈ entries, Writable entry ∧ '\r' ∉ entry

theorem readEntries_joined {entries : List Text} (storable : Storable entries) :
    readEntries (joined entries) = entries := by
  rw [readEntries, universal_eq_self (noReturn_joined fun entry member => (storable entry member).2)]
  by_cases filled : entries = []
  · rw [filled]
    rfl
  · have back := split_joined filled (fun entry member => (storable entry member).1) (Or.inl rfl)
    rw [List.nil_append] at back
    rw [splitText, back, List.filter_eq_self]
    exact fun entry member => decide_eq_true (storable entry member).1.nonempty

theorem flatMap_chunks {A : Type} (entries : List A) (size count : Nat) :
    (List.range count).flatMap (fun ci => (entries.drop (size * ci)).take size) = entries.take (size * count) := by
  induction count with
  | zero => rw [Nat.mul_zero, List.take_zero]; rfl
  | succ count ih =>
    rw [List.range_succ, List.flatMap_append, ih, Nat.mul_succ, List.take_add, List.flatMap_singleton]

/-- The first ten names are in the order of their numbers. -/
theorem chunkNames_sorted {count : Nat} (few : count ≤ 10) :
    List.Pairwise (fun first second => chunkName first ≤ chunkName second) (List.range count) := by
  have ten : List.Pairwise (fun first second => chunkName first ≤ chunkName second) (List.range 10) := by
    decide +kernel
  have prefix_ : (List.range count).Sublist (List.range 10) := List.range_sublist.mpr few
  exact ten.sublist prefix_

theorem readChunked_chunkFiles {entries : List Text} (storable : Storable entries) (few : entries.length ≤ 150) :
    readChunked ⟨none, some (chunkFiles entries)⟩ = entries := by
  have count : (entries.length + (chunkEntriesPerFile - 1)) / chunkEntriesPerFile ≤ 10 := by
    unfold chunkEntriesPerFile
    omega
  have enough : entries.length ≤
      chunkEntriesPerFile * ((entries.length + (chunkEntriesPerFile - 1)) / chunkEntriesPerFile) := by
    unfold chunkEntriesPerFile
    omega
  have sorted : List.Pairwise (fun first second : Text × Text => first.1 ≤ second.1) (chunkFiles entries) := by
    unfold chunkFiles
    rw [List.pairwise_map]
    exact chunkNames_sorted count
  unfold readChunked
  dsimp only
  rw [sorted.insertionSort_eq, chunkFiles, List.flatMap_map]
  have each (ci : Nat) : readEntries (joined ((entries.drop (chunkEntriesPerFile * ci)).take chunkEntriesPerFile)) =
      (entries.drop (chunkEntriesPerFile * ci)).take chunkEntriesPerFile :=
    readEntries_joined (fun entry member =>
      storable entry (List.mem_of_mem_drop (List.mem_of_mem_take member)))
  simp only [each, flatMap_chunks, List.take_of_length_le enough]

/-- What is written is read back, as long as ten chunk files suffice. -/
theorem entries_writeTopic {entries : List Text} (storable : Storable entries)
    (ordered : byteSize (joined entries) ≤ chunkThresholdBytes ∨ entries.length ≤ 150) :
    (writeTopic entries).entries = entries := by
  unfold writeTopic
  split
  · rename_i empty
    rw [empty]
    rfl
  · split
    · rename_i small
      have inline : (⟨some (joined entries), none⟩ : TopicFiles).isChunked = false := by
        change (false || decide (chunkThresholdBytes < byteSize (joined entries))) = false
        rw [Bool.false_or, decide_eq_false (Nat.not_lt_of_le small)]
      rw [TopicFiles.entries, inline]
      exact readEntries_joined storable
    · rename_i large
      exact readChunked_chunkFiles storable (ordered.resolve_left large)

end Reading

end DurableMemory
end FixLoop
