import FixLoop.DurableMemory.Topics

namespace FixLoop
namespace DurableMemory

open Library Scanning
open EditLock (Text strip)

/-!
# Runs of `promote`

The files of a topic are compared with the list that folding `_upsert_entry`
gives.  They agree as long as the chunk files fit in ten, and the newest
version of a subject is its last one as long as no entry but the last of its
subject is replaced.
-/

variable [Alphabet]

/-! ## The newest version -/

/-- The text is appended, or replaces the only entry of its subject. -/
def Current (entries : List Text) (text authority : Text) : Prop :=
  ∀ first, entries.find? (sameSubject text) = some first ->
    resolveConflict first text authority = .invalid ∨ entries.countP (sameSubject text) = 1

/-- The text, or a version of it with its mark. -/
def IsVersion (text entry : Text) : Prop :=
  entry = text ∨ ∃ ver ts, entry = versioned text ver ts

theorem sameSubject_self (text : Text) : sameSubject text text = true := beq_self_eq_true _

variable {entries : List Text} {text : Text}

theorem latest_append {entry : Text} (same : sameSubject text entry = true) :
    latestEntry (entries ++ [entry]) text = some entry := by
  rw [latestEntry, List.filter_append, List.filter_cons_of_pos same, List.filter_nil, List.getLast?_concat]

theorem upsertEntry_cases (entries : List Text) (text authority : Text) (now : Nat) :
    (entries.find? (sameSubject text) = none ∧ upsertEntry entries text authority now = entries ++ [text]) ∨
      ∃ before first after, entries = before ++ first :: after ∧
        (∀ entry ∈ before, sameSubject text entry = false) ∧ sameSubject text first = true ∧
        ((resolveConflict first text authority ∈ [.override, .equivalent] ∧
            upsertEntry entries text authority now = before ++ text :: after) ∨
          (resolveConflict first text authority = .invalid ∧ upsertEntry entries text authority now =
            entries ++ [versioned text (entries.countP (sameSubject text) + 1) now]) ∨
          (resolveConflict first text authority = .none ∧ upsertEntry entries text authority now = entries)) := by
  cases found : entries.findIdx? (sameSubject text) with
  | none =>
    refine Or.inl ⟨?_, by rw [upsertEntry, found]⟩
    exact List.find?_eq_none.mpr (fun entry member => by
      rw [List.findIdx?_eq_none_iff.mp found entry member]
      exact Bool.false_ne_true)
  | some i =>
    rcases List.findIdx?_eq_some_iff_getElem.mp found with ⟨bound, same, earlier⟩
    refine Or.inr ⟨entries.take i, entries[i], entries.drop (i + 1), ?_, ?_, same, ?_⟩
    · rw [<- List.drop_eq_getElem_cons bound, List.take_append_drop]
    · intro entry member
      rcases List.mem_iff_getElem.mp member with ⟨j, inside, rfl⟩
      rw [List.length_take] at inside
      rw [List.getElem_take]
      exact Bool.eq_false_iff.mpr (earlier j (by omega))
    · have place : entries.getD i [] = entries[i] := by
        rw [List.getD_eq_getElem?_getD, List.getElem?_eq_getElem bound, Option.getD_some]
      have changed : entries.set i text = entries.take i ++ text :: entries.drop (i + 1) :=
        List.set_eq_take_append_cons_drop .. |>.trans (if_pos bound)
      rw [upsertEntry, found]
      dsimp only
      rw [place, changed]
      cases resolveConflict entries[i] text authority with
      | none => exact Or.inr (Or.inr ⟨rfl, rfl⟩)
      | equivalent | override => exact Or.inl ⟨by decide, rfl⟩
      | invalid => exact Or.inr (Or.inl ⟨rfl, rfl⟩)

theorem resolveConflict_none {existing new authority : Text}
    (resolved : resolveConflict existing new authority = .none) : existing = [] := by
  unfold resolveConflict at resolved
  by_contra filled
  rw [if_neg filled] at resolved
  split at resolved
  · cases resolved
  · split at resolved <;> cases resolved

/-- After an upsert that is current, the text is the newest version of its
subject. -/
theorem latest_upsertEntry [LawfulAlphabet] {authority : Text}
    (nonempty : ∀ entry ∈ entries, entry ≠ []) (writable : Writable text)
    (current : Current entries text authority) (now : Nat) :
    ∃ entry, latestEntry (upsertEntry entries text authority now) text = some entry ∧
      IsVersion text entry := by
  rcases upsertEntry_cases entries text authority now with
    ⟨_, upserted⟩ | ⟨before, first, after, whole, earlier, same, outcome⟩
  · rw [upserted]
    exact ⟨text, latest_append (sameSubject_self text), Or.inl rfl⟩
  have found : entries.find? (sameSubject text) = some first := by
    rw [whole]
    exact List.find?_eq_some_iff_append.mpr ⟨same, before, after, rfl, fun entry member => by
      rw [earlier entry member]
      rfl⟩
  rcases outcome with ⟨replaces, upserted⟩ | ⟨_, upserted⟩ | ⟨resolved, _⟩
  · -- the entry that is replaced is the only one of its subject
    have differs : resolveConflict first text authority ≠ .invalid := by
      intro invalid
      rw [invalid] at replaces
      exact absurd replaces (by decide)
    have alone := (current first found).resolve_left differs
    have none_ (rest : List Text) (absent : rest.countP (sameSubject text) = 0) :
        rest.filter (sameSubject text) = [] :=
      List.filter_eq_nil_iff.mpr fun entry member => List.countP_eq_zero.mp absent entry member
    rw [whole, List.countP_append, List.countP_cons_of_pos same] at alone
    refine ⟨text, ?_, Or.inl rfl⟩
    rw [upserted, latestEntry, List.filter_append, List.filter_cons_of_pos (sameSubject_self text),
      none_ before (by omega), none_ after (by omega)]
    rfl
  · rw [upserted]
    exact ⟨_, latest_append (beq_iff_eq.mpr (subjectKey_versioned writable _ _)), Or.inr ⟨_, _, rfl⟩⟩
  · exact absurd (resolveConflict_none resolved) (nonempty first (by rw [whole]; simp))

omit [Alphabet] in
theorem storable_versioned (writable : Writable text) (noReturn : '\r' ∉ text) (ver ts : Nat) :
    Writable (versioned text ver ts) ∧ '\r' ∉ versioned text ver ts := by
  unfold versioned
  split
  · rename_i broken
    rcases firstLine_begins writable with ⟨char, line, begins, solid⟩
    have whole : firstLine text ++ text.dropWhile (fun char => char != '\n') = text :=
      List.takeWhile_append_dropWhile
    have filled : text.dropWhile (fun char => char != '\n') ≠ [] := by
      intro empty
      have stays := List.dropWhile_eq_nil_iff.mp empty '\n' broken
      cases stays
    have edges := strip_eq_iff.mp writable.stripped
    have last : (firstLine text ++ versionMark ver ts ++ text.dropWhile fun char => char != '\n').getLast? =
        text.getLast? := by
      conv_rhs => rw [<- whole]
      rw [List.getLast?_append_of_ne_nil _ filled, List.getLast?_append_of_ne_nil _ filled]
    refine ⟨⟨?_, strip_eq_iff.mpr ⟨?_, ?_⟩, ?_⟩, ?_⟩
    · rw [begins]
      exact List.cons_ne_nil _ _
    · intro first same
      rw [begins] at same
      cases same
      exact solid
    · rw [last]
      exact edges.2
    · intro inside
      have avoids (sign : Char) (member : sign ∈ rule) : sign ∉ versionMark ver ts := by
        have known : ∀ sign ∈ rule, sign ∈ ['\n', '\r', '-', '['] :=
          forall_mem_of_all (by decide)
        exact fun mark => (of_mem_versionMark mark).2 (known sign member)
      have parts : '\n' :: (firstLine text ++ versionMark ver ts ++ text.dropWhile (fun char => char != '\n') ++ ['\n']) =
          ('\n' :: firstLine text) ++ (versionMark ver ts ++ (text.dropWhile (fun char => char != '\n') ++ ['\n'])) := by
        simp
      rw [parts] at inside
      have source : '\n' :: (text ++ ['\n']) =
          ('\n' :: firstLine text) ++ (text.dropWhile (fun char => char != '\n') ++ ['\n']) := by
        conv_lhs => rw [<- whole]
        simp
      refine writable.noRule ?_
      rw [source]
      rcases infix_of_avoids inside (List.cons_ne_nil _ _) avoids with left | right
      · exact left.trans (List.prefix_append _ _).isInfix
      · exact right.trans (List.suffix_append _ _).isInfix
    · rw [List.mem_append, List.mem_append]
      rintro ((line | mark) | rest)
      · exact noReturn ((List.takeWhile_subset _) line)
      · exact (of_mem_versionMark mark).2 (by decide)
      · exact noReturn ((List.dropWhile_suffix _).subset rest)
  · exact ⟨writable, noReturn⟩

theorem storable_upsertEntry (storable : Storable entries) (writable : Writable text)
    (noReturn : '\r' ∉ text) (authority : Text) (now : Nat) :
    Storable (upsertEntry entries text authority now) := by
  have appended (entry : Text) (good : Writable entry ∧ '\r' ∉ entry) : Storable (entries ++ [entry]) := by
    intro other member
    rcases List.mem_append.mp member with inside | here
    · exact storable other inside
    · rw [List.mem_singleton.mp here]
      exact good
  rcases upsertEntry_cases entries text authority now with
    ⟨_, upserted⟩ | ⟨before, first, after, whole, _, _, ⟨_, upserted⟩ | ⟨_, upserted⟩ | ⟨_, upserted⟩⟩
  · rw [upserted]
    exact appended text ⟨writable, noReturn⟩
  · rw [upserted]
    intro other member
    rcases List.mem_append.mp member with inside | member
    · exact storable other (by rw [whole]; exact List.mem_append_left _ inside)
    · rcases List.mem_cons.mp member with rfl | inside
      · exact ⟨writable, noReturn⟩
      · exact storable other (by rw [whole]; simp [inside])
  · rw [upserted]
    exact appended _ (storable_versioned writable noReturn _ _)
  · rw [upserted]
    exact storable

theorem storable_upsertAll {texts : List (Text × Nat)} (storable : Storable entries)
    (good : ∀ text ∈ texts, Writable text.1 ∧ '\r' ∉ text.1) (authority : Text) :
    Storable (upsertAll authority entries texts) := by
  unfold upsertAll
  induction texts generalizing entries with
  | nil => exact storable
  | cons text rest ih =>
    have here := good text List.mem_cons_self
    exact ih (storable_upsertEntry storable here.1 here.2 authority text.2)
      (fun text member => good text (List.mem_cons_of_mem _ member))

omit [Alphabet] in
theorem storable_redacted (storable : Storable entries) (secrets : List Text) :
    Storable (entries.map (redactValue secrets)) := by
  intro entry member
  rcases List.mem_map.mp member with ⟨source, inside, rfl⟩
  exact ⟨(storable source inside).1.redactValue secrets, noReturn_redactValue (storable source inside).2 secrets⟩

/-! ## Runs -/

/-- What a call is given: texts that are nonempty, stripped and without a line
`---`. -/
def Call.Proper (call : Call) : Prop := ∀ promotion ∈ call.promotions, Writable promotion.text

/-- The condition on a call and the entries before it: no carriage returns, at
most ten chunk files, and every text is current when it is upserted. -/
structure Call.Safe (call : Call) (entries : Topic -> List Text) : Prop where
  noReturn : ∀ promotion ∈ call.promotions, '\r' ∉ promotion.text
  ordered : ∀ topic, byteSize (joined (call.folded topic (entries topic))) ≤ chunkThresholdBytes ∨
    (call.folded topic (entries topic)).length ≤ 150
  current : ∀ topic before text now after, call.texts topic = before ++ (text, now) :: after ->
    Current (upsertAll call.authority ((entries topic).map (redactValue call.secrets)) before) text call.authority

/-- The files and the folded entries after calls that are all proper and
safe. -/
inductive Reached : (Topic -> TopicFiles) -> (Topic -> List Text) -> Prop
  | start : Reached (fun _ => ⟨none, none⟩) fun _ => []
  | call {store : Topic -> TopicFiles} {entries : Topic -> List Text} (call : Call) (reached : Reached store entries)
      (proper : call.Proper) (safe : call.Safe entries) :
      Reached (promote store call) fun topic => call.folded topic (entries topic)

theorem Call.texts_good {call : Call} {entries : Topic -> List Text} (proper : call.Proper) (safe : call.Safe entries)
    (topic : Topic) {text : Text × Nat} (member : text ∈ call.texts topic) :
    Writable text.1 ∧ '\r' ∉ text.1 := by
  rcases List.mem_map.mp member with ⟨promotion, listed, rfl⟩
  have given := (List.mem_filter.mp listed).1
  exact ⟨(proper promotion given).redactValue call.secrets, noReturn_redactValue (safe.noReturn promotion given) _⟩

/-- The files hold the folded entries. -/
theorem Reached.agrees {store : Topic -> TopicFiles} {entries : Topic -> List Text} (reached : Reached store entries) :
    ∀ topic, (store topic).entries = entries topic ∧ Storable (entries topic) := by
  induction reached with
  | start => exact fun _ => ⟨rfl, nofun⟩
  | @call store entries call reached proper safe ih =>
    intro topic
    rcases ih topic with ⟨same, storable⟩
    have folded : Storable (call.folded topic (entries topic)) := by
      unfold Call.folded
      split
      · exact storable
      · exact storable_upsertAll (storable_redacted storable call.secrets)
          (fun text member => Call.texts_good proper safe topic member) call.authority
    refine ⟨?_, folded⟩
    have ordered := safe.ordered topic
    change (promote store call topic).entries = call.folded topic (entries topic)
    unfold promote
    by_cases none_ : call.texts topic = []
    · rw [if_pos none_, same, Call.folded, if_pos none_]
    · rw [if_neg none_, same]
      rw [Call.folded, if_neg none_] at ordered folded
      rw [Call.folded, if_neg none_]
      exact entries_writeTopic folded ordered

/-- In every run whose calls are safe, a topic is read back as the folded list,
and every text is the newest version of its subject when it is upserted, so
the last one of a call is so in the files. -/
theorem promote_reads_back [LawfulAlphabet] {store : Topic -> TopicFiles} {entries : Topic -> List Text}
    (reached : Reached store entries) :
    (∀ topic, (store topic).entries = entries topic) ∧
      ∀ call : Call, call.Proper -> call.Safe entries -> ∀ topic,
        (promote store call topic).entries = call.folded topic (entries topic) ∧
        (∀ before text now after, call.texts topic = before ++ (text, now) :: after ->
          ∃ entry, IsVersion text entry ∧ latestEntry (upsertAll call.authority
            ((entries topic).map (redactValue call.secrets)) (before ++ [(text, now)])) text = some entry) ∧
        ∀ before text now, call.texts topic = before ++ [(text, now)] ->
          ∃ entry, IsVersion text entry ∧
            latestEntry (promote store call topic).entries text = some entry := by
  refine ⟨fun topic => (reached.agrees topic).1, ?_⟩
  intro call proper safe topic
  have next := (Reached.call call reached proper safe).agrees topic
  have latest (before : List (Text × Nat)) (text : Text) (now : Nat) (after : List (Text × Nat))
      (texts : call.texts topic = before ++ (text, now) :: after) :
      ∃ entry, IsVersion text entry ∧ latestEntry (upsertAll call.authority
        ((entries topic).map (redactValue call.secrets)) (before ++ [(text, now)])) text = some entry := by
    have good (other : Text × Nat) (member : other ∈ call.texts topic) := Call.texts_good proper safe topic member
    have earlier (other : Text × Nat) (member : other ∈ before) : Writable other.1 ∧ '\r' ∉ other.1 :=
      good other (by rw [texts]; exact List.mem_append_left _ member)
    have storable := storable_upsertAll (storable_redacted (reached.agrees topic).2 call.secrets) earlier call.authority
    have here := good (text, now) (by rw [texts]; simp)
    rcases latest_upsertEntry (fun entry member => (storable entry member).1.nonempty) here.1
      (safe.current topic before text now after texts) now with ⟨entry, newest, version⟩
    refine ⟨entry, version, ?_⟩
    rw [upsertAll, List.foldl_append]
    exact newest
  refine ⟨next.1, latest, ?_⟩
  intro before text now texts
  rcases latest before text now [] texts with ⟨entry, version, newest⟩
  refine ⟨entry, version, ?_⟩
  have some_ : call.texts topic ≠ [] := by
    rw [texts]
    exact fun empty => absurd (List.append_eq_nil_iff.mp empty).2 (List.cons_ne_nil _ _)
  rw [next.1, Call.folded, if_neg some_, texts]
  exact newest

/-- The files after some calls. -/
def promoteAll (calls : List Call) : Topic -> TopicFiles := calls.foldl promote fun _ => ⟨none, none⟩

/-- A call that promotes one decision. -/
def decision (text : String) (now : Nat) : Call := ⟨[⟨"decision".toList, text.toList, now⟩], "auto".toList, []⟩

omit [Alphabet]

/-- Only the letters of ASCII have two cases. -/
@[reducible] def asciiAlphabet : Alphabet where
  lower := fun text => text.map Char.toLower
  alnum := Char.isAlphanum

/-- The codes of white space lie outside the digits and letters of ASCII. -/
theorem space_code {char : Char} (space : Strings.isSpace char = true) :
    char.toNat < 48 ∨ 122 < char.toNat := by
  simp only [Strings.isSpace, Bool.or_eq_true, Bool.and_eq_true, decide_eq_true_eq, beq_iff_eq] at space
  omega

theorem lawful_asciiAlphabet : @LawfulAlphabet asciiAlphabet := by
  refine @LawfulAlphabet.mk asciiAlphabet ?_ (by decide) ?_
  · intro char space
    have code := space_code space
    change char.isAlphanum = false
    rw [Bool.eq_false_iff]
    intro letter
    delta Char.isAlphanum Char.isAlpha Char.isUpper Char.isLower Char.isDigit at letter
    simp only [Bool.or_eq_true, Bool.and_eq_true, decide_eq_true_eq, UInt32.le_iff_toNat_le, ge_iff_le] at letter
    change char.val.toNat < 48 ∨ 122 < char.val.toNat at code
    have upper : 'A'.val.toNat = 65 ∧ 'Z'.val.toNat = 90 := ⟨rfl, rfl⟩
    have lower : 'a'.val.toNat = 97 ∧ 'z'.val.toNat = 122 := ⟨rfl, rfl⟩
    have digit : '0'.val.toNat = 48 ∧ '9'.val.toNat = 57 := ⟨rfl, rfl⟩
    omega
  · intro text char rest _ uncased
    have same (other : Char) (member : other ∈ char :: rest) : other.toLower = id other := by
      rcases uncased other member with space | listed
      · have code := space_code space
        change other.val.toNat < 48 ∨ 122 < other.val.toNat at code
        unfold Char.toLower
        rw [dif_neg]
        · rfl
        · have first : 'A'.val.toNat = 65 := rfl
          have last : 'Z'.val.toNat = 90 := rfl
          simp only [ge_iff_le, UInt32.le_iff_toNat_le]
          omega
      · have signs : ∀ sign ∈ "#v@0123456789".toList, sign.toLower = id sign :=
          forall_mem_of_all (by decide)
        exact signs other listed
    change (text ++ char :: rest).map Char.toLower = text.map Char.toLower ++ char :: rest
    rw [List.map_append, List.map_congr_left same, List.map_id]

/-- A decision of two lines. -/
theorem promote_reads_back_decision :
    letI := asciiAlphabet
    let entries := (promoteAll [decision "A\nx" 1] .keyDecisions).entries
    entries = ["A\nx".toList] ∧
      ∃ entry, IsVersion "A\nx".toList entry ∧ latestEntry entries "A\nx".toList = some entry := by
  let := asciiAlphabet
  have := lawful_asciiAlphabet
  have proper : (decision "A\nx" 1).Proper := by
    intro promotion member
    rw [List.mem_singleton.mp member]
    exact ⟨by decide, by decide, by decide⟩
  have texts (topic : Topic) : (decision "A\nx" 1).texts topic =
      if topic = .keyDecisions then [("A\nx".toList, 1)] else [] := by
    cases topic <;> decide +kernel
  have safe : (decision "A\nx" 1).Safe (fun _ => []) := by
    refine ⟨by decide, fun topic => Or.inl ?_, ?_⟩
    · rw [Call.folded, texts]
      cases topic <;> decide +kernel
    · intro topic before text now after same
      rw [texts] at same
      split at same
      · cases before with
        | nil => exact nofun
        | cons first others =>
          have empty := (List.cons.inj same).2
          exact absurd empty.symm (by simp)
      · exact absurd same.symm (by simp)
  rcases (promote_reads_back .start).2 (decision "A\nx" 1) proper safe .keyDecisions with ⟨back, _, latest⟩
  refine ⟨back.trans ?_, latest [] "A\nx".toList 1 ((texts .keyDecisions).trans rfl)⟩
  rw [Call.folded, texts]
  decide +kernel

/-- A text that is promoted again after another one of its subject replaces
the first entry, and the other one stays the newest. -/
theorem promote_again :
    letI := asciiAlphabet
    let entries := (promoteAll [decision "A\nx" 1, decision "A\ny" 2, decision "A\nx" 3] .keyDecisions).entries
    (∀ call ∈ [decision "A\nx" 1, decision "A\ny" 2, decision "A\nx" 3], call.Proper) ∧
      entries = ["A\nx".toList, "A  # v2 @2\ny".toList] ∧
        latestEntry entries "A\nx".toList = some "A  # v2 @2\ny".toList ∧
          ¬ IsVersion "A\nx".toList "A  # v2 @2\ny".toList := by
  refine ⟨?_, by decide +kernel, by decide +kernel, ?_⟩
  · have writable : ∀ text ∈ ["A\nx", "A\ny"], Writable text.toList := by
      intro text member
      rcases List.mem_cons.mp member with rfl | member
      · exact ⟨by decide, by decide, by decide⟩
      · rw [List.mem_singleton.mp member]
        exact ⟨by decide, by decide, by decide⟩
    have proper (text : String) (member : text ∈ ["A\nx", "A\ny"]) (now : Nat) : (decision text now).Proper := by
      intro promotion listed
      rw [List.mem_singleton.mp listed]
      exact writable text member
    intro call member
    simp only [List.mem_cons, List.not_mem_nil, or_false] at member
    rcases member with rfl | rfl | rfl
    · exact proper _ (by decide) 1
    · exact proper _ (by decide) 2
    · exact proper _ (by decide) 3
  · rintro (same | ⟨ver, ts, same⟩)
    · cases same
    · have last := congrArg List.getLast? same
      rw [versioned, if_pos (by decide), List.getLast?_append_of_ne_nil _ (by decide)] at last
      cases last

end DurableMemory
end FixLoop
