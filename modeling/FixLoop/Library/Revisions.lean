import Mathlib.Data.List.Range

namespace FixLoop
namespace Library

/-!
# Append-only histories of revisions

Each entry of a history is a revision of the thing its key names.  Admitting
an entry retires the newest earlier one under its key, so a history shows at
most one entry in force for each key.  Histories are kept newest first.
-/

namespace Revisions

universe u v

variable {Entry : Type u} {Key : Type v} [DecidableEq Key] (keyOf : Entry -> Key)
  (retired : Entry -> Entry)

/-- The entries under a key. -/
def under (key : Key) (history : List Entry) : List Entry :=
  history.filter fun entry => keyOf entry = key

/-- The entry that a dictionary of the newest entries holds under a key. -/
def newest (key : Key) (history : List Entry) : Option Entry :=
  history.find? fun entry => keyOf entry = key

/-- The values of the dictionary of the newest entries. -/
def latest : List Entry -> List Entry
  | [] => []
  | entry :: older => entry :: (latest older).filter fun other => keyOf other ≠ keyOf entry

def retireNewest (key : Key) : List Entry -> List Entry
  | [] => []
  | entry :: older =>
    if keyOf entry = key then retired entry :: older else entry :: retireNewest key older

def receive (entry : Entry) (history : List Entry) : List Entry :=
  entry :: retireNewest keyOf retired (keyOf entry) history

/-- What an entry must be so that it can follow the history: the first
revision of its key, or the successor of a revision that is not final. -/
def Follows (revisionOf : Entry -> Int) (final : Entry -> Prop) (entry : Entry)
    (history : List Entry) : Prop :=
  match newest keyOf (keyOf entry) history with
  | none => revisionOf entry = 1
  | some previous => revisionOf entry = revisionOf previous + 1 ∧ ¬ final previous

/-- The histories that admission builds, each with the entries as they were
admitted, the last one at the end. -/
inductive Admitted (revisionOf : Entry -> Int) (final : Entry -> Prop) :
    List Entry -> List Entry -> Prop where
  | none : Admitted revisionOf final [] []
  | more {entries history : List Entry} {entry : Entry} :
      Admitted revisionOf final entries history ->
      Follows keyOf revisionOf final entry history ->
      Admitted revisionOf final (entries ++ [entry]) (receive keyOf retired entry history)

/-! ## The entries under one key -/

theorem newest_eq_head? (key : Key) (history : List Entry) :
    newest keyOf key history = (under keyOf key history).head? :=
  List.head?_filter.symm

variable {key : Key} {history : List Entry} {entry : Entry}

theorem keyOf_newest (found : newest keyOf key history = some entry) : keyOf entry = key :=
  of_decide_eq_true (@List.find?_some _ (fun entry => decide (keyOf entry = key)) _ _ found)

theorem mem_of_newest (found : newest keyOf key history = some entry) : entry ∈ history :=
  List.mem_of_find?_eq_some found

theorem mem_latest (found : newest keyOf key history = some entry) : entry ∈ latest keyOf history := by
  induction history with
  | nil => cases found
  | cons first older ih =>
    rw [newest, List.find?_cons] at found
    by_cases here : keyOf first = key
    · rw [decide_eq_true here] at found
      cases found
      exact List.mem_cons_self
    · rw [decide_eq_false here] at found
      refine List.mem_cons_of_mem _ (List.mem_filter.mpr ⟨ih found, decide_eq_true ?_⟩)
      rw [keyOf_newest keyOf found]
      exact fun same => here same.symm

@[simp] theorem newest_receive (entry : Entry) (history : List Entry) :
    newest keyOf (keyOf entry) (receive keyOf retired entry history) = some entry := by
  rw [newest, receive, List.find?_cons, decide_eq_true rfl]

variable {keyOf} {retired}

theorem mem_retireNewest (member : entry ∈ retireNewest keyOf retired key history) :
    entry ∈ history ∨ ∃ original ∈ history, entry = retired original := by
  induction history with
  | nil => exact Or.inl member
  | cons first older ih =>
    by_cases here : keyOf first = key
    · rw [retireNewest, if_pos here] at member
      rcases List.mem_cons.mp member with same | later
      · exact Or.inr ⟨first, List.mem_cons_self, same⟩
      · exact Or.inl (List.mem_cons_of_mem _ later)
    · rw [retireNewest, if_neg here] at member
      rcases List.mem_cons.mp member with same | later
      · exact Or.inl (same ▸ List.mem_cons_self)
      · rcases ih later with kept | ⟨original, listed, same⟩
        · exact Or.inl (List.mem_cons_of_mem _ kept)
        · exact Or.inr ⟨original, List.mem_cons_of_mem _ listed, same⟩

/-- What holds of the admitted entries and survives retirement holds of the
whole history. -/
theorem Admitted.all {revisionOf : Entry -> Int} {final : Entry -> Prop} {good : Entry -> Prop}
    (survives : ∀ entry, good entry -> good (retired entry)) {entries : List Entry}
    (admitted : Admitted keyOf retired revisionOf final entries history)
    (each : ∀ entry ∈ entries, good entry) (entry : Entry) (member : entry ∈ history) :
    good entry := by
  induction admitted generalizing entry with
  | none => exact absurd member List.not_mem_nil
  | @more entries history last before follows ih =>
    have earlier := ih fun other listed => each other (List.mem_append_left _ listed)
    rcases List.mem_cons.mp member with same | older
    · rw [same]
      exact each last (List.mem_append_right _ List.mem_cons_self)
    · rcases mem_retireNewest older with kept | ⟨original, listed, same⟩
      · exact earlier entry kept
      · rw [same]
        exact survives original (earlier original listed)

theorem under_retireNewest_ne (keeps : ∀ entry, keyOf (retired entry) = keyOf entry) {other : Key}
    (apart : other ≠ key) (history : List Entry) :
    under keyOf other (retireNewest keyOf retired key history) = under keyOf other history := by
  induction history with
  | nil => rfl
  | cons entry older ih =>
    by_cases here : keyOf entry = key
    · have elsewhere : ¬ keyOf entry = other := fun same => apart (same.symm.trans here)
      rw [retireNewest, if_pos here, under, under,
        List.filter_cons_of_neg (by rw [keeps]; simpa using elsewhere),
        List.filter_cons_of_neg (by simpa using elsewhere)]
    · rw [retireNewest, if_neg here]
      by_cases listed : keyOf entry = other
      · rw [under, List.filter_cons_of_pos (by simpa using listed), under,
          List.filter_cons_of_pos (by simpa using listed)]
        exact congrArg _ ih
      · rw [under, List.filter_cons_of_neg (by simpa using listed), under,
          List.filter_cons_of_neg (by simpa using listed)]
        exact ih

theorem under_retireNewest (keeps : ∀ entry, keyOf (retired entry) = keyOf entry)
    (key : Key) (history : List Entry) :
    under keyOf key (retireNewest keyOf retired key history) =
      (under keyOf key history).modifyHead retired := by
  induction history with
  | nil => rfl
  | cons entry older ih =>
    by_cases here : keyOf entry = key
    · rw [retireNewest, if_pos here, under,
        List.filter_cons_of_pos (by rw [keeps]; simpa using here), under,
        List.filter_cons_of_pos (by simpa using here)]
      rfl
    · rw [retireNewest, if_neg here, under, List.filter_cons_of_neg (by simpa using here), under,
        List.filter_cons_of_neg (by simpa using here)]
      exact ih

theorem under_receive (keeps : ∀ entry, keyOf (retired entry) = keyOf entry) (entry : Entry)
    (history : List Entry) :
    under keyOf (keyOf entry) (receive keyOf retired entry history) =
      entry :: (under keyOf (keyOf entry) history).modifyHead retired := by
  rw [receive, under, List.filter_cons_of_pos (by simp), <- under_retireNewest keeps]
  rfl

theorem under_receive_ne (keeps : ∀ entry, keyOf (retired entry) = keyOf entry)
    (apart : key ≠ keyOf entry) (history : List Entry) :
    under keyOf key (receive keyOf retired entry history) = under keyOf key history := by
  rw [receive, under, List.filter_cons_of_neg (by simpa using apart.symm)]
  exact under_retireNewest_ne keeps apart history

/-! ## What admission keeps -/

/-- Revision numbers from one on. -/
def countUp (count : Nat) : List Int := (List.range count).map fun index : Nat => (index : Int) + 1

@[simp] theorem countUp_succ (count : Nat) : countUp (count + 1) = countUp count ++ [(count : Int) + 1] := by
  rw [countUp, List.range_succ, List.map_append]
  rfl

theorem getLast?_countUp_succ (count : Nat) : (countUp (count + 1)).getLast? = some ((count : Int) + 1) := by
  rw [countUp_succ, List.getLast?_concat]

/-- The entries under a key are its revisions from one on, and all of them
but the last are shown as retired and were not final. -/
structure Ordered (retired : Entry -> Entry) (revisionOf : Entry -> Int) (final : Entry -> Prop)
    (entries shown : List Entry) : Prop where
  revisions : entries.map revisionOf = countUp entries.length
  shownRevisions : (shown.map revisionOf).reverse = countUp entries.length
  inForce : shown.head? = entries.getLast?
  superseded : ∀ entry ∈ shown.tail, ∃ original, entry = retired original
  unfinished : ∀ entry ∈ entries.dropLast, ¬ final entry

variable {revisionOf : Entry -> Int} {final : Entry -> Prop}

theorem under_concat (key : Key) (entries : List Entry) (entry : Entry) :
    under keyOf key (entries ++ [entry]) =
      if keyOf entry = key then under keyOf key entries ++ [entry] else under keyOf key entries := by
  rw [under, List.filter_append]
  by_cases here : keyOf entry = key
  · rw [if_pos here, List.filter_cons_of_pos (by simpa using here), List.filter_nil]
    rfl
  · rw [if_neg here, List.filter_cons_of_neg (by simpa using here), List.filter_nil, List.append_nil]
    rfl

theorem map_modifyHead_retired (keepsRevision : ∀ entry, revisionOf (retired entry) = revisionOf entry)
    (shown : List Entry) : (shown.modifyHead retired).map revisionOf = shown.map revisionOf := by
  cases shown with
  | nil => rfl
  | cons entry older => rw [List.modifyHead_cons, List.map_cons, List.map_cons, keepsRevision]

theorem Ordered.more (keepsRevision : ∀ entry, revisionOf (retired entry) = revisionOf entry)
    {entries shown : List Entry} (ordered : Ordered retired revisionOf final entries shown) {entry : Entry}
    (follows : match shown.head? with
      | none => revisionOf entry = 1
      | some previous => revisionOf entry = revisionOf previous + 1 ∧ ¬ final previous) :
    Ordered retired revisionOf final (entries ++ [entry]) (entry :: shown.modifyHead retired) := by
  have successor : revisionOf entry = (entries.length : Int) + 1 := by
    rw [ordered.inForce] at follows
    rcases List.eq_nil_or_concat entries with none | ⟨earlier, previous, ends⟩
    · subst none
      exact follows
    · subst ends
      rw [List.concat_eq_append, List.getLast?_concat] at follows
      have last := congrArg List.getLast? ordered.revisions
      rw [List.concat_eq_append, List.map_append, List.map_singleton, List.getLast?_concat,
        List.length_append, List.length_singleton, getLast?_countUp_succ] at last
      rw [follows.1, Option.some.inj last, List.concat_eq_append, List.length_append,
        List.length_singleton, Int.natCast_add]
      rfl
  refine ⟨?_, ?_, ?_, ?_, ?_⟩
  · rw [List.map_append, List.length_append, List.length_singleton, countUp_succ, ordered.revisions,
      List.map_singleton, successor]
  · rw [List.map_cons, List.reverse_cons, map_modifyHead_retired keepsRevision, ordered.shownRevisions,
      List.length_append, List.length_singleton, countUp_succ, successor]
  · rw [List.head?_cons, List.getLast?_concat]
  · intro other member
    rw [List.tail_cons] at member
    cases shown with
    | nil => cases member
    | cons newest older =>
      rcases List.mem_cons.mp member with here | later
      · exact ⟨newest, here⟩
      · exact ordered.superseded other later
  · intro other member
    rw [List.dropLast_concat] at member
    rcases List.eq_nil_or_concat entries with none | ⟨earlier, previous, ends⟩
    · subst none
      cases member
    · have unfinished := ordered.unfinished other
      rw [ordered.inForce] at follows
      subst ends
      rw [List.concat_eq_append, List.getLast?_concat] at follows
      rw [List.concat_eq_append, List.dropLast_concat] at unfinished
      rcases List.mem_append.mp (List.concat_eq_append ▸ member) with before | last
      · exact unfinished before
      · rw [List.mem_singleton.mp last]
        exact follows.2

theorem Admitted.ordered (keeps : ∀ entry, keyOf (retired entry) = keyOf entry)
    (keepsRevision : ∀ entry, revisionOf (retired entry) = revisionOf entry) {entries : List Entry}
    (admitted : Admitted keyOf retired revisionOf final entries history) (key : Key) :
    Ordered retired revisionOf final (under keyOf key entries) (under keyOf key history) := by
  induction admitted with
  | none =>
    refine ⟨rfl, rfl, rfl, ?_, ?_⟩
    · exact fun _ member => absurd member List.not_mem_nil
    · exact fun _ member => absurd member List.not_mem_nil
  | @more entries history entry before follows ih =>
    by_cases here : keyOf entry = key
    · subst here
      rw [under_concat, if_pos rfl, under_receive keeps]
      refine ih.more keepsRevision ?_
      rw [<- newest_eq_head?]
      exact follows
    · rw [under_concat, if_neg here, under_receive_ne keeps fun same => here same.symm]
      exact ih

end Revisions

end Library
end FixLoop
