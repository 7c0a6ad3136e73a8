import FixLoop.Observations.Expansion

namespace FixLoop
namespace Observations

open Library

/-!
# What a collection removes

A collection removes the stale records and, above the limit, the oldest
records of the registry, and with them the blobs that nothing in this registry
refers to any more.
-/

section Collections

set_option linter.unusedSectionVars false

variable {Who Digest : Type} [DecidableEq Who] [DecidableEq Digest] [Texts Digest]

namespace ObservationStore

variable (store : ObservationStore Digest)

def actives : List (Record Digest) :=
  store.candidates.filter fun record => decide (record.lifecycle = .active)

/-- The oldest active records beyond the given number. -/
def beyond (maxRecords : ℤ) : List (Record Digest) :=
  store.actives.take ((store.actives.length : ℤ) - maxRecords).toNat

variable {store}

variable {record : Record Digest} {maxRecords : ℤ}

theorem mem_candidates : record ∈ store.candidates <-> record ∈ store.registry :=
  List.mem_insertionSort _

theorem nodup_candidates (sound : store.Sound) : store.candidates.Nodup :=
  (List.perm_insertionSort _ _).nodup_iff.mpr (List.Nodup.of_map Record.observationId sound.distinct)

theorem nodup_actives (sound : store.Sound) : store.actives.Nodup := (nodup_candidates sound).filter _

theorem length_candidates : store.candidates.length = store.registry.length := List.length_insertionSort _ _

theorem stale_of_not_active : decide (record.lifecycle = .stale) = !decide (record.lifecycle = .active) := by
  cases record.lifecycle with
  | active => rfl
  | stale => rfl

theorem length_staleOnes : store.staleOnes.length + store.actives.length = store.registry.length := by
  have parts := @List.length_eq_length_filter_add _ store.candidates
    (fun record => decide (record.lifecycle = .active))
  have same : (fun record : Record Digest => decide (record.lifecycle = .stale)) =
      fun record => !decide (record.lifecycle = .active) := funext fun _ => stale_of_not_active
  rw [<- length_candidates, parts, staleOnes, actives, same, add_comm]

theorem removals_listed (member : record ∈ store.removals maxRecords) : record ∈ store.registry := by
  rcases List.mem_append.mp member with stale | old
  · exact mem_candidates.mp (List.mem_filter.mp stale).1
  · split at old
    · exact mem_candidates.mp (List.mem_of_mem_take old)
    · cases old

/-! ## The registry -/

theorem collect_registry (record : Record Digest) :
    (store.collect record).registry = Keyed.without Record.observationId record.observationId store.registry := by
  rw [collect]
  split
  · next missing =>
      refine (List.filter_eq_self.mpr fun other member => ?_).symm
      exact decide_eq_true (Keyed.find?_none.mp missing other member)
  · rfl

theorem gc_fold_registry (records : List (Record Digest)) :
    (records.foldl (fun left record => left.collect record) store).registry =
      store.registry.filter (fun other => decide (other.observationId ∉ records.map Record.observationId)) := by
  induction records generalizing store with
  | nil =>
    refine (List.filter_eq_self.mpr fun other _ => ?_).symm
    exact decide_eq_true List.not_mem_nil
  | cons record rest ih =>
    rw [List.foldl_cons, ih, collect_registry, Keyed.without, List.filter_filter]
    refine List.filter_congr fun other _ => ?_
    rw [<- Bool.decide_and]
    refine decide_eq_decide.mpr ?_
    rw [List.map_cons, List.mem_cons, not_or, and_comm]

/-- The records that stay are those that are not removed. -/
theorem gc_registry (sound : store.Sound) (maxRecords : ℤ) :
    (store.gc maxRecords).registry =
      store.registry.filter (fun record => decide (record ∉ store.removals maxRecords)) := by
  rw [gc, gc_fold_registry]
  refine List.filter_congr fun record member => decide_eq_decide.mpr (not_congr ⟨fun listed => ?_, fun removed => ?_⟩)
  · rcases List.mem_map.mp listed with ⟨other, removed, same⟩
    rwa [<- List.inj_on_of_nodup_map sound.distinct (removals_listed removed) member same]
  · exact List.mem_map_of_mem removed

/-- Every stale record is among those that the limit takes. -/
def StaleFirst (store : ObservationStore Digest) (maxRecords : ℤ) : Prop :=
  (store.actives.length : ℤ) ≤ maxRecords ∨
    ∀ record ∈ store.staleOnes, record ∈ store.candidates.take (store.excess maxRecords)

theorem mem_removals_within (within : (store.actives.length : ℤ) ≤ maxRecords) (record : Record Digest) :
    record ∈ store.removals maxRecords <-> record ∈ store.staleOnes := by
  have total := @length_staleOnes Digest _ _ store
  rw [removals, if_neg (by omega), List.append_nil]

theorem mem_removals_above (above : maxRecords < store.actives.length) (record : Record Digest) :
    record ∈ store.removals maxRecords <->
      record ∈ store.staleOnes ∨ record ∈ store.candidates.take (store.excess maxRecords) := by
  have total := @length_staleOnes Digest _ _ store
  rw [removals, if_pos (by omega), List.mem_append]

/-- The active records that the limit leaves, newest last. -/
def remaining (store : ObservationStore Digest) (maxRecords : ℤ) : List (Record Digest) :=
  (store.candidates.drop (store.excess maxRecords)).filter fun record => decide (record.lifecycle = .active)

/-- An active record stays where it is after the part of the list that goes. -/
theorem mem_drop_of_nodup {Item : Type} {items : List Item} (nodup : items.Nodup) (count : Nat) (item : Item) :
    item ∈ items.drop count <-> item ∈ items ∧ item ∉ items.take count := by
  have parts := List.take_append_drop count items
  have apart := List.disjoint_of_nodup_append (parts.symm ▸ nodup)
  constructor
  · exact fun later => ⟨List.mem_of_mem_drop later, fun first => apart first later⟩
  · rintro ⟨member, notFirst⟩
    rw [<- parts] at member
    exact (List.mem_append.mp member).resolve_left notFirst

theorem staleFirst_iff (sound : store.Sound) (above : maxRecords < store.actives.length) :
    (∀ record, record ∈ store.remaining maxRecords <->
      record ∈ store.actives.drop ((store.actives.length : ℤ) - maxRecords).toNat) <->
      ∀ record ∈ store.staleOnes, record ∈ store.candidates.take (store.excess maxRecords) := by
  have nodup := nodup_candidates sound
  have total := @length_staleOnes Digest _ _ store
  have length := @length_candidates Digest _ _ store
  have dropped := @List.length_eq_length_filter_add _ (store.candidates.drop (store.excess maxRecords))
    (fun record => decide (record.lifecycle = .active))
  have suffixLength : (store.candidates.drop (store.excess maxRecords)).length =
      store.candidates.length - store.excess maxRecords := List.length_drop
  have expectedLength : (store.actives.drop ((store.actives.length : ℤ) - maxRecords).toNat).length =
      store.actives.length - ((store.actives.length : ℤ) - maxRecords).toNat := List.length_drop
  constructor
  · intro same record stale
    by_contra outside
    have later : record ∈ store.candidates.drop (store.excess maxRecords) :=
      (mem_drop_of_nodup nodup _ record).mpr ⟨(List.mem_filter.mp stale).1, outside⟩
    have inactive : record ∈ (store.candidates.drop (store.excess maxRecords)).filter
        (fun record => !decide (record.lifecycle = .active)) :=
      List.mem_filter.mpr ⟨later, stale_of_not_active.symm.trans (List.mem_filter.mp stale).2⟩
    have some := List.length_pos_of_mem inactive
    have equal : (store.remaining maxRecords).length =
        (store.actives.drop ((store.actives.length : ℤ) - maxRecords).toNat).length := by
      refine ((List.perm_ext_iff_of_nodup ?_ ?_).mpr same).length_eq
      · exact (nodup.sublist (List.drop_sublist _ _)).filter _
      · exact (nodup_actives sound).sublist (List.drop_sublist _ _)
    rw [remaining] at equal
    rw [excess] at dropped suffixLength equal some
    omega
  · intro first record
    have active : (store.candidates.drop (store.excess maxRecords)).filter
        (fun record => decide (record.lifecycle = .active)) = store.candidates.drop (store.excess maxRecords) := by
      refine List.filter_eq_self.mpr (fun other member => ?_)
      by_contra inactive
      have both := (mem_drop_of_nodup nodup _ other).mp member
      refine both.2 (first other (List.mem_filter.mpr ⟨both.1, ?_⟩))
      rw [stale_of_not_active, eq_false_of_ne_true inactive]
      rfl
    have parts : store.actives = (store.candidates.take (store.excess maxRecords)).filter
        (fun record => decide (record.lifecycle = .active)) ++ store.candidates.drop (store.excess maxRecords) := by
      rw [actives]
      conv_lhs => rw [<- List.take_append_drop (store.excess maxRecords) store.candidates, List.filter_append, active]
    have count := congrArg List.length parts
    rw [List.length_append] at count
    have same : store.actives.drop ((store.actives.length : ℤ) - maxRecords).toNat =
        store.candidates.drop (store.excess maxRecords) := by
      by_cases negative : maxRecords < 0
      · rw [List.drop_eq_nil_of_le (by omega), List.drop_eq_nil_of_le (by rw [excess]; omega)]
      · rw [parts]
        refine List.drop_left' ?_
        rw [<- parts]
        rw [excess] at count suffixLength ⊢
        omega
    rw [remaining, active, same]

/-- The active records that are not among the oldest beyond the limit. -/
def kept (store : ObservationStore Digest) (maxRecords : ℤ) : List (Record Digest) :=
  store.registry.filter fun record => decide (record.lifecycle = .active ∧ record ∉ store.beyond maxRecords)

theorem filter_eq_filter_iff {Item : Type} {items : List Item} {first second : Item -> Bool} :
    items.filter first = items.filter second <->
      ∀ item ∈ items, (first item = true <-> second item = true) := by
  refine ⟨fun same item member => ?_, fun same => List.filter_congr fun item member => ?_⟩
  · have listed : item ∈ items.filter first <-> item ∈ items.filter second := by rw [same]
    rwa [List.mem_filter, List.mem_filter, and_iff_right member, and_iff_right member] at listed
  · exact Bool.eq_iff_iff.mpr (same item member)

theorem mem_staleOnes :
    record ∈ store.staleOnes <-> record ∈ store.registry ∧ ¬ record.lifecycle = .active := by
  rw [staleOnes, List.mem_filter, mem_candidates, stale_of_not_active, Bool.not_eq_true', decide_eq_false_iff_not]

theorem mem_actives : record ∈ store.actives <-> record ∈ store.registry ∧ record.lifecycle = .active := by
  rw [actives, List.mem_filter, mem_candidates, decide_eq_true_eq]

theorem gc_within (within : (store.actives.length : ℤ) ≤ maxRecords) (member : record ∈ store.registry) :
    record ∉ store.removals maxRecords <-> record.lifecycle = .active ∧ record ∉ store.beyond maxRecords := by
  have none : store.beyond maxRecords = [] := by
    rw [beyond, Int.toNat_eq_zero.mpr (by omega), List.take_zero]
  rw [mem_removals_within within, mem_staleOnes, none, not_and_not_right, and_iff_left List.not_mem_nil]
  exact forall_prop_of_true member

theorem gc_above (sound : store.Sound) (above : maxRecords < store.actives.length)
    (member : record ∈ store.registry) :
    (record ∉ store.removals maxRecords <-> record ∈ store.remaining maxRecords) ∧
      (record.lifecycle = .active ∧ record ∉ store.beyond maxRecords <->
        record ∈ store.actives.drop ((store.actives.length : ℤ) - maxRecords).toNat) := by
  have nodup := nodup_candidates sound
  constructor
  · rw [mem_removals_above above, not_or, mem_staleOnes, not_and_not_right, forall_prop_of_true member, remaining,
      List.mem_filter, mem_drop_of_nodup nodup, mem_candidates, and_iff_right member, decide_eq_true_eq, and_comm]
  · rw [mem_drop_of_nodup (nodup_actives sound), mem_actives, and_iff_right member, beyond]

/-- A collection removes the stale records and the oldest active ones beyond
the limit exactly where the stale records come first. -/
theorem gc_exact (sound : store.Sound) (maxRecords : ℤ) :
    (store.gc maxRecords).registry = store.kept maxRecords <-> store.StaleFirst maxRecords := by
  rw [gc_registry sound, kept, filter_eq_filter_iff]
  simp only [decide_eq_true_eq]
  by_cases within : (store.actives.length : ℤ) ≤ maxRecords
  · exact ⟨fun _ => .inl within, fun _ record member => gc_within within member⟩
  · have above := not_le.mp within
    rw [StaleFirst, or_iff_right within, <- staleFirst_iff sound above]
    constructor
    · intro same record
      by_cases member : record ∈ store.registry
      · rw [<- (gc_above sound above member).1, <- (gc_above sound above member).2]
        exact same record member
      · refine ⟨fun left => ?_, fun left => ?_⟩
        · exact absurd (mem_candidates.mp (List.mem_of_mem_drop (List.mem_filter.mp left).1)) member
        · exact absurd (mem_actives.mp (List.mem_of_mem_drop left)).1 member
    · intro same record member
      rw [(gc_above sound above member).1, (gc_above sound above member).2]
      exact same record

/-- As many active records as there are, up to the limit. -/
theorem length_kept (sound : store.Sound) (maxRecords : Nat) :
    (store.kept maxRecords).length = min maxRecords store.actives.length := by
  have same : (store.kept maxRecords).Perm
      (store.actives.drop ((store.actives.length : ℤ) - maxRecords).toNat) := by
    refine (List.perm_ext_iff_of_nodup ?_ ?_).mpr fun record => ?_
    · exact (List.Nodup.of_map Record.observationId sound.distinct).filter _
    · exact (nodup_actives sound).sublist (List.drop_sublist _ _)
    · rw [kept, List.mem_filter, decide_eq_true_eq, mem_drop_of_nodup (nodup_actives sound), mem_actives, and_assoc, beyond]
  rw [same.length_eq, List.length_drop]
  omega

end ObservationStore

end Collections

end Observations
end FixLoop
