import Mathlib
import FixLoop.Library.Machine
import FixLoop.RepairLoop.FailureLedger

namespace FixLoop
namespace RepairLoop

open Library

/-!
# What the failure ledger forbids

The ledger is stored after every round with its lists cut to the first
twelve files.  The rounds that lose nothing by that are described exactly.
-/

/-! ## Lists without repetitions -/

theorem added_cons (known : List String) (file : String) (files : List String) :
    added known (file :: files) = added (if file ≠ "" ∧ file ∉ known then known ++ [file] else known) files := rfl

variable {known files : List String} {file : String} {change : Hypothesis -> Hypothesis} {place : Nat}
  {hypothesis : Hypothesis} {chosen : FailureLedger}

theorem mem_added : file ∈ added known files <-> file ∈ known ∨ (file ∈ files ∧ file ≠ "") := by
  induction files generalizing known with
  | nil => simp [added]
  | cons head files ih =>
    rw [added_cons, ih]
    by_cases fresh : head ≠ "" ∧ head ∉ known
    · rw [if_pos fresh, List.mem_append, List.mem_singleton, List.mem_cons]
      have named := fresh.1
      grind
    · rw [if_neg fresh, List.mem_cons]
      grind

theorem added_starts (known files : List String) : known <+: added known files := by
  induction files generalizing known with
  | nil => exact List.prefix_refl known
  | cons head files ih =>
    rw [added_cons]
    split_ifs
    · exact (List.prefix_append known [head]).trans (ih _)
    · exact ih known

/-- Files that are known already add nothing. -/
theorem added_known (all : ∀ file ∈ files, file ∈ known) : added known files = known := by
  induction files with
  | nil => rfl
  | cons head files ih =>
    have here : ¬ (head ≠ "" ∧ head ∉ known) := fun fresh => fresh.2 (all head List.mem_cons_self)
    rw [added_cons, if_neg here]
    exact ih fun file member => all file (List.mem_cons_of_mem _ member)

theorem mem_take_added (short : known.length ≤ 12) (files : List String) (member : file ∈ known) :
    file ∈ (added known files).take 12 := by
  obtain ⟨new, whole⟩ := added_starts known files
  rw [← whole, List.take_append, List.take_of_length_le short]
  exact List.mem_append_left _ member

theorem patchFiles_named {patches : List CandidatePatch} (member : file ∈ patchFiles patches) :
    file ≠ "" := by
  rcases mem_added.mp member with impossible | listed
  · exact absurd impossible List.not_mem_nil
  · exact listed.2

/-! ## Hypotheses -/

/-- Two hypotheses have different names, and one of them at most is active. -/
def Apart (first second : Hypothesis) : Prop :=
  first.id ≠ second.id ∧ ¬ (first.status = .active ∧ second.status = .active)

def hypothesisName (number : Nat) : String := "H" ++ toString number

theorem hypothesisName_injective {first second : Nat} (same : hypothesisName first = hypothesisName second) :
    first = second := by
  have texts := congrArg String.toList same
  simp only [hypothesisName, String.toList_append, List.append_cancel_left_eq] at texts
  have names : toString first = toString second := String.toList_injective texts
  exact Nat.repr_inj.mp names

structure WellFormed (hypothesis : Hypothesis) : Prop where
  hashes : hypothesis.verifyHashes.Nodup
  named : ∀ file ∈ hypothesis.files, file ≠ ""

/-- What holds of every ledger. -/
structure Sound (ledger : FailureLedger) : Prop where
  apart : ledger.hypotheses.Pairwise Apart
  numbered : ∀ hypothesis ∈ ledger.hypotheses,
    ∃ number, number < ledger.nextId ∧ hypothesis.id = hypothesisName number
  wellFormed : ∀ hypothesis ∈ ledger.hypotheses, WellFormed hypothesis
  positive : 0 < ledger.nextId

namespace FailureLedger

theorem lastActive_some {hypotheses : List Hypothesis} {place : Nat} (found : lastActive hypotheses = some place) :
    ∃ hypothesis, hypotheses[place]? = some hypothesis ∧ hypothesis.status = .active := by
  induction hypotheses generalizing place with
  | nil => cases found
  | cons head rest ih =>
    rw [lastActive] at found
    cases later : lastActive rest with
    | some other =>
      rw [later] at found
      cases found
      obtain ⟨hypothesis, there, status⟩ := ih later
      exact ⟨hypothesis, there, status⟩
    | none =>
      rw [later] at found
      by_cases here : head.status = .active
      · simp only [if_pos here] at found
        cases found
        exact ⟨head, rfl, here⟩
      · simp only [if_neg here] at found
        cases found

end FailureLedger

theorem pairwise_modify {related : Hypothesis -> Hypothesis -> Prop}
    (keeps : ∀ first second, related first second -> related (change first) second ∧ related first (change second))
    {hypotheses : List Hypothesis} (place : Nat) (paired : hypotheses.Pairwise related) :
    (hypotheses.modify place change).Pairwise related := by
  induction hypotheses generalizing place with
  | nil => simp
  | cons head rest ih =>
    obtain ⟨first, later⟩ := List.pairwise_cons.mp paired
    cases place with
    | zero =>
      rw [List.modify_zero_cons]
      exact List.pairwise_cons.mpr ⟨fun other member => (keeps _ _ (first other member)).1, later⟩
    | succ place =>
      rw [List.modify_succ_cons]
      refine List.pairwise_cons.mpr ⟨?_, ih place later⟩
      intro other member
      obtain ⟨index, there⟩ := List.mem_iff_getElem?.mp member
      rw [List.getElem?_modify] at there
      cases before : rest[index]? with
      | none =>
        rw [before] at there
        cases there
      | some original =>
        rw [before] at there
        have held := first original (List.mem_of_getElem? before)
        by_cases same : place = index
        · simp only [Option.map_eq_map, Option.map_some, if_pos same, Option.some.injEq] at there
          exact there ▸ (keeps _ _ held).2
        · simp only [Option.map_eq_map, Option.map_some, if_neg same, Option.some.injEq] at there
          exact there ▸ held

/-- A change in one place that keeps the name of the hypothesis and makes none
active. -/
structure Keeping (change : Hypothesis -> Hypothesis) : Prop where
  id : ∀ hypothesis, (change hypothesis).id = hypothesis.id
  status : ∀ hypothesis, (change hypothesis).status = .active -> hypothesis.status = .active
  wellFormed : ∀ hypothesis, WellFormed hypothesis -> WellFormed (change hypothesis)

variable {ledger : FailureLedger}

theorem mem_modify {hypotheses : List Hypothesis} (member : hypothesis ∈ hypotheses.modify place change) :
    ∃ original ∈ hypotheses, (hypothesis = original ∨ hypothesis = change original) := by
  obtain ⟨index, there⟩ := List.mem_iff_getElem?.mp member
  rw [List.getElem?_modify] at there
  cases before : hypotheses[index]? with
  | none =>
    rw [before] at there
    cases there
  | some original =>
    rw [before] at there
    refine ⟨original, List.mem_of_getElem? before, ?_⟩
    by_cases same : place = index
    · simp only [Option.map_eq_map, Option.map_some, if_pos same, Option.some.injEq] at there
      exact .inr there.symm
    · simp only [Option.map_eq_map, Option.map_some, if_neg same, Option.some.injEq] at there
      exact .inl there.symm

theorem Sound.modify (sound : Sound ledger) (keeping : Keeping change) (place : Nat)
    (negatedFiles regressionFiles : List String) (lastVerifyHash lastBucket : String) :
    Sound { ledger with
      hypotheses := ledger.hypotheses.modify place change
      negatedFiles := negatedFiles
      regressionFiles := regressionFiles
      lastVerifyHash := lastVerifyHash
      lastBucket := lastBucket } where
  apart := by
    refine pairwise_modify (fun first second apart => ?_) place sound.apart
    refine ⟨⟨?_, ?_⟩, ⟨?_, ?_⟩⟩
    · rw [keeping.id]
      exact apart.1
    · exact fun both => apart.2 ⟨keeping.status _ both.1, both.2⟩
    · rw [keeping.id]
      exact apart.1
    · exact fun both => apart.2 ⟨both.1, keeping.status _ both.2⟩
  numbered := by
    intro hypothesis member
    obtain ⟨original, held, rfl | rfl⟩ := mem_modify member
    · exact sound.numbered _ held
    · rw [keeping.id]
      exact sound.numbered original held
  wellFormed := by
    intro hypothesis member
    obtain ⟨original, held, rfl | rfl⟩ := mem_modify member
    · exact sound.wellFormed _ held
    · exact keeping.wellFormed original (sound.wellFormed original held)
  positive := sound.positive

/-- Only the hypotheses and the next number matter. -/
theorem Sound.of_same {other : FailureLedger} (sound : Sound ledger) (hypotheses : other.hypotheses = ledger.hypotheses)
    (nextId : other.nextId = ledger.nextId) : Sound other where
  apart := hypotheses ▸ sound.apart
  numbered := by
    rw [hypotheses, nextId]
    exact sound.numbered
  wellFormed := hypotheses ▸ sound.wellFormed
  positive := nextId ▸ sound.positive

theorem supersede_id (hypothesis : Hypothesis) : (FailureLedger.supersede hypothesis).id = hypothesis.id := by
  unfold FailureLedger.supersede
  split_ifs <;> rfl

theorem supersede_files (hypothesis : Hypothesis) : (FailureLedger.supersede hypothesis).files = hypothesis.files := by
  unfold FailureLedger.supersede
  split_ifs <;> rfl

theorem supersede_not_active (hypothesis : Hypothesis) :
    (FailureLedger.supersede hypothesis).status ≠ .active := by
  unfold FailureLedger.supersede
  split_ifs with active
  · exact HypothesisStatus.noConfusion
  · exact active

theorem supersede_negated (hypothesis : Hypothesis) :
    (FailureLedger.supersede hypothesis).status = .negated <-> hypothesis.status = .negated := by
  unfold FailureLedger.supersede
  split_ifs with active
  · simp [active]
  · rfl

theorem supersede_wellFormed (wellFormed : WellFormed hypothesis) :
    WellFormed (FailureLedger.supersede hypothesis) := by
  unfold FailureLedger.supersede
  split_ifs
  · exact ⟨wellFormed.hashes, wellFormed.named⟩
  · exact wellFormed

theorem Sound.opened (sound : Sound ledger) (named : ∀ file ∈ files, file ≠ "") (note : String) :
    Sound (ledger.openHypothesis files note) where
  apart := by
    refine List.pairwise_append.mpr ⟨?_, List.pairwise_singleton _ _, ?_⟩
    · refine List.pairwise_map.mpr (sound.apart.imp ?_)
      intro first second apart
      rw [Apart, supersede_id, supersede_id]
      exact ⟨apart.1, fun both => supersede_not_active first both.1⟩
    · intro earlier member new here
      obtain ⟨original, held, rfl⟩ := List.mem_map.mp member
      rw [List.mem_singleton.mp here]
      obtain ⟨number, below, name⟩ := sound.numbered original held
      refine ⟨?_, fun both => supersede_not_active original both.1⟩
      rw [supersede_id, name]
      exact fun same => absurd (hypothesisName_injective same) (Nat.ne_of_lt below)
  numbered := by
    intro hypothesis member
    rcases List.mem_append.mp member with earlier | new
    · obtain ⟨original, held, rfl⟩ := List.mem_map.mp earlier
      obtain ⟨number, below, name⟩ := sound.numbered original held
      exact ⟨number, Nat.lt_succ_of_lt below, (supersede_id original).trans name⟩
    · rw [List.mem_singleton.mp new]
      exact ⟨ledger.nextId, Nat.lt_succ_self _, rfl⟩
  wellFormed := by
    intro hypothesis member
    rcases List.mem_append.mp member with earlier | new
    · obtain ⟨original, held, rfl⟩ := List.mem_map.mp earlier
      exact supersede_wellFormed (sound.wellFormed original held)
    · rw [List.mem_singleton.mp new]
      exact ⟨List.nodup_nil, named⟩
  positive := Nat.succ_pos _

/-- What is loaded of a sound ledger after it has been stored. -/
theorem Sound.stored (sound : Sound ledger) : Sound (FailureLedger.fromDict (some ledger.toDict)) where
  apart := by
    refine List.pairwise_map.mpr ((sound.apart.sublist (List.drop_sublist _ _)).imp ?_)
    intro first second apart
    exact apart
  numbered := by
    intro hypothesis member
    obtain ⟨original, held, rfl⟩ := List.mem_map.mp member
    change ∃ number, number < (if ledger.nextId = 0 then 1 else ledger.nextId) ∧ _
    rw [if_neg (Nat.pos_iff_ne_zero.mp sound.positive)]
    exact sound.numbered original (List.mem_of_mem_drop held)
  wellFormed := by
    intro hypothesis member
    obtain ⟨original, held, rfl⟩ := List.mem_map.mp member
    have wellFormed := sound.wellFormed original (List.mem_of_mem_drop held)
    exact ⟨wellFormed.hashes.sublist (List.take_sublist _ _), wellFormed.named⟩
  positive := by
    change 0 < (if ledger.nextId = 0 then 1 else ledger.nextId)
    rw [if_neg (Nat.pos_iff_ne_zero.mp sound.positive)]
    exact sound.positive

/-! ## The hypothesis of a round -/

/-- What is known of the hypothesis that a round is about, and of the others,
in the ledger where it has its place. -/
structure Chosen (ledger chosen : FailureLedger) (place : Nat) (subject : Hypothesis) : Prop where
  sound : Sound chosen
  there : chosen.hypotheses[place]? = some subject
  active : subject.status = .active
  others : ∀ index hypothesis, index ≠ place -> chosen.hypotheses[index]? = some hypothesis ->
    ∃ original ∈ ledger.hypotheses, original.id = hypothesis.id ∧
      original.files = hypothesis.files ∧ (hypothesis.status = .negated <-> original.status = .negated)
  notNegated : ∀ original ∈ ledger.hypotheses, original.id = subject.id -> original.status ≠ .negated
  opened : (chosen.nextId = ledger.nextId ∧ chosen.hypotheses.length = ledger.hypotheses.length) ∨
    (chosen.nextId = ledger.nextId + 1 ∧
      (chosen.hypotheses.drop ledger.hypotheses.length).map Hypothesis.id = [hypothesisName ledger.nextId])

theorem Sound.eq_of_id (sound : Sound ledger) {first second : Hypothesis} (one : first ∈ ledger.hypotheses)
    (other : second ∈ ledger.hypotheses) (same : first.id = second.id) : first = second := by
  have names : (ledger.hypotheses.map Hypothesis.id).Nodup :=
    List.pairwise_map.mpr (sound.apart.imp fun apart => apart.1)
  exact List.inj_on_of_nodup_map names one other same

theorem chosen_active (sound : Sound ledger) (found : ledger.active = some place) :
    ∃ subject, Chosen ledger ledger place subject := by
  obtain ⟨subject, there, active⟩ := FailureLedger.lastActive_some found
  refine ⟨subject, sound, there, active, ?_, ?_, .inl ⟨rfl, rfl⟩⟩
  · intro index hypothesis _ held
    exact ⟨hypothesis, List.mem_of_getElem? held, rfl, rfl, Iff.rfl⟩
  · intro original member same
    rw [sound.eq_of_id member (List.mem_of_getElem? there) same, active]
    exact HypothesisStatus.noConfusion

theorem chosen_opened (sound : Sound ledger) (named : ∀ file ∈ files, file ≠ "")
    (note : String) : ∃ subject,
      Chosen ledger (ledger.openHypothesis files note) ledger.hypotheses.length subject ∧ subject.files = files := by
  have length : (ledger.hypotheses.map FailureLedger.supersede).length = ledger.hypotheses.length :=
    List.length_map _
  refine ⟨{ id := hypothesisName ledger.nextId, files := files, note := note },
    ⟨sound.opened named note, ?_, rfl, ?_, ?_, ?_⟩, rfl⟩
  · change (ledger.hypotheses.map FailureLedger.supersede ++ [_])[ledger.hypotheses.length]? = _
    rw [← length, List.getElem?_append_right (Nat.le_refl _), Nat.sub_self]
    rfl
  · intro index hypothesis other held
    change (ledger.hypotheses.map FailureLedger.supersede ++ [_])[index]? = some hypothesis at held
    have within : index < (ledger.hypotheses.map FailureLedger.supersede).length := by
      have inside := (List.getElem?_eq_some_iff.mp held).1
      rw [List.length_append, List.length_singleton] at inside
      omega
    rw [List.getElem?_append_left within, List.getElem?_map] at held
    obtain ⟨original, before, rfl⟩ := Option.map_eq_some_iff.mp held
    exact ⟨original, List.mem_of_getElem? before, (supersede_id original).symm, (supersede_files original).symm,
      supersede_negated original⟩
  · intro original member same
    obtain ⟨number, below, name⟩ := sound.numbered original member
    exact absurd (hypothesisName_injective (name.symm.trans same)) (Nat.ne_of_lt below)
  · right
    refine ⟨rfl, ?_⟩
    change ((ledger.hypotheses.map FailureLedger.supersede ++ [_]).drop ledger.hypotheses.length).map _ = _
    rw [← length, List.drop_left]
    rfl

theorem chosen_for (sound : Sound ledger) (named : ∀ file ∈ files, file ≠ "") (note : String) :
    ∃ subject,
      Chosen ledger (ledger.hypothesisFor files note).1 (ledger.hypothesisFor files note).2 subject ∧
        ∀ file, file ∈ subject.files <-> file ∈ files := by
  unfold FailureLedger.hypothesisFor
  cases found : ledger.active with
  | none =>
    obtain ⟨subject, chosen, same⟩ := chosen_opened sound named note
    exact ⟨subject, chosen, fun file => by rw [same]⟩
  | some place =>
    obtain ⟨subject, chosen⟩ := chosen_active sound found
    by_cases same : (ledger.filesAt place).toFinset = files.toFinset
    · simp only [if_pos same]
      refine ⟨subject, chosen, ?_⟩
      intro file
      have there : ledger.filesAt place = subject.files := by
        rw [FailureLedger.filesAt, chosen.there]
        rfl
      rw [← there, ← List.mem_toFinset, same, List.mem_toFinset]
    · simp only [if_neg same]
      obtain ⟨subject, chosen, same⟩ := chosen_opened sound named note
      exact ⟨subject, chosen, fun file => by rw [same]⟩

theorem hypothesisFor_lists (ledger : FailureLedger) (files : List String) (note : String) :
    (ledger.hypothesisFor files note).1.negatedFiles = ledger.negatedFiles ∧
      (ledger.hypothesisFor files note).1.regressionFiles = ledger.regressionFiles ∧
      (ledger.hypothesisFor files note).1.lastVerifyHash = ledger.lastVerifyHash := by
  unfold FailureLedger.hypothesisFor
  cases ledger.active with
  | none => exact ⟨rfl, rfl, rfl⟩
  | some place =>
    by_cases same : (ledger.filesAt place).toFinset = files.toFinset
    · simp only [if_pos same, and_self]
    · simp only [if_neg same]
      exact ⟨rfl, rfl, rfl⟩

theorem Chosen.filesAt (selected : Chosen ledger chosen place hypothesis) :
    chosen.filesAt place = hypothesis.files := by
  rw [FailureLedger.filesAt, selected.there]
  rfl

/-- Only the hypotheses and the next number matter. -/
theorem Chosen.of_same {base : FailureLedger} (selected : Chosen ledger chosen place hypothesis)
    (hypotheses : ledger.hypotheses = base.hypotheses) (nextId : ledger.nextId = base.nextId) :
    Chosen base chosen place hypothesis where
  sound := selected.sound
  there := selected.there
  active := selected.active
  others := hypotheses ▸ selected.others
  notNegated := hypotheses ▸ selected.notNegated
  opened := hypotheses ▸ nextId ▸ selected.opened

/-! ## One round -/

/-- The hypothesis that a round is about, in the ledger where it has its
place. -/
def subject (loaded : FailureLedger) (verdict : Verdict) : Option (FailureLedger × Nat) :=
  if verdict.Regresses then
    some (((loaded.noteBucket verdict.bucket).markRegression verdict.files).hypothesisFor verdict.files "regression")
  else if verdict.Excused then none
  else judged (loaded.noteBucket verdict.bucket) verdict.files

/-- The name of this hypothesis. -/
def subjectId (loaded : FailureLedger) (verdict : Verdict) : Option String :=
  (subject loaded verdict).bind fun chosen => (chosen.1.hypotheses[chosen.2]?).map Hypothesis.id

/-- The files of this hypothesis. -/
def subjectFiles (loaded : FailureLedger) (verdict : Verdict) : List String :=
  ((subject loaded verdict).map fun chosen => chosen.1.filesAt chosen.2).getD []

/-- What a round does to the hypothesis it is about. -/
structure Effect (loaded : FailureLedger) (verdict : Verdict) (after chosen : FailureLedger) (place : Nat)
    (hypothesis : Hypothesis) (change : Hypothesis -> Hypothesis) : Prop where
  selected : Chosen loaded chosen place hypothesis
  hypotheses : after.hypotheses = chosen.hypotheses.modify place change
  keeping : Keeping change
  changedFiles : ∀ hypothesis, (change hypothesis).files = hypothesis.files
  nextId : after.nextId = chosen.nextId
  files : subjectFiles loaded verdict = hypothesis.files
  id : subjectId loaded verdict = some hypothesis.id

theorem subject_files_id {loaded : FailureLedger} {verdict : Verdict}
    (found : subject loaded verdict = some (chosen, place))
    (selected : Chosen loaded chosen place hypothesis) :
    subjectFiles loaded verdict = hypothesis.files ∧ subjectId loaded verdict = some hypothesis.id := by
  constructor
  · rw [subjectFiles, found]
    exact selected.filesAt
  · rw [subjectId, found]
    change (chosen.hypotheses[place]?).map Hypothesis.id = some hypothesis.id
    rw [selected.there]
    rfl

theorem negated_keeping (reason : String) : Keeping (Hypothesis.negated reason) where
  id _ := rfl
  status _ impossible := by cases impossible
  wellFormed _ wellFormed := ⟨wellFormed.hashes, wellFormed.named⟩

theorem failed_keeping (hash : String) (found : List String) : Keeping (Hypothesis.failed hash found) where
  id _ := rfl
  status _ active := active
  wellFormed hypothesis wellFormed := by
    refine ⟨?_, wellFormed.named⟩
    change (if hash ≠ "" ∧ hash ∉ hypothesis.verifyHashes then hypothesis.verifyHashes ++ [hash]
      else hypothesis.verifyHashes).Nodup
    split_ifs with fresh
    · exact List.nodup_append.mpr ⟨wellFormed.hashes, List.nodup_singleton hash,
        fun one listed other here same => fresh.2 (List.mem_singleton.mp here ▸ same ▸ listed)⟩
    · exact wellFormed.hashes

theorem Keeping.comp {first second : Hypothesis -> Hypothesis} (one : Keeping first) (other : Keeping second) :
    Keeping (second ∘ first) where
  id hypothesis := (other.id _).trans (one.id hypothesis)
  status hypothesis active := one.status hypothesis (other.status _ active)
  wellFormed hypothesis wellFormed := other.wellFormed _ (one.wellFormed hypothesis wellFormed)

/-- No hypothesis records a hash twice in a row. -/
theorem not_stagnant (sound : Sound ledger) (place : Nat) : ledger.stagnant place = false := by
  unfold FailureLedger.stagnant
  cases there : ledger.hypotheses[place]? with
  | none => rfl
  | some hypothesis =>
    have distinct := (sound.wellFormed hypothesis (List.mem_of_getElem? there)).hashes
    have reversed := List.nodup_reverse.mpr distinct
    simp only [Option.map_some]
    cases hashes : hypothesis.verifyHashes.reverse with
    | nil => rfl
    | cons last rest =>
      cases rest with
      | nil => rfl
      | cons earlier rest =>
        rw [hashes] at reversed
        have apart : last ≠ earlier := fun same =>
          (List.nodup_cons.mp reversed).1 (same ▸ List.mem_cons_self)
        simp [apart]

theorem noteBucket_sound (sound : Sound ledger) (bucket : String) : Sound (ledger.noteBucket bucket) :=
  sound.of_same rfl rfl

theorem files_named (verdict : Verdict) : ∀ file ∈ verdict.files, file ≠ "" :=
  fun _ member => patchFiles_named member

/-- The judgement negates the hypothesis exactly when the hash is the last one
recorded. -/
theorem judge_effect (selected : Chosen ledger chosen place hypothesis) (hash : String)
    (found : List String) :
    ∃ change, (chosen.judge place hash found).hypotheses = chosen.hypotheses.modify place change ∧
      Keeping change ∧ (∀ hypothesis, (change hypothesis).files = hypothesis.files) ∧
      ((change hypothesis).status = .negated <-> hash ≠ "" ∧ hash = chosen.lastVerifyHash) ∧
      (chosen.judge place hash found).negatedFiles =
        (if hash ≠ "" ∧ hash = chosen.lastVerifyHash then added chosen.negatedFiles hypothesis.files
          else chosen.negatedFiles) := by
  have recorded : Sound (chosen.recordFailure place hash found) :=
    selected.sound.modify (failed_keeping hash found) place _ _ _ _
  have there : (chosen.recordFailure place hash found).hypotheses[place]? = some (hypothesis.failed hash found) := by
    change (chosen.hypotheses.modify place (Hypothesis.failed hash found))[place]? = _
    rw [List.getElem?_modify_eq, selected.there]
    rfl
  have active : (chosen.recordFailure place hash found).isActive place = true := by
    rw [FailureLedger.isActive, there]
    change (some hypothesis.status == some .active) = true
    rw [selected.active]
    rfl
  have files : (chosen.recordFailure place hash found).filesAt place = hypothesis.files := by
    rw [FailureLedger.filesAt, there]
    rfl
  by_cases same : hash ≠ "" ∧ hash = chosen.lastVerifyHash
  · have judged : (chosen.judge place hash found).hypotheses =
        ((chosen.recordFailure place hash found).negate place "repeated_counterexample").hypotheses ∧
      (chosen.judge place hash found).negatedFiles =
        ((chosen.recordFailure place hash found).negate place "repeated_counterexample").negatedFiles := by
      have all : hash ≠ "" ∧ hash = chosen.lastVerifyHash ∧
          (chosen.recordFailure place hash found).isActive place = true := ⟨same.1, same.2, active⟩
      simp only [FailureLedger.judge, if_pos all, and_self]
    refine ⟨Hypothesis.negated "repeated_counterexample" ∘ Hypothesis.failed hash found, ?_,
      (failed_keeping hash found).comp (negated_keeping _), fun _ => rfl, ⟨fun _ => same, fun _ => rfl⟩, ?_⟩
    · rw [judged.1, ← List.modify_modify_eq]
      rfl
    · rw [judged.2, if_pos same]
      change added chosen.negatedFiles (FailureLedger.filesAt _ place) = _
      rw [files]
  · have judged : (chosen.judge place hash found).hypotheses = (chosen.recordFailure place hash found).hypotheses ∧
        (chosen.judge place hash found).negatedFiles = chosen.negatedFiles := by
      have none_repeated : ¬ (hash ≠ "" ∧ hash = chosen.lastVerifyHash ∧
          (chosen.recordFailure place hash found).isActive place = true) := fun all => same ⟨all.1, all.2.1⟩
      simp only [FailureLedger.judge, if_neg none_repeated, not_stagnant recorded place, Bool.false_eq_true, if_false,
        true_and]
      rfl
    refine ⟨Hypothesis.failed hash found, judged.1, failed_keeping hash found, fun _ => rfl, ?_, ?_⟩
    · constructor
      · intro negated
        change hypothesis.status = .negated at negated
        rw [selected.active] at negated
        cases negated
      · exact fun repeated => absurd repeated same
    · rw [judged.2, if_neg same]

theorem judge_others (chosen : FailureLedger) (place : Nat) (hash : String) (found : List String) :
    (chosen.judge place hash found).regressionFiles = chosen.regressionFiles ∧
      (chosen.judge place hash found).nextId = chosen.nextId := by
  unfold FailureLedger.judge
  simp only
  split_ifs <;> exact ⟨rfl, rfl⟩

theorem judged_chosen (sound : Sound ledger) (named : ∀ file ∈ files, file ≠ "")
    {chosen : FailureLedger × Nat} (found : judged ledger files = some chosen) :
    (∃ hypothesis, Chosen ledger chosen.1 chosen.2 hypothesis) ∧
      chosen.1.negatedFiles = ledger.negatedFiles ∧ chosen.1.regressionFiles = ledger.regressionFiles ∧
      chosen.1.lastVerifyHash = ledger.lastVerifyHash := by
  unfold judged at found
  by_cases empty : files = []
  · rw [if_pos empty] at found
    obtain ⟨place, active, rfl⟩ := Option.map_eq_some_iff.mp found
    exact ⟨chosen_active sound active, rfl, rfl, rfl⟩
  · rw [if_neg empty] at found
    cases found
    obtain ⟨hypothesis, selected, _⟩ := chosen_for sound named "patch_attempt"
    exact ⟨⟨hypothesis, selected⟩, hypothesisFor_lists ledger files "patch_attempt"⟩

section

variable [Texts]

/-- The failure hash of the round is the last one recorded. -/
def SameHash (loaded : FailureLedger) (verdict : Verdict) : Prop :=
  verifyHash verdict.result ≠ "" ∧ verifyHash verdict.result = loaded.lastVerifyHash

variable {loaded : FailureLedger} {verdict : Verdict}

theorem regression_effect (sound : Sound loaded) (regresses : verdict.Regresses) :
    ∃ chosen place hypothesis,
      Effect loaded verdict (recordVerifyIntoLedger loaded verdict) chosen place hypothesis
        (Hypothesis.negated "introduced_regression") ∧
      (∀ file, file ∈ hypothesis.files <-> file ∈ verdict.files) ∧
      (recordVerifyIntoLedger loaded verdict).negatedFiles = added loaded.negatedFiles verdict.files ∧
      (recordVerifyIntoLedger loaded verdict).regressionFiles = added loaded.regressionFiles verdict.files := by
  let marked := (loaded.noteBucket verdict.bucket).markRegression verdict.files
  have soundMarked : Sound marked := sound.of_same rfl rfl
  obtain ⟨hypothesis, selected, same⟩ := chosen_for soundMarked (files_named verdict) "regression"
  have lists := hypothesisFor_lists marked verdict.files "regression"
  have found : subject loaded verdict = some (marked.hypothesisFor verdict.files "regression") := if_pos regresses
  have result : recordVerifyIntoLedger loaded verdict =
      { (marked.hypothesisFor verdict.files "regression").1.negate
          (marked.hypothesisFor verdict.files "regression").2 "introduced_regression" with
        lastVerifyHash := verifyHash verdict.result } := if_pos regresses
  have based : Chosen loaded _ _ hypothesis := selected.of_same rfl rfl
  have about := subject_files_id found based
  refine ⟨_, _, hypothesis, ⟨based, ?_, negated_keeping _, fun _ => rfl, ?_, about.1, about.2⟩, same, ?_, ?_⟩
  · rw [result]
    rfl
  · rw [result]
    rfl
  · rw [result]
    change added (marked.hypothesisFor verdict.files "regression").1.negatedFiles (FailureLedger.filesAt _ _) = _
    rw [selected.filesAt, lists.1]
    apply added_known
    intro file member
    exact mem_added.mpr (.inr ⟨(same file).mp member, files_named verdict file ((same file).mp member)⟩)
  · rw [result]
    change (marked.hypothesisFor verdict.files "regression").1.regressionFiles = _
    rw [lists.2.1]
    rfl

theorem failure_effect (sound : Sound loaded) (kept : ¬ verdict.Regresses) (unexcused : ¬ verdict.Excused)
    {chosen : FailureLedger × Nat} (found : subject loaded verdict = some chosen) :
    ∃ hypothesis change,
      Effect loaded verdict (recordVerifyIntoLedger loaded verdict) chosen.1 chosen.2 hypothesis change ∧
      ((change hypothesis).status = .negated <-> SameHash loaded verdict) ∧
      ((SameHash loaded verdict ->
        (recordVerifyIntoLedger loaded verdict).negatedFiles = added loaded.negatedFiles hypothesis.files) ∧
      (¬ SameHash loaded verdict -> (recordVerifyIntoLedger loaded verdict).negatedFiles = loaded.negatedFiles)) ∧
      (recordVerifyIntoLedger loaded verdict).regressionFiles = loaded.regressionFiles := by
  have about : judged (loaded.noteBucket verdict.bucket) verdict.files = some chosen := by
    rw [subject, if_neg kept, if_neg unexcused] at found
    exact found
  have result : recordVerifyIntoLedger loaded verdict =
      chosen.1.judge chosen.2 (verifyHash verdict.result) (assertions verdict.result) := by
    simp only [recordVerifyIntoLedger, if_neg kept, if_neg unexcused, about]
  obtain ⟨⟨hypothesis, selected⟩, negatedFiles, regressionFiles, lastHash⟩ :=
    judged_chosen (noteBucket_sound sound verdict.bucket) (files_named verdict) about
  have based : Chosen loaded _ _ hypothesis := selected.of_same rfl rfl
  obtain ⟨change, hypotheses, keeping, files, status, lists⟩ :=
    judge_effect based (verifyHash verdict.result) (assertions verdict.result)
  have others := judge_others chosen.1 chosen.2 (verifyHash verdict.result) (assertions verdict.result)
  have identity := subject_files_id (show subject loaded verdict = some (chosen.1, chosen.2) from found) based
  rw [lastHash] at status lists
  rw [negatedFiles] at lists
  refine ⟨hypothesis, change, ⟨based, ?_, keeping, files, ?_, identity.1, identity.2⟩, status, ⟨?_, ?_⟩, ?_⟩
  · rw [result, hypotheses]
  · rw [result, others.2]
  · intro same
    rw [result, lists]
    exact if_pos same
  · intro other
    rw [result, lists]
    exact if_neg other
  · rw [result, others.1, regressionFiles]
    rfl

/-- A round about no hypothesis changes no hypothesis and no list of files. -/
theorem idle_effect (idle : subject loaded verdict = none) :
    (recordVerifyIntoLedger loaded verdict).hypotheses = loaded.hypotheses ∧
      (recordVerifyIntoLedger loaded verdict).nextId = loaded.nextId ∧
      (recordVerifyIntoLedger loaded verdict).negatedFiles = loaded.negatedFiles ∧
      (recordVerifyIntoLedger loaded verdict).regressionFiles = loaded.regressionFiles := by
  unfold subject at idle
  by_cases regresses : verdict.Regresses
  · rw [if_pos regresses] at idle
    cases idle
  · rw [if_neg regresses] at idle
    by_cases excused : verdict.Excused
    · simp only [recordVerifyIntoLedger, if_neg regresses, if_pos excused]
      exact ⟨rfl, rfl, rfl, rfl⟩
    · rw [if_neg excused] at idle
      simp only [recordVerifyIntoLedger, if_neg regresses, if_neg excused, idle]
      exact ⟨rfl, rfl, rfl, rfl⟩

end

end RepairLoop
end FixLoop
