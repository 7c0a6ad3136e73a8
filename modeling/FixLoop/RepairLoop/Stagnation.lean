import FixLoop.RepairLoop.Verification

namespace FixLoop
namespace RepairLoop

open Library

/-!
# Stagnation and the decision to stop

The counter of rounds without progress is tied to the history of the rounds.
A history has its latest round first.
-/

/-- A call of `record_empty_patch` or of `record_verify_failure`. -/
inductive Round where
  | emptyPatch (applyFailed : Bool)
  | verifyFailure (result : Option VerificationResult) (patches : List CandidatePatch)

open StopLossTracker (fingerprints)

section

variable [Texts]

namespace Round

def fps : Round -> Finset String
  | emptyPatch _ => ∅
  | verifyFailure _ patches => fingerprints patches

/-- The failure hash; an empty patch has none. -/
def hash : Round -> String
  | emptyPatch _ => ""
  | verifyFailure result _ => hashVerifyLogs (failureLogs result)

/-- The failure is one of the environment. -/
def OfEnvironment : Round -> Prop
  | emptyPatch _ => False
  | verifyFailure result _ => (diagnoseVerification result).1 = .env

end Round

def record (tracker : StopLossTracker) : Round -> StopLossTracker × StopLossDecision
  | .emptyPatch applyFailed => tracker.recordEmptyPatch applyFailed
  | .verifyFailure result patches => tracker.recordVerifyFailure result patches

/-- The tracker after the rounds of a history. -/
def tracked (thresholds : Thresholds) : List Round -> StopLossTracker
  | [] => { toThresholds := thresholds }
  | round :: past => (record (tracked thresholds past) round).1

/-- The decision about the latest round of a history. -/
def decision (thresholds : Thresholds) (past : List Round) (round : Round) : StopLossDecision :=
  (record (tracked thresholds past) round).2

/-- No decision of the history says stop. -/
def Unstopped (thresholds : Thresholds) (history : List Round) : Prop :=
  ∀ later round past, history = later ++ round :: past -> (decision thresholds past round).stop = false

/-! ## What the rounds of a history had in common -/

/-- All fingerprints of the rounds. -/
def seen (past : List Round) : Finset String := past.foldr (fun round fps => fps ∪ round.fps) ∅

variable {past : List Round} {round : Round} (thresholds : Thresholds) {result : Option VerificationResult}
  {patches : List CandidatePatch}

theorem mem_seen {fp : String} : fp ∈ seen past <-> ∃ round ∈ past, fp ∈ round.fps := by
  induction past with
  | nil => simp [seen]
  | cons round past ih =>
    change fp ∈ seen past ∪ round.fps <-> _
    rw [Finset.mem_union, ih]
    simp only [List.mem_cons, exists_eq_or_imp]
    exact or_comm

/-- The failure hash of the latest failed verification. -/
def lastHash : List Round -> String
  | [] => ""
  | .emptyPatch _ :: past => lastHash past
  | .verifyFailure result _ :: _ => hashVerifyLogs (failureLogs result)

/-- An empty patch, or a failed verification with neither a new fingerprint
nor, unless the environment failed, a changed failure hash. -/
def Stagnant (past : List Round) : Round -> Prop
  | .emptyPatch _ => True
  | .verifyFailure result patches =>
    (∀ fp ∈ fingerprints patches, ∃ round ∈ past, fp ∈ round.fps) ∧
      (hashVerifyLogs (failureLogs result) = "" ∨ hashVerifyLogs (failureLogs result) = lastHash past ∨
        (diagnoseVerification result).1 = .env)

/-- The round brings a fingerprint or a failure hash that no earlier one had. -/
def Fresh (past : List Round) (round : Round) : Prop :=
  (∃ fp ∈ round.fps, ∀ earlier ∈ past, fp ∉ earlier.fps) ∨
    (round.hash ≠ "" ∧ ∀ earlier ∈ past, earlier.hash ≠ round.hash)

/-- Outside failures of the environment, the failure hash is that of an
earlier round but not that of the latest failed verification. -/
def Returns (past : List Round) (round : Round) : Prop :=
  ¬ round.OfEnvironment ∧ round.hash ≠ lastHash past ∧
    ∃ earlier ∈ past, earlier.hash = round.hash

theorem fresh_or_returns (moving : ¬ Stagnant past round) : Fresh past round ∨ Returns past round := by
  cases round with
  | emptyPatch applyFailed => exact absurd True.intro moving
  | verifyFailure result patches =>
    by_cases known : ∀ fp ∈ fingerprints patches, ∃ round ∈ past, fp ∈ round.fps
    · have changed := not_and.mp moving known
      rw [not_or, not_or] at changed
      by_cases earlier : ∃ earlier ∈ past, earlier.hash = hashVerifyLogs (failureLogs result)
      · exact .inr ⟨changed.2.2, changed.2.1, earlier⟩
      · refine .inl (.inr ⟨changed.1, ?_⟩)
        intro other member same
        exact earlier ⟨other, member, same⟩
    · rw [not_forall] at known
      obtain ⟨fp, unknown⟩ := known
      rw [Classical.not_imp] at unknown
      refine .inl (.inl ⟨fp, unknown.1, ?_⟩)
      intro earlier member listed
      exact unknown.2 ⟨earlier, member, listed⟩

/-! ## The tracker knows the history -/

/-- What the tracker remembers of the rounds. -/
structure Remembers (thresholds : Thresholds) (past : List Round) (tracker : StopLossTracker) : Prop where
  thresholds : tracker.toThresholds = thresholds
  attempts : tracker.attempts = past.length
  seenFps : tracker.seenFps = seen past
  lastVerifyHash : tracker.lastVerifyHash = lastHash past

theorem tracked_remembers (history : List Round) :
    Remembers thresholds history (tracked thresholds history) := by
  induction history with
  | nil => exact ⟨rfl, rfl, rfl, rfl⟩
  | cons round past ih =>
    have attempts : (tracked thresholds (round :: past)).attempts = past.length + 1 := by
      rw [← ih.attempts]
      cases round <;> rfl
    cases round with
    | emptyPatch applyFailed =>
      refine ⟨ih.thresholds, attempts, ?_, ih.lastVerifyHash⟩
      change (tracked thresholds past).seenFps = seen past ∪ ∅
      rw [Finset.union_empty, ih.seenFps]
    | verifyFailure result patches =>
      refine ⟨ih.thresholds, attempts, ?_, rfl⟩
      change (tracked thresholds past).seenFps ∪ fingerprints patches = seen past ∪ fingerprints patches
      rw [ih.seenFps]

theorem progresses_iff (past : List Round) (result : Option VerificationResult)
    (patches : List CandidatePatch) :
    (tracked thresholds past).progresses (fingerprints patches) (hashVerifyLogs (failureLogs result))
        (diagnoseVerification result).1 = true <->
      ¬ Stagnant past (.verifyFailure result patches) := by
  have remembered := tracked_remembers thresholds past
  have known : fingerprints patches ⊆ seen past <-> ∀ fp ∈ fingerprints patches,
      ∃ round ∈ past, fp ∈ round.fps := by
    simp only [Finset.subset_iff, mem_seen]
  simp only [StopLossTracker.progresses, remembered.seenFps, remembered.lastVerifyHash, known, Bool.or_eq_true,
    Bool.and_eq_true, decide_eq_true_eq, Stagnant]
  tauto

theorem noProgress_empty (past : List Round) (applyFailed : Bool) :
    (tracked thresholds (.emptyPatch applyFailed :: past)).noProgressStreak =
      (tracked thresholds past).noProgressStreak + 1 := rfl

theorem noProgress_failure (later : past ≠ []) (stagnant : Stagnant past (.verifyFailure result patches)) :
    (tracked thresholds (.verifyFailure result patches :: past)).noProgressStreak =
      (tracked thresholds past).noProgressStreak + 1 := by
  have attempts : (tracked thresholds past).attempts ≠ 0 := by
    rw [(tracked_remembers thresholds past).attempts]
    exact fun impossible => later (List.length_eq_zero_iff.mp impossible)
  have still : ¬ (tracked thresholds past).progresses (fingerprints patches) (hashVerifyLogs (failureLogs result))
      (diagnoseVerification result).1 = true := fun moving => (progresses_iff thresholds past _ _).mp moving stagnant
  exact if_neg (not_or.mpr ⟨attempts, still⟩)

theorem noProgress_moved (moving : ¬ Stagnant past (.verifyFailure result patches)) :
    (tracked thresholds (.verifyFailure result patches :: past)).noProgressStreak = 0 :=
  if_pos (.inr ((progresses_iff thresholds past _ _).mpr moving))

/-- A stagnant round that is not the first one is counted. -/
theorem noProgress_stagnant (later : past ≠ []) (stagnant : Stagnant past round) :
    (tracked thresholds (round :: past)).noProgressStreak = (tracked thresholds past).noProgressStreak + 1 := by
  cases round with
  | emptyPatch applyFailed => exact noProgress_empty thresholds past applyFailed
  | verifyFailure result patches => exact noProgress_failure thresholds later stagnant

/-- The first round does not count if it is a failed verification. -/
theorem noProgress_first (result : Option VerificationResult) (patches : List CandidatePatch) :
    (tracked thresholds [.verifyFailure result patches]).noProgressStreak = 0 := by
  simp only [tracked, record, StopLossTracker.recordVerifyFailure, StopLossTracker.countFailure, true_or, if_true]

/-- The latest rounds, as many as counted, were stagnant. -/
theorem counted_stagnant (history : List Round) :
    (tracked thresholds history).noProgressStreak ≤ history.length ∧
      ∀ later round past, history = later ++ round :: past ->
        later.length < (tracked thresholds history).noProgressStreak -> Stagnant past round := by
  induction history with
  | nil =>
    refine ⟨Nat.le_refl 0, ?_⟩
    intro later round past split
    exact absurd split (by simp)
  | cons latest past ih =>
    by_cases counted : (tracked thresholds (latest :: past)).noProgressStreak =
        (tracked thresholds past).noProgressStreak + 1 ∧ Stagnant past latest
    · refine ⟨?_, ?_⟩
      · rw [counted.1, List.length_cons]
        exact Nat.succ_le_succ ih.1
      · intro later round earlier split within
        cases later with
        | nil =>
          obtain ⟨rfl, rfl⟩ := List.cons.inj split
          exact counted.2
        | cons head later =>
          have rest := (List.cons.inj split).2
          rw [counted.1, List.length_cons] at within
          exact ih.2 later round earlier rest (Nat.lt_of_succ_lt_succ within)
    · have none_counted : (tracked thresholds (latest :: past)).noProgressStreak = 0 := by
        cases latest with
        | emptyPatch applyFailed => exact absurd ⟨noProgress_empty thresholds past applyFailed, True.intro⟩ counted
        | verifyFailure result patches =>
          by_cases stagnant : Stagnant past (.verifyFailure result patches)
          · by_cases first : past = []
            · subst past
              exact noProgress_first thresholds result patches
            · exact absurd ⟨noProgress_failure thresholds first stagnant, stagnant⟩ counted
          · exact noProgress_moved thresholds stagnant
      rw [none_counted]
      refine ⟨Nat.zero_le _, ?_⟩
      intro later round earlier split within
      exact absurd within (Nat.not_lt_zero _)

/-- Rounds that are all stagnant are all counted, but for the first round of
the history. -/
theorem stagnant_counted (window older : List Round)
    (stagnant : ∀ later round earlier, window = later ++ round :: earlier -> Stagnant (earlier ++ older) round) :
    window.length ≤ (tracked thresholds (window ++ older)).noProgressStreak + 1 ∧
      (older ≠ [] -> window.length ≤ (tracked thresholds (window ++ older)).noProgressStreak) := by
  induction window with
  | nil => exact ⟨Nat.zero_le _, fun _ => Nat.zero_le _⟩
  | cons latest window ih =>
    have counted := ih fun later round earlier split => stagnant (latest :: later) round earlier (by rw [split]; rfl)
    have here := stagnant [] latest window rfl
    rw [List.cons_append, List.length_cons]
    by_cases first : window ++ older = []
    · obtain ⟨rfl, rfl⟩ := List.append_eq_nil_iff.mp first
      exact ⟨Nat.succ_le_succ (Nat.zero_le _), fun nonempty => absurd rfl nonempty⟩
    · rw [noProgress_stagnant thresholds first here]
      exact ⟨Nat.succ_le_succ counted.1, fun nonempty => Nat.succ_le_succ (counted.2 nonempty)⟩

theorem unstopped_counted {thresholds : Thresholds}
    (unstopped : (decision thresholds past round).stop = false) :
    (tracked thresholds (round :: past)).noProgressStreak < max 3 thresholds.noProgressThreshold := by
  have kept := (tracked_remembers thresholds (round :: past)).thresholds
  cases round with
  | emptyPatch applyFailed =>
    change ((tracked thresholds (.emptyPatch applyFailed :: past)).judgeEmpty).stop = false at unstopped
    rw [StopLossTracker.judgeEmpty, kept] at unstopped
    split_ifs at unstopped
    omega
  | verifyFailure result patches =>
    change ((tracked thresholds (.verifyFailure result patches :: past)).judgeFailure _ _).stop = false at unstopped
    rw [StopLossTracker.judgeFailure, kept] at unstopped
    split_ifs at unstopped <;> omega

theorem noProgress_counted {thresholds : Thresholds}
    (stopped : (decision thresholds past round).stop = true)
    (reason : (decision thresholds past round).reason = some .noProgress) :
    min 3 thresholds.noProgressThreshold ≤ (tracked thresholds (round :: past)).noProgressStreak := by
  have kept := (tracked_remembers thresholds (round :: past)).thresholds
  cases round with
  | emptyPatch applyFailed =>
    change ((tracked thresholds (.emptyPatch applyFailed :: past)).judgeEmpty).reason = some .noProgress at reason
    rw [StopLossTracker.judgeEmpty, kept] at reason
    split_ifs at reason <;> first | omega | cases reason
  | verifyFailure result patches =>
    change ((tracked thresholds (.verifyFailure result patches :: past)).judgeFailure _ _).stop = true at stopped
    change ((tracked thresholds (.verifyFailure result patches :: past)).judgeFailure _ _).reason = some .noProgress
      at reason
    rw [StopLossTracker.judgeFailure, kept] at reason stopped
    split_ifs at reason stopped <;> first | omega | cases reason

/-- As long as no decision says stop, one of any few consecutive rounds brings
something new or, outside failures of the environment, returns to an earlier
failure hash; a stop for lack of progress follows stagnant rounds only. -/
theorem stagnation_stops (thresholds : Thresholds) (history : List Round) :
    (Unstopped thresholds history -> ∀ later window older, history = later ++ window ++ older ->
      window.length = max 3 thresholds.noProgressThreshold + 1 ->
        ∃ after round before, window = after ++ round :: before ∧
          (Fresh (before ++ older) round ∨ Returns (before ++ older) round)) ∧
    (∀ round past, history = round :: past -> (decision thresholds past round).stop = true ->
      (decision thresholds past round).reason = some .noProgress ->
        min 3 thresholds.noProgressThreshold ≤ history.length ∧
          ∀ later earlier before, history = later ++ earlier :: before ->
            later.length < min 3 thresholds.noProgressThreshold -> Stagnant before earlier) := by
  constructor
  · intro unstopped later window older split length
    by_contra none_moving
    have stagnant : ∀ after round before, window = after ++ round :: before ->
        Stagnant (before ++ older) round := by
      intro after round before here
      by_contra moving
      exact none_moving ⟨after, round, before, here, fresh_or_returns moving⟩
    cases window with
    | nil =>
      rw [List.length_nil] at length
      omega
    | cons latest window =>
      have counted := (stagnant_counted thresholds (latest :: window) older stagnant).1
      have continued : (decision thresholds (window ++ older) latest).stop = false :=
        unstopped later latest (window ++ older) (by rw [split, List.append_assoc, List.cons_append])
      have few := unstopped_counted continued
      rw [length] at counted
      change _ ≤ (tracked thresholds (latest :: (window ++ older))).noProgressStreak + 1 at counted
      omega
  · intro round past split stopped reason
    subst split
    have counted := noProgress_counted stopped reason
    have recent := counted_stagnant thresholds (round :: past)
    refine ⟨Nat.le_trans counted recent.1, ?_⟩
    intro later earlier before here within
    exact recent.2 later earlier before here (Nat.lt_of_lt_of_le within counted)

/-! ## Oscillation -/

theorem not_fresh_of_mem (known : round ∈ past) : ¬ Fresh past round := by
  rintro (⟨fp, brought, unknown⟩ | ⟨_, unknown⟩)
  · exact unknown round known brought
  · exact unknown round known rfl

/-- Where both the fingerprints and the failure hash differ from the last
ones, another attempt is made. -/
theorem changing_unstopped (patched : fingerprints patches ≠ ∅)
    (otherFps : fingerprints patches ≠ (tracked {} past).lastFps)
    (failed : hashVerifyLogs (failureLogs result) ≠ "")
    (otherHash : hashVerifyLogs (failureLogs result) ≠ (tracked {} past).lastVerifyHash)
    (bucket : (diagnoseVerification result).1 ≠ .env) :
    (decision {} past (.verifyFailure result patches)).stop = false := by
  have kept := (tracked_remembers {} past).thresholds
  have moving : (tracked {} past).progresses (fingerprints patches) (hashVerifyLogs (failureLogs result))
      (diagnoseVerification result).1 = true := by
    simp [StopLossTracker.progresses, failed, otherHash, bucket]
  simp [decision, record, StopLossTracker.recordVerifyFailure, StopLossTracker.countFailure,
    StopLossTracker.judgeFailure, patched, otherFps, failed, otherHash, bucket, moving, kept]

end

/-- The digests of the texts of the sample rounds are the actual ones. -/
@[reducible] def Texts.sample : Texts where
  hexdigest text :=
    if text = "a.py\n\nx = 1\nx = 2" then "89e4c00220d8858d80072730dbf6d2c469b08724d92edf1303e4683f7fb2d6f0"
    else if text = "a.py\n\nx = 1\nx = 3" then "2e1a5872e248b58400ecbd7519baa66ddc6d8c98d99c8888f187faaea3d56823"
    else if text = "E   assert 1 == 2" then "5476ab6d72649288ca0b2e9d018d8e82ff2f1fa40657fe579cdd9fd32dd23a41"
    else if text = "E   assert 1 == 3" then "37bb16b476aee59e52253ec9a237d59c8ea5ec730ee609fc3f4663e7e4529c16"
    else "7a1a6ebc3c2ec865d95cdacf3635f5630c03682cf2ef0d624a1e25bd38299234"
  lower text := String.ofList (text.toList.map Char.toLower)

section

attribute [local instance] Texts.sample

def failing (log : String) : Option VerificationResult := some { totalTests := 1, failed := 1, failureLogs := [log] }

def patched (line : String) : CandidatePatch := { filePath := "a.py", originalLines := "x = 1", patchedLines := line, diff := "" }

/-- Two patches that fail in different ways, in turn. -/
def swing : Bool -> Round
  | false => .verifyFailure (failing "E   assert 1 == 2") [patched "x = 2"]
  | true => .verifyFailure (failing "E   assert 1 == 3") [patched "x = 3"]

/-- The history of so many rounds. -/
def oscillation : Nat -> List Round
  | 0 => []
  | count + 1 => swing (decide (count % 2 = 1)) :: oscillation count

variable (turn : Bool)

theorem swing_fps : (swing turn).fps = {if turn then "2e1a5872e248b584" else "89e4c00220d8858d"} := by
  cases turn <;> decide +kernel

theorem swing_hash : (swing turn).hash = if turn then "37bb16b476aee59e" else "5476ab6d72649288" := by
  cases turn <;> decide +kernel

theorem swing_logic : ¬ (swing turn).OfEnvironment := by
  cases turn <;> simp only [swing, Round.OfEnvironment] <;> decide +kernel

theorem swing_unstopped (past : List Round)
    (previous : past = [] ∨ ∃ older, past = swing (!turn) :: older) :
    (decision {} past (swing turn)).stop = false := by
  have fps : (swing turn).fps ≠ ∅ ∧ (swing turn).fps ≠ (tracked {} past).lastFps := by
    rcases previous with rfl | ⟨older, rfl⟩
    · have none_yet : (tracked {} []).lastFps = ∅ := rfl
      cases turn <;> simp [swing_fps, none_yet]
    · have last : (tracked {} (swing (!turn) :: older)).lastFps = (swing (!turn)).fps := by cases turn <;> rfl
      rw [last]
      cases turn <;> simp [swing_fps]
  have hashes : (swing turn).hash ≠ "" ∧ (swing turn).hash ≠ (tracked {} past).lastVerifyHash := by
    rcases previous with rfl | ⟨older, rfl⟩
    · have none_yet : (tracked {} []).lastVerifyHash = "" := rfl
      cases turn <;> simp [swing_hash, none_yet]
    · have last : (tracked {} (swing (!turn) :: older)).lastVerifyHash = (swing (!turn)).hash := by
        cases turn <;> rfl
      rw [last]
      cases turn <;> simp [swing_hash]
  have bucket := swing_logic turn
  cases turn <;> exact changing_unstopped fps.1 fps.2 hashes.1 hashes.2 bucket

theorem oscillation_split (count : Nat) {later past : List Round} {round : Round}
    (split : oscillation count = later ++ round :: past) :
    ∃ index, past = oscillation index ∧ round = swing (decide (index % 2 = 1)) := by
  induction count generalizing later with
  | zero => exact absurd split (by simp [oscillation])
  | succ count ih =>
    cases later with
    | nil =>
      obtain ⟨rfl, rfl⟩ := List.cons.inj split
      exact ⟨count, rfl, rfl⟩
    | cons head later => exact ih (List.cons.inj split).2

theorem oscillation_unstopped (count : Nat) : Unstopped {} (oscillation count) := by
  intro later round past split
  obtain ⟨index, rfl, rfl⟩ := oscillation_split count split
  apply swing_unstopped
  cases index with
  | zero => exact .inl rfl
  | succ index =>
    refine .inr ⟨oscillation index, ?_⟩
    rw [oscillation]
    congr 2
    by_cases odd : index % 2 = 1
    · have even : ¬ (index + 1) % 2 = 1 := by omega
      simp [odd, even]
    · have other : (index + 1) % 2 = 1 := by omega
      simp [odd, other]

/-- However long the window, there is a run that is never stopped and brings
nothing new in it; and a stop for lack of progress may follow a failure whose
hash did change. -/
theorem oscillation_not_detected :
    (¬ ∃ length, ∀ history later window older, Unstopped {} history ->
      history = later ++ window ++ older -> window.length = length ->
        ∃ after round before, window = after ++ round :: before ∧
          Fresh (before ++ older) round) ∧
    ((fun made : StopLossDecision => (made.stop, made.reason))
        (decision {} [.verifyFailure (failing "ModuleNotFoundError: No module named 'x'") [], swing false]
          (.emptyPatch false)) = (true, some .noProgress) ∧
      hashVerifyLogs ["ModuleNotFoundError: No module named 'x'"] ≠ (swing false).hash) := by
  refine ⟨?_, by decide +kernel, by decide +kernel⟩
  rintro ⟨length, fresh⟩
  have split : ∀ length, ∃ window, window.length = length ∧
      oscillation (length + 2) = window ++ oscillation 2 := by
    intro length
    induction length with
    | zero => exact ⟨[], rfl, rfl⟩
    | succ length ih =>
      obtain ⟨window, counted, whole⟩ := ih
      refine ⟨swing (decide ((length + 2) % 2 = 1)) :: window, congrArg Nat.succ counted, ?_⟩
      rw [List.cons_append, ← whole]
      rfl
  obtain ⟨window, counted, whole⟩ := split length
  obtain ⟨after, round, before, here, brought⟩ :=
    fresh (oscillation (length + 2)) [] window (oscillation 2) (oscillation_unstopped _) whole counted
  have known : round ∈ oscillation 2 := by
    obtain ⟨index, _, same⟩ := oscillation_split (length + 2)
      (show oscillation (length + 2) = after ++ round :: (before ++ oscillation 2) by
        rw [whole, here, List.append_assoc, List.cons_append])
    rw [same]
    cases decide (index % 2 = 1)
    · exact List.mem_cons_of_mem _ List.mem_cons_self
    · exact List.mem_cons_self
  exact not_fresh_of_mem (List.mem_append_right before known) brought

end

end RepairLoop
end FixLoop
