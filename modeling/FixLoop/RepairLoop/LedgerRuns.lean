import FixLoop.RepairLoop.ForbiddenFiles

namespace FixLoop
namespace RepairLoop

open Library

/-!
# Rounds of the failure ledger

A run records any number of failed verifications in one repair state.  Beside
the stored ledger the state keeps what the run has done so far.
-/

/-- The stored ledger; the files of patches that introduced a regression and of
negated hypotheses; the failures of hypotheses by their names, the latest
first; and the names given. -/
structure World where
  stored : Option FailureLedger := none
  banned : List String := []
  failures : List (String × String) := []
  opened : List String := []

namespace World

def loaded (world : World) : FailureLedger := FailureLedger.fromDict world.stored

def lastFailure (world : World) (name : String) : Option String :=
  (world.failures.find? fun failure => failure.1 == name).map Prod.snd

end World

section

variable [Texts]

/-- The failures after a round: one more if it is about a hypothesis. -/
def failuresAfter (world : World) (verdict : Verdict) : List (String × String) :=
  match subjectId world.loaded verdict with
  | some name =>
    if verifyHash verdict.result = "" then world.failures else (name, verifyHash verdict.result) :: world.failures
  | none => world.failures

def ledgerMachine : Machine World Verdict where
  step world verdict :=
    let after := recordVerifyIntoLedger world.loaded verdict
    { stored := some after.toDict
      banned := world.banned ++ ((if verdict.Regresses then verdict.files else []) ++
        (after.hypotheses.filter fun hypothesis => decide (hypothesis.status = .negated)).flatMap Hypothesis.files)
      failures := failuresAfter world verdict
      opened := world.opened ++ (after.hypotheses.drop world.loaded.hypotheses.length).map Hypothesis.id }

/-! ## The properties -/

/-- Forbidden files come last and no suspect is lost. -/
def OrdersSuspects (world : World) : Prop :=
  ∀ (Suspect : Type) (filePath : Suspect -> String) (suspects : List Suspect),
    (shrinkSuspectsForRegression filePath suspects world.loaded).Perm suspects ∧
      (shrinkSuspectsForRegression filePath suspects world.loaded).Pairwise (fun first second =>
        slashed (filePath first) ∈ world.banned -> world.loaded.Forbidden (slashed (filePath second)))

structure Recalls (world : World) : Prop where
  forbidden : ∀ file ∈ world.banned, world.loaded.Forbidden file
  suspects : OrdersSuspects world
  names : world.opened.Nodup
  active : (world.loaded.hypotheses.filter fun hypothesis => decide (hypothesis.status = .active)).length ≤ 1

/-- The hypothesis that the round is about failed with the same hash the last
time. -/
def Repeats (world : World) (verdict : Verdict) : Prop :=
  verifyHash verdict.result ≠ "" ∧ ∃ name, subjectId world.loaded verdict = some name ∧
    world.lastFailure name = some (verifyHash verdict.result)

/-- A hypothesis is negated exactly when it was before, introduced a regression,
or failed in the same way again. -/
def NegatesRightly (world : World) (verdict : Verdict) : Prop :=
  ∀ hypothesis ∈ (recordVerifyIntoLedger world.loaded verdict).hypotheses,
    (hypothesis.status = .negated <->
      (∃ original ∈ world.loaded.hypotheses, original.id = hypothesis.id ∧
        original.status = .negated) ∨
      (subjectId world.loaded verdict = some hypothesis.id ∧ (verdict.Regresses ∨ Repeats world verdict)))

/-- The files that the round forbids are among the first twelve in one of the
two lists. -/
def Room (world : World) (verdict : Verdict) : Prop :=
  (verdict.Regresses -> ∀ file ∈ verdict.files,
    file ∈ (added world.loaded.negatedFiles verdict.files).take 12 ∨
      file ∈ (added world.loaded.regressionFiles verdict.files).take 12) ∧
  (¬ verdict.Regresses -> ¬ verdict.Excused -> SameHash world.loaded verdict ->
    ∀ file ∈ subjectFiles world.loaded verdict,
      file ∈ (added world.loaded.negatedFiles (subjectFiles world.loaded verdict)).take 12 ∨
        file ∈ world.loaded.regressionFiles)

/-- The last hash recorded is that of the round exactly if it is the one with
which the hypothesis of the round failed the last time. -/
def OwnHash (world : World) (verdict : Verdict) : Prop :=
  ¬ verdict.Regresses -> ¬ verdict.Excused -> verifyHash verdict.result ≠ "" ->
    ∀ name, subjectId world.loaded verdict = some name ->
      (verifyHash verdict.result = world.loaded.lastVerifyHash <->
        world.lastFailure name = some (verifyHash verdict.result))

/-! ## What holds in every state -/

structure Invariant (world : World) : Prop where
  sound : Sound world.loaded
  shortNegated : world.loaded.negatedFiles.length ≤ 12
  shortRegression : world.loaded.regressionFiles.length ≤ 12
  banned : ∀ hypothesis ∈ world.loaded.hypotheses, hypothesis.status = .negated ->
    ∀ file ∈ hypothesis.files, file ∈ world.banned
  opened : world.opened = (List.range' 1 (world.loaded.nextId - 1)).map hypothesisName

variable {change : Hypothesis -> Hypothesis} {after chosen : FailureLedger} {place : Nat}
  {hypothesis : Hypothesis} {file : String}

omit [Texts] in
theorem modify_ids (keeping : Keeping change) (hypotheses : List Hypothesis) (place : Nat) :
    (hypotheses.modify place change).map Hypothesis.id = hypotheses.map Hypothesis.id := by
  induction hypotheses generalizing place with
  | nil => simp
  | cons head rest ih =>
    cases place with
    | zero => rw [List.modify_zero_cons, List.map_cons, List.map_cons, keeping.id]
    | succ place => rw [List.modify_succ_cons, List.map_cons, List.map_cons, ih]

variable {world : World} {verdict : Verdict}

/-- The effect of a round, whether or not it is about a hypothesis. -/
theorem round_cases (sound : Sound world.loaded) (verdict : Verdict) :
    subject world.loaded verdict = none ∨
      ∃ chosen place hypothesis change,
        Effect world.loaded verdict (recordVerifyIntoLedger world.loaded verdict) chosen place hypothesis change := by
  by_cases regresses : verdict.Regresses
  · obtain ⟨chosen, place, hypothesis, effect, _⟩ := regression_effect sound regresses
    exact .inr ⟨chosen, place, hypothesis, _, effect⟩
  · by_cases excused : verdict.Excused
    · left
      rw [subject, if_neg regresses, if_pos excused]
    · cases found : subject world.loaded verdict with
      | none => exact .inl rfl
      | some chosen =>
        obtain ⟨hypothesis, change, effect, _⟩ := failure_effect sound regresses excused found
        exact .inr ⟨chosen.1, chosen.2, hypothesis, change, effect⟩

theorem after_sound (sound : Sound world.loaded) (verdict : Verdict) :
    Sound (recordVerifyIntoLedger world.loaded verdict) := by
  rcases round_cases sound verdict with idle | ⟨chosen, place, hypothesis, change, effect⟩
  · have same := idle_effect idle
    exact sound.of_same same.1 same.2.1
  · have changed := effect.selected.sound.modify effect.keeping place [] [] "" ""
    exact changed.of_same effect.hypotheses effect.nextId

omit [Texts] in
/-- A hypothesis after the round is the one the round is about, or it was there
before. -/
theorem effect_mem (effect : Effect world.loaded verdict after chosen place hypothesis change)
    {held : Hypothesis} (member : held ∈ after.hypotheses) :
    held = change hypothesis ∨
      (held.id ≠ hypothesis.id ∧ ∃ original ∈ world.loaded.hypotheses, original.id = held.id ∧
        original.files = held.files ∧ (held.status = .negated <-> original.status = .negated)) := by
  rw [effect.hypotheses] at member
  obtain ⟨index, there⟩ := List.mem_iff_getElem?.mp member
  by_cases here : place = index
  · subst index
    rw [List.getElem?_modify_eq, effect.selected.there] at there
    exact .inl (Option.some.inj there).symm
  · rw [List.getElem?_modify_ne _ _ here] at there
    refine .inr ⟨?_, effect.selected.others index held (Ne.symm here) there⟩
    intro same
    have equal := effect.selected.sound.eq_of_id (List.mem_of_getElem? there)
      (List.mem_of_getElem? effect.selected.there) same
    subst equal
    have paired := List.pairwise_iff_getElem.mp effect.selected.sound.apart
    obtain ⟨firstWithin, first⟩ := List.getElem?_eq_some_iff.mp there
    obtain ⟨secondWithin, second⟩ := List.getElem?_eq_some_iff.mp effect.selected.there
    rcases Nat.lt_or_gt_of_ne here with before | before
    · exact (paired _ _ secondWithin firstWithin before).1 (by rw [first, second])
    · exact (paired _ _ firstWithin secondWithin before).1 (by rw [first, second])

omit [Texts] in
theorem effect_self (effect : Effect world.loaded verdict after chosen place hypothesis change) :
    change hypothesis ∈ after.hypotheses := by
  have there : after.hypotheses[place]? = some (change hypothesis) := by
    rw [effect.hypotheses, List.getElem?_modify_eq, effect.selected.there]
    rfl
  exact List.mem_of_getElem? there

theorem loaded_nextId (sound : Sound world.loaded) (verdict : Verdict) :
    (ledgerMachine.step world verdict).loaded.nextId = (recordVerifyIntoLedger world.loaded verdict).nextId :=
  if_neg (Nat.pos_iff_ne_zero.mp (after_sound sound verdict).positive)

/-- The names given by a round continue the numbering. -/
theorem opened_step (invariant : Invariant world) (verdict : Verdict) :
    (ledgerMachine.step world verdict).opened =
      (List.range' 1 ((ledgerMachine.step world verdict).loaded.nextId - 1)).map hypothesisName := by
  rw [loaded_nextId invariant.sound]
  change world.opened ++ ((recordVerifyIntoLedger world.loaded verdict).hypotheses.drop
    world.loaded.hypotheses.length).map Hypothesis.id = _
  rcases round_cases invariant.sound verdict with idle | ⟨chosen, place, hypothesis, change, effect⟩
  · have same := idle_effect idle
    rw [same.1, same.2.1, List.drop_length, List.map_nil, List.append_nil, invariant.opened]
  · rw [List.map_drop, effect.hypotheses, modify_ids effect.keeping, ← List.map_drop, effect.nextId]
    rcases effect.selected.opened with ⟨same, length⟩ | ⟨next, new⟩
    · rw [same, ← length, List.drop_length, List.map_nil, List.append_nil, invariant.opened]
    · have positive := invariant.sound.positive
      have numbers : List.range' 1 (chosen.nextId - 1) =
          List.range' 1 (world.loaded.nextId - 1) ++ [world.loaded.nextId] := by
        have count : chosen.nextId - 1 = (world.loaded.nextId - 1) + 1 := by omega
        rw [count, List.range'_1_concat]
        congr 2
        omega
      rw [new, numbers, List.map_append, invariant.opened]
      rfl

/-- The files banned by a round, in terms of the hypothesis it is about. -/
theorem banned_step (world : World) (verdict : Verdict) :
    file ∈ (ledgerMachine.step world verdict).banned <->
      file ∈ world.banned ∨ (verdict.Regresses ∧ file ∈ verdict.files) ∨
        ∃ hypothesis ∈ (recordVerifyIntoLedger world.loaded verdict).hypotheses,
          hypothesis.status = .negated ∧ file ∈ hypothesis.files := by
  change file ∈ world.banned ++ ((if verdict.Regresses then verdict.files else []) ++ _) <-> _
  rw [List.mem_append, List.mem_append, List.mem_flatMap]
  refine or_congr Iff.rfl (or_congr ?_ ?_)
  · by_cases regresses : verdict.Regresses
    · rw [if_pos regresses]
      exact ⟨fun member => ⟨regresses, member⟩, fun both => both.2⟩
    · rw [if_neg regresses]
      exact ⟨fun impossible => absurd impossible List.not_mem_nil, fun both => absurd both.1 regresses⟩
  · simp only [List.mem_filter, decide_eq_true_eq, and_assoc]

theorem invariant_step (invariant : Invariant world) (verdict : Verdict) :
    Invariant (ledgerMachine.step world verdict) where
  sound := (after_sound invariant.sound verdict).stored
  shortNegated := (List.length_take_le 12 _)
  shortRegression := (List.length_take_le 12 _)
  banned := by
    intro hypothesis member negated file listed
    obtain ⟨original, held, rfl⟩ := List.mem_map.mp member
    exact (banned_step world verdict).mpr (.inr (.inr ⟨original, List.mem_of_mem_drop held, negated, listed⟩))
  opened := opened_step invariant verdict

omit [Texts] in
theorem invariant_start : Invariant {} where
  sound := ⟨List.Pairwise.nil, fun _ member => absurd member List.not_mem_nil,
    fun _ member => absurd member List.not_mem_nil, Nat.one_pos⟩
  shortNegated := Nat.zero_le _
  shortRegression := Nat.zero_le _
  banned := fun _ member => absurd member List.not_mem_nil
  opened := rfl

/-! ## Files that stay forbidden -/

theorem forbidden_step (world : World) (verdict : Verdict) (file : String) :
    (ledgerMachine.step world verdict).loaded.Forbidden file <->
      file ∈ (recordVerifyIntoLedger world.loaded verdict).negatedFiles.take 12 ∨
        file ∈ (recordVerifyIntoLedger world.loaded verdict).regressionFiles.take 12 := Iff.rfl

omit [Texts] in
/-- The files of hypotheses that a round leaves negated were banned already or
belong to the hypothesis it negates. -/
theorem negated_files (invariant : Invariant world)
    (effect : Effect world.loaded verdict after chosen place hypothesis change) :
    (file ∈ world.banned ∨ ∃ held ∈ after.hypotheses, held.status = .negated ∧ file ∈ held.files) <->
      file ∈ world.banned ∨ ((change hypothesis).status = .negated ∧ file ∈ hypothesis.files) := by
  constructor
  · rintro (known | ⟨held, member, negated, listed⟩)
    · exact .inl known
    · rcases effect_mem effect member with rfl | ⟨_, original, before, _, files, status⟩
      · exact .inr ⟨negated, effect.changedFiles hypothesis ▸ listed⟩
      · exact .inl (invariant.banned original before (status.mp negated) file (files ▸ listed))
  · rintro (known | ⟨negated, listed⟩)
    · exact .inl known
    · exact .inr ⟨_, effect_self effect, negated, (effect.changedFiles hypothesis).symm ▸ listed⟩

/-- Files are only appended to the lists, so what is forbidden stays so. -/
theorem forbidden_stays (invariant : Invariant world) {verdict : Verdict}
    (negatedFiles regressionFiles : List String)
    (negated : (recordVerifyIntoLedger world.loaded verdict).negatedFiles = added world.loaded.negatedFiles negatedFiles)
    (regression : (recordVerifyIntoLedger world.loaded verdict).regressionFiles = added world.loaded.regressionFiles regressionFiles)
    (forbidden : world.loaded.Forbidden file) : (ledgerMachine.step world verdict).loaded.Forbidden file := by
  rw [forbidden_step, negated, regression]
  rcases forbidden with listed | listed
  · exact .inl (mem_take_added invariant.shortNegated _ listed)
  · exact .inr (mem_take_added invariant.shortRegression _ listed)

theorem forbidding_idle (invariant : Invariant world)
    (forbidding : ∀ file ∈ world.banned, world.loaded.Forbidden file)
    (idle : subject world.loaded verdict = none) :
    (∀ file ∈ (ledgerMachine.step world verdict).banned,
      (ledgerMachine.step world verdict).loaded.Forbidden file) <-> Room world verdict := by
  have same := idle_effect idle
  have kept : ¬ verdict.Regresses := by
    intro regresses
    rw [subject, if_pos regresses] at idle
    cases idle
  have none_banned : subjectFiles world.loaded verdict = [] := by
    rw [subjectFiles, idle]
    rfl
  constructor
  · intro _
    refine ⟨fun regresses => absurd regresses kept, fun _ _ _ file member => ?_⟩
    rw [none_banned] at member
    exact absurd member List.not_mem_nil
  · intro _ file member
    apply forbidden_stays invariant [] [] same.2.2.1 same.2.2.2
    apply forbidding
    rcases (banned_step world verdict).mp member with known | ⟨regresses, _⟩ | ⟨hypothesis, held, negated, listed⟩
    · exact known
    · exact absurd regresses kept
    · exact invariant.banned hypothesis (same.1 ▸ held) negated file listed

theorem forbidding_regression (invariant : Invariant world)
    (forbidding : ∀ file ∈ world.banned, world.loaded.Forbidden file) (regresses : verdict.Regresses) :
    (∀ file ∈ (ledgerMachine.step world verdict).banned,
      (ledgerMachine.step world verdict).loaded.Forbidden file) <-> Room world verdict := by
  obtain ⟨chosen, place, hypothesis, effect, files, negated, regression⟩ :=
    regression_effect invariant.sound regresses
  have room : Room world verdict <-> ∀ file ∈ verdict.files,
      (ledgerMachine.step world verdict).loaded.Forbidden file := by
    simp only [forbidden_step, negated, regression]
    exact ⟨fun room => room.1 regresses, fun all => ⟨fun _ => all, fun kept => absurd regresses kept⟩⟩
  rw [room]
  constructor
  · intro all file member
    exact all file ((banned_step world verdict).mpr (.inr (.inl ⟨regresses, member⟩)))
  · intro all file member
    rcases (banned_step world verdict).mp member with known | ⟨_, listed⟩ | left
    · exact forbidden_stays invariant _ _ negated regression (forbidding file known)
    · exact all file listed
    · rcases (negated_files invariant effect).mp (.inr left) with known | ⟨_, listed⟩
      · exact forbidden_stays invariant _ _ negated regression (forbidding file known)
      · exact all file ((files file).mp listed)

theorem forbidding_failure (invariant : Invariant world)
    (forbidding : ∀ file ∈ world.banned, world.loaded.Forbidden file) (kept : ¬ verdict.Regresses)
    (unexcused : ¬ verdict.Excused) {chosen : FailureLedger × Nat}
    (found : subject world.loaded verdict = some chosen) :
    (∀ file ∈ (ledgerMachine.step world verdict).banned,
      (ledgerMachine.step world verdict).loaded.Forbidden file) <-> Room world verdict := by
  obtain ⟨hypothesis, change, effect, status, ⟨same, other⟩, regression⟩ :=
    failure_effect invariant.sound kept unexcused found
  have banned : ∀ file, file ∈ (ledgerMachine.step world verdict).banned <->
      file ∈ world.banned ∨ (SameHash world.loaded verdict ∧ file ∈ hypothesis.files) := by
    intro file
    rw [banned_step, ← status, ← negated_files invariant effect]
    refine or_congr Iff.rfl ?_
    exact ⟨fun either => either.resolve_left (fun both => kept both.1), .inr⟩
  by_cases repeated : SameHash world.loaded verdict
  · have negated := same repeated
    have short : world.loaded.regressionFiles.take 12 = world.loaded.regressionFiles :=
      List.take_of_length_le invariant.shortRegression
    have room : Room world verdict <-> ∀ file ∈ hypothesis.files,
        (ledgerMachine.step world verdict).loaded.Forbidden file := by
      simp only [forbidden_step, negated, regression, short]
      rw [Room, effect.files]
      exact ⟨fun room => room.2 kept unexcused repeated,
        fun all => ⟨fun regresses => absurd regresses kept, fun _ _ _ => all⟩⟩
    rw [room]
    constructor
    · intro all file member
      exact all file ((banned file).mpr (.inr ⟨repeated, member⟩))
    · intro all file member
      rcases (banned file).mp member with known | ⟨_, listed⟩
      · exact forbidden_stays invariant _ [] negated regression (forbidding file known)
      · exact all file listed
  · constructor
    · intro _
      exact ⟨fun regresses => absurd regresses kept, fun _ _ again => absurd again repeated⟩
    · intro _ file member
      rcases (banned file).mp member with known | ⟨again, _⟩
      · exact forbidden_stays invariant [] [] (other repeated) regression
          (forbidding file known)
      · exact absurd again repeated

omit [Texts] in
/-- A round about no hypothesis, a regression, or a failure that is held against
a hypothesis. -/
theorem verdict_cases (loaded : FailureLedger) (verdict : Verdict) :
    subject loaded verdict = none ∨ verdict.Regresses ∨
      (¬ verdict.Regresses ∧ ¬ verdict.Excused ∧ ∃ chosen, subject loaded verdict = some chosen) := by
  by_cases regresses : verdict.Regresses
  · exact .inr (.inl regresses)
  · by_cases excused : verdict.Excused
    · left
      rw [subject, if_neg regresses, if_pos excused]
    · cases found : subject loaded verdict with
      | none => exact .inl rfl
      | some chosen => exact .inr (.inr ⟨regresses, excused, chosen, rfl⟩)

/-- A round forbids what it bans exactly when there is room for it. -/
theorem forbidding_step (invariant : Invariant world)
    (forbidding : ∀ file ∈ world.banned, world.loaded.Forbidden file) (verdict : Verdict) :
    (∀ file ∈ (ledgerMachine.step world verdict).banned,
      (ledgerMachine.step world verdict).loaded.Forbidden file) <-> Room world verdict := by
  rcases verdict_cases world.loaded verdict with idle | regresses | ⟨kept, unexcused, chosen, found⟩
  · exact forbidding_idle invariant forbidding idle
  · exact forbidding_regression invariant forbidding regresses
  · exact forbidding_failure invariant forbidding kept unexcused found

/-- Only the hypothesis of the round is in question. -/
theorem negates_effect (invariant : Invariant world)
    (effect : Effect world.loaded verdict (recordVerifyIntoLedger world.loaded verdict) chosen place hypothesis change) :
    NegatesRightly world verdict <->
      ((change hypothesis).status = .negated <-> verdict.Regresses ∨ Repeats world verdict) := by
  have name := effect.keeping.id hypothesis
  have before : ¬ ∃ original ∈ world.loaded.hypotheses,
      original.id = (change hypothesis).id ∧ original.status = .negated := by
    rintro ⟨original, held, same, negated⟩
    exact effect.selected.notNegated original held (same.trans name) negated
  constructor
  · intro rightly
    have here := rightly (change hypothesis) (effect_self effect)
    rw [name] at here before
    rw [here, effect.id]
    exact ⟨fun either => (either.resolve_left before).2, fun reason => .inr ⟨rfl, reason⟩⟩
  · intro here held member
    rcases effect_mem effect member with rfl | ⟨apart, original, original_held, same, _, status⟩
    · rw [here, name, effect.id]
      rw [name] at before
      exact ⟨fun reason => .inr ⟨rfl, reason⟩, fun either => (either.resolve_left before).2⟩
    · constructor
      · intro negated
        exact .inl ⟨original, original_held, same, status.mp negated⟩
      · rintro (⟨other, other_held, other_same, negated⟩ | ⟨about, _⟩)
        · have equal := invariant.sound.eq_of_id original_held other_held (same.trans other_same.symm)
          exact status.mpr (equal ▸ negated)
        · rw [effect.id] at about
          exact absurd (Option.some.inj about).symm apart

theorem negatesRightly_iff (invariant : Invariant world) (verdict : Verdict) :
    NegatesRightly world verdict <-> OwnHash world verdict := by
  rcases verdict_cases world.loaded verdict with idle | regresses | ⟨kept, unexcused, chosen, found⟩
  · have same := idle_effect idle
    have nothing : subjectId world.loaded verdict = none := by
      rw [subjectId, idle]
      rfl
    constructor
    · intro _ _ _ _ name about
      rw [nothing] at about
      cases about
    · intro _ hypothesis member
      rw [same.1] at member
      constructor
      · exact fun negated => .inl ⟨hypothesis, member, rfl, negated⟩
      · rintro (⟨original, held, equal, negated⟩ | ⟨about, _⟩)
        · exact invariant.sound.eq_of_id held member equal ▸ negated
        · rw [nothing] at about
          cases about
  · obtain ⟨chosen, place, hypothesis, effect, _⟩ := regression_effect invariant.sound regresses
    rw [negates_effect invariant effect]
    exact ⟨fun _ kept => absurd regresses kept, fun _ => ⟨fun _ => .inl regresses, fun _ => rfl⟩⟩
  · obtain ⟨hypothesis, change, effect, status, _⟩ := failure_effect invariant.sound kept unexcused found
    rw [negates_effect invariant effect, status]
    by_cases hashed : verifyHash verdict.result = ""
    · constructor
      · exact fun _ _ _ named => absurd hashed named
      · intro _
        exact ⟨fun same => absurd hashed same.1, fun either => absurd hashed (either.resolve_left kept).1⟩
    · constructor
      · intro rightly _ _ _ name about
        constructor
        · intro last
          obtain ⟨_, other, other_about, failed⟩ := (rightly.mp ⟨hashed, last⟩).resolve_left kept
          rw [about] at other_about
          cases other_about
          exact failed
        · intro failed
          exact (rightly.mpr (.inr ⟨hashed, name, about, failed⟩)).2
      · intro own
        have agree := own kept unexcused hashed hypothesis.id effect.id
        constructor
        · exact fun same => .inr ⟨hashed, hypothesis.id, effect.id, agree.mp same.2⟩
        · intro either
          obtain ⟨_, name, about, failed⟩ := either.resolve_left kept
          rw [effect.id] at about
          cases about
          exact ⟨hashed, agree.mpr failed⟩

/-! ## Runs -/

omit [Texts] in
theorem suspects_ordered (forbidding : ∀ file ∈ world.banned, world.loaded.Forbidden file) :
    OrdersSuspects world := by
  intro Suspect filePath suspects
  constructor
  · have parts := List.filter_append_perm (fun suspect =>
      decide (¬ world.loaded.Forbidden (slashed (filePath suspect)))) suspects
    simpa [shrinkSuspectsForRegression] using parts
  · refine List.pairwise_append.mpr ⟨?_, ?_, ?_⟩
    · refine List.pairwise_of_forall_mem_list fun first member second _ banned => ?_
      have kept := of_decide_eq_true (List.mem_filter.mp member).2
      exact absurd (forbidding _ banned) kept
    · refine List.pairwise_of_forall_mem_list fun first _ second member _ => ?_
      exact of_decide_eq_true (List.mem_filter.mp member).2
    · intro first _ second member _
      exact of_decide_eq_true (List.mem_filter.mp member).2

omit [Texts] in
theorem recalls_iff (invariant : Invariant world) :
    Recalls world <-> ∀ file ∈ world.banned, world.loaded.Forbidden file := by
  refine ⟨Recalls.forbidden, fun forbidding => ⟨forbidding, suspects_ordered forbidding, ?_, ?_⟩⟩
  · rw [invariant.opened]
    exact (List.nodup_range' 1).map fun _ _ same => hypothesisName_injective same
  · have apart := invariant.sound.apart.filter fun hypothesis => decide (hypothesis.status = .active)
    cases active : world.loaded.hypotheses.filter (fun hypothesis => decide (hypothesis.status = .active)) with
    | nil => exact Nat.zero_le 1
    | cons first rest =>
      cases rest with
      | nil => exact Nat.le_refl 1
      | cons second rest =>
        have listed : ∀ hypothesis, hypothesis ∈ first :: second :: rest -> hypothesis.status = .active :=
          fun hypothesis member => by
            rw [← active] at member
            exact of_decide_eq_true (List.mem_filter.mp member).2
        rw [active] at apart
        have both := (List.pairwise_cons.mp apart).1 second List.mem_cons_self
        exact absurd ⟨listed first List.mem_cons_self, listed second (List.mem_cons_of_mem _ List.mem_cons_self)⟩
          both.2

/-- Every state of a run recalls what was forbidden and every round negates
rightly exactly when every round finds room for the files it forbids and the
last hash recorded agrees with the hypothesis of the round. -/
theorem ledger_remembers (verdicts : List Verdict) :
    (ledgerMachine.Visits Recalls {} verdicts ∧ ledgerMachine.Along NegatesRightly {} verdicts) <->
      ledgerMachine.Along (fun world verdict => Room world verdict ∧ OwnHash world verdict) {} verdicts := by
  have preserved : ∀ world verdict, Invariant world -> Invariant (ledgerMachine.step world verdict) :=
    fun world verdict known => invariant_step known verdict
  rw [Machine.along_and]
  refine and_congr ?_ ?_
  · refine ledgerMachine.visits_iff_along preserved ?_ invariant_start
      ((recalls_iff invariant_start).mpr fun _ member => absurd member List.not_mem_nil) verdicts
    intro world verdict invariant recalls
    rw [recalls_iff (invariant_step invariant verdict)]
    exact forbidding_step invariant recalls.forbidden verdict
  · exact ledgerMachine.along_iff preserved (fun world verdict known => negatesRightly_iff known verdict)
      invariant_start verdicts

end

/-- The digest of the log below is the actual one. -/
@[reducible] def Texts.oneFailure : Texts where
  hexdigest _ := "5476ab6d72649288ca0b2e9d018d8e82ff2f1fa40657fe579cdd9fd32dd23a41"
  lower text := String.ofList (text.toList.map Char.toLower)

section

attribute [local instance] Texts.oneFailure

/-- A failed verification of patches of these files. -/
def failed (paths : List String) (isRegression : Bool) : Verdict where
  patches := paths.map (fun path => { filePath := path, originalLines := "", patchedLines := "", diff := "" })
  result := some { totalTests := 1, failed := 1, failureLogs := ["E   assert 1 == 2"] }
  bucket := "logic"
  isRegression := isRegression

def thirteen : List String :=
  ["a.py", "b.py", "c.py", "d.py", "e.py", "f.py", "g.py", "h.py", "i.py", "j.py", "k.py", "l.py", "m.py"]

/-- The thirteenth file of a regression is not forbidden, and a hypothesis is
negated when it fails for the first time, as another one failed before it. -/
theorem thirteenth_file_forgotten :
    ("m.py" ∈ (ledgerMachine.run {} [failed thirteen true]).banned ∧
      ¬ (ledgerMachine.run {} [failed thirteen true]).loaded.Forbidden "m.py") ∧
    (ledgerMachine.run {} [failed ["a.py"] false, failed ["b.py"] false]).loaded.hypotheses.map
      (fun hypothesis => (hypothesis.files, hypothesis.status, hypothesis.verifyHashes)) =
        [(["a.py"], .superseded, ["5476ab6d7264"]), (["b.py"], .negated, ["5476ab6d7264"])] := by
  decide +kernel

end

end RepairLoop
end FixLoop
