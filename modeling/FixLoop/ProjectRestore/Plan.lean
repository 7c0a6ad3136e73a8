import Mathlib.Data.List.Dedup
import Mathlib.Data.Prod.Lex
import FixLoop.Library.Sorting
import FixLoop.Library.Updates
import FixLoop.ProjectRestore.Manifests

namespace FixLoop
namespace ProjectRestore

open Library

/-!
# The restore plan makes the target of the tree before

A path has the same entry in all trees up to the phase that changes it.  In a
phase that goes from the root down, the directories above a path have what the
phase makes of them; in one that goes up, they have what they had before it.
-/

theorem shallowFirst_sorted (steps : List RestoreStep) :
    (shallowFirst steps).Pairwise (fun first second => depth first.path ≤ depth second.path) := by
  have keyed : shallowFirst steps = Sorting.sorted (fun step => toLex (depth step.path, step.path)) steps := by
    simp only [shallowFirst, Sorting.sorted, Prod.Lex.toLex_le_toLex]
  rw [keyed]
  refine (Sorting.sorted_pairwise _ steps).imp ?_
  intro first second order
  rcases Prod.Lex.toLex_le_toLex.mp order with less | ⟨same, _⟩
  · exact Nat.le_of_lt less
  · exact Nat.le_of_eq same

theorem deepFirst_sorted (steps : List RestoreStep) :
    (deepFirst steps).Pairwise (fun first second => depth second.path ≤ depth first.path) := by
  have keyed : deepFirst steps =
      Sorting.sorted (fun step => toLex (OrderDual.toDual (depth step.path), step.path)) steps := by
    simp only [deepFirst, Sorting.sorted, Prod.Lex.toLex_le_toLex, OrderDual.toDual_lt_toDual,
      OrderDual.toDual_inj]
  rw [keyed]
  refine (Sorting.sorted_pairwise _ steps).imp ?_
  intro first second order
  rcases Prod.Lex.toLex_le_toLex.mp order with less | ⟨same, _⟩
  · exact Nat.le_of_lt (OrderDual.toDual_lt_toDual.mp less)
  · exact Nat.le_of_eq (OrderDual.toDual_inj.mp same).symm

theorem sortedPaths_nodup (paths : List Path) : (sortedPaths paths).Nodup :=
  (List.mergeSort_perm _ _).nodup_iff.mpr (List.nodup_dedup paths)

theorem mem_allPaths {before target : Entries} {path : Path} :
    path ∈ allPaths before target <-> before.get path ≠ none ∨ target.get path ≠ none := by
  unfold allPaths sortedPaths
  rw [(List.mergeSort_perm _ _).mem_iff, List.mem_dedup, List.mem_append]
  have listed : ∀ entries : Entries, path ∈ entries.map Prod.fst <-> entries.get path ≠ none :=
    fun entries => not_iff_comm.mp Entries.get_eq_none.symm |>.symm
  rw [listed, listed]

/-! ## Trees -/

abbrev Tree := Path -> Option Entry

/-- The step can be made: the path has the entry that it replaces, the directories
above it exist and, under POSIX, admit changes by their owner, and a directory
that is removed is empty. -/
structure Ready (posix : Bool) (tree : Tree) (step : RestoreStep) : Prop where
  current : tree step.path = step.before
  above : ∀ parent ∈ parents step.path, ∃ mode,
    tree parent = some (.directory mode) ∧ (posix = true -> (Entry.directory mode).ownerAccess = true)
  empty : step.before.any Entry.isDirectory = true -> step.after.any Entry.isDirectory = false ->
    ∀ child, step.path ∈ parents child -> tree child = none

/-- The tree after some steps. -/
def performed (tree : Tree) (steps : List RestoreStep) : Tree :=
  Updates.made RestoreStep.path RestoreStep.after tree steps

/-- A directory that a change needs. -/
def Open (posix : Bool) (entry : Option Entry) : Prop :=
  ∃ mode, entry = some (.directory mode) ∧ (posix = true -> (Entry.directory mode).ownerAccess = true)

theorem ownerAccess_writable (mode : Nat) : (Entry.directory (mode ||| 0o700)).ownerAccess = true := by
  have absorbed : (mode ||| 0o700) &&& 0o700 = 0o700 := by
    apply Nat.eq_of_testBit_eq
    intro bit
    rw [Nat.testBit_and, Nat.testBit_or]
    cases Nat.testBit 0o700 bit with
    | false => simp
    | true => simp
  simp [Entry.ownerAccess, Entry.mode, absorbed]

section FirstPhase

variable {posix : Bool} {before target : Entries} {path parent : Path}

theorem widening_path {step : RestoreStep} (chosen : widening before path = some step) : step.path = path := by
  unfold widening at chosen
  split at chosen
  · split at chosen
    · cases chosen
      rfl
    · cases chosen
  · cases chosen

theorem prepare_perm (before target : Entries) :
    (prepare true before target).Perm ((changedParents before target).dedup.filterMap (widening before)) := by
  unfold prepare
  rw [if_pos rfl]
  exact List.mergeSort_perm _ _

theorem mem_changedParents : path ∈ changedParents before target <->
    ∃ child, before.get child ≠ target.get child ∧ path ∈ parents child := by
  unfold changedParents
  rw [List.mem_flatMap]
  apply exists_congr
  intro child
  rw [List.mem_filter, decide_eq_true_eq, and_assoc]
  apply and_iff_right_of_imp
  rintro ⟨differs, _⟩
  rw [mem_allPaths]
  by_contra neither
  rw [not_or, not_not, not_not] at neither
  exact differs (neither.1.trans neither.2.symm)

/-- The directories above a directory that a change needs are needed as well. -/
theorem changedParents_above (needed : path ∈ changedParents before target) (above : parent ∈ parents path) :
    parent ∈ changedParents before target := by
  rw [mem_changedParents] at needed ⊢
  rcases needed with ⟨child, differs, inside⟩
  exact ⟨child, differs, Hierarchy.mem_parents_trans above inside⟩

/-- The entry of a path after the first phase. -/
theorem performed_prepare (path : Path) : performed before.get (prepare posix before target) path =
    if posix = true ∧ path ∈ changedParents before target then
      ((widening before path).map RestoreStep.after).getD (before.get path)
    else before.get path := by
  cases posix with
  | false => rfl
  | true =>
    by_cases needed : path ∈ changedParents before target
    · rw [if_pos ⟨rfl, needed⟩]
      exact Updates.made_chosen (fun _ _ => widening_path) (List.nodup_dedup _) (prepare_perm before target)
        (fun _ => List.mem_dedup.mpr needed)
    · rw [if_neg fun both => needed both.2]
      apply Updates.made_of_notMem
      intro member
      rcases List.mem_map.mp member with ⟨step, inside, rfl⟩
      have chosen := (Updates.mem_chosen (fun _ _ => widening_path) (prepare_perm before target)).mp inside
      exact needed (List.mem_dedup.mp chosen.1)

theorem Entries.get_map (change : Path -> Entry -> Entry) (entries : Entries) (path : Path) :
    Entries.get (entries.map fun entry => (entry.1, change entry.1 entry.2)) path =
      (entries.get path).map (change path) := by
  induction entries with
  | nil => rfl
  | cons first rest ih =>
    rw [List.map_cons, Entries.get_cons, ih, show first = (first.1, first.2) from rfl, Entries.get_cons]
    by_cases here : first.1 = path
    · rw [if_pos here, if_pos here, Option.map_some, here]
    · rw [if_neg here, if_neg here]

theorem prepare_distinct (posix : Bool) (before target : Entries) : ((prepare posix before target).map RestoreStep.path).Nodup := by
  cases posix with
  | false => exact .nil
  | true =>
    exact Updates.distinct_chosen (fun _ _ => widening_path) (List.nodup_dedup _) (prepare_perm before target)

/-- The dictionary that the plan goes on with. -/
theorem widened_get : (widened posix before target).get = performed before.get (prepare posix before target) := by
  funext path
  unfold widened
  rw [Entries.get_map (fun path entry => (((prepare posix before target).find?
    (fun step => step.path = path)).bind RestoreStep.after).getD entry)]
  cases found : (prepare posix before target).find? (fun step => step.path = path) with
  | none =>
    have missing : path ∉ (prepare posix before target).map RestoreStep.path := by
      intro member
      rcases List.mem_map.mp member with ⟨step, inside, same⟩
      exact List.find?_eq_none.mp found step inside (decide_eq_true same)
    rw [performed, Updates.made_of_notMem missing]
    exact Option.map_id'
  | some step =>
    have inside := List.mem_of_find?_eq_some found
    have same : step.path = path :=
      of_decide_eq_true (List.find?_some (p := fun step : RestoreStep => decide (step.path = path)) found)
    subst same
    rw [performed, Updates.made_of_mem (prepare_distinct posix before target) inside]
    cases posix with
    | false => cases inside
    | true =>
      have chosen := (Updates.mem_chosen (fun _ _ => widening_path) (prepare_perm before target)).mp inside
      have widens := chosen.2
      unfold widening at widens
      split at widens
      · rename_i old present
        rw [present]
        split at widens
        · have after := congrArg RestoreStep.after (Option.some.inj widens)
          change some (step.after.getD old) = step.after
          rw [← after]
          rfl
        · cases widens
      · cases widens

/-- A directory that is needed is open after the first phase, and every other
entry is what it was. -/
theorem widened_cases (posix : Bool) (before target : Entries) (path : Path) : (widened posix before target).get path = before.get path ∧
      (posix = true -> path ∈ changedParents before target -> ∀ mode,
        before.get path = some (.directory mode) -> (Entry.directory mode).ownerAccess = true) ∨
    ∃ mode, posix = true ∧ path ∈ changedParents before target ∧
      before.get path = some (.directory mode) ∧
      (widened posix before target).get path = some (.directory (mode ||| 0o700)) := by
  rw [widened_get, performed_prepare]
  by_cases needed : posix = true ∧ path ∈ changedParents before target
  · rw [if_pos needed]
    unfold widening
    cases present : before.get path with
    | none => exact Or.inl ⟨rfl, fun _ _ _ impossible => by cases impossible⟩
    | some entry =>
      cases entry with
      | file mode size digest =>
        refine Or.inl ⟨rfl, ?_⟩
        intro _ _ _ impossible
        cases impossible
      | directory mode =>
        dsimp only
        by_cases closed : (Entry.directory mode).ownerAccess = false
        · rw [if_pos ⟨rfl, closed⟩]
          exact Or.inr ⟨mode, needed.1, needed.2, rfl, rfl⟩
        · rw [if_neg fun both => closed both.2]
          refine Or.inl ⟨rfl, ?_⟩
          intro _ _ other same
          cases same
          exact Bool.not_eq_false _ ▸ closed
  · rw [if_neg needed]
    exact Or.inl ⟨rfl, fun isPosix inside => absurd ⟨isPosix, inside⟩ needed⟩

/-- A directory stays one, and a needed one is open. -/
theorem widened_directory {mode : Nat} (present : before.get path = some (.directory mode))
    (needed : path ∈ changedParents before target) : Open posix ((widened posix before target).get path) := by
  rcases widened_cases posix before target path with ⟨same, access⟩ | ⟨old, _, _, _, wide⟩
  · exact ⟨mode, same.trans present, fun isPosix => access isPosix needed mode present⟩
  · exact ⟨_, wide, fun _ => ownerAccess_writable old⟩

theorem widened_some {entry : Entry} (present : (widened posix before target).get path = some entry) :
    ∃ old, before.get path = some old := by
  rcases widened_cases posix before target path with ⟨same, _⟩ | ⟨mode, _, _, old, _⟩
  · exact ⟨entry, same ▸ present⟩
  · exact ⟨_, old⟩

/-- The directories above a path that is still to be changed are needed. -/
theorem needed_of_changed (differs : (widened posix before target).get path ≠ target.get path)
    (above : parent ∈ parents path) : parent ∈ changedParents before target := by
  rcases widened_cases posix before target path with ⟨same, _⟩ | ⟨_, _, needed, _, _⟩
  · exact mem_changedParents.mpr ⟨path, same ▸ differs, above⟩
  · exact changedParents_above needed above

end FirstPhase

/-! ## One path -/

/-- What the removals leave of an entry. -/
def remaining (old new : Option Entry) : Option Entry := if makesWay old new then none else old

section OnePath

variable {posix : Bool} {path : Path} {old new : Option Entry} {entry : Entry}

theorem remaining_none : remaining old none = none := by
  cases old <;> rfl

/-- What is left is of the kind that is wanted. -/
theorem remaining_some (left : remaining old new = some entry) :
    old = some entry ∧ ∃ other, new = some other ∧ other.isDirectory = entry.isDirectory := by
  unfold remaining at left
  split at left
  · cases left
  rename_i stays
  subst left
  cases new with
  | none => exact absurd rfl stays
  | some other =>
    refine ⟨rfl, other, rfl, ?_⟩
    by_contra kinds
    refine stays ?_
    change (entry.isDirectory != other.isDirectory) = true
    exact bne_iff_ne.mpr (Ne.symm kinds)

theorem makesWay_self (entry : Option Entry) : makesWay entry entry = false := by
  cases entry <;> simp [makesWay]

theorem turn_remove : (turn posix path old new).remove =
    if makesWay old new then some ⟨path, old, none⟩ else none := by
  unfold turn
  split
  · rename_i same
    rw [same, makesWay_self]
    rfl
  · cases new with
    | none => rfl
    | some entry =>
      dsimp only
      split
      · rfl
      · split
        · rfl
        · rfl

/-- The steps of a path that is to become a directory. -/
theorem turn_directory (posix : Bool) (path : Path) (differs : old ≠ some entry) (directory : entry.isDirectory = true) :
    (turn posix path old (some entry)).file = none ∧
      if posix = true then
        (turn posix path old (some entry)).directory =
            (if remaining old (some entry) = none then some ⟨path, none, some entry.writable⟩ else none) ∧
          (turn posix path old (some entry)).finish =
            if (remaining old (some entry)).getD entry.writable ≠ entry then
              some ⟨path, some ((remaining old (some entry)).getD entry.writable), some entry⟩
            else none
      else
        (turn posix path old (some entry)).directory = some ⟨path, remaining old (some entry), some entry⟩ ∧
          (turn posix path old (some entry)).finish = none := by
  unfold turn
  rw [if_neg differs]
  dsimp only
  cases posix with
  | true =>
    rw [if_pos ⟨rfl, directory⟩, if_pos rfl]
    refine ⟨rfl, ?_, rfl⟩
    change (if remaining old (some entry) = none then
      some (⟨path, none, some ((remaining old (some entry)).getD entry.writable)⟩ : RestoreStep) else none) = _
    split
    · rename_i gone
      rw [gone]
      rfl
    · rfl
  | false =>
    rw [if_neg (by simp), if_pos directory]
    exact ⟨rfl, rfl, rfl⟩

/-- The steps of a path that is to become a file. -/
theorem turn_file (posix : Bool) (path : Path) (differs : old ≠ some entry) (file : entry.isDirectory = false) :
    (turn posix path old (some entry)).directory = none ∧
      (turn posix path old (some entry)).file = some ⟨path, remaining old (some entry), some entry⟩ ∧
      (turn posix path old (some entry)).finish = none := by
  unfold turn
  rw [if_neg differs]
  dsimp only
  rw [if_neg (by simp [file]), if_neg (by simp [file])]
  exact ⟨rfl, rfl, rfl⟩

theorem turn_none : (turn posix path old none).directory = none ∧ (turn posix path old none).file = none ∧
    (turn posix path old none).finish = none := by
  unfold turn
  split
  · exact ⟨rfl, rfl, rfl⟩
  · exact ⟨rfl, rfl, rfl⟩

theorem turn_same : turn posix path old old = {} := by
  unfold turn
  rw [if_pos rfl]

/-! ## The entry of a path after each phase -/

/-- The entry of a path after a phase that has this step for it. -/
def stepped (step : Option RestoreStep) (entry : Option Entry) : Option Entry :=
  (step.map RestoreStep.after).getD entry

/-- The entry of the path after the directories. -/
def placed (posix : Bool) (path : Path) (old new : Option Entry) : Option Entry :=
  stepped (turn posix path old new).directory (remaining old new)

theorem stepped_remove : stepped (turn posix path old new).remove old = remaining old new := by
  rw [turn_remove, remaining]
  split
  · rfl
  · rfl

theorem remaining_self (entry : Option Entry) : remaining entry entry = entry := by
  rw [remaining, makesWay_self]
  rfl

/-- A directory is open when its contents are changed. -/
theorem placed_open {mode : Nat} (kept : ∀ other, old = some (.directory other) -> Open posix old) :
    Open posix (placed posix path old (some (.directory mode))) := by
  unfold placed
  by_cases same : old = some (.directory mode)
  · subst same
    rw [turn_same, remaining_self]
    exact kept mode rfl
  · have planned := (turn_directory posix path same rfl).2
    cases posix with
    | false =>
      rw [if_neg Bool.false_ne_true] at planned
      rw [planned.1]
      exact ⟨mode, rfl, fun impossible => by cases impossible⟩
    | true =>
      rw [if_pos rfl] at planned
      rw [planned.1]
      cases left : remaining old (some (.directory mode)) with
      | none => exact ⟨_, rfl, fun _ => ownerAccess_writable mode⟩
      | some entry =>
        rcases remaining_some left with ⟨present, other, wanted, kind⟩
        cases wanted
        cases entry with
        | file => cases kind
        | directory other =>
          change Open true (some (.directory other))
          rw [← present]
          exact kept other present

/-- The last phase makes the wanted entry. -/
theorem finished : stepped (turn posix path old new).finish
    (stepped (turn posix path old new).file (placed posix path old new)) = new := by
  unfold placed
  by_cases same : old = new
  · subst same
    rw [turn_same, remaining_self]
    rfl
  cases new with
  | none =>
    rw [turn_none.1, turn_none.2.1, turn_none.2.2, remaining_none]
    rfl
  | some entry =>
    by_cases directory : entry.isDirectory = true
    · rcases turn_directory posix path same directory with ⟨file, planned⟩
      rw [file]
      cases posix with
      | false =>
        rw [if_neg Bool.false_ne_true] at planned
        rw [planned.1, planned.2]
        rfl
      | true =>
        rw [if_pos rfl] at planned
        rw [planned.1, planned.2]
        split
        · rfl
        · rename_i reached
          cases left : remaining old (some entry) with
          | none | some other =>
            rw [left] at reached
            exact congrArg some (not_not.mp reached)
    · rcases turn_file posix path same (Bool.eq_false_iff.mpr directory) with
        ⟨_, file, finish⟩
      rw [file, finish]
      rfl

end OnePath

section Phases

variable {posix : Bool} {before target : Entries} {path parent : Path} {step : RestoreStep}

/-- What the loop appends for a path. -/
def turnAt (posix : Bool) (before target : Entries) (path : Path) : Turn :=
  turn posix path ((widened posix before target).get path) (target.get path)

/-- A part of a turn names the path of the turn. -/
structure Part (choose : Turn -> Option RestoreStep) : Prop where
  keyed : ∀ posix path old new step, choose (turn posix path old new) = some step -> step.path = path
  empty : choose {} = none

theorem part_remove : Part Turn.remove := by
  refine ⟨?_, rfl⟩
  intro posix path old new step chosen
  rw [turn_remove] at chosen
  split at chosen
  · cases chosen
    rfl
  · cases chosen

theorem turn_cases {motive : Turn -> Prop} (unchanged : motive {})
    (gone : ∀ turn : Turn, turn.directory = none -> turn.file = none -> turn.finish = none -> motive turn)
    (file : ∀ (turn : Turn) step, turn.directory = none -> turn.file = some step -> turn.finish = none ->
      step.path = path -> motive turn)
    (directory : ∀ turn : Turn, turn.file = none ->
      (∀ step, turn.directory = some step -> step.path = path) ->
      (∀ step, turn.finish = some step -> step.path = path) -> motive turn)
    (old new : Option Entry) : motive (turn posix path old new) := by
  by_cases same : old = new
  · subst same
    rw [turn_same]
    exact unchanged
  cases new with
  | none => exact gone _ turn_none.1 turn_none.2.1 turn_none.2.2
  | some entry =>
    by_cases kind : entry.isDirectory = true
    · rcases turn_directory posix path same kind with ⟨unfiled, planned⟩
      refine directory _ unfiled ?_ ?_
      · intro step chosen
        cases posix with
        | false =>
          rw [if_neg Bool.false_ne_true] at planned
          cases planned.1.symm.trans chosen
          rfl
        | true =>
          rw [if_pos rfl] at planned
          have chosen := planned.1.symm.trans chosen
          split at chosen
          · cases chosen
            rfl
          · cases chosen
      · intro step chosen
        cases posix with
        | false =>
          rw [if_neg Bool.false_ne_true] at planned
          cases planned.2.symm.trans chosen
        | true =>
          rw [if_pos rfl] at planned
          have chosen := planned.2.symm.trans chosen
          split at chosen
          · cases chosen
            rfl
          · cases chosen
    · rcases turn_file posix path same (Bool.eq_false_iff.mpr kind) with
        ⟨placed, written, finish⟩
      exact file _ _ placed written finish rfl

theorem part_directory : Part Turn.directory := by
  refine ⟨?_, rfl⟩
  intro posix path old new step
  refine turn_cases (motive := fun turn => turn.directory = some step -> step.path = path) ?_ ?_ ?_ ?_ old new
  · exact nofun
  · exact fun turn none _ _ chosen => nomatch none.symm.trans chosen
  · exact fun turn _ none _ _ _ chosen => nomatch none.symm.trans chosen
  · exact fun turn _ placed _ chosen => placed step chosen

theorem part_file : Part Turn.file := by
  refine ⟨?_, rfl⟩
  intro posix path old new step
  refine turn_cases (motive := fun turn => turn.file = some step -> step.path = path) ?_ ?_ ?_ ?_ old new
  · exact nofun
  · exact fun turn _ none _ chosen => nomatch none.symm.trans chosen
  · exact fun turn other _ file _ named chosen => Option.some.inj (file.symm.trans chosen) ▸ named
  · exact fun turn none _ _ chosen => nomatch none.symm.trans chosen

theorem part_finish : Part Turn.finish := by
  refine ⟨?_, rfl⟩
  intro posix path old new step
  refine turn_cases (motive := fun turn => turn.finish = some step -> step.path = path) ?_ ?_ ?_ ?_ old new
  · exact nofun
  · exact fun turn _ _ none chosen => nomatch none.symm.trans chosen
  · exact fun turn _ _ _ none _ chosen => nomatch none.symm.trans chosen
  · exact fun turn _ _ finished chosen => finished step chosen

/-- The steps of a part of the turns. -/
def phase (posix : Bool) (before target : Entries) (choose : Turn -> Option RestoreStep) : List RestoreStep :=
  (allPaths before target).filterMap fun path => choose (turnAt posix before target path)

variable {choose : Turn -> Option RestoreStep} {steps : List RestoreStep}

theorem phase_covers (part : Part choose) (chosen : choose (turnAt posix before target path) ≠ none) :
    path ∈ allPaths before target := by
  by_contra missing
  rw [mem_allPaths, not_or, not_not, not_not] at missing
  have old : (widened posix before target).get path = none := by
    cases present : (widened posix before target).get path with
    | none => rfl
    | some entry =>
      rcases widened_some present with ⟨_, found⟩
      rw [missing.1] at found
      cases found
  refine chosen ?_
  rw [turnAt, old, missing.2, turn_same]
  exact part.empty

theorem mem_phase (part : Part choose) (order : steps.Perm (phase posix before target choose))
    (member : step ∈ steps) : choose (turnAt posix before target step.path) = some step :=
  ((Updates.mem_chosen (fun path step chosen => part.keyed _ path _ _ step chosen) order).mp member).2

theorem phase_distinct (part : Part choose) (order : steps.Perm (phase posix before target choose)) :
    (steps.map RestoreStep.path).Nodup :=
  Updates.distinct_chosen (fun path step chosen => part.keyed _ path _ _ step chosen)
    (sortedPaths_nodup _) order

theorem performed_phase (part : Part choose) (order : steps.Perm (phase posix before target choose))
    (tree : Tree) (path : Path) :
    performed tree steps path = stepped (choose (turnAt posix before target path)) (tree path) :=
  Updates.made_chosen (fun path step chosen => part.keyed _ path _ _ step chosen) (sortedPaths_nodup _)
    order (phase_covers part)

/-! ## The steps of each phase are ready -/

/-- Each step is made in a tree that is ready for it. -/
abbrev Performs (posix : Bool) (tree : Tree) (steps : List RestoreStep) : Prop :=
  Updates.Admits RestoreStep.path RestoreStep.after (Ready posix) tree steps

/-- The entry of a path between the removals and the last phase. -/
def placedAt (posix : Bool) (before target : Entries) (path : Path) : Option Entry :=
  placed posix path ((widened posix before target).get path) (target.get path)

/-- A directory above a changed path is open while its contents are changed. -/
theorem placedAt_open (validTarget : target.Valid) {entry : Entry} (wanted : target.get path = some entry)
    (differs : (widened posix before target).get path ≠ target.get path) (above : parent ∈ parents path) :
    Open posix (placedAt posix before target parent) ∧
      ∃ mode, target.get parent = some (.directory mode) := by
  rcases validTarget.closed path entry parent wanted above with ⟨mode, directory⟩
  refine ⟨?_, mode, directory⟩
  rw [placedAt, directory]
  apply placed_open
  intro other present
  rcases widened_cases posix before target parent with
    ⟨same, _⟩ | ⟨old, _, _, here, _⟩
  · exact widened_directory (same ▸ present) (needed_of_changed differs above)
  · exact widened_directory here (needed_of_changed differs above)

theorem performs_prepare (valid : before.Valid) :
    Performs posix before.get (prepare posix before target) := by
  intro done step rest split
  cases posix with
  | false => cases done <;> cases split
  | true =>
    have distinct := prepare_distinct true before target
    have sorted : (prepare true before target).Pairwise (fun first second =>
        depth first.path ≤ depth second.path) := by
      rw [prepare, if_pos rfl]
      exact shallowFirst_sorted _
    have chosen := fun (other : RestoreStep) (inside : other ∈ prepare true before target) =>
      (Updates.mem_chosen (fun _ _ => widening_path) (prepare_perm before target)).mp inside
    have member : step ∈ prepare true before target := by
      rw [split]
      exact List.mem_append_right _ List.mem_cons_self
    rcases chosen step member with ⟨needed, widens⟩
    have needed := List.mem_dedup.mp needed
    unfold widening at widens
    split at widens
    · rename_i old present
      split at widens
      · rename_i closed
        have same := Option.some.inj widens
        refine ⟨?_, ?_, ?_⟩
        · rw [Updates.made_self (split ▸ distinct), present]
          exact congrArg RestoreStep.before same
        · intro parent above
          have last : Updates.made RestoreStep.path RestoreStep.after before.get done parent =
              performed before.get (prepare true before target) parent := by
            rw [performed, split]
            apply Updates.made_lower (fun step : RestoreStep => depth step.path) (split ▸ sorted)
            rintro other _ rfl
            exact Hierarchy.depth_lt above
          rcases valid.closed _ old parent present above with ⟨mode, directory⟩
          rw [last, ← widened_get]
          exact widened_directory directory (changedParents_above needed above)
        · intro _ removed
          rw [← same] at removed
          cases old with
          | directory mode => cases removed
          | file => cases closed.1
      · cases widens
    · cases widens

theorem performs_remove (valid : before.Valid) (validTarget : target.Valid)
    (order : steps.Perm (phase posix before target Turn.remove))
    (sorted : steps.Pairwise fun first second => depth second.path ≤ depth first.path) :
    Performs posix (widened posix before target).get steps := by
  rintro done step rest rfl
  have distinct := phase_distinct part_remove order
  have planned := mem_phase part_remove order (List.mem_append_right _ List.mem_cons_self)
  rw [turnAt, turn_remove] at planned
  split at planned
  · rename_i ways
    have same := Option.some.inj planned
    have differs : (widened posix before target).get step.path ≠ target.get step.path := by
      intro equal
      rw [equal, makesWay_self] at ways
      cases ways
    cases present : (widened posix before target).get step.path with
    | none =>
      rw [present] at ways
      cases ways
    | some old =>
      refine ⟨?_, ?_, ?_⟩
      · rw [Updates.made_self distinct]
        exact congrArg RestoreStep.before same
      · intro parent above
        have first : Updates.made RestoreStep.path RestoreStep.after (widened posix before target).get done
            parent = (widened posix before target).get parent := by
          apply Updates.made_higher (fun step : RestoreStep => OrderDual.toDual (depth step.path)) sorted
          rintro other _ rfl
          exact Hierarchy.depth_lt above
        rcases widened_some present with ⟨earlier, found⟩
        rcases valid.closed _ earlier parent found above with ⟨mode, directory⟩
        rw [first]
        exact widened_directory directory (needed_of_changed differs above)
      · intro directory _ child below
        have absent : target.get child = none := by
          cases wanted : target.get child with
          | none => rfl
          | some entry =>
            rcases validTarget.closed child entry step.path wanted below with ⟨mode, kept⟩
            rw [present, kept] at ways
            rw [← same, present] at directory
            cases old with
            | directory mode => cases ways
            | file => cases directory
        have last : Updates.made RestoreStep.path RestoreStep.after (widened posix before target).get done
            child = performed (widened posix before target).get (done ++ step :: rest) child := by
          apply Updates.made_lower (fun step : RestoreStep => OrderDual.toDual (depth step.path)) sorted
          rintro other _ rfl
          exact Hierarchy.depth_lt below
        rw [last, performed_phase part_remove order, turnAt, stepped_remove, absent, remaining_none]
  · cases planned

/-- The tree after the removals. -/
def removedAt (posix : Bool) (before target : Entries) (path : Path) : Option Entry :=
  remaining ((widened posix before target).get path) (target.get path)

/-- The tree after the files. -/
def writtenAt (posix : Bool) (before target : Entries) (path : Path) : Option Entry :=
  stepped (turnAt posix before target path).file (placedAt posix before target path)

theorem directory_step (planned : (turnAt posix before target path).directory = some step) :
    (widened posix before target).get path ≠ target.get path ∧
      step.before = removedAt posix before target path ∧ step.after.any Entry.isDirectory = true ∧
      ∃ entry, target.get path = some entry := by
  have differs : (widened posix before target).get path ≠ target.get path := by
    intro same
    rw [turnAt, same, turn_same] at planned
    cases planned
  refine ⟨differs, ?_⟩
  rw [turnAt] at planned
  rw [removedAt]
  cases wanted : target.get path with
  | none =>
    rw [wanted, turn_none.1] at planned
    cases planned
  | some entry =>
    rw [wanted] at planned differs
    by_cases directory : entry.isDirectory = true
    · have shape := (turn_directory posix path differs directory).2
      cases posix with
      | false =>
        rw [if_neg Bool.false_ne_true] at shape
        cases shape.1.symm.trans planned
        exact ⟨rfl, directory, entry, rfl⟩
      | true =>
        rw [if_pos rfl] at shape
        have planned := shape.1.symm.trans planned
        split at planned
        · rename_i gone
          cases planned
          refine ⟨gone.symm, ?_, entry, rfl⟩
          cases entry with
          | directory mode => rfl
          | file => cases directory
        · cases planned
    · rw [(turn_file posix path differs (Bool.eq_false_iff.mpr directory)).1] at planned
      cases planned

theorem performs_directories (validTarget : target.Valid)
    (order : steps.Perm (phase posix before target Turn.directory))
    (sorted : steps.Pairwise fun first second => depth first.path ≤ depth second.path) :
    Performs posix (removedAt posix before target) steps := by
  rintro done step rest rfl
  have distinct := phase_distinct part_directory order
  have planned := mem_phase part_directory order (List.mem_append_right _ List.mem_cons_self)
  rcases directory_step planned with ⟨differs, current, directory, entry, wanted⟩
  refine ⟨?_, ?_, ?_⟩
  · rw [Updates.made_self distinct, current]
  · intro parent above
    have last : Updates.made RestoreStep.path RestoreStep.after (removedAt posix before target) done parent =
        performed (removedAt posix before target) (done ++ step :: rest) parent := by
      apply Updates.made_lower (fun step : RestoreStep => depth step.path) sorted
      rintro other _ rfl
      exact Hierarchy.depth_lt above
    rw [last, performed_phase part_directory order]
    exact (placedAt_open validTarget wanted differs above).1
  · intro _ impossible
    rw [directory] at impossible
    cases impossible

theorem file_step (planned : (turnAt posix before target path).file = some step) :
    (widened posix before target).get path ≠ target.get path ∧
      step.before = placedAt posix before target path ∧ step.before.any Entry.isDirectory = false ∧
      ∃ entry, target.get path = some entry ∧ entry.isDirectory = false := by
  have differs : (widened posix before target).get path ≠ target.get path := by
    intro same
    rw [turnAt, same, turn_same] at planned
    cases planned
  refine ⟨differs, ?_⟩
  rw [turnAt] at planned
  rw [placedAt, placed]
  cases wanted : target.get path with
  | none =>
    rw [wanted, turn_none.2.1] at planned
    cases planned
  | some entry =>
    rw [wanted] at planned differs
    by_cases directory : entry.isDirectory = true
    · rw [(turn_directory posix path differs directory).1] at planned
      cases planned
    · have file : entry.isDirectory = false := Bool.eq_false_iff.mpr directory
      rcases turn_file posix path differs file with ⟨placed, written, _⟩
      cases written.symm.trans planned
      refine ⟨?_, ?_, entry, rfl, file⟩
      · rw [placed]
        rfl
      · cases left : remaining ((widened posix before target).get path) (some entry) with
        | none => rfl
        | some other =>
          rcases remaining_some left with ⟨_, same, equal, kind⟩
          cases equal
          exact kind.symm.trans file

/-- A path that is to become a directory has no step in the phase of files. -/
theorem file_of_directory {mode : Nat} (wanted : target.get path = some (.directory mode)) :
    (turnAt posix before target path).file = none := by
  cases planned : (turnAt posix before target path).file with
  | none => rfl
  | some step =>
    rcases file_step planned with ⟨_, _, _, entry, present, file⟩
    rw [wanted] at present
    cases present
    cases file

theorem performs_files (validTarget : target.Valid)
    (order : steps.Perm (phase posix before target Turn.file)) :
    Performs posix (placedAt posix before target) steps := by
  rintro done step rest rfl
  have distinct := phase_distinct part_file order
  have planned := mem_phase part_file order (List.mem_append_right _ List.mem_cons_self)
  rcases file_step planned with ⟨differs, current, file, entry, wanted, _⟩
  refine ⟨?_, ?_, ?_⟩
  · rw [Updates.made_self distinct, current]
  · intro parent above
    rcases placedAt_open validTarget wanted differs above with ⟨opened, mode, directory⟩
    rw [Updates.made_of_notMem]
    · exact opened
    · intro member
      rcases List.mem_map.mp member with ⟨other, inside, rfl⟩
      have also := mem_phase part_file order (List.mem_append_left _ inside)
      rw [file_of_directory directory] at also
      cases also
  · intro impossible
    rw [file] at impossible
    cases impossible

theorem finish_step (planned : (turnAt posix before target path).finish = some step) :
    (widened posix before target).get path ≠ target.get path ∧
      step.before = writtenAt posix before target path ∧ step.after.any Entry.isDirectory = true ∧
      ∃ entry, target.get path = some entry := by
  have differs : (widened posix before target).get path ≠ target.get path := by
    intro same
    rw [turnAt, same, turn_same] at planned
    cases planned
  refine ⟨differs, ?_⟩
  rw [turnAt] at planned
  rw [writtenAt, placedAt, placed, turnAt]
  cases wanted : target.get path with
  | none =>
    rw [wanted, turn_none.2.2] at planned
    cases planned
  | some entry =>
    rw [wanted] at planned differs
    by_cases directory : entry.isDirectory = true
    · rcases turn_directory posix path differs directory with ⟨unfiled, shape⟩
      rw [unfiled]
      cases posix with
      | false =>
        rw [if_neg Bool.false_ne_true] at shape
        cases shape.2.symm.trans planned
      | true =>
        rw [if_pos rfl] at shape
        have planned := shape.2.symm.trans planned
        rw [shape.1]
        split at planned
        · cases planned
          refine ⟨?_, directory, entry, rfl⟩
          cases left : remaining ((widened true before target).get path) (some entry) with
          | none => rfl
          | some other => rfl
        · cases planned
    · rw [(turn_file posix path differs (Bool.eq_false_iff.mpr directory)).2.2] at planned
      cases planned

theorem performs_finish (validTarget : target.Valid)
    (order : steps.Perm (phase posix before target Turn.finish))
    (sorted : steps.Pairwise fun first second => depth second.path ≤ depth first.path) :
    Performs posix (writtenAt posix before target) steps := by
  rintro done step rest rfl
  have distinct := phase_distinct part_finish order
  have planned := mem_phase part_finish order (List.mem_append_right _ List.mem_cons_self)
  rcases finish_step planned with ⟨differs, current, directory, entry, wanted⟩
  refine ⟨?_, ?_, ?_⟩
  · rw [Updates.made_self distinct, current]
  · intro parent above
    rcases placedAt_open validTarget wanted differs above with ⟨opened, mode, kept⟩
    rw [Updates.made_higher (fun step : RestoreStep => OrderDual.toDual (depth step.path)) sorted]
    · rw [writtenAt, file_of_directory kept]
      exact opened
    · rintro other _ rfl
      exact Hierarchy.depth_lt above
  · intro _ impossible
    rw [directory] at impossible
    cases impossible

/-! ## The whole plan -/

theorem phase_perm (choose : Turn -> Option RestoreStep) :
    ((allPaths before target).map (turnAt posix before target)).filterMap choose =
      phase posix before target choose := by
  rw [List.filterMap_map]
  rfl

theorem deepFirst_perm (steps : List RestoreStep) : (deepFirst steps).Perm steps := List.mergeSort_perm _ _

theorem shallowFirst_perm (steps : List RestoreStep) : (shallowFirst steps).Perm steps :=
  List.mergeSort_perm _ _

theorem steps_eq : ProjectRestore.steps posix before target = prepare posix before target ++
    deepFirst (phase posix before target Turn.remove) ++
    shallowFirst (phase posix before target Turn.directory) ++ phase posix before target Turn.file ++
    deepFirst (phase posix before target Turn.finish) := by
  rw [← phase_perm, ← phase_perm, ← phase_perm, ← phase_perm]
  rfl

theorem performed_removals : performed (widened posix before target).get
    (deepFirst (phase posix before target Turn.remove)) = removedAt posix before target := by
  funext path
  rw [performed_phase part_remove (deepFirst_perm _), turnAt, stepped_remove]
  rfl

theorem performed_directories : performed (removedAt posix before target)
    (shallowFirst (phase posix before target Turn.directory)) = placedAt posix before target := by
  funext path
  rw [performed_phase part_directory (shallowFirst_perm _)]
  rfl

theorem performed_files : performed (placedAt posix before target) (phase posix before target Turn.file) =
    writtenAt posix before target := by
  funext path
  rw [performed_phase part_file (.refl _)]
  rfl

theorem performed_finish : performed (writtenAt posix before target)
    (deepFirst (phase posix before target Turn.finish)) = target.get := by
  funext path
  rw [performed_phase part_finish (deepFirst_perm _)]
  exact finished

theorem performed_append (tree : Tree) (first second : List RestoreStep) :
    performed tree (first ++ second) = performed (performed tree first) second :=
  Updates.made_append first second

end Phases

/-- The plan between two valid manifests makes the second tree of the first one,
and every step of it is made in a tree that is ready for it. -/
theorem plan_performs {before target : Entries} (posix : Bool) (valid : before.Valid)
    (validTarget : target.Valid) : performed before.get (steps posix before target) = target.get ∧
      Performs posix before.get (steps posix before target) := by
  have prepared : performed before.get (prepare posix before target) = (widened posix before target).get :=
    widened_get.symm
  rw [steps_eq]
  constructor
  · rw [performed_append, performed_append, performed_append, performed_append, prepared, performed_removals,
      performed_directories, performed_files, performed_finish]
  · refine Updates.Admits.append (.append (.append (.append ?_ ?_) ?_) ?_) ?_
    · exact performs_prepare valid
    · change Performs posix (performed _ _) _
      rw [prepared]
      exact performs_remove valid validTarget (deepFirst_perm _) (deepFirst_sorted _)
    · change Performs posix (performed _ _) _
      rw [performed_append, prepared, performed_removals]
      exact performs_directories validTarget (shallowFirst_perm _) (shallowFirst_sorted _)
    · change Performs posix (performed _ _) _
      rw [performed_append, performed_append, prepared, performed_removals, performed_directories]
      exact performs_files validTarget (.refl _)
    · change Performs posix (performed _ _) _
      rw [performed_append, performed_append, performed_append, prepared, performed_removals,
        performed_directories, performed_files]
      exact performs_finish validTarget (deepFirst_perm _) (deepFirst_sorted _)

end ProjectRestore
end FixLoop
