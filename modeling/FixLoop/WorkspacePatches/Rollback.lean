import FixLoop.WorkspacePatches.Loop

namespace FixLoop
namespace WorkspacePatches

open Library
open Interleaved (Triple Stable Moves)

/-!
# The rollback and the directories

Writing back makes no directory.  Afterwards nothing is left in the
directories that the commit made but other such directories, and those are
removed the innermost first.
-/

section

variable {targets written : List Target} {directories : List Path} {target : Target}

variable {state : State}

theorem Ordered.file {after : State} (ordered : Ordered state) (same : SameDirs target state after) :
    Ordered after := by
  intro before name dir rest split
  rw [same.directories] at split
  rw [same.made]
  exact ordered before name dir rest split

/-! ## Writing back -/

theorem Resting.file {after : State} (resting : Resting state) (known : target ∈ state.targets)
    (taken : target ∈ state.written) (moved : FileMove target state after) : Resting after := by
  have same := moved.sameDirs resting.formed
  exact ⟨resting.formed.file moved, resting.swept.file same,
    fun tidy => (resting.neat (same.tidy tidy)).file known taken same,
    fun tidy => (resting.ordered (same.tidy tidy)).file same⟩

/-- While the rollback writes a target back. -/
structure Returning (target : Target) (state : State) : Prop where
  resting : Resting state
  known : target ∈ state.targets
  taken : target ∈ state.written

theorem Returning.stable : Stable around (Returning target) := by
  intro event state returning
  have own := act_own event state
  exact ⟨Resting.stable event state returning.resting, own.targets ▸ returning.known,
    own.written ▸ returning.taken⟩

theorem Returning.file {after : State} (returning : Returning target state)
    (moved : FileMove target state after) : Returning target after := by
  have elsewhere := Step.elsewhere (.move (.file moved))
  exact ⟨returning.resting.file returning.known returning.taken moved, elsewhere.targets ▸ returning.known,
    elsewhere.written ▸ returning.taken⟩

theorem triple_returning {Value : Type} {program : Run Value} (moves : Moves around (FileMove target) program) :
    Triple (Returning target) program (fun _ => Returning target) (fun _ => Returning target) :=
  moves _ Returning.stable fun _ _ => Returning.file

/-- The directory of a target with a preimage is there. -/
theorem Returning.writing (returning : Returning target state) (undoing : state.undoing = true)
    (image : target.before ≠ none) : Writing target none False state := by
  have resting := returning.resting
  have whole := resting.formed.world
  refine ⟨⟨resting.formed, returning.known, returning.taken, resting.neat, fun tidy => ?_⟩,
    resting.swept, fun impossible => impossible.elim⟩
  have there := ((resting.neat tidy).kept target returning.known image).1
  refine ⟨?_, fun dir within => Or.inl (whole.above within there), ?_⟩
  · intro before name dir rest split
    exact (resting.ordered tidy before name dir rest split).imp id
      (fun other => ⟨fun within => Or.inl (whole.above within there), other⟩)
  · intro applying
    rw [undoing] at applying
    cases applying

theorem Writing.returning {rooted : Prop} (writing : Writing target none rooted state) :
    Returning target state :=
  ⟨writing.resting, writing.body.known, writing.body.taken⟩

theorem triple_restore_dirs :
    Triple (fun state => Returning target state ∧ state.undoing = true) (restore target)
      (fun _ => Returning target) (fun _ => Returning target) := by
  unfold restore
  cases image : target.before with
  | none =>
    exact (triple_returning (moves_unlink true)).mono (fun _ both => both.1) (fun _ _ holds => holds)
      (fun _ _ holds => holds)
  | some given =>
    rcases given with ⟨bytes, mode⟩
    have some : target.before ≠ none := by
      rw [image]
      exact Option.some_ne_none _
    have written := (triple_atomicWrite_dirs bytes false).mono
      (fun state (both : Returning target state ∧ state.undoing = true) => both.1.writing both.2 some)
      (fun _ _ writing => writing.returning) fun _ _ writing => writing.returning
    exact written.bind fun _ => triple_returning (moves_chmod mode)

/-- What the commit has taken up. -/
structure Lists (written : List Target) (directories : List Path) (state : State) : Prop where
  written : state.written = written
  directories : state.directories = directories

theorem triple_lists {Value : Type} {program : Run Value} (steps : Moves around (Step target) program) :
    Triple (Lists written directories) program (fun _ => Lists written directories)
      (fun _ => Lists written directories) := by
  refine steps _ (fun event state same => ?_) fun state after same step => ?_
  · have own := act_own event state
    exact ⟨own.written.trans same.written, own.directories.trans same.directories⟩
  · have elsewhere := step.elsewhere
    exact ⟨elsewhere.written.trans same.written, elsewhere.directories.trans same.directories⟩

/-- What the rollback knows of the directories between two targets. -/
structure Undoing (targets written : List Target) (directories : List Path) (state : State) : Prop where
  resting : Resting state
  phase : Phase targets true state
  lists : Lists written directories state

theorem triple_restoreAll_dirs (known : ∀ target ∈ written, target ∈ targets)
    (list : List Target) (within : ∀ target ∈ list, target ∈ written) :
    Triple (Undoing targets written directories) (restoreAll list)
      (fun _ => Undoing targets written directories) (fun _ _ => False) := by
  induction list with
  | nil => exact Triple.pure false (fun _ => Undoing targets written directories) _
  | cons target rest ih =>
    have taken := within target List.mem_cons_self
    have fixed : Triple (fun state => Phase targets true state ∧ Lists written directories state)
        (restore target) (fun _ state => Phase targets true state ∧ Lists written directories state)
        (fun _ state => Phase targets true state ∧ Lists written directories state) :=
      (triple_phase steps_restore).both (triple_lists steps_restore)
    have one : Triple (Undoing targets written directories) (restore target)
        (fun _ => Undoing targets written directories)
        (fun _ => Undoing targets written directories) := by
      refine (triple_restore_dirs.both fixed).mono ?_ ?_ ?_
      · intro state undoing
        have member : target ∈ state.targets := undoing.phase.targets ▸ known target taken
        have listed : target ∈ state.written := undoing.lists.written ▸ taken
        exact ⟨⟨⟨undoing.resting, member, listed⟩, undoing.phase.undoing⟩, undoing.phase, undoing.lists⟩
      · exact fun _ state all => ⟨all.1.resting, all.2.1, all.2.2⟩
      · exact fun _ state all => ⟨all.1.resting, all.2.1, all.2.2⟩
    have head : Triple (Undoing targets written directories) (failing (restore target))
        (fun _ => Undoing targets written directories) (fun _ _ => False) := by
      refine (triple_failing one).mono (fun _ holds => holds) ?_ fun _ _ impossible => impossible
      intro failed state holds
      cases failed with
      | true => exact holds
      | false => exact holds
    refine head.bind fun failed => ?_
    exact (ih fun other member => within other (List.mem_cons_of_mem _ member)).map
      (fun _ _ undoing => undoing)

/-! ## Removing the directories -/

/-- In the directories that the commit made are only such directories, and
they are still to be removed. -/
structure Emptied (rest : List Path) (state : State) : Prop where
  remaining : ∀ dir ∈ state.made, dir ∈ rest
  files : ∀ name dir, dir ∈ state.made -> state.world.file (name :: dir) = none
  dirs : ∀ name dir, dir ∈ state.made -> name :: dir ∈ state.world.dirs -> name :: dir ∈ state.made
  temps : ∀ temp ∈ state.world.temps, temp.2 ∉ state.made
  order : Ordered state

structure Cleaning (rest : List Path) (state : State) : Prop where
  formed : Formed state
  split : ∃ earlier, state.directories.reverse = earlier ++ rest
  emptied : state.tidy = true -> state.quiet = true -> Emptied rest state

theorem Cleaning.stable (rest : List Path) : Stable around (Cleaning rest) := by
  intro event state cleaning
  have own := act_own event state
  refine ⟨Formed.stable event state cleaning.formed, ?_, fun tidy quiet => ?_⟩
  · change ∃ earlier, (act event state).directories.reverse = earlier ++ rest
    rw [own.directories]
    exact cleaning.split
  · have step := tidyAct event state tidy
    have emptied := cleaning.emptied step.tidy (own.quiet quiet)
    refine ⟨?_, ?_, ?_, ?_, emptied.order.act own step⟩
    · exact fun dir made => emptied.remaining dir (step.made dir made)
    · intro name dir made
      by_contra found
      have before := step.made dir made
      exact step.newFiles name dir before found (emptied.files name dir before)
    · intro name dir made present
      have before := step.made dir made
      exact step.kept _ (emptied.dirs name dir before (step.newDirs name dir before present)) present
    · intro temp member made
      exact emptied.temps temp (step.temps ▸ member) (step.made _ made)

/-- Where a listed directory is empty, nothing keeps it. -/
theorem Emptied.entry {dir : Path} {rest : List Path} (emptied : Emptied (dir :: rest) state)
    (split : ∃ earlier, state.directories.reverse = earlier ++ dir :: rest)
    (made : dir ∈ state.made) (filled : state.world.filled dir = true) : dir ∈ rest := by
  unfold World.filled at filled
  rw [Bool.or_eq_true, Bool.or_eq_true, List.any_eq_true, List.any_eq_true, List.any_eq_true] at filled
  rcases filled with (⟨path, key, inside⟩ | ⟨path, present, inside⟩) | ⟨temp, member, inside⟩
  · cases path with
    | nil => cases inside
    | cons name parent =>
      have same : parent = dir := of_decide_eq_true inside
      have none := emptied.files name dir made
      rw [<- same, World.file, AList.lookup_eq_none] at none
      exact absurd key none
  · cases path with
    | nil => cases inside
    | cons name parent =>
      have same : parent = dir := of_decide_eq_true inside
      rw [same] at present
      have later : name :: dir ∈ rest := by
        rcases List.mem_cons.mp (emptied.remaining _ (emptied.dirs name dir made present)) with here | later
        · exact absurd (congrArg List.length here) (by simp)
        · exact later
      rcases split with ⟨earlier, split⟩
      rcases List.append_of_mem later with ⟨before, after, inRest⟩
      have listed : state.directories =
          after.reverse ++ (name :: dir) :: (before.reverse ++ dir :: earlier.reverse) := by
        rw [<- List.reverse_reverse state.directories, split, inRest]
        simp only [List.reverse_append, List.reverse_cons, List.append_assoc, List.cons_append,
          List.nil_append]
      rcases emptied.order _ name dir _ listed with further | other
      · rw [inRest]
        exact List.mem_append_right _ (List.mem_cons_of_mem _ (List.mem_reverse.mp further))
      · exact absurd made other
  · exact absurd ((of_decide_eq_true inside).symm ▸ made) (emptied.temps temp member)

theorem Emptied.next {dir : Path} {rest : List Path} (emptied : Emptied (dir :: rest) state)
    (gone : dir ∈ state.made -> dir ∈ rest) : Emptied rest state := by
  refine ⟨?_, emptied.files, emptied.dirs, emptied.temps, emptied.order⟩
  intro other made
  rcases List.mem_cons.mp (emptied.remaining other made) with same | later
  · exact same ▸ gone (same ▸ made)
  · exact later

theorem triple_cleanDir (dir : Path) (rest : List Path) :
    Triple (Cleaning (dir :: rest)) (cleanDir dir) (fun _ => Cleaning rest) (fun _ _ => False) := by
  have next {state : State} (cleaning : Cleaning (dir :: rest) state) :
      ∃ earlier, state.directories.reverse = earlier ++ rest := by
    rcases cleaning.split with ⟨earlier, split⟩
    exact ⟨earlier ++ [dir], by rw [split, List.append_assoc, List.singleton_append]⟩
  have removed : Triple (Cleaning (dir :: rest)) (removeDir dir) (fun _ => Cleaning rest)
      (fun _ => Cleaning rest) := by
    refine triple_effect (Cleaning.stable _) ?_ ?_ ?_
    · intro state after cleaning result
      split at result
      · cases result
      · split at result
        · cases result
        · next usable =>
            cases result
            rcases not_or.mp usable with ⟨below, notFilled⟩
            have empty : state.world.filled dir = false := eq_false_of_ne_true notFilled
            have split := next cleaning
            refine ⟨cleaning.formed.removeDir below empty rfl rfl, split, fun tidy quiet => ?_⟩
            have emptied := cleaning.emptied tidy quiet
            refine ⟨?_, ?_, ?_, ?_, ?_⟩
            · intro other made
              rcases List.mem_filter.mp made with ⟨made, apart⟩
              rcases List.mem_cons.mp (emptied.remaining other made) with same | later
              · exact absurd same (of_decide_eq_true apart)
              · exact later
            · exact fun name other made => emptied.files name other (List.mem_filter.mp made).1
            · intro name other made present
              rcases List.mem_filter.mp present with ⟨present, apart⟩
              exact List.mem_filter.mpr ⟨emptied.dirs name other (List.mem_filter.mp made).1 present, apart⟩
            · exact fun temp member made => emptied.temps temp member (List.mem_filter.mp made).1
            · intro before name other after split
              exact (emptied.order before name other after split).imp id
                (fun apart made => apart (List.mem_filter.mp made).1)
    · intro state fault cleaning result
      refine ⟨cleaning.formed, next cleaning, fun tidy quiet => ?_⟩
      have emptied := cleaning.emptied tidy quiet
      refine emptied.next fun made => ?_
      rcases cleaning.formed.made dir made with ⟨present, below⟩
      rw [if_neg (not_not_intro present)] at result
      split at result
      · next kept => exact emptied.entry cleaning.split made (kept.resolve_left below)
      · cases result
    · intro state cleaning
      have split := next cleaning
      refine ⟨⟨cleaning.formed.world, cleaning.formed.temps, cleaning.formed.made⟩, split,
        fun tidy quiet => ?_⟩
      rw [Bool.and_eq_true, Bool.not_eq_true', decide_eq_false_iff_not] at tidy
      have emptied := (cleaning.emptied tidy.1 quiet).next fun made => absurd made tidy.2
      exact ⟨emptied.remaining, emptied.files, emptied.dirs, emptied.temps, emptied.order⟩
  exact removed.handling fun _ => Triple.pure () (fun _ => Cleaning rest) _

theorem Undoing.cleaning (undoing : Undoing targets written directories state)
    (working : Working written written written state) : Cleaning directories.reverse state := by
  have resting := undoing.resting
  refine ⟨resting.formed, ⟨[], by rw [undoing.lists.directories]; rfl⟩, fun tidy quiet => ?_⟩
  have neat := resting.neat tidy
  refine ⟨?_, ?_, neat.dirs, ?_, resting.ordered tidy⟩
  · intro dir made
    exact List.mem_reverse.mpr (undoing.lists.directories ▸ neat.listed dir made)
  · intro name dir made
    -- A file left there would be a target whose preimage is no file.
    by_contra found
    rcases neat.files name dir made found with ⟨target, taken, path, absent⟩
    have back := working.back target (undoing.lists.written ▸ taken)
      (working.kept.quiet quiet target taken)
    rw [preimage, path, absent, Option.map_eq_none_iff] at back
    exact found back
  · intro temp member made
    cases resting.swept tidy temp member made

end

end WorkspacePatches
end FixLoop
