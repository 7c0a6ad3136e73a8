import FixLoop.WorkspacePatches.Preimages

namespace FixLoop
namespace WorkspacePatches

open Library
open Interleaved (Triple Stable Moves)

/-!
# Directories that a patch makes

What is in the directories that the commit has made: files it has written and
directories it has made, as long as other processes keep out of them.
-/

/-! ## Well-formed states -/

structure Formed (state : State) : Prop where
  world : state.world.WellFormed
  temps : ∀ temp ∈ state.world.temps, temp.2 ∈ state.world.dirs
  made : ∀ dir ∈ state.made, dir ∈ state.world.dirs ∧ dir ≠ []

theorem World.absent {world : World} {path : Path} (free : world.present path = false) :
    path ∉ world.dirs ∧ world.file path = none := by
  rw [World.present, Bool.or_eq_false_iff, decide_eq_false_iff_not] at free
  exact ⟨free.1, Option.not_isSome_iff_eq_none.mp (by rw [free.2]; exact Bool.false_ne_true)⟩

namespace Formed

variable {state : State}

theorem removeDir (formed : Formed state) {dir : Path} (below : dir ≠ [])
    (empty : state.world.filled dir = false) {after : State}
    (world : after.world = { state.world with dirs := state.world.dirs.filter (fun other => other ≠ dir) })
    (made : after.made = state.made.filter fun other => other ≠ dir) : Formed after := by
  refine ⟨?_, ?_, ?_⟩
  · rw [world]
    exact formed.world.removeDir below empty
  · intro temp member
    rw [world] at member ⊢
    refine List.mem_filter.mpr ⟨formed.temps temp member, decide_eq_true ?_⟩
    exact (World.entry_of_empty empty).2.2 temp member
  · intro other member
    rw [made] at member
    rw [world]
    rcases List.mem_filter.mp member with ⟨listed, apart⟩
    exact ⟨List.mem_filter.mpr ⟨(formed.made other listed).1, apart⟩, (formed.made other listed).2⟩

/-- The files change and nothing else. -/
theorem sameDirs (formed : Formed state) {after : State} (world : after.world.WellFormed)
    (dirs : after.world.dirs = state.world.dirs)
    (temps : ∀ temp ∈ after.world.temps, temp ∈ state.world.temps)
    (made : after.made = state.made) : Formed after := by
  refine ⟨world, ?_, ?_⟩
  · intro temp member
    rw [dirs]
    exact formed.temps temp (temps temp member)
  · rw [made, dirs]
    exact formed.made

theorem stable : Stable around Formed := by
  intro event state formed
  have step := acted event state
  change Formed (act event state)
  revert step
  generalize act event state = after
  intro step
  cases step with
  | stay => exact formed
  | write name dir bytes mode inside free =>
    exact formed.sameDirs (formed.world.put _ inside free) rfl (fun _ member => member) rfl
  | remove path _ => exact formed.sameDirs (formed.world.drop path) rfl (fun _ member => member) rfl
  | makeDir name dir inside free =>
    refine ⟨formed.world.addDir inside (World.absent free).2, ?_, ?_⟩
    · exact fun temp member => List.mem_cons_of_mem _ (formed.temps temp member)
    · exact fun other member => (formed.made other member).imp_left (List.mem_cons_of_mem _)
  | removeDir dir below _ empty => exact formed.removeDir below empty rfl rfl

end Formed

theorem placeable_ok {world : World} {path : Path} (free : placeable world path = .ok ()) :
    ∃ name dir, path = name :: dir ∧ dir ∈ world.dirs ∧ name :: dir ∉ world.dirs := by
  cases path with
  | nil => cases free
  | cons name dir =>
    unfold placeable at free
    dsimp only at free
    split at free
    · cases free
    · next file =>
        split at free
        · cases free
        · next inside => exact ⟨name, dir, rfl, Decidable.not_not.mp inside, file⟩

/-- What no change of a file changes. -/
structure SameDirs (target : Target) (state after : State) : Prop where
  targets : after.targets = state.targets
  written : after.written = state.written
  directories : after.directories = state.directories
  undoing : after.undoing = state.undoing
  made : after.made = state.made
  dirs : after.world.dirs = state.world.dirs
  files : ∀ path, path ≠ target.path -> after.world.file path = state.world.file path
  named : after.world.file target.path ≠ none -> target.path ≠ []
  temps : ∀ temp ∈ after.world.temps, temp ∈ state.world.temps
  tidy : after.tidy = true -> state.tidy = true
  formed : after.world.WellFormed

theorem log_dirs (state : State) (path : Path) :
    (state.log path).made = state.made ∧ (state.log path).tidy = state.tidy := by
  rw [State.log]
  split
  · exact ⟨rfl, rfl⟩
  · exact ⟨rfl, rfl⟩

variable {target : Target} {state after : State}

theorem FileMove.sameDirs (formed : Formed state) (moved : FileMove target state after) :
    SameDirs target state after := by
  rcases log_elsewhere state target.path with ⟨targets, touched, written, directories, undoing⟩
  rcases log_dirs state target.path with ⟨made, tidy⟩
  have rooted {world : World} (whole : world.WellFormed) (found : world.file target.path ≠ none) :
      target.path ≠ [] := by
    rcases whole.placed _ found with ⟨_, _, same, _⟩
    rw [same]
    exact List.cons_ne_nil _ _
  have fewer (temp : Nat) (other : Nat × Path)
      (member : other ∈ state.world.temps.filter fun other => other.1 ≠ temp) :
      other ∈ state.world.temps := (List.mem_filter.mp member).1
  have whole := formed.world
  cases moved with
  | stay =>
    exact ⟨rfl, rfl, rfl, rfl, rfl, rfl, fun _ _ => rfl, rooted whole, fun _ member => member, id, whole⟩
  | refusal dir =>
    refine ⟨rfl, rfl, rfl, rfl, rfl, rfl, fun _ _ => rfl, rooted whole, fun _ member => member, ?_, whole⟩
    exact fun clean => (Bool.and_eq_true _ _ ▸ clean).1
  | dropTemp temp =>
    have after := whole.withTemps (WorkspacePatches.dropTemp temp state).world.temps
    exact ⟨rfl, rfl, rfl, rfl, rfl, rfl, fun _ _ => rfl, rooted after, fewer temp, id, after⟩
  | install bytes mode free =>
    rcases placeable_ok free with ⟨name, dir, same, inside, clear⟩
    have after := whole.put ⟨bytes, mode, false⟩ inside clear
    rw [<- same] at after
    exact ⟨targets, written, directories, undoing, made, rfl, fun _ apart => World.file_put_ne _ _ apart,
      rooted after, fun _ member => member, fun clean => tidy ▸ clean, after⟩
  | replace temp bytes mode free =>
    rcases placeable_ok free with ⟨name, dir, same, inside, clear⟩
    have after := whole.put ⟨bytes, mode, false⟩ inside clear
    rw [<- same] at after
    have without := after.withTemps
      (WorkspacePatches.dropTemp temp (state.install target.path bytes mode)).world.temps
    exact ⟨targets, written, directories, undoing, made, rfl, fun _ apart => World.file_put_ne _ _ apart,
      rooted without, fewer temp, fun clean => tidy ▸ clean, without⟩
  | unlink file found =>
    exact ⟨targets, written, directories, undoing, made, rfl, fun _ apart => World.file_drop_ne _ apart,
      rooted (whole.drop _), fun _ member => member, fun clean => tidy ▸ clean, whole.drop _⟩
  | chmod file mode found =>
    have here : state.world.file target.path ≠ none := by
      rw [found]
      exact Option.some_ne_none file
    rcases whole.placed _ here with ⟨name, dir, same, inside⟩
    have clear : name :: dir ∉ state.world.dirs := by
      intro impossible
      rw [<- same] at impossible
      exact here (whole.apart _ impossible)
    have after := whole.put { file with mode := mode } inside clear
    rw [<- same] at after
    exact ⟨rfl, rfl, rfl, rfl, rfl, rfl, fun _ apart => World.file_put_ne _ _ apart, rooted after,
      fun _ member => member, id, after⟩

theorem Formed.file (formed : Formed state) (moved : FileMove target state after) : Formed after := by
  have same := moved.sameDirs formed
  exact formed.sameDirs same.formed same.dirs same.temps same.made

theorem Formed.step (formed : Formed state) (step : Step target state after) : Formed after := by
  cases step with
  | makeTemp inside =>
    refine ⟨formed.world.withTemps _, ?_, formed.made⟩
    intro temp member
    rcases List.mem_cons.mp member with here | earlier
    · rw [here]
      exact inside
    · exact formed.temps temp earlier
  | move moved =>
    cases moved with
    | file moved => exact formed.file moved
    | makeDir name dir _ inside free =>
      refine ⟨formed.world.addDir inside (World.absent free).2, ?_, ?_⟩
      · exact fun temp member => List.mem_cons_of_mem _ (formed.temps temp member)
      · intro other member
        rcases List.mem_cons.mp member with here | earlier
        · rw [here]
          exact ⟨List.mem_cons_self, List.cons_ne_nil name dir⟩
        · exact (formed.made other earlier).imp_left (List.mem_cons_of_mem _)

/-- An event that keeps the state tidy. -/
structure TidyAct (state after : State) : Prop where
  tidy : state.tidy = true
  dirs : ∀ dir, state.aboveTarget dir = true -> dir ∈ state.world.dirs -> dir ∈ after.world.dirs
  files : ∀ dir, state.aboveTarget dir = true -> state.world.file dir ≠ none ->
    after.world.file dir ≠ none
  newFiles : ∀ name dir, dir ∈ state.made -> after.world.file (name :: dir) ≠ none ->
    state.world.file (name :: dir) ≠ none
  newDirs : ∀ name dir, dir ∈ state.made -> name :: dir ∈ after.world.dirs ->
    name :: dir ∈ state.world.dirs
  made : ∀ dir ∈ after.made, dir ∈ state.made
  kept : ∀ dir ∈ state.made, dir ∈ after.world.dirs -> dir ∈ after.made
  temps : after.world.temps = state.world.temps

theorem tidyAct (event : Event) (state : State) (tidy : (act event state).tidy = true) :
    TidyAct state (act event state) := by
  have step := acted event state
  revert step tidy
  generalize act event state = after
  intro tidy step
  cases step with
  | stay =>
    exact ⟨tidy, fun _ _ => id, fun _ _ => id, fun _ _ _ => id, fun _ _ _ => id, fun _ => id,
      fun _ made _ => made, rfl⟩
  | write name dir bytes mode _ _ =>
    rw [State.touch, Bool.and_eq_true, Bool.not_eq_true', decide_eq_false_iff_not] at tidy
    refine ⟨tidy.1, fun _ _ => id, ?_, ?_, fun _ _ _ => id, fun _ => id, fun _ made _ => made, rfl⟩
    · intro other _ found
      by_cases here : other = name :: dir
      · rw [here]
        change (World.put _ _ state.world).file _ ≠ none
        rw [World.file_put_self]
        exact Option.some_ne_none _
      · change (World.put _ _ state.world).file _ ≠ none
        rw [World.file_put_ne _ _ here]
        exact found
    · intro other parent made found
      have apart : other :: parent ≠ name :: dir := by
        intro same
        rw [(List.cons.inj same).2] at made
        exact tidy.2 made
      change (World.put _ _ state.world).file _ ≠ none at found
      rw [World.file_put_ne _ _ apart] at found
      exact found
  | remove path _ =>
    rw [State.touch, Bool.and_eq_true, Bool.not_eq_true'] at tidy
    refine ⟨tidy.1, fun _ _ => id, ?_, ?_, fun _ _ _ => id, fun _ => id, fun _ made _ => made, rfl⟩
    · intro other above found
      have apart : other ≠ path := by
        intro same
        rw [same, tidy.2] at above
        cases above
      change (World.drop _ state.world).file _ ≠ none
      rw [World.file_drop_ne _ apart]
      exact found
    · intro other parent _ found
      by_cases here : other :: parent = path
      · rw [here] at found
        exact absurd (World.file_drop_self state.world path) found
      · change (World.drop _ state.world).file _ ≠ none at found
        rw [World.file_drop_ne _ here] at found
        exact found
  | makeDir name dir _ _ =>
    rw [Bool.and_eq_true, Bool.not_eq_true', decide_eq_false_iff_not] at tidy
    refine ⟨tidy.1, fun _ _ => List.mem_cons_of_mem _, fun _ _ => id, fun _ _ _ => id, ?_, fun _ => id,
      fun _ made _ => made, rfl⟩
    intro other parent made member
    rcases List.mem_cons.mp member with same | earlier
    · rw [(List.cons.inj same).2] at made
      exact absurd made tidy.2
    · exact earlier
  | removeDir dir _ _ _ =>
    rw [Bool.and_eq_true, Bool.not_eq_true'] at tidy
    refine ⟨tidy.1, ?_, fun _ _ => id, fun _ _ _ => id, fun _ _ _ member => (List.mem_filter.mp member).1,
      fun _ member => (List.mem_filter.mp member).1, ?_, rfl⟩
    · intro other above present
      refine List.mem_filter.mpr ⟨present, decide_eq_true ?_⟩
      intro same
      rw [same, tidy.2] at above
      cases above
    · exact fun other made member => List.mem_filter.mpr ⟨made, (List.mem_filter.mp member).2⟩

theorem aboveTarget_of (known : target ∈ state.targets) {dir : Path} (within : dir <:+ target.path.tail) :
    state.aboveTarget dir = true :=
  List.any_eq_true.mpr ⟨target, known, List.isSuffixOf_iff_suffix.mpr within⟩

structure Neat (state : State) : Prop where
  files : ∀ name dir, dir ∈ state.made -> state.world.file (name :: dir) ≠ none ->
    ∃ target ∈ state.written, target.path = name :: dir ∧ target.before = none
  dirs : ∀ name dir, dir ∈ state.made -> name :: dir ∈ state.world.dirs -> name :: dir ∈ state.made
  listed : ∀ dir ∈ state.made, dir ∈ state.directories
  way : ∀ dir ∈ state.directories, state.aboveTarget dir = true
  kept : ∀ target ∈ state.targets, target.before ≠ none ->
    target.path.tail ∈ state.world.dirs ∧ target.path.tail ∉ state.made

theorem aboveTarget_congr (targets : after.targets = state.targets) (dir : Path) :
    after.aboveTarget dir = state.aboveTarget dir := by
  rw [State.aboveTarget, State.aboveTarget, targets]

namespace Neat

variable {state after : State}

theorem act (neat : Neat state) (own : Own state after) (tidy : TidyAct state after) : Neat after := by
  refine ⟨?_, ?_, ?_, ?_, ?_⟩
  · intro name dir made found
    rw [own.written]
    exact neat.files name dir (tidy.made dir made) (tidy.newFiles name dir (tidy.made dir made) found)
  · intro name dir made present
    have before := tidy.made dir made
    exact tidy.kept _ (neat.dirs name dir before (tidy.newDirs name dir before present)) present
  · intro dir made
    rw [own.directories]
    exact neat.listed dir (tidy.made dir made)
  · intro dir listed
    rw [aboveTarget_congr own.targets]
    exact neat.way dir (own.directories ▸ listed)
  · intro target known image
    rw [own.targets] at known
    rcases neat.kept target known image with ⟨present, other⟩
    exact ⟨tidy.dirs _ (aboveTarget_of known (List.suffix_refl _)) present,
      fun made => other (tidy.made _ made)⟩

/-- A file of a directory that the commit made is a target without preimage. -/
theorem file (neat : Neat state) {target : Target} (known : target ∈ state.targets)
    (taken : target ∈ state.written) (same : SameDirs target state after) : Neat after := by
  refine ⟨?_, ?_, ?_, ?_, ?_⟩
  · intro name dir made found
    rw [same.made] at made
    rw [same.written]
    by_cases here : name :: dir = target.path
    · refine ⟨target, taken, here.symm, ?_⟩
      by_contra image
      have kept := (neat.kept target known image).2
      rw [<- here] at kept
      exact kept made
    · rw [same.files _ here] at found
      exact neat.files name dir made found
  · intro name dir made present
    rw [same.made] at made ⊢
    exact neat.dirs name dir made (same.dirs ▸ present)
  · intro dir made
    rw [same.directories]
    exact neat.listed dir (same.made ▸ made)
  · intro dir listed
    rw [aboveTarget_congr same.targets]
    exact neat.way dir (same.directories ▸ listed)
  · intro other member image
    rw [same.dirs, same.made]
    exact neat.kept other (same.targets ▸ member) image

/-- A new directory that the commit has listed. -/
theorem makeDir (neat : Neat state) (formed : Formed state) {name : String} {dir : Path}
    (free : state.world.present (name :: dir) = false) (listed : name :: dir ∈ state.directories) :
    Neat { state with
      world := { state.world with dirs := (name :: dir) :: state.world.dirs }
      made := (name :: dir) :: state.made } := by
  rcases World.absent free with ⟨noDir, noFile⟩
  refine ⟨?_, ?_, ?_, neat.way, ?_⟩
  · intro other parent made found
    rcases List.mem_cons.mp made with same | earlier
    · rcases formed.world.placed _ found with ⟨_, _, split, inside⟩
      rw [<- (List.cons.inj split).2, same] at inside
      exact absurd inside noDir
    · exact neat.files other parent earlier found
  · intro other parent made present
    rcases List.mem_cons.mp present with same | before
    · rw [same]
      exact List.mem_cons_self
    · rcases List.mem_cons.mp made with same | earlier
      · rw [same] at before
        exact absurd (formed.world.closed other _ before) noDir
      · exact List.mem_cons_of_mem _ (neat.dirs other parent earlier before)
  · intro other made
    rcases List.mem_cons.mp made with same | earlier
    · rw [same]
      exact listed
    · exact neat.listed other earlier
  · intro target known image
    rcases neat.kept target known image with ⟨present, other⟩
    refine ⟨List.mem_cons_of_mem _ present, ?_⟩
    intro made
    rcases List.mem_cons.mp made with same | earlier
    · exact noDir (same ▸ present)
    · exact other earlier

end Neat

end WorkspacePatches
end FixLoop
