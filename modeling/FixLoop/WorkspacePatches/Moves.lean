import FixLoop.WorkspacePatches.Transaction

namespace FixLoop
namespace WorkspacePatches

open Library
open Interleaved (Moves)

/-!
# What the calls for one target can do

Every call that `atomic_write_bytes`, `unlink` and `chmod` make for a target
is one of a few moves.  The invariants are shown for the moves.
-/

/-- A call that changes the target's file or a temporary file. -/
inductive FileMove (target : Target) : State -> State -> Prop where
  | stay (state : State) : FileMove target state state
  | refusal (state : State) (dir : Path) :
      FileMove target state { state with tidy := state.tidy && !decide (dir ∈ state.made) }
  | dropTemp (state : State) (temp : Nat) : FileMove target state (dropTemp temp state)
  | install (state : State) (bytes : Bytes) (mode : Nat) :
      placeable state.world target.path = .ok () ->
      FileMove target state (state.install target.path bytes mode)
  | replace (state : State) (temp : Nat) (bytes : Bytes) (mode : Nat) :
      placeable state.world target.path = .ok () ->
      FileMove target state (WorkspacePatches.dropTemp temp (state.install target.path bytes mode))
  | unlink (state : State) (file : File) : state.world.file target.path = some file ->
      FileMove target state { state.log target.path with world := state.world.drop target.path }
  | chmod (state : State) (file : File) (mode : Nat) : state.world.file target.path = some file ->
      FileMove target state
        { state with world := state.world.put target.path { file with mode := mode } }

inductive Move (target : Target) : State -> State -> Prop where
  | file {state after : State} : FileMove target state after -> Move target state after
  | makeDir (state : State) (name : String) (dir : Path) :
      name :: dir <:+ target.path.tail -> dir ∈ state.world.dirs ->
      state.world.present (name :: dir) = false ->
      Move target state { state with
        world := { state.world with dirs := (name :: dir) :: state.world.dirs }
        made := (name :: dir) :: state.made }

/-- What an event of another process can do. -/
inductive Acted (state : State) : State -> Prop where
  | stay : Acted state state
  | write (name : String) (dir : Path) (bytes : Bytes) (mode : Nat) :
      dir ∈ state.world.dirs -> name :: dir ∉ state.world.dirs ->
      Acted state (state.touch (name :: dir) (state.world.put (name :: dir) ⟨bytes, mode, true⟩)
        (!decide (dir ∈ state.made)))
  | remove (path : Path) : state.world.file path ≠ none ->
      Acted state (state.touch path (state.world.drop path) (!state.aboveTarget path))
  | makeDir (name : String) (dir : Path) : dir ∈ state.world.dirs ->
      state.world.present (name :: dir) = false ->
      Acted state { state with
        world := { state.world with dirs := (name :: dir) :: state.world.dirs }
        tidy := state.tidy && !decide (dir ∈ state.made) }
  | removeDir (dir : Path) : dir ≠ [] -> dir ∈ state.world.dirs -> state.world.filled dir = false ->
      Acted state { state with
        world := { state.world with dirs := state.world.dirs.filter (fun other => other ≠ dir) }
        made := state.made.filter (fun other => other ≠ dir)
        tidy := state.tidy && !state.aboveTarget dir }

theorem acted (event : Event) (state : State) : Acted state (act event state) := by
  cases event with
  | write path bytes mode =>
    cases path with
    | nil => exact .stay
    | cons name dir =>
      unfold act
      dsimp only
      split
      · next possible => exact .write name dir bytes mode possible.1 possible.2
      · exact .stay
  | remove path =>
    unfold act
    dsimp only
    split
    · exact .stay
    · next found => exact .remove path found
  | makeDir path =>
    cases path with
    | nil => exact .stay
    | cons name dir =>
      unfold act
      dsimp only
      split
      · next possible => exact .makeDir name dir possible.1 possible.2
      · exact .stay
  | removeDir dir =>
    unfold act
    dsimp only
    split
    · next possible => exact .removeDir dir possible.1 possible.2.1 possible.2.2
    · exact .stay

section

variable {target : Target}

variable {Value : Type} (path : Path) (bytes : Bytes) {program : Run Value}

variable (read : World -> Value) {apply : State -> Except Fault State} {refused : State -> State}
  (createOnly : Bool)

theorem moves_look : Moves around (FileMove target) (look read) :=
  Moves.call (fun state _ _ result => by cases result; exact .stay state) fun state => .stay state

theorem moves_effect (works : ∀ state after, apply state = .ok after -> FileMove target state after)
    (refuses : ∀ state, FileMove target state (refused state)) :
    Moves around (FileMove target) (effect apply refused) := by
  refine Moves.call ?_ refuses
  intro state value after result
  rcases applied : apply state with fault | reached
  · rw [applied] at result
    cases result
  · rw [applied] at result
    cases result
    exact works state _ applied

theorem triple_effect {pre : State -> Prop} {post : Unit -> State -> Prop} {failed : Fault -> State -> Prop}
    (stable : Interleaved.Stable around pre)
    (works : ∀ state after, pre state -> apply state = .ok after -> post () after)
    (fails : ∀ state fault, pre state -> apply state = .error fault -> failed fault state)
    (refuses : ∀ state, pre state -> failed .os (refused state)) :
    Interleaved.Triple pre (effect apply refused) post failed := by
  refine Interleaved.Triple.call stable ?_ ?_ refuses
  · intro state value after initially result
    rcases applied : apply state with fault | reached
    · rw [applied] at result
      cases result
    · rw [applied] at result
      cases result
      exact works state _ initially applied
  · intro state fault initially result
    rcases applied : apply state with other | reached
    · rw [applied] at result
      cases result
      exact fails state fault initially applied
    · rw [applied] at result
      cases result

theorem moves_idle : Moves around (FileMove target) idle :=
  moves_effect (fun state _ result => by cases result; exact .stay state) fun state => .stay state

theorem moves_unlessDir (fault : Fault) : Moves around (FileMove target) (unlessDir path fault) := by
  unfold unlessDir
  split
  · exact Moves.raise fault
  · refine (moves_look _).bind fun there => ?_
    cases there with
    | true => exact Moves.pure ()
    | false => exact Moves.raise fault

theorem moves_statMode : Moves around (FileMove target) (statMode path) := by
  refine Moves.call ?_ fun state => .stay state
  intro state value after result
  split at result
  · cases result
    exact .stay state
  · split at result
    · cases result
      exact .stay state
    · cases result

theorem moves_modeOf : Moves around (FileMove target) (modeOf path) := by
  refine (moves_look _).bind fun there => ?_
  cases there with
  | true => exact (moves_statMode path).bind fun _ => Moves.pure _
  | false => exact Moves.pure none

theorem moves_unlinkTemp (temp : Nat) (dir : Path) :
    Moves around (FileMove target) (unlinkTemp temp dir) :=
  moves_effect (fun state _ result => by cases result; exact .dropTemp state temp)
    (fun state => .refusal state dir)

theorem moves_linkTemp (mode : Nat) : Moves around (FileMove target) (linkTemp target.path bytes mode) := by
  refine moves_effect ?_ fun state => .stay state
  intro state after result
  rcases free : placeable state.world target.path with fault | ⟨⟩
  · rw [free] at result
    cases result
  · rw [free] at result
    change (if (state.world.file target.path).isSome then _ else _) = _ at result
    split at result
    · cases result
    · cases result
      exact .install state bytes mode free

theorem moves_replaceTemp (temp : Nat) (bytes : Bytes) (mode : Nat) :
    Moves around (FileMove target) (replaceTemp temp target.path bytes mode) := by
  refine moves_effect ?_ fun state => .stay state
  intro state after result
  rcases free : placeable state.world target.path with fault | ⟨⟩
  · rw [free] at result
    cases result
  · rw [free] at result
    cases result
    exact .replace state temp bytes mode free

theorem moves_publish (mode : Option Nat) (temp : Nat) :
    Moves around (FileMove target) (publish target.path bytes createOnly mode temp) := by
  refine moves_idle.bind fun _ => ?_
  have last : Moves around (FileMove target)
      (if createOnly then linkTemp target.path bytes (mode.getD tempMode)
        else replaceTemp temp target.path bytes (mode.getD tempMode)) := by
    split
    · exact moves_linkTemp bytes _
    · exact moves_replaceTemp temp bytes _
  cases mode with
  | none => exact last
  | some given => exact moves_idle.bind fun _ => last

theorem moves_unlink (missingOk : Bool) :
    Moves around (FileMove target) (unlink target.path missingOk) := by
  refine moves_effect ?_ fun state => .stay state
  intro state after result
  split at result
  · cases result
  · split at result
    · next found =>
        cases result
        rcases Option.isSome_iff_exists.mp found with ⟨file, here⟩
        exact .unlink state file here
    · split at result
      · cases result
        exact .stay state
      · cases result

theorem moves_chmod (mode : Nat) : Moves around (FileMove target) (chmod target.path mode) := by
  refine moves_effect ?_ fun state => .stay state
  intro state after result
  split at result
  · next file found =>
      cases result
      exact .chmod state file mode found
  · split at result
    · cases result
      exact .stay state
    · cases result

/-! ## Whole writes -/

theorem fileMoves (moves : Moves around (FileMove target) program) : Moves around (Move target) program :=
  moves.mono fun _ _ => .file

theorem moves_makeDir {path : Path} (within : path <:+ target.path.tail) :
    Moves around (Move target) (makeDir path) := by
  refine Moves.call ?_ fun state => .file (.stay state)
  intro state value after result
  cases path with
  | nil => cases result
  | cons name dir =>
    dsimp only at result
    by_cases taken : state.world.present (name :: dir) = true
    · rw [if_pos taken] at result
      cases result
    · rw [if_neg taken] at result
      by_cases inside : dir ∈ state.world.dirs
      · rw [if_pos inside] at result
        cases result
        exact .makeDir state name dir within inside (eq_false_of_ne_true taken)
      · rw [if_neg inside] at result
        split at result
        · cases result
        · cases result

theorem moves_makeDirs {path : Path} (within : path <:+ target.path.tail) :
    Moves around (Move target) (makeDirs path) := by
  induction path with
  | nil => exact (moves_makeDir within).handling fun fault => fileMoves (moves_unlessDir [] fault)
  | cons name dir ih =>
    refine (moves_makeDir within).handling fun fault => ?_
    split
    · refine (ih ((List.suffix_cons name dir).trans within)).bind fun _ => ?_
      exact (moves_makeDir within).handling fun fault => fileMoves (moves_unlessDir _ fault)
    · exact fileMoves (moves_unlessDir _ fault)

/-- A move, or a new temporary file. -/
inductive Step (target : Target) : State -> State -> Prop where
  | move {state after : State} : Move target state after -> Step target state after
  | makeTemp (state : State) : target.path.tail ∈ state.world.dirs ->
      Step target state { state with
        world := { state.world with temps := (state.drawn, target.path.tail) :: state.world.temps }
        drawn := state.drawn + 1 }

theorem steps_of_moves (moves : Moves around (Move target) program) : Moves around (Step target) program :=
  moves.mono fun _ _ => .move

theorem steps_of_fileMoves (moves : Moves around (FileMove target) program) :
    Moves around (Step target) program :=
  steps_of_moves (fileMoves moves)

theorem steps_makeTemp : Moves around (Step target) (makeTemp target.path.tail) := by
  refine Moves.call ?_ fun state => .move (.file (.stay state))
  intro state value after result
  split at result
  · next inside =>
      cases result
      exact .makeTemp state inside
  · cases result

theorem steps_atomicWrite : Moves around (Step target) (atomicWrite target.path bytes createOnly) := by
  refine (steps_of_moves (moves_makeDirs (List.suffix_refl _))).bind fun _ => ?_
  refine (steps_of_fileMoves (moves_modeOf _)).bind fun mode => ?_
  refine steps_makeTemp.bind fun temp => ?_
  exact (steps_of_fileMoves (moves_publish bytes createOnly mode temp)).ensuring
    (steps_of_fileMoves (moves_unlinkTemp temp _))

theorem steps_restore : Moves around (Step target) (restore target) := by
  unfold restore
  split
  · exact steps_of_fileMoves (moves_unlink true)
  · next bytes mode _ =>
      exact (steps_atomicWrite bytes false).bind fun _ => steps_of_fileMoves (moves_chmod mode)

/-- What no step for a target changes. -/
structure Elsewhere (target : Target) (state after : State) : Prop where
  files : ∀ path, path ≠ target.path -> after.world.file path = state.world.file path
  targets : after.targets = state.targets
  touched : after.touched = state.touched
  written : after.written = state.written
  directories : after.directories = state.directories
  undoing : after.undoing = state.undoing

theorem log_elsewhere (state : State) (path : Path) :
    (state.log path).targets = state.targets ∧ (state.log path).touched = state.touched ∧
      (state.log path).written = state.written ∧ (state.log path).directories = state.directories ∧
      (state.log path).undoing = state.undoing := by
  rw [State.log]
  split
  · exact ⟨rfl, rfl, rfl, rfl, rfl⟩
  · exact ⟨rfl, rfl, rfl, rfl, rfl⟩

theorem Step.elsewhere {state after : State} (step : Step target state after) :
    Elsewhere target state after := by
  rcases log_elsewhere state target.path with ⟨targets, touched, written, directories, undoing⟩
  cases step with
  | makeTemp _ => exact ⟨fun _ _ => rfl, rfl, rfl, rfl, rfl, rfl⟩
  | move moved =>
    cases moved with
    | makeDir name dir _ _ _ => exact ⟨fun _ _ => rfl, rfl, rfl, rfl, rfl, rfl⟩
    | file moved =>
      cases moved with
      | install bytes mode _ | replace temp bytes mode _ =>
        exact ⟨fun _ apart => World.file_put_ne _ _ apart, targets, touched, written, directories, undoing⟩
      | unlink file _ =>
        exact ⟨fun _ apart => World.file_drop_ne _ apart, targets, touched, written, directories, undoing⟩
      | chmod file mode _ =>
        exact ⟨fun _ apart => World.file_put_ne _ _ apart, rfl, rfl, rfl, rfl, rfl⟩
      | _ => exact ⟨fun _ _ => rfl, rfl, rfl, rfl, rfl, rfl⟩

/-- What no event changes. -/
structure Own (state after : State) : Prop where
  targets : after.targets = state.targets
  written : after.written = state.written
  directories : after.directories = state.directories
  undoing : after.undoing = state.undoing
  quiet : after.quiet = true -> state.quiet = true

theorem act_own (event : Event) (state : State) : Own state (act event state) := by
  have step := acted event state
  revert step
  generalize act event state = after
  intro step
  cases step with
  | write name dir bytes mode _ _ =>
    exact ⟨rfl, rfl, rfl, rfl, fun quiet => ((Bool.and_eq_true _ _).mp quiet).1⟩
  | remove path _ => exact ⟨rfl, rfl, rfl, rfl, fun quiet => ((Bool.and_eq_true _ _).mp quiet).1⟩
  | _ => exact ⟨rfl, rfl, rfl, rfl, id⟩

/-- An event changes no file that it does not touch. -/
theorem act_files (event : Event) (state : State) (path : Path)
    (free : path ∉ (act event state).touched) :
    path ∉ state.touched ∧ (act event state).world.file path = state.world.file path := by
  have step := acted event state
  revert step free
  generalize act event state = after
  intro free step
  cases step with
  | write name dir bytes mode _ _ =>
    rw [State.touch, List.mem_cons, not_or] at free
    exact ⟨free.2, World.file_put_ne _ _ free.1⟩
  | remove other _ =>
    rw [State.touch, List.mem_cons, not_or] at free
    exact ⟨free.2, World.file_drop_ne _ free.1⟩
  | _ => exact ⟨free, rfl⟩

def Unchanged (state after : State) : Prop := after = state

theorem looks_look : Moves around Unchanged (look read) :=
  Moves.call (fun _ _ _ result => by cases result; rfl) fun _ => rfl

theorem looks_missingDirs : Moves around Unchanged (missingDirs path) := by
  induction path with
  | nil => exact Moves.pure []
  | cons name dir ih =>
    refine (looks_look _).bind fun there => ?_
    cases there with
    | true => exact Moves.pure []
    | false => exact ih.bind fun _ => Moves.pure _

theorem looks_checkPreimage (target : Target) : Moves around Unchanged (checkPreimage target) := by
  have compared (current : Option Bytes) : Moves around Unchanged
      (if current ≠ target.before.map Prod.fst then Interleaved.Process.raise Fault.stale
        else (pure () : Run Unit)) := by
    split
    · exact Moves.raise _
    · exact Moves.pure ()
  refine (looks_look _).bind fun there => ?_
  cases there with
  | false => exact (Moves.pure none).bind compared
  | true =>
    refine Moves.bind (Moves.call ?_ fun _ => rfl) compared
    intro state value after result
    split at result
    · cases result
      rfl
    · cases result

end

end WorkspacePatches
end FixLoop
