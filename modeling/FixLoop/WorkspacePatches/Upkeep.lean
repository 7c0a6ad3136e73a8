import FixLoop.WorkspacePatches.Directories

namespace FixLoop
namespace WorkspacePatches

open Library
open Interleaved (Triple Stable Moves)

/-!
# The directories on the way to a target

While the commit works on one target, every directory on the way to it exists,
is a file or is listed for removal.  Later it is enough that no listed
directory was made before the directory around it was listed.
-/

/-- On the way to the target the path is a directory, or a file that keeps
directories from being made. -/
def Standing (here : Path) (state : State) (dir : Path) : Prop :=
  dir <:+ here -> dir ∈ state.world.dirs ∨ state.world.file dir ≠ none

structure Covered (here : Path) (state : State) : Prop where
  order : ∀ before name dir after, state.directories = before ++ (name :: dir) :: after ->
    dir ∈ before ∨ (Standing here state dir ∧ dir ∉ state.made)
  covered : ∀ dir, dir <:+ here ->
    dir ∈ state.world.dirs ∨ state.world.file dir ≠ none ∨ dir ∈ state.directories
  settled : state.undoing = false -> ∀ dir ∈ state.directories,
    dir ∈ state.world.dirs ∨ dir <:+ here

/-- A listed directory stands behind the directory around it, unless the
commit did not make that one. -/
def Ordered (state : State) : Prop :=
  ∀ before name dir after, state.directories = before ++ (name :: dir) :: after ->
    dir ∈ before ∨ dir ∉ state.made

theorem Covered.ordered {here : Path} {state : State} (covered : Covered here state) : Ordered state :=
  fun before name dir after split => (covered.order before name dir after split).imp id And.right

/-- Temporary files in directories that the commit made: at most the current one. -/
def Swept (current : Option (Nat × Path)) (state : State) : Prop :=
  state.tidy = true -> ∀ temp ∈ state.world.temps, temp.2 ∈ state.made -> current = some temp

theorem swept_stable (current : Option (Nat × Path)) : Stable around (Swept current) := by
  intro event state swept tidy temp member made
  have step := tidyAct event state tidy
  exact swept step.tidy temp (step.temps ▸ member) (step.made _ made)

theorem Swept.file {current : Option (Nat × Path)} {target : Target} {state after : State}
    (swept : Swept current state) (same : SameDirs target state after) : Swept current after := by
  intro tidy temp member made
  exact swept (same.tidy tidy) temp (same.temps temp member) (same.made ▸ made)

/-- What holds while the commit works on a target. -/
structure Body (target : Target) (state : State) : Prop where
  formed : Formed state
  known : target ∈ state.targets
  taken : target ∈ state.written
  neat : state.tidy = true -> Neat state
  covered : state.tidy = true -> Covered target.path.tail state

namespace Covered

variable {target : Target} {state after : State}

theorem act (covered : Covered target.path.tail state) (known : target ∈ state.targets)
    (neat : Neat state) (own : Own state after) (tidy : TidyAct state after) :
    Covered target.path.tail after := by
  have above {dir : Path} (within : dir <:+ target.path.tail) := aboveTarget_of known within
  refine ⟨?_, ?_, ?_⟩
  · intro before name dir rest split
    rw [own.directories] at split
    rcases covered.order before name dir rest split with listed | ⟨standing, other⟩
    · exact Or.inl listed
    · refine Or.inr ⟨fun within => ?_, fun made => other (tidy.made dir made)⟩
      exact (standing within).imp (tidy.dirs dir (above within)) (tidy.files dir (above within))
  · intro dir within
    rw [own.directories]
    rcases covered.covered dir within with present | found | listed
    · exact Or.inl (tidy.dirs dir (above within) present)
    · exact Or.inr (Or.inl (tidy.files dir (above within) found))
    · exact Or.inr (Or.inr listed)
  · intro applying dir listed
    rw [own.undoing] at applying
    rw [own.directories] at listed
    exact (covered.settled applying dir listed).imp (tidy.dirs dir (neat.way dir listed)) id

theorem file (covered : Covered target.path.tail state) (formed : Formed state)
    (same : SameDirs target state after) : Covered target.path.tail after := by
  -- The target's own file is not above the target.
  have keeps {dir : Path} (within : dir <:+ target.path.tail) (found : state.world.file dir ≠ none) :
      after.world.file dir ≠ none := by
    by_cases here : dir = target.path
    · cases path : target.path with
      | nil =>
        rcases formed.world.placed dir found with ⟨_, _, named, _⟩
        rw [here, path] at named
        cases named
      | cons name parent =>
        rw [path, List.tail_cons] at within
        rw [path] at here
        rw [here] at within
        exact absurd (List.IsSuffix.length_le within) (by simp)
    · rw [same.files dir here]
      exact found
  refine ⟨?_, ?_, ?_⟩
  · intro before name dir rest split
    rw [same.directories] at split
    rw [same.made]
    refine (covered.order before name dir rest split).imp id (And.imp_left ?_)
    intro standing within
    rw [same.dirs]
    exact (standing within).imp id (keeps within)
  · intro dir within
    rw [same.dirs, same.directories]
    exact (covered.covered dir within).imp id (Or.imp_left (keeps within))
  · intro applying dir listed
    rw [same.dirs]
    exact covered.settled (same.undoing ▸ applying) dir (same.directories ▸ listed)

theorem makeDir (covered : Covered target.path.tail state) {name : String} {dir : Path}
    (inside : name :: dir <:+ target.path.tail) (free : state.world.present (name :: dir) = false) :
    Covered target.path.tail { state with
      world := { state.world with dirs := (name :: dir) :: state.world.dirs }
      made := (name :: dir) :: state.made } := by
  rcases World.absent free with ⟨noDir, noFile⟩
  refine ⟨?_, ?_, ?_⟩
  · intro before other parent rest split
    rcases covered.order before other parent rest split with listed | ⟨standing, apart⟩
    · exact Or.inl listed
    · refine Or.inr ⟨fun within => (standing within).imp_left (List.mem_cons_of_mem _), ?_⟩
      intro made
      rcases List.mem_cons.mp made with same | earlier
      · rcases standing (same ▸ inside) with present | found
        · exact noDir (same ▸ present)
        · exact found (same ▸ noFile)
      · exact apart earlier
  · exact fun other within => (covered.covered other within).imp_left (List.mem_cons_of_mem _)
  · exact fun applying other listed =>
      (covered.settled applying other listed).imp_left (List.mem_cons_of_mem _)

end Covered

theorem Body.stable (target : Target) : Stable around (Body target) := by
  intro event state body
  have own := act_own event state
  refine ⟨Formed.stable event state body.formed, ?_, ?_, ?_, ?_⟩
  · change target ∈ (act event state).targets
    rw [own.targets]
    exact body.known
  · change target ∈ (act event state).written
    rw [own.written]
    exact body.taken
  · intro tidy
    have step := tidyAct event state tidy
    exact (body.neat step.tidy).act own step
  · intro tidy
    have step := tidyAct event state tidy
    exact (body.covered step.tidy).act body.known (body.neat step.tidy) own step

section

variable {target : Target} {state after : State}

theorem Body.file (body : Body target state) (moved : FileMove target state after) :
    Body target after := by
  have same := moved.sameDirs body.formed
  refine ⟨body.formed.file moved, ?_, ?_, ?_, ?_⟩
  · rw [same.targets]
    exact body.known
  · rw [same.written]
    exact body.taken
  · exact fun tidy => (body.neat (same.tidy tidy)).file body.known body.taken same
  · exact fun tidy => (body.covered (same.tidy tidy)).file body.formed same

/-- A directory on the way to the target that does not exist is listed. -/
theorem Covered.listed (covered : Covered target.path.tail state) {dir : Path}
    (within : dir <:+ target.path.tail) (free : state.world.present dir = false) :
    dir ∈ state.directories := by
  rcases World.absent free with ⟨noDir, noFile⟩
  rcases covered.covered dir within with present | found | listed
  · exact absurd present noDir
  · exact absurd noFile found
  · exact listed

theorem Body.move (body : Body target state) (moved : Move target state after) : Body target after := by
  have formed := body.formed.step (.move moved)
  cases moved with
  | file moved => exact body.file moved
  | makeDir name dir within inside free =>
    refine ⟨formed, body.known, body.taken, fun tidy => ?_, fun tidy => ?_⟩
    · exact (body.neat tidy).makeDir body.formed free ((body.covered tidy).listed within free)
    · exact (body.covered tidy).makeDir within free

theorem Swept.move {current : Option (Nat × Path)} (swept : Swept current state) (formed : Formed state)
    (moved : Move target state after) : Swept current after := by
  cases moved with
  | file moved => exact swept.file (moved.sameDirs formed)
  | makeDir name dir within inside free =>
    intro tidy temp member made
    rcases List.mem_cons.mp made with same | earlier
    · exact absurd (same ▸ formed.temps temp member) (World.absent free).1
    · exact swept tidy temp member earlier

/-- The directory of the target exists. -/
def Rooted (target : Target) (state : State) : Prop :=
  state.tidy = true -> target.path.tail ∈ state.world.dirs

theorem Rooted.move (rooted : Rooted target state) (formed : Formed state)
    (moved : Move target state after) : Rooted target after := by
  cases moved with
  | file moved =>
    have same := moved.sameDirs formed
    exact fun tidy => same.dirs ▸ rooted (same.tidy tidy)
  | makeDir name dir _ _ _ => exact fun tidy => List.mem_cons_of_mem _ (rooted tidy)

end

/-! ## One write -/

/-- While one temporary file may be there. -/
structure Writing (target : Target) (current : Option (Nat × Path)) (rooted : Prop) (state : State) :
    Prop where
  body : Body target state
  swept : Swept current state
  rooted : rooted -> Rooted target state

section

variable {target : Target} {current : Option (Nat × Path)} {rooted : Prop}

theorem Writing.stable : Stable around (Writing target current rooted) := by
  intro event state writing
  refine ⟨Body.stable target event state writing.body, swept_stable current event state writing.swept, ?_⟩
  intro known tidy
  have step := tidyAct event state tidy
  exact step.dirs _ (aboveTarget_of writing.body.known (List.suffix_refl _)) (writing.rooted known step.tidy)

theorem Writing.move {state after : State} (writing : Writing target current rooted state)
    (moved : Move target state after) : Writing target current rooted after :=
  ⟨writing.body.move moved, writing.swept.move writing.body.formed moved,
    fun known => (writing.rooted known).move writing.body.formed moved⟩

theorem triple_writing {Value : Type} {program : Run Value} (moves : Moves around (Move target) program) :
    Triple (Writing target current rooted) program (fun _ => Writing target current rooted)
      (fun _ => Writing target current rooted) :=
  moves _ Writing.stable fun _ _ => Writing.move

theorem Writing.weaken {state : State} (writing : Writing target current rooted state) :
    Writing target current False state :=
  ⟨writing.body, writing.swept, fun impossible => impossible.elim⟩

theorem triple_makeTemp :
    Triple (Writing target none False) (makeTemp target.path.tail)
      (fun temp => Writing target (some (temp, target.path.tail)) True)
      (fun _ => Writing target none False) := by
  refine Triple.call Writing.stable ?_ (fun _ _ writing _ => writing) fun _ writing => writing
  intro state value after writing result
  split at result
  · next inside =>
      cases result
      have body := writing.body
      refine ⟨⟨body.formed.step (.makeTemp state inside), body.known, body.taken, ?_, ?_⟩, ?_, ?_⟩
      · intro tidy
        have neat := body.neat tidy
        exact ⟨neat.files, neat.dirs, neat.listed, neat.way, neat.kept⟩
      · intro tidy
        have covered := body.covered tidy
        exact ⟨covered.order, covered.covered, covered.settled⟩
      · intro tidy temp member made
        rcases List.mem_cons.mp member with here | earlier
        · rw [here]
        · cases writing.swept tidy temp earlier made
      · exact fun _ _ => inside
  · cases result

theorem triple_unlinkTemp_sweeps (temp : Nat) :
    Triple (Writing target (some (temp, target.path.tail)) rooted) (unlinkTemp temp target.path.tail)
      (fun _ => Writing target none rooted) (fun _ => Writing target none rooted) := by
  refine triple_effect Writing.stable ?_ ?_ ?_
  · intro state after writing result
    cases result
    have moved : Move target state (dropTemp temp state) := .file (.dropTemp state temp)
    have next := writing.move moved
    refine ⟨next.body, ?_, next.rooted⟩
    intro tidy other member made
    rcases List.mem_filter.mp member with ⟨earlier, apart⟩
    have same := Option.some.inj (writing.swept tidy other earlier made)
    rw [<- same] at apart
    exact absurd rfl (of_decide_eq_true apart)
  · intro state fault _ impossible
    cases impossible
  · intro state writing
    have next := writing.move (.file (.refusal state target.path.tail))
    refine ⟨next.body, ?_, next.rooted⟩
    intro tidy other member made
    rw [Bool.and_eq_true, Bool.not_eq_true', decide_eq_false_iff_not] at tidy
    have same := Option.some.inj (writing.swept tidy.1 other member made)
    rw [<- same] at made
    exact absurd made tidy.2

/-- A write keeps the directories in order and leaves no temporary file in a
directory that the commit made; when it returns, the target's directory exists. -/
theorem triple_atomicWrite_dirs (bytes : Bytes) (createOnly : Bool) :
    Triple (Writing target none False) (atomicWrite target.path bytes createOnly)
      (fun _ => Writing target none True) (fun _ => Writing target none False) := by
  refine (triple_writing (moves_makeDirs (List.suffix_refl _))).bind fun _ => ?_
  refine (triple_writing (fileMoves (moves_modeOf _))).bind fun mode => ?_
  refine triple_makeTemp.bind fun temp => ?_
  refine (triple_writing (fileMoves (moves_publish bytes createOnly mode temp))).ensuring ?_ ?_
  · intro _
    exact (triple_unlinkTemp_sweeps temp).mono (fun _ writing => writing) (fun _ _ writing => writing)
      (fun _ _ writing => writing.weaken)
  · intro _
    exact (triple_unlinkTemp_sweeps temp).mono (fun _ writing => writing)
      (fun _ _ writing => writing.weaken) fun _ _ writing => writing.weaken

/-- A file that is deleted was in an existing directory. -/
theorem triple_unlink_dirs :
    Triple (Writing target none False) (unlink target.path false) (fun _ => Writing target none True)
      (fun _ => Writing target none False) := by
  refine triple_effect Writing.stable ?_ (fun _ _ writing _ => writing) fun _ writing => writing
  intro state after writing result
  split at result
  · cases result
  · split at result
    · next found =>
        cases result
        rcases Option.isSome_iff_exists.mp found with ⟨file, here⟩
        have moved : Move target state { state.log target.path with
            world := state.world.drop target.path } := .file (.unlink state file here)
        have next := writing.move moved
        refine ⟨next.body, next.swept, fun _ _ => ?_⟩
        have there : state.world.file target.path ≠ none := by
          rw [here]
          exact Option.some_ne_none file
        rcases writing.body.formed.world.placed _ there with ⟨name, dir, same, inside⟩
        rw [same]
        exact inside
    · cases result

end

end WorkspacePatches
end FixLoop
