import FixLoop.WorkspacePatches.Upkeep

namespace FixLoop
namespace WorkspacePatches

open Library
open Interleaved (Triple Stable Moves)

/-!
# The directories over all changes

Between two changes every listed directory exists.  When a change fails, the
directories that the commit made are listed, each behind the one around it.
-/

/-- What holds whenever the commit or the rollback works on no target. -/
structure Resting (state : State) : Prop where
  formed : Formed state
  swept : Swept none state
  neat : state.tidy = true -> Neat state
  ordered : state.tidy = true -> Ordered state

/-- All listed directories exist. -/
def Settled (state : State) : Prop :=
  state.tidy = true -> ∀ dir ∈ state.directories, dir ∈ state.world.dirs

theorem Ordered.act {state after : State} (ordered : Ordered state) (own : Own state after)
    (tidy : TidyAct state after) : Ordered after := by
  intro before name dir rest split
  rw [own.directories] at split
  exact (ordered before name dir rest split).imp id fun other made => other (tidy.made dir made)

theorem Resting.stable : Stable around Resting := by
  intro event state resting
  have own := act_own event state
  refine ⟨Formed.stable event state resting.formed, swept_stable none event state resting.swept, ?_, ?_⟩
  · intro tidy
    have step := tidyAct event state tidy
    exact (resting.neat step.tidy).act own step
  · intro tidy
    have step := tidyAct event state tidy
    exact (resting.ordered step.tidy).act own step

theorem Writing.resting {target : Target} {rooted : Prop} {state : State}
    (writing : Writing target none rooted state) : Resting state :=
  ⟨writing.body.formed, writing.swept, writing.body.neat, fun tidy => (writing.body.covered tidy).ordered⟩

/-- The targets, and whether the rollback has begun. -/
structure Phase (targets : List Target) (undoing : Bool) (state : State) : Prop where
  targets : state.targets = targets
  undoing : state.undoing = undoing

section

variable {targets : List Target} {undoing : Bool} {target : Target}

theorem Phase.stable : Stable around (Phase targets undoing) := by
  intro event state phase
  have own := act_own event state
  exact ⟨own.targets.trans phase.targets, own.undoing.trans phase.undoing⟩

theorem triple_phase {Value : Type} {program : Run Value} (steps : Moves around (Step target) program) :
    Triple (Phase targets undoing) program (fun _ => Phase targets undoing)
      (fun _ => Phase targets undoing) := by
  refine steps _ Phase.stable fun state after phase step => ?_
  have elsewhere := step.elsewhere
  exact ⟨elsewhere.targets.trans phase.targets, elsewhere.undoing.trans phase.undoing⟩

/-! ## The directories that are missing -/

/-- What the search has found above a path on the way to the target. -/
structure Found (here path : Path) (missing : List Path) (state : State) : Prop where
  within : ∀ dir ∈ missing, dir <:+ path
  covered : ∀ dir, dir <:+ path ->
    dir ∈ state.world.dirs ∨ state.world.file dir ≠ none ∨ dir ∈ missing
  order : ∀ inner name dir outer, missing = inner ++ (name :: dir) :: outer ->
    dir ∈ outer ∨ Standing here state dir

/-- Before a target is taken up. -/
structure Searching (targets : List Target) (state : State) : Prop where
  resting : Resting state
  phase : Phase targets false state
  settled : Settled state

theorem Searching.stable : Stable around (Searching targets) := by
  intro event state searching
  refine ⟨Resting.stable event state searching.resting, Phase.stable event state searching.phase, ?_⟩
  intro tidy dir listed
  have step := tidyAct event state tidy
  have listed : dir ∈ state.directories := (act_own event state).directories ▸ listed
  have way := (searching.resting.neat step.tidy).way dir listed
  exact step.dirs dir way (searching.settled step.tidy dir listed)

def SearchedTo (targets : List Target) (here path : Path) (missing : List Path) (state : State) : Prop :=
  Searching targets state ∧ (state.tidy = true -> Found here path missing state)

variable {state : State} {missing : List Path}

/-- A path that is there has every directory around it. -/
theorem found_present {here : Path} {name : String} {dir : Path} (formed : Formed state)
    (present : state.world.present (name :: dir) = true) : Found here (name :: dir) [] state := by
  have whole := formed.world
  refine ⟨fun _ member => absurd member List.not_mem_nil, ?_, ?_⟩
  · intro other within
    unfold World.present at present
    rw [Bool.or_eq_true, decide_eq_true_iff] at present
    rcases present with isDir | isFile
    · exact Or.inl (whole.above within isDir)
    · have file : state.world.file (name :: dir) ≠ none := Option.ne_none_iff_isSome.mpr isFile
      rcases List.suffix_cons_iff.mp within with same | further
      · rw [same]
        exact Or.inr (Or.inl file)
      · rcases whole.placed _ file with ⟨_, _, split, inDir⟩
        rw [<- (List.cons.inj split).2] at inDir
        exact Or.inl (whole.above further inDir)
  · intro inner other parent outer split
    exact absurd split.symm (by simp)

theorem Found.further {name : String} {dir : Path} (found : Found target.path.tail dir missing state) :
    Found target.path.tail (name :: dir) ((name :: dir) :: missing) state := by
  refine ⟨?_, ?_, ?_⟩
  · intro other member
    rcases List.mem_cons.mp member with same | later
    · rw [same]
    · exact (found.within other later).trans (List.suffix_cons name dir)
  · intro other within
    rcases List.suffix_cons_iff.mp within with same | above
    · rw [same]
      exact Or.inr (Or.inr List.mem_cons_self)
    · exact (found.covered other above).imp id (Or.imp id (List.mem_cons_of_mem _))
  · intro inner other parent outer split
    cases inner with
    | nil =>
      rcases List.cons.inj split with ⟨head, outside⟩
      rw [<- (List.cons.inj head).2, <- outside]
      rcases found.covered dir (List.suffix_refl _) with present | file | listed
      · exact Or.inr fun _ => Or.inl present
      · exact Or.inr fun _ => Or.inr file
      · exact Or.inl listed
    | cons first inner => exact found.order inner other parent outer (List.cons.inj split).2

theorem triple_missingDirs {path : Path}
    (inside : path <:+ target.path.tail) :
    Triple (Searching targets) (missingDirs path) (SearchedTo targets target.path.tail path)
      (fun _ => Searching targets) := by
  induction path with
  | nil =>
    refine (Triple.pure [] (SearchedTo targets target.path.tail []) _).mono ?_ (fun _ _ holds => holds)
      (fun _ _ holds => holds)
    intro state searching
    refine ⟨searching, fun _ => ⟨fun _ member => absurd member List.not_mem_nil, ?_, ?_⟩⟩
    · intro dir within
      rw [List.suffix_nil.mp within]
      exact Or.inl searching.resting.formed.world.root
    · intro inner name dir outer split
      exact absurd split.symm (by simp)
  | cons name dir ih =>
    have seen : Triple (Searching targets) (look fun world => world.present (name :: dir))
        (fun there state => Searching targets state ∧
          (there = true -> Found target.path.tail (name :: dir) [] state))
        (fun _ => Searching targets) := by
      refine Triple.call Searching.stable ?_ (fun _ _ searching _ => searching)
        (fun _ searching => searching)
      intro state there after searching result
      cases result
      exact ⟨searching, found_present searching.resting.formed⟩
    refine seen.bind fun there => ?_
    cases there with
    | true =>
      refine (Triple.pure [] (SearchedTo targets target.path.tail (name :: dir)) _).mono ?_
        (fun _ _ holds => holds) fun _ _ holds => holds
      exact fun state both => ⟨both.1, fun _ => both.2 rfl⟩
    | false =>
      have further : Triple (Searching targets)
          (do return (name :: dir) :: (<- missingDirs dir))
          (SearchedTo targets target.path.tail (name :: dir)) (fun _ => Searching targets) :=
        (ih ((List.suffix_cons name dir).trans inside)).map
          (fun missing state searched => ⟨searched.1, fun tidy => (searched.2 tidy).further⟩)
      exact further.mono (fun state both => both.1) (fun _ _ holds => holds) fun _ _ holds => holds

/-- A member of the joined list is in the first part or in the second. -/
theorem split_append {Item : Type} {first second before after : List Item} {item : Item}
    (split : first ++ second = before ++ item :: after) :
    (∃ rest, first = before ++ item :: rest) ∨
      ∃ between, before = first ++ between ∧ second = between ++ item :: after := by
  rcases List.append_eq_append_iff.mp split with ⟨between, same, rest⟩ | ⟨between, same, rest⟩
  · exact Or.inr ⟨between, same, rest⟩
  · cases between with
    | nil => exact Or.inr ⟨[], by rw [same, List.append_nil, List.append_nil], rest.symm⟩
    | cons head tail =>
      rw [List.cons_append, List.cons.injEq] at rest
      exact Or.inl ⟨tail, by rw [same, rest.1]⟩

theorem SearchedTo.takeUp (known : target ∈ targets)
    (searched : SearchedTo targets target.path.tail target.path.tail missing state) :
    Writing target none False (takeUp target missing state) := by
  rcases searched with ⟨searching, search⟩
  have resting := searching.resting
  have member : target ∈ state.targets := searching.phase.targets ▸ known
  refine ⟨⟨⟨resting.formed.world, resting.formed.temps, resting.formed.made⟩, member,
    List.mem_append_right _ List.mem_cons_self, fun tidy => ?_, fun tidy => ?_⟩,
    resting.swept, fun impossible => impossible.elim⟩
  · have neat := resting.neat tidy
    refine ⟨?_, neat.dirs, ?_, ?_, neat.kept⟩
    · intro name dir made found
      rcases neat.files name dir made found with ⟨other, taken, rest⟩
      exact ⟨other, List.mem_append_left _ taken, rest⟩
    · exact fun dir made => List.mem_append_left _ (neat.listed dir made)
    · intro dir listed
      rcases List.mem_append.mp listed with earlier | here
      · exact neat.way dir earlier
      · exact aboveTarget_of member ((search tidy).within dir (List.mem_reverse.mp here))
  · have found := search tidy
    have neat := resting.neat tidy
    refine ⟨?_, ?_, ?_⟩
    · intro before name dir after split
      rcases split_append split with ⟨rest, earlier⟩ | ⟨between, beginning, later⟩
      · -- A directory that was listed before exists, and so does the one around it.
        refine (resting.ordered tidy before name dir rest earlier).imp id fun other => ⟨fun _ => ?_, other⟩
        have there := searching.settled tidy (name :: dir)
          (earlier ▸ List.mem_append_right _ List.mem_cons_self)
        exact Or.inl (resting.formed.world.closed name dir there)
      · have reversed : missing = after.reverse ++ (name :: dir) :: between.reverse := by
          rw [<- List.reverse_reverse missing, later]
          simp only [List.reverse_append, List.reverse_cons, List.append_assoc, List.singleton_append]
        rw [beginning]
        rcases found.order _ name dir _ reversed with listed | standing
        · exact Or.inl (List.mem_append_right _ (List.mem_reverse.mp listed))
        · by_cases made : dir ∈ state.made
          · exact Or.inl (List.mem_append_left _ (neat.listed dir made))
          · exact Or.inr ⟨standing, made⟩
    · intro dir within
      refine (found.covered dir within).imp id (Or.imp id fun listed => ?_)
      exact List.mem_append_right _ (List.mem_reverse.mpr listed)
    · intro _ dir listed
      rcases List.mem_append.mp listed with earlier | here
      · exact Or.inl (searching.settled tidy dir earlier)
      · exact Or.inr (found.within dir (List.mem_reverse.mp here))

/-- After a write all listed directories exist. -/
theorem Writing.searching (writing : Writing target none True state) (phase : Phase targets false state) :
    Searching targets state := by
  refine ⟨writing.resting, phase, ?_⟩
  intro tidy dir listed
  rcases (writing.body.covered tidy).settled phase.undoing dir listed with present | within
  · exact present
  · exact writing.body.formed.world.above within (writing.rooted trivial tidy)

theorem triple_applyChange_dirs (known : target ∈ targets) (content : Option String) :
    Triple (Searching targets) (applyChange (target, content)) (fun _ => Searching targets)
      (fun _ state => Resting state ∧ Phase targets false state) := by
  have searched := (triple_missingDirs (List.suffix_refl target.path.tail)).mono
    (fun _ searching => searching) (fun _ _ searched => searched)
    (fun _ state (searching : Searching targets state) =>
      And.intro searching.resting searching.phase)
  refine searched.bind fun missing => ?_
  have taken : Triple (SearchedTo targets target.path.tail target.path.tail missing)
      (Interleaved.change (takeUp target missing) : Run Unit)
      (fun _ state => Writing target none False state ∧ Phase targets false state)
      (fun _ state => Resting state ∧ Phase targets false state) :=
    Triple.change (fun state searched =>
      ⟨searched.takeUp known, searched.1.phase.targets, searched.1.phase.undoing⟩)
  refine taken.bind fun _ => ?_
  cases content with
  | none =>
    exact (triple_unlink_dirs.both (triple_phase (steps_of_fileMoves (moves_unlink false)))).mono
      (fun _ both => both) (fun _ _ both => both.1.searching both.2)
      (fun _ _ both => ⟨both.1.resting, both.2⟩)
  | some text =>
    exact ((triple_atomicWrite_dirs _ _).both (triple_phase (steps_atomicWrite _ _))).mono
      (fun _ both => both) (fun _ _ both => both.1.searching both.2)
      (fun _ _ both => ⟨both.1.resting, both.2⟩)

end

end WorkspacePatches
end FixLoop
