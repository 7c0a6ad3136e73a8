import FixLoop.WorkspacePatches.Moves

namespace FixLoop
namespace WorkspacePatches

open Library
open Interleaved (Triple Stable Moves)

/-!
# Preimages

Which targets have their preimage: all that no other process has touched and
that the commit has not taken up, or that the rollback has written back.
-/

structure Kept (dirty : List Target) (state : State) : Prop where
  distinct : (state.targets.map Target.path).Nodup
  same : ∀ target ∈ state.targets, target.path ∉ state.touched -> target ∉ dirty ->
    preimage state.world target.path = target.before
  foreign : ∀ path file, state.world.file path = some file -> file.foreign = true ->
    path ∈ state.touched
  quiet : state.quiet = true -> ∀ target ∈ state.written, target.path ∉ state.touched
  known : ∀ target ∈ state.written, target ∈ state.targets
  undone : state.quiet = true -> ∀ file ∈ state.undone, file.foreign = false

namespace Kept

variable {dirty : List Target} {state : State}

/-- Another process touches one path. -/
theorem touch (kept : Kept dirty state) {path : Path} {world : World} (tidy : Bool)
    (elsewhere : ∀ other, other ≠ path -> world.file other = state.world.file other) :
    Kept dirty (state.touch path world tidy) := by
  refine ⟨kept.distinct, ?_, ?_, ?_, kept.known, ?_⟩
  · intro target known free clean
    rw [State.touch, List.mem_cons, not_or] at free
    have earlier := kept.same target known free.2 clean
    rw [preimage] at earlier ⊢
    rw [show (state.touch path world tidy).world = world from rfl, elsewhere _ free.1]
    exact earlier
  · intro other file found marked
    by_cases here : other = path
    · rw [here]
      exact List.mem_cons_self
    · rw [show (state.touch path world tidy).world = world from rfl, elsewhere other here] at found
      exact List.mem_cons_of_mem _ (kept.foreign other file found marked)
  · intro quiet target taken touched
    rw [State.touch, Bool.and_eq_true, Bool.not_eq_true'] at quiet
    rcases List.mem_cons.mp touched with here | earlier
    · rw [State.takenUp, List.any_eq_false] at quiet
      exact quiet.2 target taken (decide_eq_true here)
    · exact kept.quiet quiet.1 target taken earlier
  · intro quiet file listed
    rw [State.touch, Bool.and_eq_true] at quiet
    exact kept.undone quiet.1 file listed

variable {after : State} {target : Target}

/-- A change that no invariant looks at. -/
theorem sameFiles (kept : Kept dirty state) (files : after.world.files = state.world.files)
    (targets : after.targets = state.targets) (touched : after.touched = state.touched)
    (written : after.written = state.written) (quiet : after.quiet = state.quiet)
    (undone : after.undone = state.undone) : Kept dirty after := by
  have same (path : Path) : after.world.file path = state.world.file path := by
    rw [World.file, World.file, files]
  refine ⟨?_, ?_, ?_, ?_, ?_, ?_⟩
  · rw [targets]
    exact kept.distinct
  · intro target known free clean
    rw [preimage, same]
    exact kept.same target (targets ▸ known) (touched ▸ free) clean
  · intro path file found marked
    rw [same] at found
    rw [touched]
    exact kept.foreign path file found marked
  · rw [quiet, written, touched]
    exact kept.quiet
  · rw [written, targets]
    exact kept.known
  · rw [quiet, undone]
    exact kept.undone

theorem stable (dirty : List Target) : Stable around (Kept dirty) := by
  intro event state kept
  have step := acted event state
  change Kept dirty (act event state)
  revert step
  generalize act event state = after
  intro step
  cases step with
  | stay => exact kept
  | write name dir bytes mode _ _ =>
    exact kept.touch _ fun other apart => World.file_put_ne _ _ apart
  | remove path _ => exact kept.touch _ fun other apart => World.file_drop_ne _ apart
  | makeDir name dir _ _ | removeDir dir _ _ _ => exact kept.sameFiles rfl rfl rfl rfl rfl rfl

theorem path_ne (kept : Kept dirty state) {first second : Target} (one : first ∈ state.targets)
    (two : second ∈ state.targets) (apart : first ≠ second) : first.path ≠ second.path :=
  fun same => apart (List.inj_on_of_nodup_map kept.distinct one two same)

/-- The commit changes the file of a target that it has taken up. -/
theorem overwrite (kept : Kept dirty state) (listed : target ∈ dirty) (taken : target ∈ state.written)
    (elsewhere : ∀ other, other ≠ target.path -> after.world.file other = state.world.file other)
    (here : ∀ file, after.world.file target.path = some file -> file.foreign = true -> target.path ∈ state.touched)
    (undone : ∀ file ∈ after.undone, file ∈ state.undone ∨ state.world.file target.path = some file)
    (targets : after.targets = state.targets) (touched : after.touched = state.touched)
    (written : after.written = state.written) (quiet : after.quiet = state.quiet) : Kept dirty after := by
  refine ⟨?_, ?_, ?_, ?_, ?_, ?_⟩
  · rw [targets]
    exact kept.distinct
  · intro other known free clean
    rw [targets] at known
    rw [touched] at free
    have apart : other ≠ target := fun same => clean (same ▸ listed)
    rw [preimage, elsewhere _ (kept.path_ne known (kept.known target taken) apart)]
    exact kept.same other known free clean
  · intro path file found marked
    rw [touched]
    by_cases same : path = target.path
    · subst same
      exact here file found marked
    · rw [elsewhere path same] at found
      exact kept.foreign path file found marked
  · rw [quiet, written, touched]
    exact kept.quiet
  · rw [written, targets]
    exact kept.known
  · intro calm file member
    rw [quiet] at calm
    rcases undone file member with earlier | replaced
    · exact kept.undone calm file earlier
    · by_contra marked
      exact kept.quiet calm target taken
        (kept.foreign _ file replaced (Bool.of_not_eq_false marked))

theorem mem_log {file : File} (member : file ∈ (state.log target.path).undone) :
    file ∈ state.undone ∨ state.world.file target.path = some file := by
  rw [State.log] at member
  split at member
  · rcases List.mem_append.mp member with replaced | earlier
    · exact Or.inr (Option.mem_toList.mp replaced)
    · exact Or.inl earlier
  · exact Or.inl member

theorem log_same (state : State) (path : Path) :
    (state.log path).targets = state.targets ∧ (state.log path).touched = state.touched ∧
      (state.log path).written = state.written ∧ (state.log path).quiet = state.quiet := by
  rw [State.log]
  split
  · exact ⟨rfl, rfl, rfl, rfl⟩
  · exact ⟨rfl, rfl, rfl, rfl⟩

theorem install (kept : Kept dirty state) (listed : target ∈ dirty) (taken : target ∈ state.written)
    (bytes : Bytes) (mode : Nat) : Kept dirty (state.install target.path bytes mode) := by
  rcases log_same state target.path with ⟨targets, touched, written, quiet⟩
  refine kept.overwrite listed taken (fun other apart => World.file_put_ne _ _ apart) ?_
    (fun file member => mem_log member) targets touched written quiet
  intro file found marked
  rw [State.install, World.file_put_self] at found
  cases found
  cases marked

/-- Every move for a target that is taken up keeps what is known of the others. -/
theorem move (kept : Kept dirty state) (listed : target ∈ dirty) (taken : target ∈ state.written)
    (moved : Move target state after) : Kept dirty after := by
  rcases log_same state target.path with ⟨targets, touched, written, quiet⟩
  cases moved with
  | makeDir name dir _ _ _ => exact kept.sameFiles rfl rfl rfl rfl rfl rfl
  | file moved =>
    cases moved with
    | stay => exact kept
    | refusal dir | dropTemp temp => exact kept.sameFiles rfl rfl rfl rfl rfl rfl
    | install bytes mode _ => exact kept.install listed taken bytes mode
    | replace temp bytes mode _ =>
      exact (kept.install listed taken bytes mode).sameFiles rfl rfl rfl rfl rfl rfl
    | unlink file found =>
      refine kept.overwrite listed taken (fun other apart => World.file_drop_ne _ apart) ?_
        (fun file member => mem_log member) targets touched written quiet
      intro other left _
      rw [World.file_drop_self] at left
      cases left
    | chmod file mode found =>
      refine kept.overwrite listed taken (fun other apart => World.file_put_ne _ _ apart) ?_
        (fun file member => Or.inl member) rfl rfl rfl rfl
      intro other left marked
      rw [World.file_put_self] at left
      cases left
      exact kept.foreign _ file found marked

theorem step (kept : Kept dirty state) (listed : target ∈ dirty) (taken : target ∈ state.written)
    (step : Step target state after) : Kept dirty after := by
  cases step with
  | move moved => exact kept.move listed taken moved
  | makeTemp _ => exact kept.sameFiles rfl rfl rfl rfl rfl rfl

end Kept

/-! ## Writing back -/

/-- The targets have their preimages unless another process has touched them. -/
def Back (targets : List Target) (state : State) : Prop :=
  ∀ target ∈ targets, target.path ∉ state.touched ->
    preimage state.world target.path = target.before

theorem back_stable (targets : List Target) : Stable around (Back targets) := by
  intro event state back target listed free
  rcases act_files event state target.path free with ⟨earlier, same⟩
  change preimage (act event state).world target.path = _
  rw [preimage, same]
  exact back target listed earlier

/-- What the commit knows while it works on one target. -/
structure Working (written dirty others : List Target) (state : State) : Prop where
  kept : Kept dirty state
  written : state.written = written
  back : Back others state

theorem Working.stable (written dirty others : List Target) :
    Stable around (Working written dirty others) := by
  intro event state working
  refine ⟨Kept.stable dirty event state working.kept, ?_, back_stable others event state working.back⟩
  exact (act_own event state).written.trans working.written

section

variable {written dirty others : List Target} {target : Target}

theorem Working.step (listed : target ∈ dirty) (taken : target ∈ written)
    (apart : ∀ other ∈ others, other.path ≠ target.path) {state after : State}
    (working : Working written dirty others state) (step : Step target state after) :
    Working written dirty others after := by
  have elsewhere := step.elsewhere
  refine ⟨working.kept.step listed (working.written ▸ taken) step,
    elsewhere.written.trans working.written, ?_⟩
  intro other member free
  rw [elsewhere.touched] at free
  rw [preimage, elsewhere.files _ (apart other member)]
  exact working.back other member free

/-- The target's file has these bytes unless another process has touched it. -/
def Holding (target : Target) (bytes : Bytes) (state : State) : Prop :=
  target.path ∉ state.touched -> ∃ file,
    state.world.file target.path = some file ∧ file.bytes = bytes

theorem holding_stable (bytes : Bytes) : Stable around (Holding target bytes) := by
  intro event state holding free
  rcases act_files event state target.path free with ⟨earlier, same⟩
  change ∃ file, (act event state).world.file target.path = some file ∧ _
  rw [same]
  exact holding earlier

variable (listed : target ∈ dirty) (taken : target ∈ written)
  (apart : ∀ other ∈ others, other.path ≠ target.path)

include listed taken apart

theorem working_of_steps {Value : Type} {program : Run Value} (steps : Moves around (Step target) program) :
    Triple (Working written dirty others) program (fun _ => Working written dirty others)
      (fun _ => Working written dirty others) :=
  steps _ (Working.stable written dirty others) fun _ _ => Working.step listed taken apart

theorem triple_replaceTemp (temp : Nat) (bytes : Bytes) (mode : Nat) :
    Triple (Working written dirty others) (replaceTemp temp target.path bytes mode)
      (fun _ state => Working written dirty others state ∧ Holding target bytes state)
      (fun _ => Working written dirty others) := by
  refine triple_effect (Working.stable written dirty others) ?_ (fun _ _ working _ => working)
    (fun _ working => working)
  intro state after working result
  rcases free : placeable state.world target.path with fault | ⟨⟩
  · rw [free] at result
    cases result
  · rw [free] at result
    cases result
    refine ⟨working.step listed taken apart (.move (.file (.replace state temp bytes mode free))), fun _ => ?_⟩
    exact ⟨_, World.file_put_self _ _ _, rfl⟩

theorem triple_publish (bytes : Bytes) (mode : Option Nat) (temp : Nat) :
    Triple (Working written dirty others) (publish target.path bytes false mode temp)
      (fun _ state => Working written dirty others state ∧ Holding target bytes state)
      (fun _ => Working written dirty others) := by
  have idles := working_of_steps listed taken apart (steps_of_fileMoves moves_idle)
  have last := triple_replaceTemp listed taken apart temp bytes (mode.getD tempMode)
  refine idles.bind fun _ => ?_
  cases mode with
  | none => exact last
  | some given => exact idles.bind fun _ => last

theorem triple_unlinkTemp (bytes : Bytes) (temp : Nat) (dir : Path) :
    Triple (fun state => Working written dirty others state ∧ Holding target bytes state)
      (unlinkTemp temp dir)
      (fun _ state => Working written dirty others state ∧ Holding target bytes state)
      (fun _ => Working written dirty others) := by
  refine triple_effect ?_ ?_ ?_ ?_
  · exact fun event state both =>
      ⟨Working.stable written dirty others event state both.1, holding_stable bytes event state both.2⟩
  · intro state after both result
    cases result
    exact ⟨both.1.step listed taken apart (.move (.file (.dropTemp state temp))), both.2⟩
  · exact fun state _ both _ => both.1
  · exact fun state both => both.1.step listed taken apart (.move (.file (.refusal state dir)))

theorem triple_atomicWrite (bytes : Bytes) :
    Triple (Working written dirty others) (atomicWrite target.path bytes false)
      (fun _ state => Working written dirty others state ∧ Holding target bytes state)
      (fun _ => Working written dirty others) := by
  have steps {Value : Type} {program : Run Value} (moves : Moves around (Step target) program) :=
    working_of_steps listed taken apart moves
  refine (steps (steps_of_moves (moves_makeDirs (List.suffix_refl _)))).bind fun _ => ?_
  refine (steps (steps_of_fileMoves (moves_modeOf _))).bind fun mode => ?_
  refine (steps steps_makeTemp).bind fun temp => ?_
  exact (triple_publish listed taken apart bytes mode temp).ensuring
    (fun _ => triple_unlinkTemp listed taken apart bytes temp _)
    (fun _ => (steps (steps_of_fileMoves (moves_unlinkTemp temp _))).mono (fun _ working => working)
      (fun _ _ working => working) fun _ _ working => working)

/-- A write-back that returns has written back. -/
theorem triple_restore :
    Triple (Working written dirty others) (restore target)
      (fun _ => Working written dirty (target :: others)) (fun _ => Working written dirty others) := by
  have more {state : State} (working : Working written dirty others state)
      (back : target.path ∉ state.touched -> preimage state.world target.path = target.before) :
      Working written dirty (target :: others) state := by
    refine ⟨working.kept, working.written, ?_⟩
    intro other member free
    rcases List.mem_cons.mp member with same | member
    · rw [same] at free ⊢
      exact back free
    · exact working.back other member free
  unfold restore
  cases before : target.before with
  | none =>
    refine triple_effect (Working.stable written dirty others) ?_ (fun _ _ working _ => working)
      (fun _ working => working)
    intro state after working result
    split at result
    · cases result
    · split at result
      · next found =>
          cases result
          rcases Option.isSome_iff_exists.mp found with ⟨file, here⟩
          refine more (working.step listed taken apart (.move (.file (.unlink state file here)))) fun _ => ?_
          rw [before, preimage, World.file_drop_self]
          rfl
      · next absent =>
          cases result
          refine more working fun _ => ?_
          rw [before, preimage, Option.not_isSome_iff_eq_none.mp absent]
          rfl
  | some image =>
    rcases image with ⟨bytes, mode⟩
    refine (triple_atomicWrite listed taken apart bytes).bind fun _ => ?_
    refine triple_effect ?_ ?_ (fun _ _ both _ => both.1) fun _ both => both.1
    · exact fun event state both =>
        ⟨Working.stable written dirty others event state both.1, holding_stable bytes event state both.2⟩
    · intro state after both result
      split at result
      · next file found =>
          cases result
          refine more (both.1.step listed taken apart (.move (.file (.chmod state file mode found))))
            (fun free => ?_)
          rcases both.2 free with ⟨same, here, bytesSame⟩
          rw [found] at here
          cases here
          rw [before, preimage, World.file_put_self]
          exact congrArg (fun bytes => some (bytes, mode)) bytesSame
      · next absent =>
          split at result
          · cases result
            refine more both.1 fun free => ?_
            rcases both.2 free with ⟨same, here, _⟩
            rw [absent] at here
            cases here
          · cases result

end

/-! ## The loop over the changes -/

/-- All that the commit has not taken up is as it was prepared. -/
structure Applying (targets : List Target) (state : State) : Prop where
  kept : Kept state.written state
  targets : state.targets = targets

section

variable {targets : List Target}

theorem applying_stable : Stable around (Applying targets) := by
  intro event state applying
  have own := act_own event state
  refine ⟨?_, own.targets.trans applying.targets⟩
  change Kept (act event state).written (act event state)
  rw [own.written]
  exact Kept.stable _ event state applying.kept

variable {target : Target}

theorem Applying.step {state after : State} (applying : Applying targets state)
    (taken : target ∈ state.written) (step : Step target state after) : Applying targets after := by
  have elsewhere := step.elsewhere
  refine ⟨?_, elsewhere.targets.trans applying.targets⟩
  rw [elsewhere.written]
  exact applying.kept.step taken taken step

theorem Applying.takeUp {state : State} (applying : Applying targets state) (known : target ∈ targets)
    (missing : List Path) : Applying targets (takeUp target missing state) := by
  have kept := applying.kept
  refine ⟨⟨kept.distinct, ?_, kept.foreign, ?_, ?_, ?_⟩, applying.targets⟩
  · exact fun other listed free clean =>
      kept.same other listed free fun earlier => clean (List.mem_append_left _ earlier)
  · intro quiet other member touched
    rw [WorkspacePatches.takeUp, Bool.and_eq_true, Bool.not_eq_true', decide_eq_false_iff_not] at quiet
    rcases List.mem_append.mp member with earlier | here
    · exact kept.quiet quiet.1 other earlier touched
    · rw [List.mem_singleton.mp here] at touched
      exact quiet.2 touched
  · intro other member
    rcases List.mem_append.mp member with earlier | here
    · exact kept.known other earlier
    · rw [List.mem_singleton.mp here]
      exact applying.targets ▸ known
  · intro quiet file member
    rw [WorkspacePatches.takeUp, Bool.and_eq_true] at quiet
    exact kept.undone quiet.1 file member

theorem keeps_of_looks {Value : Type} {program : Run Value} (looks : Moves around Unchanged program)
    {holds : State -> Prop} (stable : Stable around holds) :
    Triple holds program (fun _ => holds) (fun _ => holds) :=
  looks holds stable fun _ _ initially same => by cases same; exact initially

theorem triple_applyChange (known : target ∈ targets) (content : Option String) :
    Triple (Applying targets) (applyChange (target, content)) (fun _ => Applying targets)
      (fun _ => Applying targets) := by
  refine (keeps_of_looks (looks_missingDirs _) applying_stable).bind fun missing => ?_
  have taken : Triple (Applying targets) (Interleaved.change (takeUp target missing) : Run Unit)
      (fun _ state => Applying targets state ∧ target ∈ state.written) (fun _ => Applying targets) :=
    Triple.change (fun state applying => ⟨applying.takeUp known missing,
      List.mem_append_right _ List.mem_cons_self⟩)
  refine taken.bind fun _ => ?_
  have stable : Stable around (fun state => Applying targets state ∧ target ∈ state.written) := by
    intro event state both
    refine ⟨applying_stable event state both.1, ?_⟩
    change target ∈ (act event state).written
    rw [(act_own event state).written]
    exact both.2
  have closed (state after : State) (both : Applying targets state ∧ target ∈ state.written)
      (step : Step target state after) : Applying targets after ∧ target ∈ after.written :=
    ⟨both.1.step both.2 step, step.elsewhere.written ▸ both.2⟩
  cases content with
  | none =>
    exact (steps_of_fileMoves (moves_unlink false) _ stable closed).mono (fun _ both => both)
      (fun _ _ both => both.1) fun _ _ both => both.1
  | some text =>
    exact (steps_atomicWrite _ _ _ stable closed).mono (fun _ both => both)
      (fun _ _ both => both.1) fun _ _ both => both.1

theorem triple_failing {pre : State -> Prop} {body : Run Unit} {post broken : State -> Prop}
    (triple : Triple pre body (fun _ => post) fun _ => broken) :
    Triple pre (failing body) (fun failed state => if failed then broken state else post state)
      (fun _ _ => False) := by
  have inner : Triple pre (do body; return false : Run Bool)
      (fun failed state => if failed then broken state else post state) (fun _ => broken) :=
    triple.bind fun _ => Triple.pure false (fun failed state => if failed then broken state else post state) _
  refine inner.handling fun fault => ?_
  exact (Triple.pure true (fun failed state => if failed then broken state else post state) _)

theorem Working.fewer {written dirty others fewer : List Target} {state : State}
    (working : Working written dirty others state)
    (within : ∀ target ∈ fewer, target ∈ others) : Working written dirty fewer state :=
  ⟨working.kept, working.written, fun target member => working.back target (within target member)⟩

/-- After the write-backs every target has its preimage, unless one failed. -/
theorem triple_restoreAll {written : List Target} (distinct : (targets.map Target.path).Nodup)
    (known : ∀ target ∈ written, target ∈ targets) (list done : List Target)
    (within : ∀ target ∈ list, target ∈ written)
    (doneKnown : ∀ target ∈ done, target ∈ targets) :
    Triple (Working written written done) (restoreAll list)
      (fun failed => Working written written (if failed then [] else list ++ done))
      (fun _ _ => False) := by
  induction list generalizing done with
  | nil =>
    exact Triple.pure false
      (fun (failed : Bool) => Working written written (if failed then [] else [] ++ done)) _
  | cons target rest ih =>
    have taken := within target List.mem_cons_self
    have later (other : Target) (member : other ∈ rest) : other ∈ written :=
      within other (List.mem_cons_of_mem _ member)
    have apart : ∀ other ∈ done.filter (fun other => decide (other.path ≠ target.path)),
        other.path ≠ target.path :=
      fun other member => of_decide_eq_true (List.mem_filter.mp member).2
    have head := (triple_failing (triple_restore taken taken apart)).mono
      (fun state (working : Working written written done state) =>
        working.fewer fun other member => (List.mem_filter.mp member).1)
      (fun _ _ holds => holds) fun _ _ holds => holds
    refine head.bind fun failed => ?_
    cases failed with
    | true =>
      have tail := (ih [] later fun _ member => absurd member List.not_mem_nil).mono
        (fun state (working : Working written written
            (done.filter fun other => decide (other.path ≠ target.path)) state) =>
          working.fewer fun other member => absurd member List.not_mem_nil)
        (fun _ _ holds => holds) fun _ _ holds => holds
      exact tail.map (fun others state working =>
        working.fewer fun other member => absurd member List.not_mem_nil)
    | false =>
      -- A path that was done before and is this target's is the target itself.
      have all (state : State)
          (working : Working written written
            (target :: done.filter fun other => decide (other.path ≠ target.path)) state) :
          Working written written (target :: done) state := by
        refine working.fewer fun other member => ?_
        rcases List.mem_cons.mp member with same | earlier
        · exact same ▸ List.mem_cons_self
        · by_cases here : other.path = target.path
          · have same := List.inj_on_of_nodup_map distinct (doneKnown other earlier)
              (known target taken) here
            exact same ▸ List.mem_cons_self
          · exact List.mem_cons_of_mem _ (List.mem_filter.mpr ⟨earlier, decide_eq_true here⟩)
      have listed (other : Target) (member : other ∈ target :: done) : other ∈ targets := by
        rcases List.mem_cons.mp member with same | earlier
        · exact same ▸ known target taken
        · exact doneKnown other earlier
      have tail := (ih (target :: done) later listed).mono all (fun _ _ holds => holds)
        (fun _ _ holds => holds)
      refine tail.map fun others state working => ?_
      cases others with
      | true => exact working
      | false =>
        refine working.fewer fun other member => ?_
        simp only [Bool.or_false, Bool.false_eq_true, if_false, List.cons_append, List.mem_cons,
          List.mem_append] at member ⊢
        rcases member with here | before | earlier
        · exact Or.inr (Or.inl here)
        · exact Or.inl before
        · exact Or.inr (Or.inr earlier)

end

end WorkspacePatches
end FixLoop
